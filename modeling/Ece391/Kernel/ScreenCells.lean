import Ece391.Kernel.ScreenCursor

/-!
# The cells of the screen

The 2000 cells of the live page are numbered in reading order, and what storing a
character, scrolling and clearing do to the screen is stated cell by cell.
-/

namespace Ece391.Kernel

open Ece391.Library

/-- The character and the attribute of a cell. -/
def cell (memory : Tracked Int UInt8) (k : Nat) : UInt8 × UInt8 :=
  (memory.cells (video + 2 * k), memory.cells (video + 2 * k + 1))

/-- A space in the attribute of all output. -/
def blank : UInt8 × UInt8 := (0x20, 7)

/-- Two consoles show the same characters in the same attributes. -/
def SameScreen (first second : Console) : Prop :=
  ∀ k < 2000, cell first.memory k = cell second.memory k

section

variable {memory : Tracked Int UInt8} {k n : Nat}

/-- Storing a character and its attribute changes one cell. -/
theorem cell_store (place : Nat) (char color : UInt8) :
    cell ((memory.store (video + 2 * place) char).store (video + 2 * place + 1) color) k =
      if k = place then (char, color) else cell memory k := by
  by_cases same : k = place
  · subst same
    have apart : video + 2 * (k : Int) ≠ video + 2 * (k : Int) + 1 := by omega
    rw [if_pos rfl]
    refine Prod.ext ?_ ?_
    · exact (Function.update_of_ne apart ..).trans (Function.update_self ..)
    · exact Function.update_self ..
  · have apart (a b : Int) (small : 0 ≤ a ∧ a ≤ 1) (small' : 0 ≤ b ∧ b ≤ 1) :
        video + 2 * (k : Int) + a ≠ video + 2 * (place : Int) + b := by omega
    have first := apart 0 0 (by omega) (by omega)
    have second := apart 0 1 (by omega) (by omega)
    have third := apart 1 0 (by omega) (by omega)
    have fourth := apart 1 1 (by omega) (by omega)
    simp only [Int.add_zero] at first second third
    simp [cell, Tracked.store, same, Function.update_of_ne, first, second, third, fourth]

/-! ## Scrolling -/

/-- One pass of the inner loop. -/
theorem cell_scrollCell (j i : Nat) :
    cell (Console.scrollCell j memory i) k =
      if j + 1 = 24 ∧ k = 80 * j + i + 80 then blank
      else if k = 80 * j + i then ((cell memory (80 * j + i + 80)).1, 7)
      else cell memory k := by
  have target : video + 2 * (80 * (j : Int) + i) = video + 2 * ((80 * j + i : Nat) : Int) := by
    omega
  have source : video + 2 * (80 * ((j : Int) + 1) + i) =
      video + 2 * ((80 * j + i + 80 : Nat) : Int) := by
    omega
  simp only [Console.scrollCell, target, source]
  by_cases lastRow : j + 1 = 24
  · rw [if_pos lastRow, cell_store, cell_store]
    simp only [lastRow, true_and]
    rfl
  · rw [if_neg lastRow, cell_store]
    simp only [lastRow, false_and, if_false]
    rfl

/-- A row, up to a column. -/
theorem cell_scrollCells (j : Nat) (bound : n ≤ 80) :
    cell ((List.range n).foldl (Console.scrollCell j) memory) k =
      if j + 1 = 24 ∧ 80 * j + 80 ≤ k ∧ k < 80 * j + 80 + n then blank
      else if 80 * j ≤ k ∧ k < 80 * j + n then ((cell memory (k + 80)).1, 7)
      else cell memory k := by
  induction n generalizing k with
  | zero =>
      rw [if_neg (by omega), if_neg (by omega)]
      rfl
  | succ n ih =>
      have before (k : Nat) := @ih k (by omega)
      rw [List.range_succ, List.foldl_append, List.foldl_cons, List.foldl_nil, cell_scrollCell,
        before, before]
      -- The row below is still as it was when its cell is read.
      rw [if_neg (show ¬ (j + 1 = 24 ∧ 80 * j + 80 ≤ 80 * j + n + 80 ∧
        80 * j + n + 80 < 80 * j + 80 + n) by omega),
        if_neg (show ¬ (80 * j ≤ 80 * j + n + 80 ∧ 80 * j + n + 80 < 80 * j + n) by omega)]
      by_cases here : k = 80 * j + n
      · subst here
        rw [if_neg (by omega), if_pos rfl, if_neg (by omega), if_pos (by omega)]
      · by_cases below : j + 1 = 24 ∧ k = 80 * j + n + 80
        · rw [if_pos below, if_pos (by omega)]
        · rw [if_neg below, if_neg here]
          split_ifs <;> first | rfl | omega

/-- The rows above a row. -/
theorem cell_scrollRows (bound : n ≤ 24) :
    cell ((List.range n).foldl Console.scrollRow memory) k =
      if n = 24 ∧ 1920 ≤ k ∧ k < 2000 then blank
      else if k < 80 * n then ((cell memory (k + 80)).1, 7)
      else cell memory k := by
  induction n generalizing k with
  | zero =>
      rw [if_neg (by omega), if_neg (by omega)]
      rfl
  | succ n ih =>
      have before (k : Nat) := @ih k (by omega)
      rw [List.range_succ, List.foldl_append, List.foldl_cons, List.foldl_nil,
        Console.scrollRow, cell_scrollCells n (Nat.le_refl 80), before, before]
      split_ifs <;> first | rfl | omega

/-- Scrolling moves every row up and blanks the last one. -/
theorem cell_scrolling (console : Console) :
    cell console.scrolling.memory k =
      if 1920 ≤ k ∧ k < 2000 then blank
      else if k < 1920 then ((cell console.memory (k + 80)).1, 7)
      else cell console.memory k := by
  have rows := @cell_scrollRows console.memory k 24 (Nat.le_refl 24)
  have memory : console.scrolling.memory =
      (List.range 24).foldl Console.scrollRow console.memory := rfl
  rw [memory, rows]
  simp only [true_and, Nat.reduceMul]

/-! ## Clearing -/

theorem cell_blankCells (n : Nat) :
    cell ((List.range n).foldl (Console.blankCell video) memory) k =
      if k < n then blank else cell memory k := by
  induction n generalizing k with
  | zero => rw [if_neg (by omega)]; rfl
  | succ n ih =>
      rw [List.range_succ, List.foldl_append, List.foldl_cons, List.foldl_nil,
        Console.blankCell, cell_store, ih]
      split_ifs <;> first | rfl | omega

/-- Clearing blanks every cell. -/
theorem cell_clear (console : Console) :
    cell console.clear.memory k = if k < 2000 then blank else cell console.memory k := by
  change cell (Console.blankCells video console.memory) k = _
  unfold Console.blankCells
  exact cell_blankCells 2000

end

end Ece391.Kernel
