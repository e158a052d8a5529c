import Mathlib.Data.List.Nodup
import Mathlib.Data.List.ProdSigma
import Mathlib.Logic.Function.Basic

/-!
# Sweeps over distinct cells

A sweep visits the cells of a list one after the other and replaces what is stored under the
key of each.  A saving sweep first puts the old value into a slot of the cell.  As long as
distinct cells have distinct keys and slots, each cell sees the memory as it was before the
sweep, and nothing else is touched.
-/

namespace Ece391.Library

variable {Cell Key Slot Value : Type*} [DecidableEq Key] [DecidableEq Slot]

/-- The memory after a sweep. -/
def sweep (key : Cell → Key) (value : Cell → Value → Value) (cells : List Cell)
    (memory : Key → Value) : Key → Value :=
  cells.foldl
    (fun memory cell => Function.update memory (key cell) (value cell (memory (key cell))))
    memory

/-- The memory and the slots after a saving sweep. -/
def savingSweep (key : Cell → Key) (value : Cell → Value → Value) (slot : Cell → Slot)
    (cells : List Cell) (before : (Key → Value) × (Slot → Value)) :
    (Key → Value) × (Slot → Value) :=
  cells.foldl
    (fun before cell =>
      (Function.update before.1 (key cell) (value cell (before.1 (key cell))),
        Function.update before.2 (slot cell) (before.1 (key cell))))
    before

variable {key : Cell → Key} {value : Cell → Value → Value} {slot : Cell → Slot}
variable {cells : List Cell} {memory : Key → Value} {saved : Slot → Value} {cell : Cell}

theorem sweep_cons (first : Cell) :
    sweep key value (first :: cells) memory =
      sweep key value cells
        (Function.update memory (key first) (value first (memory (key first)))) :=
  rfl

theorem sweep_append (first : List Cell) :
    sweep key value (first ++ cells) memory =
      sweep key value cells (sweep key value first memory) :=
  List.foldl_append ..

/-- A loop over the pairs of two lists goes row by row. -/
theorem foldl_product {Row Column Memory : Type*} (pass : Memory → Row × Column → Memory)
    (rows : List Row) (columns : List Column) (memory : Memory) :
    (rows ×ˢ columns).foldl pass memory =
      rows.foldl
        (fun memory row => columns.foldl (fun memory column => pass memory (row, column)) memory)
        memory := by
  have pairs : rows ×ˢ columns = rows.flatMap fun row => columns.map (Prod.mk row) := rfl
  rw [pairs, List.foldl_flatMap]
  simp only [List.foldl_map]

theorem sweep_product {Row Column : Type*} {key : Row × Column → Key}
    {value : Row × Column → Value → Value} (rows : List Row) (columns : List Column) :
    sweep key value (rows ×ˢ columns) memory =
      rows.foldl
        (fun memory row => sweep (fun column => key (row, column))
          (fun column => value (row, column)) columns memory)
        memory :=
  foldl_product ..

theorem savingSweep_cons (first : Cell) :
    savingSweep key value slot (first :: cells) (memory, saved) =
      savingSweep key value slot cells
        (Function.update memory (key first) (value first (memory (key first))),
          Function.update saved (slot first) (memory (key first))) :=
  rfl

/-- A key of no cell keeps its value. -/
theorem sweep_elsewhere {place : Key} (elsewhere : ∀ cell ∈ cells, key cell ≠ place) :
    sweep key value cells memory place = memory place := by
  induction cells generalizing memory with
  | nil => rfl
  | cons first cells ih =>
      have apart : place ≠ key first := (elsewhere first (by simp)).symm
      rw [sweep_cons, ih fun cell listed => elsewhere cell (by simp [listed]),
        Function.update_of_ne apart]

/-- The key of a cell holds the cell's value. -/
theorem sweep_visited (distinct : (cells.map key).Nodup) (visited : cell ∈ cells) :
    sweep key value cells memory (key cell) = value cell (memory (key cell)) := by
  induction cells generalizing memory with
  | nil => cases visited
  | cons first cells ih =>
      rw [List.map_cons, List.nodup_cons] at distinct
      have later (other : Cell) (listed : other ∈ cells) : key other ≠ key first := fun same =>
        distinct.1 (same ▸ List.mem_map_of_mem listed)
      rw [sweep_cons]
      cases List.mem_cons.mp visited with
      | inl here =>
          subst here
          rw [sweep_elsewhere later, Function.update_self]
      | inr listed => rw [ih distinct.2 listed, Function.update_of_ne (later cell listed)]

/-- Saving does not change what a sweep stores. -/
theorem savingSweep_memory :
    (savingSweep key value slot cells (memory, saved)).1 = sweep key value cells memory := by
  induction cells generalizing memory saved with
  | nil => rfl
  | cons first cells ih => rw [savingSweep_cons, ih, sweep_cons]

/-- A slot of no cell keeps its value. -/
theorem savingSweep_elsewhere {place : Slot} (elsewhere : ∀ cell ∈ cells, slot cell ≠ place) :
    (savingSweep key value slot cells (memory, saved)).2 place = saved place := by
  induction cells generalizing memory saved with
  | nil => rfl
  | cons first cells ih =>
      have apart : place ≠ slot first := (elsewhere first (by simp)).symm
      rw [savingSweep_cons, ih fun cell listed => elsewhere cell (by simp [listed]),
        Function.update_of_ne apart]

/-- The slot of a cell holds what was under its key before the sweep. -/
theorem savingSweep_visited (distinct : (cells.map key).Nodup)
    (slots : (cells.map slot).Nodup) (visited : cell ∈ cells) :
    (savingSweep key value slot cells (memory, saved)).2 (slot cell) = memory (key cell) := by
  induction cells generalizing memory saved with
  | nil => cases visited
  | cons first cells ih =>
      rw [List.map_cons, List.nodup_cons] at distinct slots
      rw [savingSweep_cons]
      cases List.mem_cons.mp visited with
      | inl here =>
          subst here
          rw [savingSweep_elsewhere, Function.update_self]
          intro other listed same
          exact slots.1 (same ▸ List.mem_map_of_mem listed)
      | inr listed =>
          have apart : key cell ≠ key first := fun same =>
            distinct.1 (same ▸ List.mem_map_of_mem listed)
          rw [ih distinct.2 slots.2 listed, Function.update_of_ne apart]

end Ece391.Library
