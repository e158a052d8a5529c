import Mathlib.Logic.Function.Basic
import Mathlib.Data.List.Induction

/-!
# A paper roll behind a window

Text is printed at consecutive places of an endless roll, `width` places to a row, and a
window shows the last `height` rows that printing has reached.  When the window moves down
a row, what is on the paper is refreshed.  A printer may skip some places; the place it
prints at moves on all the same.

The roll after a whole text is given in closed form, and with it the condition under which
a printer that skips places shows the same window as one that skips none.
-/

namespace Ece391.Library

variable {α : Type*}

/-- A roll with the place that is printed next. -/
structure PaperRoll (α : Type*) where
  content : Nat → α
  place : Nat

namespace PaperRoll

/-- The rows above the window. -/
def rowsAbove (width height place : Nat) : Nat :=
  place / width + 1 - height

section

variable (width height : Nat) (refresh : α → α)

/-- The next place; if the window has to move down, the paper is refreshed. -/
def advance (roll : PaperRoll α) : PaperRoll α where
  content :=
    if rowsAbove width height (roll.place + 1) = rowsAbove width height roll.place then
      roll.content
    else fun q => refresh (roll.content q)
  place := roll.place + 1

/-- Print a value, unless the place is one to skip. -/
def print (skips : Nat → Prop) [DecidablePred skips] (roll : PaperRoll α) (value : α) :
    PaperRoll α :=
  advance width height refresh
    { roll with
      content :=
        if skips roll.place then roll.content
        else Function.update roll.content roll.place value }

/-- The paper with a text printed from a place on, before it is refreshed. -/
def printed (skips : Nat → Prop) [DecidablePred skips] (start : Nat) (values : List α)
    (content : Nat → α) (q : Nat) : α :=
  if start ≤ q ∧ ¬ skips q then (values[q - start]?).getD (content q) else content q

/-- The paper once the window may have moved between two places. -/
def shown (first last : Nat) (value : α) : α :=
  if rowsAbove width height last = rowsAbove width height first then value else refresh value

end

/-! ## Printing a text -/

variable {width height : Nat} {refresh : α → α} {skips : Nat → Prop} [DecidablePred skips]

theorem rowsAbove_mono {first last : Nat} (before : first ≤ last) :
    rowsAbove width height first ≤ rowsAbove width height last := by
  have rows := Nat.div_le_div_right before (c := width)
  rw [rowsAbove, rowsAbove]
  omega

theorem printed_append (start : Nat) (values : List α) (value : α) (content : Nat → α)
    (q : Nat) :
    printed skips start (values ++ [value]) content q =
      if q = start + values.length ∧ ¬ skips q then value
      else printed skips start values content q := by
  simp only [printed]
  by_cases skipped : skips q
  · simp [skipped]
  by_cases reached : start ≤ q
  · rcases Nat.lt_trichotomy (q - start) values.length with before | here | after
    · have apart : q ≠ start + values.length := by omega
      simp [skipped, reached, apart, before, List.getElem?_append_left before]
    · have same : q = start + values.length := by omega
      simp [same]
    · have apart : q ≠ start + values.length := by omega
      have gone : values[q - start]? = none := List.getElem?_eq_none (by omega)
      have gone' : (values ++ [value])[q - start]? = none :=
        List.getElem?_eq_none (by simp; omega)
      simp [apart, gone, gone']
  · have apart : q ≠ start + values.length := by omega
    simp [reached, apart]

/-- After a text each place that was not skipped holds its own value, and the paper has
been refreshed if the window moved. -/
theorem print_foldl (idempotent : ∀ value, refresh (refresh value) = refresh value)
    (roll : PaperRoll α) (values : List α) (fixed : ∀ value ∈ values, refresh value = value) :
    (values.foldl (print width height refresh skips) roll).place = roll.place + values.length ∧
      ∀ q, (values.foldl (print width height refresh skips) roll).content q =
        shown width height refresh roll.place (roll.place + values.length)
          (printed skips roll.place values roll.content q) := by
  induction values using List.reverseRecOn with
  | nil => simp [printed, shown]
  | append_singleton values value ih =>
      obtain ⟨place, content⟩ := ih fun value listed => fixed value (by simp [listed])
      have unchanged : refresh value = value := fixed value (by simp)
      have first := @rowsAbove_mono width height roll.place (roll.place + values.length) (by omega)
      have next := @rowsAbove_mono width height (roll.place + values.length)
        (roll.place + values.length + 1) (by omega)
      rw [List.foldl_append, List.foldl_cons, List.foldl_nil, List.length_append,
        List.length_singleton, ← Nat.add_assoc]
      generalize values.foldl (print width height refresh skips) roll = before at place content
      refine ⟨by simp only [print, advance, place], ?_⟩
      intro q
      have stored : (if skips before.place then before.content
          else Function.update before.content before.place value) q =
          if q = roll.place + values.length ∧ ¬ skips q then value else before.content q := by
        rw [place]
        by_cases here : q = roll.place + values.length
        · subst here
          by_cases skipped : skips (roll.place + values.length) <;> simp [skipped]
        · split <;> simp [here]
      rw [printed_append, print, advance]
      simp only [place] at stored ⊢
      by_cases still : rowsAbove width height (roll.place + values.length + 1) =
          rowsAbove width height (roll.place + values.length)
      · rw [if_pos still, stored, shown, still]
        split_ifs with here
        · rfl
        · exact unchanged.symm
        · rw [content, shown, if_pos (by assumption)]
        · rw [content, shown, if_neg (by assumption)]
      · have moved : rowsAbove width height (roll.place + values.length + 1) ≠
            rowsAbove width height roll.place := by omega
        simp only [if_neg still, stored, shown, if_neg moved]
        split_ifs with here
        · rfl
        · rw [content, shown]
          split_ifs
          · rfl
          · exact idempotent _

/-- The values in the window. -/
def window (width height : Nat) (roll : PaperRoll α) (k : Nat) : α :=
  roll.content (width * rowsAbove width height roll.place + k)

/-- The place printed next is at most one row below the window. -/
theorem place_lt_window (columns : 0 < width) (place : Nat) :
    place < width * (rowsAbove width height place + height) := by
  have row : place < width * (place / width + 1) := by
    have split := Nat.div_add_mod place width
    have column := Nat.mod_lt place columns
    rw [Nat.mul_add, Nat.mul_one]
    omega
  refine Nat.lt_of_lt_of_le row (Nat.mul_le_mul_left width ?_)
  rw [rowsAbove]
  omega

theorem shown_fixed {value : α} (unchanged : refresh value = value) (first last : Nat) :
    shown width height refresh first last value = value := by
  rw [shown]
  split
  · rfl
  · exact unchanged

/-- A place that was not printed keeps what it held. -/
theorem printed_skipped {start : Nat} {values : List α} {content : Nat → α} {q : Nat}
    (skipped : skips q ∨ ∀ value, values[q - start]? = some value → ¬ start ≤ q) :
    printed skips start values content q = content q := by
  rw [printed]
  split
  next reached =>
    cases skipped with
    | inl skipped => exact absurd skipped reached.2
    | inr outside =>
        cases listed : values[q - start]? with
        | none => rfl
        | some value => exact absurd reached.1 (outside value listed)
  next => rfl

/-- A printer that skips places shows the same window in the end as one that skips none
exactly if every value it skipped at a place still in the window is what that place shows
anyway. -/
theorem window_eq_iff (columns : 0 < width)
    (idempotent : ∀ value, refresh (refresh value) = refresh value)
    (roll : PaperRoll α) (values : List α) (fixed : ∀ value ∈ values, refresh value = value) :
    (∀ k < width * height,
      window width height (values.foldl (print width height refresh skips) roll) k =
        window width height (values.foldl (print width height refresh fun _ => False) roll) k) ↔
      ∀ i value, values[i]? = some value → skips (roll.place + i) →
        width * rowsAbove width height (roll.place + values.length) ≤ roll.place + i →
        shown width height refresh roll.place (roll.place + values.length)
          (roll.content (roll.place + i)) = value := by
  obtain ⟨place, content⟩ := @print_foldl α width height refresh skips _ idempotent roll values
    fixed
  obtain ⟨place', content'⟩ := @print_foldl α width height refresh (fun _ => False) _ idempotent
    roll values fixed
  simp only [window, place, place', content, content']
  have bound := @place_lt_window width height columns (roll.place + values.length)
  constructor
  · intro same i value listed skipped visible
    have inside : i < values.length := (List.getElem?_eq_some_iff.mp listed).1
    have unchanged := fixed value (List.mem_of_getElem? listed)
    have here := same
      (roll.place + i - width * rowsAbove width height (roll.place + values.length))
      (by rw [Nat.mul_add] at bound; omega)
    rw [Nat.add_sub_cancel' visible, printed_skipped (.inl skipped)] at here
    have there : printed (fun _ => False) roll.place values roll.content (roll.place + i) =
        value := by
      simp [printed, listed]
    rw [here, there, shown_fixed unchanged]
  · intro kept k _
    generalize place : width * rowsAbove width height (roll.place + values.length) + k = q
    have same (unprinted : ∀ value, values[q - roll.place]? = some value → ¬ roll.place ≤ q) :
        printed skips roll.place values roll.content q =
          printed (fun _ => False) roll.place values roll.content q := by
      rw [printed_skipped (.inr unprinted), printed_skipped (.inr unprinted)]
    by_cases skipped : skips q
    · cases listed : values[q - roll.place]? with
      | none =>
          rw [same]
          simp [listed]
      | some value =>
          by_cases reached : roll.place ≤ q
          · have unchanged := fixed value (List.mem_of_getElem? listed)
            have there : printed (fun _ => False) roll.place values roll.content q = value := by
              simp [printed, listed, reached]
            have position : roll.place + (q - roll.place) = q := by omega
            have here := kept (q - roll.place) value listed
              (by rwa [position]) (by rw [position]; omega)
            rw [position] at here
            rw [printed_skipped (.inl skipped), here, there, shown_fixed unchanged]
          · rw [same fun _ _ => reached]
    · simp [printed, skipped]

end PaperRoll

end Ece391.Library
