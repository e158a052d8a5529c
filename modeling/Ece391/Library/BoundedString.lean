import Mathlib.Data.List.Basic

/-!
# Strings in fixed-width fields

A fixed-width field holds a string that ends at the first terminator, or fills
the field when there is none.  `fieldFrom` reads that string from a position
onwards; a query given as a list of ordinary symbols reads as its own truncation
to the width.
-/

namespace Ece391.Library

universe u

variable {α : Type u} [DecidableEq α]

/-- The symbols of `text` from `start` on, up to the first `stop` and at most
`width` of them. -/
def fieldFrom (stop : α) (text : Nat → α) : (width start : Nat) → List α
  | 0, _ => []
  | width + 1, start =>
      if text start = stop then [] else text start :: fieldFrom stop text width (start + 1)

/-- The string held by a field of `width` symbols. -/
def field (stop : α) (width : Nat) (text : Nat → α) : List α :=
  fieldFrom stop text width 0

/-- A terminated string as the sequence of symbols read from its start. -/
def terminated (stop : α) (symbols : List α) (index : Nat) : α :=
  symbols.getD index stop

variable {stop : α} {text : Nat → α} {width start : Nat}

theorem fieldFrom_length_le : (fieldFrom stop text width start).length ≤ width := by
  induction width generalizing start with
  | zero => simp [fieldFrom]
  | succ width ih =>
      rw [fieldFrom]
      split
      · simp
      · simpa using ih

theorem field_length_le : (field stop width text).length ≤ width :=
  fieldFrom_length_le

theorem stop_notMem_fieldFrom : stop ∉ fieldFrom stop text width start := by
  induction width generalizing start with
  | zero => simp [fieldFrom]
  | succ width ih =>
      rw [fieldFrom]
      split
      · simp
      next ordinary =>
        simp only [List.mem_cons, not_or]
        exact ⟨fun equal => ordinary equal.symm, ih⟩

theorem stop_notMem_field : stop ∉ field stop width text :=
  stop_notMem_fieldFrom

/-- A field that is not full ends at a terminator. -/
theorem fieldFrom_stop (short : (fieldFrom stop text width start).length < width) :
    text (start + (fieldFrom stop text width start).length) = stop := by
  induction width generalizing start with
  | zero => simp at short
  | succ width ih =>
      rw [fieldFrom] at short ⊢
      split
      next ended => simpa using ended
      next ordinary =>
        rw [if_neg ordinary] at short
        simp only [List.length_cons] at short ⊢
        have tail : text (start + 1 + (fieldFrom stop text width (start + 1)).length) = stop :=
          ih (by omega)
        rwa [Nat.add_assoc, Nat.add_comm 1] at tail

theorem fieldFrom_getElem {index : Nat}
    (bound : index < (fieldFrom stop text width start).length) :
    (fieldFrom stop text width start)[index] = text (start + index) := by
  induction width generalizing start index with
  | zero => simp [fieldFrom] at bound
  | succ width ih =>
      by_cases ended : text start = stop
      · simp [fieldFrom, ended] at bound
      · cases index with
        | zero => simp [fieldFrom, ended]
        | succ index =>
            simp only [fieldFrom, if_neg ended, List.length_cons] at bound
            simp only [fieldFrom, if_neg ended, List.getElem_cons_succ]
            rw [ih (by omega)]
            congr 1
            omega

theorem field_getElem {index : Nat} (bound : index < (field stop width text).length) :
    (field stop width text)[index] = text index := by
  have read := fieldFrom_getElem bound
  rwa [Nat.zero_add] at read

theorem field_stop (short : (field stop width text).length < width) :
    text (field stop width text).length = stop := by
  have ended := fieldFrom_stop short
  rwa [Nat.zero_add] at ended

theorem fieldFrom_congr {text' : Nat → α}
    (same : ∀ index, start ≤ index → index < start + width → text index = text' index) :
    fieldFrom stop text width start = fieldFrom stop text' width start := by
  induction width generalizing start with
  | zero => rfl
  | succ width ih =>
      have rest : fieldFrom stop text width (start + 1) = fieldFrom stop text' width (start + 1) :=
        ih fun index low high => same index (by omega) (by omega)
      rw [fieldFrom, fieldFrom, same start (Nat.le_refl start) (by omega), rest]

/-- A field depends on its own symbols only. -/
theorem field_congr {text' : Nat → α} (same : ∀ index < width, text index = text' index) :
    field stop width text = field stop width text' :=
  fieldFrom_congr fun index _ high => same index (by omega)

/-- A field is full exactly when no terminator lies in it. -/
theorem fieldFrom_full_iff :
    (fieldFrom stop text width start).length = width ↔
      ∀ index, start ≤ index → index < start + width → text index ≠ stop := by
  induction width generalizing start with
  | zero =>
      simp only [fieldFrom, List.length_nil, true_iff]
      intro index low high
      omega
  | succ width ih =>
      rw [fieldFrom]
      by_cases ended : text start = stop
      · simp only [ended, if_true, List.length_nil]
        refine iff_of_false (by omega) ?_
        intro ordinary
        exact ordinary start (Nat.le_refl start) (by omega) ended
      · simp only [ended, if_false, List.length_cons, Nat.succ.injEq, ih]
        constructor
        · intro rest index low high
          rcases Nat.lt_or_eq_of_le low with later | rfl
          · exact rest index later (by omega)
          · exact ended
        · intro every index low high
          exact every index (by omega) (by omega)

theorem field_full_iff :
    (field stop width text).length = width ↔ ∀ index < width, text index ≠ stop := by
  rw [field, fieldFrom_full_iff]
  constructor
  · intro every index high
    exact every index (Nat.zero_le index) (by omega)
  · intro every index _ high
    exact every index (by omega)

/-- A field that holds a list is the list up to its first terminator. -/
theorem fieldFrom_eq_takeWhile {symbols : List α}
    (agree : ∀ index (inside : index < symbols.length), text (start + index) = symbols[index]) :
    fieldFrom stop text symbols.length start = symbols.takeWhile (· ≠ stop) := by
  induction symbols generalizing start with
  | nil => rfl
  | cons symbol rest ih =>
      have first : text start = symbol := agree 0 (by simp)
      have later : fieldFrom stop text rest.length (start + 1) = rest.takeWhile (· ≠ stop) := by
        refine ih fun index inside => ?_
        rw [Nat.add_assoc, Nat.add_comm 1]
        exact agree (index + 1) (by simpa using inside)
      rw [List.length_cons, fieldFrom, first, List.takeWhile_cons, later]
      by_cases ended : symbol = stop <;> simp [ended]

theorem field_eq_takeWhile {symbols : List α}
    (agree : ∀ index (inside : index < symbols.length), text index = symbols[index]) :
    field stop symbols.length text = symbols.takeWhile (· ≠ stop) := by
  refine fieldFrom_eq_takeWhile fun index inside => ?_
  rw [Nat.zero_add]
  exact agree index inside

/-- A wider field goes on where a full one ends. -/
theorem fieldFrom_add {more : Nat} :
    fieldFrom stop text (width + more) start =
      fieldFrom stop text width start ++
        if (fieldFrom stop text width start).length = width then
          fieldFrom stop text more (start + width)
        else [] := by
  induction width generalizing start with
  | zero => simp [fieldFrom]
  | succ width ih =>
      rw [Nat.add_right_comm, fieldFrom, fieldFrom]
      by_cases ended : text start = stop
      · simp [ended]
      · simp only [ended, if_false, List.length_cons, Nat.succ.injEq, ih, List.cons_append]
        rw [Nat.add_assoc start 1 width, Nat.add_comm 1 width]

/-- A narrower field is a part of a wider one. -/
theorem take_field {narrow : Nat} (narrower : narrow ≤ width) :
    (field stop width text).take narrow = field stop narrow text := by
  obtain ⟨more, rfl⟩ := Nat.exists_eq_add_of_le narrower
  rw [field, fieldFrom_add]
  split
  next full => exact List.take_left' full
  next => rw [List.append_nil, List.take_of_length_le fieldFrom_length_le, field]

/-- `text` begins with these symbols and then stops. -/
structure Holds (stop : α) (text : Nat → α) (symbols : List α) : Prop where
  ordinary : stop ∉ symbols
  agree : ∀ index (inside : index < symbols.length), text index = symbols[index]
  ended : text symbols.length = stop

omit [DecidableEq α] in
theorem terminated_holds {symbols : List α} (ordinary : stop ∉ symbols) :
    Holds stop (terminated stop symbols) symbols where
  ordinary := ordinary
  agree index inside := by simp [terminated, inside]
  ended := by simp [terminated]

/-- Where a stop is known to be, a string begins. -/
theorem exists_holds_of_stop (text : Nat → α) {place : Nat} (ended : text place = stop) :
    ∃ symbols, Holds stop text symbols ∧ symbols.length ≤ place := by
  have short : (field stop (place + 1) text).length < place + 1 := by
    refine Nat.lt_of_le_of_ne field_length_le fun full => ?_
    exact field_full_iff.mp full place (Nat.lt_succ_self place) ended
  exact ⟨field stop (place + 1) text,
    ⟨stop_notMem_field, fun _ inside => (field_getElem inside).symm, field_stop short⟩,
    Nat.le_of_lt_succ short⟩

namespace Holds

variable {symbols : List α}

private theorem fieldFrom (holds : Holds stop text symbols) (inside : start ≤ symbols.length) :
    fieldFrom stop text width start = (symbols.drop start).take width := by
  induction width generalizing start with
  | zero => simp [Library.fieldFrom]
  | succ width ih =>
      rw [Library.fieldFrom]
      rcases Nat.lt_or_eq_of_le inside with before | rfl
      · have notStop : symbols[start] ≠ stop := fun equal =>
          holds.ordinary (equal ▸ List.getElem_mem before)
        rw [holds.agree start before, if_neg notStop, ih before, List.drop_eq_getElem_cons before,
          List.take_succ_cons]
      · rw [if_pos holds.ended, List.drop_length, List.take_nil]

omit [DecidableEq α] in
theorem getElem? (holds : Holds stop text symbols) {index : Nat}
    (inside : index < symbols.length) : symbols[index]? = some (text index) := by
  rw [holds.agree index inside, List.getElem?_eq_getElem inside]

omit [DecidableEq α] in
theorem first (holds : Holds stop text symbols) : text 0 = symbols.headD stop := by
  cases symbols with
  | nil => exact holds.ended
  | cons symbol rest => exact holds.agree 0 (by simp)

/-- A string read into a field is cut at the width. -/
theorem field (holds : Holds stop text symbols) :
    field stop width text = symbols.take width :=
  holds.fieldFrom (Nat.zero_le _)

end Holds

end Ece391.Library
