import Ece391.Kernel.Drivers

/-!
# What `terminal_write` prints

Up to 80 bytes are copied to a temporary of 80, padded with zeros before a newline in its last
place; more bytes are printed from the buffer itself.  Either way the output stops at a NUL,
and then the number reported is 0.
-/

namespace Ece391.Kernel

open Ece391.Library

/-- `terminal_write` prints the bytes before the first NUL, at most as many as requested, and
reports how many they are. -/
def PrintsText (buf : Bytes) (nbytes : Int) : Prop :=
  terminalWrite buf nbytes =
    some (((field 0 nbytes.toNat buf).length : Int), field 0 nbytes.toNat buf)

instance (buf : Bytes) (nbytes : Int) : Decidable (PrintsText buf nbytes) :=
  inferInstanceAs (Decidable (_ = _))

section

variable {buf : Bytes} {nbytes : Int}

/-- The output loop prints a field, and reports the size only when the field is full. -/
theorem printLoop_eq (text : Bytes) (nbytes : Int) (remaining i : Nat) :
    printLoop text nbytes remaining i =
      (if (fieldFrom 0 text remaining i).length = remaining then nbytes else 0,
        fieldFrom 0 text remaining i) := by
  induction remaining generalizing i with
  | zero => rfl
  | succ remaining ih =>
      rw [printLoop, fieldFrom]
      by_cases ended : text i = 0
      · simp [ended]
      · simp only [ended, if_false, ih, List.length_cons, Nat.succ.injEq]

/-- What the temporary holds: the text, and the newline when 79 bytes are copied before it. -/
theorem field_tempBuffer {count : Nat} (fits : count ≤ 80) :
    field 0 80 (tempBuffer buf count) =
      field 0 count buf ++
        if (field 0 count buf).length = count ∧ count = 79 then [10] else [] := by
  have copied : field 0 count (tempBuffer buf count) = field 0 count buf :=
    field_congr fun index inside => if_pos inside
  have split : 80 = count + (80 - count) := by omega
  rw [field, split, fieldFrom_add, Nat.zero_add]
  change field 0 count (tempBuffer buf count) ++
    (if (field 0 count (tempBuffer buf count)).length = count then _ else _) = _
  rw [copied]
  congr 1
  by_cases full : (field 0 count buf).length = count
  · rw [if_pos full]
    rcases Nat.lt_trichotomy count 79 with short | rfl | whole
    · have padding : tempBuffer buf count count = 0 := by
        rw [tempBuffer, if_neg (Nat.lt_irrefl count), if_neg (by omega)]
      have positive : 80 - count = 79 - count + 1 := by omega
      rw [positive, fieldFrom, if_pos padding, if_neg (by omega)]
    · rw [if_pos ⟨full, rfl⟩]
      rfl
    · obtain rfl : count = 80 := by omega
      rw [if_neg (by omega)]
      rfl
  · rw [if_neg full, if_neg fun both => full both.1]

/-- The buffered output reports the size when its text is full, and 79 or 80 bytes long. -/
theorem length_tempBuffer_iff {count : Nat} (fits : count ≤ 80) :
    (field 0 80 (tempBuffer buf count)).length = 80 ↔
      (field 0 count buf).length = count ∧ 79 ≤ count := by
  have width : (field 0 count buf).length ≤ count := field_length_le
  rw [field_tempBuffer fits, List.length_append]
  split
  next last => simp [last.2]
  next other =>
    rw [List.length_nil]
    omega

/-- What a write prints and reports.  The two paths agree on the text, but a text of 79 bytes
is followed by a newline, and a shorter one is reported as 0. -/
theorem terminalWrite_eq (positive : 0 < nbytes) :
    terminalWrite buf nbytes =
      some (if (field 0 nbytes.toNat buf).length = nbytes.toNat ∧ 79 ≤ nbytes.toNat then nbytes
          else 0,
        field 0 nbytes.toNat buf ++
          if (field 0 nbytes.toNat buf).length = nbytes.toNat ∧ nbytes.toNat = 79 then [10]
          else []) := by
  rw [terminalWrite, if_neg (by omega), if_neg (by omega)]
  by_cases small : nbytes ≤ 80
  · have fits : nbytes.toNat ≤ 80 := by omega
    rw [if_pos small, printLoop_eq]
    change some (if (field 0 80 (tempBuffer buf nbytes.toNat)).length = 80 then nbytes else 0,
      field 0 80 (tempBuffer buf nbytes.toNat)) = _
    simp only [length_tempBuffer_iff fits]
    rw [field_tempBuffer fits]
  · have long : 79 ≤ nbytes.toNat := by omega
    have other : nbytes.toNat ≠ 79 := by omega
    rw [if_neg small, printLoop_eq]
    simp only [long, other, and_true, and_false, if_false, List.append_nil]
    rfl

/-- A write prints its text and reports its length exactly when it starts with a NUL, or has at
least 80 bytes and none of them is NUL. -/
theorem terminalWrite_prints_iff (positive : 0 < nbytes) :
    PrintsText buf nbytes ↔
      buf 0 = 0 ∨ 80 ≤ nbytes ∧ ∀ index : Nat, (index : Int) < nbytes → buf index ≠ 0 := by
  have width : (field 0 nbytes.toNat buf).length ≤ nbytes.toNat := field_length_le
  have full : (field 0 nbytes.toNat buf).length = nbytes.toNat ↔
      ∀ index : Nat, (index : Int) < nbytes → buf index ≠ 0 := by
    rw [field_full_iff]
    constructor
    · intro every index inside
      exact every index (by omega)
    · intro every index inside
      exact every index (by omega)
  have empty : (field 0 nbytes.toNat buf).length = 0 ↔ buf 0 = 0 := by
    obtain ⟨count, size⟩ : ∃ count, nbytes.toNat = count + 1 := ⟨nbytes.toNat - 1, by omega⟩
    rw [size, field, fieldFrom]
    by_cases ended : buf 0 = 0 <;> simp [ended]
  rw [PrintsText, terminalWrite_eq positive, ← full, ← empty, Option.some.injEq, Prod.mk.injEq]
  constructor
  · rintro ⟨ret, text⟩
    by_cases whole : (field 0 nbytes.toNat buf).length = nbytes.toNat ∧ 79 ≤ nbytes.toNat
    · rw [List.append_right_eq_self] at text
      split at text
      · cases text
      next other => exact .inr ⟨by omega, whole.1⟩
    · rw [if_neg whole] at ret
      exact .inl (by omega)
  · rintro (nothing | ⟨large, whole⟩)
    · rw [if_neg (by omega), if_neg (by omega), nothing]
      exact ⟨rfl, List.append_nil _⟩
    · rw [if_pos (by omega), if_neg (by omega), whole]
      exact ⟨by omega, List.append_nil _⟩

end

/-- Eighty letters are printed as they are. -/
theorem terminalWrite_prints_row : PrintsText (fun _ => 97) 80 :=
  (terminalWrite_prints_iff (by decide)).mpr (.inr ⟨by decide, fun _ _ => by decide⟩)

/-- Two letters are printed and reported as 0, and 79 letters are followed by a newline. -/
theorem terminalWrite_not_always_prints :
    (terminalWrite (cstring [108, 115]) 2 = some (0, [108, 115]) ∧
        ¬PrintsText (cstring [108, 115]) 2) ∧
      (terminalWrite (fun _ => 97) 79 = some (79, List.replicate 79 97 ++ [10]) ∧
        ¬PrintsText (fun _ => 97) 79) := by
  refine ⟨⟨rfl, ?_⟩, rfl, ?_⟩ <;> decide

end Ece391.Kernel
