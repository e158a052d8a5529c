import Mathlib.Logic.Function.Basic

/-!
# Stores through an address translation

A store of several bytes translates every address on its way.  It completes exactly if
each address is mapped, puts each byte where its own address points as long as no two
addresses share a frame, and leaves every other frame alone.
-/

namespace Ece391.Library

variable {Frame Byte : Type*} [DecidableEq Frame]

/-- Store bytes at consecutive addresses; `none` when one of them is not mapped. -/
def storeMapped (walk : Nat → Option Frame) :
    (Frame → Byte) → Nat → List Byte → Option (Frame → Byte)
  | memory, _, [] => some memory
  | memory, address, byte :: bytes =>
      match walk address with
      | none => none
      | some frame => storeMapped walk (Function.update memory frame byte) (address + 1) bytes

variable {walk : Nat → Option Frame} {memory stored : Frame → Byte} {address : Nat}
variable {bytes : List Byte}

theorem storeMapped_cons {byte : Byte} {frame : Frame} (mapped : walk address = some frame) :
    storeMapped walk memory address (byte :: bytes) =
      storeMapped walk (Function.update memory frame byte) (address + 1) bytes := by
  simp only [storeMapped, mapped]

/-- A store to mapped addresses completes. -/
theorem storeMapped_completes
    (mapped : ∀ i < bytes.length, ∃ frame, walk (address + i) = some frame) :
    ∃ stored, storeMapped walk memory address bytes = some stored := by
  induction bytes generalizing memory address with
  | nil => exact ⟨memory, rfl⟩
  | cons byte bytes ih =>
      obtain ⟨frame, here⟩ := mapped 0 (by simp)
      rw [Nat.add_zero] at here
      rw [storeMapped_cons here]
      apply ih
      intro i inside
      rw [Nat.add_assoc, Nat.add_comm 1]
      exact mapped (i + 1) (by simpa using inside)

/-- A store to an address that is not mapped does not. -/
theorem storeMapped_faults {i : Nat} (inside : i < bytes.length)
    (unmapped : walk (address + i) = none) : storeMapped walk memory address bytes = none := by
  induction bytes generalizing memory address i with
  | nil => simp at inside
  | cons byte bytes ih =>
      cases here : walk address with
      | none => simp only [storeMapped, here]
      | some frame =>
          rw [storeMapped_cons here]
          cases i with
          | zero => simp [here] at unmapped
          | succ i =>
              have later : walk (address + 1 + i) = none := by
                rwa [Nat.add_assoc, Nat.add_comm 1]
              exact ih (by simpa using inside) later

/-- A frame that none of the addresses points to keeps its byte. -/
theorem storeMapped_frame (completed : storeMapped walk memory address bytes = some stored)
    {frame : Frame} (outside : ∀ i < bytes.length, walk (address + i) ≠ some frame) :
    stored frame = memory frame := by
  induction bytes generalizing memory address with
  | nil =>
      obtain rfl : memory = stored := Option.some.inj completed
      rfl
  | cons byte bytes ih =>
      cases here : walk address with
      | none => simp [storeMapped, here] at completed
      | some target =>
          rw [storeMapped_cons here] at completed
          have kept := ih completed fun i inside => by
            rw [Nat.add_assoc, Nat.add_comm 1]
            exact outside (i + 1) (by simpa using inside)
          have distinct : frame ≠ target := by
            intro same
            exact outside 0 (by simp) (by rw [Nat.add_zero, here, same])
          rw [kept, Function.update_of_ne distinct]

/-- Each byte is found where its own address points. -/
theorem storeMapped_written (completed : storeMapped walk memory address bytes = some stored)
    (injective : ∀ i < bytes.length, ∀ j < bytes.length,
      walk (address + i) = walk (address + j) → i = j)
    {i : Nat} {byte : Byte} (listed : bytes[i]? = some byte) :
    ∃ frame, walk (address + i) = some frame ∧ stored frame = byte := by
  induction bytes generalizing memory address i with
  | nil => simp at listed
  | cons first bytes ih =>
      cases here : walk address with
      | none => simp [storeMapped, here] at completed
      | some target =>
          rw [storeMapped_cons here] at completed
          have shift (j : Nat) : address + 1 + j = address + (j + 1) := by omega
          cases i with
          | zero =>
              obtain rfl : first = byte := by simpa using listed
              refine ⟨target, here, ?_⟩
              -- No later byte goes to the same frame.
              rw [storeMapped_frame completed, Function.update_self]
              intro j inside again
              rw [shift, ← here] at again
              have same := injective (j + 1) (by simpa using inside) 0 (by simp) again
              omega
          | succ i =>
              rw [← shift]
              refine ih completed ?_ (by simpa using listed)
              intro j inside k inside' same
              rw [shift, shift] at same
              have := injective (j + 1) (by simpa using inside) (k + 1) (by simpa using inside')
                same
              omega

end Ece391.Library
