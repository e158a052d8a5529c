import Mathlib.Logic.Function.Basic

/-!
# Copying a block of memory onto an overlapping block

A loop that copies a block cell by cell reads cells it may have overwritten.
Copying upwards is right when the target lies at or below the source, copying
downwards when it lies at or above it: each loop then leaves the target equal to
what the source held before the loop, and every other cell unchanged.
-/

namespace Ece391.Library

universe u

variable {α : Type u}

/-- Copy `count` cells from `source` to `target`, lowest cell first. -/
def copyUp (memory : Int → α) (source target : Int) : Nat → Int → α
  | 0 => memory
  | count + 1 =>
      let copied := copyUp memory source target count
      Function.update copied (target + count) (copied (source + count))

/-- Copy `count` cells from `source` to `target`, highest cell first. -/
def copyDown (memory : Int → α) (source target : Int) : Nat → Int → α
  | 0 => memory
  | count + 1 =>
      copyDown (Function.update memory (target + count) (memory (source + count)))
        source target count

section

variable {memory : Int → α} {source target address : Int} {count : Nat}

theorem copyUp_outside (outside : address < target ∨ target + count ≤ address) :
    copyUp memory source target count address = memory address := by
  induction count with
  | zero => rfl
  | succ count ih =>
      rw [copyUp, Function.update_of_ne (by omega)]
      exact ih (by omega)

theorem copyUp_inside (below : target ≤ source) {index : Nat} (bound : index < count) :
    copyUp memory source target count (target + index) = memory (source + index) := by
  induction count with
  | zero => omega
  | succ count ih =>
      rw [copyUp]
      rcases Nat.lt_or_eq_of_le (Nat.le_of_lt_succ bound) with earlier | rfl
      · rw [Function.update_of_ne (by omega)]
        exact ih earlier
      · rw [Function.update_self]
        -- The cell read last lies at or above everything written so far.
        exact copyUp_outside (by omega)

/-- Blocks that do not overlap may be copied whatever their order. -/
theorem copyUp_apart (apart : source + count ≤ target ∨ target + count ≤ source) {index : Nat}
    (bound : index < count) :
    copyUp memory source target count (target + index) = memory (source + index) := by
  induction count with
  | zero => omega
  | succ count ih =>
      rw [copyUp]
      rcases Nat.lt_or_eq_of_le (Nat.le_of_lt_succ bound) with earlier | rfl
      · rw [Function.update_of_ne (by omega)]
        exact ih (by omega) earlier
      · rw [Function.update_self]
        exact copyUp_outside (by omega)

theorem copyDown_outside (outside : address < target ∨ target + count ≤ address) :
    copyDown memory source target count address = memory address := by
  induction count generalizing memory with
  | zero => rfl
  | succ count ih =>
      rw [copyDown, ih (by omega), Function.update_of_ne (by omega)]

theorem copyDown_inside (above : source ≤ target) {index : Nat} (bound : index < count) :
    copyDown memory source target count (target + index) = memory (source + index) := by
  induction count generalizing memory with
  | zero => omega
  | succ count ih =>
      rw [copyDown]
      rcases Nat.lt_or_eq_of_le (Nat.le_of_lt_succ bound) with earlier | rfl
      · rw [ih earlier, Function.update_of_ne (by omega)]
      · rw [copyDown_outside (by omega), Function.update_self]

/-- Choosing the direction by the order of the two blocks makes the copy exact
whatever their overlap. -/
def move (memory : Int → α) (source target : Int) (count : Nat) : Int → α :=
  if source < target then copyDown memory source target count
  else copyUp memory source target count

theorem move_inside {index : Nat} (bound : index < count) :
    move memory source target count (target + index) = memory (source + index) := by
  rw [move]
  split
  next above => exact copyDown_inside (Int.le_of_lt above) bound
  next below => exact copyUp_inside (Int.not_lt.mp below) bound

theorem move_outside (outside : address < target ∨ target + count ≤ address) :
    move memory source target count address = memory address := by
  rw [move]
  split
  · exact copyDown_outside outside
  · exact copyUp_outside outside

end

end Ece391.Library
