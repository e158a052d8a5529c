import Mathlib.Logic.Function.Basic
import Ece391.Library.Machine32

/-!
# Copying bytes between apart regions

The memory in which the first bytes of a region have been copied to another one is described at
every address.  When the regions are apart, moving one more byte, or one more word, leads from
one such memory to the next, so that phases of different widths compose.
-/

namespace Ece391.Library

/-- Memory in which the first bytes from `source` on have been copied to `target`. -/
def copied (memory : ByteMemory) (source target : BitVec 32) (count : Nat) : ByteMemory :=
  fun place =>
    if (place - target).toNat < count then memory (source + (place - target)) else memory place

/-- A plain copy, byte by byte. -/
def byteCopy (memory : ByteMemory) (source target : BitVec 32) : Nat → ByteMemory
  | 0 => memory
  | count + 1 =>
      let before := byteCopy memory source target count
      Function.update before (target + BitVec.ofNat 32 count)
        (before (source + BitVec.ofNat 32 count))

/-- Regions of a size that do not wrap around the address space and do not overlap. -/
structure Apart (source target : BitVec 32) (size : Nat) : Prop where
  sourceEnd : source.toNat + size ≤ 4294967296
  targetEnd : target.toNat + size ≤ 4294967296
  apart : source.toNat + size ≤ target.toNat ∨ target.toNat + size ≤ source.toNat

section

variable {memory : ByteMemory} {source target place : BitVec 32} {size count k : Nat}

@[simp]
theorem copied_zero (memory : ByteMemory) (source target : BitVec 32) :
    copied memory source target 0 = memory := by
  funext place
  rw [copied, if_neg (Nat.not_lt_zero _)]

theorem copied_outside (outside : count ≤ (place - target).toNat) :
    copied memory source target count place = memory place :=
  if_neg (Nat.not_lt.mpr outside)

theorem copied_inside (bound : count ≤ 4294967296) (inside : k < count) :
    copied memory source target count (target + BitVec.ofNat 32 k) =
      memory (source + BitVec.ofNat 32 k) := by
  have offset : target + BitVec.ofNat 32 k - target = BitVec.ofNat 32 k := by
    rw [BitVec.add_comm, BitVec.add_sub_cancel]
  rw [copied, offset, if_pos]
  rw [BitVec.toNat_ofNat]
  omega

/-- The bytes of a word in memory. -/
theorem extractLsb'_loadWord (memory : ByteMemory) (address : BitVec 32) {j : Nat} (small : j < 4) :
    (loadWord memory address).extractLsb' (8 * j) 8 = memory (address + BitVec.ofNat 32 j) := by
  obtain rfl | rfl | rfl | rfl : j = 0 ∨ j = 1 ∨ j = 2 ∨ j = 3 := by omega
  · rw [loadWord, BitVec.extractLsb'_append_eq_of_add_le (by decide)]
    simp
  · rw [loadWord, BitVec.extractLsb'_append_eq_of_le (by decide),
      BitVec.extractLsb'_append_eq_of_add_le (by decide)]
    simp
  · rw [loadWord, BitVec.extractLsb'_append_eq_of_le (by decide),
      BitVec.extractLsb'_append_eq_of_le (by decide),
      BitVec.extractLsb'_append_eq_of_add_le (by decide)]
    simp
  · rw [loadWord, BitVec.extractLsb'_append_eq_of_le (by decide),
      BitVec.extractLsb'_append_eq_of_le (by decide),
      BitVec.extractLsb'_append_eq_of_le (by decide)]
    simp

namespace Apart

variable (regions : Apart source target size)

include regions

/-- A byte of the source lies outside the target. -/
theorem source_outside (inside : k < size) :
    size ≤ (source + BitVec.ofNat 32 k - target).toNat := by
  obtain ⟨sourceEnd, targetEnd, apart⟩ := regions
  have offset : (BitVec.ofNat 32 k).toNat = k := by
    rw [BitVec.toNat_ofNat]
    omega
  bv_omega

/-- Copying has not changed a byte of the source. -/
theorem copied_source (part : count ≤ size) (inside : k < size) :
    copied memory source target count (source + BitVec.ofNat 32 k) =
      memory (source + BitVec.ofNat 32 k) :=
  copied_outside (Nat.le_trans part (regions.source_outside inside))

/-- One more byte. -/
theorem copied_succ (inside : count < size) :
    Function.update (copied memory source target count) (target + BitVec.ofNat 32 count)
        (copied memory source target count (source + BitVec.ofNat 32 count)) =
      copied memory source target (count + 1) := by
  have small : size ≤ 4294967296 := Nat.le_trans (Nat.le_add_left ..) regions.targetEnd
  rw [regions.copied_source (Nat.le_of_lt inside) inside]
  funext place
  by_cases here : place = target + BitVec.ofNat 32 count
  · rw [here, Function.update_self, copied_inside (by omega) (Nat.lt_succ_self count)]
  · have other : (place - target).toNat ≠ count := by
      intro same
      apply here
      rw [← same, BitVec.ofNat_toNat, BitVec.setWidth_eq, BitVec.add_comm, BitVec.sub_add_cancel]
    rw [Function.update_of_ne here, copied, copied]
    by_cases before : (place - target).toNat < count
    · rw [if_pos before, if_pos (Nat.lt_succ_of_lt before)]
    · rw [if_neg before, if_neg (by omega)]

/-- One more word. -/
theorem copied_word (inside : count + 4 ≤ size) :
    storeWord (copied memory source target count) (target + BitVec.ofNat 32 count)
        (loadWord (copied memory source target count) (source + BitVec.ofNat 32 count)) =
      copied memory source target (count + 4) := by
  have small : size ≤ 4294967296 := Nat.le_trans (Nat.le_add_left ..) regions.targetEnd
  funext place
  rw [storeWord]
  split
  next stored =>
    generalize reached : (place - (target + BitVec.ofNat 32 count)).toNat = j at stored ⊢
    have here : place = target + BitVec.ofNat 32 (count + j) := by
      rw [BitVec.ofNat_add, ← reached, BitVec.ofNat_toNat, BitVec.setWidth_eq]
      bv_omega
    rw [extractLsb'_loadWord _ _ stored, BitVec.add_assoc, ← BitVec.ofNat_add,
      regions.copied_source (by omega) (by omega), here, copied_inside (by omega) (by omega)]
  next kept =>
    have apart : count ≤ (place - target).toNat → count + 4 ≤ (place - target).toNat := by
      have offset : (BitVec.ofNat 32 count).toNat = count := by
        rw [BitVec.toNat_ofNat]
        omega
      bv_omega
    rw [copied, copied]
    by_cases before : (place - target).toNat < count
    · rw [if_pos before, if_pos (by omega)]
    · rw [if_neg before, if_neg (by omega)]

/-- A plain copy leaves the copied memory. -/
theorem byteCopy_eq (part : count ≤ size) :
    byteCopy memory source target count = copied memory source target count := by
  induction count with
  | zero => exact (copied_zero ..).symm
  | succ count ih => rw [byteCopy, ih (Nat.le_of_succ_le part), regions.copied_succ part]

end Apart

end

end Ece391.Library
