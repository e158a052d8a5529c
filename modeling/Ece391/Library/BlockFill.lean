import Ece391.Library.BlockCopy

/-!
# Filling a region, and moving one onto another

A region is filled from its start, byte by byte or word by word, with values that depend on the
offset.  A region is moved onto another one, which it may overlap, from its start or from its end:
a part of it between two offsets has been moved, and the bytes still to be read are unchanged.
-/

namespace Ece391.Library

/-- Memory in which the first bytes of a region have been filled by their offset. -/
def filled (memory : ByteMemory) (target : BitVec 32) (value : Nat → BitVec 8) (count : Nat) :
    ByteMemory :=
  fun place =>
    if (place - target).toNat < count then value (place - target).toNat else memory place

/-- Memory in which the bytes between two offsets have been moved. -/
def moved (memory : ByteMemory) (source target : BitVec 32) (low high : Nat) : ByteMemory :=
  fun place =>
    if low ≤ (place - target).toNat ∧ (place - target).toNat < high then
      memory (source + (place - target))
    else memory place

section

variable {memory : ByteMemory} {source target place : BitVec 32} {size count low high : Nat}

theorem offset_of_place (k : Nat) (bound : k < 4294967296) :
    (target + BitVec.ofNat 32 k - target).toNat = k := by
  rw [BitVec.add_comm, BitVec.add_sub_cancel, BitVec.toNat_ofNat, Nat.mod_eq_of_lt bound]

/-- A place is the one at its offset. -/
theorem place_of_offset (place target : BitVec 32) :
    place = target + BitVec.ofNat 32 (place - target).toNat := by
  rw [BitVec.ofNat_toNat, BitVec.setWidth_eq, BitVec.add_comm, BitVec.sub_add_cancel]

/-! ## Filling -/

section

variable {value : Nat → BitVec 8}

@[simp]
theorem filled_zero (memory : ByteMemory) (target : BitVec 32) (value : Nat → BitVec 8) :
    filled memory target value 0 = memory := by
  funext place
  rw [filled, if_neg (Nat.not_lt_zero _)]

/-- One more byte. -/
theorem filled_succ (inside : count < 4294967296) :
    Function.update (filled memory target value count) (target + BitVec.ofNat 32 count)
        (value count) = filled memory target value (count + 1) := by
  funext place
  by_cases here : place = target + BitVec.ofNat 32 count
  · rw [here, Function.update_self, filled, offset_of_place count inside,
      if_pos (Nat.lt_succ_self count)]
  · have other : (place - target).toNat ≠ count := fun same =>
      here (same ▸ place_of_offset place target)
    rw [Function.update_of_ne here, filled, filled]
    by_cases before : (place - target).toNat < count
    · rw [if_pos before, if_pos (Nat.lt_succ_of_lt before)]
    · rw [if_neg before, if_neg (by omega)]

/-- One more word. -/
theorem filled_word {word : BitVec 32} (inside : count + 4 ≤ 4294967296)
    (bytes : ∀ j < 4, word.extractLsb' (8 * j) 8 = value (count + j)) :
    storeWord (filled memory target value count) (target + BitVec.ofNat 32 count) word =
      filled memory target value (count + 4) := by
  have start : (BitVec.ofNat 32 count).toNat = count := by
    rw [BitVec.toNat_ofNat, Nat.mod_eq_of_lt (by omega)]
  funext place
  rw [storeWord]
  split
  next stored =>
    have offset : (place - target).toNat =
        count + (place - (target + BitVec.ofNat 32 count)).toNat := by bv_omega
    rw [bytes _ stored, filled, if_pos (by omega), offset]
  next kept =>
    have apart : count ≤ (place - target).toNat → count + 4 ≤ (place - target).toNat := by
      bv_omega
    rw [filled, filled]
    by_cases before : (place - target).toNat < count
    · rw [if_pos before, if_pos (by omega)]
    · rw [if_neg before, if_neg (by omega)]

end

/-! ## Moving -/

@[simp]
theorem moved_empty (memory : ByteMemory) (source target : BitVec 32) (offset : Nat) :
    moved memory source target offset offset = memory := by
  funext place
  rw [moved, if_neg (by omega)]

/-- A whole region moved is a region copied from the memory before. -/
theorem moved_whole (memory : ByteMemory) (source target : BitVec 32) (size : Nat) :
    moved memory source target 0 size = copied memory source target size := by
  funext place
  simp only [moved, copied, Nat.zero_le, true_and]

/-- One more byte behind the moved part, when the source is not below the target. -/
theorem moved_succ (upward : target.toNat ≤ source.toNat) (fits : source.toNat + size ≤ 4294967296)
    (inside : count < size) :
    Function.update (moved memory source target 0 count) (target + BitVec.ofNat 32 count)
        (moved memory source target 0 count (source + BitVec.ofNat 32 count)) =
      moved memory source target 0 (count + 1) := by
  have start : (BitVec.ofNat 32 count).toNat = count := by
    rw [BitVec.toNat_ofNat, Nat.mod_eq_of_lt (by omega)]
  have unread : moved memory source target 0 count (source + BitVec.ofNat 32 count) =
      memory (source + BitVec.ofNat 32 count) := by
    refine if_neg fun written => ?_
    have low := written.2
    bv_omega
  rw [unread]
  funext place
  by_cases here : place = target + BitVec.ofNat 32 count
  · rw [here, Function.update_self, moved, offset_of_place count (by omega),
      if_pos ⟨Nat.zero_le _, Nat.lt_succ_self count⟩, BitVec.add_comm target,
      BitVec.add_sub_cancel]
  · have other : (place - target).toNat ≠ count := fun same =>
      here (same ▸ place_of_offset place target)
    rw [Function.update_of_ne here, moved, moved]
    by_cases before : (place - target).toNat < count
    · rw [if_pos ⟨Nat.zero_le _, before⟩, if_pos ⟨Nat.zero_le _, Nat.lt_succ_of_lt before⟩]
    · rw [if_neg fun both => before both.2, if_neg (by omega)]

/-- One more byte before the moved part, when the source is below the target. -/
theorem moved_pred (downward : source.toNat < target.toNat)
    (fits : target.toNat + size ≤ 4294967296) (inside : low < size) :
    Function.update (moved memory source target (low + 1) size) (target + BitVec.ofNat 32 low)
        (moved memory source target (low + 1) size (source + BitVec.ofNat 32 low)) =
      moved memory source target low size := by
  have start : (BitVec.ofNat 32 low).toNat = low := by
    rw [BitVec.toNat_ofNat, Nat.mod_eq_of_lt (by omega)]
  have unread : moved memory source target (low + 1) size (source + BitVec.ofNat 32 low) =
      memory (source + BitVec.ofNat 32 low) := by
    refine if_neg fun written => ?_
    obtain ⟨above, below⟩ := written
    bv_omega
  rw [unread]
  funext place
  by_cases here : place = target + BitVec.ofNat 32 low
  · rw [here, Function.update_self, moved, offset_of_place low (by omega),
      if_pos ⟨Nat.le_refl _, inside⟩, BitVec.add_comm target, BitVec.add_sub_cancel]
  · have other : (place - target).toNat ≠ low := fun same =>
      here (same ▸ place_of_offset place target)
    rw [Function.update_of_ne here, moved, moved]
    by_cases behind : low + 1 ≤ (place - target).toNat ∧ (place - target).toNat < size
    · rw [if_pos behind, if_pos ⟨Nat.le_of_succ_le behind.1, behind.2⟩]
    · rw [if_neg behind, if_neg (by omega)]

end

end Ece391.Library
