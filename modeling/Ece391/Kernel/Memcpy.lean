import Ece391.Library.BlockCopy
import Ece391.Library.Loop

/-!
# `memcpy`

Bytes are copied until the destination is aligned, then words by `rep movsl`, and then the
bytes that are left.  The number of bytes left to copy is split over `ecx` and `edx`.
-/

namespace Ece391.Kernel

open Ece391.Library

/-- The labels of the assembly, and `movsl` for the repeated instruction. -/
inductive MemcpyLabel where
  | top
  | aligned
  | movsl
  | bottom
  | done
  deriving DecidableEq, Repr

/-- The registers that the assembly uses, and the memory. -/
structure MemcpyState where
  label : MemcpyLabel
  esi : BitVec 32
  edi : BitVec 32
  ecx : BitVec 32
  edx : BitVec 32
  al : BitVec 8
  memory : ByteMemory

namespace MemcpyState

/-- The two `movb` through `al`, and the additions to the pointers. -/
def movb (state : MemcpyState) : MemcpyState :=
  { state with
    al := state.memory state.esi
    memory := Function.update state.memory state.edi (state.memory state.esi)
    edi := state.edi + 1
    esi := state.esi + 1 }

/-- One `movsl`, with the direction flag clear. -/
def movsl (state : MemcpyState) : MemcpyState :=
  { state with
    memory := storeWord state.memory state.edi (loadWord state.memory state.esi)
    edi := state.edi + 4
    esi := state.esi + 4 }

end MemcpyState

/-- The assembly from a label to the next. -/
def memcpyBody (state : MemcpyState) : Option (ForInStep MemcpyState) :=
  match state.label with
  | .top =>
      if state.ecx &&& state.ecx = 0 then some (.yield { state with label := .done })
      else if state.edi &&& 3 = 0 then some (.yield { state with label := .aligned })
      else some (.yield { state.movb with ecx := state.ecx - 1 })
  | .aligned =>
      -- The selector in `dx` is the flat data segment for `ds` and `es`.
      some (.yield
        { state with edx := state.ecx &&& 3, ecx := state.ecx >>> 2, label := .movsl })
  | .movsl =>
      if state.ecx = 0 then some (.yield { state with label := .bottom })
      else some (.yield { state.movsl with ecx := state.ecx - 1 })
  | .bottom =>
      if state.edx &&& state.edx = 0 then some (.yield { state with label := .done })
      else some (.yield { state.movb with edx := state.edx - 1 })
  | .done => some (.done state)

/-- `memcpy`: the pointer returned and the memory.  `edx` and `al` hold anything before. -/
def memcpy (fuel : Nat) (dest src n edx : BitVec 32) (al : BitVec 8) (memory : ByteMemory) :
    Option (BitVec 32 × ByteMemory) :=
  (loop memcpyBody fuel ⟨.top, src, dest, n, edx, al, memory⟩).map fun last =>
    (dest, last.memory)

/-! ## The bytes that are left -/

/-- How many bytes the registers still count at a label. -/
def MemcpyState.left (state : MemcpyState) : Nat :=
  match state.label with
  | .top | .aligned => state.ecx.toNat
  | .movsl => 4 * state.ecx.toNat + state.edx.toNat
  | .bottom => state.edx.toNat
  | .done => 0

/-- The labels that are still ahead. -/
def MemcpyLabel.ahead : MemcpyLabel → Nat
  | .top => 4
  | .aligned => 3
  | .movsl => 2
  | .bottom => 1
  | .done => 0

/-- A first part has been copied, the pointers stand behind it, and the registers count the
rest. -/
structure Copies (memory : ByteMemory) (src dest : BitVec 32) (size : Nat)
    (state : MemcpyState) (count : Nat) : Prop where
  esi : state.esi = src + BitVec.ofNat 32 count
  edi : state.edi = dest + BitVec.ofNat 32 count
  left : count + state.left = size
  memory : state.memory = copied memory src dest count

section

variable {memory : ByteMemory} {src dest : BitVec 32} {size count : Nat}
variable {state next last : MemcpyState}

namespace Copies

/-- Some more bytes are copied, and the registers count as many less. -/
theorem advance {moved : Nat} (copies : Copies memory src dest size state count)
    (fewer : state.left = next.left + moved) (esi : next.esi = state.esi + BitVec.ofNat 32 moved)
    (edi : next.edi = state.edi + BitVec.ofNat 32 moved)
    (stored : next.memory = copied memory src dest (count + moved)) :
    Copies memory src dest size next (count + moved) := by
  obtain ⟨atEsi, atEdi, left, -⟩ := copies
  refine ⟨?_, ?_, by omega, stored⟩
  · rw [esi, atEsi, BitVec.add_assoc, ← BitVec.ofNat_add]
  · rw [edi, atEdi, BitVec.add_assoc, ← BitVec.ofNat_add]

theorem movb (copies : Copies memory src dest size state count) (regions : Apart src dest size)
    (fewer : state.left = next.left + 1) (esi : next.esi = state.movb.esi)
    (edi : next.edi = state.movb.edi) (stored : next.memory = state.movb.memory) :
    Copies memory src dest size next (count + 1) := by
  have inside : count < size := by
    have left := copies.left
    omega
  refine copies.advance fewer esi edi ?_
  rw [stored, ← regions.copied_succ inside, ← copies.esi, ← copies.edi, ← copies.memory]
  rfl

theorem movsl (copies : Copies memory src dest size state count) (regions : Apart src dest size)
    (fewer : state.left = next.left + 4) (esi : next.esi = state.movsl.esi)
    (edi : next.edi = state.movsl.edi) (stored : next.memory = state.movsl.memory) :
    Copies memory src dest size next (count + 4) := by
  have inside : count + 4 ≤ size := by
    have left := copies.left
    omega
  refine copies.advance fewer esi edi ?_
  rw [stored, ← regions.copied_word inside, ← copies.esi, ← copies.edi, ← copies.memory]
  rfl

/-- A jump copies nothing. -/
theorem jump (copies : Copies memory src dest size state count) (same : next.left = state.left)
    (esi : next.esi = state.esi) (edi : next.edi = state.edi)
    (kept : next.memory = state.memory) : Copies memory src dest size next count :=
  ⟨esi.trans copies.esi, edi.trans copies.edi, same ▸ copies.left, kept.trans copies.memory⟩

end Copies

theorem toNat_sub_one {register : BitVec 32} (nonzero : register ≠ 0) :
    register.toNat = (register - 1).toNat + 1 := by
  bv_omega

/-- The two parts of the counter at `.memcpy_aligned`. -/
theorem counter_split (ecx : BitVec 32) :
    4 * (ecx >>> 2).toNat + (ecx &&& 3).toNat = ecx.toNat := by
  have low : (ecx &&& 3).toNat = ecx.toNat % 4 := by
    rw [BitVec.toNat_and]
    exact Nat.and_two_pow_sub_one_eq_mod _ 2
  have high : (ecx >>> 2).toNat = ecx.toNat / 4 := by
    rw [BitVec.toNat_ushiftRight, Nat.shiftRight_eq_div_pow]
  omega

/-- What an iteration does: it goes on with a smaller count or a later label, and what it has
copied fits together. -/
theorem memcpyBody_copies (regions : Apart src dest size)
    (copies : Copies memory src dest size state count) :
    (memcpyBody state = some (.done state) ∧ state.left = 0) ∨
      ∃ next more, memcpyBody state = some (.yield next) ∧
        Copies memory src dest size next more ∧
        next.left + next.label.ahead < state.left + state.label.ahead := by
  obtain ⟨label, esi, edi, ecx, edx, al, now⟩ := state
  cases label with
  | top =>
      right
      rw [memcpyBody]
      by_cases zero : ecx &&& ecx = 0
      · have none : ecx = 0 := (BitVec.and_self ..).symm.trans zero
        have empty : ecx.toNat = 0 := by rw [none]; rfl
        exact ⟨_, count, if_pos zero, copies.jump empty.symm rfl rfl rfl,
          Nat.add_lt_add_of_le_of_lt (Nat.zero_le _) (show 0 < 4 by decide)⟩
      · have some : ecx ≠ 0 := fun none => zero (by rw [none]; rfl)
        have fewer := toNat_sub_one some
        by_cases aligned : edi &&& 3 = 0
        · exact ⟨_, count, (if_neg zero).trans (if_pos aligned), copies.jump rfl rfl rfl rfl,
            Nat.add_lt_add_left (show 3 < 4 by decide) _⟩
        · exact ⟨_, count + 1, (if_neg zero).trans (if_neg aligned),
            copies.movb regions fewer rfl rfl rfl,
            Nat.add_lt_add_right (Nat.lt_of_succ_le fewer.ge) _⟩
  | aligned =>
      right
      have split := counter_split ecx
      exact ⟨_, count, rfl, copies.jump split rfl rfl rfl,
        Nat.add_lt_add_of_le_of_lt split.le (show 2 < 3 by decide)⟩
  | movsl =>
      right
      rw [memcpyBody]
      by_cases zero : ecx = 0
      · have rest : edx.toNat = 4 * ecx.toNat + edx.toNat := by
          rw [zero]
          simp
        exact ⟨_, count, if_pos zero, copies.jump rest rfl rfl rfl,
          Nat.add_lt_add_of_le_of_lt rest.le (show 1 < 2 by decide)⟩
      · have words := toNat_sub_one zero
        have fewer : 4 * ecx.toNat + edx.toNat = 4 * (ecx - 1).toNat + edx.toNat + 4 := by omega
        have less : 4 * (ecx - 1).toNat + edx.toNat < 4 * ecx.toNat + edx.toNat := by omega
        exact ⟨_, count + 4, if_neg zero, copies.movsl regions fewer rfl rfl rfl,
          Nat.add_lt_add_right less _⟩
  | bottom =>
      right
      rw [memcpyBody]
      by_cases zero : edx &&& edx = 0
      · have none : edx = 0 := (BitVec.and_self ..).symm.trans zero
        have empty : edx.toNat = 0 := by rw [none]; rfl
        exact ⟨_, count, if_pos zero, copies.jump empty.symm rfl rfl rfl,
          Nat.add_lt_add_of_le_of_lt (Nat.zero_le _) (show 0 < 1 by decide)⟩
      · have some : edx ≠ 0 := fun none => zero (by rw [none]; rfl)
        have fewer := toNat_sub_one some
        exact ⟨_, count + 1, if_neg zero, copies.movb regions fewer rfl rfl rfl,
          Nat.add_lt_add_right (Nat.lt_of_succ_le fewer.ge) _⟩
  | done => exact .inl ⟨rfl, rfl⟩

/-- `memcpy` copies like a plain copy does, whatever the alignment of the destination. -/
theorem memcpy_copies {fuel : Nat} {dest src n : BitVec 32} (edx : BitVec 32) (al : BitVec 8)
    (memory : ByteMemory) (regions : Apart src dest n.toNat) (enough : n.toNat + 4 < fuel) :
    memcpy fuel dest src n edx al memory = some (dest, byteCopy memory src dest n.toNat) ∧
      (∀ i < n.toNat, byteCopy memory src dest n.toNat (dest + BitVec.ofNat 32 i) =
        memory (src + BitVec.ofNat 32 i)) ∧
      ∀ place, n.toNat ≤ (place - dest).toNat →
        byteCopy memory src dest n.toNat place = memory place := by
  have initial : Copies memory src dest n.toNat ⟨.top, src, dest, n, edx, al, memory⟩ 0 :=
    ⟨(BitVec.add_zero src).symm, (BitVec.add_zero dest).symm, Nat.zero_add _,
      (copied_zero ..).symm⟩
  obtain ⟨last, ran, result⟩ := @loop_total _ memcpyBody fuel
    ⟨.top, src, dest, n, edx, al, memory⟩
    (fun state => ∃ count, Copies memory src dest n.toNat state count)
    (fun last => last.memory = copied memory src dest n.toNat)
    (fun state => state.left + state.label.ahead)
    (fun state copies => by
      obtain ⟨count, copies⟩ := copies
      rcases memcpyBody_copies regions copies with ⟨ends, none⟩ | ⟨next, more, goes, kept, lower⟩
      · have all : count = n.toNat := by
          have left := copies.left
          rwa [none, Nat.add_zero] at left
        exact .inl ⟨state, ends, all ▸ copies.memory⟩
      · exact .inr ⟨next, goes, ⟨more, kept⟩, lower⟩)
    enough ⟨0, initial⟩
  have small : n.toNat ≤ 4294967296 := Nat.le_trans (Nat.le_add_left ..) regions.targetEnd
  rw [regions.byteCopy_eq (Nat.le_refl _)]
  refine ⟨?_, fun i inside => copied_inside small inside, fun place => copied_outside⟩
  rw [memcpy, ran, Option.map_some, result]

/-- Seven bytes from an odd address to another one: three before a word, and none after. -/
theorem memcpy_copies_seven :
    memcpy 12 0x2001 0x1003 7 0 0 (fun place => place.setWidth 8) =
      some (0x2001, byteCopy (fun place => place.setWidth 8) 0x1003 0x2001 7) :=
  (memcpy_copies 0 0 (fun place => place.setWidth 8)
    ⟨by decide, by decide, .inl (by decide)⟩ (by decide)).1

end

end Ece391.Kernel
