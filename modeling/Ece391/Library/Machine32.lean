import Mathlib.Logic.Basic

/-!
# The stack and the flags of a 32-bit machine

The stack grows down through byte-addressed memory.  Its words are counted from the top: a
push puts its word at place 0 and moves every other word up by one, as long as the place is
one of the 2^30 that do not wrap onto the pushed word.

A comparison leaves its outcome in the flags word, where the conditional jumps read it.
-/

namespace Ece391.Library

/-- Memory of a 32-bit machine. -/
abbrev ByteMemory := BitVec 32 → BitVec 8

/-- The little-endian word at an address. -/
def loadWord (memory : ByteMemory) (address : BitVec 32) : BitVec 32 :=
  memory (address + 3) ++ memory (address + 2) ++ memory (address + 1) ++ memory address

/-- Memory with a word stored at an address. -/
def storeWord (memory : ByteMemory) (address word : BitVec 32) : ByteMemory := fun place =>
  if (place - address).toNat < 4 then word.extractLsb' (8 * (place - address).toNat) 8
  else memory place

@[simp]
theorem loadWord_storeWord (memory : ByteMemory) (address word : BitVec 32) :
    loadWord (storeWord memory address word) address = word := by
  have offset (k : BitVec 32) : address + k - address = k := by
    rw [BitVec.add_comm, BitVec.add_sub_cancel]
  have bytes : word.extractLsb' 24 8 ++ word.extractLsb' 16 8 ++ word.extractLsb' 8 8 ++
      word.extractLsb' 0 8 = word := by
    rw [BitVec.extractLsb'_append_extractLsb'_eq_extractLsb' (show 24 = 16 + 8 from rfl),
      BitVec.extractLsb'_append_extractLsb'_eq_extractLsb' (show 16 = 8 + 8 from rfl),
      BitVec.extractLsb'_append_extractLsb'_eq_extractLsb' (show 8 = 0 + 8 from rfl)]
    exact BitVec.extractLsb'_eq_self
  simpa [loadWord, storeWord, offset] using bytes

/-- A word that shares no byte with the stored one is unchanged. -/
theorem loadWord_storeWord_of_apart (memory : ByteMemory) {address place : BitVec 32}
    (word : BitVec 32) (below : 4 ≤ (place - address).toNat)
    (above : (place - address).toNat ≤ 4294967292) :
    loadWord (storeWord memory address word) place = loadWord memory place := by
  have kept (k : BitVec 32) (small : k.toNat < 4) :
      storeWord memory address word (place + k) = memory (place + k) := by
    have far : ¬ (place + k - address).toNat < 4 := by bv_omega
    rw [storeWord, if_neg far]
  have first : storeWord memory address word place = memory place := by
    rw [storeWord, if_neg (by omega)]
  rw [loadWord, loadWord, kept 3 (by decide), kept 2 (by decide), kept 1 (by decide), first]

/-- A stack: its pointer and the memory it lies in. -/
structure Stack where
  pointer : BitVec 32
  memory : ByteMemory

namespace Stack

/-- The word at a place, counted from the top. -/
def word (stack : Stack) (i : Nat) : BitVec 32 :=
  loadWord stack.memory (stack.pointer + BitVec.ofNat 32 (4 * i))

def push (stack : Stack) (word : BitVec 32) : Stack :=
  ⟨stack.pointer - 4, storeWord stack.memory (stack.pointer - 4) word⟩

/-- The stack without its first words, which stay in memory. -/
def drop (stack : Stack) (n : Nat) : Stack :=
  { stack with pointer := stack.pointer + BitVec.ofNat 32 (4 * n) }

variable (stack : Stack)

/-- Seen from the pointer below, every place is one further. -/
theorem offset_push (pointer : BitVec 32) (i : Nat) :
    pointer - 4 + BitVec.ofNat 32 (4 * (i + 1)) = pointer + BitVec.ofNat 32 (4 * i) := by
  have next : BitVec.ofNat 32 (4 * (i + 1)) = BitVec.ofNat 32 (4 * i) + 4 := by
    rw [Nat.mul_add, BitVec.ofNat_add]
    rfl
  rw [next]
  bv_omega

@[simp]
theorem word_push_zero (word : BitVec 32) : (stack.push word).word 0 = word := by
  simp [Stack.word, push]

@[simp]
theorem word_push_succ (word : BitVec 32) {i : Nat} (bound : i < 1073741823) :
    (stack.push word).word (i + 1) = stack.word i := by
  have small : (BitVec.ofNat 32 (4 * i)).toNat = 4 * i := by
    rw [BitVec.toNat_ofNat]
    omega
  rw [Stack.word, Stack.word, push]
  simp only [offset_push]
  apply loadWord_storeWord_of_apart
  · bv_omega
  · bv_omega

@[simp]
theorem word_drop (n i : Nat) : (stack.drop n).word i = stack.word (n + i) := by
  rw [Stack.word, Stack.word, drop, Nat.mul_add, BitVec.ofNat_add, BitVec.add_assoc]

theorem drop_drop (m n : Nat) : (stack.drop m).drop n = stack.drop (m + n) := by
  rw [drop, drop, drop, Nat.mul_add, BitVec.ofNat_add, BitVec.add_assoc]

@[simp]
theorem pointer_push (word : BitVec 32) : (stack.push word).pointer = stack.pointer - 4 :=
  rfl

@[simp]
theorem pointer_drop (n : Nat) :
    (stack.drop n).pointer = stack.pointer + BitVec.ofNat 32 (4 * n) :=
  rfl

/-- Dropping the words that were pushed leads back to the pointer. -/
theorem pointer_push_drop (word : BitVec 32) (n : Nat) :
    ((stack.push word).drop (n + 1)).pointer = (stack.drop n).pointer :=
  offset_push stack.pointer n

/-- No byte of the word at an address is one of the next bytes to be pushed. -/
def Clear (n : Nat) (address : BitVec 32) : Prop :=
  (address - stack.pointer).toNat + 4 * n + 4 ≤ 4294967296

instance (n : Nat) (address : BitVec 32) : Decidable (stack.Clear n address) :=
  inferInstanceAs (Decidable (_ ≤ _))

section

variable {stack : Stack} {n : Nat} {address : BitVec 32}

theorem Clear.pushed (clear : stack.Clear (n + 1) address) (word : BitVec 32) :
    (stack.push word).Clear n address := by
  rw [Clear] at clear
  rw [Clear, pointer_push]
  bv_omega

/-- A push leaves a word that lies clear. -/
theorem Clear.loadWord_push (clear : stack.Clear (n + 1) address) (word : BitVec 32) :
    loadWord (stack.push word).memory address = loadWord stack.memory address := by
  rw [Clear] at clear
  apply loadWord_storeWord_of_apart
  · bv_omega
  · bv_omega

/-- Pushes leave a word that lies clear of all of them. -/
theorem Clear.loadWord_pushes {words : List (BitVec 32)}
    (clear : stack.Clear words.length address) :
    loadWord (words.foldl push stack).memory address = loadWord stack.memory address := by
  induction words generalizing stack with
  | nil => rfl
  | cons word words ih => exact (ih (clear.pushed word)).trans (clear.loadWord_push word)

end

end Stack

/-! ## Comparisons -/

/-- A flags word with one bit set to a value. -/
def withFlag (flags : BitVec 32) (bit : Nat) (value : Bool) : BitVec 32 :=
  if value then flags ||| BitVec.twoPow 32 bit else flags &&& ~~~ BitVec.twoPow 32 bit

/-- The flags after the second value has been subtracted from the first: carry, parity,
adjust, zero, sign and overflow. -/
def compareFlags (flags first second : BitVec 32) : BitVec 32 :=
  let difference := first - second
  let ones := (List.range 8).countP fun i => difference.getLsbD i
  let carry := withFlag flags 0 (first.ult second)
  let parity := withFlag carry 2 (ones % 2 == 0)
  let adjust := withFlag parity 4 ((first.extractLsb' 0 4).ult (second.extractLsb' 0 4))
  let zero := withFlag adjust 6 (difference == 0)
  let sign := withFlag zero 7 difference.msb
  withFlag sign 11 (BitVec.ssubOverflow first second)

/-- The condition of a signed jump on less or equal: the zero flag, or sign and overflow
that differ. -/
def lessOrEqual (flags : BitVec 32) : Bool :=
  flags.getLsbD 6 || (flags.getLsbD 7 != flags.getLsbD 11)

@[simp]
theorem getLsbD_withFlag (flags : BitVec 32) {bit place : Nat} (value : Bool)
    (inside : place < 32) :
    (withFlag flags bit value).getLsbD place =
      if place = bit then value else flags.getLsbD place := by
  by_cases same : place = bit
  · subst same
    cases value <;> simp [withFlag, inside]
  · have other : ¬ bit = place := fun equal => same equal.symm
    cases value
    · simp [withFlag, inside, same]
    · simp [withFlag, same, other]

/-- After a comparison the jump is taken exactly if the first value is, as a signed
number, at most the second. -/
theorem lessOrEqual_compareFlags (flags first second : BitVec 32) :
    lessOrEqual (compareFlags flags first second) =
      decide (first.toInt ≤ second.toInt) := by
  have zero : (first - second == 0) = decide (first.toInt = second.toInt) := by
    rw [Bool.eq_iff_iff, beq_iff_eq, decide_eq_true_iff, BitVec.sub_eq_iff_eq_add,
      BitVec.toInt_inj]
    simp
  have sign : (first - second).msb = decide ((first.toInt - second.toInt).bmod (2 ^ 32) < 0) := by
    rw [BitVec.msb_eq_toInt, BitVec.toInt_sub]
  have overflow : BitVec.ssubOverflow first second =
      (decide (first.toInt - second.toInt ≥ 2 ^ 31) ||
        decide (first.toInt - second.toInt < -2 ^ 31)) := rfl
  have flagsRead : lessOrEqual (compareFlags flags first second) =
      ((first - second == 0) ||
        ((first - second).msb != BitVec.ssubOverflow first second)) := by
    simp (disch := decide) only [lessOrEqual, compareFlags, getLsbD_withFlag, Nat.reduceEqDiff,
      if_true, if_false]
  have low := @BitVec.le_toInt 32 first
  have low' := @BitVec.le_toInt 32 second
  have high := @BitVec.toInt_lt 32 first
  have high' := @BitVec.toInt_lt 32 second
  rw [flagsRead, zero, sign, overflow]
  rw [Bool.eq_iff_iff]
  simp only [← Bool.decide_or, Bool.or_eq_true, decide_eq_true_eq, bne_iff_ne, ne_eq,
    decide_eq_decide, Int.bmod_def]
  generalize first.toInt = m at *
  generalize second.toInt = n at *
  split <;> omega

end Ece391.Library
