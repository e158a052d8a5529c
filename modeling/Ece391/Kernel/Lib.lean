import Ece391.Library.BoundedString

/-!
# Integer conversions and the string functions of the kernel library

The kernel's `int32_t` values are integers and its `uint32_t` values naturals;
`int32` and `uint32` are the conversions between the two, which wrap modulo 2^32.
A `char` pointer is the function that reads the byte at each index from it.
-/

namespace Ece391.Kernel

open Ece391.Library

/-- Conversion to `uint32_t`. -/
def uint32 (value : Int) : Nat :=
  (value % 4294967296).toNat

/-- Conversion to `int32_t`. -/
def int32 (value : Int) : Int :=
  if value % 4294967296 < 2147483648 then value % 4294967296
  else value % 4294967296 - 4294967296

theorem uint32_lt (value : Int) : uint32 value < 4294967296 := by
  simp only [uint32]
  omega

theorem uint32_of_nonneg {value : Int} (nonneg : 0 ≤ value) (bound : value < 4294967296) :
    uint32 value = value.toNat := by
  simp only [uint32]
  omega

@[simp] theorem uint32_natCast {value : Nat} (bound : value < 4294967296) :
    uint32 value = value := by
  simp only [uint32]
  omega

theorem int32_of_range {value : Int} (low : -2147483648 ≤ value) (high : value < 2147483648) :
    int32 value = value := by
  simp only [int32]
  split <;> omega

/-- A pointer to bytes. -/
abbrev Bytes := Nat → UInt8

/-- A NUL-terminated string as the bytes read from its start. -/
abbrev cstring (symbols : List UInt8) : Bytes :=
  terminated 0 symbols

/-- The scan of `strlen`.  The fuel is the size of the address space, so a string
that ends at all ends before it runs out. -/
def strlenFrom (text : Bytes) : (fuel len : Nat) → Nat
  | 0, len => len
  | fuel + 1, len => if text len = 0 then len else strlenFrom text fuel (len + 1)

def strlen (text : Bytes) : Nat :=
  strlenFrom text 4294967296 0

/-- The loop of `strncmp`; the difference is taken between signed characters. -/
def strncmpFrom (s1 s2 : Bytes) : (count i : Nat) → Int
  | 0, _ => 0
  | count + 1, i =>
      if s1 i ≠ s2 i ∨ s1 i = 0 then (s1 i).toInt8.toInt - (s2 i).toInt8.toInt
      else strncmpFrom s1 s2 count (i + 1)

def strncmp (s1 s2 : Bytes) (n : Nat) : Int :=
  strncmpFrom s1 s2 n 0

/-- The bytes `strncpy` stores: the source up to its terminator, then zeros. -/
def strncpyFrom (src : Bytes) : (count i : Nat) → List UInt8
  | 0, _ => []
  | count + 1, i =>
      if src i = 0 then List.replicate (count + 1) 0
      else src i :: strncpyFrom src count (i + 1)

def strncpy (src : Bytes) (n : Nat) : List UInt8 :=
  strncpyFrom src n 0

private theorem strlenFrom_eq (text : Bytes) (fuel len : Nat) :
    strlenFrom text fuel len = len + (fieldFrom 0 text fuel len).length := by
  induction fuel generalizing len with
  | zero => simp [strlenFrom, fieldFrom]
  | succ fuel ih =>
      rw [strlenFrom, fieldFrom]
      split
      · simp
      · rw [ih, List.length_cons]
        omega

/-- `strlen` counts the bytes before the first NUL. -/
theorem strlen_eq (text : Bytes) :
    strlen text = (field 0 4294967296 text).length := by
  rw [strlen, strlenFrom_eq, field, Nat.zero_add]

/-- Bytes before the length are not NUL. -/
theorem ne_zero_of_lt_strlen {text : Bytes} {index : Nat} (bound : index < strlen text) :
    text index ≠ 0 := by
  rw [strlen_eq] at bound
  intro equal
  have member := List.getElem_mem bound
  rw [field_getElem bound, equal] at member
  exact stop_notMem_field member

/-- A string whose first bytes are all ordinary is at least that long. -/
theorem le_strlen {text : Bytes} {count : Nat} (small : count ≤ 4294967296)
    (ordinary : ∀ index < count, text index ≠ 0) : count ≤ strlen text := by
  rw [strlen_eq]
  by_contra short
  have ended : text (field 0 4294967296 text).length = 0 := field_stop (by omega)
  exact ordinary _ (Nat.lt_of_not_le short) ended

/-- A string that ends has its length there. -/
theorem strlen_eq_of_zero {text : Bytes} {count : Nat} (small : count < 4294967296)
    (ordinary : ∀ index < count, text index ≠ 0) (ended : text count = 0) :
    strlen text = count := by
  refine Nat.le_antisymm ?_ (le_strlen (Nat.le_of_lt small) ordinary)
  by_contra longer
  exact ne_zero_of_lt_strlen (Nat.lt_of_not_le longer) ended

private theorem strncmpFrom_eq_zero_iff (s1 s2 : Bytes) (count i : Nat) :
    strncmpFrom s1 s2 count i = 0 ↔ fieldFrom 0 s1 count i = fieldFrom 0 s2 count i := by
  induction count generalizing i with
  | zero => simp [strncmpFrom, fieldFrom]
  | succ count ih =>
      rw [strncmpFrom, fieldFrom, fieldFrom]
      by_cases same : s1 i = s2 i
      · by_cases ended : s1 i = 0
        · simp [← same, ended]
        · simp [← same, ended, ih]
      · have differ : (s1 i).toInt8.toInt - (s2 i).toInt8.toInt ≠ 0 := by
          intro equal
          apply same
          have signed : (s1 i).toInt8 = (s2 i).toInt8 := Int8.toInt_inj.mp (by omega)
          simpa using congrArg Int8.toUInt8 signed
        simp only [same, ne_eq, not_false_eq_true, true_or, if_true, differ, false_iff]
        split
        next ended =>
          rw [if_neg fun ended' => same (ended.trans ended'.symm)]
          simp
        next ordinary =>
          split
          · simp
          · simp [same]

/-- `strncmp` reports equality exactly when both arguments hold the same string
in a field of `n` bytes. -/
theorem strncmp_eq_zero_iff (s1 s2 : Bytes) (n : Nat) :
    strncmp s1 s2 n = 0 ↔ field 0 n s1 = field 0 n s2 :=
  strncmpFrom_eq_zero_iff s1 s2 n 0

private theorem strncpyFrom_eq (src : Bytes) (count i : Nat) :
    strncpyFrom src count i =
      fieldFrom 0 src count i ++
        List.replicate (count - (fieldFrom 0 src count i).length) 0 := by
  induction count generalizing i with
  | zero => simp [strncpyFrom, fieldFrom]
  | succ count ih =>
      rw [strncpyFrom, fieldFrom]
      split
      · simp
      · rw [ih]
        simp [Nat.add_sub_add_right]

/-- `strncpy` stores the source string padded with zeros to the full count. -/
theorem strncpy_eq (src : Bytes) (n : Nat) :
    strncpy src n = field 0 n src ++ List.replicate (n - (field 0 n src).length) 0 :=
  strncpyFrom_eq src n 0

/-- The copied string is read back up to its terminator. -/
theorem takeWhile_strncpy (src : Bytes) (n : Nat) :
    (strncpy src n).takeWhile (· ≠ 0) = field 0 n src := by
  have ordinary : ∀ symbol ∈ field 0 n src, decide (symbol ≠ 0) = true := by
    intro symbol member
    have other : symbol ≠ 0 := fun ended => stop_notMem_field (ended ▸ member)
    simpa using other
  rw [strncpy_eq, List.takeWhile_append_of_pos ordinary, List.takeWhile_replicate]
  simp

/-- `strncpy` stores the same bytes for the same string. -/
theorem strncpy_eq_iff {first second : Bytes} {n : Nat} :
    strncpy first n = strncpy second n ↔ field 0 n first = field 0 n second := by
  constructor
  · intro same
    rw [← takeWhile_strncpy first, same, takeWhile_strncpy]
  · intro same
    rw [strncpy_eq, strncpy_eq, same]

@[simp] theorem length_strncpy (src : Bytes) (n : Nat) : (strncpy src n).length = n := by
  have bound : (field 0 n src).length ≤ n := field_length_le
  rw [strncpy_eq, List.length_append, List.length_replicate]
  omega

end Ece391.Kernel
