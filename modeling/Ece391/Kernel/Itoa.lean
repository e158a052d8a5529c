import Ece391.Kernel.Drivers
import Ece391.Library.Loop
import Ece391.Library.Numerals

/-!
# Numbers as text

`itoa` stores the digits of a number from the lowest on, terminates them, and reverses the
string in place.
-/

namespace Ece391.Kernel

open Ece391.Library

/-- `lookup`. -/
def lookup : List UInt8 :=
  [0x30, 0x31, 0x32, 0x33, 0x34, 0x35, 0x36, 0x37, 0x38, 0x39, 0x41, 0x42, 0x43, 0x44, 0x45,
    0x46, 0x47, 0x48, 0x49, 0x4A, 0x4B, 0x4C, 0x4D, 0x4E, 0x4F, 0x50, 0x51, 0x52, 0x53, 0x54,
    0x55, 0x56, 0x57, 0x58, 0x59, 0x5A]

/-- The variables of the loop of `strrev`. -/
structure StrrevState where
  beg : Int
  fin : Int
  s : Bytes

/-- The exchange of two bytes through `tmp`. -/
def swapBytes (s : Bytes) (beg fin : Nat) : Bytes :=
  let tmp := s fin
  Function.update (Function.update s fin (s beg)) beg tmp

/-- The loop of `strrev`, which swaps two bytes and moves inwards. -/
def strrevBody (state : StrrevState) : Option (ForInStep StrrevState) :=
  if state.beg < state.fin then
    some (.yield ⟨state.beg + 1, state.fin - 1,
      swapBytes state.s state.beg.toNat state.fin.toNat⟩)
  else some (.done state)

/-- `strrev`. -/
def strrev (fuel : Nat) (s : Bytes) : Option Bytes :=
  (loop strrevBody fuel ⟨0, (strlen s : Int) - 1, s⟩).map StrrevState.s

/-- The variables of the loop of `itoa`, where `newbuf` counts from `buf`. -/
structure ItoaState where
  newval : UInt32
  newbuf : Nat
  buf : Bytes

/-- The loop of `itoa`, one place value at a time. -/
def itoaBody (radix : UInt32) (state : ItoaState) : Option (ForInStep ItoaState) :=
  if 0 < state.newval then
    let i := (state.newval % radix).toNat
    some (.yield ⟨state.newval / radix, state.newbuf + 1,
      Function.update state.buf state.newbuf (lookup.getD i 0)⟩)
  else some (.done state)

/-- `itoa`, on the bytes from `buf` on. -/
def itoa (fuel : Nat) (value : UInt32) (buf : Bytes) (radix : UInt32) : Option Bytes :=
  if value = 0 then some (Function.update (Function.update buf 0 0x30) 1 0)
  else do
    let last ← loop (itoaBody radix) fuel ⟨value, 0, buf⟩
    strrev fuel (Function.update last.buf last.newbuf 0)

/-! ## Stored text -/

section

variable {buf : Bytes} {text : List UInt8} {i fuel : Nat} {radix value : UInt32}

theorem overwrite_nil (buf : Bytes) : overwrite buf [] = buf := rfl

/-- A byte stored behind a text makes it longer. -/
theorem update_overwrite (buf : Bytes) (text : List UInt8) (char : UInt8) :
    Function.update (overwrite buf text) text.length char = overwrite buf (text ++ [char]) := by
  funext i
  rcases Nat.lt_trichotomy i text.length with before | rfl | behind
  · rw [Function.update_of_ne (Nat.ne_of_lt before), overwrite, overwrite,
      List.getElem?_append_left before]
  · rw [Function.update_self, overwrite, List.getElem?_concat_length, Option.getD_some]
  · rw [Function.update_of_ne (Nat.ne_of_gt behind), overwrite, overwrite,
      List.getElem?_eq_none (Nat.le_of_lt behind), List.getElem?_eq_none (by simp; omega)]

theorem overwrite_inside (inside : i < text.length) : overwrite buf text i = text[i] := by
  rw [overwrite, List.getElem?_eq_getElem inside, Option.getD_some]

theorem overwrite_outside (outside : text.length ≤ i) : overwrite buf text i = buf i := by
  rw [overwrite, List.getElem?_eq_none outside, Option.getD_none]

/-- A terminated text is a string. -/
theorem holds_overwrite (ordinary : 0 ∉ text) : Holds 0 (overwrite buf (text ++ [0])) text where
  ordinary := ordinary
  agree index inside := by
    rw [overwrite_inside (by simp; omega), List.getElem_append_left inside]
  ended := by
    rw [overwrite_inside (by simp), List.getElem_concat_length rfl]

theorem strlen_overwrite (ordinary : 0 ∉ text) (bound : text.length < 4294967296) :
    strlen (overwrite buf (text ++ [0])) = text.length := by
  rw [strlen_eq, (holds_overwrite ordinary).field, List.length_take]
  omega

/-! ## Reversal -/

theorem swapBytes_first (s : Bytes) (beg fin : Nat) : swapBytes s beg fin beg = s fin :=
  Function.update_self ..

theorem swapBytes_second {beg fin : Nat} (s : Bytes) (apart : fin ≠ beg) :
    swapBytes s beg fin fin = s beg :=
  (Function.update_of_ne apart ..).trans (Function.update_self ..)

theorem swapBytes_other {beg fin : Nat} (s : Bytes) (first : i ≠ beg) (second : i ≠ fin) :
    swapBytes s beg fin i = s i :=
  (Function.update_of_ne first ..).trans (Function.update_of_ne second ..)

/-- The loop reverses what lies between its two indices, and ends when they meet. -/
theorem strrevLoop_spec (s : Bytes) {beg fin : Int} (low : 0 ≤ beg)
    (enough : (fin - beg).toNat < fuel) :
    ∃ last, loop strrevBody fuel ⟨beg, fin, s⟩ = some last ∧
      ∀ i : Nat, last.s i = if beg ≤ i ∧ i ≤ fin then s (beg + fin - i).toNat else s i := by
  induction fuel generalizing beg fin s with
  | zero => omega
  | succ fuel ih =>
      by_cases apart : beg < fin
      · have step : strrevBody ⟨beg, fin, s⟩ =
            some (.yield ⟨beg + 1, fin - 1, swapBytes s beg.toNat fin.toNat⟩) := if_pos apart
        obtain ⟨last, ran, reversed⟩ := @ih (swapBytes s beg.toNat fin.toNat) (beg + 1)
          (fin - 1) (by omega) (by omega)
        refine ⟨last, (loop_yield step).trans ran, fun i => ?_⟩
        rw [reversed]
        by_cases atBeg : i = beg.toNat
        · rw [if_neg (by omega), if_pos (by omega), atBeg, swapBytes_first]
          congr 1
          omega
        by_cases atFin : i = fin.toNat
        · rw [if_neg (by omega), if_pos (by omega), atFin,
            swapBytes_second s (by omega)]
          congr 1
          omega
        by_cases inside : beg ≤ i ∧ i ≤ fin
        · rw [if_pos (by omega), if_pos inside,
            swapBytes_other s (by omega) (by omega)]
          congr 1
          omega
        · rw [if_neg (by omega), if_neg inside, swapBytes_other s atBeg atFin]
      · refine ⟨⟨beg, fin, s⟩, loop_done (if_neg apart), fun i => ?_⟩
        split
        next inside =>
          change s i = s _
          congr 1
          omega
        next => rfl

theorem strrev_overwrite (ordinary : 0 ∉ text) (small : text.length < 4294967296)
    (enough : text.length ≤ fuel) (positive : 0 < fuel) :
    strrev fuel (overwrite buf (text ++ [0])) = some (overwrite buf (text.reverse ++ [0])) := by
  have length := @strlen_overwrite buf text ordinary small
  obtain ⟨last, ran, reversed⟩ := @strrevLoop_spec fuel (overwrite buf (text ++ [0])) 0
    ((text.length : Int) - 1) (Int.le_refl 0) (by omega)
  rw [strrev, length, ran, Option.map_some]
  congr 1
  funext i
  rw [reversed]
  rcases Nat.lt_trichotomy i text.length with inside | rfl | outside
  · rw [if_pos (by omega), overwrite_inside (by simp; omega), overwrite_inside (by simp; omega),
      List.getElem_append_left (by omega), List.getElem_append_left (by simpa using inside),
      List.getElem_reverse]
    congr 1
    omega
  · rw [if_neg (by omega), overwrite_inside (by simp), overwrite_inside (by simp),
      List.getElem_concat_length rfl, List.getElem_concat_length (by simp)]
  · rw [if_neg (by omega), overwrite_outside (by simp; omega), overwrite_outside (by simp; omega)]

/-! ## Digits -/

/-- The character of a digit. -/
def digitChar (digit : Nat) : UInt8 :=
  lookup.getD digit 0

theorem digitChar_ne_zero : ∀ digit < 36, digitChar digit ≠ 0 := by
  decide

theorem zero_notMem_spell {digits : List Nat} (small : ∀ digit ∈ digits, digit < 36) :
    0 ∉ spell digitChar digits := by
  simp only [spell, List.mem_reverse, List.mem_map, not_exists, not_and]
  exact fun digit member => digitChar_ne_zero digit (small digit member)

/-- The loop stores the digits of what is left behind those that it has stored. -/
theorem itoaLoop_eq (large : 1 < radix.toNat)
    (enough : (Nat.digits radix.toNat value.toNat).length < fuel) :
    loop (itoaBody radix) fuel ⟨value, text.length, overwrite buf text⟩ =
      some ⟨0, (text ++ (Nat.digits radix.toNat value.toNat).map digitChar).length,
        overwrite buf (text ++ (Nat.digits radix.toNat value.toNat).map digitChar)⟩ := by
  induction fuel generalizing value text with
  | zero => omega
  | succ fuel ih =>
      by_cases more : 0 < value
      · have positive : 0 < value.toNat := UInt32.lt_iff_toNat_lt.mp more
        have quotient : (value / radix).toNat = value.toNat / radix.toNat := UInt32.toNat_div ..
        rw [Nat.digits_def' large positive, List.length_cons, ← quotient] at enough
        have step : itoaBody radix ⟨value, text.length, overwrite buf text⟩ =
            some (.yield ⟨value / radix, (text ++ [digitChar (value % radix).toNat]).length,
              overwrite buf (text ++ [digitChar (value % radix).toNat])⟩) := by
          rw [itoaBody, if_pos more, ← update_overwrite, List.length_append]
          rfl
        rw [loop_yield step, ih (by omega), Nat.digits_def' large positive, quotient,
          UInt32.toNat_mod, List.append_assoc, List.map_cons, List.singleton_append]
      · have zero : value = 0 := by
          rw [← UInt32.toNat_inj]
          have none : ¬0 < value.toNat := fun positive => more (UInt32.lt_iff_toNat_lt.mpr positive)
          exact Nat.eq_zero_of_not_pos none
        subst zero
        have none : Nat.digits radix.toNat (UInt32.toNat 0) = [] := Nat.digits_zero _
        have step : itoaBody radix ⟨0, text.length, overwrite buf text⟩ =
            some (.done ⟨0, text.length, overwrite buf text⟩) := if_neg more
        rw [loop_done step, none, List.map_nil, List.append_nil]

/-- The text that `itoa` leaves. -/
def itoaText (value radix : UInt32) : List UInt8 :=
  numeral digitChar radix.toNat value.toNat

theorem digitsOf_lt_36 (large : 1 < radix.toNat) (known : radix.toNat ≤ 36) :
    ∀ digit ∈ digitsOf radix.toNat value.toNat, digit < 36 :=
  fun _ member => Nat.lt_of_lt_of_le (digitsOf_lt large member) known

/-- A word has no more digits than bits. -/
theorem length_itoaText_le (large : 1 < radix.toNat) : (itoaText value radix).length ≤ 32 := by
  rw [itoaText, numeral, spell, List.length_reverse, List.length_map]
  refine length_digitsOf_le large (by decide) (Nat.lt_of_lt_of_le value.toNat_lt ?_)
  exact Nat.pow_le_pow_left large 32

/-- `itoa` stores the numeral of its value. -/
theorem itoa_eq (value : UInt32) (buf : Bytes) (large : 1 < radix.toNat)
    (known : radix.toNat ≤ 36) (enough : 32 < fuel) :
    itoa fuel value buf radix = some (overwrite buf (itoaText value radix ++ [0])) := by
  rw [itoa]
  split
  next zero =>
    have text : itoaText value radix = [0x30] := by
      rw [itoaText, zero]
      rfl
    rw [text, ← overwrite_nil buf]
    have first := update_overwrite buf [] 0x30
    have second := update_overwrite buf [0x30] 0
    rw [List.length_nil, List.nil_append] at first
    rw [first]
    exact congrArg some second
  next nonzero =>
    have positive : value.toNat ≠ 0 := fun zero => nonzero (UInt32.toNat_inj.mp zero)
    have few := @length_itoaText_le radix value large
    have digits : digitsOf radix.toNat value.toNat = Nat.digits radix.toNat value.toNat :=
      if_neg positive
    have stored : ((Nat.digits radix.toNat value.toNat).map digitChar).reverse =
        itoaText value radix := by
      rw [itoaText, numeral, spell, digits]
    have ordinary : 0 ∉ (Nat.digits radix.toNat value.toNat).map digitChar := by
      rw [← List.mem_reverse, stored]
      exact zero_notMem_spell (digitsOf_lt_36 large known)
    rw [← stored, List.length_reverse] at few
    have ran := @itoaLoop_eq buf [] fuel radix value large (by
      rw [List.length_map] at few
      omega)
    rw [List.length_nil, overwrite_nil, List.nil_append] at ran
    rw [ran]
    change strrev fuel (Function.update _ _ 0) = _
    rw [update_overwrite, strrev_overwrite ordinary (by omega) (by omega) (by omega), stored]

end

end Ece391.Kernel
