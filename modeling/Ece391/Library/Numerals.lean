import Mathlib.Data.Nat.Digits.Lemmas

/-!
# Numerals

The numeral of a number in a radix is written with one symbol for each digit, the most
significant one first.  Reading it back takes the digits in order, whether or not there are
zeros in front.
-/

namespace Ece391.Library

universe u

variable {Symbol : Type u}

/-- The digits of a number, least significant first.  Zero has one digit. -/
def digitsOf (radix value : Nat) : List Nat :=
  if value = 0 then [0] else Nat.digits radix value

/-- The numeral with the given digits, least significant first. -/
def spell (symbol : Nat → Symbol) (digits : List Nat) : List Symbol :=
  (digits.map symbol).reverse

/-- The numeral of a number. -/
def numeral (symbol : Nat → Symbol) (radix value : Nat) : List Symbol :=
  spell symbol (digitsOf radix value)

section

variable {symbol : Nat → Symbol} {digit : Symbol → Option Nat} {radix value : Nat}
variable {digits : List Nat}

theorem digitsOf_lt (large : 1 < radix) {d : Nat} (member : d ∈ digitsOf radix value) :
    d < radix := by
  rw [digitsOf] at member
  split at member
  · rw [List.mem_singleton.mp member]
    omega
  · exact Nat.digits_lt_base large member

/-- A number below a power of the radix has no more digits than the exponent. -/
theorem length_digitsOf_le (large : 1 < radix) {width : Nat} (positive : 0 < width)
    (bound : value < radix ^ width) : (digitsOf radix value).length ≤ width := by
  rw [digitsOf]
  split
  · exact positive
  · exact (Nat.digits_length_le_iff large value).mpr bound

end

end Ece391.Library
