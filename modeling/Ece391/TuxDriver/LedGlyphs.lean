import Mathlib.Data.Fintype.Defs
import Mathlib.Data.Finset.Insert
import Ece391.TuxDriver.Controller

/-!
# The digits on the LEDs

`tux_set_led` places one byte for each LED.  The byte is read here through the map from bits
to segments, and compared with the segments that the hexadecimal digits are drawn with.
-/

namespace Ece391.TuxDriver

/-! ## What a byte shows -/

/-- The segments of a display, clockwise from the top, and the middle one. -/
inductive Segment where
  | a
  | b
  | c
  | d
  | e
  | f
  | g
  deriving DecidableEq, Repr

instance : Fintype Segment where
  elems := {.a, .b, .c, .d, .e, .f, .g}
  complete := fun segment => by cases segment <;> decide

/-- The bit of a segment in the documented map. -/
def Segment.mask : Segment → UInt8
  | .a => 0x80
  | .e => 0x40
  | .f => 0x20
  | .g => 0x08
  | .c => 0x04
  | .b => 0x02
  | .d => 0x01

/-- The bit of the decimal point. -/
def pointMask : UInt8 := 0x10

/-- The segments that a hexadecimal digit is drawn with. -/
def glyph : Nat → List Segment
  | 0x0 => [.a, .b, .c, .d, .e, .f]
  | 0x1 => [.b, .c]
  | 0x2 => [.a, .b, .d, .e, .g]
  | 0x3 => [.a, .b, .c, .d, .g]
  | 0x4 => [.b, .c, .f, .g]
  | 0x5 => [.a, .c, .d, .f, .g]
  | 0x6 => [.a, .c, .d, .e, .f, .g]
  | 0x7 => [.a, .b, .c]
  | 0x8 => [.a, .b, .c, .d, .e, .f, .g]
  | 0x9 => [.a, .b, .c, .d, .f, .g]
  | 0xA => [.a, .b, .c, .e, .f, .g]
  | 0xB => [.c, .d, .e, .f, .g]
  | 0xC => [.a, .d, .e, .f]
  | 0xD => [.b, .c, .d, .e, .g]
  | 0xE => [.a, .d, .e, .f, .g]
  | 0xF => [.a, .e, .f, .g]
  | _ => []

/-- A byte lights exactly the segments of a digit, and the decimal point when it is on. -/
def Shows (byte : UInt8) (digit : Nat) (point : Bool) : Prop :=
  (∀ segment : Segment, byte &&& segment.mask ≠ 0 ↔ segment ∈ glyph digit) ∧
    (byte &&& pointMask ≠ 0 ↔ point = true)

instance (byte : UInt8) (digit : Nat) (point : Bool) : Decidable (Shows byte digit point) :=
  inferInstanceAs (Decidable (_ ∧ _))

/-! ## What an argument asks for -/

/-- The digit of a LED: the low 16 bits of an argument are four digits. -/
def ledDigit (arg : UInt32) (led : Fin 4) : Nat :=
  arg.toNat >>> (4 * led.val) % 16

/-- Whether a LED is enabled, by bits 19 to 16. -/
def ledEnabled (arg : UInt32) (led : Fin 4) : Bool :=
  arg.toNat.testBit (16 + led)

/-- Whether the decimal point of a LED is on, by bits 27 to 24. -/
def ledPoint (arg : UInt32) (led : Fin 4) : Bool :=
  arg.toNat.testBit (24 + led)

/-- The data byte that `tux_set_led` places for a LED, after the opcode and the mask. -/
def placedByte (arg : UInt32) (led : Fin 4) : UInt8 :=
  ((tuxSetLed arg).flatMap Command.bytes).getD (2 + led) 0

/-- The byte placed for a LED shows its digit, or nothing when the LED is disabled. -/
def PlacesGlyph (arg : UInt32) (led : Fin 4) : Prop :=
  if ledEnabled arg led then Shows (placedByte arg led) (ledDigit arg led) (ledPoint arg led)
  else placedByte arg led = 0

instance (arg : UInt32) (led : Fin 4) : Decidable (PlacesGlyph arg led) :=
  inferInstanceAs (Decidable (ite _ _ _))

/-! ## The bits of an argument -/

/-- Four bits of an argument, which `tux_set_led` masks before it shifts them. -/
theorem extract_toNat (arg : UInt32) {msb : UInt32} (bound : msb.toNat < 28) :
    (extract arg msb).toNat = arg.toNat >>> msb.toNat % 16 := by
  have small : 15 <<< msb.toNat < 2 ^ 32 := by
    rw [Nat.shiftLeft_eq]
    calc 15 * 2 ^ msb.toNat ≤ 15 * 2 ^ 28 :=
          Nat.mul_le_mul_left _ (Nat.pow_le_pow_right (by decide) (Nat.le_of_lt bound))
      _ < 2 ^ 32 := by decide
  have shifted : msb.toNat % 32 = msb.toNat := Nat.mod_eq_of_lt (by omega)
  rw [extract, UInt32.toNat_shiftRight, UInt32.toNat_and, UInt32.toNat_shiftLeft, shifted,
    show bitwiseMask.toNat = 15 from rfl, Nat.mod_eq_of_lt small, Nat.shiftRight_and_distrib,
    Nat.shiftLeft_shiftRight, Nat.and_comm]
  exact Nat.and_two_pow_sub_one_eq_mod _ 4

theorem extract_eq (arg : UInt32) {msb : UInt32} (bound : msb.toNat < 28) :
    extract arg msb = UInt32.ofNat (arg.toNat >>> msb.toNat % 16) := by
  rw [← extract_toNat arg bound, UInt32.ofNat_toNat]

/-- One of four bits. -/
theorem testBit_fourBits (n : Nat) (msb : Nat) (led : Fin 4) :
    (n >>> msb % 16).testBit led = n.testBit (msb + led) := by
  rw [show 16 = 2 ^ 4 from rfl, Nat.testBit_mod_two_pow, Nat.testBit_shiftRight]
  simp

/-- The bit of a LED that is masked and then shifted down. -/
theorem status_eq_zero : ∀ n < 16, ∀ led : Fin 4,
    (UInt32.ofNat n &&& (bitwiseMask2 >>> (3 - UInt32.ofNat led))) >>> UInt32.ofNat led = 0 ↔
      n.testBit led = false := by
  decide

/-- The bit of a LED that is masked and then shifted to the place of the decimal point. -/
theorem decimal_eq : ∀ n < 16, ∀ led : Fin 4,
    ((UInt32.ofNat n &&& (bitwiseMask2 >>> (3 - UInt32.ofNat led))) <<<
        (4 - UInt32.ofNat led)).toUInt8 =
      if n.testBit led then pointMask else 0 := by
  decide

theorem hex_eq (arg : UInt32) (led : Fin 4) :
    ((arg >>> (4 * UInt32.ofNat led)) &&& (0x000F : UInt32)).toUInt8.toNat =
      ledDigit arg led := by
  have shift : ∀ led : Fin 4, (4 * UInt32.ofNat led).toNat % 32 = 4 * led.val := by decide
  rw [UInt32.toNat_toUInt8, UInt32.toNat_and, UInt32.toNat_shiftRight, shift,
    show (0x000F : UInt32).toNat = 2 ^ 4 - 1 from rfl, Nat.and_two_pow_sub_one_eq_mod, ledDigit]
  omega

theorem placedByte_eq (arg : UInt32) (led : Fin 4) :
    placedByte arg led = ledByte arg (UInt32.ofNat led) := by
  match led with
  | 0 => rfl
  | 1 => rfl
  | 2 => rfl
  | 3 => rfl

/-- The byte that `tux_set_led` computes, from the digit, the enable bit and the point. -/
theorem placedByte_of_bits (arg : UInt32) (led : Fin 4) :
    placedByte arg led =
      if ledEnabled arg led then
        hexNumToByte (UInt8.ofNat (ledDigit arg led)) + if ledPoint arg led then pointMask else 0
      else 0 := by
  have status := status_eq_zero _ (Nat.mod_lt (arg.toNat >>> 16) (by decide)) led
  have decimal := decimal_eq _ (Nat.mod_lt (arg.toNat >>> 24) (by decide)) led
  rw [testBit_fourBits] at status decimal
  have hex : ((arg >>> (4 * UInt32.ofNat led)) &&& (0x000F : UInt32)).toUInt8 =
      UInt8.ofNat (ledDigit arg led) := by
    rw [← hex_eq, UInt8.ofNat_toNat]
  have enables : extract arg 16 = UInt32.ofNat (arg.toNat >>> 16 % 16) :=
    extract_eq arg (by decide)
  have points : extract arg 24 = UInt32.ofNat (arg.toNat >>> 24 % 16) :=
    extract_eq arg (by decide)
  rw [placedByte_eq, ledByte, enables, points, hex]
  rw [decimal, ledEnabled, ledPoint]
  by_cases enabled : arg.toNat.testBit (16 + led) = true
  · rw [if_pos enabled, if_neg fun zero => by simp [status.mp zero] at enabled]
  · rw [if_neg enabled, if_pos (status.mpr (by simpa using enabled))]

/-- One of the sixteen bytes of `hex_num_to_byte` is wrong. -/
theorem hexNumToByte_shows : ∀ digit < 16, ∀ point : Bool,
    Shows (hexNumToByte (UInt8.ofNat digit) + if point then pointMask else 0) digit point ↔
      digit ≠ 0xE := by
  decide

/-- The byte placed for a LED is right unless the LED is enabled and its digit is E. -/
theorem tux_set_led_places_glyph (arg : UInt32) (led : Fin 4) :
    PlacesGlyph arg led ↔ ¬(ledEnabled arg led = true ∧ ledDigit arg led = 0xE) := by
  have digit : ledDigit arg led < 16 := Nat.mod_lt _ (by decide)
  rw [PlacesGlyph, placedByte_of_bits]
  by_cases enabled : ledEnabled arg led = true
  · simp only [enabled, if_true, true_and]
    exact hexNumToByte_shows _ digit _
  · simp [enabled]

/-- The digit E on LED 0 lights B in place of D. -/
theorem tux_set_led_misplaces_glyph :
    placedByte 0x1000E 0 = 0xEA ∧ ¬PlacesGlyph 0x1000E 0 := by
  decide

end Ece391.TuxDriver
