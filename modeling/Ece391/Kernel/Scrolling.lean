import Ece391.Kernel.ScreenCells

/-!
# Scrolling the screen

`scrolling` moves 24 rows up in place and blanks the last one while it moves it, and then sets
the cursor.  `set_cursor` also tells the display controller, through two ports that select one
of its registers and store to it.
-/

namespace Ece391.Kernel

/-! ## The cursor of the display -/

/-- The `outb`s of `set_cursor`, as data and port. -/
def cursorOutputs (x y : Int) : List (UInt8 × UInt16) :=
  let pos := UInt16.ofInt (80 * y + x)
  [(0x0F, 0x3D4), ((pos &&& 0xFF).toUInt8, 0x3D5), (0x0E, 0x3D4),
    (((pos >>> 8) &&& 0xFF).toUInt8, 0x3D5)]

/-- The display controller: the register selected, and what the registers hold. -/
structure DisplayController where
  selected : UInt8
  registers : UInt8 → UInt8

namespace DisplayController

/-- One port selects a register and the other stores to it. -/
def output (controller : DisplayController) (write : UInt8 × UInt16) : DisplayController :=
  if write.2 = 0x3D4 then { controller with selected := write.1 }
  else if write.2 = 0x3D5 then
    { controller with
      registers := Function.update controller.registers controller.selected write.1 }
  else controller

/-- The place of the cursor in the page, from its high and its low register. -/
def cursor (controller : DisplayController) : Nat :=
  256 * (controller.registers 0x0E).toNat + (controller.registers 0x0F).toNat

end DisplayController

section

variable {x y : Int}

/-- The display shows the cursor where `set_cursor` puts it. -/
theorem cursor_cursorOutputs (controller : DisplayController) (column : 0 ≤ x ∧ x < 80)
    (row : 0 ≤ y ∧ y < 25) :
    (((cursorOutputs x y).foldl DisplayController.output controller).cursor : Int) =
      80 * y + x := by
  obtain ⟨pos, place⟩ : ∃ pos : Nat, 80 * y + x = pos := Int.eq_ofNat_of_zero_le (by omega)
  have bound : pos < 2000 := by omega
  have word : (UInt16.ofInt (80 * y + x)).toNat = pos := by
    rw [place, UInt16.ofInt, UInt16.toNat_ofNat']
    omega
  have low : ((UInt16.ofInt (80 * y + x) &&& 0xFF).toUInt8).toNat = pos % 256 := by
    rw [UInt16.toNat_toUInt8, UInt16.toNat_and, word]
    have masked : pos &&& 255 = pos % 256 := Nat.and_two_pow_sub_one_eq_mod pos 8
    change (pos &&& 255) % 256 = _
    omega
  have high : (((UInt16.ofInt (80 * y + x) >>> 8) &&& 0xFF).toUInt8).toNat = pos / 256 := by
    rw [UInt16.toNat_toUInt8, UInt16.toNat_and, UInt16.toNat_shiftRight, word]
    have masked : pos >>> 8 &&& 255 = pos >>> 8 % 256 := Nat.and_two_pow_sub_one_eq_mod _ 8
    have shifted : pos >>> 8 = pos / 256 := Nat.shiftRight_eq_div_pow pos 8
    change (pos >>> 8 &&& 255) % 256 = _
    omega
  change ((256 * (((UInt16.ofInt (80 * y + x) >>> 8) &&& 0xFF).toUInt8).toNat +
    ((UInt16.ofInt (80 * y + x) &&& 0xFF).toUInt8).toNat : Nat) : Int) = _
  rw [low, high, place]
  omega

/-! ## The rows -/

/-- Every row moves up, the last row is blank in the attribute of all output, and the cursor is
at its first column. -/
theorem scrolling_moves_rows (console : Console) (controller : DisplayController) :
    (∀ row < 24, ∀ column < 80,
        (cell console.scrolling.memory (80 * row + column)).1 =
          (cell console.memory (80 * (row + 1) + column)).1) ∧
      (∀ column < 80, (cell console.scrolling.memory (80 * 24 + column)).1 = 0x20) ∧
      (∀ k < 2000, (cell console.scrolling.memory k).2 = 7) ∧
      console.scrolling.screenX = 0 ∧ console.scrolling.screenY = 24 ∧
      ((cursorOutputs 0 24).foldl DisplayController.output controller).cursor = 80 * 24 := by
  refine ⟨fun row above column inside => ?_, fun column inside => ?_, fun k bound => ?_, rfl, rfl,
    ?_⟩
  · have next : 80 * row + column + 80 = 80 * (row + 1) + column := by omega
    rw [cell_scrolling, if_neg (by omega), if_pos (by omega), next]
  · rw [cell_scrolling, if_pos (by omega)]
    rfl
  · rw [cell_scrolling]
    split
    · rfl
    · rw [if_pos (by omega)]
  · have cursor := @cursor_cursorOutputs 0 24 controller (by decide) (by decide)
    omega

end

end Ece391.Kernel
