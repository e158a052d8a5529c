import Ece391.Library.Sweep
import Ece391.ModeX.ShowScreen

/-!
# The status bar

`text_to_graphics` draws a line of text into a buffer of four planes, plane 0 first, and
`image_on_status_bar` copies the planes to the top of the video memory.  The bits of a font
line are taken from the right, while the plane and the half of the character are counted from
the left, so that each bit has to be turned around twice.
-/

namespace Ece391.ModeX

open Ece391.Library

/-- `strlen`. -/
def strlen (str : List UInt8) : Nat :=
  (str.takeWhile (· ≠ 0)).length

/-- The value of a `char`, which is signed. -/
def charValue (char : UInt8) : Int :=
  if char < 128 then char.toNat else char.toNat - 256

/-- `WHITE`. -/
def white : UInt8 := 0x0F

/-- `center`, an unsigned number. -/
def center (lengthString : Nat) : Int :=
  (320 - 8 * (lengthString : Int)).tdiv 2 % 4294967296

/-- `buf_index`, which is computed without a sign and stored with one. -/
def bufIndex (center : Int) (j k m : Nat) : Int :=
  let n : Int := m
  let n := if m < 4 then n + 4 else n
  let n := if m ≥ 4 then n - 4 else n
  let pOff := 3 - ((k : Int) * 320 + m + j * 8) % 4
  Int.bmod (80 + 80 * k + n / 4 + j * 8 / 4 + pOff * 1440 + center / 4) 4294967296

/-- The body of the loop over the bits of a line. -/
def drawBit (center : Int) (j k m : Nat) (state : UInt8 × (Int → UInt8)) :
    UInt8 × (Int → UInt8) :=
  let charDataLine := if m > 0 then state.1 >>> 1 else state.1
  if charDataLine &&& 0x01 = 0x01 then
    (charDataLine, Function.update state.2 (bufIndex center j k m) white)
  else (charDataLine, state.2)

/-- The loop over the bits of a line. -/
def drawLine (center : Int) (j k : Nat) (charDataLine : UInt8) (buf : Int → UInt8) :
    Int → UInt8 :=
  ((List.range 8).foldl (fun state m => drawBit center j k m state) (charDataLine, buf)).2

/-- `text_to_graphics`, given the table of the font. -/
def textToGraphics (fontData : Int → Nat → UInt8) (buf : Int → UInt8) (bgroundColor : Int)
    (str : List UInt8) : Int → UInt8 :=
  let lengthString := strlen str
  let buf := (List.range 5760).foldl
    (fun buf (i : Nat) => Function.update buf (i : Int) (UInt8.ofInt bgroundColor)) buf
  (List.range lengthString).foldl
    (fun buf j =>
      let asciiVal := charValue (str.getD j 0)
      (List.range 16).foldl
        (fun buf k => drawLine (center lengthString) j k (fontData asciiVal k) buf) buf)
    buf

/-- `copy_status_bar`: 1440 bytes from the buffer to the planes selected. -/
def copyStatusBar (buf : Int → UInt8) (img : Int) (scrAddr : UInt16) (vga : Vga) : Vga :=
  { vga with
    planes := fun plane offset =>
      if vga.Writes plane ∧ scrAddr.toNat ≤ offset ∧ offset < scrAddr.toNat + 1440 then
        buf (img + (offset - scrAddr.toNat : Nat))
      else vga.planes plane offset }

/-- The loop of `image_on_status_bar`. -/
def drawStatusPlanes (buf : Int → UInt8) (vga : Vga) : Vga :=
  (List.finRange 4).foldl
    (fun vga (i : Fin 4) =>
      copyStatusBar buf (i.val * 1440) 0 (setWriteMask (1 <<< (i.val.toUInt16 + 8)) vga))
    vga

/-- The byte that the display shows at a column and a row. -/
def Vga.pixel (vga : Vga) (x y : Nat) : UInt8 :=
  vga.planes (Fin.ofNat 4 x) (y * 80 + x / 4)

/-- The pixels of a centred text: the bit of the font at the column of the character, from
the left, is set. -/
def Lit (fontData : Int → Nat → UInt8) (str : List UInt8) (x y : Nat) : Prop :=
  160 - 4 * strlen str ≤ x ∧ (x - (160 - 4 * strlen str)) / 8 < strlen str ∧ 1 ≤ y ∧ y ≤ 16 ∧
    (fontData (str.getD ((x - (160 - 4 * strlen str)) / 8) 0).toNat (y - 1)).toNat.testBit
      (7 - (x - (160 - 4 * strlen str)) % 8) = true

instance (fontData : Int → Nat → UInt8) (str : List UInt8) (x y : Nat) :
    Decidable (Lit fontData str x y) :=
  inferInstanceAs (Decidable (_ ∧ _))

/-! ## The planes -/

section

variable {buf : Int → UInt8} {vga : Vga}

theorem copyStatusBar_planes (i plane : Fin 4) (offset : Nat) (vga : Vga) :
    (copyStatusBar buf (i.val * 1440) 0
        (setWriteMask (1 <<< (i.val.toUInt16 + 8)) vga)).planes plane offset =
      if plane = i ∧ 0 ≤ offset ∧ offset < 0 + 1440 then buf (i.val * 1440 + offset)
      else vga.planes plane offset := by
  have kept : (setWriteMask (1 <<< (i.val.toUInt16 + 8)) vga).planes = vga.planes :=
    outw_planes ..
  have start : (0 : UInt16).toNat = 0 := rfl
  simp only [copyStatusBar, setWriteMask_writes, kept, start, Nat.sub_zero]

/-- The place of a pixel in the buffer. -/
def place (x y : Nat) : Int :=
  (x % 4 * 1440 + y * 80 + x / 4 : Nat)

theorem place_injective {x y x' y' : Nat} (column : x < 320) (row : y < 18) (column' : x' < 320)
    (row' : y' < 18) (same : place x y = place x' y') : x = x' ∧ y = y' := by
  simp only [place] at same
  have bound : y * 80 + x / 4 < 1440 := by omega
  have bound' : y' * 80 + x' / 4 < 1440 := by omega
  have plane : x % 4 = x' % 4 := by omega
  have rows : y = y' := by omega
  omega

/-- The display shows each pixel from its place. -/
theorem drawStatusPlanes_pixel (buf : Int → UInt8) (vga : Vga) {x y : Nat} (column : x < 320)
    (row : y < 18) : (drawStatusPlanes buf vga).pixel x y = buf (place x y) := by
  have inside : (List.finRange 4).contains (Fin.ofNat 4 x) = true ∧ 0 ≤ y * 80 + x / 4 ∧
      y * 80 + x / 4 < 0 + 1440 := by
    refine ⟨by simp, ?_, ?_⟩ <;> omega
  have start : ((Fin.ofNat 4 x).val : Int) * 1440 + (y * 80 + x / 4 : Nat) = place x y := by
    simp only [place, Fin.ofNat]
    omega
  rw [Vga.pixel, drawStatusPlanes, ownPlanes copyStatusBar_planes, if_pos inside, start]

end

/-! ## The loops of `text_to_graphics` -/

section

variable {start : Int} {line : UInt8} {buf : Int → UInt8} {j k : Nat}

/-- The lowest bit of a shifted byte. -/
theorem lowest_bit (byte : UInt8) : byte &&& 0x01 = 0x01 ↔ byte.toNat.testBit 0 = true := by
  rw [← UInt8.toNat_inj, UInt8.toNat_and]
  simp [Nat.testBit_zero, Nat.and_one_is_mod]

/-- The bit of a line that a round looks at. -/
theorem drawBit_eq {m : Nat} {state : UInt8 × (Int → UInt8)}
    (shifted : state.1.toNat = line.toNat >>> (m - 1)) :
    (drawBit start j k m state).1.toNat = line.toNat >>> m ∧
      (drawBit start j k m state).2 = Function.update state.2 (bufIndex start j k m)
        (if line.toNat.testBit m then white else state.2 (bufIndex start j k m)) := by
  have next : (if m > 0 then state.1 >>> 1 else state.1).toNat = line.toNat >>> m := by
    split
    next positive =>
      have back : m - 1 + 1 = m := by omega
      rw [UInt8.toNat_shiftRight, shifted, UInt8.toNat_one, ← Nat.shiftRight_add, back]
    next zero =>
      have first : m = 0 := by omega
      rw [shifted, first]
  have set : (if m > 0 then state.1 >>> 1 else state.1) &&& 0x01 = 0x01 ↔
      line.toNat.testBit m = true := by
    rw [lowest_bit, next, Nat.testBit_shiftRight, Nat.add_zero]
  rw [drawBit]
  by_cases lit : line.toNat.testBit m = true
  · rw [if_pos (set.mpr lit), if_pos lit]
    exact ⟨next, rfl⟩
  · rw [if_neg (fun one => lit (set.mp one)), if_neg lit, Function.update_eq_self]
    exact ⟨next, rfl⟩

/-- After some rounds the line has been shifted once less, and the bits up to there have been
drawn. -/
theorem drawBits_eq (start : Int) (j k n : Nat) (line : UInt8) (buf : Int → UInt8) :
    let drawn := (List.range n).foldl (fun state m => drawBit start j k m state) (line, buf)
    drawn.1.toNat = line.toNat >>> (n - 1) ∧
      drawn.2 = sweep (fun m => bufIndex start j k m)
        (fun m old => if line.toNat.testBit m then white else old) (List.range n) buf := by
  induction n with
  | zero => exact ⟨rfl, rfl⟩
  | succ n ih =>
      obtain ⟨shifted, drawn⟩ := ih
      obtain ⟨next, stored⟩ := @drawBit_eq start line j k n _ shifted
      rw [List.range_succ, List.foldl_append, sweep_append, ← drawn]
      exact ⟨next, stored⟩

/-- The bits of the text, by character, line and bit. -/
def bits (length : Nat) : List (Nat × Nat × Nat) :=
  List.range length ×ˢ List.range 16 ×ˢ List.range 8

/-- What `text_to_graphics` stores for a bit over some byte. -/
def bitColor (fontData : Int → Nat → UInt8) (str : List UInt8) (bit : Nat × Nat × Nat)
    (old : UInt8) : UInt8 :=
  if (fontData (charValue (str.getD bit.1 0)) bit.2.1).toNat.testBit bit.2.2 then white else old

/-- `text_to_graphics` fills the buffer and then draws the bits of the text. -/
theorem textToGraphics_eq (fontData : Int → Nat → UInt8) (buf : Int → UInt8)
    (bgroundColor : Int) (str : List UInt8) :
    textToGraphics fontData buf bgroundColor str =
      sweep (fun bit => bufIndex (center (strlen str)) bit.1 bit.2.1 bit.2.2)
        (bitColor fontData str) (bits (strlen str))
        (sweep (fun i : Nat => (i : Int)) (fun _ _ => UInt8.ofInt bgroundColor) (List.range 5760)
          buf) := by
  simp only [bits, sweep_product, textToGraphics, drawLine, drawBits_eq]
  generalize List.range 5760 = indices
  rfl

end

/-! ## The pixels -/

section

variable {fontData : Int → Nat → UInt8} {str : List UInt8} {length x y : Nat}

theorem mem_bits {bit : Nat × Nat × Nat} :
    bit ∈ bits length ↔ bit.1 < length ∧ bit.2.1 < 16 ∧ bit.2.2 < 8 := by
  obtain ⟨j, k, m⟩ := bit
  simp [bits, List.mem_product]

theorem bits_nodup (length : Nat) : (bits length).Nodup :=
  List.nodup_range.product (List.nodup_range.product List.nodup_range)

theorem center_eq (short : length ≤ 40) : center length = 160 - 4 * length := by
  have half : (320 - 8 * (length : Int)).tdiv 2 = 160 - 4 * length := by
    rw [Int.tdiv_eq_ediv_of_nonneg (by omega)]
    omega
  rw [center, half]
  omega

/-- A bit goes to the place of the pixel that lies as far from the right of the character as
the bit does from the right of the line. -/
theorem bufIndex_eq (short : length ≤ 40) {bit : Nat × Nat × Nat} (listed : bit ∈ bits length) :
    bufIndex (center length) bit.1 bit.2.1 bit.2.2 =
      place (160 - 4 * length + 8 * bit.1 + (7 - bit.2.2)) (bit.2.1 + 1) := by
  obtain ⟨j, k, m⟩ := bit
  rw [mem_bits] at listed
  obtain ⟨character, line, bit⟩ := listed
  simp only at character line bit
  have index : 80 + 80 * (k : Int) +
        (if m ≥ 4 then (if m < 4 then (m : Int) + 4 else m) - 4
          else if m < 4 then (m : Int) + 4 else m) / 4 +
        j * 8 / 4 + (3 - ((k : Int) * 320 + m + j * 8) % 4) * 1440 + center length / 4 =
      place (160 - 4 * length + 8 * j + (7 - m)) (k + 1) := by
    rw [center_eq short, place]
    split <;> split <;> omega
  rw [bufIndex]
  simp only [index]
  apply Int.bmod_eq_of_le
  · simp only [place]
    omega
  · simp only [place]
    omega

/-- Distinct bits go to distinct places. -/
theorem bufIndices_nodup (short : length ≤ 40) :
    ((bits length).map fun bit =>
      bufIndex (center length) bit.1 bit.2.1 bit.2.2).Nodup := by
  refine List.Nodup.map_on ?_ (bits_nodup length)
  intro bit listed other listed' same
  rw [bufIndex_eq short listed, bufIndex_eq short listed'] at same
  rw [mem_bits] at listed listed'
  obtain ⟨columns, rows⟩ := place_injective (by omega) (by omega) (by omega) (by omega) same
  refine Prod.ext ?_ (Prod.ext ?_ ?_)
  · omega
  · omega
  · omega

/-- The bit that is drawn at a pixel. -/
def bitAt (length x y : Nat) : Nat × Nat × Nat :=
  ((x - (160 - 4 * length)) / 8, y - 1, 7 - (x - (160 - 4 * length)) % 8)

/-- The pixels of the characters. -/
def InText (length x y : Nat) : Prop :=
  160 - 4 * length ≤ x ∧ (x - (160 - 4 * length)) / 8 < length ∧ 1 ≤ y ∧ y ≤ 16

theorem bitAt_mem (inText : InText length x y) : bitAt length x y ∈ bits length := by
  obtain ⟨left, right, top, bottom⟩ := inText
  rw [mem_bits, bitAt]
  refine ⟨right, ?_, ?_⟩ <;> simp only <;> omega

theorem bufIndex_bitAt (short : length ≤ 40) (inText : InText length x y) :
    bufIndex (center length) (bitAt length x y).1 (bitAt length x y).2.1 (bitAt length x y).2.2 =
      place x y := by
  rw [bufIndex_eq short (bitAt_mem inText)]
  obtain ⟨left, right, top, bottom⟩ := inText
  have column : 160 - 4 * length + 8 * (bitAt length x y).1 + (7 - (bitAt length x y).2.2) = x := by
    simp only [bitAt]
    omega
  have row : (bitAt length x y).2.1 + 1 = y := by
    simp only [bitAt]
    omega
  rw [column, row]

/-- No bit goes to a pixel beside the text. -/
theorem bufIndex_ne (short : length ≤ 40) (column : x < 320) (row : y < 18)
    (beside : ¬ InText length x y) :
    ∀ bit ∈ bits length, bufIndex (center length) bit.1 bit.2.1 bit.2.2 ≠ place x y := by
  intro bit listed same
  rw [bufIndex_eq short listed] at same
  rw [mem_bits] at listed
  obtain ⟨columns, rows⟩ := place_injective (by omega) (by omega) column row same
  refine beside ⟨?_, ?_, ?_, ?_⟩ <;> omega

theorem fill_place (buf : Int → UInt8) (color : UInt8) (column : x < 320) (row : y < 18) :
    sweep (fun i : Nat => (i : Int)) (fun _ _ => color) (List.range 5760) buf (place x y) =
      color := by
  have distinct : ((List.range 5760).map fun i : Nat => (i : Int)).Nodup :=
    List.nodup_range.map fun _ _ same => Int.ofNat.inj same
  have inside : x % 4 * 1440 + y * 80 + x / 4 ∈ List.range 5760 :=
    List.mem_range.mpr (by omega)
  exact sweep_visited distinct inside

/-- A character of the text with a code below 128 selects its own bitmap. -/
theorem charValue_ascii (ascii : ∀ char ∈ str.take (strlen str), char < 128) {j : Nat}
    (listed : j < strlen str) : charValue (str.getD j 0) = (str.getD j 0).toNat := by
  have length : strlen str ≤ str.length := (List.takeWhile_prefix _).length_le
  have inside : j < str.length := by omega
  have char : str.getD j 0 ∈ str.take (strlen str) := by
    rw [List.getD_eq_getElem?_getD, List.getElem?_eq_getElem inside, Option.getD_some,
      List.mem_take_iff_getElem]
    exact ⟨j, by omega, rfl⟩
  rw [charValue, if_pos (ascii _ char)]

theorem textToGraphics_place (buf : Int → UInt8) (bgroundColor : Int)
    (short : strlen str ≤ 40) (ascii : ∀ char ∈ str.take (strlen str), char < 128)
    (column : x < 320) (row : y < 18) :
    textToGraphics fontData buf bgroundColor str (place x y) =
      if Lit fontData str x y then white else UInt8.ofInt bgroundColor := by
  rw [textToGraphics_eq]
  by_cases inText : InText (strlen str) x y
  · have lit : Lit fontData str x y ↔
        (fontData (charValue (str.getD (bitAt (strlen str) x y).1 0))
          (bitAt (strlen str) x y).2.1).toNat.testBit (bitAt (strlen str) x y).2.2 = true := by
      obtain ⟨left, right, top, bottom⟩ := inText
      simp only [bitAt]
      rw [charValue_ascii ascii right]
      exact ⟨fun lit => lit.2.2.2.2, fun set => ⟨left, right, top, bottom, set⟩⟩
    have visited := @sweep_visited _ _ _ _ _ (bitColor fontData str) _
      (sweep (fun i : Nat => (i : Int)) (fun _ _ => UInt8.ofInt bgroundColor) (List.range 5760)
        buf) _ (bufIndices_nodup short) (bitAt_mem inText)
    rw [bufIndex_bitAt short inText, fill_place buf _ column row] at visited
    rw [visited, bitColor]
    simp only [lit]
  · have unlit : ¬ Lit fontData str x y := fun lit =>
      inText ⟨lit.1, lit.2.1, lit.2.2.1, lit.2.2.2.1⟩
    rw [if_neg unlit, sweep_elsewhere (bufIndex_ne short column row inText),
      fill_place buf _ column row]

theorem status_pixel (buf : Int → UInt8) (bgroundColor : Int) (vga : Vga)
    (short : strlen str ≤ 40) (ascii : ∀ char ∈ str.take (strlen str), char < 128)
    (column : x < 320) (row : y < 18) :
    (drawStatusPlanes (textToGraphics fontData buf bgroundColor str) vga).pixel x y =
      if Lit fontData str x y then white else UInt8.ofInt bgroundColor := by
  rw [drawStatusPlanes_pixel _ _ column row, textToGraphics_place _ _ short ascii column row]

end

/-- After `text_to_graphics` and the copies of the four planes, the pixels of the centred text
are white and all others have the background color, so that on any background but a white one
the white pixels are those of the text. -/
theorem status_bar_shows_text (fontData : Int → Nat → UInt8) (buf : Int → UInt8)
    (bgroundColor : Int) (str : List UInt8) (vga : Vga) (short : strlen str ≤ 40)
    (ascii : ∀ char ∈ str.take (strlen str), char < 128) :
    (∀ x y, x < 320 → y < 18 →
      (drawStatusPlanes (textToGraphics fontData buf bgroundColor str) vga).pixel x y =
        if Lit fontData str x y then white else UInt8.ofInt bgroundColor) ∧
    (UInt8.ofInt bgroundColor ≠ white → ∀ x y, x < 320 → y < 18 →
      ((drawStatusPlanes (textToGraphics fontData buf bgroundColor str) vga).pixel x y = white ↔
        Lit fontData str x y)) := by
  have pixels (x y : Nat) (column : x < 320) (row : y < 18) :
      (drawStatusPlanes (textToGraphics fontData buf bgroundColor str) vga).pixel x y =
        if Lit fontData str x y then white else UInt8.ofInt bgroundColor :=
    status_pixel buf bgroundColor vga short ascii column row
  refine ⟨pixels, fun dark x y column row => ?_⟩
  rw [pixels x y column row]
  by_cases lit : Lit fontData str x y
  · simp [lit]
  · simp [lit, dark]

/-- The top of an `A` on black. -/
theorem status_bar_shows_letter :
    (drawStatusPlanes
      (textToGraphics
        (fun code k => if code = 65 then
          [0x00, 0x00, 0x10, 0x38, 0x6C, 0xC6, 0xC6, 0xFE,
            0xC6, 0xC6, 0xC6, 0xC6, 0x00, 0x00, 0x00, 0x00].getD k 0 else 0)
        (fun _ => 0) 0 [65, 0]) ⟨fun _ _ => 0, 0, 0, 0⟩).pixel 159 3 = white := by
  have ascii : ∀ char ∈ ([65, 0] : List UInt8).take (strlen [65, 0]), char < 128 := by
    simp [strlen]
  refine ((status_bar_shows_text _ _ _ _ _ (by decide) ascii).2 (by decide) 159 3
    (by decide) (by decide)).mpr ?_
  decide

/-- On a white background every pixel is white, also without a text. -/
theorem status_bar_white_background :
    ¬ ((drawStatusPlanes (textToGraphics (fun _ _ => 0) (fun _ => 0) 15 [0])
        ⟨fun _ _ => 0, 0, 0, 0⟩).pixel 0 0 = white ↔ Lit (fun _ _ => 0) [0] 0 0) := by
  have ascii : ∀ char ∈ ([0] : List UInt8).take (strlen [0]), char < 128 := by simp [strlen]
  rw [status_pixel _ _ _ (by decide) ascii (by decide) (by decide)]
  decide

end Ece391.ModeX
