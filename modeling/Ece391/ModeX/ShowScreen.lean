import Ece391.ModeX.ViewWindow

/-!
# Showing the window

`show_screen` copies the four planes of the build buffer into one of two images in video
memory and then points the display at it.  Plane `i` of the display takes the plane of the
build buffer in which the pixels of the window's columns `i`, `i + 4`, ... are drawn.  Each
copy is longer than an image, but the two images and the status bar are far enough apart.
-/

namespace Ece391.ModeX

open Ece391.Library

/-- The four planes of the video memory, and the registers that `show_screen` writes: the
map mask of the sequencer and the two halves of the display's start address. -/
structure Vga where
  planes : Fin 4 → Nat → UInt8
  mapMask : UInt16
  startHigh : UInt16
  startLow : UInt16

/-- A write of two bytes to an index port and the data port after it. -/
def outw (port value : UInt16) (vga : Vga) : Vga :=
  let index := value &&& 0x00FF
  let data := value >>> 8
  if port = 0x03C4 ∧ index = 0x02 then { vga with mapMask := data }
  else if port = 0x03D4 ∧ index = 0x0C then { vga with startHigh := data }
  else if port = 0x03D4 ∧ index = 0x0D then { vga with startLow := data }
  else vga

/-- `SET_WRITE_MASK`: the low byte of the value becomes the index of the map mask. -/
def setWriteMask (maskHiBits : UInt16) (vga : Vga) : Vga :=
  outw 0x03C4 ((maskHiBits &&& 0xFF00) ||| 0x02) vga

/-- Whether stores reach a plane. -/
def Vga.Writes (vga : Vga) (plane : Fin 4) : Prop :=
  (vga.mapMask >>> plane.val.toUInt16) &&& 1 = 1

instance (vga : Vga) (plane : Fin 4) : Decidable (vga.Writes plane) :=
  inferInstanceAs (Decidable (_ = _))

/-- `copy_image`: 16000 bytes from the build buffer to the planes selected. -/
def copyImage (build : Int → UInt8) (img : Int) (scrAddr : UInt16) (vga : Vga) : Vga :=
  { vga with
    planes := fun plane offset =>
      if vga.Writes plane ∧ scrAddr.toNat ≤ offset ∧ offset < scrAddr.toNat + 16000 then
        build (img + (offset - scrAddr.toNat : Nat))
      else vga.planes plane offset }

/-- The video memory and `target_img`. -/
structure Screen where
  vga : Vga
  targetImg : UInt16

/-- The body of the loop of `show_screen`. -/
def showPlane (view : View) (targetImg : UInt16) (i : Fin 4) (vga : Vga) : Vga :=
  let pOff := 3 - view.showX % 4
  let addr := view.img3Off + view.showX / 4 + view.showY * scrollXWidth
  let source := addr + (pOff - i + 4) % 4 * scrollSize + if pOff < i then 1 else 0
  copyImage view.build source targetImg (setWriteMask (1 <<< (i.val.toUInt16 + 8)) vga)

/-- `show_screen`. -/
def showScreen (view : View) (screen : Screen) : Screen :=
  let targetImg := screen.targetImg ^^^ 0x4000
  let vga := (List.finRange 4).foldl (fun vga i => showPlane view targetImg i vga) screen.vga
  let vga := outw 0x03D4 ((targetImg &&& 0xFF00) ||| 0x0C) vga
  let vga := outw 0x03D4 (((targetImg &&& 0x00FF) <<< 8) ||| 0x0D) vga
  ⟨vga, targetImg⟩

/-- `show_screen` is called with some window. -/
def ShowStep (before : Screen) (view : View) (after : Screen) : Prop :=
  after = showScreen view before

/-- The screen after `set_mode_X`. -/
def Screen.setModeX (vga : Vga) : Screen :=
  ⟨vga, 1440⟩

section

variable {view : View} {screen : Screen} {target : UInt16} {offset : Nat}

/-! ## One plane -/

@[simp] theorem outw_planes (port value : UInt16) (vga : Vga) :
    (outw port value vga).planes = vga.planes := by
  simp only [outw]
  split
  · rfl
  · split
    · rfl
    · split <;> rfl

theorem setWriteMask_mapMask (i : Fin 4) (vga : Vga) :
    (setWriteMask (1 <<< (i.val.toUInt16 + 8)) vga).mapMask = 1 <<< i.val.toUInt16 := by
  match i with
  | 0 | 1 | 2 | 3 => rfl

theorem setWriteMask_writes (i plane : Fin 4) (vga : Vga) :
    (setWriteMask (1 <<< (i.val.toUInt16 + 8)) vga).Writes plane ↔ plane = i := by
  rw [Vga.Writes, setWriteMask_mapMask]
  revert i plane
  decide

/-- A round of the loop stores into its own plane only. -/
theorem showPlane_planes (view : View) (target : UInt16) (i plane : Fin 4) (offset : Nat)
    (vga : Vga) : (showPlane view target i vga).planes plane offset =
      if plane = i ∧ target.toNat ≤ offset ∧ offset < target.toNat + 16000 then
        view.build (view.img3Off + view.showX / 4 + view.showY * scrollXWidth +
          (3 - view.showX % 4 - i + 4) % 4 * scrollSize +
          (if 3 - view.showX % 4 < i then 1 else 0) + (offset - target.toNat : Nat))
      else vga.planes plane offset := by
  have kept : (setWriteMask (1 <<< (i.val.toUInt16 + 8)) vga).planes = vga.planes :=
    outw_planes ..
  simp only [showPlane, copyImage, setWriteMask_writes, kept]

/-- When each round copies into its own plane only, the planes of some rounds hold what was
copied afterwards, and the others are as before. -/
theorem ownPlanes {copy : Fin 4 → Vga → Vga} {byte : Fin 4 → Nat → UInt8} {low count : Nat}
    (own : ∀ i plane offset vga, (copy i vga).planes plane offset =
      if plane = i ∧ low ≤ offset ∧ offset < low + count then byte i offset
      else vga.planes plane offset)
    (rounds : List (Fin 4)) (plane : Fin 4) (offset : Nat) (vga : Vga) :
    (rounds.foldl (fun vga i => copy i vga) vga).planes plane offset =
      if rounds.contains plane ∧ low ≤ offset ∧ offset < low + count then byte plane offset
      else vga.planes plane offset := by
  induction rounds generalizing vga with
  | nil => simp
  | cons i rest ih =>
      rw [List.foldl_cons, ih, own]
      by_cases later : plane ∈ rest
      · by_cases here : low ≤ offset ∧ offset < low + count
        · simp [later, here]
        · simp [here]
      · by_cases same : plane = i
        · subst same
          simp [later]
        · simp [later, same]

theorem showPlanes_planes (view : View) (target : UInt16) (rounds : List (Fin 4))
    (plane : Fin 4) (offset : Nat) (vga : Vga) :
    (rounds.foldl (fun vga i => showPlane view target i vga) vga).planes plane offset =
      if rounds.contains plane ∧ target.toNat ≤ offset ∧ offset < target.toNat + 16000 then
        view.build (view.img3Off + view.showX / 4 + view.showY * scrollXWidth +
          (3 - view.showX % 4 - plane + 4) % 4 * scrollSize +
          (if 3 - view.showX % 4 < plane then 1 else 0) + (offset - target.toNat : Nat))
      else vga.planes plane offset :=
  ownPlanes (showPlane_planes view target) rounds plane offset vga

/-- `show_screen` replaces 16000 bytes of each plane. -/
theorem showScreen_planes (view : View) (screen : Screen) (plane : Fin 4) (offset : Nat) :
    (showScreen view screen).vga.planes plane offset =
      if (showScreen view screen).targetImg.toNat ≤ offset ∧
          offset < (showScreen view screen).targetImg.toNat + 16000 then
        view.build (view.img3Off + view.showX / 4 + view.showY * scrollXWidth +
          (3 - view.showX % 4 - plane + 4) % 4 * scrollSize +
          (if 3 - view.showX % 4 < plane then 1 else 0) +
          (offset - (showScreen view screen).targetImg.toNat : Nat))
      else screen.vga.planes plane offset := by
  have copied := showPlanes_planes view (screen.targetImg ^^^ 0x4000) (List.finRange 4) plane
    offset screen.vga
  simp only [List.contains_eq_mem, List.mem_finRange, decide_true, true_and] at copied
  simp only [showScreen, outw_planes]
  exact copied

/-- The plane and the byte of a column are those in which the drawing functions put it. -/
theorem shown_address (view : View) (x y : Nat) :
    view.img3Off + view.showX / 4 + view.showY * scrollXWidth +
        (3 - view.showX % 4 - (x % 4 : Nat) + 4) % 4 * scrollSize +
        (if 3 - view.showX % 4 < (x % 4 : Nat) then 1 else 0) + (y * 80 + x / 4 : Nat) =
      view.address (view.showX + x) (view.showY + y) := by
  simp only [View.address, scrollXWidth, scrollSize]
  split <;> omega

end

/-! ## Any number of calls -/

/-- One of the two images is displayed, and the display starts at it. -/
def Screen.Alternates (screen : Screen) : Prop :=
  screen.targetImg = 1440 ∨ screen.targetImg = 17824

section

variable {screen last : Screen} {views : List View} {vga : Vga}

/-- The start address of the display. -/
def Vga.start (vga : Vga) : UInt16 :=
  (vga.startHigh <<< 8) ||| vga.startLow

theorem outw_startHigh {value : UInt16} (index : value &&& 0x00FF = 0x0C) (vga : Vga) :
    outw 0x03D4 value vga = { vga with startHigh := value >>> 8 } := by
  simp [outw, index]

theorem outw_startLow {value : UInt16} (index : value &&& 0x00FF = 0x0D) (vga : Vga) :
    outw 0x03D4 value vga = { vga with startLow := value >>> 8 } := by
  simp [outw, index]

/-- The two writes at the end of `show_screen` set it. -/
theorem start_written (vga : Vga) {target : UInt16} (image : target = 1440 ∨ target = 17824) :
    (outw 0x03D4 (((target &&& 0x00FF) <<< 8) ||| 0x0D)
      (outw 0x03D4 ((target &&& 0xFF00) ||| 0x0C) vga)).start = target := by
  rcases image with rfl | rfl
  · rw [outw_startLow (by decide), outw_startHigh (by decide)]
    simp only [Vga.start]
    decide
  · rw [outw_startLow (by decide), outw_startHigh (by decide)]
    simp only [Vga.start]
    decide

theorem Screen.Alternates.show (alternates : screen.Alternates) (view : View) :
    (showScreen view screen).Alternates ∧
      (showScreen view screen).vga.start = (showScreen view screen).targetImg ∧
      ((screen.targetImg = 1440 ∧ (showScreen view screen).targetImg = 17824) ∨
        screen.targetImg = 17824 ∧ (showScreen view screen).targetImg = 1440) := by
  obtain ⟨vga, target⟩ := screen
  rcases alternates with first | second
  · obtain rfl : target = 1440 := first
    have other : (showScreen view ⟨vga, 1440⟩).targetImg = 17824 := by
      simp only [showScreen]
      decide
    exact ⟨.inr other, start_written _ (.inr other), .inl ⟨rfl, other⟩⟩
  · obtain rfl : target = 17824 := second
    have other : (showScreen view ⟨vga, 17824⟩).targetImg = 1440 := by
      simp only [showScreen]
      decide
    exact ⟨.inl other, start_written _ (.inl other), .inr ⟨rfl, other⟩⟩

/-- A call stores into the image that was not displayed, and nowhere else. -/
theorem Screen.Alternates.outside (alternates : screen.Alternates) (view : View)
    (plane : Fin 4) {offset : Nat}
    (outside : offset < 1440 ∨
      screen.targetImg.toNat ≤ offset ∧ offset < screen.targetImg.toNat + 16000) :
    (showScreen view screen).vga.planes plane offset = screen.vga.planes plane offset := by
  have first : (1440 : UInt16).toNat = 1440 := rfl
  have second : (17824 : UInt16).toNat = 17824 := rfl
  rw [showScreen_planes, if_neg]
  rcases (alternates.show view).2.2 with ⟨before, after⟩ | ⟨before, after⟩
  · rw [before] at outside
    rw [after]
    omega
  · rw [before] at outside
    rw [after]
    omega

/-- After any number of calls the status bar is as it was, and the next call displays the
window from the image that was not displayed, pixel by pixel as the drawing functions
placed it, and leaves the other image alone. -/
theorem screen_shows_window (run : Run ShowStep (.setModeX vga) views last) (view : View) :
    (∀ x y : Nat, x < 320 → y < 182 →
      (showScreen view last).vga.planes (Fin.ofNat 4 x)
          ((showScreen view last).vga.start.toNat + y * 80 + x / 4) =
        view.build (view.address (view.showX + x) (view.showY + y))) ∧
    (showScreen view last).vga.start = (showScreen view last).targetImg ∧
    (∀ plane offset, last.targetImg.toNat ≤ offset → offset < last.targetImg.toNat + 16000 →
      (showScreen view last).vga.planes plane offset = last.vga.planes plane offset) ∧
    ∀ plane offset, offset < 1440 →
      (showScreen view last).vga.planes plane offset = vga.planes plane offset := by
  have kept := run.invariant
    (fun screen => screen.Alternates ∧ ∀ plane offset, offset < 1440 →
      screen.vga.planes plane offset = vga.planes plane offset)
    (fun before view after holds step => by
      rw [step]
      exact ⟨(holds.1.show view).1, fun plane offset bar =>
        (holds.1.outside view plane (.inl bar)).trans (holds.2 plane offset bar)⟩)
    ⟨.inl rfl, fun _ _ _ => rfl⟩
  obtain ⟨alternates, bar⟩ := kept
  obtain ⟨-, start, -⟩ := alternates.show view
  refine ⟨?_, start, ?_, ?_⟩
  · intro x y column row
    have inside : (showScreen view last).targetImg.toNat ≤
          (showScreen view last).targetImg.toNat + y * 80 + x / 4 ∧
        (showScreen view last).targetImg.toNat + y * 80 + x / 4 <
          (showScreen view last).targetImg.toNat + 16000 := by
      omega
    have place : (showScreen view last).targetImg.toNat + y * 80 + x / 4 -
        (showScreen view last).targetImg.toNat = y * 80 + x / 4 := by
      omega
    rw [start, showScreen_planes, if_pos inside, place, ← shown_address]
    rfl
  · intro plane offset low high
    exact alternates.outside view plane (.inr ⟨low, high⟩)
  · intro plane offset above
    exact (alternates.outside view plane (.inl above)).trans (bar plane offset above)

/-- A window at column 3 with one pixel. -/
def shiftedView (color : UInt8) : View :=
  ⟨3, 0, 10000, fun address => if address = 53681 then color else 0⟩

/-- The window is shown, and then shown again in another colour: the pixel is displayed from plane
1 of the other image, and the first image and the status bar stay. -/
theorem screen_shows_window_shifted :
    ∃ last, Run ShowStep (.setModeX ⟨fun _ _ => 5, 0, 0, 0⟩) [shiftedView 9] last ∧
      last.vga.start = 17824 ∧ last.vga.planes 1 17824 = 9 ∧
      (showScreen (shiftedView 7) last).vga.start = 1440 ∧
      (showScreen (shiftedView 7) last).vga.planes 1 1440 = 7 ∧
      (showScreen (shiftedView 7) last).vga.planes 1 17824 = 9 ∧
      (showScreen (shiftedView 7) last).vga.planes 1 1439 = 5 := by
  let first : Screen := .setModeX ⟨fun _ _ => 5, 0, 0, 0⟩
  have run : Run ShowStep first [shiftedView 9] (showScreen (shiftedView 9) first) := .single rfl
  obtain ⟨pixel, start, -, -⟩ := screen_shows_window (.nil first) (shiftedView 9)
  obtain ⟨pixel', start', kept, bar⟩ := screen_shows_window run (shiftedView 7)
  have target : (showScreen (shiftedView 9) first).targetImg = 17824 := by decide
  have target' : (showScreen (shiftedView 7) (showScreen (shiftedView 9) first)).targetImg =
      1440 := by decide
  have shown := pixel 1 0 (by decide) (by decide)
  have shown' := pixel' 1 0 (by decide) (by decide)
  rw [start, target] at shown
  rw [start', target'] at shown'
  have whole := kept 1 17824 (by rw [target]; decide) (by rw [target]; decide)
  exact ⟨_, run, start.trans target, shown, start'.trans target', shown', whole.trans shown,
    bar 1 1439 (by decide)⟩

end

end Ece391.ModeX
