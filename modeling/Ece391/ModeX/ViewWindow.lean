import Ece391.Library.Copy
import Ece391.Library.Run

/-!
# The logical view window of the mode X build buffer

The build buffer holds the four planes of a 320 by 182 window one after the other,
plane 3 first.  `set_view_window` moves the window; when it would leave the buffer
the window is placed in the middle again and what stays visible is copied there.

Coordinates are unbounded integers, so the equations are those of the source as long
as its `int` arithmetic does not overflow.  `>> 2` and `& 3` are floor division and
remainder by 4, also for negative coordinates.
-/

namespace Ece391.ModeX

open Ece391.Library

/-- `SCROLL_X_WIDTH`, the bytes of one row in one plane. -/
def scrollXWidth : Int := 80

/-- `SCROLL_SIZE`, the bytes of one plane. -/
def scrollSize : Int := 14560

/-- `BUILD_BUF_SIZE`. -/
def buildBufSize : Int := 78241

/-- `BUILD_BASE_INIT`. -/
def buildBaseInit : Int := 10000

/-- The window position and the build buffer.  The buffer is indexed from its first
byte after the lower memory fence, so `img3` is the index `img3Off`. -/
structure View where
  showX : Int
  showY : Int
  img3Off : Int
  build : Int → UInt8

/-- The window left by `set_mode_X`. -/
def setModeX (build : Int → UInt8) : View where
  showX := 0
  showY := 0
  img3Off := buildBaseInit
  build := build

/-- The test of `set_view_window` that the new window lies inside the buffer. -/
def Fits (img3Off scrX scrY : Int) : Prop :=
  img3Off + scrX / 4 + scrY * scrollXWidth ≥ 0 ∧
  img3Off + 3 * scrollSize + (scrX + 320 - 1) / 4 + (scrY + 182 - 1) * scrollXWidth < buildBufSize

instance (img3Off scrX scrY : Int) : Decidable (Fits img3Off scrX scrY) :=
  inferInstanceAs (Decidable (_ ∧ _))

/-- The first byte copied, relative to `img3`. -/
def startOff (view : View) (scrX scrY : Int) : Int :=
  (if scrX > view.showX then scrX else view.showX) / 4 +
    (if scrY > view.showY then scrY else view.showY) * scrollXWidth

/-- The number of bytes copied: everything from the first common pixel in plane 3 to
the last one in plane 0. -/
def copyLength (view : View) (scrX scrY : Int) : Int :=
  ((if scrX > view.showX then view.showX else scrX) + 320 - 1) / 4 +
    ((if scrY > view.showY then view.showY else scrY) + 182 - 1) * scrollXWidth + 1 -
    startOff view scrX scrY + 3 * scrollSize

/-- `set_view_window`. -/
def setViewWindow (view : View) (scrX scrY : Int) : View :=
  if Fits view.img3Off scrX scrY then { view with showX := scrX, showY := scrY }
  else
    let img3Off := buildBaseInit - scrX / 4 - scrY * scrollXWidth
    if scrX ≤ view.showX - 320 ∨ scrX ≥ view.showX + 320 ∨
        scrY ≤ view.showY - 182 ∨ scrY ≥ view.showY + 182 then
      { view with showX := scrX, showY := scrY, img3Off := img3Off }
    else
      { showX := scrX
        showY := scrY
        img3Off := img3Off
        build := move view.build (view.img3Off + startOff view scrX scrY)
          (img3Off + startOff view scrX scrY) (copyLength view scrX scrY).toNat }

/-- The pixels of the window. -/
def View.InWindow (view : View) (x y : Int) : Prop :=
  view.showX ≤ x ∧ x < view.showX + 320 ∧ view.showY ≤ y ∧ y < view.showY + 182

/-- The byte of a pixel, as the drawing functions compute it. -/
def View.address (view : View) (x y : Int) : Int :=
  view.img3Off + x / 4 + y * scrollXWidth + (3 - x % 4) * scrollSize

/-- A call, or a write to a pixel of the window. -/
inductive ViewCall where
  | setView (scrX scrY : Int)
  | draw (x y : Int) (value : UInt8)

/-- The effect of a call. -/
inductive ViewStep (view : View) : ViewCall → View → Prop where
  | setView (scrX scrY : Int) :
      ViewStep view (.setView scrX scrY) (setViewWindow view scrX scrY)
  | draw {x y : Int} (value : UInt8) :
      view.InWindow x y →
      ViewStep view (.draw x y value)
        { view with build := Function.update view.build (view.address x y) value }

/-! ## The invariant -/

/-- The window lies inside the buffer. -/
def View.Inside (view : View) : Prop :=
  Fits view.img3Off view.showX view.showY

section

variable {view view' : View} {scrX scrY x y : Int}

theorem setModeX_inside (build : Int → UInt8) : (setModeX build).Inside := by
  simp only [View.Inside, setModeX, Fits, buildBaseInit, scrollXWidth, scrollSize, buildBufSize]
  omega

/-- A window placed in the middle of the buffer fits, wherever it is. -/
theorem fits_middle (scrX scrY : Int) :
    Fits (buildBaseInit - scrX / 4 - scrY * scrollXWidth) scrX scrY := by
  simp only [Fits, buildBaseInit, scrollXWidth, scrollSize, buildBufSize]
  omega

@[simp] theorem setViewWindow_showX (view : View) (scrX scrY : Int) :
    (setViewWindow view scrX scrY).showX = scrX := by
  simp only [setViewWindow]
  split
  · rfl
  · split <;> rfl

@[simp] theorem setViewWindow_showY (view : View) (scrX scrY : Int) :
    (setViewWindow view scrX scrY).showY = scrY := by
  simp only [setViewWindow]
  split
  · rfl
  · split <;> rfl

theorem setViewWindow_inside (view : View) (scrX scrY : Int) :
    (setViewWindow view scrX scrY).Inside := by
  rw [View.Inside, setViewWindow_showX, setViewWindow_showY]
  simp only [setViewWindow]
  split
  next fits => exact fits
  · split <;> exact fits_middle scrX scrY

/-- Every pixel of a window inside the buffer has its byte there. -/
theorem View.Inside.address (inside : view.Inside) (pixel : view.InWindow x y) :
    0 ≤ view.address x y ∧ view.address x y < buildBufSize := by
  simp only [View.Inside, Fits, View.InWindow, View.address, scrollXWidth, scrollSize,
    buildBufSize] at *
  omega

/-- The planes do not run into each other: a lower plane comes later, and its
columns are shifted forward if they are shifted at all. -/
theorem address_lt_of_plane {x' y' : Int} (pixel : view.InWindow x y)
    (pixel' : view.InWindow x' y') (lower : x % 4 < x' % 4) :
    view.address x' y' < view.address x y := by
  simp only [View.InWindow] at pixel pixel'
  have columns : -79 ≤ x / 4 - x' / 4 := by omega
  have rows : -181 ≤ y - y' := by omega
  simp only [View.address, scrollXWidth, scrollSize]
  omega

/-- Distinct pixels of a window have distinct bytes. -/
theorem address_injective {x' y' : Int} (pixel : view.InWindow x y)
    (pixel' : view.InWindow x' y') (same : view.address x y = view.address x' y') :
    x = x' ∧ y = y' := by
  have plane : x % 4 = x' % 4 := by
    rcases Int.lt_trichotomy (x % 4) (x' % 4) with lower | equal | higher
    · exact absurd (address_lt_of_plane pixel pixel' lower) (by omega)
    · exact equal
    · exact absurd (address_lt_of_plane pixel' pixel higher) (by omega)
  simp only [View.InWindow] at pixel pixel'
  have columns : -80 < x / 4 - x' / 4 ∧ x / 4 - x' / 4 < 80 := by omega
  simp only [View.address, plane, scrollXWidth] at same
  have rows : y = y' := by omega
  omega

theorem ViewStep.inside {call : ViewCall} (step : ViewStep view call view')
    (inside : view.Inside) : view'.Inside := by
  cases step with
  | setView scrX scrY => exact setViewWindow_inside view scrX scrY
  | draw value pixel => exact inside

theorem View.Inside.run {calls : List ViewCall} (inside : view.Inside)
    (run : Run ViewStep view calls view') : view'.Inside :=
  run.invariant View.Inside (fun _ _ _ inside step => step.inside inside) inside

/-! ## The copy -/

/-- Relative to `img3`, a pixel visible before and after lies in the copied block. -/
theorem common_pixel (before : view.InWindow x y)
    (after : scrX ≤ x ∧ x < scrX + 320 ∧ scrY ≤ y ∧ y < scrY + 182) :
    startOff view scrX scrY ≤ x / 4 + y * scrollXWidth + (3 - x % 4) * scrollSize ∧
      x / 4 + y * scrollXWidth + (3 - x % 4) * scrollSize <
        startOff view scrX scrY + copyLength view scrX scrY := by
  simp only [copyLength, startOff, View.InWindow, scrollXWidth, scrollSize] at *
  split <;> split <;> omega

/-- The copied block lies inside the buffer before and after the move. -/
theorem copy_in_bounds (inside : view.Inside)
    (overlap : ¬(scrX ≤ view.showX - 320 ∨ scrX ≥ view.showX + 320 ∨
      scrY ≤ view.showY - 182 ∨ scrY ≥ view.showY + 182)) :
    (0 ≤ view.img3Off + startOff view scrX scrY ∧
      view.img3Off + startOff view scrX scrY + copyLength view scrX scrY ≤ buildBufSize) ∧
    0 ≤ buildBaseInit - scrX / 4 - scrY * scrollXWidth + startOff view scrX scrY ∧
      buildBaseInit - scrX / 4 - scrY * scrollXWidth + startOff view scrX scrY +
        copyLength view scrX scrY ≤ buildBufSize := by
  simp only [copyLength, startOff, View.Inside, Fits, buildBaseInit, scrollXWidth, scrollSize,
    buildBufSize] at *
  split <;> split <;> omega

/-- A pixel visible before and after a call keeps its byte. -/
theorem setViewWindow_keeps (before : view.InWindow x y)
    (after : (setViewWindow view scrX scrY).InWindow x y) :
    (setViewWindow view scrX scrY).build ((setViewWindow view scrX scrY).address x y) =
      view.build (view.address x y) := by
  rw [View.InWindow, setViewWindow_showX, setViewWindow_showY] at after
  obtain ⟨low, high⟩ := common_pixel before after
  simp only [setViewWindow]
  split
  · rfl
  · split
    next disjoint =>
      rw [View.InWindow] at before
      omega
    next overlap =>
      obtain ⟨k, offset⟩ := Int.eq_ofNat_of_zero_le (Int.sub_nonneg_of_le low)
      have copied : move view.build (view.img3Off + startOff view scrX scrY)
          (buildBaseInit - scrX / 4 - scrY * scrollXWidth + startOff view scrX scrY)
          (copyLength view scrX scrY).toNat
          (buildBaseInit - scrX / 4 - scrY * scrollXWidth + startOff view scrX scrY + k) =
            view.build (view.img3Off + startOff view scrX scrY + k) :=
        move_inside (by omega)
      have source : view.address x y = view.img3Off + startOff view scrX scrY + k := by
        rw [View.address]
        omega
      have target : buildBaseInit - scrX / 4 - scrY * scrollXWidth + x / 4 + y * scrollXWidth +
          (3 - x % 4) * scrollSize =
            buildBaseInit - scrX / 4 - scrY * scrollXWidth + startOff view scrX scrY + k := by
        omega
      rw [source, ← copied, View.address]
      exact congrArg _ target

end

/-- No call writes outside the buffer. -/
theorem ViewStep.build_outside {view view' : View} {call : ViewCall} {address : Int}
    (step : ViewStep view call view') (inside : view.Inside)
    (outside : address < 0 ∨ buildBufSize ≤ address) :
    view'.build address = view.build address := by
  cases step with
  | setView scrX scrY =>
      simp only [setViewWindow]
      split
      · rfl
      · split
        · rfl
        next overlap =>
          obtain ⟨-, low, high⟩ := copy_in_bounds inside overlap
          by_cases empty : copyLength view scrX scrY ≤ 0
          · rw [Int.toNat_of_nonpos empty]
            exact move_outside (by omega)
          · exact move_outside (by omega)
  | draw value pixel =>
      obtain ⟨low, high⟩ := inside.address pixel
      exact Function.update_of_ne (by omega) ..

/-- The memory fences on both sides of the buffer are never broken. -/
theorem fence_kept {build : Int → UInt8} {calls : List ViewCall} {view : View}
    (run : Run ViewStep (setModeX build) calls view) {address : Int}
    (outside : address < 0 ∨ buildBufSize ≤ address) : view.build address = build address := by
  have kept := run.invariant
    (fun view => view.Inside ∧ view.build address = build address)
    (fun before label after holds step => ⟨step.inside holds.1,
      (step.build_outside holds.1 outside).trans holds.2⟩)
    ⟨setModeX_inside build, rfl⟩
  exact kept.2

/-- In any run from the state `set_mode_X` leaves, every pixel of the window has its
own byte inside the buffer.  A call puts the window where it was asked to, again with a byte
inside the buffer for each pixel, and keeps the byte of every pixel that was and stays
visible. -/
theorem window_pixels_kept {build : Int → UInt8} {calls : List ViewCall} {view : View}
    (run : Run ViewStep (setModeX build) calls view) :
    (∀ x y, view.InWindow x y → 0 ≤ view.address x y ∧ view.address x y < buildBufSize) ∧
    (∀ x y x' y', view.InWindow x y → view.InWindow x' y' →
      view.address x y = view.address x' y' → x = x' ∧ y = y') ∧
    ∀ scrX scrY, (setViewWindow view scrX scrY).showX = scrX ∧
      (setViewWindow view scrX scrY).showY = scrY ∧
      (∀ x y, (setViewWindow view scrX scrY).InWindow x y →
        0 ≤ (setViewWindow view scrX scrY).address x y ∧
          (setViewWindow view scrX scrY).address x y < buildBufSize) ∧
      ∀ x y, view.InWindow x y → (setViewWindow view scrX scrY).InWindow x y →
        (setViewWindow view scrX scrY).build ((setViewWindow view scrX scrY).address x y) =
          view.build (view.address x y) := by
  have inside := (setModeX_inside build).run run
  refine ⟨fun x y pixel => inside.address pixel,
    fun x y x' y' pixel pixel' same => address_injective pixel pixel' same, fun scrX scrY => ?_⟩
  refine ⟨setViewWindow_showX .., setViewWindow_showY .., fun x y pixel => ?_,
    fun x y before after => setViewWindow_keeps before after⟩
  exact (setViewWindow_inside view scrX scrY).address pixel

/-- A pixel drawn after the window has moved 10 rows down keeps its byte when the
window moves past the end of the buffer. -/
theorem window_pixels_kept_scroll :
    ∃ view, Run ViewStep (setModeX fun _ => 0) [.setView 0 10, .draw 3 180 7] view ∧
      view.build (view.address 3 180) = 7 ∧
      (setViewWindow view 1 170).showX = 1 ∧ (setViewWindow view 1 170).showY = 170 ∧
      (setViewWindow view 1 170).img3Off ≠ view.img3Off ∧
      (setViewWindow view 1 170).build ((setViewWindow view 1 170).address 3 180) = 7 := by
  have drawn : (setViewWindow (setModeX fun _ => 0) 0 10).InWindow 3 180 := by
    simp [View.InWindow]
  have run : Run ViewStep (setModeX fun _ => 0) [.setView 0 10, .draw 3 180 7] _ :=
    .cons (.setView 0 10) (.single (.draw 7 drawn))
  obtain ⟨-, -, moves⟩ := window_pixels_kept run
  obtain ⟨showX, showY, -, kept⟩ := moves 1 170
  have shown := Function.update_self ((setViewWindow (setModeX fun _ => 0) 0 10).address 3 180)
    (7 : UInt8) (setViewWindow (setModeX fun _ => 0) 0 10).build
  refine ⟨_, run, shown, showX, showY, ?_, (kept 3 180 drawn ?_).trans shown⟩
  · decide
  · simp [View.InWindow]

end Ece391.ModeX
