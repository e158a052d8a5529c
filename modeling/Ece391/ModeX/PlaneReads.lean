import Ece391.ModeX.ShowScreen

/-!
# What the plane copies read

`copy_image` copies 16000 bytes, although a plane of the window has only 14560.  The bytes
behind the last plane belong to the build buffer or to the fence behind it as long as the
window starts early enough.  A window that is placed in the middle of the buffer does, but
`set_view_window` leaves a window where it is as long as its own pixels fit.
-/

namespace Ece391.ModeX

open Ece391.Library

/-- `MEM_FENCE_WIDTH`. -/
def memFenceWidth : Int := 256

/-- The indices of the array `build`, counted from the first byte after the lower fence. -/
def InBuild (address : Int) : Prop :=
  -memFenceWidth ≤ address ∧ address < buildBufSize + memFenceWidth

/-- The source address of `show_screen`. -/
def View.addr (view : View) : Int :=
  view.img3Off + view.showX / 4 + view.showY * scrollXWidth

/-- The address that `show_screen` passes to `copy_image` for plane `i`. -/
def View.source (view : View) (i : Fin 4) : Int :=
  view.addr + (3 - view.showX % 4 - i + 4) % 4 * scrollSize +
    if 3 - view.showX % 4 < i then 1 else 0

/-- The bytes that the four copies read. -/
def View.Reads (view : View) (address : Int) : Prop :=
  ∃ (i : Fin 4) (index : Nat), index < 16000 ∧ address = view.source i + index

/-- They all lie in the array. -/
def View.ReadsInside (view : View) : Prop :=
  ∀ address, view.Reads address → InBuild address

section

variable {view view' : View} {screen : Screen} {address : Int}

theorem showScreen_source (view : View) (screen : Screen) (plane : Fin 4) (offset : Nat) :
    (showScreen view screen).vga.planes plane offset =
      if (screen.targetImg ^^^ 0x4000).toNat ≤ offset ∧
          offset < (screen.targetImg ^^^ 0x4000).toNat + 16000 then
        view.build (view.source plane + (offset - (screen.targetImg ^^^ 0x4000).toNat : Nat))
      else screen.vga.planes plane offset :=
  showScreen_planes view screen plane offset

/-- The bytes read are those on which the picture depends. -/
theorem reads_iff_shown (view : View) (screen : Screen) (address : Int) :
    view.Reads address ↔
      ∃ byte, (showScreen { view with build := Function.update view.build address byte }
          screen).vga.planes ≠ (showScreen view screen).vga.planes := by
  constructor
  · rintro ⟨i, index, bound, rfl⟩
    refine ⟨view.build (view.source i + index) + 1, fun same => ?_⟩
    have shown := congrFun (congrFun same i) ((screen.targetImg ^^^ 0x4000).toNat + index)
    have place : (screen.targetImg ^^^ 0x4000).toNat ≤
          (screen.targetImg ^^^ 0x4000).toNat + index ∧
        (screen.targetImg ^^^ 0x4000).toNat + index <
          (screen.targetImg ^^^ 0x4000).toNat + 16000 := by
      omega
    rw [showScreen_source, showScreen_source, if_pos place, if_pos place,
      Nat.add_sub_cancel_left] at shown
    have changed : view.build (view.source i + index) + 1 = view.build (view.source i + index) :=
      (Function.update_self ..).symm.trans shown
    simp at changed
  · rintro ⟨byte, different⟩
    by_contra unread
    refine different (funext fun plane => funext fun offset => ?_)
    rw [showScreen_source, showScreen_source]
    split
    next place =>
      refine Function.update_of_ne (fun same => unread ⟨plane, _, ?_, same.symm⟩) ..
      omega
    · rfl

/-! ## The first and the last byte -/

/-- The shift of the last plane. -/
def oneByteShift (showX : Int) : Int :=
  if showX % 4 = 0 then 0 else 1

theorem View.source_bounds (view : View) (i : Fin 4) :
    view.addr ≤ view.source i ∧
      view.source i ≤ view.addr + 3 * scrollSize + oneByteShift view.showX := by
  simp only [View.source, oneByteShift, scrollSize]
  split <;> split <;> omega

/-- The plane of the window's first column is copied from the source address itself. -/
theorem View.source_first (view : View) : ∃ i, view.source i = view.addr := by
  refine ⟨⟨(3 - view.showX % 4).toNat, by omega⟩, ?_⟩
  simp only [View.source, scrollSize]
  split <;> omega

/-- The last plane is copied with its shift. -/
theorem View.source_last (view : View) :
    ∃ i, view.source i = view.addr + 3 * scrollSize + oneByteShift view.showX := by
  refine ⟨⟨(4 - view.showX % 4).toNat % 4, by omega⟩, ?_⟩
  simp only [View.source, oneByteShift, scrollSize]
  split <;> split <;> omega

theorem View.readsInside_iff (view : View) :
    view.ReadsInside ↔
      -memFenceWidth ≤ view.addr ∧
        view.addr + 3 * scrollSize + oneByteShift view.showX + 16000 ≤
          buildBufSize + memFenceWidth := by
  constructor
  · intro inside
    obtain ⟨first, firstSource⟩ := view.source_first
    obtain ⟨last, lastSource⟩ := view.source_last
    have low := inside _ ⟨first, 0, by omega, rfl⟩
    have high := inside _ ⟨last, 15999, by omega, rfl⟩
    simp only [InBuild] at low high
    omega
  · rintro ⟨low, high⟩ address ⟨i, index, bound, rfl⟩
    obtain ⟨above, below⟩ := view.source_bounds i
    simp only [InBuild]
    omega

/-! ## Runs -/

/-- A window that is left where it is starts early enough for the copies. -/
def ViewCall.Clear (view : View) : ViewCall → Prop
  | .setView scrX scrY =>
      Fits view.img3Off scrX scrY →
        view.img3Off + scrX / 4 + scrY * scrollXWidth + 3 * scrollSize + oneByteShift scrX +
          16000 ≤ buildBufSize + memFenceWidth
  | .draw .. => True

theorem setModeX_readsInside (build : Int → UInt8) : (setModeX build).ReadsInside := by
  rw [View.readsInside_iff]
  simp [View.addr, setModeX, oneByteShift, memFenceWidth, buildBaseInit, scrollSize, buildBufSize]

/-- A window placed in the middle of the buffer starts early enough. -/
theorem setViewWindow_middle {scrX scrY : Int} (moved : ¬ Fits view.img3Off scrX scrY) :
    (setViewWindow view scrX scrY).ReadsInside := by
  have middle : (setViewWindow view scrX scrY).img3Off =
      buildBaseInit - scrX / 4 - scrY * scrollXWidth := by
    rw [setViewWindow, if_neg moved]
    split <;> rfl
  rw [View.readsInside_iff, View.addr, middle, setViewWindow_showX, setViewWindow_showY]
  simp only [oneByteShift, memFenceWidth, buildBaseInit, scrollSize, buildBufSize]
  split <;> omega

theorem ViewStep.readsInside_iff {call : ViewCall} (step : ViewStep view call view')
    (inside : view.ReadsInside) : view'.ReadsInside ↔ call.Clear view := by
  cases step with
  | setView scrX scrY =>
      by_cases fits : Fits view.img3Off scrX scrY
      · have start : 0 ≤ view.img3Off + scrX / 4 + scrY * scrollXWidth := fits.1
        rw [View.readsInside_iff, setViewWindow, if_pos fits]
        simp only [View.addr, ViewCall.Clear, fits, true_implies, memFenceWidth] at start ⊢
        omega
      · exact ⟨fun _ inside => absurd inside fits, fun _ => setViewWindow_middle fits⟩
  | draw value pixel =>
      rw [View.readsInside_iff] at inside
      exact iff_of_true ((View.readsInside_iff _).mpr inside) trivial

end

/-- From the state that `set_mode_X` leaves, the copies read inside the array in every state
reached exactly when every window that is left where it is starts early enough. -/
theorem planes_read_inside {build : Int → UInt8} {calls : List ViewCall} {view : View} :
    Run (fun before call after => ViewStep before call after ∧ after.ReadsInside)
        (setModeX build) calls view ↔
      Run (fun before call after => ViewStep before call after ∧ call.Clear before)
        (setModeX build) calls view :=
  Run.good_iff_allowed View.ReadsInside (fun _ _ after => after.ReadsInside)
    (fun before (call : ViewCall) => call.Clear before)
    (fun _ _ _ inside step => step.readsInside_iff inside) (fun _ _ _ _ _ inside => inside)
    (setModeX_readsInside build)

/-- After the window has moved 111 rows down, the last copy ends behind the upper fence. -/
theorem planes_read_behind_fence :
    ∃ view, Run ViewStep (setModeX fun _ => 0) [.setView 0 111] view ∧ ¬ view.ReadsInside := by
  refine ⟨_, .single (.setView 0 111), fun inside => ?_⟩
  rw [View.readsInside_iff, View.addr] at inside
  simp [setViewWindow, setModeX, Fits, oneByteShift, memFenceWidth, buildBaseInit, scrollXWidth,
    scrollSize, buildBufSize] at inside

end Ece391.ModeX
