import Ece391.ModeX.Maze
import Ece391.ModeX.ViewWindow

/-!
# Drawing lines into the build buffer

`draw_horiz_line` and `draw_vert_line` store the pixels of a line in the four planes.  One
walks through the planes and goes to the next byte after the last; the other stays in a
plane and goes down by rows.  Both leave the pixels of their line as in the picture and
every other pixel of the window as it was.
-/

namespace Ece391.ModeX

open Ece391.Library

/-- The local variables `addr` and `p_off` of the drawing loops. -/
structure PlaneCursor where
  addr : Int
  pOff : Int
  deriving DecidableEq, Repr

/-- `addr[p_off * SCROLL_SIZE]`. -/
def PlaneCursor.address (cursor : PlaneCursor) : Int :=
  cursor.addr + cursor.pOff * scrollSize

/-- One step to the right: the next plane, or the next byte of plane 3. -/
def PlaneCursor.right (cursor : PlaneCursor) : PlaneCursor :=
  if cursor.pOff - 1 < 0 then ⟨cursor.addr + 1, 3⟩ else ⟨cursor.addr, cursor.pOff - 1⟩

/-- One step down. -/
def PlaneCursor.down (cursor : PlaneCursor) : PlaneCursor :=
  ⟨cursor.addr + scrollXWidth, cursor.pOff⟩

/-- `draw_horiz_line`. -/
def drawHorizLine (scene : Scene) (y : Int) (view : View) : Int × View :=
  if y < 0 ∨ y ≥ 182 then (-1, view)
  else
    let y := y + view.showY
    let buf := fillHorizBuffer scene view.showX y scene.stack
    let cursor : PlaneCursor :=
      ⟨view.img3Off + view.showX / 4 + y * scrollXWidth, 3 - view.showX % 4⟩
    (0, { view with
      build := storeWalk PlaneCursor.right PlaneCursor.address buf 320 0 cursor view.build })

/-- `draw_vert_line`. -/
def drawVertLine (scene : Scene) (x : Int) (view : View) : Int × View :=
  if x < 0 ∨ x ≥ 320 then (-1, view)
  else
    let x := x + view.showX
    let buf := fillVertBuffer scene x view.showY scene.stack
    let cursor : PlaneCursor :=
      ⟨view.img3Off + x / 4 + view.showY * scrollXWidth, 3 - x % 4⟩
    (0, { view with
      build := storeWalk PlaneCursor.down PlaneCursor.address buf 182 0 cursor view.build })

/-- The window shows the picture at a pixel. -/
def View.Shows (scene : Scene) (view : View) (x y : Int) : Prop :=
  view.build (view.address x y) = scene.pixel x y

/-- A line has been drawn: the pixels on it are those of the picture, and the rest of the
window is as before. -/
structure Drawn (scene : Scene) (onLine : Int → Int → Prop) (before after : View) : Prop where
  showX : after.showX = before.showX
  showY : after.showY = before.showY
  line : ∀ x y, before.InWindow x y → onLine x y → after.Shows scene x y
  rest : ∀ x y, before.InWindow x y → ¬ onLine x y →
    after.build (after.address x y) = before.build (before.address x y)

section

variable {view : View} {x y : Int}

/-! ## Where the cursor goes -/

/-- Step by step to the right the cursor meets the pixels of a row. -/
theorem right_iterate (addr x : Int) (i : Nat) :
    PlaneCursor.right^[i] ⟨addr, 3 - x % 4⟩ = ⟨addr + (x % 4 + i) / 4, 3 - (x + i) % 4⟩ := by
  induction i with
  | zero =>
      simp only [Function.iterate_zero, id_eq, PlaneCursor.mk.injEq]
      omega
  | succ i ih =>
      rw [Function.iterate_succ_apply', ih]
      simp only [PlaneCursor.right]
      split
      · simp only [PlaneCursor.mk.injEq]
        omega
      · simp only [PlaneCursor.mk.injEq]
        omega

theorem right_address (view : View) (x y : Int) (i : Nat) :
    (PlaneCursor.right^[i] ⟨view.img3Off + x / 4 + y * scrollXWidth, 3 - x % 4⟩).address =
      view.address (x + i) y := by
  rw [right_iterate]
  simp only [PlaneCursor.address, View.address]
  have column : x / 4 + (x % 4 + i) / 4 = (x + i) / 4 := by omega
  rw [← column]
  ring

/-- Step by step down it meets the pixels of a column. -/
theorem down_iterate (addr pOff : Int) (i : Nat) :
    PlaneCursor.down^[i] ⟨addr, pOff⟩ = ⟨addr + i * scrollXWidth, pOff⟩ := by
  induction i with
  | zero => simp
  | succ i ih =>
      rw [Function.iterate_succ_apply', ih]
      simp only [PlaneCursor.down, PlaneCursor.mk.injEq, and_true]
      push_cast
      ring

theorem down_address (view : View) (x y : Int) (i : Nat) :
    (PlaneCursor.down^[i] ⟨view.img3Off + x / 4 + y * scrollXWidth, 3 - x % 4⟩).address =
      view.address x (y + i) := by
  rw [down_iterate]
  simp only [PlaneCursor.address, View.address]
  ring

/-! ## What the loops leave -/

/-- Pixels stored at distinct places of the window. -/
theorem storeWalk_drawn {scene : Scene} {next : PlaneCursor → PlaneCursor}
    {cursor : PlaneCursor} {values : Nat → UInt8} {count : Nat} {onLine : Int → Int → Prop}
    (column row : Nat → Int)
    (place : ∀ i, (next^[i] cursor).address = view.address (column i) (row i))
    (inside : ∀ i < count, view.InWindow (column i) (row i))
    (distinct : ∀ i j, column i = column j → row i = row j → i = j)
    (values_eq : ∀ i < count, values i = scene.pixel (column i) (row i))
    (line : ∀ x y, view.InWindow x y →
      (onLine x y ↔ ∃ i < count, x = column i ∧ y = row i)) :
    Drawn scene onLine view
      { view with
        build := storeWalk next PlaneCursor.address values count 0 cursor view.build } where
  showX := rfl
  showY := rfl
  line x y pixel on := by
    obtain ⟨i, bound, rfl, rfl⟩ := (line x y pixel).mp on
    have stored : storeWalk next PlaneCursor.address values count 0 cursor view.build
        (next^[i] cursor).address = values (0 + i) := by
      apply storeWalk_inside _ bound
      intro j low k low' same
      rw [place, place] at same
      obtain ⟨columns, rows⟩ := address_injective (inside j low) (inside k low') same
      exact distinct j k columns rows
    rw [place, Nat.zero_add, values_eq i bound] at stored
    exact stored
  rest x y pixel off := by
    apply storeWalk_outside
    intro i bound same
    rw [place] at same
    obtain ⟨columns, rows⟩ := address_injective (inside i bound) pixel same
    exact off ((line x y pixel).mpr ⟨i, bound, columns.symm, rows.symm⟩)

/-- A row of the window is drawn. -/
theorem drawHorizLine_drawn (scene : Scene) (view : View) (right : 0 ≤ view.showX)
    (below : 0 ≤ view.showY) (low : 0 ≤ y) (high : y < 182) :
    Drawn scene (fun _ row => row = y + view.showY) view (drawHorizLine scene y view).2 := by
  have valid : ¬ (y < 0 ∨ y ≥ 182) := by omega
  rw [drawHorizLine, if_neg valid]
  apply storeWalk_drawn (fun i => view.showX + i) (fun _ => y + view.showY)
  · intro i
    exact right_address ..
  · intro i bound
    simp only [View.InWindow]
    omega
  · intro i j same _
    omega
  · intro i bound
    exact fillHorizBuffer_pixel scene scene.stack right (by omega) bound
  · intro column row pixel
    simp only [View.InWindow] at pixel
    constructor
    · intro on
      exact ⟨(column - view.showX).toNat, by omega, by omega, on⟩
    · intro on
      obtain ⟨i, -, -, on⟩ := on
      exact on

/-- A column of the window is drawn. -/
theorem drawVertLine_drawn (scene : Scene) (view : View) (right : 0 ≤ view.showX)
    (below : 0 ≤ view.showY) (low : 0 ≤ x) (high : x < 320) :
    Drawn scene (fun column _ => column = x + view.showX) view
      (drawVertLine scene x view).2 := by
  have valid : ¬ (x < 0 ∨ x ≥ 320) := by omega
  rw [drawVertLine, if_neg valid]
  apply storeWalk_drawn (fun _ => x + view.showX) (fun i => view.showY + i)
  · intro i
    exact down_address ..
  · intro i bound
    simp only [View.InWindow]
    omega
  · intro i j _ same
    omega
  · intro i bound
    exact fillVertBuffer_pixel scene scene.stack (by omega) below bound
  · intro column row pixel
    simp only [View.InWindow] at pixel
    constructor
    · intro on
      exact ⟨(row - view.showY).toNat, by omega, on, by omega⟩
    · intro on
      obtain ⟨i, -, on, -⟩ := on
      exact on

end

end Ece391.ModeX
