import Ece391.ModeX.Maze
import Ece391.ModeX.ViewWindow

/-!
# Drawing blocks into the build buffer

`draw_full_block` draws a block of 12 by 12 pixels at any place of the maze, and
`draw_mask_block` draws the opaque pixels of one after saving what they cover.  Both first
clip the block to the window, and then walk through the pixels that are left row by row.
-/

namespace Ece391.ModeX

/-- What is drawn of a block: the first pixel, its index in the image, the numbers of columns
and rows, and the pixels of the image to skip between rows. -/
structure Clip where
  posX : Int
  posY : Int
  blk : Int
  xRight : Int
  yBottom : Int
  xLeft : Int
  deriving DecidableEq, Repr

/-- The clipping of a block, which is missing when the block is completely off-screen. -/
def clip (view : View) (posX posY : Int) : Option Clip :=
  if posX + 12 ≤ view.showX ∨ posX ≥ view.showX + 320 ∨ posY + 12 ≤ view.showY ∨
      posY ≥ view.showY + 182 then none
  else
    let xLeft := if view.showX - posX < 0 then 0 else view.showX - posX
    let xRight := if view.showX + 320 - posX > 12 then 12 else view.showX + 320 - posX
    let xRight := xRight - xLeft
    let yTop := if view.showY - posY < 0 then 0 else view.showY - posY
    let yBottom := if view.showY + 182 - posY > 12 then 12 else view.showY + 182 - posY
    some
      { posX := posX + xLeft
        posY := posY + yTop
        blk := xLeft + yTop * 12
        xRight := xRight
        yBottom := yBottom - yTop
        xLeft := 12 - xRight }

/-- The variables that the drawing loops advance.  Those of the mask and of the saved pixels
start at 0, whatever is clipped. -/
structure BlockCursor where
  posX : Int
  posY : Int
  blk : Int
  maskBlock : Int
  oldValueBuf : Int

section

variable {Memory : Type} (pixel : BlockCursor → Memory → Memory)

/-- The inner loop, over the pixels of a row. -/
def drawColumns : Nat → BlockCursor → Memory → BlockCursor × Memory
  | 0, cursor, memory => (cursor, memory)
  | dx + 1, cursor, memory =>
      drawColumns dx
        { cursor with
          posX := cursor.posX + 1
          blk := cursor.blk + 1
          maskBlock := cursor.maskBlock + 1
          oldValueBuf := cursor.oldValueBuf + 1 }
        (pixel cursor memory)

/-- The outer loop. -/
def drawRowsOf (xRight xLeft : Int) : Nat → BlockCursor → Memory → Memory
  | 0, _, memory => memory
  | dy + 1, cursor, memory =>
      let drawn := drawColumns pixel xRight.toNat cursor memory
      drawRowsOf xRight xLeft dy
        { drawn.1 with
          posX := drawn.1.posX - xRight
          posY := drawn.1.posY + 1
          blk := drawn.1.blk + xLeft }
        drawn.2

/-- The loops over a clipped block. -/
def drawClipped (clip : Clip) (memory : Memory) : Memory :=
  drawRowsOf pixel clip.xRight clip.xLeft clip.yBottom.toNat
    ⟨clip.posX, clip.posY, clip.blk, 0, 0⟩ memory

end

/-- `draw_full_block`. -/
def drawFullBlock (posX posY : Int) (blk : Int → UInt8) (view : View) : View :=
  match clip view posX posY with
  | none => view
  | some clip =>
      { view with
        build := drawClipped
          (fun cursor build =>
            Function.update build (view.address cursor.posX cursor.posY) (blk cursor.blk))
          clip view.build }

/-- `draw_mask_block`: the view and the saved pixels. -/
def drawMaskBlock (posX posY : Int) (blk maskBlock : Int → UInt8) (oldValueBuf : Int → UInt8)
    (view : View) : View × (Int → UInt8) :=
  match clip view posX posY with
  | none => (view, oldValueBuf)
  | some clip =>
      let drawn := drawClipped
        (fun cursor (memory : (Int → UInt8) × (Int → UInt8)) =>
          let address := view.address cursor.posX cursor.posY
          let saved := Function.update memory.2 cursor.oldValueBuf (memory.1 address)
          if maskBlock cursor.maskBlock = 1 then
            (Function.update memory.1 address (blk cursor.blk), saved)
          else (memory.1, saved))
        clip (view.build, oldValueBuf)
      ({ view with build := drawn.1 }, drawn.2)

section

variable {view : View} {posX posY : Int} {blk maskBlock oldValueBuf : Int → UInt8}

/-- A block inside the window is not clipped. -/
theorem clip_inside (left : view.showX ≤ posX) (right : posX + 12 ≤ view.showX + 320)
    (above : view.showY ≤ posY) (below : posY + 12 ≤ view.showY + 182) :
    clip view posX posY = some ⟨posX, posY, 0, 12, 12, 0⟩ := by
  have shown : ¬(posX + 12 ≤ view.showX ∨ posX ≥ view.showX + 320 ∨ posY + 12 ≤ view.showY ∨
      posY ≥ view.showY + 182) := by
    omega
  have xLeft : (if view.showX - posX < 0 then 0 else view.showX - posX) = 0 := by
    split <;> omega
  have xRight : (if view.showX + 320 - posX > 12 then 12 else view.showX + 320 - posX) = 12 := by
    split <;> omega
  have yTop : (if view.showY - posY < 0 then 0 else view.showY - posY) = 0 := by
    split <;> omega
  have yBottom : (if view.showY + 182 - posY > 12 then 12 else view.showY + 182 - posY) = 12 := by
    split <;> omega
  rw [clip, if_neg shown]
  simp only [xLeft, xRight, yTop, yBottom]
  simp

/-! ## The window stays where it is -/

@[simp] theorem drawFullBlock_showX : (drawFullBlock posX posY blk view).showX = view.showX := by
  rw [drawFullBlock]
  split <;> rfl

@[simp] theorem drawFullBlock_showY : (drawFullBlock posX posY blk view).showY = view.showY := by
  rw [drawFullBlock]
  split <;> rfl

@[simp] theorem drawMaskBlock_showX :
    (drawMaskBlock posX posY blk maskBlock oldValueBuf view).1.showX = view.showX := by
  rw [drawMaskBlock]
  split <;> rfl

@[simp] theorem drawMaskBlock_showY :
    (drawMaskBlock posX posY blk maskBlock oldValueBuf view).1.showY = view.showY := by
  rw [drawMaskBlock]
  split <;> rfl

end

end Ece391.ModeX
