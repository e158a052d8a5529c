import Ece391.Library.Raster

/-!
# The maze as a picture

Each lattice point of the maze is drawn as a block of 12 by 12 pixels, which `find_block`
chooses from the bits of the point and of its neighbours.  `fill_horiz_buffer` and
`fill_vert_buffer` produce the lines of that picture.

The images of `blocks.s` are one array of bytes, and a block pointer is an index into it.
Coordinates are unbounded integers, as in the view window.
-/

namespace Ece391.ModeX

open Ece391.Library

/-! ## Blocks -/

def mazeWall : UInt8 := 1

/-- The lowest bit of the fruit number. -/
def mazeFruit1 : UInt8 := 2

def mazeFruit : UInt8 := 14

def mazeExit : UInt8 := 16

def mazeReach : UInt8 := 128

/-- An index in the enumeration of blocks.  The first sixteen are the walls, by their
connections. -/
def blockEmpty : Int := 16

def blockShadow : Int := 17

def blockFruit1 : Int := 26

def blockFruitShadow : Int := 33

def blockExit : Int := 34

/-- The maze array, its dimensions and the fruits left in it. -/
structure Maze where
  cells : Int → UInt8
  xDim : Int
  yDim : Int
  nFruits : Int

/-- `maze[MAZE_INDEX(x, y)]`. -/
def Maze.point (maze : Maze) (x y : Int) : UInt8 :=
  maze.cells (x + (y + 1) * maze.xDim * 2)

/-- The bit of a wall pattern for a neighbour. -/
def wallBit (point : UInt8) (shift : Nat) : Nat :=
  (if point &&& mazeWall ≠ 0 then 1 else 0) <<< shift

/-- The image of a block: `blocks[index]`. -/
def blockImage (index : Int) : Int :=
  index * 144

/-- `find_block`. -/
def findBlock (maze : Maze) (x y : Int) : Int :=
  let point := maze.point x y
  let fnum := (point &&& mazeFruit) / mazeFruit1
  if maze.nFruits = 0 ∧ point &&& mazeExit ≠ 0 then blockImage blockExit
  else if point &&& mazeReach = 0 then
    if fnum ≠ 0 then blockImage blockFruitShadow else blockImage blockShadow
  else if fnum ≠ 0 then blockImage (blockFruit1 + fnum.toNat - 1)
  else if point &&& mazeWall = 0 then blockImage blockEmpty
  else
    let pattern := wallBit (maze.point x (y - 1)) 0 ||| wallBit (maze.point (x + 1) y) 1 |||
      wallBit (maze.point x (y + 1)) 2 ||| wallBit (maze.point (x - 1) y) 3
    blockImage (pattern : Nat)

/-! ## Lines -/

/-- What the drawing functions read: the maze, the images, and what the stack holds where a
line buffer is allocated. -/
structure Scene where
  maze : Maze
  blocks : Int → UInt8
  stack : Nat → UInt8

/-- `fill_horiz_buffer`. -/
def fillHorizBuffer (scene : Scene) (x y : Int) (buf : Nat → UInt8) : Nat → UInt8 :=
  let mapX := x.tdiv 12
  let mapY := y.tdiv 12
  let subX := x - mapX * 12
  let subY := y - mapY * 12
  copyTiles scene.blocks 12 1 320
    (fun mapX subX => findBlock scene.maze mapX mapY + subY * 12 + subX) 320 mapX subX 0 buf

/-- `fill_vert_buffer`: within a block the pointer moves by rows. -/
def fillVertBuffer (scene : Scene) (x y : Int) (buf : Nat → UInt8) : Nat → UInt8 :=
  let mapX := x.tdiv 12
  let mapY := y.tdiv 12
  let subX := x - mapX * 12
  let subY := y - mapY * 12
  copyTiles scene.blocks 12 12 182
    (fun mapY subY => findBlock scene.maze mapX mapY + subY * 12 + subX) 182 mapY subY 0 buf

/-- The picture: the pixel of the block that a position falls in. -/
def Scene.pixel (scene : Scene) (x y : Int) : UInt8 :=
  scene.blocks (findBlock scene.maze (x / 12) (y / 12) + y % 12 * 12 + x % 12)

section

variable {x y : Int} {i : Nat}

/-- In the first quadrant `x - map_x * BLOCK_X_DIM` is the position within the block. -/
theorem sub_block {value : Int} : value - value / 12 * 12 = value % 12 := by
  omega

/-- Every pixel of a horizontal line is that of the picture. -/
theorem fillHorizBuffer_pixel (scene : Scene) (buf : Nat → UInt8) (right : 0 ≤ x)
    (below : 0 ≤ y) (inside : i < 320) :
    fillHorizBuffer scene x y buf i = scene.pixel (x + i) y := by
  have mapX : x.tdiv 12 = x / 12 := Int.tdiv_eq_ediv_of_nonneg right
  have mapY : y.tdiv 12 = y / 12 := Int.tdiv_eq_ediv_of_nonneg below
  simp only [fillHorizBuffer, mapX, mapY, sub_block]
  rw [copyTiles_spec (fun tile offset => by ring) (by omega) (by omega) (by omega) (by omega)
    inside, if_neg (by omega)]
  have place : x / 12 * 12 + (x % 12 + ((i : Int) - (0 : Nat))) = x + i := by omega
  rw [place]
  rfl

/-- And so is every pixel of a vertical line. -/
theorem fillVertBuffer_pixel (scene : Scene) (buf : Nat → UInt8) (right : 0 ≤ x)
    (below : 0 ≤ y) (inside : i < 182) :
    fillVertBuffer scene x y buf i = scene.pixel x (y + i) := by
  have mapX : x.tdiv 12 = x / 12 := Int.tdiv_eq_ediv_of_nonneg right
  have mapY : y.tdiv 12 = y / 12 := Int.tdiv_eq_ediv_of_nonneg below
  simp only [fillVertBuffer, mapX, mapY, sub_block]
  rw [copyTiles_spec (fun tile offset => by ring) (by omega) (by omega) (by omega) (by omega)
    inside, if_neg (by omega)]
  have place : y / 12 * 12 + (y % 12 + ((i : Int) - (0 : Nat))) = y + i := by omega
  rw [place]
  rfl

end

end Ece391.ModeX
