import Ece391.ModeX.MarkArea

/-!
# Making a maze

`make_maze` first lets worms dig random passages until no (odd,odd) lattice point is a wall.
A second phase then joins what is not connected to (1,1), at random first and by scanning the
lattice later.  At last the marks are cleared, all walls but the boundary are removed
(`GOD_MODE`), and fruits and the exit are placed.

The values of `random` are a stream.  The loops that pick at random may never end, so they have
fuel; a division by zero and an access outside an array are faults.
-/

namespace Ece391.ModeX

open Ece391.Library

/-! ## The worms -/

/-- `turn_wt`: the weight of a turn, by the quarter turns from the preferred direction and
whether the new space is still a wall. -/
def turnWt (turn : Nat) (wall : Bool) : Nat :=
  match turn, wall with
  | 0, false => 1
  | 0, true => 84
  | 2, _ => 3
  | _, false => 1
  | _, true => 9

/-- The variables of the worm phase. -/
structure Digging where
  maze : Maze
  x : Int
  y : Int
  prefDir : Nat
  remaining : Int
  random : Stream' Nat

namespace Digging

/-- Whether a point is still exactly `MAZE_WALL`. -/
def solid (digging : Digging) (x y : Int) : Bool :=
  digging.maze.point x y = mazeWall

/-- The array `wt` of cumulative weights. -/
def wt (digging : Digging) : List Nat :=
  let ⟨maze, x, y, prefDir, _, _⟩ := digging
  let up := if y > 1 then turnWt prefDir (digging.solid x (y - 2)) else 0
  let right := up +
    if x < maze.xDim * 2 - 1 then turnWt ((prefDir + 3) % 4) (digging.solid (x + 2) y) else 0
  let down := right +
    if y < maze.yDim * 2 - 1 then turnWt ((prefDir + 2) % 4) (digging.solid x (y + 2)) else 0
  let left := down +
    if x > 1 then turnWt ((prefDir + 1) % 4) (digging.solid (x - 2) y) else 0
  [up, right, down, left]

/-- The step of a direction: up, right, down or left. -/
def dirStep (dir : Nat) : Int × Int :=
  match dir with
  | 0 => (0, -1)
  | 1 => (1, 0)
  | 2 => (0, 1)
  | _ => (-1, 0)

/-- The worm moves one space in a direction, and eats the wall there if necessary. -/
def crawl (digging : Digging) (dir : Nat) : Digging :=
  let dx := (dirStep dir).1
  let dy := (dirStep dir).2
  let maze := digging.maze.set (digging.x + dx) (digging.y + dy) 0
  let x := digging.x + 2 * dx
  let y := digging.y + 2 * dy
  { digging with
    prefDir := dir
    x := x
    y := y
    remaining := if maze.point x y = mazeWall then digging.remaining - 1 else digging.remaining
    maze := maze.set x y 0 }

/-- The body of the loop for one worm, which ends when the worm turns around. -/
def turn (digging : Digging) : Option (ForInStep Digging) :=
  let total := digging.wt.getLastD 0
  if total = 0 then none
  else
    let pick := digging.random.head % total
    (digging.wt.findIdx? fun wt => pick < wt).map fun dir =>
      let digging := { digging with random := digging.random.tail }
      if (dir + 4 - digging.prefDir) % 4 = 2 then .done digging else .yield (digging.crawl dir)

/-- The body of the loop over worms: each starts on a lattice point that is still a wall. -/
def worm (fuel : Nat) (digging : Digging) : Option (ForInStep Digging) :=
  (pickPoint digging.maze (fun point => point &&& mazeWall = 0) fuel
      ⟨digging.x, digging.y, digging.random⟩).bind fun pick =>
    let digging :=
      { digging with
        maze := digging.maze.set pick.x pick.y 0
        x := pick.x
        y := pick.y
        remaining := digging.remaining - 1
        prefDir := pick.random.head % 4
        random := pick.random.tail }
    (loop turn fuel digging).map fun digging =>
      if digging.remaining > 0 then .yield digging else .done digging

end Digging

/-- The worm phase. -/
def wormPhase (fuel : Nat) (digging : Digging) : Option Digging :=
  loop (Digging.worm fuel) fuel digging

/-! ## The second phase -/

/-- The variables of the second phase. -/
structure Joining where
  maze : Maze
  x : Int
  y : Int
  remaining : Int
  trials : Int
  random : Stream' Nat

namespace Joining

/-- `while (remaining > 0)`. -/
def test (joining : Joining) : ForInStep Joining :=
  if joining.remaining > 0 then .yield joining else .done joining

/-- The next point of the scan. -/
def scan (joining : Joining) : Joining :=
  if joining.x + 2 > joining.maze.xDim * 2 then
    { joining with
      x := joining.x + 2 - joining.maze.xDim * 2
      y :=
        if joining.y + 2 > 2 * joining.maze.yDim then joining.y + 2 - 2 * joining.maze.yDim
        else joining.y + 2 }
  else { joining with x := joining.x + 2 }

/-- The wall to a reached neighbour of the point, if it has one. -/
def wall (joining : Joining) : Option (Int × Int) :=
  let ⟨maze, x, y, _, _, _⟩ := joining
  if y > 1 ∧ maze.point x (y - 2) &&& mazeReach ≠ 0 then some (x, y - 1)
  else if x > 1 ∧ maze.point (x - 2) y &&& mazeReach ≠ 0 then some (x - 1, y)
  else if x < 2 * maze.xDim - 1 ∧ maze.point (x + 2) y &&& mazeReach ≠ 0 then some (x + 1, y)
  else if y < 2 * maze.yDim - 1 ∧ maze.point x (y + 2) &&& mazeReach ≠ 0 then some (x, y + 1)
  else none

/-- Knock down the wall and mark what it connects. -/
def connect (joining : Joining) : Option (ForInStep Joining) :=
  match joining.wall with
  | none => some joining.test
  | some (x, y) =>
      (markMazeArea (joining.maze.set x y 0) joining.x joining.y).map fun (count, maze) =>
        test { joining with maze := maze, remaining := joining.remaining - count }

/-- The body of the loop of the second phase. -/
def join (fuel : Nat) (joining : Joining) : Option (ForInStep Joining) :=
  let joining :=
    { joining with
      trials := if joining.remaining < 20 then joining.trials else joining.trials + 1 }
  if joining.remaining < 20 ∨ joining.trials > 100 then
    let joining := joining.scan
    if joining.maze.point joining.x joining.y &&& mazeReach ≠ 0 then some joining.test
    else joining.connect
  else
    (pickPoint joining.maze (fun point => point &&& mazeReach ≠ 0) fuel
        ⟨joining.x, joining.y, joining.random⟩).bind fun pick =>
      connect { joining with x := pick.x, y := pick.y, random := pick.random }

end Joining

/-- What the second phase starts with. -/
def Digging.mark (digging : Digging) : Option Joining :=
  (markMazeArea digging.maze 1 1).map fun (count, maze) =>
    { maze := maze
      x := digging.x
      y := digging.y
      remaining := maze.xDim * maze.yDim - count
      trials := 0
      random := digging.random }

/-- The second phase. -/
def secondPhase (fuel : Nat) (joining : Joining) : Option Joining :=
  loop (Joining.join fuel) fuel joining

/-! ## The whole function -/

/-- A loop over points that rewrites each of them. -/
def Maze.rewrite (maze : Maze) (points : List (Int × Int)) (value : UInt8 → UInt8) : Maze :=
  points.foldl (fun maze point => maze.set point.1 point.2 (value (maze.point point.1 point.2)))
    maze

/-- The loop that removes the `MAZE_REACH` markers. -/
def Maze.clearReach (maze : Maze) : Maze :=
  maze.rewrite
    ((List.range maze.xDim.toNat).flatMap fun column =>
      (List.range maze.yDim.toNat).map fun row => (2 * column + 1, 2 * row + 1))
    fun point => point &&& ~~~mazeReach

/-- The loop of `GOD_MODE`. -/
def Maze.godMode (maze : Maze) : Maze :=
  maze.rewrite
    ((List.range (2 * maze.xDim - 1).toNat).flatMap fun column =>
      (List.range (2 * maze.yDim - 1).toNat).map fun row => (column + 1, row + 1))
    fun _ => 0

/-- `add_a_fruit_internal` a number of times. -/
def Maze.addFruits (fuel : Nat) : Nat → Stream' Nat → Maze → Option (Stream' Nat × Maze)
  | 0, random, maze => some (random, maze)
  | count + 1, random, maze =>
      (maze.placeFruit fuel random).bind fun (pick, maze) => addFruits fuel count pick.random maze

/-- The static variables of the maze. -/
structure MazeState extends Maze where
  exitX : Int
  exitY : Int

/-- `make_maze`: the return value and the maze. -/
def makeMaze (fuel : Nat) (xDim yDim startFruits : Int) (random : Stream' Nat)
    (state : MazeState) : Option (Int × MazeState) :=
  if ¬ValidSize xDim yDim then some (-1, state)
  else
    let walls : Maze := ⟨fun _ => mazeWall, xDim, yDim, state.nFruits⟩
    (wormPhase fuel ⟨walls, 0, 0, 0, xDim * yDim, random⟩).bind fun dug =>
      dug.mark.bind fun marked =>
        (secondPhase fuel marked).bind fun joined =>
          let maze := { joined.maze.clearReach.godMode with nFruits := 0 }
          (maze.addFruits fuel startFruits.toNat joined.random).bind fun (random, maze) =>
            (pickPoint maze (fun point => point &&& mazeFruit ≠ 0) fuel
                ⟨joined.x, joined.y, random⟩).map fun pick =>
              (0, ⟨maze.set pick.x pick.y (maze.point pick.x pick.y ||| mazeExit), pick.x,
                pick.y⟩)

end Ece391.ModeX
