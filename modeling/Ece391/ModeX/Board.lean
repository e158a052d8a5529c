import Ece391.Library.Census
import Ece391.Library.Loop
import Ece391.ModeX.DrawBlocks
import Ece391.ModeX.Panning
import Mathlib.Data.FinEnum
import Mathlib.Data.Stream.Defs
import Mathlib.Data.Finset.Prod

/-!
# Playing on a maze

The operations of the game on the maze that `make_maze` has left: a lattice point is unveiled,
a fruit is added or eaten, and the player looks for open directions and for the exit.  The
last column and the last row of walls can be unveiled, so a point may have two coordinates:
column `2 * X_DIM` of a row is column 0 of the next.
-/

namespace Ece391.ModeX

open Ece391.Library

/-! ## The maze array -/

/-- `MAZE_INDEX(x, y)`. -/
def Maze.index (maze : Maze) (x y : Int) : Int :=
  x + (y + 1) * maze.xDim * 2

/-- The (odd,odd) lattice points. -/
def Maze.Lattice (maze : Maze) (x y : Int) : Prop :=
  0 < x ∧ x < 2 * maze.xDim ∧ x % 2 = 1 ∧ 0 < y ∧ y < 2 * maze.yDim ∧ y % 2 = 1

/-- `maze[MAZE_INDEX(x, y)] = value`. -/
def Maze.set (maze : Maze) (x y : Int) (value : UInt8) : Maze :=
  { maze with cells := Function.update maze.cells (maze.index x y) value }

/-- The indices of the array. -/
def arrayPlaces : Finset Int :=
  (Finset.range 6301).image Int.ofNat

/-- `random() % bound`; the values of `random` are never negative. -/
def randomBelow (random : Stream' Nat) (bound : Int) : Int :=
  (random.head : Int) % bound

/-- The variables of a loop that picks a point at random. -/
structure Pick where
  x : Int
  y : Int
  random : Stream' Nat

/-- Pick (odd,odd) lattice points at random while they are rejected. -/
def pickPoint (maze : Maze) (rejected : UInt8 → Bool) (fuel : Nat) (pick : Pick) : Option Pick :=
  loop
    (fun pick =>
      let x := randomBelow pick.random maze.xDim * 2 + 1
      let y := randomBelow pick.random.tail maze.yDim * 2 + 1
      let pick := ⟨x, y, pick.random.tail.tail⟩
      if rejected (maze.point x y) then some (.yield pick) else some (.done pick))
    fuel pick

/-- `_add_a_fruit` up to the drawing: the point and the random values left, and the maze. -/
def Maze.placeFruit (maze : Maze) (fuel : Nat) (random : Stream' Nat) : Option (Pick × Maze) :=
  (pickPoint maze (fun point => point &&& mazeFruit ≠ 0) fuel ⟨0, 0, random⟩).map fun pick =>
    let fruit := .ofNat ((pick.random.head % 7 + 1) * 2)
    let maze := maze.set pick.x pick.y (maze.point pick.x pick.y ||| fruit)
    ({ pick with random := pick.random.tail }, { maze with nFruits := maze.nFruits + 1 })

/-! ## The operations -/

/-- The maze, what is drawn, and `exit_x` and `exit_y`. -/
structure Board where
  scene : Scene
  view : View
  exitX : Int
  exitY : Int

namespace Board

def maze (board : Board) : Maze :=
  board.scene.maze

def withMaze (board : Board) (maze : Maze) : Board :=
  { board with scene := { board.scene with maze := maze } }

/-- `draw_full_block` of the block that `find_block` chooses for a lattice point. -/
def drawPoint (board : Board) (x y : Int) : Board :=
  { board with
    view := drawFullBlock (x * 12) (y * 12)
      (fun offset => board.scene.blocks (findBlock board.maze x y + offset)) board.view }

/-- `unveil_space`. -/
def unveilSpace (board : Board) (x y : Int) : Board :=
  if x < 0 ∨ x > 2 * board.maze.xDim ∨ y < 0 ∨ y > 2 * board.maze.yDim then board
  else if board.maze.point x y &&& mazeReach ≠ 0 then board
  else
    let board := board.withMaze (board.maze.set x y (board.maze.point x y ||| mazeReach))
    board.drawPoint x y

/-- `check_for_fruit`: the fruit number found, or 0. -/
def checkForFruit (board : Board) (x y : Int) : UInt8 × Board :=
  if x < 0 ∨ x ≥ 2 * board.maze.xDim ∨ y < 0 ∨ y ≥ 2 * board.maze.yDim then (0, board)
  else
    let fnum := (board.maze.point x y &&& mazeFruit) / mazeFruit1
    if fnum ≠ 0 then
      let maze := board.maze.set x y (board.maze.point x y &&& ~~~mazeFruit)
      let board := board.withMaze { maze with nFruits := maze.nFruits - 1 }
      let board :=
        if board.maze.nFruits = 0 then board.drawPoint board.exitX board.exitY else board
      (fnum, board.drawPoint x y)
    else (fnum, board)

/-- `check_for_win`. -/
def checkForWin (board : Board) (x y : Int) : Int :=
  if x < 0 ∨ x ≥ 2 * board.maze.xDim ∨ y < 0 ∨ y ≥ 2 * board.maze.yDim then 0
  else if board.maze.nFruits = 0 ∧ board.maze.point x y &&& mazeExit ≠ 0 then 1 else 0

/-- `add_a_fruit`, which draws what `_add_a_fruit` has placed: the number of fruits, the random
values left and the board. -/
def addAFruit (board : Board) (fuel : Nat) (random : Stream' Nat) :
    Option (Int × Stream' Nat × Board) :=
  (board.maze.placeFruit fuel random).map fun (pick, maze) =>
    let board := (board.withMaze maze).drawPoint pick.x pick.y
    let board :=
      if board.maze.nFruits = 1 then board.drawPoint board.exitX board.exitY else board
    (board.maze.nFruits, pick.random, board)

end Board

/-- `dir_t`. -/
inductive Direction where
  | up
  | right
  | down
  | left
  | stop
  deriving DecidableEq, Repr

/-- `find_open_directions`.  The entry `open[DIR_STOP]` lies behind the array. -/
def findOpenDirections (maze : Maze) (x y : Int) (behind : Bool) : Direction → Bool
  | .up => maze.point x (y - 1) &&& mazeWall = 0
  | .right => maze.point (x + 1) y &&& mazeWall = 0
  | .down => maze.point x (y + 1) &&& mazeWall = 0
  | .left => maze.point (x - 1) y &&& mazeWall = 0
  | .stop => behind

/-- A call of one of the operations. -/
inductive BoardCall where
  | addAFruit (random : Stream' Nat)
  | checkForFruit (x y : Int)
  | unveilSpace (x y : Int)
  | findOpenDirections (x y : Int)

/-- The effect of a call that ends. -/
inductive BoardStep (board : Board) : BoardCall → Board → Prop where
  | addAFruit {fuel : Nat} {random rest : Stream' Nat} {count : Int} {after : Board} :
      board.addAFruit fuel random = some (count, rest, after) →
      BoardStep board (.addAFruit random) after
  | checkForFruit (x y : Int) : BoardStep board (.checkForFruit x y) (board.checkForFruit x y).2
  | unveilSpace (x y : Int) : BoardStep board (.unveilSpace x y) (board.unveilSpace x y)
  | findOpenDirections (x y : Int) : BoardStep board (.findOpenDirections x y) board

/-! ## Walls and the exit -/

/-- Two mazes of one size with the same walls and the same exit. -/
structure SameWalls (before after : Maze) : Prop where
  xDim : after.xDim = before.xDim
  yDim : after.yDim = before.yDim
  walls : ∀ place, after.cells place &&& mazeWall = before.cells place &&& mazeWall
  exits : ∀ place, after.cells place &&& mazeExit = before.cells place &&& mazeExit

section

variable {maze before middle after : Maze} {x y : Int} {value : UInt8} {board : Board}

theorem mem_arrayPlaces {place : Int} : place ∈ arrayPlaces ↔ 0 ≤ place ∧ place < 6301 := by
  simp only [arrayPlaces, Finset.mem_image, Finset.mem_range, Int.ofNat_eq_natCast]
  constructor
  · rintro ⟨number, below, rfl⟩
    omega
  · intro bounds
    exact ⟨place.toNat, by omega, Int.toNat_of_nonneg bounds.1⟩

theorem Maze.cells_index (maze : Maze) (x y : Int) :
    maze.cells (maze.index x y) = maze.point x y :=
  rfl

/-- The right boundary of a row is column 0 of the next. -/
theorem Maze.point_wrapped (maze : Maze) (y : Int) :
    maze.point (2 * maze.xDim) y = maze.point 0 (y + 1) := by
  simp only [Maze.point]
  congr 1
  ring

theorem SameWalls.refl (maze : Maze) : SameWalls maze maze :=
  ⟨rfl, rfl, fun _ => rfl, fun _ => rfl⟩

theorem SameWalls.trans (first : SameWalls before middle) (second : SameWalls middle after) :
    SameWalls before after where
  xDim := second.xDim.trans first.xDim
  yDim := second.yDim.trans first.yDim
  walls place := (second.walls place).trans (first.walls place)
  exits place := (second.exits place).trans (first.exits place)

theorem SameWalls.index (same : SameWalls before after) (x y : Int) :
    after.index x y = before.index x y := by
  rw [Maze.index, Maze.index, same.xDim]

theorem SameWalls.point (same : SameWalls before after) (x y : Int) :
    after.point x y &&& mazeWall = before.point x y &&& mazeWall := by
  have place := same.walls (before.index x y)
  rw [← same.index] at place
  exact place.trans (congrArg (before.cells · &&& mazeWall) (same.index x y))

/-- Writing a point keeps them when the new value has the same two bits. -/
theorem SameWalls.set (wall : value &&& mazeWall = maze.point x y &&& mazeWall)
    (exit : value &&& mazeExit = maze.point x y &&& mazeExit) :
    SameWalls maze (maze.set x y value) where
  xDim := rfl
  yDim := rfl
  walls place := by
    by_cases here : place = maze.index x y
    · subst here
      simpa [Maze.set, Maze.cells_index] using wall
    · simp [Maze.set, here]
  exits place := by
    by_cases here : place = maze.index x y
    · subst here
      simpa [Maze.set, Maze.cells_index] using exit
    · simp [Maze.set, here]

/-! ### The boundary -/

/-- The boundary of the maze is walls.  The right boundary of a row is column 0 of the next. -/
structure Maze.Fenced (maze : Maze) : Prop where
  top : ∀ x, 0 ≤ x → x < 2 * maze.xDim → maze.point x 0 &&& mazeWall ≠ 0
  bottom : ∀ x, 0 ≤ x → x < 2 * maze.xDim → maze.point x (2 * maze.yDim) &&& mazeWall ≠ 0
  side : ∀ y, 0 ≤ y → y ≤ 2 * maze.yDim → maze.point 0 y &&& mazeWall ≠ 0

/-- A square inside the boundary that is not a wall. -/
structure Maze.Square (maze : Maze) (x y : Int) : Prop where
  column : 0 < x ∧ x < 2 * maze.xDim
  row : 0 < y ∧ y < 2 * maze.yDim
  clear : maze.point x y &&& mazeWall = 0

theorem SameWalls.fenced (same : SameWalls before after) (fenced : before.Fenced) :
    after.Fenced where
  top x left right := by
    rw [same.point]
    exact fenced.top x left (same.xDim ▸ right)
  bottom x left right := by
    rw [same.point, same.yDim]
    exact fenced.bottom x left (same.xDim ▸ right)
  side y above below := by
    rw [same.point]
    exact fenced.side y above (same.yDim ▸ below)

theorem SameWalls.square (same : SameWalls before after) (square : before.Square x y) :
    after.Square x y where
  column := by
    rw [same.xDim]
    exact square.column
  row := by
    rw [same.yDim]
    exact square.row
  clear := by
    rw [same.point]
    exact square.clear

/-- A point that is not a wall lies inside the boundary. -/
theorem Maze.Fenced.inside (fenced : maze.Fenced) (left : 0 ≤ x) (right : x ≤ 2 * maze.xDim)
    (above : 0 ≤ y) (below : y ≤ 2 * maze.yDim) (corner : x < 2 * maze.xDim ∨ y < 2 * maze.yDim)
    (clear : maze.point x y &&& mazeWall = 0) : maze.Square x y := by
  have notLeft : x ≠ 0 := by
    rintro rfl
    exact fenced.side y above below clear
  have notRight : x ≠ 2 * maze.xDim := by
    rintro rfl
    rw [Maze.point_wrapped] at clear
    exact fenced.side (y + 1) (by omega) (by omega) clear
  have notTop : y ≠ 0 := by
    rintro rfl
    exact fenced.top x left (by omega) clear
  have notBottom : y ≠ 2 * maze.yDim := by
    rintro rfl
    exact fenced.bottom x left (by omega) clear
  exact ⟨by omega, by omega, clear⟩

/-! ### Bits of a point -/

/-- Masking distributes over setting bits. -/
theorem or_and_byte (first second mask : UInt8) :
    (first ||| second) &&& mask = first &&& mask ||| second &&& mask :=
  UInt8.toBitVec_inj.mp BitVec.and_or_distrib_right

theorem reach_bits (point : UInt8) :
    (point ||| mazeReach) &&& mazeWall = point &&& mazeWall ∧
      (point ||| mazeReach) &&& mazeExit = point &&& mazeExit ∧
      (point ||| mazeReach) &&& mazeFruit = point &&& mazeFruit := by
  have wall : mazeReach &&& mazeWall = 0 := by decide
  have exit : mazeReach &&& mazeExit = 0 := by decide
  have fruit : mazeReach &&& mazeFruit = 0 := by decide
  simp only [or_and_byte, wall, exit, fruit, UInt8.or_zero, and_self]

theorem eaten_bits (point : UInt8) :
    (point &&& ~~~mazeFruit) &&& mazeWall = point &&& mazeWall ∧
      (point &&& ~~~mazeFruit) &&& mazeExit = point &&& mazeExit ∧
      (point &&& ~~~mazeFruit) &&& mazeFruit = 0 := by
  revert point
  decide +kernel

theorem fruit_bits (point : UInt8) (random : Nat) :
    (point ||| .ofNat ((random % 7 + 1) * 2)) &&& mazeWall = point &&& mazeWall ∧
      (point ||| .ofNat ((random % 7 + 1) * 2)) &&& mazeExit = point &&& mazeExit ∧
      (point ||| .ofNat ((random % 7 + 1) * 2)) &&& mazeFruit ≠ 0 := by
  have kinds : ∀ kind : Fin 7, (.ofNat ((kind.val + 1) * 2) : UInt8) &&& mazeWall = 0 ∧
      (.ofNat ((kind.val + 1) * 2) : UInt8) &&& mazeExit = 0 ∧
      (.ofNat ((kind.val + 1) * 2) : UInt8) &&& mazeFruit ≠ 0 := by
    decide
  obtain ⟨wall, exit, fruit⟩ := kinds ⟨random % 7, Nat.mod_lt random (by decide)⟩
  refine ⟨?_, ?_, fun none => fruit ?_⟩
  · rw [or_and_byte, wall, UInt8.or_zero]
  · rw [or_and_byte, exit, UInt8.or_zero]
  · rw [or_and_byte, UInt8.or_eq_zero_iff] at none
    exact none.2

/-- The fruit number of a point with a fruit is 1 to 7. -/
theorem fruit_number (point : UInt8) :
    (point &&& mazeFruit) / mazeFruit1 ≤ 7 ∧
      ((point &&& mazeFruit) / mazeFruit1 ≠ 0 ↔ point &&& mazeFruit ≠ 0) := by
  revert point
  decide +kernel

end

/-! ## The invariant -/

/-- The number of cells that hold a fruit. -/
def Maze.fruits (maze : Maze) : Nat :=
  census arrayPlaces (fun point => point &&& mazeFruit ≠ 0) maze.cells

/-- The fruits are counted, and one cell is the exit. -/
structure Board.Stocked (board : Board) : Prop where
  size : ValidSize board.maze.xDim board.maze.yDim
  count : board.maze.nFruits = board.maze.fruits
  exit : ∀ place, board.maze.cells place &&& mazeExit ≠ 0 ↔
    place = board.maze.index board.exitX board.exitY
  column : 0 ≤ board.exitX ∧ board.exitX < 2 * board.maze.xDim
  row : 0 ≤ board.exitY ∧ board.exitY < 2 * board.maze.yDim

section

variable {maze : Maze} {board after : Board} {x y : Int} {fuel : Nat}

/-- The points of a maze lie in the array, with the column and the row behind the last. -/
theorem Maze.index_mem (size : ValidSize maze.xDim maze.yDim) (left : 0 ≤ x)
    (right : x ≤ 2 * maze.xDim) (above : 0 ≤ y) (below : y ≤ 2 * maze.yDim) :
    maze.index x y ∈ arrayPlaces := by
  simp only [ValidSize] at size
  have low : 0 ≤ (y + 1) * maze.xDim := Int.mul_nonneg (by omega) (by omega)
  have high : (y + 1) * maze.xDim ≤ 61 * 50 :=
    Int.mul_le_mul (by omega) (by omega) (by omega) (by omega)
  simp only [mem_arrayPlaces, Maze.index]
  omega

/-- Distinct points of a maze have distinct indices. -/
theorem Maze.index_injective {x' y' : Int} (left : 0 ≤ x) (right : x < 2 * maze.xDim)
    (left' : 0 ≤ x') (right' : x' < 2 * maze.xDim)
    (same : maze.index x y = maze.index x' y') : x = x' ∧ y = y' := by
  have rows : y = y' := by
    simp only [Maze.index] at same
    rcases Int.lt_trichotomy y y' with above | equal | below
    · have apart : (y + 1 + 1) * maze.xDim ≤ (y' + 1) * maze.xDim :=
        Int.mul_le_mul_of_nonneg_right (by omega) (by omega)
      rw [Int.add_mul] at apart
      omega
    · exact equal
    · have apart : (y' + 1 + 1) * maze.xDim ≤ (y + 1) * maze.xDim :=
        Int.mul_le_mul_of_nonneg_right (by omega) (by omega)
      rw [Int.add_mul] at apart
      omega
  subst rows
  simp only [Maze.index] at same
  omega

theorem pickPoint_mono {rejected : UInt8 → Bool} : FuelMonotone (pickPoint maze rejected) :=
  fun _ _ _ _ enough ran => loop_mono (fun _ _ step => step) enough ran

/-- A point picked at random is an (odd,odd) lattice point. -/
theorem random_lattice (random : Stream' Nat) (width : 0 < maze.xDim) (height : 0 < maze.yDim) :
    maze.Lattice (randomBelow random maze.xDim * 2 + 1)
      (randomBelow random.tail maze.yDim * 2 + 1) := by
  have column : 0 ≤ randomBelow random maze.xDim ∧ randomBelow random maze.xDim < maze.xDim :=
    ⟨Int.emod_nonneg _ (by omega), Int.emod_lt_of_pos _ width⟩
  have row : 0 ≤ randomBelow random.tail maze.yDim ∧
      randomBelow random.tail maze.yDim < maze.yDim :=
    ⟨Int.emod_nonneg _ (by omega), Int.emod_lt_of_pos _ height⟩
  simp only [Maze.Lattice]
  omega

/-- The picks end at a point that is not rejected. -/
theorem pickPoint_spec {rejected : UInt8 → Bool} {pick picked : Pick} (width : 0 < maze.xDim)
    (height : 0 < maze.yDim) (ended : pickPoint maze rejected fuel pick = some picked) :
    rejected (maze.point picked.x picked.y) = false ∧ maze.Lattice picked.x picked.y := by
  refine @loop_invariant _ _ _ _ _ (fun _ => True) (fun picked =>
    rejected (maze.point picked.x picked.y) = false ∧ maze.Lattice picked.x picked.y)
    (fun _ _ _ _ => trivial) ?_ trivial ended
  intro pick last _ step
  simp only at step
  split at step
  · cases step
  next accepted =>
    obtain rfl := ForInStep.done.inj (Option.some.inj step)
    exact ⟨by simpa using accepted, random_lattice pick.random width height⟩

/-- What placing a fruit does. -/
theorem placeFruit_spec {random : Stream' Nat} {pick : Pick} {placed : Maze}
    (size : ValidSize maze.xDim maze.yDim)
    (ended : maze.placeFruit fuel random = some (pick, placed)) :
    SameWalls maze placed ∧ placed.nFruits = maze.nFruits + 1 ∧
      placed.fruits = maze.fruits + 1 := by
  simp only [Maze.placeFruit, Option.map_eq_some_iff, Prod.mk.injEq] at ended
  obtain ⟨picked, found, -, rfl⟩ := ended
  have bounds := size
  simp only [ValidSize] at bounds
  obtain ⟨free, inside⟩ := pickPoint_spec (by omega) (by omega) found
  simp only [Maze.Lattice] at inside
  obtain ⟨walls, exits, fruit⟩ :=
    fruit_bits (maze.point picked.x picked.y) picked.random.head
  have same := SameWalls.set walls exits
  have member : maze.index picked.x picked.y ∈ arrayPlaces :=
    Maze.index_mem size (by omega) (by omega) (by omega) (by omega)
  exact ⟨⟨rfl, rfl, same.walls, same.exits⟩, rfl,
    census_gain member (by simpa [Maze.cells_index] using free) fruit⟩

/-! ### Each operation -/

/-- An operation that keeps the walls and the exit, and the count right. -/
structure Board.Keeps (before after : Board) : Prop where
  same : SameWalls before.maze after.maze
  exitX : after.exitX = before.exitX
  exitY : after.exitY = before.exitY
  count : after.maze.nFruits - after.maze.fruits = before.maze.nFruits - before.maze.fruits

theorem Board.Keeps.refl (board : Board) : board.Keeps board :=
  ⟨.refl _, rfl, rfl, rfl⟩

theorem Board.Keeps.trans {middle : Board} (first : board.Keeps middle)
    (second : middle.Keeps after) : board.Keeps after where
  same := first.same.trans second.same
  exitX := second.exitX.trans first.exitX
  exitY := second.exitY.trans first.exitY
  count := second.count.trans first.count

theorem unveilSpace_same (board : Board) (x y : Int) :
    SameWalls board.maze (board.unveilSpace x y).maze := by
  simp only [Board.unveilSpace]
  split
  · exact .refl _
  · split
    · exact .refl _
    · obtain ⟨walls, exits, -⟩ := reach_bits (board.maze.point x y)
      exact .set walls exits

theorem checkForFruit_same (board : Board) (x y : Int) :
    SameWalls board.maze (board.checkForFruit x y).2.maze := by
  obtain ⟨walls, exits, -⟩ := eaten_bits (board.maze.point x y)
  have same := SameWalls.set walls exits
  simp only [Board.checkForFruit]
  split
  · exact .refl _
  · split
    · split <;> exact ⟨rfl, rfl, same.walls, same.exits⟩
    · exact .refl _

theorem checkForFruit_exit (board : Board) (x y : Int) :
    (board.checkForFruit x y).2.exitX = board.exitX ∧
      (board.checkForFruit x y).2.exitY = board.exitY := by
  simp only [Board.checkForFruit]
  split
  · exact ⟨rfl, rfl⟩
  · split
    · split <;> exact ⟨rfl, rfl⟩
    · exact ⟨rfl, rfl⟩

theorem unveilSpace_keeps (board : Board) (x y : Int) : board.Keeps (board.unveilSpace x y) := by
  have walls := unveilSpace_same board x y
  simp only [Board.unveilSpace] at walls ⊢
  split
  · exact .refl _
  · split
    · exact .refl _
    next inside unseen =>
      rw [if_neg inside, if_neg unseen] at walls
      refine ⟨walls, rfl, rfl, ?_⟩
      have same : (board.maze.set x y (board.maze.point x y ||| mazeReach)).fruits =
          board.maze.fruits := by
        refine census_same ?_
        rw [(reach_bits _).2.2, Maze.cells_index]
      exact congrArg (fun fruits : Nat => board.maze.nFruits - fruits) same

theorem checkForFruit_keeps (size : ValidSize board.maze.xDim board.maze.yDim) (x y : Int) :
    board.Keeps (board.checkForFruit x y).2 := by
  have same := checkForFruit_same board x y
  obtain ⟨exitX, exitY⟩ := checkForFruit_exit board x y
  refine ⟨same, exitX, exitY, ?_⟩
  simp only [Board.checkForFruit]
  split
  · rfl
  next inside =>
    split
    next found =>
      have eaten := (eaten_bits (board.maze.point x y)).2.2
      have present := (fruit_number (board.maze.point x y)).2.mp found
      have member : board.maze.index x y ∈ arrayPlaces :=
        Maze.index_mem size (by omega) (by omega) (by omega) (by omega)
      have fewer : (board.maze.set x y (board.maze.point x y &&& ~~~mazeFruit)).fruits + 1 =
          board.maze.fruits :=
        census_loss member (by rwa [Maze.cells_index]) (by simpa using eaten)
      have count : board.maze.nFruits - 1 -
          (board.maze.set x y (board.maze.point x y &&& ~~~mazeFruit)).fruits =
            board.maze.nFruits - board.maze.fruits := by
        omega
      split <;> exact count
    · rfl

theorem addAFruit_keeps {random rest : Stream' Nat} {count : Int}
    (size : ValidSize board.maze.xDim board.maze.yDim)
    (ended : board.addAFruit fuel random = some (count, rest, after)) : board.Keeps after := by
  simp only [Board.addAFruit, Option.map_eq_some_iff, Prod.mk.injEq] at ended
  obtain ⟨⟨pick, placed⟩, found, -, -, rfl⟩ := ended
  obtain ⟨same, more, fruits⟩ := placeFruit_spec size found
  have counted : placed.nFruits - placed.fruits = board.maze.nFruits - board.maze.fruits := by
    omega
  split <;> exact ⟨same, rfl, rfl, counted⟩

theorem BoardStep.keeps {call : BoardCall} (step : BoardStep board call after)
    (size : ValidSize board.maze.xDim board.maze.yDim) : board.Keeps after := by
  cases step with
  | addAFruit ended => exact addAFruit_keeps size ended
  | checkForFruit x y => exact checkForFruit_keeps size x y
  | unveilSpace x y => exact unveilSpace_keeps board x y
  | findOpenDirections x y => exact .refl _

/-- After any calls the board differs from the first one only in what may change. -/
theorem Board.Keeps.run {calls : List BoardCall}
    (size : ValidSize board.maze.xDim board.maze.yDim) (run : Run BoardStep board calls after) :
    board.Keeps after := by
  refine run.invariant board.Keeps ?_ (.refl board)
  intro middle call last kept step
  have size' : ValidSize middle.maze.xDim middle.maze.yDim := by
    rwa [kept.same.xDim, kept.same.yDim]
  exact kept.trans (step.keeps size')

theorem Board.Stocked.keeps (stocked : board.Stocked) (kept : board.Keeps after) :
    after.Stocked where
  size := by
    rw [kept.same.xDim, kept.same.yDim]
    exact stocked.size
  count := by
    have count := kept.count
    have before := stocked.count
    omega
  exit place := by
    rw [kept.same.exits, kept.exitX, kept.exitY, kept.same.index]
    exact stocked.exit place
  column := by
    rw [kept.exitX, kept.same.xDim]
    exact stocked.column
  row := by
    rw [kept.exitY, kept.same.yDim]
    exact stocked.row

/-! ## What the invariant says -/

theorem Board.Stocked.nonneg (stocked : board.Stocked) : 0 ≤ board.maze.nFruits := by
  have count := stocked.count
  omega

/-- The player wins only without fruits, at the exit. -/
theorem Board.Stocked.win (stocked : board.Stocked) (won : board.checkForWin x y = 1) :
    (∀ place ∈ arrayPlaces, board.maze.cells place &&& mazeFruit = 0) ∧
      x = board.exitX ∧ y = board.exitY := by
  simp only [Board.checkForWin] at won
  split at won
  · cases won
  next inside =>
    split at won
    next found =>
      obtain ⟨none, exit⟩ := found
      have fruits : board.maze.fruits = 0 := by
        have count := stocked.count
        omega
      have place := (stocked.exit (board.maze.index x y)).mp (by rwa [Maze.cells_index])
      have column := stocked.column
      refine ⟨fun place member => ?_, ?_⟩
      · simpa using census_eq_zero.mp fruits place member
      · exact Maze.index_injective (by omega) (by omega) (by omega) (by omega) place
    · cases won

end

end Ece391.ModeX
