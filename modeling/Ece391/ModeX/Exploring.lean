import Ece391.ModeX.Fruits
import Ece391.ModeX.Level

/-!
# Boards that can be played

What the player needs from a board: a boundary, a way from each square to each other one, fruits
and an exit that lie on squares.  Exploring a board keeps all of that; the walls stay, and fruits
only disappear.
-/

namespace Ece391.ModeX

open Ece391.Library

/-! ## Exploring -/

/-- No cell gains a fruit. -/
def Maze.Eaten (before after : Maze) : Prop :=
  ∀ place, after.cells place &&& mazeFruit ≠ 0 → before.cells place &&& mazeFruit ≠ 0

/-- What unveiling and eating do to a board. -/
structure Board.Explores (before after : Board) : Prop extends Board.Keeps before after where
  eaten : before.maze.Eaten after.maze

section

variable {board before middle after : Board} {x y : Int}

theorem Board.Explores.refl (board : Board) : board.Explores board :=
  ⟨.refl board, fun _ fruit => fruit⟩

theorem Board.Explores.trans (first : before.Explores middle) (second : middle.Explores after) :
    before.Explores after :=
  ⟨first.toKeeps.trans second.toKeeps,
    fun place fruit => first.eaten place (second.eaten place fruit)⟩

/-- Unveiling changes no fruit. -/
theorem Board.unveilSpace_fruit (board : Board) (x y : Int) (place : Int) :
    (board.unveilSpace x y).maze.cells place &&& mazeFruit =
      board.maze.cells place &&& mazeFruit := by
  simp only [Board.unveilSpace]
  split
  · rfl
  · split
    · rfl
    · by_cases here : place = board.maze.index x y
      · subst here
        have kept := (reach_bits (board.maze.point x y)).2.2
        simpa [Board.drawPoint, Board.withMaze, Board.maze, Maze.set, Maze.cells_index] using kept
      · exact congrArg (· &&& mazeFruit) (Function.update_of_ne here _ _)

/-- Eating changes the fruit of one cell. -/
theorem Board.checkForFruit_fruit (board : Board) (x y : Int) (place : Int) :
    (board.checkForFruit x y).2.maze.cells place &&& mazeFruit =
        board.maze.cells place &&& mazeFruit ∨
      (board.checkForFruit x y).2.maze.cells place &&& mazeFruit = 0 := by
  simp only [Board.checkForFruit]
  split
  · exact .inl rfl
  · split
    · by_cases here : place = board.maze.index x y
      · right
        subst here
        have gone := (eaten_bits (board.maze.point x y)).2.2
        split <;> simpa [Board.drawPoint, Board.withMaze, Board.maze, Maze.set] using gone
      · left
        split <;> exact congrArg (· &&& mazeFruit) (Function.update_of_ne here _ _)
    · exact .inl rfl

/-- There is no fruit left where the player has looked for one. -/
theorem Board.checkForFruit_gone (left : 0 ≤ x) (right : x < 2 * board.maze.xDim) (above : 0 ≤ y)
    (below : y < 2 * board.maze.yDim) :
    (board.checkForFruit x y).2.maze.cells (board.maze.index x y) &&& mazeFruit = 0 := by
  simp only [Board.checkForFruit]
  rw [if_neg (by omega)]
  split
  · have gone := (eaten_bits (board.maze.point x y)).2.2
    split <;> simpa [Board.drawPoint, Board.withMaze, Board.maze, Maze.set] using gone
  next none =>
    by_contra fruit
    exact none ((fruit_number (board.maze.point x y)).2.mpr fruit)

theorem Board.unveilSpace_explores (board : Board) (x y : Int) :
    board.Explores (board.unveilSpace x y) where
  toKeeps := unveilSpace_keeps board x y
  eaten place fruit := by rwa [board.unveilSpace_fruit] at fruit

theorem Board.checkForFruit_explores (size : ValidSize board.maze.xDim board.maze.yDim)
    (x y : Int) : board.Explores (board.checkForFruit x y).2 where
  toKeeps := checkForFruit_keeps size x y
  eaten place fruit := by
    rcases board.checkForFruit_fruit x y place with same | gone
    · rwa [same] at fruit
    · exact absurd gone fruit

/-- Unveiling some spaces. -/
theorem Board.unveilSpaces_explores (spaces : List (Int × Int)) (board : Board) :
    board.Explores
        (spaces.foldl (fun board space => board.unveilSpace space.1 space.2) board) ∧
      ∀ place,
        (spaces.foldl (fun board space => board.unveilSpace space.1 space.2) board).maze.cells
            place &&& mazeFruit =
          board.maze.cells place &&& mazeFruit := by
  induction spaces generalizing board with
  | nil => exact ⟨.refl board, fun _ => rfl⟩
  | cons space spaces ih =>
      obtain ⟨explores, fruits⟩ := ih (board.unveilSpace space.1 space.2)
      exact ⟨(board.unveilSpace_explores ..).trans explores,
        fun place => (fruits place).trans (board.unveilSpace_fruit ..)⟩

theorem Board.unveilAroundPlayer_explores (size : ValidSize board.maze.xDim board.maze.yDim)
    (playX playY : Int) : board.Explores (board.unveilAroundPlayer playX playY).2 :=
  (board.checkForFruit_explores size _ _).trans (Board.unveilSpaces_explores _ _).1

/-- The player eats the fruit of the square. -/
theorem Board.unveilAroundPlayer_gone (left : 0 ≤ x) (right : x < 2 * board.maze.xDim)
    (above : 0 ≤ y) (below : y < 2 * board.maze.yDim) :
    (board.unveilAroundPlayer (12 * x) (12 * y)).2.maze.cells (board.maze.index x y) &&&
      mazeFruit = 0 := by
  simp only [Board.unveilAroundPlayer]
  rw [(Board.unveilSpaces_explores _ _).2, Int.mul_tdiv_cancel_left _ (by decide),
    Int.mul_tdiv_cancel_left _ (by decide)]
  exact Board.checkForFruit_gone left right above below

/-! ## Boards for the player -/

/-- A step from a square to another one. -/
def Maze.Adjacent (maze : Maze) (here next : Int × Int) : Prop :=
  ∃ dir : Direction, dir ≠ .stop ∧ next = (here.1 + dir.dx, here.2 + dir.dy) ∧
    maze.Square next.1 next.2

/-- The boundary is walls, the squares are connected, and each fruit and the exit lie on a
square. -/
structure Board.Playable (board : Board) : Prop where
  stocked : board.Stocked
  fenced : board.maze.Fenced
  connected : ∀ x y x' y', board.maze.Square x y → board.maze.Square x' y' →
    Relation.ReflTransGen board.maze.Adjacent (x, y) (x', y')
  exit : board.maze.Square board.exitX board.exitY
  fruits : ∀ place, board.maze.cells place &&& mazeFruit ≠ 0 →
    ∃ x y, board.maze.Square x y ∧ place = board.maze.index x y

theorem SameWalls.symm {before after : Maze} (same : SameWalls before after) :
    SameWalls after before :=
  ⟨same.xDim.symm, same.yDim.symm, fun place => (same.walls place).symm,
    fun place => (same.exits place).symm⟩

theorem Board.Playable.explores (playable : before.Playable) (explores : before.Explores after) :
    after.Playable where
  stocked := playable.stocked.keeps explores.toKeeps
  fenced := explores.same.fenced playable.fenced
  connected x y x' y' here there := by
    refine Relation.ReflTransGen.mono ?_ _ _ (playable.connected x y x' y'
      (explores.same.symm.square here) (explores.same.symm.square there))
    rintro first last ⟨dir, moving, next, square⟩
    exact ⟨dir, moving, next, explores.same.square square⟩
  exit := by
    rw [explores.exitX, explores.exitY]
    exact explores.same.square playable.exit
  fruits place fruit := by
    obtain ⟨x, y, square, here⟩ := playable.fruits place (explores.eaten place fruit)
    exact ⟨x, y, explores.same.square square, here.trans (explores.same.index x y).symm⟩

end

end Ece391.ModeX
