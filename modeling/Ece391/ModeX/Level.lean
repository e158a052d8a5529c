import Ece391.ModeX.Board
import Ece391.ModeX.ShowScreen

/-!
# The level loop

`rtc_thread` moves the player by at most one pixel a tick.  Between two maze squares the
player can only turn back; at a square the loop unveils what is around, looks for the open
directions and takes the requested one if it can.  `next_dir` is set by the other threads, so
each tick has its own.

The invariant ties the two coordinates, the direction and the pixels left to two squares that
are not walls.
-/

namespace Ece391.ModeX

open Ece391.Library

/-- The variables of `rtc_thread` within a level, and what its calls read and write. -/
structure Level where
  game : Game
  exitX : Int
  exitY : Int
  screen : Screen
  playX : Int
  playY : Int
  moveCnt : Int
  dir : Direction
  lastDir : Direction
  oldValueBuf : Int → UInt8
  gotoNextLevel : Bool

/-- The number of a direction in `dir_t`. -/
def Direction.number : Direction → Int
  | .up => 0
  | .right => 1
  | .down => 2
  | .left => 3
  | .stop => 4

def blockPlayerUp : Int := 18

def blockPlayerMaskUp : Int := 22

/-- `unveil_around_player`: whether the player has won, and the board. -/
def Board.unveilAroundPlayer (board : Board) (playX playY : Int) : Int × Board :=
  let x := playX.tdiv 12
  let y := playY.tdiv 12
  let board := (board.checkForFruit x y).2
  let around := [-1, 0, 1].flatMap fun i => [-1, 0, 1].map fun j => (x + i, y + j)
  let spaces := around ++ [(x, y - 2), (x + 2, y), (x, y + 2), (x - 2, y)]
  let board := spaces.foldl (fun board space => board.unveilSpace space.1 space.2) board
  (board.checkForWin x y, board)

namespace Level

def maze (level : Level) : Maze :=
  level.game.scene.maze

/-- What the operations on the maze work on. -/
def board (level : Level) : Board :=
  ⟨level.game.scene, level.game.view, level.exitX, level.exitY⟩

def withBoard (level : Level) (board : Board) : Level :=
  { level with
    game := { level.game with scene := board.scene, view := board.view }
    exitX := board.exitX
    exitY := board.exitY }

/-- The player is drawn, the screen shown, and the player undrawn. -/
def showPlayer (level : Level) : Level :=
  let blocks := level.game.scene.blocks
  let drawn := drawMaskBlock level.playX level.playY
    (fun offset => blocks (blockImage (blockPlayerUp + level.lastDir.number) + offset))
    (fun offset => blocks (blockImage (blockPlayerMaskUp + level.lastDir.number) + offset))
    level.oldValueBuf level.game.view
  { level with
    game :=
      { level.game with view := drawFullBlock level.playX level.playY drawn.2 drawn.1 }
    screen := showScreen drawn.1 level.screen
    oldValueBuf := drawn.2 }

/-- The level after `unveil_around_player`, whose result is not looked at. -/
def unveiled (level : Level) : Level :=
  level.withBoard (level.board.unveilAroundPlayer level.playX level.playY).2

/-- The variables at the start of a level that `prepare_maze_level` has prepared. -/
def entered (game : Game) (exitX exitY : Int) (screen : Screen) (oldValueBuf : Int → UInt8) :
    Level where
  game := game
  exitX := exitX
  exitY := exitY
  screen := screen
  playX := 12
  playY := 12
  moveCnt := 0
  dir := .stop
  lastDir := .up
  oldValueBuf := oldValueBuf
  gotoNextLevel := false

/-- The level before the first tick. -/
def start (game : Game) (exitX exitY : Int) (screen : Screen) (oldValueBuf : Int → UInt8) :
    Level :=
  (entered game exitX exitY screen oldValueBuf).unveiled.showPlayer

/-- A requested direction that is the opposite of the current one is taken at once. -/
def turnBack (level : Level) (nextDir : Direction) : Level :=
  if nextDir ≠ level.dir ∧
      ((level.dir = .up ∧ nextDir = .down) ∨ (level.dir = .down ∧ nextDir = .up) ∨
        (level.dir = .left ∧ nextDir = .right) ∨ (level.dir = .right ∧ nextDir = .left)) then
    { level with
      moveCnt := if level.moveCnt > 0 then 12 - level.moveCnt else level.moveCnt
      dir := nextDir }
  else level

/-- The choice of a direction on a maze square: `next_dir` if it is open, else the current one
if that is. -/
def setOut (level : Level) (op : Direction → Bool) (nextDir : Direction) : Level :=
  let dir := if op nextDir then nextDir else level.dir
  if dir ≠ .stop then
    if op dir then { level with dir := dir, moveCnt := 12 } else { level with dir := .stop }
  else { level with dir := dir }

/-- What happens on a new maze square.  `behind` is what `open[DIR_STOP]` reads. -/
def arrive (level : Level) (nextDir : Direction) (behind : Bool) : Level :=
  if level.moveCnt = 0 then
    let unveiled := level.board.unveilAroundPlayer level.playX level.playY
    let level := level.withBoard unveiled.2
    if unveiled.1 ≠ 0 then
      { level with gotoNextLevel := true, screen := showScreen level.game.view level.screen }
    else
      level.setOut
        (findOpenDirections level.maze (level.playX.tdiv 12) (level.playY.tdiv 12) behind) nextDir
  else level

/-- The move in the current direction. -/
def advance (level : Level) : Level :=
  let level := { level with lastDir := level.dir, moveCnt := level.moveCnt - 1 }
  match level.dir with
  | .up =>
      let moved := level.game.moveUp level.playY
      { level with playY := moved.1, game := moved.2 }
  | .right =>
      let moved := level.game.moveRight level.playX
      { level with playX := moved.1, game := moved.2 }
  | .down =>
      let moved := level.game.moveDown level.playY
      { level with playY := moved.1, game := moved.2 }
  | .left =>
      let moved := level.game.moveLeft level.playX
      { level with playX := moved.1, game := moved.2 }
  | .stop => level

/-- One tick. -/
def tick (level : Level) (nextDir : Direction) (behind : Bool) : Level :=
  let level := (level.turnBack nextDir).arrive nextDir behind
  if level.gotoNextLevel then level
  else
    let level := level.showPlayer
    if level.dir ≠ .stop then level.advance.showPlayer else level

end Level

/-- The requested direction of a tick, and what the read behind `open` gives in it. -/
structure Tick where
  nextDir : Direction
  behind : Bool

/-- A tick of a level that has not been won. -/
def TickStep (before : Level) (tick : Tick) (after : Level) : Prop :=
  before.gotoNextLevel = false ∧ after = before.tick tick.nextDir tick.behind

/-! ## Squares -/

/-- The square before or behind another in a direction. -/
def Direction.dx : Direction → Int
  | .right => 1
  | .left => -1
  | .up | .down | .stop => 0

def Direction.dy : Direction → Int
  | .down => 1
  | .up => -1
  | .left | .right | .stop => 0

section

variable {maze : Maze} {x y : Int} {dir : Direction} {behind : Bool}

/-- A direction goes along one axis. -/
theorem Direction.axis (dir : Direction) :
    (dir.dx = 0 ∧ -1 ≤ dir.dy ∧ dir.dy ≤ 1) ∨ (dir.dy = 0 ∧ -1 ≤ dir.dx ∧ dir.dx ≤ 1) := by
  cases dir <;> simp [Direction.dx, Direction.dy]

/-- An open direction leads to a square. -/
theorem Maze.Square.next (square : maze.Square x y) (fenced : maze.Fenced)
    (moving : dir ≠ .stop) (opened : findOpenDirections maze x y behind dir = true) :
    maze.Square (x + dir.dx) (y + dir.dy) := by
  obtain ⟨column, row, -⟩ := square
  have clear : maze.point (x + dir.dx) (y + dir.dy) &&& mazeWall = 0 := by
    cases dir with
    | stop => exact absurd rfl moving
    | up | right | down | left =>
        simpa [findOpenDirections, Direction.dx, Direction.dy, Int.sub_eq_add_neg] using opened
  have steps := dir.axis
  exact fenced.inside (by omega) (by omega) (by omega) (by omega) (by omega) clear

end

/-! ## The invariant -/

/-- The player is `moveCnt` pixels short of a square, and comes from the square before it. -/
structure Level.Approaches (level : Level) (x y : Int) : Prop where
  playX : level.playX = 12 * x - level.moveCnt * level.dir.dx
  playY : level.playY = 12 * y - level.moveCnt * level.dir.dy
  count : 0 ≤ level.moveCnt ∧ level.moveCnt ≤ 12
  square : level.maze.Square x y
  origin : 0 < level.moveCnt → level.maze.Square (x - level.dir.dx) (y - level.dir.dy)
  stopped : level.dir = .stop → level.moveCnt = 0

section

variable {level : Level} {x y : Int} {nextDir : Direction} {behind : Bool} {board : Board}

theorem unveilAroundPlayer_same (board : Board) (playX playY : Int) :
    SameWalls board.maze (board.unveilAroundPlayer playX playY).2.maze := by
  have unveiled (spaces : List (Int × Int)) (board : Board) : SameWalls board.maze
      (spaces.foldl (fun board space => board.unveilSpace space.1 space.2) board).maze := by
    induction spaces generalizing board with
    | nil => exact .refl _
    | cons space rest ih => exact (unveilSpace_same board space.1 space.2).trans (ih _)
  exact (checkForFruit_same board _ _).trans (unveiled _ _)

theorem Level.unveiled_same (level : Level) : SameWalls level.maze level.unveiled.maze :=
  unveilAroundPlayer_same level.board level.playX level.playY

theorem Level.Approaches.standing (playX : level.playX = 12 * x) (playY : level.playY = 12 * y)
    (count : level.moveCnt = 0) (square : level.maze.Square x y) : level.Approaches x y where
  playX := by
    rw [playX, count]
    omega
  playY := by
    rw [playY, count]
    omega
  count := by omega
  square := square
  origin moving := by omega
  stopped _ := count

theorem Direction.opposite {dir nextDir : Direction}
    (opposite : (dir = .up ∧ nextDir = .down) ∨ (dir = .down ∧ nextDir = .up) ∨
      (dir = .left ∧ nextDir = .right) ∨ (dir = .right ∧ nextDir = .left)) :
    nextDir.dx = -dir.dx ∧ nextDir.dy = -dir.dy ∧ nextDir ≠ .stop := by
  rcases opposite with ⟨rfl, rfl⟩ | ⟨rfl, rfl⟩ | ⟨rfl, rfl⟩ | ⟨rfl, rfl⟩ <;>
    simp [Direction.dx, Direction.dy]

/-- Turning back exchanges the two squares. -/
theorem Level.Approaches.turnBack (approaches : level.Approaches x y) (nextDir : Direction) :
    ∃ x y, (level.turnBack nextDir).Approaches x y := by
  obtain ⟨playX, playY, count, square, origin, stopped⟩ := approaches
  simp only [Level.turnBack]
  split
  next turning =>
    obtain ⟨dx, dy, moving⟩ := Direction.opposite turning.2
    by_cases between : level.moveCnt > 0
    · refine ⟨x - level.dir.dx, y - level.dir.dy, ?_⟩
      constructor
      case playX =>
        simp only [if_pos between, dx, playX]
        ring
      case playY =>
        simp only [if_pos between, dy, playY]
        ring
      case count =>
        simp only [if_pos between]
        omega
      case square => exact origin between
      case origin =>
        intro _
        simp only [dx, dy, Int.sub_neg, Int.sub_add_cancel]
        exact square
      case stopped => exact fun stop => absurd stop moving
    · have zero : level.moveCnt = 0 := by omega
      rw [zero] at playX playY
      exact ⟨x, y, .standing (by simpa using playX) (by simpa using playY) (by simp [zero]) square⟩
  · exact ⟨x, y, playX, playY, count, square, origin, stopped⟩

/-- The player stops or sets out in an open direction. -/
theorem Level.setOut_cases (level : Level) (op : Direction → Bool) (nextDir : Direction) :
    level.setOut op nextDir = { level with dir := .stop } ∨
      ∃ dir, dir ≠ .stop ∧ op dir = true ∧
        level.setOut op nextDir = { level with dir := dir, moveCnt := 12 } := by
  simp only [Level.setOut]
  generalize (if op nextDir = true then nextDir else level.dir) = dir
  by_cases moving : dir = .stop
  · subst moving
    exact .inl rfl
  · rw [if_pos moving]
    by_cases opened : op dir = true
    · rw [if_pos opened]
      exact .inr ⟨dir, moving, opened, rfl⟩
    · rw [if_neg opened]
      exact .inl rfl

/-- Between squares nothing happens; on one the level is won, or the player stops or sets out
in an open direction. -/
theorem Level.arrive_cases (level : Level) (nextDir : Direction) (behind : Bool) :
    (level.moveCnt ≠ 0 ∧ level.arrive nextDir behind = level) ∨
      level.moveCnt = 0 ∧
        ((∃ screen, level.arrive nextDir behind =
            { level.unveiled with gotoNextLevel := true, screen := screen }) ∨
          level.arrive nextDir behind = { level.unveiled with dir := .stop } ∨
          ∃ dir, dir ≠ .stop ∧
            findOpenDirections level.unveiled.maze (level.playX.tdiv 12) (level.playY.tdiv 12)
              behind dir = true ∧
            level.arrive nextDir behind = { level.unveiled with dir := dir, moveCnt := 12 }) := by
  simp only [Level.arrive]
  split
  next zero =>
    refine .inr ⟨zero, ?_⟩
    split
    · exact .inl ⟨_, rfl⟩
    · exact .inr (Level.setOut_cases level.unveiled _ nextDir)
  next between => exact .inl ⟨between, rfl⟩

/-- On a square the player stays or sets out for an open one. -/
theorem Level.Approaches.arrive (approaches : level.Approaches x y)
    (fenced : level.maze.Fenced) (nextDir : Direction) (behind : Bool) :
    ∃ x y, (level.arrive nextDir behind).Approaches x y := by
  rcases level.arrive_cases nextDir behind with ⟨-, same⟩ | ⟨zero, arrived⟩
  · exact ⟨x, y, same.symm ▸ approaches⟩
  · have same : SameWalls level.maze level.unveiled.maze :=
      unveilAroundPlayer_same level.board level.playX level.playY
    have playX := approaches.playX
    have playY := approaches.playY
    rw [zero, Int.zero_mul, Int.sub_zero] at playX playY
    have square := same.square approaches.square
    rcases arrived with ⟨screen, won⟩ | stays | ⟨dir, moving, opened, leaves⟩
    · exact ⟨x, y, won ▸ .standing playX playY zero square⟩
    · exact ⟨x, y, stays ▸ .standing playX playY zero square⟩
    · rw [playX, playY, Int.mul_tdiv_cancel_left _ (by decide),
        Int.mul_tdiv_cancel_left _ (by decide)] at opened
      refine ⟨x + dir.dx, y + dir.dy, ?_⟩
      rw [leaves]
      constructor
      case playX =>
        change level.playX = _
        rw [playX]
        ring
      case playY =>
        change level.playY = _
        rw [playY]
        ring
      case count => simp
      case square => exact square.next (same.fenced fenced) moving opened
      case origin =>
        intro _
        simp only [Int.add_sub_cancel]
        exact square
      case stopped => exact fun stop => absurd stop moving

/-- A player who moves has not come to the end of a move. -/
theorem Level.Approaches.arrive_moving (approaches : level.Approaches x y)
    (playing : (level.arrive nextDir behind).gotoNextLevel = false)
    (moving : (level.arrive nextDir behind).dir ≠ .stop) :
    0 < (level.arrive nextDir behind).moveCnt := by
  have count := approaches.count
  rcases level.arrive_cases nextDir behind with ⟨between, same⟩ | ⟨-, arrived⟩
  · rw [same]
    omega
  · rcases arrived with ⟨screen, won⟩ | stays | ⟨dir, -, -, leaves⟩
    · rw [won] at playing
      cases playing
    · rw [stays] at moving
      exact absurd rfl moving
    · rw [leaves]
      simp

/-- The coordinate after each of the four moves. -/
theorem Game.moves_coordinate (game : Game) (pos : Int) :
    (game.moveUp pos).1 = pos - 1 ∧ (game.moveRight pos).1 = pos + 1 ∧
      (game.moveDown pos).1 = pos + 1 ∧ (game.moveLeft pos).1 = pos - 1 := by
  simp only [Game.moveUp, Game.moveRight, Game.moveDown, Game.moveLeft]
  refine ⟨?_, ?_, ?_, ?_⟩ <;> split <;> rfl

/-- A move goes one pixel in the current direction, and leaves the maze alone. -/
theorem Level.advance_spec (level : Level) (moving : level.dir ≠ .stop) :
    level.advance.playX = level.playX + level.dir.dx ∧
      level.advance.playY = level.playY + level.dir.dy ∧
      level.advance.dir = level.dir ∧ level.advance.moveCnt = level.moveCnt - 1 ∧
      level.advance.maze = level.maze := by
  obtain ⟨up, -, -, -⟩ := level.game.moves_coordinate level.playY
  obtain ⟨-, right, -, -⟩ := level.game.moves_coordinate level.playX
  obtain ⟨-, -, down, -⟩ := level.game.moves_coordinate level.playY
  obtain ⟨-, -, -, left⟩ := level.game.moves_coordinate level.playX
  cases way : level.dir with
  | stop => exact absurd way moving
  | up =>
      have scene := level.game.move_scene (.up level.playY)
      simp only [Level.advance, way, Direction.dx, Direction.dy]
      exact ⟨by omega, up, trivial, trivial, congrArg Scene.maze scene⟩
  | right =>
      have scene := level.game.move_scene (.right level.playX)
      simp only [Level.advance, way, Direction.dx, Direction.dy]
      exact ⟨right, by omega, trivial, trivial, congrArg Scene.maze scene⟩
  | down =>
      have scene := level.game.move_scene (.down level.playY)
      simp only [Level.advance, way, Direction.dx, Direction.dy]
      exact ⟨by omega, down, trivial, trivial, congrArg Scene.maze scene⟩
  | left =>
      have scene := level.game.move_scene (.left level.playX)
      simp only [Level.advance, way, Direction.dx, Direction.dy]
      exact ⟨left, by omega, trivial, trivial, congrArg Scene.maze scene⟩

/-- Each move brings the player one pixel closer. -/
theorem Level.Approaches.advance (approaches : level.Approaches x y)
    (moving : level.dir ≠ .stop) (left : 0 < level.moveCnt) :
    level.advance.Approaches x y := by
  obtain ⟨playX, playY, dir, moveCnt, maze⟩ := level.advance_spec moving
  have count := approaches.count
  constructor
  case playX =>
    rw [playX, dir, moveCnt, approaches.playX]
    ring
  case playY =>
    rw [playY, dir, moveCnt, approaches.playY]
    ring
  case count => omega
  case square => exact maze ▸ approaches.square
  case origin =>
    intro _
    rw [maze, dir]
    exact approaches.origin left
  case stopped => exact fun stop => absurd (dir ▸ stop) moving

theorem Level.showPlayer_maze (level : Level) : level.showPlayer.maze = level.maze :=
  rfl

theorem Level.Approaches.showPlayer (approaches : level.Approaches x y) :
    level.showPlayer.Approaches x y :=
  ⟨approaches.playX, approaches.playY, approaches.count, approaches.square, approaches.origin,
    approaches.stopped⟩

/-- The player's block lies on the two squares. -/
theorem Level.Approaches.block (approaches : level.Approaches x y) {i j : Int} (left : 0 ≤ i)
    (right : i < 12) (above : 0 ≤ j) (below : j < 12) :
    level.maze.Square ((level.playX + i) / 12) ((level.playY + j) / 12) := by
  obtain ⟨playX, playY, count, square, origin, stopped⟩ := approaches
  cases way : level.dir with
  | stop =>
      rw [stopped way, Int.zero_mul] at playX playY
      have column : (level.playX + i) / 12 = x := by omega
      have row : (level.playY + j) / 12 = y := by omega
      rw [column, row]
      exact square
  | up | down =>
      simp only [way, Direction.dx, Direction.dy] at playX playY origin
      have column : (level.playX + i) / 12 = x := by omega
      by_cases ahead : (level.playY + j) / 12 = y
      · rw [column, ahead]
        exact square
      · have behind := origin (by omega)
        rw [column]
        convert behind using 1 <;> omega
  | left | right =>
      simp only [way, Direction.dx, Direction.dy] at playX playY origin
      have row : (level.playY + j) / 12 = y := by omega
      by_cases ahead : (level.playX + i) / 12 = x
      · rw [row, ahead]
        exact square
      · have behind := origin (by omega)
        rw [row]
        convert behind using 1 <;> omega

/-- The player is on a line of the lattice. -/
theorem Level.Approaches.line (approaches : level.Approaches x y) :
    12 ∣ level.playX ∨ 12 ∣ level.playY := by
  obtain ⟨playX, playY, -⟩ := approaches
  rcases level.dir.axis with ⟨vertical, -⟩ | ⟨horizontal, -⟩
  · rw [vertical] at playX
    omega
  · rw [horizontal] at playY
    omega

end

/-! ## Runs -/

/-- What holds between the ticks. -/
def Level.Walks (level : Level) : Prop :=
  level.maze.Fenced ∧ ∃ x y, level.Approaches x y

/-- The states that a tick goes through. -/
def Level.during (level : Level) (tick : Tick) : List Level :=
  [level, level.turnBack tick.nextDir,
    (level.turnBack tick.nextDir).arrive tick.nextDir tick.behind,
    level.tick tick.nextDir tick.behind]

section

variable {level : Level}

theorem Level.turnBack_maze (level : Level) (nextDir : Direction) :
    (level.turnBack nextDir).maze = level.maze := by
  simp only [Level.turnBack]
  split <;> rfl

theorem Level.arrive_same (level : Level) (nextDir : Direction) (behind : Bool) :
    SameWalls level.maze (level.arrive nextDir behind).maze := by
  have same := level.unveiled_same
  rcases level.arrive_cases nextDir behind with
    ⟨-, stays⟩ | ⟨-, ⟨screen, won⟩ | stays | ⟨dir, -, -, leaves⟩⟩
  · rw [stays]
    exact .refl _
  · rw [won]
    exact same
  · rw [stays]
    exact same
  · rw [leaves]
    exact same

theorem Level.Walks.during (walks : level.Walks) (tick : Tick) :
    ∀ state ∈ level.during tick, state.Walks := by
  obtain ⟨fenced, x, y, approaches⟩ := walks
  obtain ⟨x', y', turned⟩ := approaches.turnBack tick.nextDir
  have fenced' : (level.turnBack tick.nextDir).maze.Fenced :=
    (level.turnBack_maze tick.nextDir).symm ▸ fenced
  obtain ⟨x'', y'', arrived⟩ := turned.arrive fenced' tick.nextDir tick.behind
  have fenced'' := (Level.arrive_same _ tick.nextDir tick.behind).fenced fenced'
  simp only [Level.during, List.mem_cons, List.not_mem_nil, or_false]
  rintro state (rfl | rfl | rfl | rfl)
  · exact ⟨fenced, x, y, approaches⟩
  · exact ⟨fenced', x', y', turned⟩
  · exact ⟨fenced'', x'', y'', arrived⟩
  · simp only [Level.tick]
    split
    · exact ⟨fenced'', x'', y'', arrived⟩
    next playing =>
      split
      next moving =>
        have left := turned.arrive_moving (by simpa using playing) moving
        have advanced := arrived.showPlayer.advance moving left
        refine ⟨?_, x'', y'', advanced.showPlayer⟩
        have maze := (Level.advance_spec _ moving).2.2.2.2
        exact maze.symm ▸ fenced''
      · exact ⟨fenced'', x'', y'', arrived.showPlayer⟩

theorem TickStep.walks {tick : Tick} {after : Level} (step : TickStep level tick after)
    (walks : level.Walks) : after.Walks := by
  rw [step.2]
  exact walks.during tick _ (by simp [Level.during])

theorem Level.start_walks {game : Game} (fenced : game.scene.maze.Fenced)
    (square : game.scene.maze.Square 1 1) (exitX exitY : Int) (screen : Screen)
    (oldValueBuf : Int → UInt8) : (Level.start game exitX exitY screen oldValueBuf).Walks := by
  have same := (Level.entered game exitX exitY screen oldValueBuf).unveiled_same
  have initial : (Level.entered game exitX exitY screen oldValueBuf).unveiled.Approaches 1 1 :=
    .standing rfl rfl rfl (same.square square)
  rw [Level.start, Level.Walks, Level.showPlayer_maze]
  exact ⟨same.fenced fenced, 1, 1, initial.showPlayer⟩

end

/-- In a maze with its boundary, with the player on the open square (1,1) at first, in every
state of the level loop the player is `move_cnt` pixels short of an open square, in the
current direction from the open square before it; so the block of the player, which is on a
line of the lattice, covers only squares inside the boundary that are not walls. -/
theorem player_keeps_to_squares {game : Game} {exitX exitY : Int} {screen : Screen}
    {oldValueBuf : Int → UInt8} {ticks : List Tick} {level state : Level} {tick : Tick}
    (fenced : game.scene.maze.Fenced) (square : game.scene.maze.Square 1 1)
    (run : Run TickStep (Level.start game exitX exitY screen oldValueBuf) ticks level)
    (visited : state ∈ level.during tick) :
    (∃ x y, state.playX = 12 * x - state.moveCnt * state.dir.dx ∧
      state.playY = 12 * y - state.moveCnt * state.dir.dy ∧
      0 ≤ state.moveCnt ∧ state.moveCnt ≤ 12 ∧ state.maze.Square x y ∧
      (0 < state.moveCnt → state.dir ≠ .stop ∧
        state.maze.Square (x - state.dir.dx) (y - state.dir.dy))) ∧
    (12 ∣ state.playX ∨ 12 ∣ state.playY) ∧
    ∀ i j, 0 ≤ i → i < 12 → 0 ≤ j → j < 12 →
      state.maze.Square ((state.playX + i) / 12) ((state.playY + j) / 12) := by
  have walks := run.invariant Level.Walks (fun _ _ _ walks step => step.walks walks)
    (Level.start_walks fenced square exitX exitY screen oldValueBuf)
  obtain ⟨-, x, y, approaches⟩ := walks.during tick state visited
  refine ⟨⟨x, y, approaches.playX, approaches.playY, approaches.count.1, approaches.count.2,
    approaches.square, fun moving => ⟨fun stop => ?_, approaches.origin moving⟩⟩,
    approaches.line, fun i j left right above below => approaches.block left right above below⟩
  have count := approaches.stopped stop
  omega

/-- A maze of the least size without inner walls. -/
def openRoom : Maze where
  cells place := if place % 28 = 0 ∨ place / 28 ≤ 1 ∨ place / 28 ≥ 17 then 1 else 0
  xDim := 14
  yDim := 8
  nFruits := 0

theorem openRoom_wall {x y : Int}
    (edge : (x + (y + 1) * 28) % 28 = 0 ∨ (x + (y + 1) * 28) / 28 ≤ 1 ∨
      (x + (y + 1) * 28) / 28 ≥ 17) : openRoom.point x y &&& mazeWall ≠ 0 := by
  have wall : openRoom.point x y = 1 := by
    simp only [Maze.point, openRoom]
    rw [if_pos (by omega)]
  rw [wall]
  decide

theorem openRoom_fenced : openRoom.Fenced where
  top x left right := by
    simp only [openRoom] at right
    exact openRoom_wall (by omega)
  bottom x left right := by
    simp only [openRoom] at right
    refine openRoom_wall ?_
    simp only [openRoom]
    omega
  side y above below := openRoom_wall (by omega)

/-- The level loop in the room, before the first tick. -/
def roomLevel : Level :=
  Level.start ⟨14, 8, 6, 6, ⟨openRoom, fun _ => 0, fun _ => 0⟩, setModeX fun _ => 0⟩ 3 3
    (.setModeX ⟨fun _ _ => 0, 0, 0, 0⟩) fun _ => 0

/-- A tick that requests to go right. -/
theorem player_keeps_to_squares_right :
    ∃ level, Run TickStep roomLevel [⟨.right, false⟩] level ∧
      level.maze.Square ((level.playX + 11) / 12) ((level.playY + 11) / 12) := by
  have square : openRoom.Square 1 1 := ⟨by decide, by decide, by decide⟩
  have run : Run TickStep roomLevel [⟨.right, false⟩] (roomLevel.tick .right false) :=
    .single ⟨rfl, rfl⟩
  have visited : roomLevel.tick .right false ∈
      (roomLevel.tick .right false).during ⟨.right, false⟩ :=
    List.mem_cons_self
  obtain ⟨-, -, covered⟩ := player_keeps_to_squares openRoom_fenced square run visited
  exact ⟨_, run, covered 11 11 (by decide) (by decide) (by decide) (by decide)⟩

end Ece391.ModeX
