import Ece391.Library.Steering
import Ece391.ModeX.Exploring

/-!
# Winning a level

From a square the player can be moved to each square next to it in twelve ticks, and a tick on a
square eats its fruit.  So on a board that can be played the fruits can be eaten one after another,
and then the level is won on the exit.  What is read behind `open` never matters, as the player
always asks for a direction.
-/

namespace Ece391.ModeX

open Ece391.Library

/-- A goal of the player. -/
def Level.CanReach (goal : Level → Prop) (level : Level) : Prop :=
  Steerable TickStep Tick.nextDir goal level

/-- The player stands on a square of a level that has not been won. -/
structure Level.Stands (level : Level) (x y : Int) : Prop where
  playX : level.playX = 12 * x
  playY : level.playY = 12 * y
  count : level.moveCnt = 0
  playing : level.gotoNextLevel = false

/-! ## Ticks -/

section

variable {level state : Level} {x y : Int} {nextDir : Direction} {behind : Bool}

theorem findOpenDirections_behind {maze : Maze} {dir : Direction} (moving : dir ≠ .stop)
    (behind other : Bool) :
    findOpenDirections maze x y behind dir = findOpenDirections maze x y other dir := by
  cases dir with
  | stop => exact absurd rfl moving
  | up | right | down | left => rfl

/-- A request of a direction hides what is read behind `open`. -/
theorem Level.setOut_behind {maze : Maze} (level : Level) (moving : nextDir ≠ .stop)
    (behind other : Bool) :
    level.setOut (findOpenDirections maze x y behind) nextDir =
      level.setOut (findOpenDirections maze x y other) nextDir := by
  simp only [Level.setOut, findOpenDirections_behind moving behind other]
  generalize (if findOpenDirections maze x y other nextDir = true then nextDir else level.dir) = dir
  by_cases still : dir = .stop
  · rw [if_neg (not_not.mpr still), if_neg (not_not.mpr still)]
  · rw [findOpenDirections_behind still behind other]

theorem Level.tick_behind (level : Level) (moving : nextDir ≠ .stop) (behind other : Bool) :
    level.tick nextDir behind = level.tick nextDir other := by
  have arrived : (level.turnBack nextDir).arrive nextDir behind =
      (level.turnBack nextDir).arrive nextDir other := by
    simp only [Level.arrive]
    rw [Level.setOut_behind _ moving behind other]
  simp only [Level.tick, arrived]

/-- The player can make a tick with a direction. -/
theorem Level.CanReach.tick {goal : Level → Prop} (playing : level.gotoNextLevel = false)
    (moving : nextDir ≠ .stop) (rest : (level.tick nextDir false).CanReach goal) :
    level.CanReach goal :=
  Steerable.choose (fun _ chosen => ⟨playing, chosen ▸ level.tick_behind (chosen ▸ moving) ..⟩)
    rest

/-- Turning back changes the direction and the pixels left. -/
theorem Level.turnBack_kept (level : Level) (nextDir : Direction) :
    ∃ moveCnt dir, level.turnBack nextDir = { level with moveCnt := moveCnt, dir := dir } ∧
      (level.moveCnt = 0 → moveCnt = 0) := by
  simp only [Level.turnBack]
  split
  · refine ⟨_, _, rfl, fun zero => ?_⟩
    rw [zero]
    rfl
  · exact ⟨level.moveCnt, level.dir, rfl, id⟩

theorem Board.Explores.of_same {before after : Board} (maze : after.maze = before.maze)
    (exitX : after.exitX = before.exitX) (exitY : after.exitY = before.exitY) :
    before.Explores after where
  same := maze ▸ .refl _
  exitX := exitX
  exitY := exitY
  count := by rw [maze]
  eaten place fruit := by rwa [maze] at fruit

/-- A move changes nothing of the board but the view. -/
theorem Level.advance_explores (level : Level) : level.board.Explores level.advance.board := by
  cases way : level.dir with
  | stop =>
      simp only [Level.advance, way]
      exact .of_same rfl rfl rfl
  | up =>
      simp only [Level.advance, way]
      exact .of_same (congrArg Scene.maze (level.game.move_scene (.up level.playY))) rfl rfl
  | right =>
      simp only [Level.advance, way]
      exact .of_same (congrArg Scene.maze (level.game.move_scene (.right level.playX))) rfl rfl
  | down =>
      simp only [Level.advance, way]
      exact .of_same (congrArg Scene.maze (level.game.move_scene (.down level.playY))) rfl rfl
  | left =>
      simp only [Level.advance, way]
      exact .of_same (congrArg Scene.maze (level.game.move_scene (.left level.playX))) rfl rfl

theorem Level.showPlayer_explores (level : Level) :
    level.board.Explores level.showPlayer.board :=
  .of_same rfl rfl rfl

theorem Level.unveiled_explores (level : Level)
    (size : ValidSize level.board.maze.xDim level.board.maze.yDim) :
    level.board.Explores level.unveiled.board :=
  Board.unveilAroundPlayer_explores size level.playX level.playY

/-- What a tick does after the player has arrived. -/
theorem Level.tick_arrived (level : Level) (nextDir : Direction) (behind : Bool) :
    ((level.turnBack nextDir).arrive nextDir behind).board.Explores
        (level.tick nextDir behind).board ∧
      (level.tick nextDir behind).maze =
        ((level.turnBack nextDir).arrive nextDir behind).maze ∧
      (level.tick nextDir behind).gotoNextLevel =
        ((level.turnBack nextDir).arrive nextDir behind).gotoNextLevel := by
  simp only [Level.tick]
  generalize (level.turnBack nextDir).arrive nextDir behind = arrived
  split
  · exact ⟨.refl _, rfl, rfl⟩
  · split
    next moving =>
      have moved := Level.advance_spec arrived.showPlayer moving
      have won : arrived.showPlayer.advance.gotoNextLevel = arrived.gotoNextLevel := by
        simp only [Level.advance]
        split <;> rfl
      have explores := arrived.showPlayer_explores.trans arrived.showPlayer.advance_explores
      exact ⟨explores.trans (Level.showPlayer_explores _), moved.2.2.2.2, won⟩
    · exact ⟨arrived.showPlayer_explores, rfl, rfl⟩

theorem Level.arrive_explores (level : Level)
    (size : ValidSize level.board.maze.xDim level.board.maze.yDim) (nextDir : Direction)
    (behind : Bool) : level.board.Explores (level.arrive nextDir behind).board := by
  have unveiled := level.unveiled_explores size
  rcases level.arrive_cases nextDir behind with
    ⟨-, same⟩ | ⟨-, ⟨screen, won⟩ | stays | ⟨dir, -, -, leaves⟩⟩
  · rw [same]
    exact .refl _
  · rw [won]
    exact unveiled
  · rw [stays]
    exact unveiled
  · rw [leaves]
    exact unveiled

/-- A tick explores. -/
theorem Level.tick_explores (level : Level)
    (size : ValidSize level.board.maze.xDim level.board.maze.yDim) (nextDir : Direction)
    (behind : Bool) : level.board.Explores (level.tick nextDir behind).board := by
  have arrived := (level.tick_arrived nextDir behind).1
  obtain ⟨moveCnt, dir, turned, -⟩ := level.turnBack_kept nextDir
  rw [turned] at arrived
  exact (Level.arrive_explores { level with moveCnt := moveCnt, dir := dir } size nextDir
    behind).trans arrived

/-- On a square the player wins, or looks for an open direction. -/
theorem Level.arrive_square (zero : level.moveCnt = 0) (nextDir : Direction) (behind : Bool) :
    ((level.board.unveilAroundPlayer level.playX level.playY).1 ≠ 0 ∧
        ∃ screen, level.arrive nextDir behind =
          { level.unveiled with gotoNextLevel := true, screen := screen }) ∨
      (level.board.unveilAroundPlayer level.playX level.playY).1 = 0 ∧
        level.arrive nextDir behind =
          level.unveiled.setOut
            (findOpenDirections level.unveiled.maze (level.playX.tdiv 12) (level.playY.tdiv 12)
              behind) nextDir := by
  rw [Level.arrive, if_pos zero]
  by_cases wins : (level.board.unveilAroundPlayer level.playX level.playY).1 = 0
  · exact .inr ⟨wins, if_neg (not_not.mpr wins)⟩
  · exact .inl ⟨wins, _, if_pos wins⟩

/-- What is left of the level when the player has set out. -/
theorem Level.setOut_kept (level : Level) (op : Direction → Bool) (nextDir : Direction) :
    (level.setOut op nextDir).maze = level.maze ∧
      (level.setOut op nextDir).gotoNextLevel = level.gotoNextLevel := by
  rcases level.setOut_cases op nextDir with stays | ⟨dir, -, -, leaves⟩
  · rw [stays]
    exact ⟨rfl, rfl⟩
  · rw [leaves]
    exact ⟨rfl, rfl⟩

/-- On a square the player unveils, and wins or not. -/
theorem Level.tick_square (zero : level.moveCnt = 0) (playing : level.gotoNextLevel = false)
    (nextDir : Direction) (behind : Bool) :
    (level.tick nextDir behind).maze = level.unveiled.maze ∧
      ((level.tick nextDir behind).gotoNextLevel = true ↔
        (level.board.unveilAroundPlayer level.playX level.playY).1 ≠ 0) := by
  obtain ⟨-, maze, won⟩ := level.tick_arrived nextDir behind
  obtain ⟨moveCnt, dir, turned, stays⟩ := level.turnBack_kept nextDir
  rw [maze, won, turned]
  rcases @Level.arrive_square { level with moveCnt := moveCnt, dir := dir } (stays zero) nextDir
    behind with ⟨wins, screen, arrived⟩ | ⟨loses, arrived⟩
  · rw [arrived]
    exact ⟨rfl, iff_of_true rfl wins⟩
  · rw [arrived]
    obtain ⟨kept, still⟩ := Level.setOut_kept
      (Level.unveiled { level with moveCnt := moveCnt, dir := dir })
      (findOpenDirections (Level.unveiled { level with moveCnt := moveCnt, dir := dir }).maze
        (level.playX.tdiv 12) (level.playY.tdiv 12) behind) nextDir
    refine ⟨kept, iff_of_false ?_ (not_not.mpr loses)⟩
    rw [still]
    exact Bool.eq_false_iff.mp playing

/-! ## Moves -/

/-- A tick of a player who is on the way. -/
theorem Level.tick_moving {arrived : Level}
    (comes : (level.turnBack nextDir).arrive nextDir behind = arrived)
    (playing : arrived.gotoNextLevel = false) (moving : arrived.dir ≠ .stop) :
    level.tick nextDir behind = arrived.showPlayer.advance.showPlayer := by
  simp only [Level.tick, comes, playing, Bool.false_eq_true, if_false]
  exact if_pos moving

/-- Between two squares a tick goes on in the direction of the player. -/
theorem Level.Approaches.goesOn (approaches : level.Approaches x y)
    (between : level.moveCnt ≠ 0) (playing : level.gotoNextLevel = false) (behind : Bool) :
    (level.tick level.dir behind).Approaches x y ∧
      (level.tick level.dir behind).moveCnt = level.moveCnt - 1 ∧
      (level.tick level.dir behind).gotoNextLevel = false := by
  have count := approaches.count
  have moving : level.dir ≠ .stop := fun stop => between (approaches.stopped stop)
  have arrived : (level.turnBack level.dir).arrive level.dir behind = level := by
    have same : level.turnBack level.dir = level := if_neg fun turning => turning.1 rfl
    rw [same, Level.arrive, if_neg between]
  have ticked := Level.tick_moving arrived playing moving
  have advanced := approaches.showPlayer.advance moving (by simp only [Level.showPlayer]; omega)
  have won := (level.tick_arrived level.dir behind).2.2
  rw [arrived] at won
  refine ⟨ticked ▸ advanced.showPlayer, ?_, won.trans playing⟩
  rw [ticked]
  exact (Level.advance_spec level.showPlayer moving).2.2.2.1

/-- The player comes to the next square. -/
theorem Level.Approaches.settles (approaches : level.Approaches x y)
    (playing : level.gotoNextLevel = false) (playable : level.board.Playable) :
    level.CanReach fun last => last.Stands x y ∧ level.board.Explores last.board := by
  induction left : level.moveCnt.toNat generalizing level with
  | zero =>
      have count := approaches.count
      have zero : level.moveCnt = 0 := by omega
      have playX := approaches.playX
      have playY := approaches.playY
      rw [zero, Int.zero_mul, Int.sub_zero] at playX playY
      exact .here ⟨⟨playX, playY, zero, playing⟩, .refl _⟩
  | succ rest ih =>
      have between : level.moveCnt ≠ 0 := by omega
      have moving : level.dir ≠ .stop := fun stop => between (approaches.stopped stop)
      obtain ⟨approaches', count, playing'⟩ := approaches.goesOn between playing false
      have explores := level.tick_explores playable.stocked.size level.dir false
      refine .tick playing moving ?_
      refine Steerable.mono (ih approaches' playing' (playable.explores explores) (by omega)) ?_
      exact fun last reached => ⟨reached.1, explores.trans reached.2⟩

/-- The player sets out in an open direction. -/
theorem Level.setOut_open (level : Level) {op : Direction → Bool} (moving : nextDir ≠ .stop)
    (opened : op nextDir = true) :
    level.setOut op nextDir = { level with dir := nextDir, moveCnt := 12 } := by
  simp only [Level.setOut, opened, if_true]
  rw [if_pos moving]

/-- A direction to a square is open. -/
theorem Maze.Square.opened {maze : Maze} (square : maze.Square (x + nextDir.dx) (y + nextDir.dy))
    (moving : nextDir ≠ .stop) (behind : Bool) :
    findOpenDirections maze x y behind nextDir = true := by
  have clear := square.clear
  cases nextDir with
  | stop => exact absurd rfl moving
  | up | right | down | left =>
      simpa [findOpenDirections, Direction.dx, Direction.dy, Int.sub_eq_add_neg] using clear

/-- A level in which the player approaches the square in a direction. -/
theorem Level.Approaches.leaving {dir : Direction} (playX : level.playX = 12 * x)
    (playY : level.playY = 12 * y) (square : level.maze.Square x y)
    (next : level.maze.Square (x + dir.dx) (y + dir.dy)) (moving : dir ≠ .stop) :
    Level.Approaches { level with dir := dir, moveCnt := 12 } (x + dir.dx) (y + dir.dy) where
  playX := by
    change level.playX = _
    rw [playX]
    ring
  playY := by
    change level.playY = _
    rw [playY]
    ring
  count := by simp
  square := next
  origin _ := by
    simp only [Int.add_sub_cancel]
    exact square
  stopped stop := absurd stop moving

/-- The first tick of a move to the next square. -/
theorem Level.Stands.setsOut (stands : level.Stands x y) (square : level.maze.Square x y)
    (next : level.maze.Square (x + nextDir.dx) (y + nextDir.dy)) (moving : nextDir ≠ .stop)
    (behind : Bool) :
    (level.tick nextDir behind).gotoNextLevel = true ∨
      (level.tick nextDir behind).gotoNextLevel = false ∧
        (level.tick nextDir behind).Approaches (x + nextDir.dx) (y + nextDir.dy) := by
  obtain ⟨moveCnt, dir, turned, stays⟩ := level.turnBack_kept nextDir
  have won := (level.tick_arrived nextDir behind).2.2
  rw [turned] at won
  rcases @Level.arrive_square { level with moveCnt := moveCnt, dir := dir } (stays stands.count)
    nextDir behind with ⟨-, screen, arrived⟩ | ⟨-, arrived⟩
  · left
    rw [won, arrived]
  · right
    generalize unveiled_ : Level.unveiled { level with moveCnt := moveCnt, dir := dir } = unveiled
      at arrived
    have same : SameWalls level.maze unveiled.maze := unveiled_ ▸ level.unveiled_same
    have playX : unveiled.playX = 12 * x := unveiled_ ▸ stands.playX
    have playY : unveiled.playY = 12 * y := unveiled_ ▸ stands.playY
    have playing : unveiled.gotoNextLevel = false := unveiled_ ▸ stands.playing
    have opened : findOpenDirections unveiled.maze (level.playX.tdiv 12) (level.playY.tdiv 12)
        behind nextDir = true := by
      rw [stands.playX, stands.playY, Int.mul_tdiv_cancel_left _ (by decide),
        Int.mul_tdiv_cancel_left _ (by decide)]
      exact (same.square next).opened moving behind
    have leaves := unveiled.setOut_open moving opened
    have approaches : Level.Approaches { unveiled with dir := nextDir, moveCnt := 12 }
        (x + nextDir.dx) (y + nextDir.dy) :=
      .leaving playX playY (same.square square) (same.square next) moving
    have gone := arrived.trans leaves
    rw [gone] at won
    refine ⟨won.trans playing, ?_⟩
    have comes := (congrArg (Level.arrive · nextDir behind) turned).trans gone
    rw [Level.tick_moving comes playing moving]
    exact (approaches.showPlayer.advance moving (by simp [Level.showPlayer])).showPlayer

/-- The player moves to a square next to the one it stands on, or wins before. -/
theorem Level.Stands.moves (stands : level.Stands x y) (square : level.maze.Square x y)
    (next : level.maze.Square (x + nextDir.dx) (y + nextDir.dy)) (moving : nextDir ≠ .stop)
    (playable : level.board.Playable) :
    level.CanReach fun last => last.gotoNextLevel = true ∨
      last.Stands (x + nextDir.dx) (y + nextDir.dy) ∧ level.board.Explores last.board := by
  have explores := level.tick_explores playable.stocked.size nextDir false
  refine .tick stands.playing moving ?_
  rcases stands.setsOut square next moving false with won | ⟨playing, approaches⟩
  · exact .here (.inl won)
  · refine Steerable.mono (approaches.settles playing (playable.explores explores)) ?_
    exact fun last reached => .inr ⟨reached.1, explores.trans reached.2⟩

/-- The player walks to any square, or wins before. -/
theorem Level.Stands.walks {x' y' : Int} (stands : level.Stands x y)
    (square : level.maze.Square x y) (target : level.maze.Square x' y')
    (playable : level.board.Playable) :
    level.CanReach fun last => last.gotoNextLevel = true ∨
      last.Stands x' y' ∧ level.board.Explores last.board := by
  have path := playable.connected x y x' y' square target
  have whole := @Steerable.along _ _ _ TickStep Tick.nextDir
    (fun last => last.gotoNextLevel = true) level _ level.maze.Adjacent
    (fun here state => state.Stands here.1 here.2 ∧ level.maze.Square here.1 here.2 ∧
      level.board.Explores state.board) (x, y) (x', y') path ?_ ⟨stands, square, .refl _⟩
  · refine Steerable.mono whole fun last reached => ?_
    exact reached.imp id fun reached => ⟨reached.1, reached.2.2⟩
  · rintro here _ state ⟨dir, moving, rfl, there⟩ ⟨stands, square, explores⟩
    have moves := stands.moves (explores.same.square square) (explores.same.square there) moving
      (playable.explores explores)
    refine Steerable.mono moves fun last reached => ?_
    exact reached.imp id fun reached => ⟨reached.1, there, explores.trans reached.2⟩

/-! ## The end of a level -/

theorem Maze.Eaten.none {before after : Maze} (eaten : before.Eaten after)
    (none : before.fruits = 0) : after.fruits = 0 :=
  census_eq_zero.mpr fun place member fruit =>
    census_eq_zero.mp none place member (eaten place fruit)

/-- The level is won on the exit when there is no fruit. -/
theorem Board.Playable.wins {board : Board} (playable : board.Playable)
    (none : board.maze.fruits = 0) :
    (board.unveilAroundPlayer (12 * board.exitX) (12 * board.exitY)).1 ≠ 0 := by
  have explores := board.unveilAroundPlayer_explores playable.stocked.size (12 * board.exitX)
    (12 * board.exitY)
  have result : (board.unveilAroundPlayer (12 * board.exitX) (12 * board.exitY)).1 =
      (board.unveilAroundPlayer (12 * board.exitX) (12 * board.exitY)).2.checkForWin
        board.exitX board.exitY := by
    simp only [Board.unveilAroundPlayer, Int.mul_tdiv_cancel_left _ (show (12 : Int) ≠ 0 by decide)]
  rw [result]
  generalize (board.unveilAroundPlayer (12 * board.exitX) (12 * board.exitY)).2 = after
    at explores
  have stocked := (playable.explores explores).stocked
  have fruits : after.maze.nFruits = 0 := by
    rw [stocked.count, explores.eaten.none none]
    rfl
  have exit : after.maze.point board.exitX board.exitY &&& mazeExit ≠ 0 := by
    rw [← Maze.cells_index, ← explores.exitX, ← explores.exitY]
    exact (stocked.exit _).mpr rfl
  have column := playable.stocked.column
  have row := playable.stocked.row
  rw [Board.checkForWin, explores.same.xDim, explores.same.yDim, if_neg (by omega),
    if_pos ⟨fruits, exit⟩]
  decide

theorem Level.Stands.wins (stands : level.Stands level.board.exitX level.board.exitY)
    (playable : level.board.Playable) (none : level.maze.fruits = 0) :
    (level.tick nextDir behind).gotoNextLevel = true := by
  rw [(Level.tick_square stands.count stands.playing nextDir behind).2, stands.playX, stands.playY]
  exact playable.wins none

/-- A tick on a square leaves no fruit there. -/
theorem Level.Stands.eats (stands : level.Stands x y) (square : level.maze.Square x y) :
    (level.tick nextDir behind).maze.cells (level.maze.index x y) &&& mazeFruit = 0 := by
  have eaten := @Board.unveilAroundPlayer_gone level.board x y (Int.le_of_lt square.column.1)
    square.column.2 (Int.le_of_lt square.row.1) square.row.2
  rw [(Level.tick_square stands.count stands.playing nextDir behind).1]
  rw [← stands.playX, ← stands.playY] at eaten
  exact eaten

/-- What holds in play. -/
structure Level.Plays (level : Level) : Prop where
  playable : level.board.Playable
  approaches : ∃ x y, level.Approaches x y
  playing : level.gotoNextLevel = false

/-- The player wins on the exit. -/
theorem Level.Stands.finishes (stands : level.Stands x y) (square : level.maze.Square x y)
    (playable : level.board.Playable) (none : level.maze.fruits = 0) :
    level.CanReach fun last => last.gotoNextLevel = true := by
  refine Steerable.trans (stands.walks square playable.exit playable) ?_
  rintro last (won | ⟨stands', explores⟩)
  · exact .here won
  · rw [← explores.exitX, ← explores.exitY] at stands'
    have won := @Level.Stands.wins last .up false stands' (playable.explores explores)
      (explores.eaten.none none)
    exact Level.CanReach.tick stands'.playing (show Direction.up ≠ .stop by decide) (.here won)

/-- The player wins, or eats the fruit of another square. -/
theorem Level.Stands.feeds {x' y' : Int} (stands : level.Stands x y)
    (square : level.maze.Square x y) (playable : level.board.Playable)
    (target : level.maze.Square x' y')
    (fruit : level.maze.cells (level.maze.index x' y') &&& mazeFruit ≠ 0) :
    level.CanReach fun last => last.gotoNextLevel = true ∨
      last.Plays ∧ last.maze.fruits < level.maze.fruits := by
  refine Steerable.trans (stands.walks square target playable) ?_
  rintro last (won | ⟨stands', explores⟩)
  · exact .here (.inl won)
  · have playable' := playable.explores explores
    have target' : last.maze.Square x' y' := explores.same.square target
    have explores' := last.tick_explores playable'.stocked.size .up false
    refine Level.CanReach.tick stands'.playing (show Direction.up ≠ .stop by decide) (.here ?_)
    by_cases won : (last.tick .up false).gotoNextLevel = true
    · exact .inl won
    · refine .inr ⟨⟨playable'.explores explores', ?_, Bool.eq_false_iff.mpr won⟩, ?_⟩
      · have standing : last.Approaches x' y' :=
          .standing stands'.playX stands'.playY stands'.count target'
        have walks : last.Walks := ⟨playable'.fenced, x', y', standing⟩
        exact (walks.during ⟨.up, false⟩ _ (by simp [Level.during])).2
      · have member : level.maze.index x' y' ∈ arrayPlaces :=
          Maze.index_mem playable.stocked.size (Int.le_of_lt target.column.1)
            (Int.le_of_lt target.column.2) (Int.le_of_lt target.row.1) (Int.le_of_lt target.row.2)
        have gone := @Level.Stands.eats _ _ _ .up false stands' target'
        have here : last.maze.index x' y' = level.maze.index x' y' := explores.same.index x' y'
        rw [here] at gone
        exact census_lt member fruit (not_not.mpr gone) fun place _ left =>
          explores.eaten place (explores'.eaten place left)

/-- The player can win, or eat one more fruit. -/
theorem Level.Plays.progress (plays : level.Plays) :
    level.CanReach fun last => last.gotoNextLevel = true ∨
      last.Plays ∧ last.maze.fruits < level.maze.fruits := by
  obtain ⟨playable, ⟨x, y, approaches⟩, playing⟩ := plays
  refine Steerable.trans (approaches.settles playing playable) ?_
  rintro middle ⟨stands, explores⟩
  have playable' := playable.explores explores
  have square : middle.maze.Square x y := explores.same.square approaches.square
  by_cases none : middle.maze.fruits = 0
  · exact Steerable.mono (stands.finishes square playable' none) fun _ won => .inl won
  · have some : ∃ place ∈ arrayPlaces, middle.maze.cells place &&& mazeFruit ≠ 0 := by
      by_contra all
      exact none (census_eq_zero.mpr fun place member fruit => all ⟨place, member, fruit⟩)
    obtain ⟨place, -, fruit⟩ := some
    obtain ⟨x', y', target, rfl⟩ := playable'.fruits place fruit
    have fewer : middle.maze.fruits ≤ level.maze.fruits :=
      census_le fun place _ fruit => explores.eaten place fruit
    refine Steerable.mono (stands.feeds square playable' target fruit) fun last reached => ?_
    exact reached.imp id fun eaten => ⟨eaten.1, Nat.lt_of_lt_of_le eaten.2 fewer⟩

/-- A level in play can be won. -/
theorem Level.Plays.winnable (plays : level.Plays) :
    level.CanReach fun last => last.gotoNextLevel = true :=
  Steerable.descend (fun level => level.maze.fruits) (fun _ plays => plays.progress) plays

/-! ## What has been done when a level is won -/

/-- There is no fruit, and the player is on the exit. -/
structure Level.Finished (level : Level) : Prop where
  fruits : level.maze.fruits = 0
  playX : level.playX = 12 * level.exitX
  playY : level.playY = 12 * level.exitY

/-- The board after a search for the exit that was successful. -/
theorem Board.Playable.won {board : Board} (playable : board.Playable)
    (wins : (board.unveilAroundPlayer (12 * x) (12 * y)).1 ≠ 0) :
    (board.unveilAroundPlayer (12 * x) (12 * y)).2.maze.fruits = 0 ∧ x = board.exitX ∧
      y = board.exitY := by
  have explores := board.unveilAroundPlayer_explores playable.stocked.size (12 * x) (12 * y)
  have result : (board.unveilAroundPlayer (12 * x) (12 * y)).1 =
      (board.unveilAroundPlayer (12 * x) (12 * y)).2.checkForWin x y := by
    simp only [Board.unveilAroundPlayer, Int.mul_tdiv_cancel_left _ (show (12 : Int) ≠ 0 by decide)]
  rw [result] at wins
  generalize (board.unveilAroundPlayer (12 * x) (12 * y)).2 = after at explores wins ⊢
  have one : after.checkForWin x y = 1 := by
    simp only [Board.checkForWin] at wins ⊢
    split at wins
    · exact absurd rfl wins
    next inside =>
      rw [if_neg inside]
      split at wins
      next found => exact if_pos found
      · exact absurd rfl wins
  obtain ⟨none, column, row⟩ := (playable.explores explores).stocked.win one
  exact ⟨census_eq_zero.mpr fun place member => not_not.mpr (none place member),
    column.trans explores.exitX, row.trans explores.exitY⟩

/-- The tick that wins. -/
theorem Level.Plays.finished (plays : level.Plays)
    (won : (level.tick nextDir behind).gotoNextLevel = true) :
    (level.tick nextDir behind).Finished := by
  obtain ⟨playable, ⟨x, y, approaches⟩, playing⟩ := plays
  obtain ⟨x', y', approaches'⟩ := approaches.turnBack nextDir
  obtain ⟨moveCnt, dir, turned, -⟩ := level.turnBack_kept nextDir
  have arrived := (level.tick_arrived nextDir behind).2.2.symm.trans won
  have ticked : level.tick nextDir behind = (level.turnBack nextDir).arrive nextDir behind := by
    simp only [Level.tick, arrived, if_true]
  have playing' : (level.turnBack nextDir).gotoNextLevel = false := by rwa [turned]
  have board : (level.turnBack nextDir).board = level.board := by
    rw [turned]
    rfl
  rw [ticked]
  generalize level.turnBack nextDir = state at approaches' arrived playing' board
  have playable' : state.board.Playable := board ▸ playable
  have playX := approaches'.playX
  have playY := approaches'.playY
  rcases state.arrive_cases nextDir behind with ⟨-, same⟩ | ⟨zero, -⟩
  · rw [same, playing'] at arrived
    cases arrived
  · rcases Level.arrive_square zero nextDir behind with ⟨wins, screen, here⟩ | ⟨-, here⟩
    · rw [zero, Int.zero_mul, Int.sub_zero] at playX playY
      rw [playX, playY] at wins
      obtain ⟨fruits, column, row⟩ := playable'.won wins
      have explores := state.board.unveilAroundPlayer_explores playable'.stocked.size (12 * x')
        (12 * y')
      rw [here]
      rw [← playX, ← playY] at fruits explores
      exact ⟨fruits, playX.trans (by rw [column]; exact congrArg (12 * ·) explores.exitX.symm),
        playY.trans (by rw [row]; exact congrArg (12 * ·) explores.exitY.symm)⟩
    · rw [here, (Level.setOut_kept _ _ _).2] at arrived
      cases playing'.symm.trans arrived

end

end Ece391.ModeX
