import Ece391.ModeX.Winning

/-!
# The mazes of `make_maze` can be won

`make_maze` ends with `GOD_MODE`, which takes every wall off the inside.  What it leaves is a room
with fruits and an exit on lattice points.
-/

namespace Ece391.ModeX

open Ece391.Library

/-! ## Rooms -/

/-- The boundary is walls, and there is no other wall. -/
structure Maze.Room (maze : Maze) : Prop where
  fenced : maze.Fenced
  clear : ∀ x y, 0 < x → x < 2 * maze.xDim → 0 < y → y < 2 * maze.yDim →
    maze.point x y &&& mazeWall = 0

section

variable {maze after : Maze} {x y x' y' : Int}

/-- A room is one by its walls. -/
theorem Maze.Room.of_walls (room : maze.Room) (xDim : after.xDim = maze.xDim)
    (yDim : after.yDim = maze.yDim)
    (walls : ∀ place, after.cells place &&& mazeWall = maze.cells place &&& mazeWall) :
    after.Room := by
  have point (x y : Int) : after.point x y &&& mazeWall = maze.point x y &&& mazeWall := by
    have place := walls (maze.index x y)
    rwa [maze.cells_index, Maze.index, ← xDim] at place
  refine ⟨⟨?_, ?_, ?_⟩, ?_⟩
  · intro x left right
    rw [point]
    exact room.fenced.top x left (xDim ▸ right)
  · intro x left right
    rw [point, yDim]
    exact room.fenced.bottom x left (xDim ▸ right)
  · intro y above below
    rw [point]
    exact room.fenced.side y above (yDim ▸ below)
  · intro x y left right above below
    rw [point]
    exact room.clear x y left (xDim ▸ right) above (yDim ▸ below)

theorem Maze.Room.square (room : maze.Room) (left : 0 < x) (right : x < 2 * maze.xDim)
    (above : 0 < y) (below : y < 2 * maze.yDim) : maze.Square x y :=
  ⟨⟨left, right⟩, ⟨above, below⟩, room.clear x y left right above below⟩

/-- A step towards another square. -/
theorem Maze.Square.towards (here : maze.Square x y) (there : maze.Square x' y')
    (apart : (x' - x).natAbs + (y' - y).natAbs ≠ 0) :
    ∃ dir : Direction, dir ≠ .stop ∧
      0 < x + dir.dx ∧ x + dir.dx < 2 * maze.xDim ∧ 0 < y + dir.dy ∧ y + dir.dy < 2 * maze.yDim ∧
      (x' - (x + dir.dx)).natAbs + (y' - (y + dir.dy)).natAbs + 1 =
        (x' - x).natAbs + (y' - y).natAbs := by
  obtain ⟨column, row, -⟩ := here
  obtain ⟨column', row', -⟩ := there
  rcases Int.lt_trichotomy x x' with before | same | behind
  · refine ⟨.right, by decide, ?_⟩
    simp only [Direction.dx, Direction.dy]
    omega
  · rcases Int.lt_or_lt_of_ne (show y ≠ y' by omega) with above | below
    · refine ⟨.down, by decide, ?_⟩
      simp only [Direction.dx, Direction.dy]
      omega
    · refine ⟨.up, by decide, ?_⟩
      simp only [Direction.dx, Direction.dy]
      omega
  · refine ⟨.left, by decide, ?_⟩
    simp only [Direction.dx, Direction.dy]
    omega

/-- The squares of a room are connected. -/
theorem Maze.Room.connected (room : maze.Room) (here : maze.Square x y)
    (there : maze.Square x' y') :
    Relation.ReflTransGen maze.Adjacent (x, y) (x', y') := by
  induction distance : (x' - x).natAbs + (y' - y).natAbs generalizing x y with
  | zero =>
      obtain ⟨rfl, rfl⟩ : x = x' ∧ y = y' := by omega
      exact .refl
  | succ rest ih =>
      obtain ⟨dir, moving, left, right, above, below, closer⟩ := here.towards there (by omega)
      have next := room.square left right above below
      exact .head ⟨dir, moving, rfl, next⟩ (ih next (by omega))

/-! ## `GOD_MODE` -/

theorem Maze.rewrite_cons (maze : Maze) (point : Int × Int) (points : List (Int × Int))
    (value : UInt8 → UInt8) :
    maze.rewrite (point :: points) value =
      (maze.set point.1 point.2 (value (maze.point point.1 point.2))).rewrite points value :=
  rfl

/-- The cells that a loop over points does not reach. -/
theorem Maze.rewrite_elsewhere {value : UInt8 → UInt8} {points : List (Int × Int)} {place : Int}
    (elsewhere : ∀ point ∈ points, maze.index point.1 point.2 ≠ place) :
    (maze.rewrite points value).cells place = maze.cells place := by
  induction points generalizing maze with
  | nil => rfl
  | cons point points ih =>
      have apart := (elsewhere point List.mem_cons_self).symm
      have rest : ((maze.set point.1 point.2 (value (maze.point point.1 point.2))).rewrite points
          value).cells place = _ :=
        ih fun point listed => elsewhere point (List.mem_cons_of_mem _ listed)
      rw [Maze.rewrite_cons, rest]
      exact Function.update_of_ne apart ..

/-- The cells of a loop that stores one value. -/
theorem Maze.rewrite_constant {value : UInt8} {points : List (Int × Int)} {place : Int}
    (stored : maze.cells place = value ∨ ∃ point ∈ points, maze.index point.1 point.2 = place) :
    (maze.rewrite points fun _ => value).cells place = value := by
  induction points generalizing maze with
  | nil =>
      rcases stored with already | ⟨point, listed, -⟩
      · exact already
      · cases listed
  | cons point points ih =>
      rw [Maze.rewrite_cons]
      refine ih ?_
      by_cases here : place = maze.index point.1 point.2
      · subst here
        exact .inl (Function.update_self ..)
      · rcases stored with already | ⟨other, listed, same⟩
        · exact .inl ((Function.update_of_ne here ..).trans already)
        · rcases List.mem_cons.mp listed with rfl | listed
          · exact absurd same.symm here
          · exact .inr ⟨other, listed, same⟩

/-- The points of the loop, whose counters are integers. -/
theorem mem_godMode {xDim yDim : Int} {point : Int × Int} :
    point ∈ ((List.range (2 * xDim - 1).toNat).flatMap fun column =>
        (List.range (2 * yDim - 1).toNat).map fun row => ((column : Int) + 1, (row : Int) + 1)) ↔
      0 < point.1 ∧ point.1 < 2 * xDim ∧ 0 < point.2 ∧ point.2 < 2 * yDim := by
  simp only [List.bind_eq_flatMap, List.pure_def, List.mem_flatMap, List.mem_map, List.mem_range,
    List.mem_singleton]
  constructor
  · rintro ⟨column, ⟨number, inside, rfl⟩, row, ⟨number', inside', rfl⟩, rfl⟩
    simp only
    omega
  · intro inside
    refine ⟨point.1 - 1, ⟨(point.1 - 1).toNat, by omega, by omega⟩, point.2 - 1,
      ⟨(point.2 - 1).toNat, by omega, by omega⟩, Prod.ext ?_ ?_⟩
    · exact Int.sub_add_cancel ..
    · exact Int.sub_add_cancel ..

/-- The maze without the walls inside. -/
theorem Maze.Fenced.godMode (fenced : maze.Fenced) : maze.godMode.Room := by
  obtain ⟨xDim, yDim⟩ := maze.godMode_dims
  have boundary {x y : Int} (left : 0 ≤ x) (right : x < 2 * maze.xDim)
      (edge : x = 0 ∨ y ≤ 0 ∨ 2 * maze.yDim ≤ y) :
      maze.godMode.point x y = maze.point x y := by
    rw [← Maze.cells_index, ← Maze.cells_index, Maze.index, xDim]
    refine Maze.rewrite_elsewhere fun point listed same => ?_
    have inside := mem_godMode.mp listed
    have equal := Maze.index_injective (by omega) (by omega) left right same
    omega
  refine ⟨⟨?_, ?_, ?_⟩, ?_⟩
  · intro x left right
    rw [xDim] at right
    rw [boundary left right (by omega)]
    exact fenced.top x left right
  · intro x left right
    rw [xDim] at right
    rw [yDim, boundary left right (by omega)]
    exact fenced.bottom x left right
  · intro y above below
    rw [yDim] at below
    by_cases wide : 0 < 2 * maze.xDim
    · rw [boundary (by omega) wide (by omega)]
      exact fenced.side y above below
    · have empty : (2 * maze.xDim - 1).toNat = 0 := by omega
      have same : maze.godMode = maze := by rw [Maze.godMode, empty]; rfl
      rw [same]
      exact fenced.side y above below
  · intro x y left right above below
    rw [xDim] at right
    rw [yDim] at below
    have cleared : maze.godMode.point x y = 0 := by
      rw [← Maze.cells_index, Maze.index, xDim]
      exact Maze.rewrite_constant (.inr ⟨(x, y), mem_godMode.mpr ⟨left, right, above, below⟩, rfl⟩)
    rw [cleared]
    decide

end

/-! ## Fruits -/

/-- Each fruit lies on a lattice point. -/
def Maze.Placed (maze : Maze) : Prop :=
  ∀ place, maze.cells place &&& mazeFruit ≠ 0 →
    ∃ x y, maze.Lattice x y ∧ place = maze.index x y

section

variable {maze after : Maze} {x y : Int} {fuel : Nat} {random rest : Stream' Nat}

/-- A point of the lattice may get a fruit. -/
theorem Maze.Placed.set {value : UInt8} (placed : maze.Placed) (inside : maze.Lattice x y) :
    (maze.set x y value).Placed := by
  intro place fruit
  by_cases here : place = maze.index x y
  · exact ⟨x, y, inside, here⟩
  · rw [Maze.cells_set_other here] at fruit
    exact placed place fruit

theorem placeFruit_placed {pick : Pick} (size : ValidSize maze.xDim maze.yDim)
    (placed : maze.Placed) (ended : maze.placeFruit fuel random = some (pick, after)) :
    after.Placed := by
  simp only [Maze.placeFruit, Option.map_eq_some_iff, Prod.mk.injEq] at ended
  obtain ⟨picked, found, -, rfl⟩ := ended
  simp only [ValidSize] at size
  exact placed.set (pickPoint_spec (by omega) (by omega) found).2

theorem Maze.Placed.addFruits {count : Nat} (size : ValidSize maze.xDim maze.yDim)
    (placed : maze.Placed) (ended : maze.addFruits fuel count random = some (rest, after)) :
    SameWalls maze after ∧ after.Placed := by
  induction count generalizing maze random with
  | zero =>
      cases ended
      exact ⟨.refl _, placed⟩
  | succ count ih =>
      obtain ⟨⟨pick, middle⟩, found, more⟩ := Option.bind_eq_some_iff.mp ended
      have same := (placeFruit_spec size found).1
      have size' : ValidSize middle.xDim middle.yDim := by rwa [same.xDim, same.yDim]
      obtain ⟨same', placed'⟩ := ih size' (placeFruit_placed size placed found) more
      exact ⟨same.trans same', placed'⟩

end

/-! ## The whole game -/

section

variable {fuel : Nat} {xDim yDim startFruits exitX exitY : Int} {random : Stream' Nat}
variable {state made : MazeState} {board : Board} {game : Game} {screen : Screen}
variable {oldValueBuf : Int → UInt8} {level after : Level} {tick : Tick} {ticks : List Tick}

/-- No loop that clears a maze adds a fruit. -/
theorem Maze.Bare.opened {maze : Maze} (bare : maze.Bare) : maze.clearReach.godMode.Bare := by
  have keeps : ∀ point : UInt8, point &&& mazeFruit = 0 ∧ point &&& mazeExit = 0 →
      (point &&& ~~~mazeReach) &&& mazeFruit = 0 ∧ (point &&& ~~~mazeReach) &&& mazeExit = 0 := by
    decide +kernel
  exact (bare.rewrite keeps _).rewrite (fun _ _ => ⟨rfl, rfl⟩) _

/-- The exit is not a wall. -/
theorem Maze.set_exit_wall (maze : Maze) (x y place : Int) :
    (maze.set x y (maze.point x y ||| mazeExit)).cells place &&& mazeWall =
      maze.cells place &&& mazeWall := by
  by_cases here : place = maze.index x y
  · have other : mazeExit &&& mazeWall = 0 := by decide
    rw [here, Maze.cells_set_self, or_and_byte, other, UInt8.or_zero, Maze.cells_index]
  · rw [Maze.cells_set_other here]

/-- A room with its fruits on lattice points. -/
theorem Maze.Room.playable (room : board.maze.Room) (stocked : board.Stocked)
    (placed : board.maze.Placed) (exit : board.maze.Lattice board.exitX board.exitY) :
    board.Playable where
  stocked := stocked
  fenced := room.fenced
  connected _ _ _ _ here there := room.connected here there
  exit := room.square exit.1 exit.2.1 exit.2.2.2.1 exit.2.2.2.2.1
  fruits place fruit := by
    obtain ⟨x, y, inside, rfl⟩ := placed place fruit
    exact ⟨x, y, room.square inside.1 inside.2.1 inside.2.2.2.1 inside.2.2.2.2.1, rfl⟩

/-- What `make_maze` builds can be played, from the corner on. -/
theorem makeMaze_playable
    (built : makeMaze fuel xDim yDim startFruits random state = some (0, made))
    (shows : board.Shows made) : board.Playable ∧ board.maze.Square 1 1 := by
  have stocked := makeMaze_stocked built shows
  rw [makeMaze] at built
  split at built
  · cases built
  next valid =>
    have size := not_not.mp valid
    simp only [Option.bind_eq_some_iff, Option.map_eq_some_iff, Prod.mk.injEq, true_and]
      at built
    obtain ⟨dug, worms, marked, found, joined, ended, ⟨rest, fruited⟩, added, pick, picked,
      rfl⟩ := built
    obtain ⟨crawls, clear⟩ := wormPhase_spec size worms
    obtain ⟨initial, found', grows⟩ := Joining.Grows.initial crawls clear
    cases found'.symm.trans found
    have grown := (grows.done ended).1.grown
    have counted := grown.counted
    have opened : Maze.Room { joined.maze.clearReach.godMode with nFruits := 0 } :=
      (joined.maze.clearReach_same.fenced grown.fenced).godMode.of_walls rfl rfl fun _ => rfl
    have bare : Maze.Placed { joined.maze.clearReach.godMode with nFruits := 0 } :=
      fun place fruit => absurd (grown.bare.opened place).1 fruit
    obtain ⟨same, placed⟩ := bare.addFruits counted.size added
    have valid := counted.size
    rw [← same.xDim, ← same.yDim] at valid
    simp only [ValidSize] at valid
    simp only at picked
    obtain ⟨-, inside⟩ := pickPoint_spec (by omega) (by omega) picked
    have room : board.maze.Room := by
      rw [shows.maze]
      exact opened.of_walls same.xDim same.yDim fun place =>
        (Maze.set_exit_wall ..).trans (same.walls place)
    refine ⟨room.playable stocked ?_ ?_, ?_⟩
    · rw [shows.maze]
      exact placed.set inside
    · rw [shows.maze, shows.exitX, shows.exitY]
      exact inside
    · have bounds := stocked.size
      simp only [ValidSize] at bounds
      exact room.square (by omega) (by omega) (by omega) (by omega)

theorem Level.start_playing (game : Game) (exitX exitY : Int) (screen : Screen)
    (oldValueBuf : Int → UInt8) :
    (Level.start game exitX exitY screen oldValueBuf).gotoNextLevel = false := by
  simp only [Level.start, Level.showPlayer, Level.unveiled, Level.withBoard, Level.entered]

theorem Level.start_explores
    (playable : (Level.entered game exitX exitY screen oldValueBuf).board.Playable) :
    (Level.entered game exitX exitY screen oldValueBuf).board.Explores
      (Level.start game exitX exitY screen oldValueBuf).board :=
  (Level.unveiled_explores _ playable.stocked.size).trans (Level.showPlayer_explores _)

theorem Board.Explores.exit {before after : Level}
    (explores : before.board.Explores after.board) :
    after.exitX = before.exitX ∧ after.exitY = before.exitY :=
  ⟨explores.exitX, explores.exitY⟩

/-- The start of a level on a board that can be played. -/
theorem Level.start_plays
    (playable : (Level.entered game exitX exitY screen oldValueBuf).board.Playable)
    (corner : game.scene.maze.Square 1 1) :
    (Level.start game exitX exitY screen oldValueBuf).Plays where
  playable := playable.explores (Level.start_explores playable)
  approaches := (Level.start_walks playable.fenced corner exitX exitY screen oldValueBuf).2
  playing := Level.start_playing ..

/-- In play, or won as it should be; the exit stays where it is. -/
structure Level.Sound (exitX exitY : Int) (level : Level) : Prop where
  state : level.Plays ∨ level.gotoNextLevel = true ∧ level.Finished
  exitX : level.exitX = exitX
  exitY : level.exitY = exitY

theorem TickStep.sound (step : TickStep level tick after) (sound : level.Sound exitX exitY) :
    after.Sound exitX exitY := by
  obtain ⟨playing, rfl⟩ := step
  rcases sound.state with plays | ⟨won, -⟩
  · have explores := level.tick_explores plays.playable.stocked.size tick.nextDir tick.behind
    refine ⟨?_, explores.exitX.trans sound.exitX, explores.exitY.trans sound.exitY⟩
    by_cases won : (level.tick tick.nextDir tick.behind).gotoNextLevel = true
    · exact .inr ⟨won, plays.finished won⟩
    · have walks : level.Walks := ⟨plays.playable.fenced, plays.approaches⟩
      exact .inl ⟨plays.playable.explores explores,
        (walks.during tick _ (by simp [Level.during])).2, Bool.eq_false_iff.mpr won⟩
  · cases won.symm.trans playing

/-- From every state of a level that `make_maze` has built the player can win, by directions that
do not depend on what is read behind `open`; and a level that has been won has no fruit left and
the player on the exit. -/
theorem levels_can_be_won
    (built : makeMaze fuel xDim yDim startFruits random state = some (0, made))
    (maze : game.scene.maze = made.toMaze)
    (run : Run TickStep (Level.start game made.exitX made.exitY screen oldValueBuf) ticks level) :
    (level.gotoNextLevel = false →
      ∃ (directions : List Direction) (won : Level), won.gotoNextLevel = true ∧
        ∀ more : List Tick, more.map Tick.nextDir = directions → Run TickStep level more won) ∧
    (level.gotoNextLevel = true →
      (∀ place ∈ arrayPlaces, level.maze.cells place &&& mazeFruit = 0) ∧
        level.playX = 12 * made.exitX ∧ level.playY = 12 * made.exitY) := by
  have shows : (Level.entered game made.exitX made.exitY screen oldValueBuf).board.Shows made :=
    ⟨maze, rfl, rfl⟩
  obtain ⟨playable, corner⟩ := makeMaze_playable built shows
  obtain ⟨startX, startY⟩ := (Level.start_explores playable).exit
  have initial : (Level.start game made.exitX made.exitY screen oldValueBuf).Sound made.exitX
      made.exitY := ⟨.inl (Level.start_plays playable corner), startX, startY⟩
  have sound := run.invariant (Level.Sound made.exitX made.exitY)
    (fun _ _ _ sound step => step.sound sound) initial
  rcases sound.state with plays | ⟨won, finished⟩
  · exact ⟨fun _ => plays.winnable,
      fun won => absurd won (Bool.eq_false_iff.mp plays.playing)⟩
  · have not_playing : level.gotoNextLevel ≠ false := Bool.eq_false_iff.not.mpr (not_not.mpr won)
    refine ⟨fun playing => absurd playing not_playing, fun _ => ⟨fun place member => ?_, ?_⟩⟩
    · exact not_not.mp (census_eq_zero.mp finished.fruits place member)
    · rw [← sound.exitX, ← sound.exitY]
      exact ⟨finished.playX, finished.playY⟩

/-- The smallest maze with a fruit: the ticks that the first part promises are a run, at whose end
the fruit is eaten and the player is on the exit. -/
theorem levels_can_be_won_smallest :
    ∃ fuel made, makeMaze fuel 14 8 1 (mazeDraws 14 8) ⟨⟨fun _ => 0, 0, 0, 0⟩, 0, 0⟩ =
        some (0, made) ∧ made.nFruits = 1 ∧
      ∃ ticks won, Run TickStep
          (Level.start ⟨14, 8, 6, 6, ⟨made.toMaze, fun _ => 0, fun _ => 0⟩,
            setModeX fun _ => 0⟩ made.exitX made.exitY (.setModeX ⟨fun _ _ => 0, 0, 0, 0⟩)
            fun _ => 0) ticks won ∧
        ticks ≠ [] ∧ won.gotoNextLevel = true ∧
        (∀ place ∈ arrayPlaces, won.maze.cells place &&& mazeFruit = 0) ∧
        won.playX = 12 * made.exitX ∧ won.playY = 12 * made.exitY := by
  obtain ⟨fuel, made, built, fruit⟩ := makeMaze_ends_fruit (show ValidSize 14 8 by decide)
    (by decide) ⟨⟨fun _ => 0, 0, 0, 0⟩, 0, 0⟩
  have start := @Level.start_playing ⟨14, 8, 6, 6, ⟨made.toMaze, fun _ => 0, fun _ => 0⟩,
    setModeX fun _ => 0⟩ made.exitX made.exitY (.setModeX ⟨fun _ _ => 0, 0, 0, 0⟩) fun _ => 0
  obtain ⟨directions, won, ended, runs⟩ := (levels_can_be_won built rfl (.nil _)).1 start
  let ticks : List Tick := directions.map fun direction => ⟨direction, false⟩
  have run := runs ticks (by simp [ticks, Function.comp_def])
  refine ⟨fuel, made, built, fruit, ticks, won, run, fun none => ?_, ended,
    (levels_can_be_won built rfl run).2 ended⟩
  rw [none] at run
  cases run
  exact absurd ended (Bool.eq_false_iff.mp start)

end

end Ece391.ModeX
