import Ece391.ModeX.SecondPhase

/-!
# Fruits and the exit

`n_fruits` is kept beside the cells that hold the fruits.  A maze that `make_maze` has built has
as many fruits as it says, and one cell with the exit mark.  The calls of the game keep that,
with any coordinates.
-/

namespace Ece391.ModeX

open Ece391.Library

/-! ## The last part of `make_maze` -/

/-- The fruits are counted, and there is no exit yet. -/
structure Maze.Counted (maze : Maze) : Prop where
  size : ValidSize maze.xDim maze.yDim
  count : maze.nFruits = maze.fruits
  closed : ∀ place, maze.cells place &&& mazeExit = 0

section

variable {maze after : Maze} {fuel : Nat} {random rest : Stream' Nat} {x y : Int}

theorem Maze.rewrite_dims (maze : Maze) (points : List (Int × Int)) (value : UInt8 → UInt8) :
    (maze.rewrite points value).xDim = maze.xDim ∧
      (maze.rewrite points value).yDim = maze.yDim := by
  induction points generalizing maze with
  | nil => exact ⟨rfl, rfl⟩
  | cons point points ih => exact ih _

theorem Maze.Bare.rewrite {value : UInt8 → UInt8}
    (keeps : ∀ point : UInt8, point &&& mazeFruit = 0 ∧ point &&& mazeExit = 0 →
      value point &&& mazeFruit = 0 ∧ value point &&& mazeExit = 0)
    (bare : maze.Bare) (points : List (Int × Int)) : (maze.rewrite points value).Bare := by
  induction points generalizing maze with
  | nil => exact bare
  | cons point points ih => exact ih (bare.set (keeps _ (bare _)))

theorem Maze.godMode_dims (maze : Maze) :
    maze.godMode.xDim = maze.xDim ∧ maze.godMode.yDim = maze.yDim :=
  maze.rewrite_dims ..

/-- Clearing the marks and removing the walls. -/
theorem Maze.Grown.counted (grown : maze.Grown) :
    Maze.Counted { maze.clearReach.godMode with nFruits := 0 } := by
  have keeps : ∀ point : UInt8, point &&& mazeFruit = 0 ∧ point &&& mazeExit = 0 →
      (point &&& ~~~mazeReach) &&& mazeFruit = 0 ∧ (point &&& ~~~mazeReach) &&& mazeExit = 0 := by
    decide +kernel
  have bare : maze.clearReach.godMode.Bare :=
    Maze.Bare.rewrite (fun _ _ => ⟨rfl, rfl⟩) (grown.bare.rewrite keeps _) _
  have cleared := maze.clearReach_same
  obtain ⟨xDim, yDim⟩ := maze.clearReach.godMode_dims
  refine ⟨?_, ?_, fun place => (bare place).2⟩
  · simp only
    rw [xDim, yDim, cleared.xDim, cleared.yDim]
    exact grown.size
  · have none : Maze.fruits { maze.clearReach.godMode with nFruits := 0 } = 0 :=
      census_eq_zero.mpr fun place _ => not_not.mpr (bare place).1
    rw [none]
    rfl

/-- Placing fruits. -/
theorem Maze.Counted.addFruits {count : Nat} (counted : maze.Counted)
    (ended : maze.addFruits fuel count random = some (rest, after)) : after.Counted := by
  induction count generalizing maze random with
  | zero =>
      cases ended
      exact counted
  | succ count ih =>
      obtain ⟨⟨pick, placed⟩, found, more⟩ := Option.bind_eq_some_iff.mp ended
      obtain ⟨same, number, fruits⟩ := placeFruit_spec counted.size found
      have count := counted.count
      refine ih ⟨?_, ?_, fun place => ?_⟩ more
      · rw [same.xDim, same.yDim]
        exact counted.size
      · omega
      · rw [same.exits]
        exact counted.closed place

/-- In a maze without fruits the next fruit can be placed. -/
theorem Maze.pick_free {pick : Pick} (size : ValidSize maze.xDim maze.yDim)
    (count : maze.nFruits = maze.fruits) (none : maze.nFruits = 0)
    (drawn : PicksDrawn maze.xDim pick.random) :
    ∃ fuel picked, pickPoint maze (fun point => point &&& mazeFruit ≠ 0) fuel pick =
      some picked := by
  have corner := Maze.lattice_corner size
  have fruits : maze.fruits = 0 := by omega
  have bounds := corner
  simp only [Maze.Lattice] at bounds
  have member := @Maze.index_mem maze 1 1 size (by omega) (by omega) (by omega) (by omega)
  have free : maze.point 1 1 &&& mazeFruit = 0 := not_not.mp (census_eq_zero.mp fruits _ member)
  exact @pickPoint_ends _ _ _ (1, 1) corner (by simpa using free) drawn

theorem exit_bits (point : UInt8) :
    ((point ||| mazeExit) &&& mazeFruit = point &&& mazeFruit) ∧
      (point ||| mazeExit) &&& mazeExit ≠ 0 := by
  have other : mazeExit &&& mazeFruit = 0 := by decide
  have own : mazeExit &&& mazeExit ≠ 0 := by decide
  refine ⟨?_, fun none => own ?_⟩
  · rw [or_and_byte, other, UInt8.or_zero]
  · rw [or_and_byte, UInt8.or_eq_zero_iff] at none
    exact none.2

/-- Placing the exit. -/
theorem Maze.Counted.stocked {board : Board} (counted : maze.Counted) (inside : maze.Lattice x y)
    (here : board.maze = maze.set x y (maze.point x y ||| mazeExit))
    (exitX : board.exitX = x) (exitY : board.exitY = y) : board.Stocked := by
  obtain ⟨fruit, exit⟩ := exit_bits (maze.point x y)
  simp only [Maze.Lattice] at inside
  refine ⟨?_, ?_, fun place => ?_, ?_, ?_⟩
  · rw [here]
    exact counted.size
  · rw [here]
    have same : (maze.set x y (maze.point x y ||| mazeExit)).fruits = maze.fruits := by
      refine census_same ?_
      rw [fruit, Maze.cells_index]
    rw [same]
    exact counted.count
  · rw [here, exitX, exitY]
    by_cases there : place = maze.index x y
    · rw [there, Maze.cells_set_self]
      exact iff_of_true exit rfl
    · rw [Maze.cells_set_other there]
      exact iff_of_false (not_not.mpr (counted.closed place)) there
  · rw [here, exitX]
    exact ⟨by omega, inside.2.1⟩
  · rw [here, exitY]
    exact ⟨by omega, inside.2.2.2.2.1⟩

end

/-! ## The whole function -/

section

variable {maze : Maze} {fuel : Nat} {xDim yDim startFruits : Int} {random : Stream' Nat}
variable {state made : MazeState} {board after : Board} {calls : List BoardCall}

theorem fruit_range (point : UInt8) (fruit : point &&& mazeFruit ≠ 0) :
    1 ≤ (point &&& mazeFruit) / mazeFruit1 ∧ (point &&& mazeFruit) / mazeFruit1 ≤ 7 := by
  revert point
  decide +kernel

/-- A board with the maze that `make_maze` has built. -/
structure Board.Shows (board : Board) (made : MazeState) : Prop where
  maze : board.maze = made.toMaze
  exitX : board.exitX = made.exitX
  exitY : board.exitY = made.exitY

theorem makeMaze_stocked
    (built : makeMaze fuel xDim yDim startFruits random state = some (0, made))
    (shows : board.Shows made) : board.Stocked := by
  rw [makeMaze] at built
  split at built
  · cases built
  next valid =>
    have size := not_not.mp valid
    simp only [Option.bind_eq_some_iff, Option.map_eq_some_iff, Prod.mk.injEq, true_and]
      at built
    obtain ⟨dug, worms, marked, found, joined, ended, ⟨rest, fruited⟩, placed, pick, picked,
      rfl⟩ := built
    obtain ⟨crawls, clear⟩ := wormPhase_spec size worms
    obtain ⟨initial, found', grows⟩ := Joining.Grows.initial crawls clear
    cases found'.symm.trans found
    have counted := (grows.done ended).1.grown.counted.addFruits placed
    have valid := counted.size
    simp only [ValidSize] at valid
    simp only at picked
    obtain ⟨-, inside⟩ := pickPoint_spec (by omega) (by omega) picked
    exact counted.stocked inside shows.maze shows.exitX shows.exitY

/-- For every size there are random values on which both phases of `make_maze` end; what they leave
is a maze without fruits. -/
theorem phases_end (size : ValidSize xDim yDim) (nFruits : Int) :
    ∃ least dug marked joined,
      (∀ fuel, least ≤ fuel →
        wormPhase fuel ⟨⟨fun _ => mazeWall, xDim, yDim, nFruits⟩, 0, 0, 0, xDim * yDim,
            mazeDraws xDim yDim⟩ = some dug ∧
          secondPhase fuel marked = some joined) ∧
      dug.mark = some marked ∧ PicksDrawn xDim joined.random ∧
      ∃ maze : Maze, { joined.maze.clearReach.godMode with nFruits := 0 } = maze ∧
        maze.Counted ∧ maze.nFruits = 0 ∧ maze.xDim = xDim ∧ maze.yDim = yDim := by
  obtain ⟨digs, dug, worms, left⟩ := wormPhase_ends size nFruits
  obtain ⟨crawls, clear⟩ := wormPhase_spec size worms
  obtain ⟨marked, found, -⟩ := Joining.Grows.initial crawls clear
  obtain ⟨grows, drawn⟩ := mark_drawn size worms left found
  obtain ⟨joins, joined, ended, grows', drawn'⟩ := secondPhase_ends grows drawn
  obtain ⟨xDim', yDim'⟩ := joined.maze.clearReach.godMode_dims
  have cleared := joined.maze.clearReach_same
  refine ⟨max digs joins, dug, marked, joined, fun fuel enough => ⟨?_, ?_⟩, found, drawn', _, rfl,
    grows'.grown.counted, rfl, ?_, ?_⟩
  · exact worm_mono.loop (show digs ≤ fuel by omega) worms
  · exact Joining.join_mono.loop (show joins ≤ fuel by omega) ended
  · exact xDim'.trans (cleared.xDim.trans grows'.xDim)
  · exact yDim'.trans (cleared.yDim.trans grows'.yDim)

/-- For every size there are random values on which `make_maze` ends. -/
theorem makeMaze_ends (size : ValidSize xDim yDim) (state : MazeState) :
    ∃ fuel made, makeMaze fuel xDim yDim 0 (mazeDraws xDim yDim) state = some (0, made) ∧
      made.xDim = xDim ∧ made.nFruits = 0 := by
  obtain ⟨least, dug, marked, joined, phases, found, drawn, maze, opened, counted, none, columns,
    -⟩ := phases_end size state.nFruits
  obtain ⟨picks, exit, picked⟩ := @Maze.pick_free maze ⟨joined.x, joined.y, joined.random⟩
    counted.size counted.count none (columns.symm ▸ drawn)
  obtain ⟨worms, ended⟩ := phases (max least picks) (Nat.le_max_left ..)
  have picked' := pickPoint_mono (Nat.le_max_right least picks) picked
  refine ⟨max least picks, ?_⟩
  simp only [makeMaze, if_neg (not_not.mpr size), worms, found, ended, Option.bind_some, opened,
    Int.toNat_zero, Maze.addFruits, picked', Option.map_some]
  exact ⟨_, rfl, columns, none⟩

/-- Of two lattice points one has no fruit if there is only one. -/
theorem Maze.point_free (size : ValidSize maze.xDim maze.yDim) (one : maze.fruits = 1) :
    ∃ column < 2, maze.point (2 * (column : Nat) + 1) 1 &&& mazeFruit = 0 := by
  by_contra! all
  have bounds := size
  simp only [ValidSize] at bounds
  have member (column : Nat) (small : column < 2) : maze.index (2 * column + 1) 1 ∈
      arrayPlaces.filter fun place => maze.cells place &&& mazeFruit ≠ 0 :=
    Finset.mem_filter.mpr ⟨Maze.index_mem size (by omega) (by omega) (by omega) (by omega),
      all column small⟩
  have apart : maze.index (2 * (0 : Nat) + 1) 1 ≠ maze.index (2 * (1 : Nat) + 1) 1 := by
    intro same
    have columns := (Maze.index_injective (by omega) (by omega) (by omega) (by omega) same).1
    omega
  have two := Finset.one_lt_card.mpr ⟨_, member 0 (by decide), _, member 1 (by decide), apart⟩
  rw [Maze.fruits, census] at one
  exact Nat.ne_of_gt two one

/-- The first fruit takes pairs of values and one more. -/
theorem Maze.placeFruit_drawn (size : ValidSize maze.xDim maze.yDim)
    (count : maze.nFruits = maze.fruits) (none : maze.nFruits = 0)
    (drawn : PicksDrawn maze.xDim random) :
    ∃ least pick placed number,
      (∀ fuel, least ≤ fuel → maze.placeFruit fuel random = some (pick, placed)) ∧
      pick.random = (pickDraws maze.xDim.toNat).drop (2 * number + 1) := by
  obtain ⟨least, place, picked⟩ := @Maze.pick_free maze ⟨0, 0, random⟩ size count none drawn
  obtain ⟨number, rest⟩ := @pickPoint_drawn _ _ ⟨0, 0, random⟩ _ _ _ drawn picked
  obtain ⟨⟨pick, placed⟩, found⟩ : ∃ result, maze.placeFruit least random = some result :=
    ⟨_, congrArg (Option.map _) picked⟩
  refine ⟨least, pick, placed, number, fun fuel enough => ?_, ?_⟩
  · rw [← found, Maze.placeFruit, Maze.placeFruit, pickPoint_mono enough picked, picked]
  · rw [Maze.placeFruit, picked] at found
    have same : place.random.tail = pick.random :=
      congrArg (fun result => result.1.random) (Option.some.inj found)
    rw [← same, rest, Stream'.tail_drop']

/-- With a fruit to start with too, if the maze is not higher than wide. -/
theorem makeMaze_ends_fruit (size : ValidSize xDim yDim) (narrow : yDim ≤ xDim)
    (state : MazeState) :
    ∃ fuel made, makeMaze fuel xDim yDim 1 (mazeDraws xDim yDim) state = some (0, made) ∧
      made.nFruits = 1 := by
  obtain ⟨least, dug, marked, joined, phases, found, drawn, maze, opened, counted, none, columns,
    rows⟩ := phases_end size state.nFruits
  obtain ⟨digs, pick, placed, number, fruited, rest⟩ := Maze.placeFruit_drawn counted.size
    counted.count none (columns.symm ▸ drawn)
  obtain ⟨same, counter, fruits⟩ := placeFruit_spec counted.size (fruited digs (Nat.le_refl digs))
  have one : placed.fruits = 1 := by
    have before := counted.count
    omega
  have size' : ValidSize placed.xDim placed.yDim := same.xDim ▸ same.yDim ▸ counted.size
  have narrow' : placed.yDim ≤ placed.xDim := by
    rwa [same.xDim, same.yDim, columns, rows]
  obtain ⟨column, small, free⟩ := Maze.point_free size' one
  simp only [ValidSize] at size'
  -- The fruit has taken an odd number of values.
  obtain ⟨picks, exit, picked⟩ := @pickPoint_crossed placed (fun point => point &&& mazeFruit ≠ 0)
    ⟨joined.x, joined.y, pick.random⟩ column 0 number narrow' (by omega) (by omega)
    (by simpa using free) (same.xDim.symm ▸ rest)
  obtain ⟨worms, ended⟩ := phases (max least (max digs picks)) (by omega)
  have fruited' := fruited (max least (max digs picks)) (by omega)
  have picked' := pickPoint_mono (show picks ≤ max least (max digs picks) by omega) picked
  refine ⟨max least (max digs picks), ?_⟩
  simp only [makeMaze, if_neg (not_not.mpr size), worms, found, ended, Option.bind_some, opened,
    Int.toNat_one, Maze.addFruits, fruited', picked', Option.map_some]
  exact ⟨_, rfl, counter.trans (congrArg (· + 1) none)⟩

/-- After any calls on a maze that `make_maze` has built, `n_fruits` is the number of cells that
hold a fruit and never negative, the fruits have the numbers 1 to 7, walls and exit are those
of the start, and the player wins only at the exit and when no cell holds a fruit. -/
theorem fruits_are_counted
    (built : makeMaze fuel xDim yDim startFruits random state = some (0, made))
    (shows : board.Shows made) (run : Run BoardStep board calls after) :
    after.maze.nFruits = after.maze.fruits ∧ 0 ≤ after.maze.nFruits ∧
      (∀ place, after.maze.cells place &&& mazeFruit ≠ 0 →
        1 ≤ (after.maze.cells place &&& mazeFruit) / mazeFruit1 ∧
          (after.maze.cells place &&& mazeFruit) / mazeFruit1 ≤ 7) ∧
      (∀ x y, (after.checkForFruit x y).1 ≤ 7) ∧
      SameWalls made.toMaze after.maze ∧ after.exitX = made.exitX ∧ after.exitY = made.exitY ∧
      ∀ x y, after.checkForWin x y = 1 →
        (∀ place ∈ arrayPlaces, after.maze.cells place &&& mazeFruit = 0) ∧
          x = made.exitX ∧ y = made.exitY := by
  have stocked := makeMaze_stocked built shows
  have kept := Board.Keeps.run stocked.size run
  have stocked' := stocked.keeps kept
  have exitX := kept.exitX.trans shows.exitX
  have exitY := kept.exitY.trans shows.exitY
  refine ⟨stocked'.count, stocked'.nonneg, fun place fruit => ?_, fun x y => ?_,
    shows.maze ▸ kept.same, exitX, exitY, fun x y won => ?_⟩
  · exact fruit_range _ fruit
  · simp only [Board.checkForFruit]
    split
    · exact show (0 : UInt8) ≤ 7 by decide
    · have bound := (fruit_number (after.maze.point x y)).1
      split
      · split <;> exact bound
      · exact bound
  · obtain ⟨none, column, row⟩ := stocked'.win won
    exact ⟨none, column.trans exitX, row.trans exitY⟩

theorem fruits_are_counted_smallest :
    ∃ fuel made, makeMaze fuel 14 8 0 (mazeDraws 14 8) ⟨⟨fun _ => 0, 0, 0, 0⟩, 0, 0⟩ =
        some (0, made) ∧
      ∃ after : Board,
        Run BoardStep ⟨⟨made.toMaze, fun _ => 0, fun _ => 0⟩, setModeX fun _ => 0, made.exitX,
            made.exitY⟩
          [.addAFruit (pickDraws 14), .checkForFruit 1 1, .unveilSpace 28 3] after ∧
        after.maze.nFruits = after.maze.fruits := by
  have size : ValidSize 14 8 := by decide
  obtain ⟨fuel, made, built, columns, none⟩ :=
    makeMaze_ends size ⟨⟨fun _ => 0, 0, 0, 0⟩, 0, 0⟩
  let board : Board :=
    ⟨⟨made.toMaze, fun _ => 0, fun _ => 0⟩, setModeX fun _ => 0, made.exitX, made.exitY⟩
  have shows : board.Shows made := ⟨rfl, rfl, rfl⟩
  have stocked := makeMaze_stocked built shows
  obtain ⟨fuel', picked, ended⟩ := @Maze.pick_free made.toMaze ⟨0, 0, pickDraws 14⟩ stocked.size
    stocked.count none ⟨0, by rw [columns]; rfl⟩
  have placed : (board.addAFruit fuel' (pickDraws 14)).isSome := by
    simp only [Board.addAFruit, Maze.placeFruit, Option.isSome_map]
    exact Option.isSome_of_eq_some ended
  obtain ⟨⟨count, rest, middle⟩, added⟩ := Option.isSome_iff_exists.mp placed
  have run : Run BoardStep board [.addAFruit (pickDraws 14), .checkForFruit 1 1,
      .unveilSpace 28 3] _ :=
    .cons (.addAFruit added) (.cons (.checkForFruit 1 1) (.single (.unveilSpace 28 3)))
  exact ⟨fuel, made, built, _, run, (fruits_are_counted built shows run).1⟩

end

end Ece391.ModeX
