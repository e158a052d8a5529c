import Ece391.ModeX.Worms
import Mathlib.Data.Prod.Lex
import Mathlib.Order.Lattice.Nat

/-!
# The second phase

Between the iterations every reached lattice point is connected to (1,1), and `remaining` counts
the others.  Picking at random is given up after a number of trials.  While there are unreached
points one of them has a reached neighbour, and the scan, which visits the lattice points in
turn, comes to such a point.
-/

namespace Ece391.ModeX

open Ece391.Library

/-! ## Scanning the lattice -/

namespace Maze

/-- The point that the scan visits next. -/
def scanStep (maze : Maze) (point : Int × Int) : Int × Int :=
  let (x, y) := point
  if x + 2 > maze.xDim * 2 then
    (x + 2 - maze.xDim * 2, if y + 2 > 2 * maze.yDim then y + 2 - 2 * maze.yDim else y + 2)
  else (x + 2, y)

/-- The points by numbers, row by row and again from the first. -/
def scanned (maze : Maze) (number : Nat) : Int × Int :=
  (2 * (number % maze.xDim.toNat : Nat) + 1,
    2 * (number / maze.xDim.toNat % maze.yDim.toNat : Nat) + 1)

/-- A point with a reached neighbour. -/
def Beside (maze : Maze) (x y : Int) : Prop :=
  ∃ dx dy, UnitStep dx dy ∧ maze.Lattice (x + 2 * dx) (y + 2 * dy) ∧
    maze.Reached (maze.index (x + 2 * dx) (y + 2 * dy))

/-- An unreached point that can be connected. -/
def Joinable (maze : Maze) (point : Int × Int) : Prop :=
  maze.Lattice point.1 point.2 ∧ ¬maze.Reached (maze.index point.1 point.2) ∧
    maze.Beside point.1 point.2

/-- The number of points that the scan passes before one that can be connected. -/
noncomputable def wait (maze : Maze) (point : Int × Int) : Nat :=
  sInf {steps | maze.Joinable (maze.scanStep^[steps + 1] point)}

section

variable {maze : Maze} {x y : Int} {point : Int × Int}

/-- A number that is increased carries into its quotient, or only its remainder grows. -/
theorem odometer {base : Nat} (positive : 0 < base) (number : Nat) :
    ((number + 1) / base = number / base ∧ (number + 1) % base = number % base + 1 ∧
        number % base + 1 < base) ∨
      ((number + 1) / base = number / base + 1 ∧ (number + 1) % base = 0 ∧
        number % base + 1 = base) := by
  have split := Nat.mod_add_div number base
  have below := Nat.mod_lt number positive
  rcases Nat.lt_or_eq_of_le (Nat.succ_le_of_lt below) with inside | last
  · obtain ⟨quotient, remainder⟩ := (Nat.div_mod_unique positive).mpr
      ⟨show number % base + 1 + base * (number / base) = number + 1 by omega, inside⟩
    exact .inl ⟨quotient, remainder, inside⟩
  · obtain ⟨quotient, remainder⟩ := (Nat.div_mod_unique positive).mpr
      ⟨show 0 + base * (number / base + 1) = number + 1 by rw [Nat.mul_add]; omega, positive⟩
    exact .inr ⟨quotient, remainder, last⟩

theorem scanStep_scanned (width : 0 < maze.xDim) (height : 0 < maze.yDim) (number : Nat) :
    maze.scanStep (maze.scanned number) = maze.scanned (number + 1) := by
  have columns : (maze.xDim.toNat : Int) = maze.xDim := Int.toNat_of_nonneg (by omega)
  have rows : (maze.yDim.toNat : Int) = maze.yDim := Int.toNat_of_nonneg (by omega)
  rcases odometer (show 0 < maze.xDim.toNat by omega) number with
    ⟨row, column, inside⟩ | ⟨row, column, last⟩
  · rw [scanned, scanned, row, column, scanStep]
    rw [if_neg (by omega)]
    simp only [Prod.mk.injEq, and_true]
    omega
  · rw [scanned, scanned, row, column, scanStep]
    rw [if_pos (by omega)]
    rcases odometer (show 0 < maze.yDim.toNat by omega) (number / maze.xDim.toNat) with
      ⟨-, row', inside⟩ | ⟨-, row', bottom⟩
    · rw [if_neg (by omega), row']
      simp only [Prod.mk.injEq]
      omega
    · rw [if_pos (by omega), row']
      simp only [Prod.mk.injEq]
      omega

theorem scanStep_iterate (width : 0 < maze.xDim) (height : 0 < maze.yDim) (number steps : Nat) :
    maze.scanStep^[steps] (maze.scanned number) = maze.scanned (number + steps) := by
  induction steps with
  | zero => rfl
  | succ steps ih => rw [Function.iterate_succ_apply', ih, scanStep_scanned width height]; rfl

/-- A lattice point has arbitrarily large numbers. -/
theorem exists_scanned (inside : maze.Lattice point.1 point.2) (least : Nat) :
    ∃ number, least ≤ number ∧ maze.scanned number = point := by
  simp only [Lattice] at inside
  have width : 0 < maze.xDim.toNat := by omega
  have height : 0 < maze.yDim.toNat := by omega
  have column : ((point.1 - 1) / 2).toNat < maze.xDim.toNat := by omega
  have row : ((point.2 - 1) / 2).toNat < maze.yDim.toNat := by omega
  refine ⟨((point.1 - 1) / 2).toNat +
    maze.xDim.toNat * (((point.2 - 1) / 2).toNat + maze.yDim.toNat * least), ?_, ?_⟩
  · have product : 1 * (1 * least) ≤ maze.xDim.toNat * (maze.yDim.toNat * least) :=
      Nat.mul_le_mul width (Nat.mul_le_mul_right least height)
    rw [Nat.mul_add]
    omega
  · simp only [scanned]
    rw [Nat.add_mul_mod_self_left, Nat.add_mul_div_left _ _ width, Nat.mod_eq_of_lt column,
      Nat.div_eq_of_lt column, Nat.zero_add, Nat.add_mul_mod_self_left, Nat.mod_eq_of_lt row]
    ext <;> simp only <;> omega

theorem scanStep_lattice (inside : maze.Lattice x y) :
    maze.Lattice (maze.scanStep (x, y)).1 (maze.scanStep (x, y)).2 := by
  simp only [Lattice, scanStep] at *
  split
  · split <;> omega
  · omega

/-- The scan comes to any lattice point. -/
theorem scan_reaches {other : Int × Int} (inside : maze.Lattice point.1 point.2)
    (inside' : maze.Lattice other.1 other.2) :
    ∃ steps, maze.scanStep^[steps + 1] point = other := by
  have bounds := inside
  simp only [Lattice] at bounds
  obtain ⟨number, -, here⟩ := exists_scanned inside 0
  obtain ⟨number', later, there⟩ := exists_scanned inside' (number + 1)
  refine ⟨number' - number - 1, ?_⟩
  rw [← here, scanStep_iterate (by omega) (by omega), ← there]
  congr 1
  omega

/-- A scan that does not find a point has come nearer to one. -/
theorem wait_lt {other : Int × Int} (inside : maze.Lattice point.1 point.2)
    (joinable : maze.Joinable other) (passed : ¬maze.Joinable (maze.scanStep point)) :
    maze.wait (maze.scanStep point) < maze.wait point := by
  obtain ⟨steps, found⟩ := scan_reaches inside joinable.1
  have waits : maze.Joinable (maze.scanStep^[maze.wait point + 1] point) :=
    @Nat.sInf_mem {steps | maze.Joinable (maze.scanStep^[steps + 1] point)}
      ⟨steps, show maze.Joinable (maze.scanStep^[steps + 1] point) from found ▸ joinable⟩
  cases first : maze.wait point with
  | zero =>
      rw [first] at waits
      exact absurd waits passed
  | succ fewer =>
      rw [first, Function.iterate_succ_apply] at waits
      exact Nat.lt_succ_of_le (Nat.sInf_le waits)

end

end Maze

/-! ## What is marked and opened -/

/-- The number of lattice points that are not reached. -/
def Maze.unreached (maze : Maze) : Nat :=
  census maze.lattice (fun point => point &&& mazeReach = 0) maze.cells

/-- No cell holds a fruit or the exit. -/
def Maze.Bare (maze : Maze) : Prop :=
  ∀ place, maze.cells place &&& mazeFruit = 0 ∧ maze.cells place &&& mazeExit = 0

/-- All lattice points are open, and the reached ones are connected to (1,1). -/
structure Maze.Grown (maze : Maze) : Prop where
  size : ValidSize maze.xDim maze.yDim
  walled : maze.Walled
  clear : ∀ place ∈ maze.lattice, maze.cells place &&& mazeWall = 0
  bare : maze.Bare
  connected : ∀ place ∈ maze.lattice, maze.Reached place →
    Relation.ReflTransGen maze.Passage (maze.index 1 1) place

section

variable {maze after : Maze} {x y dx dy place : Int} {queue : List Int}

theorem Maze.Bare.set {value : UInt8} (bare : maze.Bare)
    (none : value &&& mazeFruit = 0 ∧ value &&& mazeExit = 0) : (maze.set x y value).Bare := by
  intro place
  by_cases here : place = maze.index x y
  · rwa [here, Maze.cells_set_self]
  · rw [Maze.cells_set_other here]
    exact bare place

theorem Maze.Grown.fenced (grown : maze.Grown) : maze.Fenced := by
  have size := grown.size
  simp only [ValidSize] at size
  exact grown.walled.fenced (by omega) (by omega)

/-- Opening cells keeps the passages. -/
theorem Maze.Passage.mono {here next : Int} (passage : maze.Passage here next)
    (xDim : after.xDim = maze.xDim)
    (opens : ∀ place, maze.cells place &&& mazeWall = 0 → after.cells place &&& mazeWall = 0) :
    after.Passage here next := by
  obtain ⟨offset, member, clear, rfl⟩ := passage
  refine ⟨offset, ?_, opens _ clear, rfl⟩
  rwa [Maze.offsets, xDim]

/-- A unit step is an offset. -/
theorem Maze.unit_offset (maze : Maze) (axis : UnitStep dx dy) (x y : Int) :
    ∃ offset ∈ maze.offsets, maze.index x y + offset = maze.index (x + dx) (y + dy) ∧
      maze.index x y + 2 * offset = maze.index (x + 2 * dx) (y + 2 * dy) := by
  refine ⟨dx + dy * maze.xDim * 2, ?_, ?_, ?_⟩
  · simp only [Maze.offsets, List.mem_cons, List.not_mem_nil, or_false]
    rcases axis with ⟨rfl, rfl | rfl⟩ | ⟨rfl, rfl | rfl⟩ <;> omega
  · simp only [Maze.index]
    ring
  · simp only [Maze.index]
    ring

theorem Maze.Fixed.outside (fixed : maze.Fixed x y) : maze.index x y ∉ maze.lattice := by
  intro member
  obtain ⟨x', y', inside, same⟩ := Maze.mem_lattice.mp member
  simp only [Maze.Fixed, Maze.Lattice] at fixed inside
  obtain ⟨columns, rows⟩ := Maze.index_injective (by omega) (by omega) (by omega) (by omega) same
  omega

/-- Marking an area keeps all that, and counts the points it reaches. -/
theorem Maze.Grown.mark (grown : maze.Grown) (inside : maze.Lattice x y)
    (fresh : ¬maze.Reached (maze.index x y))
    (path : Relation.ReflTransGen maze.Passage (maze.index 1 1) (maze.index x y)) :
    ∃ count after, markMazeArea maze x y = some (count, after) ∧ after.Grown ∧
      after.xDim = maze.xDim ∧ after.yDim = maze.yDim ∧
      (∀ place, maze.Reached place → after.Reached place) ∧ after.Reached (after.index x y) ∧
      0 < count ∧ (after.unreached : Int) = maze.unreached - count := by
  obtain ⟨queue, ended, nodup, listed, floods⟩ :=
    markMazeArea_spec grown.size grown.fenced inside fresh
  have first : maze.index x y ∈ queue := (floods _).mpr .refl
  have passes : maze.Passage ≤ Maze.Passage { maze with cells := marked maze.cells queue } :=
    fun here next passage => passage.mono rfl fun place clear => by rwa [marked_wall]
  refine ⟨_, _, ended, ⟨grown.size, ?_, ?_, ?_, ?_⟩, rfl, rfl,
    fun place reached => marked_reach.mpr (.inl reached), marked_reach.mpr (.inr first), ?_, ?_⟩
  · intro x' y' fixed
    have outside : maze.index x' y' ∉ queue := fun member =>
      fixed.outside (listed _ member).1
    exact (if_neg outside).trans (grown.walled x' y' fixed)
  · intro place member
    rw [marked_wall]
    exact grown.clear place member
  · intro place
    change marked maze.cells queue place &&& mazeFruit = 0 ∧
      marked maze.cells queue place &&& mazeExit = 0
    rw [marked]
    split
    · rw [(reach_bits _).2.1, (reach_bits _).2.2]
      exact grown.bare place
    · exact grown.bare place
  · intro place member reached
    rcases marked_reach.mp reached with before | flooded
    · exact Relation.ReflTransGen.mono passes _ _ (grown.connected place member before)
    · have onward : Relation.ReflTransGen maze.Passage (maze.index x y) place :=
        Relation.ReflTransGen.mono (fun _ _ step => step.1) _ _ ((floods place).mp flooded)
      exact Relation.ReflTransGen.mono passes _ _ (path.trans onward)
  · exact_mod_cast List.length_pos_of_mem first
  · have fewer : Maze.unreached { maze with cells := marked maze.cells queue } + queue.length =
        maze.unreached := by
      refine census_drop nodup (fun place member => ?_) fun place member => ?_
      · exact ⟨(listed place member).1, not_not.mp (listed place member).2⟩
      · rw [← not_iff_not, not_and_or, not_not]
        exact marked_reach
    omega

/-- Opening a cell closes no passage. -/
theorem Maze.passages_kept (maze : Maze) (x y : Int) :
    maze.Passage ≤ (maze.set x y 0).Passage := by
  intro here next passage
  refine passage.mono rfl fun place clear => ?_
  by_cases there : place = maze.index x y
  · rw [there, Maze.cells_set_self]
    rfl
  · rwa [Maze.cells_set_other there]

/-- The opened cell is a passage between its neighbours. -/
theorem Maze.passage_opened (maze : Maze) (axis : UnitStep dx dy) (x y : Int) :
    (maze.set (x + dx) (y + dy) 0).Passage (maze.index (x + 2 * dx) (y + 2 * dy))
      (maze.index x y) := by
  have back : UnitStep (-dx) (-dy) := by
    simp only [UnitStep] at *
    omega
  obtain ⟨offset, member, between, beyond⟩ := maze.unit_offset back (x + 2 * dx) (y + 2 * dy)
  refine ⟨offset, member, ?_, ?_⟩
  · have there : maze.index (x + 2 * dx) (y + 2 * dy) + offset = maze.index (x + dx) (y + dy) := by
      rw [between]
      congr 1 <;> omega
    rw [there, Maze.cells_set_self]
    rfl
  · rw [beyond]
    congr 1 <;> omega

/-- Opening the wall between a point and a reached one keeps it as well, and makes a path to
the point. -/
theorem Maze.Grown.dig (grown : maze.Grown) (axis : UnitStep dx dy) (inside : maze.Lattice x y)
    (inside' : maze.Lattice (x + 2 * dx) (y + 2 * dy))
    (reached : maze.Reached (maze.index (x + 2 * dx) (y + 2 * dy))) :
    (maze.set (x + dx) (y + dy) 0).Grown ∧
      (∀ place ∈ maze.lattice, (maze.set (x + dx) (y + dy) 0).Reached place ↔
        maze.Reached place) ∧
      (maze.set (x + dx) (y + dy) 0).unreached = maze.unreached ∧
      Relation.ReflTransGen (maze.set (x + dx) (y + dy) 0).Passage (maze.index 1 1)
        (maze.index x y) := by
  obtain ⟨inner, absent⟩ := Maze.between_inner axis inside inside'
  have other : ∀ place ∈ maze.lattice,
      (maze.set (x + dx) (y + dy) 0).cells place = maze.cells place := fun place member =>
    Maze.cells_set_other fun here => absent (here ▸ member)
  have same : ∀ place ∈ maze.lattice, (maze.set (x + dx) (y + dy) 0).Reached place ↔
      maze.Reached place := by
    intro place member
    rw [Maze.Reached, other place member, Maze.Reached]
  have near : maze.index (x + 2 * dx) (y + 2 * dy) ∈ maze.lattice :=
    Maze.mem_lattice.mpr ⟨_, _, inside', rfl⟩
  have along {place : Int} (path : Relation.ReflTransGen maze.Passage (maze.index 1 1) place) :
      Relation.ReflTransGen (maze.set (x + dx) (y + dy) 0).Passage (maze.index 1 1) place :=
    Relation.ReflTransGen.mono (maze.passages_kept _ _) _ _ path
  refine ⟨⟨grown.size, grown.walled.set inner, ?_, grown.bare.set ⟨rfl, rfl⟩, ?_⟩, same,
    census_outside absent,
    (along (grown.connected _ near reached)).tail (maze.passage_opened axis x y)⟩
  · intro place member
    rw [other place member]
    exact grown.clear place member
  · intro place member reached
    exact along (grown.connected place member ((same place member).mp reached))

/-- While some point is unreached, one of them has a reached neighbour. -/
theorem Maze.exists_joinable (start : maze.Reached (maze.index 1 1)) {distance : Nat}
    (inside : maze.Lattice x y) (unreached : ¬maze.Reached (maze.index x y))
    (far : (x + y).toNat = distance) : ∃ point, maze.Joinable point := by
  induction distance using Nat.strong_induction_on generalizing x y with
  | _ distance ih =>
      have bounds := inside
      simp only [Maze.Lattice] at bounds
      by_cases column : x = 1
      · by_cases row : y = 1
        · subst column row
          exact absurd start unreached
        · have above : maze.Lattice (x + 2 * 0) (y + 2 * -1) := by
            simp only [Maze.Lattice]
            omega
          by_cases reached : maze.Reached (maze.index (x + 2 * 0) (y + 2 * -1))
          · exact ⟨(x, y), inside, unreached, 0, -1, by decide, above, reached⟩
          · exact ih _ (by omega) above reached rfl
      · have left : maze.Lattice (x + 2 * -1) (y + 2 * 0) := by
          simp only [Maze.Lattice]
          omega
        by_cases reached : maze.Reached (maze.index (x + 2 * -1) (y + 2 * 0))
        · exact ⟨(x, y), inside, unreached, -1, 0, by decide, left, reached⟩
        · exact ih _ (by omega) left reached rfl

theorem reached_iff {x' y' : Int} (column : x' = x) (row : y' = y) :
    maze.Reached (maze.index x' y') ↔ maze.point x y &&& mazeReach ≠ 0 := by
  subst column row
  rfl

end

/-! ## The invariant -/

namespace Joining

/-- What holds between the iterations. -/
structure Grows (xDim yDim : Int) (joining : Joining) : Prop where
  xDim : joining.maze.xDim = xDim
  yDim : joining.maze.yDim = yDim
  grown : joining.maze.Grown
  inside : joining.maze.Lattice joining.x joining.y
  start : joining.maze.Reached (joining.maze.index 1 1)
  count : joining.remaining = joining.maze.unreached

section

variable {xDim yDim : Int} {joining : Joining}

/-- The point may be any lattice point, and the trials and random values do not matter. -/
theorem Grows.move {x y : Int} (grows : joining.Grows xDim yDim) (inside : joining.maze.Lattice x y)
    (trials : Int) (random : Stream' Nat) :
    Grows xDim yDim { joining with x := x, y := y, trials := trials, random := random } :=
  ⟨grows.xDim, grows.yDim, grows.grown, inside, grows.start, grows.count⟩

/-- The wall that `wall` finds lies between the point and a reached one. -/
theorem wall_some {wall : Int × Int} (inside : joining.maze.Lattice joining.x joining.y)
    (found : joining.wall = some wall) :
    ∃ dx dy, UnitStep dx dy ∧ wall = (joining.x + dx, joining.y + dy) ∧
      joining.maze.Lattice (joining.x + 2 * dx) (joining.y + 2 * dy) ∧
      joining.maze.Reached (joining.maze.index (joining.x + 2 * dx) (joining.y + 2 * dy)) := by
  obtain ⟨maze, x, y, _, _, _⟩ := joining
  simp only [Maze.Lattice] at inside ⊢
  simp only [Joining.wall] at found
  split at found
  next up =>
    refine ⟨0, -1, by decide, ?_, by omega, (reached_iff (by omega) (by omega)).mpr up.2⟩
    rw [← Option.some.inj found, Int.add_zero, Int.sub_eq_add_neg]
  · split at found
    next left =>
      refine ⟨-1, 0, by decide, ?_, by omega, (reached_iff (by omega) (by omega)).mpr left.2⟩
      rw [← Option.some.inj found, Int.add_zero, Int.sub_eq_add_neg]
    · split at found
      next right =>
        refine ⟨1, 0, by decide, ?_, by omega, (reached_iff (by omega) (by omega)).mpr right.2⟩
        rw [← Option.some.inj found, Int.add_zero]
      · split at found
        next down =>
          refine ⟨0, 1, by decide, ?_, by omega, (reached_iff (by omega) (by omega)).mpr down.2⟩
          rw [← Option.some.inj found, Int.add_zero]
        · cases found

/-- It finds one when there is any. -/
theorem wall_none (inside : joining.maze.Lattice joining.x joining.y)
    (failed : joining.wall = none) : ¬joining.maze.Beside joining.x joining.y := by
  obtain ⟨maze, x, y, _, _, _⟩ := joining
  rintro ⟨dx, dy, axis, inside', reached⟩
  change maze.Lattice x y at inside
  change maze.Reached (maze.index (x + 2 * dx) (y + 2 * dy)) at reached
  simp only [Maze.Lattice] at inside inside'
  simp only [Joining.wall] at failed
  split at failed
  · cases failed
  next up =>
    split at failed
    · cases failed
    next left =>
      split at failed
      · cases failed
      next right =>
        split at failed
        · cases failed
        next down =>
          rcases axis with ⟨rfl, rfl | rfl⟩ | ⟨rfl, rfl | rfl⟩
          · exact down ⟨by omega, (reached_iff (by omega) (by omega)).mp reached⟩
          · exact up ⟨by omega, (reached_iff (by omega) (by omega)).mp reached⟩
          · exact right ⟨by omega, (reached_iff (by omega) (by omega)).mp reached⟩
          · exact left ⟨by omega, (reached_iff (by omega) (by omega)).mp reached⟩

/-- An unreached point is connected with all that it leads to, unless it has no reached
neighbour. -/
theorem Grows.connect (grows : joining.Grows xDim yDim)
    (fresh : ¬joining.maze.Reached (joining.maze.index joining.x joining.y)) :
    ∃ next, joining.connect = some next.test ∧ next.Grows xDim yDim ∧
      next.trials = joining.trials ∧ next.random = joining.random ∧
      (next.remaining < joining.remaining ∨
        next = joining ∧ ¬joining.maze.Beside joining.x joining.y) := by
  rw [Joining.connect]
  match found : joining.wall with
  | none => exact ⟨joining, rfl, grows, rfl, rfl, .inr ⟨rfl, wall_none grows.inside found⟩⟩
  | some wall =>
      obtain ⟨dx, dy, axis, rfl, inside', reached⟩ := wall_some grows.inside found
      obtain ⟨grown, same, unreached, path⟩ :=
        grows.grown.dig axis grows.inside inside' reached
      have here := Maze.mem_lattice.mpr ⟨_, _, grows.inside, rfl⟩
      have corner := Maze.mem_lattice.mpr ⟨1, 1, Maze.lattice_corner grows.grown.size, rfl⟩
      obtain ⟨count, after, ended, grown', xDim', yDim', kept, -, positive, fewer⟩ :=
        grown.mark grows.inside (fun known => fresh ((same _ here).mp known)) path
      have count' := grows.count
      have after_index : after.index 1 1 = joining.maze.index 1 1 := by
        rw [Maze.index, xDim', Maze.index]
        rfl
      have after_inside : after.Lattice joining.x joining.y := by
        rw [Maze.Lattice, xDim', yDim']
        exact grows.inside
      refine ⟨{ joining with maze := after, remaining := joining.remaining - count }, ?_,
        ⟨xDim'.trans grows.xDim, yDim'.trans grows.yDim, grown', after_inside, ?_, ?_⟩, rfl, rfl,
        .inl ?_⟩
      · simp only [ended, Option.map_some]
      · rw [after_index]
        exact kept _ ((same _ corner).mpr grows.start)
      · simp only
        omega
      · simp only
        omega

/-- The second phase starts with what the worms have left. -/
theorem Grows.initial {dug : Digging} (crawls : dug.Crawls xDim yDim)
    (clear : ∀ place ∈ dug.maze.lattice, dug.maze.cells place = 0) :
    ∃ marked, dug.mark = some marked ∧ marked.Grows xDim yDim := by
  have corner := Maze.lattice_corner crawls.size
  have fresh : ∀ place ∈ dug.maze.lattice, ¬dug.maze.Reached place := by
    intro place member
    rw [Maze.Reached, clear place member]
    decide
  have grown : dug.maze.Grown := by
    refine ⟨crawls.size, crawls.walled, fun place member => ?_, fun place => ?_,
      fun place member reached => ?_⟩
    · rw [clear place member]
      rfl
    · rcases crawls.plain place with none | wall
      · rw [none]
        decide
      · rw [wall]
        decide
    · exact absurd reached (fresh place member)
  have all : dug.maze.unreached = dug.maze.lattice.card :=
    congrArg Finset.card (Finset.filter_true_of_mem fun place member =>
      not_not.mp (fresh place member))
  have points := Maze.lattice_points crawls.size
  obtain ⟨count, after, ended, grown', columns, rows, -, start, -, fewer⟩ :=
    grown.mark corner (fresh _ (Maze.mem_lattice.mpr ⟨1, 1, corner, rfl⟩)) .refl
  refine ⟨_, by rw [Digging.mark, ended, Option.map_some], columns.trans crawls.xDim,
    rows.trans crawls.yDim, grown', ?_, start, ?_⟩
  · rw [Maze.Lattice, columns, rows]
    exact crawls.inside
  · simp only
    rw [columns, rows]
    omega

/-! ### One iteration -/

/-- Once the other points are few, or after 100 trials, the second phase scans. -/
def Scans (joining : Joining) : Prop :=
  joining.remaining < 20 ∨ joining.trials ≥ 100

theorem scan_eq (joining : Joining) :
    joining.scan = { joining with
      x := (joining.maze.scanStep (joining.x, joining.y)).1
      y := (joining.maze.scanStep (joining.x, joining.y)).2 } := by
  rw [Joining.scan, Maze.scanStep]
  split <;> rfl

/-- An iteration that scans connects the next point, or the point cannot be connected. -/
theorem Grows.join_scans (grows : joining.Grows xDim yDim) (scans : joining.Scans) (fuel : Nat) :
    ∃ next : Joining, joining.join fuel = some next.test ∧ next.Grows xDim yDim ∧
      joining.trials ≤ next.trials ∧ next.random = joining.random ∧
      (next.remaining < joining.remaining ∨
        next.remaining = joining.remaining ∧ next.maze = joining.maze ∧
          (next.x, next.y) = joining.maze.scanStep (joining.x, joining.y) ∧
          ¬joining.maze.Joinable (joining.maze.scanStep (joining.x, joining.y))) := by
  have inside := Maze.scanStep_lattice grows.inside
  have scanned (trials : Int) := grows.move inside trials joining.random
  have scanning : joining.remaining < 20 ∨
      (if joining.remaining < 20 then joining.trials else joining.trials + 1) > 100 := by
    rcases scans with few | tried
    · exact .inl few
    · split <;> omega
  have trials : joining.trials ≤
      if joining.remaining < 20 then joining.trials else joining.trials + 1 := by
    split <;> omega
  simp only [Joining.join, scan_eq, if_pos scanning]
  split
  next reached =>
    exact ⟨_, rfl, scanned _, trials, rfl, .inr ⟨rfl, rfl, rfl, fun joinable =>
      joinable.2.1 reached⟩⟩
  next fresh =>
    obtain ⟨next, ended, grows', trials', random, later⟩ := (scanned _).connect fresh
    refine ⟨next, ended, grows', trials'.symm ▸ trials, random, ?_⟩
    rcases later with fewer | ⟨rfl, alone⟩
    · exact .inl fewer
    · exact .inr ⟨rfl, rfl, rfl, fun joinable => alone joinable.2.2⟩

theorem join_eq_pick (scans : ¬joining.Scans) (fuel : Nat) :
    joining.join fuel =
      (pickPoint joining.maze (fun point => point &&& mazeReach ≠ 0) fuel
        ⟨joining.x, joining.y, joining.random⟩).bind fun pick =>
          connect { joining with
            trials := joining.trials + 1
            x := pick.x
            y := pick.y
            random := pick.random } := by
  simp only [Scans] at scans
  have many : ¬joining.remaining < 20 := by omega
  simp only [Joining.join, if_neg many]
  rw [if_neg (by omega)]

/-- An iteration that picks a point at random. -/
theorem Grows.join_picks (grows : joining.Grows xDim yDim) (scans : ¬joining.Scans)
    {fuel : Nat} {pick : Pick}
    (found : pickPoint joining.maze (fun point => point &&& mazeReach ≠ 0) fuel
      ⟨joining.x, joining.y, joining.random⟩ = some pick) :
    ∃ next : Joining, joining.join fuel = some next.test ∧ next.Grows xDim yDim ∧
      next.trials = joining.trials + 1 ∧ next.random = pick.random ∧
      next.remaining ≤ joining.remaining := by
  have size := grows.grown.size
  simp only [ValidSize] at size
  obtain ⟨accepted, inside⟩ := pickPoint_spec (by omega) (by omega) found
  have picked := grows.move inside (joining.trials + 1) pick.random
  have fresh : ¬joining.maze.Reached (joining.maze.index pick.x pick.y) := by
    simpa [Maze.Reached, Maze.cells_index] using accepted
  obtain ⟨next, ended, grows', trials, random, later⟩ := picked.connect fresh
  refine ⟨next, ?_, grows', trials, random, ?_⟩
  · rw [join_eq_pick scans, found]
    exact ended
  · rcases later with fewer | ⟨rfl, -⟩
    · exact Int.le_of_lt fewer
    · exact Int.le_refl _

/-- What an iteration keeps.  A phase that scans goes on scanning, and only a pick draws random
values. -/
theorem Grows.join {fuel : Nat} {step : ForInStep Joining} (grows : joining.Grows xDim yDim)
    (ended : joining.join fuel = some step) :
    ∃ next : Joining, step = next.test ∧ next.Grows xDim yDim ∧
      (joining.Scans → next.Scans) ∧ (next.random = joining.random ∨ ∃ pick,
        pickPoint joining.maze (fun point => point &&& mazeReach ≠ 0) fuel
          ⟨joining.x, joining.y, joining.random⟩ = some pick ∧ next.random = pick.random) := by
  by_cases scans : joining.Scans
  · obtain ⟨next, ended', grows', trials, random, later⟩ := grows.join_scans scans fuel
    refine ⟨next, Option.some.inj (ended.symm.trans ended'), grows', fun _ => ?_, .inl random⟩
    simp only [Scans] at *
    rcases later with fewer | ⟨same, -⟩ <;> omega
  · have picked := ended
    rw [join_eq_pick scans] at picked
    obtain ⟨pick, found, -⟩ := Option.bind_eq_some_iff.mp picked
    obtain ⟨next, ended', grows', -, random, -⟩ := grows.join_picks scans found
    exact ⟨next, Option.some.inj (ended.symm.trans ended'), grows',
      fun scanning => absurd scanning scans, .inr ⟨pick, found, random⟩⟩

theorem join_mono : FuelMonotone Joining.join := by
  intro fuel more joining step enough ran
  simp only [Joining.join] at ran ⊢
  by_cases scanning : joining.remaining < 20 ∨
      (if joining.remaining < 20 then joining.trials else joining.trials + 1) > 100
  · rw [if_pos scanning] at ran ⊢
    exact ran
  · rw [if_neg scanning] at ran ⊢
    obtain ⟨pick, found, ended⟩ := Option.bind_eq_some_iff.mp ran
    rw [pickPoint_mono enough found]
    exact ended

/-! ### Termination -/

/-- The trials left, the points left, and the points that the scan passes before the next one
that it can connect. -/
noncomputable def rank (joining : Joining) : Nat ×ₗ Nat ×ₗ Nat :=
  toLex ((101 - joining.trials).toNat, toLex (joining.remaining.toNat,
    joining.maze.wait (joining.x, joining.y)))

theorem Grows.exists_joinable (grows : joining.Grows xDim yDim)
    (positive : 0 < joining.remaining) : ∃ point, joining.maze.Joinable point := by
  have count := grows.count
  have some' : joining.maze.unreached ≠ 0 := by omega
  simp only [Maze.unreached, ne_eq, census_eq_zero, not_forall, not_not] at some'
  obtain ⟨place, member, unreached⟩ := some'
  obtain ⟨x, y, inside, rfl⟩ := Maze.mem_lattice.mp member
  exact Maze.exists_joinable grows.start inside (not_not.mpr unreached) rfl

/-- An iteration of the scan connects some point, or comes nearer to one. -/
theorem Grows.rank_scans {next : Joining} (grows : joining.Grows xDim yDim)
    (positive : 0 < joining.remaining) (trials : joining.trials ≤ next.trials)
    (later : next.remaining < joining.remaining ∨
      next.remaining = joining.remaining ∧ next.maze = joining.maze ∧
        (next.x, next.y) = joining.maze.scanStep (joining.x, joining.y) ∧
        ¬joining.maze.Joinable (joining.maze.scanStep (joining.x, joining.y))) :
    next.rank < joining.rank := by
  obtain ⟨point, joinable⟩ := grows.exists_joinable positive
  simp only [rank, Prod.Lex.toLex_lt_toLex]
  rcases Nat.lt_or_eq_of_le
    (show (101 - next.trials).toNat ≤ (101 - joining.trials).toNat by omega) with more | same
  · exact .inl more
  · rcases later with fewer | ⟨remaining, maze, point, passed⟩
    · exact .inr ⟨same, .inl (by omega)⟩
    · rw [remaining, maze, point]
      exact .inr ⟨same, .inr ⟨rfl, Maze.wait_lt grows.inside joinable passed⟩⟩

/-- An iteration that picks a point is one trial less. -/
theorem rank_picks {next : Joining} (scans : ¬joining.Scans)
    (trials : next.trials = joining.trials + 1) : next.rank < joining.rank := by
  simp only [Scans] at scans
  simp only [rank, Prod.Lex.toLex_lt_toLex]
  exact .inl (by omega)

theorem test_yield {next : Joining} (step : joining.test = .yield next) :
    next = joining ∧ 0 < joining.remaining := by
  simp only [Joining.test] at step
  split at step
  next positive => exact ⟨(ForInStep.yield.inj step).symm, positive⟩
  · cases step

theorem test_done {last : Joining} (step : joining.test = .done last) :
    last = joining ∧ joining.remaining ≤ 0 := by
  simp only [Joining.test] at step
  split at step
  · cases step
  next none => exact ⟨(ForInStep.done.inj step).symm, by omega⟩

/-- An iteration ends when its picks do. -/
theorem Grows.progress (grows : joining.Grows xDim yDim)
    (picks : ¬joining.Scans → ∃ fuel pick,
      pickPoint joining.maze (fun point => point &&& mazeReach ≠ 0) fuel
        ⟨joining.x, joining.y, joining.random⟩ = some pick) :
    ∃ fuel step, joining.join fuel = some step ∧
      ∀ next, step = .yield next → next.Grows xDim yDim ∧ next.rank < joining.rank := by
  by_cases scans : joining.Scans
  · obtain ⟨last, ended, grows', trials, -, later⟩ := grows.join_scans scans 0
    refine ⟨0, _, ended, fun next step => ?_⟩
    obtain ⟨rfl, positive⟩ := test_yield step
    refine ⟨grows', grows.rank_scans ?_ trials later⟩
    rcases later with fewer | ⟨same, -⟩ <;> omega
  · obtain ⟨fuel, pick, found⟩ := picks scans
    obtain ⟨last, ended, grows', trials, -⟩ := grows.join_picks scans found
    refine ⟨fuel, _, ended, fun next step => ?_⟩
    obtain ⟨rfl, -⟩ := test_yield step
    exact ⟨grows', rank_picks scans trials⟩

theorem Grows.step {next : Joining} (grows : joining.Grows xDim yDim)
    (step : LoopStep Joining.join joining next) :
    next.Grows xDim yDim ∧ (joining.Scans → next.Scans) := by
  obtain ⟨fuel, ended⟩ := step
  obtain ⟨last, yielded, grows', scans, -⟩ := grows.join ended
  obtain ⟨rfl, -⟩ := test_yield yielded.symm
  exact ⟨grows', scans⟩

theorem Grows.path {later : Joining} (grows : joining.Grows xDim yDim)
    (path : Relation.ReflTransGen (LoopStep Joining.join) joining later) :
    later.Grows xDim yDim ∧ (joining.Scans → later.Scans) := by
  induction path with
  | refl => exact ⟨grows, id⟩
  | tail _ step ih =>
      obtain ⟨grows', scans'⟩ := ih.1.step step
      exact ⟨grows', scans' ∘ ih.2⟩

/-- The second phase ends when every pick on its way does. -/
theorem Grows.ends (grows : joining.Grows xDim yDim)
    (picks : ∀ later, Relation.ReflTransGen (LoopStep Joining.join) joining later →
      ¬later.Scans → ∃ fuel pick,
        pickPoint later.maze (fun point => point &&& mazeReach ≠ 0) fuel
          ⟨later.x, later.y, later.random⟩ = some pick) :
    ∃ fuel last, secondPhase fuel joining = some last := by
  have wellFounded : WellFounded (InvImage (· < ·) rank) := InvImage.wf rank wellFounded_lt
  have progress : ∀ later : Joining,
      Relation.ReflTransGen (LoopStep Joining.join) joining later →
      ∃ fuel step, later.join fuel = some step ∧ ∀ next, step = .yield next →
        Relation.ReflTransGen (LoopStep Joining.join) joining next ∧
          InvImage (· < ·) rank next later := by
    intro later path
    obtain ⟨fuel, step, ended, descends⟩ := (grows.path path).1.progress (picks later path)
    refine ⟨fuel, step, ended, fun next yielded => ?_⟩
    exact ⟨path.tail ⟨fuel, yielded ▸ ended⟩, (descends next yielded).2⟩
  exact loop_ends join_mono wellFounded progress .refl

/-- Once it scans it ends, whatever the random values are. -/
theorem Grows.ends_scanning (grows : joining.Grows xDim yDim) (scans : joining.Scans)
    (random : Stream' Nat) :
    ∃ fuel last, secondPhase fuel { joining with random := random } = some last := by
  have grows' := grows.move grows.inside joining.trials random
  exact grows'.ends fun later path picks => absurd ((grows'.path path).2 scans) picks

/-- When it has ended nothing remains. -/
theorem Grows.done {fuel : Nat} {last : Joining} (grows : joining.Grows xDim yDim)
    (ended : secondPhase fuel joining = some last) :
    last.Grows xDim yDim ∧ last.remaining = 0 := by
  have keeps : ∀ state next : Joining, state.Grows xDim yDim →
      state.join fuel = some (.yield next) → next.Grows xDim yDim :=
    fun state next grows step => (grows.step ⟨fuel, step⟩).1
  have ends : ∀ state last : Joining, state.Grows xDim yDim →
      state.join fuel = some (.done last) → last.Grows xDim yDim ∧ last.remaining = 0 := by
    intro state last grows step
    obtain ⟨next, same, grows', -⟩ := grows.join step
    obtain ⟨rfl, none⟩ := test_done same.symm
    have count := grows'.count
    exact ⟨grows', by omega⟩
  have final := loop_invariant keeps ends grows ended
  exact final

end

end Joining

end Ece391.ModeX
