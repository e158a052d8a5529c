import Ece391.ModeX.MakeMaze

/-!
# The worm phase

A worm is always on an (odd,odd) lattice point, and digs lattice points and cells between two
of them only, so the boundary and the (even,even) points stay walls.  `remaining` is the
number of lattice points that are still walls, and when none is left all are open.
-/

namespace Ece391.ModeX

open Ece391.Library

/-! ## Walls that stay -/

/-- The boundary and the (even,even) points.  Below the last row column 0 is still the right
boundary of the row before. -/
def Maze.Fixed (maze : Maze) (x y : Int) : Prop :=
  0 ≤ x ∧ x < 2 * maze.xDim ∧ 0 ≤ y ∧ y ≤ 2 * maze.yDim + 1 ∧
    (x = 0 ∨ y = 0 ∨ y = 2 * maze.yDim ∨ (x % 2 = 0 ∧ y % 2 = 0))

/-- The other points: lattice points, and cells between two of them. -/
def Maze.Inner (maze : Maze) (x y : Int) : Prop :=
  0 < x ∧ x < 2 * maze.xDim ∧ 0 < y ∧ y < 2 * maze.yDim ∧ (x % 2 = 1 ∨ y % 2 = 1)

def Maze.Walled (maze : Maze) : Prop :=
  ∀ x y, maze.Fixed x y → maze.point x y = mazeWall

section

variable {maze : Maze} {x y : Int} {value : UInt8}

@[simp] theorem Maze.cells_set_self : (maze.set x y value).cells (maze.index x y) = value :=
  Function.update_self ..

theorem Maze.cells_set_other {place : Int} (other : place ≠ maze.index x y) :
    (maze.set x y value).cells place = maze.cells place :=
  Function.update_of_ne other ..

/-- Writing a point changes no other point of the maze. -/
theorem Maze.point_set_other {x' y' : Int} (left : 0 ≤ x) (right : x < 2 * maze.xDim)
    (left' : 0 ≤ x') (right' : x' < 2 * maze.xDim) (different : x' ≠ x ∨ y' ≠ y) :
    (maze.set x y value).point x' y' = maze.point x' y' := by
  refine Function.update_of_ne (fun same => ?_) ..
  obtain ⟨columns, rows⟩ := Maze.index_injective left' right' left right same
  omega

theorem Maze.Walled.set (walled : maze.Walled) (inner : maze.Inner x y) :
    (maze.set x y value).Walled := by
  intro x' y' fixed
  have bounds : maze.Fixed x' y' := fixed
  simp only [Maze.Fixed, Maze.Inner] at bounds inner
  rw [Maze.point_set_other (by omega) (by omega) (by omega) (by omega) (by omega)]
  exact walled x' y' fixed

theorem Maze.Walled.fenced (walled : maze.Walled) (height : 0 < maze.yDim)
    (width : 0 < maze.xDim) : maze.Fenced := by
  have wall : mazeWall &&& mazeWall ≠ 0 := by decide
  constructor
  · intro x left right
    rw [walled x 0 ⟨left, right, by omega, by omega, .inr (.inl rfl)⟩]
    exact wall
  · intro x left right
    rw [walled x _ ⟨left, right, by omega, by omega, .inr (.inr (.inl rfl))⟩]
    exact wall
  · intro y above below
    rw [walled 0 y ⟨by omega, by omega, above, by omega, .inl rfl⟩]
    exact wall

theorem Maze.Lattice.inner (inside : maze.Lattice x y) : maze.Inner x y := by
  simp only [Maze.Lattice, Maze.Inner] at *
  omega

/-- A cell between two lattice points is no lattice point itself. -/
theorem Maze.between_inner {dx dy : Int} (axis : UnitStep dx dy)
    (inside : maze.Lattice x y) (inside' : maze.Lattice (x + 2 * dx) (y + 2 * dy)) :
    maze.Inner (x + dx) (y + dy) ∧ maze.index (x + dx) (y + dy) ∉ maze.lattice := by
  simp only [Maze.Lattice] at inside inside'
  refine ⟨by simp only [Maze.Inner]; omega, fun member => ?_⟩
  obtain ⟨x', y', other, same⟩ := Maze.mem_lattice.mp member
  simp only [Maze.Lattice] at other
  obtain ⟨columns, rows⟩ := Maze.index_injective (by omega) (by omega) (by omega) (by omega) same
  omega

end

/-! ## The invariant -/

/-- The number of lattice points that are still walls. -/
def Maze.solid (maze : Maze) : Nat :=
  census maze.lattice (fun point => point = mazeWall) maze.cells

/-- What holds between the worms. -/
structure Digging.Digs (xDim yDim : Int) (digging : Digging) : Prop where
  xDim : digging.maze.xDim = xDim
  yDim : digging.maze.yDim = yDim
  size : ValidSize digging.maze.xDim digging.maze.yDim
  walled : digging.maze.Walled
  plain : ∀ place, digging.maze.cells place = 0 ∨ digging.maze.cells place = mazeWall
  count : digging.remaining = digging.maze.solid

/-- What holds while a worm digs. -/
structure Digging.Crawls (xDim yDim : Int) (digging : Digging) : Prop
    extends digging.Digs xDim yDim where
  inside : digging.maze.Lattice digging.x digging.y
  direction : digging.prefDir < 4

section

variable {maze : Maze} {digging next last : Digging} {dir fuel : Nat} {x y xDim yDim : Int}

theorem plain_set (plain : ∀ place, maze.cells place = 0 ∨ maze.cells place = mazeWall)
    (x y : Int) (place : Int) :
    (maze.set x y 0).cells place = 0 ∨ (maze.set x y 0).cells place = mazeWall := by
  by_cases here : place = maze.index x y
  · exact .inl (by simp [Maze.set, here])
  · simpa [Maze.set, here] using plain place

/-- Opening a lattice point. -/
theorem Maze.solid_dig (inside : maze.Lattice x y) :
    (maze.set x y 0).solid + (if maze.point x y = mazeWall then 1 else 0) = maze.solid := by
  have member : maze.index x y ∈ maze.lattice := Maze.mem_lattice.mpr ⟨x, y, inside, rfl⟩
  change census maze.lattice (fun point => point = mazeWall)
    (Function.update maze.cells (maze.index x y) 0) + _ =
      census maze.lattice (fun point => point = mazeWall) maze.cells
  split
  next wall => exact census_loss member wall (by decide)
  next clear =>
    refine (Nat.add_zero _).trans (census_same ?_)
    rw [Maze.cells_index]
    simp only [clear, iff_false]
    decide

theorem Digging.dirStep_axis (dir : Nat) : UnitStep (dirStep dir).1 (dirStep dir).2 := by
  match dir with
  | 0 | 1 | 2 | _ + 3 => simp [UnitStep, dirStep]

/-- The worm digs the cell between and the new lattice point. -/
theorem Digging.Crawls.crawl (crawls : digging.Crawls xDim yDim) (direction : dir < 4)
    (inside' : digging.maze.Lattice (digging.x + 2 * (dirStep dir).1)
      (digging.y + 2 * (dirStep dir).2)) : (digging.crawl dir).Crawls xDim yDim := by
  obtain ⟨⟨columns, rows, size, walled, plain, count⟩, inside, -⟩ := crawls
  obtain ⟨inner, absent⟩ := Maze.between_inner (dirStep_axis dir) inside inside'
  have passed : (digging.maze.set (digging.x + (dirStep dir).1) (digging.y + (dirStep dir).2)
      0).solid = digging.maze.solid := census_outside absent
  have dug := @Maze.solid_dig (digging.maze.set (digging.x + (dirStep dir).1)
    (digging.y + (dirStep dir).2) 0) _ _ inside'
  refine ⟨⟨columns, rows, size, (walled.set inner).set inside'.inner,
    plain_set (plain_set plain _ _) _ _, ?_⟩, inside', direction⟩
  simp only [Digging.crawl]
  split
  next wall =>
    rw [if_pos wall] at dug
    omega
  next clear =>
    rw [if_neg clear] at dug
    omega

/-- A weight is positive. -/
theorem turnWt_pos (turn : Nat) (wall : Bool) : 0 < turnWt turn wall := by
  rw [turnWt.eq_def]
  split <;> decide

/-- A random value below the total falls to a direction with a positive weight. -/
theorem cumulative_choice (weight : Fin 4 → Nat) {pick : Nat}
    (below : pick < weight 0 + weight 1 + weight 2 + weight 3) :
    ∃ dir : Fin 4, 0 < weight dir ∧
      ([weight 0, weight 0 + weight 1, weight 0 + weight 1 + weight 2,
        weight 0 + weight 1 + weight 2 + weight 3].findIdx? fun wt => pick < wt) =
          some dir.val := by
  simp only [List.findIdx?_cons]
  by_cases first : pick < weight 0
  · exact ⟨0, by omega, by simp [first]⟩
  · by_cases second : pick < weight 0 + weight 1
    · exact ⟨1, by omega, by simp [first, second]⟩
    · by_cases third : pick < weight 0 + weight 1 + weight 2
      · exact ⟨2, by omega, by simp [first, second, third]⟩
      · exact ⟨3, by omega, by simp [first, second, third, below]⟩

/-- The weights of the four directions. -/
def Digging.weight (digging : Digging) (dir : Fin 4) : Nat :=
  match dir with
  | 0 =>
      if digging.y > 1 then turnWt digging.prefDir (digging.solid digging.x (digging.y - 2)) else 0
  | 1 =>
      if digging.x < digging.maze.xDim * 2 - 1 then
        turnWt ((digging.prefDir + 3) % 4) (digging.solid (digging.x + 2) digging.y)
      else 0
  | 2 =>
      if digging.y < digging.maze.yDim * 2 - 1 then
        turnWt ((digging.prefDir + 2) % 4) (digging.solid digging.x (digging.y + 2))
      else 0
  | 3 =>
      if digging.x > 1 then
        turnWt ((digging.prefDir + 1) % 4) (digging.solid (digging.x - 2) digging.y)
      else 0

theorem Digging.wt_eq (digging : Digging) :
    digging.wt = [digging.weight 0, digging.weight 0 + digging.weight 1,
      digging.weight 0 + digging.weight 1 + digging.weight 2,
      digging.weight 0 + digging.weight 1 + digging.weight 2 + digging.weight 3] :=
  rfl

/-- A direction has a weight exactly when it stays inside the lattice. -/
theorem Digging.Crawls.weight_pos (crawls : digging.Crawls xDim yDim) (dir : Fin 4) :
    0 < digging.weight dir ↔ digging.maze.Lattice (digging.x + 2 * (dirStep dir).1)
      (digging.y + 2 * (dirStep dir).2) := by
  have positive (condition : Prop) [Decidable condition] (turn : Nat) (wall : Bool) :
      0 < (if condition then turnWt turn wall else 0) ↔ condition := by
    split
    next holds => simp [turnWt_pos, holds]
    next fails => simp [fails]
  have inside := crawls.inside
  simp only [Maze.Lattice] at inside ⊢
  have cases : ∀ dir : Fin 4, dir = 0 ∨ dir = 1 ∨ dir = 2 ∨ dir = 3 := by decide
  rcases cases dir with rfl | rfl | rfl | rfl
  · have step : Digging.dirStep (0 : Fin 4).val = (0, -1) := rfl
    simp only [Digging.weight, positive, step]
    omega
  · have step : Digging.dirStep (1 : Fin 4).val = (1, 0) := rfl
    simp only [Digging.weight, positive, step]
    omega
  · have step : Digging.dirStep (2 : Fin 4).val = (0, 1) := rfl
    simp only [Digging.weight, positive, step]
    omega
  · have step : Digging.dirStep (3 : Fin 4).val = (-1, 0) := rfl
    simp only [Digging.weight, positive, step]
    omega

/-- There is a direction to choose, and the one chosen stays inside the lattice. -/
theorem Digging.Crawls.choose (crawls : digging.Crawls xDim yDim) (random : Nat) :
    digging.wt.getLastD 0 ≠ 0 ∧
      ∃ dir, (digging.wt.findIdx? fun wt => random % digging.wt.getLastD 0 < wt) = some dir ∧
        dir < 4 ∧ digging.maze.Lattice (digging.x + 2 * (dirStep dir).1)
          (digging.y + 2 * (dirStep dir).2) := by
  have size := crawls.size
  have inside := crawls.inside
  simp only [ValidSize, Maze.Lattice] at size inside
  have some' : 0 < digging.weight 1 ∨ 0 < digging.weight 3 := by
    have right : Digging.dirStep (1 : Fin 4).val = (1, 0) := rfl
    have left : Digging.dirStep (3 : Fin 4).val = (-1, 0) := rfl
    rw [crawls.weight_pos, crawls.weight_pos, right, left]
    simp only [Maze.Lattice]
    omega
  have total : 0 < digging.weight 0 + digging.weight 1 + digging.weight 2 + digging.weight 3 := by
    omega
  rw [Digging.wt_eq]
  refine ⟨Nat.ne_of_gt total, ?_⟩
  obtain ⟨dir, positive, found⟩ := cumulative_choice digging.weight (Nat.mod_lt random total)
  exact ⟨dir, found, dir.isLt, (crawls.weight_pos dir).mp positive⟩

/-! ## Runs -/

/-- The random values do not matter to it. -/
theorem Digging.Crawls.draw (crawls : digging.Crawls xDim yDim) (random : Stream' Nat) :
    Digging.Crawls xDim yDim { digging with random := random } :=
  ⟨⟨crawls.xDim, crawls.yDim, crawls.size, crawls.walled, crawls.plain, crawls.count⟩,
    crawls.inside, crawls.direction⟩

/-- One turn ends the worm where it is, or it crawls on. -/
theorem Digging.Crawls.turn (crawls : digging.Crawls xDim yDim) :
    digging.turn = some (.done { digging with random := digging.random.tail }) ∨
      ∃ next, digging.turn = some (.yield next) ∧ next.Crawls xDim yDim := by
  obtain ⟨total, dir, found, direction, inside⟩ := crawls.choose digging.random.head
  simp only [Digging.turn, if_neg total, found, Option.map_some]
  split
  · exact .inl rfl
  · exact .inr ⟨_, rfl, (crawls.draw digging.random.tail).crawl direction inside⟩

/-- A worm that ends has only crawled. -/
theorem Digging.Crawls.walk (crawls : digging.Crawls xDim yDim)
    (ended : loop Digging.turn fuel digging = some last) : last.Crawls xDim yDim := by
  have keeps : ∀ state next : Digging, state.Crawls xDim yDim →
      state.turn = some (.yield next) → next.Crawls xDim yDim := by
    intro state next crawls step
    rcases crawls.turn with ended | ⟨_, more, crawls'⟩
    · cases ended.symm.trans step
    · cases more.symm.trans step
      exact crawls'
  have ends : ∀ state last : Digging, state.Crawls xDim yDim →
      state.turn = some (.done last) → last.Crawls xDim yDim := by
    intro state last crawls step
    rcases crawls.turn with ended | ⟨_, more, -⟩
    · cases ended.symm.trans step
      exact crawls.draw _
    · cases more.symm.trans step
  exact loop_invariant keeps ends crawls ended

/-- A new worm starts on a wall of the lattice, which it opens. -/
theorem Digging.Digs.hatch {pick : Pick} (digs : digging.Digs xDim yDim)
    (wall : digging.maze.point pick.x pick.y = mazeWall)
    (inside : digging.maze.Lattice pick.x pick.y) :
    Digging.Crawls xDim yDim
      { digging with
        maze := digging.maze.set pick.x pick.y 0
        x := pick.x
        y := pick.y
        remaining := digging.remaining - 1
        prefDir := pick.random.head % 4
        random := pick.random.tail } := by
  have dug := Maze.solid_dig inside
  rw [if_pos wall] at dug
  have count := digs.count
  refine ⟨⟨digs.xDim, digs.yDim, digs.size, digs.walled.set inside.inner,
    plain_set digs.plain _ _, ?_⟩, inside, Nat.mod_lt _ (by decide)⟩
  change digging.remaining - 1 = ((digging.maze.set pick.x pick.y 0).solid : Int)
  omega

/-- One worm, after which all lattice points are open or the next one starts. -/
theorem Digging.Digs.worm {step : ForInStep Digging} (digs : digging.Digs xDim yDim)
    (ended : digging.worm fuel = some step) :
    ∃ last, last.Crawls xDim yDim ∧
      step = if last.remaining > 0 then .yield last else .done last := by
  have size := digs.size
  simp only [ValidSize] at size
  simp only [Digging.worm, Option.bind_eq_some_iff, Option.map_eq_some_iff] at ended
  obtain ⟨pick, found, last, walked, rfl⟩ := ended
  obtain ⟨accepted, inside⟩ := pickPoint_spec (by omega) (by omega) found
  have wall : digging.maze.point pick.x pick.y = mazeWall := by
    rcases digs.plain (digging.maze.index pick.x pick.y) with clear | wall
    · rw [Maze.cells_index] at clear
      rw [clear] at accepted
      cases accepted
    · exact wall
  exact ⟨last, (digs.hatch wall inside).walk walked, rfl⟩

/-- The maze of walls only. -/
theorem Digging.Digs.initial {nFruits : Int} (size : ValidSize xDim yDim)
    (random : Stream' Nat) :
    Digging.Digs xDim yDim
      ⟨⟨fun _ => mazeWall, xDim, yDim, nFruits⟩, 0, 0, 0, xDim * yDim, random⟩ := by
  refine ⟨rfl, rfl, size, fun _ _ _ => rfl, fun _ => .inr rfl, ?_⟩
  have all : Maze.solid ⟨fun _ => mazeWall, xDim, yDim, nFruits⟩ =
      (Maze.lattice ⟨fun _ => mazeWall, xDim, yDim, nFruits⟩).card := by
    simp only [Maze.solid, census, Finset.filter_true]
  rw [all, Maze.lattice_points size]

/-- When the worm phase ends all lattice points are open. -/
theorem wormPhase_spec {nFruits : Int} {random : Stream' Nat} {dug : Digging}
    (size : ValidSize xDim yDim)
    (ended : wormPhase fuel
      ⟨⟨fun _ => mazeWall, xDim, yDim, nFruits⟩, 0, 0, 0, xDim * yDim, random⟩ = some dug) :
    dug.Crawls xDim yDim ∧ ∀ place ∈ dug.maze.lattice, dug.maze.cells place = 0 := by
  have keeps : ∀ state next : Digging, state.Digs xDim yDim →
      state.worm fuel = some (.yield next) → next.Digs xDim yDim := by
    intro state next digs step
    obtain ⟨last, crawls, same⟩ := digs.worm step
    split at same
    · cases same
      exact crawls.toDigs
    · cases same
  have ends : ∀ state last : Digging, state.Digs xDim yDim →
      state.worm fuel = some (.done last) →
      last.Crawls xDim yDim ∧ ∀ place ∈ last.maze.lattice, last.maze.cells place = 0 := by
    intro state last digs step
    obtain ⟨_, crawls, same⟩ := digs.worm step
    split at same
    · cases same
    next none =>
      cases same
      refine ⟨crawls, fun place member => ?_⟩
      have count := crawls.count
      have solid : last.maze.solid = 0 := by omega
      exact (crawls.plain place).resolve_right (census_eq_zero.mp solid place member)
  have final := loop_invariant keeps ends (.initial size random) ended
  exact final

theorem worm_mono : FuelMonotone Digging.worm := by
  intro fuel more digging step enough ran
  simp only [Digging.worm, Option.bind_eq_some_iff, Option.map_eq_some_iff] at ran ⊢
  obtain ⟨pick, found, last, walked, rest⟩ := ran
  have walked' := loop_mono (fun _ _ turned => turned) enough walked
  exact ⟨pick, pickPoint_mono enough found, last, walked', rest⟩

end

end Ece391.ModeX
