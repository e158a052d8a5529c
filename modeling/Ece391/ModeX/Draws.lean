import Ece391.ModeX.Joining
import Mathlib.Data.List.ProdSigma
import Mathlib.Data.Stream.Init

/-!
# Random values on which a maze is made

The loops of `make_maze` that pick at random need not end.  For every size they do on a stream
on which every worm turns around at once, and which then picks the lattice points in turn.
-/

namespace Ece391.ModeX

open Ece391.Library

/-- The values that pick the lattice points in turn. -/
def pickDraws (xDim : Nat) : Stream' Nat :=
  fun place => if place % 2 = 0 then place / 2 else place / 2 / xDim

/-- The preferred direction of a worm that turns around at once. -/
def turnBack (xDim : Nat) (point : Nat × Nat) : Nat :=
  if 0 < point.2 then 2 else if point.1 + 1 < xDim then 3 else 0

/-- The values with which a worm starts at each of the points and turns around at once. -/
def wormDraws (xDim : Nat) (rest : Stream' Nat) : List (Nat × Nat) → Stream' Nat
  | [] => rest
  | point :: points =>
      .cons point.1 (.cons point.2 (.cons (turnBack xDim point)
        (.cons 0 (wormDraws xDim rest points))))

/-- The values for a whole maze. -/
def mazeDraws (xDim yDim : Int) : Stream' Nat :=
  wormDraws xDim.toNat (pickDraws xDim.toNat)
    (List.range xDim.toNat ×ˢ List.range yDim.toNat)

/-- The point that is picked next. -/
def Pick.next (maze : Maze) (pick : Pick) : Pick :=
  ⟨randomBelow pick.random maze.xDim * 2 + 1, randomBelow pick.random.tail maze.yDim * 2 + 1,
    pick.random.tail.tail⟩

/-- What is left of the values after some picks. -/
def PicksDrawn (xDim : Int) (random : Stream' Nat) : Prop :=
  ∃ number, random = (pickDraws xDim.toNat).drop (2 * number)

/-! ## Picks -/

section

variable {maze : Maze} {rejected : UInt8 → Bool} {pick picked : Pick} {fuel : Nat}

theorem next_scanned (width : 0 < maze.xDim) (height : 0 < maze.yDim) {number : Nat}
    (drawn : pick.random = (pickDraws maze.xDim.toNat).drop (2 * number)) :
    ((pick.next maze).x, (pick.next maze).y) = maze.scanned number := by
  have columns : (maze.xDim.toNat : Int) = maze.xDim := Int.toNat_of_nonneg (by omega)
  have rows : (maze.yDim.toNat : Int) = maze.yDim := Int.toNat_of_nonneg (by omega)
  have even : (pickDraws maze.xDim.toNat).get (2 * number) = number := by
    have here : 2 * number % 2 = 0 ∧ 2 * number / 2 = number := by omega
    simp only [Stream'.get, pickDraws, here.1, here.2, if_true]
  have odd : (pickDraws maze.xDim.toNat).get (2 * number + 1) = number / maze.xDim.toNat := by
    have here : (2 * number + 1) % 2 = 1 ∧ (2 * number + 1) / 2 = number := by omega
    simp only [Stream'.get, pickDraws, here.1, here.2, Nat.one_ne_zero, if_false]
  simp only [Pick.next, drawn, randomBelow, Stream'.tail_drop', Stream'.head_drop, even, odd]
  rw [← columns, ← rows, Maze.scanned]
  simp only [Int.natCast_emod, Int.toNat_natCast, Int.mul_comm 2]

theorem next_drawn {xDim : Int} (maze : Maze) {number : Nat}
    (drawn : pick.random = (pickDraws xDim.toNat).drop (2 * number)) :
    (pick.next maze).random = (pickDraws xDim.toNat).drop (2 * (number + 1)) := by
  rw [Pick.next, drawn, Stream'.tail_drop', Stream'.tail_drop']
  rfl

/-- A pick either is the result or is followed by the next one. -/
theorem pickPoint_succ (maze : Maze) (rejected : UInt8 → Bool) (fuel : Nat) (pick : Pick) :
    pickPoint maze rejected (fuel + 1) pick =
      if rejected (maze.point (pick.next maze).x (pick.next maze).y) then
        pickPoint maze rejected fuel (pick.next maze)
      else some (pick.next maze) := by
  split
  next again => exact loop_yield (if_pos again)
  next found => exact loop_done (if_neg found)

/-- The picks end if some later one is not rejected. -/
theorem pickPoint_later {steps : Nat}
    (accepted : rejected (maze.point ((Pick.next maze)^[steps + 1] pick).x
      ((Pick.next maze)^[steps + 1] pick).y) = false) :
    ∃ fuel picked, pickPoint maze rejected fuel pick = some picked := by
  induction steps generalizing pick with
  | zero => exact ⟨1, _, (pickPoint_succ ..).trans (if_neg (Bool.eq_false_iff.mp accepted))⟩
  | succ steps ih =>
      by_cases again : rejected (maze.point (pick.next maze).x (pick.next maze).y)
      · obtain ⟨fuel, picked, ended⟩ := ih accepted
        exact ⟨fuel + 1, picked, (pickPoint_succ ..).trans ((if_pos again).trans ended)⟩
      · exact ⟨1, _, (pickPoint_succ ..).trans (if_neg again)⟩

/-- Each pick takes two values. -/
theorem picks_random (maze : Maze) (pick : Pick) (steps : Nat) :
    ((Pick.next maze)^[steps] pick).random = pick.random.drop (2 * steps) := by
  induction steps with
  | zero => rfl
  | succ steps ih =>
      rw [Function.iterate_succ_apply', Pick.next, ih, Stream'.tail_drop', Stream'.tail_drop']
      rfl

/-- Picks in turn come to a point that is not rejected. -/
theorem pickPoint_scanned (width : 0 < maze.xDim) (height : 0 < maze.yDim) {number steps : Nat}
    (drawn : pick.random = (pickDraws maze.xDim.toNat).drop (2 * number))
    (accepted : rejected (maze.point (maze.scanned (number + steps)).1
      (maze.scanned (number + steps)).2) = false) :
    ∃ fuel picked, pickPoint maze rejected fuel pick = some picked := by
  have later : ((Pick.next maze)^[steps] pick).random =
      (pickDraws maze.xDim.toNat).drop (2 * (number + steps)) := by
    rw [picks_random, drawn, Stream'.drop_drop, Nat.mul_add]
  refine @pickPoint_later _ _ _ steps ?_
  rw [← next_scanned width height later] at accepted
  rw [Function.iterate_succ_apply']
  exact accepted

theorem pickPoint_ends {point : Int × Int} (inside : maze.Lattice point.1 point.2)
    (accepted : rejected (maze.point point.1 point.2) = false)
    (drawn : PicksDrawn maze.xDim pick.random) :
    ∃ fuel picked, pickPoint maze rejected fuel pick = some picked := by
  obtain ⟨number, start⟩ := drawn
  obtain ⟨last, later, rfl⟩ := Maze.exists_scanned inside number
  obtain ⟨steps, rfl⟩ := Nat.exists_eq_add_of_le later
  simp only [Maze.Lattice] at inside
  exact pickPoint_scanned (by omega) (by omega) start accepted

/-- A number from some number on whose quotient and whose successor have given remainders. -/
theorem exists_crossed {column row width height : Nat} (number : Nat) (column' : column < width)
    (row' : row < height) (narrow : height ≤ width) :
    ∃ steps, (number + steps) / width % width = column ∧ (number + steps + 1) % height = row := by
  let low := (number * width + column) * width
  let rest := (row + (low + 1) * (height - 1)) % height
  have inside : rest < width := Nat.lt_of_lt_of_le (Nat.mod_lt _ (by omega)) narrow
  have above : number ≤ low + rest := by
    have first : number ≤ number * width := Nat.le_mul_of_pos_right number (by omega)
    have second : number * width + column ≤ low := Nat.le_mul_of_pos_right _ (by omega)
    omega
  obtain ⟨steps, same⟩ := Nat.exists_eq_add_of_le above
  refine ⟨steps, ?_, ?_⟩
  · have quotient : (low + rest) / width = number * width + column := by
      rw [Nat.add_comm, Nat.add_mul_div_right _ _ (by omega), Nat.div_eq_of_lt inside,
        Nat.zero_add]
    rw [← same, quotient, Nat.mul_add_mod_of_lt column']
  · have round : low + 1 + (row + (low + 1) * (height - 1)) = row + (low + 1) * height := by
      obtain ⟨less, rfl⟩ := Nat.exists_eq_add_of_lt row'
      rw [Nat.add_sub_cancel]
      ring
    rw [← same, Nat.add_right_comm, Nat.add_mod_mod, round, Nat.add_mul_mod_self_right,
      Nat.mod_eq_of_lt row']

/-- One value behind a pair, the picks still come to every point of a maze that is not higher than
wide. -/
theorem pickPoint_crossed {column row number : Nat} (narrow : maze.yDim ≤ maze.xDim)
    (column' : column < maze.xDim.toNat) (row' : row < maze.yDim.toNat)
    (accepted : rejected (maze.point (2 * column + 1) (2 * row + 1)) = false)
    (drawn : pick.random = (pickDraws maze.xDim.toNat).drop (2 * number + 1)) :
    ∃ fuel picked, pickPoint maze rejected fuel pick = some picked := by
  have width : (maze.xDim.toNat : Int) = maze.xDim := Int.toNat_of_nonneg (by omega)
  have height : (maze.yDim.toNat : Int) = maze.yDim := Int.toNat_of_nonneg (by omega)
  obtain ⟨steps, across, down⟩ := exists_crossed number column' row' (by omega)
  have random : ((Pick.next maze)^[steps] pick).random =
      (pickDraws maze.xDim.toNat).drop (2 * (number + steps) + 1) := by
    rw [picks_random, drawn, Stream'.drop_drop]
    congr 1
    ring
  have odd : (pickDraws maze.xDim.toNat).get (2 * (number + steps) + 1) =
      (number + steps) / maze.xDim.toNat := by
    have here : (2 * (number + steps) + 1) % 2 = 1 ∧
        (2 * (number + steps) + 1) / 2 = number + steps := by omega
    simp only [Stream'.get, pickDraws, here.1, here.2, Nat.one_ne_zero, if_false]
  have even : (pickDraws maze.xDim.toNat).get (2 * (number + steps) + 1 + 1) =
      number + steps + 1 := by
    have here : (2 * (number + steps) + 1 + 1) % 2 = 0 ∧
        (2 * (number + steps) + 1 + 1) / 2 = number + steps + 1 := by omega
    simp only [Stream'.get, pickDraws, here.1, here.2, if_true]
  have across' : (((number + steps) / maze.xDim.toNat : Nat) : Int) % maze.xDim = column := by
    rw [← across, Int.natCast_emod, width]
  have down' : ((number + steps + 1 : Nat) : Int) % maze.yDim = row := by
    rw [← down, Int.natCast_emod, height]
  have x : ((Pick.next maze)^[steps + 1] pick).x = 2 * column + 1 := by
    simp only [Function.iterate_succ_apply', Pick.next, random, randomBelow, Stream'.head_drop,
      odd, across', Int.mul_comm]
  have y : ((Pick.next maze)^[steps + 1] pick).y = 2 * row + 1 := by
    simp only [Function.iterate_succ_apply', Pick.next, random, randomBelow, Stream'.tail_drop',
      Stream'.head_drop, even, down', Int.mul_comm]
  refine @pickPoint_later _ _ _ steps ?_
  rw [x, y]
  exact accepted

/-- Picks take the values in pairs. -/
theorem pickPoint_drawn {xDim : Int} (drawn : PicksDrawn xDim pick.random)
    (ended : pickPoint maze rejected fuel pick = some picked) :
    PicksDrawn xDim picked.random := by
  induction fuel generalizing pick with
  | zero => cases ended
  | succ fuel ih =>
      obtain ⟨number, start⟩ := drawn
      have next : PicksDrawn xDim (pick.next maze).random := ⟨number + 1, next_drawn maze start⟩
      rw [pickPoint_succ] at ended
      split at ended
      · exact ih next ended
      · exact Option.some.inj ended ▸ next

end

/-! ## Worms -/

section

variable {digging : Digging} {point : Nat × Nat} {points : List (Nat × Nat)}

/-- The point with a column and a row of the lattice. -/
def latticePoint (point : Nat × Nat) : Int × Int :=
  (2 * point.1 + 1, 2 * point.2 + 1)

/-- What a worm leaves that turns around at once. -/
def Digging.stopped (digging : Digging) (point : Nat × Nat) (random : Stream' Nat) : Digging :=
  { maze := digging.maze.set (latticePoint point).1 (latticePoint point).2 0
    x := (latticePoint point).1
    y := (latticePoint point).2
    prefDir := turnBack digging.maze.xDim.toNat point
    remaining := digging.remaining - 1
    random := random }

theorem turnWt_back (wall : Bool) : turnWt 2 wall = 3 := by
  cases wall <;> rfl

/-- The smallest value chooses the first direction with a weight. -/
theorem turn_done {dir : Nat} (drawn : digging.random.head = 0)
    (found : (digging.wt.findIdx? fun wt => 0 < wt) = some dir)
    (total : digging.wt.getLastD 0 ≠ 0) (back : (dir + 4 - digging.prefDir) % 4 = 2) :
    digging.turn = some (.done { digging with random := digging.random.tail }) := by
  simp only [Digging.turn, drawn, Nat.zero_mod, found, if_neg total, Option.map_some, if_pos back]

/-- A worm whose first possible direction is back ends on it. -/
theorem turn_stops {random : Stream' Nat} (size : ValidSize digging.maze.xDim digging.maze.yDim)
    (column : point.1 < digging.maze.xDim.toNat) (row : point.2 < digging.maze.yDim.toNat) :
    (digging.stopped point (.cons 0 random)).turn =
      some (.done (digging.stopped point random)) := by
  obtain ⟨column', row'⟩ := point
  simp only [ValidSize] at size
  simp only at column row
  let stopped := digging.stopped (column', row') (.cons 0 random)
  have x : stopped.x = 2 * column' + 1 := rfl
  have y : stopped.y = 2 * row' + 1 := rfl
  have xDim : stopped.maze.xDim = digging.maze.xDim := rfl
  have yDim : stopped.maze.yDim = digging.maze.yDim := rfl
  have prefDir : stopped.prefDir = turnBack digging.maze.xDim.toNat (column', row') := rfl
  simp only [turnBack] at prefDir
  by_cases first : 0 < row'
  · rw [if_pos first] at prefDir
    have up : stopped.weight 0 = 3 := by
      simp only [Digging.weight, prefDir]
      rw [if_pos (by omega)]
      exact turnWt_back _
    refine @turn_done stopped 0 rfl ?_ ?_ (by rw [prefDir])
    · simp [Digging.wt_eq, up, List.findIdx?_cons]
    · simp [Digging.wt_eq, up]
  · have up : stopped.weight 0 = 0 := by
      simp only [Digging.weight]
      rw [if_neg (by omega)]
    rw [if_neg first] at prefDir
    by_cases last : column' + 1 < digging.maze.xDim.toNat
    · rw [if_pos last] at prefDir
      have right : stopped.weight 1 = 3 := by
        simp only [Digging.weight, prefDir]
        rw [if_pos (by omega)]
        exact turnWt_back _
      refine @turn_done stopped 1 rfl ?_ ?_ (by rw [prefDir])
      · simp [Digging.wt_eq, up, right, List.findIdx?_cons]
      · simp [Digging.wt_eq, up, right]
    · rw [if_neg last] at prefDir
      have right : stopped.weight 1 = 0 := by
        simp only [Digging.weight]
        rw [if_neg (by omega)]
      have down : stopped.weight 2 = 3 := by
        simp only [Digging.weight, prefDir]
        rw [if_pos (by omega)]
        exact turnWt_back _
      refine @turn_done stopped 2 rfl ?_ ?_ (by rw [prefDir])
      · simp [Digging.wt_eq, up, right, down, List.findIdx?_cons]
      · simp [Digging.wt_eq, up, right, down]

/-- Such a worm digs one point. -/
theorem worm_stops {fuel : Nat} {random : Stream' Nat}
    (size : ValidSize digging.maze.xDim digging.maze.yDim)
    (column : point.1 < digging.maze.xDim.toNat) (row : point.2 < digging.maze.yDim.toNat)
    (wall : digging.maze.point (latticePoint point).1 (latticePoint point).2 = mazeWall)
    (drawn : digging.random = wormDraws digging.maze.xDim.toNat random (point :: points)) :
    digging.worm (fuel + 1) =
      some (if digging.remaining - 1 > 0 then
          .yield (digging.stopped point (wormDraws digging.maze.xDim.toNat random points))
        else .done (digging.stopped point (wormDraws digging.maze.xDim.toNat random points))) := by
  have valid := size
  simp only [ValidSize] at valid
  have picked : Pick.next digging.maze ⟨digging.x, digging.y, digging.random⟩ =
      ⟨(latticePoint point).1, (latticePoint point).2,
        .cons (turnBack digging.maze.xDim.toNat point)
          (.cons 0 (wormDraws digging.maze.xDim.toNat random points))⟩ := by
    have column' : (point.1 : Int) % digging.maze.xDim = point.1 :=
      Int.emod_eq_of_lt (by omega) (by omega)
    have row' : (point.2 : Int) % digging.maze.yDim = point.2 :=
      Int.emod_eq_of_lt (by omega) (by omega)
    simp only [Pick.next, drawn, wormDraws, randomBelow, Stream'.head_cons, Stream'.tail_cons,
      column', row', latticePoint, Int.mul_comm 2]
  have found : pickPoint digging.maze (fun point => point &&& mazeWall = 0) (fuel + 1)
      ⟨digging.x, digging.y, digging.random⟩ =
        some ⟨(latticePoint point).1, (latticePoint point).2,
          .cons (turnBack digging.maze.xDim.toNat point)
            (.cons 0 (wormDraws digging.maze.xDim.toNat random points))⟩ := by
    rw [pickPoint_succ, picked]
    simp only [wall]
    rw [if_neg (by decide)]
  have small : turnBack digging.maze.xDim.toNat point % 4 =
      turnBack digging.maze.xDim.toNat point := by
    simp only [turnBack]
    split <;> [rfl; split <;> rfl]
  have walked : loop Digging.turn (fuel + 1) (digging.stopped point
      (.cons 0 (wormDraws digging.maze.xDim.toNat random points))) =
        some (digging.stopped point (wormDraws digging.maze.xDim.toNat random points)) :=
    loop_done (turn_stops size column row)
  rw [Digging.worm, found, Option.bind_some]
  simp only [Stream'.head_cons, Stream'.tail_cons, small]
  exact congrArg (Option.map _) walked

/-- So the worm phase ends. -/
theorem worms_stop {inner outer : Nat} {random : Stream' Nat}
    (size : ValidSize digging.maze.xDim digging.maze.yDim) (distinct : points.Nodup)
    (walls : ∀ point ∈ points, point.1 < digging.maze.xDim.toNat ∧
      point.2 < digging.maze.yDim.toNat ∧
      digging.maze.point (latticePoint point).1 (latticePoint point).2 = mazeWall)
    (count : digging.remaining = points.length) (more : points ≠ [])
    (enough : points.length ≤ outer)
    (drawn : digging.random = wormDraws digging.maze.xDim.toNat random points) :
    ∃ dug, loop (Digging.worm (inner + 1)) outer digging = some dug ∧ dug.random = random := by
  induction points generalizing digging outer with
  | nil => exact absurd rfl more
  | cons point rest ih =>
      obtain ⟨column, row, wall⟩ := walls point List.mem_cons_self
      obtain ⟨fresh, distinct'⟩ := List.nodup_cons.mp distinct
      rw [List.length_cons] at count enough
      obtain ⟨outer, rfl⟩ := Nat.exists_eq_add_of_le' (Nat.one_le_of_lt enough)
      have stopped := @worm_stops _ _ _ inner _ size column row wall drawn
      by_cases last : rest = []
      · subst last
        rw [if_neg (by simp [count])] at stopped
        exact ⟨_, loop_done stopped, rfl⟩
      · have some' := List.length_pos_iff.mpr last
        rw [if_pos (by omega)] at stopped
        rw [loop_yield stopped]
        have fewer : digging.remaining - 1 = (rest.length : Int) := by omega
        refine ih size distinct' (fun other member => ?_) fewer last (by omega)
          rfl
        obtain ⟨column', row', wall'⟩ := walls other (List.mem_cons_of_mem _ member)
        refine ⟨column', row', ?_⟩
        have apart : other ≠ point := fun same => fresh (same ▸ member)
        rw [ne_eq, Prod.ext_iff] at apart
        rw [Digging.stopped, Maze.point_set_other, wall']
        all_goals simp only [latticePoint]; omega

/-- For every size the worm phase can end. -/
theorem wormPhase_ends {xDim yDim : Int} (size : ValidSize xDim yDim) (nFruits : Int) :
    ∃ fuel dug, wormPhase fuel ⟨⟨fun _ => mazeWall, xDim, yDim, nFruits⟩, 0, 0, 0, xDim * yDim,
      mazeDraws xDim yDim⟩ = some dug ∧ dug.random = pickDraws xDim.toNat := by
  have valid := size
  simp only [ValidSize] at valid
  let points := List.range xDim.toNat ×ˢ List.range yDim.toNat
  have length : points.length = xDim.toNat * yDim.toNat := by
    rw [List.length_product, List.length_range, List.length_range]
  have positive : 0 < points.length := by
    rw [length]
    exact Nat.mul_pos (by omega) (by omega)
  refine ⟨points.length + 1, worms_stop size ?_ (fun point member => ?_) ?_ ?_ (Nat.le_succ _) rfl⟩
  · exact List.nodup_range.product List.nodup_range
  · obtain ⟨column, row⟩ := List.mem_product.mp member
    exact ⟨List.mem_range.mp column, List.mem_range.mp row, rfl⟩
  · rw [length]
    push_cast
    rw [Int.toNat_of_nonneg (by omega), Int.toNat_of_nonneg (by omega)]
  · exact List.length_pos_iff.mp positive

end

/-! ## The second phase -/

section

variable {xDim yDim : Int} {joining : Joining}

/-- The second phase starts with what is left. -/
theorem mark_drawn {fuel : Nat} {nFruits : Int} {random : Stream' Nat} {dug : Digging}
    {marked : Joining} (size : ValidSize xDim yDim)
    (worms : wormPhase fuel
      ⟨⟨fun _ => mazeWall, xDim, yDim, nFruits⟩, 0, 0, 0, xDim * yDim, random⟩ = some dug)
    (drawn : dug.random = pickDraws xDim.toNat) (found : dug.mark = some marked) :
    marked.Grows xDim yDim ∧ PicksDrawn xDim marked.random := by
  obtain ⟨crawls, clear⟩ := wormPhase_spec size worms
  obtain ⟨initial, found', grows⟩ := Joining.Grows.initial crawls clear
  cases found'.symm.trans found
  obtain ⟨_, -, rfl⟩ := Option.map_eq_some_iff.mp found
  exact ⟨grows, 0, drawn⟩

/-- An iteration leaves the later picks. -/
theorem join_drawn {fuel : Nat} {step : ForInStep Joining}
    (grows : joining.Grows xDim yDim) (drawn : PicksDrawn xDim joining.random)
    (ended : joining.join fuel = some step) :
    ∃ next : Joining, step = next.test ∧ next.Grows xDim yDim ∧ PicksDrawn xDim next.random := by
  obtain ⟨next, same, grows', -, random | ⟨pick, found, random⟩⟩ := grows.join ended
  · exact ⟨next, same, grows', random.symm ▸ drawn⟩
  · exact ⟨next, same, grows', random.symm ▸ pickPoint_drawn drawn found⟩

theorem path_drawn {later : Joining} (grows : joining.Grows xDim yDim)
    (drawn : PicksDrawn xDim joining.random)
    (path : Relation.ReflTransGen (LoopStep Joining.join) joining later) :
    later.Grows xDim yDim ∧ PicksDrawn xDim later.random := by
  induction path with
  | refl => exact ⟨grows, drawn⟩
  | tail _ step ih =>
      obtain ⟨fuel, ended⟩ := step
      obtain ⟨next, yielded, grows', drawn'⟩ := join_drawn ih.1 ih.2 ended
      obtain ⟨rfl, -⟩ := Joining.test_yield yielded.symm
      exact ⟨grows', drawn'⟩

/-- The picks of the second phase end. -/
theorem picks_end (grows : joining.Grows xDim yDim) (drawn : PicksDrawn xDim joining.random)
    (scans : ¬joining.Scans) :
    ∃ fuel pick, pickPoint joining.maze (fun point => point &&& mazeReach ≠ 0) fuel
      ⟨joining.x, joining.y, joining.random⟩ = some pick := by
  simp only [Joining.Scans] at scans
  obtain ⟨point, inside, unreached, -⟩ := grows.exists_joinable (by omega)
  refine pickPoint_ends inside ?_ (grows.xDim.symm ▸ drawn)
  simpa [Maze.Reached, Maze.cells_index] using unreached

/-- The second phase ends, and leaves the later picks. -/
theorem secondPhase_ends (grows : joining.Grows xDim yDim)
    (drawn : PicksDrawn xDim joining.random) :
    ∃ fuel last, secondPhase fuel joining = some last ∧ last.Grows xDim yDim ∧
      PicksDrawn xDim last.random := by
  obtain ⟨fuel, last, ended⟩ := grows.ends fun later path scans =>
    picks_end (path_drawn grows drawn path).1 (path_drawn grows drawn path).2 scans
  have keeps : ∀ state next : Joining, (state.Grows xDim yDim ∧ PicksDrawn xDim state.random) →
      state.join fuel = some (.yield next) → next.Grows xDim yDim ∧ PicksDrawn xDim next.random :=
    fun state next holds step => path_drawn holds.1 holds.2 (.single ⟨fuel, step⟩)
  have ends : ∀ state last : Joining, (state.Grows xDim yDim ∧ PicksDrawn xDim state.random) →
      state.join fuel = some (.done last) →
      last.Grows xDim yDim ∧ PicksDrawn xDim last.random := by
    rintro state last ⟨grows, drawn⟩ step
    obtain ⟨next, same, grows', drawn'⟩ := join_drawn grows drawn step
    obtain ⟨rfl, -⟩ := Joining.test_done same.symm
    exact ⟨grows', drawn'⟩
  have final := loop_invariant keeps ends ⟨grows, drawn⟩ ended
  exact ⟨fuel, last, ended, final⟩

end

end Ece391.ModeX
