import Ece391.Library.Flood
import Ece391.ModeX.Board

/-!
# Marking an area of the maze

`mark_maze_area` is a breadth-first search from a lattice point.  Its queue holds pointers into
the maze array, so that a neighbour is found by adding an offset.  Reading or writing outside
the array, or behind the end of the queue, is a fault.

The search is a flood fill of the lattice points that are not marked yet.
-/

namespace Ece391.ModeX

open Ece391.Library

/-- A cell of the array, by a pointer to it. -/
def fetch (cells : Int → UInt8) (place : Int) : Option UInt8 :=
  if 0 ≤ place ∧ place < 6301 then some (cells place) else none

/-- The variables of the search: the maze, the entries put into the queue, of which `q_end` is
the number, and `q_start`. -/
structure Search where
  cells : Int → UInt8
  q : List Int
  qStart : Nat

/-- One of the four directions, where `cur[offset]` is the cell between. -/
def Search.explore (cur : Int) (search : Search) (offset : Int) : Option Search :=
  (fetch search.cells (cur + offset)).bind fun between =>
    if between &&& mazeWall = 0 then
      (fetch search.cells (cur + 2 * offset)).bind fun point =>
        if point &&& mazeReach = 0 then
          if search.q.length < 1500 then
            some { search with
              cells := Function.update search.cells (cur + 2 * offset) (point ||| mazeReach)
              q := search.q ++ [cur + 2 * offset] }
          else none
        else some search
    else some search

/-- The offsets of the neighbours up, right, down and left. -/
def Maze.offsets (maze : Maze) : List Int :=
  [-2 * maze.xDim, 1, 2 * maze.xDim, -1]

/-- The body of the loop, which ends when `q_start` is `q_end`. -/
def Search.body (offsets : List Int) (search : Search) : Option (ForInStep Search) :=
  match search.q[search.qStart]? with
  | none => some (.done search)
  | some cur =>
      (offsets.foldlM (Search.explore cur) { search with qStart := search.qStart + 1 }).map .yield

/-- `mark_maze_area`: the number of locations marked, and the maze.  The queue has 1500 places
and each iteration takes an entry, so the fuel is enough. -/
def markMazeArea (maze : Maze) (x y : Int) : Option (Int × Maze) :=
  (fetch maze.cells (maze.index x y)).bind fun point =>
    let cells := Function.update maze.cells (maze.index x y) (point ||| mazeReach)
    (loop (Search.body maze.offsets) 1501 ⟨cells, [maze.index x y], 0⟩).map fun search =>
      (search.q.length, { maze with cells := search.cells })

/-! ## Places and passages -/

/-- A step up, right, down or left. -/
abbrev UnitStep (dx dy : Int) : Prop :=
  (dx = 0 ∧ (dy = 1 ∨ dy = -1)) ∨ (dy = 0 ∧ (dx = 1 ∨ dx = -1))

/-- The indices of the (odd,odd) lattice points. -/
def Maze.lattice (maze : Maze) : Finset Int :=
  (Finset.range maze.xDim.toNat ×ˢ Finset.range maze.yDim.toNat).image fun point =>
    maze.index (2 * point.1 + 1) (2 * point.2 + 1)

/-- A passage without a wall between two places. -/
def Maze.Passage (maze : Maze) (here next : Int) : Prop :=
  ∃ offset ∈ maze.offsets, maze.cells (here + offset) &&& mazeWall = 0 ∧ next = here + 2 * offset

/-- A place marked as reached. -/
def Maze.Reached (maze : Maze) (place : Int) : Prop :=
  maze.cells place &&& mazeReach ≠ 0

/-- The maze with some places marked. -/
def marked (cells : Int → UInt8) (places : List Int) : Int → UInt8 :=
  fun place => if place ∈ places then cells place ||| mazeReach else cells place

section

variable {maze : Maze} {x y place next offset : Int} {cells : Int → UInt8} {places : List Int}

theorem Maze.lattice_corner (size : ValidSize maze.xDim maze.yDim) : maze.Lattice 1 1 := by
  simp only [ValidSize] at size
  simp only [Maze.Lattice]
  omega

theorem Maze.mem_lattice : place ∈ maze.lattice ↔ ∃ x y, maze.Lattice x y ∧
    place = maze.index x y := by
  simp only [Maze.lattice, Finset.mem_image, Finset.mem_product, Finset.mem_range, Prod.exists]
  constructor
  · rintro ⟨column, row, ⟨left, above⟩, rfl⟩
    refine ⟨_, _, ?_, rfl⟩
    simp only [Maze.Lattice]
    omega
  · rintro ⟨x, y, inside, rfl⟩
    simp only [Maze.Lattice] at inside
    refine ⟨((x - 1) / 2).toNat, ((y - 1) / 2).toNat, by omega, ?_⟩
    congr 1 <;> omega

/-- There are `X_DIM * Y_DIM` lattice points. -/
theorem Maze.card_lattice (maze : Maze) :
    maze.lattice.card = maze.xDim.toNat * maze.yDim.toNat := by
  rw [Maze.lattice, Finset.card_image_of_injOn, Finset.card_product, Finset.card_range,
    Finset.card_range]
  rintro ⟨column, row⟩ member ⟨column', row'⟩ member' same
  simp only [Finset.coe_product, Finset.coe_range, Set.mem_prod, Set.mem_Iio] at member member'
  obtain ⟨columns, rows⟩ := Maze.index_injective (by omega) (by omega) (by omega) (by omega) same
  simp only [Prod.mk.injEq]
  omega

theorem Maze.lattice_points (size : ValidSize maze.xDim maze.yDim) :
    (maze.lattice.card : Int) = maze.xDim * maze.yDim := by
  simp only [ValidSize] at size
  rw [Maze.card_lattice]
  push_cast
  rw [Int.toNat_of_nonneg (by omega), Int.toNat_of_nonneg (by omega)]

/-- Cells next to a lattice point are found by adding an offset. -/
theorem Maze.offset_cases (member : offset ∈ maze.offsets) (x y : Int) :
    ∃ dx dy, UnitStep dx dy ∧ maze.index x y + offset = maze.index (x + dx) (y + dy) ∧
      maze.index x y + 2 * offset = maze.index (x + 2 * dx) (y + 2 * dy) := by
  simp only [Maze.offsets, List.mem_cons, List.not_mem_nil, or_false] at member
  rcases member with rfl | rfl | rfl | rfl
  · refine ⟨0, -1, by omega, ?_, ?_⟩ <;> simp only [Maze.index] <;> ring
  · refine ⟨1, 0, by omega, ?_, ?_⟩ <;> simp only [Maze.index] <;> ring
  · refine ⟨0, 1, by omega, ?_, ?_⟩ <;> simp only [Maze.index] <;> ring
  · refine ⟨-1, 0, by omega, ?_, ?_⟩ <;> simp only [Maze.index] <;> ring

theorem fetch_array (member : place ∈ arrayPlaces) : fetch cells place = some (cells place) := by
  rw [fetch, if_pos (mem_arrayPlaces.mp member)]

/-- From a lattice point the cells between lie in the array. -/
theorem Maze.between_mem (size : ValidSize maze.xDim maze.yDim) (here : place ∈ maze.lattice)
    (member : offset ∈ maze.offsets) : place + offset ∈ arrayPlaces := by
  obtain ⟨x, y, inside, rfl⟩ := Maze.mem_lattice.mp here
  obtain ⟨dx, dy, axis, between, -⟩ := Maze.offset_cases member x y
  simp only [Maze.Lattice] at inside
  rw [between]
  exact Maze.index_mem size (by omega) (by omega) (by omega) (by omega)

theorem Maze.lattice_mem (size : ValidSize maze.xDim maze.yDim) (here : place ∈ maze.lattice) :
    place ∈ arrayPlaces := by
  obtain ⟨x, y, inside, rfl⟩ := Maze.mem_lattice.mp here
  simp only [Maze.Lattice] at inside
  exact Maze.index_mem size (by omega) (by omega) (by omega) (by omega)

/-- An open passage leads from a lattice point to another. -/
theorem Maze.Fenced.passage_point (fenced : maze.Fenced) (inside : maze.Lattice x y)
    (passage : maze.Passage (maze.index x y) next) :
    ∃ dx dy, UnitStep dx dy ∧ maze.Lattice (x + 2 * dx) (y + 2 * dy) ∧
      maze.point (x + dx) (y + dy) &&& mazeWall = 0 ∧
      next = maze.index (x + 2 * dx) (y + 2 * dy) := by
  obtain ⟨offset, member, clear, rfl⟩ := passage
  obtain ⟨dx, dy, axis, between, beyond⟩ := Maze.offset_cases member x y
  have bounds := inside
  simp only [Maze.Lattice] at bounds
  rw [between, Maze.cells_index] at clear
  have square := fenced.inside (by omega) (by omega) (by omega) (by omega) (by omega) clear
  have column := square.column
  have row := square.row
  refine ⟨dx, dy, axis, ?_, clear, beyond⟩
  simp only [Maze.Lattice]
  omega

theorem Maze.Fenced.passage_lattice (fenced : maze.Fenced) (here : place ∈ maze.lattice)
    (passage : maze.Passage place next) : next ∈ maze.lattice := by
  obtain ⟨x, y, inside, rfl⟩ := Maze.mem_lattice.mp here
  obtain ⟨dx, dy, -, inside', -, beyond⟩ := fenced.passage_point inside passage
  exact Maze.mem_lattice.mpr ⟨_, _, inside', beyond⟩

theorem marked_append (absent : place ∉ places) :
    marked cells (places ++ [place]) =
      Function.update (marked cells places) place (marked cells places place ||| mazeReach) := by
  funext other
  by_cases here : other = place
  · subst here
    simp [marked, absent]
  · simp [marked, here]

/-- Marks are all that is added. -/
theorem marked_reach : marked cells places place &&& mazeReach ≠ 0 ↔
    cells place &&& mazeReach ≠ 0 ∨ place ∈ places := by
  have bits : ∀ point : UInt8, (point ||| mazeReach) &&& mazeReach ≠ 0 := by
    decide +kernel
  rw [marked]
  split
  next member => simp [bits, member]
  next absent => simp [absent]

theorem marked_wall : marked cells places place &&& mazeWall = cells place &&& mazeWall := by
  rw [marked]
  split
  · exact (reach_bits _).1
  · rfl

end

/-! ## The search -/

/-- The search floods the maze from a place and has marked what is in the queue. -/
structure Search.Marks (maze : Maze) (start : Int) (search : Search) (explored : Nat) :
    Prop where
  flooding : Flooding maze.Passage maze.Reached start search.q explored
  cells : search.cells = marked maze.cells search.q
  lattice : ∀ place ∈ search.q, place ∈ maze.lattice

section

variable {maze : Maze} {start cur offset : Int} {search : Search} {explored : Nat}

/-- The queue never has more entries than there are lattice points. -/
theorem Search.Marks.room (size : ValidSize maze.xDim maze.yDim)
    (marks : search.Marks maze start explored) : search.q.length ≤ 1500 := by
  have few : search.q.toFinset.card ≤ maze.lattice.card :=
    Finset.card_le_card fun place member => marks.lattice place (List.mem_toFinset.mp member)
  rw [List.toFinset_card_of_nodup marks.flooding.nodup, Maze.card_lattice] at few
  simp only [ValidSize] at size
  have bound : maze.xDim.toNat * maze.yDim.toNat ≤ 50 * 30 :=
    Nat.mul_le_mul (by omega) (by omega)
  omega

/-- Exploring a direction from an entry puts an unmarked neighbour into the queue. -/
theorem Search.Marks.explore (size : ValidSize maze.xDim maze.yDim) (fenced : maze.Fenced)
    (marks : search.Marks maze start explored) (entry : cur ∈ search.q)
    (member : offset ∈ maze.offsets) :
    ∃ after, search.explore cur offset = some after ∧ after.Marks maze start explored ∧
      search.q <+: after.q ∧ after.qStart = search.qStart ∧
      (maze.cells (cur + offset) &&& mazeWall = 0 →
        maze.Reached (cur + 2 * offset) ∨ cur + 2 * offset ∈ after.q) := by
  obtain ⟨flooding, cells, lattice⟩ := marks
  have here := lattice cur entry
  rw [Search.explore, fetch_array (Maze.between_mem size here member), Option.bind_some, cells,
    marked_wall]
  split
  next clear =>
    have passage : maze.Passage cur (cur + 2 * offset) := ⟨offset, member, clear, rfl⟩
    have beyond := fenced.passage_lattice here passage
    rw [fetch_array (Maze.lattice_mem size beyond), Option.bind_some]
    split
    next unmarked =>
      have fresh : ¬maze.Reached (cur + 2 * offset) ∧ cur + 2 * offset ∉ search.q := by
        rw [← not_or]
        exact fun known => absurd (marked_reach.mpr known) (not_not.mpr unmarked)
      have pushed : Search.Marks maze start
          { search with
            cells := Function.update (marked maze.cells search.q) (cur + 2 * offset)
              (marked maze.cells search.q (cur + 2 * offset) ||| mazeReach)
            q := search.q ++ [cur + 2 * offset] } explored := by
        refine ⟨flooding.push entry passage fresh.1 fresh.2, (marked_append fresh.2).symm, ?_⟩
        intro place listed
        rcases List.mem_append.mp listed with earlier | last
        · exact lattice place earlier
        · exact List.mem_singleton.mp last ▸ beyond
      have room := pushed.room size
      rw [List.length_append, List.length_singleton] at room
      rw [if_pos (by omega)]
      exact ⟨_, rfl, pushed, List.prefix_append .., rfl, fun _ => .inr (by simp)⟩
    next seen =>
      exact ⟨search, rfl, ⟨flooding, cells, lattice⟩, List.prefix_refl _, rfl,
        fun _ => marked_reach.mp seen⟩
  next wall =>
    exact ⟨search, rfl, ⟨flooding, cells, lattice⟩, List.prefix_refl _, rfl,
      fun clear => absurd clear wall⟩

/-- So do several directions. -/
theorem Search.Marks.exploreAll (size : ValidSize maze.xDim maze.yDim) (fenced : maze.Fenced)
    {offsets : List Int} (known : ∀ offset ∈ offsets, offset ∈ maze.offsets)
    (marks : search.Marks maze start explored) (entry : cur ∈ search.q) :
    ∃ after, offsets.foldlM (Search.explore cur) search = some after ∧
      after.Marks maze start explored ∧ search.q <+: after.q ∧ after.qStart = search.qStart ∧
      ∀ offset ∈ offsets, maze.cells (cur + offset) &&& mazeWall = 0 →
        maze.Reached (cur + 2 * offset) ∨ cur + 2 * offset ∈ after.q := by
  induction offsets generalizing search with
  | nil => exact ⟨search, rfl, marks, List.prefix_refl _, rfl, by simp⟩
  | cons offset rest ih =>
      obtain ⟨middle, first, marks', grown, same, seen⟩ :=
        marks.explore size fenced entry (known offset List.mem_cons_self)
      obtain ⟨after, others, marks'', grown', same', seen'⟩ :=
        ih (fun offset member => known offset (List.mem_cons_of_mem _ member)) marks'
          (grown.subset entry)
      refine ⟨after, ?_, marks'', grown.trans grown', same'.trans same, ?_⟩
      · rw [List.foldlM_cons, first]
        exact others
      · intro other member clear
        rcases List.mem_cons.mp member with rfl | later
        · exact (seen clear).imp_right fun listed => grown'.subset listed
        · exact seen' other later clear

/-- One iteration explores the next entry, or ends the search. -/
theorem Search.Marks.body (size : ValidSize maze.xDim maze.yDim) (fenced : maze.Fenced)
    (marks : search.Marks maze start search.qStart) :
    (search.body maze.offsets = some (.done search) ∧ search.qStart = search.q.length) ∨
      ∃ next, search.body maze.offsets = some (.yield next) ∧
        next.Marks maze start next.qStart ∧ next.qStart = search.qStart + 1 ∧
        search.qStart < search.q.length := by
  rw [Search.body]
  match found : search.q[search.qStart]? with
  | none =>
      have bound := marks.flooding.bound
      have ended := List.getElem?_eq_none_iff.mp found
      exact .inl ⟨rfl, by omega⟩
  | some cur =>
      have inside := (List.getElem?_eq_some_iff.mp found).1
      have entry : cur ∈ search.q := List.mem_of_getElem? found
      have started : Search.Marks maze start { search with qStart := search.qStart + 1 }
          search.qStart := ⟨marks.flooding, marks.cells, marks.lattice⟩
      obtain ⟨after, ran, marks', grown, same, seen⟩ :=
        started.exploreAll size fenced (fun offset member => member) entry
      refine .inr ⟨after, by simp [ran], ?_, same, inside⟩
      have kept : after.q[search.qStart]? = some cur := by
        obtain ⟨later, same⟩ := grown
        rw [← same, List.getElem?_append_left inside]
        exact found
      rw [same]
      refine ⟨marks'.flooding.advance kept ?_, marks'.cells, marks'.lattice⟩
      rintro next ⟨offset, member, clear, rfl⟩
      exact seen offset member clear

/-- The search ends with every entry explored. -/
theorem Search.Marks.run (size : ValidSize maze.xDim maze.yDim) (fenced : maze.Fenced)
    (marks : search.Marks maze start search.qStart) :
    ∃ last, loop (Search.body maze.offsets) 1501 search = some last ∧
      last.Marks maze start last.q.length := by
  refine @loop_total _ _ _ search (fun search => search.Marks maze start search.qStart)
    (fun last => last.Marks maze start last.q.length) (fun search => 1500 - search.qStart) ?_
    (by omega) marks
  intro search marks
  have room := marks.room size
  rcases marks.body size fenced with ⟨ended, length⟩ | ⟨next, step, marks', more, inside⟩
  · exact .inl ⟨search, ended, length ▸ marks⟩
  · exact .inr ⟨next, step, marks', by omega⟩

/-- `mark_maze_area` ends, without a fault, and marks the lattice points that can be reached
through open passages without passing through points marked before; the result is their
number. -/
theorem markMazeArea_spec {x y : Int} (size : ValidSize maze.xDim maze.yDim)
    (fenced : maze.Fenced) (inside : maze.Lattice x y)
    (fresh : ¬maze.Reached (maze.index x y)) :
    ∃ queue : List Int, markMazeArea maze x y =
        some ((queue.length : Int), { maze with cells := marked maze.cells queue }) ∧
      queue.Nodup ∧ (∀ place ∈ queue, place ∈ maze.lattice ∧ ¬maze.Reached place) ∧
      ∀ place, place ∈ queue ↔ Floods maze.Passage maze.Reached (maze.index x y) place := by
  have first : maze.index x y ∈ maze.lattice := Maze.mem_lattice.mpr ⟨x, y, inside, rfl⟩
  have initial : Search.Marks maze (maze.index x y)
      ⟨Function.update maze.cells (maze.index x y) (maze.cells (maze.index x y) ||| mazeReach),
        [maze.index x y], 0⟩ 0 := by
    refine ⟨.begin fresh, ?_, ?_⟩
    · funext place
      by_cases here : place = maze.index x y
      · subst here
        simp [marked]
      · simp [marked, here]
    · intro place member
      exact List.mem_singleton.mp member ▸ first
  obtain ⟨last, ended, final⟩ := Search.Marks.run size fenced initial
  refine ⟨last.q, ?_, final.flooding.nodup, fun place member => ⟨final.lattice place member,
    final.flooding.fresh place member⟩, final.flooding.complete⟩
  rw [markMazeArea, fetch_array (Maze.lattice_mem size first), Option.bind_some, ← final.cells]
  simp only [ended, Option.map_some]

/-- `mark_maze_area` ends without an access outside the maze or the queue.  It marks exactly the
lattice points that are reached through open passages and not marked before, and its result,
the number of entries that the queue has had, is their number. -/
theorem mark_maze_area_marks {x y : Int} (size : ValidSize maze.xDim maze.yDim)
    (fenced : maze.Fenced) (inside : maze.Lattice x y)
    (fresh : ¬maze.Reached (maze.index x y)) :
    ∃ area : Finset Int,
      (∀ place, place ∈ area ↔ Floods maze.Passage maze.Reached (maze.index x y) place) ∧
      (∀ place ∈ area, place ∈ maze.lattice ∧ ¬maze.Reached place) ∧
      (area.card : Int) ≤ maze.xDim * maze.yDim ∧
      markMazeArea maze x y = some ((area.card : Int),
        { maze with
          cells := fun place =>
            if place ∈ area then maze.cells place ||| mazeReach else maze.cells place }) := by
  obtain ⟨queue, ended, nodup, listed, floods⟩ := markMazeArea_spec size fenced inside fresh
  have members (place : Int) : place ∈ queue.toFinset ↔ place ∈ queue := List.mem_toFinset
  have few : queue.toFinset.card ≤ maze.lattice.card :=
    Finset.card_le_card fun place member => (listed place ((members place).mp member)).1
  refine ⟨queue.toFinset, fun place => (members place).trans (floods place),
    fun place member => listed place ((members place).mp member), ?_, ?_⟩
  · rw [← Maze.lattice_points size]
    exact_mod_cast few
  · rw [ended, List.toFinset_card_of_nodup nodup]
    simp only [members]
    rfl

end

/-- A maze of the smallest size with one passage, between the first two lattice points. -/
def onePassage : Maze where
  cells := fun place =>
    if place = 58 ∨ place % 2 = 1 ∧ place / 28 % 2 = 0 then 0 else mazeWall
  xDim := 14
  yDim := 8
  nFruits := 0

theorem onePassage_fenced : onePassage.Fenced := by
  have wall (place : Int) (solid : ¬(place = 58 ∨ place % 2 = 1 ∧ place / 28 % 2 = 0)) :
      onePassage.cells place &&& mazeWall ≠ 0 := by
    rw [show onePassage.cells place = mazeWall from if_neg solid]
    decide
  constructor
  · intro x left right
    change x < 28 at right
    exact wall (x + (0 + 1) * 14 * 2) (by omega)
  · intro x left right
    change x < 28 at right
    exact wall (x + (2 * 8 + 1) * 14 * 2) (by omega)
  · intro y above below
    exact wall (0 + (y + 1) * 14 * 2) (by omega)

theorem mark_maze_area_marks_passage :
    ∃ area : Finset Int,
      (∀ place, place ∈ area ↔
        Floods onePassage.Passage onePassage.Reached (onePassage.index 1 1) place) ∧
      (∀ place ∈ area, place ∈ onePassage.lattice ∧ ¬onePassage.Reached place) ∧
      (area.card : Int) ≤ onePassage.xDim * onePassage.yDim ∧
      markMazeArea onePassage 1 1 = some ((area.card : Int),
        { onePassage with
          cells := fun place =>
            if place ∈ area then onePassage.cells place ||| mazeReach
            else onePassage.cells place }) :=
  mark_maze_area_marks (by decide) onePassage_fenced (Maze.lattice_corner (by decide))
    fun reached => reached (by decide)

end Ece391.ModeX
