import Ece391.ModeX.Draws

/-!
# What the second phase leaves

When the second phase has ended every lattice point is connected to (1,1), the (even,even)
points and the boundary are walls, and no cell holds a fruit or the exit.
-/

namespace Ece391.ModeX

open Ece391.Library

/-! ## The maze that is left -/

/-- Two lattice points next to each other, with nothing but open cells. -/
def Maze.Corridor (maze : Maze) (here next : Int × Int) : Prop :=
  ∃ dx dy, UnitStep dx dy ∧ next = (here.1 + 2 * dx, here.2 + 2 * dy) ∧
    maze.Lattice next.1 next.2 ∧ maze.point (here.1 + dx) (here.2 + dy) &&& mazeWall = 0 ∧
    maze.point next.1 next.2 &&& mazeWall = 0

/-- Every lattice point is open and connected to (1,1), and the (even,even) points and the
boundary are walls. -/
structure Maze.Connected (maze : Maze) : Prop where
  clear : ∀ x y, maze.Lattice x y → maze.point x y &&& mazeWall = 0
  connected : ∀ x y, maze.Lattice x y → Relation.ReflTransGen maze.Corridor (1, 1) (x, y)
  even : ∀ x y, 0 ≤ x → x ≤ 2 * maze.xDim → 0 ≤ y → y ≤ 2 * maze.yDim → x % 2 = 0 → y % 2 = 0 →
    maze.point x y &&& mazeWall ≠ 0
  top : ∀ x, 0 ≤ x → x ≤ 2 * maze.xDim → maze.point x 0 &&& mazeWall ≠ 0
  bottom : ∀ x, 0 ≤ x → x ≤ 2 * maze.xDim → maze.point x (2 * maze.yDim) &&& mazeWall ≠ 0
  side : ∀ y, 0 ≤ y → y ≤ 2 * maze.yDim → maze.point 0 y &&& mazeWall ≠ 0

section

variable {maze after : Maze} {place x y : Int}

/-- A path of passages goes from lattice point to lattice point. -/
theorem Maze.Grown.corridors (grown : maze.Grown)
    (path : Relation.ReflTransGen maze.Passage (maze.index 1 1) place) :
    ∃ x y, maze.Lattice x y ∧ place = maze.index x y ∧
      Relation.ReflTransGen maze.Corridor (1, 1) (x, y) := by
  induction path with
  | refl => exact ⟨1, 1, Maze.lattice_corner grown.size, rfl, .refl⟩
  | tail _ step ih =>
      obtain ⟨x, y, inside, rfl, path⟩ := ih
      obtain ⟨dx, dy, axis, inside', clear, beyond⟩ := grown.fenced.passage_point inside step
      have there := grown.clear _ (Maze.mem_lattice.mpr ⟨_, _, inside', rfl⟩)
      exact ⟨_, _, inside', beyond, path.tail ⟨dx, dy, axis, rfl, inside', clear, there⟩⟩

theorem Maze.Walled.point (walled : maze.Walled) (left : 0 ≤ x) (right : x ≤ 2 * maze.xDim)
    (above : 0 ≤ y) (below : y ≤ 2 * maze.yDim) (width : 0 < maze.xDim)
    (fixed : x = 0 ∨ x = 2 * maze.xDim ∨ y = 0 ∨ y = 2 * maze.yDim ∨ (x % 2 = 0 ∧ y % 2 = 0)) :
    maze.point x y &&& mazeWall ≠ 0 := by
  have wall : mazeWall &&& mazeWall ≠ 0 := by decide
  by_cases last : x = 2 * maze.xDim
  · rw [last, Maze.point_wrapped,
      walled 0 (y + 1) ⟨by omega, by omega, by omega, by omega, .inl rfl⟩]
    exact wall
  · rw [walled x y ⟨by omega, by omega, by omega, by omega, by omega⟩]
    exact wall

/-- When all points are reached the maze is connected. -/
theorem Maze.Grown.complete (grown : maze.Grown) (all : maze.unreached = 0) :
    maze.Connected := by
  have size := grown.size
  simp only [ValidSize] at size
  refine ⟨?_, ?_, ?_, ?_, ?_, ?_⟩
  · intro x y inside
    exact grown.clear _ (Maze.mem_lattice.mpr ⟨x, y, inside, rfl⟩)
  · intro x y inside
    have member : maze.index x y ∈ maze.lattice := Maze.mem_lattice.mpr ⟨x, y, inside, rfl⟩
    obtain ⟨x', y', inside', same, path⟩ :=
      grown.corridors (grown.connected _ member (census_eq_zero.mp all _ member))
    simp only [Maze.Lattice] at inside inside'
    obtain ⟨rfl, rfl⟩ := Maze.index_injective (by omega) (by omega) (by omega) (by omega) same
    exact path
  · intro x y left right above below column row
    exact grown.walled.point left right above below (by omega) (by omega)
  · intro x left right
    exact grown.walled.point left right (by omega) (by omega) (by omega) (by omega)
  · intro x left right
    exact grown.walled.point left right (by omega) (by omega) (by omega) (by omega)
  · intro y above below
    exact grown.walled.point (by omega) (by omega) above below (by omega) (by omega)

/-- It depends on the walls only. -/
theorem SameWalls.connected (same : SameWalls maze after) (connected : maze.Connected) :
    after.Connected := by
  have lattice : ∀ x y, after.Lattice x y ↔ maze.Lattice x y := by
    intro x y
    rw [Maze.Lattice, same.xDim, same.yDim]
    rfl
  constructor
  · intro x y inside
    rw [same.point]
    exact connected.clear x y ((lattice x y).mp inside)
  · intro x y inside
    refine Relation.ReflTransGen.mono ?_ _ _
      (connected.connected x y ((lattice x y).mp inside))
    rintro here _ ⟨dx, dy, axis, rfl, inside, between, there⟩
    exact ⟨dx, dy, axis, rfl, (lattice _ _).mpr inside, by rwa [same.point], by rwa [same.point]⟩
  · intro x y left right above below column row
    rw [same.point]
    exact connected.even x y left (same.xDim ▸ right) above (same.yDim ▸ below) column row
  · intro x left right
    rw [same.point]
    exact connected.top x left (same.xDim ▸ right)
  · intro x left right
    rw [same.point, same.yDim]
    exact connected.bottom x left (same.xDim ▸ right)
  · intro y above below
    rw [same.point]
    exact connected.side y above (same.yDim ▸ below)

/-- A loop over points keeps the walls when each value does. -/
theorem Maze.rewrite_same {value : UInt8 → UInt8}
    (keeps : ∀ point, value point &&& mazeWall = point &&& mazeWall ∧
      value point &&& mazeExit = point &&& mazeExit) (points : List (Int × Int)) :
    SameWalls maze (maze.rewrite points value) := by
  induction points generalizing maze with
  | nil => exact .refl maze
  | cons point rest ih =>
      obtain ⟨wall, exit⟩ := keeps (maze.point point.1 point.2)
      exact (SameWalls.set wall exit).trans ih

theorem Maze.clearReach_same (maze : Maze) : SameWalls maze maze.clearReach := by
  have keeps : ∀ point : UInt8, (point &&& ~~~mazeReach) &&& mazeWall = point &&& mazeWall ∧
      (point &&& ~~~mazeReach) &&& mazeExit = point &&& mazeExit := by
    decide +kernel
  exact Maze.rewrite_same keeps _

end

/-- The second phase ends when the loops that pick at random do, and once it scans whatever the
random values are.  It leaves a connected maze, and so does the loop that clears the marks. -/
theorem second_phase_connects {xDim yDim nFruits : Int} {random : Stream' Nat} {fuel : Nat}
    {dug : Digging} (size : ValidSize xDim yDim)
    (worms : wormPhase fuel
      ⟨⟨fun _ => mazeWall, xDim, yDim, nFruits⟩, 0, 0, 0, xDim * yDim, random⟩ = some dug)
    (picks : ∀ marked joining, dug.mark = some marked →
      Relation.ReflTransGen (LoopStep Joining.join) marked joining → ¬joining.Scans →
      ∃ fuel pick, pickPoint joining.maze (fun point => point &&& mazeReach ≠ 0) fuel
        ⟨joining.x, joining.y, joining.random⟩ = some pick) :
    ∃ marked, dug.mark = some marked ∧
      (∃ fuel last, secondPhase fuel marked = some last) ∧
      (∀ joining random, Relation.ReflTransGen (LoopStep Joining.join) marked joining →
        joining.Scans →
        ∃ fuel last, secondPhase fuel { joining with random := random } = some last) ∧
      ∀ fuel last, secondPhase fuel marked = some last →
        last.remaining = 0 ∧ last.maze.xDim = xDim ∧ last.maze.yDim = yDim ∧
          last.maze.Connected ∧ last.maze.clearReach.Connected := by
  obtain ⟨crawls, clear⟩ := wormPhase_spec size worms
  obtain ⟨marked, found, grows⟩ := Joining.Grows.initial crawls clear
  refine ⟨marked, found, grows.ends fun joining path => picks marked joining found path, ?_, ?_⟩
  · intro joining random path scans
    exact (grows.path path).1.ends_scanning scans random
  · intro fuel last ended
    obtain ⟨grows', remaining⟩ := grows.done ended
    have count := grows'.count
    have connected := grows'.grown.complete (by omega)
    exact ⟨remaining, grows'.xDim, grows'.yDim, connected,
      last.maze.clearReach_same.connected connected⟩

theorem second_phase_connects_smallest : ∃ fuel dug, wormPhase fuel
      ⟨⟨fun _ => mazeWall, 14, 8, 0⟩, 0, 0, 0, 14 * 8, mazeDraws 14 8⟩ = some dug ∧
    ∃ marked fuel last, dug.mark = some marked ∧ secondPhase fuel marked = some last ∧
      last.remaining = 0 ∧ last.maze.Connected := by
  have size : ValidSize 14 8 := by decide
  obtain ⟨fuel, dug, worms, random⟩ := wormPhase_ends size 0
  obtain ⟨marked, found, ⟨fuel', last, ended⟩, -, connects⟩ :=
    second_phase_connects size worms fun marked joining found path scans => by
      obtain ⟨grows, drawn⟩ := mark_drawn size worms random found
      obtain ⟨grows', drawn'⟩ := path_drawn grows drawn path
      exact picks_end grows' drawn' scans
  obtain ⟨remaining, -, -, connected, -⟩ := connects fuel' last ended
  exact ⟨fuel, dug, worms, marked, fuel', last, found, ended, remaining, connected⟩

end Ece391.ModeX
