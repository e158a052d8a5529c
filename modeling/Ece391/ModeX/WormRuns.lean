import Ece391.ModeX.Draws

/-!
# Runs of the worm phase

The worm phase is taken apart at the heads of its loops: a point has been picked and is tested,
a worm is about to choose a direction, or a worm has ended.  What holds at one of these points
holds at the next one, so it holds throughout, whether or not the phase ends.
-/

namespace Ece391.ModeX

open Ece391.Library

/-- A point of the worm phase, with its variables there.  Before the first pick `x` and `y` have
no value. -/
inductive WormPoint where
  | start (digging : Digging)
  | picked (digging : Digging)
  | crawling (digging : Digging)
  | ended (digging : Digging)
  | finished (digging : Digging)

/-- The body of the loop that picks a point. -/
def Digging.pick (digging : Digging) : Digging :=
  let pick := Pick.next digging.maze ⟨digging.x, digging.y, digging.random⟩
  { digging with x := pick.x, y := pick.y, random := pick.random }

/-- A worm starts on the point picked. -/
def Digging.hatch (digging : Digging) : Digging :=
  { digging with
    maze := digging.maze.set digging.x digging.y 0
    remaining := digging.remaining - 1
    prefDir := digging.random.head % 4
    random := digging.random.tail }

/-- The next point of the phase.  There is none at the end, and none after a fault. -/
def WormPoint.next : WormPoint → Option WormPoint
  | .start digging => some (.picked digging.pick)
  | .picked digging =>
      if digging.maze.point digging.x digging.y &&& mazeWall = 0 then
        some (.picked digging.pick)
      else some (.crawling digging.hatch)
  | .crawling digging =>
      digging.turn.map fun step =>
        match step with
        | .done digging => .ended digging
        | .yield digging => .crawling digging
  | .ended digging =>
      if digging.remaining > 0 then some (.picked digging.pick) else some (.finished digging)
  | .finished _ => none

/-- One point follows another, after any number of steps. -/
def WormPoint.Leads : WormPoint → WormPoint → Prop :=
  Relation.ReflTransGen fun here there => here.next = some there

/-- What holds at a point of the phase. -/
def WormPoint.Digs (xDim yDim : Int) : WormPoint → Prop
  | .start digging => digging.Digs xDim yDim
  | .picked digging => digging.Digs xDim yDim ∧ digging.maze.Lattice digging.x digging.y
  | .crawling digging => digging.Crawls xDim yDim
  | .ended digging => digging.Crawls xDim yDim
  | .finished digging => digging.Crawls xDim yDim ∧ digging.remaining = 0

def WormPoint.digging : WormPoint → Digging
  | .start digging | .picked digging | .crawling digging | .ended digging
  | .finished digging => digging

/-- The start of the phase: the maze of walls only. -/
def WormPoint.initial (xDim yDim nFruits : Int) (random : Stream' Nat) : WormPoint :=
  .start ⟨⟨fun _ => mazeWall, xDim, yDim, nFruits⟩, 0, 0, 0, xDim * yDim, random⟩

section

variable {digging last : Digging} {here there : WormPoint} {xDim yDim nFruits : Int}
variable {fuel rounds : Nat} {random : Stream' Nat}

/-! ## Steps -/

theorem Digging.Digs.pick (digs : digging.Digs xDim yDim) :
    digging.pick.Digs xDim yDim ∧ digging.pick.maze.Lattice digging.pick.x digging.pick.y := by
  have size := digs.size
  simp only [ValidSize] at size
  have width : 0 < digging.maze.xDim := by omega
  have height : 0 < digging.maze.yDim := by omega
  exact ⟨⟨digs.xDim, digs.yDim, digs.size, digs.walled, digs.plain, digs.count⟩,
    random_lattice digging.random width height⟩

/-- Every step keeps what holds, and only the end has no step. -/
theorem WormPoint.Digs.step (digs : here.Digs xDim yDim) :
    (∃ digging, here = .finished digging) ∨
      ∃ there, here.next = some there ∧ there.Digs xDim yDim := by
  cases here with
  | start digging => exact .inr ⟨_, rfl, Digging.Digs.pick digs⟩
  | picked digging =>
      obtain ⟨digs, inside⟩ := digs
      rw [next]
      split
      next clear => exact .inr ⟨_, rfl, digs.pick⟩
      next wall =>
        have solid : digging.maze.point digging.x digging.y = mazeWall := by
          rcases digs.plain (digging.maze.index digging.x digging.y) with clear | solid
          · rw [Maze.cells_index] at clear
            rw [clear] at wall
            exact absurd rfl wall
          · exact solid
        exact .inr ⟨_, rfl, @Digging.Digs.hatch digging xDim yDim
          ⟨digging.x, digging.y, digging.random⟩ digs solid inside⟩
  | crawling digging =>
      have crawls : digging.Crawls xDim yDim := digs
      rcases crawls.turn with ended | ⟨next, more, crawls'⟩
      · exact .inr ⟨.ended _, congrArg (Option.map _) ended, crawls.draw _⟩
      · exact .inr ⟨.crawling next, congrArg (Option.map _) more, crawls'⟩
  | ended digging =>
      have crawls : digging.Crawls xDim yDim := digs
      rw [next]
      split
      next more => exact .inr ⟨_, rfl, crawls.toDigs.pick⟩
      next none =>
        have count := crawls.count
        exact .inr ⟨_, rfl, crawls, by omega⟩
  | finished digging => exact .inl ⟨digging, rfl⟩

/-- So it holds at every point that is reached. -/
theorem WormPoint.Digs.leads (digs : here.Digs xDim yDim) (leads : here.Leads there) :
    there.Digs xDim yDim := by
  induction leads with
  | refl => exact digs
  | tail _ step ih =>
      rcases ih.step with ⟨digging, rfl⟩ | ⟨next, goes, digs'⟩
      · cases step
      · obtain rfl := Option.some.inj (goes.symm.trans step)
        exact digs'

/-! ## The loops of the phase -/

/-- The loop that picks a point passes through its picks. -/
theorem pickPoint_leads {pick : Pick}
    (found : pickPoint digging.maze (fun point => point &&& mazeWall = 0) fuel
      ⟨digging.x, digging.y, digging.random⟩ = some pick) :
    WormPoint.Leads (.picked digging.pick)
      (.picked { digging with x := pick.x, y := pick.y, random := pick.random }) ∧
      digging.maze.point pick.x pick.y &&& mazeWall ≠ 0 := by
  induction fuel generalizing digging with
  | zero => cases found
  | succ fuel ih =>
      rw [pickPoint_succ] at found
      split at found
      next again =>
        obtain ⟨leads, wall⟩ := @ih digging.pick found
        refine ⟨.head ?_ leads, wall⟩
        exact if_pos (of_decide_eq_true again)
      next accepted =>
        obtain rfl := Option.some.inj found
        exact ⟨.refl, fun clear => accepted (decide_eq_true clear)⟩

/-- The loop of one worm passes through its turns. -/
theorem turns_lead (walked : loop Digging.turn fuel digging = some last) :
    WormPoint.Leads (.crawling digging) (.ended last) := by
  induction fuel generalizing digging with
  | zero => cases walked
  | succ fuel ih =>
      obtain ⟨_, same, ended | ⟨next, more, rest⟩⟩ := loop_cases walked
      · exact .single (congrArg (Option.map _) ended)
      · obtain rfl := Nat.succ.inj same
        exact .head (congrArg (Option.map _) more) (ih rest)

/-- One worm, after a point from which the next one is picked. -/
theorem worm_leads {step : ForInStep Digging} (picks : here.next = some (.picked digging.pick))
    (ended : digging.worm fuel = some step) :
    ∃ last, here.Leads (.ended last) ∧
      step = if last.remaining > 0 then .yield last else .done last := by
  simp only [Digging.worm, Option.bind_eq_some_iff, Option.map_eq_some_iff] at ended
  obtain ⟨pick, found, last, walked, rfl⟩ := ended
  obtain ⟨leads, wall⟩ := pickPoint_leads found
  have hatched : WormPoint.next
      (.picked { digging with x := pick.x, y := pick.y, random := pick.random }) =
      some (.crawling (Digging.hatch
        { digging with x := pick.x, y := pick.y, random := pick.random })) := if_neg wall
  exact ⟨last, .head picks (leads.trans (.head hatched (turns_lead walked))), rfl⟩

/-- A worm phase that ends is a run from the start to the end. -/
theorem wormPhase_leads {dug : Digging} (picks : here.next = some (.picked digging.pick))
    (ended : loop (Digging.worm fuel) rounds digging = some dug) : here.Leads (.finished dug) := by
  induction rounds generalizing digging here with
  | zero => cases ended
  | succ rounds ih =>
      obtain ⟨_, same, stops | ⟨next, more, rest⟩⟩ := loop_cases ended
      · obtain ⟨last, leads, step⟩ := worm_leads picks stops
        split at step
        · cases step
        next none =>
          cases step
          exact leads.tail (if_neg none)
      · obtain rfl := Nat.succ.inj same
        obtain ⟨last, leads, step⟩ := worm_leads picks more
        split at step
        next more =>
          cases step
          exact leads.trans (ih (if_pos more) rest)
        · cases step

theorem WormPoint.Digs.initial (size : ValidSize xDim yDim) (nFruits : Int)
    (random : Stream' Nat) : (WormPoint.initial xDim yDim nFruits random).Digs xDim yDim :=
  Digging.Digs.initial size random

/-- What `wormPhase` computes is the end of such a run. -/
theorem worm_phase_run {dug : Digging}
    (ended : wormPhase fuel
      ⟨⟨fun _ => mazeWall, xDim, yDim, nFruits⟩, 0, 0, 0, xDim * yDim, random⟩ = some dug) :
    (WormPoint.initial xDim yDim nFruits random).Leads (.finished dug) :=
  wormPhase_leads rfl ended

/-! ## Throughout the phase -/

/-- The point of the worm, and of a pick, is in the lattice. -/
theorem WormPoint.Digs.inside (digs : here.Digs xDim yDim)
    (begun : ∀ digging, here ≠ .start digging) :
    here.digging.maze.Lattice here.digging.x here.digging.y := by
  cases here with
  | start digging => exact absurd rfl (begun digging)
  | picked digging => exact digs.2
  | crawling digging => exact Digging.Crawls.inside digs
  | ended digging => exact Digging.Crawls.inside digs
  | finished digging => exact digs.1.inside

theorem WormPoint.Digs.toDigs (digs : here.Digs xDim yDim) : here.digging.Digs xDim yDim := by
  cases here with
  | start digging => exact digs
  | picked digging => exact digs.1
  | crawling digging => exact Digging.Crawls.toDigs digs
  | ended digging => exact Digging.Crawls.toDigs digs
  | finished digging => exact digs.1.toDigs

/-- Throughout the worm phase the point is in the lattice, the walls of the lattice are counted,
the boundary and the (even,even) points are walls, and a worm finds a direction that stays
inside, whatever `random` returns.  Only the end of the phase has no next step. -/
theorem worm_phase_invariant (size : ValidSize xDim yDim)
    (reached : (WormPoint.initial xDim yDim nFruits random).Leads here) :
    ((∀ digging, here ≠ .start digging) →
        here.digging.maze.Lattice here.digging.x here.digging.y) ∧
      here.digging.remaining = here.digging.maze.solid ∧
      (∀ x y, here.digging.maze.Fixed x y → here.digging.maze.point x y = mazeWall) ∧
      (∀ digging, here = .crawling digging → ∀ value : Nat,
        0 < digging.wt.getLastD 0 ∧
          ∃ dir, (digging.wt.findIdx? fun wt => value % digging.wt.getLastD 0 < wt) = some dir ∧
            dir < 4 ∧ digging.maze.Lattice (digging.x + 2 * (Digging.dirStep dir).1)
              (digging.y + 2 * (Digging.dirStep dir).2)) ∧
      ((∃ digging, here = .finished digging) ∨ ∃ there, here.next = some there) := by
  have digs := (WormPoint.Digs.initial size nFruits random).leads reached
  refine ⟨digs.inside, digs.toDigs.count, digs.toDigs.walled, ?_, ?_⟩
  · rintro digging rfl value
    have crawls : digging.Crawls xDim yDim := digs
    obtain ⟨total, chosen⟩ := crawls.choose value
    exact ⟨Nat.pos_of_ne_zero total, chosen⟩
  · exact digs.step.imp_right fun ⟨there, goes, _⟩ => ⟨there, goes⟩

end

/-- The first worm in a maze of the smallest size, in the corner. -/
def firstWorm : Digging :=
  Digging.hatch (Digging.pick
    ⟨⟨fun _ => mazeWall, 14, 8, 0⟩, 0, 0, 0, 14 * 8, Stream'.const 0⟩)

theorem worm_phase_invariant_first :
    firstWorm.maze.Lattice firstWorm.x firstWorm.y ∧
      firstWorm.remaining = firstWorm.maze.solid ∧ 0 < firstWorm.wt.getLastD 0 := by
  have reached : (WormPoint.initial 14 8 0 (Stream'.const 0)).Leads (.crawling firstWorm) :=
    .head rfl (.single rfl)
  obtain ⟨inside, count, -, chooses, -⟩ := worm_phase_invariant (by decide) reached
  have begun : ∀ digging, WormPoint.crawling firstWorm ≠ .start digging :=
    fun _ same => nomatch same
  exact ⟨inside begun, count, (chooses firstWorm rfl 0).1⟩

end Ece391.ModeX
