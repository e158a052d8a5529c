import Mathlib.Data.Nat.Init
import Mathlib.Logic.Relation
import Mathlib.Order.WellFounded

/-!
# Loops with fuel

A loop repeats a body that either ends it or goes on, and that may fault.  A result is
missing when the body faults or the fuel runs out.  The body may itself need fuel, and then
more fuel never changes a result.  The rules say what every iteration keeps, and that a loop
whose iterations descend in a well-founded relation ends with enough fuel.
-/

namespace Ece391.Library

universe u v

variable {State : Type u} {Result : Type v}

/-- `while (1)` with `break`s. -/
def loop (body : State → Option (ForInStep State)) : (fuel : Nat) → State → Option State
  | 0, _ => none
  | fuel + 1, state =>
      match body state with
      | none => none
      | some (.done last) => some last
      | some (.yield next) => loop body fuel next

section

variable {body body' : State → Option (ForInStep State)} {fuel : Nat} {state next last : State}

theorem loop_done (step : body state = some (.done last)) :
    loop body (fuel + 1) state = some last := by
  rw [loop, step]

theorem loop_yield (step : body state = some (.yield next)) :
    loop body (fuel + 1) state = loop body fuel next := by
  rw [loop, step]

/-- How a loop that ends has gone on. -/
theorem loop_cases (ran : loop body fuel state = some last) :
    ∃ fewer, fuel = fewer + 1 ∧ (body state = some (.done last) ∨
      ∃ next, body state = some (.yield next) ∧ loop body fewer next = some last) := by
  cases fuel with
  | zero => cases ran
  | succ fewer =>
      rw [loop] at ran
      split at ran
      · cases ran
      next ended => exact ⟨fewer, rfl, .inl (ended.trans (congrArg (some ∘ ForInStep.done)
          (Option.some.inj ran)))⟩
      next next step => exact ⟨fewer, rfl, .inr ⟨next, step, ran⟩⟩

/-- What each iteration keeps holds before the last one, whose effect is the result. -/
theorem loop_invariant {holds : State → Prop} {result : State → Prop}
    (keeps : ∀ state next, holds state → body state = some (.yield next) → holds next)
    (ends : ∀ state last, holds state → body state = some (.done last) → result last)
    (initial : holds state) (ran : loop body fuel state = some last) : result last := by
  induction fuel generalizing state with
  | zero => cases ran
  | succ fuel ih =>
      obtain ⟨_, same, ended | ⟨next, step, rest⟩⟩ := loop_cases ran
      · exact ends state last initial ended
      · obtain rfl := Nat.succ.inj same
        exact ih (keeps state next initial step) rest

/-- The rule of total correctness: each iteration ends the loop with a right result, or goes on
and lowers a measure that is less than the fuel. -/
theorem loop_total {holds : State → Prop} {result : State → Prop} (measure : State → Nat)
    (step : ∀ state, holds state →
      (∃ last, body state = some (.done last) ∧ result last) ∨
        ∃ next, body state = some (.yield next) ∧ holds next ∧ measure next < measure state)
    (enough : measure state < fuel) (initial : holds state) :
    ∃ last, loop body fuel state = some last ∧ result last := by
  induction fuel generalizing state with
  | zero => omega
  | succ fuel ih =>
      rcases step state initial with ⟨last, ended, right⟩ | ⟨next, goes, kept, lower⟩
      · exact ⟨last, loop_done ended, right⟩
      · rw [loop_yield goes]
        exact ih (by omega) kept

/-- The rule of a loop that counts down: what holds after each number of iterations holds after all
of them. -/
theorem loop_counted (body : State → Option (ForInStep State)) (holds : Nat → State → Prop)
    (counter : State → Nat) {count : Nat}
    (stops : ∀ state, counter state = 0 → body state = some (.done state))
    (goes : ∀ done state, holds done state → done + counter state = count → counter state ≠ 0 →
      ∃ next, body state = some (.yield next) ∧ counter next + 1 = counter state ∧
        holds (done + 1) next)
    (enough : count < fuel) (start : counter state = count) (initial : holds 0 state) :
    ∃ last, loop body fuel state = some last ∧ counter last = 0 ∧ holds count last := by
  refine @loop_total _ body fuel state
    (fun state => ∃ done, holds done state ∧ done + counter state = count) _ counter ?_
    (start ▸ enough) ⟨0, initial, by omega⟩
  rintro state ⟨done, kept, total⟩
  by_cases none : counter state = 0
  · obtain rfl : done = count := by omega
    exact .inl ⟨state, stops state none, none, kept⟩
  · obtain ⟨next, step, fewer, kept'⟩ := goes done state kept total none
    exact .inr ⟨next, step, ⟨done + 1, kept', by omega⟩, by omega⟩

end

/-! ## More fuel -/

/-- More fuel never changes a result. -/
def FuelMonotone (run : Nat → State → Option Result) : Prop :=
  ∀ ⦃fuel more state result⦄, fuel ≤ more → run fuel state = some result →
    run more state = some result

section

variable {body : Nat → State → Option (ForInStep State)}

theorem loop_mono {steady body : State → Option (ForInStep State)}
    (refines : ∀ state step, body state = some step → steady state = some step)
    {fuel more : Nat} {state last : State} (enough : fuel ≤ more)
    (ran : loop body fuel state = some last) : loop steady more state = some last := by
  induction fuel generalizing more state with
  | zero => cases ran
  | succ fuel ih =>
      obtain ⟨more, rfl⟩ := Nat.exists_eq_add_of_lt enough
      obtain ⟨_, same, ended | ⟨next, step, rest⟩⟩ := loop_cases ran
      · exact loop_done (refines _ _ ended)
      · obtain rfl := Nat.succ.inj same
        rw [loop_yield (refines _ _ step)]
        exact ih (Nat.le_add_right ..) rest

/-- A loop whose body needs fuel shares its own with it. -/
theorem FuelMonotone.loop (mono : FuelMonotone body) :
    FuelMonotone fun fuel => Library.loop (body fuel) fuel :=
  fun _ _ _ _ enough ran => loop_mono (fun _ _ step => mono enough step) enough ran

/-- One iteration, with some fuel. -/
def LoopStep (body : Nat → State → Option (ForInStep State)) (state next : State) : Prop :=
  ∃ fuel, body fuel state = some (.yield next)

/-- A loop ends, with some fuel, when each of its iterations ends and the states between them
descend. -/
theorem loop_ends (mono : FuelMonotone body) {below : State → State → Prop}
    (wellFounded : WellFounded below) {holds : State → Prop}
    (progress : ∀ state, holds state → ∃ fuel step, body fuel state = some step ∧
      ∀ next, step = .yield next → holds next ∧ below next state)
    {state : State} (initial : holds state) :
    ∃ fuel last, loop (body fuel) fuel state = some last := by
  induction state using wellFounded.induction with
  | _ state ih =>
      obtain ⟨fuel, step, ran, descends⟩ := progress state initial
      cases step with
      | done last => exact ⟨fuel + 1, last, loop_done (mono (Nat.le_succ fuel) ran)⟩
      | yield next =>
          obtain ⟨kept, lower⟩ := descends next rfl
          obtain ⟨later, last, rest⟩ := ih next lower kept
          refine ⟨max fuel later + 1, last, ?_⟩
          rw [loop_yield (mono (by omega) ran)]
          exact loop_mono (fun _ _ step => mono (by omega) step) (by omega) rest

end

end Ece391.Library
