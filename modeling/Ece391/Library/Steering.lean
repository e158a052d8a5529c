import Ece391.Library.Run
import Mathlib.Logic.Relation

/-!
# Steering a system

Part of each label is chosen, and the rest is not.  Choices steer a system to a goal when they lead
there whatever the rest of the labels is.  Goals are reached one after another, along a path, or
by a descent.
-/

namespace Ece391.Library

universe u v w

variable {State : Type u} {Label : Type v} {Choice : Type w}

/-- Some choices lead to the goal with all labels that agree with them. -/
def Steerable (step : State → Label → State → Prop) (choice : Label → Choice)
    (goal : State → Prop) (state : State) : Prop :=
  ∃ choices last, goal last ∧
    ∀ labels : List Label, labels.map choice = choices → Run step state labels last

namespace Steerable

variable {step : State → Label → State → Prop} {choice : Label → Choice}
variable {goal between : State → Prop} {state next : State}

theorem here (reached : goal state) : Steerable step choice goal state :=
  ⟨[], state, reached, fun _ none => List.map_eq_nil_iff.mp none ▸ .nil state⟩

/-- A step that one choice determines. -/
theorem choose {chosen : Choice} (taken : ∀ label, choice label = chosen → step state label next)
    (rest : Steerable step choice goal next) : Steerable step choice goal state := by
  obtain ⟨choices, last, reached, runs⟩ := rest
  refine ⟨chosen :: choices, last, reached, fun labels agree => ?_⟩
  obtain ⟨label, labels, rfl, here, later⟩ := List.map_eq_cons_iff.mp agree
  exact .cons (taken label here) (runs labels later)

/-- One goal after another. -/
theorem trans (first : Steerable step choice between state)
    (second : ∀ middle, between middle → Steerable step choice goal middle) :
    Steerable step choice goal state := by
  obtain ⟨choices, middle, reached, runs⟩ := first
  obtain ⟨more, last, reached', runs'⟩ := second middle reached
  refine ⟨choices ++ more, last, reached', fun labels agree => ?_⟩
  obtain ⟨before, after, rfl, left, right⟩ := List.map_eq_append_iff.mp agree
  exact (runs before left).append (runs' after right)

theorem mono (first : Steerable step choice between state)
    (weaker : ∀ last, between last → goal last) : Steerable step choice goal state :=
  first.trans fun last reached => here (weaker last reached)

/-- Along a path, when the system can be steered from each place to the next one. -/
theorem along {Place : Type*} {adjacent : Place → Place → Prop} {located : Place → State → Prop}
    {first target : Place} (path : Relation.ReflTransGen adjacent first target)
    (moves : ∀ here next state, adjacent here next → located here state →
      Steerable step choice (fun state => goal state ∨ located next state) state)
    (initial : located first state) :
    Steerable step choice (fun state => goal state ∨ located target state) state := by
  induction path with
  | refl => exact here (.inr initial)
  | tail _ adjacent ih =>
      refine ih.trans fun middle reached => ?_
      rcases reached with reached | located
      · exact here (.inl reached)
      · exact moves _ _ middle adjacent located

/-- By a descent, when the system can be steered to a lower state or to the goal. -/
theorem descend {holds : State → Prop} (measure : State → Nat)
    (lower : ∀ state, holds state →
      Steerable step choice
        (fun next => goal next ∨ holds next ∧ measure next < measure state) state)
    (initial : holds state) : Steerable step choice goal state := by
  induction bound : measure state using Nat.strongRecOn generalizing state with
  | ind _ ih =>
      refine (lower state initial).trans fun next reached => ?_
      rcases reached with reached | ⟨kept, less⟩
      · exact here reached
      · exact ih _ (bound ▸ less) kept rfl

end Steerable

end Ece391.Library
