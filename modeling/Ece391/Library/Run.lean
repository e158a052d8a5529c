import Mathlib.Data.List.Basic

/-!
# Runs of labelled transition relations

A run is a finite sequence of labelled steps.  The rules below turn a fact about
one step into a fact about every state a run reaches: an invariant of the state, and
an invariant of the state together with the labels seen so far.
-/

namespace Ece391.Library

universe u v

variable {State : Type u} {Label : Type v}

/-- Finite executions of `step`, with the labels in the order they were taken. -/
inductive Run (step : State → Label → State → Prop) :
    State → List Label → State → Prop where
  | nil (state : State) : Run step state [] state
  | cons {start middle last : State} {label : Label} {labels : List Label} :
      step start label middle → Run step middle labels last →
      Run step start (label :: labels) last

namespace Run

variable {step : State → Label → State → Prop}
variable {start middle last : State}
variable {label : Label} {labels before after : List Label}

theorem single (taken : step start label last) : Run step start [label] last :=
  .cons taken (.nil last)

/-- Two runs compose when the second starts where the first ended. -/
theorem append (left : Run step start before middle)
    (right : Run step middle after last) : Run step start (before ++ after) last := by
  induction left with
  | nil state => exact right
  | cons taken _ ih => exact .cons taken (ih right)

theorem snoc (run : Run step start labels middle) (taken : step middle label last) :
    Run step start (labels ++ [label]) last :=
  run.append (single taken)

theorem uncons (run : Run step start (label :: labels) last) :
    ∃ middle, step start label middle ∧ Run step middle labels last := by
  cases run with
  | cons taken rest => exact ⟨_, taken, rest⟩

/-- A run passes through a state between any two parts of its labels. -/
theorem split (run : Run step start (before ++ after) last) :
    ∃ middle, Run step start before middle ∧ Run step middle after last := by
  induction before generalizing start with
  | nil => exact ⟨start, .nil start, run⟩
  | cons label before ih =>
      obtain ⟨next, taken, rest⟩ := run.uncons
      obtain ⟨middle, left, right⟩ := ih rest
      exact ⟨middle, .cons taken left, right⟩

/-- The invariant rule: what every step keeps holds at the end of a run. -/
theorem invariant (holds : State → Prop)
    (keeps : ∀ before label after, holds before → step before label after → holds after)
    (run : Run step start labels last) (initial : holds start) : holds last := by
  induction run with
  | nil state => exact initial
  | cons taken _ ih => exact ih (keeps _ _ _ initial taken)

/-- The invariant rule for a property that also speaks of the labels taken so
far. -/
theorem history (holds : List Label → State → Prop)
    (keeps : ∀ past before label after,
      holds past before → step before label after → holds (past ++ [label]) after)
    (run : Run step start labels last) (past : List Label) (initial : holds past start) :
    holds (past ++ labels) last := by
  induction run generalizing past with
  | nil state => simpa using initial
  | cons taken _ ih => simpa using ih _ (keeps _ _ _ _ initial taken)

/-- A property of all the labels of a run may be assumed at each of its steps. -/
theorem restrict {allowed : Label → Prop} (run : Run step start labels last)
    (every : ∀ label ∈ labels, allowed label) :
    Run (fun before label after => step before label after ∧ allowed label)
      start labels last := by
  induction run with
  | nil state => exact .nil state
  | cons taken _ ih =>
      refine .cons ⟨taken, every _ (by simp)⟩ (ih fun label membership => ?_)
      exact every label (by simp [membership])

/-- When an invariant makes "this step is good" equivalent to "this step is allowed", and
good steps keep the invariant, the runs of good steps are the runs of allowed steps. -/
theorem good_iff_allowed (holds : State → Prop) (good : State → Label → State → Prop)
    (allowed : State → Label → Prop)
    (exact : ∀ before label after, holds before → step before label after →
      (good before label after ↔ allowed before label))
    (keeps : ∀ before label after, holds before → step before label after →
      good before label after → holds after)
    (initial : holds start) :
    Run (fun before label after => step before label after ∧ good before label after)
        start labels last ↔
      Run (fun before label after => step before label after ∧ allowed before label)
        start labels last := by
  constructor
  · intro run
    induction run with
    | nil state => exact .nil state
    | cons taken _ ih =>
        have allowedHere := (exact _ _ _ initial taken.1).mp taken.2
        exact .cons ⟨taken.1, allowedHere⟩ (ih (keeps _ _ _ initial taken.1 taken.2))
  · intro run
    induction run with
    | nil state => exact .nil state
    | cons taken _ ih =>
        have goodHere := (exact _ _ _ initial taken.1).mpr taken.2
        exact .cons ⟨taken.1, goodHere⟩ (ih (keeps _ _ _ initial taken.1 goodHere))

end Run

end Ece391.Library
