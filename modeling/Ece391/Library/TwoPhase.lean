import Mathlib.Data.Nat.ModEq
import Mathlib.Order.Bounds.Defs

/-!
# Two-phase countdown timers

A timer is in one of two phases and counts down the ticks left in it.  When the
countdown reaches zero the timer enters the other phase with that phase's length.
With positive lengths the timer is periodic, and its state after any number of
ticks is given in closed form by the remainder modulo the period.
-/

namespace Ece391.Library

/-- The phase of a timer and the ticks left before it changes. -/
structure TwoPhase where
  on : Bool
  countdown : Nat
  deriving DecidableEq, Repr

namespace TwoPhase

variable (onLength offLength : Nat)

/-- One tick of the timer. -/
def tick (timer : TwoPhase) : TwoPhase :=
  if timer.countdown - 1 = 0 then
    if timer.on then ⟨false, offLength⟩ else ⟨true, onLength⟩
  else
    { timer with countdown := timer.countdown - 1 }

/-- The state reached after `ticks` ticks from the start of the first phase. -/
def after (ticks : Nat) : TwoPhase :=
  let elapsed := ticks % (onLength + offLength)
  if elapsed < onLength then ⟨true, onLength - elapsed⟩
  else ⟨false, onLength + offLength - elapsed⟩

variable {onLength offLength : Nat}

theorem after_zero (positive : 0 < onLength) :
    after onLength offLength 0 = ⟨true, onLength⟩ := by
  simp [after, positive]

/-- A timer that has not run out always has ticks left. -/
theorem after_countdown_pos (positive : 0 < onLength) (ticks : Nat) :
    0 < (after onLength offLength ticks).countdown := by
  have bound := Nat.mod_lt ticks (Nat.add_pos_left positive offLength)
  simp only [after]
  split <;> simp only <;> omega

private theorem succ_mod {period : Nat} (positive : 0 < period) (ticks : Nat) :
    (ticks + 1) % period = if ticks % period + 1 = period then 0 else ticks % period + 1 := by
  have bound := Nat.mod_lt ticks positive
  rw [Nat.add_mod]
  split
  next last =>
    rcases Nat.lt_or_ge 1 period with large | small
    · rw [Nat.mod_eq_of_lt large, last, Nat.mod_self]
    · obtain rfl : period = 1 := by omega
      simp [Nat.mod_one]
  next inside =>
    rw [Nat.mod_eq_of_lt (by omega : 1 < period), Nat.mod_eq_of_lt (by omega)]

/-- The closed form advances by one tick at a time. -/
theorem tick_after (onPositive : 0 < onLength) (offPositive : 0 < offLength) (ticks : Nat) :
    (after onLength offLength ticks).tick onLength offLength =
      after onLength offLength (ticks + 1) := by
  have bound := Nat.mod_lt ticks (Nat.add_pos_left onPositive offLength)
  simp only [after, succ_mod (Nat.add_pos_left onPositive offLength)]
  generalize ticks % (onLength + offLength) = elapsed at bound ⊢
  by_cases first : elapsed < onLength
  · have inside : elapsed + 1 ≠ onLength + offLength := by omega
    simp only [first, inside, tick, if_true, if_false]
    by_cases last : elapsed + 1 = onLength
    · simp [last, show onLength - elapsed - 1 = 0 by omega]
    · simp only [show ¬onLength - elapsed - 1 = 0 by omega,
        show elapsed + 1 < onLength by omega, if_true, if_false]
      congr 1
  · simp only [first, tick, if_false]
    by_cases last : elapsed + 1 = onLength + offLength
    · simp [last, show onLength + offLength - elapsed - 1 = 0 by omega, onPositive]
    · simp only [show ¬onLength + offLength - elapsed - 1 = 0 by omega, last,
        show ¬elapsed + 1 < onLength by omega, if_false]
      congr 1

/-- The timer is in its first phase for the first ticks of each period. -/
theorem after_on (ticks : Nat) : (after onLength offLength ticks).on =
    decide (ticks % (onLength + offLength) < onLength) := by
  simp only [after]
  split <;> simp [*]

/-- The countdown is the least number of ticks after which the phase differs. -/
theorem after_countdown_isLeast (onPositive : 0 < onLength) (offPositive : 0 < offLength)
    (ticks : Nat) :
    IsLeast {later | ¬((ticks + later) % (onLength + offLength) < onLength ↔
        ticks % (onLength + offLength) < onLength)}
      (after onLength offLength ticks).countdown := by
  have bound := Nat.mod_lt ticks (Nat.add_pos_left onPositive offLength)
  simp only [← Nat.mod_add_mod ticks, after]
  generalize ticks % (onLength + offLength) = elapsed at bound ⊢
  by_cases first : elapsed < onLength
  · simp only [first, if_true, iff_true]
    refine ⟨?_, fun later differs => ?_⟩
    · rw [Set.mem_ofPred_eq, Nat.add_sub_of_le first.le,
        Nat.mod_eq_of_lt (Nat.lt_add_of_pos_right offPositive)]
      exact lt_irrefl onLength
    · by_contra early
      have inside : elapsed + later < onLength := by omega
      rw [Set.mem_ofPred_eq, Nat.mod_eq_of_lt (Nat.lt_add_right offLength inside)] at differs
      exact differs inside
  · simp only [first, if_false, iff_false, not_not]
    refine ⟨?_, fun later differs => ?_⟩
    · rw [Set.mem_ofPred_eq, Nat.add_sub_of_le bound.le, Nat.mod_self]
      exact onPositive
    · by_contra early
      have inside : elapsed + later < onLength + offLength := by omega
      rw [Set.mem_ofPred_eq, Nat.mod_eq_of_lt inside] at differs
      omega

end TwoPhase

end Ece391.Library
