import Mathlib.Data.List.Nodup
import Mathlib.Logic.Relation

/-!
# Flood fill with a queue

The places that can be reached from a start without stepping on old ones are collected in a
queue.  The entries up to some index have been explored: each of their neighbours is old or
in the queue.  When all have been, the queue holds exactly the reachable places.
-/

namespace Ece391.Library

universe u

variable {Place : Type u}

/-- A place is reached from a start by steps to places that are not old. -/
def Floods (adjacent : Place → Place → Prop) (old : Place → Prop) (start place : Place) : Prop :=
  Relation.ReflTransGen (fun here next => adjacent here next ∧ ¬old next) start place

/-- A flood fill under way. -/
structure Flooding (adjacent : Place → Place → Prop) (old : Place → Prop) (start : Place)
    (queue : List Place) (explored : Nat) : Prop where
  nodup : queue.Nodup
  fresh : ∀ place ∈ queue, ¬old place
  started : start ∈ queue
  sound : ∀ place ∈ queue, Floods adjacent old start place
  bound : explored ≤ queue.length
  closed : ∀ here ∈ queue.take explored, ∀ next, adjacent here next → old next ∨ next ∈ queue

namespace Flooding

variable {adjacent : Place → Place → Prop} {old : Place → Prop} {start here next : Place}
variable {queue : List Place} {explored : Nat}

theorem begin (fresh : ¬old start) : Flooding adjacent old start [start] 0 where
  nodup := List.nodup_singleton start
  fresh place member := by
    rw [List.mem_singleton.mp member]
    exact fresh
  started := List.mem_singleton_self start
  sound place member := by
    rw [List.mem_singleton.mp member]
    exact Relation.ReflTransGen.refl
  bound := Nat.zero_le 1
  closed here member := by simp at member

/-- A new neighbour of an entry is put into the queue. -/
theorem push (flooding : Flooding adjacent old start queue explored) (member : here ∈ queue)
    (step : adjacent here next) (fresh : ¬old next) (absent : next ∉ queue) :
    Flooding adjacent old start (queue ++ [next]) explored where
  nodup := by
    rw [List.nodup_append]
    refine ⟨flooding.nodup, List.nodup_singleton next, fun place listed other same equal => ?_⟩
    rw [List.mem_singleton.mp same] at equal
    exact absent (equal ▸ listed)
  fresh place listed := by
    rcases List.mem_append.mp listed with earlier | last
    · exact flooding.fresh place earlier
    · rw [List.mem_singleton.mp last]
      exact fresh
  started := List.mem_append_left _ flooding.started
  sound place listed := by
    rcases List.mem_append.mp listed with earlier | last
    · exact flooding.sound place earlier
    · rw [List.mem_singleton.mp last]
      exact (flooding.sound here member).tail ⟨step, fresh⟩
  bound := by
    have bound := flooding.bound
    simp only [List.length_append]
    omega
  closed place listed other step := by
    rw [List.take_append_of_le_length flooding.bound] at listed
    exact (flooding.closed place listed other step).imp_right (List.mem_append_left _)

/-- The next entry has been explored when all its neighbours are old or in the queue. -/
theorem advance (flooding : Flooding adjacent old start queue explored)
    (entry : queue[explored]? = some here)
    (done : ∀ next, adjacent here next → old next ∨ next ∈ queue) :
    Flooding adjacent old start queue (explored + 1) where
  nodup := flooding.nodup
  fresh := flooding.fresh
  started := flooding.started
  sound := flooding.sound
  bound := (List.getElem?_eq_some_iff.mp entry).1
  closed place listed next step := by
    rw [List.take_add_one, entry] at listed
    rcases List.mem_append.mp listed with earlier | last
    · exact flooding.closed place earlier next step
    · obtain rfl := List.mem_singleton.mp last
      exact done next step

/-- When every entry has been explored the queue holds the places that can be reached. -/
theorem complete (flooding : Flooding adjacent old start queue queue.length) (place : Place) :
    place ∈ queue ↔ Floods adjacent old start place := by
  refine ⟨flooding.sound place, fun reached => ?_⟩
  have closed := flooding.closed
  rw [List.take_length] at closed
  induction reached with
  | refl => exact flooding.started
  | tail _ step ih =>
      rcases closed _ ih _ step.1 with known | listed
      · exact absurd known step.2
      · exact listed

end Flooding

end Ece391.Library
