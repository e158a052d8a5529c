import Mathlib.Data.List.Basic
import Mathlib.Order.Defs.PartialOrder

/-!
# First-fit allocation

A search through increasing candidates returns the least acceptable one, and fails
only when none is acceptable.
-/

namespace Ece391.Library

universe u

variable {α : Type u}

/-- The first acceptable candidate. -/
def firstFit (candidates : List α) (accept : α → Prop) [DecidablePred accept] : Option α :=
  candidates.find? fun candidate => accept candidate

variable {candidates : List α} {accept : α → Prop} [DecidablePred accept] {chosen : α}

theorem firstFit_mem (found : firstFit candidates accept = some chosen) :
    chosen ∈ candidates :=
  List.mem_of_find?_eq_some found

theorem firstFit_accept (found : firstFit candidates accept = some chosen) : accept chosen := by
  simpa using List.find?_some found

theorem firstFit_none (none : firstFit candidates accept = none) :
    ∀ candidate ∈ candidates, ¬accept candidate := by
  simpa [firstFit] using none

/-- Every smaller candidate was rejected. -/
theorem firstFit_least [Preorder α] (sorted : candidates.Pairwise (· < ·))
    (found : firstFit candidates accept = some chosen) {lower : α}
    (member : lower ∈ candidates) (below : lower < chosen) : ¬accept lower := by
  obtain ⟨_, before, after, rfl, rejected⟩ := List.find?_eq_some_iff_append.mp found
  rcases List.mem_append.mp member with earlier | later
  · simpa using rejected lower earlier
  · rw [List.pairwise_append] at sorted
    rcases List.mem_cons.mp later with rfl | beyond
    · exact absurd below (lt_irrefl _)
    · have above := (List.pairwise_cons.mp sorted.2.1).1 lower beyond
      exact absurd below (lt_asymm above)

end Ece391.Library
