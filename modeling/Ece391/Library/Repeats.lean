import Mathlib.Data.List.Infix

/-!
# Lists whose items are repeated

A sequence that goes through some items in order, and may stay at each of them for a while.
-/

namespace Ece391.Library

universe u

/-- A sequence shows the items in order, each of them once or more. -/
inductive Repeats {Item : Type u} : List Item → List Item → Prop where
  | nil : Repeats [] []
  | next {items shown : List Item} (item : Item) :
      Repeats items shown → Repeats (items ++ [item]) (shown ++ [item])
  | again {items shown : List Item} {item : Item} :
      Repeats (items ++ [item]) shown → Repeats (items ++ [item]) (shown ++ [item])

namespace Repeats

variable {Item : Type u} {items shown seen : List Item}

/-- At any time some of the items have been gone through. -/
theorem before (repeats : Repeats items shown) (early : seen <+: shown) :
    ∃ done, done <+: items ∧ Repeats done seen := by
  induction repeats with
  | nil =>
      rw [List.prefix_nil] at early
      subst early
      exact ⟨[], List.prefix_refl _, .nil⟩
  | next item repeats ih =>
      rcases List.prefix_concat_iff.mp early with rfl | early
      · exact ⟨_, List.prefix_refl _, .next item repeats⟩
      · obtain ⟨done, inside, still⟩ := ih early
        exact ⟨done, inside.trans (List.prefix_append _ _), still⟩
  | again repeats ih =>
      rcases List.prefix_concat_iff.mp early with rfl | early
      · exact ⟨_, List.prefix_refl _, .again repeats⟩
      · exact ih early

end Repeats

end Ece391.Library
