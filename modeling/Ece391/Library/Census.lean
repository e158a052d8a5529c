import Mathlib.Data.Finset.Card

/-!
# Counting the places of a store

A program that keeps a count beside a store has to change both together.  The rules say how
the number of places with a property changes when one place is written.
-/

namespace Ece391.Library

universe u v

variable {Place : Type u} {Value : Type v}

/-- The number of places whose value has a property. -/
def census (places : Finset Place) (counted : Value → Prop) [DecidablePred counted]
    (store : Place → Value) : Nat :=
  (places.filter fun place => counted (store place)).card

section

variable {places : Finset Place} {counted : Value → Prop} [DecidablePred counted]
variable {store other : Place → Value} {place : Place} {value : Value}

theorem census_eq_zero :
    census places counted store = 0 ↔ ∀ place ∈ places, ¬counted (store place) := by
  rw [census, Finset.card_eq_zero, Finset.filter_eq_empty_iff]

theorem census_congr (same : ∀ place ∈ places, counted (other place) ↔ counted (store place)) :
    census places counted other = census places counted store := by
  rw [census, census, Finset.filter_congr same]

/-- No place gains the property. -/
theorem census_le (fewer : ∀ place ∈ places, counted (other place) → counted (store place)) :
    census places counted other ≤ census places counted store := by
  refine Finset.card_le_card fun place held => ?_
  obtain ⟨member, held⟩ := Finset.mem_filter.mp held
  exact Finset.mem_filter.mpr ⟨member, fewer place member held⟩

/-- Places that lose the property, one at least, when none gains it. -/
theorem census_lt (member : place ∈ places) (before : counted (store place))
    (after : ¬counted (other place))
    (fewer : ∀ place ∈ places, counted (other place) → counted (store place)) :
    census places counted other < census places counted store := by
  refine Finset.card_lt_card (Finset.ssubset_iff_of_subset ?_ |>.mpr ⟨place, ?_, ?_⟩)
  · intro i held
    obtain ⟨member, held⟩ := Finset.mem_filter.mp held
    exact Finset.mem_filter.mpr ⟨member, fewer i member held⟩
  · exact Finset.mem_filter.mpr ⟨member, before⟩
  · exact fun held => after (Finset.mem_filter.mp held).2

variable [DecidableEq Place]

/-- A write that gives a place the property. -/
theorem census_gain (member : place ∈ places) (before : ¬counted (store place))
    (after : counted value) :
    census places counted (Function.update store place value) =
      census places counted store + 1 := by
  have grown : (places.filter fun i => counted (Function.update store place value i)) =
      insert place (places.filter fun i => counted (store i)) := by
    ext i
    by_cases same : i = place
    · subst same
      simp [member, after]
    · simp [same]
  have absent : place ∉ places.filter fun i => counted (store i) := by
    simp [before]
  rw [census, grown, Finset.card_insert_of_notMem absent, census]

/-- A write that takes the property from a place. -/
theorem census_loss (member : place ∈ places) (before : counted (store place))
    (after : ¬counted value) :
    census places counted (Function.update store place value) + 1 =
      census places counted store := by
  have written : ¬counted (Function.update store place value place) := by
    rwa [Function.update_self]
  have back := census_gain member written before
  rw [Function.update_idem, Function.update_eq_self] at back
  exact back.symm

/-- A write that does not change whether a place has it. -/
theorem census_same (same : counted value ↔ counted (store place)) :
    census places counted (Function.update store place value) = census places counted store := by
  apply census_congr
  intro i _
  by_cases here : i = place
  · subst here
    rwa [Function.update_self]
  · rw [Function.update_of_ne here]

/-- A write to another place. -/
theorem census_outside (absent : place ∉ places) :
    census places counted (Function.update store place value) = census places counted store := by
  apply census_congr
  intro i member
  have elsewhere : i ≠ place := fun same => absent (same ▸ member)
  rw [Function.update_of_ne elsewhere]

/-- Several places that lose the property at once. -/
theorem census_drop {dropped : List Place} (distinct : dropped.Nodup)
    (before : ∀ place ∈ dropped, place ∈ places ∧ counted (store place))
    (after : ∀ place ∈ places,
      counted (other place) ↔ counted (store place) ∧ place ∉ dropped) :
    census places counted other + dropped.length = census places counted store := by
  have split : (places.filter fun place => counted (store place)) =
      (places.filter fun place => counted (other place)) ∪ dropped.toFinset := by
    ext place
    simp only [Finset.mem_filter, Finset.mem_union, List.mem_toFinset]
    constructor
    · rintro ⟨member, held⟩
      by_cases gone : place ∈ dropped
      · exact .inr gone
      · exact .inl ⟨member, (after place member).mpr ⟨held, gone⟩⟩
    · rintro (⟨member, held⟩ | gone)
      · exact ⟨member, ((after place member).mp held).1⟩
      · exact before place gone
  have apart : Disjoint (places.filter fun place => counted (other place)) dropped.toFinset := by
    rw [Finset.disjoint_left]
    intro place held gone
    obtain ⟨member, held⟩ := Finset.mem_filter.mp held
    exact ((after place member).mp held).2 (List.mem_toFinset.mp gone)
  rw [census, census, split, Finset.card_union_of_disjoint apart,
    List.toFinset_card_of_nodup distinct]

end

end Ece391.Library
