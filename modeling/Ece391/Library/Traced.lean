import Mathlib.Data.List.Basic

/-!
# Programs that log the places they read

A traced value is a value together with the places read to compute it, first one first.  A
program over a memory is local when its log tells all that it depends on: in a memory that is
the same at every place it logs, it computes the same value and reads the same places.
-/

namespace Ece391.Library

universe u v w

/-- A value and the places read to compute it. -/
structure Traced (Place : Type u) (α : Type v) where
  value : α
  places : List Place

namespace Traced

variable {Place : Type u} {α β : Type v}

/-- The read of one place. -/
def read (place : Place) (value : α) : Traced Place α :=
  ⟨value, [place]⟩

instance : Monad (Traced Place) where
  pure value := ⟨value, []⟩
  bind first second :=
    ⟨(second first.value).value, first.places ++ (second first.value).places⟩

@[simp] theorem read_value (place : Place) (value : α) : (read place value).value = value := rfl

@[simp] theorem read_places (place : Place) (value : α) : (read place value).places = [place] :=
  rfl

@[simp] theorem pure_value (value : α) : (pure value : Traced Place α).value = value := rfl

@[simp] theorem pure_places (value : α) : (pure value : Traced Place α).places = [] := rfl

@[simp] theorem bind_value (first : Traced Place α) (second : α → Traced Place β) :
    (first >>= second).value = (second first.value).value := rfl

@[simp] theorem bind_places (first : Traced Place α) (second : α → Traced Place β) :
    (first >>= second).places = first.places ++ (second first.value).places := rfl

@[simp] theorem ite_value (condition : Prop) [Decidable condition] (yes no : Traced Place α) :
    (if condition then yes else no).value = if condition then yes.value else no.value :=
  apply_ite value condition yes no

/-- Every place read is in an area. -/
def Inside (area : Place → Prop) (traced : Traced Place α) : Prop :=
  ∀ place ∈ traced.places, area place

section Inside

variable {area : Place → Prop} {place : Place}

@[simp] theorem inside_pure (value : α) : Inside area (pure value) := by
  intro place member
  cases member

@[simp] theorem inside_read {value : α} : Inside area (read place value) ↔ area place := by
  simp [Inside]

/-- Of two programs in a row, both keep inside. -/
@[simp] theorem inside_bind {first : Traced Place α} {second : α → Traced Place β} :
    Inside area (first >>= second) ↔ Inside area first ∧ Inside area (second first.value) := by
  simp only [Inside, bind_places, List.mem_append]
  constructor
  · intro every
    exact ⟨fun place member => every place (.inl member),
      fun place member => every place (.inr member)⟩
  · rintro ⟨left, right⟩ place (member | member)
    · exact left place member
    · exact right place member

theorem inside_ite {condition : Prop} [Decidable condition] {yes no : Traced Place α} :
    Inside area (if condition then yes else no) ↔
      (condition → Inside area yes) ∧ (¬condition → Inside area no) := by
  by_cases holds : condition <;> simp [holds]

end Inside

/-! ## Locality -/

variable {Memory : Type w} {same : Place → Memory → Memory → Prop}

/-- The value and the log depend only on the places logged. -/
def Local (same : Place → Memory → Memory → Prop) (program : Memory → Traced Place α) : Prop :=
  ∀ first second, Inside (fun place => same place first second) (program first) →
    program second = program first

namespace Local

theorem pure (value : α) : Local same fun _ => (Pure.pure value : Traced Place α) :=
  fun _ _ _ => rfl

theorem read {place : Place} {value : Memory → α}
    (determines : ∀ first second, same place first second → value second = value first) :
    Local same fun memory => Traced.read place (value memory) := by
  intro first second agree
  have here : same place first second := agree place List.mem_cons_self
  exact congrArg (Traced.read place) (determines first second here)

/-- A local program may go on by what it has read. -/
theorem bind {program : Memory → Traced Place α} {rest : α → Memory → Traced Place β}
    (first : Local same program) (second : ∀ value, Local same (rest value)) :
    Local same fun memory => program memory >>= fun value => rest value memory := by
  intro before after agree
  obtain ⟨left, right⟩ := inside_bind.mp agree
  have here := first before after left
  have later := second (program before).value before after right
  change (⟨(rest (program after).value after).value,
      (program after).places ++ (rest (program after).value after).places⟩ : Traced Place β) =
    ⟨(rest (program before).value before).value,
      (program before).places ++ (rest (program before).value before).places⟩
  rw [here, later]

theorem ite {condition : Prop} [Decidable condition] {yes no : Memory → Traced Place α}
    (left : Local same yes) (right : Local same no) :
    Local same fun memory => if condition then yes memory else no memory := by
  split
  · exact left
  · exact right

end Local

end Traced

end Ece391.Library
