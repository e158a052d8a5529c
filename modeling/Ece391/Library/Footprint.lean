import Mathlib.Data.Set.Basic
import Mathlib.Logic.Function.Basic

/-!
# Footprints of programs that store to memory

A tracked memory remembers the addresses stored to since its log was last emptied.  A
program keeps within an area when it stores only there; cells outside the area are then
unchanged.  The rules below give the footprint of a loop from that of its body.
-/

namespace Ece391.Library

universe u v w

/-- Memory cells and the addresses stored to, latest first. -/
structure Tracked (Address : Type u) (Value : Type v) where
  cells : Address → Value
  writes : List Address

variable {Address : Type u} {Value : Type v} {Item : Type w}

namespace Tracked

/-- The same memory with an empty log. -/
def quiet (memory : Tracked Address Value) : Tracked Address Value :=
  { memory with writes := [] }

def store [DecidableEq Address] (memory : Tracked Address Value) (address : Address)
    (value : Value) : Tracked Address Value :=
  ⟨Function.update memory.cells address value, address :: memory.writes⟩

@[simp] theorem quiet_cells (memory : Tracked Address Value) :
    memory.quiet.cells = memory.cells := rfl

@[simp] theorem quiet_writes (memory : Tracked Address Value) : memory.quiet.writes = [] := rfl

@[simp] theorem store_writes [DecidableEq Address] (memory : Tracked Address Value)
    (address : Address) (value : Value) :
    (memory.store address value).writes = address :: memory.writes := rfl

end Tracked

/-- What lies between two memories when every store between them is in `area`. -/
structure Within (area : Set Address) (before after : Tracked Address Value) : Prop where
  writes : ∀ address ∈ after.writes, address ∈ before.writes ∨ address ∈ area
  unchanged : ∀ address, address ∉ area → after.cells address = before.cells address

namespace Within

variable {area : Set Address} {first second third : Tracked Address Value}

theorem refl (memory : Tracked Address Value) : Within area memory memory :=
  ⟨fun _ written => .inl written, fun _ _ => rfl⟩

theorem trans (left : Within area first second) (right : Within area second third) :
    Within area first third where
  writes := by
    intro address written
    cases right.writes address written with
    | inl earlier => exact left.writes address earlier
    | inr inside => exact .inr inside
  unchanged := by
    intro address outside
    rw [right.unchanged address outside, left.unchanged address outside]

theorem store [DecidableEq Address] (memory : Tracked Address Value) {address : Address}
    (inside : address ∈ area) (value : Value) :
    Within area memory (memory.store address value) where
  writes := by
    intro written membership
    cases membership with
    | head => exact .inr inside
    | tail _ earlier => exact .inl earlier
  unchanged := by
    intro other outside
    have different : other ≠ address := by
      intro same
      exact outside (same ▸ inside)
    exact Function.update_of_ne different ..

/-- A loop keeps within the area its body keeps within. -/
theorem foldl {body : Tracked Address Value → Item → Tracked Address Value}
    {items : List Item} (memory : Tracked Address Value)
    (each : ∀ memory, ∀ item ∈ items, Within area memory (body memory item)) :
    Within area memory (items.foldl body memory) := by
  induction items generalizing memory with
  | nil => exact refl memory
  | cons item items ih =>
      have here := each memory item List.mem_cons_self
      have rest := ih (body memory item) fun later other membership =>
        each later other (List.mem_cons_of_mem item membership)
      exact here.trans rest

/-- Starting from an empty log, only the area has been stored to. -/
theorem inside (within : Within area first second) (empty : first.writes = [])
    {address : Address} (written : address ∈ second.writes) : address ∈ area := by
  cases within.writes address written with
  | inl earlier => simp [empty] at earlier
  | inr inside => exact inside

end Within

end Ece391.Library
