import Mathlib.Data.List.Basic
import Mathlib.Logic.Function.Basic

/-!
# Ring buffers

A ring of `size` slots between a start and a stop index holds at most `size - 1` elements,
so that an empty ring and a full one differ.  The contents are the list of the occupied
slots from the start on; a push appends to it, a pop takes its head, and the loops that
fill or drain a ring split a list at a length.
-/

namespace Ece391.Library

universe u

/-- The slots of a ring, the index of its first element and the index after its last. -/
structure Ring (α : Type u) (size : Nat) where
  buf : Fin size → α
  start : Fin size
  stop : Fin size

namespace Ring

variable {α : Type u} {size : Nat}

/-- The index after another, around the end of the buffer. -/
def next (index : Fin size) : Fin size :=
  ⟨(index + 1) % size, Nat.mod_lt _ index.pos⟩

/-- The number of elements. -/
def used (ring : Ring α size) : Nat :=
  if ring.start ≤ ring.stop then ring.stop - ring.start else size + ring.stop - ring.start

/-- The number of elements that still fit. -/
def room (ring : Ring α size) : Nat :=
  size - ring.used - 1

def Empty (ring : Ring α size) : Prop :=
  ring.start = ring.stop

def Full (ring : Ring α size) : Prop :=
  next ring.stop = ring.start

instance (ring : Ring α size) : Decidable ring.Empty :=
  inferInstanceAs (Decidable (_ = _))

instance (ring : Ring α size) : Decidable ring.Full :=
  inferInstanceAs (Decidable (_ = _))

/-- The index of an element. -/
def slot (ring : Ring α size) (i : Nat) : Fin size :=
  ⟨(ring.start + i) % size, Nat.mod_lt _ ring.start.pos⟩

/-- The elements, oldest first. -/
def contents (ring : Ring α size) : List α :=
  (List.range ring.used).map fun i => ring.buf (ring.slot i)

/-- Store one element at the end. -/
def push (ring : Ring α size) (element : α) : Ring α size :=
  { ring with buf := Function.update ring.buf ring.stop element, stop := next ring.stop }

/-- Drop the oldest element. -/
def pop (ring : Ring α size) : Ring α size :=
  { ring with start := next ring.start }

/-- Store elements until the ring is full; what did not fit, and the ring. -/
def fill : List α → Ring α size → List α × Ring α size
  | [], ring => ([], ring)
  | element :: rest, ring =>
      if ring.Full then (element :: rest, ring) else fill rest (ring.push element)

/-- Take up to a number of elements; the elements, and the ring. -/
def drain : Nat → Ring α size → List α × Ring α size
  | 0, ring => ([], ring)
  | count + 1, ring =>
      if ring.Empty then ([], ring)
      else
        let (taken, rest) := drain count ring.pop
        (ring.buf ring.start :: taken, rest)

/-! ## Indices -/

section

variable {ring : Ring α size}

private theorem mod_once {value : Nat} (bound : value < size + size) :
    value % size = if value < size then value else value - size := by
  split
  · exact Nat.mod_eq_of_lt ‹_›
  · rw [Nat.mod_eq_sub_mod (by omega), Nat.mod_eq_of_lt (by omega)]

theorem next_val (index : Fin size) :
    (next index).val = if index.val + 1 < size then index.val + 1 else 0 := by
  have bound := index.isLt
  have wraps : (next index).val = (index.val + 1) % size := rfl
  rw [wraps, mod_once (by omega)]
  split <;> omega

theorem slot_val {i : Nat} (bound : i < size) : (ring.slot i).val =
    if ring.start.val + i < size then ring.start.val + i else ring.start.val + i - size :=
  mod_once (by omega)

theorem used_eq (ring : Ring α size) : ring.used =
    if ring.start.val ≤ ring.stop.val then ring.stop.val - ring.start.val
    else size + ring.stop.val - ring.start.val := rfl

theorem used_lt (ring : Ring α size) : ring.used < size := by
  have first := ring.start.isLt
  have last := ring.stop.isLt
  rw [used_eq]
  split <;> omega

theorem full_iff : ring.Full ↔ ring.used + 1 = size := by
  have first := ring.start.isLt
  have last := ring.stop.isLt
  rw [Full, Fin.ext_iff, next_val, used_eq]
  split <;> split <;> omega

theorem empty_iff : ring.Empty ↔ ring.used = 0 := by
  have first := ring.start.isLt
  have last := ring.stop.isLt
  rw [Empty, Fin.ext_iff, used_eq]
  split <;> omega

theorem room_pos_iff : 0 < ring.room ↔ ¬ring.Full := by
  have bound := ring.used_lt
  rw [full_iff, room]
  omega

@[simp] theorem contents_length (ring : Ring α size) : ring.contents.length = ring.used := by
  simp [contents]

theorem contents_of_empty (empty : ring.Empty) : ring.contents = [] := by
  rw [← List.length_eq_zero_iff, contents_length]
  exact empty_iff.mp empty

/-! ## One element -/

theorem push_used (space : ¬ring.Full) (element : α) :
    (ring.push element).used = ring.used + 1 := by
  have first := ring.start.isLt
  have last := ring.stop.isLt
  rw [full_iff] at space
  have after : (ring.push element).used =
      if ring.start.val ≤ (next ring.stop).val then (next ring.stop).val - ring.start.val
      else size + (next ring.stop).val - ring.start.val := rfl
  rw [used_eq] at space
  rw [after, next_val, used_eq]
  split at space <;> split <;> split <;> omega

theorem pop_used (occupied : ¬ring.Empty) : ring.pop.used + 1 = ring.used := by
  have first := ring.start.isLt
  have last := ring.stop.isLt
  rw [empty_iff, used_eq] at occupied
  have after : ring.pop.used =
      if (next ring.start).val ≤ ring.stop.val then ring.stop.val - (next ring.start).val
      else size + ring.stop.val - (next ring.start).val := rfl
  rw [after, next_val, used_eq]
  split at occupied <;> split <;> split <;> omega

/-- The first free slot is the stop index. -/
theorem slot_used (ring : Ring α size) : ring.slot ring.used = ring.stop := by
  have first := ring.start.isLt
  have last := ring.stop.isLt
  rw [Fin.ext_iff, slot_val ring.used_lt, used_eq]
  split <;> split <;> omega

theorem slot_ne_stop {i : Nat} (occupied : i < ring.used) : ring.slot i ≠ ring.stop := by
  have first := ring.start.isLt
  have last := ring.stop.isLt
  have bound := ring.used_lt
  rw [Ne, Fin.ext_iff, slot_val (by omega)]
  rw [used_eq] at occupied
  split at occupied <;> split <;> omega

/-- A push appends to the contents. -/
theorem push_contents (space : ¬ring.Full) (element : α) :
    (ring.push element).contents = ring.contents ++ [element] := by
  rw [contents, push_used space, List.range_succ, List.map_append]
  congr 1
  · apply List.map_congr_left
    intro i member
    have other : ring.slot i ≠ ring.stop := slot_ne_stop (List.mem_range.mp member)
    exact Function.update_of_ne other ..
  · have here : (ring.push element).slot ring.used = ring.stop := ring.slot_used
    rw [List.map_singleton, here]
    exact congrArg (fun value => [value]) (Function.update_self ..)

/-- A pop takes the head of the contents. -/
theorem pop_contents (occupied : ¬ring.Empty) :
    ring.contents = ring.buf ring.start :: ring.pop.contents := by
  have first := ring.start.isLt
  have bound := ring.used_lt
  rw [contents, ← pop_used occupied, List.range_succ_eq_map, List.map_cons, List.map_map]
  congr 1
  · have here : ring.slot 0 = ring.start := by
      rw [Fin.ext_iff, slot_val (by omega)]
      split <;> omega
    rw [here]
  · apply List.map_congr_left
    intro i member
    have inside := List.mem_range.mp member
    rw [← pop_used occupied] at bound
    have moved : ring.slot (i + 1) = ring.pop.slot i := by
      have after : ring.pop.start.val = (next ring.start).val := rfl
      rw [Fin.ext_iff, slot_val (by omega), slot_val (by omega), after, next_val]
      split <;> split <;> split <;> omega
    exact congrArg ring.buf moved

/-! ## Loops -/

/-- Filling a ring stores as many elements as there is room for. -/
theorem fill_contents (elements : List α) (ring : Ring α size) :
    (fill elements ring).2.contents = ring.contents ++ elements.take ring.room ∧
      (fill elements ring).1 = elements.drop ring.room := by
  induction elements generalizing ring with
  | nil => simp [fill]
  | cons element rest ih =>
      rw [fill]
      split
      next full =>
        have none : ring.room = 0 := by
          by_contra some
          exact room_pos_iff.mp (Nat.pos_of_ne_zero some) full
        simp [none]
      next space =>
        obtain ⟨contents, left⟩ := ih (ring.push element)
        have less : ring.room = (ring.push element).room + 1 := by
          have positive := room_pos_iff.mpr space
          rw [room] at positive ⊢
          rw [room, push_used space]
          omega
        rw [contents, left, push_contents space, less]
        simp

/-- Draining a ring takes a prefix of its contents. -/
theorem drain_contents (count : Nat) (ring : Ring α size) :
    (drain count ring).1 = ring.contents.take count ∧
      (drain count ring).2.contents = ring.contents.drop count := by
  induction count generalizing ring with
  | zero => simp [drain]
  | succ count ih =>
      rw [drain]
      split
      next empty => simp [contents_of_empty empty]
      next occupied =>
        obtain ⟨taken, rest⟩ := ih ring.pop
        simp only [taken, rest, pop_contents occupied, List.take_succ_cons, List.drop_succ_cons,
          and_self]

end

end Ring

end Ece391.Library
