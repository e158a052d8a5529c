import Mathlib.Logic.Function.Iterate
import Mathlib.Tactic.Ring

/-!
# Drawing one line of a tiled picture

A picture is made of tiles.  The pixels of a line are first collected in a buffer, tile by
tile, and then stored one after the other at the addresses of a moving cursor.  The rules
below say what the two loops leave: the buffer holds the pixel of the picture at each
position, and the memory the buffer.
-/

namespace Ece391.Library

universe u v

variable {α : Type u} {Cursor : Type v}

/-! ## Collecting a line -/

/-- Copy at most `left` cells, `stride` apart, into a buffer of `length` cells that is
filled up to `index`; the result is the index reached and the buffer. -/
def copyTile (memory : Int → α) (stride : Int) (length : Nat) :
    Nat → Int → Nat → (Nat → α) → Nat × (Nat → α)
  | 0, _, index, buffer => (index, buffer)
  | left + 1, pointer, index, buffer =>
      if index < length then
        copyTile memory stride length left (pointer + stride) (index + 1)
          (Function.update buffer index (memory pointer))
      else (index, buffer)

/-- Fill the buffer tile by tile, from an offset in the first tile and from the start of
the others; `pointer` finds a cell of a tile.  A round copies at least one cell. -/
def copyTiles (memory : Int → α) (size stride : Int) (length : Nat)
    (pointer : Int → Int → Int) : Nat → Int → Int → Nat → (Nat → α) → Nat → α
  | 0, _, _, _, buffer => buffer
  | rounds + 1, tile, offset, index, buffer =>
      if index < length then
        let copied := copyTile memory stride length (size - offset).toNat (pointer tile offset)
          index buffer
        copyTiles memory size stride length pointer rounds (tile + 1) 0 copied.1 copied.2
      else buffer

section

variable {memory : Int → α} {size stride : Int} {length left index i : Nat}
variable {pointer : Int} {buffer : Nat → α}

theorem copyTile_index (bound : index ≤ length) :
    (copyTile memory stride length left pointer index buffer).1 =
      min (index + left) length := by
  induction left generalizing pointer index buffer with
  | zero =>
      rw [copyTile]
      omega
  | succ left ih =>
      rw [copyTile]
      split
      next room =>
        rw [ih room]
        omega
      next full =>
        change index = _
        omega

theorem copyTile_before (before : i < index) :
    (copyTile memory stride length left pointer index buffer).2 i = buffer i := by
  induction left generalizing pointer index buffer with
  | zero => rfl
  | succ left ih =>
      rw [copyTile]
      split
      · rw [ih (by omega), Function.update_of_ne (by omega)]
      · rfl

theorem copyTile_inside (low : index ≤ i) (high : i < index + left) (bound : i < length) :
    (copyTile memory stride length left pointer index buffer).2 i =
      memory (pointer + stride * ((i : Int) - index)) := by
  induction left generalizing pointer index buffer with
  | zero => omega
  | succ left ih =>
      rw [copyTile, if_pos (by omega)]
      cases Nat.lt_or_eq_of_le low with
      | inl later =>
          rw [ih later (by omega)]
          congr 1
          push_cast
          ring
      | inr first =>
          subst first
          rw [copyTile_before (Nat.lt_succ_self index), Function.update_self]
          congr 1
          ring

end

/-- A position inside a tile. -/
theorem tile_position (tile : Int) {size offset : Int} (low : 0 ≤ offset) (high : offset < size) :
    (tile * size + offset) / size = tile ∧ (tile * size + offset) % size = offset := by
  have positive : size ≠ 0 := by omega
  constructor
  · rw [Int.add_comm, Int.add_mul_ediv_right _ _ positive, Int.ediv_eq_zero_of_lt low high,
      Int.zero_add]
  · rw [Int.add_comm, Int.add_mul_emod_self_right, Int.emod_eq_of_lt low high]

/-- The buffer holds the cells of the tiled line in order. -/
theorem copyTiles_spec {memory : Int → α} {size stride : Int} {length : Nat}
    {pointer : Int → Int → Int}
    (linear : ∀ tile offset, pointer tile offset = pointer tile 0 + stride * offset)
    {rounds : Nat} {tile offset : Int} {index : Nat} {buffer : Nat → α} (low : 0 ≤ offset)
    (high : offset < size) (bound : index ≤ length) (enough : length - index ≤ rounds) {i : Nat}
    (inside : i < length) :
    copyTiles memory size stride length pointer rounds tile offset index buffer i =
      if i < index then buffer i
      else memory (pointer ((tile * size + (offset + (i - index))) / size)
        ((tile * size + (offset + (i - index))) % size)) := by
  induction rounds generalizing tile offset index buffer with
  | zero => rw [copyTiles, if_pos (by omega)]
  | succ rounds ih =>
      rw [copyTiles]
      by_cases room : index < length
      · have next : (copyTile memory stride length (size - offset).toNat (pointer tile offset)
            index buffer).1 = min (index + (size - offset).toNat) length := copyTile_index bound
        rw [if_pos room, next, ih (by omega) (by omega) (by omega) (by omega)]
        by_cases before : i < index
        · rw [if_pos (by omega), if_pos before, copyTile_before before]
        · rw [if_neg before]
          by_cases same : i < index + (size - offset).toNat
          · -- The cell lies in the tile of this round.
            have place := tile_position tile
              (show 0 ≤ offset + ((i : Int) - index) by omega)
              (show offset + ((i : Int) - index) < size by omega)
            rw [if_pos (by omega), copyTile_inside (by omega) same inside, place.1, place.2,
              linear tile offset, linear tile (offset + _)]
            congr 1
            ring
          · rw [if_neg (by omega)]
            have shifted : (tile + 1) * size +
                (0 + ((i : Int) - (min (index + (size - offset).toNat) length : Nat))) =
                  tile * size + (offset + (i - index)) := by
              have reached : ((min (index + (size - offset).toNat) length : Nat) : Int) =
                  index + (size - offset) := by omega
              rw [reached]
              ring
            rw [shifted]
      · rw [if_neg room, if_pos (by omega)]

/-! ## Storing a line -/

/-- Store `values index, values (index + 1), …` at the addresses of a moving cursor. -/
def storeWalk (next : Cursor → Cursor) (address : Cursor → Int) (values : Nat → α) :
    Nat → Nat → Cursor → (Int → α) → Int → α
  | 0, _, _, memory => memory
  | count + 1, index, cursor, memory =>
      storeWalk next address values count (index + 1) (next cursor)
        (Function.update memory (address cursor) (values index))

section

variable {next : Cursor → Cursor} {address : Cursor → Int} {values : Nat → α}
variable {count index : Nat} {cursor : Cursor} {memory : Int → α}

theorem storeWalk_outside {place : Int}
    (outside : ∀ i < count, address (next^[i] cursor) ≠ place) :
    storeWalk next address values count index cursor memory place = memory place := by
  induction count generalizing index cursor memory with
  | zero => rfl
  | succ count ih =>
      rw [storeWalk, ih]
      · exact Function.update_of_ne (outside 0 (Nat.succ_pos count)).symm ..
      · intro i bound
        exact outside (i + 1) (Nat.succ_lt_succ bound)

/-- If the cursor comes to no address twice, each one keeps what was stored there. -/
theorem storeWalk_inside
    (injective : ∀ i < count, ∀ j < count,
      address (next^[i] cursor) = address (next^[j] cursor) → i = j)
    {i : Nat} (bound : i < count) :
    storeWalk next address values count index cursor memory (address (next^[i] cursor)) =
      values (index + i) := by
  induction count generalizing index cursor memory i with
  | zero => omega
  | succ count ih =>
      rw [storeWalk]
      cases i with
      | zero =>
          rw [storeWalk_outside]
          · exact Function.update_self ..
          · intro j later same
            have equal := injective (j + 1) (Nat.succ_lt_succ later) 0 bound same
            omega
      | succ i =>
          rw [Function.iterate_succ_apply, ih _ (by omega)]
          · congr 1
            omega
          · intro j low k low' same
            have equal := injective (j + 1) (by omega) (k + 1) (by omega) same
            omega

end

end Ece391.Library
