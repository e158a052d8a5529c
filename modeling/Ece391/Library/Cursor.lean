import Mathlib.Data.List.Basic
import Mathlib.Data.List.Infix

/-!
# Sequential readers over a fixed content

A sequential reader answers a request for `size` elements with the next elements
of a fixed content, fewer at the end, and advances by what it delivered.  However
the requests are sized, the answers put together are a prefix of the content, and
the first empty answer comes exactly when the content is exhausted.
-/

namespace Ece391.Library

universe u

variable {α : Type u}

/-- What a sequential reader at `position` delivers for a request of `size`. -/
def serve (content : List α) (position size : Nat) : List α :=
  (content.drop position).take size

@[simp] theorem length_serve (content : List α) (position size : Nat) :
    (serve content position size).length = min size (content.length - position) := by
  simp [serve]

theorem serve_of_length_le {content : List α} {position : Nat}
    (ended : content.length ≤ position) (size : Nat) : serve content position size = [] := by
  simp [serve, List.drop_eq_nil_of_le ended]

/-- The delivered prefix grows by exactly the answer. -/
theorem take_append_serve (content : List α) (position size : Nat) :
    content.take position ++ serve content position size =
      content.take (position + size) :=
  List.take_add.symm

/-- What is left behind an answer is what is left behind its size. -/
theorem drop_add_length_serve (content : List α) (position size : Nat) :
    content.drop (position + (serve content position size).length) =
      (content.drop position).drop size := by
  rw [List.drop_drop]
  rcases Nat.le_total (position + size) content.length with inside | beyond
  · congr 1
    simp only [length_serve]
    omega
  · rw [List.drop_eq_nil_of_le beyond, List.drop_eq_nil_of_le]
    simp only [length_serve]
    omega

/-- An answer and what is left behind it make up what was left before it. -/
theorem serve_append_drop (content : List α) (position size : Nat) :
    serve content position size ++
      content.drop (position + (serve content position size).length) = content.drop position := by
  rw [drop_add_length_serve, serve, List.take_append_drop]

/-- The answers of a sequential reader from one position to another, each
recorded with the size that was requested. -/
inductive Served (content : List α) : Nat → List (Nat × List α) → Nat → Prop where
  | nil (position : Nat) : Served content position [] position
  | cons {position last size : Nat} {log : List (Nat × List α)} :
      Served content (position + (serve content position size).length) log last →
      Served content position ((size, serve content position size) :: log) last

namespace Served

variable {content : List α} {first middle last size : Nat}
variable {log before after : List (Nat × List α)}

theorem snoc (served : Served content first log middle) (size : Nat) :
    Served content first (log ++ [(size, serve content middle size)])
      (middle + (serve content middle size).length) := by
  induction served with
  | nil position => exact .cons (.nil _)
  | cons _ ih => exact .cons ih

theorem split (served : Served content first (before ++ after) last) :
    ∃ middle, Served content first before middle ∧ Served content middle after last := by
  induction before generalizing first with
  | nil => exact ⟨first, .nil first, served⟩
  | cons answer before ih =>
      cases served with
      | cons rest =>
          obtain ⟨middle, left, right⟩ := ih rest
          exact ⟨middle, .cons left, right⟩

/-- Everything delivered so far is the content up to the current position. -/
theorem take_append (served : Served content first log last) :
    content.take first ++ log.flatMap Prod.snd = content.take last := by
  induction served with
  | nil position => simp
  | @cons position last size log _ ih =>
      rw [List.flatMap_cons, ← List.append_assoc, take_append_serve, ← ih]
      congr 1
      rcases Nat.le_total (position + size) content.length with inside | beyond
      · congr 1
        simp only [length_serve]
        omega
      · rw [List.take_of_length_le beyond, List.take_of_length_le]
        simp only [length_serve]
        omega

/-- Answers from the start are a prefix of the content: nothing is skipped or
repeated. -/
theorem flatMap_prefix (served : Served content 0 log last) :
    log.flatMap Prod.snd <+: content := by
  have delivered := served.take_append
  rw [List.take_zero, List.nil_append] at delivered
  rw [delivered]
  exact List.take_prefix last content

theorem length_le (served : Served content first log last) :
    ∀ answer ∈ log, answer.2.length ≤ answer.1 := by
  induction served with
  | nil position => simp
  | cons _ ih =>
      intro answer membership
      rcases List.mem_cons.mp membership with rfl | later
      · simp only [length_serve]
        omega
      · exact ih answer later

theorem position_le (served : Served content first log last)
    (inside : first ≤ content.length) : last ≤ content.length := by
  induction served with
  | nil position => exact inside
  | cons _ ih =>
      apply ih
      simp only [length_serve]
      omega

/-- Once the content is exhausted every answer is empty. -/
theorem nil_of_ended (served : Served content first log last)
    (ended : content.length ≤ first) : ∀ answer ∈ log, answer.2 = [] := by
  induction served with
  | nil position => simp
  | cons _ ih =>
      intro answer membership
      rcases List.mem_cons.mp membership with rfl | later
      · exact serve_of_length_le ended _
      · exact ih (Nat.le_add_right_of_le ended) answer later

/-- The first empty answer to a positive request marks the end of the content. -/
theorem ended_of_nil (served : Served content 0 (before ++ (size, []) :: after) last)
    (positive : 0 < size) :
    before.flatMap Prod.snd = content ∧ ∀ answer ∈ after, answer.2 = [] := by
  obtain ⟨middle, left, right⟩ := served.split
  generalize answered : (size, ([] : List α)) = answer at right
  cases right with
  | cons rest =>
      obtain ⟨rfl, empty⟩ := Prod.mk.inj answered
      have ended : content.length ≤ middle := by
        have lengths := congrArg List.length empty
        simp only [List.length_nil, length_serve] at lengths
        omega
      constructor
      · have delivered := left.take_append
        rw [List.take_of_length_le ended] at delivered
        simpa using delivered
      · exact rest.nil_of_ended (Nat.le_add_right_of_le ended)

end Served

/-! ## Answers of one size -/

/-- The answers to one size again and again, up to the first empty one. -/
def pieces (size : Nat) (content : List α) : List (List α) :=
  if size = 0 ∨ content = [] then [] else content.take size :: pieces size (content.drop size)
termination_by content.length
decreasing_by
  next some =>
    have positive := List.length_pos_iff.mpr fun none => some (.inr none)
    simp only [List.length_drop]
    omega

section

variable {content : List α} {size : Nat}

@[simp] theorem pieces_nil (size : Nat) : pieces size ([] : List α) = [] := by
  rw [pieces, if_pos (.inr rfl)]

theorem pieces_of_ne_nil (positive : 0 < size) (some : content ≠ []) :
    pieces size content = content.take size :: pieces size (content.drop size) := by
  rw [pieces, if_neg (not_or.mpr ⟨Nat.ne_of_gt positive, some⟩)]

/-- Answers that print what they hold print the content, but for what the last one adds. -/
theorem flatMap_pieces {print : List α → List α} (positive : 0 < size)
    (whole : ∀ piece, piece ⊆ content → piece.length = size → print piece = piece)
    (last : List α) (short : ∀ piece, piece ⊆ content → piece ≠ [] →
      piece.length = content.length % size → print piece = piece ++ last)
    (even : content.length % size = 0 → last = []) :
    (pieces size content).flatMap print = content ++ last := by
  fun_induction pieces size content with
  | case1 content ended =>
      have none : content = [] := ended.resolve_left (Nat.ne_of_gt positive)
      subst none
      rw [even (Nat.zero_mod size)]
      rfl
  | case2 content going ih =>
      have some : content ≠ [] := fun none => going (.inr none)
      rw [List.flatMap_cons]
      rcases Nat.lt_or_ge content.length size with small | large
      · -- The rest is shorter than one answer.
        rw [List.take_of_length_le (Nat.le_of_lt small), List.drop_eq_nil_of_le
          (Nat.le_of_lt small), pieces_nil, List.flatMap_nil, List.append_nil]
        exact short content (List.Subset.refl _) some (Nat.mod_eq_of_lt small).symm
      · have remainder : (content.drop size).length % size = content.length % size := by
          rw [List.length_drop, ← Nat.mod_eq_sub_mod large]
        have rest : (pieces size (content.drop size)).flatMap print =
            content.drop size ++ last := by
          refine ih
            (fun piece inside => whole piece (List.Subset.trans inside (List.drop_subset ..)))
            (fun piece inside some length => ?_) (fun even' => even (remainder ▸ even'))
          exact short piece (List.Subset.trans inside (List.drop_subset ..)) some
            (remainder ▸ length)
        rw [rest, whole _ (List.take_subset ..) (by rw [List.length_take]; omega),
          ← List.append_assoc, List.take_append_drop]

end

end Ece391.Library
