import Ece391.Library.Cursor

/-!
# Lines of a bounded width

A program that reads a text through a buffer of fixed width sees its lines, and a line that does
not fit in the buffer in pieces.  Empty pieces do not count.
-/

namespace Ece391.Library

universe u

variable {α : Type u} [BEq α] [LawfulBEq α]

/-- The lines of a text, cut at the width. -/
def segments (stop : α) (width : Nat) (text : List α) : List (List α) :=
  (text.splitOn stop).flatMap (pieces width)

variable {stop : α} {width : Nat} {line rest : List α}

/-- A text is one line, or a line that a stop ends and a further text. -/
theorem splitOn_cases (stop : α) (text : List α) :
    (stop ∉ text ∧ text.splitOn stop = [text]) ∨
      ∃ line rest, text = line ++ stop :: rest ∧ stop ∉ line ∧
        text.splitOn stop = line :: rest.splitOn stop := by
  by_cases member : stop ∈ text
  · obtain ⟨line, rest, rfl, first⟩ := List.eq_append_cons_of_mem member
    exact .inr ⟨line, rest, rfl, first, List.splitOn_append_cons_self_of_not_mem first rest⟩
  · exact .inl ⟨member, List.splitOn_eq_singleton member⟩

/-- No line holds a stop. -/
theorem notMem_of_mem_splitOn (stop : α) (text : List α) :
    ∀ line ∈ text.splitOn stop, stop ∉ line := by
  induction length : text.length using Nat.strong_induction_on generalizing text with
  | _ _ ih =>
      rcases splitOn_cases stop text with ⟨last, whole⟩ | ⟨line, rest, rfl, ordinary, whole⟩
      · simpa [whole] using last
      · rw [whole]
        refine List.forall_mem_cons.mpr ⟨ordinary, ih rest.length ?_ rest rfl⟩
        simp only [List.length_append, List.length_cons] at length
        omega

omit [LawfulBEq α] in
/-- A text has at most one line more than it has elements. -/
theorem length_splitOn_le (stop : α) (text : List α) :
    (text.splitOn stop).length ≤ text.length + 1 := by
  induction text with
  | nil => simp
  | cons symbol rest ih =>
      rw [List.splitOn_cons_eq_if_modifyHead]
      split
      · simpa using ih
      · rw [List.length_modifyHead, List.length_cons]
        omega

omit [BEq α] [LawfulBEq α] in
/-- A line that fits is one piece, or none. -/
theorem pieces_of_length_le (fits : line.length ≤ width) (some : line ≠ []) :
    pieces width line = [line] := by
  have positive := List.length_pos_iff.mpr some
  rw [pieces_of_ne_nil (by omega) some, List.take_of_length_le fits,
    List.drop_eq_nil_of_le fits, pieces_nil]

/-- A line that a stop ends is cut by itself. -/
theorem segments_line (ordinary : stop ∉ line) (rest : List α) :
    segments stop width (line ++ stop :: rest) = pieces width line ++ segments stop width rest := by
  rw [segments, List.splitOn_append_cons_self_of_not_mem ordinary, List.flatMap_cons]
  rfl

/-- So is the last one. -/
theorem segments_last (ordinary : stop ∉ line) : segments stop width line = pieces width line := by
  rw [segments, List.splitOn_eq_singleton ordinary, List.flatMap_singleton]

/-- The start of a line that fills the width is a piece, whatever follows. -/
theorem segments_full (ordinary : stop ∉ line) (full : line.length = width) (positive : 0 < width)
    (rest : List α) : segments stop width (line ++ rest) = line :: segments stop width rest := by
  have some : line ≠ [] := List.length_pos_iff.mp (full ▸ positive)
  have cut (more : List α) : pieces width (line ++ more) = line :: pieces width more := by
    rw [pieces_of_ne_nil positive (by simp [some]), List.take_append_of_le_length (by omega),
      List.take_of_length_le (by omega), List.drop_append_of_le_length (by omega),
      List.drop_eq_nil_of_le (by omega), List.nil_append]
  by_cases member : stop ∈ rest
  · obtain ⟨before, after, rfl, first⟩ := List.eq_append_cons_of_mem member
    have whole : stop ∉ line ++ before := by simp [ordinary, first]
    rw [← List.append_assoc, segments_line whole, segments_line first, cut, List.cons_append]
  · have whole : stop ∉ line ++ rest := by simp [ordinary, member]
    rw [segments_last whole, segments_last member, cut]

end Ece391.Library
