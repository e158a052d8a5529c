import Mathlib.Data.List.Basic

/-!
# Lines in a stream of symbols

A line is a body without separators followed by one separator.  A stream is a list of
complete lines and an open rest without separators; the lemmas say how such a stream
reads back: its first line is determined, and it is a single line only if it was built as
one.
-/

namespace Ece391.Library

universe u

variable {Symbol : Type u} {separator : Symbol}

/-- A body followed by the only separator. -/
def IsLine (separator : Symbol) (line : List Symbol) : Prop :=
  ∃ body, separator ∉ body ∧ line = body ++ [separator]

namespace IsLine

variable {line other rest tail : List Symbol}

theorem mem (whole : IsLine separator line) : separator ∈ line := by
  obtain ⟨body, -, rfl⟩ := whole
  simp

theorem ne_nil (whole : IsLine separator line) : line ≠ [] :=
  List.ne_nil_of_mem whole.mem

theorem getLast? (whole : IsLine separator line) : line.getLast? = some separator := by
  obtain ⟨body, -, rfl⟩ := whole
  simp

/-- A line at the front of a stream is determined by the stream. -/
theorem unique (left : IsLine separator line) (right : IsLine separator other)
    (same : line ++ rest = other ++ tail) : line = other ∧ rest = tail := by
  obtain ⟨body, absent, rfl⟩ := left
  obtain ⟨body', absent', rfl⟩ := right
  induction body generalizing body' with
  | nil =>
      cases body' with
      | nil => simpa using same
      | cons symbol body' =>
          simp only [List.nil_append, List.cons_append, List.cons.injEq] at same
          exact absurd (by simp [same.1]) absent'
  | cons symbol body ih =>
      cases body' with
      | nil =>
          simp only [List.nil_append, List.cons_append, List.cons.injEq] at same
          exact absurd (by simp [same.1]) absent
      | cons symbol' body' =>
          simp only [List.cons_append, List.cons.injEq] at same
          have tails := ih (fun member => absent (List.mem_cons_of_mem _ member)) body'
            (fun member => absent' (List.mem_cons_of_mem _ member)) same.2
          exact ⟨by simp [same.1, tails.1], tails.2⟩

end IsLine

section

variable {lines : List (List Symbol)} {rest : List Symbol}

theorem flatten_lines_eq_nil (each : ∀ line ∈ lines, IsLine separator line)
    (empty : lines.flatten = []) : lines = [] := by
  cases lines with
  | nil => rfl
  | cons line lines =>
      have first := (List.append_eq_nil_iff.mp empty).1
      exact absurd first (each line List.mem_cons_self).ne_nil

/-- Complete lines end with a separator. -/
theorem flatten_lines_getLast? (each : ∀ line ∈ lines, IsLine separator line)
    (nonempty : lines ≠ []) : lines.flatten.getLast? = some separator := by
  induction lines with
  | nil => exact absurd rfl nonempty
  | cons line lines ih =>
      cases lines with
      | nil => simpa using (each line List.mem_cons_self).getLast?
      | cons next lines =>
          have others := ih (fun other member => each other (List.mem_cons_of_mem _ member))
            (List.cons_ne_nil _ _)
          rw [List.flatten_cons, List.getLast?_append, others]
          rfl

/-- A stream is one line exactly when it consists of one line. -/
theorem isLine_stream_iff (each : ∀ line ∈ lines, IsLine separator line)
    (noSeparator : separator ∉ rest) :
    IsLine separator (lines.flatten ++ rest) ↔ ∃ line, lines = [line] ∧ rest = [] := by
  constructor
  · intro whole
    cases lines with
    | nil => exact absurd whole.mem noSeparator
    | cons line lines =>
        have first := each line List.mem_cons_self
        have split : line ++ (lines.flatten ++ rest) = ((line :: lines).flatten ++ rest) ++ [] := by
          simp
        have tail := List.append_eq_nil_iff.mp (first.unique whole split).2
        have none := flatten_lines_eq_nil
          (fun other member => each other (List.mem_cons_of_mem _ member)) tail.1
        exact ⟨line, by rw [none], tail.2⟩
  · rintro ⟨line, rfl, rfl⟩
    simpa using each line List.mem_cons_self

/-- Dropping the last symbol of a stream drops one of its open rest, unless the stream ends
with a separator. -/
theorem dropLast_stream_iff (each : ∀ line ∈ lines, IsLine separator line)
    (noSeparator : separator ∉ rest) :
    (lines.flatten ++ rest).dropLast = lines.flatten ++ rest.dropLast ↔
      (lines.flatten ++ rest).getLast? ≠ some separator := by
  by_cases empty : rest = []
  · subst empty
    by_cases none : lines = []
    · simp [none]
    · rw [List.append_nil, flatten_lines_getLast? each none]
      refine iff_of_false ?_ (fun different => different rfl)
      intro same
      have lengths := congrArg List.length same
      have positive : lines.flatten ≠ [] := fun flat => none (flatten_lines_eq_nil each flat)
      have long := List.length_pos_iff.mpr positive
      rw [List.dropLast_nil, List.append_nil, List.length_dropLast] at lengths
      omega
  · rw [List.dropLast_append_of_ne_nil empty, List.getLast?_append]
    refine iff_of_true rfl ?_
    rw [List.getLast?_eq_some_getLast empty]
    intro same
    have last : rest.getLast empty = separator := Option.some.inj same
    exact noSeparator (last ▸ List.getLast_mem empty)

end

end Ece391.Library
