import Mathlib.Data.List.DropRight
import Mathlib.Data.List.Infix
import Mathlib.Data.List.TakeWhile

/-!
# Words of a text

A text with separators is a first word, a run of separators and a remainder, which may hold
further words.  Its last word is what follows the last separator.  The remainder is the last
word exactly when there is no separator in it.
-/

namespace Ece391.Library

universe u

variable {α : Type u} [DecidableEq α]

/-- The symbols before the first separator. -/
def firstWord (sep : α) (text : List α) : List α :=
  text.takeWhile (· ≠ sep)

/-- What follows the first run of separators. -/
def remainder (sep : α) (text : List α) : List α :=
  (text.dropWhile (· ≠ sep)).dropWhile (· = sep)

/-- What follows the last separator. -/
def lastWord (sep : α) (text : List α) : List α :=
  text.rtakeWhile (· ≠ sep)

variable {sep : α} {text before last : List α} {width : Nat}

theorem sep_notMem_firstWord : sep ∉ firstWord sep text := by
  intro member
  have other := List.mem_takeWhile_imp member
  simp at other

theorem sep_notMem_lastWord : sep ∉ lastWord sep text := by
  intro member
  have other := List.mem_rtakeWhile_imp member
  simp at other

/-- A text is its first word, or goes on with a separator. -/
theorem firstWord_ends (sep : α) (text : List α) :
    text = firstWord sep text ∨ ∃ rest, text = firstWord sep text ++ sep :: rest := by
  have split : firstWord sep text ++ text.dropWhile (· ≠ sep) = text :=
    List.takeWhile_append_dropWhile
  cases behind : text.dropWhile (· ≠ sep) with
  | nil =>
      rw [behind, List.append_nil] at split
      exact .inl split.symm
  | cons head rest =>
      have stopped := List.head?_dropWhile_not (· ≠ sep) text
      rw [behind] at stopped split
      obtain rfl : head = sep := by simpa using stopped
      exact .inr ⟨rest, split.symm⟩

theorem remainder_eq_nil (none : sep ∉ text) : remainder sep text = [] := by
  have all : text.dropWhile (· ≠ sep) = [] := by
    rw [List.dropWhile_eq_nil_iff]
    intro symbol member
    have other : symbol ≠ sep := fun same => none (same ▸ member)
    simpa using other
  rw [remainder, all, List.dropWhile_nil]

/-- The last word is read off a text split at a separator. -/
theorem lastWord_append (none : sep ∉ last) : lastWord sep (before ++ sep :: last) = last := by
  have ordinary : ∀ symbol ∈ last.reverse, decide (symbol ≠ sep) = true := by
    intro symbol member
    have other : symbol ≠ sep := fun same => none (same ▸ List.mem_reverse.mp member)
    simpa using other
  rw [lastWord, List.rtakeWhile, List.reverse_append, List.reverse_cons, List.append_assoc,
    List.takeWhile_append_of_pos ordinary]
  simp

/-- The last word behind a first one and a run of separators. -/
theorem lastWord_of_words {gap : Nat} (none : sep ∉ last) :
    lastWord sep (before ++ List.replicate (gap + 1) sep ++ last) = last := by
  have split : before ++ List.replicate (gap + 1) sep ++ last =
      (before ++ List.replicate gap sep) ++ sep :: last := by
    rw [List.replicate_succ']
    simp
  rw [split, lastWord_append none]

/-- A text with a separator is split at the last one. -/
theorem lastWord_split (member : sep ∈ text) :
    ∃ before, text = before ++ sep :: lastWord sep text := by
  obtain ⟨first, rest, reversed⟩ : ∃ first rest,
      text.reverse = first ++ sep :: rest ∧ sep ∉ first := by
    obtain ⟨first, rest, split, none⟩ := List.eq_append_cons_of_mem (List.mem_reverse.mpr member)
    exact ⟨first, rest, split, none⟩
  have split : text = rest.reverse ++ sep :: first.reverse := by
    rw [← List.reverse_reverse text, reversed.1]
    simp
  have word : lastWord sep text = first.reverse := by
    rw [split]
    exact lastWord_append fun inside => reversed.2 (List.mem_reverse.mp inside)
  exact ⟨rest.reverse, word ▸ split⟩

theorem firstWord_isPrefix : firstWord sep text <+: text :=
  List.takeWhile_prefix _

/-- The first word ends with the text, or at a separator. -/
theorem getElem?_length_firstWord (inside : (firstWord sep text).length < text.length) :
    text[(firstWord sep text).length]? = some sep := by
  rcases firstWord_ends sep text with whole | ⟨rest, split⟩
  · rw [← whole] at inside
    exact absurd inside (Nat.lt_irrefl _)
  · calc text[(firstWord sep text).length]?
        = (firstWord sep text ++ sep :: rest)[(firstWord sep text).length]? := by rw [← split]
      _ = some sep := by simp

theorem lastWord_suffix : lastWord sep text <:+ text :=
  List.rtakeWhile_suffix _ text

theorem getElem?_lastWord (index : Nat) :
    (lastWord sep text)[index]? = text[text.length - (lastWord sep text).length + index]? := by
  conv_lhs => rw [List.suffix_iff_eq_drop.mp lastWord_suffix]
  rw [List.getElem?_drop]

/-- The last word follows a separator. -/
theorem getElem?_before_lastWord (member : sep ∈ text) :
    ∃ index, text.length = index + 1 + (lastWord sep text).length ∧ text[index]? = some sep := by
  obtain ⟨before, split⟩ := lastWord_split member
  refine ⟨before.length, ?_, ?_⟩
  · have total := congrArg List.length split
    simp only [List.length_append, List.length_cons] at total
    omega
  · rw [split]
    simp

theorem remainder_suffix : remainder sep text <:+ text :=
  (List.dropWhile_suffix _).trans (List.dropWhile_suffix _)

/-- The remainder follows a run of separators. -/
theorem remainder_split (member : sep ∈ text) :
    ∃ before, text = before ++ sep :: remainder sep text := by
  rcases firstWord_ends sep text with whole | ⟨rest, split⟩
  · rw [whole] at member
    exact absurd member sep_notMem_firstWord
  have behind : text.dropWhile (· ≠ sep) = sep :: rest := by
    have parts : firstWord sep text ++ text.dropWhile (· ≠ sep) = text :=
      List.takeWhile_append_dropWhile
    exact List.append_cancel_left (parts.trans split)
  have skipped : remainder sep text = rest.dropWhile (· = sep) := by
    rw [remainder, behind, List.dropWhile_cons_of_pos (by simp)]
  have run : rest.takeWhile (· = sep) =
      List.replicate (rest.takeWhile (· = sep)).length sep :=
    List.eq_replicate_of_mem fun symbol inside => by
      simpa using List.mem_takeWhile_imp inside
  refine ⟨firstWord sep text ++ List.replicate (rest.takeWhile (· = sep)).length sep, ?_⟩
  calc text = firstWord sep text ++
          sep :: (rest.takeWhile (· = sep) ++ rest.dropWhile (· = sep)) := by
        rw [List.takeWhile_append_dropWhile]
        exact split
    _ = firstWord sep text ++ (List.replicate ((rest.takeWhile (· = sep)).length + 1) sep ++
          remainder sep text) := by
        rw [skipped, List.replicate_succ, ← run, List.cons_append]
    _ = _ := by
        rw [List.replicate_succ']
        simp

/-- Without a separator in it, the remainder is the last word. -/
theorem lastWord_eq_remainder (member : sep ∈ text) (none : sep ∉ remainder sep text) :
    lastWord sep text = remainder sep text := by
  obtain ⟨before, split⟩ := remainder_split member
  calc lastWord sep text = lastWord sep (before ++ sep :: remainder sep text) := by rw [← split]
    _ = remainder sep text := lastWord_append none

/-- Cut at a width, the last word and the remainder agree exactly when the remainder is one
word, or is longer and so begins like the last word. -/
theorem take_lastWord_iff (member : sep ∈ text) :
    (lastWord sep text).take width = (remainder sep text).take width ↔
      sep ∉ remainder sep text ∨
        width < (remainder sep text).length ∧
          (remainder sep text).take width <+: lastWord sep text := by
  constructor
  · intro same
    by_cases more : sep ∈ remainder sep text
    · right
      constructor
      · by_contra short
        rw [List.take_of_length_le (Nat.not_lt.mp short)] at same
        rw [← same] at more
        exact sep_notMem_lastWord (List.mem_of_mem_take more)
      · rw [← same]
        exact List.take_prefix width _
    · exact .inl more
  · rintro (none | ⟨long, begins⟩)
    · rw [lastWord_eq_remainder member none]
    · have cut := List.prefix_iff_eq_take.mp begins
      rw [List.length_take, Nat.min_eq_left (Nat.le_of_lt long)] at cut
      exact cut.symm

end Ece391.Library
