import Ece391.Kernel.PrintedText

/-!
# The line shown by Ctrl-L

Ctrl-L clears the screen, passes the bytes of the line to `putc`, and one byte more, and
places the cursor by a computation of its own.  The byte behind the line is stale, `putc`
drops the 80th character, and for a line of 80 characters the cursor is put behind the end
of the first row.
-/

namespace Ece391.Kernel

open Ece391.Library

/-- The character a cell is seen as: a NUL looks like a space. -/
def glyph (char : UInt8) : UInt8 :=
  if char = 0 then 0x20 else char

/-- A newline or a carriage return. -/
def Newline (char : UInt8) : Prop :=
  char = 10 ∨ char = 13

instance : DecidablePred Newline :=
  fun char => inferInstanceAs (Decidable (char = 10 ∨ char = 13))

namespace Console

/-- The characters of the line. -/
def typedLine (console : Console) : List UInt8 :=
  (List.range console.keyboard.numCharsTyped).map console.keyboard.keyboardBuffer

/-- A cleared screen with the cursor at its top. -/
def cleared (console : Console) : Console :=
  console.clear.setCursor 0 0

end Console

/-- The screen shows exactly the line of a console, from the top-left corner, and the
cursor is on the cell after it; both are as if the line had been typed on a cleared
screen. -/
structure LineShown (before after : Console) : Prop where
  characters : ∀ k < before.keyboard.numCharsTyped,
    glyph (cell after.memory k).1 = glyph (before.keyboard.keyboardBuffer k)
  blanks : ∀ k < 2000, before.keyboard.numCharsTyped ≤ k →
    glyph (cell after.memory k).1 = 0x20
  column : after.screenX = (before.keyboard.numCharsTyped % 80 : Nat)
  row : after.screenY = (before.keyboard.numCharsTyped / 80 : Nat)
  typed : ∀ k < 2000, glyph (cell after.memory k).1 =
    glyph (cell (before.cleared.puts before.typedLine).memory k).1
  typedColumn : after.screenX = (before.cleared.puts before.typedLine).screenX
  typedRow : after.screenY = (before.cleared.puts before.typedLine).screenY

/-- The line does not end at the edge, a line beyond the edge has a blank there, and the
byte behind the line is not seen: it is blank or a newline, or falls on the edge. -/
structure RedrawClean (console : Console) : Prop where
  ends : console.keyboard.numCharsTyped ≠ 80
  edge : 80 < console.keyboard.numCharsTyped →
    glyph (console.keyboard.keyboardBuffer 79) = 0x20
  stale : console.keyboard.numCharsTyped = 79 ∨
    Newline (console.keyboard.keyboardBuffer console.keyboard.numCharsTyped) ∨
    glyph (console.keyboard.keyboardBuffer console.keyboard.numCharsTyped) = 0x20

/-! ## A text on a cleared screen -/

section

variable {console : Console} {text : List UInt8}

/-- A cleared screen is a blank roll. -/
theorem onPaper_cleared (console : Console) :
    OnPaper console.cleared ⟨fun _ => blank, 0⟩ where
  column := rfl
  row := rfl
  shows _ inside := (cell_clear console).trans (if_pos inside)
  below _ _ := rfl

/-- The places of a text that fits on the screen are not scrolled. -/
theorem scrolledRows_short {place : Nat} (short : place ≤ 128) : scrolledRows place = 0 := by
  rw [scrolledRows_eq]
  omega

/-- After a short text the cursor is behind it, and every character but the 80th is
shown. -/
theorem puts_cleared (short : text.length ≤ 128) (shown : ∀ c ∈ text, ¬ Newline c) :
    ((console.cleared.puts text).screenX = (text.length % 80 : Nat) ∧
      (console.cleared.puts text).screenY = (text.length / 80 : Nat)) ∧
    ∀ k < 2000, cell (console.cleared.puts text).memory k =
      if k = 79 then blank else (text[k]?.map fun c => (c, 7)).getD blank := by
  have paper := (onPaper_cleared console).puts shown
  have fixed : ∀ value ∈ text.map fun c => (c, (7 : UInt8)), recolor value = value := by
    intro value listed
    obtain ⟨c, -, rfl⟩ := List.mem_map.mp listed
    rfl
  obtain ⟨place, content⟩ := @PaperRoll.print_foldl _ 80 25 recolor LastColumn _
    (fun _ => rfl) ⟨fun _ => blank, 0⟩ (text.map fun c => (c, 7)) fixed
  rw [List.length_map, Nat.zero_add] at place
  have still := scrolledRows_short short
  refine ⟨⟨?_, ?_⟩, ?_⟩
  · rw [paper.column, place]
  · rw [paper.row, place, still, Nat.sub_zero]
  · intro k inside
    have same : PaperRoll.rowsAbove 80 25 (0 + (text.map fun c => (c, (7 : UInt8))).length) =
        PaperRoll.rowsAbove 80 25 0 := by
      rw [List.length_map, Nat.zero_add]
      exact still
    rw [paper.shows k inside, place, still, Nat.mul_zero, Nat.zero_add, content,
      PaperRoll.shown, if_pos same, PaperRoll.printed]
    simp only [Nat.zero_le, true_and, Nat.sub_zero, List.getElem?_map]
    by_cases edge : k = 79
    · subst edge
      rfl
    · rw [if_neg edge]
      by_cases last : LastColumn k
      · -- The other last columns lie behind the text.
        have beyond : text.length ≤ k := by
          rw [LastColumn] at last
          omega
        rw [if_neg (fun kept => kept last), List.getElem?_eq_none beyond]
        rfl
      · rw [if_pos last]

/-- A newline above the last row moves the cursor and stores nothing. -/
theorem putc_newline {c : UInt8} (newline : Newline c) (above : console.screenY ≠ 24) :
    (console.putc c).memory = console.memory := by
  rw [Console.putc, if_neg (fun corner => above corner.2), if_neg (fun last => above last.1)]
  split
  · rfl
  · rw [if_pos (show c = 10 ∨ c = 13 from newline)]
    rfl

/-! ## The line -/

theorem typedLine_length (console : Console) :
    console.typedLine.length = console.keyboard.numCharsTyped := by
  simp [Console.typedLine]

theorem typedLine_getElem (console : Console) (k : Nat) :
    console.typedLine[k]? =
      if k < console.keyboard.numCharsTyped then some (console.keyboard.keyboardBuffer k)
      else none := by
  rw [Console.typedLine, List.getElem?_map]
  split
  next inside => rw [List.getElem?_range inside]; rfl
  next outside => rw [List.getElem?_eq_none (by simpa using outside)]; rfl

/-- The output loop shows the bytes that were in the buffer before it. -/
theorem showLine_eq_puts (indices : List Nat) (console : Console) :
    console.showLine indices = console.puts (indices.map console.keyboard.keyboardBuffer) := by
  induction indices generalizing console with
  | nil => rfl
  | cons i indices ih =>
      have keyboard : (console.putc (console.keyboard.keyboardBuffer i)).keyboard =
          console.keyboard := by
        have rest := congrArg (fun console : Console => console.keyboard)
          (Console.putc_rest (console.keyboard.keyboardBuffer i) console)
        exact rest
      have shown := ih (console.putc (console.keyboard.keyboardBuffer i))
      rw [keyboard] at shown
      exact shown

/-- The screen that Ctrl-L leaves: the line, and the byte behind it. -/
theorem redraw_memory (console : Console) :
    console.redraw.memory =
      ((console.cleared.puts console.typedLine).putc
        (console.keyboard.keyboardBuffer console.keyboard.numCharsTyped)).memory := by
  have shown : console.cleared.showLine (List.range (console.keyboard.numCharsTyped + 1)) =
      (console.cleared.puts console.typedLine).putc
        (console.keyboard.keyboardBuffer console.keyboard.numCharsTyped) := by
    rw [showLine_eq_puts, List.range_succ, List.map_append, Console.puts, List.foldl_append]
    rfl
  rw [← shown, Console.redraw]
  split <;> rfl

theorem redraw_cursor (console : Console) :
    console.redraw.screenX = (if console.keyboard.numCharsTyped > 80 then
        (console.keyboard.numCharsTyped : Int) - 80 else console.keyboard.numCharsTyped) ∧
      console.redraw.screenY = if console.keyboard.numCharsTyped > 80 then 1 else 0 := by
  rw [Console.redraw]
  split <;> exact ⟨rfl, rfl⟩

/-- The line of a console is no more than 127 characters, none of them a newline. -/
structure ShortLine (console : Console) : Prop where
  length : console.keyboard.numCharsTyped ≤ 127
  line : ∀ i < console.keyboard.numCharsTyped, ¬ Newline (console.keyboard.keyboardBuffer i)

theorem ShortLine.shown (short : ShortLine console) : ∀ c ∈ console.typedLine, ¬ Newline c := by
  intro c listed
  obtain ⟨i, inside, rfl⟩ := List.mem_map.mp listed
  exact short.line i (List.mem_range.mp inside)

/-- The line typed on a cleared screen. -/
theorem ShortLine.typed (short : ShortLine console) :
    ((console.cleared.puts console.typedLine).screenX =
        (console.keyboard.numCharsTyped % 80 : Nat) ∧
      (console.cleared.puts console.typedLine).screenY =
        (console.keyboard.numCharsTyped / 80 : Nat)) ∧
    ∀ k < 2000, cell (console.cleared.puts console.typedLine).memory k =
      if k < console.keyboard.numCharsTyped ∧ k ≠ 79 then (console.keyboard.keyboardBuffer k, 7)
      else blank := by
  have length := short.length
  have typed := @puts_cleared console _ (by rw [typedLine_length]; omega) short.shown
  rw [typedLine_length] at typed
  refine ⟨typed.1, ?_⟩
  intro k inside
  rw [typed.2 k inside, typedLine_getElem]
  by_cases edge : k = 79
  · rw [if_pos edge, if_neg (fun kept => kept.2 edge)]
  · rw [if_neg edge]
    by_cases typed : k < console.keyboard.numCharsTyped
    · rw [if_pos typed, if_pos ⟨typed, edge⟩]
      rfl
    · rw [if_neg typed, if_neg (fun kept => typed kept.1)]
      rfl

/-- The screen after Ctrl-L. -/
theorem ShortLine.redraw_cell (short : ShortLine console) {k : Nat} (inside : k < 2000) :
    cell console.redraw.memory k =
      if k < console.keyboard.numCharsTyped ∧ k ≠ 79 then (console.keyboard.keyboardBuffer k, 7)
      else if k = console.keyboard.numCharsTyped ∧ k ≠ 79 ∧
          ¬ Newline (console.keyboard.keyboardBuffer k) then
        (console.keyboard.keyboardBuffer k, 7)
      else blank := by
  have length := short.length
  obtain ⟨⟨-, row⟩, typed⟩ := short.typed
  rw [redraw_memory]
  by_cases newline : Newline (console.keyboard.keyboardBuffer console.keyboard.numCharsTyped)
  · rw [putc_newline newline (by omega), typed k inside]
    split
    · rfl
    · rw [if_neg]
      rintro ⟨rfl, -, shown⟩
      exact shown newline
  · have shown : ∀ c ∈ console.typedLine ++
        [console.keyboard.keyboardBuffer console.keyboard.numCharsTyped], ¬ Newline c := by
      intro c listed
      cases List.mem_append.mp listed with
      | inl line => exact short.shown c line
      | inr last =>
          obtain rfl := List.mem_singleton.mp last
          exact newline
    have both := (@puts_cleared console _
      (by rw [List.length_append, typedLine_length, List.length_singleton]; omega) shown).2
      k inside
    rw [Console.puts, List.foldl_append] at both
    refine both.trans ?_
    by_cases edge : k = 79
    · rw [if_pos edge, if_neg (fun kept => kept.2 edge), if_neg (fun kept => kept.2.1 edge)]
    · rw [if_neg edge]
      rcases Nat.lt_trichotomy k console.keyboard.numCharsTyped with before | here | behind
      · rw [if_pos ⟨before, edge⟩, List.getElem?_append_left (by rwa [typedLine_length]),
          typedLine_getElem, if_pos before]
        rfl
      · rw [if_neg (by omega), List.getElem?_append_right (by rw [typedLine_length]; omega),
          typedLine_length, ← here, Nat.sub_self]
        rw [← here] at newline
        rw [if_pos ⟨rfl, edge, newline⟩]
        rfl
      · have gone : (console.typedLine ++
            [console.keyboard.keyboardBuffer console.keyboard.numCharsTyped])[k]? = none := by
          rw [List.getElem?_eq_none]
          rw [List.length_append, typedLine_length, List.length_singleton]
          omega
        rw [gone, if_neg (by omega), if_neg (by omega)]
        rfl

/-- Ctrl-L. -/
theorem keyboardHandler_ctrlL (ctrl : console.ctrlPressed = true) :
    console.keyboardHandler 0x26 = console.redraw :=
  if_pos ctrl

end

/-! ## Every line -/

section

variable {console : Console}

theorem glyph_blank : glyph blank.1 = 0x20 := by
  decide

/-- A line that is shown as it should be meets none of the three faults. -/
theorem LineShown.clean (short : ShortLine console) (shown : LineShown console console.redraw) :
    RedrawClean console := by
  have length := short.length
  constructor
  case ends =>
    intro full
    have placed := shown.column
    rw [(redraw_cursor console).1, full] at placed
    simp at placed
  case edge =>
    intro beyond
    have dropped := shown.characters 79 (by omega)
    rw [short.redraw_cell (by omega), if_neg (fun kept => kept.2 rfl),
      if_neg (fun kept => kept.2.1 rfl), glyph_blank] at dropped
    exact dropped.symm
  case stale =>
    by_cases edge : console.keyboard.numCharsTyped = 79
    · exact .inl edge
    · refine .inr ?_
      by_cases newline : Newline (console.keyboard.keyboardBuffer console.keyboard.numCharsTyped)
      · exact .inl newline
      · have behind := shown.blanks console.keyboard.numCharsTyped (by omega) (Nat.le_refl _)
        rw [short.redraw_cell (by omega), if_neg (by omega),
          if_pos ⟨rfl, edge, newline⟩] at behind
        exact .inr behind

/-- A redrawn line that meets none of them looks like a typed one. -/
theorem RedrawClean.looksTyped (clean : RedrawClean console) (short : ShortLine console) {k : Nat}
    (inside : k < 2000) :
    glyph (cell console.redraw.memory k).1 =
      glyph (cell (console.cleared.puts console.typedLine).memory k).1 := by
  rw [short.redraw_cell inside, short.typed.2 k inside]
  split_ifs with before behind
  · rfl
  · obtain ⟨rfl, apart, shown⟩ := behind
    rcases clean.stale with last | newline | seen
    · exact absurd last apart
    · exact absurd newline shown
    · exact seen.trans glyph_blank.symm
  · rfl

theorem RedrawClean.lineShown (clean : RedrawClean console) (short : ShortLine console) :
    LineShown console console.redraw := by
  have length := short.length
  have ends := clean.ends
  obtain ⟨⟨column, row⟩, typed⟩ := short.typed
  have cursor : console.redraw.screenX = (console.keyboard.numCharsTyped % 80 : Nat) ∧
      console.redraw.screenY = (console.keyboard.numCharsTyped / 80 : Nat) := by
    rw [(redraw_cursor console).1, (redraw_cursor console).2]
    split_ifs <;> omega
  exact
    { characters := by
        intro k before
        rw [clean.looksTyped short (by omega), typed k (by omega)]
        by_cases last : k = 79
        · rw [if_neg (fun kept => kept.2 last), glyph_blank, last, clean.edge (by omega)]
        · rw [if_pos ⟨before, last⟩]
      blanks := by
        intro k inside behind
        rw [clean.looksTyped short inside, typed k inside, if_neg (by omega), glyph_blank]
      column := cursor.1
      row := cursor.2
      typed := fun k inside => clean.looksTyped short inside
      typedColumn := cursor.1.trans column.symm
      typedRow := cursor.2.trans row.symm }

end

/-- With Ctrl held, L shows the line and places the cursor as it should exactly if no part
of the line meets one of the three faults. -/
theorem redraw_shown {console : Console} (short : ShortLine console)
    (ctrl : console.ctrlPressed = true) :
    LineShown console (console.keyboardHandler 0x26) ↔ RedrawClean console := by
  rw [keyboardHandler_ctrlL ctrl]
  exact ⟨fun shown => shown.clean short, fun clean => clean.lineShown short⟩

/-- The console after some keys. -/
def Console.keys (codes : List UInt8) (console : Console) : Console :=
  codes.foldl (fun console code => console.keyboardHandler code) console

/-- A line of two letters is shown as it should be. -/
theorem redraw_shown_letters :
    LineShown (emptyScreen.keys [0x1E, 0x30, 0x1D])
      ((emptyScreen.keys [0x1E, 0x30, 0x1D]).keyboardHandler 0x26) :=
  (redraw_shown ⟨by decide, by decide⟩ rfl).mpr ⟨by decide, by decide, by decide⟩

/-- After Backspace the letter that was taken back is shown again. -/
theorem redraw_shown_backspace :
    ¬ LineShown (emptyScreen.keys [0x1E, 0x30, 0x0E, 0x1D])
      ((emptyScreen.keys [0x1E, 0x30, 0x0E, 0x1D]).keyboardHandler 0x26) := by
  have short : ShortLine (emptyScreen.keys [0x1E, 0x30, 0x0E, 0x1D]) :=
    ⟨by decide, by decide⟩
  intro shown
  have behind := shown.blanks 1 (by decide) (by decide)
  rw [keyboardHandler_ctrlL rfl, short.redraw_cell (by decide)] at behind
  revert behind
  decide

end Ece391.Kernel
