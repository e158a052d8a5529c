import Ece391.Kernel.TerminalLines

/-!
# Reading an edited line

A line editor in the typist's terms: keys are pressed and released, a character key appends the
character it shows, Backspace removes the last one, and Shift and Caps Lock choose the
character.  The keyboard handler only moves a count over a buffer, but the line that
`terminal_read` returns after Enter is the line of this editor.
-/

namespace Ece391.Kernel

open Ece391.Library

/-! ## The typist's line editor -/

def Printable (char : UInt8) : Prop :=
  0x20 ≤ char ∧ char ≤ 0x7E

instance (char : UInt8) : Decidable (Printable char) :=
  inferInstanceAs (Decidable (_ ∧ _))

/-- A key with printable characters in both tables. -/
structure CharacterKey where
  code : UInt8
  plain : Printable (Console.asciiLookupTable.getD code.toNat 0)
  caps : Printable (Console.asciiCapsLookupTable.getD code.toNat 0)

inductive EditKey where
  | character (key : CharacterKey)
  | backspace
  | leftShift
  | rightShift
  | capslock

def EditKey.code : EditKey → UInt8
  | .character key => key.code
  | .backspace => 0x0E
  | .leftShift => 0x2A
  | .rightShift => 0x36
  | .capslock => 0x3A

/-- A key that is pressed or released; the scan code of a release has its top bit set. -/
structure Stroke where
  key : EditKey
  released : Bool

def Stroke.code (stroke : Stroke) : UInt8 :=
  if stroke.released then stroke.key.code ||| 0x80 else stroke.key.code

/-- Whether a key is a letter, which Caps Lock affects. -/
def CharacterKey.IsLetter (key : CharacterKey) : Prop :=
  0x61 ≤ Console.asciiLookupTable.getD key.code.toNat 0 ∧
    Console.asciiLookupTable.getD key.code.toNat 0 ≤ 0x7A

instance (key : CharacterKey) : Decidable key.IsLetter :=
  inferInstanceAs (Decidable (_ ∧ _))

/-- The character that a key shows: a letter is a capital when either Shift or Caps Lock is
on, another key is shifted by Shift alone.  Ctrl-L shows none. -/
def Modifiers.shown (modifiers : Modifiers) (key : CharacterKey) : Option UInt8 :=
  if modifiers.ctrl ∧ key.code = 0x26 then none
  else if (if key.IsLetter then modifiers.shift != modifiers.capslock else modifiers.shift) then
    some (Console.asciiCapsLookupTable.getD key.code.toNat 0)
  else some (Console.asciiLookupTable.getD key.code.toNat 0)

/-- The line being edited, and the modifier keys. -/
structure EditedLine where
  line : List UInt8
  modifiers : Modifiers

namespace EditedLine

def stroke (edited : EditedLine) (stroke : Stroke) : EditedLine :=
  match stroke.key with
  | .leftShift => { edited with modifiers.shift := !stroke.released }
  | .rightShift => { edited with modifiers.shift := !stroke.released }
  | .character key =>
      if stroke.released then edited
      else { edited with line := edited.line ++ (edited.modifiers.shown key).toList }
  | .backspace => if stroke.released then edited else { edited with line := edited.line.dropLast }
  | .capslock =>
      if stroke.released then edited
      else { edited with modifiers.capslock := !edited.modifiers.capslock }

def strokes (edited : EditedLine) (strokes : List Stroke) : EditedLine :=
  strokes.foldl stroke edited

end EditedLine

/-! ## What the scan codes do -/

/-- The table that `print_to_screen` chooses. -/
theorem keyChar_shown : ∀ (shift capslock : Bool) (code : UInt8),
    Printable (Console.asciiLookupTable.getD code.toNat 0) →
    Console.keyChar shift capslock code =
      if (if 0x61 ≤ Console.asciiLookupTable.getD code.toNat 0 ∧
          Console.asciiLookupTable.getD code.toNat 0 ≤ 0x7A then shift != capslock else shift) then
        Console.asciiCapsLookupTable.getD code.toNat 0
      else Console.asciiLookupTable.getD code.toNat 0 :=
  forall_bool_code (by decide +kernel)

theorem keyOf_character : ∀ code : UInt8,
    Printable (Console.asciiLookupTable.getD code.toNat 0) →
    code ≤ 0x3A ∧ (keyOf code = if code = 0x26 then .letterL else .other) :=
  forall_code (by decide +kernel)

theorem keyOf_character_released : ∀ code : UInt8,
    Printable (Console.asciiLookupTable.getD code.toNat 0) →
    keyOf (code ||| 0x80) = .other ∧ ¬(code ||| 0x80) ≤ 0x3A :=
  forall_code (by decide +kernel)

theorem ofKey_ignored {modifiers : Modifiers} {code : UInt8} (key : keyOf code = .other)
    (released : ¬code ≤ 0x3A) : LineEdit.ofKey modifiers code = .keep := by
  simp only [LineEdit.ofKey, key, if_neg released]

theorem press_ignored {modifiers : Modifiers} {code : UInt8} (key : keyOf code = .other) :
    modifiers.press code = modifiers := by
  simp only [Modifiers.press, key]

theorem shown_eq (modifiers : Modifiers) (key : CharacterKey) :
    modifiers.shown key =
      if modifiers.ctrl ∧ key.code = 0x26 then none
      else some (Console.keyChar modifiers.shift modifiers.capslock key.code) := by
  rw [keyChar_shown modifiers.shift modifiers.capslock key.code key.plain, Modifiers.shown,
    apply_ite some]
  rfl

theorem press_character (modifiers : Modifiers) (key : CharacterKey) :
    modifiers.press key.code = modifiers := by
  have kind := (keyOf_character key.code key.plain).2
  simp only [Modifiers.press, kind]
  split_ifs <;> rfl

/-- A character key appends what it shows. -/
theorem ofKey_character (modifiers : Modifiers) (key : CharacterKey) :
    LineEdit.ofKey modifiers key.code =
      ((modifiers.shown key).map LineEdit.append).getD .keep := by
  obtain ⟨pressed, kind⟩ := keyOf_character key.code key.plain
  rw [shown_eq]
  by_cases letterL : key.code = 0x26
  · rw [if_pos letterL] at kind
    simp only [LineEdit.ofKey, kind]
    cases held : modifiers.ctrl <;> simp [letterL]
  · rw [if_neg letterL] at kind
    simp only [LineEdit.ofKey, kind, if_pos pressed, letterL, and_false, if_false]
    rfl

/-- The handler appends and shows the same character. -/
theorem keyboardHandler_character {console : Console} {key : CharacterKey} {char : UInt8}
    (shown : console.modifiers.shown key = some char) :
    console.keyboardHandler key.code = console.typeChar char := by
  obtain ⟨pressed, kind⟩ := keyOf_character key.code key.plain
  rw [shown_eq] at shown
  split_ifs at shown with redraws
  obtain rfl := Option.some.inj shown
  have typed : console.printToScreen key.code =
      console.typeChar (Console.keyChar console.shiftPressed console.capslockPressed key.code) :=
    if_pos pressed
  simp only [Console.keyboardHandler, kind]
  by_cases letterL : key.code = 0x26
  · have free : console.ctrlPressed = false := by
      cases held : console.ctrlPressed with
      | false => rfl
      | true => exact absurd ⟨held, letterL⟩ redraws
    simp only [letterL, if_true, free]
    rw [letterL] at typed
    exact typed
  · simp only [letterL, if_false]
    exact typed

/-! ## The console follows the editor -/

/-- The console holds the line of the editor and has its modifier keys. -/
structure Follows (console : Console) (edited : EditedLine) : Prop where
  line : console.keyboard.pending = edited.line
  modifiers : console.modifiers = edited.modifiers

theorem EditedLine.stroke_character (edited : EditedLine) (keyboard : Keyboard)
    (line : keyboard.pending = edited.line) (key : CharacterKey) :
    edited.line ++ (edited.modifiers.shown key).toList =
      ((LineEdit.ofKey edited.modifiers key.code).apply keyboard).pending := by
  rw [ofKey_character]
  cases edited.modifiers.shown key with
  | none => exact (List.append_nil _).trans line.symm
  | some char =>
      change _ = ((LineEdit.append char).apply keyboard).pending
      rw [Keyboard.pending_append, line]
      rfl

/-- What a stroke means to the handler: an edit of the line and a change of the modifiers. -/
theorem EditedLine.stroke_eq (edited : EditedLine) (keyboard : Keyboard) (stroke : Stroke)
    (line : keyboard.pending = edited.line) :
    (edited.stroke stroke).line =
        ((LineEdit.ofKey edited.modifiers stroke.code).apply keyboard).pending ∧
      (edited.stroke stroke).modifiers = edited.modifiers.press stroke.code := by
  obtain ⟨key, released⟩ := stroke
  cases key with
  | character key =>
      cases released with
      | true =>
          obtain ⟨kind, high⟩ := keyOf_character_released key.code key.plain
          have edit : LineEdit.ofKey edited.modifiers
              (Stroke.mk (.character key) true).code = .keep := ofKey_ignored kind high
          rw [edit]
          exact ⟨line.symm, (press_ignored kind).symm⟩
      | false =>
          exact ⟨edited.stroke_character keyboard line key,
            (press_character edited.modifiers key).symm⟩
  | backspace =>
      cases released with
      | true => exact ⟨line.symm, rfl⟩
      | false =>
          refine ⟨?_, rfl⟩
          change edited.line.dropLast = (LineEdit.erase.apply keyboard).pending
          rw [Keyboard.pending_erase, line]
  | leftShift => cases released <;> exact ⟨line.symm, rfl⟩
  | rightShift => cases released <;> exact ⟨line.symm, rfl⟩
  | capslock => cases released <;> exact ⟨line.symm, rfl⟩

theorem stroke_plain (stroke : Stroke) (id : Fin 3) : keyOf stroke.code ≠ .function id := by
  obtain ⟨key, released⟩ := stroke
  cases key with
  | character key =>
      cases released with
      | true =>
          have kind := (keyOf_character_released key.code key.plain).1
          change keyOf (key.code ||| 0x80) ≠ _
          rw [kind]
          exact Key.noConfusion
      | false =>
          have kind := (keyOf_character key.code key.plain).2
          change keyOf key.code ≠ _
          rw [kind]
          split_ifs <;> exact Key.noConfusion
  | backspace => cases released <;> decide +revert
  | leftShift => cases released <;> decide +revert
  | rightShift => cases released <;> decide +revert
  | capslock => cases released <;> decide +revert

section

variable {console : Console} {edited : EditedLine}

/-- Each stroke keeps the console in step with the editor. -/
theorem Follows.stroke (follows : Follows console edited) (stroke : Stroke) :
    Follows (console.quiet.keyboardHandler stroke.code) (edited.stroke stroke) := by
  have stays : console.quiet.switchTarget stroke.code = none :=
    switchTarget_of_plain (stroke_plain stroke)
  have handled := Console.keyboardHandler_edited stays
  have modifiers : console.quiet.modifiers = edited.modifiers := follows.modifiers
  obtain ⟨line, pressed⟩ := edited.stroke_eq console.keyboard stroke follows.line
  constructor
  · rw [handled.keyboard, modifiers, line]
    rfl
  · rw [handled.modifiers, modifiers, pressed]

/-- So does any sequence of strokes. -/
theorem Follows.strokes (follows : Follows console edited) (strokes : List Stroke) :
    Follows (console.type (strokes.map Stroke.code)) (edited.strokes strokes) := by
  induction strokes generalizing console edited with
  | nil => exact follows
  | cons stroke strokes ih => exact ih (follows.stroke stroke)

theorem length_pending (keyboard : Keyboard) :
    keyboard.pending.length = keyboard.numCharsTyped := by
  simp [Keyboard.pending]

/-- A stroke on a line of at most 126 characters stores inside the buffer. -/
theorem Follows.stores (follows : Follows console edited) (short : edited.line.length ≤ 126)
    (stroke : Stroke) :
    ∀ i ∈ (console.quiet.keyboardHandler stroke.code).bufferStores, i < 128 := by
  have stays : console.quiet.switchTarget stroke.code = none :=
    switchTarget_of_plain (stroke_plain stroke)
  have handled := Console.keyboardHandler_edited stays
  have count : console.keyboard.numCharsTyped ≤ 126 := by
    rw [← length_pending, follows.line]
    exact short
  intro i stored
  rw [handled.bufferStores] at stored
  have logged : i ∈ (LineEdit.ofKey console.quiet.modifiers stroke.code).stores
      console.keyboard.numCharsTyped ++ [] := stored
  rw [List.append_nil] at logged
  cases edit : LineEdit.ofKey console.quiet.modifiers stroke.code with
  | append char | newline | gap =>
      rw [edit] at logged
      have at_ := List.mem_singleton.mp logged
      omega
  | erase | keep =>
      rw [edit] at logged
      cases logged

/-- Enter completes the line, and stores inside the buffer too. -/
theorem Follows.enter (follows : Follows console edited) :
    (console.quiet.keyboardHandler 0x1C).keyboard.pending = edited.line ++ [10] ∧
      (console.quiet.keyboardHandler 0x1C).keyboard.enterPressedFlag = 1 ∧
      (edited.line.length ≤ 126 →
        ∀ i ∈ (console.quiet.keyboardHandler 0x1C).bufferStores, i < 128) := by
  have stays : console.quiet.switchTarget 0x1C = none := rfl
  have handled := Console.keyboardHandler_edited stays
  have keyboard : (console.quiet.keyboardHandler 0x1C).keyboard =
      LineEdit.newline.apply console.keyboard := handled.keyboard
  have stores : (console.quiet.keyboardHandler 0x1C).bufferStores =
      [console.keyboard.numCharsTyped] := handled.bufferStores
  refine ⟨?_, ?_, ?_⟩
  · rw [keyboard, Keyboard.pending_newline, follows.line]
  · rw [keyboard]
    rfl
  · intro short i stored
    rw [stores, List.mem_singleton] at stored
    rw [← follows.line, length_pending] at short
    omega

/-- A read of at least 128 bytes returns the whole line once Enter has been pressed. -/
theorem Console.read_line (entered : console.keyboard.enterPressedFlag = 1) {nbytes : Int}
    (large : 128 ≤ nbytes) :
    ∃ last, console.read nbytes =
        some ((console.keyboard.pending.length : Int), console.keyboard.pending ++ [0], last) ∧
      last.keyboard =
        ⟨fun i => if i < 128 then 0 else console.keyboard.keyboardBuffer i, 0, 0⟩ := by
  have some_ : nbytes ≠ 0 := by omega
  have long : ¬nbytes < 128 := by omega
  simp only [Console.read, terminalRead, some_, entered, long, if_false, ne_eq, not_true_eq_false,
    Option.map_some, length_pending]
  exact ⟨_, rfl, rfl⟩

end

/-- The console as it is when a line begins. -/
def Console.emptyLine (console : Console) : EditedLine :=
  ⟨[], console.modifiers⟩

/-- Whatever strokes edit an empty line, while it never has more than 126 characters, a read
of at least 128 bytes after Enter returns that line with a newline and a NUL, and leaves the
line buffer empty. -/
theorem edited_line_read {console : Console} (empty : console.keyboard.numCharsTyped = 0)
    (strokes : List Stroke)
    (short : ∀ done, done <+: strokes → (console.emptyLine.strokes done).line.length ≤ 126)
    {nbytes : Int} (large : 128 ≤ nbytes) :
    ∃ last, (console.type (strokes.map Stroke.code ++ [0x1C])).read nbytes =
        some (((console.emptyLine.strokes strokes).line.length : Int) + 1,
          (console.emptyLine.strokes strokes).line ++ [10, 0], last) ∧
      (((console.emptyLine.strokes strokes).line ++ [10, 0]).length : Int) ≤ nbytes ∧
      last.keyboard.numCharsTyped = 0 ∧ (∀ i < 128, last.keyboard.keyboardBuffer i = 0) ∧
      ∀ done code, done ++ [code] <+: strokes.map Stroke.code ++ [0x1C] →
        ∀ i ∈ ((console.type done).quiet.keyboardHandler code).bufferStores, i < 128 := by
  have start : Follows console console.emptyLine :=
    ⟨Keyboard.pending_eq_nil empty, rfl⟩
  have follows := start.strokes strokes
  obtain ⟨line, flag, inside⟩ := follows.enter
  have typed : console.type (strokes.map Stroke.code ++ [0x1C]) =
      (console.type (strokes.map Stroke.code)).quiet.keyboardHandler 0x1C := by
    rw [Console.type, List.foldl_append]
    rfl
  obtain ⟨last, read, emptied⟩ := Console.read_line flag large
  have whole := short strokes (List.prefix_refl strokes)
  refine ⟨last, ?_, ?_, ?_, ?_, ?_⟩
  · rw [typed, read, line]
    simp
  · simp only [List.length_append, List.length_cons, List.length_nil]
    omega
  · rw [emptied]
  · intro i below
    rw [emptied]
    exact if_pos below
  · intro done code before
    rcases List.prefix_concat_iff.mp before with same | earlier
    · obtain ⟨rfl, typedLast⟩ := List.append_inj' same rfl
      obtain rfl : code = 0x1C := List.singleton_inj.mp typedLast
      exact inside whole
    · obtain ⟨rest, split⟩ := earlier
      rw [List.append_assoc] at split
      obtain ⟨first, behind, rfl, rfl, codes⟩ := List.append_eq_map_iff.mp split
      obtain ⟨stroke, later, rfl, rfl, -⟩ := List.map_eq_cons_iff.mp codes
      exact (start.strokes first).stores (short first (List.prefix_append ..)) stroke

/-- A stroke adds at most one character. -/
theorem EditedLine.length_stroke_le (edited : EditedLine) (stroke : Stroke) :
    (edited.stroke stroke).line.length ≤ edited.line.length + 1 := by
  have added (key : CharacterKey) : (edited.modifiers.shown key).toList.length ≤ 1 := by
    cases edited.modifiers.shown key <;> simp
  obtain ⟨key, released⟩ := stroke
  cases key with
  | character key =>
      have one := added key
      cases released with
      | true => exact Nat.le_succ _
      | false =>
          change (edited.line ++ (edited.modifiers.shown key).toList).length ≤ _
          rw [List.length_append]
          omega
  | backspace =>
      cases released with
      | true => exact Nat.le_succ _
      | false =>
          change edited.line.dropLast.length ≤ _
          rw [List.length_dropLast]
          omega
  | leftShift | rightShift => exact Nat.le_succ _
  | capslock => cases released <;> exact Nat.le_succ _

theorem EditedLine.length_strokes_le (edited : EditedLine) (strokes : List Stroke) :
    (edited.strokes strokes).line.length ≤ edited.line.length + strokes.length := by
  induction strokes generalizing edited with
  | nil => exact Nat.le_refl _
  | cons stroke strokes ih =>
      have one := edited.length_stroke_le stroke
      have rest := ih (edited.stroke stroke)
      change ((edited.stroke stroke).strokes strokes).line.length ≤ _
      rw [List.length_cons]
      omega

/-- The strokes that type `l`, mistype `a`, erase it and type `S`. -/
def editedStrokes : List Stroke :=
  let key (code : UInt8) (plain : Printable (Console.asciiLookupTable.getD code.toNat 0))
      (caps : Printable (Console.asciiCapsLookupTable.getD code.toNat 0)) : EditKey :=
    .character ⟨code, plain, caps⟩
  [⟨key 0x26 (by decide) (by decide), false⟩, ⟨key 0x26 (by decide) (by decide), true⟩,
    ⟨key 0x1E (by decide) (by decide), false⟩, ⟨.backspace, false⟩, ⟨.leftShift, false⟩,
    ⟨key 0x1F (by decide) (by decide), false⟩, ⟨.leftShift, true⟩]

/-- They are read as the line `lS`. -/
theorem edited_line_read_letters :
    ∃ last, ((Console.bss fun _ => 0).type
        [0x26, 0xA6, 0x1E, 0x0E, 0x2A, 0x1F, 0xAA, 0x1C]).read 128 =
      some (3, [0x6C, 0x53, 10, 0], last) := by
  have short : ∀ done, done <+: editedStrokes →
      ((Console.bss fun _ => 0).emptyLine.strokes done).line.length ≤ 126 := by
    intro done before
    have bound := (Console.bss fun _ => 0).emptyLine.length_strokes_le done
    have count : done.length ≤ 7 := before.length_le
    change _ ≤ 0 + done.length at bound
    omega
  obtain ⟨last, read, _⟩ := edited_line_read rfl editedStrokes short (Int.le_refl 128)
  exact ⟨last, read⟩

end Ece391.Kernel
