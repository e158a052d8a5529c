import Ece391.Kernel.Console

/-!
# The line editor

Seen from the line buffer, a key does one of four things: it appends a character, it
leaves a gap and stores a tab behind it, it erases, or it does nothing.  The editor below
says which, from the scan code and the modifier keys alone; the theorems that follow
connect it to the keyboard handler.
-/

namespace Ece391.Kernel

open Ece391.Library

/-- A scan code is one of 256. -/
theorem forall_code {holds : UInt8 → Prop} (each : ∀ n : Fin 256, holds (UInt8.ofFin n))
    (code : UInt8) : holds code :=
  each code.toFin

theorem forall_bool_code {holds : Bool → Bool → UInt8 → Prop}
    (each : ∀ first second, ∀ n : Fin 256, holds first second (UInt8.ofFin n))
    (first second : Bool) (code : UInt8) : holds first second code :=
  forall_code (each first second) code

theorem letterL_printable : ∀ code : UInt8, keyOf code = .letterL → code ≤ 0x3A :=
  forall_code (by decide +kernel)

/-- The modifier keys that decide what a key types. -/
structure Modifiers where
  ctrl : Bool
  shift : Bool
  capslock : Bool
  deriving DecidableEq, Repr

namespace Modifiers

/-- The modifiers after a key. -/
def press (modifiers : Modifiers) (code : UInt8) : Modifiers :=
  match keyOf code with
  | .ctrl => { modifiers with ctrl := true }
  | .ctrlReleased => { modifiers with ctrl := false }
  | .shift => { modifiers with shift := true }
  | .shiftReleased => { modifiers with shift := false }
  | .capslock => { modifiers with capslock := !modifiers.capslock }
  | _ => modifiers

end Modifiers

/-- What a key does to the line. -/
inductive LineEdit where
  | append (char : UInt8)
  | newline
  | gap
  | erase
  | keep
  deriving DecidableEq, Repr

namespace LineEdit

/-- The edit a key makes. -/
def ofKey (modifiers : Modifiers) (code : UInt8) : LineEdit :=
  let char := Console.keyChar modifiers.shift modifiers.capslock code
  match keyOf code with
  | .backspace => .erase
  | .tab => .gap
  | .letterL => if modifiers.ctrl then .keep else .append char
  | .enter => .newline
  | .other => if code ≤ 0x3A then .append char else .keep
  | _ => .keep

/-- The line buffer after an edit. -/
def apply (keyboard : Keyboard) : LineEdit → Keyboard
  | .append char =>
      { keyboard with
        keyboardBuffer := Function.update keyboard.keyboardBuffer keyboard.numCharsTyped char
        numCharsTyped := keyboard.numCharsTyped + 1 }
  | .newline =>
      { keyboardBuffer := Function.update keyboard.keyboardBuffer keyboard.numCharsTyped 10
        numCharsTyped := keyboard.numCharsTyped + 1
        enterPressedFlag := 1 }
  | .gap =>
      { keyboard with
        keyboardBuffer := Function.update keyboard.keyboardBuffer (keyboard.numCharsTyped + 1) 9
        numCharsTyped := keyboard.numCharsTyped + 1 }
  | .erase => { keyboard with numCharsTyped := keyboard.numCharsTyped - 1 }
  | .keep => keyboard

/-- The indices of the line buffer an edit stores to. -/
def stores (typed : Nat) : LineEdit → List Nat
  | .append _ => [typed]
  | .newline => [typed]
  | .gap => [typed + 1]
  | .erase => []
  | .keep => []

theorem apply_erase_of_empty {keyboard : Keyboard} (empty : keyboard.numCharsTyped = 0) :
    erase.apply keyboard = keyboard := by
  cases keyboard
  cases empty
  rfl

end LineEdit

namespace Console

def modifiers (console : Console) : Modifiers :=
  ⟨console.ctrlPressed, console.shiftPressed, console.capslockPressed⟩

/-- The terminal a key asks for: a function key pressed while Alt is held. -/
def switchTarget (console : Console) (code : UInt8) : Option (Fin 3) :=
  match keyOf code with
  | .function id => if console.altPressed then some id else none
  | _ => none

/-- What a key that does not switch terminals does, the screen apart. -/
structure Edited (before : Console) (code : UInt8) (after : Console) : Prop where
  keyboard : after.keyboard = (LineEdit.ofKey before.modifiers code).apply before.keyboard
  bufferStores : after.bufferStores =
    (LineEdit.ofKey before.modifiers code).stores before.keyboard.numCharsTyped ++
      before.bufferStores
  modifiers : after.modifiers = before.modifiers.press code
  terminals : after.terminals = before.terminals
  currTerminalId : after.currTerminalId = before.currTerminalId
  pageCopies : after.pageCopies = before.pageCopies

variable {console before after : Console} {code : UInt8} {id : Fin 3}

theorem modifiers_of_rest (same : after.rest = before.rest) :
    after.modifiers = before.modifiers :=
  congrArg (fun console => console.modifiers) same

/-- What follows an edit on the screen does not matter. -/
theorem Edited.of_rest {middle : Console} (edited : Edited before code middle)
    (same : after.rest = middle.rest) : Edited before code after where
  keyboard := (keyboard_of_rest same).trans edited.keyboard
  bufferStores := (bufferStores_of_rest same).trans edited.bufferStores
  modifiers := (modifiers_of_rest same).trans edited.modifiers
  terminals := (terminals_of_rest same).trans edited.terminals
  currTerminalId := (currTerminalId_of_rest same).trans edited.currTerminalId
  pageCopies := (pageCopies_of_rest same).trans edited.pageCopies

/-- A key that switches terminals does not edit the line. -/
theorem ofKey_of_switch (target : console.switchTarget code = some id) (modifiers : Modifiers) :
    LineEdit.ofKey modifiers code = .keep := by
  simp only [switchTarget] at target
  simp only [LineEdit.ofKey]
  generalize keyOf code = key at target ⊢
  cases key with
  | function wanted => rfl
  | _ => cases target

theorem keyboardHandler_switch (target : console.switchTarget code = some id) :
    console.keyboardHandler code = console.terminalSwitch id := by
  simp only [switchTarget] at target
  simp only [keyboardHandler]
  generalize keyOf code = key at target ⊢
  cases key with
  | function wanted =>
      cases held : console.altPressed with
      | true =>
          rw [held] at target
          cases target
          rfl
      | false =>
          rw [held] at target
          cases target
  | _ => cases target

/-- A change that makes the edit and the modifiers of the key, and nothing else. -/
theorem Edited.of_fields (keyboard : Keyboard) (bufferStores : List Nat) (modifiers : Modifiers)
    (alt : Bool)
    (edited : keyboard = (LineEdit.ofKey console.modifiers code).apply console.keyboard)
    (stored : bufferStores =
      (LineEdit.ofKey console.modifiers code).stores console.keyboard.numCharsTyped ++
        console.bufferStores)
    (pressed : modifiers = console.modifiers.press code) :
    Edited console code
      { console with
        keyboard := keyboard
        bufferStores := bufferStores
        ctrlPressed := modifiers.ctrl
        shiftPressed := modifiers.shift
        capslockPressed := modifiers.capslock
        altPressed := alt } where
  keyboard := edited
  bufferStores := stored
  modifiers := pressed
  terminals := rfl
  currTerminalId := rfl
  pageCopies := rfl

/-- Typing a character that the key types. -/
theorem typeChar_edited {char : UInt8} (edit : LineEdit.ofKey console.modifiers code = .append char)
    (held : console.modifiers.press code = console.modifiers) :
    Edited console code (console.typeChar char) := by
  have typed : Edited console code { console.storeChar console.keyboard.numCharsTyped char with
      keyboard.numCharsTyped := console.keyboard.numCharsTyped + 1 } :=
    Edited.of_fields _ _ console.modifiers console.altPressed
      (by rw [edit]; rfl) (by rw [edit]; rfl) held.symm
  exact typed.of_rest (putc_rest ..)

theorem backspace_edited (edit : LineEdit.ofKey console.modifiers code = .erase)
    (held : console.modifiers.press code = console.modifiers) :
    Edited console code console.backspace := by
  have stored : console.bufferStores =
      (LineEdit.ofKey console.modifiers code).stores console.keyboard.numCharsTyped ++
        console.bufferStores := by
    rw [edit]
    rfl
  by_cases typed : console.keyboard.numCharsTyped > 0
  · have erased : Edited console code { console with
        keyboard.numCharsTyped := console.keyboard.numCharsTyped - 1 } :=
      Edited.of_fields _ _ console.modifiers console.altPressed (by rw [edit]; rfl) stored
        held.symm
    refine erased.of_rest ?_
    simp only [backspace, if_pos typed]
    rw [setCursor_rest, putc_rest, setCursor_rest]
  · simp only [backspace, if_neg typed]
    have unchanged : LineEdit.erase.apply console.keyboard = console.keyboard :=
      LineEdit.apply_erase_of_empty (by omega)
    exact Edited.of_fields console.keyboard _ console.modifiers console.altPressed
      (by rw [edit, unchanged]) stored held.symm

theorem tab_edited (edit : LineEdit.ofKey console.modifiers code = .gap)
    (held : console.modifiers.press code = console.modifiers) :
    Edited console code console.tab :=
  Edited.of_fields _ _ console.modifiers console.altPressed
    (by rw [edit]; rfl) (by rw [edit]; rfl) held.symm

theorem enter_edited (edit : LineEdit.ofKey console.modifiers code = .newline)
    (held : console.modifiers.press code = console.modifiers) :
    Edited console code console.enter := by
  have typed : Edited console code
      { { console with keyboard.enterPressedFlag := 1 }.storeChar
          console.keyboard.numCharsTyped 10 with
        keyboard.numCharsTyped := console.keyboard.numCharsTyped + 1 } :=
    Edited.of_fields _ _ console.modifiers console.altPressed
      (by rw [edit]; rfl) (by rw [edit]; rfl) held.symm
  exact typed.of_rest (putc_rest ..)

/-- A key that only changes the modifiers. -/
theorem held_edited (modifiers : Modifiers) (alt : Bool)
    (edit : LineEdit.ofKey console.modifiers code = .keep)
    (pressed : modifiers = console.modifiers.press code) :
    Edited console code
      { console with
        ctrlPressed := modifiers.ctrl
        shiftPressed := modifiers.shift
        capslockPressed := modifiers.capslock
        altPressed := alt } :=
  Edited.of_fields _ _ modifiers alt (by rw [edit]; rfl) (by rw [edit]; rfl) pressed

theorem printToScreen_edited
    (edit : LineEdit.ofKey console.modifiers code =
      if code ≤ 0x3A then
        .append (keyChar console.shiftPressed console.capslockPressed code)
      else .keep)
    (held : console.modifiers.press code = console.modifiers) :
    Edited console code (console.printToScreen code) := by
  unfold printToScreen
  split_ifs at edit ⊢
  · exact typeChar_edited edit held
  · exact held_edited console.modifiers console.altPressed edit held.symm

/-- The keyboard handler is the line editor, plus what it does to the screen. -/
theorem keyboardHandler_edited (stays : console.switchTarget code = none) :
    Edited console code (console.keyboardHandler code) := by
  simp only [switchTarget] at stays
  simp only [keyboardHandler]
  have edits := LineEdit.ofKey.eq_1 console.modifiers code
  have presses := Modifiers.press.eq_1 console.modifiers code
  cases key : keyOf code with
  | backspace =>
      rw [key] at edits presses
      exact backspace_edited edits presses
  | tab =>
      rw [key] at edits presses
      exact tab_edited edits presses
  | enter =>
      rw [key] at edits presses
      exact enter_edited edits presses
  | other =>
      rw [key] at edits presses
      exact printToScreen_edited edits presses
  | letterL =>
      rw [key] at edits presses
      have printable : code ≤ 0x3A := letterL_printable code key
      cases held : console.ctrlPressed with
      | true =>
          have kept := edits.trans (if_pos held)
          have unchanged := held_edited console.modifiers console.altPressed kept presses.symm
          exact unchanged.of_rest (redraw_rest console)
      | false =>
          have appended := edits.trans (if_neg (by simp [modifiers, held]))
          exact printToScreen_edited (appended.trans (if_pos printable).symm) presses
  | ctrl =>
      rw [key] at edits presses
      exact held_edited _ console.altPressed edits presses.symm
  | ctrlReleased =>
      rw [key] at edits presses
      exact held_edited _ console.altPressed edits presses.symm
  | shift =>
      rw [key] at edits presses
      exact held_edited _ console.altPressed edits presses.symm
  | shiftReleased =>
      rw [key] at edits presses
      exact held_edited _ console.altPressed edits presses.symm
  | capslock =>
      rw [key] at edits presses
      exact held_edited _ console.altPressed edits presses.symm
  | alt =>
      rw [key] at edits presses
      exact held_edited console.modifiers true edits presses.symm
  | altReleased =>
      rw [key] at edits presses
      exact held_edited console.modifiers false edits presses.symm
  | function id =>
      rw [key] at edits presses stays
      cases held : console.altPressed with
      | true => simp [held] at stays
      | false => exact held_edited console.modifiers console.altPressed edits presses.symm

/-- An event either leaves the table of terminals alone or switches. -/
theorem step_terminals {event : ConsoleEvent} (step : ConsoleStep before event after) :
    (after.terminals = before.terminals ∧ after.currTerminalId = before.currTerminalId) ∨
      ∃ id, after = before.quiet.terminalSwitch id := by
  unfold ConsoleStep at step
  cases event with
  | key code =>
      have handled : before.quiet.keyboardHandler code = after := Option.some.inj step
      cases target : before.quiet.switchTarget code with
      | none =>
          have edited := keyboardHandler_edited target
          rw [handled] at edited
          exact .inl ⟨edited.terminals, edited.currTerminalId⟩
      | some id => exact .inr ⟨id, handled.symm.trans (keyboardHandler_switch target)⟩
  | output char =>
      have printed : before.quiet.putc char = after := Option.some.inj step
      have same : after.rest = before.quiet.rest := by rw [← printed, putc_rest]
      have terminals : after.terminals = before.quiet.terminals := terminals_of_rest same
      have current : after.currTerminalId = before.quiet.currTerminalId :=
        currTerminalId_of_rest same
      exact .inl ⟨terminals, current⟩
  | read nbytes =>
      obtain ⟨result, completed, afterwards⟩ := Option.map_eq_some_iff.mp step
      cases read_cases completed with
      | inl nothing =>
          rw [← afterwards, nothing.2]
          exact .inl ⟨rfl, rfl⟩
      | inr taken =>
          rw [← afterwards, taken.2.2]
          exact .inl ⟨rfl, rfl⟩
  | switchTo id => exact .inr ⟨id, (Option.some.inj step).symm⟩

end Console

end Ece391.Kernel
