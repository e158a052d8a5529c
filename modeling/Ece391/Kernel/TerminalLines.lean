import Ece391.Kernel.Displays
import Ece391.Kernel.LineFraming

/-!
# Lines interrupted by a switch of terminals

A terminal's record keeps the 128 bytes of the line buffer, but not how many of them are
typed.  What a line will read as depends on its view: the keyboard and the modifier keys.
The theorem at the end says when leaving a terminal and coming back preserves the line
being typed.
-/

namespace Ece391.Kernel

open Ece391.Library

/-- The result of `terminal_read` on a line buffer. -/
def Keyboard.read (keyboard : Keyboard) (nbytes : Int) : Option (Int × List UInt8) :=
  (terminalRead ⟨keyboard, 0, 0⟩ nbytes).map fun result => (result.1, result.2.1)

/-- What decides how a line reads. -/
structure LineView where
  keyboard : Keyboard
  modifiers : Modifiers

namespace LineView

/-- The view after a key that does not switch. -/
def press (view : LineView) (code : UInt8) : LineView :=
  ⟨(LineEdit.ofKey view.modifiers code).apply view.keyboard, view.modifiers.press code⟩

/-- The view after several keys. -/
def type (view : LineView) (keys : List UInt8) : LineView :=
  keys.foldl press view

/-- The result of a read that waits while keys arrive. -/
def awaitRead (nbytes : Int) (view : LineView) : List UInt8 → Option (Int × List UInt8)
  | [] => view.keyboard.read nbytes
  | code :: codes =>
      match view.keyboard.read nbytes with
      | some result => some result
      | none => (view.press code).awaitRead nbytes codes

end LineView

namespace Console

def view (console : Console) : LineView :=
  ⟨console.keyboard, console.modifiers⟩

/-- The console after several keys. -/
def type (console : Console) (keys : List UInt8) : Console :=
  keys.foldl (fun console code => console.quiet.keyboardHandler code) console

/-- The result of a `terminal_read` that waits while keys arrive. -/
def awaitRead (nbytes : Int) (console : Console) : List UInt8 → Option (Int × List UInt8)
  | [] => (console.read nbytes).map fun result => (result.1, result.2.1)
  | code :: codes =>
      match console.read nbytes with
      | some result => some (result.1, result.2.1)
      | none => (console.quiet.keyboardHandler code).awaitRead nbytes codes

/-- Keys that do not switch terminals whatever the state of Alt. -/
def Plain (keys : List UInt8) : Prop :=
  ∀ code ∈ keys, ∀ id, keyOf code ≠ .function id

end Console

/-! ## The view decides -/

section

variable {console : Console} {code : UInt8} {keys : List UInt8} {nbytes : Int}

theorem switchTarget_of_plain (plain : ∀ id, keyOf code ≠ .function id) :
    console.switchTarget code = none := by
  unfold Console.switchTarget
  split
  · rename_i id key
    exact absurd key (plain id)
  · rfl

theorem view_press (plain : ∀ id, keyOf code ≠ .function id) :
    (console.quiet.keyboardHandler code).view = console.view.press code := by
  have stays : console.quiet.switchTarget code = none := switchTarget_of_plain plain
  have edited := Console.keyboardHandler_edited stays
  simp only [Console.view, LineView.press, edited.keyboard, edited.modifiers]
  rfl

/-- A read depends on the line buffer only. -/
theorem terminalRead_keyboard (devices : Devices) (nbytes : Int) :
    (terminalRead devices nbytes).map (fun result => (result.1, result.2.1)) =
      devices.keyboard.read nbytes := by
  simp only [Keyboard.read, terminalRead]
  by_cases zero : nbytes = 0
  · rw [if_pos zero, if_pos zero]
    rfl
  · rw [if_neg zero, if_neg zero]
    split_ifs <;> rfl

theorem read_view (console : Console) (nbytes : Int) :
    (console.read nbytes).map (fun result => (result.1, result.2.1)) =
      console.view.keyboard.read nbytes := by
  rw [Console.read, Option.map_map]
  exact terminalRead_keyboard console.toDevices nbytes

theorem view_type (plain : Console.Plain keys) :
    (console.type keys).view = console.view.type keys := by
  induction keys generalizing console with
  | nil => rfl
  | cons code keys ih =>
      have rest : ((console.quiet.keyboardHandler code).type keys).view =
          (console.quiet.keyboardHandler code).view.type keys :=
        ih fun other member => plain other (List.mem_cons_of_mem _ member)
      rw [view_press (plain code List.mem_cons_self)] at rest
      exact rest

theorem awaitRead_view (plain : Console.Plain keys) :
    console.awaitRead nbytes keys = console.view.awaitRead nbytes keys := by
  induction keys generalizing console with
  | nil => exact read_view console nbytes
  | cons code keys ih =>
      have first := read_view console nbytes
      have rest : (console.quiet.keyboardHandler code).awaitRead nbytes keys =
          (console.quiet.keyboardHandler code).view.awaitRead nbytes keys :=
        ih fun other member => plain other (List.mem_cons_of_mem _ member)
      rw [view_press (plain code List.mem_cons_self)] at rest
      simp only [Console.awaitRead, LineView.awaitRead, ← first]
      cases console.read nbytes with
      | none => exact rest
      | some result => rfl

end

/-! ## What typing does to a view -/

namespace LineView

variable {view : LineView} {code : UInt8} {keys : List UInt8}

/-- A read of 128 bytes returns all that is pending once Enter has been pressed. -/
theorem read_pending {keyboard : Keyboard} (entered : keyboard.enterPressedFlag = 1) :
    keyboard.read 128 = some ((keyboard.numCharsTyped : Int), keyboard.pending ++ [0]) := by
  simp only [Keyboard.read, terminalRead]
  rw [if_neg (by decide), if_neg (not_not.mpr entered), if_neg (by decide)]
  rfl

theorem read_waits {keyboard : Keyboard} {nbytes : Int} (some : nbytes ≠ 0)
    (waiting : keyboard.enterPressedFlag ≠ 1) : keyboard.read nbytes = none := by
  simp only [Keyboard.read, terminalRead]
  rw [if_neg some, if_pos waiting]
  rfl

/-- While a read waits, the next key is handled. -/
theorem awaitRead_waits {nbytes : Int} (waits : view.keyboard.read nbytes = none) :
    view.awaitRead nbytes (code :: keys) = (view.press code).awaitRead nbytes keys := by
  simp only [awaitRead, waits]

/-- Only Enter changes the flag. -/
theorem press_flag (other : keyOf code ≠ .enter) :
    (view.press code).keyboard.enterPressedFlag = view.keyboard.enterPressedFlag := by
  simp only [press, LineEdit.ofKey]
  generalize keyOf code = key at other ⊢
  cases key with
  | enter => exact absurd rfl other
  | letterL => cases view.modifiers.ctrl <;> rfl
  | other => split_ifs <;> rfl
  | _ => rfl

/-- A read of 128 bytes that waits for a line typed with one Enter returns that line. -/
theorem awaitRead_line (view : LineView) (waiting : view.keyboard.enterPressedFlag ≠ 1)
    (others : ∀ code ∈ keys, keyOf code ≠ .enter) :
    view.awaitRead 128 (keys ++ [0x1C]) =
      some ((((view.type keys).keyboard.numCharsTyped + 1 : Nat) : Int),
        (view.type keys).keyboard.pending ++ [10] ++ [0]) := by
  induction keys generalizing view with
  | nil =>
      have entered : (view.press 0x1C).keyboard = LineEdit.newline.apply view.keyboard := rfl
      refine (awaitRead_waits (read_waits (by decide) waiting)).trans ?_
      change (view.press 0x1C).keyboard.read 128 = _
      rw [entered, read_pending rfl, Keyboard.pending_newline]
      rfl
  | cons code keys ih =>
      have still : (view.press code).keyboard.enterPressedFlag ≠ 1 := by
        rw [press_flag (others code List.mem_cons_self)]
        exact waiting
      have rest := ih (view.press code) still
        fun other member => others other (List.mem_cons_of_mem _ member)
      exact (awaitRead_waits (read_waits (by decide) waiting)).trans rest

/-- Letters leave everything above them in the buffer as it was. -/
theorem type_letters (view : LineView) (n : Nat) :
    (view.type (List.replicate n 0x1E)).keyboard.numCharsTyped =
        view.keyboard.numCharsTyped + n ∧
      ∀ i, view.keyboard.numCharsTyped + n ≤ i →
        (view.type (List.replicate n 0x1E)).keyboard.keyboardBuffer i =
          view.keyboard.keyboardBuffer i := by
  induction n generalizing view with
  | zero => exact ⟨rfl, fun _ _ => rfl⟩
  | succ n ih =>
      have rest := ih (view.press 0x1E)
      have typed : (view.press 0x1E).keyboard.numCharsTyped = view.keyboard.numCharsTyped + 1 := rfl
      rw [typed] at rest
      constructor
      · refine rest.1.trans ?_
        omega
      · intro i above
        refine (rest.2 i (by omega)).trans ?_
        exact Function.update_of_ne (by omega) ..

/-- What is pending after letters and a Tab ends with the byte the Tab skipped. -/
theorem pending_letters_tab (view : LineView) (n : Nat) :
    (view.type (List.replicate n 0x1E ++ [0x0F])).keyboard.pending.getLast? =
      some (view.keyboard.keyboardBuffer (view.keyboard.numCharsTyped + n)) := by
  have letters := type_letters view n
  have tabbed : (view.type (List.replicate n 0x1E ++ [0x0F])).keyboard =
      LineEdit.gap.apply (view.type (List.replicate n 0x1E)).keyboard := by
    rw [type, List.foldl_append]
    rfl
  rw [tabbed, Keyboard.pending_gap, List.getLast?_concat, letters.1, letters.2 _ (le_refl _)]

theorem type_backspaces (view : LineView) (n : Nat) :
    (view.type (List.replicate n 0x0E)).keyboard.numCharsTyped =
      view.keyboard.numCharsTyped - n := by
  induction n generalizing view with
  | zero => rfl
  | succ n ih =>
      have erased : (view.press 0x0E).keyboard.numCharsTyped =
          view.keyboard.numCharsTyped - 1 := rfl
      refine (ih (view.press 0x0E)).trans ?_
      omega

end LineView

/-! ## What distinguishes two views -/

/-- Through reads and Backspace, the line is what it was: further keys and Enter read the
same, and Backspace erases what was typed. -/
structure LinePreserved (before after : Console) : Prop where
  reads : ∀ keys, Console.Plain keys → ∀ nbytes,
    after.awaitRead nbytes (keys ++ [0x1C]) = before.awaitRead nbytes (keys ++ [0x1C])
  erases : ∀ presses,
    (after.type (List.replicate presses 0x0E)).keyboard.numCharsTyped =
      before.keyboard.numCharsTyped - presses

section

variable {before after : Console}

/-- The first characters of two keys tell Shift and Caps Lock apart. -/
theorem modifiers_of_chars : ∀ shift capslock shift' capslock' : Bool,
    Console.keyChar shift' capslock' 0x02 = Console.keyChar shift capslock 0x02 →
    Console.keyChar shift' capslock' 0x1E = Console.keyChar shift capslock 0x1E →
    shift' = shift ∧ capslock' = capslock := by
  decide

theorem plain_of_mem {keys : List UInt8} (each : ∀ code ∈ keys, code = 0x02 ∨ code = 0x1E ∨
    code = 0x26 ∨ code = 0x0F ∨ code = 0x1C ∨ code = 0x0E) : Console.Plain keys := by
  intro code member id
  rcases each code member with rfl | rfl | rfl | rfl | rfl | rfl <;> decide +revert

/-- Equal reads mean equal pending characters, whatever is typed. -/
theorem LinePreserved.pending (preserved : LinePreserved before after)
    (waiting : before.keyboard.enterPressedFlag ≠ 1)
    (still : after.keyboard.enterPressedFlag ≠ 1) {keys : List UInt8}
    (plain : Console.Plain (keys ++ [0x1C])) (others : ∀ code ∈ keys, keyOf code ≠ .enter) :
    (after.view.type keys).keyboard.pending = (before.view.type keys).keyboard.pending := by
  have same := preserved.reads keys
    (fun code member => plain code (List.mem_append_left _ member)) 128
  rw [awaitRead_view plain, awaitRead_view plain,
    LineView.awaitRead_line before.view waiting others,
    LineView.awaitRead_line after.view still others] at same
  have texts := congrArg Prod.snd (Option.some.inj same)
  simpa using texts

/-- A read that waits for a line is not preserved by a pending Enter. -/
theorem LinePreserved.noEnter (preserved : LinePreserved before after)
    (waiting : before.keyboard.enterPressedFlag ≠ 1)
    (emptied : after.keyboard.numCharsTyped = 0) : after.keyboard.enterPressedFlag ≠ 1 := by
  intro entered
  have plain : Console.Plain ([] ++ [0x1C]) := plain_of_mem (by simp)
  have same := preserved.reads [] (plain_of_mem (by simp)) 128
  rw [awaitRead_view plain, awaitRead_view plain,
    LineView.awaitRead_line before.view waiting (by simp)] at same
  have early : after.view.awaitRead 128 ([] ++ [0x1C]) =
      some ((after.keyboard.numCharsTyped : Int), after.keyboard.pending ++ [0]) := by
    have read : after.view.keyboard.read 128 = _ := LineView.read_pending entered
    simp only [List.nil_append, LineView.awaitRead, read]
    rfl
  rw [early, emptied] at same
  have counts : ((0 : Nat) : Int) = ((before.view.type []).keyboard.numCharsTyped + 1 : Nat) :=
    congrArg Prod.fst (Option.some.inj same)
  omega

theorem LinePreserved.empty (preserved : LinePreserved before after)
    (emptied : after.keyboard.numCharsTyped = 0) : before.keyboard.numCharsTyped = 0 := by
  have count := preserved.erases 0
  have start : (after.type (List.replicate 0 0x0E)).keyboard.numCharsTyped = 0 := emptied
  omega

/-- What a printing key leaves pending in an empty line. -/
theorem pending_printed {view : LineView} (empty : view.keyboard.numCharsTyped = 0)
    {code char : UInt8} (edit : LineEdit.ofKey view.modifiers code = .append char) :
    (view.type [code]).keyboard.pending = [char] := by
  change ((LineEdit.ofKey view.modifiers code).apply view.keyboard).pending = [char]
  rw [edit, Keyboard.pending_append, Keyboard.pending_eq_nil empty]
  rfl

/-- The letter L is printed unless Ctrl is held. -/
theorem pending_letterL {view : LineView} (empty : view.keyboard.numCharsTyped = 0) :
    (view.type [0x26]).keyboard.pending.length = if view.modifiers.ctrl then 0 else 1 := by
  have edit : LineEdit.ofKey view.modifiers 0x26 =
      if view.modifiers.ctrl then .keep
      else .append (Console.keyChar view.modifiers.shift view.modifiers.capslock 0x26) := rfl
  cases held : view.modifiers.ctrl with
  | true =>
      rw [held] at edit
      change ((LineEdit.ofKey view.modifiers 0x26).apply view.keyboard).pending.length = 0
      rw [edit]
      exact congrArg List.length (Keyboard.pending_eq_nil empty)
  | false =>
      rw [held] at edit
      rw [pending_printed empty edit]
      rfl

theorem LinePreserved.modifiers (preserved : LinePreserved before after)
    (waiting : before.keyboard.enterPressedFlag ≠ 1)
    (emptied : after.keyboard.numCharsTyped = 0) : after.modifiers = before.modifiers := by
  have still := preserved.noEnter waiting emptied
  have empty : before.view.keyboard.numCharsTyped = 0 := preserved.empty emptied
  have cleared : after.view.keyboard.numCharsTyped = 0 := emptied
  have same (code : UInt8) (plain : Console.Plain ([code] ++ [0x1C]))
      (other : keyOf code ≠ .enter) :
      (after.view.type [code]).keyboard.pending = (before.view.type [code]).keyboard.pending := by
    refine preserved.pending waiting still plain ?_
    intro key member
    rw [List.mem_singleton.mp member]
    exact other
  have digit := same 0x02 (plain_of_mem (by simp)) (by decide)
  have letter := same 0x1E (plain_of_mem (by simp)) (by decide)
  have held := congrArg List.length (same 0x26 (plain_of_mem (by simp)) (by decide))
  rw [pending_printed cleared rfl, pending_printed empty rfl] at digit letter
  rw [pending_letterL cleared, pending_letterL empty] at held
  have chars := modifiers_of_chars _ _ _ _ (List.cons.inj digit).1 (List.cons.inj letter).1
  have ctrl : after.ctrlPressed = before.ctrlPressed := by
    change (if after.ctrlPressed then 0 else 1) = if before.ctrlPressed then 0 else 1 at held
    cases first : after.ctrlPressed <;> cases second : before.ctrlPressed <;>
      simp [first, second] at held ⊢
  have shift : after.shiftPressed = before.shiftPressed := chars.1
  have capslock : after.capslockPressed = before.capslockPressed := chars.2
  simp only [Console.modifiers, ctrl, shift, capslock]

theorem LinePreserved.behind (preserved : LinePreserved before after)
    (waiting : before.keyboard.enterPressedFlag ≠ 1)
    (emptied : after.keyboard.numCharsTyped = 0) (i : Nat) :
    after.keyboard.keyboardBuffer i = before.keyboard.keyboardBuffer i := by
  have still := preserved.noEnter waiting emptied
  have empty : before.view.keyboard.numCharsTyped = 0 := preserved.empty emptied
  have cleared : after.view.keyboard.numCharsTyped = 0 := emptied
  have keysOf : ∀ code ∈ List.replicate i (0x1E : UInt8) ++ [0x0F], code = 0x1E ∨ code = 0x0F := by
    intro code member
    simp only [List.mem_append, List.mem_replicate, List.mem_singleton] at member
    tauto
  have others : ∀ code ∈ List.replicate i 0x1E ++ [0x0F], keyOf code ≠ .enter := by
    intro code member
    rcases keysOf code member with rfl | rfl <;> decide
  have plain : Console.Plain (List.replicate i 0x1E ++ [0x0F] ++ [0x1C]) := by
    refine plain_of_mem ?_
    intro code member
    rcases List.mem_append.mp member with earlier | last
    · rcases keysOf code earlier with rfl | rfl <;> simp
    · simp [List.mem_singleton.mp last]
  have same := congrArg List.getLast? (preserved.pending waiting still plain others)
  rw [LineView.pending_letters_tab, LineView.pending_letters_tab, empty, cleared,
    Nat.zero_add] at same
  exact Option.some.inj same

/-- Two consoles with the same view preserve each other's lines. -/
theorem linePreserved_of_view (same : after.view = before.view) : LinePreserved before after where
  reads := by
    intro keys plain nbytes
    have entered : Console.Plain (keys ++ [0x1C]) := by
      intro code member
      rcases List.mem_append.mp member with earlier | last
      · exact plain code earlier
      · rw [List.mem_singleton.mp last]
        decide
    rw [awaitRead_view entered, awaitRead_view entered, same]
  erases := by
    intro presses
    have plain : Console.Plain (List.replicate presses 0x0E) := by
      refine plain_of_mem ?_
      intro code member
      simp [(List.mem_replicate.mp member).2]
    have typed : (after.type (List.replicate presses 0x0E)).view =
        after.view.type (List.replicate presses 0x0E) := view_type plain
    have count := congrArg (fun view => view.keyboard.numCharsTyped) typed
    refine count.trans ?_
    rw [same]
    exact LineView.type_backspaces before.view presses

end

/-! ## Leaving a terminal and coming back -/

/-- What happens between the last state in which an initialised terminal is displayed, and
the first in which it is again: it is left, other terminals are displayed, and the last
event returns. -/
structure Excursion (leaving returning back : Console) : Prop where
  active : (leaving.terminals leaving.currTerminalId).active
  away : ∃ first gone events,
    ConsoleStep leaving first gone ∧ gone.currTerminalId ≠ leaving.currTerminalId ∧
    Run (fun before event after => ConsoleStep before event after ∧
      after.currTerminalId ≠ leaving.currTerminalId) gone events returning
  returns : ∃ event, ConsoleStep returning event back
  displayed : back.currTerminalId = leaving.currTerminalId

/-- The terminal that was left: its record holds the line buffer. -/
structure LeftBehind (leaving console : Console) : Prop where
  away : console.currTerminalId ≠ leaving.currTerminalId
  active : (console.terminals leaving.currTerminalId).active
  buffer : ∀ i, i < 128 →
    (console.terminals leaving.currTerminalId).keyboardBuffer i =
      leaving.keyboard.keyboardBuffer i

section

variable {leaving returning back before after : Console} {event : ConsoleEvent}

/-- A step that changes the displayed terminal is a switch. -/
theorem switched_of_current (step : ConsoleStep before event after)
    (moved : after.currTerminalId ≠ before.currTerminalId) :
    after = before.quiet.terminalSwitch after.currTerminalId := by
  cases Console.step_terminals step with
  | inl same => exact absurd same.2 moved
  | inr switched =>
      obtain ⟨id, rfl⟩ := switched
      rw [Console.terminalSwitch_currTerminalId]

/-- Leaving a terminal records its line buffer. -/
theorem LeftBehind.leave (active : (leaving.terminals leaving.currTerminalId).active)
    (step : ConsoleStep leaving event after)
    (moved : after.currTerminalId ≠ leaving.currTerminalId) : LeftBehind leaving after := by
  have switched := switched_of_current step moved
  have other : after.currTerminalId ≠ leaving.quiet.currTerminalId := moved
  have record : after.terminals leaving.currTerminalId =
      leaving.quiet.saveTerminal.terminals leaving.currTerminalId := by
    rw [switched, Console.terminalSwitch_other other]
    split_ifs
    · rfl
    · exact Function.update_of_ne other.symm ..
  have saved : leaving.quiet.saveTerminal.terminals leaving.currTerminalId =
      { leaving.terminals leaving.currTerminalId with
        screenX := leaving.screenX
        screenY := leaving.screenY
        keyboardBuffer := Console.copyLine
          (leaving.terminals leaving.currTerminalId).keyboardBuffer
          leaving.keyboard.keyboardBuffer } := Function.update_self ..
  rw [saved] at record
  refine ⟨moved, ?_, ?_⟩
  · rw [record]
    exact active
  · intro i inside
    rw [record]
    exact if_pos inside

/-- While the terminal is not displayed, its record stays. -/
theorem LeftBehind.step (left : LeftBehind leaving before) (step : ConsoleStep before event after)
    (away : after.currTerminalId ≠ leaving.currTerminalId) : LeftBehind leaving after := by
  have record : after.terminals leaving.currTerminalId =
      before.terminals leaving.currTerminalId := by
    cases Console.step_terminals step with
    | inl same => rw [same.1]
    | inr switched =>
        obtain ⟨id, rfl⟩ := switched
        rw [Console.terminalSwitch_currTerminalId] at away
        exact Console.terminalSwitch_terminals_of_ne left.away.symm away.symm
  refine ⟨away, ?_, ?_⟩
  · rw [record]
    exact left.active
  · intro i inside
    rw [record]
    exact left.buffer i inside

/-- Coming back restores the 128 bytes that were left, with a count of zero. -/
theorem LeftBehind.restored (left : LeftBehind leaving returning)
    (step : ConsoleStep returning event back)
    (displayed : back.currTerminalId = leaving.currTerminalId) :
    back.keyboard = ⟨fun i => if i < 128 then leaving.keyboard.keyboardBuffer i
        else returning.keyboard.keyboardBuffer i, 0, returning.keyboard.enterPressedFlag⟩ ∧
      back.modifiers = returning.modifiers := by
  have moved : back.currTerminalId ≠ returning.currTerminalId := by
    rw [displayed]
    exact left.away.symm
  have switched := switched_of_current step moved
  rw [displayed] at switched
  have other : leaving.currTerminalId ≠ returning.quiet.currTerminalId := left.away.symm
  have flags := Console.terminalSwitch_flags returning.quiet leaving.currTerminalId
  have shown := switched.trans (Console.terminalSwitch_ready other left.active)
  constructor
  · have record : returning.quiet.saveTerminal.terminals leaving.currTerminalId =
        returning.terminals leaving.currTerminalId := Function.update_of_ne other ..
    have buffer : back.keyboard.keyboardBuffer =
        fun i => if i < 128 then leaving.keyboard.keyboardBuffer i
          else returning.keyboard.keyboardBuffer i := by
      funext i
      rw [shown]
      change (if i < 128
          then (returning.quiet.saveTerminal.terminals leaving.currTerminalId).keyboardBuffer i
          else if i < 128 then 0 else returning.keyboard.keyboardBuffer i) = _
      rw [record]
      split_ifs with inside
      · exact left.buffer i inside
      · rfl
    have count : back.keyboard.numCharsTyped = 0 := by
      rw [shown]
      rfl
    have flag : back.keyboard.enterPressedFlag = returning.keyboard.enterPressedFlag := by
      rw [shown]
      rfl
    rw [← buffer, ← count, ← flag]
  · rw [switched]
    simp only [Console.modifiers, flags]
    rfl

/-- The flag that Enter sets is 0 or 1. -/
def Console.FlagSet (console : Console) : Prop :=
  console.keyboard.enterPressedFlag = 0 ∨ console.keyboard.enterPressedFlag = 1

theorem flagSet_apply {keyboard : Keyboard} (edit : LineEdit)
    (set : keyboard.enterPressedFlag = 0 ∨ keyboard.enterPressedFlag = 1) :
    (edit.apply keyboard).enterPressedFlag = 0 ∨ (edit.apply keyboard).enterPressedFlag = 1 := by
  cases edit with
  | newline => exact .inr rfl
  | _ => exact set

theorem flagSet_step (set : before.FlagSet) (step : ConsoleStep before event after) :
    after.FlagSet := by
  unfold ConsoleStep at step
  cases event with
  | key code =>
      have handled : before.quiet.keyboardHandler code = after := Option.some.inj step
      cases target : before.quiet.switchTarget code with
      | none =>
          have edited := Console.keyboardHandler_edited target
          rw [handled] at edited
          unfold Console.FlagSet
          rw [edited.keyboard]
          exact flagSet_apply _ set
      | some id =>
          unfold Console.FlagSet
          rw [← handled, Console.keyboardHandler_switch target,
            Console.terminalSwitch_enterPressedFlag]
          exact set
  | output char =>
      have printed : before.quiet.putc char = after := Option.some.inj step
      have same : after.rest = before.quiet.rest := by rw [← printed, Console.putc_rest]
      unfold Console.FlagSet
      rw [Console.keyboard_of_rest same]
      exact set
  | read nbytes =>
      obtain ⟨result, completed, afterwards⟩ := Option.map_eq_some_iff.mp step
      rw [← afterwards]
      cases Console.read_cases completed with
      | inl nothing =>
          rw [nothing.2]
          exact set
      | inr taken =>
          rw [taken.2.2]
          exact .inl rfl
  | switchTo id =>
      have switched : before.quiet.terminalSwitch id = after := Option.some.inj step
      unfold Console.FlagSet
      rw [← switched, Console.terminalSwitch_enterPressedFlag]
      exact set

end

/-- Nothing about the line was lost or changed: it was empty when the terminal was left,
and when it comes back no Enter is pending, the modifier keys are as they were, and so is
the memory behind the 128 bytes of the buffer. -/
structure Undisturbed (leaving returning : Console) : Prop where
  empty : leaving.keyboard.numCharsTyped = 0
  noEnter : returning.keyboard.enterPressedFlag ≠ 1
  modifiers : returning.modifiers = leaving.modifiers
  behind : ∀ i, 128 ≤ i →
    returning.keyboard.keyboardBuffer i = leaving.keyboard.keyboardBuffer i

/-- A switch to the second terminal and straight back. -/
theorem excursion_second {leaving : Console} (ready : ∀ id, leaving.Ready id)
    (first : leaving.currTerminalId = 0) :
    Excursion leaving (leaving.quiet.terminalSwitch 1)
      ((leaving.quiet.terminalSwitch 1).quiet.terminalSwitch 0) where
  active := (ready leaving.currTerminalId).active
  away := by
    refine ⟨.switchTo 1, _, [], rfl, ?_, .nil _⟩
    rw [Console.terminalSwitch_currTerminalId, first]
    decide
  returns := ⟨.switchTo 0, rfl⟩
  displayed := by
    rw [Console.terminalSwitch_currTerminalId, first]

/-- An interrupted line is preserved exactly when nothing had been typed of it and nothing
typed elsewhere shows through. -/
theorem line_preserved_iff {leaving returning back : Console}
    (unfinished : leaving.keyboard.enterPressedFlag = 0)
    (excursion : Excursion leaving returning back) :
    LinePreserved leaving back ↔ Undisturbed leaving returning := by
  obtain ⟨first, gone, events, leaves, moved, run⟩ := excursion.away
  obtain ⟨last, returns⟩ := excursion.returns
  have left : LeftBehind leaving returning :=
    run.invariant (LeftBehind leaving) (fun _ _ _ left step => left.step step.1 step.2)
      (LeftBehind.leave excursion.active leaves moved)
  have set : returning.FlagSet :=
    run.invariant Console.FlagSet (fun _ _ _ set step => flagSet_step set step.1)
      (flagSet_step (.inl unfinished) leaves)
  have restored := left.restored returns excursion.displayed
  have emptied : back.keyboard.numCharsTyped = 0 := by rw [restored.1]
  have flag : back.keyboard.enterPressedFlag = returning.keyboard.enterPressedFlag := by
    rw [restored.1]
  have waiting : leaving.keyboard.enterPressedFlag ≠ 1 := by
    rw [unfinished]
    decide
  constructor
  · intro preserved
    refine ⟨preserved.empty emptied, ?_, ?_, ?_⟩
    · rw [← flag]
      exact preserved.noEnter waiting emptied
    · rw [← restored.2]
      exact preserved.modifiers waiting emptied
    · intro i above
      rw [← preserved.behind waiting emptied i, restored.1]
      exact (if_neg (by omega)).symm
  · intro undisturbed
    refine linePreserved_of_view ?_
    have keyboard : back.keyboard = leaving.keyboard := by
      rw [restored.1, set.resolve_right undisturbed.noEnter, ← unfinished, ← undisturbed.empty]
      congr 1
      funext i
      split_ifs with inside
      · rfl
      · exact undisturbed.behind i (by omega)
    simp only [Console.view, keyboard, restored.2, undisturbed.modifiers]

/-- An empty line survives a switch to the second terminal and back. -/
theorem line_preserved_empty :
    LinePreserved readyConsole
      ((readyConsole.quiet.terminalSwitch 1).quiet.terminalSwitch 0) := by
  refine (line_preserved_iff rfl (excursion_second readyConsole_ready rfl)).mpr ?_
  refine ⟨rfl, by decide, rfl, ?_⟩
  intro i above
  change (if i < 128 then (0 : UInt8) else if i < 128 then 0 else 0) = 0
  simp

/-- The first terminal with one letter typed. -/
def letterConsole : Console :=
  readyConsole.quiet.keyboardHandler 0x1E

/-- A letter typed before the switch can be neither read nor erased after it. -/
theorem line_not_always_preserved :
    ¬ ∀ leaving returning back : Console, leaving.keyboard.enterPressedFlag = 0 →
      Excursion leaving returning back → LinePreserved leaving back := by
  intro always
  have ready (id : Fin 3) : letterConsole.Ready id := ⟨rfl, rfl⟩
  have preserved := always _ _ _ rfl (excursion_second ready rfl)
  have empty : letterConsole.keyboard.numCharsTyped = 0 := preserved.empty rfl
  exact absurd empty (by decide)

end Ece391.Kernel
