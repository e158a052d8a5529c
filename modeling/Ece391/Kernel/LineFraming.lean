import Ece391.Kernel.LineEditor
import Ece391.Library.Framing

/-!
# Lines typed and lines read

The typist's view is a list of complete lines and the line being typed; `terminal_read`
should hand the lines out one by one.  The code keeps only a byte buffer, its length and a
flag, and a read takes the whole buffer.  The two views agree exactly as long as a read
finds one line in the buffer and nothing behind it, and keys do not erase or skip what the
typist has completed.
-/

namespace Ece391.Kernel

open Ece391.Library

namespace Keyboard

/-- The characters typed and not yet read. -/
def pending (keyboard : Keyboard) : List UInt8 :=
  (List.range keyboard.numCharsTyped).map keyboard.keyboardBuffer

variable {keyboard : Keyboard}

theorem pending_eq_nil (empty : keyboard.numCharsTyped = 0) : keyboard.pending = [] := by
  simp [pending, empty]

/-- Storing a character at the count and raising the count appends it. -/
theorem pending_store (keyboard : Keyboard) (char : UInt8) (flag : Int) :
    pending ⟨Function.update keyboard.keyboardBuffer keyboard.numCharsTyped char,
      keyboard.numCharsTyped + 1, flag⟩ = keyboard.pending ++ [char] := by
  simp only [pending, List.range_succ, List.map_append, List.map_cons, List.map_nil,
    Function.update_self]
  congr 1
  refine List.map_congr_left ?_
  intro i member
  have below := List.mem_range.mp member
  exact Function.update_of_ne (by omega) ..

theorem pending_append (char : UInt8) :
    ((LineEdit.append char).apply keyboard).pending = keyboard.pending ++ [char] :=
  pending_store ..

theorem pending_newline : (LineEdit.newline.apply keyboard).pending = keyboard.pending ++ [10] :=
  pending_store ..

/-- A gap appends the byte that happens to be in the buffer. -/
theorem pending_gap : (LineEdit.gap.apply keyboard).pending =
    keyboard.pending ++ [keyboard.keyboardBuffer keyboard.numCharsTyped] := by
  have same : (LineEdit.gap.apply keyboard).pending =
      (List.range (keyboard.numCharsTyped + 1)).map keyboard.keyboardBuffer := by
    refine List.map_congr_left ?_
    intro i member
    have below : i < keyboard.numCharsTyped + 1 := List.mem_range.mp member
    exact Function.update_of_ne (by omega) ..
  rw [same, List.range_succ, List.map_append]
  rfl

theorem pending_erase : (LineEdit.erase.apply keyboard).pending = keyboard.pending.dropLast := by
  simp only [pending, LineEdit.apply]
  cases keyboard.numCharsTyped with
  | zero => rfl
  | succ n => simp [List.range_succ]

end Keyboard

/-! ## The typist's view -/

/-- The console, the complete lines in the order they were typed, the line being typed, and
what the completed reads have returned. -/
structure Typist where
  console : Console
  typed : List (List UInt8)
  line : List UInt8
  reads : List (List UInt8)

/-- What a key means to the typist: Enter completes the line, and Backspace erases only in
the line being typed. -/
def Typist.edit (typist : Typist) : LineEdit → Typist
  | .append char => { typist with line := typist.line ++ [char] }
  | .newline => { typist with typed := typist.typed ++ [typist.line ++ [10]], line := [] }
  | .gap => { typist with line := typist.line ++ [9] }
  | .erase => { typist with line := typist.line.dropLast }
  | .keep => typist

inductive LineEvent where
  | key (code : UInt8)
  | read (nbytes : Int)
  deriving DecidableEq, Repr

/-- A key, which leaves fewer than 127 characters pending, or a completed read into a
buffer of at least 128 bytes. -/
inductive FramingStep : Typist → LineEvent → Typist → Prop where
  | key {before : Typist} {code : UInt8} {after : Console}
      (pressed : ConsoleStep before.console (.key code) after)
      (short : after.keyboard.numCharsTyped < 127) :
      FramingStep before (.key code)
        { before.edit (LineEdit.ofKey before.console.modifiers code) with console := after }
  | read {before : Typist} {nbytes : Int} {result : Int × List UInt8 × Console}
      (large : 128 ≤ nbytes)
      (completed : before.console.quiet.read nbytes = some result) :
      FramingStep before (.read nbytes)
        { before with
          console := result.2.2
          reads := before.reads ++ [result.2.1.take result.1.toNat] }

namespace Typist

/-- Each completed read returned the line typed at its place, and what is pending is what
was typed and not read. -/
structure Faithful (typist : Typist) : Prop where
  delivered : typist.reads <+: typist.typed
  pending : typist.console.keyboard.pending =
    (typist.typed.drop typist.reads.length).flatten ++ typist.line

/-- A faithful state in which the typist's lines are lines, and the flag says whether one
is complete. -/
structure Framed (typist : Typist) : Prop extends Faithful typist where
  lines : ∀ line ∈ typist.typed, IsLine 10 line
  noNewline : 10 ∉ typist.line
  flag : typist.console.keyboard.enterPressedFlag = 1 ↔
    typist.reads.length < typist.typed.length

/-- Nothing has been typed or read. -/
structure Fresh (typist : Typist) : Prop where
  empty : typist.console.keyboard.numCharsTyped = 0
  flag : typist.console.keyboard.enterPressedFlag = 0
  typed : typist.typed = []
  line : typist.line = []
  reads : typist.reads = []

end Typist

/-- The edits after which the buffer still holds what the typist sees. -/
def LineEdit.KeepsFrame (keyboard : Keyboard) : LineEdit → Prop
  | .append _ => True
  | .newline => True
  | .gap => keyboard.keyboardBuffer keyboard.numCharsTyped = 9
  | .erase => keyboard.pending.getLast? ≠ some 10
  | .keep => True

/-- A read finds exactly one line.  Backspace does not meet a newline, Tab does not skip a
byte (unless a tab happens to be there), and terminals are switched with nothing pending. -/
def FramingStep.Allowed (before : Typist) : LineEvent → Prop
  | .key code =>
      match before.console.switchTarget code with
      | some id =>
          id = before.console.currTerminalId ∨ before.console.keyboard.pending = []
      | none =>
          (LineEdit.ofKey before.console.modifiers code).KeepsFrame before.console.keyboard
  | .read _ => IsLine 10 before.console.keyboard.pending

/-! ## Keys -/

section

variable {before : Typist} {after : Console} {code : UInt8}

/-- No key but Enter types a newline. -/
theorem keyChar_ne_newline :
    ∀ (shift capslock : Bool) (code : UInt8), Console.keyChar shift capslock code ≠ 10 :=
  forall_bool_code (by decide +kernel)

theorem ofKey_append_ne_newline {modifiers : Modifiers} {char : UInt8}
    (edit : LineEdit.ofKey modifiers code = .append char) : char ≠ 10 := by
  have typed : Console.keyChar modifiers.shift modifiers.capslock code = char := by
    simp only [LineEdit.ofKey] at edit
    generalize keyOf code = key at edit
    cases key with
    | letterL =>
        cases held : modifiers.ctrl with
        | true => simp [held] at edit
        | false => simpa [held] using edit
    | other =>
        simp only at edit
        split_ifs at edit
        exact LineEdit.append.inj edit
    | _ => cases edit
  rw [← typed]
  exact keyChar_ne_newline _ _ _

/-- An edit of the line keeps the state faithful exactly when it keeps the frame. -/
theorem Typist.Framed.edit_iff (framed : before.Framed) {edit : LineEdit}
    (edited : after.keyboard = edit.apply before.console.keyboard) :
    { before.edit edit with console := after }.Faithful ↔
      edit.KeepsFrame before.console.keyboard := by
  have delivered := framed.delivered
  have pending := framed.pending
  cases edit with
  | append char =>
      refine iff_of_true ⟨delivered, ?_⟩ trivial
      change after.keyboard.pending = _ ++ (before.line ++ [char])
      rw [edited, Keyboard.pending_append, pending, List.append_assoc]
      rfl
  | newline =>
      refine iff_of_true ⟨delivered.trans (List.prefix_append ..), ?_⟩ trivial
      change after.keyboard.pending =
        ((before.typed ++ [before.line ++ [10]]).drop before.reads.length).flatten ++ []
      rw [edited, Keyboard.pending_newline, pending,
        List.drop_append_of_le_length delivered.length_le]
      simp
  | gap =>
      constructor
      · intro faithful
        have same := faithful.pending
        change after.keyboard.pending = _ ++ (before.line ++ [9]) at same
        rw [edited, Keyboard.pending_gap, pending, List.append_assoc] at same
        have lasts := List.append_cancel_left (List.append_cancel_left same)
        exact (List.cons.inj lasts).1
      · intro tab
        refine ⟨delivered, ?_⟩
        change after.keyboard.pending = _ ++ (before.line ++ [9])
        rw [edited, Keyboard.pending_gap, tab, pending, List.append_assoc]
        rfl
  | erase =>
      have lines : ∀ line ∈ before.typed.drop before.reads.length, IsLine 10 line :=
        fun line member => framed.lines line (List.mem_of_mem_drop member)
      have erased := dropLast_stream_iff lines framed.noNewline
      rw [← pending] at erased
      refine Iff.trans ?_ erased
      have dropped : after.keyboard.pending = before.console.keyboard.pending.dropLast := by
        rw [edited, Keyboard.pending_erase]
      constructor
      · intro faithful
        exact dropped.symm.trans faithful.pending
      · intro same
        exact ⟨delivered, dropped.trans same⟩
  | keep =>
      refine iff_of_true ⟨delivered, ?_⟩ trivial
      rw [edited]
      exact pending

/-- The typist's lines stay lines, and the flag still says whether one is complete. -/
theorem Typist.Framed.edited (framed : before.Framed) {modifiers : Modifiers}
    (edited : after.keyboard = (LineEdit.ofKey modifiers code).apply before.console.keyboard)
    (faithful : { before.edit (LineEdit.ofKey modifiers code) with console := after }.Faithful) :
    { before.edit (LineEdit.ofKey modifiers code) with console := after }.Framed := by
  have flag := framed.flag
  have kept := congrArg Keyboard.enterPressedFlag edited
  cases edit : LineEdit.ofKey modifiers code with
  | append char =>
      rw [edit] at kept faithful
      have plain := ofKey_append_ne_newline edit
      refine ⟨faithful, framed.lines, ?_, ?_⟩
      · intro member
        cases List.mem_append.mp member with
        | inl earlier => exact framed.noNewline earlier
        | inr last => exact plain (List.mem_singleton.mp last).symm
      · rw [kept]
        exact flag
  | newline =>
      rw [edit] at kept faithful
      refine ⟨faithful, ?_, List.not_mem_nil, ?_⟩
      · intro line member
        cases List.mem_append.mp member with
        | inl earlier => exact framed.lines line earlier
        | inr last => exact ⟨before.line, framed.noNewline, List.mem_singleton.mp last⟩
      · rw [kept]
        have short := framed.delivered.length_le
        refine iff_of_true rfl ?_
        change before.reads.length < (before.typed ++ [before.line ++ [10]]).length
        rw [List.length_append, List.length_singleton]
        omega
  | gap =>
      rw [edit] at kept faithful
      refine ⟨faithful, framed.lines, ?_, ?_⟩
      · intro member
        cases List.mem_append.mp member with
        | inl earlier => exact framed.noNewline earlier
        | inr last => exact absurd (List.mem_singleton.mp last) (by decide)
      · rw [kept]
        exact flag
  | erase =>
      rw [edit] at kept faithful
      refine ⟨faithful, framed.lines, fun member => ?_, ?_⟩
      · exact framed.noNewline (List.mem_of_mem_dropLast member)
      · rw [kept]
        exact flag
  | keep =>
      rw [edit] at kept faithful
      refine ⟨faithful, framed.lines, framed.noNewline, ?_⟩
      rw [kept]
      exact flag

/-- Switching to another terminal drops what is pending. -/
theorem Typist.Framed.switch_iff (framed : before.Framed) {id : Fin 3}
    (switched : after = before.console.quiet.terminalSwitch id) :
    { before with console := after }.Faithful ↔
      id = before.console.currTerminalId ∨ before.console.keyboard.pending = [] := by
  by_cases same : id = before.console.currTerminalId
  · refine iff_of_true ⟨framed.delivered, ?_⟩ (.inl same)
    have unchanged : after = before.console.quiet :=
      switched.trans (Console.terminalSwitch_same same)
    rw [unchanged]
    exact framed.pending
  · have other : id ≠ before.console.quiet.currTerminalId := same
    have none : after.keyboard.pending = [] := by
      rw [switched]
      exact Keyboard.pending_eq_nil (Console.terminalSwitch_numCharsTyped other)
    constructor
    · intro faithful
      exact .inr (framed.pending.trans (faithful.pending.symm.trans none))
    · intro allowed
      have empty := allowed.resolve_left same
      exact ⟨framed.delivered, none.trans (empty.symm.trans framed.pending)⟩

theorem Typist.Framed.switched (framed : before.Framed) {id : Fin 3}
    (switched : after = before.console.quiet.terminalSwitch id)
    (faithful : { before with console := after }.Faithful) :
    { before with console := after }.Framed := by
  refine ⟨faithful, framed.lines, framed.noNewline, ?_⟩
  rw [switched, Console.terminalSwitch_enterPressedFlag]
  exact framed.flag

end

/-! ## Reads -/

section

variable {before : Typist} {nbytes : Int} {result : Int × List UInt8 × Console}

/-- A read of at least 128 bytes returns all that is pending and leaves nothing. -/
theorem read_large {console : Console} (large : 128 ≤ nbytes)
    (completed : console.read nbytes = some result) :
    console.keyboard.enterPressedFlag = 1 ∧
      result.2.1.take result.1.toNat = console.keyboard.pending ∧
      result.2.2.keyboard.pending = [] ∧ result.2.2.keyboard.enterPressedFlag = 0 := by
  simp only [Console.read, terminalRead] at completed
  split_ifs at completed with zero waiting small
  · omega
  · cases completed
  · omega
  · cases completed
    refine ⟨not_not.mp waiting, ?_, Keyboard.pending_eq_nil rfl, rfl⟩
    have length : console.keyboard.pending.length = console.keyboard.numCharsTyped := by
      simp [Keyboard.pending]
    change (console.keyboard.pending ++ [0]).take console.keyboard.numCharsTyped = _
    rw [← length, List.take_left]

/-- A read keeps the state faithful exactly when one line is pending, and nothing else. -/
theorem Typist.Framed.read_iff (framed : before.Framed) (large : 128 ≤ nbytes)
    (completed : before.console.quiet.read nbytes = some result) :
    { before with
      console := result.2.2
      reads := before.reads ++ [result.2.1.take result.1.toNat] }.Faithful ↔
      IsLine 10 before.console.keyboard.pending := by
  obtain ⟨waiting, returned, emptied, -⟩ := read_large large completed
  have flag : before.console.keyboard.enterPressedFlag = 1 := waiting
  have complete := framed.flag.mp flag
  have lines : ∀ line ∈ before.typed.drop before.reads.length, IsLine 10 line :=
    fun line member => framed.lines line (List.mem_of_mem_drop member)
  have content : before.console.quiet.keyboard.pending = before.console.keyboard.pending := rfl
  have typed : before.reads ++ before.typed.drop before.reads.length = before.typed :=
    List.prefix_iff_eq_append.mp framed.delivered
  have next := List.drop_eq_getElem_cons complete
  rw [framed.pending, isLine_stream_iff lines framed.noNewline, returned, content]
  constructor
  · intro faithful
    have rest := faithful.pending
    change result.2.2.keyboard.pending =
      (before.typed.drop (before.reads ++ [before.console.keyboard.pending]).length).flatten ++
        before.line at rest
    rw [emptied, List.length_append, List.length_singleton] at rest
    have none := List.append_eq_nil_iff.mp rest.symm
    have later : ∀ line ∈ before.typed.drop (before.reads.length + 1), IsLine 10 line :=
      fun line member => framed.lines line (List.mem_of_mem_drop member)
    rw [flatten_lines_eq_nil later none.1] at next
    exact ⟨_, next, none.2⟩
  · rintro ⟨line, only, none⟩
    rw [only] at next
    have later := (List.cons.inj next).2
    constructor
    · change before.reads ++ [before.console.keyboard.pending] <+: before.typed
      rw [framed.pending, none, ← typed, only]
      simp
    · change result.2.2.keyboard.pending =
        (before.typed.drop (before.reads ++ [before.console.keyboard.pending]).length).flatten ++
          before.line
      rw [emptied, List.length_append, List.length_singleton, ← later, none]
      rfl

theorem Typist.Framed.read (framed : before.Framed) (large : 128 ≤ nbytes)
    (completed : before.console.quiet.read nbytes = some result)
    (faithful : { before with
      console := result.2.2
      reads := before.reads ++ [result.2.1.take result.1.toNat] }.Faithful) :
    { before with
      console := result.2.2
      reads := before.reads ++ [result.2.1.take result.1.toNat] }.Framed := by
  obtain ⟨-, -, emptied, flag⟩ := read_large large completed
  refine ⟨faithful, framed.lines, framed.noNewline, iff_of_false ?_ ?_⟩
  · change ¬ result.2.2.keyboard.enterPressedFlag = 1
    rw [flag]
    decide
  · have rest := faithful.pending.symm.trans emptied
    have later : ∀ line ∈ before.typed.drop
        (before.reads ++ [result.2.1.take result.1.toNat]).length, IsLine 10 line :=
      fun line member => framed.lines line (List.mem_of_mem_drop member)
    have none := flatten_lines_eq_nil later (List.append_eq_nil_iff.mp rest).1
    exact Nat.not_lt.mpr (List.drop_eq_nil_iff.mp none)

end

/-! ## Runs -/

section

variable {before after : Typist} {event : LineEvent}

theorem FramingStep.faithful_iff (framed : before.Framed)
    (step : FramingStep before event after) :
    after.Faithful ↔ FramingStep.Allowed before event := by
  cases step with
  | key pressed short =>
      rename_i code console
      have handled : before.console.quiet.keyboardHandler code = console :=
        Option.some.inj pressed
      simp only [FramingStep.Allowed]
      cases target : before.console.quiet.switchTarget code with
      | none =>
          have edited := Console.keyboardHandler_edited target
          rw [handled] at edited
          rw [show before.console.switchTarget code = none from target]
          exact framed.edit_iff edited.keyboard
      | some id =>
          have switched := handled.symm.trans (Console.keyboardHandler_switch target)
          rw [show before.console.switchTarget code = some id from target,
            Console.ofKey_of_switch target]
          exact framed.switch_iff switched
  | read large completed => exact framed.read_iff large completed

theorem FramingStep.framed (framed : before.Framed) (step : FramingStep before event after)
    (faithful : after.Faithful) : after.Framed := by
  cases step with
  | key pressed short =>
      rename_i code console
      have handled : before.console.quiet.keyboardHandler code = console :=
        Option.some.inj pressed
      cases target : before.console.quiet.switchTarget code with
      | none =>
          have edited := Console.keyboardHandler_edited target
          rw [handled] at edited
          exact framed.edited edited.keyboard faithful
      | some id =>
          have switched := handled.symm.trans (Console.keyboardHandler_switch target)
          rw [Console.ofKey_of_switch target] at faithful ⊢
          exact framed.switched switched faithful
  | read large completed => exact framed.read large completed faithful

end

theorem Typist.Fresh.framed {typist : Typist} (fresh : typist.Fresh) : typist.Framed where
  delivered := by
    rw [fresh.reads]
    exact List.nil_prefix
  pending := by
    rw [Keyboard.pending_eq_nil fresh.empty, fresh.typed, fresh.line, List.drop_nil]
    rfl
  lines := by
    intro line member
    rw [fresh.typed] at member
    cases member
  noNewline := by
    rw [fresh.line]
    exact List.not_mem_nil
  flag := by
    rw [fresh.flag, fresh.typed, fresh.reads]
    decide

/-- A typist at a console that has just been initialised. -/
def freshTypist : Typist :=
  ⟨Console.bss fun _ => 0, [], [], []⟩

theorem freshTypist_fresh : freshTypist.Fresh :=
  ⟨rfl, rfl, rfl, rfl, rfl⟩

/-- The typist after a key. -/
def Typist.press (typist : Typist) (code : UInt8) : Typist :=
  { typist.edit (LineEdit.ofKey typist.console.modifiers code) with
    console := typist.console.quiet.keyboardHandler code }

theorem Typist.press_step (typist : Typist) (code : UInt8)
    (short : (typist.press code).console.keyboard.numCharsTyped < 127) :
    FramingStep typist (.key code) (typist.press code) :=
  .key rfl short

/-- Through a run of keys and reads, every read returns the line typed at its place and
nothing is lost, exactly when each event is allowed. -/
theorem lines_faithful_iff_allowed {start last : Typist} {events : List LineEvent}
    (fresh : start.Fresh) :
    Run (fun before event after => FramingStep before event after ∧ after.Faithful)
        start events last ↔
      Run (fun before event after => FramingStep before event after ∧
          FramingStep.Allowed before event)
        start events last :=
  Run.good_iff_allowed Typist.Framed (fun _ _ after => after.Faithful) FramingStep.Allowed
    (fun _ _ _ framed step => step.faithful_iff framed)
    (fun _ _ _ framed step faithful => step.framed framed faithful)
    fresh.framed

/-- The typist after a read of 128 bytes, if it completes. -/
def Typist.readLine (typist : Typist) : Typist :=
  match typist.console.quiet.read 128 with
  | none => typist
  | some result =>
      { typist with
        console := result.2.2
        reads := typist.reads ++ [result.2.1.take result.1.toNat] }

theorem Typist.readLine_step {typist : Typist}
    (entered : typist.console.keyboard.enterPressedFlag = 1) :
    FramingStep typist (.read 128) typist.readLine := by
  obtain ⟨result, completed⟩ : ∃ result, typist.console.quiet.read 128 = some result := by
    have waits : ¬typist.console.quiet.keyboard.enterPressedFlag ≠ 1 := not_not.mpr entered
    simp only [Console.read, terminalRead, if_neg waits]
    exact ⟨_, rfl⟩
  rw [Typist.readLine, completed]
  exact .read (le_refl 128) completed

/-- A key that switches no terminal is allowed if what it means keeps the frame. -/
theorem FramingStep.allowed_key {before : Typist} {code : UInt8} {edit : LineEdit}
    (stays : before.console.switchTarget code = none)
    (means : LineEdit.ofKey before.console.modifiers code = edit)
    (keeps : edit.KeepsFrame before.console.keyboard) :
    FramingStep.Allowed before (.key code) := by
  simp only [FramingStep.Allowed, stays, means]
  exact keeps

/-- A typist who has typed a line, with a letter taken back. -/
def enteredTypist : Typist :=
  (((freshTypist.press 0x1E).press 0x30).press 0x0E).press 0x1C

/-- The same one after a read and a second line. -/
def secondTypist : Typist :=
  (enteredTypist.readLine.press 0x30).press 0x1C

/-- A line typed with a letter taken back, and read, and a second line. -/
theorem lines_faithful_enter :
    ∃ last, Run (fun before event after => FramingStep before event after ∧ after.Faithful)
        freshTypist [.key 0x1E, .key 0x30, .key 0x0E, .key 0x1C, .read 128, .key 0x30, .key 0x1C,
          .read 128] last ∧
      last.typed = [[97, 10], [98, 10]] ∧ last.reads = last.typed := by
  refine ⟨secondTypist.readLine, (lines_faithful_iff_allowed freshTypist_fresh).mpr ?_,
    by decide, by decide⟩
  have erased : ((freshTypist.press 0x1E).press 0x30).console.keyboard.pending.getLast? ≠
      some 10 := by decide
  have first : Run (fun before event after => FramingStep before event after ∧
      FramingStep.Allowed before event) freshTypist
        [.key 0x1E, .key 0x30, .key 0x0E, .key 0x1C] enteredTypist :=
    .cons ⟨Typist.press_step _ 0x1E (by decide), FramingStep.allowed_key rfl rfl trivial⟩
      (.cons ⟨Typist.press_step _ 0x30 (by decide), FramingStep.allowed_key rfl rfl trivial⟩
        (.cons ⟨Typist.press_step _ 0x0E (by decide), FramingStep.allowed_key rfl rfl erased⟩
          (.single ⟨Typist.press_step _ 0x1C (by decide),
            FramingStep.allowed_key rfl rfl trivial⟩)))
  have line : IsLine 10 enteredTypist.console.keyboard.pending := ⟨[97], by decide, by decide⟩
  have line' : IsLine 10 secondTypist.console.keyboard.pending := ⟨[98], by decide, by decide⟩
  have second : Run (fun before event after => FramingStep before event after ∧
      FramingStep.Allowed before event) enteredTypist
        [.read 128, .key 0x30, .key 0x1C, .read 128] secondTypist.readLine :=
    .cons ⟨Typist.readLine_step (by decide), line⟩
      (.cons ⟨Typist.press_step _ 0x30 (by decide), FramingStep.allowed_key rfl rfl trivial⟩
        (.cons ⟨Typist.press_step _ 0x1C (by decide), FramingStep.allowed_key rfl rfl trivial⟩
          (.single ⟨Typist.readLine_step (by decide), line'⟩)))
  exact first.append second

/-- A typist who has typed Enter and a letter. -/
def aheadTypist : Typist :=
  (freshTypist.press 0x1C).press 0x17

/-- A letter typed after Enter and before the read is delivered with the line before it. -/
theorem lines_not_always_faithful :
    ¬ ∀ (start last : Typist) (events : List LineEvent),
      start.Fresh → Run FramingStep start events last → last.Faithful := by
  intro always
  obtain ⟨result, completed⟩ : ∃ result, aheadTypist.console.quiet.read 128 = some result :=
    ⟨_, rfl⟩
  have run := Run.cons (freshTypist.press_step 0x1C (by decide))
    (.cons ((freshTypist.press 0x1C).press_step 0x17 (by decide))
      (.single (.read (le_refl 128) completed)))
  have delivered := (always _ _ _ freshTypist_fresh run).delivered
  rw [(read_large (le_refl 128) completed).2.1] at delivered
  change aheadTypist.reads ++ [aheadTypist.console.quiet.keyboard.pending] <+:
    aheadTypist.typed at delivered
  exact absurd delivered (by decide)

end Ece391.Kernel
