import Ece391.Kernel.LineEditor

/-!
# Bounds of the line buffer

The handlers that store a character do not compare the count with the size of the buffer,
and Tab raises the count before it stores.  The line therefore stays sound exactly as long
as no Tab is pressed and no character is typed into a full buffer.
-/

namespace Ece391.Kernel

open Ece391.Library

/-- The console with the indices of the buffer that hold a character of the current
line: stored to since the line began, and not erased since. -/
structure LineState where
  console : Console
  owned : Nat → Prop

/-- An event at the console.  The line owns what it owned or stored to, as far as it is
still below the count. -/
def LineStep (before : LineState) (event : ConsoleEvent) (after : LineState) : Prop :=
  ConsoleStep before.console event after.console ∧
    ∀ i, after.owned i ↔
      i < after.console.keyboard.numCharsTyped ∧
        (before.owned i ∨ i ∈ after.console.bufferStores)

namespace LineState

/-- The event stored inside the buffer, the count is within its size, and the line owns
every byte below the count. -/
structure Sound (state : LineState) : Prop where
  inside : ∀ i ∈ state.console.bufferStores, i < 128
  bounded : state.console.keyboard.numCharsTyped ≤ 128
  complete : ∀ i, i < state.console.keyboard.numCharsTyped → state.owned i

/-- The line is empty. -/
structure Empty (state : LineState) : Prop where
  typed : state.console.keyboard.numCharsTyped = 0
  owned : ∀ i, ¬ state.owned i

/-- The line owns exactly the bytes below the count, which is within the buffer. -/
structure Counted (state : LineState) : Prop where
  bounded : state.console.keyboard.numCharsTyped ≤ 128
  owned : ∀ i, state.owned i ↔ i < state.console.keyboard.numCharsTyped

end LineState

/-- An edit with room: no gap, and no character beyond the buffer. -/
def LineEdit.HasRoom (typed : Nat) : LineEdit → Prop
  | .append _ => typed < 128
  | .newline => typed < 128
  | .gap => False
  | .erase => True
  | .keep => True

/-- No Tab is pressed, and a key that stores a character is pressed only while fewer
than 128 have been typed. -/
def LineStep.Allowed (before : LineState) (event : ConsoleEvent) : Prop :=
  ∀ code, event = .key code →
    (LineEdit.ofKey before.console.modifiers code).HasRoom before.console.keyboard.numCharsTyped

/-! ## One event -/

section

variable {before after : LineState} {event : ConsoleEvent}

theorem LineState.Empty.counted {state : LineState} (empty : state.Empty) : state.Counted where
  bounded := by
    rw [empty.typed]
    omega
  owned := by
    intro i
    have none := empty.owned i
    simp [none, empty.typed]

/-- After a sound step the line owns no byte at or above the count either. -/
theorem LineStep.counted (step : LineStep before event after) (sound : after.Sound) :
    after.Counted where
  bounded := sound.bounded
  owned := by
    intro i
    constructor
    · intro owned
      exact ((step.2 i).mp owned).1
    · exact sound.complete i

/-- An event that does not raise the count and stores nothing keeps the line sound. -/
theorem LineStep.sound_of_shorter (counted : before.Counted) (step : LineStep before event after)
    (typed : after.console.keyboard.numCharsTyped ≤ before.console.keyboard.numCharsTyped)
    (stored : after.console.bufferStores = []) : after.Sound where
  inside := by simp [stored]
  bounded := typed.trans counted.bounded
  complete := by
    intro i below
    rw [step.2 i, counted.owned i]
    exact ⟨below, .inl (Nat.lt_of_lt_of_le below typed)⟩

/-- So does an event that empties the line. -/
theorem LineStep.sound_of_emptied (typed : after.console.keyboard.numCharsTyped = 0)
    (stored : ∀ i ∈ after.console.bufferStores, i < 128) : after.Sound where
  inside := stored
  bounded := by omega
  complete := by
    intro i below
    omega

/-- A character stored at the count keeps it sound exactly when it is stored inside. -/
theorem LineStep.sound_of_typed (counted : before.Counted) (step : LineStep before event after)
    (typed : after.console.keyboard.numCharsTyped = before.console.keyboard.numCharsTyped + 1)
    (stored : after.console.bufferStores = [before.console.keyboard.numCharsTyped]) :
    after.Sound ↔ before.console.keyboard.numCharsTyped < 128 := by
  constructor
  · intro sound
    exact sound.inside _ (by simp [stored])
  · intro room
    constructor
    · intro i membership
      rw [stored, List.mem_singleton] at membership
      omega
    · omega
    · intro i below
      rw [step.2 i, counted.owned i, stored, List.mem_singleton]
      omega

/-- A gap is never sound: the byte it skips belongs to no key. -/
theorem LineStep.not_sound_of_gap (counted : before.Counted) (step : LineStep before event after)
    (typed : after.console.keyboard.numCharsTyped = before.console.keyboard.numCharsTyped + 1)
    (stored : after.console.bufferStores = [before.console.keyboard.numCharsTyped + 1]) :
    ¬ after.Sound := by
  intro sound
  have owned := sound.complete before.console.keyboard.numCharsTyped (by omega)
  rw [step.2, counted.owned, stored, List.mem_singleton] at owned
  omega

/-- An edit of the line keeps it sound exactly when it has room. -/
theorem LineStep.sound_of_edit (counted : before.Counted) (step : LineStep before event after)
    {edit : LineEdit}
    (typed : after.console.keyboard = edit.apply before.console.keyboard)
    (stored : after.console.bufferStores =
      edit.stores before.console.keyboard.numCharsTyped) :
    after.Sound ↔ edit.HasRoom before.console.keyboard.numCharsTyped := by
  have count := congrArg Keyboard.numCharsTyped typed
  cases edit with
  | append char => exact step.sound_of_typed counted count stored
  | newline => exact step.sound_of_typed counted count stored
  | gap => exact iff_false_intro (step.not_sound_of_gap counted count stored)
  | erase =>
      have shorter := count.le.trans (Nat.sub_le ..)
      exact iff_true_intro (step.sound_of_shorter counted shorter stored)
  | keep => exact iff_true_intro (step.sound_of_shorter counted count.le stored)

/-- A switch of terminals keeps the line sound. -/
theorem LineStep.sound_of_switch (counted : before.Counted) (step : LineStep before event after)
    {id : Fin 3} (switched : after.console = before.console.quiet.terminalSwitch id) :
    after.Sound := by
  by_cases same : id = before.console.currTerminalId
  · have unchanged := switched.trans (Console.terminalSwitch_same same)
    have typed : after.console.keyboard.numCharsTyped =
        before.console.keyboard.numCharsTyped := by
      rw [unchanged]
      rfl
    have stored : after.console.bufferStores = [] := by
      rw [unchanged]
      rfl
    exact step.sound_of_shorter counted typed.le stored
  · have other : id ≠ before.console.quiet.currTerminalId := same
    refine LineStep.sound_of_emptied ?_ ?_
    · rw [switched]
      exact Console.terminalSwitch_numCharsTyped other
    · intro i stored
      rw [switched] at stored
      cases Console.terminalSwitch_bufferStores other stored with
      | inl inside => exact inside
      | inr earlier => cases earlier

/-- A completed read keeps the line sound. -/
theorem LineStep.sound_of_read (counted : before.Counted) (step : LineStep before event after)
    {nbytes : Int} {result : Int × List UInt8 × Console}
    (completed : before.console.quiet.read nbytes = some result)
    (afterwards : result.2.2 = after.console) : after.Sound := by
  cases Console.read_cases completed with
  | inl nothing =>
      have unchanged := afterwards.symm.trans nothing.2
      refine step.sound_of_shorter counted ?_ ?_
      · rw [unchanged]
        exact le_refl before.console.keyboard.numCharsTyped
      · rw [unchanged]
        rfl
  | inr taken =>
      have emptied := afterwards.symm.trans taken.2.2
      refine LineStep.sound_of_emptied ?_ ?_
      · rw [emptied]
        rfl
      · intro i stored
        rw [emptied] at stored
        have cleared : i ∈ List.range 128 ++ [] := stored
        rw [List.append_nil] at cleared
        exact List.mem_range.mp cleared

/-- One event keeps the line sound exactly when it is allowed. -/
theorem LineStep.sound_iff (counted : before.Counted) (step : LineStep before event after) :
    after.Sound ↔ LineStep.Allowed before event := by
  have reacted := step.1
  unfold ConsoleStep at reacted
  cases event with
  | key code =>
      have handled : before.console.quiet.keyboardHandler code = after.console :=
        Option.some.inj reacted
      have allowed_iff : LineStep.Allowed before (.key code) ↔
          (LineEdit.ofKey before.console.modifiers code).HasRoom
            before.console.keyboard.numCharsTyped :=
        ⟨fun allowed => allowed code rfl, fun room _ same => by cases same; exact room⟩
      rw [allowed_iff]
      cases target : before.console.quiet.switchTarget code with
      | none =>
          have edited := Console.keyboardHandler_edited target
          rw [handled] at edited
          have stored := edited.bufferStores.trans (List.append_nil _)
          exact step.sound_of_edit counted edited.keyboard stored
      | some id =>
          have switched := handled.symm.trans (Console.keyboardHandler_switch target)
          rw [Console.ofKey_of_switch target]
          exact iff_of_true (step.sound_of_switch counted switched) trivial
  | output char =>
      have printed : before.console.quiet.putc char = after.console := Option.some.inj reacted
      have same : after.console.rest = before.console.quiet.rest := by
        rw [← printed, Console.putc_rest]
      have sound : after.Sound := by
        refine step.sound_of_shorter counted ?_ (Console.bufferStores_of_rest same)
        rw [Console.keyboard_of_rest same]
        exact le_refl before.console.keyboard.numCharsTyped
      exact iff_of_true sound (fun _ same => by cases same)
  | read nbytes =>
      obtain ⟨result, completed, afterwards⟩ := Option.map_eq_some_iff.mp reacted
      exact iff_of_true (step.sound_of_read counted completed afterwards)
        (fun _ same => by cases same)
  | switchTo id =>
      have switched : before.console.quiet.terminalSwitch id = after.console :=
        Option.some.inj reacted
      exact iff_of_true (step.sound_of_switch counted switched.symm)
        (fun _ same => by cases same)

end

/-! ## Runs -/

/-- The state after a key. -/
def LineState.press (state : LineState) (code : UInt8) : LineState :=
  let console := state.console.quiet.keyboardHandler code
  ⟨console, fun i =>
    i < console.keyboard.numCharsTyped ∧ (state.owned i ∨ i ∈ console.bufferStores)⟩

theorem LineState.press_step (state : LineState) (code : UInt8) :
    LineStep state (.key code) (state.press code) :=
  ⟨rfl, fun _ => Iff.rfl⟩

/-- The line at boot. -/
def bootLine : LineState :=
  ⟨Console.entry (fun _ => 0) [], fun _ => False⟩

theorem bootLine_empty : bootLine.Empty where
  typed := by
    simp only [bootLine]
    rw [Console.keyboard_of_rest (Console.entry_rest _ _)]
    rfl
  owned := fun _ owned => owned

/-- The line stays sound through a run of events exactly when each of them is allowed. -/
theorem line_sound_iff_allowed {start last : LineState} {events : List ConsoleEvent}
    (empty : start.Empty) :
    Run (fun before event after => LineStep before event after ∧ after.Sound)
        start events last ↔
      Run (fun before event after => LineStep before event after ∧
          LineStep.Allowed before event)
        start events last :=
  Run.good_iff_allowed LineState.Counted (fun _ _ after => after.Sound) LineStep.Allowed
    (fun _ _ _ counted step => step.sound_iff counted)
    (fun _ _ _ _ step sound => step.counted sound)
    empty.counted

/-- A letter typed at boot. -/
theorem line_sound_letter :
    Run (fun before event after => LineStep before event after ∧ after.Sound)
      bootLine [.key 0x1E] (bootLine.press 0x1E) := by
  refine (line_sound_iff_allowed bootLine_empty).mpr (.single ⟨bootLine.press_step _, ?_⟩)
  intro code same
  cases same
  have room : bootLine.console.keyboard.numCharsTyped < 128 := by
    rw [bootLine_empty.typed]
    omega
  exact room

/-- A Tab typed at boot leaves a byte in the line that no key has stored. -/
theorem line_not_always_sound :
    ¬ ∀ (start last : LineState) (events : List ConsoleEvent),
      start.Empty → Run LineStep start events last → last.Sound := by
  intro always
  have step := bootLine.press_step 0x0F
  have sound := always _ _ _ bootLine_empty (.single step)
  exact (step.sound_iff bootLine_empty.counted).mp sound 0x0F rfl

end Ece391.Kernel
