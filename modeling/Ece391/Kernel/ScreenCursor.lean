import Ece391.Kernel.LineEditor

/-!
# The cursor and the stores to the screen

`putc` keeps the cursor on the screen and stores only to its cells, whatever character it
is given.  Two keys place the cursor by their own arithmetic: Backspace moves it left of
the column it is in, and Ctrl-L moves it to a column computed from the length of the line.
-/

namespace Ece391.Kernel

open Ece391.Library

/-- The bytes of 80x25 cells from an address on. -/
def cellsAt (base : Int) : Set Int :=
  { address | base ≤ address ∧ address < base + 4000 }

/-- The cells of the live page. -/
abbrev liveCells : Set Int :=
  cellsAt video

/-- A cursor position on the screen. -/
structure OnScreen (x y : Int) : Prop where
  left : 0 ≤ x
  right : x < 80
  top : 0 ≤ y
  bottom : y < 25

namespace Console

/-- The cursor is on the screen, and the event stored only to its cells.  The stores are those made
through `video_mem`: the page copies of `terminal_switch`, which `pageCopies` records, and the
blanking of a new terminal's own page are left out. -/
structure ScreenSafe (console : Console) : Prop where
  cursor : OnScreen console.screenX console.screenY
  stores : ∀ address ∈ console.memory.writes, address ∈ liveCells

/-- The cursor is on the screen, and so is every saved one. -/
structure CursorsOnScreen (console : Console) : Prop where
  cursor : OnScreen console.screenX console.screenY
  saved : ∀ id, OnScreen (console.terminals id).screenX (console.terminals id).screenY

/-! ## Output -/

section

variable {console : Console}

theorem mem_cellsAt {base address : Int} :
    address ∈ cellsAt base ↔ base ≤ address ∧ address < base + 4000 :=
  Iff.rfl

theorem cell_live {x y : Int} (cell : OnScreen x y) :
    cellAddress x y ∈ liveCells ∧ cellAddress x y + 1 ∈ liveCells := by
  have right := cell.right
  have left := cell.left
  have top := cell.top
  have bottom := cell.bottom
  rw [mem_cellsAt, mem_cellsAt, cellAddress]
  omega

/-- Storing a character and its attribute. -/
theorem storeCell_within {area : Set Int} (memory : Tracked Int UInt8) {address : Int}
    (first second : UInt8) (inside : address ∈ area) (next : address + 1 ∈ area) :
    Within area memory ((memory.store address first).store (address + 1) second) :=
  (Within.store memory inside first).trans (Within.store _ next second)

theorem blankCells_within (base : Int) (memory : Tracked Int UInt8) :
    Within (cellsAt base) memory (blankCells base memory) := by
  unfold blankCells
  refine Within.foldl memory ?_
  intro memory i membership
  have bound := List.mem_range.mp membership
  refine storeCell_within memory _ _ ?_ ?_
  · rw [mem_cellsAt]
    omega
  · rw [mem_cellsAt]
    omega

theorem clear_within (console : Console) :
    Within liveCells console.memory console.clear.memory :=
  blankCells_within video console.memory

theorem scrollCell_within {j i : Nat} (row : j < 24) (column : i < 80)
    (memory : Tracked Int UInt8) : Within liveCells memory (scrollCell j memory i) := by
  have target : video + 2 * (80 * (j : Int) + i) ∈ liveCells ∧
      video + 2 * (80 * (j : Int) + i) + 1 ∈ liveCells :=
    cell_live ⟨by omega, by omega, by omega, by omega⟩
  have source : video + 2 * (80 * ((j : Int) + 1) + i) ∈ liveCells ∧
      video + 2 * (80 * ((j : Int) + 1) + i) + 1 ∈ liveCells :=
    cell_live ⟨by omega, by omega, by omega, by omega⟩
  have moved := storeCell_within memory
    (memory.cells (video + 2 * (80 * ((j : Int) + 1) + i))) 7 target.1 target.2
  simp only [scrollCell]
  split_ifs with lastRow
  · exact moved.trans (storeCell_within _ _ _ source.1 source.2)
  · exact moved

theorem scrolling_within (console : Console) :
    Within liveCells console.memory console.scrolling.memory := by
  refine Within.foldl console.memory ?_
  intro memory j row
  refine Within.foldl memory ?_
  intro memory i column
  exact scrollCell_within (List.mem_range.mp row) (List.mem_range.mp column) memory

/-- From a cursor on the screen, `putc` stores only to the screen. -/
theorem putc_within (c : UInt8) (cursor : OnScreen console.screenX console.screenY) :
    Within liveCells console.memory (console.putc c).memory := by
  have live := cell_live cursor
  unfold putc
  split_ifs with corner lastLine edge newline
  · exact scrolling_within console
  · exact scrolling_within console
  · exact Within.refl console.memory
  · exact Within.refl console.memory
  · exact storeCell_within console.memory c 7 live.1 live.2

theorem onScreen_home : OnScreen 0 0 :=
  ⟨by omega, by omega, by omega, by omega⟩

theorem onScreen_lastLine : OnScreen 0 24 :=
  ⟨by omega, by omega, by omega, by omega⟩

theorem onScreen_nextLine {y : Int} (top : 0 ≤ y) (above : y < 24) : OnScreen 0 (y + 1) :=
  ⟨by omega, by omega, by omega, by omega⟩

/-- A character that is shown moves the cursor one column to the right, also from the
column left of the screen. -/
theorem putc_advances {c : UInt8} (left : -1 ≤ console.screenX) (right : console.screenX < 79)
    (top : 0 ≤ console.screenY) (bottom : console.screenY < 25) (shown : ¬ (c = 10 ∨ c = 13)) :
    (console.putc c).screenX = console.screenX + 1 ∧
      (console.putc c).screenY = console.screenY := by
  have column : (console.screenX + 1).tmod 80 = console.screenX + 1 :=
    Int.tmod_eq_of_lt (by omega) (by omega)
  have row : (console.screenY + (console.screenX + 1).tdiv 80).tmod 25 = console.screenY := by
    rw [Int.tdiv_eq_zero_of_lt (by omega) (by omega), Int.add_zero]
    exact Int.tmod_eq_of_lt top bottom
  unfold putc
  rw [if_neg (by omega), if_neg (fun last => shown last.2), if_neg (by omega), if_neg shown]
  simp only [setCursor, column]
  exact ⟨trivial, row⟩

/-- From a cursor on the screen, `putc` leaves it there. -/
theorem putc_cursor (c : UInt8) (cursor : OnScreen console.screenX console.screenY) :
    OnScreen (console.putc c).screenX (console.putc c).screenY := by
  obtain ⟨left, right, top, bottom⟩ := cursor
  by_cases shown : console.screenX < 79 ∧ ¬ (c = 10 ∨ c = 13)
  · have advanced := putc_advances (by omega) shown.1 top bottom shown.2
    rw [advanced.1, advanced.2]
    exact ⟨by omega, by omega, top, bottom⟩
  · unfold putc
    split_ifs with corner lastLine edge newline
    · exact onScreen_lastLine
    · exact onScreen_lastLine
    · exact onScreen_nextLine top (by omega)
    · have above : console.screenY ≠ 24 := fun last => lastLine ⟨last, newline⟩
      exact onScreen_nextLine top (by omega)
    · exact absurd ⟨by omega, newline⟩ shown

/-- What an event may do to the screen: store to its cells, and leave the cursor on it. -/
structure Draws (before after : Console) : Prop where
  stores : ∀ address ∈ after.memory.writes, address ∈ before.memory.writes ∨ address ∈ liveCells
  cursor : OnScreen after.screenX after.screenY

theorem Draws.safe {after : Console} (draws : Draws console after)
    (quiet : console.memory.writes = []) : after.ScreenSafe where
  stores := by
    intro address written
    cases draws.stores address written with
    | inl earlier => simp [quiet] at earlier
    | inr live => exact live
  cursor := draws.cursor

theorem Draws.unchanged (cursor : OnScreen console.screenX console.screenY) :
    Draws console console :=
  ⟨fun _ written => .inl written, cursor⟩

theorem putc_draws (c : UInt8) (cursor : OnScreen console.screenX console.screenY) :
    Draws console (console.putc c) :=
  ⟨(putc_within c cursor).writes, putc_cursor c cursor⟩

/-! ## Keys -/

/-- Backspace moves the cursor one column to the left, whatever that column is. -/
theorem backspace_cursor (typed : console.keyboard.numCharsTyped > 0)
    (cursor : OnScreen console.screenX console.screenY) :
    console.backspace.screenX = console.screenX - 1 ∧
      console.backspace.screenY = console.screenY := by
  obtain ⟨left, right, top, bottom⟩ := cursor
  let moved := { console with
    keyboard.numCharsTyped := console.keyboard.numCharsTyped - 1 }.setCursor
      (console.screenX - 1) console.screenY
  have advanced : (moved.putc 0x20).screenX = console.screenX - 1 + 1 ∧
      (moved.putc 0x20).screenY = console.screenY :=
    putc_advances (show -1 ≤ console.screenX - 1 by omega)
      (show console.screenX - 1 < 79 by omega) top bottom (by decide)
  simp only [backspace, if_pos typed]
  constructor
  · change (moved.putc 0x20).screenX - 1 = console.screenX - 1
    omega
  · exact advanced.2

theorem backspace_draws (cursor : OnScreen console.screenX console.screenY)
    (inside : 1 ≤ console.screenX) : Draws console console.backspace := by
  by_cases typed : console.keyboard.numCharsTyped > 0
  · have moved : OnScreen (console.screenX - 1) console.screenY :=
      ⟨by omega, by have := cursor.right; omega, cursor.top, cursor.bottom⟩
    constructor
    · simp only [backspace, if_pos typed]
      exact (putc_within 0x20 moved).writes
    · have placed := backspace_cursor typed cursor
      rw [placed.1, placed.2]
      exact moved
  · simp only [backspace, if_neg typed]
    exact Draws.unchanged cursor

/-- Backspace is safe unless it erases a character with the cursor in the first column. -/
theorem backspace_safe_iff (cursor : OnScreen console.screenX console.screenY)
    (quiet : console.memory.writes = []) :
    console.backspace.ScreenSafe ↔
      console.keyboard.numCharsTyped = 0 ∨ 1 ≤ console.screenX := by
  by_cases typed : console.keyboard.numCharsTyped > 0
  · constructor
    · intro safe
      have left := safe.cursor.left
      rw [(backspace_cursor typed cursor).1] at left
      exact .inr (by omega)
    · intro allowed
      exact (backspace_draws cursor (by omega)).safe quiet
  · simp only [backspace, if_neg typed]
    exact iff_of_true ((Draws.unchanged cursor).safe quiet) (.inl (by omega))

theorem Draws.trans {first second third : Console} (left : Draws first second)
    (right : Draws second third) : Draws first third where
  stores := by
    intro address written
    cases right.stores address written with
    | inl earlier => exact left.stores address earlier
    | inr live => exact .inr live
  cursor := right.cursor

/-- The line shown by Ctrl-L is drawn on the screen. -/
theorem showLine_draws (indices : List Nat) (cursor : OnScreen console.screenX console.screenY) :
    Draws console (console.showLine indices) := by
  induction indices generalizing console with
  | nil => exact Draws.unchanged cursor
  | cons i indices ih =>
      have first := putc_draws (console.keyboard.keyboardBuffer i) cursor
      exact first.trans (ih first.cursor)

/-- Ctrl-L stores only to the screen. -/
theorem redraw_stores (console : Console) :
    ∀ address ∈ console.redraw.memory.writes,
      address ∈ console.memory.writes ∨ address ∈ liveCells := by
  have cleared : Draws console (console.clear.setCursor 0 0) :=
    ⟨(clear_within console).writes, onScreen_home⟩
  have shown := cleared.trans
    (showLine_draws (List.range (console.keyboard.numCharsTyped + 1)) onScreen_home)
  simp only [redraw]
  split_ifs
  · exact shown.stores
  · exact shown.stores

/-- Ctrl-L puts the cursor behind the line, counting 80 columns and one line break. -/
theorem redraw_cursor (console : Console) :
    OnScreen console.redraw.screenX console.redraw.screenY ↔
      console.keyboard.numCharsTyped ≠ 80 ∧ console.keyboard.numCharsTyped < 160 := by
  simp only [redraw]
  split_ifs with wrapped
  · constructor
    · intro cursor
      have right : (console.keyboard.numCharsTyped : Int) - 80 < 80 := cursor.right
      omega
    · intro allowed
      have left : 0 ≤ (console.keyboard.numCharsTyped : Int) - 80 := by omega
      have right : (console.keyboard.numCharsTyped : Int) - 80 < 80 := by omega
      exact ⟨left, right, show (0 : Int) ≤ 1 by omega, show (1 : Int) < 25 by omega⟩
  · constructor
    · intro cursor
      have right : (console.keyboard.numCharsTyped : Int) < 80 := cursor.right
      omega
    · intro allowed
      have right : (console.keyboard.numCharsTyped : Int) < 80 := by omega
      exact ⟨Int.natCast_nonneg _, right, show (0 : Int) ≤ 0 by omega,
        show (0 : Int) < 25 by omega⟩

theorem redraw_safe_iff (quiet : console.memory.writes = []) :
    console.redraw.ScreenSafe ↔
      console.keyboard.numCharsTyped ≠ 80 ∧ console.keyboard.numCharsTyped < 160 := by
  constructor
  · intro safe
    exact (redraw_cursor console).mp safe.cursor
  · intro allowed
    exact Draws.safe ⟨redraw_stores console, (redraw_cursor console).mpr allowed⟩ quiet

/-- Typing a character stores it and shows it. -/
theorem typeChar_draws (char : UInt8) (cursor : OnScreen console.screenX console.screenY) :
    Draws console (console.typeChar char) := by
  let typed : Console :=
    { console.storeChar console.keyboard.numCharsTyped char with
      keyboard.numCharsTyped := console.keyboard.numCharsTyped + 1 }
  have drawn : Draws typed (typed.putc char) := putc_draws char cursor
  exact ⟨drawn.stores, drawn.cursor⟩

theorem enter_draws (cursor : OnScreen console.screenX console.screenY) :
    Draws console console.enter := by
  have drawn : Draws { console with keyboard.enterPressedFlag := 1 } console.enter :=
    typeChar_draws 10 cursor
  exact ⟨drawn.stores, drawn.cursor⟩

theorem printToScreen_draws (code : UInt8) (cursor : OnScreen console.screenX console.screenY) :
    Draws console (console.printToScreen code) := by
  unfold printToScreen
  split_ifs
  · exact typeChar_draws _ cursor
  · exact Draws.unchanged cursor

/-- Saving a terminal stores to the screen only to clear it. -/
theorem saveTerminal_stores (console : Console) :
    ∀ address ∈ console.saveTerminal.memory.writes,
      address ∈ console.memory.writes ∨ address ∈ liveCells := by
  intro address written
  simp only [saveTerminal, setCursor] at written
  have cleared := (clear_within _).writes address written
  exact cleared

/-- A switch of terminals shows a cursor that was saved or the one at the top. -/
theorem terminalSwitch_draws (cursors : console.CursorsOnScreen) (id : Fin 3) :
    Draws console (console.terminalSwitch id) := by
  by_cases same : id = console.currTerminalId
  · rw [terminalSwitch_same same]
    exact Draws.unchanged cursors.cursor
  · rw [terminalSwitch_other same]
    split_ifs
    · have saved : console.saveTerminal.terminals id = console.terminals id :=
        Function.update_of_ne same ..
      refine ⟨saveTerminal_stores console, ?_⟩
      change OnScreen (console.saveTerminal.terminals id).screenX
        (console.saveTerminal.terminals id).screenY
      rw [saved]
      exact cursors.saved id
    · exact ⟨saveTerminal_stores console, onScreen_home⟩

/-- Every saved cursor stays on the screen. -/
theorem terminalSwitch_saved (cursors : console.CursorsOnScreen) (id other : Fin 3) :
    OnScreen ((console.terminalSwitch id).terminals other).screenX
      ((console.terminalSwitch id).terminals other).screenY := by
  by_cases same : id = console.currTerminalId
  · rw [terminalSwitch_same same]
    exact cursors.saved other
  · have saved : OnScreen (console.saveTerminal.terminals other).screenX
        (console.saveTerminal.terminals other).screenY := by
      by_cases current : other = console.currTerminalId
      · simp only [saveTerminal, recordTerminal, setCursor, clear, copyPage, clearLine,
          current, Function.update_self]
        exact cursors.cursor
      · simp only [saveTerminal, recordTerminal, setCursor, clear, copyPage, clearLine,
          Function.update_of_ne current]
        exact cursors.saved other
    rw [terminalSwitch_other same]
    split_ifs
    · exact saved
    · by_cases started : other = id
      · simp only [terminalInit, clearTerminalVidmem, started, Function.update_self]
        exact onScreen_home
      · simp only [terminalInit, clearTerminalVidmem, Function.update_of_ne started]
        exact saved

/-- The keys that keep the screen safe: Backspace erases only where the cursor has a
column to its left, and Ctrl-L is pressed only when it can place the cursor. -/
def KeyAllowed (console : Console) (code : UInt8) : Prop :=
  match keyOf code with
  | .backspace => console.keyboard.numCharsTyped = 0 ∨ 1 ≤ console.screenX
  | .letterL => console.ctrlPressed →
      console.keyboard.numCharsTyped ≠ 80 ∧ console.keyboard.numCharsTyped < 160
  | _ => True

theorem keyboardHandler_safe_iff (code : UInt8) (cursors : console.CursorsOnScreen)
    (quiet : console.memory.writes = []) :
    (console.keyboardHandler code).ScreenSafe ↔ console.KeyAllowed code := by
  have cursor := cursors.cursor
  have unchanged : console.ScreenSafe := (Draws.unchanged cursor).safe quiet
  simp only [keyboardHandler, KeyAllowed]
  cases keyOf code with
  | backspace => exact backspace_safe_iff cursor quiet
  | letterL =>
      cases held : console.ctrlPressed with
      | true =>
          simp only [if_true, forall_const]
          exact redraw_safe_iff quiet
      | false => exact iff_of_true ((printToScreen_draws code cursor).safe quiet) (by simp)
  | enter => exact iff_of_true ((enter_draws cursor).safe quiet) trivial
  | other => exact iff_of_true ((printToScreen_draws code cursor).safe quiet) trivial
  | function id =>
      cases held : console.altPressed with
      | true => exact iff_of_true ((terminalSwitch_draws cursors id).safe quiet) trivial
      | false => exact iff_of_true unchanged trivial
  | _ => exact iff_of_true ⟨unchanged.cursor, unchanged.stores⟩ trivial

end

end Console

/-! ## Runs -/

/-- The events that keep the screen safe: only a key can endanger it. -/
def ConsoleStep.ScreenAllowed (before : Console) (event : ConsoleEvent) : Prop :=
  ∀ code, event = .key code → before.KeyAllowed code

section

variable {before after : Console} {event : ConsoleEvent}

theorem ConsoleStep.screenSafe_iff (cursors : before.CursorsOnScreen)
    (step : ConsoleStep before event after) :
    after.ScreenSafe ↔ ConsoleStep.ScreenAllowed before event := by
  have quiet : before.quiet.CursorsOnScreen := ⟨cursors.cursor, cursors.saved⟩
  unfold ConsoleStep at step
  cases event with
  | key code =>
      have handled : before.quiet.keyboardHandler code = after := Option.some.inj step
      rw [← handled, Console.keyboardHandler_safe_iff code quiet rfl]
      constructor
      · intro allowed other same
        cases same
        exact allowed
      · intro allowed
        exact allowed code rfl
  | output char =>
      have printed : before.quiet.putc char = after := Option.some.inj step
      rw [← printed]
      exact iff_of_true ((Console.putc_draws char quiet.cursor).safe rfl)
        (fun _ same => by cases same)
  | read nbytes =>
      obtain ⟨result, completed, afterwards⟩ := Option.map_eq_some_iff.mp step
      have unchanged := (Console.Draws.unchanged quiet.cursor).safe rfl
      refine iff_of_true ?_ (fun _ same => by cases same)
      rw [← afterwards]
      cases Console.read_cases completed with
      | inl nothing =>
          rw [nothing.2]
          exact unchanged
      | inr taken =>
          rw [taken.2.2]
          exact ⟨unchanged.cursor, unchanged.stores⟩
  | switchTo id =>
      have switched : before.quiet.terminalSwitch id = after := Option.some.inj step
      rw [← switched]
      exact iff_of_true ((Console.terminalSwitch_draws quiet id).safe rfl)
        (fun _ same => by cases same)

/-- After a safe event every cursor is on the screen again. -/
theorem ConsoleStep.cursorsOnScreen (cursors : before.CursorsOnScreen)
    (step : ConsoleStep before event after) (safe : after.ScreenSafe) :
    after.CursorsOnScreen where
  cursor := safe.cursor
  saved := by
    intro id
    cases Console.step_terminals step with
    | inl same =>
        rw [same.1]
        exact cursors.saved id
    | inr switched =>
        obtain ⟨target, rfl⟩ := switched
        have quiet : before.quiet.CursorsOnScreen := ⟨cursors.cursor, cursors.saved⟩
        exact Console.terminalSwitch_saved quiet target id

end

/-- The console with the cursor at the top left corner. -/
structure Console.AtHome (console : Console) : Prop where
  screenX : console.screenX = 0
  screenY : console.screenY = 0
  saved : ∀ id, OnScreen (console.terminals id).screenX (console.terminals id).screenY

theorem Console.AtHome.cursorsOnScreen {console : Console} (home : console.AtHome) :
    console.CursorsOnScreen where
  cursor := by
    rw [home.screenX, home.screenY]
    exact Console.onScreen_home
  saved := home.saved

/-- Through a run of events the cursor stays on the screen and every store on its cells,
exactly when each event is allowed. -/
theorem screen_safe_iff_allowed {start last : Console} {events : List ConsoleEvent}
    (home : start.AtHome) :
    Run (fun before event after => ConsoleStep before event after ∧ after.ScreenSafe)
        start events last ↔
      Run (fun before event after => ConsoleStep before event after ∧
          ConsoleStep.ScreenAllowed before event)
        start events last :=
  Run.good_iff_allowed Console.CursorsOnScreen (fun _ _ after => after.ScreenSafe)
    ConsoleStep.ScreenAllowed
    (fun _ _ _ cursors step => step.screenSafe_iff cursors)
    (fun _ _ _ cursors step safe => step.cursorsOnScreen cursors safe)
    home.cursorsOnScreen

theorem Console.bss_atHome (cells : Int → UInt8) : (Console.bss cells).AtHome :=
  ⟨rfl, rfl, fun _ => Console.onScreen_home⟩

theorem ConsoleStep.key_allowed {before : Console} {code : UInt8}
    (allowed : before.KeyAllowed code) :
    ConsoleStep before (.key code) (before.quiet.keyboardHandler code) ∧
      ConsoleStep.ScreenAllowed before (.key code) := by
  refine ⟨rfl, fun other same => ?_⟩
  obtain rfl := ConsoleEvent.key.inj same
  exact allowed

/-- Two letters, a character printed, Backspace, and Ctrl-L. -/
theorem screen_safe_keys :
    ∃ last, Run (fun before event after => ConsoleStep before event after ∧ after.ScreenSafe)
        (Console.bss fun _ => 0)
        [.key 0x1E, .key 0x30, .output 65, .key 0x0E, .key 0x1D, .key 0x26] last ∧
      last.keyboard.numCharsTyped = 1 ∧ last.screenX = 1 ∧ last.screenY = 0 := by
  have run : ∃ last, Run (fun before event after => ConsoleStep before event after ∧
      ConsoleStep.ScreenAllowed before event) (Console.bss fun _ => 0)
      [.key 0x1E, .key 0x30, .output 65, .key 0x0E, .key 0x1D, .key 0x26] last ∧
        last.keyboard.numCharsTyped = 1 ∧ last.screenX = 1 ∧ last.screenY = 0 :=
    ⟨_, .cons (ConsoleStep.key_allowed trivial) (.cons (ConsoleStep.key_allowed trivial)
      (.cons ⟨rfl, nofun⟩ (.cons (ConsoleStep.key_allowed (.inr (by decide)))
        (.cons (ConsoleStep.key_allowed trivial)
          (.single (ConsoleStep.key_allowed fun _ => by decide)))))), by decide, by decide,
      by decide⟩
  obtain ⟨last, allowed, shown⟩ := run
  exact ⟨last, (screen_safe_iff_allowed (Console.bss_atHome _)).mpr allowed, shown⟩

/-- Tab and then Backspace put the cursor left of the screen. -/
theorem screen_not_always_safe :
    ¬ ∀ (start last : Console) (events : List ConsoleEvent),
      start.AtHome → Run ConsoleStep start events last → last.ScreenSafe := by
  intro always
  let tabbed := (Console.bss fun _ => 0).quiet.keyboardHandler 0x0F
  have run : Run ConsoleStep (Console.bss fun _ => 0) [.key 0x0F, .key 0x0E]
      (tabbed.quiet.keyboardHandler 0x0E) := .cons rfl (.cons rfl (.nil _))
  have left := (always _ _ _ (Console.bss_atHome _) run).cursor.left
  have column : (tabbed.quiet.keyboardHandler 0x0E).screenX = -1 := by decide
  omega

end Ece391.Kernel
