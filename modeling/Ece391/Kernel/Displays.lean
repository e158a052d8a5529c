import Ece391.Kernel.ScreenCursor

/-!
# Displays of the terminals

Each terminal has a backing page next to the live one.  While it is not displayed, the page
holds its screen and its record the cursor; switching moves the two out and in.  The first
half of the module shows that terminals that have been initialised do not disturb one
another.  The second is about the console at boot, where none has been.
-/

namespace Ece391.Kernel

open Ece391.Library

/-- The bytes of a page. -/
def pageAt (base : Int) : Set Int :=
  { address | base ≤ address ∧ address < base + 4096 }

namespace Console

/-- `terminal_init` has run for the terminal. -/
structure Ready (console : Console) (id : Fin 3) : Prop where
  active : (console.terminals id).active
  page : (console.terminals id).videoMemAddr = backingPage id

section

variable {console : Console} {id : Fin 3} {address : Int}

theorem mem_pageAt {base : Int} :
    address ∈ pageAt base ↔ base ≤ address ∧ address < base + 4096 :=
  Iff.rfl

/-- Neither the live page nor another backing page overlaps a backing page. -/
theorem backingPage_apart_live (inside : address ∈ pageAt (backingPage id)) :
    address ∉ pageAt video := by
  simp only [mem_pageAt, backingPage, video] at inside ⊢
  omega

theorem backingPage_apart {other : Fin 3} (different : id ≠ other)
    (inside : address ∈ pageAt (backingPage id)) : address ∉ pageAt (backingPage other) := by
  have values : id.val ≠ other.val := fun same => different (Fin.ext same)
  simp only [mem_pageAt, backingPage] at inside ⊢
  omega

/-! ## Pages -/

theorem copyPage_outside {target source : Int} (outside : address ∉ pageAt target) :
    (console.copyPage target source).memory.cells address = console.memory.cells address := by
  refine copyUp_outside ?_
  rw [mem_pageAt] at outside
  omega

/-- A page copied to a page that does not overlap it. -/
theorem copyPage_inside {target source : Int}
    (apart : source + 4096 ≤ target ∨ target + 4096 ≤ source) (inside : address ∈ pageAt target) :
    (console.copyPage target source).memory.cells address =
      console.memory.cells (source + (address - target)) := by
  rw [mem_pageAt] at inside
  have bound : (address - target).toNat < 4096 := by omega
  have copied : copyUp console.memory.cells source target 4096
      (target + (address - target).toNat) =
        console.memory.cells (source + (address - target).toNat) :=
    copyUp_apart (by omega) bound
  have offset : ((address - target).toNat : Int) = address - target := by omega
  rw [offset, show target + (address - target) = address by omega] at copied
  exact copied

/-- Clearing the screen leaves the memory outside the live page alone. -/
theorem clear_outside (outside : address ∉ pageAt video) :
    console.clear.memory.cells address = console.memory.cells address := by
  refine (clear_within console).unchanged address ?_
  rw [mem_cellsAt]
  rw [mem_pageAt] at outside
  omega

/-! ## Saving and restoring -/

theorem saveTerminal_outside (live : address ∉ pageAt video)
    (backing : address ∉ pageAt (console.terminals console.currTerminalId).videoMemAddr) :
    console.saveTerminal.memory.cells address = console.memory.cells address :=
  (clear_outside live).trans (copyPage_outside backing)

/-- Saving a terminal fills its backing page from the live one. -/
theorem saveTerminal_backing (ready : console.Ready console.currTerminalId)
    (backing : address ∈ pageAt (backingPage console.currTerminalId)) :
    console.saveTerminal.memory.cells address =
      console.memory.cells (video + (address - backingPage console.currTerminalId)) := by
  have cleared : console.saveTerminal.memory.cells address =
      (console.recordTerminal.copyPage
        (console.terminals console.currTerminalId).videoMemAddr video).memory.cells address :=
    clear_outside (backingPage_apart_live backing)
  rw [cleared, ready.page]
  refine copyPage_inside ?_ backing
  simp only [backingPage, video]
  omega

theorem restoreTerminal_outside (live : address ∉ pageAt video) :
    (console.restoreTerminal id).memory.cells address = console.memory.cells address :=
  copyPage_outside live

/-- Restoring a terminal fills the live page from its backing page. -/
theorem restoreTerminal_live (page : (console.terminals id).videoMemAddr = backingPage id)
    (live : address ∈ pageAt video) :
    (console.restoreTerminal id).memory.cells address =
      console.memory.cells (backingPage id + (address - video)) := by
  have apart : (backingPage id : Int) + 4096 ≤ video ∨
      video + 4096 ≤ (backingPage id : Int) := by
    simp only [backingPage, video]
    omega
  rw [← page] at apart ⊢
  exact copyPage_inside apart live

/-- A switch between initialised terminals fills the backing page of one and the live
page from that of the other; the rest of the memory stays as it is. -/
theorem terminalSwitch_outside (other : id ≠ console.currTerminalId)
    (current : console.Ready console.currTerminalId) (ready : console.Ready id)
    (live : address ∉ pageAt video)
    (backing : address ∉ pageAt (backingPage console.currTerminalId)) :
    (console.terminalSwitch id).memory.cells address = console.memory.cells address := by
  rw [← current.page] at backing
  rw [terminalSwitch_ready other ready.active, restoreTerminal_outside live,
    saveTerminal_outside live backing]

theorem terminalSwitch_backing (other : id ≠ console.currTerminalId)
    (current : console.Ready console.currTerminalId) (ready : console.Ready id)
    (backing : address ∈ pageAt (backingPage console.currTerminalId)) :
    (console.terminalSwitch id).memory.cells address =
      console.memory.cells (video + (address - backingPage console.currTerminalId)) := by
  rw [terminalSwitch_ready other ready.active,
    restoreTerminal_outside (backingPage_apart_live backing),
    saveTerminal_backing current backing]

theorem saveTerminal_terminals (other : id ≠ console.currTerminalId) :
    console.saveTerminal.terminals id = console.terminals id :=
  Function.update_of_ne other ..

theorem terminalSwitch_live (other : id ≠ console.currTerminalId)
    (current : console.Ready console.currTerminalId) (ready : console.Ready id)
    (live : address ∈ pageAt video) :
    (console.terminalSwitch id).memory.cells address =
      console.memory.cells (backingPage id + (address - video)) := by
  have page : (console.saveTerminal.terminals id).videoMemAddr = backingPage id := by
    rw [saveTerminal_terminals other]
    exact ready.page
  have backing : backingPage id + (address - video) ∈ pageAt (backingPage id) := by
    rw [mem_pageAt] at live ⊢
    omega
  have elsewhere := backingPage_apart other backing
  rw [← current.page] at elsewhere
  rw [terminalSwitch_ready other ready.active, restoreTerminal_live page live,
    saveTerminal_outside (backingPage_apart_live backing) elsewhere]

/-- The record of a terminal that is neither left nor started stays as it is. -/
theorem terminalSwitch_terminals {wanted : Fin 3} (ready : console.Ready wanted)
    (other : id ≠ console.currTerminalId) :
    (console.terminalSwitch wanted).terminals id = console.terminals id := by
  by_cases same : wanted = console.currTerminalId
  · rw [terminalSwitch_same same]
  · rw [terminalSwitch_ready same ready.active]
    exact saveTerminal_terminals other

end

end Console

/-! ## Runs of switches and output -/

open Console

inductive DisplayEvent where
  | switchTo (id : Fin 3)
  | output
  deriving DecidableEq, Repr

/-- A switch to an initialised terminal, or output: any change of the live page and of
the cursor. -/
inductive DisplayStep : Console → DisplayEvent → Console → Prop where
  | switchTo {before : Console} {id : Fin 3} (ready : before.Ready id) :
      DisplayStep before (.switchTo id) (before.terminalSwitch id)
  | output {before after : Console} (rest : after.rest = before.rest)
      (memory : ∀ address, address ∉ pageAt video →
        after.memory.cells address = before.memory.cells address) :
      DisplayStep before .output after

/-- A terminal that is not displayed, as it was when `origin` left it. -/
structure Shelved (origin : Console) (id : Fin 3) (console : Console) : Prop where
  away : id ≠ console.currTerminalId
  current : console.Ready console.currTerminalId
  ready : console.Ready id
  page : ∀ address, address ∈ pageAt (backingPage id) →
    console.memory.cells address = origin.memory.cells (video + (address - backingPage id))
  screenX : (console.terminals id).screenX = origin.screenX
  screenY : (console.terminals id).screenY = origin.screenY

section

variable {origin console after : Console} {id other : Fin 3} {event : DisplayEvent}

theorem Console.Ready.of_terminals (ready : console.Ready id)
    (same : after.terminals id = console.terminals id) : after.Ready id where
  active := by rw [same]; exact ready.active
  page := by rw [same]; exact ready.page

/-- Saving keeps the current terminal initialised. -/
theorem Console.Ready.saved (ready : console.Ready console.currTerminalId) :
    console.saveTerminal.Ready console.currTerminalId where
  active := by
    simp only [saveTerminal, recordTerminal, setCursor, clear, copyPage, clearLine,
      Function.update_self]
    exact ready.active
  page := by
    simp only [saveTerminal, recordTerminal, setCursor, clear, copyPage, clearLine,
      Function.update_self]
    exact ready.page

theorem Console.terminalInit_ready (console : Console) (id : Fin 3) :
    (console.terminalInit id).Ready id where
  active := by simp [terminalInit, clearTerminalVidmem]
  page := by simp [terminalInit, clearTerminalVidmem]

/-- Every initialised terminal stays so through a switch. -/
theorem Console.Ready.switched (ready : console.Ready id) (target : console.Ready other) :
    (console.terminalSwitch other).Ready id := by
  by_cases same : other = console.currTerminalId
  · rw [terminalSwitch_same same]
    exact ready
  · by_cases current : id = console.currTerminalId
    · rw [terminalSwitch_ready same target.active]
      subst current
      exact ready.saved.of_terminals rfl
    · exact ready.of_terminals (terminalSwitch_terminals target current)

/-- Leaving a terminal shelves it. -/
theorem Shelved.leave (current : console.Ready console.currTerminalId)
    (target : console.Ready other) (different : other ≠ console.currTerminalId) :
    Shelved console console.currTerminalId (console.terminalSwitch other) where
  away := by
    rw [terminalSwitch_currTerminalId]
    exact different.symm
  current := by
    rw [terminalSwitch_currTerminalId]
    exact target.switched target
  ready := current.switched target
  page := fun _ backing => terminalSwitch_backing different current target backing
  screenX := by
    rw [terminalSwitch_ready different target.active]
    simp [restoreTerminal, saveTerminal, recordTerminal, setCursor, clear, copyPage, clearLine]
  screenY := by
    rw [terminalSwitch_ready different target.active]
    simp [restoreTerminal, saveTerminal, recordTerminal, setCursor, clear, copyPage, clearLine]

/-- A switch between other terminals leaves a shelved one alone. -/
theorem Shelved.switch (shelved : Shelved origin id console) (target : console.Ready other)
    (different : other ≠ id) : Shelved origin id (console.terminalSwitch other) := by
  by_cases same : other = console.currTerminalId
  · rw [terminalSwitch_same same]
    exact shelved
  · have record := terminalSwitch_terminals target shelved.away
    constructor
    · rw [terminalSwitch_currTerminalId]
      exact different.symm
    · rw [terminalSwitch_currTerminalId]
      exact target.switched target
    · exact shelved.ready.switched target
    · intro address backing
      rw [terminalSwitch_outside same shelved.current target
        (backingPage_apart_live backing)
        (backingPage_apart shelved.away backing)]
      exact shelved.page address backing
    · rw [record]
      exact shelved.screenX
    · rw [record]
      exact shelved.screenY

/-- So does output. -/
theorem Shelved.output (shelved : Shelved origin id console) (rest : after.rest = console.rest)
    (memory : ∀ address, address ∉ pageAt video →
      after.memory.cells address = console.memory.cells address) :
    Shelved origin id after := by
  have terminals := terminals_of_rest rest
  have current := currTerminalId_of_rest rest
  constructor
  · rw [current]
    exact shelved.away
  · rw [current]
    exact shelved.current.of_terminals (by rw [terminals])
  · exact shelved.ready.of_terminals (by rw [terminals])
  · intro address backing
    rw [memory address (backingPage_apart_live backing)]
    exact shelved.page address backing
  · rw [terminals]
    exact shelved.screenX
  · rw [terminals]
    exact shelved.screenY

theorem Shelved.step (shelved : Shelved origin id console)
    (step : DisplayStep console event after) (different : event ≠ .switchTo id) :
    Shelved origin id after := by
  cases step with
  | switchTo ready =>
      refine shelved.switch ready ?_
      intro same
      exact different (congrArg DisplayEvent.switchTo same)
  | output rest memory => exact shelved.output rest memory

/-- Returning to a shelved terminal shows what was left. -/
theorem Shelved.back (shelved : Shelved origin id console) :
    (∀ address, address ∈ pageAt video →
      (console.terminalSwitch id).memory.cells address = origin.memory.cells address) ∧
    (console.terminalSwitch id).screenX = origin.screenX ∧
    (console.terminalSwitch id).screenY = origin.screenY := by
  refine ⟨?_, ?_, ?_⟩
  · intro address live
    have backing : backingPage id + (address - video) ∈ pageAt (backingPage id) := by
      rw [mem_pageAt] at live ⊢
      omega
    rw [terminalSwitch_live shelved.away shelved.current shelved.ready live,
      shelved.page _ backing]
    congr 1
    omega
  · rw [terminalSwitch_ready shelved.away shelved.ready.active]
    exact (congrArg Terminal.screenX (saveTerminal_terminals shelved.away)).trans
      shelved.screenX
  · rw [terminalSwitch_ready shelved.away shelved.ready.active]
    exact (congrArg Terminal.screenY (saveTerminal_terminals shelved.away)).trans
      shelved.screenY

/-- The displayed terminal stays one that has been initialised. -/
theorem DisplayStep.current (current : console.Ready console.currTerminalId)
    (step : DisplayStep console event after) : after.Ready after.currTerminalId := by
  cases step with
  | switchTo ready =>
      rw [terminalSwitch_currTerminalId]
      exact ready.switched ready
  | output rest memory =>
      rw [currTerminalId_of_rest rest]
      exact current.of_terminals (by rw [terminals_of_rest rest])

/-- Output through `putc` is output. -/
theorem putc_display (c : UInt8) (cursor : OnScreen console.screenX console.screenY) :
    DisplayStep console .output (console.putc c) := by
  refine .output (putc_rest c console) ?_
  intro address outside
  refine (putc_within c cursor).unchanged address ?_
  rw [mem_cellsAt]
  rw [mem_pageAt] at outside
  omega

end

/-- Whatever happens on other initialised terminals, a terminal that is displayed again
shows the live page and the cursor it was left with. -/
theorem display_restored {origin leaving gone middle back : Console} {other : Fin 3}
    {past between : List DisplayEvent}
    (initialised : origin.Ready origin.currTerminalId)
    (before : Run DisplayStep origin past leaving)
    (leaves : DisplayStep leaving (.switchTo other) gone)
    (different : other ≠ leaving.currTerminalId)
    (away : Run DisplayStep gone between middle)
    (never : .switchTo leaving.currTerminalId ∉ between)
    (returns : DisplayStep middle (.switchTo leaving.currTerminalId) back) :
    back.currTerminalId = leaving.currTerminalId ∧
    (∀ address, address ∈ pageAt video →
      back.memory.cells address = leaving.memory.cells address) ∧
    back.screenX = leaving.screenX ∧ back.screenY = leaving.screenY := by
  have current : leaving.Ready leaving.currTerminalId :=
    before.invariant (fun console => console.Ready console.currTerminalId)
      (fun _ _ _ current step => step.current current) initialised
  have left : Shelved leaving leaving.currTerminalId gone := by
    cases leaves with
    | switchTo ready => exact Shelved.leave current ready different
  have every : ∀ event ∈ between, event ≠ .switchTo leaving.currTerminalId := by
    intro event member same
    exact never (same ▸ member)
  have shelved : Shelved leaving leaving.currTerminalId middle :=
    (away.restrict every).invariant (Shelved leaving leaving.currTerminalId)
      (fun _ _ _ shelved step => shelved.step step.1 step.2) left
  cases returns with
  | switchTo ready => exact ⟨terminalSwitch_currTerminalId .., shelved.back⟩

/-- The console when every terminal has been initialised. -/
def readyConsole : Console :=
  { Console.bss fun _ => 0 with
    terminals := fun id => ⟨backingPage id, true, fun _ => 0, 0, 0⟩ }

theorem readyConsole_ready (id : Fin 3) : readyConsole.Ready id :=
  ⟨rfl, rfl⟩

/-- From the first terminal to the second and the third, and back. -/
theorem display_restored_round :
    let gone := readyConsole.terminalSwitch 1
    let back := (gone.terminalSwitch 2).terminalSwitch 0
    back.currTerminalId = 0 ∧
    (∀ address, address ∈ pageAt video →
      back.memory.cells address = readyConsole.memory.cells address) ∧
    back.screenX = 0 ∧ back.screenY = 0 := by
  have first : DisplayStep readyConsole (.switchTo 1) (readyConsole.terminalSwitch 1) :=
    .switchTo (readyConsole_ready 1)
  have still (id : Fin 3) : (readyConsole.terminalSwitch 1).Ready id :=
    (readyConsole_ready id).switched (readyConsole_ready 1)
  have second := DisplayStep.switchTo (still 2)
  have third := DisplayStep.switchTo ((still 0).switched (still 2))
  exact display_restored (readyConsole_ready 0) (.nil readyConsole) first (by decide)
    (.single second) (by decide) third

/-! ## From boot -/

/-- The scan code of a function key. -/
def functionCode (id : Fin 3) : UInt8 :=
  0x3B + UInt8.ofNat id.val

/-- A function key pressed with Alt held. -/
def AltPress (before : Console) (id : Fin 3) (after : Console) : Prop :=
  after = (before.quiet.keyboardHandler 0x38).quiet.keyboardHandler (functionCode id)

/-- Every page copied by the event was copied between the live page and the backing page
of an initialised terminal. -/
def Console.CopiesKept (console : Console) : Prop :=
  ∀ copy ∈ console.pageCopies, ∃ id, console.Ready id ∧
    (copy = (video, (backingPage id : Int)) ∨ copy = ((backingPage id : Int), video))

/-- No terminal has been initialised. -/
structure Console.Uninitialised (console : Console) : Prop where
  current : console.currTerminalId = 0
  page : ∀ id, (console.terminals id).videoMemAddr = 0

section

variable {before after : Console} {id : Fin 3}

theorem keyOf_functionCode (id : Fin 3) : keyOf (functionCode id) = .function id := by
  revert id
  decide

/-- The console while Alt is held. -/
def Console.holdAlt (console : Console) : Console :=
  { console.quiet with altPressed := true }

theorem Console.Uninitialised.holdAlt {console : Console}
    (uninitialised : console.Uninitialised) : console.holdAlt.Uninitialised :=
  ⟨uninitialised.current, uninitialised.page⟩

/-- Alt and a function key switch terminals, and nothing else. -/
theorem AltPress.switched (press : AltPress before id after) :
    after = before.holdAlt.terminalSwitch id := by
  have held : (before.quiet.keyboardHandler 0x38).quiet = before.holdAlt := rfl
  unfold AltPress at press
  rw [held] at press
  rw [press]
  refine keyboardHandler_switch ?_
  simp [switchTarget, keyOf_functionCode, Console.holdAlt]

/-- Leaving a terminal copies the live page to the address recorded for it. -/
theorem terminalSwitch_copies {console : Console} (other : id ≠ console.currTerminalId) :
    (((console.terminals console.currTerminalId).videoMemAddr : Int), video) ∈
      (console.terminalSwitch id).pageCopies := by
  rw [terminalSwitch_other other]
  split_ifs
  · exact List.mem_cons_of_mem _ List.mem_cons_self
  · exact List.mem_cons_self

/-- No terminal owns address 0. -/
theorem not_kept_of_null {console : Console} {source : Int}
    (copied : (((0 : Nat) : Int), source) ∈ console.pageCopies) : ¬ console.CopiesKept := by
  intro kept
  obtain ⟨owner, -, place⟩ := kept _ copied
  cases place with
  | inl restored =>
      have target : ((0 : Nat) : Int) = video := congrArg Prod.fst restored
      simp only [video] at target
      omega
  | inr saved =>
      have target : ((0 : Nat) : Int) = backingPage owner := congrArg Prod.fst saved
      simp only [backingPage] at target
      omega

theorem AltPress.copiesKept_iff (uninitialised : before.Uninitialised)
    (press : AltPress before id after) : after.CopiesKept ↔ id = 0 := by
  have held := uninitialised.holdAlt
  rw [press.switched]
  constructor
  · intro kept
    by_contra other
    have different : id ≠ before.holdAlt.currTerminalId :=
      fun same => other (same.trans held.current)
    have copied := terminalSwitch_copies different
    rw [held.page] at copied
    exact not_kept_of_null copied kept
  · intro first
    rw [terminalSwitch_same (first.trans held.current.symm)]
    intro copy member
    cases member

theorem AltPress.uninitialised (uninitialised : before.Uninitialised)
    (press : AltPress before id after) (kept : after.CopiesKept) : after.Uninitialised := by
  have first := (press.copiesKept_iff uninitialised).mp kept
  have held := uninitialised.holdAlt
  rw [press.switched, terminalSwitch_same (first.trans held.current.symm)]
  exact held

end

/-- At boot no terminal has been initialised, the displayed one included. -/
theorem entry_uninitialised (cells : Int → UInt8) (report : List UInt8) :
    (entry cells report).Uninitialised where
  current := by
    rw [currTerminalId_of_rest (entry_rest cells report)]
    rfl
  page := by
    intro id
    rw [terminals_of_rest (entry_rest cells report)]
    rfl

/-- After boot the copies go where they belong exactly as long as Alt+F1 is the only
combination pressed. -/
theorem copies_kept_iff_first (cells : Int → UInt8) (report : List UInt8)
    (presses : List (Fin 3)) (last : Console) :
    Run (fun before id after => AltPress before id after ∧ after.CopiesKept)
        (entry cells report) presses last ↔
      Run (fun before id after => AltPress before id after ∧ id = 0)
        (entry cells report) presses last :=
  Run.good_iff_allowed Console.Uninitialised (fun _ _ after => after.CopiesKept)
    (fun _ id => id = 0)
    (fun _ _ _ uninitialised press => press.copiesKept_iff uninitialised)
    (fun _ _ _ uninitialised press kept => press.uninitialised uninitialised kept)
    (entry_uninitialised cells report)

/-- Alt+F2 at boot copies the live page to address 0. -/
theorem copies_not_always_kept :
    ¬ ∀ (cells : Int → UInt8) (report : List UInt8) (presses : List (Fin 3)) (last : Console),
      Run AltPress (entry cells report) presses last → last.CopiesKept := by
  intro always
  have press : AltPress (entry (fun _ => 0) []) 1 _ := rfl
  have kept := always _ _ _ _ (.single press)
  exact absurd ((press.copiesKept_iff (entry_uninitialised _ _)).mp kept) (by decide)

end Ece391.Kernel
