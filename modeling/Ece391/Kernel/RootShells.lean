import Ece391.Kernel.Booting
import Ece391.Kernel.Displays

/-!
# The shells of the terminals

`terminal_init` marks a terminal active and executes a shell for it, whatever process the
keyboard interrupt has stopped.  `system_execute` makes a process a root only in slot 0, so
the shell is a root process only when nothing else runs.
-/

namespace Ece391.Kernel

open Ece391.Library

/-- Every address of a page is mapped. -/
def PageMapped (layout : Layout) (paging : Paging) (base : Int) : Prop :=
  ∀ offset ∈ List.range 4096, (translate layout paging (base + (offset : Nat)).toNat).isSome

instance (layout : Layout) (paging : Paging) (base : Int) :
    Decidable (PageMapped layout paging base) :=
  List.decidableBAll _ _

/-- The processes and the terminals.  Two fields are history: the terminal whose
`terminal_init` started the process of a control block, and whether the last
`terminal_init` of a terminal started its shell. -/
structure TerminalSession where
  state : ProcessState
  callers : List ProcessState
  console : Console
  shellOf : Int → Option (Fin 3)
  shellStarted : Fin 3 → Bool

/-- A call of `terminal_init`, of `terminal_switch` by the keyboard handler, or of a process.
The locals are those of the `system_execute` that the call leads to. -/
inductive TerminalCall where
  | init (id : Fin 3) (locals : Locals)
  | switchTo (id : Fin 3) (locals : Locals)
  | execute (command : Option Bytes) (locals : Locals)
  | halt (status : UInt8) (locals : Locals)

namespace TerminalSession

/-- The end of `terminal_init`: the shell is executed, and its failure is ignored. -/
@[irreducible] def startShell (image : Image) (locals : Locals) (session : TerminalSession)
    (id : Fin 3) (console : Console) : Option TerminalSession :=
  match systemExecute image locals session.state (some shellCommand) with
  | .userMode _ _ state =>
      some
        { state := state
          callers := session.state :: session.callers
          console := console
          shellOf := Function.update session.shellOf state.pcbObj (some id)
          shellStarted := Function.update session.shellStarted id true }
  | .returns _ state =>
      some
        { session with
          state := state
          console := console
          shellStarted := Function.update session.shellStarted id false }
  | .resumes .. => none
  | .stuck => none

/-- `terminal_switch`.  A switch that copies an unmapped page faults. -/
def switchTerminal (image : Image) (layout : Layout) (locals : Locals)
    (session : TerminalSession) (id : Fin 3) : Option TerminalSession :=
  let console := session.console.quiet.terminalSwitch id
  if ∀ copy ∈ console.pageCopies, PageMapped layout session.state.paging copy.1 ∧
      PageMapped layout session.state.paging copy.2 then
    if id = session.console.currTerminalId ∨ (session.console.terminals id).active then
      some { session with console := console }
    else session.startShell image locals id console
  else none

/-- `system_execute` called by the running process. -/
def executeProgram (image : Image) (locals : Locals) (session : TerminalSession)
    (command : Option Bytes) : Option TerminalSession :=
  match systemExecute image locals session.state command with
  | .userMode _ _ state =>
      some
        { session with
          state := state
          callers := session.state :: session.callers
          shellOf := Function.update session.shellOf state.pcbObj none }
  | .returns _ state => some { session with state := state }
  | .resumes .. => none
  | .stuck => none

/-- `system_halt`.  A shell that is started again is still the shell of its terminal. -/
def haltProgram (image : Image) (locals : Locals) (session : TerminalSession)
    (status : UInt8) : Option TerminalSession :=
  match systemHalt image locals session.state status with
  | .resumes _ _ _ state =>
      some
        { session with
          state := state
          callers := session.callers.tail
          shellOf := Function.update session.shellOf session.state.pcbObj none }
  | .userMode _ _ state => some { session with state := state }
  | .returns .. => none
  | .stuck => none

/-- The session after a call that completes. -/
def call (image : Image) (layout : Layout) (session : TerminalSession) :
    TerminalCall → Option TerminalSession
  | .init id locals =>
      session.startShell image locals id (session.console.quiet.terminalInit id)
  | .switchTo id locals => session.switchTerminal image layout locals id
  | .execute command locals => session.executeProgram image locals command
  | .halt status locals => session.haltProgram image locals status

/-- After boot no terminal has been initialised. -/
def boot (layout : Layout) (cells : Int → UInt8) (report : List UInt8) : TerminalSession where
  state := bootState layout
  callers := []
  console := Console.entry cells report
  shellOf _ := none
  shellStarted _ := false

end TerminalSession

/-- A completed call. -/
def TerminalStep (image : Image) (layout : Layout) (before : TerminalSession)
    (call : TerminalCall) (after : TerminalSession) : Prop :=
  before.call image layout call = some after

/-- Halting resumes no other process, and starts a shell whenever one can be started. -/
def Restarts (image : Image) (state : ProcessState) : Prop :=
  ∀ locals status,
    (∀ esp ebp ret state',
      systemHalt image locals state status ≠ .resumes esp ebp ret state') ∧
    ∀ eip loaded state',
      systemExecute image locals (restartState state) (some shellCommand) =
        .userMode eip loaded state' →
      systemHalt image locals state status = .userMode eip loaded state'

/-- The shells that `terminal_init` has started are root processes, the running one among
them restarts on its own terminal, and an active terminal has had its shell. -/
structure TerminalSession.Rooted (image : Image) (session : TerminalSession) : Prop where
  parent : ∀ address id, session.shellOf address = some id →
    (session.state.pcbs address).parentPid = -1
  restarts : ∀ id, session.shellOf session.state.pcbObj = some id →
    session.console.currTerminalId = id ∧ Restarts image session.state
  active : ∀ id, (session.console.terminals id).active → session.shellStarted id

/-- No process is active and the shell can be started. -/
def CanRoot (image : Image) (locals : Locals) (state : ProcessState) : Prop :=
  (∀ slot : Nat, slot ≤ 4 → ¬ state.Active slot) ∧
    Starts image locals state (some shellCommand)

/-- `terminal_init` is called only when its shell can become a root process. -/
def TerminalCall.Allowed (image : Image) (session : TerminalSession) : TerminalCall → Prop
  | .init _ locals => CanRoot image locals session.state
  | .switchTo id locals =>
      id ≠ session.console.currTerminalId → (session.console.terminals id).active = false →
        CanRoot image locals session.state
  | .execute _ _ => True
  | .halt _ _ => True

/-! ## Root processes -/

section

variable {image : Image} {layout : Layout} {state : ProcessState} {callers : List ProcessState}

/-- The base shell restarts. -/
theorem Running.restarts_base (running : Running state 0) (image : Image) :
    Restarts image state := by
  intro locals status
  constructor
  · intro esp ebp ret state' halted
    rcases running.halt_base_cases image locals status with stuck | ⟨_, _, _, restarted⟩
    · simp [stuck] at halted
    · simp [restarted] at halted
  · intro eip loaded state' executed
    rw [running.halt_base, executed]
    rfl

/-- A process with parent -1 is the base shell. -/
theorem Nested.base {caller : ProcessState} (nested : Nested layout state (caller :: callers))
    (parent : (state.pcbs state.pcbObj).parentPid = -1) : Running state 0 := by
  have running := nested.1
  have bottom : callers.length = 0 := by
    have linked := running.parentPid
    omega
  rwa [bottom] at running

/-- No process is active only before the first one has been started. -/
theorem Nested.idle_iff (nested : Nested layout state callers) :
    (∀ slot : Nat, slot ≤ 4 → ¬ state.Active slot) ↔ callers = [] := by
  cases callers with
  | nil => exact iff_of_true nested.idle rfl
  | cons caller callers =>
      refine iff_of_false ?_ (by simp)
      intro idle
      exact idle 0 (by omega) (nested.1.isActive (Nat.zero_le _))

/-- A process started while another runs is recorded as its child. -/
theorem started_parent {started : ProcessState} {locals : Locals} {slot : Nat} {args : Bytes}
    (same : started = state.started locals slot args) :
    (started.pcbs started.pcbObj).parentPid = if slot = 0 then -1 else state.pid := by
  subst same
  simp [ProcessState.started]

/-- Halting to the parent writes to no control block but that of the process. -/
theorem haltToParent_pcbs_of_ne {esp ebp esp' ebp' ret : Nat} {status : UInt8}
    {state' : ProcessState}
    (resumed : haltToParent state esp ebp status = .resumes esp' ebp' ret state') {address : Int}
    (other : address ≠ state.pcbObj) : state'.pcbs address = state.pcbs address := by
  rw [haltToParent] at resumed
  split at resumed
  · obtain ⟨_, _, _, rfl⟩ := Outcome.resumes.inj resumed
    simp only [Function.update_of_ne other]
  · cases resumed

/-- A base shell that is started again has parent -1, as it had. -/
theorem Running.restarted_parent (running : Running state 0) {locals : Locals} {args : Bytes}
    {state' : ProcessState} (same : state' = (restartState state).started locals (0 : Nat) args)
    {address : Int} (parent : (state.pcbs address).parentPid = -1) :
    (state'.pcbs address).parentPid = -1 := by
  by_cases own : address = state'.pcbObj
  · rw [own]
    exact (started_parent same).trans (if_pos rfl)
  · rw [started_pcbs_of_ne_pcbObj same own]
    have base : state'.pcbObj = state.pcbObj := by
      rw [running.pcbObj, same]
      rfl
    rw [base] at own
    have kept : (restartState state).pcbs address = state.pcbs address :=
      Function.update_of_ne own ..
    rw [kept, parent]

end

/-! ## Terminals -/

section

variable {console : Console} {id : Fin 3}

/-- What `terminal_init` does to the table of terminals. -/
structure Console.Initialises (before : Console) (id : Fin 3) (after : Console) : Prop where
  current : after.currTerminalId = id
  active : (after.terminals id).active
  others : ∀ other, other ≠ id → (after.terminals other).active = (before.terminals other).active

theorem terminalInit_initialises (console : Console) (id : Fin 3) :
    console.Initialises id (console.quiet.terminalInit id) where
  current := rfl
  active := (Console.terminalInit_ready console.quiet id).active
  others other different := by
    have kept : (console.quiet.terminalInit id).terminals other = console.terminals other :=
      Function.update_of_ne different ..
    rw [kept]

theorem saveTerminal_active (console : Console) (id : Fin 3) :
    (console.saveTerminal.terminals id).active = (console.terminals id).active := by
  by_cases same : id = console.currTerminalId
  · subst same
    simp only [Console.saveTerminal, Console.recordTerminal, Console.setCursor, Console.clear,
      Console.copyPage, Console.clearLine, Function.update_self]
  · rw [Console.saveTerminal_terminals same]

theorem terminalSwitch_initialises (other : id ≠ console.currTerminalId)
    (inactive : (console.terminals id).active = false) :
    console.Initialises id (console.quiet.terminalSwitch id) := by
  have fresh : console.quiet.terminalSwitch id = console.quiet.saveTerminal.terminalInit id :=
    Console.terminalSwitch_fresh other inactive
  rw [fresh]
  refine ⟨rfl, (Console.terminalInit_ready console.quiet.saveTerminal id).active, ?_⟩
  intro terminal different
  have kept : (console.quiet.saveTerminal.terminalInit id).terminals terminal =
      console.quiet.saveTerminal.terminals terminal :=
    Function.update_of_ne different ..
  rw [kept]
  exact saveTerminal_active console.quiet terminal

end

/-! ## One call -/

namespace TerminalSession

variable {image : Image} {layout : Layout} {locals : Locals}
variable {session session' : TerminalSession} {call : TerminalCall}

/-- What every run of rooted sessions keeps: only the terminal that is shown has been
initialised, the shells of `terminal_init` belong to it, and none exists before the first
process. -/
structure Tracked (layout : Layout) (session : TerminalSession) : Prop where
  nested : Nested layout session.state session.callers
  parent : ∀ address id, session.shellOf address = some id →
    (session.state.pcbs address).parentPid = -1
  active : ∀ id, (session.console.terminals id).active → session.shellStarted id
  owned : ∀ address id, session.shellOf address = some id →
    (session.console.terminals id).active
  shown : ∀ id, (session.console.terminals id).active → session.console.currTerminalId = id
  idle : session.callers = [] → ∀ id, session.shellStarted id = false

theorem Tracked.rooted (tracked : Tracked layout session) : session.Rooted image where
  parent := tracked.parent
  restarts id owner := by
    have active := tracked.owned _ id owner
    refine ⟨tracked.shown id active, ?_⟩
    have started := tracked.active id active
    cases callers : session.callers with
    | nil =>
        have never := tracked.idle callers id
        rw [never] at started
        cases started
    | cons caller older =>
        have nested := tracked.nested
        rw [callers] at nested
        exact (nested.base (tracked.parent _ id owner)).restarts_base image
  active := tracked.active

theorem entry_inactive (cells : Int → UInt8) (report : List UInt8) (id : Fin 3) :
    ((Console.entry cells report).terminals id).active = false := by
  rw [Console.terminals_of_rest (Console.entry_rest cells report)]
  rfl

theorem tracked_boot (layout : Layout) (cells : Int → UInt8) (report : List UInt8) :
    Tracked layout (boot layout cells report) where
  nested := bootState_booted layout
  parent address id owner := by cases owner
  active id active := by
    simp only [boot, entry_inactive, Bool.false_eq_true] at active
  owned address id owner := by cases owner
  shown id active := by
    simp only [boot, entry_inactive, Bool.false_eq_true] at active
  idle _ _ := rfl

/-- Before the first process no terminal is active. -/
theorem Tracked.inactive (tracked : Tracked layout session) (first : session.callers = [])
    (id : Fin 3) : (session.console.terminals id).active = false := by
  cases active : (session.console.terminals id).active with
  | false => rfl
  | true =>
      have started := tracked.active id active
      rw [tracked.idle first id] at started
      cases started

theorem Tracked.unowned (tracked : Tracked layout session) (first : session.callers = [])
    (address : Int) : session.shellOf address = none := by
  cases owner : session.shellOf address with
  | none => rfl
  | some id =>
      have active := tracked.owned address id owner
      rw [tracked.inactive first id] at active
      cases active

section

variable {id : Fin 3} {console : Console}

/-- A completed `terminal_init` has started a shell or ignored a failure. -/
theorem startShell_cases
    (completed : session.startShell image locals id console = some session') :
    (Starts image locals session.state (some shellCommand) ∧
      ∃ (slot : Nat) (args : Bytes) (state : ProcessState), slot ≤ 4 ∧
        ¬ session.state.Active slot ∧
        (∀ lower : Nat, lower < slot → session.state.Active lower) ∧
        state = session.state.started locals slot args ∧
        session' =
          { state := state
            callers := session.state :: session.callers
            console := console
            shellOf := Function.update session.shellOf state.pcbObj (some id)
            shellStarted := Function.update session.shellStarted id true }) ∨
      ¬ Starts image locals session.state (some shellCommand) ∧
        session'.console = console ∧ session'.shellStarted id = false := by
  unfold startShell at completed
  cases executed : systemExecute image locals session.state (some shellCommand) with
  | userMode eip loaded state =>
      rw [executed] at completed
      obtain ⟨starts, slot, args, bound, free, least, same⟩ := systemExecute_started executed
      exact .inl ⟨starts, slot, args, state, bound, free, least, same,
        (Option.some.inj completed).symm⟩
  | returns ret state =>
      rw [executed] at completed
      obtain rfl := Option.some.inj completed
      exact .inr ⟨(systemExecute_failed executed).1, rfl, Function.update_self ..⟩
  | resumes esp ebp ret state =>
      rw [executed] at completed
      cases completed
  | stuck =>
      rw [executed] at completed
      cases completed

/-- The shell of `terminal_init` is a root process only if nothing else runs. -/
theorem Tracked.canRoot (tracked : Tracked layout session)
    (initialised : session.console.Initialises id console)
    (completed : session.startShell image locals id console = some session')
    (rooted : session'.Rooted image) : CanRoot image locals session.state := by
  cases startShell_cases completed with
  | inl started =>
      obtain ⟨starts, slot, args, state, bound, free, least, same, rfl⟩ := started
      refine ⟨?_, starts⟩
      have nested := tracked.nested
      have parent := rooted.parent state.pcbObj id (Function.update_self ..)
      rw [started_parent same] at parent
      cases callers : session.callers with
      | nil => exact nested.idle_iff.mpr callers
      | cons caller older =>
          rw [callers] at nested
          have next := nested.1.next_free bound free least
          rw [if_neg (by omega)] at parent
          cases nested.1.pid with
          | inl pid => omega
          | inr full => omega
  | inr failed =>
      obtain ⟨-, shown, never⟩ := failed
      have active : (session'.console.terminals id).active := by
        rw [shown]
        exact initialised.active
      have started := rooted.active id active
      rw [never] at started
      cases started

/-- If it can, what is tracked is kept. -/
theorem Tracked.startShell (tracked : Tracked layout session)
    (initialised : session.console.Initialises id console)
    (completed : session.startShell image locals id console = some session')
    (able : CanRoot image locals session.state) : Tracked layout session' := by
  have first := tracked.nested.idle_iff.mp able.1
  have only {other : Fin 3} (active : (console.terminals other).active) : other = id := by
    by_contra different
    rw [initialised.others other different, tracked.inactive first other] at active
    cases active
  cases startShell_cases completed with
  | inl started =>
      obtain ⟨-, slot, args, state, bound, free, least, same, rfl⟩ := started
      have base : slot = 0 := by
        by_contra positive
        exact able.1 0 (by omega) (least 0 (by omega))
      have nested : Nested layout state (session.state :: session.callers) := by
        rw [same]
        exact tracked.nested.started args bound free least
      have owner {address : Int} {other : Fin 3}
          (owned : Function.update session.shellOf state.pcbObj (some id) address = some other) :
          address = state.pcbObj ∧ id = other := by
        by_cases here : address = state.pcbObj
        · rw [here, Function.update_self] at owned
          exact ⟨here, Option.some.inj owned⟩
        · rw [Function.update_of_ne here, tracked.unowned first] at owned
          cases owned
      refine ⟨nested, ?_, ?_, ?_, ?_, ?_⟩
      · intro address other owned
        rw [(owner owned).1]
        exact (started_parent same).trans (if_pos base)
      · intro other active
        rw [only active]
        exact Function.update_self ..
      · intro address other owned
        rw [← (owner owned).2]
        exact initialised.active
      · intro other active
        rw [only active]
        exact initialised.current
      · intro none
        cases none
  | inr failed => exact absurd able.2 failed.1

/-- What is tracked is kept by a call that starts no shell for a terminal. -/
theorem Tracked.frame (tracked : Tracked layout session)
    (nested : Nested layout session'.state session'.callers)
    (terminals : session'.console.terminals = session.console.terminals)
    (current : session'.console.currTerminalId = session.console.currTerminalId)
    (started : session'.shellStarted = session.shellStarted)
    (owned : ∀ address id, session'.shellOf address = some id →
      session.shellOf address = some id ∧ (session'.state.pcbs address).parentPid = -1)
    (first : session'.callers = [] → session.callers = []) : Tracked layout session' where
  nested := nested
  parent address id owner := (owned address id owner).2
  active id active := by
    rw [terminals] at active
    rw [started]
    exact tracked.active id active
  owned address id owner := by
    rw [terminals]
    exact tracked.owned address id (owned address id owner).1
  shown id active := by
    rw [terminals] at active
    rw [current]
    exact tracked.shown id active
  idle none := by
    rw [started]
    exact tracked.idle (first none)

/-- Releasing a control block leaves the others with the shells they had. -/
theorem owner_of_released {shellOf : Int → Option (Fin 3)} {released address : Int}
    (owner : Function.update shellOf released none address = some id) :
    address ≠ released ∧ shellOf address = some id := by
  by_cases here : address = released
  · rw [here, Function.update_self] at owner
    cases owner
  · rw [Function.update_of_ne here] at owner
    exact ⟨here, owner⟩

theorem Tracked.executeProgram (tracked : Tracked layout session) {command : Option Bytes}
    (completed : session.executeProgram image locals command = some session') :
    Tracked layout session' := by
  unfold TerminalSession.executeProgram at completed
  cases executed : systemExecute image locals session.state command with
  | userMode eip loaded state =>
      rw [executed] at completed
      obtain rfl := Option.some.inj completed
      have nested := tracked.nested.step (.started executed)
      refine tracked.frame nested rfl rfl rfl ?_ (by simp)
      intro address id owner
      obtain ⟨other, owned⟩ := owner_of_released owner
      obtain ⟨-, slot, args, -, -, -, same⟩ := systemExecute_started executed
      refine ⟨owned, ?_⟩
      change (state.pcbs address).parentPid = -1
      rw [started_pcbs_of_ne_pcbObj same other]
      exact tracked.parent address id owned
  | returns ret state =>
      rw [executed] at completed
      obtain rfl := Option.some.inj completed
      have nested := tracked.nested.step (.failed executed)
      refine tracked.frame nested rfl rfl rfl ?_ (fun none => none)
      intro address id owner
      refine ⟨owner, ?_⟩
      have pcbs : state.pcbs = session.state.pcbs := by
        cases (systemExecute_failed executed).2 with
        | inl same => rw [same]
        | inr full => rw [full.2]
      change (state.pcbs address).parentPid = -1
      rw [pcbs]
      exact tracked.parent address id owner
  | resumes esp ebp ret state =>
      rw [executed] at completed
      cases completed
  | stuck =>
      rw [executed] at completed
      cases completed

theorem Tracked.haltProgram (tracked : Tracked layout session) {status : UInt8}
    (completed : session.haltProgram image locals status = some session') :
    Tracked layout session' := by
  have nested := tracked.nested
  unfold TerminalSession.haltProgram at completed
  cases halted : systemHalt image locals session.state status with
  | resumes esp ebp ret state =>
      rw [halted] at completed
      obtain rfl := Option.some.inj completed
      have after := nested.step (.resumed halted)
      obtain ⟨caller, parent, older, shape, resumed⟩ := nested.resumed_cases halted
      refine tracked.frame after rfl rfl rfl ?_ (by simp [shape])
      intro address id owner
      obtain ⟨other, owned⟩ := owner_of_released owner
      refine ⟨owned, ?_⟩
      change (state.pcbs address).parentPid = -1
      rw [haltToParent_pcbs_of_ne resumed other]
      exact tracked.parent address id owned
  | userMode eip loaded state =>
      rw [halted] at completed
      obtain rfl := Option.some.inj completed
      have after := nested.step (.restarted halted)
      obtain ⟨-, args, -, running, same⟩ := nested.restarted_cases halted
      refine tracked.frame after rfl rfl rfl ?_ (fun none => none)
      intro address id owner
      exact ⟨owner, running.restarted_parent same (tracked.parent address id owner)⟩
  | returns ret state =>
      rw [halted] at completed
      cases completed
  | stuck =>
      rw [halted] at completed
      cases completed

/-- A switch to a terminal that is active, or shown already, finds it shown. -/
theorem Tracked.switchTerminal_cases (tracked : Tracked layout session)
    (completed : session.switchTerminal image layout locals id = some session') :
    (¬ (id ≠ session.console.currTerminalId ∧ (session.console.terminals id).active = false) ∧
      session' = { session with console := session.console.quiet }) ∨
      session.console.Initialises id (session.console.quiet.terminalSwitch id) ∧
        (id ≠ session.console.currTerminalId ∧ (session.console.terminals id).active = false) ∧
        session.startShell image locals id (session.console.quiet.terminalSwitch id) =
          some session' := by
  unfold TerminalSession.switchTerminal at completed
  simp only at completed
  split at completed
  · split at completed
    next ready =>
      have same : id = session.console.currTerminalId := by
        cases ready with
        | inl same => exact same
        | inr active => exact (tracked.shown id active).symm
      have unchanged : session.console.quiet.terminalSwitch id = session.console.quiet :=
        Console.terminalSwitch_same same
      rw [unchanged] at completed
      refine .inl ⟨?_, (Option.some.inj completed).symm⟩
      intro other
      exact other.1 same
    next fresh =>
      have other : id ≠ session.console.currTerminalId := fun same => fresh (.inl same)
      have inactive : (session.console.terminals id).active = false :=
        Bool.eq_false_iff.mpr fun active => fresh (.inr active)
      exact .inr ⟨terminalSwitch_initialises other inactive, ⟨other, inactive⟩, completed⟩
  · cases completed

/-- A call that leaves a rooted session was allowed. -/
theorem Tracked.allowed (tracked : Tracked layout session)
    (step : TerminalStep image layout session call session')
    (rooted : session'.Rooted image) : call.Allowed image session := by
  cases call with
  | init id locals =>
      exact tracked.canRoot (terminalInit_initialises session.console id) step rooted
  | switchTo id locals =>
      intro other inactive
      cases tracked.switchTerminal_cases step with
      | inl shown => exact absurd ⟨other, inactive⟩ shown.1
      | inr fresh => exact tracked.canRoot fresh.1 fresh.2.2 rooted
  | execute command locals => trivial
  | halt status locals => trivial

/-- An allowed call keeps what is tracked. -/
theorem Tracked.step (tracked : Tracked layout session)
    (step : TerminalStep image layout session call session')
    (allowed : call.Allowed image session) : Tracked layout session' := by
  cases call with
  | init id locals =>
      have completed : session.startShell image locals id
          (session.console.quiet.terminalInit id) = some session' := step
      exact tracked.startShell (terminalInit_initialises session.console id) completed allowed
  | switchTo id locals =>
      cases tracked.switchTerminal_cases step with
      | inl shown =>
          rw [shown.2]
          refine tracked.frame tracked.nested rfl rfl rfl ?_ (fun none => none)
          intro address id owner
          exact ⟨owner, tracked.parent address id owner⟩
      | inr fresh =>
          obtain ⟨initialised, ⟨other, inactive⟩, started⟩ := fresh
          exact tracked.startShell initialised started (allowed other inactive)
  | execute command locals => exact tracked.executeProgram step
  | halt status locals => exact tracked.haltProgram step

end

end TerminalSession

/-- In a run after boot the shells of the terminals are root processes, restart on their
own terminals and exist for every active terminal exactly as long as `terminal_init` is
called only while no process is active and the shell can be started. -/
theorem shells_rooted_iff_allowed {image : Image} {layout : Layout} {cells : Int → UInt8}
    {report : List UInt8} {calls : List TerminalCall} {session : TerminalSession} :
    Run (fun before call after => TerminalStep image layout before call after ∧
          after.Rooted image)
        (TerminalSession.boot layout cells report) calls session ↔
      Run (fun before call after => TerminalStep image layout before call after ∧
          call.Allowed image before)
        (TerminalSession.boot layout cells report) calls session :=
  Run.good_iff_allowed (TerminalSession.Tracked layout) (fun _ _ after => after.Rooted image)
    (fun before (call : TerminalCall) => call.Allowed image before)
    (fun _ _ _ tracked step =>
      ⟨tracked.allowed step, fun allowed => (tracked.step step allowed).rooted⟩)
    (fun _ _ _ tracked step rooted => tracked.step step (tracked.allowed step rooted))
    (TerminalSession.tracked_boot layout cells report)

/-- The video pages are mapped. -/
theorem Represents.pageMapped {layout : Layout} {paging : Paging} {windows : Windows}
    (represents : Represents layout paging windows) {base : Int} (low : 0xB8000 ≤ base)
    (high : base + 4096 ≤ 0xBC000) : PageMapped layout paging base := by
  intro offset member
  rw [List.mem_range] at member
  have kernel : ¬ (0x400000 ≤ (base + offset).toNat ∧ (base + offset).toNat < 0x800000) := by
    omega
  have video : 0xB8000 ≤ (base + offset).toNat ∧ (base + offset).toNat < 0xBC000 := by omega
  rw [represents.translate (by omega), Windows.map, if_neg kernel, if_pos video]
  rfl

/-- A switch from an initialised terminal to a new one does not fault. -/
theorem TerminalSession.switchTerminal_fresh {image : Image} {layout : Layout}
    {locals : Locals} {session : TerminalSession} {id : Fin 3} {windows : Windows}
    (ready : session.console.Ready session.console.currTerminalId)
    (other : id ≠ session.console.currTerminalId)
    (inactive : (session.console.terminals id).active = false)
    (represents : Represents layout session.state.paging windows) :
    session.switchTerminal image layout locals id =
      session.startShell image locals id (session.console.quiet.terminalSwitch id) := by
  have fresh : session.console.quiet.terminalSwitch id =
      session.console.quiet.saveTerminal.terminalInit id :=
    Console.terminalSwitch_fresh other inactive
  have copies : (session.console.quiet.terminalSwitch id).pageCopies =
      [((Console.backingPage session.console.currTerminalId : Int), video)] := by
    rw [fresh, ← ready.page]
    rfl
  have mapped : ∀ copy ∈ (session.console.quiet.terminalSwitch id).pageCopies,
      PageMapped layout session.state.paging copy.1 ∧
        PageMapped layout session.state.paging copy.2 := by
    intro copy member
    rw [copies, List.mem_singleton] at member
    rw [member]
    constructor
    · apply represents.pageMapped
      all_goals
        simp only [Console.backingPage]
        omega
    · apply represents.pageMapped
      all_goals
        simp only [video]
        omega
  have away : ¬ (id = session.console.currTerminalId ∨
      (session.console.terminals id).active = true) := by
    rw [inactive]
    simp [other]
  unfold switchTerminal
  simp only [if_pos mapped, if_neg away]

section

variable {image : Image} {layout : Layout} {locals : Locals} {session : TerminalSession}
variable {id : Fin 3} {eip : Nat} {loaded : List UInt8} {state : ProcessState}

/-- The session after a `terminal_init` whose shell starts. -/
def TerminalSession.withShell (session : TerminalSession) (id : Fin 3) (console : Console)
    (state : ProcessState) : TerminalSession where
  state := state
  callers := session.state :: session.callers
  console := console
  shellOf := Function.update session.shellOf state.pcbObj (some id)
  shellStarted := Function.update session.shellStarted id true

theorem TerminalSession.startShell_started (console : Console)
    (executed : systemExecute image locals session.state (some shellCommand) =
      .userMode eip loaded state) :
    session.startShell image locals id console = some (session.withShell id console state) := by
  unfold startShell
  rw [executed]
  rfl

theorem TerminalStep.init (layout : Layout) (id : Fin 3)
    (executed : systemExecute image locals session.state (some shellCommand) =
      .userMode eip loaded state) :
    TerminalStep image layout session (.init id locals)
      (session.withShell id (session.console.quiet.terminalInit id) state) :=
  TerminalSession.startShell_started (session.console.quiet.terminalInit id) executed

theorem TerminalStep.switchTo {windows : Windows}
    (ready : session.console.Ready session.console.currTerminalId)
    (other : id ≠ session.console.currTerminalId)
    (inactive : (session.console.terminals id).active = false)
    (represents : Represents layout session.state.paging windows)
    (executed : systemExecute image locals session.state (some shellCommand) =
      .userMode eip loaded state) :
    TerminalStep image layout session (.switchTo id locals)
      (session.withShell id (session.console.quiet.terminalSwitch id) state) :=
  (TerminalSession.switchTerminal_fresh ready other inactive represents).trans
    (TerminalSession.startShell_started (session.console.quiet.terminalSwitch id) executed)

end

/-- Switching to a new terminal while the base shell runs gives it a shell that is not a
root process. -/
theorem TerminalSession.Tracked.second_shell {image : Image} {layout : Layout}
    {session : TerminalSession} {id : Fin 3} {windows : Windows}
    (tracked : session.Tracked layout) (running : Running session.state 0)
    (bootable : image.Bootable) (locals : Locals) (index : 5 - locals.argStartingIndex ≤ 128)
    (ready : session.console.Ready session.console.currTerminalId)
    (other : id ≠ session.console.currTerminalId)
    (inactive : (session.console.terminals id).active = false)
    (represents : Represents layout session.state.paging windows) :
    ∃ session', TerminalStep image layout session (.switchTo id locals) session' ∧
      ¬ session'.Rooted image := by
  obtain ⟨_, _, executed⟩ := bootable.shell_starts locals index (running.assignPID (by omega))
  have switch := TerminalStep.switchTo ready other inactive represents executed
  refine ⟨_, switch, ?_⟩
  intro rooted
  have able := tracked.allowed switch rooted other inactive
  exact able.1 0 (by omega) (running.isActive (Nat.zero_le 0))

/-- Before the first process a terminal gets the base shell. -/
theorem TerminalSession.Tracked.first_shell {image : Image} {layout : Layout}
    {session : TerminalSession} (tracked : session.Tracked layout)
    (first : session.callers = []) (bootable : image.Bootable) (locals : Locals)
    (index : 5 - locals.argStartingIndex ≤ 128) (id : Fin 3) :
    ∃ session', TerminalStep image layout session (.init id locals) session' ∧
      session'.Tracked layout ∧ Running session'.state 0 ∧
      session'.state.paging = executePagingInit (1 : Nat) session.state.paging ∧
      session'.console = session.console.quiet.terminalInit id := by
  have idle := tracked.nested.idle_iff.mpr first
  obtain ⟨_, _, executed⟩ := bootable.shell_starts locals index (assignPID_idle idle)
  have init := TerminalStep.init layout id executed
  have after := tracked.step init ⟨idle, (systemExecute_started executed).1⟩
  refine ⟨_, init, after, ?_, rfl, rfl⟩
  have nested := after.nested
  have callers : (session.withShell id (session.console.quiet.terminalInit id)
      (session.state.started locals (0 : Nat) (shellArgs locals))).callers = [session.state] := by
    rw [withShell, first]
  rw [callers] at nested
  exact nested.1

/-- The first terminal is initialised and the second one switched to: its shell is a child
of the first one's. -/
theorem shells_not_always_rooted :
    ¬ ∀ (image : Image) (layout : Layout) (cells : Int → UInt8) (report : List UInt8)
      (calls : List TerminalCall) (session : TerminalSession),
      Run (TerminalStep image layout) (TerminalSession.boot layout cells report) calls session →
      session.Rooted image := by
  intro always
  have booted := TerminalSession.tracked_boot smallLayout (fun _ => 0) []
  obtain ⟨session, init, tracked, running, paging, console⟩ :=
    booted.first_shell rfl smallImage_bootable zeroLocals (by decide) 0
  have represents : Represents smallLayout session.state.paging ⟨some 1, false⟩ := by
    rw [paging]
    exact (represents_boot smallLayout).executePagingInit (by omega) (by omega)
  have ready : session.console.Ready session.console.currTerminalId := by
    rw [console]
    exact Console.terminalInit_ready _ 0
  have initialised := terminalInit_initialises (Console.entry (fun _ => 0) []) 0
  have inactive : (session.console.terminals 1).active = false := by
    rw [console]
    exact (initialised.others 1 (by decide)).trans (TerminalSession.entry_inactive _ [] 1)
  have other : (1 : Fin 3) ≠ session.console.currTerminalId := by
    rw [console]
    decide
  obtain ⟨session', switch, unrooted⟩ :=
    tracked.second_shell running smallImage_bootable zeroLocals (by decide) ready
      other inactive represents
  exact unrooted (always _ _ _ _ _ _ (.cons init (.single switch)))

end Ece391.Kernel
