import Ece391.Kernel.Process
import Ece391.Library.LinkedList

/-!
# Nested processes

In any run of `system_execute` and `system_halt` the processes form one chain: each
was started by the one below it and sits in the next slot.  A session pairs the
process state with the states in which the running programs' executions were
requested, newest first, so that what a halt returns to can be compared with what
the executor left.
-/

namespace Ece391.Kernel

open Ece391.Library

/-- A call that starts or ends a process. -/
inductive ProcessCall where
  | execute (command : Option Bytes) (locals : Locals)
  | halt (status : UInt8) (locals : Locals)

/-- The process state with the states of the pending callers. -/
structure Session where
  state : ProcessState
  callers : List ProcessState

/-- A completed call.  A started program has its caller pending until it halts; a
failed call and the restart of the base shell leave the pending callers alone. -/
inductive ProcessStep (image : Image) : Session → ProcessCall → Session → Prop where
  | started {state state' : ProcessState} {callers : List ProcessState}
      {command : Option Bytes} {locals : Locals} {eip : Nat} {loaded : List UInt8} :
      systemExecute image locals state command = .userMode eip loaded state' →
      ProcessStep image ⟨state, callers⟩ (.execute command locals) ⟨state', state :: callers⟩
  | failed {state state' : ProcessState} {callers : List ProcessState}
      {command : Option Bytes} {locals : Locals} {ret : Int} :
      systemExecute image locals state command = .returns ret state' →
      ProcessStep image ⟨state, callers⟩ (.execute command locals) ⟨state', callers⟩
  | resumed {state state' : ProcessState} {callers : List ProcessState} {status : UInt8}
      {locals : Locals} {esp ebp ret : Nat} :
      systemHalt image locals state status = .resumes esp ebp ret state' →
      ProcessStep image ⟨state, callers⟩ (.halt status locals) ⟨state', callers.tail⟩
  | restarted {state state' : ProcessState} {callers : List ProcessState} {status : UInt8}
      {locals : Locals} {eip : Nat} {loaded : List UInt8} :
      systemHalt image locals state status = .userMode eip loaded state' →
      ProcessStep image ⟨state, callers⟩ (.halt status locals) ⟨state', callers⟩

/-! ## The invariant -/

/-- No process is active and none has run since boot. -/
structure Booted (layout : Layout) (state : ProcessState) : Prop where
  pid : state.pid = 0
  pcbObj : state.pcbObj = 0
  idle : ∀ slot : Nat, slot ≤ 4 → ¬state.Active slot
  window : state.paging.kernelPageDirectory 32 = initPde layout 32

/-- The process in slot `cur` runs, and the slots up to it hold its ancestors.  A
failed `assign_PID` leaves its error code in `pid` when all slots are used. -/
structure Running (state : ProcessState) (cur : Nat) : Prop where
  bound : cur ≤ 4
  pcbObj : state.pcbObj = findPCB cur
  active : ∀ slot : Nat, slot ≤ cur → (state.pcbs (findPCB slot)).active = 1 ∧
    (state.pcbs (findPCB slot)).pcbPid = slot ∧
    (state.pcbs (findPCB slot)).parentPid = (slot : Int) - 1
  free : ∀ slot : Nat, slot ≤ 4 → cur < slot → ¬state.Active slot
  esp0 : state.tssEsp0 = 0x800000 - 0x2000 * cur - 4
  window : state.paging.kernelPageDirectory 32 = programPde (cur + 1)
  pid : state.pid = cur ∨ cur = 4 ∧ state.pid = -99

/-- The pending callers are the earlier states of the chain, and the control blocks
of the processes below the running one are as its caller left them. -/
def Nested (layout : Layout) : ProcessState → List ProcessState → Prop
  | state, [] => Booted layout state
  | state, caller :: callers =>
      Running state callers.length ∧
      (∀ slot : Nat, slot < callers.length →
        state.pcbs (findPCB slot) = caller.pcbs (findPCB slot)) ∧
      Nested layout caller callers

section Start

variable {image : Image} {layout : Layout} {locals : Locals}
variable {state caller : ProcessState} {callers : List ProcessState} {cur slot : Nat}

theorem Running.isActive (running : Running state cur) (below : slot ≤ cur) :
    state.Active slot := by
  simp [ProcessState.Active, running.active slot below]

/-- The next slot is the lowest free one. -/
theorem Running.next_free (running : Running state cur) (bound : slot ≤ 4)
    (free : ¬state.Active slot) (least : ∀ lower : Nat, lower < slot → state.Active lower) :
    slot = cur + 1 := by
  have above : cur < slot := by
    by_contra below
    exact free (running.isActive (Nat.not_lt.mp below))
  by_contra gap
  exact running.free (cur + 1) (by omega) (by omega) (least (cur + 1) (by omega))

/-- Starting a process writes to no control block but its own. -/
theorem started_pcbs_of_ne_pcbObj {started : ProcessState} {args : Bytes}
    (same : started = state.started locals slot args) {address : Int}
    (other : address ≠ started.pcbObj) : started.pcbs address = state.pcbs address := by
  subst same
  simp only [ProcessState.started] at other ⊢
  rw [Function.update_of_ne other]

theorem started_pcbs_of_ne (args : Bytes) {other : Nat} (different : other ≠ slot) :
    (state.started locals slot args).pcbs (findPCB other) = state.pcbs (findPCB other) := by
  apply started_pcbs_of_ne_pcbObj rfl
  change findPCB (other : Int) ≠ findPCB slot
  rw [ne_eq, findPCB_inj]
  omega

theorem started_esp0 (bound : slot ≤ 4) (args : Bytes) :
    (state.started locals slot args).tssEsp0 = 0x800000 - 0x2000 * slot - 4 := by
  simp only [ProcessState.started, findPCB, uint32]
  omega

/-- Starting a program in the slot above the ancestors makes it the running one. -/
theorem started_running (args : Bytes) (bound : slot ≤ 4)
    (below : ∀ lower : Nat, lower < slot → (state.pcbs (findPCB lower)).active = 1 ∧
      (state.pcbs (findPCB lower)).pcbPid = lower ∧
      (state.pcbs (findPCB lower)).parentPid = (lower : Int) - 1)
    (above : ∀ higher : Nat, higher ≤ 4 → slot < higher → ¬state.Active higher)
    (parent : slot ≠ 0 → state.pid = (slot : Int) - 1)
    (before : (∃ layout, state.paging.kernelPageDirectory 32 = initPde layout 32) ∨
      ∃ k, state.paging.kernelPageDirectory 32 = programPde k) :
    Running (state.started locals slot args) slot where
  bound := bound
  pcbObj := rfl
  active lower low := by
    by_cases same : lower = slot
    · subst same
      simp only [ProcessState.started, Function.update_self, true_and]
      split
      next zero => omega
      next nonzero => exact parent (by omega)
    · rw [started_pcbs_of_ne args same]
      exact below lower (by omega)
  free higher high beyond := by
    rw [ProcessState.Active, started_pcbs_of_ne args (by omega)]
    exact above higher high beyond
  esp0 := started_esp0 bound args
  window := executePagingInit_pde (k := slot + 1) (by omega) before
  pid := .inl rfl

/-- A started program joins the chain with its caller pending. -/
theorem Nested.started (nested : Nested layout state callers) (args : Bytes)
    (bound : slot ≤ 4) (free : ¬state.Active slot)
    (least : ∀ lower : Nat, lower < slot → state.Active lower) :
    Nested layout (state.started locals slot args) (state :: callers) := by
  cases callers with
  | nil =>
      obtain rfl : slot = 0 := by
        by_contra positive
        exact nested.idle 0 (by omega) (least 0 (by omega))
      refine ⟨started_running args bound (fun lower low => absurd low (by omega))
        (fun higher high _ => nested.idle higher high) (fun positive => absurd rfl positive)
        (.inl ⟨layout, nested.window⟩), fun lower low => absurd low (by simp), nested⟩
  | cons caller callers =>
      have running := nested.1
      obtain rfl := running.next_free bound free least
      have pid : state.pid = callers.length := by
        rcases running.pid with pid | ⟨last, _⟩
        · exact pid
        · omega
      refine ⟨started_running args bound (fun lower low => running.active lower (by omega))
        (fun higher high beyond => running.free higher high (by omega)) (fun _ => ?_)
        (.inr ⟨_, running.window⟩), fun lower low => ?_, nested⟩
      · rw [pid]
        omega
      · rw [List.length_cons] at low
        exact started_pcbs_of_ne args (by omega)

/-- A failed `assign_PID` changes only the global `pid`. -/
theorem Nested.full (nested : Nested layout state callers)
    (full : ∀ slot : Nat, slot ≤ 4 → state.Active slot) :
    Nested layout { state with pid := -99 } callers := by
  cases callers with
  | nil => exact absurd (full 0 (by omega)) (nested.idle 0 (by omega))
  | cons caller callers =>
      obtain ⟨running, same, below⟩ := nested
      have last : callers.length = 4 := by
        have bound := running.bound
        by_contra short
        exact running.free 4 (by omega) (by omega) (full 4 (by omega))
      exact ⟨{ running with pid := .inr ⟨last, rfl⟩ }, same, below⟩

end Start

section Halt

variable {image : Image} {layout : Layout} {locals : Locals} {status : UInt8}
variable {state caller : ProcessState} {callers : List ProcessState} {cur : Nat}

theorem accessible_findPCB {slot : Nat} (bound : slot ≤ 4) : Accessible (findPCB slot) := by
  simp only [Accessible, findPCB]
  omega

/-- The return value of a halted program, as its executor receives it. -/
def retStatus (status : UInt8) : Nat :=
  if status = 255 then 256 else status.toNat

/-- What halting leaves when the parent sits in a slot. -/
theorem haltToParent_spec (esp ebp : Nat) (status : UInt8) {parent : Nat} (bound : parent ≤ 4)
    (child : (state.pcbs state.pcbObj).parentPid = parent) :
    ∃ state', haltToParent state esp ebp status = .resumes esp ebp (retStatus status) state' ∧
      state'.pid = parent ∧ state'.pcbObj = findPCB parent ∧
      (∀ address, address ≠ state.pcbObj → state'.pcbs address = state.pcbs address) ∧
      (state'.pcbs state.pcbObj).active = 0 ∧
      state'.tssEsp0 = 0x800000 - 0x2000 * parent - 4 ∧
      state'.paging = executePagingInit ((parent + 1 : Nat) : Int) state.paging := by
  have access := accessible_findPCB bound
  simp only [haltToParent, Pcb.cleared, child, access, if_true]
  refine ⟨_, rfl, rfl, rfl, fun address other => ?_, ?_, ?_, rfl⟩
  · simp [other]
  · simp
  · simp only [uint32]
    omega

/-- The base shell has no parent to return to. -/
theorem haltToParent_base {esp ebp : Nat}
    (base : (state.pcbs state.pcbObj).parentPid = -1) :
    haltToParent state esp ebp status = .stuck := by
  have outside : ¬Accessible (findPCB (-1)) := by decide
  simp [haltToParent, Pcb.cleared, base, outside]

theorem Running.accessible (running : Running state cur) : Accessible state.pcbObj := by
  rw [running.pcbObj]
  exact accessible_findPCB running.bound

theorem Running.parentPid (running : Running state cur) :
    (state.pcbs state.pcbObj).parentPid = (cur : Int) - 1 := by
  rw [running.pcbObj]
  exact (running.active cur (Nat.le_refl cur)).2.2

/-- A process above the base shell halts to its parent. -/
theorem Running.halt_child (running : Running state (cur + 1)) :
    systemHalt image locals state status =
      haltToParent state (state.pcbs state.pcbObj).espVal (state.pcbs state.pcbObj).ebpVal
        status := by
  have child : ¬(state.pid = 0 ∧ (state.pcbs state.pcbObj).parentPid = -1) := by
    rw [running.parentPid]
    omega
  rw [systemHalt, if_pos running.accessible]
  exact if_neg child

/-- The base shell is started again from a state with every slot free. -/
theorem Running.halt_base (running : Running state 0) :
    systemHalt image locals state status =
      afterRestart (state.pcbs state.pcbObj).espVal (state.pcbs state.pcbObj).ebpVal status
        (systemExecute image locals (restartState state) (some shellCommand)) := by
  have base : state.pid = 0 ∧ (state.pcbs state.pcbObj).parentPid = -1 := by
    rw [running.parentPid]
    rcases running.pid with pid | ⟨last, _⟩
    · exact ⟨pid, rfl⟩
    · omega
  rw [systemHalt, if_pos running.accessible]
  exact if_pos base

theorem Running.restart_idle (running : Running state 0) (slot : Nat) (bound : slot ≤ 4) :
    ¬(restartState state).Active slot := by
  simp only [ProcessState.Active, restartState, running.pcbObj]
  by_cases same : slot = 0
  · simp [same, Pcb.cleared]
  · have apart : findPCB slot ≠ findPCB (0 : Nat) := by
      rw [ne_eq, findPCB_inj]
      omega
    rw [Function.update_of_ne apart]
    exact running.free slot bound (by omega)

theorem Running.restart_window (running : Running state 0) :
    (restartState state).paging.kernelPageDirectory 32 = programPde 0 :=
  executePagingInit_pde (k := 0) (by omega) (.inr ⟨_, running.window⟩)

/-- Started again, the base shell is the only process. -/
theorem Running.restarted (running : Running state 0) (args : Bytes) :
    Running ((restartState state).started locals (0 : Nat) args) 0 :=
  started_running args (by omega) (fun lower low => absurd low (by omega))
    (fun higher high _ => running.restart_idle higher high) (fun positive => absurd rfl positive)
    (.inr ⟨0, running.restart_window⟩)

/-- Halting the base shell either starts it again or does not complete. -/
theorem Running.halt_base_cases (running : Running state 0) (image : Image)
    (locals : Locals) (status : UInt8) :
    systemHalt image locals state status = .stuck ∨
      ∃ inode args,
        resolveCommand image locals (some shellCommand) = .program inode args ∧
        systemHalt image locals state status =
          .userMode (userEip image locals inode) (fileBytes image inode)
            ((restartState state).started locals (0 : Nat) args) := by
  have base : ((restartState state).pcbs (restartState state).pcbObj).parentPid = -1 := by
    have parent := running.parentPid
    simpa [restartState, Pcb.cleared] using parent
  rw [running.halt_base]
  rcases systemExecute_cases image locals (restartState state) (some shellCommand) with
    stuck | ⟨_, refused⟩ | ⟨_, _, _, full, _⟩ | ⟨inode, args, slot, resolved, _, _, least, executed⟩
  · rw [stuck]
    exact .inl rfl
  · rw [refused]
    exact .inl (haltToParent_base base)
  · exact absurd (full 0 (by omega)) (running.restart_idle 0 (by omega))
  · obtain rfl : slot = 0 := by
      by_contra positive
      exact running.restart_idle 0 (by omega) (least 0 (by omega))
    rw [executed]
    exact .inr ⟨inode, args, resolved, rfl⟩

/-- After a child halts its caller's part of the chain is as before the child. -/
theorem Nested.halt_child (nested : Nested layout state (caller :: callers))
    (child : callers ≠ []) (image : Image) (locals : Locals) (status : UInt8) :
    ∃ state', systemHalt image locals state status =
        .resumes (state.pcbs state.pcbObj).espVal (state.pcbs state.pcbObj).ebpVal
          (retStatus status) state' ∧
      Nested layout state' callers ∧ state'.pcbObj = caller.pcbObj ∧
      state'.pcbs state'.pcbObj = caller.pcbs caller.pcbObj ∧
      state'.tssEsp0 = caller.tssEsp0 ∧
      state'.paging.kernelPageDirectory 32 = caller.paging.kernelPageDirectory 32 := by
  obtain ⟨running, same, below⟩ := nested
  cases callers with
  | nil => exact absurd rfl child
  | cons caller' callers =>
      obtain ⟨runningCaller, same', below'⟩ := below
      rw [List.length_cons] at running same
      have bound := running.bound
      have parent : (state.pcbs state.pcbObj).parentPid = callers.length := by
        rw [running.parentPid]
        omega
      obtain ⟨state', resumed, pid, pcbObj, others, cleared, esp0, paging⟩ :=
        haltToParent_spec (state.pcbs state.pcbObj).espVal (state.pcbs state.pcbObj).ebpVal
          status (by omega) parent
      have kept {slot : Nat} (low : slot ≤ callers.length) :
          state'.pcbs (findPCB slot) = state.pcbs (findPCB slot) := by
        apply others
        rw [running.pcbObj, ne_eq, findPCB_inj]
        omega
      have window : state'.paging.kernelPageDirectory 32 = programPde (callers.length + 1) := by
        rw [paging]
        exact executePagingInit_pde (by omega) (.inr ⟨_, running.window⟩)
      have free (slot : Nat) (bound : slot ≤ 4) (above : callers.length < slot) :
          ¬state'.Active slot := by
        by_cases top : slot = callers.length + 1
        · rw [ProcessState.Active, top, ← running.pcbObj, cleared]
          simp
        · have unchanged : state'.pcbs (findPCB slot) = state.pcbs (findPCB slot) := by
            apply others
            rw [running.pcbObj, ne_eq, findPCB_inj]
            omega
          rw [ProcessState.Active, unchanged]
          exact running.free slot bound (by omega)
      refine ⟨state', ?_, ⟨⟨by omega, pcbObj, fun slot low => ?_, free, esp0, window, .inl pid⟩,
        fun slot low => ?_, below'⟩, ?_, ?_, ?_, ?_⟩
      · rw [running.halt_child, resumed]
      · rw [kept low]
        exact running.active slot (by omega)
      · rw [kept (by omega), same slot (by omega), same' slot low]
      · rw [pcbObj, runningCaller.pcbObj]
      · rw [pcbObj, runningCaller.pcbObj, kept (Nat.le_refl _), same _ (by omega)]
      · rw [esp0, runningCaller.esp0]
      · rw [window, runningCaller.window]

/-- Before the first program there is nothing to halt. -/
theorem Booted.halt (booted : Booted layout state) :
    systemHalt image locals state status = .stuck := by
  have null : ¬Accessible state.pcbObj := by
    rw [booted.pcbObj]
    decide
  rw [systemHalt, if_neg null]

/-- A halt that resumes a frame has halted a process above the base shell to its parent. -/
theorem Nested.resumed_cases {state' : ProcessState} (nested : Nested layout state callers)
    {esp ebp ret : Nat}
    (halted : systemHalt image locals state status = .resumes esp ebp ret state') :
    ∃ caller parent older, callers = caller :: parent :: older ∧
      haltToParent state (state.pcbs state.pcbObj).espVal (state.pcbs state.pcbObj).ebpVal
        status = .resumes esp ebp ret state' := by
  cases callers with
  | nil => simp [Booted.halt nested] at halted
  | cons caller callers =>
      cases callers with
      | nil =>
          rcases Running.halt_base_cases nested.1 image locals status with
            stuck | ⟨_, _, _, restarted⟩
          · simp [stuck] at halted
          · simp [restarted] at halted
      | cons parent older =>
          have running : Running state (older.length + 1) := nested.1
          rw [running.halt_child] at halted
          exact ⟨caller, parent, older, rfl, halted⟩

/-- A halt that starts a program has started the base shell again. -/
theorem Nested.restarted_cases {state' : ProcessState} (nested : Nested layout state callers)
    {eip : Nat} {loaded : List UInt8}
    (halted : systemHalt image locals state status = .userMode eip loaded state') :
    ∃ caller args, callers = [caller] ∧ Running state 0 ∧
      state' = (restartState state).started locals (0 : Nat) args := by
  cases callers with
  | nil => simp [Booted.halt nested] at halted
  | cons caller callers =>
      cases callers with
      | nil =>
          have running : Running state 0 := nested.1
          rcases running.halt_base_cases image locals status with
            stuck | ⟨_, args, _, restarted⟩
          · simp [stuck] at halted
          · rw [restarted] at halted
            obtain ⟨_, _, same⟩ := Outcome.userMode.inj halted
            exact ⟨caller, args, rfl, running, same.symm⟩
      | cons parent older =>
          obtain ⟨_, resumed, -⟩ := nested.halt_child (by simp) image locals status
          simp [resumed] at halted

end Halt

/-! ## Runs -/

section Runs

variable {image : Image} {layout : Layout} {session session' : Session} {call : ProcessCall}
variable {calls : List ProcessCall} {state start : ProcessState} {callers : List ProcessState}

/-- Every completed call keeps the processes nested. -/
theorem Nested.step (nested : Nested layout session.state session.callers)
    (step : ProcessStep image session call session') :
    Nested layout session'.state session'.callers := by
  cases step with
  | started executed =>
      obtain ⟨-, slot, args, bound, free, least, rfl⟩ := systemExecute_started executed
      exact nested.started args bound free least
  | failed executed =>
      obtain ⟨-, rfl | ⟨used, rfl⟩⟩ := systemExecute_failed executed
      · exact nested
      · exact nested.full used
  | @resumed state state' callers status locals esp ebp ret halted =>
      obtain ⟨caller, parent, older, shape, -⟩ := nested.resumed_cases halted
      change callers = _ at shape
      subst shape
      obtain ⟨after, resumed, nested', -⟩ := nested.halt_child (by simp) image locals status
      rw [resumed] at halted
      obtain ⟨_, _, _, rfl⟩ := Outcome.resumes.inj halted
      exact nested'
  | @restarted state state' callers status locals eip loaded halted =>
      obtain ⟨caller, args, shape, running, rfl⟩ := nested.restarted_cases halted
      change callers = _ at shape
      subst shape
      exact ⟨running.restarted args, fun slot low => absurd low (by simp), nested.2.2⟩

/-- So the processes of every run are nested. -/
theorem Nested.run (booted : Booted layout start)
    (run : Run (ProcessStep image) ⟨start, []⟩ calls session) :
    Nested layout session.state session.callers := by
  have initial : Nested layout start [] := booted
  exact run.invariant (fun session => Nested layout session.state session.callers)
    (fun _ _ _ nested step => nested.step step) initial

end Runs

/-! ## The chain of ancestors -/

/-- The active control blocks by process number. -/
def ProcessState.slots (state : ProcessState) (slot : Int) : Option Pcb :=
  if (0 ≤ slot ∧ slot ≤ 4) ∧ state.Active slot then some (state.pcbs (findPCB slot)) else none

/-- The process numbers from `cur` down to 0. -/
def countDown : Nat → List Int
  | 0 => [0]
  | cur + 1 => ((cur + 1 : Nat) : Int) :: countDown cur

theorem mem_countDown {cur : Nat} {slot : Int} :
    slot ∈ countDown cur ↔ 0 ≤ slot ∧ slot ≤ cur := by
  induction cur with
  | zero =>
      simp only [countDown, List.mem_singleton]
      omega
  | succ cur ih =>
      simp only [countDown, List.mem_cons, ih]
      omega

theorem countDown_getLast? (cur : Nat) : (countDown cur).getLast? = some 0 := by
  induction cur with
  | zero => rfl
  | succ cur ih => rw [countDown, List.getLast?_cons, ih, Option.getD_some]

section Chain

variable {state : ProcessState} {cur : Nat}

theorem Running.slots_eq (running : Running state cur) {slot : Nat} (low : slot ≤ cur) :
    state.slots slot = some (state.pcbs (findPCB slot)) := by
  have bound := running.bound
  exact if_pos ⟨by omega, running.isActive low⟩

/-- Following `parent_pid` from the running process meets every slot below it. -/
theorem Running.linked (running : Running state cur) {slot : Nat} (low : slot ≤ cur) :
    Linked Pcb.parentPid (-1) state.slots slot (countDown slot) := by
  induction slot with
  | zero =>
      have parent := (running.active 0 low).2.2
      apply Linked.cons (by omega) (running.slots_eq low)
      rw [parent]
      exact .nil
  | succ slot ih =>
      have parent := (running.active (slot + 1) low).2.2
      apply Linked.cons (by omega) (running.slots_eq low)
      rw [parent, Int.natCast_succ, Int.add_sub_cancel]
      exact ih (by omega)

theorem Running.slots_isSome (running : Running state cur) (slot : Int) :
    state.slots slot ≠ none ↔ slot ∈ countDown cur := by
  rw [mem_countDown]
  constructor
  · intro present
    rw [ProcessState.slots] at present
    by_cases used : (0 ≤ slot ∧ slot ≤ 4) ∧ state.Active slot
    · obtain ⟨range, active⟩ := used
      refine ⟨range.1, ?_⟩
      by_contra above
      have free := running.free slot.toNat (by omega) (by omega)
      rw [Int.toNat_of_nonneg range.1] at free
      exact free active
    · exact absurd (if_neg used) present
  · rintro ⟨nonneg, low⟩
    have stored := running.slots_eq (show slot.toNat ≤ cur by omega)
    rw [Int.toNat_of_nonneg nonneg] at stored
    simp [stored]

end Chain

end Ece391.Kernel
