import Ece391.Kernel.Booting

/-!
# The video window of a process

`system_vidmap` maps the video page at 0x0A000000 in the one page directory that all
processes share.  Starting and halting a process rewrite directory entry 32 and nothing
else, so the window stays open for whichever process runs next.
-/

namespace Ece391.Kernel

open Ece391.Library

/-- User mode can use the video window. -/
def WindowOpen (layout : Layout) (paging : Paging) : Prop :=
  ∃ physical, translate layout paging 0xA000000 = some ⟨physical, true⟩

/-- `system_vidmap`: its return value and the state it leaves.  The pointer is stored
through an address in the program page; the four bytes of a store at its very end fault. -/
def systemVidmap (layout : Layout) (state : ProcessState) (screenStart : Nat) :
    Option (Int × ProcessState) :=
  if screenStart = 0 then some (-1, state)
  else if screenStart < 0x8000000 ∨ screenStart > 0x8000000 + 0x400000 then some (-1, state)
  else if screenStart + 3 < 0x8400000 then
    some (0, { state with paging := mapVidmem layout state.paging })
  else none

/-- A call that starts or ends a process or opens the window. -/
inductive VideoCall where
  | execute (command : Option Bytes) (locals : Locals)
  | halt (status : UInt8) (locals : Locals)
  | vidmap (screenStart : Nat)

/-- A session, with a flag for each process that has been started and not halted, newest
first: whether it has called `system_vidmap` with success. -/
structure VideoSession where
  state : ProcessState
  callers : List ProcessState
  opened : List Bool

/-- A completed call.  A process starts without having opened the window, also when the
base shell is started again; `system_vidmap` is called by the running process. -/
inductive VideoStep (image : Image) (layout : Layout) :
    VideoSession → VideoCall → VideoSession → Prop where
  | started {state state' : ProcessState} {callers : List ProcessState} {opened : List Bool}
      {command : Option Bytes} {locals : Locals} {eip : Nat} {loaded : List UInt8} :
      systemExecute image locals state command = .userMode eip loaded state' →
      VideoStep image layout ⟨state, callers, opened⟩ (.execute command locals)
        ⟨state', state :: callers, false :: opened⟩
  | failed {state state' : ProcessState} {callers : List ProcessState} {opened : List Bool}
      {command : Option Bytes} {locals : Locals} {ret : Int} :
      systemExecute image locals state command = .returns ret state' →
      VideoStep image layout ⟨state, callers, opened⟩ (.execute command locals)
        ⟨state', callers, opened⟩
  | resumed {state state' : ProcessState} {callers : List ProcessState} {opened : List Bool}
      {status : UInt8} {locals : Locals} {esp ebp ret : Nat} :
      systemHalt image locals state status = .resumes esp ebp ret state' →
      VideoStep image layout ⟨state, callers, opened⟩ (.halt status locals)
        ⟨state', callers.tail, opened.tail⟩
  | restarted {state state' : ProcessState} {callers : List ProcessState} {opened : List Bool}
      {status : UInt8} {locals : Locals} {eip : Nat} {loaded : List UInt8} :
      systemHalt image locals state status = .userMode eip loaded state' →
      VideoStep image layout ⟨state, callers, opened⟩ (.halt status locals)
        ⟨state', callers, false :: opened.tail⟩
  | vidmap {state state' : ProcessState} {caller : ProcessState} {callers : List ProcessState}
      {flag : Bool} {opened : List Bool} {screenStart : Nat} {ret : Int} :
      systemVidmap layout state screenStart = some (ret, state') →
      VideoStep image layout ⟨state, caller :: callers, flag :: opened⟩ (.vidmap screenStart)
        ⟨state', caller :: callers, (flag || decide (ret = 0)) :: opened⟩

namespace VideoSession

/-- Whenever a process runs, the window is open exactly if it opened it itself. -/
def Agrees (layout : Layout) (session : VideoSession) : Prop :=
  ∀ flag opened, session.opened = flag :: opened →
    (WindowOpen layout session.state.paging ↔ flag = true)

/-- What every run of agreeing sessions keeps: no process below the running one has opened
the window, and before the first process it is closed. -/
structure Tracked (layout : Layout) (session : VideoSession) : Prop where
  nested : Nested layout session.state session.callers
  flags : session.opened.length = session.callers.length
  closed : session.callers = [] → ¬ WindowOpen layout session.state.paging
  below : ∀ flag ∈ session.opened.tail, flag = false
  agrees : session.Agrees layout

end VideoSession

/-- While the window is open no program is started and no process halts. -/
def VideoCall.Allowed (image : Image) (layout : Layout) (session : VideoSession) :
    VideoCall → Prop
  | .execute command locals =>
      Starts image locals session.state command → ¬ WindowOpen layout session.state.paging
  | .halt _ _ => ¬ WindowOpen layout session.state.paging
  | .vidmap _ => True

/-! ## What the calls do to the window -/

section

variable {image : Image} {layout : Layout} {locals : Locals} {status : UInt8}
variable {state state' : ProcessState} {command : Option Bytes}

/-- Mapping a program does not touch the window. -/
theorem executePagingInit_window (layout : Layout) (paging : Paging) (pid : Int) :
    WindowOpen layout (executePagingInit pid paging) ↔ WindowOpen layout paging :=
  Iff.rfl

theorem window_closed_boot (layout : Layout) : ¬ WindowOpen layout (bootPaging layout) := by
  intro opened
  obtain ⟨physical, mapped⟩ := opened
  rw [(represents_boot layout).translate (by omega)] at mapped
  simp [Windows.map] at mapped

theorem mapVidmem_window (layout : Layout) (paging : Paging) :
    WindowOpen layout (mapVidmem layout paging) := by
  have distinct := layout.distinct
  have aligned := layout.kernelPageTable_aligned
  have aligned' := layout.pagetableVideo_aligned
  have bound := layout.pagetableVideo_lt
  have field := addrField_natCast (show layout.pagetableVideo / 4096 < 1048576 by omega)
  have apart : layout.pagetableVideo / 4096 ≠ layout.kernelPageTable / 4096 := by omega
  let mapped := mapVidmem layout paging
  have frame : tableAt layout mapped (layout.pagetableVideo / 4096) = mapped.pagetableVideo := by
    rw [tableAt, if_neg apart, if_pos rfl]
  have table : (mapped.kernelPageDirectory 40).tableAddr = layout.pagetableVideo / 4096 := field
  have walk : tableAt layout mapped (mapped.kernelPageDirectory 40).tableAddr =
      mapped.pagetableVideo := by
    rw [table, frame]
  have entry : mapped.pagetableVideo 0 =
      { paging.pagetableVideo 0 with
        present := true
        user := true
        readWrite := true
        pageAddr := addrField 0xB8 } := rfl
  refine ⟨addrField 0xB8 * 4096, ?_⟩
  change translate layout mapped 0xA000000 = _
  simp only [translate, Nat.reduceDiv, Nat.reduceMod, walk, entry, if_true]
  have user : (mapped.kernelPageDirectory 40).user = true := rfl
  have present : (mapped.kernelPageDirectory 40).present = true := rfl
  have size : (mapped.kernelPageDirectory 40).size = false := rfl
  simp only [user, present, size]
  rfl

theorem systemExecute_started_window {eip : Nat} {loaded : List UInt8}
    (executed : systemExecute image locals state command = .userMode eip loaded state') :
    WindowOpen layout state'.paging ↔ WindowOpen layout state.paging := by
  obtain ⟨-, slot, args, -, -, -, rfl⟩ := systemExecute_started executed
  exact Iff.rfl

theorem systemExecute_failed_window {ret : Int}
    (executed : systemExecute image locals state command = .returns ret state') :
    WindowOpen layout state'.paging ↔ WindowOpen layout state.paging := by
  cases (systemExecute_failed executed).2 with
  | inl same => rw [same]
  | inr full => rw [full.2]

theorem restartState_window (layout : Layout) (state : ProcessState) :
    WindowOpen layout (restartState state).paging ↔ WindowOpen layout state.paging :=
  executePagingInit_window layout state.paging 0

theorem haltToParent_window {esp ebp esp' ebp' ret : Nat}
    (resumed : haltToParent state esp ebp status = .resumes esp' ebp' ret state') :
    WindowOpen layout state'.paging ↔ WindowOpen layout state.paging := by
  rw [haltToParent] at resumed
  split at resumed
  · obtain ⟨_, _, _, rfl⟩ := Outcome.resumes.inj resumed
    exact Iff.rfl
  · cases resumed

/-- Halting to the parent leaves the window as it is. -/
theorem Nested.resumed_window {callers : List ProcessState} (nested : Nested layout state callers)
    {esp ebp ret : Nat}
    (halted : systemHalt image locals state status = .resumes esp ebp ret state') :
    WindowOpen layout state'.paging ↔ WindowOpen layout state.paging := by
  obtain ⟨_, _, _, -, resumed⟩ := nested.resumed_cases halted
  exact haltToParent_window resumed

/-- Starting the base shell again leaves the window as it is. -/
theorem Nested.restarted_window {callers : List ProcessState}
    (nested : Nested layout state callers) {eip : Nat} {loaded : List UInt8}
    (halted : systemHalt image locals state status = .userMode eip loaded state') :
    WindowOpen layout state'.paging ↔ WindowOpen layout state.paging := by
  obtain ⟨_, args, -, -, rfl⟩ := nested.restarted_cases halted
  exact (executePagingInit_window ..).trans (restartState_window layout state)

/-- `system_vidmap` opens the window exactly if it succeeds. -/
theorem systemVidmap_cases {screenStart : Nat} {ret : Int}
    (completed : systemVidmap layout state screenStart = some (ret, state')) :
    (ret ≠ 0 ∧ state' = state) ∨
      (ret = 0 ∧ state' = { state with paging := mapVidmem layout state.paging }) := by
  rw [systemVidmap] at completed
  split_ifs at completed
  · cases completed
    exact .inl ⟨by decide, rfl⟩
  · cases completed
    exact .inl ⟨by decide, rfl⟩
  · cases completed
    exact .inr ⟨rfl, rfl⟩

/-- Opening the window keeps the processes nested. -/
theorem Nested.vidmap {caller : ProcessState} {callers : List ProcessState}
    (nested : Nested layout state (caller :: callers)) :
    Nested layout { state with paging := mapVidmem layout state.paging } (caller :: callers) := by
  obtain ⟨running, same, below⟩ := nested
  exact ⟨{ running with window := running.window }, same, below⟩

end

/-! ## One call -/

namespace VideoSession

variable {image : Image} {layout : Layout}
variable {session session' : VideoSession} {call : VideoCall}

theorem agrees_cons {state : ProcessState} {callers : List ProcessState} {flag : Bool}
    {opened : List Bool} :
    Agrees layout ⟨state, callers, flag :: opened⟩ ↔
      (WindowOpen layout state.paging ↔ flag = true) := by
  constructor
  · intro agrees
    exact agrees flag opened rfl
  · intro agrees flag' opened' same
    cases same
    exact agrees

theorem agrees_closed {state : ProcessState} {callers : List ProcessState}
    {opened : List Bool} :
    Agrees layout ⟨state, callers, false :: opened⟩ ↔ ¬ WindowOpen layout state.paging := by
  rw [agrees_cons]
  simp

/-- The flag of the parent of a process that halts is off. -/
theorem Tracked.parent_flag {state : ProcessState} {callers : List ProcessState}
    {opened : List Bool} (tracked : Tracked layout ⟨state, callers, opened⟩)
    {caller parent : ProcessState} {older : List ProcessState}
    (shape : callers = caller :: parent :: older) :
    ∃ flag rest, opened = flag :: false :: rest := by
  have flags := tracked.flags
  have below := tracked.below
  subst shape
  cases opened with
  | nil => simp at flags
  | cons flag opened =>
      cases opened with
      | nil => simp at flags
      | cons flag' rest =>
          have off : flag' = false := below flag' (by simp)
          subst off
          exact ⟨flag, rest, rfl⟩

/-- A completed call leaves a session that agrees exactly if the call is allowed. -/
theorem Tracked.agrees_iff_allowed (tracked : Tracked layout session)
    (step : VideoStep image layout session call session') :
    Agrees layout session' ↔ call.Allowed image layout session := by
  cases step with
  | @started state state' callers opened command locals eip loaded executed =>
      have kept : WindowOpen layout state'.paging ↔ WindowOpen layout state.paging :=
        systemExecute_started_window executed
      rw [agrees_closed, kept]
      constructor
      · intro closed _
        exact closed
      · intro allowed
        exact allowed (systemExecute_started executed).1
  | @failed state state' callers opened command locals ret executed =>
      have idle := (systemExecute_failed executed).1
      refine iff_of_true ?_ (fun starts => absurd starts idle)
      intro flag opened' shape
      exact (systemExecute_failed_window executed).trans (tracked.agrees flag opened' shape)
  | @resumed state state' callers opened status locals esp ebp ret halted =>
      have kept : WindowOpen layout state'.paging ↔ WindowOpen layout state.paging :=
        tracked.nested.resumed_window halted
      obtain ⟨caller, parent, older, shape, -⟩ := tracked.nested.resumed_cases halted
      obtain ⟨flag, rest, rfl⟩ := tracked.parent_flag shape
      rw [List.tail_cons, agrees_closed, kept]
      exact Iff.rfl
  | @restarted state state' callers opened status locals eip loaded halted =>
      have kept : WindowOpen layout state'.paging ↔ WindowOpen layout state.paging :=
        tracked.nested.restarted_window halted
      rw [agrees_closed, kept]
      exact Iff.rfl
  | @vidmap state state' caller callers flag opened screenStart ret completed =>
      refine iff_of_true ?_ trivial
      have agrees := agrees_cons.mp tracked.agrees
      rw [agrees_cons]
      cases systemVidmap_cases completed with
      | inl refused =>
          obtain ⟨failed, rfl⟩ := refused
          simpa [failed] using agrees
      | inr success =>
          obtain ⟨rfl, rfl⟩ := success
          simpa using mapVidmem_window layout state.paging

/-- If it agrees, the call keeps what is tracked. -/
theorem Tracked.step (tracked : Tracked layout session)
    (step : VideoStep image layout session call session') (agrees : Agrees layout session') :
    Tracked layout session' := by
  have flags := tracked.flags
  have below := tracked.below
  cases step with
  | @started state state' callers opened command locals eip loaded executed =>
      have kept : WindowOpen layout state'.paging ↔ WindowOpen layout state.paging :=
        systemExecute_started_window executed
      have closed : ¬ WindowOpen layout state.paging := by
        rw [← kept]
        exact agrees_closed.mp agrees
      refine ⟨tracked.nested.step (.started executed), by simpa using flags, by simp, ?_, agrees⟩
      intro flag member
      cases opened with
      | nil => cases member
      | cons running opened =>
          cases member with
          | head =>
              have before := agrees_cons.mp tracked.agrees
              exact Bool.eq_false_iff.mpr fun on => closed (before.mpr on)
          | tail _ member => exact below flag member
  | @failed state state' callers opened command locals ret executed =>
      refine ⟨tracked.nested.step (.failed executed), flags, ?_, below, agrees⟩
      intro none opened'
      exact tracked.closed none ((systemExecute_failed_window executed).mp opened')
  | @resumed state state' callers opened status locals esp ebp ret halted =>
      obtain ⟨caller, parent, older, shape, -⟩ := tracked.nested.resumed_cases halted
      obtain ⟨flag, rest, rfl⟩ := tracked.parent_flag shape
      have nested := tracked.nested.step (.resumed halted)
      change callers = _ at shape
      subst shape
      refine ⟨nested, by simpa using flags, by simp, ?_, agrees⟩
      intro flag' member
      exact below flag' (List.mem_of_mem_tail member)
  | @restarted state state' callers opened status locals eip loaded halted =>
      obtain ⟨caller, -, shape, -⟩ := tracked.nested.restarted_cases halted
      have nested := tracked.nested.step (.restarted halted)
      change callers = _ at shape
      subst shape
      have single : opened.length = 1 := flags
      exact ⟨nested, by simp [single], by simp, below, agrees⟩
  | @vidmap state state' caller callers flag opened screenStart ret completed =>
      refine ⟨?_, flags, by simp, below, agrees⟩
      cases systemVidmap_cases completed with
      | inl refused =>
          obtain ⟨_, rfl⟩ := refused
          exact tracked.nested
      | inr success =>
          obtain ⟨_, rfl⟩ := success
          exact tracked.nested.vidmap

/-- After boot nothing runs and the window is closed. -/
theorem tracked_boot (layout : Layout) : Tracked layout ⟨bootState layout, [], []⟩ where
  nested := bootState_booted layout
  flags := rfl
  closed _ := window_closed_boot layout
  below _ member := by cases member
  agrees _ _ shape := by cases shape

end VideoSession

/-- In a run after boot, whenever a process runs, the window is open exactly if that process
has opened it, as long as no program is started and no process halts while it is open. -/
theorem window_agrees_iff_allowed {image : Image} {layout : Layout} {session : VideoSession}
    {calls : List VideoCall} :
    Run (fun before call after => VideoStep image layout before call after ∧
          after.Agrees layout)
        ⟨bootState layout, [], []⟩ calls session ↔
      Run (fun before call after => VideoStep image layout before call after ∧
          call.Allowed image layout before)
        ⟨bootState layout, [], []⟩ calls session :=
  Run.good_iff_allowed (VideoSession.Tracked layout) (fun _ _ after => after.Agrees layout)
    (fun before (call : VideoCall) => call.Allowed image layout before)
    (fun _ _ _ tracked step => tracked.agrees_iff_allowed step)
    (fun _ _ _ tracked step agrees => tracked.step step agrees)
    (VideoSession.tracked_boot layout)

/-- A shell opens the window and starts a shell, which has the window open without having
asked for it. -/
theorem window_not_always_agrees :
    ¬ ∀ (image : Image) (layout : Layout) (calls : List VideoCall) (session : VideoSession),
      Run (VideoStep image layout) ⟨bootState layout, [], []⟩ calls session →
      session.Agrees layout := by
  intro always
  have booted := bootState_booted smallLayout
  obtain ⟨_, _, first⟩ := smallImage_bootable.shell_starts zeroLocals (by decide)
    (assignPID_idle booted.idle)
  let shell := (bootState smallLayout).started zeroLocals (0 : Nat) (shellArgs zeroLocals)
  have nested : Nested smallLayout shell [bootState smallLayout] :=
    Nested.run booted (.single (.started first))
  let mapped := { shell with paging := mapVidmem smallLayout shell.paging }
  have opened : systemVidmap smallLayout shell 0x8000000 = some (0, mapped) := rfl
  have running : Running mapped 0 := nested.vidmap.1
  obtain ⟨_, _, second⟩ := smallImage_bootable.shell_starts zeroLocals (by decide)
    (running.assignPID (by omega))
  have run : Run (VideoStep smallImage smallLayout) ⟨bootState smallLayout, [], []⟩ _ _ :=
    .cons (.started first) (.cons (.vidmap opened) (.single (.started second)))
  have agrees := VideoSession.agrees_closed.mp (always _ _ _ _ run)
  exact agrees (mapVidmem_window smallLayout shell.paging)

end Ece391.Kernel
