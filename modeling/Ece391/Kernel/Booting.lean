import Ece391.Kernel.Nesting

/-!
# Booting into the shell

On an image with an executable `shell` that fits its page the first program starts,
programs nest until the slots are used up, and halting the base shell starts a new
one.  The main result collects what every run keeps.
-/

namespace Ece391.Kernel

open Ece391.Library

/-- A well-formed image whose executables fit in the program page and which holds an
executable `shell`. -/
structure Image.Bootable (image : Image) : Prop where
  wellFormed : image.WellFormed
  fits : ∀ i : Nat, (i : Int) < image.dirCount →
    IsElf image (uint32 (image.direntries i).inodeNum) →
    fileLength image (uint32 (image.direntries i).inodeNum) ≤ imageRoom
  shell : ∃ i : Nat, (i : Int) < image.dirCount ∧
    (image.direntries i).name = [115, 104, 101, 108, 108] ∧
    (∀ k < i, (image.direntries k).name ≠ [115, 104, 101, 108, 108]) ∧
    IsElf image (uint32 (image.direntries i).inodeNum)

theorem smallImage_bootable : smallImage.Bootable where
  wellFormed := smallImage_wellFormed
  fits i bound _ := by
    obtain rfl | rfl | rfl : i = 0 ∨ i = 1 ∨ i = 2 := by
      simp only [smallImage] at bound
      omega
    all_goals decide
  shell := by
    refine ⟨1, by decide, by decide, fun k below => ?_, by decide⟩
    obtain rfl : k = 0 := by omega
    decide

theorem strlen_shellCommand : strlen shellCommand = 5 :=
  strlen_eq_of_zero (by omega) (by decide) (by decide)

theorem fileNameBuffer_shellCommand : fileNameBuffer shellCommand 5 = shellCommand := by
  funext i
  rw [fileNameBuffer]
  split
  · rfl
  next outside =>
    by_cases long : 5 ≤ i
    · simp [shellCommand, terminated, long]
    · obtain rfl | rfl | rfl | rfl | rfl : i = 0 ∨ i = 1 ∨ i = 2 ∨ i = 3 ∨ i = 4 := by omega
      all_goals exact absurd (by decide) outside

theorem argStart_shellCommand (initial : Int) : argStart shellCommand initial 5 = initial := by
  simp [argStart, shellCommand, terminated]

section Boot

variable {image : Image} {locals : Locals} {state : ProcessState}

/-- The argument buffer of the shell command: no space sets the starting index. -/
def shellArgs (locals : Locals) : Bytes :=
  argsBuffer locals shellCommand 5 locals.argStartingIndex

/-- The shell command resolves, unless the uninitialised argument index makes the
copy of the arguments overrun. -/
theorem Image.Bootable.shell_resolves (bootable : image.Bootable)
    (index : 5 - locals.argStartingIndex ≤ 128) :
    ∃ inode, resolveCommand image locals (some shellCommand) =
        .program inode (shellArgs locals) ∧
      fileLength image inode ≤ imageRoom := by
  obtain ⟨i, inside, name, first, elf⟩ := bootable.shell
  have query : field 0 32 shellCommand = [115, 104, 101, 108, 108] := by decide
  have found : readDentryByName image shellCommand locals.dentry =
      .found (image.direntries i) := by
    rw [readDentryByName_found_iff bootable.wellFormed.dirCount_le]
    refine ⟨i, inside, rfl, query.trans name.symm, fun k below => ?_⟩
    rw [query]
    exact (first k below).symm
  have length : int32 (5 : Nat) = 5 := by decide
  have count : (5 : Int).toNat = 5 := rfl
  have short : ¬((5 : Int) > 128) := by decide
  have inBounds : ¬(5 - locals.argStartingIndex > 128) := by omega
  refine ⟨_, ?_, bootable.fits i inside elf⟩
  simp only [resolveCommand, strlen_shellCommand, length, short, if_false, count,
    argStart_shellCommand, inBounds, fileNameBuffer_shellCommand, found, elf, if_true, shellArgs]

/-- While a slot is free the shell starts in the lowest one. -/
theorem Image.Bootable.shell_starts (bootable : image.Bootable) (locals : Locals)
    (index : 5 - locals.argStartingIndex ≤ 128) {slot : Nat} (assigned : assignPID state = slot) :
    ∃ eip loaded, systemExecute image locals state (some shellCommand) =
      .userMode eip loaded (state.started locals slot (shellArgs locals)) := by
  obtain ⟨inode, resolved, fits⟩ := bootable.shell_resolves index
  have executed := systemExecute_program resolved assigned
  rw [if_neg (by omega)] at executed
  exact ⟨_, _, executed⟩

theorem assignPID_idle (idle : ∀ slot : Nat, slot ≤ 4 → ¬state.Active slot) :
    assignPID state = (0 : Nat) := by
  rcases assignPID_spec state with ⟨slot, _, assigned, _, least⟩ | ⟨_, full⟩
  · obtain rfl : slot = 0 := by
      by_contra positive
      exact idle 0 (by omega) (least 0 (by omega))
    exact assigned
  · exact absurd (full 0 (by omega)) (idle 0 (by omega))

theorem Running.assignPID {cur : Nat} (running : Running state cur) (room : cur < 4) :
    assignPID state = (cur + 1 : Nat) := by
  rcases assignPID_spec state with ⟨slot, bound, assigned, free, least⟩ | ⟨_, full⟩
  · rw [assigned, running.next_free bound free least]
  · exact absurd (full 4 (by omega)) (running.free 4 (by omega) room)

/-- Halting the base shell brings up a new one. -/
theorem Running.restarts (running : Running state 0) (bootable : image.Bootable)
    (index : 5 - locals.argStartingIndex ≤ 128) (status : UInt8) :
    ∃ eip loaded state', systemHalt image locals state status = .userMode eip loaded state' := by
  obtain ⟨eip, loaded, executed⟩ :=
    bootable.shell_starts locals index (assignPID_idle running.restart_idle)
  rw [running.halt_base, executed]
  exact ⟨_, _, _, rfl⟩

end Boot

/-- The process state after boot, with every control block zero. -/
def bootState (layout : Layout) : ProcessState where
  pid := 0
  parentPid := 0
  pcbObj := 0
  pcbs _ := ⟨0, 0, 0, fun _ => ⟨none, 0, 0, 0, 0⟩, 0, 0, 0, List.replicate 32 0⟩
  tssSs0 := 0x18
  tssEsp0 := 0x800000
  paging := bootPaging layout

theorem bootState_booted (layout : Layout) : Booted layout (bootState layout) where
  pid := rfl
  pcbObj := rfl
  idle _ _ active := active rfl
  window := (represents_boot layout).program

/-- Locals that happen to be zero. -/
def zeroLocals : Locals where
  argStartingIndex := 0
  below _ := 0
  dentry := ⟨fun _ => 0, 0, 0⟩
  programImgStartingAddr _ := 0
  esp := 0
  ebp := 0

/-- A layout with the tables at 4 MB. -/
def smallLayout : Layout where
  kernelPageTable := 0x400000
  pagetableVideo := 0x401000
  other _ _ := ⟨false, false, false, false, false, false, false, false, false, 0, 0⟩
  kernelPageTable_lt := by omega
  pagetableVideo_lt := by omega
  kernelPageTable_aligned := by omega
  pagetableVideo_aligned := by omega
  distinct := by omega

/-- A shell can start a shell until all five slots are used. -/
theorem Image.Bootable.shells_nest {image : Image} (bootable : image.Bootable) {layout : Layout}
    {start : ProcessState} (booted : Booted layout start) (locals : Locals)
    (index : 5 - locals.argStartingIndex ≤ 128) {n : Nat} (bound : n ≤ 4) :
    ∃ state callers, Run (ProcessStep image) ⟨start, []⟩
        (List.replicate (n + 1) (.execute (some shellCommand) locals)) ⟨state, callers⟩ ∧
      Running state n ∧ state.pid = n ∧ callers.length = n + 1 := by
  induction n with
  | zero =>
      obtain ⟨_, _, executed⟩ := bootable.shell_starts locals index (assignPID_idle booted.idle)
      have run : Run (ProcessStep image) ⟨start, []⟩ _ _ := .single (.started executed)
      exact ⟨_, _, run, (Nested.run booted run).1, rfl, rfl⟩
  | succ n ih =>
      obtain ⟨state, callers, run, running, -, length⟩ := ih (by omega)
      obtain ⟨_, _, executed⟩ :=
        bootable.shell_starts locals index (running.assignPID (by omega))
      have next := run.snoc (.started executed)
      rw [← List.replicate_succ'] at next
      refine ⟨_, _, next, ?_, rfl, by rw [List.length_cons, length]⟩
      exact length ▸ (Nested.run booted next).1

/-- Whenever user code runs, the five pieces of process state agree on one slot, the
active control blocks are the chain of its ancestors, and a halt either brings up
the base shell again or returns to the executor as it was when it called. -/
theorem processes_nest {image : Image} (bootable : image.Bootable) {layout : Layout}
    {start state : ProcessState} {callers : List ProcessState} {calls : List ProcessCall}
    (booted : Booted layout start)
    (run : Run (ProcessStep image) ⟨start, []⟩ calls ⟨state, callers⟩)
    (resumed : state.pcbObj ≠ 0) :
    ∃ cur : Nat, cur ≤ 4 ∧ state.pcbObj = findPCB cur ∧
      (state.pcbs state.pcbObj).active = 1 ∧ (state.pcbs state.pcbObj).pcbPid = cur ∧
      state.tssEsp0 = 0x800000 - 0x2000 * cur - 4 ∧
      (∀ address, 0x8000000 ≤ address → address < 0x8400000 →
        translate layout state.paging address =
          some ⟨0x800000 + 0x400000 * cur + (address - 0x8000000), true⟩) ∧
      (∃ chain, Linked Pcb.parentPid (-1) state.slots cur chain ∧ chain.Nodup ∧
        chain.getLast? = some 0 ∧ ∀ slot, state.slots slot ≠ none ↔ slot ∈ chain) ∧
      (cur = 0 → ∀ status locals, 5 - locals.argStartingIndex ≤ 128 →
        ∃ eip loaded state', systemHalt image locals state status =
          .userMode eip loaded state') ∧
      (cur ≠ 0 → ∀ status locals, ∃ caller older esp ebp state',
        callers = caller :: older ∧
        systemHalt image locals state status =
          .resumes esp ebp (retStatus status) state' ∧
        state'.pcbObj = caller.pcbObj ∧
        state'.pcbs state'.pcbObj = caller.pcbs caller.pcbObj ∧
        state'.tssEsp0 = caller.tssEsp0 ∧
        state'.paging.kernelPageDirectory 32 = caller.paging.kernelPageDirectory 32) := by
  have nested := Nested.run booted run
  cases callers with
  | nil => exact absurd (Booted.pcbObj nested) resumed
  | cons caller older =>
      have running := nested.1
      obtain ⟨active, pcbPid, -⟩ := running.active older.length (Nat.le_refl _)
      have linked := running.linked (Nat.le_refl _)
      refine ⟨older.length, running.bound, running.pcbObj, ?_, ?_, running.esp0,
        fun address low high => ?_, ⟨countDown older.length, linked, linked.nodup,
          countDown_getLast? _, running.slots_isSome⟩, fun base status locals index => ?_,
        fun child status locals => ?_⟩
      · rw [running.pcbObj, active]
      · rw [running.pcbObj, pcbPid]
      · have mapped := translate_program layout running.window (by omega) low high
        rwa [Nat.add_sub_cancel] at mapped
      · have bottom : Running state 0 := base ▸ running
        exact bottom.restarts bootable index status
      · have younger : older ≠ [] := by
          rintro rfl
          exact child rfl
        obtain ⟨state', halted, -, pcbObj, pcb, esp0, window⟩ :=
          nested.halt_child younger image locals status
        exact ⟨caller, older, _, _, state', rfl, halted, pcbObj, pcb, esp0, window⟩

/-- A shell started by the base shell halts to it. -/
theorem processes_nest_shell :
    ∃ state caller older, Run (ProcessStep smallImage) ⟨bootState smallLayout, []⟩
        (List.replicate 2 (.execute (some shellCommand) zeroLocals)) ⟨state, caller :: older⟩ ∧
      ∃ esp ebp state', systemHalt smallImage zeroLocals state 255 =
          .resumes esp ebp (retStatus 255) state' ∧
        state'.pcbs state'.pcbObj = caller.pcbs caller.pcbObj := by
  obtain ⟨state, callers, run, running, -⟩ :=
    smallImage_bootable.shells_nest (bootState_booted smallLayout) zeroLocals (by decide)
      (show 1 ≤ 4 by decide)
  have started : state.pcbObj ≠ 0 := by
    rw [running.pcbObj]
    decide
  obtain ⟨cur, _, pcbObj, _, _, _, _, _, _, halts⟩ :=
    processes_nest smallImage_bootable (bootState_booted smallLayout) run started
  have child : cur ≠ 0 := by
    rintro rfl
    rw [running.pcbObj, findPCB_inj] at pcbObj
    simp at pcbObj
  obtain ⟨caller, older, esp, ebp, state', rfl, halted, _, pcb, _⟩ := halts child 255 zeroLocals
  exact ⟨state, caller, older, run, esp, ebp, state', halted, pcb⟩

end Ece391.Kernel
