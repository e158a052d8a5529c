import Ece391.Kernel.Descriptors
import Ece391.Kernel.Paging

/-!
# Starting and halting processes

`system_execute` and `system_halt` keep the process state in five places: the
global `pid`, the pointer `pcb_obj`, the process control blocks at the bottom of
the state stacks, the task state segment, and directory entry 32.

Both functions leave through assembly when they succeed, so an outcome says where
control goes: back to the caller with a return value, to a new program in user
mode, or to the frame saved by an earlier `system_execute`.
-/

namespace Ece391.Kernel

open Ece391.Library

/-- A process control block. -/
structure Pcb where
  active : Nat
  pcbPid : Int
  parentPid : Int
  fda : Fda
  espVal : Nat
  ebpVal : Nat
  tssEsp0 : Nat
  args : List UInt8

/-- The process state.  Control blocks are indexed by their address. -/
structure ProcessState where
  pid : Int
  parentPid : Int
  pcbObj : Int
  pcbs : Int → Pcb
  tssSs0 : Nat
  tssEsp0 : Nat
  paging : Paging

/-- What the local variables of `system_execute` hold before they are assigned,
with the bytes below the command and the stack registers it saves. -/
structure Locals where
  argStartingIndex : Int
  below : Nat → UInt8
  dentry : Dentry
  programImgStartingAddr : Bytes
  esp : Nat
  ebp : Nat

/-- Where control goes. -/
inductive Outcome where
  /-- The function returns to its caller. -/
  | returns (ret : Int) (state : ProcessState)
  /-- A program starts in user mode, after these bytes were stored at the start of
  its image. -/
  | userMode (eip : Nat) (loaded : List UInt8) (state : ProcessState)
  /-- The frame at these stack registers continues with a return value. -/
  | resumes (esp ebp : Nat) (ret : Nat) (state : ProcessState)
  /-- The function loops for ever, faults, or writes past an array. -/
  | stuck

/-- `find_PCB`. -/
def findPCB (pid : Int) : Int :=
  0x800000 - 0x2000 * (pid + 1)

/-- The kernel page, outside which a control block cannot be accessed. -/
def Accessible (address : Int) : Prop :=
  0x400000 ≤ address ∧ address < 0x800000

instance (address : Int) : Decidable (Accessible address) :=
  inferInstanceAs (Decidable (_ ∧ _))

/-- Whether the process slot `i` is in use. -/
def ProcessState.Active (state : ProcessState) (i : Int) : Prop :=
  (state.pcbs (findPCB i)).active ≠ 0

instance (state : ProcessState) (i : Int) : Decidable (state.Active i) :=
  inferInstanceAs (Decidable (_ ≠ _))

/-- `assign_PID`. -/
def assignPID (state : ProcessState) : Int :=
  match firstFit ([0, 1, 2, 3, 4] : List Nat) fun i => ¬state.Active i with
  | some i => i
  | none => -99

/-! ## `system_execute` -/

/-- The index after the last space among the first bytes of a command, or the
initial value when there is none. -/
def argStart (command : Bytes) (initial : Int) : Nat → Int
  | 0 => initial
  | i + 1 => if command i = 32 then i + 1 else argStart command initial i

/-- The name buffer: the command with its spaces replaced by NUL. -/
def fileNameBuffer (command : Bytes) (cmdStrlen : Int) : Bytes :=
  fun i => if (i : Int) < cmdStrlen ∧ command i ≠ 32 then command i else 0

/-- The argument buffer: the command from the starting index on. -/
def argsBuffer (locals : Locals) (command : Bytes) (cmdStrlen start : Int) : Bytes :=
  fun i =>
    if (i : Int) < cmdStrlen - start then
      if start + i < 0 then locals.below (-1 - (start + i)).toNat
      else command (start + i).toNat
    else 0

/-- The test of the first four bytes of a file. -/
def IsElf (image : Image) (inode : Nat) : Prop :=
  (readData image inode 0 4).1 = 4 ∧ (readData image inode 0 4).2 = [0x7F, 0x45, 0x4C, 0x46]

instance (image : Image) (inode : Nat) : Decidable (IsElf image inode) :=
  inferInstanceAs (Decidable (_ ∧ _))

/-- How the first part of `system_execute` ends. -/
inductive Resolved where
  | rejected
  | stuck
  | program (fileInode : Nat) (args : Bytes)

/-- The part of `system_execute` before it touches the process state: it splits
the command, looks the file up and tests its magic bytes.  An uninitialised start
index can make the copy of the arguments overrun their buffer. -/
def resolveCommand (image : Image) (locals : Locals) : Option Bytes → Resolved
  | none => .rejected
  | some command =>
      let cmdStrlen := int32 (strlen command)
      if cmdStrlen > 128 then .rejected
      else
        let start := argStart command locals.argStartingIndex cmdStrlen.toNat
        if cmdStrlen - start > 128 then .stuck
        else
          match readDentryByName image (fileNameBuffer command cmdStrlen) locals.dentry with
          | .endless => .stuck
          | .missing => .rejected
          | .found dentry =>
              let fileInode := uint32 dentry.inodeNum
              if IsElf image fileInode then
                .program fileInode (argsBuffer locals command cmdStrlen start)
              else .rejected

/-- The room for a program image between its load address and the end of the
program page. -/
def imageRoom : Nat :=
  0x8400000 - 0x8048000

/-- The entry point, read from bytes 24 to 27 of the file. -/
def userEip (image : Image) (locals : Locals) (fileInode : Nat) : Nat :=
  uint32 (readInt32 (overwrite locals.programImgStartingAddr (readData image fileInode 24 4).2))

/-- The part of `system_execute` after `pid` has been assigned; `parentPid` is its
local variable.  An image that does not fit faults while it is copied. -/
def startProgram (image : Image) (locals : Locals) (state : ProcessState) (parentPid : Int)
    (fileInode : Nat) (args : Bytes) : Outcome :=
  let pcbObj := findPCB state.pid
  let state :=
    { state with
      pcbObj := pcbObj
      pcbs := Function.update state.pcbs pcbObj
        { state.pcbs pcbObj with
          pcbPid := state.pid
          parentPid := if state.pid = 0 then -1 else parentPid
          active := 1
          args := strncpy args 32 }
      paging := executePagingInit (state.pid + 1) state.paging }
  let read := readData image fileInode 0 (fileLength image fileInode)
  if imageRoom < read.2.length then .stuck
  else if uint32 read.1 ≠ fileLength image fileInode then .returns (-1) state
  else
    let tssEsp0 := uint32 (findPCB (state.pid - 1) - 4)
    .userMode (userEip image locals fileInode) read.2
      { state with
        tssSs0 := 0x18
        tssEsp0 := tssEsp0
        pcbs := Function.update state.pcbs pcbObj
          { state.pcbs pcbObj with
            fda := initFda (state.pcbs pcbObj).fda
            tssEsp0 := tssEsp0
            ebpVal := locals.ebp
            espVal := locals.esp } }

/-- `system_execute`. -/
def systemExecute (image : Image) (locals : Locals) (state : ProcessState)
    (command : Option Bytes) : Outcome :=
  match resolveCommand image locals command with
  | .rejected => .returns (-1) state
  | .stuck => .stuck
  | .program fileInode args =>
      let assigned := { state with pid := assignPID state }
      if assigned.pid = -99 then .returns (-1) assigned
      else startProgram image locals assigned state.pid fileInode args

/-! ## `system_halt` -/

/-- A control block after halt has cleared it. -/
def Pcb.cleared (pcb : Pcb) : Pcb :=
  { pcb with
    active := 0, ebpVal := 0, espVal := 0, tssEsp0 := 0, args := List.replicate 32 0 }

/-- The state in which a halted base shell is started again. -/
def restartState (state : ProcessState) : ProcessState :=
  let pcb := (state.pcbs state.pcbObj).cleared
  { state with
    pcbs := Function.update state.pcbs state.pcbObj
      { pcb with fda := fun fd => { pcb.fda fd with flags := 0 } }
    tssSs0 := 0x18
    tssEsp0 := uint32 (0x800000 - 4)
    paging := executePagingInit 0 state.paging }

/-- The part of `system_halt` that returns to the parent. -/
def haltToParent (state : ProcessState) (esp ebp : Nat) (status : UInt8) : Outcome :=
  let pcb := (state.pcbs state.pcbObj).cleared
  let parent := findPCB pcb.parentPid
  let pcbs := Function.update state.pcbs state.pcbObj
    { pcb with
      fda := fun fd =>
        { pcb.fda fd with flags := 0, inodeIdx := 0, filePosition := 0, fop := some .null } }
  if Accessible parent then
    .resumes esp ebp (if status = 255 then 256 else status.toNat)
      { pid := pcb.parentPid
        parentPid := (pcbs parent).parentPid
        pcbObj := parent
        pcbs := pcbs
        tssSs0 := 0x18
        tssEsp0 := uint32 (0x800000 - 0x2000 * pcb.parentPid - 4)
        paging := executePagingInit (pcb.parentPid + 1) state.paging }
  else .stuck

/-- What `system_halt` does after it has tried to start the base shell again: when
that failed it carries on with the control block it has just cleared. -/
def afterRestart (esp ebp : Nat) (status : UInt8) : Outcome → Outcome
  | .returns _ failed => haltToParent failed esp ebp status
  | outcome => outcome

/-- The command that starts a shell. -/
def shellCommand : Bytes :=
  cstring [115, 104, 101, 108, 108]

/-- `system_halt`. -/
def systemHalt (image : Image) (locals : Locals) (state : ProcessState) (status : UInt8) :
    Outcome :=
  if Accessible state.pcbObj then
    let pcb := state.pcbs state.pcbObj
    if state.pid = 0 ∧ pcb.parentPid = -1 then
      afterRestart pcb.espVal pcb.ebpVal status
        (systemExecute image locals (restartState state) (some shellCommand))
    else haltToParent state pcb.espVal pcb.ebpVal status
  else .stuck

/-! ## What the calls do -/

theorem findPCB_inj {first second : Int} : findPCB first = findPCB second ↔ first = second := by
  simp only [findPCB]
  omega

/-- `assign_PID` returns the lowest free slot. -/
theorem assignPID_spec (state : ProcessState) :
    (∃ slot : Nat, slot ≤ 4 ∧ assignPID state = slot ∧ ¬state.Active slot ∧
      ∀ lower : Nat, lower < slot → state.Active lower) ∨
    (assignPID state = -99 ∧ ∀ slot : Nat, slot ≤ 4 → state.Active slot) := by
  have sorted : ([0, 1, 2, 3, 4] : List Nat).Pairwise (· < ·) := by decide
  have slots (slot : Nat) (bound : slot ≤ 4) : slot ∈ ([0, 1, 2, 3, 4] : List Nat) := by
    simp only [List.mem_cons, List.not_mem_nil, or_false]
    omega
  rw [assignPID]
  split
  next slot found =>
    have bound : slot ≤ 4 := by
      have member := firstFit_mem found
      simp only [List.mem_cons, List.not_mem_nil, or_false] at member
      omega
    have free := firstFit_accept found
    refine .inl ⟨slot, bound, rfl, free, fun lower below => ?_⟩
    exact not_not.mp (firstFit_least sorted found (slots lower (by omega)) below)
  next full =>
    exact .inr ⟨rfl, fun slot bound => not_not.mp (firstFit_none full slot (slots slot bound))⟩

/-- The state in which a program runs after `system_execute` has started it in a
slot. -/
def ProcessState.started (state : ProcessState) (locals : Locals) (slot : Int) (args : Bytes) :
    ProcessState :=
  let old := state.pcbs (findPCB slot)
  { state with
    pid := slot
    pcbObj := findPCB slot
    pcbs := Function.update state.pcbs (findPCB slot)
      { active := 1
        pcbPid := slot
        parentPid := if slot = 0 then -1 else state.pid
        fda := initFda old.fda
        espVal := locals.esp
        ebpVal := locals.ebp
        tssEsp0 := uint32 (findPCB (slot - 1) - 4)
        args := strncpy args 32 }
    tssSs0 := 0x18
    tssEsp0 := uint32 (findPCB (slot - 1) - 4)
    paging := executePagingInit (slot + 1) state.paging }

section Execute

variable {image : Image} {locals : Locals} {state : ProcessState} {command : Option Bytes}
variable {inode : Nat} {args : Bytes}

theorem resolveCommand_elf (resolved : resolveCommand image locals command = .program inode args) :
    IsElf image inode := by
  cases command with
  | none => simp [resolveCommand] at resolved
  | some command =>
      simp only [resolveCommand] at resolved
      split at resolved
      · simp at resolved
      · split at resolved
        · simp at resolved
        · split at resolved
          · simp at resolved
          · simp at resolved
          · split at resolved
            next elf =>
              obtain ⟨rfl, -⟩ := Resolved.program.inj resolved
              exact elf
            · simp at resolved

/-- A file with the magic bytes exists and is not empty. -/
theorem IsElf.inside (elf : IsElf image inode) :
    inode ≤ uint32 (image.inodeCount - 1) ∧ 0 < fileLength image inode := by
  have read := elf.1
  rw [readData] at read
  split at read
  · simp at read
  next known =>
    split at read
    · simp at read
    next nonempty => exact ⟨Nat.not_lt.mp known, Nat.not_le.mp nonempty⟩

theorem fileLength_lt (image : Image) (inode : Nat) : fileLength image inode < 4294967296 :=
  uint32_lt _

/-- The bytes of a file in order. -/
def fileBytes (image : Image) (inode : Nat) : List UInt8 :=
  (List.range (fileLength image inode)).map (byteAt image inode)

@[simp] theorem length_fileBytes (image : Image) (inode : Nat) :
    (fileBytes image inode).length = fileLength image inode := by
  simp [fileBytes]

/-- Reading a whole executable never comes up short. -/
theorem IsElf.readData_whole (elf : IsElf image inode) :
    readData image inode 0 (fileLength image inode) =
      (int32 (fileLength image inode), fileBytes image inode) := by
  obtain ⟨known, nonempty⟩ := elf.inside
  have bound := fileLength_lt image inode
  rw [readData_eq known nonempty (by omega), Nat.sub_zero, Nat.min_self]
  simp [fileBytes]

theorem uint32_int32 {value : Nat} (bound : value < 4294967296) :
    uint32 (int32 value) = value := by
  simp only [uint32, int32]
  split <;> omega

/-- So the late check of the copied length never fails. -/
theorem IsElf.startProgram_eq (elf : IsElf image inode) (slot : Int) :
    startProgram image locals { state with pid := slot } state.pid inode args =
      if imageRoom < fileLength image inode then .stuck
      else .userMode (userEip image locals inode) (fileBytes image inode)
        (state.started locals slot args) := by
  have copied := uint32_int32 (fileLength_lt image inode)
  simp only [startProgram, elf.readData_whole, length_fileBytes, copied, ne_eq, not_true_eq_false,
    if_false, ProcessState.started, Function.update_self, Function.update_idem]

theorem systemExecute_rejected (resolved : resolveCommand image locals command = .rejected) :
    systemExecute image locals state command = .returns (-1) state := by
  rw [systemExecute, resolved]

theorem systemExecute_stuck (resolved : resolveCommand image locals command = .stuck) :
    systemExecute image locals state command = .stuck := by
  rw [systemExecute, resolved]

theorem systemExecute_full (resolved : resolveCommand image locals command = .program inode args)
    (full : assignPID state = -99) :
    systemExecute image locals state command = .returns (-1) { state with pid := -99 } := by
  simp only [systemExecute, resolved, full, if_true]

theorem systemExecute_program
    (resolved : resolveCommand image locals command = .program inode args) {slot : Nat}
    (assigned : assignPID state = slot) :
    systemExecute image locals state command =
      if imageRoom < fileLength image inode then .stuck
      else .userMode (userEip image locals inode) (fileBytes image inode)
        (state.started locals slot args) := by
  have success : ¬(slot : Int) = -99 := by omega
  simp only [systemExecute, resolved, assigned, success, if_false]
  exact (resolveCommand_elf resolved).startProgram_eq slot

/-- The three ways `system_execute` completes: it refuses the command, finds no
slot, or starts the program in the lowest free slot. -/
theorem systemExecute_cases (image : Image) (locals : Locals) (state : ProcessState)
    (command : Option Bytes) :
    systemExecute image locals state command = .stuck ∨
    (resolveCommand image locals command = .rejected ∧
      systemExecute image locals state command = .returns (-1) state) ∨
    (∃ inode args, resolveCommand image locals command = .program inode args ∧
      (∀ slot : Nat, slot ≤ 4 → state.Active slot) ∧
      systemExecute image locals state command = .returns (-1) { state with pid := -99 }) ∨
    ∃ (inode : Nat) (args : Bytes) (slot : Nat),
      resolveCommand image locals command = .program inode args ∧
      slot ≤ 4 ∧ ¬state.Active slot ∧ (∀ lower : Nat, lower < slot → state.Active lower) ∧
      systemExecute image locals state command =
        .userMode (userEip image locals inode) (fileBytes image inode)
          (state.started locals slot args) := by
  cases resolved : resolveCommand image locals command with
  | rejected => exact .inr (.inl ⟨rfl, systemExecute_rejected resolved⟩)
  | stuck => exact .inl (systemExecute_stuck resolved)
  | program inode args =>
      rcases assignPID_spec state with ⟨slot, bound, assigned, free, least⟩ | ⟨failed, full⟩
      · have executed := systemExecute_program resolved assigned
        split at executed
        · exact .inl executed
        · exact .inr (.inr (.inr ⟨inode, args, slot, rfl, bound, free, least, executed⟩))
      · exact .inr (.inr (.inl ⟨inode, args, rfl, full, systemExecute_full resolved failed⟩))

/-- The command names a program and a process slot is free. -/
def Starts (image : Image) (locals : Locals) (state : ProcessState) (command : Option Bytes) :
    Prop :=
  (∃ inode args, resolveCommand image locals command = .program inode args) ∧
    ∃ slot : Nat, slot ≤ 4 ∧ ¬state.Active slot

/-- What an execution that starts a program has done. -/
theorem systemExecute_started {state' : ProcessState} {eip : Nat} {loaded : List UInt8}
    (executed : systemExecute image locals state command = .userMode eip loaded state') :
    Starts image locals state command ∧
      ∃ (slot : Nat) (args : Bytes), slot ≤ 4 ∧ ¬state.Active slot ∧
        (∀ lower : Nat, lower < slot → state.Active lower) ∧
        state' = state.started locals slot args := by
  rcases systemExecute_cases image locals state command with
    stuck | ⟨_, refused⟩ | ⟨_, _, _, _, full⟩ |
      ⟨inode, args, slot, resolved, bound, free, least, ran⟩
  · simp [stuck] at executed
  · simp [refused] at executed
  · simp [full] at executed
  · rw [ran] at executed
    obtain ⟨_, _, rfl⟩ := Outcome.userMode.inj executed
    exact ⟨⟨⟨inode, args, resolved⟩, slot, bound, free⟩, slot, args, bound, free, least, rfl⟩

/-- An execution fails only when it could not start anything, and changes at most `pid`. -/
theorem systemExecute_failed {state' : ProcessState} {ret : Int}
    (executed : systemExecute image locals state command = .returns ret state') :
    ¬Starts image locals state command ∧
      (state' = state ∨
        (∀ slot : Nat, slot ≤ 4 → state.Active slot) ∧ state' = { state with pid := -99 }) := by
  rcases systemExecute_cases image locals state command with
    stuck | ⟨rejected, refused⟩ | ⟨_, _, _, used, full⟩ | ⟨_, _, _, _, _, _, _, ran⟩
  · simp [stuck] at executed
  · rw [refused] at executed
    obtain ⟨_, rfl⟩ := Outcome.returns.inj executed
    refine ⟨fun starts => ?_, .inl rfl⟩
    obtain ⟨⟨inode, args, resolved⟩, -⟩ := starts
    rw [rejected] at resolved
    cases resolved
  · rw [full] at executed
    obtain ⟨_, rfl⟩ := Outcome.returns.inj executed
    refine ⟨fun starts => ?_, .inr ⟨used, rfl⟩⟩
    obtain ⟨-, slot, bound, free⟩ := starts
    exact free (used slot bound)
  · simp [ran] at executed

end Execute

end Ece391.Kernel
