import Ece391.Kernel.Drivers
import Ece391.Library.FirstFit
import Ece391.Library.Run
import Mathlib.Order.Fin.Basic

/-!
# System calls on the descriptor table

`system_open`, `system_close`, `system_read` and `system_write` act on the
descriptor table of the current process.  Each call is given the devices its
driver finds and the uninitialised local entry it passes down; `none` is a call
that does not complete.
-/

namespace Ece391.Kernel

open Ece391.Library

/-- A driver operation reached through an operation table. -/
inductive DriverCall where
  | openOp (fop : Fop)
  | closeOp (fop : Fop)
  | readOp (fop : Fop)
  | writeOp (fop : Fop)
  deriving DecidableEq, Repr

/-- What a system call does: its return value, the table and devices it leaves,
the bytes it stores in the caller's buffer from its start, the bytes it prints,
and the driver operations it calls. -/
structure CallResult where
  ret : Int
  fda : Fda
  devices : Devices
  written : List UInt8
  printed : List UInt8
  called : List DriverCall

/-- A call that returns -1 without reaching a driver. -/
def refused (fda : Fda) (devices : Devices) : CallResult :=
  ⟨-1, fda, devices, [], [], []⟩

/-- The `read` operation of a table. -/
def Fop.read (image : Image) (dentry : Dentry) (devices : Devices) (fda : Fda) (fd : Fin 8)
    (buf : Bytes) (nbytes : Int) : Fop → Option CallResult
  | .null => some ⟨-1, fda, devices, [], [], [.readOp .null]⟩
  | .stdin => (terminalRead devices nbytes).map fun read =>
      ⟨read.1, fda, read.2.2, read.2.1, [], [.readOp .stdin]⟩
  | .stdout => some ⟨-1, fda, devices, [], [], [.readOp .stdout]⟩
  | .rtc => (rtcRead devices).map fun ret => ⟨ret, fda, devices, [], [], [.readOp .rtc]⟩
  | .files =>
      let read := fileRead image fda fd nbytes
      some ⟨read.1, read.2.2, devices, read.2.1, [], [.readOp .files]⟩
  | .directories =>
      let read := directoryRead image fda fd buf dentry
      some ⟨read.1, read.2.2, devices, read.2.1, [], [.readOp .directories]⟩

/-- The `write` operation of a table. -/
def Fop.write (devices : Devices) (fda : Fda) (buf : Bytes) (nbytes : Int) :
    Fop → Option CallResult
  | .null => some ⟨-1, fda, devices, [], [], [.writeOp .null]⟩
  | .stdin => some ⟨-1, fda, devices, [], [], [.writeOp .stdin]⟩
  | .stdout => (terminalWrite buf nbytes).map fun write =>
      ⟨write.1, fda, devices, [], write.2, [.writeOp .stdout]⟩
  | .rtc =>
      let write := rtcWrite devices buf
      some ⟨write.1, fda, write.2, [], [], [.writeOp .rtc]⟩
  | .files => some ⟨-1, fda, devices, [], [], [.writeOp .files]⟩
  | .directories => some ⟨-1, fda, devices, [], [], [.writeOp .directories]⟩

/-- `system_read`. -/
def systemRead (image : Image) (dentry : Dentry) (devices : Devices) (fda : Fda) (fd : Int)
    (buf : Option Bytes) (nbytes : Int) : Option CallResult :=
  match buf with
  | none => some (refused fda devices)
  | some buf =>
      if range : fd < 0 ∨ fd > 7 then some (refused fda devices)
      else
        let slot : Fin 8 := ⟨fd.toNat, by omega⟩
        match (fda slot).fop with
        | none => some (refused fda devices)
        | some fop =>
            if (fda slot).flags = 0 then some (refused fda devices)
            else fop.read image dentry devices fda slot buf nbytes

/-- `system_write`; its test of the open flag is commented out in the source. -/
def systemWrite (devices : Devices) (fda : Fda) (fd : Int) (buf : Option Bytes)
    (nbytes : Int) : Option CallResult :=
  match buf with
  | none => some (refused fda devices)
  | some buf =>
      if range : fd < 0 ∨ fd > 7 then some (refused fda devices)
      else
        let slot : Fin 8 := ⟨fd.toNat, by omega⟩
        match (fda slot).fop with
        | none => some (refused fda devices)
        | some fop => fop.write devices fda buf nbytes

/-- The search of each branch of `system_open`: the first slot from 2 on whose
flags are zero. -/
def firstFree (fda : Fda) : Option (Fin 8) :=
  firstFit [2, 3, 4, 5, 6, 7] fun fd => (fda fd).flags = 0

/-- One branch of `system_open`; the three branches differ in the table and the
type they store. -/
def openAs (devices : Devices) (fda : Fda) (inodeNum : Int) (fop : Fop) (fileType : Nat) :
    CallResult :=
  match firstFree fda with
  | none => refused fda devices
  | some fd =>
      { ret := fd.val
        fda := Function.update fda fd
          { fop := some fop, inodeIdx := uint32 inodeNum, filePosition := 0, flags := 1,
            fileType := fileType }
        devices := devices, written := [], printed := [], called := [] }

/-- `system_open`; no branch calls the driver's own open operation. -/
def systemOpen (image : Image) (dentry : Dentry) (devices : Devices) (fda : Fda)
    (filename : Bytes) : Option CallResult :=
  match readDentryByName image filename dentry with
  | .endless => none
  | .missing => some (refused fda devices)
  | .found entry =>
      if entry.fileType = 0 then some (openAs devices fda entry.inodeNum .rtc 0)
      else if entry.fileType = 1 then some (openAs devices fda entry.inodeNum .directories 1)
      else if entry.fileType = 2 then some (openAs devices fda entry.inodeNum .files 2)
      else some (refused fda devices)

/-- `system_close`; the close operation is called through the table just stored,
and its result is ignored. -/
def systemClose (devices : Devices) (fda : Fda) (fd : Int) : CallResult :=
  if range : fd < 2 ∨ fd > 7 then refused fda devices
  else
    let slot : Fin 8 := ⟨fd.toNat, by omega⟩
    if (fda slot).flags = 0 then refused fda devices
    else
      { ret := 0
        fda := Function.update fda slot
          { fda slot with inodeIdx := 0, flags := 0, filePosition := 0, fop := some .null }
        devices := devices, written := [], printed := [], called := [.closeOp .null] }

/-- The table `system_execute` builds in a slot that held `old`: the file types of
the free descriptors are left as they were. -/
def initFda (old : Fda) : Fda := fun fd =>
  if fd = 0 then ⟨some .stdin, 0, 0, 1, 3⟩
  else if fd = 1 then ⟨some .stdout, 0, 0, 1, 3⟩
  else ⟨some .null, 0, 0, 0, (old fd).fileType⟩

/-! ## Runs of calls -/

/-- A call on the descriptor table, with what its driver finds. -/
inductive FdCall where
  | openFile (filename : Bytes) (dentry : Dentry)
  | close (fd : Int)
  | read (fd : Int) (buf : Option Bytes) (nbytes : Int) (dentry : Dentry)
  | write (fd : Int) (buf : Option Bytes) (nbytes : Int)

/-- The descriptor number a call names. -/
def FdCall.fd? : FdCall → Option Int
  | .openFile _ _ => none
  | .close fd => some fd
  | .read fd _ _ _ => some fd
  | .write fd _ _ => some fd

/-- The effect of a call. -/
def FdCall.run (image : Image) (devices : Devices) (fda : Fda) :
    FdCall → Option CallResult
  | .openFile filename dentry => systemOpen image dentry devices fda filename
  | .close fd => some (systemClose devices fda fd)
  | .read fd buf nbytes dentry => systemRead image dentry devices fda fd buf nbytes
  | .write fd buf nbytes => systemWrite devices fda fd buf nbytes

/-- A completed call with its result.  The devices are arbitrary: interrupts may
change them between and during calls. -/
def FdStep (image : Image) (fda : Fda) (label : FdCall × CallResult) (fda' : Fda) : Prop :=
  ∃ devices, label.1.run image devices fda = some label.2 ∧ fda' = label.2.fda

/-- Calls after one another, between which nothing changes the devices. -/
def FdCall.runAll (image : Image) (devices : Devices) (fda : Fda) :
    List FdCall → Option (List (FdCall × CallResult) × Fda)
  | [] => some ([], fda)
  | call :: calls => do
      let result ← call.run image devices fda
      let (labels, fda) ← FdCall.runAll image devices result.fda calls
      pure ((call, result) :: labels, fda)

theorem FdCall.runAll_run {image : Image} {devices : Devices} {calls : List FdCall}
    {fda fda' : Fda} {labels : List (FdCall × CallResult)}
    (completed : FdCall.runAll image devices fda calls = some (labels, fda')) :
    Run (FdStep image) fda labels fda' ∧ labels.map Prod.fst = calls := by
  induction calls generalizing fda labels with
  | nil =>
      obtain ⟨rfl, rfl⟩ := Prod.mk.inj (Option.some.inj completed)
      exact ⟨.nil fda, rfl⟩
  | cons call calls ih =>
      simp only [FdCall.runAll, Option.bind_eq_bind, Option.bind_eq_some_iff, Option.pure_def]
        at completed
      obtain ⟨result, first, ⟨rest, last⟩, later, same⟩ := completed
      obtain ⟨rfl, rfl⟩ := Prod.mk.inj (Option.some.inj same)
      obtain ⟨run, names⟩ := ih later
      exact ⟨.cons ⟨devices, first, rfl⟩ run, congrArg (call :: ·) names⟩

/-! ## What a call can do to the table -/

private theorem mem_ordinary (fd : Fin 8) :
    fd ∈ ([2, 3, 4, 5, 6, 7] : List (Fin 8)) ↔ 2 ≤ fd.val := by
  revert fd
  decide

theorem firstFree_some {fda : Fda} {fd : Fin 8} (free : firstFree fda = some fd) :
    2 ≤ fd.val ∧ (fda fd).flags = 0 ∧
      ∀ lower : Fin 8, 2 ≤ lower.val → lower < fd → (fda lower).flags ≠ 0 := by
  rw [firstFree] at free
  have sorted : ([2, 3, 4, 5, 6, 7] : List (Fin 8)).Pairwise (· < ·) := by decide
  have accepted := firstFit_accept free
  refine ⟨(mem_ordinary fd).mp (firstFit_mem free), accepted, ?_⟩
  intro lower ordinary below
  exact firstFit_least sorted free ((mem_ordinary lower).mpr ordinary) below

theorem firstFree_none {fda : Fda} (used : firstFree fda = none) (fd : Fin 8)
    (ordinary : 2 ≤ fd.val) : (fda fd).flags ≠ 0 := by
  rw [firstFree] at used
  exact firstFit_none used fd ((mem_ordinary fd).mpr ordinary)

/-- The operation table that belongs to a file type. -/
def tableOf (fileType : Nat) : Option Fop :=
  if fileType = 0 then some .rtc
  else if fileType = 1 then some .directories
  else if fileType = 2 then some .files
  else none

/-- The changes a completed call can make to the table. -/
inductive FdEffect (fda : Fda) : FdCall → Fda → Prop where
  /-- Nothing changes. -/
  | same (call : FdCall) : FdEffect fda call fda
  /-- A read advances the position of its own open descriptor. -/
  | advanced (fd : Fin 8) (amount : Int) (buf : Option Bytes) (nbytes : Int)
      (dentry : Dentry) :
      (fda fd).flags ≠ 0 → (fda fd).fop = some .files ∨ (fda fd).fop = some .directories →
      FdEffect fda (.read fd.val buf nbytes dentry) (advance fda fd amount)
  /-- An open fills the lowest free slot. -/
  | opened (fd : Fin 8) (filename : Bytes) (dentry : Dentry) (inodeNum : Int) (fop : Fop)
      (fileType : Nat) :
      firstFree fda = some fd → tableOf fileType = some fop →
      FdEffect fda (.openFile filename dentry)
        (Function.update fda fd ⟨some fop, uint32 inodeNum, 0, 1, fileType⟩)
  /-- A close frees its own open slot. -/
  | closed (fd : Fin 8) :
      2 ≤ fd.val → (fda fd).flags ≠ 0 →
      FdEffect fda (.close fd.val)
        (Function.update fda fd
          { fda fd with inodeIdx := 0, flags := 0, filePosition := 0, fop := some .null })

section Calls

variable {image : Image} {dentry : Dentry} {devices : Devices} {fda : Fda} {fd : Int}
variable {buf : Option Bytes} {nbytes : Int} {result : CallResult}

theorem Fop.read_effect (buf : Option Bytes) {fop : Fop} {slot : Fin 8} {memory : Bytes}
    (opened : (fda slot).flags ≠ 0) (table : (fda slot).fop = some fop)
    (completed : fop.read image dentry devices fda slot memory nbytes = some result) :
    FdEffect fda (.read slot.val buf nbytes dentry) result.fda := by
  cases fop with
  | null | stdout =>
      obtain rfl := Option.some.inj completed
      exact .same _
  | stdin =>
      simp only [Fop.read, Option.map_eq_some_iff] at completed
      obtain ⟨_, _, rfl⟩ := completed
      exact .same _
  | rtc =>
      simp only [Fop.read, Option.map_eq_some_iff] at completed
      obtain ⟨_, _, rfl⟩ := completed
      exact .same _
  | files =>
      obtain rfl := Option.some.inj completed
      rcases fileRead_fda image fda slot nbytes with same | ⟨amount, moved⟩
      · rw [same]
        exact .same _
      · rw [moved]
        exact .advanced slot amount buf nbytes dentry opened (.inl table)
  | directories =>
      obtain rfl := Option.some.inj completed
      rcases directoryRead_fda image fda slot memory dentry with same | moved
      · rw [same]
        exact .same _
      · rw [moved]
        exact .advanced slot 1 buf nbytes dentry opened (.inr table)

theorem Fop.write_fda {fop : Fop} {memory : Bytes}
    (completed : fop.write devices fda memory nbytes = some result) : result.fda = fda := by
  cases fop with
  | null | stdin | rtc | files | directories =>
      obtain rfl := Option.some.inj completed
      rfl
  | stdout =>
      simp only [Fop.write, Option.map_eq_some_iff] at completed
      obtain ⟨_, _, rfl⟩ := completed
      rfl

theorem systemRead_effect
    (completed : systemRead image dentry devices fda fd buf nbytes = some result) :
    FdEffect fda (.read fd buf nbytes dentry) result.fda := by
  cases buf with
  | none =>
      obtain rfl := Option.some.inj completed
      exact .same _
  | some memory =>
      simp only [systemRead] at completed
      split at completed
      · obtain rfl := Option.some.inj completed
        exact .same _
      next range =>
        split at completed
        · obtain rfl := Option.some.inj completed
          exact .same _
        next fop table =>
          split at completed
          · obtain rfl := Option.some.inj completed
            exact .same _
          next opened =>
            have effect := Fop.read_effect (some memory) opened table completed
            simpa [Int.toNat_of_nonneg (by omega : 0 ≤ fd)] using effect

theorem systemWrite_fda (completed : systemWrite devices fda fd buf nbytes = some result) :
    result.fda = fda := by
  cases buf with
  | none =>
      obtain rfl := Option.some.inj completed
      rfl
  | some memory =>
      simp only [systemWrite] at completed
      split at completed
      · obtain rfl := Option.some.inj completed
        rfl
      · split at completed
        · obtain rfl := Option.some.inj completed
          rfl
        · exact Fop.write_fda completed

/-- The three ways `system_open` completes: no entry, no slot, or the lowest free
slot filled for the entry that was found. -/
theorem systemOpen_cases {filename : Bytes}
    (completed : systemOpen image dentry devices fda filename = some result) :
    result = refused fda devices ∨
      ∃ entry slot fop fileType, readDentryByName image filename dentry = .found entry ∧
        entry.fileType = (fileType : Nat) ∧ tableOf fileType = some fop ∧
        firstFree fda = some slot ∧ result.ret = slot.val ∧
        result.fda =
          Function.update fda slot ⟨some fop, uint32 entry.inodeNum, 0, 1, fileType⟩ := by
  rw [systemOpen] at completed
  split at completed
  · simp at completed
  · exact .inl (Option.some.inj completed).symm
  next entry found =>
    have branch (fop : Fop) (fileType : Nat) (type : entry.fileType = (fileType : Nat))
        (table : tableOf fileType = some fop)
        (same : openAs devices fda entry.inodeNum fop fileType = result) :
        result = refused fda devices ∨
          ∃ entry' slot fop fileType, readDentryByName image filename dentry = .found entry' ∧
            entry'.fileType = (fileType : Nat) ∧ tableOf fileType = some fop ∧
            firstFree fda = some slot ∧ result.ret = slot.val ∧
            result.fda =
              Function.update fda slot
                ⟨some fop, uint32 entry'.inodeNum, 0, 1, fileType⟩ := by
      rw [openAs] at same
      split at same
      · exact .inl same.symm
      next slot free =>
        subst same
        exact .inr ⟨entry, slot, fop, fileType, found, type, table, free, rfl, rfl⟩
    split at completed
    next type => exact branch .rtc 0 type rfl (Option.some.inj completed)
    · split at completed
      next type => exact branch .directories 1 type rfl (Option.some.inj completed)
      · split at completed
        next type => exact branch .files 2 type rfl (Option.some.inj completed)
        · exact .inl (Option.some.inj completed).symm

theorem systemClose_effect : FdEffect fda (.close fd) (systemClose devices fda fd).fda := by
  rw [systemClose]
  split
  · exact .same _
  next range =>
    simp only
    split
    · exact .same _
    next opened =>
      have ordinary : 2 ≤ fd.toNat := by omega
      have effect : FdEffect fda (.close fd.toNat) _ := .closed ⟨fd.toNat, by omega⟩ ordinary opened
      simpa [Int.toNat_of_nonneg (by omega : 0 ≤ fd)] using effect

/-- Every completed call has one of the listed effects. -/
theorem FdCall.run_effect {call : FdCall}
    (completed : call.run image devices fda = some result) :
    FdEffect fda call result.fda := by
  cases call with
  | openFile filename dentry =>
      rcases systemOpen_cases completed with rfl |
        ⟨entry, slot, fop, fileType, _, _, table, free, _, after⟩
      · exact .same _
      · rw [after]
        exact .opened slot filename dentry entry.inodeNum fop fileType free table
  | close fd =>
      obtain rfl := Option.some.inj completed
      exact systemClose_effect
  | read fd buf nbytes dentry => exact systemRead_effect completed
  | write fd buf nbytes =>
      rw [systemWrite_fda completed]
      exact .same _

/-- The frame rule of the table: a call that does not name an open descriptor
leaves it as it is. -/
theorem FdEffect.frame {call : FdCall} {fda' : Fda} (effect : FdEffect fda call fda')
    {slot : Fin 8} (opened : (fda slot).flags ≠ 0) (other : call.fd? ≠ some (slot.val : Int)) :
    fda' slot = fda slot := by
  cases effect with
  | same => rfl
  | advanced moved =>
      refine advance_of_ne (fun same => other ?_) _
      rw [same, FdCall.fd?]
  | opened filled _ _ _ _ _ free =>
      refine Function.update_of_ne (fun same => opened ?_) ..
      exact same ▸ (firstFree_some free).2.1
  | closed freed =>
      refine Function.update_of_ne (fun same => other ?_) ..
      rw [same, FdCall.fd?]

end Calls

/-! ## The table invariant -/

/-- A free descriptor as close and execute leave it. -/
structure FileDescriptor.Free (descriptor : FileDescriptor) : Prop where
  flags : descriptor.flags = 0
  fop : descriptor.fop = some .null
  inodeIdx : descriptor.inodeIdx = 0
  filePosition : descriptor.filePosition = 0

/-- An open descriptor whose operations match its file type. -/
structure FileDescriptor.Opened (descriptor : FileDescriptor) : Prop where
  flags : descriptor.flags = 1
  fop : ∃ fop, tableOf descriptor.fileType = some fop ∧ descriptor.fop = some fop

/-- What every call keeps of a descriptor table. -/
structure Fda.Valid (fda : Fda) : Prop where
  stdin : (fda 0).flags = 1 ∧ (fda 0).fop = some .stdin
  stdout : (fda 1).flags = 1 ∧ (fda 1).fop = some .stdout
  slots : ∀ fd : Fin 8, 2 ≤ fd.val → (fda fd).Free ∨ (fda fd).Opened

/-- The descriptors that calls open and close are not the standard ones. -/
theorem ne_standard {fd : Fin 8} (ordinary : 2 ≤ fd.val) : fd ≠ 0 ∧ fd ≠ 1 := by
  constructor
  · rintro rfl
    simp at ordinary
  · rintro rfl
    simp at ordinary

/-- The table built by `system_execute` is valid. -/
theorem initFda_valid (old : Fda) : (initFda old).Valid where
  stdin := ⟨rfl, rfl⟩
  stdout := ⟨rfl, rfl⟩
  slots fd ordinary := by
    obtain ⟨notStdin, notStdout⟩ := ne_standard ordinary
    left
    constructor <;> simp [initFda, notStdin, notStdout]

/-- An ordinary descriptor may be replaced by a free or an open one. -/
theorem Fda.Valid.update {fda : Fda} {fd : Fin 8} {descriptor : FileDescriptor}
    (valid : fda.Valid) (ordinary : 2 ≤ fd.val) (ready : descriptor.Free ∨ descriptor.Opened) :
    Fda.Valid (Function.update fda fd descriptor) := by
  obtain ⟨notStdin, notStdout⟩ := ne_standard ordinary
  constructor
  · rw [Function.update_of_ne notStdin.symm]
    exact valid.stdin
  · rw [Function.update_of_ne notStdout.symm]
    exact valid.stdout
  · intro slot ordinary'
    by_cases same : slot = fd
    · rw [same, Function.update_self]
      exact ready
    · rw [Function.update_of_ne same]
      exact valid.slots slot ordinary'

theorem FdEffect.valid {fda fda' : Fda} {call : FdCall} (effect : FdEffect fda call fda')
    (valid : fda.Valid) : fda'.Valid := by
  cases effect with
  | same => exact valid
  | advanced fd amount _ _ _ opened table =>
      refine ⟨by simpa using valid.stdin, by simpa using valid.stdout, fun slot ordinary => ?_⟩
      by_cases same : slot = fd
      · subst slot
        rcases valid.slots fd ordinary with free | ready
        · exact absurd free.flags opened
        · exact .inr ⟨by simpa using ready.flags, by simpa using ready.fop⟩
      · simpa [same] using valid.slots slot ordinary
  | opened fd _ _ _ fop fileType free table =>
      obtain ⟨ordinary, -, -⟩ := firstFree_some free
      exact valid.update ordinary (.inr ⟨rfl, fop, table, rfl⟩)
  | closed fd ordinary opened => exact valid.update ordinary (.inl ⟨rfl, rfl, rfl, rfl⟩)

/-- Any sequence of calls keeps the table valid. -/
theorem Fda.Valid.run {image : Image} {fda fda' : Fda}
    {labels : List (FdCall × CallResult)} (valid : fda.Valid)
    (run : Run (FdStep image) fda labels fda') : fda'.Valid := by
  refine run.invariant Fda.Valid (fun before label after valid step => ?_) valid
  obtain ⟨devices, completed, rfl⟩ := step
  exact (FdCall.run_effect completed).valid valid

end Ece391.Kernel
