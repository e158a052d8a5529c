import Ece391.Kernel.ExecuteFailure

/-!
# The descriptor table of a running process

From the table built by `system_execute` any sequence of calls keeps every
descriptor either free or open on the operations of its file type.  `system_write`
does not test the open flag; it is safe because a free descriptor always points at
the null operations.
-/

namespace Ece391.Kernel

open Ece391.Library

/-- A call that reports failure and changes nothing. -/
structure CallResult.Refusal (result : CallResult) (fda : Fda) (devices : Devices) : Prop where
  ret : result.ret = -1
  fda : result.fda = fda
  devices : result.devices = devices
  written : result.written = []
  printed : result.printed = []

/-- A descriptor number that is out of range or free. -/
def Unopened (fda : Fda) (fd : Int) : Prop :=
  ∀ slot : Fin 8, fd = (slot.val : Int) → (fda slot).flags = 0

theorem refused_refusal (fda : Fda) (devices : Devices) :
    (refused fda devices).Refusal fda devices where
  ret := rfl
  fda := rfl
  devices := rfl
  written := rfl
  printed := rfl

section

variable {image : Image} {dentry : Dentry} {devices : Devices} {fda : Fda} {fd : Int}
variable {buf : Option Bytes} {nbytes : Int}

theorem Fda.Valid.free_or_opened (valid : fda.Valid) {slot : Fin 8} (ordinary : 2 ≤ slot.val) :
    (fda slot).Free ↔ ¬(fda slot).Opened := by
  constructor
  · intro free opened
    exact absurd (free.flags.symm.trans opened.flags) (by decide)
  · intro closed
    rcases valid.slots slot ordinary with free | opened
    · exact free
    · exact absurd opened closed

theorem Fda.Valid.free_of_flags (valid : fda.Valid) {slot : Fin 8}
    (flags : (fda slot).flags = 0) : (fda slot).Free := by
  have ordinary : 2 ≤ slot.val := by
    by_contra small
    obtain rfl | rfl : slot = 0 ∨ slot = 1 := by omega
    · simp [valid.stdin.1] at flags
    · simp [valid.stdout.1] at flags
  rcases valid.slots slot ordinary with free | opened
  · exact free
  · exact absurd (flags.symm.trans opened.flags) (by decide)

theorem systemRead_unopened (unopened : Unopened fda fd) :
    systemRead image dentry devices fda fd buf nbytes = some (refused fda devices) := by
  cases buf with
  | none => rfl
  | some memory =>
      simp only [systemRead]
      split
      · rfl
      next range =>
        have flags := unopened ⟨fd.toNat, by omega⟩ (by simp only; omega)
        split
        · rfl
        · rw [if_pos flags]

/-- The missing test of the open flag is made up for by the null operations. -/
theorem systemWrite_unopened (valid : fda.Valid) (unopened : Unopened fda fd) :
    ∃ result, systemWrite devices fda fd buf nbytes = some result ∧
      result.Refusal fda devices := by
  cases buf with
  | none => exact ⟨_, rfl, refused_refusal fda devices⟩
  | some memory =>
      simp only [systemWrite]
      split
      · exact ⟨_, rfl, refused_refusal fda devices⟩
      next range =>
        have flags := unopened ⟨fd.toNat, by omega⟩ (by simp only; omega)
        rw [(valid.free_of_flags flags).fop]
        exact ⟨_, rfl, rfl, rfl, rfl, rfl, rfl⟩

theorem systemClose_unopened (unopened : Unopened fda fd) :
    systemClose devices fda fd = refused fda devices := by
  rw [systemClose]
  split
  · rfl
  next range =>
    have flags := unopened ⟨fd.toNat, by omega⟩ (by simp only; omega)
    exact if_pos flags

/-- A successful open takes the lowest free descriptor and changes no other. -/
theorem systemOpen_success (valid : fda.Valid) {filename : Bytes} {result : CallResult}
    (completed : systemOpen image dentry devices fda filename = some result)
    (success : result.ret ≠ -1) :
    ∃ slot : Fin 8, result.ret = slot.val ∧ (fda slot).Free ∧
      (∀ lower : Fin 8, lower < slot → (fda lower).flags ≠ 0) ∧
      (result.fda slot).Opened ∧ ∀ other, other ≠ slot → result.fda other = fda other := by
  rcases systemOpen_cases completed with rfl |
    ⟨entry, slot, fop, fileType, _, _, table, free, ret, after⟩
  · exact absurd rfl success
  · obtain ⟨ordinary, flags, least⟩ := firstFree_some free
    refine ⟨slot, ret, valid.free_of_flags flags, fun lower below => ?_, ?_, fun other apart => ?_⟩
    · intro unused
      by_cases small : 2 ≤ lower.val
      · exact least lower small below unused
      · obtain rfl | rfl : lower = 0 ∨ lower = 1 := by omega
        · simp [valid.stdin.1] at unused
        · simp [valid.stdout.1] at unused
    · rw [after, Function.update_self]
      exact ⟨rfl, fop, table, rfl⟩
    · rw [after, Function.update_of_ne apart]

theorem openAs_failure {inodeNum : Int} {fop : Fop} {fileType : Nat}
    (failed : (openAs devices fda inodeNum fop fileType).ret = -1) (slot : Fin 8)
    (ordinary : 2 ≤ slot.val) : (fda slot).flags ≠ 0 := by
  rw [openAs] at failed
  split at failed
  next used => exact firstFree_none used slot ordinary
  next free =>
    simp only at failed
    omega

/-- Opening an entry of a known type completes, and fails only when the six
descriptors are used. -/
theorem systemOpen_known (devices : Devices) (fda : Fda) {filename : Bytes} {entry : Dentry}
    (found : readDentryByName image filename dentry = .found entry)
    (known : 0 ≤ entry.fileType ∧ entry.fileType ≤ 2) :
    ∃ result, systemOpen image dentry devices fda filename = some result ∧
      (result.ret = -1 → ∀ slot : Fin 8, 2 ≤ slot.val → (fda slot).flags ≠ 0) := by
  simp only [systemOpen, found]
  split
  · exact ⟨_, rfl, openAs_failure⟩
  · split
    · exact ⟨_, rfl, openAs_failure⟩
    · rw [if_pos (by omega)]
      exact ⟨_, rfl, openAs_failure⟩

end

/-- From the table of a new process any sequence of calls keeps the table valid;
there an open takes the lowest free descriptor and fails on an existing entry only
when all are used, and calls on descriptors that are not open are refused. -/
theorem descriptor_table_runs {image : Image} {locals : Locals} {state state' : ProcessState}
    {command : Option Bytes} {eip : Nat} {loaded : List UInt8} {fda : Fda}
    {labels : List (FdCall × CallResult)}
    (executed : systemExecute image locals state command = .userMode eip loaded state')
    (run : Run (FdStep image) (state'.pcbs state'.pcbObj).fda labels fda) :
    fda.Valid ∧
    (∀ devices dentry filename result,
      systemOpen image dentry devices fda filename = some result → result.ret ≠ -1 →
      ∃ slot : Fin 8, result.ret = slot.val ∧ (fda slot).Free ∧
        (∀ lower : Fin 8, lower < slot → (fda lower).flags ≠ 0) ∧
        (result.fda slot).Opened ∧ ∀ other, other ≠ slot → result.fda other = fda other) ∧
    (∀ devices dentry filename (i : Nat), i < 63 → (i : Int) < image.dirCount →
      field 0 32 filename = (image.direntries i).name →
      (∀ k < i, field 0 32 filename ≠ (image.direntries k).name) →
      0 ≤ (image.direntries i).fileType ∧ (image.direntries i).fileType ≤ 2 →
      ∃ result, systemOpen image dentry devices fda filename = some result ∧
        (result.ret = -1 → ∀ slot : Fin 8, 2 ≤ slot.val → (fda slot).Opened)) ∧
    ∀ fd, Unopened fda fd → ∀ devices dentry buf nbytes,
      (∃ result, systemRead image dentry devices fda fd buf nbytes = some result ∧
        result.Refusal fda devices) ∧
      (∃ result, systemWrite devices fda fd buf nbytes = some result ∧
        result.Refusal fda devices) ∧
      (systemClose devices fda fd).Refusal fda devices := by
  have initial : (state'.pcbs state'.pcbObj).fda.Valid := by
    obtain ⟨-, slot, args, -, -, -, rfl⟩ := systemExecute_started executed
    simp only [ProcessState.started, Function.update_self]
    exact initFda_valid _
  have valid := initial.run run
  refine ⟨valid, fun devices dentry filename result completed success =>
      systemOpen_success valid completed success,
    fun devices dentry filename i slot inside name first known => ?_,
    fun fd unopened devices dentry buf nbytes => ⟨⟨_, systemRead_unopened unopened,
      refused_refusal fda devices⟩, systemWrite_unopened valid unopened, ?_⟩⟩
  · have found : readDentryByName image filename dentry = .found (image.direntries i) :=
      readDentryByName_of_first slot inside name first
    obtain ⟨result, completed, failure⟩ := systemOpen_known devices fda found known
    refine ⟨result, completed, fun failed slot ordinary => ?_⟩
    by_contra closed
    exact failure failed slot ordinary ((valid.free_or_opened ordinary).mpr closed).flags
  · rw [systemClose_unopened unopened]
    exact refused_refusal fda devices

/-- A shell that opens its executable and the directory, closes the first and opens it again has a
valid table, and descriptor 4 is not open. -/
theorem descriptor_table_runs_reopen :
    ∃ (state' : ProcessState) (labels : List (FdCall × CallResult)) (fda : Fda),
      Run (FdStep smallImage) (state'.pcbs state'.pcbObj).fda labels fda ∧
      labels.map (fun label => label.2.ret) = [2, 3, 0, 2] ∧ fda.Valid ∧
      ∀ devices, (systemClose devices fda 4).Refusal fda devices := by
  obtain ⟨eip, loaded, executed⟩ :=
    smallImage_bootable.shell_starts zeroLocals (by decide)
      (assignPID_idle (bootState_booted smallLayout).idle)
  let start := initFda ((bootState smallLayout).pcbs (findPCB (0 : Nat))).fda
  let shell : FdCall := .openFile (cstring [115, 104, 101, 108, 108]) ⟨fun _ => 0, 0, 0⟩
  let calls : List FdCall := [shell, .openFile (cstring [46]) ⟨fun _ => 0, 0, 0⟩, .close 2, shell]
  have outcome : (FdCall.runAll smallImage (typedDevices []) start calls).map
      (fun ended => (ended.1.map (·.2.ret), (ended.2 4).flags)) = some ([2, 3, 0, 2], 0) := by
    decide
  obtain ⟨⟨labels, fda⟩, completed, same⟩ := Option.map_eq_some_iff.mp outcome
  obtain ⟨rets, unused⟩ := Prod.mk.inj same
  obtain ⟨run, -⟩ := FdCall.runAll_run completed
  obtain ⟨valid, -, -, refused⟩ := descriptor_table_runs executed run
  have unopened : Unopened fda 4 := by
    intro slot number
    obtain rfl : slot = 4 := by omega
    exact unused
  exact ⟨(bootState smallLayout).started zeroLocals (0 : Nat) (shellArgs zeroLocals), labels, fda,
    run, rets, valid, fun devices =>
      (refused 4 unopened devices ⟨fun _ => 0, 0, 0⟩ none 0).2.2⟩

end Ece391.Kernel
