import Ece391.Kernel.DescriptorTable

/-!
# Open and close operations of the drivers

An operation table has an `open` and a `close` entry.  `system_open` fills a descriptor
without calling the first, and `system_close` replaces the table before it calls the
second through it.  No successful open or close therefore reaches its driver.
-/

namespace Ece391.Kernel

open Ece391.Library

/-- `rtc_open`, which takes the value 1 that `rtc_set_freq` returns for an error. -/
def rtcOpen (devices : Devices) : Int × Devices :=
  let set := rtcSetFreq 2 devices.regA
  (if set.1 ≠ 0 then -1 else 0, { devices with regA := set.2 })

/-- Register A holds the rate of 2 Hz. -/
def Devices.TwoHertz (devices : Devices) : Prop :=
  devices.regA &&& 0x0F = 0x0F

theorem or_and_mask (value mask : UInt8) : (value ||| mask) &&& mask = mask := by
  apply UInt8.toBitVec_inj.mp
  simp only [UInt8.toBitVec_and, UInt8.toBitVec_or]
  ext i
  simp only [BitVec.getElem_and, BitVec.getElem_or]
  cases mask.toBitVec[i] <;> simp

theorem rtcOpen_twoHertz (devices : Devices) : (rtcOpen devices).2.TwoHertz :=
  or_and_mask (devices.regA &&& 0xF0) 0x0F

/-- A successful open has called the open operation of the table it installed, once; the
clock then runs at the rate that operation sets. -/
def OpenBalanced (result : CallResult) : Prop :=
  ∀ slot : Fin 8, result.ret = slot.val →
    ∃ fop, (result.fda slot).fop = some fop ∧ result.called.count (.openOp fop) = 1 ∧
      (fop = .rtc → result.devices.TwoHertz)

/-- A successful close has called the close operation of the table that was installed,
once. -/
def CloseBalanced (fda : Fda) (fd : Int) (result : CallResult) : Prop :=
  result.ret = 0 → ∀ slot : Fin 8, fd = slot.val →
    ∃ fop, (fda slot).fop = some fop ∧ result.called.count (.closeOp fop) = 1

/-- The driver calls of a system call are balanced. -/
def Balanced (fda : Fda) : FdCall × CallResult → Prop
  | (.openFile _ _, result) => OpenBalanced result
  | (.close fd, result) => CloseBalanced fda fd result
  | (.read .., _) => True
  | (.write .., _) => True

/-- The call opens and closes nothing: a name that is opened is that of no rtc, directory or
regular file, or no descriptor is free; a descriptor that is closed is not open. -/
def Idle (image : Image) (fda : Fda) : FdCall → Prop
  | .openFile filename dentry =>
      firstFree fda = none ∨
        ∀ entry, readDentryByName image filename dentry = .found entry →
          ∀ fileType : Nat, entry.fileType = fileType → tableOf fileType = none
  | .close fd => ∀ slot : Fin 8, 2 ≤ slot.val → fd = slot.val → (fda slot).flags = 0
  | .read .. => True
  | .write .. => True

section

variable {image : Image} {dentry : Dentry} {devices : Devices} {fda : Fda} {fd : Int}
variable {filename : Bytes} {result : CallResult}

/-- No open calls a driver. -/
theorem systemOpen_called
    (completed : systemOpen image dentry devices fda filename = some result) :
    result.called = [] := by
  have branch (inodeNum : Int) (fop : Fop) (fileType : Nat) :
      (openAs devices fda inodeNum fop fileType).called = [] := by
    rw [openAs]
    split <;> rfl
  rw [systemOpen] at completed
  split at completed
  · cases completed
  · cases completed
    rfl
  · split_ifs at completed
    all_goals
      rw [← Option.some.inj completed]
      first | exact branch .. | rfl

theorem tableOf_known {fileType : Nat} {fop : Fop} (table : tableOf fileType = some fop) :
    fileType ≤ 2 := by
  unfold tableOf at table
  split_ifs at table
  all_goals omega

/-- An open fails only when there is nothing to open or no descriptor for it. -/
theorem idle_of_failed
    (completed : systemOpen image dentry devices fda filename = some result)
    (failed : result.ret = -1) : Idle image fda (.openFile filename dentry) := by
  cases free : firstFree fda with
  | none => exact .inl free
  | some slot =>
      refine .inr ?_
      intro entry found fileType type
      cases table : tableOf fileType with
      | none => rfl
      | some fop =>
          have known := tableOf_known table
          obtain ⟨other, same, used⟩ := systemOpen_known devices fda found (by omega)
          rw [completed] at same
          cases same
          obtain ⟨ordinary, flags, -⟩ := firstFree_some free
          exact absurd flags (used failed slot ordinary)

/-- An open that completes is balanced exactly when it opens nothing. -/
theorem openBalanced_iff
    (completed : systemOpen image dentry devices fda filename = some result) :
    OpenBalanced result ↔ Idle image fda (.openFile filename dentry) := by
  cases systemOpen_cases completed with
  | inl refusal =>
      have failed : result.ret = -1 := by
        rw [refusal]
        rfl
      refine iff_of_true ?_ (idle_of_failed completed failed)
      intro slot ret
      omega
  | inr opened =>
      obtain ⟨entry, slot, fop, fileType, found, type, table, free, ret, after⟩ := opened
      refine iff_of_false ?_ ?_
      · intro balanced
        obtain ⟨driver, -, once, -⟩ := balanced slot ret
        rw [systemOpen_called completed] at once
        simp at once
      · intro idle
        cases idle with
        | inl full => simp [full] at free
        | inr unknown =>
            have none := unknown entry found fileType type
            simp [none] at table

theorem table_ne_null {fileType : Nat} : tableOf fileType ≠ some .null := by
  unfold tableOf
  split_ifs <;> decide

/-- A close of a descriptor that is open calls the close operation of the null table. -/
theorem systemClose_opened {slot : Fin 8} (ordinary : 2 ≤ slot.val)
    (opened : (fda slot).flags ≠ 0) :
    (systemClose devices fda slot.val).ret = 0 ∧
      (systemClose devices fda slot.val).called = [.closeOp .null] := by
  have range : ¬ ((slot.val : Int) < 2 ∨ (slot.val : Int) > 7) := by omega
  rw [systemClose, dif_neg range]
  exact ⟨congrArg CallResult.ret (if_neg opened), congrArg CallResult.called (if_neg opened)⟩

theorem systemClose_failed (idle : Idle image fda (.close fd)) :
    (systemClose devices fda fd).ret = -1 := by
  rw [systemClose]
  split
  · rfl
  next range =>
    have unused := idle ⟨fd.toNat, by omega⟩ (by simp only; omega) (by simp only; omega)
    exact congrArg CallResult.ret (if_pos unused)

/-- A close is balanced exactly when it closes nothing. -/
theorem closeBalanced_iff (valid : fda.Valid) :
    CloseBalanced fda fd (systemClose devices fda fd) ↔ Idle image fda (.close fd) := by
  constructor
  · intro balanced slot ordinary same
    subst same
    by_contra opened
    have closed : (systemClose devices fda slot.val).ret = 0 ∧
        (systemClose devices fda slot.val).called = [.closeOp .null] :=
      systemClose_opened ordinary opened
    obtain ⟨driver, table, once⟩ := balanced closed.1 slot rfl
    rw [closed.2, List.count_singleton] at once
    have null : .null = driver := by simpa using once
    subst null
    cases valid.slots slot ordinary with
    | inl free => exact opened free.flags
    | inr ready =>
        obtain ⟨fop, known, installed⟩ := ready.fop
        have same : fop = .null := Option.some.inj (installed.symm.trans table)
        exact table_ne_null (same ▸ known)
  · intro idle success
    rw [systemClose_failed idle] at success
    cases success

/-- A completed call is balanced exactly when it opens and closes nothing. -/
theorem balanced_iff_idle {label : FdCall × CallResult} {fda' : Fda} (valid : fda.Valid)
    (step : FdStep image fda label fda') : Balanced fda label ↔ Idle image fda label.1 := by
  obtain ⟨devices, completed, -⟩ := step
  obtain ⟨call, result⟩ := label
  cases call with
  | openFile filename dentry => exact openBalanced_iff completed
  | close fd =>
      cases completed
      exact closeBalanced_iff valid
  | read fd buf nbytes dentry => exact Iff.rfl
  | write fd buf nbytes => exact Iff.rfl

end

/-- In a run of calls the driver calls are balanced exactly as long as nothing is opened or
closed. -/
theorem driver_calls_balanced_iff_idle {image : Image} {fda fda' : Fda}
    {labels : List (FdCall × CallResult)} (valid : fda.Valid) :
    Run (fun before label after => FdStep image before label after ∧ Balanced before label)
        fda labels fda' ↔
      Run (fun before label after => FdStep image before label after ∧
          Idle image before label.1)
        fda labels fda' :=
  Run.good_iff_allowed Fda.Valid (fun before label _ => Balanced before label)
    (fun before label => Idle image before label.1)
    (fun _ _ _ valid step => balanced_iff_idle valid step)
    (fun _ _ _ valid step _ => (Run.single step |> valid.run))
    valid

/-- A read of a typed line in a new process, an open of a name that is missing, and a close of a
descriptor that is not open. -/
theorem driver_calls_balanced_read :
    ∃ labels fda', Run (fun before label after =>
        FdStep smallImage before label after ∧ Balanced before label)
      (initFda fun _ => ⟨none, 0, 0, 0, 0⟩) labels fda' ∧
      labels.map (fun label => (label.2.ret, label.2.called)) =
        [(3, [.readOp .stdin]), (-1, []), (-1, [])] := by
  let fda := initFda fun _ => ⟨none, 0, 0, 0, 0⟩
  let devices := typedDevices [108, 115, 10]
  let dentry : Dentry := ⟨fun _ => 0, 0, 0⟩
  have missing : readDentryByName smallImage (cstring [120]) dentry = .missing := rfl
  have refusal : systemOpen smallImage dentry devices fda (cstring [120]) =
      some (refused fda devices) := by
    simp only [systemOpen, missing]
  have closed : systemClose devices fda 2 = refused fda devices := by
    refine systemClose_unopened fun slot number => ?_
    obtain rfl : slot = 2 := by omega
    rfl
  obtain ⟨result, completed, kept, answer⟩ : ∃ result,
      (FdCall.read 0 (some fun _ => 0) 128 dentry).run smallImage devices fda = some result ∧
        result.fda = fda ∧ (result.ret, result.called) = (3, [.readOp .stdin]) :=
    ⟨_, rfl, rfl, rfl⟩
  refine ⟨[(_, result), (.openFile (cstring [120]) dentry, refused fda devices),
    (.close 2, refused fda devices)], fda, (driver_calls_balanced_iff_idle (initFda_valid _)).mpr
    (.cons ⟨⟨devices, completed, kept.symm⟩, trivial⟩
      (.cons ⟨⟨devices, refusal, rfl⟩, .inr fun entry found => ?_⟩
        (.single ⟨⟨devices, congrArg some closed, rfl⟩, fun slot _ number => ?_⟩))), ?_⟩
  · cases missing.symm.trans found
  · obtain rfl : slot = 2 := by omega
    rfl
  · simp only [List.map_cons, answer]
    rfl

/-- Opening the executable of the small image in a new process calls no open operation. -/
theorem driver_calls_not_always_balanced :
    ¬ ∀ (image : Image) (fda fda' : Fda) (labels : List (FdCall × CallResult)), fda.Valid →
      Run (FdStep image) fda labels fda' →
      Run (fun before label after => FdStep image before label after ∧ Balanced before label)
        fda labels fda' := by
  intro always
  let dentry : Dentry := ⟨fun _ => 0, 0, 0⟩
  let fda := initFda fun _ => ⟨none, 0, 0, 0, 0⟩
  let result := openAs (typedDevices []) fda 1 .files 2
  have found : readDentryByName smallImage (cstring [115, 104, 101, 108, 108]) dentry =
      .found (smallImage.direntries 1) := by
    refine readDentryByName_of_first (by decide) (by decide) (by decide) fun k below => ?_
    obtain rfl : k = 0 := by omega
    decide
  have completed : systemOpen smallImage dentry (typedDevices []) fda
      (cstring [115, 104, 101, 108, 108]) = some result := by
    simp only [systemOpen, found]
    rfl
  have step : FdStep smallImage fda (.openFile (cstring [115, 104, 101, 108, 108]) dentry, result)
      result.fda := ⟨typedDevices [], completed, rfl⟩
  have balanced := always _ _ _ _ (initFda_valid _) (.single step)
  cases balanced with
  | cons taken _ =>
      obtain ⟨driver, -, once, -⟩ := taken.2 2 rfl
      rw [systemOpen_called completed] at once
      simp at once

end Ece391.Kernel
