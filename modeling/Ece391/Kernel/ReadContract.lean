import Ece391.Kernel.Descriptors

/-!
# The contract of `system_read` and the drivers that keep it

A read that succeeds should report as many bytes as it stored, at most the requested
number, and store nothing when none are requested.  Regular files keep this always,
the clock whenever the size is not negative, and directories and the terminal only
in the cases listed by `KeepsContract`.
-/

namespace Ece391.Kernel

open Ece391.Library

/-- A non-negative result is at most the requested size and counts exactly the bytes
stored from the start of the buffer; a size of zero or less stores nothing. -/
structure ReadContract (nbytes : Int) (result : CallResult) : Prop where
  counts : 0 ≤ result.ret → result.ret ≤ nbytes ∧ (result.written.length : Int) = result.ret
  silent : nbytes ≤ 0 → result.written = []

/-- The cases in which an operation table keeps the contract. -/
def KeepsContract (image : Image) (devices : Devices) (descriptor : FileDescriptor)
    (nbytes : Int) : Fop → Prop
  | .null | .stdout | .files => True
  | .rtc => 0 ≤ nbytes
  | .directories =>
      -- There is no entry left, or its name fills the 32 bytes that are always stored.
      let index := descriptor.filePosition % 256
      (index : Int) > image.dirCount ∨ 63 < index ∨
        32 ≤ nbytes ∧ (image.direntries index).name.length = 32
  | .stdin =>
      -- Nothing was typed, or a NUL was typed within the requested size.
      nbytes = 0 ∨
        0 < nbytes ∧ nbytes < 128 ∧
          (devices.keyboard.numCharsTyped = 0 ∨
            ∃ z < devices.keyboard.numCharsTyped, (z : Int) < nbytes ∧
              devices.keyboard.keyboardBuffer z = 0 ∧
              ∀ i < z, devices.keyboard.keyboardBuffer i ≠ 0)

section

variable {image : Image} {dentry : Dentry} {devices : Devices} {fda : Fda}
variable {nbytes : Int} {slot : Fin 8} {buf : Bytes} {result : CallResult}

theorem readContract_of_failure (failed : result.ret = -1) (silent : result.written = []) :
    ReadContract nbytes result where
  counts nonneg := by omega
  silent _ := silent

/-- A file read stores as many bytes as it reports. -/
theorem fileRead_contract (image : Image) (fda : Fda) (fd : Fin 8) {nbytes : Int}
    (bound : nbytes < 2147483648) :
    (fileRead image fda fd nbytes).1 = -1 ∧ (fileRead image fda fd nbytes).2.1 = [] ∨
      0 < nbytes ∧ (fileRead image fda fd nbytes).1 ≤ nbytes ∧
        ((fileRead image fda fd nbytes).2.1.length : Int) = (fileRead image fda fd nbytes).1 := by
  rw [fileRead]
  split
  · exact .inl ⟨rfl, rfl⟩
  next positive =>
    have size : uint32 nbytes = nbytes.toNat := uint32_of_nonneg (by omega) (by omega)
    simp only
    rcases readData_cases image (fda fd).inodeIdx (fda fd).filePosition (uint32 nbytes) with
      failed | ⟨count, short⟩
    · simp [failed]
    · rw [int32_of_range (by omega) (by omega)] at count
      rw [if_neg (by omega)]
      right
      simp only
      omega

/-- The bytes of a name field as `directory_read` leaves them in the buffer. -/
private theorem overwrite_name (entry : Dentry) (buf : Bytes) {i : Nat} (inside : i < 32) :
    overwrite buf (strncpy entry.namePtr 32) i = entry.name.getD i 0 :=
  overwrite_strncpy buf entry.namePtr inside

/-- A directory read reports the length of the name and always stores 32 bytes. -/
theorem directoryRead_served (image : Image) (fda : Fda) (slot : Fin 8) (buf : Bytes)
    (dentry : Dentry) {index : Nat} (position : (fda slot).filePosition % 256 = index)
    (inside : ¬((index : Int) > image.dirCount ∨ 63 < index)) :
    (directoryRead image fda slot buf dentry).1 = (image.direntries index).name.length ∧
      (directoryRead image fda slot buf dentry).2.1.length = 32 := by
  have served : readDentryByIndex image (fda slot).filePosition dentry =
      (0, image.direntries index) := by
    simp only [readDentryByIndex, position]
    exact if_neg inside
  have width := (image.direntries index).length_name_le
  have ordinary : ∀ i < (image.direntries index).name.length,
      overwrite buf (strncpy (image.direntries index).namePtr 32) i ≠ 0 := by
    intro i bound zero
    rw [overwrite_name _ _ (by omega), List.getD_eq_getElem?_getD,
      List.getElem?_eq_getElem bound, Option.getD_some] at zero
    exact (image.direntries index).zero_notMem_name (zero ▸ List.getElem_mem bound)
  have started : ¬(0 : Int) = -1 := by omega
  simp only [directoryRead, served, started, if_false, length_strncpy, and_true]
  rcases Nat.lt_or_eq_of_le width with short | full
  · have ended : overwrite buf (strncpy (image.direntries index).namePtr 32)
        (image.direntries index).name.length = 0 := by
      rw [overwrite_name _ _ short]
      simp
    rw [strlen_eq_of_zero (by omega) ordinary ended, if_neg (by omega)]
  · have long := le_strlen (by omega) ordinary
    split <;> omega

/-- What the short copy loop of the terminal reports: the place after the first NUL
typed, or 0 when there is none. -/
theorem terminalCopyLoop_cases (keyboard : Keyboard) (remaining i : Nat)
    (count : i + remaining = keyboard.numCharsTyped) :
    (∃ z, i ≤ z ∧ z < keyboard.numCharsTyped ∧ keyboard.keyboardBuffer z = 0 ∧
      (∀ k, i ≤ k → k < z → keyboard.keyboardBuffer k ≠ 0) ∧
      (terminalCopyLoop keyboard remaining i).1 = (z : Int) + 1 ∧
      (terminalCopyLoop keyboard remaining i).2.length = z + 1 - i) ∨
    ((∀ k, i ≤ k → k < keyboard.numCharsTyped → keyboard.keyboardBuffer k ≠ 0) ∧
      (terminalCopyLoop keyboard remaining i).1 = 0 ∧
      (terminalCopyLoop keyboard remaining i).2.length = remaining) := by
  induction remaining generalizing i with
  | zero => exact .inr ⟨fun k low high => absurd high (by omega), rfl, rfl⟩
  | succ remaining ih =>
      rw [terminalCopyLoop]
      by_cases ended : keyboard.keyboardBuffer i = 0
      · rw [if_pos ended]
        exact .inl ⟨i, Nat.le_refl i, by omega, ended, fun k low high => absurd high (by omega),
          rfl, by simp⟩
      rw [if_neg ended, if_neg (by omega)]
      rcases ih (i + 1) (by omega) with ⟨z, low, high, zero, first, ret, length⟩ |
        ⟨ordinary, ret, length⟩
      · refine .inl ⟨z, by omega, high, zero, fun k low' high' => ?_, ret, ?_⟩
        · rcases Nat.lt_or_eq_of_le low' with later | rfl
          · exact first k later high'
          · exact ended
        · simp only [List.length_cons, length]
          omega
      · refine .inr ⟨fun k low' high' => ?_, ret, by simp [length]⟩
        rcases Nat.lt_or_eq_of_le low' with later | rfl
        · exact ordinary k later high'
        · exact ended

/-- A terminal read keeps the contract exactly in the listed cases. -/
theorem terminalRead_contract {read : Int × List UInt8 × Devices}
    (completed : terminalRead devices nbytes = some read) (called : List DriverCall) :
    ReadContract nbytes ⟨read.1, fda, read.2.2, read.2.1, [], called⟩ ↔
      KeepsContract image devices (fda slot) nbytes .stdin := by
  rw [terminalRead] at completed
  by_cases zero : nbytes = 0
  · simp only [zero, if_true, Option.some.injEq] at completed
    subst completed
    simp only [KeepsContract, zero, true_or, iff_true]
    exact ⟨fun _ => ⟨Int.le_refl 0, rfl⟩, fun _ => rfl⟩
  by_cases waiting : devices.keyboard.enterPressedFlag ≠ 1
  · simp [zero, waiting] at completed
  simp only [zero, waiting, if_false, Option.some.injEq] at completed
  subst completed
  by_cases short : nbytes < 128
  · simp only [short, if_true, KeepsContract, zero, false_or, true_and]
    rcases terminalCopyLoop_cases devices.keyboard devices.keyboard.numCharsTyped 0 (by omega) with
      ⟨z, _, typed, stop, first, ret, length⟩ | ⟨ordinary, ret, length⟩
    · constructor
      · rintro ⟨counts, silent⟩
        simp only at counts
        have fits := (counts (by omega)).1
        exact ⟨by omega, .inr ⟨z, typed, by omega, stop, fun i below => first i (by omega) below⟩⟩
      · rintro ⟨positive, empty | ⟨z', _, fits, stop', first'⟩⟩
        · omega
        · have same : z' = z := by
            rcases Nat.lt_trichotomy z' z with below | same | above
            · exact absurd stop' (first z' (by omega) below)
            · exact same
            · exact absurd stop (first' z above)
          constructor
          · simp only
            omega
          · intro nothing
            omega
    · constructor
      · rintro ⟨counts, silent⟩
        simp only at counts
        obtain ⟨small, bytes⟩ := counts (by omega)
        exact ⟨by omega, .inl (by omega)⟩
      · rintro ⟨positive, empty | ⟨z, typed, _, stop, _⟩⟩
        · constructor
          · simp only
            omega
          · intro nothing
            omega
        · exact absurd stop (ordinary z (by omega) typed)
  · simp only [short, if_false, KeepsContract, zero, false_or, false_and, and_false, iff_false]
    rintro ⟨counts, -⟩
    simp only [List.length_append, List.length_map, List.length_range, List.length_singleton]
      at counts
    have bytes := (counts (by omega)).2
    omega

/-- A read that reaches its driver keeps the contract exactly in the listed cases. -/
theorem Fop.read_contract_iff {fop : Fop} (bound : nbytes < 2147483648)
    (completed : fop.read image dentry devices fda slot buf nbytes = some result) :
    ReadContract nbytes result ↔ KeepsContract image devices (fda slot) nbytes fop := by
  cases fop with
  | null | stdout =>
      obtain rfl := Option.some.inj completed
      simp only [KeepsContract, iff_true]
      exact readContract_of_failure rfl rfl
  | stdin =>
      simp only [Fop.read, Option.map_eq_some_iff] at completed
      obtain ⟨read, reading, rfl⟩ := completed
      exact terminalRead_contract reading _
  | rtc =>
      simp only [Fop.read, rtcRead, Option.map_eq_some_iff] at completed
      obtain ⟨ret, reading, rfl⟩ := completed
      split at reading
      · simp at reading
      · obtain rfl := Option.some.inj reading
        simp only [KeepsContract]
        exact ⟨fun contract => (contract.counts (Int.le_refl 0)).1,
          fun nonneg => ⟨fun _ => ⟨nonneg, rfl⟩, fun _ => rfl⟩⟩
  | files =>
      obtain rfl := Option.some.inj completed
      simp only [KeepsContract, iff_true]
      rcases fileRead_contract image fda slot bound with ⟨failed, silent⟩ | ⟨positive, fits, count⟩
      · exact readContract_of_failure failed silent
      · exact ⟨fun _ => ⟨fits, count⟩, fun nothing => absurd positive (by omega)⟩
  | directories =>
      obtain rfl := Option.some.inj completed
      simp only [KeepsContract, ← or_assoc]
      by_cases outside : (((fda slot).filePosition % 256 : Nat) : Int) > image.dirCount ∨
          63 < (fda slot).filePosition % 256
      · have missed : directoryRead image fda slot buf dentry = (-1, [], fda) := by
          simp only [directoryRead, readDentryByIndex, if_pos outside, if_true]
        simp only [outside, true_or, iff_true, missed]
        exact readContract_of_failure rfl rfl
      · obtain ⟨ret, length⟩ := directoryRead_served image fda slot buf dentry rfl outside
        simp only [outside, false_or]
        constructor
        · rintro ⟨counts, silent⟩
          simp only [ret, length] at counts
          obtain ⟨fits, count⟩ := counts (by omega)
          omega
        · rintro ⟨large, full⟩
          constructor
          · simp only [ret, length]
            omega
          · intro nothing
            omega

/-- A completed read of an open descriptor keeps the contract exactly in the cases
listed for its operation table. -/
theorem systemRead_contract_iff {fop : Fop} (opened : (fda slot).flags ≠ 0)
    (table : (fda slot).fop = some fop) (bound : nbytes < 2147483648)
    (completed : systemRead image dentry devices fda slot.val (some buf) nbytes = some result) :
    ReadContract nbytes result ↔ KeepsContract image devices (fda slot) nbytes fop := by
  have range : ¬((slot.val : Int) < 0 ∨ (slot.val : Int) > 7) := by omega
  simp only [systemRead, dif_neg range, Int.toNat_natCast, Fin.eta, table, opened, if_false]
    at completed
  exact Fop.read_contract_iff bound completed

end

/-- A table whose descriptor 2 is open on the directory. -/
def directoryFda : Fda := fun fd =>
  if fd.val = 2 then ⟨some .directories, 0, 0, 1, 1⟩
  else initFda (fun _ => ⟨none, 0, 0, 0, 0⟩) fd

/-- A read of 10 bytes at place 20 of a file of 28 bytes keeps the contract, with 8 bytes. -/
theorem systemRead_contract_file :
    ∃ result, systemRead smallImage ⟨fun _ => 0, 0, 0⟩ (typedDevices [])
        (Function.update directoryFda 3 ⟨some .files, 1, 20, 1, 2⟩) (3 : Fin 8).val
        (some fun _ => 0) 10 = some result ∧
      result.ret = 8 ∧ result.written = [0, 0, 0, 0, 0xE8, 0x82, 0x04, 0x08] ∧
      ReadContract 10 result := by
  let fda := Function.update directoryFda 3 ⟨some .files, 1, 20, 1, 2⟩
  have opened : (fda 3).flags ≠ 0 := by decide
  have outcome : (systemRead smallImage ⟨fun _ => 0, 0, 0⟩ (typedDevices []) fda (3 : Fin 8).val
      (some fun _ => 0) 10).map (fun result => (result.ret, result.written)) =
        some (8, [0, 0, 0, 0, 0xE8, 0x82, 0x04, 0x08]) := by
    decide
  obtain ⟨result, completed, same⟩ := Option.map_eq_some_iff.mp outcome
  obtain ⟨ret, written⟩ := Prod.mk.inj same
  exact ⟨result, completed, ret, written,
    (systemRead_contract_iff opened rfl (by decide) completed).mpr trivial⟩

/-- The directory entry `.` is reported as 1 byte while 32 are stored, and a typed
line of 3 bytes as none while 3 are stored. -/
theorem systemRead_breaks_contract :
    (∃ result, systemRead smallImage ⟨fun _ => 0, 0, 0⟩ (typedDevices []) directoryFda 2
        (some fun _ => 0) 10 = some result ∧
      result.ret = 1 ∧ result.written.length = 32 ∧ ¬ReadContract 10 result) ∧
    ∃ result, systemRead smallImage ⟨fun _ => 0, 0, 0⟩ (typedDevices [108, 115, 10]) directoryFda 0
        (some fun _ => 0) 10 = some result ∧
      result.ret = 0 ∧ result.written.length = 3 ∧ ¬ReadContract 10 result := by
  have broken {result : CallResult} (nonneg : 0 ≤ result.ret)
      (differ : (result.written.length : Int) ≠ result.ret) : ¬ReadContract 10 result :=
    fun contract => differ (contract.counts nonneg).2
  constructor
  · obtain ⟨ret, length⟩ := directoryRead_served smallImage directoryFda 2 (fun _ => 0)
      ⟨fun _ => 0, 0, 0⟩ rfl (by decide)
    have name : (smallImage.direntries 0).name.length = 1 := by decide
    obtain ⟨result, completed, ret, length⟩ :
        ∃ result, systemRead smallImage ⟨fun _ => 0, 0, 0⟩ (typedDevices []) directoryFda 2
          (some fun _ => 0) 10 = some result ∧ result.ret = 1 ∧ result.written.length = 32 :=
      ⟨_, rfl, ret.trans (congrArg Nat.cast name), length⟩
    exact ⟨result, completed, ret, length, broken (by omega) (by omega)⟩
  · exact ⟨_, rfl, rfl, rfl, broken (Int.le_refl 0) (by decide)⟩

end Ece391.Kernel
