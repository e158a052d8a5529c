import Ece391.Kernel.CommandLine
import Mathlib.Data.Nat.Digits.Defs

/-!
# Which files are accepted as programs

`system_execute` looks its command up, compares the magic bytes, and after the image copy reads
the entry point from bytes 24 to 27.  It does not look at the type of the entry, and a file that
ends before its entry point is started all the same.  A command without a space and an image that
is too large end in neither a program nor an error.
-/

namespace Ece391.Kernel

open Ece391.Library

/-- A command pointer with the text it points to: NULL, or a string in memory. -/
inductive CommandText : Option Bytes → Option (List UInt8) → Prop where
  | null : CommandText none none
  | text {command : Bytes} {symbols : List UInt8} (holds : Holds 0 command symbols)
      (small : symbols.length < 2147483648) : CommandText (some command) (some symbols)

/-- The magic bytes. -/
def magicBytes : List UInt8 :=
  [0x7F, 0x45, 0x4C, 0x46]

/-- The little-endian word at bytes 24 to 27 of a file. -/
def entryPoint (image : Image) (inode : Nat) : Nat :=
  Nat.ofDigits 256 ((serve (fileContent image inode) 24 4).map UInt8.toNat)

/-- An entry for a regular file that is an executable with an entry point. -/
structure IsProgram (image : Image) (entry : Dentry) : Prop where
  regular : entry.fileType = 2
  length : 28 ≤ fileLength image (uint32 entry.inodeNum)
  magic : (fileContent image (uint32 entry.inodeNum)).take 4 = magicBytes

/-- `system_execute` starts programs only, at their entry points, and otherwise fails. -/
structure StartsPrograms (image : Image) (locals : Locals) (state : ProcessState)
    (command : Option Bytes) (text : Option (List UInt8)) : Prop where
  started : ∀ eip loaded state',
    systemExecute image locals state command = .userMode eip loaded state' →
    ∃ symbols entry, text = some symbols ∧ Resolves image locals symbols entry ∧
      IsProgram image entry ∧ state.HasSlot ∧ eip = entryPoint image (uint32 entry.inodeNum)
  completes : (∃ eip loaded state',
      systemExecute image locals state command = .userMode eip loaded state') ∨
    ∃ state', systemExecute image locals state command = .returns (-1) state'

/-- A command that is refused for its length, or leaves the copy of the arguments inside its
buffer and names no executable file but a program that fits its page. -/
def Acceptable (image : Image) (locals : Locals) (state : ProcessState) :
    Option (List UInt8) → Prop
  | none => True
  | some symbols =>
      128 < symbols.length ∨
        ¬OverrunsArgs locals symbols ∧
          ∀ entry, Resolves image locals symbols entry →
            (fileContent image (uint32 entry.inodeNum)).take 4 = magicBytes → state.HasSlot →
            entry.fileType = 2 ∧ 28 ≤ fileLength image (uint32 entry.inodeNum) ∧
              fileLength image (uint32 entry.inodeNum) ≤ imageRoom

/-! ## The two reads of the file -/

section Reads

variable {image : Image} {locals : Locals} {inode : Nat}

theorem isElf_iff (wellFormed : image.WellFormed) (exists_ : (inode : Int) < image.inodeCount) :
    IsElf image inode ↔ (fileContent image inode).take 4 = magicBytes := by
  have read := readData_eq_serve wellFormed exists_ (show 0 + 4 < 4294967296 by omega)
  have start : serve (fileContent image inode) 0 4 = (fileContent image inode).take 4 := rfl
  rw [IsElf, read, start]
  constructor
  · exact fun elf => elf.2
  · intro magic
    rw [magic]
    exact ⟨rfl, rfl⟩

/-- Four bytes in memory are read as a little-endian word. -/
theorem readInt32_overwrite {memory : Bytes} {bytes : List UInt8} (length : bytes.length = 4) :
    uint32 (readInt32 (overwrite memory bytes)) = Nat.ofDigits 256 (bytes.map UInt8.toNat) := by
  obtain ⟨b0, b1, b2, b3, rfl⟩ := List.length_eq_four.mp length
  have word : readInt32 (overwrite memory [b0, b1, b2, b3]) =
      int32 ((b0.toNat + 256 * b1.toNat + 65536 * b2.toNat + 16777216 * b3.toNat : Nat) : Int) := by
    simp [readInt32, overwrite]
  have small0 := b0.toNat_lt
  have small1 := b1.toNat_lt
  have small2 := b2.toNat_lt
  have small3 := b3.toNat_lt
  rw [word, uint32_int32 (by omega)]
  simp only [List.map_cons, List.map_nil, Nat.ofDigits_cons, Nat.ofDigits_nil]
  omega

/-- The entry point is read right where the file has one. -/
theorem userEip_eq (wellFormed : image.WellFormed) (exists_ : (inode : Int) < image.inodeCount)
    (long : 28 ≤ fileLength image inode) : userEip image locals inode = entryPoint image inode := by
  have fits := wellFormed.fileLength_le exists_
  have read := readData_eq_serve wellFormed exists_ (show 24 + 4 < 4294967296 by omega)
  have four : (serve (fileContent image inode) 24 4).length = 4 := by
    rw [length_serve, length_fileContent fits]
    omega
  rw [userEip, read, readInt32_overwrite four, entryPoint]

end Reads

/-! ## How a command ends -/

section Ends

variable {image : Image} {locals : Locals} {state : ProcessState} {command : Option Bytes}
variable {text : Option (List UInt8)}

theorem startsPrograms_of_returns {state' : ProcessState}
    (failed : systemExecute image locals state command = .returns (-1) state') :
    StartsPrograms image locals state command text where
  started eip loaded state'' executed := by
    rw [failed] at executed
    cases executed
  completes := .inr ⟨state', failed⟩

theorem StartsPrograms.ne_stuck (starts : StartsPrograms image locals state command text) :
    systemExecute image locals state command ≠ .stuck := by
  intro stuck
  rcases starts.completes with ⟨eip, loaded, state', executed⟩ | ⟨state', failed⟩
  · rw [stuck] at executed
    cases executed
  · rw [stuck] at failed
    cases failed

theorem startsPrograms_of_rejected
    (rejected : resolveCommand image locals command = .rejected) :
    StartsPrograms image locals state command text :=
  startsPrograms_of_returns (systemExecute_rejected rejected)

/-- A program that starts was accepted exactly when its entry is a program. -/
theorem startsPrograms_iff {symbols : List UInt8} {entry : Dentry} {eip : Nat}
    {loaded : List UInt8} {state' : ProcessState} (resolves : Resolves image locals symbols entry)
    (slot : state.HasSlot)
    (executed : systemExecute image locals state command = .userMode eip loaded state') :
    StartsPrograms image locals state command (some symbols) ↔
      IsProgram image entry ∧ eip = entryPoint image (uint32 entry.inodeNum) := by
  constructor
  · intro starts
    obtain ⟨_, entry', same, resolves', program, -, entered⟩ := starts.started _ _ _ executed
    obtain rfl := Option.some.inj same
    obtain rfl := Lookup.found.inj (resolves.symm.trans resolves')
    exact ⟨program, entered⟩
  · rintro ⟨program, entered⟩
    constructor
    · intro _ _ _ again
      rw [executed] at again
      obtain ⟨rfl, rfl, rfl⟩ := Outcome.userMode.inj again
      exact ⟨symbols, entry, rfl, resolves, program, slot, entered⟩
    · exact .inl ⟨eip, loaded, state', executed⟩

end Ends

section

variable {image : Image} {locals : Locals} {state : ProcessState} {command : Bytes}
variable {symbols : List UInt8} {entry : Dentry}

/-- A resolved entry has an inode of the image. -/
theorem Resolves.exists_ (resolves : Resolves image locals symbols entry)
    (wellFormed : image.WellFormed) : ((uint32 entry.inodeNum : Nat) : Int) < image.inodeCount := by
  obtain ⟨i, inside, rfl, -, -⟩ := (readDentryByName_found_iff wellFormed.dirCount_le _).mp resolves
  obtain ⟨low, high⟩ := wellFormed.inodeNum_range i inside
  have bound := wellFormed.inodeCount_lt
  rw [uint32_of_nonneg low (by omega)]
  omega

/-- What becomes of a command whose name resolves to an executable. -/
theorem startsPrograms_of_resolves (wellFormed : image.WellFormed)
    (holds : Holds 0 command symbols) (short : symbols.length ≤ 128)
    (inside : ¬OverrunsArgs locals symbols) (resolves : Resolves image locals symbols entry) :
    StartsPrograms image locals state (some command) (some symbols) ↔
      ((fileContent image (uint32 entry.inodeNum)).take 4 = magicBytes → state.HasSlot →
        entry.fileType = 2 ∧ 28 ≤ fileLength image (uint32 entry.inodeNum) ∧
          fileLength image (uint32 entry.inodeNum) ≤ imageRoom) := by
  have exists_ := resolves.exists_ wellFormed
  have resolved := resolveCommand_of_resolves holds short inside resolves
  rw [← isElf_iff wellFormed exists_]
  by_cases elf : IsElf image (uint32 entry.inodeNum)
  · rw [if_pos elf] at resolved
    rcases assignPID_spec state with ⟨slot, bound, assigned, free, -⟩ | ⟨failed, full⟩
    · have hasSlot : state.HasSlot := ⟨slot, bound, free⟩
      have executed := systemExecute_program resolved assigned
      by_cases large : imageRoom < fileLength image (uint32 entry.inodeNum)
      · rw [if_pos large] at executed
        refine iff_of_false (fun starts => starts.ne_stuck executed) fun allowed => ?_
        have fits := (allowed elf hasSlot).2.2
        omega
      · rw [if_neg large] at executed
        rw [startsPrograms_iff resolves hasSlot executed]
        constructor
        · rintro ⟨program, -⟩ _ _
          exact ⟨program.regular, program.length, by omega⟩
        · intro allowed
          obtain ⟨regular, long, -⟩ := allowed elf hasSlot
          exact ⟨⟨regular, long, (isElf_iff wellFormed exists_).mp elf⟩,
            userEip_eq wellFormed exists_ long⟩
    · refine iff_of_true (startsPrograms_of_returns (systemExecute_full resolved failed)) ?_
      rintro _ ⟨slot, bound, free⟩
      exact absurd (full slot bound) free
  · rw [if_neg elf] at resolved
    exact iff_of_true (startsPrograms_of_rejected resolved) fun magic => absurd magic elf

/-- A command starts programs only, and otherwise fails, exactly when it is refused for its
length, or stays inside its argument buffer and names no executable other than a regular file
that holds its entry point and fits its page. -/
theorem execute_accepts_iff (wellFormed : image.WellFormed) {command : Option Bytes}
    {text : Option (List UInt8)} (typed : CommandText command text) :
    StartsPrograms image locals state command text ↔ Acceptable image locals state text := by
  cases typed with
  | null => exact iff_of_true (startsPrograms_of_rejected rfl) trivial
  | @text command symbols holds small =>
      rw [Acceptable]
      by_cases long : 128 < symbols.length
      · have rejected : resolveCommand image locals (some command) = .rejected := by
          rw [resolveCommand_eq holds small, if_pos long]
        exact iff_of_true (startsPrograms_of_rejected rejected) (.inl long)
      have short := Nat.not_lt.mp long
      by_cases overrun : OverrunsArgs locals symbols
      · have stuck : systemExecute image locals state (some command) = .stuck :=
          systemExecute_overrun holds short overrun
        refine iff_of_false (fun starts => starts.ne_stuck stuck) ?_
        rintro (refused | ⟨inside, -⟩)
        · exact long refused
        · exact inside overrun
      simp only [long, overrun, false_or, not_false_eq_true, true_and]
      cases lookup : readDentryByName image (cstring (firstWord 32 symbols)) locals.dentry with
      | endless => exact absurd lookup (readDentryByName_ne_endless wellFormed.dirCount_le)
      | missing =>
          have rejected : resolveCommand image locals (some command) = .rejected := by
            rw [resolveCommand_eq holds small, if_neg long, if_neg overrun]
            simp only [resolveName, lookup]
          refine iff_of_true (startsPrograms_of_rejected rejected) fun entry resolves => ?_
          cases lookup.symm.trans resolves
      | found entry =>
          rw [startsPrograms_of_resolves wellFormed holds short overrun lookup]
          constructor
          · intro allowed entry' resolves
            obtain rfl := Lookup.found.inj (lookup.symm.trans resolves)
            exact allowed
          · intro allowed
            exact allowed entry lookup

end

/-- The small image with another type and length of the shell. -/
def shellVariant (fileType length : Int) : Image :=
  { smallImage with
    direntries := fun i =>
      if i = 1 then { smallImage.direntries 1 with fileType := fileType }
      else smallImage.direntries i
    inodes := fun inode =>
      if inode = 1 then { smallImage.inodes 1 with length := length } else smallImage.inodes inode }

theorem shellVariant_wellFormed {fileType length : Int} (nonneg : 0 ≤ length)
    (bound : length ≤ 1023 * 4096) : (shellVariant fileType length).WellFormed where
  dirCount_nonneg := smallImage_wellFormed.dirCount_nonneg
  dirCount_le := smallImage_wellFormed.dirCount_le
  inodeCount_lt := smallImage_wellFormed.inodeCount_lt
  dataCount_lt := smallImage_wellFormed.dataCount_lt
  inodeNum_range i inside := by
    have range := smallImage_wellFormed.inodeNum_range i inside
    simp only [shellVariant]
    split
    next same => exact same ▸ range
    next => exact range
  length_range inode inside := by
    have range := smallImage_wellFormed.length_range inode inside
    simp only [shellVariant]
    split
    next => exact ⟨nonneg, bound⟩
    next => exact range
  block_range inode inside index within := by
    have number : ((shellVariant fileType length).inodes inode).dataBlockNum index =
        (smallImage.inodes inode).dataBlockNum index := by
      simp only [shellVariant]
      split
      next same => rw [same]
      next => rfl
    rw [number]
    simp only [shellVariant, smallImage]
    split <;> omega

theorem shellVariant_resolves (fileType length : Int) (locals : Locals) :
    Resolves (shellVariant fileType length) locals oneArgument
      ((shellVariant fileType length).direntries 1) :=
  resolves_shell locals (show (1 : Int) < 3 by decide)
    (show (smallImage.direntries 0).name = [46] by decide)
    (show (smallImage.direntries 1).name = [115, 104, 101, 108, 108] by decide) (by decide)

theorem execute_accepts_shell :
    StartsPrograms smallImage zeroLocals (bootState smallLayout) (some (cstring oneArgument))
      (some oneArgument) := by
  have typed : CommandText (some (cstring oneArgument)) (some oneArgument) :=
    .text (terminated_holds (by decide)) (by decide)
  have resolves : Resolves smallImage zeroLocals oneArgument (smallImage.direntries 1) :=
    resolves_shell zeroLocals (by decide) (by decide) (by decide) (by decide)
  refine (execute_accepts_iff smallImage_wellFormed typed).mpr
    (.inr ⟨by decide, fun entry found _ _ => ?_⟩)
  obtain rfl := Lookup.found.inj (resolves.symm.trans found)
  decide

/-- A variant with the magic bytes starts only if its shell is a program. -/
theorem shellVariant_starts {fileType length : Int}
    (starts : StartsPrograms (shellVariant fileType length) zeroLocals (bootState smallLayout)
      (some (cstring oneArgument)) (some oneArgument))
    (nonneg : 0 ≤ length) (bound : length ≤ 1023 * 4096)
    (elf : IsElf (shellVariant fileType length) 1) : fileType = 2 ∧ 28 ≤ length := by
  have wellFormed := @shellVariant_wellFormed fileType length nonneg bound
  have holds : Holds 0 (cstring oneArgument) oneArgument := terminated_holds (by decide)
  have resolves := shellVariant_resolves fileType length zeroLocals
  have magic := (isElf_iff wellFormed (resolves.exists_ wellFormed)).mp elf
  have slot : (bootState smallLayout).HasSlot := ⟨0, by decide, by decide⟩
  obtain ⟨regular, long, -⟩ :=
    (startsPrograms_of_resolves wellFormed holds (by decide) (by decide) resolves).mp starts
      magic slot
  have size : fileLength (shellVariant fileType length) 1 = uint32 length := rfl
  refine ⟨regular, ?_⟩
  have measured : 28 ≤ uint32 length := size ▸ long
  rw [uint32_of_nonneg nonneg (by omega)] at measured
  omega

/-- A directory with the content of a program and a file of nothing but the magic bytes are
started, and a command without arguments can overrun the argument buffer. -/
theorem execute_not_always_accepts :
    ((∃ eip loaded state', systemExecute (shellVariant 1 28) zeroLocals (bootState smallLayout)
        (some (cstring oneArgument)) = .userMode eip loaded state') ∧
      ¬StartsPrograms (shellVariant 1 28) zeroLocals (bootState smallLayout)
        (some (cstring oneArgument)) (some oneArgument)) ∧
    ((∃ eip loaded state', systemExecute (shellVariant 2 4) zeroLocals (bootState smallLayout)
        (some (cstring oneArgument)) = .userMode eip loaded state') ∧
      ¬StartsPrograms (shellVariant 2 4) zeroLocals (bootState smallLayout)
        (some (cstring oneArgument)) (some oneArgument)) ∧
    systemExecute smallImage { zeroLocals with argStartingIndex := -200 } (bootState smallLayout)
        (some shellCommand) = .stuck ∧
      ¬StartsPrograms smallImage { zeroLocals with argStartingIndex := -200 }
        (bootState smallLayout) (some shellCommand) (some [115, 104, 101, 108, 108]) := by
  have holds : Holds 0 (cstring oneArgument) oneArgument := terminated_holds (by decide)
  have slot : (bootState smallLayout).HasSlot := ⟨0, by decide, by decide⟩
  have directory : Launches (shellVariant 1 28) zeroLocals (bootState smallLayout) oneArgument :=
    ⟨_, shellVariant_resolves 1 28 zeroLocals, by decide, by decide, slot⟩
  have short : Launches (shellVariant 2 4) zeroLocals (bootState smallLayout) oneArgument :=
    ⟨_, shellVariant_resolves 2 4 zeroLocals, by decide, by decide, slot⟩
  obtain ⟨eip, loaded, state', executed, -⟩ := directory.executed holds (by decide) (by decide)
  obtain ⟨eip', loaded', state'', executed', -⟩ := short.executed holds (by decide) (by decide)
  have stuck : systemExecute smallImage { zeroLocals with argStartingIndex := -200 }
      (bootState smallLayout) (some shellCommand) = .stuck :=
    @systemExecute_overrun _ _ _ _ [115, 104, 101, 108, 108] (terminated_holds (by decide))
      (by decide) (by decide)
  refine ⟨⟨⟨eip, loaded, state', executed⟩, fun starts => ?_⟩,
    ⟨⟨eip', loaded', state'', executed'⟩, fun starts => ?_⟩, stuck,
    fun starts => starts.ne_stuck stuck⟩
  · have program := shellVariant_starts starts (by decide) (by decide) (by decide)
    exact absurd program.1 (by decide)
  · have program := shellVariant_starts starts (by decide) (by decide) (by decide)
    exact absurd program.2 (by decide)

end Ece391.Kernel
