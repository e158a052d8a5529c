import Ece391.Kernel.Booting
import Ece391.Kernel.FileNames
import Ece391.Library.Words

/-!
# The command line

`system_execute` splits its command in one pass over the characters.  The name buffer keeps every
character but the spaces at its own index, so its first string is the first word.  The start of the
argument is set again at every space, so the argument is the last word of the command and not the
remainder after the name; without a space it is not set at all.
-/

namespace Ece391.Kernel

open Ece391.Library

/-! ## What the loop splits off -/

section Split

variable {command : Bytes} {symbols : List UInt8} {locals : Locals} {initial : Int}

theorem strlen_of_holds (holds : Holds 0 command symbols) (small : symbols.length < 4294967296) :
    strlen command = symbols.length := by
  rw [strlen_eq, holds.field, List.length_take, Nat.min_eq_right (Nat.le_of_lt small)]

theorem cmdStrlen_of_holds (holds : Holds 0 command symbols)
    (small : symbols.length < 2147483648) : int32 (strlen command) = symbols.length := by
  rw [strlen_of_holds holds (by omega), int32_of_range (by omega) (by omega)]

/-- The starting index stays where it is while no space is met. -/
theorem argStart_of_ordinary {n count : Nat}
    (ordinary : ∀ i, n ≤ i → i < n + count → command i ≠ 32) :
    argStart command initial (n + count) = argStart command initial n := by
  induction count with
  | zero => rfl
  | succ count ih =>
      have last : command (n + count) ≠ 32 := ordinary (n + count) (by omega) (by omega)
      rw [← Nat.add_assoc, argStart, if_neg last]
      exact ih fun i low high => ordinary i low (by omega)

theorem argStart_of_none (holds : Holds 0 command symbols) (none : 32 ∉ symbols) :
    argStart command initial symbols.length = initial := by
  have kept := @argStart_of_ordinary command initial 0 symbols.length ?_
  · rwa [Nat.zero_add] at kept
  · intro i _ inside same
    rw [Nat.zero_add] at inside
    rw [holds.agree i inside] at same
    exact none (same ▸ List.getElem_mem inside)

/-- With a space the argument starts at the last word. -/
theorem argStart_of_mem (holds : Holds 0 command symbols) (member : 32 ∈ symbols) :
    argStart command initial symbols.length =
      symbols.length - (lastWord 32 symbols).length := by
  obtain ⟨index, length, space⟩ := getElem?_before_lastWord member
  have read (i : Nat) (inside : i < symbols.length) : symbols[i]? = some (command i) :=
    holds.getElem? inside
  have set : command index = 32 := by
    rw [read index (by omega)] at space
    exact Option.some.inj space
  have word : ∀ i, index + 1 ≤ i → i < index + 1 + (lastWord 32 symbols).length →
      command i ≠ 32 := by
    intro i low high same
    have letter := @getElem?_lastWord _ _ 32 symbols (i - (index + 1))
    rw [show symbols.length - (lastWord 32 symbols).length + (i - (index + 1)) = i by omega,
      read i (by omega), same] at letter
    exact sep_notMem_lastWord (List.mem_of_getElem? letter)
  calc argStart command initial symbols.length
      = argStart command initial (index + 1 + (lastWord 32 symbols).length) := by rw [← length]
    _ = argStart command initial (index + 1) := argStart_of_ordinary word
    _ = index + 1 := by rw [argStart, if_pos set]
    _ = symbols.length - (lastWord 32 symbols).length := by omega

/-- The name buffer holds the first word. -/
theorem fileNameBuffer_holds (holds : Holds 0 command symbols) :
    Holds 0 (fileNameBuffer command symbols.length) (firstWord 32 symbols) where
  ordinary member := holds.ordinary (firstWord_isPrefix.subset member)
  agree i inside := by
    have within : i < symbols.length := Nat.lt_of_lt_of_le inside firstWord_isPrefix.length_le
    have same : (firstWord 32 symbols)[i] = command i := by
      rw [holds.agree i within]
      exact firstWord_isPrefix.getElem inside
    have letter : command i ≠ 32 := by
      rw [← same]
      intro space
      exact sep_notMem_firstWord (space ▸ List.getElem_mem inside)
    rw [fileNameBuffer, if_pos ⟨by omega, letter⟩, same]
  ended := by
    rw [fileNameBuffer, if_neg]
    rintro ⟨within, letter⟩
    have inside : (firstWord 32 symbols).length < symbols.length := by omega
    have space := getElem?_length_firstWord inside
    rw [holds.getElem? inside] at space
    exact letter (Option.some.inj space)

/-- The argument buffer holds the last word. -/
theorem argsBuffer_of_mem (holds : Holds 0 command symbols) (member : 32 ∈ symbols) :
    argsBuffer locals command symbols.length (symbols.length - (lastWord 32 symbols).length) =
      cstring (lastWord 32 symbols) := by
  obtain ⟨index, length, -⟩ := getElem?_before_lastWord member
  funext i
  change _ = (lastWord 32 symbols).getD i 0
  rw [argsBuffer, List.getD_eq_getElem?_getD, getElem?_lastWord]
  split
  next inside =>
    have position : ((symbols.length : Int) - (lastWord 32 symbols).length + i).toNat =
        symbols.length - (lastWord 32 symbols).length + i := by omega
    rw [if_neg (by omega), position, holds.getElem? (by omega), Option.getD_some]
  next outside =>
    rw [List.getElem?_eq_none (by omega), Option.getD_none]

end Split

/-! ## Resolving a command by its text -/

/-- Without a space the starting index keeps what it held before, which can make the copy of the
arguments overrun its buffer. -/
def OverrunsArgs (locals : Locals) (symbols : List UInt8) : Prop :=
  32 ∉ symbols ∧ 128 < symbols.length - locals.argStartingIndex

instance (locals : Locals) (symbols : List UInt8) : Decidable (OverrunsArgs locals symbols) :=
  inferInstanceAs (Decidable (_ ∧ _))

/-- The entry that the name of a command resolves to. -/
def Resolves (image : Image) (locals : Locals) (symbols : List UInt8) (entry : Dentry) : Prop :=
  readDentryByName image (cstring (firstWord 32 symbols)) locals.dentry = .found entry

/-- A process slot is free. -/
def ProcessState.HasSlot (state : ProcessState) : Prop :=
  ∃ slot : Nat, slot ≤ 4 ∧ ¬state.Active slot

/-- The arguments that are split off a command. -/
def commandArgs (locals : Locals) (command : Bytes) (symbols : List UInt8) : Bytes :=
  if 32 ∈ symbols then cstring (lastWord 32 symbols)
  else argsBuffer locals command symbols.length locals.argStartingIndex

/-- The program that a name resolves to. -/
def resolveName (image : Image) (locals : Locals) (name : List UInt8) (args : Bytes) : Resolved :=
  match readDentryByName image (cstring name) locals.dentry with
  | .endless => .stuck
  | .missing => .rejected
  | .found dentry =>
      if IsElf image (uint32 dentry.inodeNum) then .program (uint32 dentry.inodeNum) args
      else .rejected

section Resolve

variable {image : Image} {locals : Locals} {state : ProcessState} {command : Bytes}
variable {symbols : List UInt8}

theorem lookup_fileNameBuffer (holds : Holds 0 command symbols) (dentry : Dentry) :
    readDentryByName image (fileNameBuffer command symbols.length) dentry =
      readDentryByName image (cstring (firstWord 32 symbols)) dentry := by
  have buffer := fileNameBuffer_holds holds
  have word : Holds 0 (cstring (firstWord 32 symbols)) (firstWord 32 symbols) :=
    terminated_holds buffer.ordinary
  exact readDentryByName_congr (buffer.field.trans word.field.symm)

/-- What `system_execute` does with its command before it touches the process state. -/
theorem resolveCommand_eq (holds : Holds 0 command symbols) (small : symbols.length < 2147483648) :
    resolveCommand image locals (some command) =
      if 128 < symbols.length then .rejected
      else if OverrunsArgs locals symbols then .stuck
      else
        resolveName image locals (firstWord 32 symbols) (commandArgs locals command symbols) := by
  have length := cmdStrlen_of_holds holds small
  have long : ((symbols.length : Int) > 128) = (128 < symbols.length) := by
    rw [eq_iff_iff]
    omega
  simp only [resolveCommand, length, long, Int.toNat_natCast, lookup_fileNameBuffer holds]
  split
  · rfl
  next short =>
    by_cases member : 32 ∈ symbols
    · have word : (lastWord 32 symbols).length ≤ symbols.length := lastWord_suffix.length_le
      have inside : ¬((symbols.length : Int) -
          (symbols.length - (lastWord 32 symbols).length) > 128) := by omega
      rw [argStart_of_mem holds member, if_neg inside, if_neg fun overrun => overrun.1 member,
        argsBuffer_of_mem holds member, commandArgs, if_pos member]
      rfl
    · have same : (symbols.length - locals.argStartingIndex > 128) =
          OverrunsArgs locals symbols := by
        simp [OverrunsArgs, member]
      rw [argStart_of_none holds member, commandArgs, if_neg member]
      simp only [same]
      rfl

/-- The name of the command resolves to an executable that fits its page, and a process slot is
free. -/
def Launches (image : Image) (locals : Locals) (state : ProcessState) (symbols : List UInt8) :
    Prop :=
  ∃ entry, Resolves image locals symbols entry ∧ IsElf image (uint32 entry.inodeNum) ∧
    fileLength image (uint32 entry.inodeNum) ≤ imageRoom ∧ state.HasSlot

theorem ProcessState.HasSlot.assigned (free : state.HasSlot) :
    ∃ slot : Nat, slot ≤ 4 ∧ assignPID state = slot := by
  obtain ⟨slot, bound, free⟩ := free
  rcases assignPID_spec state with ⟨slot, bound, assigned, -⟩ | ⟨-, full⟩
  · exact ⟨slot, bound, assigned⟩
  · exact absurd (full slot bound) free

theorem resolveCommand_of_resolves {entry : Dentry} (holds : Holds 0 command symbols)
    (short : symbols.length ≤ 128) (inside : ¬OverrunsArgs locals symbols)
    (resolves : Resolves image locals symbols entry) :
    resolveCommand image locals (some command) =
      if IsElf image (uint32 entry.inodeNum) then
        .program (uint32 entry.inodeNum) (commandArgs locals command symbols)
      else .rejected := by
  rw [Resolves] at resolves
  rw [resolveCommand_eq holds (by omega), if_neg (by omega), if_neg inside]
  simp only [resolveName, resolves]

theorem resolveName_args {name : List UInt8} {args args' : Bytes} {inode : Nat}
    (resolved : resolveName image locals name args = .program inode args') : args' = args := by
  rw [resolveName] at resolved
  split at resolved
  · cases resolved
  · cases resolved
  · split at resolved
    · exact (Resolved.program.inj resolved).2.symm
    · cases resolved

/-- A program that has started finds the arguments of its command in its control block. -/
theorem systemExecute_args {eip : Nat} {loaded : List UInt8} {state' : ProcessState}
    (holds : Holds 0 command symbols) (small : symbols.length < 2147483648)
    (executed : systemExecute image locals state (some command) = .userMode eip loaded state') :
    (state'.pcbs state'.pcbObj).args = strncpy (commandArgs locals command symbols) 32 := by
  rcases systemExecute_cases image locals state (some command) with
    stuck | ⟨_, refused⟩ | ⟨_, _, _, _, full⟩ | ⟨inode, args, slot, resolved, _, _, _, ran⟩
  · simp [stuck] at executed
  · simp [refused] at executed
  · simp [full] at executed
  · rw [ran] at executed
    obtain ⟨-, -, rfl⟩ := Outcome.userMode.inj executed
    rw [resolveCommand_eq holds small] at resolved
    split at resolved
    · cases resolved
    · split at resolved
      · cases resolved
      · simp only [ProcessState.started, Function.update_self, resolveName_args resolved]

/-- A command that launches a program leaves its arguments in the control block. -/
theorem Launches.executed (launches : Launches image locals state symbols)
    (holds : Holds 0 command symbols) (short : symbols.length ≤ 128)
    (inside : ¬OverrunsArgs locals symbols) :
    ∃ eip loaded state',
      systemExecute image locals state (some command) = .userMode eip loaded state' ∧
      (state'.pcbs state'.pcbObj).args = strncpy (commandArgs locals command symbols) 32 := by
  obtain ⟨entry, resolves, elf, fits, free⟩ := launches
  obtain ⟨slot, _, assigned⟩ := free.assigned
  have resolved := resolveCommand_of_resolves holds short inside resolves
  rw [if_pos elf] at resolved
  have executed := systemExecute_program resolved assigned
  rw [if_neg (by omega)] at executed
  exact ⟨_, _, _, executed, systemExecute_args holds (by omega) executed⟩

theorem systemExecute_overrun (holds : Holds 0 command symbols) (short : symbols.length ≤ 128)
    (overrun : OverrunsArgs locals symbols) :
    systemExecute image locals state (some command) = .stuck := by
  have resolved : resolveCommand image locals (some command) = .stuck := by
    rw [resolveCommand_eq holds (by omega), if_neg (by omega), if_pos overrun]
  exact systemExecute_stuck resolved

/-- What becomes of a command: the name that is looked up, and the arguments that are recorded
when a program starts. -/
structure CommandSplit (image : Image) (locals : Locals) (state : ProcessState) (command : Bytes)
    (symbols : List UInt8) : Prop where
  name : field 0 128 (fileNameBuffer command (int32 (strlen command))) = firstWord 32 symbols
  args : Launches image locals state symbols → ∃ eip loaded state',
    systemExecute image locals state (some command) = .userMode eip loaded state' ∧
    (state'.pcbs state'.pcbObj).args = strncpy (cstring (remainder 32 symbols)) 32

/-- A command is split only if the arguments taken off it are the remainder. -/
theorem CommandSplit.recorded (split : CommandSplit image locals state command symbols)
    (holds : Holds 0 command symbols) (short : symbols.length ≤ 128)
    (launches : Launches image locals state symbols) :
    ¬OverrunsArgs locals symbols ∧ strncpy (commandArgs locals command symbols) 32 =
      strncpy (cstring (remainder 32 symbols)) 32 := by
  obtain ⟨eip, loaded, state', executed, recorded⟩ := split.args launches
  have inside : ¬OverrunsArgs locals symbols := by
    intro overrun
    rw [systemExecute_overrun holds short overrun] at executed
    cases executed
  obtain ⟨_, _, _, again, args⟩ := launches.executed holds short inside
  rw [executed] at again
  obtain ⟨rfl, rfl, rfl⟩ := Outcome.userMode.inj again
  exact ⟨inside, args.symm.trans recorded⟩

/-- The last word is the whole remainder as far as the field goes, or there is no argument and
the starting index happens to leave none. -/
def ArgumentIntact (locals : Locals) (symbols : List UInt8) : Prop :=
  if 32 ∈ symbols then
    32 ∉ remainder 32 symbols ∨
      32 < (remainder 32 symbols).length ∧
        (remainder 32 symbols).take 32 <+: lastWord 32 symbols
  else
    symbols.length ≤ locals.argStartingIndex ∨
      locals.argStartingIndex < 0 ∧ symbols.length - locals.argStartingIndex ≤ 128 ∧
        locals.below (-1 - locals.argStartingIndex).toNat = 0

theorem argumentIntact_of_mem (holds : Holds 0 command symbols) (member : 32 ∈ symbols) :
    ArgumentIntact locals symbols ↔ field 0 32 (commandArgs locals command symbols) =
      field 0 32 (cstring (remainder 32 symbols)) := by
  have word : Holds 0 (cstring (lastWord 32 symbols)) (lastWord 32 symbols) :=
    terminated_holds fun ended => holds.ordinary (lastWord_suffix.subset ended)
  have rest : Holds 0 (cstring (remainder 32 symbols)) (remainder 32 symbols) :=
    terminated_holds fun ended => holds.ordinary (remainder_suffix.subset ended)
  rw [commandArgs, if_pos member, word.field, rest.field, take_lastWord_iff member,
    ArgumentIntact, if_pos member]

theorem argumentIntact_of_none (holds : Holds 0 command symbols) (none : 32 ∉ symbols)
    (inside : ¬OverrunsArgs locals symbols) :
    ArgumentIntact locals symbols ↔ field 0 32 (commandArgs locals command symbols) =
      field 0 32 (cstring (remainder 32 symbols)) := by
  have empty : field 0 32 (cstring (remainder 32 symbols)) = [] := by
    rw [remainder_eq_nil none]
    rfl
  have first (text : Bytes) : field 0 32 text = [] ↔ text 0 = 0 := by
    rw [field, fieldFrom]
    by_cases ended : text 0 = 0 <;> simp [ended]
  have room : (symbols.length : Int) - locals.argStartingIndex ≤ 128 := by
    by_contra overrun
    exact inside ⟨none, by omega⟩
  rw [empty, first, ArgumentIntact, if_neg none, commandArgs, if_neg none, argsBuffer]
  simp only [Int.natCast_zero, Int.add_zero, room, true_and]
  by_cases behind : (symbols.length : Int) ≤ locals.argStartingIndex
  · rw [if_neg (by omega)]
    simp [behind]
  rw [if_pos (by omega)]
  by_cases below : locals.argStartingIndex < 0
  · simp [behind, below]
  · -- The index lies inside the command, where no byte is NUL.
    have within : locals.argStartingIndex.toNat < symbols.length := by omega
    have letter : command locals.argStartingIndex.toNat ≠ 0 := by
      rw [holds.agree _ within]
      exact fun ended => holds.ordinary (ended ▸ List.getElem_mem within)
    simp [behind, below, letter]

theorem argumentIntact_iff (holds : Holds 0 command symbols)
    (inside : ¬OverrunsArgs locals symbols) :
    ArgumentIntact locals symbols ↔ field 0 32 (commandArgs locals command symbols) =
      field 0 32 (cstring (remainder 32 symbols)) := by
  by_cases member : 32 ∈ symbols
  · exact argumentIntact_of_mem holds member
  · exact argumentIntact_of_none holds member inside

theorem ArgumentIntact.inside (intact : ArgumentIntact locals symbols) :
    ¬OverrunsArgs locals symbols := by
  rintro ⟨none, overrun⟩
  rw [ArgumentIntact, if_neg none] at intact
  omega

/-- The name is always the first word.  A launched program gets the whole remainder as its
argument exactly when that is a single word, or runs like the last word through the whole field;
without a space it depends on what the stack held before. -/
theorem command_split_iff (holds : Holds 0 command symbols) (short : symbols.length ≤ 128) :
    CommandSplit image locals state command symbols ↔
      (Launches image locals state symbols → ArgumentIntact locals symbols) := by
  constructor
  · intro split launches
    obtain ⟨inside, recorded⟩ := split.recorded holds short launches
    exact (argumentIntact_iff holds inside).mpr (strncpy_eq_iff.mp recorded)
  · intro intact
    constructor
    · have word : firstWord 32 symbols <+: symbols := firstWord_isPrefix
      rw [cmdStrlen_of_holds holds (by omega), (fileNameBuffer_holds holds).field,
        List.take_of_length_le (Nat.le_trans word.length_le short)]
    · intro launches
      have inside := (intact launches).inside
      obtain ⟨eip, loaded, state', executed, args⟩ := launches.executed holds short inside
      refine ⟨eip, loaded, state', executed, args.trans (strncpy_eq_iff.mpr ?_)⟩
      exact (argumentIntact_iff holds inside).mp (intact launches)

end Resolve

/-- The name of the shell resolves to the entry behind the directory itself. -/
theorem resolves_shell {image : Image} (locals : Locals) {symbols : List UInt8}
    (inside : 1 < image.dirCount) (other : (image.direntries 0).name = [46])
    (shell : (image.direntries 1).name = [115, 104, 101, 108, 108])
    (name : firstWord 32 symbols = [115, 104, 101, 108, 108]) :
    Resolves image locals symbols (image.direntries 1) := by
  have query : field 0 32 (cstring [115, 104, 101, 108, 108]) = [115, 104, 101, 108, 108] := by
    decide
  rw [Resolves, name]
  refine readDentryByName_of_first (by omega) inside (query.trans shell.symm) fun k below => ?_
  obtain rfl : k = 0 := by omega
  rw [query, other]
  decide

/-- The shell of the small image is launched by every command whose first word names it. -/
theorem smallImage_launches (locals : Locals) {symbols : List UInt8}
    (name : firstWord 32 symbols = [115, 104, 101, 108, 108]) :
    Launches smallImage locals (bootState smallLayout) symbols :=
  ⟨smallImage.direntries 1, resolves_shell locals (by decide) (by decide) (by decide) name,
    by decide, by decide, 0, by decide, by decide⟩

/-- The command `shell a`. -/
def oneArgument : List UInt8 :=
  [115, 104, 101, 108, 108, 32, 97]

/-- The command `shell a b`. -/
def twoArguments : List UInt8 :=
  [115, 104, 101, 108, 108, 32, 97, 32, 98]

theorem command_split_shell :
    CommandSplit smallImage zeroLocals (bootState smallLayout) (cstring oneArgument)
      oneArgument := by
  refine (command_split_iff (terminated_holds (by decide)) (by decide)).mpr fun _ => ?_
  exact .inl (by decide)

/-- Of two arguments only the second is recorded, and a command without arguments gets its own
name as the argument when the starting index happens to be 0. -/
theorem command_not_always_split :
    (∃ eip loaded state', systemExecute smallImage zeroLocals (bootState smallLayout)
        (some (cstring twoArguments)) = .userMode eip loaded state' ∧
      (state'.pcbs state'.pcbObj).args = strncpy (cstring [98]) 32) ∧
    (∃ eip loaded state', systemExecute smallImage zeroLocals (bootState smallLayout)
        (some shellCommand) = .userMode eip loaded state' ∧
      (state'.pcbs state'.pcbObj).args = strncpy shellCommand 32) ∧
    ¬CommandSplit smallImage zeroLocals (bootState smallLayout) (cstring twoArguments)
      twoArguments ∧
    ¬CommandSplit smallImage zeroLocals (bootState smallLayout) shellCommand
      [115, 104, 101, 108, 108] := by
  have two : Launches smallImage zeroLocals (bootState smallLayout) twoArguments :=
    smallImage_launches zeroLocals (by decide)
  have none : Launches smallImage zeroLocals (bootState smallLayout) [115, 104, 101, 108, 108] :=
    smallImage_launches zeroLocals (by decide)
  have twoHeld : Holds 0 (cstring twoArguments) twoArguments := terminated_holds (by decide)
  have noneHeld : Holds 0 shellCommand [115, 104, 101, 108, 108] := terminated_holds (by decide)
  obtain ⟨eip, loaded, state', executed, args⟩ := two.executed twoHeld (by decide) (by decide)
  obtain ⟨eip', loaded', state'', executed', args'⟩ :=
    none.executed noneHeld (by decide) (by decide)
  have lastOnly : strncpy (commandArgs zeroLocals (cstring twoArguments) twoArguments) 32 =
      strncpy (cstring [98]) 32 := by decide
  have ownName : strncpy (commandArgs zeroLocals shellCommand [115, 104, 101, 108, 108]) 32 =
      strncpy shellCommand 32 := by decide
  refine ⟨⟨eip, loaded, state', executed, args.trans lastOnly⟩,
    ⟨eip', loaded', state'', executed', args'.trans ownName⟩, fun split => ?_, fun split => ?_⟩
  · exact absurd (split.recorded twoHeld (by decide) two).2 (by decide)
  · exact absurd (split.recorded noneHeld (by decide) none).2 (by decide)

end Ece391.Kernel
