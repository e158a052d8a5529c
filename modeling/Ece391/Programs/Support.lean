import Ece391.Kernel.Arguments
import Ece391.Kernel.DirectoryListing
import Ece391.Kernel.FileStream
import Ece391.Kernel.Itoa
import Ece391.Kernel.TerminalOutput
import Mathlib.Data.Stream.Defs

/-!
# The system calls as a program sees them

A program runs over the system calls of the kernel and a few string functions of its own.  Each
call is given what it finds: the devices, which interrupts may have changed since the last call,
and the entry that its stack frame happens to hold.  A program whose call does not complete has
no result.
-/

namespace Ece391.Programs

open Ece391.Library Ece391.Kernel

/-- The bytes of a string literal, without its terminator. -/
def ascii (literal : String) : List UInt8 :=
  literal.toList.map fun char => UInt8.ofNat char.toNat

/-! ## The wrappers -/

/-- What a call finds in the kernel. -/
structure Found where
  devices : Devices
  dentry : Dentry

/-- A running program: its descriptor table, what its calls will find, and the bytes it has
printed. -/
structure Session where
  fda : Fda
  found : Stream' Found
  console : List UInt8

/-- The session after a call. -/
def Session.after (session : Session) (result : CallResult) : Session where
  fda := result.fda
  found := session.found.tail
  console := session.console ++ result.printed

/-- `ece391_open`. -/
def ece391Open (image : Image) (filename : Bytes) (session : Session) : Option (Int × Session) :=
  let found := session.found.head
  (systemOpen image found.dentry found.devices session.fda filename).map fun result =>
    (result.ret, session.after result)

/-- `ece391_read`: the return value, and the memory from the buffer on. -/
def ece391Read (image : Image) (fd : Int) (buf : Bytes) (nbytes : Int) (session : Session) :
    Option (Int × Bytes × Session) :=
  let found := session.found.head
  (systemRead image found.dentry found.devices session.fda fd (some buf) nbytes).map fun result =>
    (result.ret, overwrite buf result.written, session.after result)

/-- `ece391_write`. -/
def ece391Write (fd : Int) (buf : Bytes) (nbytes : Int) (session : Session) :
    Option (Int × Session) :=
  (systemWrite session.found.head.devices session.fda fd (some buf) nbytes).map fun result =>
    (result.ret, session.after result)

/-- `ece391_close`. -/
def ece391Close (fd : Int) (session : Session) : Int × Session :=
  let result := systemClose session.found.head.devices session.fda fd
  (result.ret, session.after result)

/-- `ece391_getargs`, where `args` is the memory from the argument in the control block on. -/
def ece391Getargs (args buf : Bytes) (nbytes : Int) : Int × Bytes :=
  let result := (systemGetargs args (some buf) nbytes).value
  (result.1, overwrite buf result.2)

/-! ## The string functions -/

/-- `ece391_strlen`, which is `strlen` of the kernel. -/
def ece391Strlen (s : Bytes) : Nat :=
  strlen s

/-- `ece391_fdputs`, which ignores what the write returns. -/
def ece391Fdputs (fd : Int) (s : Bytes) (session : Session) : Option Session :=
  (ece391Write fd s (int32 (ece391Strlen s)) session).map Prod.snd

/-- The loop of `ece391_strncmp`; the difference is taken between unsigned characters. -/
def ece391StrncmpFrom (s1 s2 : Bytes) : (n i : Nat) → Int
  | 0, _ => 0
  | n + 1, i =>
      if s1 i = s2 i then
        if s1 i = 0 ∨ n = 0 then 0 else ece391StrncmpFrom s1 s2 n (i + 1)
      else ((s1 i).toNat : Int) - (s2 i).toNat

/-- `ece391_strncmp`. -/
def ece391Strncmp (s1 s2 : Bytes) (n : Nat) : Int :=
  if 0 = n then 0 else ece391StrncmpFrom s1 s2 n 0

/-- The loop of `ece391_strcpy`, in one memory.  The fuel is the size of the address space. -/
def ece391StrcpyFrom : (fuel : Nat) → (memory : Bytes) → (dst src : Nat) → Bytes
  | 0, memory, _, _ => memory
  | fuel + 1, memory, dst, src =>
      let stored := Function.update memory dst (memory src)
      if memory src ≠ 0 then ece391StrcpyFrom fuel stored (dst + 1) (src + 1) else stored

/-- `ece391_strcpy` between two places of one memory. -/
def ece391Strcpy (memory : Bytes) (dst src : Nat) : Bytes :=
  ece391StrcpyFrom 4294967296 memory dst src

/-! ## What is printed -/

/-- What a write prints of some bytes: those before the first NUL, and a newline behind 79. -/
def printedText (bytes : List UInt8) : List UInt8 :=
  bytes.takeWhile (· ≠ 0) ++ if 0 ∉ bytes ∧ bytes.length = 79 then [10] else []

/-- Standard output is open. -/
structure Printable (fda : Fda) : Prop where
  stdout : (fda 1).fop = some .stdout

/-- A session whose standard output is open. -/
def Session.Ready (session : Session) : Prop :=
  Printable session.fda

/-- Whenever a call waits for the clock, an interrupt comes. -/
def Session.Ticking (session : Session) : Prop :=
  ∀ k, (session.found.get k).devices.inCount ≠ 0

/-- A call that has printed nothing and left standard output open. -/
structure Silent (session session' : Session) : Prop where
  ready : session'.Ready
  console : session'.console = session.console
  found : session'.found = session.found.tail

theorem Silent.ticking {session session' : Session} (silent : Silent session session')
    (ticking : session.Ticking) : session'.Ticking := by
  intro k
  rw [silent.found]
  exact ticking (k + 1)

section

variable {image : Image} {session : Session} {buf : Bytes} {nbytes : Int}
variable {text bytes : List UInt8}

theorem printedText_ordinary (ordinary : 0 ∉ text) :
    printedText text = text ++ if text.length = 79 then [10] else [] := by
  have whole : text.takeWhile (· ≠ 0) = text := by
    refine List.takeWhile_eq_self_iff.mpr fun symbol member => ?_
    have other : symbol ≠ 0 := fun zero => ordinary (zero ▸ member)
    simpa using other
  rw [printedText, whole]
  simp [ordinary]

/-- A write to standard output prints its bytes and does not fail. -/
theorem ece391Write_prints (ready : session.Ready)
    (agree : ∀ i (inside : i < bytes.length), buf i = bytes[i]) :
    ∃ ret, ece391Write 1 buf bytes.length session =
        some (ret, { session with
          found := session.found.tail
          console := session.console ++ printedText bytes }) ∧ ret ≠ -1 := by
  have held : field 0 bytes.length buf = bytes.takeWhile (· ≠ 0) := field_eq_takeWhile agree
  have range : ¬((1 : Int) < 0 ∨ (1 : Int) > 7) := by omega
  have slot : (⟨(1 : Int).toNat, by decide⟩ : Fin 8) = 1 := rfl
  simp only [ece391Write, systemWrite, dif_neg range, slot]
  rw [ready.stdout]
  simp only [Fop.write, Option.map_map]
  rcases Nat.eq_zero_or_pos bytes.length with empty | positive
  · obtain rfl := List.eq_nil_of_length_eq_zero empty
    refine ⟨0, ?_, by decide⟩
    simp [terminalWrite, Session.after, printedText]
  · rw [terminalWrite_eq (by omega), Int.toNat_natCast, held]
    have full : (bytes.takeWhile (· ≠ 0)).length = bytes.length ↔ 0 ∉ bytes := by
      rw [← held, field_full_iff]
      constructor
      · intro every zero
        obtain ⟨i, inside, same⟩ := List.getElem_of_mem zero
        exact every i inside ((agree i inside).trans same)
      · intro ordinary i inside zero
        exact ordinary ((agree i inside).symm.trans zero ▸ List.getElem_mem inside)
    refine ⟨if 0 ∉ bytes ∧ 79 ≤ bytes.length then bytes.length else 0, ?_, by split <;> omega⟩
    simp only [Option.map_some, Function.comp, Session.after, full, printedText]

/-- `ece391_fdputs` prints a string, with the newline that a write adds behind 79 characters. -/
theorem ece391Fdputs_prints (ready : session.Ready) (holds : Holds 0 buf text)
    (small : text.length < 2147483648) :
    ece391Fdputs 1 buf session =
      some { session with
        found := session.found.tail
        console := session.console ++ text ++ if text.length = 79 then [10] else [] } := by
  have length : ece391Strlen buf = text.length := by
    rw [ece391Strlen, strlen_eq, holds.field, List.length_take]
    omega
  obtain ⟨ret, written, -⟩ := ece391Write_prints ready holds.agree
  rw [ece391Fdputs, length, int32_of_range (by omega) (by omega), written,
    printedText_ordinary holds.ordinary, List.append_assoc]
  rfl

/-! ## Starting -/

/-- `ece391_getargs` delivers an argument that leaves room for its terminator. -/
theorem ece391Getargs_holds {args : Bytes} {arg : List UInt8} (argument : Holds 0 args arg)
    (nonempty : arg ≠ []) (room : arg.length < nbytes) (bound : nbytes < 2147483648)
    (buf : Bytes) :
    ∃ buf', ece391Getargs args buf nbytes = (0, buf') ∧ Holds 0 buf' arg := by
  have positive := List.length_pos_iff.mpr nonempty
  have size : uint32 nbytes = nbytes.toNat := uint32_of_nonneg (by omega) (by omega)
  have first : args 0 ≠ 0 := by
    rw [argument.agree 0 positive]
    exact fun ended => argument.ordinary (ended ▸ List.getElem_mem positive)
  have copied : field 0 (uint32 nbytes) args = arg := by
    rw [argument.field, List.take_of_length_le (by omega)]
  refine ⟨overwrite buf (strncpy args (uint32 nbytes)), ?_, argument.ordinary, ?_, ?_⟩
  · rw [ece391Getargs, systemGetargs_value first]
  · intro i inside
    rw [overwrite_strncpy _ _ (by omega), copied]
    simp [inside]
  · rw [overwrite_strncpy _ _ (by omega), copied]
    simp

/-- It delivers the first 32 bytes of any argument, which is all that the directory is searched
for.  What is behind them need not be a NUL. -/
theorem ece391Getargs_field {args : Bytes} {arg : List UInt8} (argument : field 0 32 args = arg)
    (nonempty : arg ≠ []) (room : 32 ≤ nbytes) (bound : nbytes < 2147483648) (buf : Bytes) :
    ∃ buf', ece391Getargs args buf nbytes = (0, buf') ∧ field 0 32 buf' = arg := by
  have size : uint32 nbytes = nbytes.toNat := uint32_of_nonneg (by omega) (by omega)
  have first : args 0 ≠ 0 := by
    intro ended
    refine nonempty (argument.symm.trans ?_)
    rw [field, fieldFrom, if_pos ended]
  refine ⟨overwrite buf (strncpy args (uint32 nbytes)), ?_, ?_⟩
  · rw [ece391Getargs, systemGetargs_value first]
  · rw [field_overwrite_strncpy _ _ (by omega), argument]

section

variable {locals : Locals} {state state' : ProcessState} {command : Bytes} {name arg : List UInt8}
variable {gap eip : Nat} {loaded : List UInt8}

/-- A program starts with the descriptor table that `system_execute` has built. -/
theorem started_fda
    (executed : systemExecute image locals state (some command) = .userMode eip loaded state') :
    ∃ old, (state'.pcbs state'.pcbObj).fda = initFda old := by
  obtain ⟨-, slot, args, -, -, -, rfl⟩ := systemExecute_started executed
  exact ⟨(state.pcbs (findPCB slot)).fda, by simp [ProcessState.started]⟩

/-- The control block holds the word behind the name and spaces. -/
theorem started_memory
    (holds : Holds 0 command (name ++ List.replicate (gap + 1) 32 ++ arg))
    (small : (name ++ List.replicate (gap + 1) 32 ++ arg).length < 2147483648)
    (word : 32 ∉ arg)
    (executed : systemExecute image locals state (some command) = .userMode eip loaded state')
    (memory : Bytes) :
    argsMemory state' memory = overwrite memory (strncpy (cstring arg) 32) := by
  have member : (32 : UInt8) ∈ name ++ List.replicate (gap + 1) 32 ++ arg := by
    simp [List.replicate_succ]
  rw [argsMemory, systemExecute_args holds small executed, commandArgs, if_pos member,
    lastWord_of_words word]

/-- A word of fewer than 32 bytes behind the name and spaces is the argument. -/
theorem started_argument
    (holds : Holds 0 command (name ++ List.replicate (gap + 1) 32 ++ arg))
    (small : (name ++ List.replicate (gap + 1) 32 ++ arg).length < 2147483648)
    (word : 32 ∉ arg) (short : arg.length < 32)
    (executed : systemExecute image locals state (some command) = .userMode eip loaded state')
    (memory : Bytes) : Holds 0 (argsMemory state' memory) arg := by
  rw [started_memory holds small word executed]
  exact recorded_holds (fun ended => holds.ordinary (List.mem_append_right _ ended)) short

/-- Of any word the argument has the first 32 bytes. -/
theorem started_field
    (holds : Holds 0 command (name ++ List.replicate (gap + 1) 32 ++ arg))
    (small : (name ++ List.replicate (gap + 1) 32 ++ arg).length < 2147483648)
    (word : 32 ∉ arg)
    (executed : systemExecute image locals state (some command) = .userMode eip loaded state')
    (memory : Bytes) : field 0 32 (argsMemory state' memory) = arg.take 32 := by
  have ordinary : 0 ∉ arg := fun ended => holds.ordinary (List.mem_append_right _ ended)
  rw [started_memory holds small word executed, field_overwrite_strncpy _ _ (Nat.le_refl 32)]
  exact (terminated_holds ordinary).field

end

theorem ready_of_initFda {old : Fda} (fda : session.fda = initFda old) : session.Ready := by
  refine ⟨?_⟩
  rw [fda]
  rfl

theorem firstFree_initFda (old : Fda) : firstFree (initFda old) = some 2 := by
  rfl

/-! ## Opening -/

/-- An open of an entry fills the first free descriptor, which is not standard output. -/
theorem ece391Open_found {filename : Bytes} {entry : Dentry} {fop : Fop} {fileType : Nat}
    {slot : Fin 8} (ready : session.Ready)
    (found : readDentryByName image filename session.found.head.dentry = .found entry)
    (type : entry.fileType = fileType) (table : tableOf fileType = some fop)
    (free : firstFree session.fda = some slot) :
    ∃ session', ece391Open image filename session = some ((slot.val : Int), session') ∧
      Silent session session' ∧
      session'.fda = Function.update session.fda slot
        ⟨some fop, uint32 entry.inodeNum, 0, 1, fileType⟩ := by
  have opens : systemOpen image session.found.head.dentry session.found.head.devices session.fda
      filename =
        some (openAs session.found.head.devices session.fda entry.inodeNum fop fileType) := by
    rw [systemOpen, found]
    simp only [tableOf] at table
    split at table
    next zero =>
      obtain rfl := Option.some.inj table
      subst zero
      exact if_pos type
    split at table
    next one =>
      obtain rfl := Option.some.inj table
      subst one
      exact (if_neg (by omega)).trans (if_pos type)
    split at table
    next two =>
      obtain rfl := Option.some.inj table
      subst two
      exact (if_neg (by omega)).trans ((if_neg (by omega)).trans (if_pos type))
    · cases table
  have standard : (1 : Fin 8) ≠ slot := (ne_standard (firstFree_some free).1).2.symm
  refine ⟨session.after (openAs session.found.head.devices session.fda entry.inodeNum fop fileType),
    ?_, ⟨?_, ?_, rfl⟩, ?_⟩
  · rw [ece391Open, opens, openAs, free]
    rfl
  · rw [openAs, free]
    exact ⟨(congrArg FileDescriptor.fop (Function.update_of_ne standard ..)).trans ready.stdout⟩
  · rw [openAs, free]
    exact List.append_nil _
  · rw [openAs, free]
    rfl

/-- The first entry with a name. -/
def FirstNamed (image : Image) (name : List UInt8) (entry : Dentry) : Prop :=
  ∃ i : Nat, (i : Int) < image.dirCount ∧ entry = image.direntries i ∧ entry.name = name ∧
    ∀ k < i, (image.direntries k).name ≠ name

theorem FirstNamed.length_le {name : List UInt8} {entry : Dentry}
    (first : FirstNamed image name entry) : name.length ≤ 32 := by
  obtain ⟨i, -, rfl, rfl, -⟩ := first
  exact Dentry.length_name_le _

/-- Its name is looked for when a string of the program is this name. -/
theorem FirstNamed.query {filename : Bytes} {name : List UInt8} {entry : Dentry}
    (first : FirstNamed image name entry) (holds : Holds 0 filename name) :
    field 0 32 filename = name := by
  rw [holds.field, List.take_of_length_le first.length_le]

theorem FirstNamed.lookup {filename : Bytes} {name : List UInt8} {entry : Dentry}
    (first : FirstNamed image name entry) (small : image.dirCount ≤ 63)
    (query : field 0 32 filename = name) (dentry : Dentry) :
    readDentryByName image filename dentry = .found entry := by
  obtain ⟨i, inside, rfl, named, first⟩ := first
  refine (readDentryByName_found_iff small _).mpr ⟨i, inside, rfl, query.trans named.symm, ?_⟩
  intro k below
  rw [query]
  exact (first k below).symm

/-- The first entry with this name is a regular file with this content. -/
def HasFile (image : Image) (name text : List UInt8) : Prop :=
  ∃ entry, FirstNamed image name entry ∧ entry.fileType = 2 ∧
    fileContent image (uint32 entry.inodeNum) = text

theorem HasFile.length_le {name : List UInt8} (file : HasFile image name text) :
    name.length ≤ 32 := by
  obtain ⟨entry, first, -⟩ := file
  exact first.length_le

theorem HasFile.query {filename : Bytes} {name : List UInt8} (file : HasFile image name text)
    (holds : Holds 0 filename name) : field 0 32 filename = name := by
  obtain ⟨entry, first, -⟩ := file
  exact first.query holds

/-- The first entry with this name is the clock. -/
def HasClock (image : Image) (name : List UInt8) : Prop :=
  ∃ entry, FirstNamed image name entry ∧ entry.fileType = 0

/-- The first entry named `.` is a directory. -/
def HasDirectory (image : Image) : Prop :=
  ∃ entry, FirstNamed image (ascii ".") entry ∧ entry.fileType = 1

/-- Opening a regular file by its name makes it ready to be read from its start. -/
theorem ece391Open_file {filename : Bytes} {name : List UInt8} {slot : Fin 8}
    (wellFormed : image.WellFormed) (ready : session.Ready) (query : field 0 32 filename = name)
    (file : HasFile image name text) (free : firstFree session.fda = some slot) :
    ∃ (inode : Nat) (session' : Session),
      ece391Open image filename session = some ((slot.val : Int), session') ∧
      Silent session session' ∧ (inode : Int) < image.inodeCount ∧
      fileContent image inode = text ∧
      session'.fda = Function.update session.fda slot ⟨some .files, inode, 0, 1, 2⟩ := by
  obtain ⟨entry, first, regular, content⟩ := file
  obtain ⟨session', opens, silent, fda⟩ := ece391Open_found ready
    (first.lookup wellFormed.dirCount_le query _) regular rfl free
  obtain ⟨i, inside, rfl, -⟩ := first
  obtain ⟨low, high⟩ := wellFormed.inodeNum_range i inside
  have typed := wellFormed.inodeCount_lt
  have number : uint32 (image.direntries i).inodeNum = (image.direntries i).inodeNum.toNat :=
    uint32_of_nonneg low (by omega)
  exact ⟨_, session', opens, silent, by omega, content, fda⟩

/-- Opening `.` makes the directory ready to be read from its first entry. -/
theorem ece391Open_directory {slot : Fin 8} (small : image.dirCount ≤ 63)
    (ready : session.Ready) (directory : HasDirectory image)
    (free : firstFree session.fda = some slot) :
    ∃ (inode : Nat) (session' : Session),
      ece391Open image (cstring (ascii ".")) session = some ((slot.val : Int), session') ∧
      Silent session session' ∧
      session'.fda = Function.update session.fda slot ⟨some .directories, inode, 0, 1, 1⟩ := by
  obtain ⟨entry, first, type⟩ := directory
  have query : Holds 0 (cstring (ascii ".")) (ascii ".") := terminated_holds (by decide)
  obtain ⟨session', opens, silent, fda⟩ := ece391Open_found ready
    (first.lookup small (first.query query) _) type rfl free
  exact ⟨_, session', opens, silent, fda⟩

/-- Opening a name that no entry has fails. -/
theorem ece391Open_missing {filename : Bytes} (ready : session.Ready)
    (missing : readDentryByName image filename session.found.head.dentry = .missing) :
    ∃ session', ece391Open image filename session = some (-1, session') ∧
      Silent session session' := by
  refine ⟨session.after (refused session.fda session.found.head.devices), ?_, ready, ?_, rfl⟩
  · rw [ece391Open, systemOpen, missing]
    rfl
  · exact List.append_nil _

/-! ## Closing -/

/-- Closing an open descriptor frees it. -/
theorem ece391Close_open {slot : Fin 8} (ready : session.Ready) (ordinary : 2 ≤ slot.val)
    (opened : (session.fda slot).flags ≠ 0) :
    ∃ session', ece391Close slot.val session = (0, session') ∧
      Silent session session' ∧ (session'.fda slot).flags = 0 ∧
      ∀ other, other ≠ slot → session'.fda other = session.fda other := by
  have range : ¬((slot.val : Int) < 2 ∨ (slot.val : Int) > 7) := by omega
  have standard : (1 : Fin 8) ≠ slot := (ne_standard ordinary).2.symm
  have closes : systemClose session.found.head.devices session.fda slot.val =
      ⟨0, Function.update session.fda slot
        { session.fda slot with inodeIdx := 0, flags := 0, filePosition := 0, fop := some .null },
        session.found.head.devices, [], [], [.closeOp .null]⟩ := by
    simp only [systemClose, dif_neg range, Int.toNat_natCast, Fin.eta]
    exact if_neg opened
  rw [ece391Close, closes]
  refine ⟨_, rfl, ⟨?_, List.append_nil _, rfl⟩, ?_, ?_⟩
  · exact ⟨(congrArg FileDescriptor.fop (Function.update_of_ne standard ..)).trans ready.stdout⟩
  · simp only [Session.after, Function.update_self]
  · exact fun other different => Function.update_of_ne different ..

/-- The first free descriptor depends on the flags alone. -/
theorem firstFree_congr {fda fda' : Fda} (same : ∀ fd, (fda fd).flags = (fda' fd).flags) :
    firstFree fda = firstFree fda' := by
  simp only [firstFree, same]

/-! ## Reading -/

/-- A read prints nothing. -/
theorem systemRead_printed {dentry : Dentry} {devices : Devices} {fda : Fda} {fd : Int}
    {result : CallResult}
    (completed : systemRead image dentry devices fda fd (some buf) nbytes = some result) :
    result.printed = [] := by
  simp only [systemRead] at completed
  split at completed
  · obtain rfl := Option.some.inj completed
    rfl
  split at completed
  · obtain rfl := Option.some.inj completed
    rfl
  next fop _ =>
    split at completed
    · obtain rfl := Option.some.inj completed
      rfl
    cases fop with
    | null | stdout | files | directories =>
        obtain rfl := Option.some.inj completed
        rfl
    | stdin | rtc =>
        simp only [Fop.read, Option.map_eq_some_iff] at completed
        obtain ⟨_, _, rfl⟩ := completed
        rfl

/-- A read leaves the operations of every descriptor as they are. -/
theorem systemRead_fop {dentry : Dentry} {devices : Devices} {fda : Fda} {fd : Int}
    {result : CallResult}
    (completed : systemRead image dentry devices fda fd (some buf) nbytes = some result)
    (other : Fin 8) : (result.fda other).fop = (fda other).fop := by
  have effect := systemRead_effect completed
  generalize result.fda = after at effect ⊢
  cases effect with
  | same => rfl
  | advanced => exact advance_fop ..

/-- And every other descriptor as it is. -/
theorem systemRead_other {dentry : Dentry} {devices : Devices} {fda : Fda} {fd other : Fin 8}
    {result : CallResult}
    (completed : systemRead image dentry devices fda fd.val (some buf) nbytes = some result)
    (different : other ≠ fd) : result.fda other = fda other := by
  have effect := systemRead_effect completed
  generalize result.fda = after at effect ⊢
  generalize named : ((fd.val : Nat) : Int) = number at effect
  cases effect with
  | same => rfl
  | advanced fd' =>
      obtain rfl : fd' = fd := by omega
      exact advance_of_ne different _

/-- A call that is not refused by its own arguments reads through the operations of its
descriptor. -/
theorem ece391Read_of_completed {fd : Int} {result : CallResult} (ready : session.Ready)
    (completed : systemRead image session.found.head.dentry session.found.head.devices session.fda
      fd (some buf) nbytes = some result) :
    ∃ session', ece391Read image fd buf nbytes session =
        some (result.ret, overwrite buf result.written, session') ∧
      Silent session session' ∧
      session'.fda = result.fda := by
  refine ⟨session.after result, ?_, ⟨?_, ?_, rfl⟩, rfl⟩
  · rw [ece391Read, completed]
    rfl
  · exact ⟨(systemRead_fop completed 1).trans ready.stdout⟩
  · rw [Session.after, systemRead_printed completed]
    exact List.append_nil _

section

variable {inode position : Nat} {fd : Fin 8}

/-- A read of a regular file stores the next bytes of its content and reports their number. -/
theorem ece391Read_file (wellFormed : image.WellFormed)
    (exists_ : (inode : Int) < image.inodeCount) (ready : session.Ready)
    (opened : ReadyAt inode position (session.fda fd))
    (inside : position ≤ (fileContent image inode).length) (positive : 0 < nbytes)
    (bound : nbytes < 2147483648) (buf : Bytes) :
    ∃ chunk session', chunk = serve (fileContent image inode) position nbytes.toNat ∧
      ece391Read image fd.val buf nbytes session =
        some ((chunk.length : Int), overwrite buf chunk, session') ∧
      Silent session session' ∧
      ReadyAt inode (position + chunk.length) (session'.fda fd) ∧
      ∀ other, other ≠ fd → session'.fda other = session.fda other := by
  let found := session.found.head
  obtain ⟨result, completed⟩ : ∃ result, systemRead image found.dentry found.devices session.fda
      fd.val (some buf) nbytes = some result := by
    have range : ¬((fd.val : Int) < 0 ∨ (fd.val : Int) > 7) := by omega
    simp only [systemRead, dif_neg range, Int.toNat_natCast, Fin.eta]
    rw [opened]
    exact ⟨_, rfl⟩
  obtain ⟨written, ret, opened'⟩ :=
    systemRead_ready wellFormed exists_ opened inside positive bound completed
  obtain ⟨session', read, silent, fda⟩ := ece391Read_of_completed ready completed
  refine ⟨result.written, session', written, ret ▸ read, silent, fda ▸ opened', ?_⟩
  intro other different
  rw [fda, systemRead_other completed different]

/-- A read of a directory completes. -/
theorem systemRead_directory_completes {dentry : Dentry} {devices : Devices} {fda : Fda}
    (opened : AtEntry inode position (fda fd)) :
    ∃ result, systemRead image dentry devices fda fd.val (some buf) nbytes = some result := by
  have range : ¬((fd.val : Int) < 0 ∨ (fd.val : Int) > 7) := by omega
  simp only [systemRead, dif_neg range, Int.toNat_natCast, Fin.eta]
  rw [opened]
  exact ⟨_, rfl⟩

/-- Up to the slot behind the last entry, a read of the directory stores the name there and
reports its length. -/
theorem ece391Read_entry (small : image.dirCount ≤ 63) (ready : session.Ready)
    (opened : AtEntry inode position (session.fda fd)) (inside : (position : Int) ≤ image.dirCount)
    (buf : Bytes) (nbytes : Int) :
    ∃ buf' session', ece391Read image fd.val buf nbytes session =
        some (((image.direntries position).name.length : Int), buf', session') ∧
      (∀ i (bound : i < (image.direntries position).name.length),
        buf' i = (image.direntries position).name[i]) ∧
      Silent session session' ∧
      AtEntry inode (position + 1) (session'.fda fd) ∧
      ∀ other, other ≠ fd → session'.fda other = session.fda other := by
  obtain ⟨result, completed⟩ := @systemRead_directory_completes image buf nbytes inode position fd
    session.found.head.dentry session.found.head.devices session.fda opened
  obtain ⟨ret, written, fda⟩ := systemRead_directory opened completed
  obtain ⟨delivered, after⟩ := @directoryRead_entry image session.found.head.dentry session.fda
    inode position fd buf small opened inside
  obtain ⟨session', read, silent, fda'⟩ := ece391Read_of_completed ready completed
  have count : result.ret = (image.direntries position).name.length := ret.trans delivered.ret
  have bytes := written.trans delivered.bytes
  refine ⟨overwrite buf result.written, session', ?_, ?_, silent, ?_, ?_⟩
  · rw [read, count]
  · intro i bound
    rw [overwrite, bytes, List.getElem?_append_left bound]
    simp [bound]
  · rw [fda', fda]
    exact after
  · intro other different
    rw [fda', systemRead_other completed different]

/-- Behind that slot it fails. -/
theorem ece391Read_behind (ready : session.Ready)
    (opened : AtEntry inode position (session.fda fd))
    (behind : image.dirCount < position) (short : position ≤ 64) (buf : Bytes) (nbytes : Int) :
    ∃ buf' session', ece391Read image fd.val buf nbytes session = some (-1, buf', session') ∧
      Silent session session' := by
  obtain ⟨result, completed⟩ := @systemRead_directory_completes image buf nbytes inode position fd
    session.found.head.dentry session.found.head.devices session.fda opened
  obtain ⟨ret, -, -⟩ := systemRead_directory opened completed
  have stored : (session.fda fd).filePosition = position := by rw [opened]
  have failed : readDentryByIndex image position session.found.head.dentry =
      (-1, session.found.head.dentry) := by
    simp only [readDentryByIndex, Nat.mod_eq_of_lt (by omega : position < 256)]
    exact if_pos (.inl behind)
  simp only [directoryRead, stored, failed, if_true] at ret
  obtain ⟨session', read, silent, -⟩ := ece391Read_of_completed ready completed
  exact ⟨_, session', ret ▸ read, silent⟩

/-- A read of the clock returns 0 after the next interrupt and stores nothing. -/
theorem ece391Read_clock (ready : session.Ready) (ticking : session.Ticking)
    (opened : session.fda fd = ⟨some .rtc, inode, 0, 1, 0⟩) (buf : Bytes) (nbytes : Int) :
    ∃ session', ece391Read image fd.val buf nbytes session = some (0, buf, session') ∧
      Silent session session' ∧ session'.fda = session.fda := by
  have tick : rtcRead session.found.head.devices = some 0 := if_neg (ticking 0)
  have completed : systemRead image session.found.head.dentry session.found.head.devices
      session.fda fd.val (some buf) nbytes = some
        ⟨0, session.fda, session.found.head.devices, [], [], [.readOp .rtc]⟩ := by
    have range : ¬((fd.val : Int) < 0 ∨ (fd.val : Int) > 7) := by omega
    simp only [systemRead, dif_neg range, Int.toNat_natCast, Fin.eta]
    rw [opened]
    simp only [Nat.one_ne_zero, if_false, Fop.read, tick, Option.map_some]
  obtain ⟨session', read, silent, fda⟩ := ece391Read_of_completed ready completed
  exact ⟨session', read, silent, fda⟩

end

/-- A loop that reads one descriptor to its end: each iteration ends the loop or goes on at a later
position. -/
theorem loop_reads {State : Type} {body : State → Option (ForInStep State)} {slot : Fin 8}
    (session : State → Session) (holds : Nat → State → Prop) {result : State → Prop}
    {length fuel : Nat}
    (at_ : ∀ position state, holds position state →
      ((session state).fda slot).filePosition = position ∧ position ≤ length)
    (step : ∀ position state, holds position state →
      (∃ last, body state = some (.done last) ∧ result last) ∨
        ∃ next position', body state = some (.yield next) ∧ position < position' ∧
          holds position' next)
    (enough : length < fuel) {state : State} (start : holds 0 state) :
    ∃ last, loop body fuel state = some last ∧ result last := by
  let position (state : State) := ((session state).fda slot).filePosition
  refine @loop_total _ body fuel state (fun state => holds (position state) state) result
    (fun state => length - position state) ?_ ?_ ?_
  · intro state reading
    rcases step _ state reading with ended | ⟨next, position', goes, later, reading'⟩
    · exact .inl ended
    · obtain ⟨same, inside⟩ := at_ position' next reading'
      obtain rfl : position next = position' := same
      exact .inr ⟨next, goes, reading', by omega⟩
  · exact Nat.lt_of_le_of_lt (Nat.sub_le ..) enough
  · have origin : position state = 0 := (at_ 0 state start).1
    rw [origin]
    exact start

/-! ## Comparing and copying strings -/

theorem ece391StrncmpFrom_eq_zero_iff (s1 s2 : Bytes) (n i : Nat) :
    ece391StrncmpFrom s1 s2 n i = 0 ↔ fieldFrom 0 s1 n i = fieldFrom 0 s2 n i := by
  induction n generalizing i with
  | zero => simp [ece391StrncmpFrom, fieldFrom]
  | succ n ih =>
      rw [ece391StrncmpFrom, fieldFrom, fieldFrom]
      by_cases same : s1 i = s2 i
      · by_cases ended : s1 i = 0
        · simp [← same, ended]
        · rcases Nat.eq_zero_or_pos n with rfl | positive
          · simp [← same, ended, fieldFrom]
          · simp [← same, ended, Nat.ne_of_gt positive, ih]
      · have differ : ((s1 i).toNat : Int) - (s2 i).toNat ≠ 0 := by
          intro equal
          exact same (UInt8.toNat_inj.mp (by omega))
        simp only [same, if_false, differ, false_iff]
        split
        next ended =>
          rw [if_neg fun ended' => same (ended.trans ended'.symm)]
          simp
        next ordinary =>
          split
          · simp
          · simp [same]

/-- `ece391_strncmp` reports equality exactly when both strings agree in a field. -/
theorem ece391Strncmp_eq_zero_iff (s1 s2 : Bytes) (n : Nat) :
    ece391Strncmp s1 s2 n = 0 ↔ field 0 n s1 = field 0 n s2 := by
  rw [ece391Strncmp]
  split
  next none =>
    subst none
    exact iff_of_true rfl rfl
  next some => exact ece391StrncmpFrom_eq_zero_iff s1 s2 n 0

/-- Copying a string to a lower place leaves it whole, with its terminator, although the two
places may overlap. -/
theorem ece391StrcpyFrom_down {fuel dst src : Nat} (below : dst ≤ src)
    (agree : ∀ i (inside : i < text.length), buf (src + i) = text[i]) (ordinary : 0 ∉ text)
    (ended : buf (src + text.length) = 0) (enough : text.length < fuel) :
    ece391StrcpyFrom fuel buf dst src = fun place =>
      if dst ≤ place ∧ place ≤ dst + text.length then (text ++ [0]).getD (place - dst) 0
      else buf place := by
  induction text generalizing fuel buf dst src with
  | nil =>
      obtain ⟨fuel, rfl⟩ := Nat.exists_eq_succ_of_ne_zero (Nat.ne_of_gt enough)
      have last : buf src = 0 := ended
      rw [ece391StrcpyFrom, last]
      funext place
      by_cases here : place = dst
      · simp [here]
      · have other : ¬(dst ≤ place ∧ place ≤ dst + ([] : List UInt8).length) := by
          simp only [List.length_nil]
          omega
        rw [if_neg other]
        simp [here]
  | cons symbol rest ih =>
      obtain ⟨fuel, rfl⟩ := Nat.exists_eq_succ_of_ne_zero (Nat.ne_of_gt (Nat.lt_of_le_of_lt
        (Nat.zero_le _) enough))
      have first : buf src = symbol := agree 0 (by simp)
      have other : symbol ≠ 0 := fun zero => ordinary (zero ▸ List.mem_cons_self)
      rw [ece391StrcpyFrom, first]
      simp only [ne_eq, other, not_false_eq_true, if_true]
      -- The byte just stored lies below every byte still to be read.
      have later (i : Nat) :
          Function.update buf dst symbol (src + 1 + i) = buf (src + (i + 1)) := by
        rw [Function.update_of_ne (by omega), Nat.add_assoc, Nat.add_comm 1]
      rw [@ih (Function.update buf dst symbol) fuel (dst + 1) (src + 1) (by omega)
        (fun i inside => (later i).trans (agree (i + 1) (by simpa using inside)))
        (fun zero => ordinary (List.mem_cons_of_mem _ zero)) ((later rest.length).trans ended)
        (by simpa using enough)]
      funext place
      simp only [List.length_cons]
      rcases Nat.lt_trichotomy place dst with before | rfl | behind
      · rw [if_neg (by omega), if_neg (by omega), Function.update_of_ne (Nat.ne_of_lt before)]
      · rw [if_neg (by omega), if_pos (by omega), Function.update_self, Nat.sub_self]
        rfl
      · obtain ⟨offset, rfl⟩ := Nat.exists_eq_add_of_lt behind
        have index : dst + offset + 1 - dst = offset + 1 := by omega
        have index' : dst + offset + 1 - (dst + 1) = offset := by omega
        rw [index, index', Function.update_of_ne (by omega)]
        simp only [List.cons_append, List.getD_cons_succ]
        by_cases inside : offset ≤ rest.length
        · rw [if_pos (by omega), if_pos (by omega)]
        · rw [if_neg (by omega), if_neg (by omega)]

/-- A string moved down to the start of the memory, and what is behind it. -/
theorem ece391Strcpy_moves {src : Nat} (string : Holds 0 (fun i => buf (src + i)) text)
    (small : text.length < 4294967296) :
    (∀ i (inside : i < text.length), ece391Strcpy buf 0 src i = text[i]) ∧
      ∀ place, text.length < place → ece391Strcpy buf 0 src place = buf place := by
  have copied (place : Nat) := congrFun (ece391StrcpyFrom_down (Nat.zero_le src) string.agree
    string.ordinary string.ended small) place
  constructor
  · intro i inside
    rw [ece391Strcpy, copied, if_pos (by omega), Nat.sub_zero, List.getD_eq_getElem?_getD,
      List.getElem?_append_left inside, List.getElem?_eq_getElem inside, Option.getD_some]
  · intro place behind
    rw [ece391Strcpy, copied, if_neg (by omega)]

end

end Ece391.Programs
