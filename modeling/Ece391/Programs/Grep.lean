import Ece391.Programs.LineSearch
import Mathlib.Data.List.Forall2

/-!
# The program `grep`

`grep` searches the visible files of the directory one after another for its argument.  The clock
is a file that is empty after its next interrupt.
-/

namespace Ece391.Programs.Grep

open Ece391.Library Ece391.Kernel

/-! ## `main` -/

/-- The variables of the loop of `main`, what the calls of `do_one_file` find in their buffers, and
what `main` returns behind the loop. -/
structure State where
  buf : Bytes
  stack : Stream' Bytes
  session : Session
  ret : Int

/-- One iteration of the loop of `main`. -/
def fileBody (image : Image) (search : Bytes) (fd : Int) (fuel : Nat) (state : State) :
    Option (ForInStep State) := do
  let (cnt, buf, session) ← ece391Read image fd state.buf 32 state.session
  if 0 = cnt then pure (.done { state with buf, session, ret := 0 })
  else if -1 = cnt then
    let session ← ece391Fdputs 1 (cstring (ascii "directory entry read failed\n")) session
    pure (.done { state with buf, session, ret := 3 })
  else if 46 = buf 0 then pure (.yield { state with buf, session })
  else
    let buf := Function.update buf cnt.toNat 0
    let (ret, session) ← doOneFile image search buf fuel state.stack.head session
    if 0 ≠ ret then pure (.done ⟨buf, state.stack.tail, session, 3⟩)
    else pure (.yield ⟨buf, state.stack.tail, session, state.ret⟩)

/-- `main`, where `args` is the memory from the argument in the control block on. -/
def main (image : Image) (args : Bytes) (fuel : Nat) (search buf : Bytes) (stack : Stream' Bytes)
    (session : Session) : Option (Int × Session) := do
  let (ret, search) := ece391Getargs args search 1024
  if 0 ≠ ret then
    let session ← ece391Fdputs 1 (cstring (ascii "could not read argument\n")) session
    pure (3, session)
  else
    let (fd, session) ← ece391Open image (cstring (ascii ".")) session
    if -1 = fd then
      let session ← ece391Fdputs 1 (cstring (ascii "directory open failed\n")) session
      pure (2, session)
    else
      let last ← loop (fileBody image search fd fuel) fuel ⟨buf, stack, session, 0⟩
      pure (last.ret, last.session)

/-! ## The files of the directory -/

/-- The entries of the directory. -/
def entries (image : Image) : List Dentry :=
  (List.range image.dirCount.toNat).map image.direntries

/-- Entries with different names, each hidden, the clock, or a regular file, and an empty name
behind them. -/
structure Searchable (image : Image) : Prop where
  named : ∀ i < image.dirCount.toNat, (image.direntries i).name ≠ []
  distinct : ∀ i < image.dirCount.toNat, ∀ k < i,
    (image.direntries k).name ≠ (image.direntries i).name
  kind : ∀ i < image.dirCount.toNat, (image.direntries i).name.head? = some 46 ∨
    (image.direntries i).fileType = 0 ∨ (image.direntries i).fileType = 2
  ended : (image.direntries image.dirCount.toNat).name = []

/-- What `grep` prints for an entry: nothing when it is hidden or the clock, its reports when it is
a text, and nothing when the pattern starts with a byte from 128 on. -/
structure Answers (image : Image) (pattern : List UInt8) (entry : Dentry) (text : List UInt8) :
    Prop where
  silent : entry.name.head? = some 46 ∨ entry.fileType = 0 → text = []
  high : 128 ≤ pattern.headD 0 → text = []
  text : entry.name.head? ≠ some 46 → entry.fileType = 2 →
    0 ∉ fileContent image (uint32 entry.inodeNum) →
    text = reports entry.name pattern (fileContent image (uint32 entry.inodeNum))

/-- The loop of `main` at some entry of the directory. -/
structure Walking (image : Image) (pattern before : List UInt8) (inode position : Nat)
    (state : State) : Prop where
  ready : state.session.Ready
  ticking : state.session.Ticking
  opened : AtEntry inode position (state.session.fda 2)
  free : firstFree state.session.fda = some 3
  inside : position ≤ image.dirCount.toNat
  fences : ∀ k, state.stack.get k 1024 ≠ 10
  output : ∃ printed, List.Forall₂ (Answers image pattern) ((entries image).take position) printed ∧
    state.session.console = before ++ printed.flatten

section

variable {image : Image} {inode position fuel : Nat} {search : Bytes}
variable {pattern before text : List UInt8} {state : State}

theorem take_entries (inside : position < image.dirCount.toNat) :
    (entries image).take (position + 1) =
      (entries image).take position ++ [image.direntries position] := by
  rw [List.take_succ_eq_append_getElem (by simpa [entries] using inside)]
  simp [entries]

/-- `do_one_file` answers for an entry that is not hidden. -/
theorem Searchable.doOneFile_entry {session : Session} {data fname : Bytes} {slot : Fin 8}
    (searchable : Searchable image) (wellFormed : image.WellFormed)
    (inside : position < image.dirCount.toNat)
    (visible : (image.direntries position).name.head? ≠ some 46) (ready : session.Ready)
    (ticking : session.Ticking) (query : Holds 0 search pattern)
    (small : pattern.length < 2147483648)
    (named : Holds 0 fname (image.direntries position).name)
    (free : firstFree session.fda = some slot) (fence : data 1024 ≠ 10)
    (enough : 1023 * 4096 + 1024 < fuel) :
    ∃ session' text, doOneFile image search fname fuel data session = some (0, session') ∧
      FileDone session slot text session' ∧
      Answers image pattern (image.direntries position) text := by
  have nonneg := wellFormed.dirCount_nonneg
  have short := (image.direntries position).length_name_le
  have buffer : 1024 < fuel := by omega
  have first : FirstNamed image (image.direntries position).name (image.direntries position) :=
    ⟨position, by omega, rfl, rfl, searchable.distinct position inside⟩
  rcases searchable.kind position inside with hidden | clock | regular
  · exact absurd hidden visible
  · obtain ⟨session', searched, done⟩ := doOneFile_clock wellFormed ready query small named short
      ⟨_, first, clock⟩ ticking free fence buffer
    exact ⟨session', [], searched, done, fun _ => rfl, fun _ => rfl, fun _ regular => by omega⟩
  · obtain ⟨low, high⟩ := wellFormed.inodeNum_range position (by omega)
    have typed := wellFormed.inodeCount_lt
    have number : uint32 (image.direntries position).inodeNum =
        (image.direntries position).inodeNum.toNat := uint32_of_nonneg low (by omega)
    have bound := @length_fileContent_le image (uint32 (image.direntries position).inodeNum)
      wellFormed (by omega)
    have enough' : (fileContent image (uint32 (image.direntries position).inodeNum)).length + 1024 <
        fuel := by omega
    have loud : ¬((image.direntries position).name.head? = some 46 ∨
        (image.direntries position).fileType = 0) := not_or.mpr ⟨visible, by omega⟩
    by_cases ordinary : 0 ∈ fileContent image (uint32 (image.direntries position).inodeNum)
    · obtain ⟨session', printed, searched, done, high⟩ := @doOneFile_ends _ fuel slot session
        search _ data _ _ wellFormed ready named short ⟨_, first, regular, rfl⟩ free enough'
      exact ⟨session', printed, searched, done, fun silent => absurd silent loud,
        query.first ▸ high, fun _ _ text => absurd ordinary text⟩
    · obtain ⟨session', searched, done⟩ := doOneFile_reports wellFormed ready query small named
        short ⟨_, first, regular, rfl⟩ ordinary free fence enough'
      exact ⟨session', _, searched, done, fun silent => absurd silent loud,
        fun high => reports_high high _, fun _ _ _ => rfl⟩

/-- The step lemma: an iteration deals with its entry, or ends the loop behind the last one. -/
theorem Walking.step (wellFormed : image.WellFormed) (searchable : Searchable image)
    (query : Holds 0 search pattern) (small : pattern.length < 2147483648)
    (enough : 1023 * 4096 + 1024 < fuel)
    (walking : Walking image pattern before inode position state) :
    (∃ last, fileBody image search (2 : Fin 8).val fuel state = some (.done last) ∧
        last.ret = 0 ∧ ∃ printed, List.Forall₂ (Answers image pattern) (entries image) printed ∧
          last.session.console = before ++ printed.flatten) ∨
      ∃ next position', fileBody image search (2 : Fin 8).val fuel state = some (.yield next) ∧
        position < position' ∧ Walking image pattern before inode position' next := by
  obtain ⟨ready, ticking, opened, free, inside, fences, printed, answers, output⟩ := walking
  have nonneg := wellFormed.dirCount_nonneg
  obtain ⟨buf, session, read, agree, silent, opened', others⟩ :=
    ece391Read_entry wellFormed.dirCount_le ready opened (by omega) state.buf 32
  rw [fileBody, read]
  simp only [Option.pure_def, Option.bind_eq_bind, Option.bind_some]
  rcases Nat.lt_or_eq_of_le inside with within | rfl
  · right
    have positive := List.length_pos_iff.mpr (searchable.named position within)
    have free' : firstFree session.fda = some 3 := by
      rw [← free]
      refine firstFree_congr fun fd => ?_
      by_cases same : fd = 2
      · rw [same, opened', opened]
      · rw [others fd same]
    have head : (image.direntries position).name.head? = some (buf 0) := by
      rw [agree 0 positive, List.head?_eq_getElem?, List.getElem?_eq_getElem positive]
    have extend {text : List UInt8} {console : List UInt8}
        (answer : Answers image pattern (image.direntries position) text)
        (shown : console = state.session.console ++ text) :
        ∃ printed, List.Forall₂ (Answers image pattern) ((entries image).take (position + 1))
          printed ∧ console = before ++ printed.flatten := by
      refine ⟨printed ++ [text], ?_, ?_⟩
      · rw [take_entries within]
        exact List.rel_append answers (.cons answer .nil)
      · rw [shown, output, List.flatten_append, List.append_assoc]
        simp
    rw [if_neg (by omega), if_neg (by omega)]
    by_cases hidden : 46 = buf 0
    · have answer : Answers image pattern (image.direntries position) [] :=
        ⟨fun _ => rfl, fun _ => rfl, fun visible =>
          absurd (head.trans (congrArg some hidden.symm)) visible⟩
      rw [if_pos hidden]
      exact ⟨_, _, rfl, Nat.lt_succ_self _, silent.ready, silent.ticking ticking, opened', free',
        by omega, fences, extend answer (silent.console.trans (List.append_nil _).symm)⟩
    · have visible : (image.direntries position).name.head? ≠ some 46 := fun dot =>
        hidden (Option.some.inj (dot.symm.trans head))
      have named : Holds 0 (Function.update buf (image.direntries position).name.length 0)
          (image.direntries position).name := by
        refine ⟨(image.direntries position).zero_notMem_name, fun i below => ?_,
          Function.update_self ..⟩
        rw [Function.update_of_ne (Nat.ne_of_lt below)]
        exact agree i below
      obtain ⟨session', text, searched, done, answer⟩ :=
        searchable.doOneFile_entry wellFormed within visible silent.ready
          (silent.ticking ticking) query small named free' (fences 0) enough
      have stays : AtEntry inode (position + 1) (session'.fda 2) := by
        rw [done.others 2 (by decide)]
        exact opened'
      rw [if_neg hidden, Int.toNat_natCast, Stream'.head, searched, Option.bind_some]
      exact ⟨_, _, rfl, Nat.lt_succ_self _, done.ready, done.ticking (silent.ticking ticking),
        stays, done.free, by omega, fun k => fences (k + 1),
        extend answer (done.console.trans (congrArg (· ++ text) silent.console))⟩
  · left
    have empty : ((image.direntries image.dirCount.toNat).name.length : Int) = 0 := by
      rw [searchable.ended]
      rfl
    have whole : (entries image).take image.dirCount.toNat = entries image :=
      List.take_of_length_le (by simp [entries])
    rw [if_pos empty.symm]
    exact ⟨_, rfl, rfl, printed, whole ▸ answers, silent.console.trans output⟩

end

section

variable {image : Image} {locals : Locals} {state state' : ProcessState} {command : Bytes}
variable {name arg : List UInt8} {gap eip : Nat} {loaded : List UInt8} {session : Session}

/-- A program `grep` that is started with a word goes through the entries of the directory in order:
it reports every line of a visible text that holds the word, reports nothing of any file when the
word starts with a byte from 128 on, and returns 0. -/
theorem main_greps (wellFormed : image.WellFormed)
    (holds : Holds 0 command (name ++ List.replicate (gap + 1) 32 ++ arg))
    (small : (name ++ List.replicate (gap + 1) 32 ++ arg).length < 2147483648)
    (word : 32 ∉ arg) (nonempty : arg ≠ []) (short : arg.length < 32)
    (executed : systemExecute image locals state (some command) = .userMode eip loaded state')
    (directory : HasDirectory image) (searchable : Searchable image)
    (fda : session.fda = (state'.pcbs state'.pcbObj).fda) (ticking : session.Ticking)
    {stack : Stream' Bytes} (fences : ∀ k, stack.get k 1024 ≠ 10) (memory search buf : Bytes)
    {fuel : Nat} (enough : 1023 * 4096 + 1024 < fuel) :
    ∃ session' printed, main image (argsMemory state' memory) fuel search buf stack session =
        some (0, session') ∧ List.Forall₂ (Answers image arg) (entries image) printed ∧
      session'.console = session.console ++ printed.flatten := by
  obtain ⟨old, started⟩ := started_fda executed
  have argument := started_argument holds small word short executed memory
  obtain ⟨search', getargs, query⟩ := ece391Getargs_holds argument nonempty
    (by omega : (arg.length : Int) < 1024) (by decide) search
  have free : firstFree session.fda = some 2 := by
    rw [fda, started]
    exact firstFree_initFda old
  obtain ⟨inode, session', opens, silent, fda'⟩ := ece391Open_directory wellFormed.dirCount_le
    (ready_of_initFda (fda.trans started)) directory free
  have opened : AtEntry inode 0 (session'.fda 2) := by
    rw [fda', Function.update_self]
    rfl
  have free' : firstFree session'.fda = some 3 := by
    rw [fda', fda, started]
    rfl
  have bound : image.dirCount.toNat < fuel := by
    have small_ := wellFormed.dirCount_le
    omega
  have initial : Walking image arg session.console inode 0 ⟨buf, stack, session', 0⟩ :=
    ⟨silent.ready, silent.ticking ticking, opened, free', Nat.zero_le _, fences, [], .nil,
      silent.console.trans (List.append_nil _).symm⟩
  obtain ⟨last, ran, ret, printed, answers, output⟩ := loop_reads State.session
    (Walking image arg session.console inode)
    (fun _ _ walking => ⟨congrArg FileDescriptor.filePosition walking.opened, walking.inside⟩)
    (fun _ _ walking => walking.step wellFormed searchable query (by omega) enough) bound
    initial
  refine ⟨last.session, printed, ?_, answers, output⟩
  rw [main, getargs]
  simp only [Option.pure_def, Option.bind_eq_bind, opens, Option.bind_some]
  rw [if_neg (by decide), if_neg (by decide), ran, Option.bind_some, ret]

end

/-- An image with the directory, an executable `grep` and a text `note`. -/
def noteImage : Image where
  dirCount := 3
  inodeCount := 3
  dataCount := 2
  direntries index :=
    let name := [ascii ".", ascii "grep", ascii "note"].getD index []
    ⟨fun i => name.getD i 0, if index = 0 then 1 else 2, index⟩
  inodes inode :=
    ⟨if inode = 0 then 0 else if inode = 1 then 28 else 12, fun _ => if inode = 1 then 0 else 1⟩
  dataBlocks block i :=
    if block = 0 then smallImage.dataBlocks 0 i else (ascii "ab\ncab\nabcab").getD i 0

theorem noteImage_wellFormed : noteImage.WellFormed where
  dirCount_nonneg := by decide
  dirCount_le := by decide
  inodeCount_lt := by decide
  dataCount_lt := by decide
  inodeNum_range i bound := by
    simp only [noteImage] at bound ⊢
    omega
  length_range inode _ := by
    simp only [noteImage]
    split
    · omega
    · split <;> omega
  block_range inode _ index _ := by
    simp only [noteImage]
    split <;> omega

theorem noteImage_searchable : Searchable noteImage where
  named := by decide
  distinct := by decide
  kind := by decide
  ended := by decide

theorem noteImage_note : fileContent noteImage 2 = ascii "ab\ncab\nabcab" := by
  rw [fileContent_eq (by decide)]
  decide

/-- The command `grep ca` finds two lines in the note. -/
theorem main_greps_note :
    ∃ eip loaded state' session' printed, systemExecute noteImage zeroLocals
        (bootState smallLayout) (some (cstring (ascii "grep ca"))) = .userMode eip loaded state' ∧
      main noteImage (argsMemory state' fun _ => 46) 4191233 (fun _ => 0) (fun _ => 0)
        (fun _ _ => 0)
        ⟨(state'.pcbs state'.pcbObj).fda, fun _ => ⟨typedDevices [], ⟨fun _ => 0, 0, 0⟩⟩, []⟩ =
          some (0, session') ∧
      session'.console = printed ++ ascii "note:cab\nnote:abcab\n" := by
  have holds : Holds 0 (cstring (ascii "grep ca"))
      (ascii "grep" ++ List.replicate (0 + 1) 32 ++ ascii "ca") := terminated_holds (by decide)
  have launches : Launches noteImage zeroLocals (bootState smallLayout)
      (ascii "grep" ++ List.replicate (0 + 1) 32 ++ ascii "ca") :=
    ⟨noteImage.direntries 1, readDentryByName_of_first (by decide) (by decide) (by decide)
      (by decide), by decide, by decide, 0, by decide, by decide⟩
  obtain ⟨eip, loaded, state', executed, -⟩ := launches.executed holds (by decide) (by decide)
  have directory : HasDirectory noteImage :=
    ⟨_, ⟨0, by decide, rfl, by decide, fun k below => absurd below (by omega)⟩, rfl⟩
  obtain ⟨session', printed, ran, answers, console⟩ := @main_greps noteImage zeroLocals
    (bootState smallLayout) state' _ (ascii "grep") (ascii "ca") 0 eip loaded
    ⟨(state'.pcbs state'.pcbObj).fda, fun _ => ⟨typedDevices [], ⟨fun _ => 0, 0, 0⟩⟩, []⟩
    noteImage_wellFormed holds (by decide) (by decide) (by decide) (by decide) executed directory
    noteImage_searchable rfl (fun _ => Nat.one_ne_zero) (fun _ _ => 0)
    (fun _ => show (0 : UInt8) ≠ 10 by decide) (fun _ => 46) (fun _ => 0) (fun _ => 0) 4191233
    (by decide)
  have listed : entries noteImage =
      [noteImage.direntries 0, noteImage.direntries 1, noteImage.direntries 2] := rfl
  rw [listed] at answers
  cases answers with
  | cons first rest =>
  cases rest with
  | @cons _ binary _ _ _ rest =>
  cases rest with
  | cons note rest =>
  cases rest
  have hidden := first.silent (by decide)
  have found := note.text (by decide) rfl (by
    change 0 ∉ fileContent noteImage 2
    rw [noteImage_note]
    decide)
  change _ = reports (noteImage.direntries 2).name (ascii "ca") (fileContent noteImage 2) at found
  have text : ascii "ab\ncab\nabcab" =
      ascii "ab" ++ 10 :: (ascii "cab" ++ 10 :: ascii "abcab") := by
    decide
  rw [noteImage_note, text, reports_line (by decide) (by decide), reports_line (by decide)
    (by decide), reports_last (by decide) (by decide)] at found
  refine ⟨eip, loaded, state', session', binary, executed, ran, ?_⟩
  rw [console, hidden, found]
  simp only [List.flatten_cons, List.flatten_nil, List.nil_append, List.append_nil]
  exact congrArg (binary ++ ·) (by decide)

end Ece391.Programs.Grep
