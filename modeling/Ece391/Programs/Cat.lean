import Ece391.Programs.Support

/-!
# The program `cat`

`cat` opens the file that its argument names and copies it to the terminal in pieces of 1024
bytes.  A file without NULs is printed as it is, except that the kernel adds a newline behind a
last piece of 79 bytes.
-/

namespace Ece391.Programs.Cat

open Ece391.Library Ece391.Kernel

/-- The variables of the loop, and what `main` returns behind it. -/
structure State where
  buf : Bytes
  session : Session
  ret : Int

/-- One iteration of the loop of `main`. -/
def body (image : Image) (fd : Int) (state : State) : Option (ForInStep State) := do
  let (cnt, buf, session) ← ece391Read image fd state.buf 1024 state.session
  if cnt = 0 then pure (.done ⟨buf, session, 0⟩)
  else if cnt = -1 then
    let session ← ece391Fdputs 1 (cstring (ascii "file read failed\n")) session
    pure (.done ⟨buf, session, 3⟩)
  else
    let (ret, session) ← ece391Write 1 buf cnt session
    if ret = -1 then pure (.done ⟨buf, session, 3⟩)
    else pure (.yield ⟨buf, session, state.ret⟩)

/-- `main`, where `args` is the memory from the argument in the control block on. -/
def main (image : Image) (args : Bytes) (fuel : Nat) (buf : Bytes) (session : Session) :
    Option (Int × Session) := do
  let (ret, buf) := ece391Getargs args buf 1024
  if 0 ≠ ret then
    let session ← ece391Fdputs 1 (cstring (ascii "could not read arguments\n")) session
    pure (3, session)
  else
    let (fd, session) ← ece391Open image buf session
    if -1 = fd then
      let session ← ece391Fdputs 1 (cstring (ascii "file not found\n")) session
      pure (2, session)
    else
      let last ← loop (body image fd) fuel ⟨buf, session, 0⟩
      pure (last.ret, last.session)

section

variable {image : Image} {inode : Nat} {fd : Fin 8} {total : List UInt8} {state : State}

/-- A loop at some place of a regular file: what it has printed and the pieces still to be read
make up the output. -/
structure Reading (image : Image) (inode : Nat) (fd : Fin 8) (total : List UInt8)
    (position : Nat) (state : State) : Prop where
  ready : state.session.Ready
  opened : ReadyAt inode position (state.session.fda fd)
  inside : position ≤ (fileContent image inode).length
  output : state.session.console ++
    (pieces 1024 ((fileContent image inode).drop position)).flatMap printedText = total

/-- The step lemma: an iteration prints the next piece, or ends the loop behind the last one. -/
theorem Reading.step {position : Nat} (wellFormed : image.WellFormed)
    (exists_ : (inode : Int) < image.inodeCount)
    (reading : Reading image inode fd total position state) :
    (∃ last, body image fd.val state = some (.done last) ∧
        last.ret = 0 ∧ last.session.console = total) ∨
      ∃ next position', body image fd.val state = some (.yield next) ∧ position < position' ∧
        Reading image inode fd total position' next := by
  obtain ⟨chunk, session, served, read, ⟨ready, console, -⟩, opened, -⟩ :=
    ece391Read_file wellFormed exists_ reading.ready reading.opened reading.inside
      (by decide : (0 : Int) < 1024) (by decide) state.buf
  have length := length_serve (fileContent image inode) position 1024
  have output := reading.output
  rw [← console] at output
  rw [body, read]
  simp only [Option.pure_def, Option.bind_eq_bind, Option.bind_some]
  change chunk = serve _ _ 1024 at served
  rcases Nat.lt_or_eq_of_le reading.inside with before | rfl
  · right
    have some_ : (fileContent image inode).drop position ≠ [] := by
      intro none
      have short := List.drop_eq_nil_iff.mp none
      omega
    rw [pieces_of_ne_nil (by decide) some_, List.flatMap_cons, ← List.append_assoc] at output
    change session.console ++ printedText (serve (fileContent image inode) position 1024) ++ _ =
      total at output
    rw [← served, ← drop_add_length_serve, ← served] at output
    obtain ⟨ret, written, success⟩ := @ece391Write_prints session (overwrite state.buf chunk)
      chunk ready fun i inside => by simp [overwrite, inside]
    rw [← served] at length
    rw [if_neg (by omega), if_neg (by omega), written]
    simp only [Option.bind_some, if_neg success]
    exact ⟨_, _, rfl, by omega, ready, opened, by omega, output⟩
  · left
    obtain rfl : chunk = [] := served.trans (serve_of_length_le (Nat.le_refl _) 1024)
    rw [if_pos (by simp)]
    rw [List.drop_length, pieces_nil] at output
    exact ⟨_, rfl, rfl, (List.append_nil _).symm.trans output⟩

/-- The loop prints a regular file piece by piece, from its start to its end. -/
theorem loop_prints {fuel : Nat} {session : Session} (wellFormed : image.WellFormed)
    (exists_ : (inode : Int) < image.inodeCount) (ready : session.Ready)
    (opened : ReadyAt inode 0 (session.fda fd))
    (enough : (fileContent image inode).length < fuel) (buf : Bytes) :
    ∃ last, loop (body image fd.val) fuel ⟨buf, session, 0⟩ = some last ∧ last.ret = 0 ∧
      last.session.console =
        session.console ++ (pieces 1024 (fileContent image inode)).flatMap printedText := by
  exact loop_reads State.session (Reading image inode fd
      (session.console ++ (pieces 1024 (fileContent image inode)).flatMap printedText))
    (fun _ _ reading => ⟨congrArg FileDescriptor.filePosition reading.opened, reading.inside⟩)
    (fun _ _ reading => reading.step wellFormed exists_) enough
    ⟨ready, opened, Nat.zero_le _, rfl⟩

end

section

variable {image : Image} {locals : Locals} {state state' : ProcessState} {command : Bytes}
variable {name arg : List UInt8} {gap eip : Nat} {loaded : List UInt8} {session : Session}

/-- A text is printed as it is, but for the newline behind a last piece of 79 bytes. -/
theorem printed_of_text {content : List UInt8} (ordinary : 0 ∉ content) :
    (pieces 1024 content).flatMap printedText =
      content ++ if content.length % 1024 = 79 then [10] else [] := by
  have text {piece : List UInt8} (inside : piece ⊆ content) :
      printedText piece = piece ++ if piece.length = 79 then [10] else [] :=
    printedText_ordinary fun ended => ordinary (inside ended)
  refine flatMap_pieces (by decide) ?_ _ ?_ ?_
  · intro piece inside length
    rw [text inside, if_neg (by omega), List.append_nil]
  · intro piece inside _ length
    rw [text inside, length]
  · intro even
    rw [if_neg (by omega)]

/-- A program `cat` that is started with the name of a regular file prints the file in pieces of
1024 bytes, and returns 0. -/
theorem main_prints_file {text : List UInt8} (wellFormed : image.WellFormed)
    (holds : Holds 0 command (name ++ List.replicate (gap + 1) 32 ++ arg))
    (small : (name ++ List.replicate (gap + 1) 32 ++ arg).length < 2147483648)
    (word : 32 ∉ arg) (nonempty : arg ≠ [])
    (executed : systemExecute image locals state (some command) = .userMode eip loaded state')
    (file : HasFile image arg text) (fda : session.fda = (state'.pcbs state'.pcbObj).fda)
    (memory buf : Bytes) {fuel : Nat} (enough : text.length < fuel) :
    ∃ session' printed, main image (argsMemory state' memory) fuel buf session =
        some (0, session') ∧ session'.console = session.console ++ printed ∧
      printed = (pieces 1024 text).flatMap printedText ∧
      (0 ∉ text → printed = text ++ if text.length % 1024 = 79 then [10] else []) := by
  obtain ⟨old, started⟩ := started_fda executed
  -- A name of 32 bytes is followed by whatever the control block is followed by.
  have argument := started_field holds small word executed memory
  rw [List.take_of_length_le file.length_le] at argument
  obtain ⟨buf', getargs, query⟩ := ece391Getargs_field argument nonempty
    (by decide : (32 : Int) ≤ 1024) (by decide) buf
  have free : firstFree session.fda = some 2 := by
    rw [fda, started]
    exact firstFree_initFda old
  obtain ⟨inode, session', opens, ⟨ready, console, -⟩, exists_, rfl, fda'⟩ := ece391Open_file
    wellFormed (ready_of_initFda (fda.trans started)) query file free
  have opened : ReadyAt inode 0 (session'.fda 2) := by
    rw [fda', Function.update_self]
    rfl
  obtain ⟨last, ran, ret, output⟩ := loop_prints wellFormed exists_ ready opened enough buf'
  refine ⟨last.session, _, ?_, console ▸ output, rfl, printed_of_text⟩
  rw [main, getargs]
  simp only [Option.pure_def, Option.bind_eq_bind, opens, Option.bind_some]
  rw [if_neg (by decide), if_neg (by decide), ran, Option.bind_some, ret]

end

/-- The third file of the small image, whose name has 32 bytes. -/
theorem smallImage_hasFile : HasFile smallImage longArgument (ascii "hello") := by
  refine ⟨_, ⟨2, by decide, rfl, by decide, by decide⟩, rfl, ?_⟩
  rw [fileContent_eq (by decide)]
  decide

/-- The program of the small image, if it is `cat`, prints the file with the name of 32 bytes,
which nothing ends in the control block. -/
theorem main_prints_hello :
    ∃ eip loaded state' session', systemExecute smallImage zeroLocals (bootState smallLayout)
        (some (cstring (ascii "shell " ++ longArgument))) = .userMode eip loaded state' ∧
      main smallImage (argsMemory state' fun _ => 46) 6 (fun _ => 0)
        ⟨(state'.pcbs state'.pcbObj).fda, fun _ => ⟨typedDevices [], ⟨fun _ => 0, 0, 0⟩⟩, []⟩ =
          some (0, session') ∧
      session'.console = ascii "hello" := by
  have holds : Holds 0 (cstring (ascii "shell " ++ longArgument))
      (ascii "shell" ++ List.replicate (0 + 1) 32 ++ longArgument) := terminated_holds (by decide)
  obtain ⟨eip, loaded, state', executed, -⟩ := smallImage_started holds (by decide) (by decide)
    (by decide)
  obtain ⟨session', printed, ran, console, -, text⟩ := @main_prints_file smallImage zeroLocals
    (bootState smallLayout) state' _ (ascii "shell") longArgument 0 eip loaded
    ⟨(state'.pcbs state'.pcbObj).fda, fun _ => ⟨typedDevices [], ⟨fun _ => 0, 0, 0⟩⟩, []⟩
    (ascii "hello") smallImage_wellFormed holds (by decide) (by decide) (by decide) executed
    smallImage_hasFile rfl (fun _ => 46) (fun _ => 0) 6 (by decide)
  refine ⟨eip, loaded, state', session', executed, ran, ?_⟩
  rw [console, text (by decide)]
  rfl

end Ece391.Programs.Cat
