import Ece391.Programs.Support

/-!
# The program `ls`

`ls` reads the directory entry by entry and prints each name on a line.  It stops at an empty
name.  The kernel reports the end of the directory one entry late and then with an error, so
`ls` ends well only where the slot behind the last entry has an empty name.
-/

namespace Ece391.Programs.Ls

open Ece391.Library Ece391.Kernel

/-- The variables of the loop, and what `main` returns behind it. -/
structure State where
  buf : Bytes
  session : Session
  ret : Int

/-- One iteration of the loop of `main`. -/
def body (image : Image) (fd : Int) (state : State) : Option (ForInStep State) := do
  let (cnt, buf, session) ← ece391Read image fd state.buf 32 state.session
  if 0 = cnt then pure (.done ⟨buf, session, 0⟩)
  else if -1 = cnt then
    let session ← ece391Fdputs 1 (cstring (ascii "directory entry read failed\n")) session
    pure (.done ⟨buf, session, 3⟩)
  else
    let buf := Function.update buf cnt.toNat 10
    let (ret, session) ← ece391Write 1 buf (cnt + 1) session
    if -1 = ret then pure (.done ⟨buf, session, 3⟩)
    else pure (.yield ⟨buf, session, state.ret⟩)

/-- `main`. -/
def main (image : Image) (fuel : Nat) (buf : Bytes) (session : Session) :
    Option (Int × Session) := do
  let (fd, session) ← ece391Open image (cstring (ascii ".")) session
  if -1 = fd then
    let session ← ece391Fdputs 1 (cstring (ascii "directory open failed\n")) session
    pure (2, session)
  else
    let last ← loop (body image fd) fuel ⟨buf, session, 0⟩
    pure (last.ret, last.session)

/-- The names that the reads of the directory deliver: those of the entries, and of the slot
behind them. -/
def delivered (image : Image) : List (List UInt8) :=
  (List.range (image.dirCount.toNat + 1)).map fun index => (image.direntries index).name

/-- What `ls` prints of some names: the lines before the first empty one, and its complaint when
there is none. -/
def listing (names : List (List UInt8)) : List UInt8 :=
  (names.takeWhile (· ≠ [])).flatMap (· ++ [10]) ++
    if [] ∈ names then [] else ascii "directory entry read failed\n"

/-- What it returns. -/
def status (names : List (List UInt8)) : Int :=
  if [] ∈ names then 0 else 3

section

variable {image : Image} {inode position : Nat} {fd : Fin 8} {total : List UInt8} {state : State}
variable {name : List UInt8} {names : List (List UInt8)}

theorem listing_cons (nonempty : name ≠ []) :
    listing (name :: names) = name ++ [10] ++ listing names := by
  simp [listing, nonempty, nonempty.symm]

theorem status_cons (nonempty : name ≠ []) : status (name :: names) = status names := by
  simp [status, nonempty.symm]

/-- Names that are not empty are all printed. -/
theorem listing_append {entries : List (List UInt8)} (named : ∀ name ∈ entries, name ≠ []) :
    listing (entries ++ names) = entries.flatMap (· ++ [10]) ++ listing names := by
  induction entries with
  | nil => rfl
  | cons name rest ih =>
      have later : ∀ name ∈ rest, name ≠ [] := fun name member =>
        named name (List.mem_cons_of_mem _ member)
      rw [List.cons_append, listing_cons (named name List.mem_cons_self), ih later,
        List.flatMap_cons, ← List.append_assoc]

theorem drop_delivered (inside : position ≤ image.dirCount.toNat) :
    (delivered image).drop position =
      (image.direntries position).name :: (delivered image).drop (position + 1) := by
  have bound : position < (delivered image).length := by
    simp only [delivered, List.length_map, List.length_range]
    omega
  rw [List.drop_eq_getElem_cons bound]
  simp [delivered]

/-- A loop at some entry of the directory: what it has printed and the names still to be read
make up the output. -/
structure Reading (image : Image) (inode : Nat) (fd : Fin 8) (total : List UInt8)
    (position : Nat) (state : State) : Prop where
  ready : state.session.Ready
  opened : AtEntry inode position (state.session.fda fd)
  inside : position ≤ image.dirCount.toNat + 1
  output : state.session.console ++ listing ((delivered image).drop position) = total
  status : status ((delivered image).drop position) = status (delivered image)

/-- The step lemma: an iteration prints the name of its entry, or ends the loop. -/
theorem Reading.step (wellFormed : image.WellFormed)
    (reading : Reading image inode fd total position state) :
    (∃ last, body image fd.val state = some (.done last) ∧
        last.ret = Ls.status (delivered image) ∧ last.session.console = total) ∨
      ∃ next, body image fd.val state = some (.yield next) ∧
        Reading image inode fd total (position + 1) next := by
  obtain ⟨ready, opened, inside, output, status⟩ := reading
  have nonneg := wellFormed.dirCount_nonneg
  have small := wellFormed.dirCount_le
  rcases Nat.lt_or_eq_of_le inside with before | rfl
  · obtain ⟨buf, session, read, agree, ⟨ready', console, -⟩, opened', -⟩ :=
      ece391Read_entry small ready opened (by omega) state.buf 32
    rw [drop_delivered (by omega)] at output status
    rw [← console] at output
    rw [body, read]
    simp only [Option.pure_def, Option.bind_eq_bind, Option.bind_some]
    by_cases empty : (image.direntries position).name = []
    · left
      rw [empty] at output status ⊢
      refine ⟨_, if_pos rfl, ?_, ?_⟩
      · rw [← status]
        simp [Ls.status]
      · rw [← output]
        simp [listing]
    · right
      have positive := List.length_pos_iff.mpr empty
      have ordinary := (image.direntries position).zero_notMem_name
      have width := (image.direntries position).length_name_le
      generalize (image.direntries position).name = name at *
      have agree' : ∀ i (inside : i < (name ++ [10]).length),
          Function.update buf name.length 10 i = (name ++ [10])[i] := by
        intro i inside
        rcases Nat.lt_or_ge i name.length with lower | upper
        · rw [Function.update_of_ne (Nat.ne_of_lt lower), agree i lower,
            List.getElem_append_left lower]
        · obtain rfl : i = name.length := by
            simp only [List.length_append, List.length_singleton] at inside
            omega
          simp
      obtain ⟨ret, written, success⟩ := ece391Write_prints ready' agree'
      have ordinary : 0 ∉ name ++ [10] := by
        simpa using ordinary
      have text : printedText (name ++ [10]) = name ++ [10] := by
        rw [printedText_ordinary ordinary, if_neg (by simp; omega), List.append_nil]
      rw [listing_cons empty, ← List.append_assoc, ← text] at output
      rw [status_cons empty] at status
      rw [if_neg (by omega), if_neg (by omega), Int.toNat_natCast,
        show (name.length : Int) + 1 = ((name ++ [10]).length : Int) by simp, written]
      simp only [Option.bind_some, if_neg success.symm]
      exact ⟨_, rfl, ready', opened', by omega, output, status⟩
  · left
    have none : (delivered image).drop (image.dirCount.toNat + 1) = [] :=
      List.drop_eq_nil_of_le (by simp [delivered])
    obtain ⟨buf, session, read, ready', console, -⟩ :=
      ece391Read_behind ready opened
        (by omega : image.dirCount < ((image.dirCount.toNat + 1 : Nat) : Int)) (by omega)
        state.buf 32
    have message : Holds 0 (cstring (ascii "directory entry read failed\n"))
      (ascii "directory entry read failed\n") := terminated_holds (by decide)
    rw [none] at output status
    rw [body, read]
    simp only [Option.pure_def, Option.bind_eq_bind, Option.bind_some]
    rw [if_neg (by omega), if_pos trivial, ece391Fdputs_prints ready' message (by decide)]
    refine ⟨_, rfl, ?_, ?_⟩
    · rw [← status]
      rfl
    · rw [← output, console, if_neg (by decide), List.append_nil]
      rfl

/-- The loop lists the directory from its first entry on. -/
theorem loop_lists {session : Session} {fuel : Nat} (wellFormed : image.WellFormed)
    (ready : session.Ready) (opened : AtEntry inode 0 (session.fda fd))
    (enough : image.dirCount.toNat + 1 < fuel) (buf : Bytes) :
    ∃ last, loop (body image fd.val) fuel ⟨buf, session, 0⟩ = some last ∧
      last.ret = status (delivered image) ∧
      last.session.console = session.console ++ listing (delivered image) := by
  exact loop_reads State.session
    (Reading image inode fd (session.console ++ listing (delivered image)))
    (fun _ _ reading => ⟨congrArg FileDescriptor.filePosition reading.opened, reading.inside⟩)
    (fun _ _ reading => (reading.step wellFormed).imp id fun ⟨next, goes, reading'⟩ =>
      ⟨next, _, goes, Nat.lt_succ_self _, reading'⟩)
    enough ⟨ready, opened, Nat.zero_le _, rfl, rfl⟩

/-- A program `ls` prints the names that the reads deliver line by line, up to the first empty one.
Where every entry has a name it prints just those exactly when the slot behind the last entry has
an empty one. -/
theorem main_lists {session : Session} {old : Fda} {fuel : Nat} (wellFormed : image.WellFormed)
    (directory : HasDirectory image) (started : session.fda = initFda old) (buf : Bytes)
    (enough : image.dirCount.toNat + 1 < fuel) :
    ∃ session', main image fuel buf session = some (status (delivered image), session') ∧
      session'.console = session.console ++ listing (delivered image) ∧
      ((∀ i < image.dirCount.toNat, (image.direntries i).name ≠ []) →
        (listing (delivered image) = (List.range image.dirCount.toNat).flatMap
            (fun i => (image.direntries i).name ++ [10]) ↔
          (image.direntries image.dirCount.toNat).name = [])) := by
  have free : firstFree session.fda = some 2 := by
    rw [started]
    exact firstFree_initFda old
  obtain ⟨inode, session', opens, ⟨ready, console, -⟩, fda⟩ := ece391Open_directory
    wellFormed.dirCount_le (ready_of_initFda started) directory free
  have opened : AtEntry inode 0 (session'.fda 2) := by
    rw [fda, Function.update_self]
    rfl
  obtain ⟨last, ran, ret, output⟩ := loop_lists wellFormed ready opened enough buf
  refine ⟨last.session, ?_, console ▸ output, fun named => ?_⟩
  · rw [main]
    simp only [Option.pure_def, Option.bind_eq_bind, opens, Option.bind_some]
    rw [if_neg (by decide), ran, Option.bind_some, ret]
  · have split : delivered image = (List.range image.dirCount.toNat).map
        (fun i => (image.direntries i).name) ++ [(image.direntries image.dirCount.toNat).name] := by
      rw [delivered, List.range_succ, List.map_append, List.map_singleton]
    have entries : ∀ name ∈ (List.range image.dirCount.toNat).map
        (fun i => (image.direntries i).name), name ≠ [] := by
      intro name member
      obtain ⟨i, inside, rfl⟩ := List.mem_map.mp member
      exact named i (List.mem_range.mp inside)
    rw [split, listing_append entries, List.flatMap_map, List.append_right_eq_self]
    by_cases empty : (image.direntries image.dirCount.toNat).name = []
    · simp [listing, empty]
    · rw [listing_cons empty]
      simp [empty]

end

/-- The small image has no slot with an empty name behind its three entries. -/
theorem main_lists_small :
    ∃ session', main smallImage 5 (fun _ => 0)
        ⟨initFda fun _ => ⟨none, 0, 0, 0, 0⟩,
          fun _ => ⟨typedDevices [], ⟨fun _ => 0, 0, 0⟩⟩, []⟩ = some (3, session') ∧
      (smallImage.direntries 1).name ++ [10] <:+: session'.console := by
  have directory : HasDirectory smallImage :=
    ⟨_, ⟨0, by decide, rfl, by decide, fun k below => absurd below (by omega)⟩, rfl⟩
  obtain ⟨session', ran, console, -⟩ := @main_lists smallImage
    ⟨initFda fun _ => ⟨none, 0, 0, 0, 0⟩, fun _ => ⟨typedDevices [], ⟨fun _ => 0, 0, 0⟩⟩, []⟩
    (fun _ => ⟨none, 0, 0, 0, 0⟩) 5 smallImage_wellFormed directory rfl (fun _ => 0) (by decide)
  refine ⟨session', ran, ?_⟩
  rw [console]
  decide

end Ece391.Programs.Ls
