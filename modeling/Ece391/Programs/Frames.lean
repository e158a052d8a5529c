import Ece391.Library.Lines
import Ece391.Programs.PoolRuns
import Ece391.Programs.Support

/-!
# The frames of `fish`

`add_frames` reads two text files side by side, line by line, and lets each place blink where one of
them has a character: between the two characters there, with a blank where a line has ended.  A file
that has ended before the other one is closed behind each further row.
-/

namespace Ece391.Programs.Fish

open Ece391.Library Ece391.Kernel

/-- A file that is being read: its descriptor, the last character, and whether it has ended. -/
structure Frame where
  fd : Int
  c : UInt8
  eof : Bool

/-- The variables of `add_frames`, and the driver. -/
structure Frames where
  first : Frame
  second : Frame
  row : Nat
  col : Nat
  pool : Pool
  session : Session

/-- The end of a program: its status, and what it leaves. -/
structure Ended where
  status : Int
  pool : Pool
  session : Session

/-- The read of the next character, if the line has not ended. -/
def Frame.advance (image : Image) (frame : Frame) (session : Session) :
    Option (Frame × Session) := do
  if frame.c ≠ 10 then
    let (numBytes, buf, session) ← ece391Read image frame.fd (fun _ => frame.c) 1 session
    if numBytes = 0 then pure ({ frame with c := 10, eof := true }, session)
    else pure ({ frame with c := buf 0 }, session)
  else pure (frame, session)

/-- A newline is shown as a blank. -/
def shownAs (c : UInt8) : UInt8 :=
  if c = 10 then 32 else c

/-- The structure for a place, where `user` held the other fields. -/
def blinkStruct (user : Slot) (row col : Nat) (on off : UInt8) : Slot :=
  { user with
    onChar := on
    offChar := off
    onLength := 15
    offLength := 15
    location := UInt16.ofNat (row * 80 + col + 40) }

/-- One iteration of the loop over the columns. -/
def columnBody (image : Image) (user : Slot) (frames : Frames) : Option (ForInStep Frames) := do
  let (first, session) ← frames.first.advance image frames.session
  let (second, session) ← frames.second.advance image session
  let frames := { frames with first, second, session }
  if first.c = 10 ∧ second.c = 10 then pure (.done frames)
  else
    let pool :=
      if (first.c ≠ 32 ∧ first.c ≠ 10) ∨ (second.c ≠ 32 ∧ second.c ≠ 10) then
        (mp1IoctlAdd (blinkStruct user frames.row frames.col (shownAs first.c) (shownAs second.c))
          frames.pool).2
      else frames.pool
    pure (.yield { frames with pool, col := frames.col + 1 })

/-- What happens to a file behind a row. -/
def Frame.endRow (frame : Frame) (session : Session) : Frame × Session :=
  if frame.eof then ({ frame with c := 10 }, (ece391Close frame.fd session).2)
  else ({ frame with c := 48 }, session)

/-- One iteration of the loop over the rows. -/
def rowBody (image : Image) (user : Slot) (fuel : Nat) (frames : Frames) :
    Option (ForInStep Frames) := do
  if frames.first.eof ∧ frames.second.eof then pure (.done frames)
  else
    let frames ← loop (columnBody image user) fuel { frames with col := 0 }
    let (first, session) := frames.first.endRow frames.session
    let (second, session) := frames.second.endRow session
    pure (.yield { frames with first, second, session, row := frames.row + 1 })

/-- `add_frames`, where the structure on its stack held `user`; it ends the program when a file
cannot be opened. -/
def addFrames (image : Image) (f0 f1 : Bytes) (user : Slot) (fuel : Nat) (pool : Pool)
    (session : Session) : Option (Except Ended (Pool × Session)) := do
  let (fd0, session) ← ece391Open image f0 session
  if fd0 < 0 then pure (.error ⟨-1, pool, session⟩)
  else
    let (fd1, session) ← ece391Open image f1 session
    if fd1 < 0 then pure (.error ⟨-1, pool, session⟩)
    else
      let frames ← loop (rowBody image user fuel) fuel
        ⟨⟨fd0, 48, false⟩, ⟨fd1, 48, false⟩, 0, 0, pool, session⟩
      pure (.ok (frames.pool, frames.session))

/-! ## What it should add -/

/-- The structure for a column of two lines, if one of them has a character there. -/
def cellAt (user : Slot) (row : Nat) (line0 line1 : List UInt8) (col : Nat) : Option Slot :=
  let on := line0.getD col 32
  let off := line1.getD col 32
  if on = 32 ∧ off = 32 then none else some (blinkStruct user row col on off)

/-- The structures for some columns, up to the longer line. -/
def rowCells (user : Slot) (row : Nat) (line0 line1 : List UInt8) (col : Nat) : List Slot :=
  (List.range' col (max line0.length line1.length - col)).filterMap (cellAt user row line0 line1)

/-- The structures for some rows, up to the longer text. -/
def frameCells (user : Slot) (lines0 lines1 : List (List UInt8)) (row : Nat) : List Slot :=
  (List.range' row (max lines0.length lines1.length - row)).flatMap fun row =>
    rowCells user row (lines0.getD row []) (lines1.getD row []) 0

/-- The structures for two texts, in the order of reading. -/
def cells (user : Slot) (text0 text1 : List UInt8) : List Slot :=
  frameCells user (text0.splitOn 10) (text1.splitOn 10) 0

/-- Structures added after one another. -/
def addAll (pool : Pool) (slots : List Slot) : Pool :=
  slots.foldl (fun pool slot => (mp1IoctlAdd slot pool).2) pool

/-! ## One file -/

/-- What calls leave when they print nothing and use some descriptors only. -/
structure Undisturbed (used : List (Fin 8)) (session session' : Session) : Prop where
  ready : session'.Ready
  console : session'.console = session.console
  ticking : session.Ticking → session'.Ticking
  others : ∀ other, other ∉ used → session'.fda other = session.fda other

/-- A file in a row, with the rest of its line and the text behind the newline, if there is one. -/
inductive InRow (image : Image) (inode : Nat) (fd : Fin 8) (fda : Fda) :
    Frame → List UInt8 → Option (List UInt8) → Prop where
  | reading {position : Nat} {c : UInt8} {line : List UInt8} {after : Option (List UInt8)} :
      c ≠ 10 → ReadyAt inode position (fda fd) →
      (fileContent image inode).drop position = line ++ after.elim [] (10 :: ·) →
      position ≤ (fileContent image inode).length → 10 ∉ line →
      InRow image inode fd fda ⟨fd.val, c, false⟩ line after
  | newline {position : Nat} {rest : List UInt8} :
      ReadyAt inode position (fda fd) → (fileContent image inode).drop position = rest →
      position ≤ (fileContent image inode).length →
      InRow image inode fd fda ⟨fd.val, 10, false⟩ [] (some rest)
  | ended : InRow image inode fd fda ⟨fd.val, 10, true⟩ [] none

/-- A file between two rows, with the text that is left unless it has ended. -/
inductive Between (image : Image) (inode : Nat) (fd : Fin 8) (fda : Fda) :
    Frame → Option (List UInt8) → Prop where
  | reading {position : Nat} {rest : List UInt8} :
      ReadyAt inode position (fda fd) → (fileContent image inode).drop position = rest →
      position ≤ (fileContent image inode).length →
      Between image inode fd fda ⟨fd.val, 48, false⟩ (some rest)
  | ended : Between image inode fd fda ⟨fd.val, 10, true⟩ none

/-- The lines that are left. -/
def linesOf (rest : Option (List UInt8)) : List (List UInt8) :=
  rest.elim [] (List.splitOn 10)

section

variable {image : Image} {inode : Nat} {fd : Fin 8} {fda fda' : Fda} {frame : Frame}
variable {line : List UInt8} {after rest : Option (List UInt8)} {session session' : Session}
variable {used : List (Fin 8)}

theorem Undisturbed.refl (ready : session.Ready) : Undisturbed used session session :=
  ⟨ready, rfl, id, fun _ _ => rfl⟩

theorem Undisturbed.trans {session'' : Session} (first : Undisturbed used session session')
    (second : Undisturbed used session' session'') : Undisturbed used session session'' where
  ready := second.ready
  console := second.console.trans first.console
  ticking ticking := second.ticking (first.ticking ticking)
  others other away := (second.others other away).trans (first.others other away)

theorem Undisturbed.mono {more : List (Fin 8)} (kept : Undisturbed used session session')
    (inside : used ⊆ more) : Undisturbed more session session' :=
  { kept with others := fun other away => kept.others other fun listed => away (inside listed) }

/-- A call that prints nothing and uses one descriptor. -/
theorem Undisturbed.of_silent (silent : Silent session session') (listed : fd ∈ used)
    (others : ∀ other, other ≠ fd → session'.fda other = session.fda other) :
    Undisturbed used session session' where
  ready := silent.ready
  console := silent.console
  ticking := silent.ticking
  others other away := others other fun same => away (same ▸ listed)

theorem InRow.congr (inRow : InRow image inode fd fda frame line after)
    (same : fda' fd = fda fd) : InRow image inode fd fda' frame line after := by
  cases inRow with
  | reading ordinary opened text inside line =>
      exact .reading ordinary (same ▸ opened) text inside line
  | newline opened text inside => exact .newline (same ▸ opened) text inside
  | ended => exact .ended

theorem Between.congr (between : Between image inode fd fda frame rest)
    (same : fda' fd = fda fd) : Between image inode fd fda' frame rest := by
  cases between with
  | reading opened text inside => exact .reading (same ▸ opened) text inside
  | ended => exact .ended

/-- A row takes the first line that is left. -/
theorem Between.enter (between : Between image inode fd fda frame rest) :
    ∃ after, InRow image inode fd fda frame ((linesOf rest).headD []) after ∧
      linesOf after = (linesOf rest).tail ∧
      ((linesOf rest).headD []).length ≤ (fileContent image inode).length := by
  cases between with
  | ended => exact ⟨none, .ended, rfl, Nat.zero_le _⟩
  | @reading position text opened same inside =>
      have short : text.length ≤ (fileContent image inode).length := by
        rw [← same, List.length_drop]
        omega
      rcases splitOn_cases 10 text with ⟨last, whole⟩ | ⟨line, rest, rfl, ordinary, whole⟩
      · refine ⟨none, ?_, ?_, ?_⟩ <;> simp only [linesOf, Option.elim, whole, List.headD_cons]
        · exact .reading (by decide) opened (by simpa using same) inside last
        · rfl
        · exact short
      · refine ⟨some rest, ?_, ?_, ?_⟩ <;> simp only [linesOf, Option.elim, whole, List.headD_cons]
        · exact .reading (by decide) opened same inside ordinary
        · rfl
        · rw [List.length_append] at short
          omega

/-- The next character is that of the line, or a newline behind it. -/
theorem InRow.advance (wellFormed : image.WellFormed) (exists_ : (inode : Int) < image.inodeCount)
    (ready : session.Ready) (listed : fd ∈ used)
    (inRow : InRow image inode fd session.fda frame line after) :
    ∃ frame' session', frame.advance image session = some (frame', session') ∧
      frame'.c = line.headD 10 ∧ InRow image inode fd session'.fda frame' line.tail after ∧
      Undisturbed used session session' := by
  cases inRow with
  | newline opened text inside =>
      exact ⟨_, session, rfl, rfl, .newline opened text inside, .refl ready⟩
  | ended => exact ⟨_, session, rfl, rfl, .ended, .refl ready⟩
  | @reading position c line after ordinary opened text inside line_ =>
      obtain ⟨chunk, session', served, read, silent, opened', others⟩ := ece391Read_file wellFormed
        exists_ ready opened inside (by decide : (0 : Int) < 1) (by decide) fun _ => c
      have kept : Undisturbed used session session' := .of_silent silent listed others
      have length := length_serve (fileContent image inode) position 1
      have behind := drop_add_length_serve (fileContent image inode) position 1
      change chunk = serve _ _ 1 at served
      rw [← served] at length behind
      rw [text] at behind
      rw [serve, text] at served
      simp only [Frame.advance, ne_eq, ordinary, not_false_eq_true, if_true, read,
        Option.bind_eq_bind, Option.bind_some, Option.pure_def]
      cases line with
      | cons symbol line =>
          obtain rfl : chunk = [symbol] := served
          rw [if_neg (by simp)]
          refine ⟨_, session', rfl, rfl, .reading ?_ opened' behind (by omega) ?_, kept⟩
          · exact fun newline => line_ (newline ▸ List.mem_cons_self)
          · exact fun newline => line_ (List.mem_cons_of_mem _ newline)
      | nil =>
          cases after with
          | none =>
              obtain rfl : chunk = [] := served
              rw [if_pos (by simp)]
              exact ⟨_, session', rfl, rfl, .ended, kept⟩
          | some rest =>
              obtain rfl : chunk = [10] := served
              rw [if_neg (by simp)]
              exact ⟨_, session', rfl, rfl, .newline opened' behind (by omega), kept⟩

/-- A close of any ordinary descriptor prints nothing. -/
theorem ece391Close_undisturbed (ready : session.Ready) (ordinary : 2 ≤ fd.val)
    (listed : fd ∈ used) : Undisturbed used session (ece391Close fd.val session).2 := by
  by_cases closed : (session.fda fd).flags = 0
  · have range : ¬((fd.val : Int) < 2 ∨ (fd.val : Int) > 7) := by omega
    have refuses : systemClose session.found.head.devices session.fda fd.val =
        refused session.fda session.found.head.devices := by
      simp only [systemClose, dif_neg range, Int.toNat_natCast, Fin.eta]
      exact if_pos closed
    rw [ece391Close, refuses]
    exact ⟨ready, List.append_nil _, fun ticking k => ticking (k + 1), fun _ _ => rfl⟩
  · obtain ⟨session', closes, silent, -, others⟩ := ece391Close_open ready ordinary closed
    rw [closes]
    exact .of_silent silent listed others

/-- Behind a row the next line can be read. -/
theorem InRow.leave (ready : session.Ready) (ordinary : 2 ≤ fd.val) (listed : fd ∈ used)
    (inRow : InRow image inode fd session.fda frame [] after) (stopped : frame.c = 10) :
    Between image inode fd (frame.endRow session).2.fda (frame.endRow session).1 after ∧
      Undisturbed used session (frame.endRow session).2 := by
  cases inRow with
  | reading ordinary => exact absurd stopped ordinary
  | newline opened text inside => exact ⟨.reading opened text inside, .refl ready⟩
  | ended => exact ⟨.ended, ece391Close_undisturbed ready ordinary listed⟩

end

/-! ## The loops -/

theorem addAll_append (pool : Pool) (slots slots' : List Slot) :
    addAll pool (slots ++ slots') = addAll (addAll pool slots) slots' :=
  List.foldl_append

section

variable {user : Slot} {row col : Nat} {line line0 line1 : List UInt8}
variable {lines0 lines1 : List (List UInt8)}

/-- The character that is read at a column is shown as the one of the line there. -/
theorem shownAs_headD (ordinary : 10 ∉ line) (col : Nat) :
    shownAs ((line.drop col).headD 10) = line.getD col 32 := by
  rw [List.headD_eq_head?_getD, List.head?_drop, List.getD_eq_getElem?_getD]
  cases found : (line)[col]? with
  | none => rfl
  | some symbol =>
      have other : symbol ≠ 10 := fun newline =>
        ordinary (newline ▸ List.mem_of_getElem? found)
      exact if_neg other

theorem shownAs_ne_blank_iff (c : UInt8) : c ≠ 32 ∧ c ≠ 10 ↔ shownAs c ≠ 32 := by
  rw [shownAs]
  split
  next newline => simp [newline]
  next ordinary => simp [ordinary]

/-- The character is a newline behind the end of the line only. -/
theorem headD_drop_eq_newline_iff (ordinary : 10 ∉ line) (col : Nat) :
    (line.drop col).headD 10 = 10 ↔ line.length ≤ col := by
  rw [← List.drop_eq_nil_iff]
  cases rest : line.drop col with
  | nil => simp
  | cons symbol more =>
      have member : symbol ∈ line := List.mem_of_mem_drop (rest ▸ List.mem_cons_self)
      have other : symbol ≠ 10 := fun newline => ordinary (newline ▸ member)
      simp [other]

theorem rowCells_cons (inside : col < max line0.length line1.length) :
    rowCells user row line0 line1 col =
      (cellAt user row line0 line1 col).toList ++ rowCells user row line0 line1 (col + 1) := by
  obtain ⟨count, more⟩ := Nat.exists_eq_add_of_lt inside
  have here : max line0.length line1.length - col = count + 1 := by omega
  have next : max line0.length line1.length - (col + 1) = count := by omega
  rw [rowCells, rowCells, here, next, List.range'_succ, List.filterMap_cons]
  cases cellAt user row line0 line1 col <;> rfl

theorem rowCells_nil (behind : max line0.length line1.length ≤ col) :
    rowCells user row line0 line1 col = [] := by
  rw [rowCells, Nat.sub_eq_zero_of_le behind]
  rfl

theorem frameCells_cons (inside : row < max lines0.length lines1.length) :
    frameCells user lines0 lines1 row =
      rowCells user row (lines0.getD row []) (lines1.getD row []) 0 ++
        frameCells user lines0 lines1 (row + 1) := by
  obtain ⟨count, more⟩ := Nat.exists_eq_add_of_lt inside
  have here : max lines0.length lines1.length - row = count + 1 := by omega
  have next : max lines0.length lines1.length - (row + 1) = count := by omega
  rw [frameCells, frameCells, here, next, List.range'_succ, List.flatMap_cons]

theorem frameCells_nil (behind : max lines0.length lines1.length ≤ row) :
    frameCells user lines0 lines1 row = [] := by
  rw [frameCells, Nat.sub_eq_zero_of_le behind]
  rfl

end

section

variable {image : Image} {inode0 inode1 : Nat} {fd0 fd1 : Fin 8} {user : Slot} {session : Session}
variable {line0 line1 : List UInt8} {after0 after1 : Option (List UInt8)} {pool : Pool}
variable {frames : Frames} {fuel row : Nat}

/-- The loop over the columns at some column: what is still to be added leads to the same pool. -/
structure Columns (image : Image) (inode0 inode1 : Nat) (fd0 fd1 : Fin 8) (user : Slot)
    (line0 line1 : List UInt8) (after0 after1 : Option (List UInt8)) (pool : Pool)
    (session : Session) (row : Nat) (frames : Frames) : Prop where
  first : InRow image inode0 fd0 frames.session.fda frames.first (line0.drop frames.col) after0
  second : InRow image inode1 fd1 frames.session.fda frames.second (line1.drop frames.col) after1
  kept : Undisturbed [fd0, fd1] session frames.session
  atRow : frames.row = row
  adds : addAll frames.pool (rowCells user row line0 line1 frames.col) = pool

/-- Behind the last column. -/
structure RowEnd (image : Image) (inode0 inode1 : Nat) (fd0 fd1 : Fin 8)
    (after0 after1 : Option (List UInt8)) (pool : Pool) (session : Session) (row : Nat)
    (frames : Frames) : Prop where
  first : InRow image inode0 fd0 frames.session.fda frames.first [] after0
  firstStopped : frames.first.c = 10
  second : InRow image inode1 fd1 frames.session.fda frames.second [] after1
  secondStopped : frames.second.c = 10
  kept : Undisturbed [fd0, fd1] session frames.session
  atRow : frames.row = row
  adds : frames.pool = pool

/-- The step lemma: an iteration adds the structure for its column, or ends the loop. -/
theorem Columns.step (wellFormed : image.WellFormed)
    (exists0 : (inode0 : Int) < image.inodeCount) (exists1 : (inode1 : Int) < image.inodeCount)
    (apart : fd0 ≠ fd1) (ordinary0 : 10 ∉ line0) (ordinary1 : 10 ∉ line1)
    (columns : Columns image inode0 inode1 fd0 fd1 user line0 line1 after0 after1 pool session row
      frames) :
    (∃ last, columnBody image user frames = some (.done last) ∧
        RowEnd image inode0 inode1 fd0 fd1 after0 after1 pool session row last) ∨
      ∃ next, columnBody image user frames = some (.yield next) ∧
        Columns image inode0 inode1 fd0 fd1 user line0 line1 after0 after1 pool session row next ∧
        frames.col < max line0.length line1.length ∧ next.col = frames.col + 1 := by
  obtain ⟨first, second, kept, rfl, adds⟩ := columns
  obtain ⟨frame0, session0, advanced0, c0, first, kept0⟩ := first.advance wellFormed exists0
    kept.ready (List.mem_singleton_self fd0)
  obtain ⟨frame1, session1, advanced1, c1, second, kept1⟩ := @InRow.advance image inode1 fd1
    frames.second _ after1 session0 [fd1] wellFormed exists1 kept0.ready (List.mem_singleton_self _)
    (second.congr (kept0.others fd1 (by simpa using apart.symm)))
  have first := first.congr (kept1.others fd0 (by simpa using apart))
  have kept : Undisturbed [fd0, fd1] session session1 :=
    (kept.trans (kept0.mono (by simp))).trans (kept1.mono (by simp))
  rw [columnBody, advanced0]
  simp only [Option.bind_eq_bind, Option.bind_some, advanced1, Option.pure_def]
  rw [List.tail_drop] at first second
  have stops : frame0.c = 10 ∧ frame1.c = 10 ↔
      line0.length ≤ frames.col ∧ line1.length ≤ frames.col := by
    rw [c0, c1, headD_drop_eq_newline_iff ordinary0, headD_drop_eq_newline_iff ordinary1]
  by_cases stopped : frame0.c = 10 ∧ frame1.c = 10
  · left
    obtain ⟨behind0, behind1⟩ := stops.mp stopped
    rw [if_pos stopped]
    refine ⟨_, rfl, ?_, stopped.1, ?_, stopped.2, kept, rfl, ?_⟩
    · rwa [List.drop_eq_nil_of_le (by omega)] at first
    · rwa [List.drop_eq_nil_of_le (by omega)] at second
    · rwa [rowCells_nil (Nat.max_le.mpr ⟨behind0, behind1⟩)] at adds
  · right
    have inside : frames.col < max line0.length line1.length :=
      Nat.lt_of_not_le fun behind => stopped (stops.mpr (Nat.max_le.mp behind))
    rw [if_neg stopped]
    refine ⟨_, rfl, ⟨first, second, kept, rfl, ?_⟩, inside, rfl⟩
    rw [rowCells_cons inside, addAll_append] at adds
    rw [← adds]
    congr 1
    simp only [c0, c1, shownAs_ne_blank_iff, shownAs_headD ordinary0, shownAs_headD ordinary1,
      cellAt]
    by_cases blank : line0.getD frames.col 32 = 32 ∧ line1.getD frames.col 32 = 32
    · rw [if_neg (by simp only [blank, ne_eq, not_true_eq_false, or_self, not_false_eq_true]),
        if_pos blank]
      rfl
    · rw [if_pos (not_and_or.mp blank), if_neg blank]
      rfl

/-- A row is read to its end. -/
theorem columns_run (wellFormed : image.WellFormed)
    (exists0 : (inode0 : Int) < image.inodeCount) (exists1 : (inode1 : Int) < image.inodeCount)
    (apart : fd0 ≠ fd1) (ordinary0 : 10 ∉ line0) (ordinary1 : 10 ∉ line1)
    (enough : max line0.length line1.length < fuel)
    (columns : Columns image inode0 inode1 fd0 fd1 user line0 line1 after0 after1 pool session row
      frames) :
    ∃ last, loop (columnBody image user) fuel frames = some last ∧
      RowEnd image inode0 inode1 fd0 fd1 after0 after1 pool session row last := by
  refine @loop_total _ (columnBody image user) fuel frames
    (Columns image inode0 inode1 fd0 fd1 user line0 line1 after0 after1 pool session row)
    (RowEnd image inode0 inode1 fd0 fd1 after0 after1 pool session row)
    (fun frames => max line0.length line1.length - frames.col) ?_
    (Nat.lt_of_le_of_lt (Nat.sub_le ..) enough) columns
  intro frames columns
  rcases columns.step wellFormed exists0 exists1 apart ordinary0 ordinary1 with ended |
    ⟨next, goes, columns', inside, advanced⟩
  · exact .inl ended
  · exact .inr ⟨next, goes, columns', by omega⟩

/-- The loop over the rows at some row. -/
structure Rows (image : Image) (inode0 inode1 : Nat) (fd0 fd1 : Fin 8) (user : Slot)
    (lines0 lines1 : List (List UInt8)) (pool : Pool) (session : Session) (frames : Frames) :
    Prop where
  first : ∃ rest, Between image inode0 fd0 frames.session.fda frames.first rest ∧
    linesOf rest = lines0.drop frames.row
  second : ∃ rest, Between image inode1 fd1 frames.session.fda frames.second rest ∧
    linesOf rest = lines1.drop frames.row
  kept : Undisturbed [fd0, fd1] session frames.session
  adds : addAll frames.pool (frameCells user lines0 lines1 frames.row) = pool

/-- A file has ended exactly behind its last line. -/
theorem Between.eof_iff {inode : Nat} {fd : Fin 8} {fda : Fda} {frame : Frame}
    {rest : Option (List UInt8)} {lines : List (List UInt8)}
    (between : Between image inode fd fda frame rest) (same : linesOf rest = lines.drop row) :
    frame.eof = true ↔ lines.length ≤ row := by
  rw [← List.drop_eq_nil_iff, ← same]
  cases between with
  | reading => simp [linesOf]
  | ended => simp [linesOf]

/-- The step lemma: an iteration adds the structures for its row, or ends the loop. -/
theorem Rows.step {lines0 lines1 : List (List UInt8)} (wellFormed : image.WellFormed)
    (exists0 : (inode0 : Int) < image.inodeCount) (exists1 : (inode1 : Int) < image.inodeCount)
    (ordinary0 : 2 ≤ fd0.val) (ordinary1 : 2 ≤ fd1.val) (apart : fd0 ≠ fd1)
    (lines0_ : ∀ line ∈ lines0, 10 ∉ line) (lines1_ : ∀ line ∈ lines1, 10 ∉ line)
    (enough0 : (fileContent image inode0).length < fuel)
    (enough1 : (fileContent image inode1).length < fuel)
    (rows : Rows image inode0 inode1 fd0 fd1 user lines0 lines1 pool session frames) :
    (∃ last, rowBody image user fuel frames = some (.done last) ∧
        Undisturbed [fd0, fd1] session last.session ∧ last.pool = pool) ∨
      ∃ next, rowBody image user fuel frames = some (.yield next) ∧
        Rows image inode0 inode1 fd0 fd1 user lines0 lines1 pool session next ∧
        frames.row < max lines0.length lines1.length ∧ next.row = frames.row + 1 := by
  obtain ⟨⟨rest0, between0, same0⟩, ⟨rest1, between1, same1⟩, kept, adds⟩ := rows
  have stops : frames.first.eof ∧ frames.second.eof ↔
      max lines0.length lines1.length ≤ frames.row := by
    rw [between0.eof_iff same0, between1.eof_iff same1, Nat.max_le]
  by_cases stopped : frames.first.eof ∧ frames.second.eof
  · left
    refine ⟨frames, if_pos stopped, kept, ?_⟩
    rwa [frameCells_nil (stops.mp stopped)] at adds
  · right
    have inside : frames.row < max lines0.length lines1.length :=
      Nat.lt_of_not_le fun behind => stopped (stops.mpr behind)
    have heads (lines : List (List UInt8)) :
        (lines.drop frames.row).headD [] = lines.getD frames.row [] := by
      rw [List.headD_eq_head?_getD, List.head?_drop, List.getD_eq_getElem?_getD]
    have plain {lines : List (List UInt8)} (lines_ : ∀ line ∈ lines, 10 ∉ line) :
        10 ∉ lines.getD frames.row [] := by
      rw [List.getD_eq_getElem?_getD]
      cases found : lines[frames.row]? with
      | none => exact List.not_mem_nil
      | some line => exact lines_ line (List.mem_of_getElem? found)
    obtain ⟨after0, row0, later0, short0⟩ := between0.enter
    obtain ⟨after1, row1, later1, short1⟩ := between1.enter
    rw [same0, heads] at row0 short0
    rw [same1, heads] at row1 short1
    rw [frameCells_cons inside, addAll_append] at adds
    obtain ⟨last, ran, row0, stopped0, row1, stopped1, kept', atRow, added⟩ :=
      @columns_run image inode0 inode1 fd0 fd1 user session (lines0.getD frames.row [])
        (lines1.getD frames.row []) after0 after1 _ { frames with col := 0 } fuel frames.row
        wellFormed exists0 exists1 apart (plain lines0_) (plain lines1_) (by omega)
        ⟨row0, row1, kept, rfl, rfl⟩
    obtain ⟨between0, closed0⟩ := row0.leave kept'.ready ordinary0 (List.mem_singleton_self fd0)
      stopped0
    obtain ⟨between1, closed1⟩ := @InRow.leave image inode1 fd1 last.second after1 _ [fd1]
      closed0.ready ordinary1 (List.mem_singleton_self _)
      (row1.congr (closed0.others fd1 (by simpa using apart.symm))) stopped1
    have between0 := between0.congr (closed1.others fd0 (by simpa using apart))
    let ended0 := last.first.endRow last.session
    let ended1 := last.second.endRow ended0.2
    refine ⟨⟨ended0.1, ended1.1, last.row + 1, last.col, last.pool, ended1.2⟩, ?_,
      ⟨⟨after0, between0, ?_⟩, ⟨after1, between1, ?_⟩, ?_, ?_⟩, inside, ?_⟩
    · rw [rowBody, if_neg stopped, ran]
      rfl
    · rw [later0, same0, List.tail_drop, atRow]
    · rw [later1, same1, List.tail_drop, atRow]
    · exact (kept'.trans (closed0.mono (by simp))).trans (closed1.mono (by simp))
    · rw [atRow, added]
      exact adds
    · exact congrArg (· + 1) atRow

/-- The two files are read to their ends. -/
theorem rows_run {lines0 lines1 : List (List UInt8)} (wellFormed : image.WellFormed)
    (exists0 : (inode0 : Int) < image.inodeCount) (exists1 : (inode1 : Int) < image.inodeCount)
    (ordinary0 : 2 ≤ fd0.val) (ordinary1 : 2 ≤ fd1.val) (apart : fd0 ≠ fd1)
    (lines0_ : ∀ line ∈ lines0, 10 ∉ line) (lines1_ : ∀ line ∈ lines1, 10 ∉ line)
    (enough0 : (fileContent image inode0).length < fuel)
    (enough1 : (fileContent image inode1).length < fuel)
    (enough : max lines0.length lines1.length < fuel)
    (rows : Rows image inode0 inode1 fd0 fd1 user lines0 lines1 pool session frames) :
    ∃ last, loop (rowBody image user fuel) fuel frames = some last ∧
      Undisturbed [fd0, fd1] session last.session ∧ last.pool = pool := by
  refine @loop_total _ (rowBody image user fuel) fuel frames
    (Rows image inode0 inode1 fd0 fd1 user lines0 lines1 pool session) _
    (fun frames => max lines0.length lines1.length - frames.row) ?_
    (Nat.lt_of_le_of_lt (Nat.sub_le ..) enough) rows
  intro frames rows
  rcases rows.step wellFormed exists0 exists1 ordinary0 ordinary1 apart lines0_ lines1_ enough0
    enough1 with ended | ⟨next, goes, rows', inside, advanced⟩
  · exact .inl ended
  · exact .inr ⟨next, goes, rows', by omega⟩

/-- A file that has just been opened. -/
theorem Between.opened {inode : Nat} {fd : Fin 8} {fda : Fda}
    (opened : fda fd = ⟨some .files, inode, 0, 1, 2⟩) :
    Between image inode fd fda ⟨fd.val, 48, false⟩ (some (fileContent image inode)) := by
  refine @Between.reading image inode fd fda 0 _ ?_ (List.drop_zero ..) (Nat.zero_le _)
  rw [opened]
  rfl

/-- `add_frames` adds the structures for the two texts in the order of reading, and uses no other
descriptors than the two it opens. -/
theorem addFrames_adds {f0 f1 : Bytes} {name0 name1 text0 text1 : List UInt8}
    (wellFormed : image.WellFormed) (ready : session.Ready)
    (query0 : Library.Holds 0 f0 name0) (file0 : HasFile image name0 text0)
    (query1 : Library.Holds 0 f1 name1) (file1 : HasFile image name1 text1)
    (free0 : firstFree session.fda = some fd0)
    (free1 : ∀ inode, firstFree (Function.update session.fda fd0 ⟨some .files, inode, 0, 1, 2⟩) =
      some fd1)
    (enough0 : text0.length + 1 < fuel) (enough1 : text1.length + 1 < fuel) :
    ∃ session', addFrames image f0 f1 user fuel pool session =
        some (.ok (addAll pool (cells user text0 text1), session')) ∧
      Undisturbed [fd0, fd1] session session' := by
  obtain ⟨inode0, session0, opens0, silent0, exists0, rfl, fda0⟩ :=
    ece391Open_file wellFormed ready (file0.query query0) file0 free0
  obtain ⟨inode1, session1, opens1, silent1, exists1, rfl, fda1⟩ :=
    ece391Open_file wellFormed silent0.ready (file1.query query1) file1 (fda0 ▸ free1 inode0)
  have apart : fd0 ≠ fd1 := by
    rintro rfl
    have flags := (firstFree_some (free1 inode0)).2.1
    rw [Function.update_self] at flags
    exact absurd flags Nat.one_ne_zero
  have opened : Undisturbed [fd0, fd1] session session1 := by
    refine (@Undisturbed.of_silent fd0 _ _ _ silent0 (by simp) ?_).trans
      (@Undisturbed.of_silent fd1 _ _ _ silent1 (by simp) ?_)
    · exact fun other different => fda0 ▸ Function.update_of_ne different ..
    · exact fun other different => fda1 ▸ Function.update_of_ne different ..
  have reading0 := @Between.opened image inode0 fd0 session1.fda
    (by rw [fda1, Function.update_of_ne apart, fda0, Function.update_self])
  have reading1 := @Between.opened image inode1 fd1 session1.fda
    (by rw [fda1, Function.update_self])
  have lines0 := length_splitOn_le 10 (fileContent image inode0)
  have lines1 := length_splitOn_le 10 (fileContent image inode1)
  obtain ⟨last, ran, kept, added⟩ := @rows_run image inode0 inode1 fd0 fd1 user session
    (addAll pool (cells user (fileContent image inode0) (fileContent image inode1)))
    ⟨⟨fd0.val, 48, false⟩, ⟨fd1.val, 48, false⟩, 0, 0, pool, session1⟩ fuel
    ((fileContent image inode0).splitOn 10) ((fileContent image inode1).splitOn 10) wellFormed
    exists0 exists1 (firstFree_some free0).1 (firstFree_some (free1 inode0)).1 apart
    (notMem_of_mem_splitOn 10 _) (notMem_of_mem_splitOn 10 _) (by omega) (by omega) (by omega)
    ⟨⟨_, reading0, rfl⟩, ⟨_, reading1, rfl⟩, opened, rfl⟩
  refine ⟨last.session, ?_, kept⟩
  rw [addFrames, opens0]
  simp only [Option.bind_eq_bind, Option.bind_some, opens1, Option.pure_def]
  rw [if_neg (by omega), if_neg (by omega), ran, Option.bind_some, added]

end

end Ece391.Programs.Fish
