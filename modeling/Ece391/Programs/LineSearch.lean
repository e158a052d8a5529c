import Ece391.Library.Lines
import Ece391.Programs.Support

/-!
# Searching one file

`do_one_file` of `grep` reads a file through a buffer of 1024 bytes.  Each line in the buffer is
searched in turn, and an unfinished last line is moved down to the start of the buffer before the
next read.  Every line of a text is found, cut at 1024 bytes.  In a file with NULs the move loses
bytes, but the search still ends and frees its descriptor.  A pattern that starts with a byte from
128 on is found in no file.
-/

namespace Ece391.Programs.Grep

open Ece391.Library Ece391.Kernel

/-- The variables of `do_one_file`, with the memory from `data` on, and whether a read has
failed. -/
structure Scan where
  data : Bytes
  last : Nat
  lineStart : Nat
  session : Session
  failed : Bool

/-- The loop that looks for the end of a line. -/
def lineEnd (data : Bytes) : (remaining i : Nat) → Nat
  | 0, i => i
  | remaining + 1, i => if 10 ≠ data i then lineEnd data remaining (i + 1) else i

/-- The loop over `check`, up to the first match.  The first character of `s` is signed. -/
def searchLine (s data : Bytes) (sLen : Int) : (remaining check : Nat) → Bool
  | 0, _ => false
  | remaining + 1, check =>
      if (s 0).toInt8.toInt = (data check).toNat ∧
          0 = ece391Strncmp (fun i => data (check + i)) s (uint32 sLen) then true
      else searchLine s data sLen remaining (check + 1)

/-- What is printed of a line that matches. -/
def putLine (fname line : Bytes) (session : Session) : Option Session := do
  let session ← ece391Fdputs 1 fname session
  let session ← ece391Fdputs 1 (cstring (ascii ":")) session
  let session ← ece391Fdputs 1 line session
  ece391Fdputs 1 (cstring (ascii "\n")) session

/-- The search of the line up to `stop`, where `data` holds a NUL. -/
def putMatch (s fname data : Bytes) (sLen : Int) (lineStart stop : Nat) (session : Session) :
    Option Session :=
  if searchLine s data sLen (stop - lineStart) lineStart then
    putLine fname (fun i => data (lineStart + i)) session
  else some session

/-- One iteration of the loop over the lines in the buffer. -/
def lineBody (s fname : Bytes) (sLen cnt : Int) (scan : Scan) : Option (ForInStep Scan) := do
  let stop := lineEnd scan.data (scan.last - scan.lineStart) scan.lineStart
  if 10 ≠ scan.data stop ∧ 0 ≠ cnt ∧ scan.lineStart ≠ 0 then
    let data := ece391Strcpy (Function.update scan.data stop 0) 0 scan.lineStart
    pure (.done { scan with data, last := scan.last - scan.lineStart })
  else
    let data := Function.update scan.data stop 0
    let session ← putMatch s fname data sLen scan.lineStart stop scan.session
    if stop + 1 ≥ scan.last then
      pure (.done { scan with data, last := 0, lineStart := stop + 1, session })
    else pure (.yield { scan with data, lineStart := stop + 1, session })

/-- One iteration of the loop over the reads. -/
def readBody (image : Image) (s fname : Bytes) (sLen fd : Int) (fuel : Nat) (scan : Scan) :
    Option (ForInStep Scan) := do
  let (cnt, tail, session) ←
    ece391Read image fd (fun i => scan.data (scan.last + i)) (1024 - scan.last) scan.session
  let data : Bytes := fun i => if i < scan.last then scan.data i else tail (i - scan.last)
  if -1 = cnt then
    let session ← ece391Fdputs 1 (cstring (ascii "file read failed\n")) session
    pure (.done { scan with data, session, failed := true })
  else
    let scan ← loop (lineBody s fname sLen cnt) fuel
      { scan with data, last := scan.last + cnt.toNat, lineStart := 0, session }
    if 0 = cnt then pure (.done scan) else pure (.yield scan)

/-- `do_one_file`, given what its buffer held before. -/
def doOneFile (image : Image) (s fname : Bytes) (fuel : Nat) (data : Bytes) (session : Session) :
    Option (Int × Session) := do
  let sLen := int32 (ece391Strlen s)
  let (fd, session) ← ece391Open image fname session
  if -1 = fd then
    let session ← ece391Fdputs 1 (cstring (ascii "file open failed\n")) session
    pure (-1, session)
  else
    let scan ← loop (readBody image s fname sLen fd fuel) fuel ⟨data, 0, 0, session, false⟩
    if scan.failed then pure (-1, scan.session)
    else
      let (ret, session) := ece391Close fd scan.session
      if -1 = ret then
        let session ← ece391Fdputs 1 (cstring (ascii "file close failed\n")) session
        pure (-1, session)
      else pure (0, session)

/-! ## What it should print -/

/-- A line is reported when it holds the pattern, and this starts with an ASCII character. -/
def reported (pattern line : List UInt8) : Bool :=
  (pattern.head?.any fun first => first < 128) && decide (pattern <:+: line)

/-- The report of a line. -/
def report (name line : List UInt8) : List UInt8 :=
  name ++ ascii ":" ++ line ++ (if line.length = 79 then [10] else []) ++ ascii "\n"

/-- The reports of the lines of a text, where a line is cut at 1024 bytes. -/
def reports (name pattern text : List UInt8) : List UInt8 :=
  ((segments 10 1024 text).filter (reported pattern)).flatMap (report name)

section

variable {name pattern line rest : List UInt8} {data s fname : Bytes} {start : Nat}
variable {session : Session}

theorem reported_nil : reported pattern [] = false := by
  cases pattern <;> simp [reported]

/-- The reports of a line that fits in the buffer, and of what follows. -/
theorem reports_pieces (fits : line.length ≤ 1024) :
    ((pieces 1024 line).filter (reported pattern)).flatMap (report name) =
      if reported pattern line then report name line else [] := by
  by_cases some : line = []
  · simp [some, reported_nil]
  · rw [pieces_of_length_le fits some]
    by_cases holds : reported pattern line <;> simp [holds]

theorem reports_line (ordinary : 10 ∉ line) (fits : line.length ≤ 1024) :
    reports name pattern (line ++ 10 :: rest) =
      (if reported pattern line then report name line else []) ++ reports name pattern rest := by
  rw [reports, segments_line ordinary, List.filter_append, List.flatMap_append,
    reports_pieces fits]
  rfl

theorem reports_last (ordinary : 10 ∉ line) (fits : line.length ≤ 1024) :
    reports name pattern line = if reported pattern line then report name line else [] := by
  rw [reports, segments_last ordinary, reports_pieces fits]

theorem reports_nil : reports name pattern [] = [] := by
  rw [reports_last List.not_mem_nil (Nat.zero_le _), reported_nil]
  rfl

theorem reports_full (ordinary : 10 ∉ line) (full : line.length = 1024) :
    reports name pattern (line ++ rest) =
      (if reported pattern line then report name line else []) ++ reports name pattern rest := by
  rw [reports, segments_full ordinary full (by decide)]
  by_cases holds : reported pattern line <;> simp [reports, holds]

/-- Of a pattern that starts with a byte from 128 on nothing is reported. -/
theorem reports_high (high : 128 ≤ pattern.headD 0) (text : List UInt8) :
    reports name pattern text = [] := by
  have silent (line : List UInt8) : reported pattern line = false := by
    cases pattern with
    | nil => exact absurd high (by decide)
    | cons letter letters =>
        have above : ¬letter < 128 := UInt8.not_lt.mpr high
        simp [reported, above]
  rw [reports, List.filter_eq_nil_iff.mpr fun line _ => by simp [silent], List.flatMap_nil]

/-! ## Searching a line -/

/-- A signed character equals an unsigned one only below 128. -/
theorem toInt8_eq_toNat_iff (x y : UInt8) : x.toInt8.toInt = (y.toNat : Int) ↔ x < 128 ∧ x = y := by
  have signed : x.toInt8.toInt = if 2 * x.toNat < 256 then (x.toNat : Int) else x.toNat - 256 :=
    BitVec.toInt_eq_toNat_cond x.toBitVec
  have bound := x.toNat_lt
  have bound' := y.toNat_lt
  rw [signed, UInt8.lt_iff_toNat_lt, ← UInt8.toNat_inj]
  change _ ↔ x.toNat < 128 ∧ _
  split <;> omega

/-- No character of a line equals a first character from 128 on. -/
theorem searchLine_high (high : 128 ≤ s 0) (sLen : Int) (remaining check : Nat) :
    searchLine s data sLen remaining check = false := by
  induction remaining generalizing check with
  | zero => rfl
  | succ remaining ih =>
      have above : ¬s 0 < 128 := UInt8.not_lt.mpr high
      rw [searchLine, if_neg fun both => above ((toInt8_eq_toNat_iff _ _).mp both.1).1, ih]

/-- The search finds the pattern wherever it starts in the line. -/
theorem searchLine_eq (query : Holds 0 s pattern) (small : pattern.length < 2147483648)
    (held : Holds 0 (fun i => data (start + i)) line) :
    searchLine s data (int32 (ece391Strlen s)) line.length start = reported pattern line := by
  have length : ece391Strlen s = pattern.length := by
    rw [ece391Strlen, strlen_eq, query.field, List.length_take]
    omega
  have count : uint32 (int32 (ece391Strlen s)) = pattern.length := by
    rw [length, int32_of_range (by omega) (by omega), uint32_natCast (by omega)]
  induction line generalizing start with
  | nil => rw [reported_nil, List.length_nil, searchLine]
  | cons symbol rest ih =>
      have first : data start = symbol := held.agree 0 (by simp)
      have tail : Holds 0 (fun i => data (start + 1 + i)) rest := by
        constructor
        · exact fun zero => held.ordinary (List.mem_cons_of_mem _ zero)
        · intro i inside
          rw [Nat.add_assoc, Nat.add_comm 1]
          exact held.agree (i + 1) (by simpa using inside)
        · rw [Nat.add_assoc, Nat.add_comm 1]
          exact held.ended
      have compared : (0 = ece391Strncmp (fun i => data (start + i)) s pattern.length) ↔
          pattern <+: symbol :: rest := by
        rw [eq_comm, ece391Strncmp_eq_zero_iff, held.field, query.field, List.take_length,
          List.prefix_iff_eq_take, eq_comm]
      rw [List.length_cons, searchLine, count, ih tail]
      simp only [toInt8_eq_toNat_iff, first, compared]
      cases pattern with
      | nil =>
          have ended : s 0 = 0 := query.ended
          have other : (0 : UInt8) ≠ symbol := fun zero =>
            held.ordinary (zero ▸ List.mem_cons_self)
          simp [ended, other, reported]
      | cons letter letters =>
          have head : s 0 = letter := query.agree 0 (by simp)
          have leads : letter :: letters <+: symbol :: rest → letter = symbol := fun starts =>
            (List.cons_prefix_cons.mp starts).1
          simp only [head, reported, List.infix_cons_iff]
          by_cases ascii_ : letter < 128
          · by_cases starts : letter :: letters <+: symbol :: rest
            · rw [if_pos ⟨⟨ascii_, leads starts⟩, starts⟩]
              simp only [List.head?_cons, Option.any_some, ascii_, starts, true_or, decide_true,
                Bool.and_self]
            · simp [starts]
          · simp [ascii_]

/-- The end of a line is found behind its bytes. -/
theorem lineEnd_eq (ordinary : 10 ∉ line) {remaining : Nat} (inside : line.length ≤ remaining)
    (agree : ∀ i (inside : i < line.length), data (start + i) = (line)[i])
    (ended : line.length = remaining ∨ data (start + line.length) = 10) :
    lineEnd data remaining start = start + line.length := by
  induction line generalizing start remaining with
  | nil =>
      cases remaining with
      | zero => rfl
      | succ remaining =>
          have stop : data start = 10 := ended.resolve_left (by simp)
          rw [lineEnd, if_neg (not_not_intro stop.symm)]
          rfl
  | cons symbol rest ih =>
      cases remaining with
      | zero => simp at inside
      | succ remaining =>
          have first : data start = symbol := agree 0 (by simp)
          have other : 10 ≠ data start := fun stop =>
            ordinary (List.mem_cons.mpr (.inl (stop.trans first)))
          have later (i : Nat) : start + 1 + i = start + (i + 1) := by omega
          rw [lineEnd, if_pos other, ih (fun stop => ordinary (List.mem_cons_of_mem _ stop))
            (Nat.le_of_succ_le_succ inside), later, List.length_cons]
          · intro i inside
            rw [later]
            exact agree (i + 1) (by simpa using inside)
          · rw [later]
            exact ended.imp Nat.succ.inj id

/-- A session that has printed some more bytes, over the same descriptors. -/
structure Prints (session : Session) (text : List UInt8) (session' : Session) : Prop where
  ready : session'.Ready
  fda : session'.fda = session.fda
  console : session'.console = session.console ++ text
  ticking : session.Ticking → session'.Ticking

theorem Prints.trans {middle session' : Session} {text more : List UInt8}
    (first : Prints session text middle) (second : Prints middle more session') :
    Prints session (text ++ more) session' where
  ready := second.ready
  fda := second.fda.trans first.fda
  console := by rw [second.console, first.console, List.append_assoc]
  ticking := second.ticking ∘ first.ticking

theorem fdputs_prints {buf : Bytes} {text : List UInt8} (ready : session.Ready)
    (holds : Holds 0 buf text) (small : text.length < 2147483648) :
    ∃ session', ece391Fdputs 1 buf session = some session' ∧
      Prints session (text ++ if text.length = 79 then [10] else []) session' := by
  refine ⟨_, ece391Fdputs_prints ready holds small, ready, rfl, ?_, ?_⟩
  · exact List.append_assoc ..
  · exact fun ticking k => ticking (k + 1)

theorem putLine_prints (ready : session.Ready) (named : Holds 0 fname name)
    (short : name.length ≤ 32) (held : Holds 0 data line) (fits : line.length ≤ 1024) :
    ∃ session', putLine fname data session = some session' ∧
      Prints session (report name line) session' := by
  have colon : Holds 0 (cstring (ascii ":")) (ascii ":") := terminated_holds (by decide)
  have newline : Holds 0 (cstring (ascii "\n")) (ascii "\n") := terminated_holds (by decide)
  obtain ⟨first, put₁, prints₁⟩ := fdputs_prints ready named (by omega)
  obtain ⟨second, put₂, prints₂⟩ := fdputs_prints prints₁.ready colon (by decide)
  obtain ⟨third, put₃, prints₃⟩ := fdputs_prints prints₂.ready held (by omega)
  obtain ⟨last, put₄, prints₄⟩ := fdputs_prints prints₃.ready newline (by decide)
  refine ⟨last, ?_, ?_⟩
  · rw [putLine, put₁]
    simp only [Option.bind_eq_bind, Option.bind_some, put₂, put₃, put₄]
  · have prints := prints₁.trans (prints₂.trans (prints₃.trans prints₄))
    rw [if_neg (by omega), if_neg (by decide), if_neg (show ¬(ascii "\n").length = 79 by decide)]
      at prints
    simpa only [report, List.append_nil, List.append_assoc] using prints

/-- A search of a line prints its report, if it is reported. -/
theorem putMatch_prints {stop : Nat} (ready : session.Ready) (query : Holds 0 s pattern)
    (small : pattern.length < 2147483648) (named : Holds 0 fname name) (short : name.length ≤ 32)
    (held : Holds 0 (fun i => data (start + i)) line) (fits : line.length ≤ 1024)
    (ended : stop = start + line.length) :
    ∃ session', putMatch s fname data (int32 (ece391Strlen s)) start stop session =
        some session' ∧
      Prints session (if reported pattern line then report name line else []) session' := by
  have length : stop - start = line.length := by omega
  rw [putMatch, length, searchLine_eq query small held]
  by_cases found : reported pattern line
  · simp only [found, if_true]
    exact putLine_prints ready named short held fits
  · simp only [found]
    exact ⟨session, rfl, ready, rfl, (List.append_nil _).symm, id⟩

end

/-! ## The lines in the buffer -/

/-- What the buffer holds from a place on, and what has been printed: `rest` is what the file
holds behind the buffer. -/
structure Pending (name pattern rest total : List UInt8) (start : Nat) (held : List UInt8)
    (scan : Scan) : Prop where
  ready : scan.session.Ready
  last : scan.last = start + held.length
  fits : scan.last ≤ 1024
  agree : ∀ i (inside : i < held.length), scan.data (start + i) = held[i]
  ordinary : 0 ∉ held
  fence : scan.data 1024 ≠ 10
  output : scan.session.console ++ reports name pattern (held ++ rest) = total

section

variable {name pattern rest total held : List UInt8} {s fname : Bytes} {cnt : Int} {scan : Scan}

/-- A scan that has gone on over the same descriptors. -/
structure Kept (scan next : Scan) : Prop where
  fda : next.session.fda = scan.session.fda
  ticking : scan.session.Ticking → next.session.Ticking
  failed : next.failed = scan.failed

theorem Kept.trans {middle next : Scan} (first : Kept scan middle) (second : Kept middle next) :
    Kept scan next where
  fda := second.fda.trans first.fda
  ticking := second.ticking ∘ first.ticking
  failed := second.failed.trans first.failed

/-- A scan whose search has ended: an unfinished line is left at the start of the buffer. -/
structure Searched (name pattern rest total : List UInt8) (cnt : Int) (scan last : Scan) :
    Prop where
  left : ∃ held, 10 ∉ held ∧ held.length < 1024 ∧ (cnt = 0 → held = []) ∧
    Pending name pattern rest total 0 held last
  kept : Kept scan last

/-- A line whose end has been replaced by a NUL. -/
theorem holds_update {data : Bytes} {start stop : Nat} {line : List UInt8} (ordinary : 0 ∉ line)
    (agree : ∀ i (inside : i < line.length), data (start + i) = (line)[i])
    (ended : stop = start + line.length) :
    Holds 0 (fun i => Function.update data stop 0 (start + i)) line where
  ordinary := ordinary
  agree i inside := by
    rw [Function.update_of_ne (by omega)]
    exact agree i inside
  ended := by rw [ended, Function.update_self]

/-- A line that a newline ends is searched, and the search goes on behind it. -/
theorem Pending.step_line {line more : List UInt8}
    (pending : Pending name pattern rest total scan.lineStart (line ++ 10 :: more) scan)
    (unbroken : 10 ∉ line) (query : Holds 0 s pattern) (small : pattern.length < 2147483648)
    (named : Holds 0 fname name) (short : name.length ≤ 32) :
    (∃ last, lineBody s fname (int32 (ece391Strlen s)) cnt scan = some (.done last) ∧
        Searched name pattern rest total cnt scan last) ∨
      ∃ next, lineBody s fname (int32 (ece391Strlen s)) cnt scan = some (.yield next) ∧
        Pending name pattern rest total next.lineStart more next ∧
        scan.lineStart < next.lineStart ∧ Kept scan next ∧ next.last = scan.last := by
  obtain ⟨ready, size, fits, agree, ordinary, fence, output⟩ := pending
  simp only [List.length_append, List.length_cons] at size
  have before (i : Nat) (inside : i < line.length) :
      scan.data (scan.lineStart + i) = (line)[i] := by
    rw [agree i (by simp; omega), List.getElem_append_left inside]
  have newline : scan.data (scan.lineStart + line.length) = 10 := by
    rw [agree line.length (by simp)]
    simp
  have behind (i : Nat) (inside : i < more.length) :
      scan.data (scan.lineStart + line.length + 1 + i) = more[i] := by
    have index : scan.lineStart + line.length + 1 + i = scan.lineStart + (line.length + 1 + i) := by
      omega
    rw [index, agree _ (by simp; omega), List.getElem_append_right (by omega)]
    simp [show line.length + 1 + i - line.length = i + 1 by omega]
  have stop : lineEnd scan.data (scan.last - scan.lineStart) scan.lineStart =
      scan.lineStart + line.length := lineEnd_eq unbroken (by omega) before (.inr newline)
  have ordinary' : 0 ∉ line := fun zero => ordinary (List.mem_append_left _ zero)
  have later : 0 ∉ more := fun zero =>
    ordinary (List.mem_append_right _ (List.mem_cons_of_mem _ zero))
  obtain ⟨session, put, prints⟩ := putMatch_prints ready query small named short
    (holds_update ordinary' before rfl) (by omega) rfl
  rw [List.append_assoc, List.cons_append, reports_line unbroken (by omega), ← List.append_assoc,
    ← prints.console] at output
  have fence' : Function.update scan.data (scan.lineStart + line.length) 0 1024 ≠ 10 := by
    rw [Function.update_of_ne (by omega)]
    exact fence
  rw [lineBody, stop, if_neg (fun goes => goes.1 newline.symm)]
  simp only [Option.bind_eq_bind, put, Option.bind_some]
  by_cases ended : scan.lineStart + line.length + 1 ≥ scan.last
  · left
    obtain rfl : more = [] := List.eq_nil_of_length_eq_zero (by omega)
    rw [if_pos ended]
    refine ⟨_, rfl, ⟨[], List.not_mem_nil, by decide, fun _ => rfl, ?_⟩,
      prints.fda, prints.ticking, rfl⟩
    exact ⟨prints.ready, rfl, Nat.zero_le _, fun i inside => absurd inside (by simp),
      List.not_mem_nil, fence', output⟩
  · right
    rw [if_neg ended]
    refine ⟨_, rfl, ?_, by simp only; omega, ⟨prints.fda, prints.ticking, rfl⟩, rfl⟩
    refine ⟨prints.ready, by simp only; omega, fits, fun i inside => ?_, later, fence', output⟩
    simp only
    rw [Function.update_of_ne (by omega)]
    exact behind i inside

/-- What the buffer holds behind its last newline is moved down, or searched when nothing can be
missing from it. -/
theorem Pending.step_last (pending : Pending name pattern rest total scan.lineStart held scan)
    (unbroken : 10 ∉ held) (whole : scan.last < 1024 ∨ cnt = 0 → rest = [])
    (query : Holds 0 s pattern) (small : pattern.length < 2147483648)
    (named : Holds 0 fname name) (short : name.length ≤ 32) :
    ∃ last, lineBody s fname (int32 (ece391Strlen s)) cnt scan = some (.done last) ∧
      Searched name pattern rest total cnt scan last := by
  obtain ⟨ready, size, fits, agree, ordinary, fence, output⟩ := pending
  have stop : lineEnd scan.data (scan.last - scan.lineStart) scan.lineStart = scan.last := by
    rw [lineEnd_eq unbroken (by omega) agree (.inl (by omega)), size]
  rw [lineBody, stop]
  by_cases goes : 10 ≠ scan.data scan.last ∧ 0 ≠ cnt ∧ scan.lineStart ≠ 0
  · obtain ⟨copied, kept⟩ := ece391Strcpy_moves (holds_update ordinary agree size) (by omega)
    rw [if_pos goes]
    obtain ⟨open_, going, moved⟩ := goes
    refine ⟨_, rfl, ⟨held, unbroken, by omega, fun ended => absurd ended.symm going, ?_⟩,
      rfl, id, rfl⟩
    refine ⟨ready, by simp only; omega, by simp only; omega, fun i inside => ?_, ordinary, ?_,
      output⟩
    · rw [Nat.zero_add]
      exact copied i inside
    · simp only
      rw [kept 1024 (by omega)]
      by_cases edge : scan.last = 1024
      · simp [edge]
      · rw [Function.update_of_ne (Ne.symm edge)]
        exact fence
  · obtain ⟨session, put, prints⟩ := @putMatch_prints name pattern held
      (Function.update scan.data scan.last 0) s fname scan.lineStart scan.session scan.last ready
      query small named short (holds_update ordinary agree size) (by omega) size
    have output' : session.console ++ reports name pattern rest = total := by
      rw [prints.console, List.append_assoc]
      rcases Decidable.em (scan.last < 1024 ∨ cnt = 0) with ended | full
      · rw [whole ended, reports_nil, List.append_nil]
        rw [whole ended, List.append_nil, reports_last unbroken (by omega)] at output
        exact output
      · -- The buffer is full, so the fence shows that the line starts with it.
        have edge : scan.last = 1024 := by omega
        have first : scan.lineStart = 0 := by
          by_contra moved
          refine goes ⟨?_, fun none => full (.inr none.symm), moved⟩
          rw [edge]
          exact fence.symm
        rw [reports_full unbroken (by omega)] at output
        exact output
    rw [if_neg goes]
    simp only [Option.bind_eq_bind, put, Option.bind_some]
    rw [if_pos (by omega)]
    refine ⟨_, rfl, ⟨[], List.not_mem_nil, by decide, fun _ => rfl, ?_⟩,
      prints.fda, prints.ticking, rfl⟩
    refine ⟨prints.ready, rfl, Nat.zero_le _, fun i inside => absurd inside (by simp),
      List.not_mem_nil, ?_, output'⟩
    simp only
    by_cases edge : scan.last = 1024
    · simp [edge]
    · rw [Function.update_of_ne (Ne.symm edge)]
      exact fence

/-- The loop over the lines leaves only an unfinished line to be searched. -/
theorem Pending.search_lines {fuel : Nat} (pending : Pending name pattern rest total 0 held scan)
    (first : scan.lineStart = 0) (whole : scan.last < 1024 ∨ cnt = 0 → rest = [])
    (query : Holds 0 s pattern) (small : pattern.length < 2147483648)
    (named : Holds 0 fname name) (short : name.length ≤ 32) (enough : 1024 < fuel) :
    ∃ last, loop (lineBody s fname (int32 (ece391Strlen s)) cnt) fuel scan = some last ∧
      Searched name pattern rest total cnt scan last := by
  refine @loop_total _ _ fuel scan (fun state => (∃ held,
      Pending name pattern rest total state.lineStart held state) ∧ state.last = scan.last ∧
      Kept scan state) _
    (fun state => scan.last - state.lineStart) ?_ ?_ ?_
  · rintro state ⟨⟨held, pending⟩, last, kept⟩
    rw [← last] at whole
    have size := pending.last
    by_cases broken : 10 ∈ held
    · obtain ⟨line, more, rfl, unbroken⟩ := List.eq_append_cons_of_mem broken
      rw [List.length_append, List.length_cons] at size
      rcases pending.step_line unbroken query small named short with
        ⟨last', ended, searched⟩ | ⟨next, goes, pending', later, kept', last'⟩
      · exact .inl ⟨last', ended, searched.left, kept.trans searched.kept⟩
      · exact .inr ⟨next, goes, ⟨⟨more, pending'⟩, last'.trans last, kept.trans kept'⟩, by omega⟩
    · obtain ⟨last', ended, searched⟩ := pending.step_last broken whole query small named short
      exact .inl ⟨last', ended, searched.left, kept.trans searched.kept⟩
  · have fits := pending.fits
    omega
  · exact ⟨⟨held, first ▸ pending⟩, rfl, rfl, id, rfl⟩

end

/-! ## Lines with NULs -/

/-- A session has printed something, and nothing of a pattern that starts with a byte from 128
on. -/
def Reported (s : Bytes) (session session' : Session) : Prop :=
  ∃ text, session'.console = session.console ++ text ∧ (128 ≤ s 0 → text = [])

theorem Reported.refl {s : Bytes} {session session' : Session}
    (same : session'.console = session.console) : Reported s session session' :=
  ⟨[], same.trans (List.append_nil _).symm, fun _ => rfl⟩

theorem Reported.trans {s : Bytes} {session middle session' : Session}
    (first : Reported s session middle) (second : Reported s middle session') :
    Reported s session session' := by
  obtain ⟨text, console, silent⟩ := first
  obtain ⟨more, console', silent'⟩ := second
  refine ⟨text ++ more, by rw [console', console, List.append_assoc], fun high => ?_⟩
  rw [silent high, silent' high, List.append_nil]

/-- A scan that has gone on and printed something. -/
structure Advanced (s : Bytes) (scan next : Scan) : Prop where
  kept : Kept scan next
  ready : next.session.Ready
  console : Reported s scan.session next.session

theorem Advanced.trans {s : Bytes} {scan middle next : Scan} (first : Advanced s scan middle)
    (second : Advanced s middle next) : Advanced s scan next where
  kept := first.kept.trans second.kept
  ready := second.ready
  console := first.console.trans second.console

theorem Advanced.refl {s : Bytes} {scan next : Scan} (session : next.session = scan.session)
    (failed : next.failed = scan.failed) (ready : scan.session.Ready) :
    Advanced s scan next where
  kept := ⟨congrArg Session.fda session, session ▸ id, failed⟩
  ready := session ▸ ready
  console := .refl (congrArg Session.console session)

section

variable {fuel : Nat} {s fname : Bytes} {name : List UInt8} {sLen cnt : Int} {scan : Scan}

theorem lineEnd_bounds (data : Bytes) (remaining start : Nat) :
    start ≤ lineEnd data remaining start ∧ lineEnd data remaining start ≤ start + remaining := by
  induction remaining generalizing start with
  | zero => exact ⟨Nat.le_refl _, Nat.le_refl _⟩
  | succ remaining ih =>
      have later := ih (start + 1)
      rw [lineEnd]
      split <;> omega

/-- Whatever the buffer holds, an iteration over its lines ends. -/
theorem lineBody_ends (ready : scan.session.Ready) (inside : scan.lineStart ≤ scan.last)
    (fits : scan.last ≤ 1024) (named : Holds 0 fname name) (short : name.length ≤ 32) :
    (∃ last, lineBody s fname sLen cnt scan = some (.done last) ∧ last.last < 1024 ∧
        Advanced s scan last) ∨
      ∃ next, lineBody s fname sLen cnt scan = some (.yield next) ∧
        scan.lineStart < next.lineStart ∧ next.lineStart ≤ next.last ∧ next.last = scan.last ∧
        Advanced s scan next := by
  have bounds := lineEnd_bounds scan.data (scan.last - scan.lineStart) scan.lineStart
  rw [lineBody]
  generalize lineEnd scan.data (scan.last - scan.lineStart) scan.lineStart = stop at bounds
  by_cases goes : 10 ≠ scan.data stop ∧ 0 ≠ cnt ∧ scan.lineStart ≠ 0
  · left
    have moved := goes.2.2
    rw [if_pos goes]
    exact ⟨_, rfl, by simp only; omega, .refl rfl rfl ready⟩
  · obtain ⟨session, text, put, prints, silent⟩ : ∃ session text,
        putMatch s fname (Function.update scan.data stop 0) sLen scan.lineStart stop
          scan.session = some session ∧ Prints scan.session text session ∧
            (128 ≤ s 0 → text = []) := by
      rw [putMatch]
      split
      next found =>
        have stopped : Function.update scan.data stop 0 (scan.lineStart +
            (stop - scan.lineStart)) = 0 := by
          rw [Nat.add_sub_of_le bounds.1, Function.update_self]
        obtain ⟨line, held, size⟩ := exists_holds_of_stop
          (fun i => Function.update scan.data stop 0 (scan.lineStart + i)) stopped
        obtain ⟨session, put, prints⟩ := putLine_prints ready named short held (by omega)
        exact ⟨session, _, put, prints, fun high =>
          absurd found (by rw [searchLine_high high]; decide)⟩
      next =>
        exact ⟨scan.session, [], rfl, ⟨ready, rfl, (List.append_nil _).symm, id⟩, fun _ => rfl⟩
    rw [if_neg goes]
    simp only [Option.bind_eq_bind, put, Option.bind_some]
    by_cases ended : stop + 1 ≥ scan.last
    · left
      rw [if_pos ended]
      exact ⟨_, rfl, Nat.succ_pos _, ⟨prints.fda, prints.ticking, rfl⟩, prints.ready, text,
        prints.console, silent⟩
    · right
      rw [if_neg ended]
      exact ⟨_, rfl, by simp only; omega, by simp only; omega, rfl,
        ⟨prints.fda, prints.ticking, rfl⟩, prints.ready, text, prints.console, silent⟩

theorem lines_end (ready : scan.session.Ready) (first : scan.lineStart = 0)
    (fits : scan.last ≤ 1024) (named : Holds 0 fname name) (short : name.length ≤ 32)
    (enough : 1024 < fuel) :
    ∃ last, loop (lineBody s fname sLen cnt) fuel scan = some last ∧ last.last < 1024 ∧
      Advanced s scan last := by
  refine @loop_total _ _ fuel scan (fun state => state.lineStart ≤ state.last ∧
      state.last = scan.last ∧ Advanced s scan state) _
    (fun state => scan.last - state.lineStart) ?_ ?_ ?_
  · rintro state ⟨inside, last, advanced⟩
    rcases @lineBody_ends s fname name sLen cnt state advanced.ready inside (by omega) named short
      with ⟨last', ended, room, advanced'⟩ | ⟨next, goes, later, inside', last', advanced'⟩
    · exact .inl ⟨last', ended, room, advanced.trans advanced'⟩
    · exact .inr ⟨next, goes, ⟨inside', last'.trans last, advanced.trans advanced'⟩, by omega⟩
  · omega
  · exact ⟨first ▸ Nat.zero_le _, rfl, .refl rfl rfl ready⟩

end

/-! ## The reads -/

/-- A scan between two reads of its file, which leave the other descriptors as they were. -/
structure OnFile (image : Image) (inode : Nat) (fd : Fin 8) (origin : Session) (position : Nat)
    (scan : Scan) : Prop where
  opened : ReadyAt inode position (scan.session.fda fd)
  inside : position ≤ (fileContent image inode).length
  ready : scan.session.Ready
  others : ∀ other, other ≠ fd → scan.session.fda other = origin.fda other
  ticking : origin.Ticking → scan.session.Ticking
  failed : scan.failed = false

/-- The buffer behind a read. -/
def filled (scan : Scan) (chunk : List UInt8) : Bytes := fun i =>
  if i < scan.last then scan.data i
  else overwrite (fun i => scan.data (scan.last + i)) chunk (i - scan.last)

/-- A scan of a text: what the buffer holds has no end of line, and starts a line or a piece of
one. -/
structure Reading (image : Image) (inode : Nat) (fd : Fin 8) (origin : Session)
    (name pattern total : List UInt8) (position : Nat) (scan : Scan) : Prop where
  onFile : OnFile image inode fd origin position scan
  pending : ∃ held, 10 ∉ held ∧ held.length < 1024 ∧
    Pending name pattern ((fileContent image inode).drop position) total 0 held scan

/-- A scan of any file. -/
structure Scanning (image : Image) (inode : Nat) (fd : Fin 8) (origin : Session) (s : Bytes)
    (position : Nat) (scan : Scan) : Prop where
  onFile : OnFile image inode fd origin position scan
  room : scan.last < 1024
  console : Reported s origin scan.session

section

variable {image : Image} {inode position fuel : Nat} {fd : Fin 8} {origin : Session}
variable {s fname : Bytes} {name pattern total : List UInt8} {sLen : Int} {scan : Scan}

theorem OnFile.kept {next : Scan} (onFile : OnFile image inode fd origin position scan)
    (kept : Kept scan next) (ready : next.session.Ready) :
    OnFile image inode fd origin position next where
  opened := kept.fda ▸ onFile.opened
  inside := onFile.inside
  ready := ready
  others other different := kept.fda ▸ onFile.others other different
  ticking := kept.ticking ∘ onFile.ticking
  failed := kept.failed.trans onFile.failed

/-- A read fills the buffer as far as the file goes, and then its lines are searched. -/
theorem OnFile.read (onFile : OnFile image inode fd origin position scan)
    (wellFormed : image.WellFormed) (exists_ : (inode : Int) < image.inodeCount)
    (room : scan.last < 1024) :
    ∃ chunk session, chunk = serve (fileContent image inode) position (1024 - scan.last) ∧
      session.console = scan.session.console ∧
      OnFile image inode fd origin (position + chunk.length)
        ⟨filled scan chunk, scan.last + chunk.length, 0, session, scan.failed⟩ ∧
      readBody image s fname sLen fd.val fuel scan =
        (loop (lineBody s fname sLen chunk.length) fuel
          ⟨filled scan chunk, scan.last + chunk.length, 0, session, scan.failed⟩).map fun last =>
            if (0 : Int) = chunk.length then .done last else .yield last := by
  obtain ⟨opened, inside, ready, others, ticking, failed⟩ := onFile
  obtain ⟨chunk, session, served, read, silent, opened', others'⟩ := ece391Read_file
    wellFormed exists_ ready opened inside (by omega : (0 : Int) < 1024 - scan.last) (by omega)
    fun i => scan.data (scan.last + i)
  have request : ((1024 : Int) - scan.last).toNat = 1024 - scan.last := by omega
  rw [request] at served
  have length := length_serve (fileContent image inode) position (1024 - scan.last)
  rw [← served] at length
  refine ⟨chunk, session, served, silent.console, ?_, ?_⟩
  · exact ⟨opened', by omega, silent.ready,
      fun other different => (others' other different).trans (others other different),
      silent.ticking ∘ ticking, failed⟩
  · have going : ¬(-1 : Int) = chunk.length := by omega
    rw [readBody, read]
    simp only [Option.pure_def, Option.bind_eq_bind, Option.bind_some]
    rw [if_neg going, Int.toNat_natCast, Option.map_eq_bind]
    congr 1
    funext last
    simp only [Function.comp]
    split <;> rfl

/-- The step lemma: a read is searched up to its last line, and the last read ends the loop with
everything reported. -/
theorem Reading.step (wellFormed : image.WellFormed) (exists_ : (inode : Int) < image.inodeCount)
    (text : 0 ∉ fileContent image inode) (query : Holds 0 s pattern)
    (small : pattern.length < 2147483648) (named : Holds 0 fname name) (short : name.length ≤ 32)
    (enough : 1024 < fuel)
    (reading : Reading image inode fd origin name pattern total position scan) :
    (∃ last, readBody image s fname (int32 (ece391Strlen s)) fd.val fuel scan =
        some (.done last) ∧ (∃ position', OnFile image inode fd origin position' last) ∧
        last.session.console = total) ∨
      ∃ next position', readBody image s fname (int32 (ece391Strlen s)) fd.val fuel scan =
          some (.yield next) ∧ position < position' ∧
        Reading image inode fd origin name pattern total position' next := by
  obtain ⟨onFile, held, unbroken, room, ready, size, fits, agree, ordinary, fence, output⟩ :=
    reading
  rw [Nat.zero_add] at size
  obtain ⟨chunk, session, served, console, onFile', read⟩ :=
    onFile.read wellFormed exists_ (by omega : scan.last < 1024)
  have length := length_serve (fileContent image inode) position (1024 - scan.last)
  rw [← served] at length
  have delivered : chunk ++ (fileContent image inode).drop (position + chunk.length) =
      (fileContent image inode).drop position := by
    rw [served]
    exact serve_append_drop ..
  have part : 0 ∉ chunk := fun zero => text (List.drop_subset _ _ (delivered ▸
    List.mem_append_left _ zero))
  have pending : Pending name pattern ((fileContent image inode).drop (position + chunk.length))
      total 0 (held ++ chunk)
      ⟨filled scan chunk, scan.last + chunk.length, 0, session, scan.failed⟩ := by
    refine ⟨onFile'.ready, by simp; omega, by simp only; omega, fun i below => ?_, ?_, ?_, ?_⟩
    · simp only [filled, Nat.zero_add]
      rcases Nat.lt_or_ge i held.length with lower | upper
      · rw [if_pos (by omega), List.getElem_append_left lower, ← agree i lower, Nat.zero_add]
      · rw [List.length_append] at below
        have index : i - scan.last = i - held.length := by rw [size]
        have within : i - held.length < chunk.length := by omega
        rw [if_neg (by omega), List.getElem_append_right upper, index, overwrite,
          List.getElem?_eq_getElem within, Option.getD_some]
    · simp [ordinary, part]
    · have behind : chunk[1024 - scan.last]? = none := List.getElem?_eq_none (by omega)
      simp only [filled]
      rw [if_neg (by omega), overwrite, behind, Option.getD_none,
        Nat.add_sub_of_le (Nat.le_of_lt (by omega))]
      exact fence
    · rw [List.append_assoc, delivered, console]
      exact output
  have whole : scan.last + chunk.length < 1024 ∨ (chunk.length : Int) = 0 →
      (fileContent image inode).drop (position + chunk.length) = [] := by
    intro ended
    have inside := onFile.inside
    exact List.drop_eq_nil_of_le (by omega)
  obtain ⟨last, ran, ⟨held', unbroken', room', none', pending'⟩, kept⟩ :=
    pending.search_lines rfl whole query small named short enough
  have after := onFile'.kept kept pending'.ready
  rw [read, ran, Option.map_some]
  by_cases ended : (0 : Int) = chunk.length
  · have rest := whole (.inr ended.symm)
    have output' := pending'.output
    rw [rest, none' ended.symm, List.append_nil, reports_nil, List.append_nil] at output'
    rw [if_pos ended]
    exact .inl ⟨last, rfl, ⟨_, after⟩, output'⟩
  · rw [if_neg ended]
    exact .inr ⟨last, _, rfl, by omega, after, held', unbroken', room', pending'⟩

/-- In a file with NULs the search of a read ends too. -/
theorem Scanning.step (wellFormed : image.WellFormed) (exists_ : (inode : Int) < image.inodeCount)
    (named : Holds 0 fname name) (short : name.length ≤ 32) (enough : 1024 < fuel)
    (scanning : Scanning image inode fd origin s position scan) :
    (∃ last, readBody image s fname sLen fd.val fuel scan = some (.done last) ∧
        ∃ position', Scanning image inode fd origin s position' last) ∨
      ∃ next position', readBody image s fname sLen fd.val fuel scan = some (.yield next) ∧
        position < position' ∧ Scanning image inode fd origin s position' next := by
  obtain ⟨onFile, room, console⟩ := scanning
  obtain ⟨chunk, session, served, console', onFile', read⟩ :=
    onFile.read wellFormed exists_ room
  have length := length_serve (fileContent image inode) position (1024 - scan.last)
  rw [← served] at length
  obtain ⟨last, ran, room', kept, ready, console''⟩ := lines_end onFile'.ready rfl
    (by simp only; omega) named short enough
  have after : Scanning image inode fd origin s (position + chunk.length) last :=
    ⟨onFile'.kept kept ready, room', console.trans (.trans (.refl console') console'')⟩
  rw [read, ran, Option.map_some]
  by_cases ended : (0 : Int) = chunk.length
  · rw [if_pos ended]
    exact .inl ⟨last, rfl, _, after⟩
  · rw [if_neg ended]
    exact .inr ⟨last, _, rfl, by omega, after⟩

end

/-! ## Whole files -/

/-- A file has been searched: its reports are printed and its descriptor is free again. -/
structure FileDone (session : Session) (slot : Fin 8) (text : List UInt8) (session' : Session) :
    Prop where
  ready : session'.Ready
  console : session'.console = session.console ++ text
  others : ∀ other, other ≠ slot → session'.fda other = session.fda other
  free : firstFree session'.fda = some slot
  ticking : session.Ticking → session'.Ticking

section

variable {image : Image} {inode fuel : Nat} {slot : Fin 8} {session opened : Session}
variable {s fname data : Bytes} {name pattern text : List UInt8} {last : Scan}

/-- `do_one_file` behind a loop that has not failed. -/
theorem doOneFile_of_loop (free : firstFree session.fda = some slot)
    (opens : ece391Open image fname session = some ((slot.val : Int), opened))
    (ran : loop (readBody image s fname (int32 (ece391Strlen s)) slot.val fuel) fuel
      ⟨data, 0, 0, opened, false⟩ = some last)
    (failed : last.failed = false) (ready : last.session.Ready)
    (used : (last.session.fda slot).flags = 1)
    (others : ∀ other, other ≠ slot → last.session.fda other = session.fda other)
    (ticking : session.Ticking → last.session.Ticking)
    (console : last.session.console = session.console ++ text) :
    ∃ session', doOneFile image s fname fuel data session = some (0, session') ∧
      FileDone session slot text session' := by
  obtain ⟨standard, unused, -⟩ := firstFree_some free
  obtain ⟨session', closes, silent, freed, others'⟩ :=
    ece391Close_open ready standard (by omega : (last.session.fda slot).flags ≠ 0)
  have kept (other : Fin 8) (different : other ≠ slot) : session'.fda other = session.fda other :=
    (others' other different).trans (others other different)
  refine ⟨session', ?_, silent.ready, silent.console.trans console, kept, ?_,
    silent.ticking ∘ ticking⟩
  · have succeeded : ¬(-1 : Int) = slot.val := by omega
    rw [doOneFile, opens]
    simp only [Option.pure_def, Option.bind_eq_bind, Option.bind_some]
    rw [if_neg succeeded, ran, Option.bind_some, failed, closes]
    rfl
  · rw [← free]
    refine firstFree_congr fun fd => ?_
    by_cases same : fd = slot
    · rw [same, freed, unused]
    · rw [kept fd same]

theorem doOneFile_of_onFile {position : Nat} (free : firstFree session.fda = some slot)
    (opens : ece391Open image fname session = some ((slot.val : Int), opened))
    (ran : loop (readBody image s fname (int32 (ece391Strlen s)) slot.val fuel) fuel
      ⟨data, 0, 0, opened, false⟩ = some last)
    (onFile : OnFile image inode slot session position last)
    (console : last.session.console = session.console ++ text) :
    ∃ session', doOneFile image s fname fuel data session = some (0, session') ∧
      FileDone session slot text session' :=
  doOneFile_of_loop free opens ran onFile.failed onFile.ready (by rw [onFile.opened])
    onFile.others onFile.ticking console

/-- The open of a regular file starts a scan. -/
theorem onFile_start (silent : Silent session opened)
    (fda : opened.fda = Function.update session.fda slot ⟨some .files, inode, 0, 1, 2⟩)
    (data : Bytes) : OnFile image inode slot session 0 ⟨data, 0, 0, opened, false⟩ where
  opened := by
    simp only
    rw [fda, Function.update_self]
    rfl
  inside := Nat.zero_le _
  ready := silent.ready
  others other different := (congrFun fda other).trans (Function.update_of_ne different ..)
  ticking := silent.ticking
  failed := rfl

/-- `do_one_file` reports the lines of a regular text file, in order. -/
theorem doOneFile_reports (wellFormed : image.WellFormed) (ready : session.Ready)
    (query : Holds 0 s pattern) (small : pattern.length < 2147483648)
    (named : Holds 0 fname name) (short : name.length ≤ 32) (file : HasFile image name text)
    (ordinary : 0 ∉ text) (free : firstFree session.fda = some slot) (fence : data 1024 ≠ 10)
    (enough : text.length + 1024 < fuel) :
    ∃ session', doOneFile image s fname fuel data session = some (0, session') ∧
      FileDone session slot (reports name pattern text) session' := by
  obtain ⟨inode, opened, opens, silent, exists_, rfl, fda⟩ :=
    ece391Open_file wellFormed ready (file.query named) file free
  have buffer : 1024 < fuel := by omega
  have start : Pending name pattern (fileContent image inode)
      (session.console ++ reports name pattern (fileContent image inode)) 0 []
      ⟨data, 0, 0, opened, false⟩ :=
    ⟨silent.ready, rfl, Nat.zero_le _, fun i inside => absurd inside (by simp),
      List.not_mem_nil, fence,
      congrArg (· ++ reports name pattern (fileContent image inode)) silent.console⟩
  obtain ⟨last, ran, ⟨position, onFile⟩, output⟩ := loop_reads Scan.session
    (Reading image inode slot session name pattern
      (session.console ++ reports name pattern (fileContent image inode)))
    (fun _ _ reading => ⟨congrArg FileDescriptor.filePosition reading.onFile.opened,
      reading.onFile.inside⟩)
    (fun _ _ reading => reading.step wellFormed exists_ ordinary query small named short buffer)
    (Nat.lt_of_le_of_lt (Nat.le_add_right ..) enough)
    ⟨onFile_start silent fda data, [], List.not_mem_nil, by decide, start⟩
  exact doOneFile_of_onFile free opens ran onFile output

/-- `do_one_file` ends on every regular file, and finds no pattern there that starts with a byte
from 128 on. -/
theorem doOneFile_ends (wellFormed : image.WellFormed) (ready : session.Ready)
    (named : Holds 0 fname name) (short : name.length ≤ 32) (file : HasFile image name text)
    (free : firstFree session.fda = some slot) (enough : text.length + 1024 < fuel) :
    ∃ session' printed, doOneFile image s fname fuel data session = some (0, session') ∧
      FileDone session slot printed session' ∧ (128 ≤ s 0 → printed = []) := by
  obtain ⟨inode, opened, opens, silent, exists_, rfl, fda⟩ :=
    ece391Open_file wellFormed ready (file.query named) file free
  have buffer : 1024 < fuel := by omega
  obtain ⟨last, ran, position, onFile, -, printed, console, high⟩ := loop_reads Scan.session
    (Scanning image inode slot session s)
    (fun _ _ scanning => ⟨congrArg FileDescriptor.filePosition scanning.onFile.opened,
      scanning.onFile.inside⟩)
    (fun _ _ scanning => scanning.step wellFormed exists_ named short buffer)
    (Nat.lt_of_le_of_lt (Nat.le_add_right ..) enough)
    ⟨onFile_start silent fda data, Nat.succ_pos _, .refl silent.console⟩
  obtain ⟨session', searched, done⟩ := doOneFile_of_onFile free opens ran onFile console
  exact ⟨session', printed, searched, done, high⟩

/-- `do_one_file` waits for one interrupt of the clock and prints nothing. -/
theorem doOneFile_clock (wellFormed : image.WellFormed) (ready : session.Ready)
    (query : Holds 0 s pattern) (small : pattern.length < 2147483648) (named : Holds 0 fname name)
    (short : name.length ≤ 32)
    (clock : HasClock image name) (ticking : session.Ticking)
    (free : firstFree session.fda = some slot) (fence : data 1024 ≠ 10) (enough : 1024 < fuel) :
    ∃ session', doOneFile image s fname fuel data session = some (0, session') ∧
      FileDone session slot [] session' := by
  obtain ⟨entry, first, type⟩ := clock
  obtain ⟨opened, opens, silent, fda⟩ := ece391Open_found ready
    (first.lookup wellFormed.dirCount_le (first.query named) _) type rfl free
  have device : opened.fda slot = ⟨some .rtc, uint32 entry.inodeNum, 0, 1, 0⟩ := by
    rw [fda, Function.update_self]
  obtain ⟨read, reads, silent', fda'⟩ := @ece391Read_clock image opened _ slot silent.ready
    (silent.ticking ticking) device (fun i => data (0 + i)) (1024 - (0 : Nat))
  have filled : Pending name pattern [] session.console 0 []
      ⟨fun i => if i < 0 then data i else data (0 + (i - 0)), 0 + (0 : Int).toNat, 0, read,
        false⟩ := by
    refine ⟨silent'.ready, rfl, Nat.zero_le _, fun i inside => absurd inside (by simp),
      List.not_mem_nil, fence, ?_⟩
    rw [List.append_nil, reports_nil, List.append_nil]
    exact silent'.console.trans silent.console
  obtain ⟨last, ran, ⟨held, -, -, none, pending⟩, kept⟩ :=
    filled.search_lines rfl (fun _ => rfl : _ ∨ (0 : Int) = 0 → ([] : List UInt8) = []) query
      small named short enough
  have output := pending.output
  rw [none rfl, List.append_nil, reports_nil, List.append_nil] at output
  have ended : loop (readBody image s fname (int32 (ece391Strlen s)) slot.val fuel) fuel
      ⟨data, 0, 0, opened, false⟩ = some last := by
    obtain ⟨fewer, rfl⟩ := Nat.exists_eq_succ_of_ne_zero (Nat.ne_of_gt (Nat.zero_lt_of_lt enough))
    refine loop_done ?_
    rw [readBody, reads]
    simp only [Option.pure_def, Option.bind_eq_bind, Option.bind_some]
    rw [if_neg (by decide), ran]
    rfl
  refine doOneFile_of_loop free opens ended kept.failed pending.ready ?_ ?_
    (kept.ticking ∘ silent'.ticking ∘ silent.ticking) (output.trans (List.append_nil _).symm)
  · rw [kept.fda, fda', device]
  · intro other different
    rw [kept.fda, fda', fda, Function.update_of_ne different]

end

end Ece391.Programs.Grep
