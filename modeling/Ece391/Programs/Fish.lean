import Ece391.Kernel.VideoWindow
import Ece391.Programs.Frames

/-!
# The program `fish`

`fish` opens the video window, adds the characters of its two frames, and ticks its blink driver
with the clock; in between it adds one more character, gives it the timing of the first place, and
removes it.  What it shows is what the reference model of the driver shows for these calls.
-/

namespace Ece391.Programs.Fish

open Ece391.Library Ece391.Kernel

/-- A loop of `main` that waits for the clock and ticks the driver. -/
def waitTicks (image : Image) (rtcFd : Int) (garbage : Bytes) (fuel : Nat) :
    (count : Nat) → Pool → Session → Option (Pool × Session)
  | 0, pool, session => some (pool, session)
  | count + 1, pool, session => do
      let (_, garbage, session) ← ece391Read image rtcFd garbage 4 session
      let pool ← mp1RtcTasklet fuel pool
      waitTicks image rtcFd garbage fuel count pool session

/-- The structure that `main` adds, where `user` held the other fields. -/
def letterStruct (user : Slot) : Slot :=
  { user with
    onChar := 73
    offChar := 77
    onLength := 7
    offLength := 6
    location := 6 * 80 + 60 }

/-- `main`, where the structures on the stacks of `add_frames` and of `main` held `frameUser` and
`user`, the clock is read into `garbage`, and the window shows `video`. -/
def main (image : Image) (layout : Layout) (vmemBaseAddr : Nat) (frameUser user : Slot)
    (garbage : Bytes) (fuel : Nat) (video : Nat → UInt8) (state : ProcessState)
    (session : Session) : Option (Ended × ProcessState) := do
  let pool := Pool.cleared video
  let (ret, state) ← systemVidmap layout state vmemBaseAddr
  if ret = -1 then pure (⟨-1, pool, session⟩, state)
  else
    let (rtcFd, session) ← ece391Open image (cstring (ascii "rtc")) session
    match ← addFrames image (cstring (ascii "frame0.txt")) (cstring (ascii "frame1.txt")) frameUser
      fuel pool session with
    | .error ended => pure (ended, state)
    | .ok (pool, session) =>
        let (_, session) ← ece391Write rtcFd (fun i => [32, 0, 0, 0].getD i 0) 4 session
        let (pool, session) ← waitTicks image rtcFd garbage fuel 100 pool session
        let (_, pool) := mp1IoctlAdd (letterStruct user) pool
        let (pool, session) ← waitTicks image rtcFd garbage fuel 100 pool session
        let (_, pool) ← mp1IoctlSync fuel ((40 : UInt32) <<< 16 ||| (6 * 80 + 60)) pool
        let (pool, session) ← waitTicks image rtcFd garbage fuel 100 pool session
        let (_, pool) ← mp1IoctlRemove fuel (6 * 80 + 60) pool
        let (pool, session) ← waitTicks image rtcFd garbage fuel 100 pool session
        pure (⟨0, pool, (ece391Close rtcFd session).2⟩, state)

/-- The calls of the driver for two texts. -/
def calls (frameUser user : Slot) (text0 text1 : List UInt8) : List Call :=
  (cells frameUser text0 text1).map Call.add ++ (List.replicate 100 .tasklet ++
    (.add (letterStruct user) :: (List.replicate 100 .tasklet ++
      (.sync ((40 : UInt32) <<< 16 ||| (6 * 80 + 60)) :: (List.replicate 100 .tasklet ++
        (.remove (6 * 80 + 60) :: List.replicate 100 .tasklet))))))

section

variable {image : Image} {session : Session} {pool last : Pool} {fuel inode : Nat} {fd : Fin 8}
variable {answers : List (Answer Slot)}

/-! ## Calls after one another -/

theorem serve_add {slot : Slot} {answer : Answer Slot}
    (served : pool.serve fuel (.add slot) = some (answer, last)) :
    (mp1IoctlAdd slot pool).2 = last :=
  congrArg Prod.snd (Option.some.inj served)

/-- The pool after a call that copies nothing. -/
theorem pool_of_plain {outcome : Option (Int × Pool)} {answer : Answer Slot}
    (served : outcome.map (Prod.map Answer.plain id) = some (answer, last)) :
    ∃ ret, outcome = some (ret, last) := by
  obtain ⟨⟨ret, next⟩, ended, same⟩ := Option.map_eq_some_iff.mp served
  obtain rfl : next = last := congrArg Prod.snd same
  exact ⟨ret, ended⟩

theorem serveAll_cons {call : Call} {more : List Call}
    (served : pool.serveAll fuel (call :: more) = some (answers, last)) :
    ∃ answer next answers', pool.serve fuel call = some (answer, next) ∧
      next.serveAll fuel more = some (answers', last) := by
  simp only [Pool.serveAll, Option.bind_eq_bind, Option.bind_eq_some_iff, Option.pure_def] at served
  obtain ⟨⟨answer, next⟩, first, ⟨answers', last'⟩, rest, same⟩ := served
  obtain ⟨-, rfl⟩ := Prod.mk.inj (Option.some.inj same)
  exact ⟨answer, next, answers', first, rest⟩

theorem serveAll_append {before after : List Call}
    (served : pool.serveAll fuel (before ++ after) = some (answers, last)) :
    ∃ answers' middle answers'', pool.serveAll fuel before = some (answers', middle) ∧
      middle.serveAll fuel after = some (answers'', last) := by
  induction before generalizing pool answers with
  | nil => exact ⟨[], pool, answers, rfl, served⟩
  | cons call before ih =>
      obtain ⟨answer, next, answers', first, rest⟩ := serveAll_cons served
      obtain ⟨answers', middle, answers'', served', served''⟩ := ih rest
      refine ⟨answer :: answers', middle, answers'', ?_, served''⟩
      simp only [Pool.serveAll, first, Option.bind_eq_bind, Option.bind_some, served',
        Option.pure_def]

theorem serveAll_add {slots : List Slot}
    (served : pool.serveAll fuel (slots.map Call.add) = some (answers, last)) :
    addAll pool slots = last := by
  induction slots generalizing pool answers with
  | nil => exact (Prod.mk.inj (Option.some.inj served)).2
  | cons slot slots ih =>
      obtain ⟨answer, next, answers', first, rest⟩ := serveAll_cons served
      rw [addAll, List.foldl_cons, serve_add first]
      exact ih rest

/-! ## The clock -/

/-- The descriptor of the clock. -/
def ClockAt (inode : Nat) (fd : Fin 8) (session : Session) : Prop :=
  session.fda fd = ⟨some .rtc, inode, 0, 1, 0⟩

/-- Each wait reads the clock and ticks the driver once. -/
theorem waitTicks_serves {count : Nat} (ready : session.Ready) (ticking : session.Ticking)
    (clock : ClockAt inode fd session) (garbage : Bytes)
    (served : pool.serveAll fuel (List.replicate count .tasklet) = some (answers, last)) :
    ∃ session', waitTicks image fd.val garbage fuel count pool session = some (last, session') ∧
      Undisturbed [] session session' := by
  induction count generalizing pool answers session with
  | zero =>
      obtain ⟨-, rfl⟩ := Prod.mk.inj (Option.some.inj served)
      exact ⟨session, rfl, .refl ready⟩
  | succ count ih =>
      rw [List.replicate_succ] at served
      obtain ⟨answer, next, answers', first, rest⟩ := serveAll_cons served
      simp only [Pool.serve, Option.map_eq_some_iff] at first
      obtain ⟨next', ticked, same⟩ := first
      obtain rfl : next' = next := congrArg Prod.snd same
      obtain ⟨session', read, silent, fda⟩ := @ece391Read_clock image session inode fd ready ticking
        clock garbage 4
      have kept : Undisturbed [] session session' :=
        ⟨silent.ready, silent.console, silent.ticking, fun other _ => congrFun fda other⟩
      obtain ⟨session'', waited, kept'⟩ := ih silent.ready (silent.ticking ticking)
        ((congrFun fda fd).trans clock) rest
      refine ⟨session'', ?_, kept.trans kept'⟩
      simp only [waitTicks, read, ticked, Option.bind_eq_bind, Option.bind_some, waited]

/-- A write to the clock completes and prints nothing. -/
theorem ece391Write_clock (ready : session.Ready) (clock : ClockAt inode fd session) (buf : Bytes)
    (nbytes : Int) :
    ∃ ret session', ece391Write fd.val buf nbytes session = some (ret, session') ∧
      Undisturbed [] session session' := by
  have range : ¬((fd.val : Int) < 0 ∨ (fd.val : Int) > 7) := by omega
  rw [ClockAt] at clock
  simp only [ece391Write, systemWrite, dif_neg range, Int.toNat_natCast, Fin.eta]
  rw [clock]
  exact ⟨_, _, rfl, ready, List.append_nil _, fun ticking k => ticking (k + 1), fun _ _ => rfl⟩

/-- A program `fish` shows what the reference model shows for the places of its two files, for the
ticks, and for the further character; it prints nothing else and returns 0. -/
theorem main_shows {layout : Layout} {vmemBaseAddr : Nat} {text0 text1 : List UInt8} {old : Fda}
    (wellFormed : image.WellFormed) (clock : HasClock image (ascii "rtc"))
    (file0 : HasFile image (ascii "frame0.txt") text0)
    (file1 : HasFile image (ascii "frame1.txt") text1)
    (started : session.fda = initFda old) (ticking : session.Ticking)
    (low : 0x8000000 ≤ vmemBaseAddr) (high : vmemBaseAddr + 3 < 0x8400000)
    (frameUser user : Slot) (placed : ∀ slot ∈ cells frameUser text0 text1, slot.location ≠ 0)
    (enough : 2000 < fuel) (enough0 : text0.length + 1 < fuel) (enough1 : text1.length + 1 < fuel)
    (garbage : Bytes) (video : Nat → UInt8) (state : ProcessState) :
    ∃ session' answers pool nodes,
      main image layout vmemBaseAddr frameUser user garbage fuel video state session =
        some (⟨0, pool, session'⟩, { state with paging := mapVidmem layout state.paging }) ∧
      session'.console = session.console ∧ Represents pool nodes ∧
      (⟨[], video⟩ : Shown).serveAll (calls frameUser user text0 text1) =
        (answers, ⟨nodes.map Prod.snd, pool.video⟩) := by
  -- What the driver does for the calls, in the order of `main`.
  obtain ⟨answers, last, nodes, served, represents, shown⟩ :=
    calls_serve (cleared_represents video) enough (calls frameUser user text0 text1) (by
      intro slot member
      simp only [calls, List.mem_append, List.mem_map, List.mem_cons, List.mem_replicate,
        Call.add.injEq, reduceCtorEq, and_false, false_or, or_false, exists_eq_right] at member
      rcases member with listed | rfl
      · exact placed slot listed
      · exact (by decide : (6 * 80 + 60 : UInt16) ≠ 0))
  obtain ⟨_, pool0, _, adds, rest0⟩ := serveAll_append served
  obtain ⟨_, pool1, _, ticks1, rest1⟩ := serveAll_append rest0
  obtain ⟨_, pool2, _, letter, rest2⟩ := serveAll_cons rest1
  obtain ⟨_, pool3, _, ticks2, rest3⟩ := serveAll_append rest2
  obtain ⟨_, pool4, _, synced, rest4⟩ := serveAll_cons rest3
  obtain ⟨_, pool5, _, ticks3, rest5⟩ := serveAll_append rest4
  obtain ⟨_, pool6, _, removed, ticks4⟩ := serveAll_cons rest5
  -- The descriptors.
  have ready := ready_of_initFda started
  obtain ⟨entry, first, type⟩ := clock
  obtain ⟨session0, opens, silent, fda0⟩ := @ece391Open_found image session _ entry .rtc 0 2 ready
    (first.lookup wellFormed.dirCount_le (first.query (terminated_holds (by decide))) _) type rfl
    (started ▸ firstFree_initFda old)
  have at0 : ClockAt (uint32 entry.inodeNum) 2 session0 := by
    rw [ClockAt, fda0, Function.update_self]
  obtain ⟨session1, added, kept1⟩ := @addFrames_adds image 3 4 frameUser session0
    (Pool.cleared video) fuel (cstring (ascii "frame0.txt")) (cstring (ascii "frame1.txt")) _ _
    text0 text1 wellFormed silent.ready (terminated_holds (by decide)) file0
    (terminated_holds (by decide)) file1 (by rw [fda0, started]; rfl)
    (fun inode => by rw [fda0, started]; rfl) enough0 enough1
  rw [serveAll_add adds] at added
  have at1 : ClockAt (uint32 entry.inodeNum) 2 session1 := (kept1.others 2 (by decide)).trans at0
  obtain ⟨_, session2, written, kept2⟩ := ece391Write_clock kept1.ready at1
    (fun i => [32, 0, 0, 0].getD i 0) 4
  have at2 : ClockAt (uint32 entry.inodeNum) 2 session2 := (kept2.others 2 (by simp)).trans at1
  have ticking2 := kept2.ticking (kept1.ticking (silent.ticking ticking))
  obtain ⟨session3, waited1, kept3⟩ := waitTicks_serves kept2.ready ticking2 at2 garbage ticks1
  have at3 : ClockAt (uint32 entry.inodeNum) 2 session3 := (kept3.others 2 (by simp)).trans at2
  have ticking3 := kept3.ticking ticking2
  obtain ⟨session4, waited2, kept4⟩ := waitTicks_serves kept3.ready ticking3 at3 garbage ticks2
  have at4 : ClockAt (uint32 entry.inodeNum) 2 session4 := (kept4.others 2 (by simp)).trans at3
  have ticking4 := kept4.ticking ticking3
  obtain ⟨session5, waited3, kept5⟩ := waitTicks_serves kept4.ready ticking4 at4 garbage ticks3
  have at5 : ClockAt (uint32 entry.inodeNum) 2 session5 := (kept5.others 2 (by simp)).trans at4
  obtain ⟨session6, waited4, kept6⟩ := waitTicks_serves kept5.ready (kept5.ticking ticking4) at5
    garbage ticks4
  have closed : Undisturbed [2] session6 (ece391Close (2 : Fin 8).val session6).2 :=
    ece391Close_undisturbed kept6.ready (Nat.le_refl 2) (List.mem_singleton_self _)
  refine ⟨(ece391Close (2 : Fin 8).val session6).2, _, last, nodes, ?_, ?_, represents, shown⟩
  · have mapped : systemVidmap layout state vmemBaseAddr =
        some (0, { state with paging := mapVidmem layout state.paging }) := by
      rw [systemVidmap, if_neg (by omega), if_neg (by omega), if_pos high]
    obtain ⟨_, synced'⟩ := pool_of_plain synced
    obtain ⟨_, removed'⟩ := pool_of_plain removed
    rw [main, mapped]
    simp only [Option.bind_eq_bind, Option.bind_some, opens, added, written]
    rw [if_neg (by decide), waited1, Option.bind_some, serve_add letter, waited2, Option.bind_some,
      synced', Option.bind_some, waited3, Option.bind_some, removed', Option.bind_some, waited4]
    rfl
  · rw [closed.console, kept6.console, kept5.console, kept4.console, kept3.console, kept2.console,
      kept1.console, silent.console]

end

/-- An image with the clock and two frames. -/
def pondImage : Image where
  dirCount := 3
  inodeCount := 3
  dataCount := 2
  direntries index :=
    let name := [ascii "rtc", ascii "frame0.txt", ascii "frame1.txt"].getD index []
    ⟨fun i => name.getD i 0, if index = 0 then 0 else 2, index⟩
  inodes inode := ⟨if inode = 0 then 0 else 4, fun _ => if inode = 1 then 0 else 1⟩
  dataBlocks block i := (if block = 0 then ascii "ab\nc" else ascii " x\n\n").getD i 0

theorem pondImage_wellFormed : pondImage.WellFormed where
  dirCount_nonneg := by decide
  dirCount_le := by decide
  inodeCount_lt := by decide
  dataCount_lt := by decide
  inodeNum_range i bound := by
    simp only [pondImage] at bound ⊢
    omega
  length_range inode _ := by
    simp only [pondImage]
    split <;> omega
  block_range inode _ index _ := by
    simp only [pondImage]
    split <;> omega

theorem pondImage_frames :
    HasFile pondImage (ascii "frame0.txt") (ascii "ab\nc") ∧
      HasFile pondImage (ascii "frame1.txt") (ascii " x\n\n") := by
  constructor
  · refine ⟨_, ⟨1, by decide, rfl, by decide, by decide⟩, rfl, ?_⟩
    rw [fileContent_eq (by decide)]
    decide
  · refine ⟨_, ⟨2, by decide, rfl, by decide, by decide⟩, rfl, ?_⟩
    rw [fileContent_eq (by decide)]
    decide

/-- A program just started. -/
def pondSession : Session :=
  ⟨initFda fun _ => ⟨none, 0, 0, 0, 0⟩, fun _ => ⟨typedDevices [], ⟨fun _ => 0, 0, 0⟩⟩, []⟩

theorem pondSession_ticking : pondSession.Ticking :=
  fun _ => Nat.one_ne_zero

/-- Two small frames. -/
theorem main_shows_pond :
    ∃ session' answers pool nodes,
      main pondImage smallLayout 0x8049000 zeroed zeroed (fun _ => 0) 2001 (fun _ => 32)
          (bootState smallLayout) pondSession =
        some (⟨0, pool, session'⟩, { bootState smallLayout with
          paging := mapVidmem smallLayout (bootState smallLayout).paging }) ∧
      session'.console = [] ∧ Represents pool nodes ∧
      (⟨[], fun _ => 32⟩ : Shown).serveAll
          (calls zeroed zeroed (ascii "ab\nc") (ascii " x\n\n")) =
        (answers, ⟨nodes.map Prod.snd, pool.video⟩) :=
  main_shows pondImage_wellFormed
    ⟨_, ⟨0, by decide, rfl, by decide, fun k below => absurd below (by omega)⟩, rfl⟩
    pondImage_frames.1 pondImage_frames.2 rfl pondSession_ticking (by decide) (by decide)
    zeroed zeroed (by decide) (by decide) (by decide) (by decide) (fun _ => 0) (fun _ => 32)
    (bootState smallLayout)

end Ece391.Programs.Fish
