import Ece391.BlinkDriver.Runs
import Mathlib.Logic.Function.Iterate

/-!
# The period of a blinking character

Between tasklet runs a character that is alone at its location is not touched by the
calls that change other locations, and each tasklet run ticks it exactly once.  Its
phase, countdown and the byte on the screen are therefore those of a two-phase timer.
-/

namespace Ece391.BlinkDriver

open Ece391.Library

/-! ## One character as a timer -/

section Timer

variable {blink start : Blink}

/-- The phase and countdown of a blinking character. -/
def Blink.timer (blink : Blink) : TwoPhase :=
  ⟨blink.on, blink.countdown.toNat⟩

/-- A tick changes nothing but the phase and the countdown. -/
theorem Blink.tick_fixed (blink : Blink) :
    ∃ on countdown, blink.tick = { blink with on := on, countdown := countdown } := by
  rw [Blink.tick]
  split
  · split
    · exact ⟨_, _, rfl⟩
    · exact ⟨_, _, rfl⟩
  · exact ⟨_, _, rfl⟩

/-- Any number of ticks changes nothing but the phase and the countdown. -/
theorem Blink.iterate_fixed (start : Blink) (ticks : Nat) :
    ∃ on countdown, Blink.tick^[ticks] start = { start with on := on, countdown := countdown } := by
  induction ticks with
  | zero => exact ⟨start.on, start.countdown, rfl⟩
  | succ ticks ih =>
      obtain ⟨_, _, before⟩ := ih
      obtain ⟨on, countdown, ticked⟩ := Blink.tick_fixed (Blink.tick^[ticks] start)
      refine ⟨on, countdown, ?_⟩
      rw [Function.iterate_succ_apply', ticked, before]

@[simp] theorem Blink.iterate_location (start : Blink) (ticks : Nat) :
    (Blink.tick^[ticks] start).location = start.location := by
  obtain ⟨_, _, same⟩ := start.iterate_fixed ticks
  rw [same]

/-- The character shown after a tick. -/
theorem Blink.tick_char (blink : Blink) :
    (if blink.Flips then blink.tick.char else blink.char) = blink.tick.char := by
  by_cases flips : blink.Flips
  · rw [if_pos flips]
  · rw [if_neg flips]
    simp [Blink.tick, flips, Blink.char]

/-- A tick of a character whose countdown has not run out is a tick of its timer. -/
theorem Blink.tick_timer (running : 0 < blink.timer.countdown) :
    blink.tick.timer = blink.timer.tick blink.onLength.toNat blink.offLength.toNat := by
  have counted : (blink.countdown - 1).toNat = blink.countdown.toNat - 1 := by
    rw [UInt16.toNat_sub_of_le]
    · rfl
    · exact UInt16.le_iff_toNat_le.mpr running
  have flips_iff : blink.Flips ↔ blink.countdown.toNat - 1 = 0 := by
    rw [Blink.Flips, ← UInt16.toNat_inj, counted]
    rfl
  simp only [Blink.tick, Blink.timer, TwoPhase.tick, flips_iff]
  by_cases flips : blink.countdown.toNat - 1 = 0
  · simp only [flips, if_true]
    by_cases phase : blink.on = true
    · simp only [phase, if_true]
    · simp only [phase, if_false, Bool.false_eq_true]
  · simp only [flips, if_false, counted]

/-- From the start of its first phase a character is a two-phase timer. -/
theorem Blink.iterate_timer (begins : start.timer = ⟨true, start.onLength.toNat⟩)
    (onPositive : 0 < start.onLength.toNat) (offPositive : 0 < start.offLength.toNat)
    (ticks : Nat) :
    (Blink.tick^[ticks] start).timer =
      TwoPhase.after start.onLength.toNat start.offLength.toNat ticks := by
  induction ticks with
  | zero => rw [Function.iterate_zero_apply, begins, TwoPhase.after_zero onPositive]
  | succ ticks ih =>
      have running : 0 < (TwoPhase.after start.onLength.toNat start.offLength.toNat
          ticks).countdown := TwoPhase.after_countdown_pos onPositive ticks
      rw [← ih] at running
      have lengths : (Blink.tick^[ticks] start).onLength = start.onLength ∧
          (Blink.tick^[ticks] start).offLength = start.offLength := by
        obtain ⟨_, _, same⟩ := start.iterate_fixed ticks
        rw [same]
        exact ⟨rfl, rfl⟩
      rw [Function.iterate_succ_apply', Blink.tick_timer running, ih, lengths.1, lengths.2,
        TwoPhase.tick_after onPositive offPositive]

end Timer

/-! ## One byte of the screen -/

section Screen

variable {blink other : Blink} {blinks : List Blink} {video : Nat → UInt8} {location : UInt16}

theorem showChar_self (video : Nat → UInt8) (blink : Blink) :
    showChar video blink (2 * blink.location.toNat) = blink.char :=
  Function.update_self ..

/-- Showing a character does not change the bytes of other locations. -/
theorem showChar_other (different : blink.location ≠ location) :
    showChar video blink (2 * location.toNat) = video (2 * location.toNat) := by
  refine Function.update_of_ne (fun same => different ?_) ..
  exact UInt16.toNat_inj.mp (by omega)

/-- A request changes no byte of a location whose elements it does not change. -/
theorem Panel.apply_video {request : Request} (panel : Panel)
    (unchanged : ¬request.Changes location) :
    (panel.apply request).video (2 * location.toNat) = panel.video (2 * location.toNat) := by
  cases request with
  | add blink => exact showChar_other unchanged
  | sync first second =>
      rw [Panel.apply]
      split
      next source target _ found =>
        have same : target.location = second := by simpa using List.find?_some found
        exact showChar_other fun here => unchanged (same.symm.trans here)
      next => rfl
  | _ => rfl

/-- A tasklet run shows the flip of the character that is alone at its location. -/
theorem showFlips_alone (alone : ∀ other ∈ blinks, other.location = blink.location → other = blink)
    (video : Nat → UInt8) :
    showFlips video blinks (2 * blink.location.toNat) =
      if blink ∈ blinks ∧ blink.Flips then blink.tick.char
      else video (2 * blink.location.toNat) := by
  induction blinks generalizing video with
  | nil => simp [showFlips]
  | cons other rest ih =>
      have ticked (blink : Blink) : blink.tick.location = blink.location := blink.iterate_location 1
      rw [showFlips, ih fun later membership => alone later (List.mem_cons_of_mem other membership)]
      by_cases same : other = blink
      · subst same
        have shown := showChar_self video other.tick
        rw [ticked] at shown
        by_cases flips : other.Flips <;> simp [flips, shown]
      · have different : other.location ≠ blink.location := fun equal =>
          same (alone other List.mem_cons_self equal)
        have kept : showChar video other.tick (2 * blink.location.toNat) =
            video (2 * blink.location.toNat) :=
          showChar_other ((ticked other).symm ▸ different)
        by_cases flips : other.Flips <;> simp [flips, kept, Ne.symm same]

end Screen

/-! ## Runs that leave a location alone -/

/-- Whether an event names a location. -/
def Event.Names (location : UInt16) : Event → Prop
  | .ioctl env arg cmd => (requested env arg cmd).Names location
  | .tasklet => False

/-- Whether an event may add, remove or rewrite an element at a location. -/
def Event.Changes (location : UInt16) : Event → Prop
  | .ioctl env arg cmd => (requested env arg cmd).Changes location
  | .tasklet => False

theorem Event.Changes.names {location : UInt16} {event : Event}
    (changes : event.Changes location) : event.Names location := by
  cases event with
  | ioctl env arg cmd => exact Request.Changes.names changes
  | tasklet => exact changes.elim

/-- The number of tasklet runs among some events. -/
def taskletRuns (events : List Event) : Nat :=
  events.countP fun
    | .ioctl .. => false
    | .tasklet => true

@[simp] theorem taskletRuns_ioctl (events : List Event) (env : Env) (arg cmd : UInt32) :
    taskletRuns (events ++ [.ioctl env arg cmd]) = taskletRuns events := by
  simp [taskletRuns]

@[simp] theorem taskletRuns_tasklet (events : List Event) :
    taskletRuns (events ++ [.tasklet]) = taskletRuns events + 1 := by
  simp [taskletRuns]

/-- A pointer holds the only character at its location, and the screen shows it. -/
structure Shows (device : Device) (ptr : Ptr) (blink : Blink) (nodes : Nodes) : Prop where
  represents : Represents device nodes
  listed : (ptr, blink) ∈ nodes
  alone : ∀ node ∈ nodes, node.2.location = blink.location → node = (ptr, blink)
  shown : device.video (2 * blink.location.toNat) = blink.char

section Runs

variable {device device' : Device} {ptr : Ptr} {blink start : Blink} {nodes : Nodes}
variable {env : Env} {event : Event} {events : List Event}

/-- A call that changes other locations leaves the character alone. -/
theorem Shows.ioctl {arg cmd : UInt32} {result : Result} (shows : Shows device ptr blink nodes)
    (fresh : Fresh env device) (called : ioctl env device arg cmd = some result)
    (unchanged : ¬(requested env arg cmd).Changes blink.location) :
    ∃ nodes', Shows result.device ptr blink nodes' := by
  obtain ⟨_, same, serves⟩ := ioctl_spec shows.represents fresh arg cmd
  obtain rfl := Option.some.inj (called.symm.trans same)
  obtain ⟨nodes', represents, applied, kept⟩ := serves.represents
  refine ⟨nodes', represents, (kept _ unchanged).mpr shows.listed, fun node listed here => ?_, ?_⟩
  · have still : ¬(requested env arg cmd).Changes node.2.location := here ▸ unchanged
    exact shows.alone node ((kept node still).mp listed) here
  · have video := Panel.apply_video (panelOf device nodes) unchanged
    rw [← applied] at video
    exact video.trans shows.shown

/-- A tasklet run ticks the character once. -/
theorem Shows.tasklet (shows : Shows device ptr blink nodes)
    (ran : rtcTasklet device = some device') : ∃ nodes', Shows device' ptr blink.tick nodes' := by
  obtain ⟨_, same, represents, video⟩ := rtcTasklet_spec shows.represents
  obtain rfl := Option.some.inj (ran.symm.trans same)
  have ticked (blink : Blink) : blink.tick.location = blink.location := blink.iterate_location 1
  refine ⟨_, represents, List.mem_map.mpr ⟨(ptr, blink), shows.listed, rfl⟩,
    fun node listed here => ?_, ?_⟩
  · obtain ⟨before, membership, rfl⟩ := List.mem_map.mp listed
    rw [ticked, ticked] at here
    rw [shows.alone before membership here]
  · have alone : ∀ other ∈ nodes.map Prod.snd, other.location = blink.location → other = blink := by
      intro other membership here
      obtain ⟨node, listed, rfl⟩ := List.mem_map.mp membership
      rw [shows.alone node listed here]
    have member : blink ∈ nodes.map Prod.snd := List.mem_map_of_mem shows.listed
    rw [video, ticked, showFlips_alone alone, shows.shown]
    simpa only [member, true_and] using blink.tick_char

/-- After a run that changes other locations the character has ticked once for each
tasklet run. -/
theorem Shows.run (shows : Shows device ptr start nodes) (run : Run Step device events device')
    (unchanged : ∀ event ∈ events, ¬event.Changes start.location) :
    ∃ nodes', Shows device' ptr (Blink.tick^[taskletRuns events] start) nodes' := by
  refine (run.restrict unchanged).history
    (fun past device => ∃ nodes, Shows device ptr (Blink.tick^[taskletRuns past] start) nodes) ?_
    [] ⟨nodes, shows⟩
  rintro past before event after ⟨nodes, shows⟩ ⟨step, other⟩
  cases step with
  | ioctl fresh called =>
      rw [taskletRuns_ioctl]
      apply shows.ioctl fresh called
      rw [Blink.iterate_location]
      exact other
  | tasklet ran =>
      rw [taskletRuns_tasklet, Function.iterate_succ_apply']
      exact shows.tasklet ran

/-- A successful call of `mp1_ioctl_add` at an unused location shows its character. -/
theorem Represents.added {arg : UInt32} {result : Result} (represents : Represents device nodes)
    (fresh : Fresh env device) (called : ioctl env device arg 0 = some result)
    (success : result.ok = true)
    (unused : ∀ ptr cell, device.heap ptr = some cell → cell.location ≠ env.fromUser.location) :
    ∃ valid nodes', Shows result.device env.malloc (.start env.fromUser valid) nodes' := by
  have dispatched : ioctl env device arg 0 = ioctlAdd env device arg := rfl
  obtain ⟨_, same, serves⟩ := ioctlAdd_spec represents fresh arg
  obtain rfl := Option.some.inj (called.symm.trans (dispatched.trans same))
  have accepted := serves.accepted
  rw [success, requestedAdd] at accepted
  split at accepted
  · cases accepted
  next allowed =>
    simp only [not_or, ne_eq, not_not] at allowed
    obtain ⟨block, named, copied⟩ := allowed
    split at accepted
    next valid =>
      rw [ioctlAdd_success device block named copied valid] at same
      obtain rfl := Option.some.inj same
      refine ⟨valid, _, represents.add block fresh _, List.mem_cons_self,
        fun node listed here => ?_, showChar_self device.video _⟩
      rcases List.mem_cons.mp listed with rfl | earlier
      · rfl
      · obtain ⟨next, stored⟩ := represents.stored.contents node earlier
        exact absurd here (unused node.1 _ stored)
    · cases accepted

end Runs

/-- After a successful addition, with positive lengths and at a location that no other
element has, calls that name other locations and tasklet runs in any order leave the
added element in the list.  After `n` tasklet runs the screen shows its first
character in the first `onLength` runs of each period and its second otherwise, and
its countdown is the least number of runs after which that changes. -/
theorem added_character_is_periodic {video : Nat → UInt8} {history events : List Event}
    {device last : Device} {env : Env} {arg : UInt32} {result : Result}
    (reached : Run Step (idle video) history device)
    (fresh : Fresh env device) (called : ioctl env device arg 0 = some result)
    (success : result.ok = true)
    (onPositive : 1 ≤ env.fromUser.onLength) (offPositive : 1 ≤ env.fromUser.offLength)
    (unused : ∀ ptr cell, device.heap ptr = some cell → cell.location ≠ env.fromUser.location)
    (run : Run Step result.device events last)
    (unnamed : ∀ event ∈ events, ¬event.Names env.fromUser.location) :
    let runs := taskletRuns events
    let onLength := env.fromUser.onLength.toNat
    let period := onLength + env.fromUser.offLength.toNat
    last.video (2 * env.fromUser.location.toNat) =
        (if runs % period < onLength then env.fromUser.onChar else env.fromUser.offChar) ∧
    ∃ cell, last.heap env.malloc = some cell ∧ cell.location = env.fromUser.location ∧
      (∀ ptr other, last.heap ptr = some other → other.location = cell.location →
        ptr = env.malloc) ∧
      IsLeast {later | ¬((runs + later) % period < onLength ↔ runs % period < onLength)}
        cell.countdown.toNat := by
  intro runs onLength period
  obtain ⟨nodes, represents, _⟩ := Represents.run reached
  obtain ⟨valid, nodes', shows⟩ := represents.added fresh called success unused
  obtain ⟨nodes'', shows'⟩ := shows.run run fun event member changes =>
    unnamed event member changes.names
  have onNat : 0 < onLength := UInt16.le_iff_toNat_le.mp onPositive
  have offNat : 0 < env.fromUser.offLength.toNat := UInt16.le_iff_toNat_le.mp offPositive
  let start := Blink.start env.fromUser valid
  have begins : start.timer = ⟨true, onLength⟩ := rfl
  have timer := Blink.iterate_timer begins onNat offNat runs
  obtain ⟨on, countdown, same⟩ := start.iterate_fixed runs
  rw [same] at shows' timer
  have phase : on = decide (runs % period < onLength) :=
    (congrArg TwoPhase.on timer).trans (TwoPhase.after_on runs)
  have counted : countdown.toNat =
      (TwoPhase.after onLength env.fromUser.offLength.toNat runs).countdown :=
    congrArg TwoPhase.countdown timer
  obtain ⟨next, stored⟩ := shows'.represents.stored.contents _ shows'.listed
  refine ⟨?_, _, stored, rfl, fun ptr other present here => ?_, ?_⟩
  · apply shows'.shown.trans
    simp only [Blink.char, phase, decide_eq_true_eq]
    rfl
  · obtain ⟨node, listed, rfl, next', rfl⟩ := shows'.represents.block present
    rw [shows'.alone node listed here]
  · have least := TwoPhase.after_countdown_isLeast onNat offNat runs
    rw [← counted] at least
    exact least

/-- With lengths 2 and 1 the second character is shown after two tasklet runs. -/
theorem added_character_is_periodic_twice :
    ∃ last, Run Step smallDevice [.tasklet, .tasklet] last ∧ last.video 10 = 66 ∧
      ∃ cell, last.heap 4096 = some cell ∧ cell.location = 5 := by
  have fresh : Fresh smallEnv (idle fun _ => 0) := fun _ => rfl
  obtain ⟨nodes, represents, _⟩ := Represents.run (.single (.ioctl fresh smallDevice_added))
  obtain ⟨middle, first, represents', _⟩ := rtcTasklet_spec represents
  obtain ⟨last, second, _⟩ := rtcTasklet_spec represents'
  have run : Run Step smallDevice [.tasklet, .tasklet] last :=
    .cons (.tasklet first) (.single (.tasklet second))
  have unused : ∀ ptr cell, (idle fun _ => 0).heap ptr = some cell →
      cell.location ≠ smallEnv.fromUser.location := by
    rintro _ _ ⟨⟩
  have unnamed : ∀ event ∈ [Event.tasklet, .tasklet], ¬event.Names smallEnv.fromUser.location := by
    simp [Event.Names]
  obtain ⟨shown, cell, stored, here, _⟩ := added_character_is_periodic (.nil _) fresh
    smallDevice_added rfl (by decide) (by decide) unused run unnamed
  exact ⟨last, run, shown, cell, stored, here⟩

end Ece391.BlinkDriver
