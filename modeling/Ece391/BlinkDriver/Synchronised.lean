import Ece391.BlinkDriver.Period

/-!
# Synchronised characters

A successful SYNC gives two elements of the list the same lengths, countdown and status.
Every tasklet run ticks both, and the calls that change neither location leave them alone,
so they stay in step.  On the screen they are in step as well, provided the source showed
its own character: REMOVE leaves on the screen what the removed element showed, and SYNC
writes only the character of its target.
-/

namespace Ece391.BlinkDriver

open Ece391.Library

/-! ## One element between the calls that change its location -/

/-- A pointer holds a character of the list. -/
def Holds (device : Device) (ptr : Ptr) (blink : Blink) : Prop :=
  ∃ nodes, Represents device nodes ∧ (ptr, blink) ∈ nodes

section

variable {device device' : Device} {env : Env} {arg cmd : UInt32} {result : Result}
variable {ptr : Ptr} {blink start : Blink} {nodes : Nodes} {events : List Event}
variable {location : UInt16}

/-- A call that does not change the element's location keeps it. -/
theorem Holds.ioctl (holds : Holds device ptr blink) (fresh : Fresh env device)
    (called : ioctl env device arg cmd = some result)
    (unchanged : ¬(requested env arg cmd).Changes blink.location) :
    Holds result.device ptr blink := by
  obtain ⟨nodes, represents, listed⟩ := holds
  obtain ⟨_, same, serves⟩ := ioctl_spec represents fresh arg cmd
  obtain rfl := Option.some.inj (called.symm.trans same)
  obtain ⟨nodes', represents', -, kept⟩ := serves.represents
  exact ⟨nodes', represents', (kept (ptr, blink) unchanged).mpr listed⟩

/-- A tasklet run ticks it. -/
theorem Holds.tasklet (holds : Holds device ptr blink) (ran : rtcTasklet device = some device') :
    Holds device' ptr blink.tick := by
  obtain ⟨nodes, represents, listed⟩ := holds
  obtain ⟨_, same, represents', -⟩ := rtcTasklet_spec represents
  obtain rfl := Option.some.inj (ran.symm.trans same)
  exact ⟨_, represents', List.mem_map.mpr ⟨(ptr, blink), listed, rfl⟩⟩

/-- After events that do not change its location it has ticked once for each tasklet run. -/
theorem Holds.run (holds : Holds device ptr start) (run : Run Step device events device')
    (unchanged : ∀ event ∈ events, ¬event.Changes start.location) :
    Holds device' ptr (Blink.tick^[taskletRuns events] start) := by
  refine (run.restrict unchanged).history
    (fun past device => Holds device ptr (Blink.tick^[taskletRuns past] start)) ?_ [] holds
  rintro past before event after holds ⟨step, other⟩
  cases step with
  | ioctl fresh called =>
      rw [taskletRuns_ioctl]
      apply holds.ioctl fresh called
      rw [Blink.iterate_location]
      exact other
  | tasklet ran =>
      rw [taskletRuns_tasklet, Function.iterate_succ_apply']
      exact holds.tasklet ran

end

/-! ## What a location shows -/

/-- Every character at a location is the one shown there. -/
def Panel.Tidy (location : UInt16) (panel : Panel) : Prop :=
  ∀ blink ∈ panel.blinks, blink.location = location →
    panel.video (2 * location.toNat) = blink.char

/-- The number of characters at a location. -/
def Panel.users (location : UInt16) (panel : Panel) : Nat :=
  panel.blinks.countP fun blink => blink.location = location

section

variable {panel : Panel} {location : UInt16} {blink other : Blink} {blinks : List Blink}

theorem users_unique {α : Type} {accept : α → Bool} {list : List α} {one other : α}
    (once : list.countP accept ≤ 1) (member : one ∈ list) (accepted : accept one)
    (member' : other ∈ list) (accepted' : accept other) : one = other := by
  rw [List.countP_eq_length_filter] at once
  have listed : one ∈ list.filter accept := List.mem_filter.mpr ⟨member, accepted⟩
  have listed' : other ∈ list.filter accept := List.mem_filter.mpr ⟨member', accepted'⟩
  match found : list.filter accept with
  | [] => simp [found] at listed
  | [only] =>
      rw [found, List.mem_singleton] at listed listed'
      rw [listed, listed']
  | _ :: _ :: _ => simp [found] at once

theorem mem_replaceFirst {α : Type} {accept : α → Bool} {replacement : α → α} {list : List α}
    {element : α} (member : element ∈ replaceFirst accept replacement list) :
    element ∈ list ∨ ∃ before ∈ list, accept before ∧ element = replacement before := by
  induction list with
  | nil => simp [replaceFirst] at member
  | cons head rest ih =>
      rw [replaceFirst] at member
      split at member
      next accepted =>
        rcases List.mem_cons.mp member with rfl | later
        · exact .inr ⟨head, List.mem_cons_self, accepted, rfl⟩
        · exact .inl (List.mem_cons_of_mem _ later)
      next =>
        rcases List.mem_cons.mp member with rfl | later
        · exact .inl List.mem_cons_self
        · rcases ih later with kept | ⟨before, listed, accepted, rfl⟩
          · exact .inl (List.mem_cons_of_mem _ kept)
          · exact .inr ⟨before, List.mem_cons_of_mem _ listed, accepted, rfl⟩

theorem replaceFirst_find {α : Type} {accept : α → Bool} {replacement : α → α} {list : List α}
    {element : α} (found : list.find? accept = some element) :
    replacement element ∈ replaceFirst accept replacement list := by
  obtain ⟨accepted, left, right, rfl, first⟩ := List.find?_eq_some_iff_append.mp found
  rw [replaceFirst_split replacement (fun other member => by simpa using first other member)
    accepted]
  simp

/-- A request keeps a location tidy that at most one character uses afterwards. -/
theorem Panel.Tidy.apply {request : Request} (tidy : panel.Tidy location)
    (once : (panel.apply request).users location ≤ 1) :
    (panel.apply request).Tidy location := by
  cases request with
  | rejected | find => exact tidy
  | remove removed =>
      intro blink member here
      exact tidy blink (List.mem_of_mem_eraseP member) here
  | add added =>
      intro blink member here
      by_cases same : added.location = location
      · obtain rfl : added = blink := users_unique once List.mem_cons_self
          (decide_eq_true same) member (decide_eq_true here)
        rw [← same]
        exact showChar_self ..
      · rcases List.mem_cons.mp member with rfl | earlier
        · exact absurd here same
        · exact (showChar_other same).trans (tidy blink earlier here)
  | sync first second =>
      simp only [Panel.apply] at once ⊢
      split
      next source target foundFirst foundSecond =>
        simp only [foundFirst, foundSecond] at once
        have at_second : target.location = second := by
          simpa using List.find?_some foundSecond
        intro blink member here
        by_cases same : second = location
        · have listed : target.withTiming source ∈
              replaceFirst (·.location = second) (·.withTiming source) panel.blinks :=
            replaceFirst_find foundSecond
          obtain rfl : target.withTiming source = blink := users_unique once listed
            (decide_eq_true (at_second.trans same)) member (decide_eq_true here)
          rw [← here]
          exact showChar_self ..
        · have kept : blink ∈ panel.blinks := by
            rcases mem_replaceFirst member with kept | ⟨before, -, accepted, rfl⟩
            · exact kept
            · have moved : before.location = second := by simpa using accepted
              exact absurd (moved.symm.trans here) same
          have away : (target.withTiming source).location ≠ location := fun equal =>
            same (at_second.symm.trans equal)
          exact (showChar_other away).trans (tidy blink kept here)
      next => exact tidy

/-- So does a tasklet run. -/
theorem Panel.Tidy.tick (tidy : panel.Tidy location) (once : panel.users location ≤ 1) :
    panel.tick.Tidy location := by
  intro ticked member here
  obtain ⟨blink, listed, rfl⟩ := List.mem_map.mp member
  have place : blink.tick.location = blink.location := blink.iterate_location 1
  rw [place] at here
  subst here
  have alone : ∀ other ∈ panel.blinks, other.location = blink.location → other = blink :=
    fun other member same => users_unique once member (decide_eq_true same) listed
      (decide_eq_true rfl)
  have flipped : panel.tick.video (2 * blink.location.toNat) = _ :=
    showFlips_alone alone panel.video
  rw [flipped, tidy blink listed rfl]
  simpa only [listed, true_and] using blink.tick_char

end

/-! ## Synchronising -/

/-- No element has a location. -/
def Unused (location : UInt16) (device : Device) : Prop :=
  ∀ ptr cell, device.heap ptr = some cell → cell.location ≠ location

/-- At most one element has a location. -/
def UsedOnce (location : UInt16) (device : Device) : Prop :=
  ∀ ptr ptr' cell cell', device.heap ptr = some cell → device.heap ptr' = some cell' →
    cell.location = location → cell'.location = location → ptr = ptr'

/-- Since some time at which a location was unused, at most one element at a time has had
it. -/
def ServedAlone (video : Nat → UInt8) (location : UInt16) (device : Device) : Prop :=
  ∃ earlier recent origin, Run Step (idle video) earlier origin ∧ Unused location origin ∧
    Run (fun before event after => Step before event after ∧ UsedOnce location after)
      origin recent device

/-- Two characters with the same timing. -/
structure Blink.InStep (first second : Blink) : Prop where
  onLength : second.onLength = first.onLength
  offLength : second.offLength = first.offLength
  countdown : second.countdown = first.countdown
  on : second.on = first.on

section

variable {device device' : Device} {nodes : Nodes} {location : UInt16} {video : Nat → UInt8}
variable {first second blink : Blink} {source target : Ptr} {arg : UInt32} {result : Result}

theorem Blink.InStep.tick (inStep : first.InStep second) : first.tick.InStep second.tick := by
  obtain ⟨on, off, countdown, phase⟩ := inStep
  have flips : second.Flips ↔ first.Flips := by rw [Blink.Flips, Blink.Flips, countdown]
  simp only [Blink.tick, flips, phase]
  split
  · split
    · exact ⟨on, off, off, rfl⟩
    · exact ⟨on, off, on, rfl⟩
  · exact ⟨on, off, by simp only [countdown], rfl⟩

theorem Blink.InStep.iterate (inStep : first.InStep second) (ticks : Nat) :
    (Blink.tick^[ticks] first).InStep (Blink.tick^[ticks] second) := by
  induction ticks with
  | zero => exact inStep
  | succ ticks ih =>
      rw [Function.iterate_succ_apply', Function.iterate_succ_apply']
      exact ih.tick

theorem usedOnce_users (represents : Represents device nodes) (once : UsedOnce location device) :
    (panelOf device nodes).users location ≤ 1 := by
  have distinct := represents.stored.nodup
  have same : ∀ node ∈ nodes, ∀ other ∈ nodes, node.2.location = location →
      other.2.location = location → node.1 = other.1 := by
    intro node listed other listed' here here'
    obtain ⟨next, stored⟩ := represents.stored.contents node listed
    obtain ⟨next', stored'⟩ := represents.stored.contents other listed'
    exact once _ _ _ _ stored stored' here here'
  rw [Panel.users, panelOf, List.countP_map, List.countP_eq_length_filter]
  have listed : ∀ node ∈ nodes.filter ((fun blink => decide (blink.location = location)) ∘
      Prod.snd), node ∈ nodes ∧ node.2.location = location := fun node member => by
    simpa using List.mem_filter.mp member
  have apart := (distinct.sublist
    ((List.filter_sublist (p := (fun blink => decide (blink.location = location)) ∘
      Prod.snd)).map Prod.fst))
  cases found : nodes.filter ((fun blink => decide (blink.location = location)) ∘ Prod.snd) with
  | nil => simp
  | cons node rest =>
      rw [found] at apart listed
      cases rest with
      | nil => simp
      | cons other rest =>
          have first := listed node List.mem_cons_self
          have second := listed other (List.mem_cons_of_mem _ List.mem_cons_self)
          have pointer := same node first.1 other second.1 first.2 second.2
          simp [pointer] at apart

/-- A location that has been served alone shows the character of its element. -/
theorem ServedAlone.tidy (served : ServedAlone video location device) :
    ∃ nodes, Represents device nodes ∧ (panelOf device nodes).Tidy location := by
  obtain ⟨earlier, recent, origin, reached, unused, run⟩ := served
  obtain ⟨nodes, represents, -⟩ := Represents.run reached
  refine run.invariant
    (fun device => ∃ nodes, Represents device nodes ∧ (panelOf device nodes).Tidy location) ?_
    ⟨nodes, represents, ?_⟩
  · rintro before event after ⟨nodes, represents, tidy⟩ ⟨step, once⟩
    obtain ⟨nodes', represents', stepped⟩ := represents.step step
    have users := usedOnce_users represents' once
    refine ⟨nodes', represents', ?_⟩
    rw [stepped] at users ⊢
    cases event with
    | ioctl env arg cmd => exact tidy.apply users
    | tasklet =>
        have same : ((panelOf before nodes).step .tasklet).users location =
            (panelOf before nodes).users location := by
          have place (blink : Blink) : blink.tick.location = blink.location :=
            blink.iterate_location 1
          simp only [Panel.users, Panel.step, Panel.tick, List.countP_map]
          exact congrArg (List.countP · _) (funext fun blink => by simp [place])
        exact tidy.tick (same ▸ users)
  · intro blink member here
    obtain ⟨node, listed, rfl⟩ := List.mem_map.mp member
    obtain ⟨next, stored⟩ := represents.stored.contents node listed
    exact absurd here (unused _ _ stored)

/-- A successful call is none that was refused. -/
theorem not_refused {refused result : Result} (called : some refused = some result)
    (success : result.ok = true) (fails : refused.ok = false) : False := by
  obtain rfl := Option.some.inj called
  rw [fails] at success
  cases success

/-- What a successful SYNC does to the two elements that it finds. -/
theorem ioctl_sync_device (represents : Represents device nodes) {env : Env}
    (called : ioctl env device arg 3 = some result) (success : result.ok = true)
    (foundSource : traversalInit (arg >>> 16).toUInt16 0 device = some (source, device))
    (foundTarget : traversalInit arg.toUInt16 0 device = some (target, device)) :
    ∃ first second left right,
      (source, first) ∈ nodes ∧ first.location = (arg >>> 16).toUInt16 ∧
      nodes = left ++ (target, second) :: right ∧ second.location = arg.toUInt16 ∧
      Represents result.device (left ++ (target, second.withTiming first) :: right) ∧
      result.device.video = showChar device.video (second.withTiming first) := by
  have dispatched : ioctl env device arg 3 = ioctlSync device arg := rfl
  rw [dispatched] at called
  simp only [ioctlSync, foundSource, foundTarget] at called
  split at called
  · exact (not_refused called success rfl).elim
  split at called
  · exact (not_refused called success rfl).elim
  split at called
  · exact (not_refused called success rfl).elim
  split at called
  · exact (not_refused called success rfl).elim
  split at called
  · exact (not_refused called success rfl).elim
  next sourceNonNull targetNonNull =>
    rcases traversalInit_find device represents.stored (arg >>> 16).toUInt16 with
      ⟨-, ended⟩ | ⟨left, node, right, next, split, -, here, present, ended⟩
    · rw [foundSource] at ended
      exact absurd (congrArg Prod.fst (Option.some.inj ended)) sourceNonNull
    rcases traversalInit_find device represents.stored arg.toUInt16 with
      ⟨-, ended'⟩ | ⟨left', node', right', next', split', -, here', present', ended'⟩
    · rw [foundTarget] at ended'
      exact absurd (congrArg Prod.fst (Option.some.inj ended')) targetNonNull
    obtain rfl : source = node.1 := by
      rw [foundSource] at ended
      exact congrArg Prod.fst (Option.some.inj ended)
    obtain rfl : target = node'.1 := by
      rw [foundTarget] at ended'
      exact congrArg Prod.fst (Option.some.inj ended')
    rw [syncElements_of_stored present present'] at called
    obtain rfl := Option.some.inj called
    subst split'
    refine ⟨node.2, node'.2, left', right', ?_, here, rfl, here',
      represents.rewrite present' _ _, rfl⟩
    rw [split]
    simp

/-- The elements served alone are used once. -/
theorem ServedAlone.usedOnce (served : ServedAlone video location device) :
    UsedOnce location device := by
  obtain ⟨earlier, recent, origin, -, unused, run⟩ := served
  refine run.invariant (UsedOnce location) (fun _ _ _ _ step => step.2) ?_
  intro ptr ptr' cell cell' stored stored' here
  exact absurd here (unused ptr cell stored)

/-- The character of an element, from its structure. -/
theorem Blink.toStruct_char (blink : Blink) (next : Ptr) :
    blink.char = if (blink.toStruct next).status = 1 then (blink.toStruct next).onChar
      else (blink.toStruct next).offChar := by
  cases phase : blink.on <;> simp [Blink.toStruct, Blink.char, phase]

/-- An element served alone is shown. -/
theorem ServedAlone.shown (served : ServedAlone video blink.location device)
    (represents : Represents device nodes) (listed : (source, blink) ∈ nodes) :
    device.video (2 * blink.location.toNat) = blink.char := by
  obtain ⟨nodes', again, tidy⟩ := served.tidy
  obtain ⟨next, stored⟩ := represents.stored.contents _ listed
  obtain ⟨node, member, -, next', same⟩ := again.block stored
  have here : node.2.location = blink.location := (congrArg BlinkStruct.location same).symm
  rw [blink.toStruct_char next, same, ← Blink.toStruct_char]
  exact tidy node.2 (List.mem_map_of_mem member) here

/-- The only element at a location in a represented list. -/
theorem UsedOnce.alone (represents : Represents device nodes)
    (once : UsedOnce blink.location device) (listed : (source, blink) ∈ nodes) :
    ∀ node ∈ nodes, node.2.location = blink.location → node = (source, blink) := by
  intro node member here
  obtain ⟨next, stored⟩ := represents.stored.contents _ listed
  obtain ⟨next', stored'⟩ := represents.stored.contents _ member
  exact List.inj_on_of_nodup_map represents.stored.nodup member listed
    (once _ _ _ _ stored' stored here rfl)

/-- A successful SYNC shows each of the two elements alone at its location. -/
theorem sync_shows {left right : Nodes}
    (represents : Represents device (left ++ (target, second) :: right))
    (represents' : Represents device' (left ++ (target, second.withTiming first) :: right))
    (listed : (source, first) ∈ left ++ (target, second) :: right)
    (video' : device'.video = showChar device.video (second.withTiming first))
    (different : second.location ≠ first.location)
    (served : ServedAlone video first.location device)
    (once : UsedOnce second.location device) :
    Shows device' source first (left ++ (target, second.withTiming first) :: right) ∧
      Shows device' target (second.withTiming first)
        (left ++ (target, second.withTiming first) :: right) := by
  have others : ∀ node ∈ left ++ (target, second.withTiming first) :: right,
      node = (target, second.withTiming first) ∨ node ∈ left ++ (target, second) :: right := by
    intro node member
    simp only [List.mem_append, List.mem_cons] at member ⊢
    tauto
  have firstAlone := UsedOnce.alone represents served.usedOnce listed
  have secondAlone := UsedOnce.alone represents once
    (List.mem_append_right left List.mem_cons_self)
  have kept : (source, first) ∈ left ++ (target, second.withTiming first) :: right := by
    simp only [List.mem_append, List.mem_cons] at listed ⊢
    rcases listed with before | same | after
    · exact .inl before
    · exact absurd (congrArg (·.2.location) same).symm different
    · exact .inr (.inr after)
  have away : (second.withTiming first).location ≠ first.location := different
  refine ⟨⟨represents', kept, fun node member here => ?_, ?_⟩,
    ⟨represents', List.mem_append_right left List.mem_cons_self, fun node member here => ?_, ?_⟩⟩
  · rcases others node member with rfl | listed
    · exact absurd here different
    · exact firstAlone node listed here
  · rw [video']
    exact (showChar_other away).trans (served.shown represents listed)
  · rcases others node member with rfl | listed
    · rfl
    · obtain rfl := secondAlone node listed here
      exact List.inj_on_of_nodup_map represents'.stored.nodup member
        (List.mem_append_right left List.mem_cons_self) rfl
  · rw [video']
    exact showChar_self ..

end

/-- A successful SYNC between two elements gives them the same lengths, countdown and status,
and they keep them after every later sequence of tasklet runs and of calls in which no ADD or
REMOVE names either location and no SYNC writes to it.  If the target's location is used by it
only, and the source's has been used by it only since it was added, both show their first
character or both their second. -/
theorem synced_nodes_stay_in_step {video : Nat → UInt8} {history events : List Event}
    {before last : Device} {env : Env} {arg : UInt32} {result : Result} {source target : Ptr}
    (reached : Run Step (idle video) history before)
    (called : ioctl env before arg 3 = some result) (success : result.ok = true)
    (foundSource : traversalInit (arg >>> 16).toUInt16 0 before = some (source, before))
    (foundTarget : traversalInit arg.toUInt16 0 before = some (target, before))
    (different : source ≠ target)
    (run : Run Step result.device events last)
    (untouched : ∀ event ∈ events,
      ¬event.Changes (arg >>> 16).toUInt16 ∧ ¬event.Changes arg.toUInt16) :
    ∃ cell cell', last.heap source = some cell ∧ last.heap target = some cell' ∧
      cell.location = (arg >>> 16).toUInt16 ∧ cell'.location = arg.toUInt16 ∧
      cell'.onLength = cell.onLength ∧ cell'.offLength = cell.offLength ∧
      cell'.countdown = cell.countdown ∧ cell'.status = cell.status ∧
      (ServedAlone video cell.location before → UsedOnce cell'.location before →
        (last.video (2 * cell.location.toNat) = cell.onChar ∧
            last.video (2 * cell'.location.toNat) = cell'.onChar) ∨
          (last.video (2 * cell.location.toNat) = cell.offChar ∧
            last.video (2 * cell'.location.toNat) = cell'.offChar)) := by
  obtain ⟨nodes, represents, -⟩ := Represents.run reached
  obtain ⟨first, second, left, right, listed, here, rfl, here', represents', video'⟩ :=
    ioctl_sync_device represents called success foundSource foundTarget
  have apart : second.location ≠ first.location := by
    intro same
    rw [here, here'] at same
    rw [← same, foundTarget] at foundSource
    exact different (congrArg Prod.fst (Option.some.inj foundSource)).symm
  rw [← here, ← here'] at untouched
  have holdsSource : Holds result.device source first := by
    refine ⟨_, represents', ?_⟩
    simp only [List.mem_append, List.mem_cons] at listed ⊢
    rcases listed with earlier | same | later
    · exact .inl earlier
    · exact absurd (congrArg (·.2.location) same).symm apart
    · exact .inr (.inr later)
  have holdsTarget : Holds result.device target (second.withTiming first) :=
    ⟨_, represents', List.mem_append_right left List.mem_cons_self⟩
  have sourceLeft : ∀ event ∈ events, ¬event.Changes first.location :=
    fun event member => (untouched event member).1
  have targetLeft : ∀ event ∈ events, ¬event.Changes (second.withTiming first).location :=
    fun event member => (untouched event member).2
  obtain ⟨nodes', ended, listedSource⟩ := holdsSource.run run sourceLeft
  obtain ⟨nodes'', ended', listedTarget⟩ := holdsTarget.run run targetLeft
  obtain ⟨next, stored⟩ := ended.stored.contents _ listedSource
  obtain ⟨next', stored'⟩ := ended'.stored.contents _ listedTarget
  have inStep : first.InStep (second.withTiming first) := ⟨rfl, rfl, rfl, rfl⟩
  obtain ⟨sameOn, sameOff, sameCountdown, samePhase⟩ := inStep.iterate (taskletRuns events)
  refine ⟨_, _, stored, stored', ?_, ?_, sameOn, sameOff, sameCountdown, ?_, ?_⟩
  · exact (Blink.iterate_location ..).trans here
  · exact (Blink.iterate_location ..).trans here'
  · simp only [Blink.toStruct, samePhase]
  · intro served once
    simp only [Blink.toStruct, Blink.iterate_location] at served once ⊢
    obtain ⟨showsSource, showsTarget⟩ :=
      sync_shows represents represents' listed video' apart served once
    obtain ⟨_, shows⟩ := showsSource.run run sourceLeft
    obtain ⟨_, shows'⟩ := showsTarget.run run targetLeft
    have shown := shows.shown
    have shown' := shows'.shown
    rw [Blink.iterate_location] at shown shown'
    rw [shown, shown', Blink.char, Blink.char, samePhase]
    cases (Blink.tick^[taskletRuns events] first).on <;> simp

/-! ## Two synchronised characters, and one left behind -/

/-- The device after a call that does not fault. -/
def called (env : Env) (device : Device) (arg cmd : UInt32) : Device :=
  ((ioctl env device arg cmd).map Result.device).getD device

theorem step_called {env : Env} {device : Device} {arg cmd : UInt32} (fresh : Fresh env device)
    (handled : (ioctl env device arg cmd).isSome) :
    Step device (.ioctl env arg cmd) (called env device arg cmd) := by
  obtain ⟨result, same⟩ := Option.isSome_iff_exists.mp handled
  rw [called, same]
  exact .ioctl fresh same

/-- Every called function succeeds, and the user's structure has a given location and first
character. -/
def addEnv (block : Ptr) (location : UInt16) (char : UInt8) : Env :=
  { smallEnv with
    malloc := block
    fromUser := { smallStruct with location := location, onChar := char } }

/-- `mp1_malloc` fails. -/
def nullEnv : Env :=
  { smallEnv with malloc := 0 }

/-- Elements at locations 5 and 7. -/
def paired : Device :=
  called (addEnv 12288 7 67) (called (addEnv 4096 5 65) (idle fun _ => 0) 1 0) 1 0

/-- Two elements at location 5, one at location 7, and the newer one at location 5 removed. -/
def leftBehind : Device :=
  called nullEnv
    (called (addEnv 12288 7 67)
      (called (addEnv 8192 5 90) (called (addEnv 4096 5 65) (idle fun _ => 0) 1 0) 1 0) 1 0) 5 1

theorem UsedOnce.of_nodup {device : Device} {nodes : Nodes} (represents : Represents device nodes)
    (distinct : (nodes.map (·.2.location)).Nodup) (location : UInt16) :
    UsedOnce location device := by
  intro ptr ptr' cell cell' stored stored' here here'
  obtain ⟨node, member, rfl, next, rfl⟩ := represents.block stored
  obtain ⟨node', member', rfl, next', rfl⟩ := represents.block stored'
  rw [List.inj_on_of_nodup_map distinct member member' (here.trans here'.symm)]

/-- Whether no two elements have the same location can be read off the reference model. -/
theorem UsedOnce.of_run {video : Nat → UInt8} {events : List Event} {device : Device}
    (run : Run Step (idle video) events device)
    (distinct : ((Panel.after ⟨[], video⟩ events).blinks.map Blink.location).Nodup)
    (location : UInt16) : UsedOnce location device := by
  obtain ⟨nodes, represents, same⟩ := Represents.run run
  refine .of_nodup represents ?_ location
  rw [← same] at distinct
  simpa [panelOf, Function.comp_def] using distinct

theorem paired_reached : Run Step (idle fun _ => 0)
    [.ioctl (addEnv 4096 5 65) 1 0, .ioctl (addEnv 12288 7 67) 1 0] paired :=
  .cons (step_called (fun _ => rfl) (by decide +kernel))
    (.single (step_called (fun _ => by decide +kernel) (by decide +kernel)))

theorem leftBehind_reached : Run Step (idle fun _ => 0)
    [.ioctl (addEnv 4096 5 65) 1 0, .ioctl (addEnv 8192 5 90) 1 0,
      .ioctl (addEnv 12288 7 67) 1 0, .ioctl nullEnv 5 1] leftBehind :=
  .cons (step_called (fun _ => rfl) (by decide +kernel))
    (.cons (step_called (fun _ => by decide +kernel) (by decide +kernel))
      (.cons (step_called (fun _ => by decide +kernel) (by decide +kernel))
        (.single (step_called (fun used => absurd rfl used) (by decide +kernel)))))

/-- A search leaves the device as it was. -/
theorem traversalInit_found {device : Device} {nodes : Nodes} {location : UInt16} {ptr : Ptr}
    (represents : Represents device nodes)
    (found : (traversalInit location 0 device).map Prod.fst = some ptr) :
    traversalInit location 0 device = some (ptr, device) := by
  rcases traversalInit_find device represents.stored location with
    ⟨-, ended⟩ | ⟨left, node, right, next, -, -, -, -, ended⟩ <;>
  · rw [ended] at found ⊢
    obtain rfl := Option.some.inj found
    rfl

/-- Two elements that each have a location to themselves, after a SYNC and a tasklet run. -/
theorem synced_nodes_stay_in_step_paired :
    ∃ last cell cell', Run Step (called nullEnv paired 327687 3) [.tasklet] last ∧
      last.heap 4096 = some cell ∧ last.heap 12288 = some cell' ∧
      cell.location = 5 ∧ cell'.location = 7 ∧ cell'.countdown = cell.countdown ∧
      ((last.video 10 = cell.onChar ∧ last.video 14 = cell'.onChar) ∨
        (last.video 10 = cell.offChar ∧ last.video 14 = cell'.offChar)) := by
  have handled : (ioctl nullEnv paired 327687 3).isSome := by decide +kernel
  have success : ((ioctl nullEnv paired 327687 3).map Result.ok) = some true := by
    decide +kernel
  obtain ⟨result, synced⟩ := Option.isSome_iff_exists.mp handled
  have device : called nullEnv paired 327687 3 = result.device := by
    rw [called, synced]
    rfl
  rw [synced] at success
  obtain ⟨nodes, represents, -⟩ := Represents.run paired_reached
  obtain ⟨nodes', represents', -⟩ := Represents.run
    (paired_reached.snoc (step_called (fun used => absurd rfl used) handled))
  obtain ⟨last, ran, -⟩ := rtcTasklet_spec represents'
  rw [device] at ran ⊢
  have foundSource : traversalInit 5 0 paired = some (4096, paired) :=
    traversalInit_found represents (by decide +kernel)
  have foundTarget : traversalInit 7 0 paired = some (12288, paired) :=
    traversalInit_found represents (by decide +kernel)
  obtain ⟨cell, cell', stored, stored', here, here', -, -, same, -, screen⟩ :=
    synced_nodes_stay_in_step paired_reached synced (Option.some.inj success) foundSource
      foundTarget (by decide) (.single (.tasklet ran)) (by simp [Event.Changes])
  refine ⟨last, cell, cell', .single (.tasklet ran), stored, stored', here, here', same, ?_⟩
  obtain ⟨middle, first, rest⟩ := paired_reached.uncons
  obtain ⟨_, second, ended⟩ := rest.uncons
  cases ended
  have served : ServedAlone (fun _ => 0) 5 paired := by
    refine ⟨[], _, idle fun _ => 0, .nil _, by rintro _ _ ⟨⟩, .cons ⟨first, ?_⟩
      (.single ⟨second, ?_⟩)⟩
    · exact .of_run (.single first) (by decide +kernel) 5
    · exact .of_run paired_reached (by decide +kernel) 5
  rw [here, here'] at screen
  exact screen served (.of_run paired_reached (by decide +kernel) 7)

/-- After a SYNC that follows the removal of the other element at location 5, the screen
still shows the removed element's character there. -/
theorem synced_source_not_always_shown :
    ∃ history before arg result cell, Run Step (idle fun _ => 0) history before ∧
      ioctl nullEnv before arg 3 = some result ∧ result.ok = true ∧
      traversalInit (arg >>> 16).toUInt16 0 before = some (4096, before) ∧
      traversalInit arg.toUInt16 0 before = some (12288, before) ∧
      (∀ location, UsedOnce location before) ∧ result.device.heap 4096 = some cell ∧
      result.device.video (2 * cell.location.toNat) ≠ cell.onChar ∧
      result.device.video (2 * cell.location.toNat) ≠ cell.offChar := by
  have handled : (ioctl nullEnv leftBehind 327687 3).isSome := by decide +kernel
  have observed : ((ioctl nullEnv leftBehind 327687 3).map fun result =>
      (result.ok, result.device.heap 4096, result.device.video 10)) =
        some (true, some ⟨5, 65, 66, 2, 1, 2, 1, 0⟩, 90) := by
    decide +kernel
  obtain ⟨result, synced⟩ := Option.isSome_iff_exists.mp handled
  rw [synced] at observed
  simp only [Option.map_some, Option.some.injEq, Prod.mk.injEq] at observed
  obtain ⟨success, stored, shown⟩ := observed
  obtain ⟨nodes, represents, -⟩ := Represents.run leftBehind_reached
  refine ⟨_, leftBehind, 327687, result, _, leftBehind_reached, synced, success,
    traversalInit_found represents (by decide +kernel),
    traversalInit_found represents (by decide +kernel),
    .of_run leftBehind_reached (by decide +kernel), stored, ?_, ?_⟩
  · exact fun same => absurd (shown.symm.trans same) (by decide)
  · exact fun same => absurd (shown.symm.trans same) (by decide)

end Ece391.BlinkDriver
