import Ece391.BlinkDriver.Nodes

/-!
# The driver refines its reference model

Every control call keeps the represented list and gives it the effect that the
reference model prescribes.  That the calls return at all says that none follows a
bad pointer or frees a block twice.
-/

namespace Ece391.BlinkDriver

open Ece391.Library

/-- The panel a represented list shows. -/
def panelOf (device : Device) (nodes : Nodes) : Panel :=
  ⟨nodes.map Prod.snd, device.video⟩

/-- A structure holds the blinking character that was to be copied, if any. -/
def Copies (copied : Option BlinkStruct) (expected : Option Blink) : Prop :=
  ∃ next, copied = expected.map (·.toStruct next)

/-- A result that does what the reference model prescribes for a request: the nodes at
locations that it does not change are kept, and a call that takes an error exit leaves the
device as it was. -/
structure Serves (env : Env) (device : Device) (nodes : Nodes) (request : Request)
    (result : Result) : Prop where
  represents : ∃ nodes', Represents result.device nodes' ∧
    panelOf result.device nodes' = (panelOf device nodes).apply request ∧
    ∀ node, ¬request.Changes node.2.location → (node ∈ nodes' ↔ node ∈ nodes)
  accepted : result.ok = (panelOf device nodes).accepts env request
  failed : result.ok = false → result.device = device
  copied : Copies result.copied ((panelOf device nodes).copied env request)

/-- `mp1_malloc` returns null or a block that is not in use. -/
def Fresh (env : Env) (device : Device) : Prop :=
  env.malloc ≠ 0 → device.heap env.malloc = none

section Calls

variable {env : Env} {device : Device} {nodes : Nodes} {arg : UInt32} {location : UInt16}

/-- An error exit that restores the device serves a request that fails. -/
theorem Represents.unchanged (represents : Represents device nodes) {request : Request}
    (refused : (panelOf device nodes).accepts env request = false) (ret : UInt32) :
    Serves env device nodes request ⟨ret, false, none, device⟩ where
  represents := ⟨nodes, represents, (Panel.apply_of_refused refused).symm, fun _ _ => Iff.rfl⟩
  accepted := refused.symm
  failed _ := rfl
  copied := ⟨0, by rw [Panel.copied_of_refused refused, Option.map_none]⟩

theorem store_malloc (block : env.malloc ≠ 0) (cell : BlinkStruct) :
    store (malloc env device) env.malloc cell =
      some { device with heap := Function.update device.heap env.malloc (some cell) } := by
  simp only [malloc, block, if_false, store, Function.update_self, Function.update_idem]

/-- Freeing a temporary block restores the device. -/
theorem free_temporary (block : env.malloc ≠ 0) (fresh : Fresh env device) (cell : BlinkStruct) :
    free { device with heap := Function.update device.heap env.malloc (some cell) } env.malloc =
      some device := by
  have restored : Function.update device.heap env.malloc none = device.heap := by
    rw [← fresh block, Function.update_eq_self]
  simp only [free, block, if_false, Function.update_self, Function.update_idem, restored]

theorem free_malloc (block : env.malloc ≠ 0) (fresh : Fresh env device) :
    free (malloc env device) env.malloc = some device := by
  simp only [malloc, block, if_false]
  exact free_temporary block fresh env.fresh

theorem Represents.notMem (represents : Represents device nodes) {ptr : Ptr}
    (free : device.heap ptr = none) : ptr ∉ nodes.map Prod.fst := by
  intro member
  obtain ⟨node, membership, rfl⟩ := List.mem_map.mp member
  obtain ⟨next, content⟩ := represents.stored.contents node membership
  rw [free] at content
  cases content

/-- A temporary block does not disturb the list. -/
theorem Represents.with_temporary (represents : Represents device nodes) (block : env.malloc ≠ 0)
    (fresh : Fresh env device) (cell : BlinkStruct) :
    Stored (Function.update device.heap env.malloc (some cell)) device.listHead nodes := by
  have outside := represents.notMem (fresh block)
  refine ⟨represents.stored.linked.update_of_notMem outside (some cell),
    fun node membership => ?_⟩
  rw [Function.update_of_ne]
  · exact represents.stored.contents node membership
  · intro same
    exact outside (same ▸ List.mem_map_of_mem membership)

/-- The device after a successful addition. -/
def Device.added (device : Device) (env : Env) (blink : Blink) : Device where
  heap := Function.update device.heap env.malloc (some (blink.toStruct device.listHead))
  listHead := env.malloc
  video := showChar device.video blink

/-- Linking a fresh block in front extends the list. -/
theorem Represents.add (represents : Represents device nodes) (block : env.malloc ≠ 0)
    (fresh : Fresh env device) (blink : Blink) :
    Represents (device.added env blink) ((env.malloc, blink) :: nodes) := by
  have outside := represents.notMem (fresh block)
  have temporary := represents.with_temporary block fresh (blink.toStruct device.listHead)
  refine ⟨⟨represents.stored.linked.prepend block outside rfl, fun node membership => ?_⟩,
    fun ptr present => ?_⟩
  · rcases List.mem_cons.mp membership with rfl | later
    · exact ⟨device.listHead, Function.update_self ..⟩
    · exact temporary.contents node later
  · rw [List.map_cons, List.mem_cons]
    by_cases same : ptr = env.malloc
    · exact .inl same
    · have present' : device.heap ptr ≠ none := by simpa [Device.added, same] using present
      exact .inr (represents.owned ptr present')

/-- The success exit of `mp1_ioctl_add`. -/
theorem ioctlAdd_success (device : Device) (block : env.malloc ≠ 0) (named : arg ≠ 0)
    (copied : env.fromUserLeft = 0) (valid : env.fromUser.location.toNat ≤ 1999) :
    ioctlAdd env device arg =
      some ⟨0, true, none, device.added env (.start env.fromUser valid)⟩ := by
  have accepted := (validLocation_iff _).mpr valid
  simp only [ioctlAdd, block, named, if_false, store_malloc block, copied, ne_eq,
    not_true_eq_false, accepted, if_true]
  simp only [store, Function.update_self, Function.update_idem]
  rfl

/-- `mp1_ioctl_add` serves its request. -/
theorem ioctlAdd_spec (represents : Represents device nodes) (fresh : Fresh env device)
    (arg : UInt32) :
    ∃ result, ioctlAdd env device arg = some result ∧
      Serves env device nodes (requestedAdd env arg) result := by
  simp only [requestedAdd]
  by_cases block : env.malloc = 0
  · have same : malloc env device = device := if_pos block
    simp only [ioctlAdd, block, if_true, addError, same, true_or]
    exact ⟨_, rfl, represents.unchanged rfl _⟩
  by_cases null : arg = 0
  · simp only [ioctlAdd, block, null, if_true, if_false, addError, free_malloc block fresh, true_or,
      or_true, Option.map_some]
    exact ⟨_, rfl, represents.unchanged rfl _⟩
  by_cases copied : env.fromUserLeft = 0
  case neg =>
    simp only [ioctlAdd, block, null, copied, if_true, if_false, store_malloc block, addError,
      free_temporary block fresh, Option.map_some, ne_eq, not_false_eq_true, or_true]
    exact ⟨_, rfl, represents.unchanged rfl _⟩
  simp only [block, null, copied, ne_eq, not_true_eq_false, or_self, if_false]
  by_cases valid : env.fromUser.location.toNat ≤ 1999
  · rw [dif_pos valid, ioctlAdd_success device block null copied valid]
    refine ⟨_, rfl, ⟨_, represents.add block fresh (.start env.fromUser valid), rfl, ?_⟩, rfl,
      fun failed => ?_, ⟨0, rfl⟩⟩
    · intro node other
      have different : node ≠ (env.malloc, .start env.fromUser valid) := by
        rintro rfl
        exact other rfl
      simp [different]
    · cases failed
  · have refused : ¬ValidLocation env.fromUser.location := by rwa [validLocation_iff]
    simp only [ioctlAdd, block, null, copied, refused, valid, if_false, dite_false,
      store_malloc block, addError, free_temporary block fresh, Option.map_some, ne_eq,
      not_true_eq_false]
    exact ⟨_, rfl, represents.unchanged rfl _⟩

theorem find_absent (absent : ∀ node ∈ nodes, node.2.location ≠ location) :
    (panelOf device nodes).find location = none := by
  simpa [panelOf, Panel.find] using absent

section Found

variable {left right : Nodes} {node : Ptr × Blink}

private theorem first_blink (first : ∀ other ∈ left, other.2.location ≠ location) :
    ∀ blink ∈ left.map Prod.snd, ¬(decide (blink.location = location)) = true := by
  intro blink membership
  obtain ⟨other, listed, rfl⟩ := List.mem_map.mp membership
  simpa using first other listed

theorem find_present (first : ∀ other ∈ left, other.2.location ≠ location)
    (same : node.2.location = location) :
    (panelOf device (left ++ node :: right)).find location = some node.2 := by
  simp only [panelOf, Panel.find, List.map_append, List.map_cons]
  exact find?_split (first_blink first) (by simpa using same)

/-- `mp1_ioctl_remove` serves its request. -/
theorem ioctlRemove_spec (represents : Represents device nodes) (env : Env) (arg : UInt32) :
    ∃ result, ioctlRemove device arg = some result ∧
      Serves env device nodes (requestedRemove arg) result := by
  simp only [ioctlRemove, requestedRemove, validLocation_iff]
  by_cases valid : arg.toUInt16.toNat ≤ 1999
  · rw [if_pos valid, if_pos valid]
    rcases traversalInit_remove represents arg.toUInt16 with
      ⟨absent, ended⟩ | ⟨left, node, right, device', rfl, first, same, ended, remaining, video⟩
    · have failed : ¬(0 : UInt32) = 1 := by decide
      simp only [ended, failed, if_false]
      refine ⟨_, rfl, represents.unchanged ?_ _⟩
      rw [Panel.accepts, find_absent absent, Option.isSome_none]
    · simp only [ended, if_true]
      refine ⟨_, rfl, ⟨left ++ right, remaining, ?_, fun other kept => ?_⟩, ?_,
        fun failed => ?_, ⟨0, rfl⟩⟩
      · simp only [panelOf, Panel.apply, List.map_append, List.map_cons, video]
        rw [eraseP_split (first_blink first) (by simpa using same)]
      · have different : other ≠ node := by
          rintro rfl
          exact kept same.symm
        simp [different]
      · rw [Panel.accepts, find_present first same, Option.isSome_some]
      · cases failed
  · rw [if_neg valid, if_neg valid]
    exact ⟨_, rfl, represents.unchanged rfl _⟩

/-- Every exit of `mp1_ioctl_find` frees its temporary block. -/
theorem findExit_temporary (block : env.malloc ≠ 0) (fresh : Fresh env device)
    (cell : BlinkStruct) (ok : Bool) (copied : Option BlinkStruct) :
    findExit env { device with heap := Function.update device.heap env.malloc (some cell) }
      env.malloc ok copied = some ⟨env.freeEax, ok, copied, device⟩ := by
  rw [findExit, free_temporary block fresh cell, Option.map_some]

/-- `mp1_ioctl_find` serves its request and leaves the device as it was. -/
theorem ioctlFind_spec (represents : Represents device nodes) (fresh : Fresh env device)
    (arg : UInt32) :
    ∃ result, ioctlFind env device arg = some result ∧
      Serves env device nodes (requestedFind env arg) result ∧ result.device = device := by
  simp only [ioctlFind, requestedFind]
  by_cases block : env.malloc = 0
  · have same : malloc env device = device := if_pos block
    simp only [block, if_true, findExit, same, free, Option.map_some, true_or]
    exact ⟨_, rfl, represents.unchanged rfl _, rfl⟩
  by_cases null : arg = 0
  · simp only [block, null, if_true, if_false, findExit, free_malloc block fresh, true_or,
      or_true, Option.map_some]
    exact ⟨_, rfl, represents.unchanged rfl _, rfl⟩
  simp only [block, null, if_false, store_malloc block, false_or]
  by_cases short : env.fromUserLeft ≠ 0
  · simp only [short, if_true, findExit_temporary block fresh, ne_eq, not_false_eq_true]
    exact ⟨_, rfl, represents.unchanged rfl _, rfl⟩
  rw [if_neg short, if_neg short]
  by_cases valid : env.fromUser.location.toNat ≤ 1999
  · rw [if_pos ((validLocation_iff _).mpr valid), if_pos valid]
    have stored := represents.with_temporary block fresh env.fromUser
    rcases traversalInit_find
        { device with heap := Function.update device.heap env.malloc (some env.fromUser) } stored
        env.fromUser.location with
      ⟨absent, ended⟩ | ⟨left, node, right, next, rfl, first, same, present, ended⟩
    · simp only [ended, if_true, findExit_temporary block fresh]
      refine ⟨_, rfl, represents.unchanged ?_ _, rfl⟩
      rw [Panel.accepts, find_absent absent, Option.isSome_none, Bool.false_and]
    · have nonNull : node.1 ≠ 0 := stored.linked.ne_null node.1 (by simp)
      simp only [ended, nonNull, if_false]
      simp only at present
      simp only [present]
      by_cases uncopied : env.toUserLeft ≠ 0
      · simp only [uncopied, ne_eq, not_false_eq_true, if_true, findExit_temporary block fresh]
        refine ⟨_, rfl, represents.unchanged ?_ _, rfl⟩
        have left : ¬env.toUserLeft = 0 := uncopied
        simp [Panel.accepts, left]
      · have copied : env.toUserLeft = 0 := not_not.mp uncopied
        simp only [copied, ne_eq, not_true_eq_false, if_false, findExit_temporary block fresh]
        refine ⟨_, rfl, ⟨⟨_, represents, rfl, fun _ _ => Iff.rfl⟩, ?_, fun _ => rfl,
          ⟨next, ?_⟩⟩, rfl⟩
        · simp [Panel.accepts, find_present first same, copied]
        · rw [Panel.copied, if_pos copied, find_present first same, Option.map_some]
  · rw [if_neg fun accepted => valid ((validLocation_iff _).mp accepted), if_neg valid,
      findExit_temporary block fresh]
    exact ⟨_, rfl, represents.unchanged rfl _, rfl⟩

/-- Rewriting the content of one node keeps the list. -/
theorem Represents.rewrite (represents : Represents device (left ++ node :: right)) {next : Ptr}
    (present : device.heap node.1 = some (node.2.toStruct next)) (blink : Blink)
    (video : Nat → UInt8) :
    Represents
      ⟨Function.update device.heap node.1 (some (blink.toStruct next)), device.listHead, video⟩
      (left ++ (node.1, blink) :: right) := by
  have pointers : (left ++ (node.1, blink) :: right).map Prod.fst =
      (left ++ node :: right).map Prod.fst := by
    simp only [List.map_append, List.map_cons]
  refine ⟨⟨?_, fun other membership => ?_⟩, fun ptr allocated => ?_⟩
  · rw [pointers]
    refine represents.stored.linked.relabel fun ptr _ cell stored => ?_
    by_cases same : ptr = node.1
    · subst same
      obtain rfl := Option.some.inj (present.symm.trans stored)
      exact ⟨_, Function.update_self .., rfl⟩
    · exact ⟨cell, (Function.update_of_ne same ..).trans stored, rfl⟩
  · rw [List.mem_append, List.mem_cons] at membership
    rcases membership with earlier | rfl | later
    · exact represents.stored.others (List.mem_append_left right earlier) _
    · exact ⟨next, Function.update_self ..⟩
    · exact represents.stored.others (List.mem_append_right left later) _
  · rw [pointers]
    by_cases same : ptr = node.1
    · simp [same]
    · have allocated' : device.heap ptr ≠ none := by simpa [same] using allocated
      exact represents.owned ptr allocated'

end Found

/-- Synchronising two stored elements gives the timing of the first to the second and
shows its character. -/
theorem syncElements_of_stored {source target : Ptr} {first second : Blink} {next next' : Ptr}
    (storedFirst : device.heap source = some (first.toStruct next))
    (storedSecond : device.heap target = some (second.toStruct next')) :
    syncElements device source target =
      some ⟨0, true, none,
        ⟨Function.update device.heap target (some ((second.withTiming first).toStruct next')),
          device.listHead, showChar device.video (second.withTiming first)⟩⟩ := by
  simp only [syncElements, storedFirst, storedSecond, store]
  cases phase : first.on with
  | false => simp [Blink.toStruct, Blink.withTiming, phase, poke, showChar, Blink.char]
  | true => simp [Blink.toStruct, Blink.withTiming, phase, poke, showChar, Blink.char]

/-- `mp1_ioctl_sync` serves its request. -/
theorem ioctlSync_spec (represents : Represents device nodes) (env : Env) (arg : UInt32) :
    ∃ result, ioctlSync device arg = some result ∧
      Serves env device nodes (requestedSync arg) result := by
  simp only [ioctlSync, requestedSync, validLocation_iff]
  generalize arg.toUInt16 = second
  generalize (arg >>> 16).toUInt16 = first
  by_cases null : arg = 0
  · simp only [null, if_true]
    exact ⟨_, rfl, represents.unchanged rfl _⟩
  rw [if_neg null, if_neg null]
  by_cases validSecond : second.toNat ≤ 1999
  case neg =>
    simp only [validSecond, not_false_eq_true, if_true, false_and, if_false]
    exact ⟨_, rfl, represents.unchanged rfl _⟩
  by_cases validFirst : first.toNat ≤ 1999
  case neg =>
    simp only [validSecond, validFirst, not_true_eq_false, not_false_eq_true, if_true, and_false,
      if_false]
    exact ⟨_, rfl, represents.unchanged rfl _⟩
  simp only [validSecond, validFirst, not_true_eq_false, if_false, and_self, if_true]
  rcases traversalInit_find device represents.stored first with
    ⟨absent, ended⟩ | ⟨left, source, right, next, split, firstSource, same, present, ended⟩
  · simp only [ended, if_true]
    refine ⟨_, rfl, represents.unchanged ?_ _⟩
    rw [Panel.accepts, find_absent absent, Option.isSome_none, Bool.false_and]
  have foundSource : (panelOf device nodes).find first = some source.2 := by
    rw [split]
    exact find_present firstSource same
  have sourceNonNull : source.1 ≠ 0 := represents.stored.linked.ne_null source.1 (by simp [split])
  simp only [ended, sourceNonNull, if_false]
  rcases traversalInit_find device represents.stored second with
    ⟨absent, ended'⟩ | ⟨left', target, right', next', rfl, firstTarget, same', present', ended'⟩
  · simp only [ended', if_true]
    refine ⟨_, rfl, represents.unchanged ?_ _⟩
    rw [Panel.accepts, find_absent absent, Option.isSome_none, Bool.and_false]
  have foundTarget : (panelOf device (left' ++ target :: right')).find second = some target.2 :=
    find_present firstTarget same'
  have targetNonNull : target.1 ≠ 0 := represents.stored.linked.ne_null target.1 (by simp)
  simp only [ended', targetNonNull, if_false, syncElements_of_stored present present']
  refine ⟨_, rfl, ⟨_, represents.rewrite present' (target.2.withTiming source.2) _, ?_,
    fun other kept => ?_⟩, ?_, fun failed => ?_, ⟨0, rfl⟩⟩
  · simp only [Panel.apply, foundSource, foundTarget]
    simp only [panelOf, List.map_append, List.map_cons]
    rw [replaceFirst_split _ (first_blink firstTarget) (by simpa using same')]
  · have before : other ≠ target := by
      rintro rfl
      exact kept same'.symm
    have after : other ≠ (target.1, target.2.withTiming source.2) := by
      rintro rfl
      exact kept same'.symm
    simp [before, after]
  · rw [Panel.accepts, foundSource, foundTarget, Option.isSome_some, Option.isSome_some,
      Bool.and_self]
  · cases failed

/-- `mp1_ioctl` serves its request. -/
theorem ioctl_spec (represents : Represents device nodes) (fresh : Fresh env device)
    (arg cmd : UInt32) :
    ∃ result, ioctl env device arg cmd = some result ∧
      Serves env device nodes (requested env arg cmd) result := by
  simp only [ioctl, requested]
  by_cases above : cmd.toInt32 > 3
  · simp only [above, if_true, true_or]
    exact ⟨_, rfl, represents.unchanged rfl _⟩
  by_cases below : cmd.toInt32 < 0
  · simp only [above, below, if_true, if_false, or_true]
    exact ⟨_, rfl, represents.unchanged rfl _⟩
  simp only [above, below, if_false, or_self]
  by_cases add : cmd = 0
  · simp only [add, if_true]
    exact ioctlAdd_spec represents fresh arg
  by_cases remove : cmd = 1
  · simp only [remove, if_true]
    exact ioctlRemove_spec represents env arg
  by_cases find : cmd = 2
  · simp only [find, if_true]
    obtain ⟨result, called, serves, -⟩ := ioctlFind_spec represents fresh arg
    exact ⟨result, called, serves⟩
  · simp only [add, remove, find, if_false]
    exact ioctlSync_spec represents env arg

end Calls

end Ece391.BlinkDriver
