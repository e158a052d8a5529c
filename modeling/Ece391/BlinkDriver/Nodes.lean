import Ece391.BlinkDriver.Panel
import Ece391.Library.LinkedList
import Mathlib.Data.List.Perm.Subperm

/-!
# The list in the driver's memory

A device represents a list of nodes when following the links from the head meets
exactly the nodes' pointers, each holds its blinking character, and nothing else is
allocated.  The shared traversal and the tasklet are specified on the nodes.
-/

namespace Ece391.BlinkDriver

open Ece391.Library

/-- A list of blinking characters with the pointers that hold them. -/
abbrev Nodes := List (Ptr × Blink)

/-- The nodes met from a pointer on. -/
structure Stored (heap : Ptr → Option BlinkStruct) (element : Ptr) (nodes : Nodes) : Prop where
  linked : Linked BlinkStruct.next 0 heap element (nodes.map Prod.fst)
  contents : ∀ node ∈ nodes, ∃ next, heap node.1 = some (node.2.toStruct next)

/-- The list at `mp1_list_head`, whose nodes are all the allocated blocks. -/
structure Represents (device : Device) (nodes : Nodes) : Prop where
  stored : Stored device.heap device.listHead nodes
  owned : ∀ ptr, device.heap ptr ≠ none → ptr ∈ nodes.map Prod.fst

section Stored

variable {heap : Ptr → Option BlinkStruct} {element : Ptr} {node other : Ptr × Blink}
variable {nodes rest left right : Nodes}

theorem Stored.nodup (stored : Stored heap element nodes) : (nodes.map Prod.fst).Nodup :=
  stored.linked.nodup

theorem Stored.nil_iff : Stored heap element [] ↔ element = 0 := by
  constructor
  · intro stored
    simpa using stored.linked
  · rintro rfl
    exact ⟨.nil, by simp⟩

/-- The first node and what follows it. -/
theorem Stored.uncons (stored : Stored heap element (node :: rest)) :
    element = node.1 ∧ node.1 ≠ 0 ∧
      ∃ next, heap node.1 = some (node.2.toStruct next) ∧ Stored heap next rest := by
  obtain ⟨same, nonNull, cell, present, tail⟩ := Linked.cons_iff.mp stored.linked
  obtain ⟨next, content⟩ := stored.contents node (by simp)
  obtain rfl := Option.some.inj (present.symm.trans content)
  exact ⟨same, nonNull, next, content, tail,
    fun other membership => stored.contents other (by simp [membership])⟩

/-- The other nodes of a list are at other pointers. -/
theorem Stored.apart (stored : Stored heap element (left ++ node :: right))
    (membership : other ∈ left ++ right) : other.1 ≠ node.1 := by
  have distinct := stored.nodup
  rw [List.map_append, List.map_cons, List.nodup_middle, ← List.map_append] at distinct
  intro same
  exact (List.nodup_cons.mp distinct).1 (same ▸ List.mem_map_of_mem membership)

/-- Writing one node leaves the contents of the others. -/
theorem Stored.others (stored : Stored heap element (left ++ node :: right))
    (membership : other ∈ left ++ right) (content : Option BlinkStruct) :
    ∃ next, Function.update heap node.1 content other.1 = some (other.2.toStruct next) := by
  rw [Function.update_of_ne (stored.apart membership)]
  exact stored.contents other
    (((List.sublist_cons_self node right).append_left left).subset membership)

/-- Redirecting the link of one node changes no blinking character. -/
theorem Stored.relink (stored : Stored heap element nodes) (listed : node ∈ nodes) (link : Ptr) :
    ∀ other ∈ nodes, ∃ next, Function.update heap node.1 (some (node.2.toStruct link)) other.1 =
      some (other.2.toStruct next) := by
  intro other membership
  obtain ⟨_, held⟩ := stored.contents node listed
  obtain ⟨next, present⟩ := stored.contents other membership
  by_cases same : other.1 = node.1
  · obtain rfl : other = node := List.inj_on_of_nodup_map stored.nodup membership listed same
    exact ⟨link, Function.update_self ..⟩
  · exact ⟨next, (Function.update_of_ne same ..).trans present⟩

/-- The pointers of a list are fewer than all pointers. -/
theorem Stored.length_lt (stored : Stored heap element nodes) : nodes.length < 4294967296 := by
  have distinct : ((0 : Ptr) :: nodes.map Prod.fst).Nodup :=
    List.nodup_cons.mpr ⟨fun membership => stored.linked.ne_null 0 membership rfl, stored.nodup⟩
  have numbers : (((0 : Ptr) :: nodes.map Prod.fst).map UInt32.toNat).Nodup :=
    distinct.map fun _ _ same => UInt32.toNat_inj.mp same
  have below : ((0 : Ptr) :: nodes.map Prod.fst).map UInt32.toNat ⊆ List.range 4294967296 := by
    intro number membership
    obtain ⟨ptr, -, rfl⟩ := List.mem_map.mp membership
    exact List.mem_range.mpr ptr.toNat_lt
  have count := (numbers.subperm below).length_le
  rw [List.length_range, List.length_map, List.length_cons, List.length_map] at count
  exact count

end Stored

/-! ## Traversal -/

section Traversal

variable {device : Device} {element : Ptr} {node : Ptr × Blink} {nodes left right : Nodes}

/-- A traversal either meets no match, or stops at the first node with the location,
knowing the pointer before it. -/
theorem traversalLoop_cases (stored : Stored device.heap element nodes) (location : UInt16)
    (removeBit : UInt32) (previous : Ptr) {fuel : Nat} (enough : nodes.length < fuel) :
    ((∀ node ∈ nodes, node.2.location ≠ location) ∧
      traversalLoop location removeBit device fuel previous element = some (0, device)) ∨
    ∃ left node right next, nodes = left ++ node :: right ∧
      (∀ other ∈ left, other.2.location ≠ location) ∧ node.2.location = location ∧
      device.heap node.1 = some (node.2.toStruct next) ∧
      traversalLoop location removeBit device fuel previous element =
        if removeBit = 1 then
          traversalRemove device ((left.map Prod.fst).getLast?.getD previous) node.1
            (node.2.toStruct next)
        else some (node.1, device) := by
  induction nodes generalizing element previous fuel with
  | nil =>
      obtain rfl := Stored.nil_iff.mp stored
      obtain ⟨fuel, rfl⟩ := Nat.exists_eq_succ_of_ne_zero (Nat.ne_zero_of_lt enough)
      exact .inl ⟨by simp, by simp [traversalLoop]⟩
  | cons node rest ih =>
      obtain ⟨rfl, nonNull, next, present, tail⟩ := stored.uncons
      obtain ⟨fuel, rfl⟩ := Nat.exists_eq_succ_of_ne_zero (Nat.ne_zero_of_lt enough)
      have compare : (node.2.toStruct next).location - location = 0 ↔
          node.2.location = location := by
        rw [UInt16.sub_eq_iff_eq_add, UInt16.zero_add]
        rfl
      simp only [traversalLoop, nonNull, present, if_false, compare]
      by_cases found : node.2.location = location
      · rw [if_pos found]
        exact .inr ⟨[], node, rest, next, rfl, by simp, found, present, rfl⟩
      rw [if_neg found]
      have follow : (node.2.toStruct next).next = next := rfl
      rw [follow]
      have shorter : rest.length < fuel := Nat.lt_of_succ_lt_succ enough
      rcases ih tail node.1 shorter with ⟨absent, ended⟩ |
        ⟨left, hit, right, next', rfl, first, same, present', ended⟩
      · exact .inl ⟨by simpa [found] using absent, ended⟩
      · refine .inr ⟨node :: left, hit, right, next', rfl, ?_, same, present', ?_⟩
        · intro other membership
          rcases List.mem_cons.mp membership with rfl | later
          · exact found
          · exact first other later
        · rw [ended, List.map_cons, List.getLast?_cons, Option.getD_some]

theorem traversalRemove_head {cell : BlinkStruct} (nonNull : element ≠ 0)
    (present : device.heap element = some cell) :
    traversalRemove device 0 element cell =
      some (1, { device with
        heap := Function.update device.heap element none, listHead := cell.next }) := by
  simp only [traversalRemove, if_true, Option.bind_some, free, nonNull, present, if_false,
    Option.map_some]

theorem traversalRemove_next {previous : Ptr} {before cell : BlinkStruct} (nonNull : element ≠ 0)
    (previousNonNull : previous ≠ 0) (different : element ≠ previous)
    (present : device.heap element = some cell) (stored : device.heap previous = some before) :
    traversalRemove device previous element cell =
      some (1, { device with
        heap := Function.update (Function.update device.heap previous
          (some { before with next := cell.next })) element none }) := by
  have still : Function.update device.heap previous (some { before with next := cell.next })
      element = some cell := by
    rw [Function.update_of_ne different, present]
  simp only [traversalRemove, previousNonNull, stored, if_false,
    store_of_stored { before with next := cell.next } stored, Option.bind_some]
  rw [free_of_stored nonNull still]
  rfl

/-- Unlinking and freeing a node leaves the other nodes as they are. -/
private theorem Represents.without {heap : Ptr → Option BlinkStruct} {head : Ptr}
    (represents : Represents device (left ++ node :: right))
    (linked : Linked BlinkStruct.next 0 heap head ((left ++ right).map Prod.fst))
    (freed : heap node.1 = none)
    (kept : ∀ other ∈ left ++ right, ∃ next, heap other.1 = some (other.2.toStruct next))
    (rest : ∀ ptr, heap ptr ≠ none → device.heap ptr ≠ none) :
    Represents { device with heap := heap, listHead := head } (left ++ right) where
  stored := ⟨linked, kept⟩
  owned ptr present := by
    have member := represents.owned ptr (rest ptr present)
    have different : ptr ≠ node.1 := by
      rintro rfl
      exact present freed
    simp only [List.map_append, List.map_cons, List.mem_append, List.mem_cons, different,
      false_or] at member ⊢
    exact member

/-- Removing a found node unlinks and frees it. -/
theorem traversalRemove_spec (represents : Represents device (left ++ node :: right)) {next : Ptr}
    (present : device.heap node.1 = some (node.2.toStruct next)) :
    ∃ device', traversalRemove device ((left.map Prod.fst).getLast?.getD 0) node.1
        (node.2.toStruct next) = some (1, device') ∧
      Represents device' (left ++ right) ∧ device'.video = device.video := by
  have stored := represents.stored
  have nonNull : node.1 ≠ 0 := stored.linked.ne_null node.1 (by simp)
  have outside : node.1 ∉ (left ++ right).map Prod.fst := by
    intro member
    obtain ⟨other, membership, same⟩ := List.mem_map.mp member
    exact stored.apart membership same
  rcases left.eq_nil_or_concat' with rfl | ⟨left, before, rfl⟩
  · -- The first node: the head is redirected.
    obtain ⟨_, _, next', present', tail⟩ := Stored.uncons stored
    obtain rfl : next = next' := by
      simpa [Blink.toStruct] using present.symm.trans present'
    refine ⟨_, traversalRemove_head nonNull present, represents.without ?_
      (Function.update_self ..) (fun other membership => stored.others membership none)
      (fun ptr => ?_), rfl⟩
    · exact tail.linked.update_of_notMem outside none
    · by_cases same : ptr = node.1 <;> simp [same]
  · -- A later node: the link of the node before it is redirected.
    have earlier : before ∈ (left ++ [before]) ++ node :: right := by simp
    obtain ⟨_, beforeStored⟩ := stored.contents before earlier
    have different : node.1 ≠ before.1 := (stored.apart (by simp)).symm
    have beforeNonNull : before.1 ≠ 0 :=
      stored.linked.ne_null before.1 (List.mem_map_of_mem earlier)
    have last : (((left ++ [before]).map Prod.fst).getLast?).getD 0 = before.1 := by simp
    rw [last]
    refine ⟨_, traversalRemove_next nonNull beforeNonNull different present beforeStored,
      represents.without ?_ (Function.update_self ..) (fun other membership => ?_)
      (fun ptr => ?_), rfl⟩
    · refine Linked.update_of_notMem ?_ outside none
      have linked := stored.linked
      simp only [List.map_append, List.map_cons, List.append_assoc, List.cons_append,
        List.nil_append] at linked ⊢
      exact linked.unlink present rfl
    · rw [Function.update_of_ne (stored.apart membership)]
      exact stored.relink earlier next other
        (((List.sublist_cons_self node right).append_left _).subset membership)
    · by_cases freed : ptr = node.1
      · simp [freed]
      · by_cases redirected : ptr = before.1
        · simp [redirected, beforeStored]
        · simp [freed, redirected]

/-- A search leaves the device alone and returns the first node with the location. -/
theorem traversalInit_find (device : Device)
    (stored : Stored device.heap device.listHead nodes) (location : UInt16) :
    ((∀ node ∈ nodes, node.2.location ≠ location) ∧
      traversalInit location 0 device = some (0, device)) ∨
    ∃ left node right next, nodes = left ++ node :: right ∧
      (∀ other ∈ left, other.2.location ≠ location) ∧ node.2.location = location ∧
      device.heap node.1 = some (node.2.toStruct next) ∧
      traversalInit location 0 device = some (node.1, device) := by
  have searching : ¬(0 : UInt32) = 1 := by decide
  simpa only [traversalInit, searching, if_false] using
    traversalLoop_cases stored location 0 0 stored.length_lt

/-- A removal unlinks and frees the first node with the location. -/
theorem traversalInit_remove (represents : Represents device nodes) (location : UInt16) :
    ((∀ node ∈ nodes, node.2.location ≠ location) ∧
      traversalInit location 1 device = some (0, device)) ∨
    ∃ left node right device', nodes = left ++ node :: right ∧
      (∀ other ∈ left, other.2.location ≠ location) ∧ node.2.location = location ∧
      traversalInit location 1 device = some (1, device') ∧
      Represents device' (left ++ right) ∧ device'.video = device.video := by
  rcases traversalLoop_cases represents.stored location 1 0 represents.stored.length_lt with
    absent | ⟨left, node, right, next, rfl, first, same, present, ended⟩
  · exact .inl absent
  · obtain ⟨device', removed, remaining, video⟩ := traversalRemove_spec represents present
    rw [if_pos rfl, removed] at ended
    exact .inr ⟨left, node, right, device', rfl, first, same, ended, remaining, video⟩

end Traversal

/-! ## The tasklet -/

section Tasklet

variable {device : Device} {element : Ptr} {blink : Blink} {next : Ptr} {nodes rest : Nodes}

/-- The device after the tasklet has handled one element. -/
def Device.ticked (device : Device) (element : Ptr) (blink : Blink) (next : Ptr) : Device where
  heap := Function.update device.heap element (some (blink.tick.toStruct next))
  listHead := device.listHead
  video := if blink.Flips then showChar device.video blink.tick else device.video

/-- One iteration of the tasklet's loop is one tick of the element. -/
theorem taskletLoop_step (nonNull : element ≠ 0)
    (present : device.heap element = some (blink.toStruct next)) (fuel : Nat) :
    taskletLoop device (fuel + 1) element =
      taskletLoop (device.ticked element blink next) fuel next := by
  rw [taskletLoop, if_neg nonNull]
  simp only [present, store]
  by_cases flips : blink.Flips
  · have ended : blink.countdown - 1 = 0 := flips
    cases phase : blink.on with
    | false =>
        simp [Blink.toStruct, Device.ticked, Blink.tick, flips, ended, phase, poke, showChar,
          Blink.char]
    | true =>
        simp [Blink.toStruct, Device.ticked, Blink.tick, flips, ended, phase, poke, showChar,
          Blink.char]
  · have counting : blink.countdown - 1 ≠ 0 := flips
    simp [Blink.toStruct, Device.ticked, Blink.tick, flips, counting]

/-- The loop ticks every element of the list once and touches nothing else. -/
theorem taskletLoop_spec (stored : Stored device.heap element nodes) {fuel : Nat}
    (enough : nodes.length < fuel) :
    ∃ device', taskletLoop device fuel element = some device' ∧
      device'.listHead = device.listHead ∧
      device'.video = showFlips device.video (nodes.map Prod.snd) ∧
      (∀ ptr ∉ nodes.map Prod.fst, device'.heap ptr = device.heap ptr) ∧
      ∀ node ∈ nodes, ∀ next, device.heap node.1 = some (node.2.toStruct next) →
        device'.heap node.1 = some (node.2.tick.toStruct next) := by
  induction nodes generalizing device element fuel with
  | nil =>
      obtain rfl := Stored.nil_iff.mp stored
      obtain ⟨fuel, rfl⟩ := Nat.exists_eq_succ_of_ne_zero (Nat.ne_zero_of_lt enough)
      exact ⟨device, by simp [taskletLoop], rfl, rfl, fun _ _ => rfl, by simp⟩
  | cons node rest ih =>
      obtain ⟨fuel, rfl⟩ := Nat.exists_eq_succ_of_ne_zero (Nat.ne_zero_of_lt enough)
      have distinct := stored.nodup
      rw [List.map_cons, List.nodup_cons] at distinct
      obtain ⟨rfl, nonNull, next, present, tail⟩ := stored.uncons
      have frame : ∀ ptr ∈ rest.map Prod.fst,
          (device.ticked node.1 node.2 next).heap ptr = device.heap ptr := by
        intro ptr member
        apply Function.update_of_ne
        rintro rfl
        exact distinct.1 member
      have tail' : Stored (device.ticked node.1 node.2 next).heap next rest := by
        refine ⟨tail.linked.frame frame, fun other membership => ?_⟩
        rw [frame other.1 (List.mem_map_of_mem membership)]
        exact tail.contents other membership
      obtain ⟨device', ran, head, video, others, ticked⟩ := ih tail' (Nat.lt_of_succ_lt_succ enough)
      refine ⟨device', (taskletLoop_step nonNull present fuel).trans ran, head, ?_, ?_, ?_⟩
      · rw [video]
        rfl
      · intro ptr outside
        rw [List.map_cons, List.mem_cons, not_or] at outside
        rw [others ptr outside.2]
        exact Function.update_of_ne outside.1 ..
      · intro other membership next' stored'
        rcases List.mem_cons.mp membership with rfl | later
        · obtain rfl : next = next' := by
            simpa [Blink.toStruct] using present.symm.trans stored'
          rw [others other.1 distinct.1]
          exact Function.update_self ..
        · exact ticked other later next' ((frame other.1 (List.mem_map_of_mem later)).trans stored')

/-- A tasklet run ticks the represented list. -/
theorem rtcTasklet_spec (represents : Represents device nodes) :
    ∃ device', rtcTasklet device = some device' ∧
      Represents device' (nodes.map fun node => (node.1, node.2.tick)) ∧
      device'.video = showFlips device.video (nodes.map Prod.snd) := by
  have stored := represents.stored
  obtain ⟨device', ran, head, video, others, ticked⟩ :=
    taskletLoop_spec stored stored.length_lt
  have pointers : (nodes.map fun node => (node.1, node.2.tick)).map Prod.fst =
      nodes.map Prod.fst := by
    rw [List.map_map]
    rfl
  refine ⟨device', ran, ⟨⟨?_, fun node membership => ?_⟩, fun ptr present => ?_⟩, video⟩
  · rw [pointers, head]
    refine stored.linked.relabel fun ptr member cell present => ?_
    obtain ⟨node, membership, rfl⟩ := List.mem_map.mp member
    obtain ⟨next, content⟩ := stored.contents node membership
    obtain rfl := Option.some.inj (present.symm.trans content)
    exact ⟨_, ticked node membership next content, rfl⟩
  · obtain ⟨old, listed, rfl⟩ := List.mem_map.mp membership
    obtain ⟨next, content⟩ := stored.contents old listed
    exact ⟨next, ticked old listed next content⟩
  · rw [pointers]
    by_contra outside
    rw [others ptr outside] at present
    exact outside (represents.owned ptr present)

end Tasklet

end Ece391.BlinkDriver
