import Ece391.Programs.BlinkPool

/-!
# The pool refines the reference model

The list in the array holds the blinking characters of the reference model, and the places that
are not on the list are free.  That needs a location other than 0 in each structure that is added:
a structure at location 0 would be taken for a free place while it is on the list.
-/

namespace Ece391.Programs.Fish

open Ece391.Library Ece391.BlinkDriver

/-- Blinking characters with their places. -/
abbrev Nodes := List (Fin 2000 × Blinking)

/-- The memory that pointers are followed in. -/
def Pool.heap (pool : Pool) (ptr : Option (Fin 2000)) : Option Slot :=
  ptr.map pool.blinkArray

/-- The list from a pointer on. -/
structure Holds (pool : Pool) (element : Option (Fin 2000)) (nodes : Nodes) : Prop where
  linked : Linked Slot.next none pool.heap element (nodes.map fun node => some node.1)
  contents : ∀ node ∈ nodes, (pool.blinkArray node.1).toBlinking = node.2

/-- The whole list, with every other place free. -/
structure Represents (pool : Pool) (nodes : Nodes) : Prop
    extends Holds pool pool.listHead nodes where
  placed : ∀ node ∈ nodes, node.2.location ≠ 0
  free : ∀ place, place ∉ nodes.map Prod.fst → (pool.blinkArray place).location = 0

/-- What a pool with a list shows. -/
def shownOf (pool : Pool) (nodes : Nodes) : Shown :=
  ⟨nodes.map Prod.snd, pool.video⟩

/-- An answer of the pool without the link of the structure that is copied. -/
def Answer.unlinked (answer : Answer Slot) : Answer Blinking :=
  ⟨answer.ret, answer.copied.map Slot.toBlinking⟩

section

variable {pool : Pool} {element : Option (Fin 2000)} {place : Fin 2000} {slot : Slot}
variable {node other : Fin 2000 × Blinking} {nodes rest left right : Nodes}
variable {location : UInt16} {fuel : Nat}

theorem Pool.heap_store (pool : Pool) (place : Fin 2000) (slot : Slot) :
    (pool.store place slot).heap = Function.update pool.heap (some place) (some slot) := by
  funext ptr
  cases ptr with
  | none => rfl
  | some other =>
      by_cases same : other = place
      · subst same
        simp [Pool.heap, Pool.store]
      · simp [Pool.heap, Pool.store, same]

@[simp]
theorem Pool.store_same (pool : Pool) (place : Fin 2000) (slot : Slot) :
    (pool.store place slot).blinkArray place = slot :=
  Function.update_self ..

theorem Pool.store_other {other : Fin 2000} (different : other ≠ place) (pool : Pool)
    (slot : Slot) : (pool.store place slot).blinkArray other = pool.blinkArray other :=
  Function.update_of_ne different ..

/-! ## Lists -/

theorem Holds.nil_iff : Holds pool element [] ↔ element = none := by
  constructor
  · intro holds
    simpa using holds.linked
  · rintro rfl
    exact ⟨.nil, by simp⟩

/-- The first node and what follows it. -/
theorem Holds.uncons (holds : Holds pool element (node :: rest)) :
    element = some node.1 ∧ (pool.blinkArray node.1).toBlinking = node.2 ∧
      Holds pool (pool.blinkArray node.1).next rest := by
  obtain ⟨same, -, slot, present, tail⟩ := Linked.cons_iff.mp holds.linked
  obtain rfl : pool.blinkArray node.1 = slot := Option.some.inj present
  exact ⟨same, holds.contents node List.mem_cons_self, tail,
    fun other listed => holds.contents other (List.mem_cons_of_mem _ listed)⟩

theorem Holds.nodup (holds : Holds pool element nodes) : (nodes.map Prod.fst).Nodup := by
  have distinct := holds.linked.nodup
  have places : (nodes.map fun node => some node.1) = (nodes.map Prod.fst).map some := by
    rw [List.map_map]
    rfl
  rw [places] at distinct
  exact distinct.of_map _

/-- A list holds at most one node for each place. -/
theorem Holds.length_le (holds : Holds pool element nodes) : nodes.length ≤ 2000 := by
  have count := List.Nodup.length_le_card holds.nodup
  rwa [List.length_map, Fintype.card_fin] at count

/-- A store outside a list leaves it. -/
theorem Holds.store_outside (holds : Holds pool element nodes)
    (outside : place ∉ nodes.map Prod.fst) (slot : Slot) :
    Holds (pool.store place slot) element nodes where
  linked := by
    rw [Pool.heap_store]
    refine holds.linked.update_of_notMem (fun listed => outside ?_) _
    obtain ⟨node, member, same⟩ := List.mem_map.mp listed
    exact List.mem_map.mpr ⟨node, member, Option.some.inj same⟩
  contents node member := by
    have different : node.1 ≠ place := fun same => outside (same ▸ List.mem_map_of_mem member)
    rw [Pool.store_other different]
    exact holds.contents node member

/-- Nothing but the array matters. -/
theorem Holds.of_array {pool' : Pool} (holds : Holds pool element nodes)
    (same : pool'.blinkArray = pool.blinkArray) : Holds pool' element nodes := by
  have heap : pool'.heap = pool.heap := by
    funext ptr
    rw [Pool.heap, same, Pool.heap]
  exact ⟨heap ▸ holds.linked, fun node member => same ▸ holds.contents node member⟩

/-- A place of the pool that is not on the list, or none when all are. -/
theorem mp1Malloc_spec (represents : Represents pool nodes) :
    (mp1Malloc pool = none ∧ nodes.length = 2000) ∨
      ∃ place, mp1Malloc pool = some place ∧ place ∉ nodes.map Prod.fst ∧
        nodes.length < 2000 := by
  cases found : mp1Malloc pool with
  | none =>
      left
      refine ⟨rfl, Nat.le_antisymm represents.toHolds.length_le ?_⟩
      have used (place : Fin 2000) : place ∈ nodes.map Prod.fst := by
        by_contra outside
        have taken := List.find?_eq_none.mp found place (List.mem_finRange place)
        exact taken (decide_eq_true (represents.free place outside))
      have all := (List.nodup_finRange 2000).subperm fun place _ => used place
      simpa using all.length_le
  | some place =>
      right
      rw [mp1Malloc] at found
      have zero : (pool.blinkArray place).location = 0 := by simpa using List.find?_some found
      have outside : place ∉ nodes.map Prod.fst := by
        intro listed
        obtain ⟨node, member, rfl⟩ := List.mem_map.mp listed
        exact represents.placed node member (represents.contents node member ▸ zero)
      refine ⟨place, rfl, outside, ?_⟩
      have distinct : (place :: nodes.map Prod.fst).Nodup :=
        List.nodup_cons.mpr ⟨outside, represents.toHolds.nodup⟩
      have more := List.Nodup.length_le_card distinct
      rw [List.length_cons, List.length_map, Fintype.card_fin] at more
      exact more

/-- A search stops at the first node with the location. -/
theorem mp1FindHelper_spec (holds : Holds pool element nodes) (enough : nodes.length < fuel)
    (location : UInt16) :
    ((∀ node ∈ nodes, node.2.location ≠ location) ∧
      mp1FindHelper location pool fuel element = some none) ∨
    ∃ left node right, nodes = left ++ node :: right ∧
      (∀ other ∈ left, other.2.location ≠ location) ∧ node.2.location = location ∧
      mp1FindHelper location pool fuel element = some (some node.1) := by
  induction nodes generalizing element fuel with
  | nil =>
      obtain rfl := Holds.nil_iff.mp holds
      obtain ⟨fuel, rfl⟩ := Nat.exists_eq_succ_of_ne_zero (Nat.ne_zero_of_lt enough)
      exact .inl ⟨by simp, rfl⟩
  | cons node rest ih =>
      obtain ⟨rfl, content, tail⟩ := holds.uncons
      obtain ⟨fuel, rfl⟩ := Nat.exists_eq_succ_of_ne_zero (Nat.ne_zero_of_lt enough)
      rw [mp1FindHelper, content]
      by_cases found : node.2.location = location
      · rw [if_pos found]
        exact .inr ⟨[], node, rest, rfl, by simp, found, rfl⟩
      · rw [if_neg found]
        rcases ih tail (Nat.lt_of_succ_lt_succ enough) with ⟨absent, ended⟩ |
          ⟨left, hit, right, rfl, first, same, ended⟩
        · exact .inl ⟨List.forall_mem_cons.mpr ⟨found, absent⟩, ended⟩
        · exact .inr ⟨node :: left, hit, right, rfl, List.forall_mem_cons.mpr ⟨found, first⟩, same,
            ended⟩

/-! ## Adding -/

/-- A place taken from the free ones and linked in front. -/
theorem Represents.add (represents : Represents pool nodes) (outside : place ∉ nodes.map Prod.fst)
    (linked : slot.next = pool.listHead) (placed : slot.location ≠ 0) (video : Nat → UInt8) :
    Represents ⟨Function.update pool.blinkArray place slot, some place, video⟩
      ((place, slot.toBlinking) :: nodes) := by
  have rest := represents.toHolds.store_outside outside slot
  have fresh : some place ∉ nodes.map fun node => some node.1 := by
    intro listed
    obtain ⟨node, member, same⟩ := List.mem_map.mp listed
    exact outside (List.mem_map.mpr ⟨node, member, Option.some.inj same⟩)
  have whole : Holds (pool.store place slot) (some place) ((place, slot.toBlinking) :: nodes) := by
    refine ⟨?_, List.forall_mem_cons.mpr ⟨?_, rest.contents⟩⟩
    · rw [Pool.heap_store]
      exact represents.linked.prepend (Option.some_ne_none place) fresh linked
    · rw [Pool.store_same]
  refine ⟨whole.of_array rfl, List.forall_mem_cons.mpr ⟨placed, represents.placed⟩, ?_⟩
  intro other away
  rw [List.map_cons, List.mem_cons, not_or] at away
  have kept := pool.store_other away.1 slot
  exact (congrArg (fun slot : Slot => slot.location) kept).trans (represents.free other away.2)

/-! ## Removing -/

/-- The pool after a link to a structure has been redirected. -/
def Pool.redirect (pool : Pool) (previous : Option (Fin 2000)) (rest : Option (Fin 2000)) : Pool :=
  match previous with
  | none => { pool with listHead := rest }
  | some before => pool.store before { pool.blinkArray before with next := rest }

/-- The link that `edx` points to. -/
def Pool.link (pool : Pool) (previous : Option (Fin 2000)) : Option (Fin 2000) :=
  previous.elim pool.listHead fun before => (pool.blinkArray before).next

/-- The loop finds the link to a structure of the list. -/
theorem removeFindPrev_spec {previous : Option (Fin 2000)}
    (holds : Holds pool (pool.link previous) (left ++ node :: right))
    (enough : left.length < fuel) :
    removeFindPrev node.1 pool fuel previous =
      some (pool.redirect ((left.map Prod.fst).getLast?.or previous)
        (pool.blinkArray node.1).next) := by
  induction left generalizing previous fuel with
  | nil =>
      obtain ⟨fuel, rfl⟩ := Nat.exists_eq_succ_of_ne_zero (Nat.ne_zero_of_lt enough)
      obtain ⟨here, -, -⟩ := Holds.uncons holds
      rw [Pool.link] at here
      rw [removeFindPrev]
      simp only [here, if_true]
      cases previous with
      | none => rfl
      | some before => rfl
  | cons first left ih =>
      obtain ⟨fuel, rfl⟩ := Nat.exists_eq_succ_of_ne_zero (Nat.ne_zero_of_lt enough)
      have distinct := holds.nodup
      obtain ⟨here, -, tail⟩ := Holds.uncons holds
      rw [Pool.link] at here
      have different : ¬some first.1 = some node.1 := by
        intro same
        rw [List.cons_append, List.map_cons, List.nodup_cons] at distinct
        refine distinct.1 (List.mem_map.mpr ⟨node, by simp, (Option.some.inj same).symm⟩)
      rw [removeFindPrev]
      simp only [here, if_neg different, Option.bind_some]
      rw [@ih fuel (some first.1) tail (Nat.lt_of_succ_lt_succ enough), List.map_cons,
        List.getLast?_cons]
      congr 2
      cases (left.map Prod.fst).getLast? <;> rfl

/-- The other nodes of a list are at other places. -/
theorem Holds.apart (holds : Holds pool element (left ++ node :: right))
    (member : other ∈ left ++ right) : other.1 ≠ node.1 := by
  have distinct := holds.nodup
  rw [List.map_append, List.map_cons, List.nodup_middle, ← List.map_append] at distinct
  intro same
  exact (List.nodup_cons.mp distinct).1 (same ▸ List.mem_map_of_mem member)

/-- The list without a node whose link has been redirected. -/
theorem Represents.redirected (represents : Represents pool (left ++ node :: right)) :
    Holds (pool.redirect (left.map Prod.fst).getLast? (pool.blinkArray node.1).next)
        (pool.redirect (left.map Prod.fst).getLast? (pool.blinkArray node.1).next).listHead
        (left ++ right) ∧
      (pool.redirect (left.map Prod.fst).getLast? (pool.blinkArray node.1).next).video =
        pool.video ∧
      ∀ place, ((pool.redirect (left.map Prod.fst).getLast?
        (pool.blinkArray node.1).next).blinkArray place).toBlinking =
          (pool.blinkArray place).toBlinking := by
  have holds := represents.toHolds
  rcases left.eq_nil_or_concat' with rfl | ⟨left, before, rfl⟩
  · obtain ⟨-, -, tail⟩ := Holds.uncons holds
    exact ⟨tail.of_array rfl, rfl, fun _ => rfl⟩
  · have last : ((left ++ [before]).map Prod.fst).getLast? = some before.1 := by simp
    have contents (place : Fin 2000) : ((pool.store before.1
        { pool.blinkArray before.1 with next := (pool.blinkArray node.1).next }).blinkArray
          place).toBlinking = (pool.blinkArray place).toBlinking := by
      by_cases same : place = before.1
      · subst same
        rw [Pool.store_same]
      · rw [Pool.store_other same]
    rw [last]
    refine ⟨⟨?_, fun other member => ?_⟩, rfl, contents⟩
    · have linked := holds.linked
      simp only [List.map_append, List.map_cons, List.append_assoc, List.cons_append,
        List.nil_append] at linked ⊢
      have target : pool.heap (some node.1) = some (pool.blinkArray node.1) := rfl
      simp only [Pool.redirect, Pool.heap_store]
      exact linked.unlink target rfl
    · refine (contents other.1).trans (holds.contents other ?_)
      exact ((List.sublist_cons_self node right).append_left _).subset member

/-- A node is unlinked and its place freed. -/
theorem Represents.remove (represents : Represents pool (left ++ node :: right)) :
    Represents
      (mp1Free (pool.redirect (left.map Prod.fst).getLast? (pool.blinkArray node.1).next) node.1)
      (left ++ right) := by
  obtain ⟨holds, -, contents⟩ := represents.redirected
  have outside : node.1 ∉ (left ++ right).map Prod.fst := by
    intro listed
    obtain ⟨other, member, same⟩ := List.mem_map.mp listed
    exact represents.toHolds.apart member same
  refine ⟨(holds.store_outside outside zeroed).of_array rfl, fun other member => ?_,
    fun place away => ?_⟩
  · exact represents.placed other
      (((List.sublist_cons_self node right).append_left left).subset member)
  · rw [mp1Free]
    by_cases same : place = node.1
    · subst same
      rw [Pool.store_same]
      rfl
    · have away' : place ∉ (left ++ node :: right).map Prod.fst := by
        simp only [List.map_append, List.map_cons, List.mem_append, List.mem_cons, not_or]
          at away ⊢
        exact ⟨away.1, same, away.2⟩
      have kept := congrArg Blinking.location (contents place)
      rw [Pool.store_other same]
      exact kept.trans (represents.free place away')

/-! ## Rewriting -/

/-- New fields of a node, with its link as it was. -/
theorem Represents.rewrite (represents : Represents pool (left ++ node :: right))
    {blink : Blinking} (placed : blink.location ≠ 0) :
    Represents (pool.store node.1 { pool.blinkArray node.1 with toBlinking := blink })
      (left ++ (node.1, blink) :: right) := by
  have places : (left ++ (node.1, blink) :: right).map Prod.fst =
      (left ++ node :: right).map Prod.fst := by
    simp only [List.map_append, List.map_cons]
  have pointers : ((left ++ (node.1, blink) :: right).map fun node => some node.1) =
      (left ++ node :: right).map fun node => some node.1 := by
    simp only [List.map_append, List.map_cons]
  refine ⟨⟨?_, fun other member => ?_⟩, fun other member => ?_, fun place away => ?_⟩
  · rw [pointers, Pool.heap_store]
    refine represents.linked.relabel fun ptr _ slot present => ?_
    by_cases same : ptr = some node.1
    · subst same
      obtain rfl : pool.blinkArray node.1 = slot := Option.some.inj present
      exact ⟨_, Function.update_self .., rfl⟩
    · exact ⟨slot, (Function.update_of_ne same ..).trans present, rfl⟩
  · rcases List.mem_append.mp member with earlier | later
    · rw [Pool.store_other (represents.toHolds.apart (List.mem_append_left right earlier))]
      exact represents.contents other (List.mem_append_left _ earlier)
    · rcases List.mem_cons.mp later with rfl | later
      · rw [Pool.store_same]
      · rw [Pool.store_other (represents.toHolds.apart (List.mem_append_right left later))]
        exact represents.contents other
          (List.mem_append_right left (List.mem_cons_of_mem node later))
  · rcases List.mem_append.mp member with earlier | later
    · exact represents.placed other (List.mem_append_left _ earlier)
    · rcases List.mem_cons.mp later with rfl | later
      · exact placed
      · exact represents.placed other (List.mem_append_right left (List.mem_cons_of_mem node later))
  · rw [places] at away
    have different : place ≠ node.1 := by
      rintro rfl
      exact away (by simp)
    rw [Pool.store_other different]
    exact represents.free place away

/-- The screen is no part of the list. -/
theorem Represents.with_video (represents : Represents pool nodes) (video : Nat → UInt8) :
    Represents { pool with video := video } nodes :=
  ⟨represents.toHolds.of_array rfl, represents.placed, represents.free⟩

/-! ## The tasklet -/

/-- The pool after the tasklet has handled one structure. -/
def Pool.ticked (pool : Pool) (place : Fin 2000) (blink : Blinking) : Pool :=
  { pool.store place { pool.blinkArray place with toBlinking := blink.tick } with
    video := if blink.Turns then Shown.showAt pool.video blink.location blink.turned
      else pool.video }

theorem taskletLoop_step (pool : Pool) (fuel : Nat) (place : Fin 2000) :
    taskletLoop pool (fuel + 1) (some place) =
      taskletLoop (pool.ticked place (pool.blinkArray place).toBlinking) fuel
        (pool.blinkArray place).next := by
  rw [taskletLoop, Pool.ticked]
  congr 1
  generalize pool.blinkArray place = slot
  by_cases turns : slot.Turns
  · have ended : ¬(slot.countdown - 1).toInt16 > 0 := turns
    by_cases phase : slot.status &&& 1 = 0
    · simp only [if_neg ended, if_pos phase, if_pos turns, Blinking.tick, Blinking.turned]
      rfl
    · simp only [if_neg ended, if_neg phase, if_pos turns, Blinking.tick, Blinking.turned]
      rfl
  · have goes : (slot.countdown - 1).toInt16 > 0 := not_not.mp turns
    simp only [if_pos goes, if_neg turns, Blinking.tick]
    rfl

/-- The loop ticks each structure of the list once, and touches nothing else. -/
theorem taskletLoop_spec (holds : Holds pool element nodes) (enough : nodes.length < fuel) :
    ∃ pool', taskletLoop pool fuel element = some pool' ∧ pool'.listHead = pool.listHead ∧
      pool'.video = Shown.ticked pool.video (nodes.map Prod.snd) ∧
      (∀ place ∉ nodes.map Prod.fst, pool'.blinkArray place = pool.blinkArray place) ∧
      ∀ node ∈ nodes, pool'.blinkArray node.1 =
        { pool.blinkArray node.1 with toBlinking := node.2.tick } := by
  induction nodes generalizing pool element fuel with
  | nil =>
      obtain rfl := Holds.nil_iff.mp holds
      obtain ⟨fuel, rfl⟩ := Nat.exists_eq_succ_of_ne_zero (Nat.ne_zero_of_lt enough)
      exact ⟨pool, rfl, rfl, rfl, fun _ _ => rfl, by simp⟩
  | cons node rest ih =>
      obtain ⟨fuel, rfl⟩ := Nat.exists_eq_succ_of_ne_zero (Nat.ne_zero_of_lt enough)
      have distinct := holds.nodup
      rw [List.map_cons, List.nodup_cons] at distinct
      obtain ⟨rfl, content, tail⟩ := holds.uncons
      have tail' : Holds (pool.ticked node.1 node.2) (pool.blinkArray node.1).next rest :=
        (tail.store_outside distinct.1 _).of_array rfl
      obtain ⟨pool', ran, head, video, others, ticked⟩ := ih tail' (Nat.lt_of_succ_lt_succ enough)
      rw [taskletLoop_step, content]
      refine ⟨pool', ran, head, video, fun place away => ?_, fun other member => ?_⟩
      · rw [List.map_cons, List.mem_cons, not_or] at away
        exact (others place away.2).trans (pool.store_other away.1 _)
      · rcases List.mem_cons.mp member with rfl | later
        · exact (others other.1 distinct.1).trans (Pool.store_same ..)
        · have different : other.1 ≠ node.1 := fun same =>
            distinct.1 (same ▸ List.mem_map_of_mem later)
          have kept : (pool.ticked node.1 node.2).blinkArray other.1 = pool.blinkArray other.1 :=
            pool.store_other different _
          rw [ticked other later, kept]

/-- A tick keeps the location. -/
theorem Blinking.tick_location (blink : Blinking) : blink.tick.location = blink.location := by
  rw [Blinking.tick]
  split <;> rfl

/-- A run of the tasklet ticks the whole list. -/
theorem Represents.tick (represents : Represents pool nodes) (enough : 2000 < fuel) :
    ∃ pool', mp1RtcTasklet fuel pool = some pool' ∧
      Represents pool' (nodes.map fun node => (node.1, node.2.tick)) ∧
      pool'.video = Shown.ticked pool.video (nodes.map Prod.snd) := by
  have length := represents.toHolds.length_le
  obtain ⟨pool', ran, head, video, others, ticked⟩ :=
    taskletLoop_spec represents.toHolds (Nat.lt_of_le_of_lt length enough)
  have places : (nodes.map fun node => (node.1, node.2.tick)).map Prod.fst =
      nodes.map Prod.fst := by
    rw [List.map_map]
    rfl
  refine ⟨pool', ran, ⟨⟨?_, fun node member => ?_⟩, fun node member => ?_, fun place away => ?_⟩,
    video⟩
  · rw [List.map_map, head]
    refine represents.linked.relabel fun ptr listed slot present => ?_
    obtain ⟨node, member, rfl⟩ := List.mem_map.mp listed
    obtain rfl : pool.blinkArray node.1 = slot := Option.some.inj present
    exact ⟨_, congrArg some (ticked node member), rfl⟩
  · obtain ⟨old, listed, rfl⟩ := List.mem_map.mp member
    exact congrArg Slot.toBlinking (ticked old listed)
  · obtain ⟨old, listed, rfl⟩ := List.mem_map.mp member
    rw [Blinking.tick_location]
    exact represents.placed old listed
  · rw [places] at away
    rw [others place away]
    exact represents.free place away

/-! ## Runs -/

/-- A call of the pool does what it is for. -/
def Serves (fuel : Nat) (pool : Pool) (nodes : Nodes) (call : Call) : Prop :=
  ∃ answer pool' nodes', pool.serve fuel call = some (answer, pool') ∧ Represents pool' nodes' ∧
    (shownOf pool nodes).serve call = (answer.unlinked, shownOf pool' nodes')

theorem find_absent (absent : ∀ node ∈ nodes, node.2.location ≠ location) :
    (shownOf pool nodes).find location = none := by
  simpa [shownOf, Shown.find] using absent

theorem first_blinking (first : ∀ other ∈ left, other.2.location ≠ location) :
    ∀ blink ∈ left.map Prod.snd, ¬(decide (blink.location = location)) = true := by
  intro blink member
  obtain ⟨other, listed, rfl⟩ := List.mem_map.mp member
  simpa using first other listed

theorem find_present (first : ∀ other ∈ left, other.2.location ≠ location)
    (same : node.2.location = location) :
    (shownOf pool (left ++ node :: right)).find location = some node.2 := by
  simp only [shownOf, Shown.find, List.map_append, List.map_cons]
  exact find?_split (first_blinking first) (by simpa using same)

theorem add_serves (represents : Represents pool nodes) (fuel : Nat) {user : Slot}
    (placed : user.location ≠ 0) : Serves fuel pool nodes (.add user) := by
  have count : (shownOf pool nodes).blinks.length = nodes.length := List.length_map ..
  simp only [Serves, Pool.serve, Shown.serve, mp1IoctlAdd, count]
  by_cases range : user.location.toNat ≥ 80 * 25
  · rw [if_pos range, if_neg fun both => absurd range (Nat.not_le_of_lt both.1)]
    exact ⟨_, pool, nodes, rfl, represents, rfl⟩
  · have inside : user.location.toNat < 2000 := Nat.lt_of_not_le range
    rw [if_neg range]
    rcases mp1Malloc_spec represents with ⟨full, all⟩ | ⟨place, free, outside, room⟩
    · rw [full, if_neg fun both => Nat.ne_of_lt both.2 all]
      exact ⟨_, pool, nodes, rfl, represents, rfl⟩
    · rw [free, if_pos ⟨inside, room⟩]
      exact ⟨_, _, _, rfl, @Represents.add pool place
        ⟨user.toBlinking.started, pool.listHead⟩ nodes represents outside rfl placed _, rfl⟩

theorem remove_serves (represents : Represents pool nodes) (enough : 2000 < fuel) (arg : UInt32) :
    Serves fuel pool nodes (.remove arg) := by
  have shorter : nodes.length < fuel := Nat.lt_of_le_of_lt represents.toHolds.length_le enough
  simp only [Serves, Pool.serve, Shown.serve, mp1IoctlRemove]
  rcases mp1FindHelper_spec represents.toHolds shorter arg.toUInt16 with
    ⟨absent, ended⟩ | ⟨left, node, right, rfl, first, same, ended⟩
  · rw [ended, find_absent absent]
    exact ⟨_, pool, nodes, rfl, represents, rfl⟩
  · have short : left.length < fuel := by
      rw [List.length_append] at shorter
      omega
    have unlinked := @removeFindPrev_spec pool node left right fuel none represents.toHolds short
    rw [Option.or_none] at unlinked
    rw [ended, find_present first same]
    simp only [Option.pure_def, Option.bind_eq_bind, Option.bind_some, unlinked]
    refine ⟨_, _, _, rfl, represents.remove, ?_⟩
    have video := represents.redirected.2.1
    simp only [shownOf, List.map_append, List.map_cons, mp1Free, Pool.store, video]
    rw [eraseP_split (first_blinking first) (by simpa using same)]
    rfl

theorem find_serves (represents : Represents pool nodes) (enough : 2000 < fuel)
    (location : UInt16) : Serves fuel pool nodes (.find location) := by
  have shorter : nodes.length < fuel := Nat.lt_of_le_of_lt represents.toHolds.length_le enough
  simp only [Serves, Pool.serve, Shown.serve, mp1IoctlFind]
  rcases mp1FindHelper_spec represents.toHolds shorter location with
    ⟨absent, ended⟩ | ⟨left, node, right, rfl, first, same, ended⟩
  · rw [ended, find_absent absent]
    exact ⟨_, pool, nodes, rfl, represents, rfl⟩
  · have content : (pool.blinkArray node.1).toBlinking = node.2 :=
      represents.contents node (List.mem_append_right left List.mem_cons_self)
    rw [ended, find_present first same, ← content]
    exact ⟨_, pool, _, rfl, represents, rfl⟩

theorem sync_serves (represents : Represents pool nodes) (enough : 2000 < fuel) (arg : UInt32) :
    Serves fuel pool nodes (.sync arg) := by
  have shorter : nodes.length < fuel := Nat.lt_of_le_of_lt represents.toHolds.length_le enough
  simp only [Serves, Pool.serve, Shown.serve, mp1IoctlSync]
  rcases mp1FindHelper_spec represents.toHolds shorter (arg >>> 16).toUInt16 with
    ⟨absent, ended⟩ | ⟨left', source, right', split, first', same', ended⟩
  · rw [ended, find_absent absent]
    exact ⟨_, pool, nodes, rfl, represents, rfl⟩
  have found : (shownOf pool nodes).find (arg >>> 16).toUInt16 = some source.2 :=
    split ▸ find_present first' same'
  have content : (pool.blinkArray source.1).toBlinking = source.2 :=
    represents.contents source (split ▸ List.mem_append_right left' List.mem_cons_self)
  rw [ended, found]
  simp only [Option.bind_eq_bind, Option.bind_some]
  rcases mp1FindHelper_spec represents.toHolds shorter (arg &&& 0xFFFF).toUInt16 with
    ⟨absent, ended⟩ | ⟨left, target, right, rfl, first, same, ended⟩
  · rw [ended, find_absent absent]
    exact ⟨_, pool, nodes, rfl, represents, rfl⟩
  · have content' := represents.contents target (by simp)
    rw [ended, find_present first same]
    simp only [Option.bind_some, Option.pure_def]
    have placed : (target.2.timedAs source.2).location ≠ 0 := represents.placed target (by simp)
    have rewritten := represents.rewrite placed
    have stored : { pool.blinkArray target.1 with
        onLength := (pool.blinkArray source.1).onLength
        offLength := (pool.blinkArray source.1).offLength
        countdown := (pool.blinkArray source.1).countdown
        status := (pool.blinkArray source.1).status } =
          ({ pool.blinkArray target.1 with
            toBlinking := target.2.timedAs source.2 } : Slot) := by
      rw [← content, ← content']
      rfl
    rw [stored]
    refine ⟨_, _, _, rfl, rewritten.with_video _, ?_⟩
    simp only [shownOf, List.map_append, List.map_cons]
    rw [replaceFirst_split _ (first_blinking first) (by simpa using same), ← content']
    rfl

/-- Every call does what it is for. -/
theorem call_serves (represents : Represents pool nodes) (enough : 2000 < fuel) (call : Call)
    (placed : ∀ user, call = .add user → user.location ≠ 0) : Serves fuel pool nodes call := by
  cases call with
  | add user => exact add_serves represents fuel (placed user rfl)
  | remove arg => exact remove_serves represents enough arg
  | find location => exact find_serves represents enough location
  | sync arg => exact sync_serves represents enough arg
  | tasklet =>
      obtain ⟨pool', ran, represents', video⟩ := represents.tick enough
      refine ⟨.plain 0, pool', _, ?_, represents', ?_⟩
      · rw [Pool.serve, ran, Option.map_some]
      · simp only [Shown.serve, shownOf, video, List.map_map]
        rfl

/-- Calls after one another, from any pool with a list. -/
theorem calls_serve (represents : Represents pool nodes) (enough : 2000 < fuel) (calls : List Call)
    (placed : ∀ user, .add user ∈ calls → user.location ≠ 0) :
    ∃ answers pool' nodes', pool.serveAll fuel calls = some (answers, pool') ∧
      Represents pool' nodes' ∧
        (shownOf pool nodes).serveAll calls =
          (answers.map Answer.unlinked, shownOf pool' nodes') := by
  induction calls generalizing pool nodes with
  | nil => exact ⟨[], pool, nodes, rfl, represents, rfl⟩
  | cons call calls ih =>
      obtain ⟨answer, pool', nodes', served, represents', same⟩ :=
        call_serves represents enough call fun user here =>
          placed user (here ▸ List.mem_cons_self)
      obtain ⟨answers, pool'', nodes'', later, represents'', same'⟩ := ih represents'
        fun user member => placed user (List.mem_cons_of_mem _ member)
      refine ⟨answer :: answers, pool'', nodes'', ?_, represents'', ?_⟩
      · simp only [Pool.serveAll, served, Option.bind_eq_bind, Option.bind_some, later,
          Option.pure_def]
      · simp only [Shown.serveAll, same, same', List.map_cons]

end

theorem cleared_represents (video : Nat → UInt8) : Represents (Pool.cleared video) [] :=
  ⟨⟨.nil, by simp⟩, by simp, fun _ _ => rfl⟩

/-- From the cleared array on, calls that add no structure at location 0 return what the reference
model returns, copy to the caller what it copies, and show what it shows, and the list in the array
holds its blinking characters; each call ends. -/
theorem pool_refines (fuel : Nat) (enough : 2000 < fuel) (video : Nat → UInt8) (calls : List Call)
    (placed : ∀ user, .add user ∈ calls → user.location ≠ 0) :
    ∃ answers pool nodes, (Pool.cleared video).serveAll fuel calls = some (answers, pool) ∧
      Represents pool nodes ∧
      (⟨[], video⟩ : Shown).serveAll calls =
        (answers.map Answer.unlinked, ⟨nodes.map Prod.snd, pool.video⟩) :=
  calls_serve (cleared_represents video) enough calls placed

/-- A letter that blinks at a location, added, given the timing of itself, ticked, looked for,
removed, and looked for again. -/
theorem pool_refines_letter :
    ∃ answers pool nodes, (Pool.cleared fun _ => 32).serveAll 2001
        [.add ⟨⟨540, 73, 77, 7, 6, 0, 0⟩, none⟩, .sync 0x21C021C, .tasklet, .find 540,
          .remove 540, .find 540] = some (answers, pool) ∧
      Represents pool nodes ∧
      (⟨[], fun _ => 32⟩ : Shown).serveAll
        [.add ⟨⟨540, 73, 77, 7, 6, 0, 0⟩, none⟩, .sync 0x21C021C, .tasklet, .find 540,
          .remove 540, .find 540] =
        (answers.map Answer.unlinked, ⟨nodes.map Prod.snd, pool.video⟩) :=
  pool_refines 2001 (by decide) (fun _ => 32) _ (by simp)

/-! ## Location 0 -/

/-- A structure that is its own successor keeps the tasklet in its loop. -/
theorem taskletLoop_cycle {pool : Pool} {place : Fin 2000}
    (cycle : (pool.blinkArray place).next = some place) (fuel : Nat) :
    taskletLoop pool fuel (some place) = none := by
  induction fuel generalizing pool with
  | zero => rfl
  | succ fuel ih =>
      rw [taskletLoop_step, cycle]
      refine ih ?_
      have stored := pool.store_same place
        { pool.blinkArray place with toBlinking := (pool.blinkArray place).toBlinking.tick }
      exact (congrArg Slot.next stored).trans cycle

/-- Two structures at location 0 get the same place, and the tasklet never ends. -/
theorem tasklet_hangs {first second : Slot} (zero : first.location = 0)
    (zero' : second.location = 0) (video : Nat → UInt8) (fuel : Nat) :
    mp1RtcTasklet fuel (mp1IoctlAdd second (mp1IoctlAdd first (Pool.cleared video)).2).2 =
      none := by
  have empty {pool : Pool} (free : (pool.blinkArray 0).location = 0) : mp1Malloc pool = some 0 := by
    rw [mp1Malloc, List.finRange_succ, List.find?_cons_of_pos (by simpa using free)]
  have added {pool : Pool} {user : Slot} (free : (pool.blinkArray 0).location = 0)
      (zero : user.location = 0) :
      (mp1IoctlAdd user pool).2.listHead = some 0 ∧
        (mp1IoctlAdd user pool).2.blinkArray 0 =
          ⟨user.toBlinking.started, pool.listHead⟩ := by
    rw [mp1IoctlAdd, if_neg (by rw [zero]; decide), empty free]
    exact ⟨rfl, pool.store_same 0 ⟨user.toBlinking.started, pool.listHead⟩⟩
  obtain ⟨head, stored⟩ := @added (Pool.cleared video) first rfl zero
  obtain ⟨head', stored'⟩ := @added (mp1IoctlAdd first (Pool.cleared video)).2 second
    (by rw [stored]; exact zero) zero'
  rw [mp1RtcTasklet, head']
  exact taskletLoop_cycle (by rw [stored', head]) fuel

end Ece391.Programs.Fish
