import Mathlib.Data.List.Nodup
import Mathlib.Logic.Function.Basic

/-!
# Null-terminated linked lists in a heap

A heap is a partial map from pointers to cells, `none` marking what is not
allocated.  `Linked` relates a head pointer to the pointers met by following the
links up to the null pointer.  Since the links are a function of the heap, a
linked list never meets the same pointer twice.
-/

namespace Ece391.Library

universe u v

variable {Ptr : Type u} {Cell : Type v}

/-- Following `next` from a head pointer meets exactly these allocated pointers
before it reaches `null`. -/
inductive Linked (next : Cell → Ptr) (null : Ptr) (heap : Ptr → Option Cell) :
    Ptr → List Ptr → Prop where
  | nil : Linked next null heap null []
  | cons {ptr : Ptr} {cell : Cell} {rest : List Ptr} :
      ptr ≠ null → heap ptr = some cell → Linked next null heap (next cell) rest →
      Linked next null heap ptr (ptr :: rest)

namespace Linked

variable {next : Cell → Ptr} {null : Ptr} {heap heap' : Ptr → Option Cell}
variable {head ptr : Ptr} {ptrs left right rest : List Ptr}

/-- The null pointer heads only the empty list. -/
@[simp] theorem null_iff : Linked next null heap null ptrs ↔ ptrs = [] := by
  constructor
  · intro linked
    cases linked with
    | nil => rfl
    | cons nonNull _ _ => exact absurd rfl nonNull
  · rintro rfl
    exact .nil

@[simp] theorem nil_iff : Linked next null heap head [] ↔ head = null := by
  constructor
  · intro linked
    cases linked with
    | nil => rfl
  · rintro rfl
    exact .nil

@[simp] theorem cons_iff : Linked next null heap head (ptr :: rest) ↔
    head = ptr ∧ ptr ≠ null ∧
      ∃ cell, heap ptr = some cell ∧ Linked next null heap (next cell) rest := by
  constructor
  · intro linked
    cases linked with
    | cons nonNull stored tail => exact ⟨rfl, nonNull, _, stored, tail⟩
  · rintro ⟨rfl, nonNull, cell, stored, tail⟩
    exact .cons nonNull stored tail

/-- A non-null head is the first pointer of its list. -/
theorem uncons (linked : Linked next null heap head ptrs) (nonNull : head ≠ null) :
    ∃ cell rest, heap head = some cell ∧ ptrs = head :: rest ∧
      Linked next null heap (next cell) rest := by
  cases linked with
  | nil => exact absurd rfl nonNull
  | cons _ stored tail => exact ⟨_, _, stored, rfl, tail⟩

theorem ne_null (linked : Linked next null heap head ptrs) :
    ∀ ptr ∈ ptrs, ptr ≠ null := by
  induction linked with
  | nil => simp
  | cons nonNull _ _ ih => simpa [nonNull] using ih

theorem allocated (linked : Linked next null heap head ptrs) :
    ∀ ptr ∈ ptrs, ∃ cell, heap ptr = some cell := by
  induction linked with
  | nil => simp
  | cons _ stored _ ih => simpa [stored] using ih

/-- A heap determines the list below a head pointer. -/
theorem unique (first : Linked next null heap head left)
    (second : Linked next null heap head right) : left = right := by
  induction first generalizing right with
  | nil => exact (null_iff.mp second).symm
  | cons nonNull stored _ ih =>
      obtain ⟨cell, rest, stored', rfl, tail⟩ := second.uncons nonNull
      obtain rfl : _ = cell := Option.some.inj (stored.symm.trans stored')
      rw [ih tail]

/-- The list below any pointer of a list is a suffix of it. -/
theorem suffix (linked : Linked next null heap head (left ++ ptr :: right)) :
    Linked next null heap ptr (ptr :: right) := by
  induction left generalizing head with
  | nil =>
      obtain ⟨rfl, _⟩ := cons_iff.mp linked
      exact linked
  | cons _ left ih =>
      obtain ⟨_, _, cell, _, tail⟩ := cons_iff.mp linked
      exact ih tail

/-- Links that reach null never come back: the list is acyclic. -/
theorem nodup (linked : Linked next null heap head ptrs) : ptrs.Nodup := by
  induction linked with
  | nil => exact .nil
  | @cons ptr cell rest nonNull stored tail ih =>
      refine List.nodup_cons.mpr ⟨fun membership => ?_, ih⟩
      obtain ⟨left, right, rfl⟩ := List.append_of_mem membership
      have whole : Linked next null heap ptr (ptr :: (left ++ ptr :: right)) :=
        .cons nonNull stored tail
      have lengths := congrArg List.length (tail.suffix.unique whole)
      simp at lengths
      omega

/-- A list depends on the heap only at its own pointers. -/
theorem frame (linked : Linked next null heap head ptrs)
    (agree : ∀ ptr ∈ ptrs, heap' ptr = heap ptr) : Linked next null heap' head ptrs := by
  induction linked with
  | nil => exact .nil
  | cons nonNull stored _ ih =>
      refine .cons nonNull ((agree _ (by simp)).trans stored) (ih fun ptr membership => ?_)
      exact agree ptr (by simp [membership])

/-- Rewriting cells without touching their links keeps the list. -/
theorem relabel (linked : Linked next null heap head ptrs)
    (links : ∀ ptr ∈ ptrs, ∀ cell, heap ptr = some cell →
      ∃ cell', heap' ptr = some cell' ∧ next cell' = next cell) :
    Linked next null heap' head ptrs := by
  induction linked with
  | nil => exact .nil
  | cons nonNull stored _ ih =>
      obtain ⟨cell', stored', same⟩ := links _ (by simp) _ stored
      apply cons nonNull stored'
      rw [same]
      exact ih fun ptr membership => links ptr (by simp [membership])

variable [DecidableEq Ptr]

theorem update_of_notMem (linked : Linked next null heap head ptrs) (fresh : ptr ∉ ptrs)
    (content : Option Cell) : Linked next null (Function.update heap ptr content) head ptrs := by
  refine linked.frame fun other membership => ?_
  have different : other ≠ ptr := by
    rintro rfl
    exact fresh membership
  simp [different]

/-- Writing a cell that points at the old head extends the list in front. -/
theorem prepend (linked : Linked next null heap head ptrs) (nonNull : ptr ≠ null)
    (fresh : ptr ∉ ptrs) {cell : Cell} (link : next cell = head) :
    Linked next null (Function.update heap ptr (some cell)) ptr (ptr :: ptrs) := by
  subst link
  exact .cons nonNull (Function.update_self ..) (linked.update_of_notMem fresh (some cell))

/-- Redirecting a cell past its successor unlinks the successor. -/
theorem unlink {previous target : Ptr} {cell targetCell : Cell}
    (linked : Linked next null heap head (left ++ previous :: target :: right))
    (storedTarget : heap target = some targetCell)
    (link : next cell = next targetCell) :
    Linked next null (Function.update heap previous (some cell)) head
      (left ++ previous :: right) := by
  have distinct := linked.nodup
  induction left generalizing head with
  | nil =>
      obtain ⟨rfl, nonNull, _, _, tail⟩ := cons_iff.mp linked
      obtain ⟨_, _, targetCell', storedTarget', after⟩ := cons_iff.mp tail
      obtain rfl := Option.some.inj (storedTarget.symm.trans storedTarget')
      apply cons nonNull (Function.update_self ..)
      rw [link]
      refine after.update_of_notMem ?_ (some cell)
      simp only [List.nil_append, List.nodup_cons, List.mem_cons, not_or] at distinct
      exact distinct.1.2
  | cons first left ih =>
      obtain ⟨rfl, nonNull, firstCell, stored, tail⟩ := cons_iff.mp linked
      simp only [List.cons_append, List.nodup_cons, List.mem_append, List.mem_cons,
        not_or] at distinct
      refine .cons nonNull ?_ (ih tail distinct.2)
      rw [Function.update_of_ne distinct.1.2.1]
      exact stored

end Linked

end Ece391.Library
