import Ece391.Kernel.Filesystem
import Ece391.Library.Traced

/-!
# What the kernel reads of the image

`read_dentry_by_index` and `read_data` again, with a log of the parts of the image they read.
The numbers of the parts come from the caller and from the image itself, and few of them are
checked.  The main results say when `read_data` answers a request as it should: its range must
not wrap, and every part of the image that it takes must exist.
-/

namespace Ece391.Kernel

open Ece391.Library

/-- A part of the image that is read at once. -/
inductive ImagePlace where
  /-- The counts in the boot block. -/
  | counts
  | direntry (index : Nat)
  /-- An inode with its whole block list. -/
  | inode (number : Nat)
  /-- One slot of a block list. -/
  | dataBlockNum (number index : Nat)
  | dataBlock (number : Nat)
  deriving DecidableEq, Repr

namespace ImagePlace

/-- Two images hold the same at a place. -/
def Same : ImagePlace → Image → Image → Prop
  | .counts, first, second =>
      second.dirCount = first.dirCount ∧ second.inodeCount = first.inodeCount ∧
        second.dataCount = first.dataCount
  | .direntry index, first, second => second.direntries index = first.direntries index
  | .inode number, first, second => second.inodes number = first.inodes number
  | .dataBlockNum number index, first, second =>
      (second.inodes number).dataBlockNum index = (first.inodes number).dataBlockNum index
  | .dataBlock number, first, second => second.dataBlocks number = first.dataBlocks number

/-- The place exists: its numbers are below the counts of the boot block, and below the 1023
slots of a block list. -/
def Exists (image : Image) : ImagePlace → Prop
  | .counts => True
  | .direntry index => (index : Int) < image.dirCount
  | .inode number => (number : Int) < image.inodeCount
  | .dataBlockNum number index => (number : Int) < image.inodeCount ∧ index < 1023
  | .dataBlock number => (number : Int) < image.dataCount

instance (image : Image) (place : ImagePlace) : Decidable (place.Exists image) :=
  match place with
  | .counts => inferInstanceAs (Decidable True)
  | .direntry _ => inferInstanceAs (Decidable (_ < _))
  | .inode _ => inferInstanceAs (Decidable (_ < _))
  | .dataBlockNum _ _ => inferInstanceAs (Decidable (_ ∧ _))
  | .dataBlock _ => inferInstanceAs (Decidable (_ < _))

end ImagePlace

/-- `read_dentry_by_index`. -/
def readDentryByIndexTraced (image : Image) (index : Nat) (dentry : Dentry) :
    Traced ImagePlace (Int × Dentry) := do
  let dirCount ← Traced.read .counts image.dirCount
  if ((index % 256 : Nat) : Int) > dirCount ∨ 63 < index % 256 then pure (-1, dentry)
  else do
    let entry ← Traced.read (.direntry (index % 256)) (image.direntries (index % 256))
    pure (0, entry)

/-- The copy loop of `read_data`, with the length in its copy of the inode. -/
def readDataLoopTraced (image : Image) (inode offset length : Nat) :
    (remaining current : Nat) → List UInt8 → Traced ImagePlace (Int × List UInt8)
  | 0, _, written => pure (int32 written.length, written)
  | remaining + 1, current, written =>
      if current = length then pure (int32 ((current : Int) - offset), written)
      else do
        let number ← Traced.read (.dataBlockNum inode (current / 4096))
          ((image.inodes inode).dataBlockNum (current / 4096))
        let block ← Traced.read (.dataBlock (uint32 number)) (image.dataBlocks (uint32 number))
        readDataLoopTraced image inode offset length remaining (current + 1)
          (written ++ [block (current % 4096)])

/-- `read_data`; the inode is copied before its number is checked. -/
def readDataTraced (image : Image) (inode offset length : Nat) :
    Traced ImagePlace (Int × List UInt8) := do
  let currInode ← Traced.read (.inode inode) (image.inodes inode)
  let inodeCount ← Traced.read .counts image.inodeCount
  if inode > uint32 (inodeCount - 1) then pure (-1, [])
  else if offset ≥ uint32 currInode.length then pure (0, [])
  else
    readDataLoopTraced image inode offset (uint32 currInode.length)
      ((offset + length) % 4294967296 - offset) offset []

/-! ## The logs belong to the functions -/

section

variable {image : Image} {inode offset length remaining current : Nat} {written : List UInt8}

theorem readDentryByIndexTraced_eq (image : Image) (index : Nat) (dentry : Dentry) :
    readDentryByIndexTraced image index dentry =
      Traced.read .counts image.dirCount >>= fun _ =>
        if ((index % 256 : Nat) : Int) > image.dirCount ∨ 63 < index % 256 then pure (-1, dentry)
        else
          Traced.read (.direntry (index % 256)) (image.direntries (index % 256)) >>= fun entry =>
            pure (0, entry) := rfl

theorem readDataTraced_eq (image : Image) (inode offset length : Nat) :
    readDataTraced image inode offset length =
      Traced.read (.inode inode) (image.inodes inode) >>= fun _ =>
        Traced.read .counts image.inodeCount >>= fun _ =>
          if inode > uint32 (image.inodeCount - 1) then pure (-1, [])
          else if offset ≥ fileLength image inode then pure (0, [])
          else
            readDataLoopTraced image inode offset (fileLength image inode)
              ((offset + length) % 4294967296 - offset) offset [] := rfl

/-- The log does not change the result of `read_dentry_by_index`, -/
theorem readDentryByIndexTraced_value (image : Image) (index : Nat) (dentry : Dentry) :
    (readDentryByIndexTraced image index dentry).value = readDentryByIndex image index dentry := by
  rw [readDentryByIndexTraced_eq, Traced.bind_value, Traced.ite_value]
  rfl

private theorem readDataLoopTraced_value :
    (readDataLoopTraced image inode offset (fileLength image inode) remaining current
        written).value =
      readDataLoop image inode offset remaining current written := by
  induction remaining generalizing current written with
  | zero => rfl
  | succ remaining ih =>
      rw [readDataLoopTraced, readDataLoop, Traced.ite_value]
      split
      · rfl
      · exact ih

/-- nor that of `read_data`. -/
theorem readDataTraced_value (image : Image) (inode offset length : Nat) :
    (readDataTraced image inode offset length).value = readData image inode offset length := by
  rw [readDataTraced_eq, Traced.bind_value, Traced.bind_value, Traced.ite_value,
    Traced.ite_value, readDataLoopTraced_value]
  rfl

/-- Nothing but the parts logged matters to `read_dentry_by_index`, -/
theorem readDentryByIndexTraced_local (index : Nat) (dentry : Dentry) :
    Traced.Local ImagePlace.Same fun image => readDentryByIndexTraced image index dentry := by
  refine Traced.Local.bind (.read fun _ _ same => same.1) fun dirCount => ?_
  refine .ite (.pure _) ?_
  exact .bind (.read fun _ _ same => same) fun entry => .pure _

private theorem readDataLoopTraced_local (inode offset length remaining current : Nat)
    (written : List UInt8) :
    Traced.Local ImagePlace.Same fun image =>
      readDataLoopTraced image inode offset length remaining current written := by
  induction remaining generalizing current written with
  | zero => exact .pure _
  | succ remaining ih =>
      simp only [readDataLoopTraced]
      refine .ite (.pure _) ?_
      refine .bind (.read fun _ _ same => same) fun number => ?_
      exact .bind (.read fun _ _ same => same) fun block => ih _ _

/-- nor to `read_data`. -/
theorem readDataTraced_local (inode offset length : Nat) :
    Traced.Local ImagePlace.Same fun image => readDataTraced image inode offset length := by
  refine Traced.Local.bind (.read fun _ _ same => same) fun currInode => ?_
  refine .bind (.read fun _ _ same => same.2.1) fun inodeCount => ?_
  refine .ite (.pure _) (.ite (.pure _) ?_)
  exact readDataLoopTraced_local _ _ _ _ _ _

end

/-! ## Requests whose range wraps -/

/-- A request is answered with the bytes of the file from its offset on, as many as it asks
for or as there are. -/
structure Answered (image : Image) (inode offset length : Nat) : Prop where
  ret : (readData image inode offset length).1 =
    if offset ≥ fileLength image inode then 0
    else ((min length (fileLength image inode - offset) : Nat) : Int)
  bytes : (readData image inode offset length).2 =
    ((fileContent image inode).drop offset).take length

section

variable {image : Image} {inode offset length : Nat}

theorem readData_ended (known : inode ≤ uint32 (image.inodeCount - 1))
    (ended : fileLength image inode ≤ offset) : readData image inode offset length = (0, []) := by
  rw [readData, if_neg (Nat.not_lt.mpr known), if_pos ended]

/-- When the end of the range wraps, nothing is read. -/
theorem readData_wrapped (known : inode ≤ uint32 (image.inodeCount - 1))
    (inside : offset < fileLength image inode) (typed : length < 4294967296)
    (wraps : 4294967296 ≤ offset + length) : readData image inode offset length = (0, []) := by
  have bound : fileLength image inode < 4294967296 := uint32_lt _
  have none : (offset + length) % 4294967296 - offset = 0 := by omega
  rw [readData, if_neg (Nat.not_lt.mpr known), if_neg (Nat.not_le.mpr inside), none]
  rfl

/-- On a well-formed image `read_data` answers a request exactly when it starts at or behind
the end of the file, or its range does not wrap. -/
theorem readData_answered_iff (wellFormed : image.WellFormed)
    (exists_ : (inode : Int) < image.inodeCount) (offsetTyped : offset < 4294967296)
    (lengthTyped : length < 4294967296) :
    Answered image inode offset length ↔
      fileLength image inode ≤ offset ∨ offset + length < 4294967296 := by
  have content := length_fileContent (wellFormed.fileLength_le exists_)
  have known := readData_known exists_ wellFormed.inodeCount_lt
  constructor
  · intro answered
    by_contra other
    rw [not_or, Nat.not_le, Nat.not_lt] at other
    have nothing := readData_wrapped known other.1 lengthTyped other.2
    have ret := answered.ret
    rw [nothing, if_neg (Nat.not_le.mpr other.1)] at ret
    omega
  · intro allowed
    by_cases ended : fileLength image inode ≤ offset
    · have nothing : readData image inode offset length = (0, []) :=
        readData_ended known ended
      constructor
      · rw [nothing, if_pos ended]
      · rw [nothing, List.drop_eq_nil_of_le (content.le.trans ended), List.take_nil]
    · have served := readData_eq_serve wellFormed exists_ (allowed.resolve_left ended)
      constructor
      · rw [served, if_neg ended, length_serve, content]
      · rw [served]
        rfl

end

/-- The last word of the executable of the small image is read as it should be. -/
theorem readData_answered_entry : Answered smallImage 1 24 4 :=
  (readData_answered_iff smallImage_wellFormed (by decide) (by decide) (by decide)).mpr
    (.inr (by decide))

/-- Asked for all that follows the first byte of a file of 5, `read_data` returns 0. -/
theorem readData_wrapped_range :
    readData smallImage 2 1 4294967295 = (0, []) ∧ fileLength smallImage 2 = 5 ∧
      ¬Answered smallImage 2 1 4294967295 := by
  have nothing : readData smallImage 2 1 4294967295 = (0, []) :=
    readData_wrapped (by decide) (by decide) (by decide) (by decide)
  refine ⟨nothing, by decide, ?_⟩
  intro answered
  have ret := answered.ret
  rw [nothing] at ret
  exact absurd ret (by decide)

/-! ## Requests that leave the image -/

/-- The number of the data block that holds a position of a file. -/
def blockOf (image : Image) (inode position : Nat) : Nat :=
  uint32 ((image.inodes inode).dataBlockNum (position / 4096))

/-- The parts of the image that a request takes: the inode, and for each byte asked for within
the file a slot of the block list and a data block. -/
inductive Takes (image : Image) (inode offset length : Nat) : ImagePlace → Prop where
  | inode : Takes image inode offset length (.inode inode)
  | slot {position : Nat} :
      offset ≤ position → position < offset + length → position < fileLength image inode →
      Takes image inode offset length (.dataBlockNum inode (position / 4096))
  | block {position : Nat} :
      offset ≤ position → position < offset + length → position < fileLength image inode →
      Takes image inode offset length (.dataBlock (blockOf image inode position))

/-- Nothing is read that does not exist, and a request that takes something that does not
exist is refused. -/
structure ReadSafely (image : Image) (inode offset length : Nat) : Prop where
  inside : (readDataTraced image inode offset length).Inside (ImagePlace.Exists image)
  refused : (∃ place, Takes image inode offset length place ∧ ¬place.Exists image) →
    (readData image inode offset length).1 = -1

section

variable {image : Image} {inode offset length : Nat} {area : ImagePlace → Prop}

/-- The loop keeps inside an area when each of its iterations does. -/
private theorem inside_readDataLoopTraced {fileLen remaining current : Nat}
    {written : List UInt8} (before : current ≤ fileLen) :
    (readDataLoopTraced image inode offset fileLen remaining current written).Inside area ↔
      ∀ position, current ≤ position → position < current + remaining → position < fileLen →
        area (.dataBlockNum inode (position / 4096)) ∧
          area (.dataBlock (blockOf image inode position)) := by
  induction remaining generalizing current written with
  | zero =>
      constructor
      · intro _ position low high
        omega
      · intro _
        exact Traced.inside_pure _
  | succ remaining ih =>
      rw [readDataLoopTraced]
      by_cases ended : current = fileLen
      · rw [if_pos ended]
        constructor
        · intro _ position low _ high
          omega
        · intro _
          exact Traced.inside_pure _
      · rw [if_neg ended]
        have later := @ih (current + 1)
          (written ++ [image.dataBlocks (blockOf image inode current) (current % 4096)]) (by omega)
        simp only [Traced.inside_bind, Traced.inside_read, Traced.read_value]
        constructor
        · rintro ⟨slot, block, rest⟩ position low high within
          rcases Nat.lt_or_eq_of_le low with after | rfl
          · exact later.mp rest position after (by omega) within
          · exact ⟨slot, block⟩
        · intro every
          have here := every current (Nat.le_refl _) (by omega) (by omega)
          refine ⟨here.1, here.2, later.mpr ?_⟩
          intro position low high within
          exact every position (by omega) (by omega) within

/-- What `read_data` reads: the inode and the counts, and if the inode is known what the bytes
of the range take. -/
theorem inside_readDataTraced (image : Image) (inode offset length : Nat) :
    (readDataTraced image inode offset length).Inside area ↔
      area (.inode inode) ∧ area .counts ∧
        (inode ≤ uint32 (image.inodeCount - 1) → ∀ position, offset ≤ position →
          position < (offset + length) % 4294967296 → position < fileLength image inode →
          area (.dataBlockNum inode (position / 4096)) ∧
            area (.dataBlock (blockOf image inode position))) := by
  rw [readDataTraced_eq, Traced.inside_bind, Traced.inside_bind, Traced.inside_read,
    Traced.inside_read, Traced.inside_ite, Traced.inside_ite]
  simp only [Traced.inside_pure, implies_true, true_and, Nat.not_lt, Nat.not_le, gt_iff_lt,
    ge_iff_le]
  refine and_congr_right fun _ => and_congr_right fun _ => forall_congr' fun known => ?_
  constructor
  · intro inside position low high within
    have loop := inside (by omega)
    rw [inside_readDataLoopTraced (by omega)] at loop
    exact loop position low (by omega) within
  · intro every nonempty
    rw [inside_readDataLoopTraced (by omega)]
    intro position low high within
    exact every position low (by omega) within

/-- A known inode is refused only when so many bytes are copied that their count is -1. -/
theorem readData_refused (known : inode ≤ uint32 (image.inodeCount - 1))
    (typed : length < 4294967296) (refused : (readData image inode offset length).1 = -1) :
    offset + length < 4294967296 ∧ offset + 4294967295 ≤ fileLength image inode ∧
      4294967295 ≤ length := by
  have bound : fileLength image inode < 4294967296 := uint32_lt _
  by_cases ended : fileLength image inode ≤ offset
  · rw [readData_ended known ended] at refused
    cases refused
  · by_cases wraps : 4294967296 ≤ offset + length
    · rw [readData_wrapped known (Nat.lt_of_not_le ended) typed wraps] at refused
      cases refused
    · have noWrap := Nat.lt_of_not_le wraps
      rw [readData_eq known (Nat.lt_of_not_le ended) noWrap] at refused
      simp only [int32] at refused
      split at refused <;> omega

/-- `read_data` never reads what does not exist, and refuses the requests that would, exactly
when the request takes nothing that does not exist. -/
theorem readData_safe_iff (image : Image) (inode offset length : Nat)
    (countTyped : image.inodeCount < 2147483648) (lengthTyped : length < 4294967296) :
    ReadSafely image inode offset length ↔
      ∀ place, Takes image inode offset length place → place.Exists image := by
  constructor
  · intro safe place takes
    by_contra missing
    have refused := safe.refused ⟨place, takes, missing⟩
    obtain ⟨exists_, -, every⟩ := (inside_readDataTraced image inode offset length).mp safe.inside
    have known := readData_known exists_ countTyped
    obtain ⟨noWrap, long, whole⟩ := readData_refused known lengthTyped refused
    -- So many bytes would have taken a slot behind the block list.
    have beyond := (every known (offset + 1023 * 4096) (by omega) (by omega) (by omega)).1.2
    omega
  · intro every
    constructor
    · refine (inside_readDataTraced image inode offset length).mpr ⟨every _ .inode, trivial, ?_⟩
      intro _ position low high within
      have inRange : position < offset + length := by omega
      exact ⟨every _ (.slot low inRange within), every _ (.block low inRange within)⟩
    · rintro ⟨place, takes, missing⟩
      exact absurd (every place takes) missing

end

/-- The first four bytes of the executable of the small image take only what exists. -/
theorem readData_safe_magic : ReadSafely smallImage 1 0 4 := by
  refine (readData_safe_iff smallImage 1 0 4 (by decide) (by decide)).mpr ?_
  intro place takes
  cases takes with
  | inode => decide
  | @slot position _ high _ =>
      have first : position / 4096 = 0 := by omega
      rw [first]
      decide
  | @block position _ high _ =>
      have first : position / 4096 = 0 := by omega
      rw [blockOf, first]
      decide

/-- The small image with a block number in the inode of its executable that is too large. -/
def corruptImage : Image :=
  { smallImage with inodes := fun _ => ⟨28, fun _ => 2⟩ }

/-- An inode that does not exist is read before its number is refused, and a data block that
does not exist is read and its bytes returned. -/
theorem readData_leaves_image :
    (.inode 3 ∈ (readDataTraced smallImage 3 0 4).places ∧
        ¬(ImagePlace.inode 3).Exists smallImage ∧ ¬ReadSafely smallImage 3 0 4) ∧
      (.dataBlock 2 ∈ (readDataTraced corruptImage 1 0 4).places ∧
        ¬(ImagePlace.dataBlock 2).Exists corruptImage ∧ (readData corruptImage 1 0 4).1 = 4 ∧
        ¬ReadSafely corruptImage 1 0 4) := by
  have inode : ImagePlace.inode 3 ∈ (readDataTraced smallImage 3 0 4).places := by decide
  have block : ImagePlace.dataBlock 2 ∈ (readDataTraced corruptImage 1 0 4).places := by decide
  have noInode : ¬(ImagePlace.inode 3).Exists smallImage := by decide
  have noBlock : ¬(ImagePlace.dataBlock 2).Exists corruptImage := by decide
  exact ⟨⟨inode, noInode, fun safe => noInode (safe.inside _ inode)⟩,
    block, noBlock, by decide, fun safe => noBlock (safe.inside _ block)⟩

end Ece391.Kernel
