import Ece391.Kernel.Lib
import Ece391.Library.Cursor

/-!
# The filesystem image

The image is a boot block with directory entries, an array of inodes and an array
of 4 KB data blocks.  The kernel reaches all three through pointers and checks few
indices, so each array is a total function: beyond its end it stands for whatever
the memory there holds.

`readDentryByName` and `readData` follow the source loops.  Over them stand the
meaning of an entry's name, the content of a file, and the equations that relate
the loops to the two.
-/

namespace Ece391.Kernel

open Ece391.Library

/-- A directory entry; its unused reserved bytes are left out. -/
structure Dentry where
  fileName : Fin 32 → UInt8
  fileType : Int
  inodeNum : Int

/-- An inode. -/
structure Inode where
  length : Int
  dataBlockNum : Nat → Int

/-- The memory reached from `boot_block`, `inodes` and `data_blocks`. -/
structure Image where
  dirCount : Int
  inodeCount : Int
  dataCount : Int
  direntries : Nat → Dentry
  inodes : Nat → Inode
  dataBlocks : Nat → Nat → UInt8

/-- The name field as a pointer to its first byte. -/
def Dentry.namePtr (dentry : Dentry) : Bytes :=
  fun i => if bound : i < 32 then dentry.fileName ⟨i, bound⟩ else 0

/-- The name an entry carries: its field up to the first NUL, or all 32 bytes. -/
def Dentry.name (dentry : Dentry) : List UInt8 :=
  field 0 32 dentry.namePtr

theorem Dentry.length_name_le (dentry : Dentry) : dentry.name.length ≤ 32 :=
  field_length_le

theorem Dentry.zero_notMem_name (dentry : Dentry) : 0 ∉ dentry.name :=
  stop_notMem_field

/-! ## Directory lookups -/

/-- `read_dentry_by_index`: the return value and the entry left in the caller's
buffer.  The index parameter is one byte wide. -/
def readDentryByIndex (image : Image) (index : Nat) (dentry : Dentry) : Int × Dentry :=
  let index := index % 256
  if (index : Int) > image.dirCount ∨ 63 < index then (-1, dentry)
  else (0, image.direntries index)

/-- How `read_dentry_by_name` ends. -/
inductive Lookup where
  /-- It returns 0 and leaves this entry in the caller's buffer. -/
  | found (dentry : Dentry)
  /-- It returns -1. -/
  | missing
  /-- Its one-byte counter wraps below `dir_count` for ever. -/
  | endless

/-- The search loop.  After 256 comparisons the one-byte counter is back at its
start, so no further iteration can end the loop. -/
def nameLoop (image : Image) (fname : Bytes) (dentry : Dentry) : (fuel i : Nat) → Lookup
  | 0, _ => .endless
  | fuel + 1, i =>
      if (i : Int) < image.dirCount then
        if strncmp fname (image.direntries i).namePtr 32 = 0 then
          .found (readDentryByIndex image i dentry).2
        else
          nameLoop image fname dentry fuel ((i + 1) % 256)
      else
        .missing

/-- `read_dentry_by_name`, given what the caller's buffer held before. -/
def readDentryByName (image : Image) (fname : Bytes) (dentry : Dentry) : Lookup :=
  nameLoop image fname dentry 256 0

/-! ## Reading file data -/

/-- The byte of a file at a position, found through the inode's block list. -/
def byteAt (image : Image) (inode position : Nat) : UInt8 :=
  image.dataBlocks (uint32 ((image.inodes inode).dataBlockNum (position / 4096)))
    (position % 4096)

/-- The length of a file as the kernel compares it. -/
def fileLength (image : Image) (inode : Nat) : Nat :=
  uint32 (image.inodes inode).length

/-- The copy loop of `read_data`: the return value and the bytes stored in the
buffer from its start. -/
def readDataLoop (image : Image) (inode offset : Nat) :
    (remaining current : Nat) → List UInt8 → Int × List UInt8
  | 0, _, written => (int32 written.length, written)
  | remaining + 1, current, written =>
      if current = fileLength image inode then (int32 ((current : Int) - offset), written)
      else
        readDataLoop image inode offset remaining (current + 1)
          (written ++ [byteAt image inode current])

/-- `read_data`; the end of the range is computed modulo 2^32. -/
def readData (image : Image) (inode offset length : Nat) : Int × List UInt8 :=
  if inode > uint32 (image.inodeCount - 1) then (-1, [])
  else if offset ≥ fileLength image inode then (0, [])
  else
    readDataLoop image inode offset ((offset + length) % 4294967296 - offset) offset []

/-! ## Well-formed images -/

/-- The format's own bounds: at most 63 entries, inode numbers and used block
numbers inside their arrays, and lengths that the block list can hold. -/
structure Image.WellFormed (image : Image) : Prop where
  dirCount_nonneg : 0 ≤ image.dirCount
  dirCount_le : image.dirCount ≤ 63
  inodeCount_lt : image.inodeCount < 2147483648
  dataCount_lt : image.dataCount < 2147483648
  inodeNum_range : ∀ i : Nat, (i : Int) < image.dirCount →
    0 ≤ (image.direntries i).inodeNum ∧ (image.direntries i).inodeNum < image.inodeCount
  length_range : ∀ inode : Nat, (inode : Int) < image.inodeCount →
    0 ≤ (image.inodes inode).length ∧ (image.inodes inode).length ≤ 1023 * 4096
  block_range : ∀ inode : Nat, (inode : Int) < image.inodeCount → ∀ index : Nat,
    (index : Int) * 4096 < (image.inodes inode).length →
    0 ≤ (image.inodes inode).dataBlockNum index ∧
      (image.inodes inode).dataBlockNum index < image.dataCount

/-- A small image: the directory, an executable `shell`, and a text file whose name
fills its field. -/
def smallImage : Image where
  dirCount := 3
  inodeCount := 3
  dataCount := 2
  direntries index :=
    let name : List UInt8 :=
      if index = 0 then [46]
      else if index = 1 then [115, 104, 101, 108, 108]
      else [118, 101, 114, 121, 108, 97, 114, 103, 101, 116, 101, 120, 116, 119, 105, 116,
        104, 118, 101, 114, 121, 108, 111, 110, 103, 110, 97, 109, 101, 46, 116, 120]
    ⟨fun i => name.getD i 0, if index = 0 then 1 else 2, index⟩
  inodes inode :=
    ⟨if inode = 0 then 0 else if inode = 1 then 28 else 5,
      fun _ => if inode = 1 then 0 else 1⟩
  dataBlocks block i :=
    if block = 0 then
      ([0x7F, 0x45, 0x4C, 0x46, 0, 0, 0, 0, 0, 0, 0, 0, 0, 0, 0, 0, 0, 0, 0, 0, 0, 0, 0, 0,
        0xE8, 0x82, 0x04, 0x08] : List UInt8).getD i 0
    else ([104, 101, 108, 108, 111] : List UInt8).getD i 0

theorem smallImage_wellFormed : smallImage.WellFormed where
  dirCount_nonneg := by decide
  dirCount_le := by decide
  inodeCount_lt := by decide
  dataCount_lt := by decide
  inodeNum_range i bound := by
    simp only [smallImage] at bound ⊢
    omega
  length_range inode _ := by
    simp only [smallImage]
    split
    · omega
    · split <;> omega
  block_range inode _ index _ := by
    simp only [smallImage]
    split <;> omega

/-- A data block as the list of its bytes. -/
def dataBlock (image : Image) (inode index : Nat) : List UInt8 :=
  (List.range 4096).map
    (image.dataBlocks (uint32 ((image.inodes inode).dataBlockNum index)))

/-- The content of a file: its data blocks concatenated and cut at its length. -/
def fileContent (image : Image) (inode : Nat) : List UInt8 :=
  ((List.range 1023).flatMap (dataBlock image inode)).take (fileLength image inode)

/-! ## Lookups search the entries in order -/

section Lookup

variable {image : Image} {fname : Bytes} {dentry : Dentry}

/-- A comparison in the search loop succeeds exactly on equal names. -/
theorem strncmp_namePtr (fname : Bytes) (entry : Dentry) :
    strncmp fname entry.namePtr 32 = 0 ↔ field 0 32 fname = entry.name :=
  strncmp_eq_zero_iff fname entry.namePtr 32

theorem readDentryByIndex_of_lt {index : Nat} (small : image.dirCount ≤ 63)
    (inside : (index : Int) < image.dirCount) :
    readDentryByIndex image index dentry = (0, image.direntries index) := by
  have wrap : index % 256 = index := Nat.mod_eq_of_lt (by omega)
  simp only [readDentryByIndex, wrap]
  rw [if_neg (by omega)]

/-- The search from `i` on finds the first entry there that carries the name. -/
private theorem nameLoop_found_iff (small : image.dirCount ≤ 63) (entry : Dentry)
    (fuel i : Nat) (enough : image.dirCount < fuel + i) (bound : i ≤ 64) :
    nameLoop image fname dentry fuel i = .found entry ↔
      ∃ j : Nat, i ≤ j ∧ (j : Int) < image.dirCount ∧ entry = image.direntries j ∧
        field 0 32 fname = (image.direntries j).name ∧
        ∀ k, i ≤ k → k < j → field 0 32 fname ≠ (image.direntries k).name := by
  induction fuel generalizing i with
  | zero =>
      simp only [nameLoop, reduceCtorEq, false_iff]
      rintro ⟨j, low, inside, -⟩
      omega
  | succ fuel ih =>
      rw [nameLoop]
      by_cases inside : (i : Int) < image.dirCount
      · rw [if_pos inside]
        have wrap : (i + 1) % 256 = i + 1 := Nat.mod_eq_of_lt (by omega)
        by_cases equal : field 0 32 fname = (image.direntries i).name
        · rw [if_pos ((strncmp_namePtr _ _).mpr equal), readDentryByIndex_of_lt small inside]
          constructor
          · intro same
            exact ⟨i, Nat.le_refl i, inside, (Lookup.found.inj same).symm, equal,
              fun k low high => absurd high (by omega)⟩
          · rintro ⟨j, low, _, rfl, _, first⟩
            rcases Nat.lt_or_eq_of_le low with later | rfl
            · exact absurd equal (first i (Nat.le_refl i) later)
            · rfl
        · rw [if_neg fun zero => equal ((strncmp_namePtr _ _).mp zero), wrap,
            ih (i + 1) (by omega) (by omega)]
          constructor
          · rintro ⟨j, low, inside', same, equal', first⟩
            refine ⟨j, by omega, inside', same, equal', fun k low' high => ?_⟩
            rcases Nat.lt_or_eq_of_le low' with later | rfl
            · exact first k later high
            · exact equal
          · rintro ⟨j, low, inside', same, equal', first⟩
            have later : i ≠ j := by
              rintro rfl
              exact equal equal'
            exact ⟨j, by omega, inside', same, equal',
              fun k low' high => first k (by omega) high⟩
      · rw [if_neg inside]
        simp only [reduceCtorEq, false_iff]
        rintro ⟨j, low, inside', -⟩
        omega

/-- `read_dentry_by_name` succeeds with an entry exactly when it is the first one
whose name equals the query cut at 32 bytes. -/
theorem readDentryByName_found_iff (small : image.dirCount ≤ 63) (entry : Dentry) :
    readDentryByName image fname dentry = .found entry ↔
      ∃ j : Nat, (j : Int) < image.dirCount ∧ entry = image.direntries j ∧
        field 0 32 fname = (image.direntries j).name ∧
        ∀ k < j, field 0 32 fname ≠ (image.direntries k).name := by
  rw [readDentryByName, nameLoop_found_iff small entry 256 0 (by omega) (by omega)]
  simp

private theorem nameLoop_of_first {i : Nat} (slot : i < 63) (inside : (i : Int) < image.dirCount)
    (name : field 0 32 fname = (image.direntries i).name)
    (first : ∀ k < i, field 0 32 fname ≠ (image.direntries k).name) (fuel k : Nat)
    (enough : i < fuel + k) (before : k ≤ i) :
    nameLoop image fname dentry fuel k = .found (image.direntries i) := by
  induction fuel generalizing k with
  | zero => omega
  | succ fuel ih =>
      rw [nameLoop, if_pos (by omega)]
      rcases Nat.lt_or_eq_of_le before with earlier | rfl
      · rw [if_neg fun zero => first k earlier ((strncmp_namePtr _ _).mp zero),
          Nat.mod_eq_of_lt (by omega)]
        exact ih (k + 1) (by omega) (by omega)
      · have index : k % 256 = k := Nat.mod_eq_of_lt (by omega)
        rw [if_pos ((strncmp_namePtr _ _).mpr name)]
        simp only [readDentryByIndex, index]
        rw [if_neg (by omega)]

/-- Whatever the directory count says, the first of the 63 entries that carries the
name is found. -/
theorem readDentryByName_of_first {i : Nat} (slot : i < 63) (inside : (i : Int) < image.dirCount)
    (name : field 0 32 fname = (image.direntries i).name)
    (first : ∀ k < i, field 0 32 fname ≠ (image.direntries k).name) :
    readDentryByName image fname dentry = .found (image.direntries i) :=
  nameLoop_of_first slot inside name first 256 0 (by omega) (by omega)

private theorem nameLoop_ne_endless (small : image.dirCount ≤ 63) (fuel i : Nat)
    (enough : image.dirCount < fuel + i) (bound : i ≤ 64) (positive : 0 < fuel) :
    nameLoop image fname dentry fuel i ≠ .endless := by
  induction fuel generalizing i with
  | zero => omega
  | succ fuel ih =>
      rw [nameLoop]
      split
      next inside =>
        split
        · simp
        · rw [Nat.mod_eq_of_lt (by omega)]
          exact ih (i + 1) (by omega) (by omega) (by omega)
      · simp

/-- With at most 63 entries the search ends. -/
theorem readDentryByName_ne_endless (small : image.dirCount ≤ 63) :
    readDentryByName image fname dentry ≠ .endless :=
  nameLoop_ne_endless small 256 0 (by omega) (by omega) (by omega)

end Lookup

/-! ## Reads deliver a slice of the content -/

section Read

variable {image : Image} {inode : Nat}

/-- What the copy loop delivers: the bytes up to the requested end or the end of
the file, whichever comes first. -/
private theorem readDataLoop_eq (offset remaining current : Nat) (written : List UInt8)
    (inside : current ≤ fileLength image inode) (start : offset ≤ current)
    (sofar : written.length = current - offset) :
    readDataLoop image inode offset remaining current written =
      (int32 (written.length + min remaining (fileLength image inode - current) : Nat),
        written ++ (List.range (min remaining (fileLength image inode - current))).map
          fun k => byteAt image inode (current + k)) := by
  induction remaining generalizing current written with
  | zero => simp [readDataLoop]
  | succ remaining ih =>
      rw [readDataLoop]
      by_cases ended : current = fileLength image inode
      · rw [if_pos ended, ended, Nat.sub_self, Nat.min_zero]
        simp only [List.range_zero, List.map_nil, List.append_nil, Nat.add_zero, sofar]
        congr 2
        omega
      · have count : min (remaining + 1) (fileLength image inode - current) =
            min remaining (fileLength image inode - (current + 1)) + 1 := by omega
        rw [if_neg ended, ih (current + 1) _ (by omega) (by omega) (by simp; omega), count,
          List.range_succ_eq_map, List.map_cons, List.map_map]
        rw [Prod.mk.injEq]
        constructor
        · rw [List.length_append, List.length_singleton, Nat.add_assoc, Nat.add_comm 1]
        · simp only [List.append_assoc, List.singleton_append, Nat.add_zero]
          apply congrArg (written ++ byteAt image inode current :: ·)
          apply List.map_congr_left
          intro k _
          simp only [Function.comp_apply]
          congr 1
          omega

/-- The bytes of a file in order, as far as the block list reaches. -/
private theorem blocks_eq (image : Image) (inode count : Nat) :
    (List.range count).flatMap (dataBlock image inode) =
      (List.range (count * 4096)).map (byteAt image inode) := by
  induction count with
  | zero => simp
  | succ count ih =>
      rw [List.range_succ, List.flatMap_append, ih, Nat.add_mul, Nat.one_mul, List.range_add,
        List.map_append, List.map_map, List.flatMap_singleton, dataBlock]
      apply congrArg (List.map (byteAt image inode) (List.range (count * 4096)) ++ ·)
      apply List.map_congr_left
      intro k member
      have bound := List.mem_range.mp member
      simp only [Function.comp_apply, byteAt]
      rw [show (count * 4096 + k) / 4096 = count by omega,
        show (count * 4096 + k) % 4096 = k by omega]

/-- Within the format's maximum length, the content lists the file's bytes. -/
theorem fileContent_eq (fits : fileLength image inode ≤ 1023 * 4096) :
    fileContent image inode =
      (List.range (fileLength image inode)).map (byteAt image inode) := by
  rw [fileContent, blocks_eq, ← List.map_take, List.take_range, Nat.min_eq_left fits]

theorem length_fileContent (fits : fileLength image inode ≤ 1023 * 4096) :
    (fileContent image inode).length = fileLength image inode := by
  simp [fileContent_eq fits]

/-- `read_data` in closed form, for a range that does not wrap. -/
theorem readData_eq {offset length : Nat} (exists_ : inode ≤ uint32 (image.inodeCount - 1))
    (inside : offset < fileLength image inode) (noWrap : offset + length < 4294967296) :
    readData image inode offset length =
      (int32 (min length (fileLength image inode - offset) : Nat),
        (List.range (min length (fileLength image inode - offset))).map
          fun k => byteAt image inode (offset + k)) := by
  rw [readData, if_neg (Nat.not_lt.mpr exists_), if_neg (Nat.not_le.mpr inside),
    Nat.mod_eq_of_lt noWrap,
    readDataLoop_eq offset _ offset [] (Nat.le_of_lt inside) (Nat.le_refl _) (by simp),
    Nat.add_sub_cancel_left]
  simp

/-- Whatever the arguments, `read_data` stores as many bytes as it counts, at
most the requested number, and reports that count or -1. -/
theorem readData_cases (image : Image) (inode offset length : Nat) :
    readData image inode offset length = (-1, []) ∨
      ((readData image inode offset length).1 =
          int32 (readData image inode offset length).2.length ∧
        (readData image inode offset length).2.length ≤ length) := by
  rw [readData]
  split
  · exact .inl rfl
  · right
    split
    · simp [int32]
    next inside =>
      rw [readDataLoop_eq offset _ offset [] (by omega) (Nat.le_refl _) (by simp)]
      simp only [List.length_nil, Nat.zero_add, List.nil_append, List.length_map,
        List.length_range, true_and]
      omega

/-- A file of a well-formed image fits in its block list. -/
theorem Image.WellFormed.fileLength_le (wellFormed : image.WellFormed)
    (exists_ : (inode : Int) < image.inodeCount) : fileLength image inode ≤ 1023 * 4096 := by
  obtain ⟨low, high⟩ := wellFormed.length_range inode exists_
  rw [fileLength, uint32_of_nonneg low (by omega)]
  omega

theorem readData_known (exists_ : (inode : Int) < image.inodeCount)
    (typed : image.inodeCount < 2147483648) : inode ≤ uint32 (image.inodeCount - 1) := by
  rw [uint32_of_nonneg (by omega) (by omega)]
  omega

/-- On a well-formed image `read_data` serves the content of the file. -/
theorem readData_eq_serve (wellFormed : image.WellFormed)
    (exists_ : (inode : Int) < image.inodeCount) {offset length : Nat}
    (noWrap : offset + length < 4294967296) :
    readData image inode offset length =
      (((serve (fileContent image inode) offset length).length : Int),
        serve (fileContent image inode) offset length) := by
  have fits := wellFormed.fileLength_le exists_
  have known := readData_known exists_ wellFormed.inodeCount_lt
  rcases Nat.lt_or_ge offset (fileLength image inode) with inside | ended
  · rw [readData_eq known inside noWrap, length_serve, length_fileContent fits,
      int32_of_range (by omega) (by omega), serve, fileContent_eq fits]
    congr 1
    apply List.ext_getElem
    · simp
    · intro k left right
      simp
  · rw [serve_of_length_le (by rw [length_fileContent fits]; exact ended), readData,
      if_neg (Nat.not_lt.mpr known), if_pos ended]
    rfl

end Read

end Ece391.Kernel
