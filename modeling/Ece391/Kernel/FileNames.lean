import Ece391.Kernel.Descriptors
import Mathlib.Data.Nat.Find

/-!
# Which names a lookup accepts

The search compares the query with each 32-byte name field through a bounded
`strncmp`.  A query of at most 32 bytes therefore matches only its own name, but a
longer one is compared as if it ended after 32 bytes.  The name of an entry finds that
entry again when no other entry has it.
-/

namespace Ece391.Kernel

open Ece391.Library

/-- Some directory entry has exactly this name. -/
def Image.Names (image : Image) (symbols : List UInt8) : Prop :=
  ∃ i : Nat, (i : Int) < image.dirCount ∧ (image.direntries i).name = symbols

/-- Lookups and opens of a file name succeed only if an entry has exactly that name. -/
structure ExactLookup (image : Image) (filename : Bytes) (symbols : List UInt8) : Prop where
  lookup : ∀ dentry entry, readDentryByName image filename dentry = .found entry →
    image.Names symbols
  systemOpen : ∀ dentry devices fda result,
    systemOpen image dentry devices fda filename = some result → result.ret ≠ -1 →
    image.Names symbols

section

variable {image : Image} {filename : Bytes} {dentry : Dentry} {symbols : List UInt8}

private theorem nameLoop_congr {other : Bytes} (same : field 0 32 filename = field 0 32 other)
    (fuel i : Nat) :
    nameLoop image filename dentry fuel i = nameLoop image other dentry fuel i := by
  induction fuel generalizing i with
  | zero => rfl
  | succ fuel ih => simp only [nameLoop, strncmp_eq_zero_iff, same, ih]

/-- A lookup reads at most 32 bytes of the query. -/
theorem readDentryByName_congr {other : Bytes} (same : field 0 32 filename = field 0 32 other) :
    readDentryByName image filename dentry = readDentryByName image other dentry :=
  nameLoop_congr same 256 0

/-- A lookup succeeds exactly when some entry has the name cut at 32 bytes. -/
theorem readDentryByName_found_iff_names (small : image.dirCount ≤ 63)
    (holds : Holds 0 filename symbols) :
    (∃ entry, readDentryByName image filename dentry = .found entry) ↔
      image.Names (symbols.take 32) := by
  have query : field 0 32 filename = symbols.take 32 := holds.field
  simp only [readDentryByName_found_iff small, query]
  constructor
  · rintro ⟨_, i, inside, _, name, _⟩
    exact ⟨i, inside, name.symm⟩
  · rintro ⟨i, inside, name⟩
    -- The search stops at the first of the entries with this name.
    have exists_ : ∃ i : Nat, (image.direntries i).name = symbols.take 32 := ⟨i, name⟩
    have bound := Nat.find_min' exists_ name
    refine ⟨_, Nat.find exists_, by omega, rfl, (Nat.find_spec exists_).symm, ?_⟩
    intro k below same
    exact Nat.find_min exists_ below same.symm

theorem systemOpen_found {devices : Devices} {fda : Fda} {result : CallResult}
    (completed : systemOpen image dentry devices fda filename = some result)
    (success : result.ret ≠ -1) :
    ∃ entry, readDentryByName image filename dentry = .found entry := by
  rcases systemOpen_cases completed with rfl | ⟨entry, _, _, _, found, _⟩
  · exact absurd rfl success
  · exact ⟨entry, found⟩

/-- Lookups are exact except for a file name longer than 32 bytes that extends the
name of an entry which fills its field. -/
theorem exactLookup_iff (small : image.dirCount ≤ 63) (holds : Holds 0 filename symbols) :
    ExactLookup image filename symbols ↔
      ¬(32 < symbols.length ∧ image.Names (symbols.take 32)) := by
  constructor
  · rintro exact_ ⟨long, names⟩
    let dentry : Dentry := ⟨fun _ => 0, 0, 0⟩
    obtain ⟨entry, found⟩ : ∃ entry, readDentryByName image filename dentry = .found entry :=
      (readDentryByName_found_iff_names small holds).mpr names
    obtain ⟨i, _, name⟩ := exact_.lookup dentry entry found
    have width := (image.direntries i).length_name_le
    rw [name] at width
    omega
  · intro allowed
    have names (cut : image.Names (symbols.take 32)) : image.Names symbols := by
      have short : symbols.length ≤ 32 := by
        by_contra long
        exact allowed ⟨Nat.lt_of_not_le long, cut⟩
      rwa [List.take_of_length_le short] at cut
    constructor
    · intro dentry entry found
      exact names ((readDentryByName_found_iff_names small holds).mp ⟨entry, found⟩)
    · intro dentry devices fda result completed success
      exact names ((readDentryByName_found_iff_names small holds).mp
        (systemOpen_found completed success))

end

/-- The command `shell` is looked up exactly. -/
theorem exactLookup_shell :
    ExactLookup smallImage (cstring [115, 104, 101, 108, 108]) [115, 104, 101, 108, 108] :=
  (exactLookup_iff (by decide) (terminated_holds (by decide))).mpr fun refuted =>
    absurd refuted.1 (by decide)

/-- The name of the last entry of the small image with one more letter. -/
def overlongName : List UInt8 :=
  [118, 101, 114, 121, 108, 97, 114, 103, 101, 116, 101, 120, 116, 119, 105, 116,
    104, 118, 101, 114, 121, 108, 111, 110, 103, 110, 97, 109, 101, 46, 116, 120, 116]

/-- The 33-byte name is found, and opens, although no entry has it. -/
theorem overlongName_found :
    ∃ entry result, readDentryByName smallImage (cstring overlongName) ⟨fun _ => 0, 0, 0⟩ =
        .found entry ∧
      systemOpen smallImage ⟨fun _ => 0, 0, 0⟩ (typedDevices [])
        (initFda fun _ => ⟨none, 0, 0, 0, 0⟩) (cstring overlongName) = some result ∧
      result.ret = 2 ∧ ¬smallImage.Names overlongName ∧
      ¬ExactLookup smallImage (cstring overlongName) overlongName := by
  have unnamed : ¬smallImage.Names overlongName := by
    rintro ⟨i, _, name⟩
    have width := (smallImage.direntries i).length_name_le
    rw [name] at width
    exact absurd width (by decide)
  have found : readDentryByName smallImage (cstring overlongName) ⟨fun _ => 0, 0, 0⟩ =
      .found (smallImage.direntries 2) := by
    refine readDentryByName_of_first (by decide) (by decide) (by decide) fun k below => ?_
    obtain rfl | rfl : k = 0 ∨ k = 1 := by omega
    all_goals decide
  refine ⟨_, openAs (typedDevices []) (initFda fun _ => ⟨none, 0, 0, 0, 0⟩) 2 .files 2, found, ?_,
    by decide, unnamed, fun exact_ => unnamed (exact_.lookup _ _ found)⟩
  simp only [systemOpen, found]
  rfl

/-! ## Looking up the name of an entry -/

/-- No two entries of the directory have the same name. -/
def Image.DistinctNames (image : Image) : Prop :=
  ∀ i j : Nat, (i : Int) < image.dirCount → (j : Int) < image.dirCount →
    (image.direntries i).name = (image.direntries j).name → i = j

/-- A name field as a lookup reads it, whatever lies behind its 32 bytes. -/
theorem field_of_fileName {fname : Bytes} {entry : Dentry}
    (copied : ∀ i : Fin 32, fname i = entry.fileName i) : field 0 32 fname = entry.name := by
  rw [← strncmp_namePtr, strncmp_eq_zero_iff]
  refine field_congr fun i inside => ?_
  rw [copied ⟨i, inside⟩, Dentry.namePtr, dif_pos inside]

/-- `read_dentry_by_name` finds the entry whose name `read_dentry_by_index` has returned. -/
theorem lookup_of_entry_name {image : Image} (small : image.dirCount ≤ 63)
    (distinct : image.DistinctNames) {index : Nat} (inside : (index : Int) < image.dirCount)
    (byIndex byName : Dentry) (fname : Bytes)
    (copied : ∀ i : Fin 32, fname i = (readDentryByIndex image index byIndex).2.fileName i) :
    (readDentryByIndex image index byIndex).1 = 0 ∧
      ∃ entry, readDentryByName image fname byName = .found entry ∧
        entry.fileName = (readDentryByIndex image index byIndex).2.fileName ∧
        entry.fileType = (readDentryByIndex image index byIndex).2.fileType ∧
        entry.inodeNum = (readDentryByIndex image index byIndex).2.inodeNum := by
  have read : readDentryByIndex image index byIndex = (0, image.direntries index) :=
    readDentryByIndex_of_lt small inside
  rw [read] at copied ⊢
  have query : field 0 32 fname = (image.direntries index).name := field_of_fileName copied
  have first : ∀ k < index, field 0 32 fname ≠ (image.direntries k).name := by
    intro k below same
    have other := distinct index k inside (by omega) (query.symm.trans same)
    omega
  have found : readDentryByName image fname byName = .found (image.direntries index) :=
    (readDentryByName_found_iff small _).mpr ⟨index, inside, rfl, query, first⟩
  exact ⟨rfl, _, found, rfl, rfl, rfl⟩

theorem smallImage_distinctNames : smallImage.DistinctNames := by
  have each : ∀ i j : Fin 3,
      (smallImage.direntries i).name = (smallImage.direntries j).name → i = j := by decide
  intro i j left right same
  have leftBound : i < 3 := by
    simp only [smallImage] at left
    omega
  have rightBound : j < 3 := by
    simp only [smallImage] at right
    omega
  exact congrArg Fin.val (each ⟨i, leftBound⟩ ⟨j, rightBound⟩ same)

/-- The entry whose name fills its field is found by that name, although nothing ends it. -/
theorem lookup_of_entry_name_full :
    ∃ entry, readDentryByName smallImage
        (fun i => if inside : i < 32 then (smallImage.direntries 2).fileName ⟨i, inside⟩ else 255)
        ⟨fun _ => 0, 0, 0⟩ = .found entry ∧ entry.inodeNum = 2 := by
  have inside : ((2 : Nat) : Int) < smallImage.dirCount := by decide
  obtain ⟨_, entry, found, _, _, inode⟩ := lookup_of_entry_name (by decide)
    smallImage_distinctNames inside ⟨fun _ => 0, 0, 0⟩ ⟨fun _ => 0, 0, 0⟩
    (fun i => if inside : i < 32 then (smallImage.direntries 2).fileName ⟨i, inside⟩ else 255)
    (fun i => dif_pos i.isLt)
  exact ⟨entry, found, inode⟩

end Ece391.Kernel
