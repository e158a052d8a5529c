import Ece391.Kernel.ImageReads
import Ece391.Kernel.ReadContract

/-!
# Listing the directory

Each read of a directory delivers the name of the next entry.  The end of the directory is
tested with `>` in `read_dentry_by_index`, so one read too many delivers the slot behind the last
entry, and only the reads after it fail.
-/

namespace Ece391.Kernel

open Ece391.Library

/-- What a read of a directory reported and stored, and the parts of the image it read. -/
structure EntryRead where
  ret : Int
  bytes : List UInt8
  places : List ImagePlace

/-- The parts of the image that a read of a directory takes; other calls are left out. -/
def directoryPlaces (image : Image) (fda : Fda) : FdCall → List ImagePlace
  | .read fd (some _) _ dentry =>
      if range : 0 ≤ fd ∧ fd ≤ 7 then
        let slot : Fin 8 := ⟨fd.toNat, by omega⟩
        if (fda slot).fop = some .directories ∧ (fda slot).flags ≠ 0 then
          (readDentryByIndexTraced image (fda slot).filePosition dentry).places
        else []
      else []
  | _ => []

/-- A completed call, with what it read of the directory. -/
def ListStep (image : Image) (fda : Fda) (label : (FdCall × CallResult) × List ImagePlace)
    (fda' : Fda) : Prop :=
  FdStep image fda label.1 fda' ∧ label.2 = directoryPlaces image fda label.1.1

/-- What a call read through descriptor `fd`. -/
def entryRead? (fd : Int) : (FdCall × CallResult) × List ImagePlace → Option EntryRead
  | ((.read fd' _ _ _, result), places) =>
      if fd' = fd then some ⟨result.ret, result.written, places⟩ else none
  | _ => none

/-- The reads through descriptor `fd` among some calls, in order. -/
def entryReads (fd : Int) (labels : List ((FdCall × CallResult) × List ImagePlace)) :
    List EntryRead :=
  labels.filterMap (entryRead? fd)

/-- The only calls made on `fd` are reads of at least 32 bytes into a buffer. -/
def OnlyLists (fd : Int) (label : (FdCall × CallResult) × List ImagePlace) : Prop :=
  label.1.1.fd? = some fd →
    ∃ buf nbytes dentry, label.1.1 = .read fd (some buf) nbytes dentry ∧ 32 ≤ nbytes

/-- The read delivers the name of an entry, padded with zeros, and reports its length. -/
structure DeliversName (entry : Dentry) (read : EntryRead) : Prop where
  ret : read.ret = entry.name.length
  bytes : read.bytes = entry.name ++ List.replicate (32 - entry.name.length) 0

/-- The read reports the end of the directory: it delivers nothing and reads no entry at or
behind the end. -/
structure ReportsEnd (image : Image) (read : EntryRead) : Prop where
  ret : read.ret = 0
  bytes : read.bytes = []
  places : ∀ index : Nat, .direntry index ∈ read.places → (index : Int) < image.dirCount

/-- The reads list the directory: its entries in order, then its end. -/
def ListsDirectory (image : Image) (reads : List EntryRead) : Prop :=
  ∀ (k : Nat) (read : EntryRead), reads[k]? = some read →
    if (k : Int) < image.dirCount then DeliversName (image.direntries k) read
    else ReportsEnd image read

/-! ## One read -/

/-- A descriptor open on the directory, at an entry. -/
def AtEntry (inode position : Nat) (descriptor : FileDescriptor) : Prop :=
  descriptor = ⟨some .directories, inode, position, 1, 1⟩

section

variable {image : Image} {dentry : Dentry} {devices : Devices} {fda fda' : Fda}
variable {inode position : Nat} {fd : Fin 8} {nbytes : Int} {buf : Bytes} {result : CallResult}

/-- A read of a directory descriptor is `directory_read`. -/
theorem systemRead_directory (ready : AtEntry inode position (fda fd))
    (completed :
      systemRead image dentry devices fda fd.val (some buf) nbytes = some result) :
    result.ret = (directoryRead image fda fd buf dentry).1 ∧
      result.written = (directoryRead image fda fd buf dentry).2.1 ∧
      result.fda = (directoryRead image fda fd buf dentry).2.2 := by
  have range : ¬((fd.val : Int) < 0 ∨ (fd.val : Int) > 7) := by omega
  simp only [systemRead, dif_neg range, Int.toNat_natCast, Fin.eta] at completed
  rw [ready] at completed
  obtain rfl := Option.some.inj completed
  exact ⟨rfl, rfl, rfl⟩

theorem directoryPlaces_ready (ready : AtEntry inode position (fda fd)) :
    directoryPlaces image fda (.read fd.val (some buf) nbytes dentry) =
      (readDentryByIndexTraced image position dentry).places := by
  have range : 0 ≤ (fd.val : Int) ∧ (fd.val : Int) ≤ 7 := by omega
  simp only [directoryPlaces, dif_pos range, Int.toNat_natCast, Fin.eta]
  rw [ready]
  exact if_pos ⟨rfl, Nat.one_ne_zero⟩

/-- Up to the slot behind the last entry, the entry at the position is read. -/
theorem readDentryByIndexTraced_places (small : image.dirCount ≤ 63)
    (inside : (position : Int) ≤ image.dirCount) :
    (readDentryByIndexTraced image position dentry).places = [.counts, .direntry position] := by
  have wrap : position % 256 = position := Nat.mod_eq_of_lt (by omega)
  rw [readDentryByIndexTraced_eq, wrap, if_neg (by omega)]
  rfl

/-- There the position advances, and the bytes stored are the name. -/
theorem directoryRead_entry (small : image.dirCount ≤ 63)
    (ready : AtEntry inode position (fda fd)) (inside : (position : Int) ≤ image.dirCount) :
    DeliversName (image.direntries position)
        ⟨(directoryRead image fda fd buf dentry).1, (directoryRead image fda fd buf dentry).2.1,
          (readDentryByIndexTraced image position dentry).places⟩ ∧
      AtEntry inode (position + 1) ((directoryRead image fda fd buf dentry).2.2 fd) := by
  have stored : (fda fd).filePosition = position := by rw [ready]
  have wrap : position % 256 = position := Nat.mod_eq_of_lt (by omega)
  have index : (fda fd).filePosition % 256 = position := by rw [stored, wrap]
  have guard : ¬((position : Int) > image.dirCount ∨ 63 < position) := by omega
  have served := directoryRead_served image fda fd buf dentry index guard
  have found : readDentryByIndex image position dentry = (0, image.direntries position) := by
    simp only [readDentryByIndex, wrap]
    exact if_neg guard
  have started : ¬(0 : Int) = -1 := by omega
  have read : (directoryRead image fda fd buf dentry).2 =
      (strncpy (image.direntries position).namePtr 32, advance fda fd 1) := by
    simp only [directoryRead, stored, found, started, if_false]
  refine ⟨⟨served.1, ?_⟩, ?_⟩
  · rw [read]
    exact strncpy_eq _ _
  · rw [read, AtEntry]
    simp only [advance, Function.update_self, stored]
    rw [ready, ← Int.natCast_succ, uint32_natCast (by omega)]

/-- Behind it reads fail and the position stays. -/
theorem directoryRead_behind (small : image.dirCount ≤ 63)
    (ready : AtEntry inode position (fda fd))
    (behind : position = (image.dirCount + 1).toNat) (nonneg : 0 ≤ image.dirCount) :
    (directoryRead image fda fd buf dentry).2.2 = fda := by
  have stored : (fda fd).filePosition = position := by rw [ready]
  have wrap : position % 256 = position := Nat.mod_eq_of_lt (by omega)
  have failed : readDentryByIndex image position dentry = (-1, dentry) := by
    simp only [readDentryByIndex, wrap]
    exact if_pos (by omega)
  simp only [directoryRead, stored, failed, if_true]

end

/-! ## Runs -/

/-- How far the directory has been listed: the position stops two behind the last entry, and
each read up to the slot behind the last entry has delivered the name there. -/
structure Listing (image : Image) (inode : Nat) (fd : Fin 8)
    (past : List ((FdCall × CallResult) × List ImagePlace)) (fda : Fda) : Prop where
  descriptor : AtEntry inode (min (entryReads fd.val past).length (image.dirCount + 1).toNat)
    (fda fd)
  served : ∀ (k : Nat) (read : EntryRead), (entryReads fd.val past)[k]? = some read →
    (k : Int) ≤ image.dirCount →
    DeliversName (image.direntries k) read ∧ .direntry k ∈ read.places

section

variable {image : Image} {fda fda' : Fda} {inode : Nat} {fd : Fin 8}
variable {past : List ((FdCall × CallResult) × List ImagePlace)}
variable {label : (FdCall × CallResult) × List ImagePlace}

theorem Listing.start (ready : AtEntry inode 0 (fda fd)) : Listing image inode fd [] fda where
  descriptor := by
    have first : min (entryReads fd.val []).length (image.dirCount + 1).toNat = 0 := by
      simp [entryReads]
    rw [first]
    exact ready
  served := by
    intro k read found
    simp [entryReads] at found

theorem entryRead?_of_ne {fd : Int} (other : label.1.1.fd? ≠ some fd) :
    entryRead? fd label = none := by
  obtain ⟨⟨call, result⟩, places⟩ := label
  cases call with
  | read fd' buf nbytes dentry =>
      have different : fd' ≠ fd := fun same => other (by rw [FdCall.fd?, same])
      simp [entryRead?, different]
  | openFile | close | write => rfl

/-- An element of an extended list is an old one or the new one. -/
theorem getElem?_snoc {α : Type} {log : List α} {last found : α} {k : Nat}
    (member : (log ++ [last])[k]? = some found) :
    log[k]? = some found ∨ (k = log.length ∧ found = last) := by
  rcases Nat.lt_trichotomy k log.length with earlier | rfl | later
  · rw [List.getElem?_append_left earlier] at member
    exact .inl member
  · rw [List.getElem?_concat_length] at member
    exact .inr ⟨rfl, (Option.some.inj member).symm⟩
  · rw [List.getElem?_eq_none (by simp; omega)] at member
    cases member

/-- A call that is not on the descriptor keeps the listing going. -/
theorem Listing.frame (listing : Listing image inode fd past fda)
    (step : ListStep image fda label fda') (other : label.1.1.fd? ≠ some (fd.val : Int)) :
    Listing image inode fd (past ++ [label]) fda' := by
  obtain ⟨⟨devices, completed, rfl⟩, -⟩ := step
  have unchanged : entryReads fd.val (past ++ [label]) = entryReads fd.val past := by
    simp [entryReads, entryRead?_of_ne other]
  have kept : label.1.2.fda fd = fda fd := by
    refine (FdCall.run_effect completed).frame ?_ other
    rw [listing.descriptor]
    exact Nat.one_ne_zero
  constructor
  · rw [unchanged, kept]
    exact listing.descriptor
  · rw [unchanged]
    exact listing.served

/-- So does a read of the descriptor. -/
theorem Listing.read (nonneg : 0 ≤ image.dirCount) (small : image.dirCount ≤ 63)
    (listing : Listing image inode fd past fda) {buf : Bytes} {nbytes : Int} {dentry : Dentry}
    {result : CallResult} {places : List ImagePlace}
    (step : ListStep image fda ((.read fd.val (some buf) nbytes dentry, result), places) fda') :
    Listing image inode fd
      (past ++ [((.read fd.val (some buf) nbytes dentry, result), places)]) fda' := by
  obtain ⟨⟨devices, completed, rfl⟩, taken⟩ := step
  obtain ⟨ret, written, after⟩ := systemRead_directory listing.descriptor completed
  have ready := listing.descriptor
  have extended : entryReads fd.val
      (past ++ [((.read fd.val (some buf) nbytes dentry, result), places)]) =
        entryReads fd.val past ++ [⟨result.ret, result.written, places⟩] := by
    simp [entryReads, entryRead?]
  rw [directoryPlaces_ready ready] at taken
  constructor
  · rw [extended, List.length_append, List.length_singleton, after]
    rcases Nat.lt_or_ge (entryReads fd.val past).length (image.dirCount + 1).toNat with
      inside | behind
    · rw [Nat.min_eq_left (Nat.le_of_lt inside)] at ready
      rw [Nat.min_eq_left (Nat.succ_le_of_lt inside)]
      exact (directoryRead_entry small ready (by omega)).2
    · rw [Nat.min_eq_right behind] at ready
      rw [Nat.min_eq_right (Nat.le_succ_of_le behind), directoryRead_behind small ready rfl nonneg]
      exact ready
  · intro k read found bound
    rw [extended] at found
    rcases getElem?_snoc found with earlier | ⟨rfl, rfl⟩
    · exact listing.served k read earlier bound
    · rw [Nat.min_eq_left (by omega)] at ready taken
      obtain rfl : places = _ := taken
      rw [ret, written]
      refine ⟨(directoryRead_entry small ready bound).1, ?_⟩
      rw [readDentryByIndexTraced_places small bound]
      exact List.mem_cons_of_mem _ List.mem_cons_self

/-- Every call keeps the listing going. -/
theorem Listing.step (nonneg : 0 ≤ image.dirCount) (small : image.dirCount ≤ 63)
    (listing : Listing image inode fd past fda) (step : ListStep image fda label fda')
    (allowed : OnlyLists fd.val label) : Listing image inode fd (past ++ [label]) fda' := by
  by_cases names : label.1.1.fd? = some (fd.val : Int)
  · obtain ⟨buf, nbytes, dentry, call, -⟩ := allowed names
    obtain ⟨⟨call', result⟩, places⟩ := label
    obtain rfl : call' = _ := call
    exact listing.read nonneg small step
  · exact listing.frame step names

theorem Listing.run (nonneg : 0 ≤ image.dirCount) (small : image.dirCount ≤ 63)
    {labels : List ((FdCall × CallResult) × List ImagePlace)} (ready : AtEntry inode 0 (fda fd))
    (run : Run (ListStep image) fda labels fda')
    (allowed : ∀ label ∈ labels, OnlyLists fd.val label) :
    Listing image inode fd labels fda' :=
  (run.restrict allowed).history (Listing image inode fd)
    (fun _ _ _ _ listing step => listing.step nonneg small step.1 step.2) [] (.start ready)

/-- The listing is right as far as the last entry, and one read behind it is wrong. -/
theorem Listing.lists_iff (nonneg : 0 ≤ image.dirCount)
    (listing : Listing image inode fd past fda) :
    ListsDirectory image (entryReads fd.val past) ↔
      ((entryReads fd.val past).length : Int) ≤ image.dirCount := by
  constructor
  · intro lists
    by_contra long
    obtain ⟨last, count⟩ := Int.eq_ofNat_of_zero_le nonneg
    have inside : last < (entryReads fd.val past).length := by omega
    have found := List.getElem?_eq_getElem inside
    have ends := lists last _ found
    rw [if_neg (by omega)] at ends
    have behind := ends.places last (listing.served last _ found (by omega)).2
    omega
  · intro short k read found
    have inside : k < (entryReads fd.val past).length := List.getElem?_eq_some_iff.mp found |>.1
    rw [if_pos (by omega)]
    exact (listing.served k read found (by omega)).1

/-- A descriptor open on the directory can be read any number of times. -/
theorem exists_listing (nonneg : 0 ≤ image.dirCount) (small : image.dirCount ≤ 63)
    (ready : AtEntry inode 0 (fda fd)) (count : Nat) :
    ∃ labels fda', Run (ListStep image) fda labels fda' ∧
      (∀ label ∈ labels, OnlyLists fd.val label) ∧ (entryReads fd.val labels).length = count := by
  induction count with
  | zero => exact ⟨[], fda, .nil fda, by simp, rfl⟩
  | succ count ih =>
      obtain ⟨labels, middle, run, allowed, length⟩ := ih
      have listing := Listing.run nonneg small ready run allowed
      let call : FdCall := .read fd.val (some fun _ => 0) 32 ⟨fun _ => 0, 0, 0⟩
      obtain ⟨result, completed⟩ : ∃ result,
          call.run image (typedDevices []) middle = some result := by
        have range : ¬((fd.val : Int) < 0 ∨ (fd.val : Int) > 7) := by omega
        simp only [call, FdCall.run, systemRead, dif_neg range, Int.toNat_natCast, Fin.eta]
        rw [listing.descriptor]
        exact ⟨_, rfl⟩
      let label := ((call, result), directoryPlaces image middle call)
      have step : ListStep image middle label result.fda :=
        ⟨⟨typedDevices [], completed, rfl⟩, rfl⟩
      refine ⟨labels ++ [label], result.fda, run.snoc step, ?_, ?_⟩
      · intro other member
        rcases List.mem_append.mp member with earlier | last
        · exact allowed other earlier
        · obtain rfl := List.mem_singleton.mp last
          exact fun _ => ⟨_, 32, _, rfl, Int.le_refl 32⟩
      · simp [entryReads, entryRead?, label, call] at length ⊢
        exact length

/-- A successful open of a directory leaves a descriptor at the first entry. -/
theorem systemOpen_directory {dentry entry : Dentry} {devices : Devices} {filename : Bytes}
    {opened : CallResult} (found : readDentryByName image filename dentry = .found entry)
    (directory : entry.fileType = 1)
    (completed : systemOpen image dentry devices fda filename = some opened)
    (success : opened.ret ≠ -1) :
    ∃ fd : Fin 8, opened.ret = fd.val ∧
      AtEntry (uint32 entry.inodeNum) 0 (opened.fda fd) := by
  rcases systemOpen_cases completed with rfl |
    ⟨entry', fd, fop, fileType, found', type, table, _, ret, after⟩
  · exact absurd rfl success
  · obtain rfl := Lookup.found.inj (found.symm.trans found')
    obtain rfl : fileType = 1 := by omega
    obtain rfl : Fop.directories = fop := Option.some.inj table
    exact ⟨fd, ret, by rw [after, Function.update_self, AtEntry]⟩

end

/-- The reads of a freshly opened directory list it exactly as long as there are no more of
them than entries. -/
theorem directory_listed_iff {image : Image} (nonneg : 0 ≤ image.dirCount)
    (small : image.dirCount ≤ 63) {fda fda' : Fda} {fd : Fin 8} {inode : Nat}
    {labels : List ((FdCall × CallResult) × List ImagePlace)}
    (opened : AtEntry inode 0 (fda fd)) (run : Run (ListStep image) fda labels fda')
    (allowed : ∀ label ∈ labels, OnlyLists fd.val label) :
    ListsDirectory image (entryReads fd.val labels) ↔
      ((entryReads fd.val labels).length : Int) ≤ image.dirCount :=
  (Listing.run nonneg small opened run allowed).lists_iff nonneg

/-- The small image opens its directory under the name of the first entry. -/
theorem smallImage_opens_directory :
    ∃ opened, systemOpen smallImage ⟨fun _ => 0, 0, 0⟩ (typedDevices [])
        (initFda fun _ => ⟨none, 0, 0, 0, 0⟩) (cstring [46]) = some opened ∧
      opened.ret = 2 ∧ AtEntry 0 0 (opened.fda 2) := by
  have found : readDentryByName smallImage (cstring [46]) ⟨fun _ => 0, 0, 0⟩ =
      .found (smallImage.direntries 0) :=
    readDentryByName_of_first (by decide) (by decide) (by decide)
      fun k below => absurd below (by omega)
  have opens : systemOpen smallImage ⟨fun _ => 0, 0, 0⟩ (typedDevices [])
      (initFda fun _ => ⟨none, 0, 0, 0, 0⟩) (cstring [46]) =
        some (openAs (typedDevices []) (initFda fun _ => ⟨none, 0, 0, 0, 0⟩) 0 .directories 1) := by
    simp only [systemOpen, found]
    rfl
  obtain ⟨fd, ret, entry⟩ := systemOpen_directory found rfl opens (by decide)
  have second : fd = 2 := by
    have opened : (2 : Int) = fd.val := ret
    omega
  exact ⟨_, opens, rfl, second ▸ entry⟩

/-- Three reads list the directory of the small image. -/
theorem directory_listed_small :
    ∃ (opened : CallResult) (labels : List ((FdCall × CallResult) × List ImagePlace)) (fda' : Fda),
      Run (ListStep smallImage) opened.fda labels fda' ∧ (entryReads 2 labels).length = 3 ∧
      ListsDirectory smallImage (entryReads 2 labels) := by
  obtain ⟨opened, _, _, ready⟩ := smallImage_opens_directory
  have nonneg : 0 ≤ smallImage.dirCount := by decide
  have small : smallImage.dirCount ≤ 63 := by decide
  obtain ⟨labels, fda', run, allowed, count⟩ := exists_listing nonneg small ready 3
  have length : (entryReads 2 labels).length = 3 := count
  have short : ((entryReads 2 labels).length : Int) ≤ smallImage.dirCount := by
    rw [length]
    decide
  exact ⟨opened, labels, fda', run, length,
    (directory_listed_iff nonneg small ready run allowed).mpr short⟩

/-- The fourth read of that directory delivers a name of 32 bytes from the slot behind the
last entry. -/
theorem directory_not_always_listed :
    ∃ (opened : CallResult) (labels : List ((FdCall × CallResult) × List ImagePlace)) (fda' : Fda)
      (read : EntryRead),
      Run (ListStep smallImage) opened.fda labels fda' ∧
      (∀ label ∈ labels, OnlyLists 2 label) ∧ smallImage.dirCount = 3 ∧
      (entryReads 2 labels)[3]? = some read ∧ read.ret = 32 ∧ .direntry 3 ∈ read.places ∧
      ¬ListsDirectory smallImage (entryReads 2 labels) := by
  obtain ⟨opened, _, _, ready⟩ := smallImage_opens_directory
  have nonneg : 0 ≤ smallImage.dirCount := by decide
  have small : smallImage.dirCount ≤ 63 := by decide
  obtain ⟨labels, fda', run, allowed, count⟩ := exists_listing nonneg small ready 4
  have length : (entryReads 2 labels).length = 4 := count
  have listing := Listing.run nonneg small ready run allowed
  have inside : 3 < (entryReads 2 labels).length := by
    rw [length]
    decide
  have found := List.getElem?_eq_getElem inside
  obtain ⟨name, place⟩ := listing.served 3 _ found (by decide)
  refine ⟨opened, labels, fda', _, run, allowed, rfl, found, name.ret.trans (by decide), place, ?_⟩
  intro lists
  have short : ((entryReads 2 labels).length : Int) ≤ smallImage.dirCount :=
    (listing.lists_iff nonneg).mp lists
  rw [length] at short
  exact absurd short (by decide)

end Ece391.Kernel
