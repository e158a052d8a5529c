import Ece391.Kernel.Descriptors

/-!
# Reading a regular file through a descriptor

The reads of one open descriptor deliver the content of its file in order, however
they are sized and whatever happens on the other descriptors in between.  The
descriptor is a sequential reader: the step lemma shows that one read serves the
content at the stored position and advances it, and the frame rule of the table
carries the descriptor through the other calls.
-/

namespace Ece391.Kernel

open Ece391.Library

/-- A read of a descriptor: the requested size, the return value and the bytes
stored in the buffer. -/
structure Delivery where
  requested : Int
  ret : Int
  bytes : List UInt8

/-- What a call delivers from descriptor `fd`. -/
def delivery? (fd : Int) : FdCall × CallResult → Option Delivery
  | (.read fd' _ nbytes _, result) =>
      if fd' = fd then some ⟨nbytes, result.ret, result.written⟩ else none
  | _ => none

/-- The reads of descriptor `fd` among some calls, in order. -/
def deliveries (fd : Int) (labels : List (FdCall × CallResult)) : List Delivery :=
  labels.filterMap (delivery? fd)

/-- The only calls made on `fd` are reads of a positive `int32_t` size into a
buffer. -/
def OnlyReads (fd : Int) (label : FdCall × CallResult) : Prop :=
  label.1.fd? = some fd →
    ∃ buf nbytes dentry, label.1 = .read fd (some buf) nbytes dentry ∧
      0 < nbytes ∧ nbytes < 2147483648

/-- The delivery as the answer of a sequential reader. -/
def Delivery.answer (delivery : Delivery) : Nat × List UInt8 :=
  (delivery.requested.toNat, delivery.bytes)

/-- A descriptor open on a regular file, `position` bytes into it. -/
def ReadyAt (inode position : Nat) (descriptor : FileDescriptor) : Prop :=
  descriptor = ⟨some .files, inode, position, 1, 2⟩

section

variable {image : Image} {dentry : Dentry} {devices : Devices} {fda : Fda}
variable {inode position : Nat} {fd : Fin 8} {nbytes : Int}

/-- On a well-formed image a file's content is short enough that no position in
it wraps. -/
theorem length_fileContent_le (wellFormed : image.WellFormed)
    (exists_ : (inode : Int) < image.inodeCount) :
    (fileContent image inode).length ≤ 1023 * 4096 := by
  have fits := wellFormed.fileLength_le exists_
  exact (length_fileContent fits).symm ▸ fits

/-- The step lemma: a read of a ready descriptor serves the content at its
position and advances by what it delivered. -/
theorem systemRead_ready (wellFormed : image.WellFormed)
    (exists_ : (inode : Int) < image.inodeCount) (ready : ReadyAt inode position (fda fd))
    (inside : position ≤ (fileContent image inode).length)
    (positive : 0 < nbytes) (bound : nbytes < 2147483648) {buf : Bytes} {result : CallResult}
    (completed :
      systemRead image dentry devices fda fd.val (some buf) nbytes = some result) :
    result.written = serve (fileContent image inode) position nbytes.toNat ∧
      result.ret = result.written.length ∧
      ReadyAt inode (position + result.written.length) (result.fda fd) := by
  have short := length_fileContent_le wellFormed exists_
  have size : uint32 nbytes = nbytes.toNat := uint32_of_nonneg (by omega) (by omega)
  have served := readData_eq_serve wellFormed exists_
    (show position + nbytes.toNat < 4294967296 by omega)
  have count := length_serve (fileContent image inode) position nbytes.toNat
  have read : fileRead image fda fd nbytes =
      (((serve (fileContent image inode) position nbytes.toNat).length : Int),
        serve (fileContent image inode) position nbytes.toNat,
        advance fda fd (serve (fileContent image inode) position nbytes.toNat).length) := by
    rw [ReadyAt] at ready
    simp only [fileRead, ready, size, served]
    rw [if_neg (by omega), if_neg (by omega)]
  have range : ¬((fd.val : Int) < 0 ∨ (fd.val : Int) > 7) := by omega
  simp only [systemRead, dif_neg range, Int.toNat_natCast, Fin.eta] at completed
  rw [ready] at completed
  simp only [Nat.one_ne_zero, if_false, Fop.read, read, Option.some.injEq] at completed
  subst completed
  refine ⟨rfl, rfl, ?_⟩
  rw [ReadyAt] at ready ⊢
  simp only [advance, Function.update_self, ready]
  rw [← Int.natCast_add, uint32_natCast (by omega)]

/-- A successful open of a regular file leaves a ready descriptor at position 0. -/
theorem systemOpen_ready {filename : Bytes} {entry : Dentry} {opened : CallResult}
    (found : readDentryByName image filename dentry = .found entry)
    (regular : entry.fileType = 2)
    (completed : systemOpen image dentry devices fda filename = some opened)
    (success : opened.ret ≠ -1) :
    ∃ fd : Fin 8, opened.ret = fd.val ∧
      ReadyAt (uint32 entry.inodeNum) 0 (opened.fda fd) := by
  rcases systemOpen_cases completed with rfl |
    ⟨entry', fd, fop, fileType, found', type, table, _, ret, after⟩
  · exact absurd rfl success
  · obtain rfl := Lookup.found.inj (found.symm.trans found')
    obtain rfl : fileType = 2 := by omega
    obtain rfl : Fop.files = fop := Option.some.inj table
    exact ⟨fd, ret, by rw [after, Function.update_self, ReadyAt]⟩

/-- What the reads of a descriptor have delivered so far, as an invariant of the
table and the calls made since the open. -/
structure Streaming (image : Image) (inode : Nat) (fd : Fin 8)
    (past : List (FdCall × CallResult)) (fda : Fda) : Prop where
  ready : ∃ position, ReadyAt inode position (fda fd) ∧
    Served (fileContent image inode) 0
      ((deliveries fd.val past).map Delivery.answer) position
  counts : ∀ delivery ∈ deliveries fd.val past,
    0 < delivery.requested ∧ delivery.ret = delivery.bytes.length

theorem Streaming.start (ready : ReadyAt inode 0 (fda fd)) :
    Streaming image inode fd [] fda where
  ready := ⟨0, ready, .nil 0⟩
  counts := by simp [deliveries]

theorem delivery?_of_ne {label : FdCall × CallResult} {fd : Int}
    (other : label.1.fd? ≠ some fd) : delivery? fd label = none := by
  obtain ⟨call, result⟩ := label
  cases call with
  | read fd' buf nbytes dentry =>
      have different : fd' ≠ fd := fun same => other (by rw [FdCall.fd?, same])
      simp [delivery?, different]
  | openFile | close | write => rfl

/-- Every call keeps the stream going. -/
theorem Streaming.step (wellFormed : image.WellFormed)
    (exists_ : (inode : Int) < image.inodeCount) {past : List (FdCall × CallResult)}
    {label : FdCall × CallResult} {fda' : Fda} (streaming : Streaming image inode fd past fda)
    (step : FdStep image fda label fda') (allowed : OnlyReads fd.val label) :
    Streaming image inode fd (past ++ [label]) fda' := by
  obtain ⟨position, ready, served⟩ := streaming.ready
  obtain ⟨devices, completed, rfl⟩ := step
  by_cases names : label.1.fd? = some (fd.val : Int)
  · obtain ⟨buf, nbytes, dentry, call, positive, bound⟩ := allowed names
    obtain ⟨call', result⟩ := label
    obtain rfl : call' = _ := call
    obtain ⟨bytes, ret, ready'⟩ := systemRead_ready wellFormed exists_ ready
      (served.position_le (Nat.zero_le _)) positive bound completed
    have extended : deliveries fd.val (past ++ [(.read fd.val (some buf) nbytes dentry, result)]) =
        deliveries fd.val past ++ [⟨nbytes, result.ret, result.written⟩] := by
      simp [deliveries, delivery?]
    constructor
    · refine ⟨_, ready', ?_⟩
      rw [extended, List.map_append, bytes]
      simpa [Delivery.answer, bytes] using served.snoc nbytes.toNat
    · rw [extended]
      intro delivery membership
      rcases List.mem_append.mp membership with earlier | last
      · exact streaming.counts delivery earlier
      · obtain rfl := List.mem_singleton.mp last
        exact ⟨positive, ret⟩
  · have unchanged : deliveries fd.val (past ++ [label]) = deliveries fd.val past := by
      simp [deliveries, delivery?_of_ne names]
    have kept : label.2.fda fd = fda fd := by
      refine (FdCall.run_effect completed).frame ?_ names
      rw [ready]
      exact Nat.one_ne_zero
    constructor
    · rw [unchanged, kept]
      exact ⟨position, ready, served⟩
    · rw [unchanged]
      exact streaming.counts

end

/-- The reads of a descriptor opened on a regular file deliver a prefix of its
content; each reports the bytes it stored, at most the requested number; and the
first that reports 0 has reached the end of the file, where every later read
reports 0 too. -/
theorem reads_deliver_content {image : Image} (wellFormed : image.WellFormed)
    {dentry entry : Dentry} {devices : Devices} {fda fda' : Fda} {filename : Bytes}
    {opened : CallResult} {labels : List (FdCall × CallResult)}
    (found : readDentryByName image filename dentry = .found entry)
    (regular : entry.fileType = 2)
    (completed : systemOpen image dentry devices fda filename = some opened)
    (success : opened.ret ≠ -1)
    (run : Run (FdStep image) opened.fda labels fda')
    (allowed : ∀ label ∈ labels, OnlyReads opened.ret label) :
    (deliveries opened.ret labels).flatMap Delivery.bytes <+:
        fileContent image (uint32 entry.inodeNum) ∧
      (∀ delivery ∈ deliveries opened.ret labels,
        delivery.ret = delivery.bytes.length ∧ delivery.ret ≤ delivery.requested) ∧
      ∀ before delivery after, deliveries opened.ret labels = before ++ delivery :: after →
        delivery.ret = 0 →
        before.flatMap Delivery.bytes = fileContent image (uint32 entry.inodeNum) ∧
          ∀ later ∈ after, later.ret = 0 := by
  obtain ⟨fd, ret, ready⟩ := systemOpen_ready found regular completed success
  obtain ⟨index, inside, rfl, -⟩ :=
    (readDentryByName_found_iff wellFormed.dirCount_le entry).mp found
  obtain ⟨low, high⟩ := wellFormed.inodeNum_range index inside
  have bound := wellFormed.inodeCount_lt
  have exists_ : ((uint32 (image.direntries index).inodeNum : Nat) : Int) < image.inodeCount := by
    rw [uint32_of_nonneg low (by omega)]
    omega
  rw [ret] at allowed ⊢
  have streaming := (run.restrict allowed).history (Streaming image _ fd)
    (fun past before label after streaming step =>
      streaming.step wellFormed exists_ step.1 step.2) [] (.start ready)
  rw [List.nil_append] at streaming
  obtain ⟨position, -, served⟩ := streaming.ready
  have flattened (log : List Delivery) :
      (log.map Delivery.answer).flatMap Prod.snd = log.flatMap Delivery.bytes := by
    rw [List.flatMap_map]
    rfl
  refine ⟨flattened _ ▸ served.flatMap_prefix, fun delivery membership => ?_, ?_⟩
  · obtain ⟨positive, count⟩ := streaming.counts delivery membership
    have short := served.length_le delivery.answer (List.mem_map_of_mem membership)
    simp only [Delivery.answer] at short
    exact ⟨count, by omega⟩
  · intro before delivery after split ended
    have every := streaming.counts
    rw [split] at served every
    obtain ⟨positive, count⟩ := every delivery (by simp)
    have empty : delivery.answer = (delivery.requested.toNat, []) := by
      rw [Delivery.answer, List.eq_nil_of_length_eq_zero (by omega : delivery.bytes.length = 0)]
    rw [List.map_append, List.map_cons, empty] at served
    obtain ⟨whole, silent⟩ := served.ended_of_nil (by omega)
    refine ⟨flattened before ▸ whole, fun later membership => ?_⟩
    have nothing := silent later.answer (List.mem_map_of_mem membership)
    simp only [Delivery.answer] at nothing
    rw [(every later (by simp [membership])).2, nothing]
    rfl

/-- A new process reads the executable of a small image in pieces of 10 bytes, and opens and reads
the directory in between: the fourth read is at the end, and the file is whole. -/
theorem reads_deliver_content_shell :
    ∃ (opened : CallResult) (labels : List (FdCall × CallResult)) (fda' : Fda),
      Run (FdStep smallImage) opened.fda labels fda' ∧
      labels.map (fun label => label.2.ret) = [10, 3, 10, 1, 8, 0, 0] ∧
      (deliveries opened.ret labels).map (fun delivery => (delivery.requested, delivery.ret)) =
        [(10, 10), (10, 10), (10, 8), (10, 0)] ∧
      (deliveries opened.ret labels).flatMap Delivery.bytes = fileContent smallImage 1 := by
  let dentry : Dentry := ⟨fun _ => 0, 0, 0⟩
  let fda := initFda fun _ => ⟨none, 0, 0, 0, 0⟩
  have found : readDentryByName smallImage (cstring [115, 104, 101, 108, 108]) dentry =
      .found (smallImage.direntries 1) := by
    refine readDentryByName_of_first (by decide) (by decide) (by decide) fun k below => ?_
    obtain rfl : k = 0 := by omega
    decide
  let opened := openAs (typedDevices []) fda 1 .files 2
  have completed : systemOpen smallImage dentry (typedDevices []) fda
      (cstring [115, 104, 101, 108, 108]) = some opened := by
    simp only [systemOpen, found]
    rfl
  let piece : FdCall := .read 2 (some fun _ => 0) 10 dentry
  let calls : List FdCall := [piece, .openFile (cstring [46]) dentry, piece,
    .read 3 (some fun _ => 0) 32 dentry, piece, .close 3, piece]
  have outcome : (FdCall.runAll smallImage (typedDevices []) opened.fda calls).map
      (fun ended => (ended.1.map (·.2.ret),
        (deliveries 2 ended.1).map fun delivery => (delivery.requested, delivery.ret))) =
        some ([10, 3, 10, 1, 8, 0, 0], [(10, 10), (10, 10), (10, 8), (10, 0)]) := by
    decide
  obtain ⟨⟨labels, fda'⟩, ran, same⟩ := Option.map_eq_some_iff.mp outcome
  obtain ⟨rets, sizes⟩ := Prod.mk.inj same
  obtain ⟨run, names⟩ := FdCall.runAll_run ran
  have pieces : ∀ call ∈ calls, call.fd? = some 2 → call = piece := by
    simp [calls, piece, FdCall.fd?]
  have only : ∀ label ∈ labels, OnlyReads opened.ret label := fun label membership named =>
    ⟨_, 10, dentry, pieces label.1 (names ▸ List.mem_map_of_mem membership) named, by decide,
      by decide⟩
  obtain ⟨-, counts, ends⟩ := reads_deliver_content smallImage_wellFormed found rfl completed
    (by decide) run only
  -- The read that reports 0 is the last one, so the others have delivered the whole file.
  have parted : (deliveries 2 labels).map (fun delivery => (delivery.requested, delivery.ret)) =
      [(10, 10), (10, 10), (10, 8)] ++ [(10, 0)] := sizes
  obtain ⟨before, last, split, -, sizes'⟩ := List.map_eq_append_iff.mp parted
  obtain ⟨delivery, after, rfl, size, none'⟩ := List.map_eq_cons_iff.mp sizes'
  obtain rfl := List.map_eq_nil_iff.mp none'
  have zero : delivery.ret = 0 := congrArg Prod.snd size
  have whole := (ends before delivery [] split zero).1
  have count := (counts delivery (split ▸ List.mem_append_right _ List.mem_cons_self)).1
  have empty : delivery.bytes = [] := List.eq_nil_of_length_eq_zero (by omega)
  refine ⟨opened, labels, fda', run, rets, sizes, ?_⟩
  rw [show opened.ret = 2 from rfl, split, List.flatMap_append, whole, List.flatMap_cons, empty]
  exact List.append_nil _

end Ece391.Kernel
