import Ece391.Kernel.Lib

/-!
# Page tables and the address map they define

The page directory and the two page tables are written field by field by
`paging_init`, `terminal_videopage_init`, `execute_paging_init` and `map_vidmem`.
`translate` is the processor's two-level walk over them, with 4 MB pages enabled.

`Windows` says what the tables are for: an identity map of the kernel page and of
the video pages, a program window, and a video window for user programs.  The main
theorem identifies the walk with that map at every address.
-/

namespace Ece391.Kernel

/-- A page directory entry; one-bit fields are Booleans and `tableAddr` has 20
bits. -/
structure Pde where
  present : Bool
  readWrite : Bool
  user : Bool
  writeThrough : Bool
  cacheDisable : Bool
  accessed : Bool
  reserved : Bool
  size : Bool
  ignored : Bool
  avail : Nat
  tableAddr : Nat
  deriving DecidableEq, Repr

/-- A page table entry. -/
structure Pte where
  present : Bool
  readWrite : Bool
  user : Bool
  writeThrough : Bool
  cacheDisable : Bool
  accessed : Bool
  dirty : Bool
  reserved : Bool
  global : Bool
  avail : Nat
  pageAddr : Nat
  deriving DecidableEq, Repr

/-- Where the linker put the two page tables, and what the rest of physical memory
holds when it is read as a table.  Both tables are page aligned, and being mapped
one to one their addresses are physical. -/
structure Layout where
  kernelPageTable : Nat
  pagetableVideo : Nat
  other : Nat → Nat → Pte
  kernelPageTable_lt : kernelPageTable < 4294967296
  pagetableVideo_lt : pagetableVideo < 4294967296
  kernelPageTable_aligned : kernelPageTable % 4096 = 0
  pagetableVideo_aligned : pagetableVideo % 4096 = 0
  distinct : kernelPageTable ≠ pagetableVideo

/-- The contents of the page directory and of the two page tables. -/
structure Paging where
  kernelPageDirectory : Nat → Pde
  kernelPageTable : Nat → Pte
  pagetableVideo : Nat → Pte

/-- The tables before the first write: all zero. -/
def zeroPaging : Paging where
  kernelPageDirectory _ := ⟨false, false, false, false, false, false, false, false, false, 0, 0⟩
  kernelPageTable _ := ⟨false, false, false, false, false, false, false, false, false, 0, 0⟩
  pagetableVideo _ := ⟨false, false, false, false, false, false, false, false, false, 0, 0⟩

/-- Assignment to a 20-bit address field. -/
def addrField (value : Int) : Nat :=
  (value % 1048576).toNat

/-- The entry `paging_init` writes at a directory index. -/
def initPde (layout : Layout) (i : Nat) : Pde :=
  if i = 0 then
    ⟨true, true, false, false, false, false, false, false, false, 0,
      addrField (layout.kernelPageTable / 4096 : Nat)⟩
  else if i = 1 then
    ⟨true, true, false, false, false, false, false, true, false, 0,
      addrField (0x400000 / 4096 : Nat)⟩
  else
    ⟨false, true, false, false, false, false, false, true, false, 0, addrField i⟩

/-- A kernel-only page table entry that maps a page to itself when present. -/
def kernelPte (present : Bool) (page : Nat) : Pte :=
  ⟨present, true, false, false, false, false, false, false, false, 0, addrField page⟩

/-- `paging_init`. -/
def pagingInit (layout : Layout) (paging : Paging) : Paging :=
  { paging with
    kernelPageDirectory := fun i =>
      if i < 1024 then initPde layout i else paging.kernelPageDirectory i
    kernelPageTable := fun i =>
      if i < 1024 then kernelPte (i = 0xB8) i else paging.kernelPageTable i }

/-- `terminal_videopage_init`: the three pages after the live video page. -/
def terminalVideopageInit (paging : Paging) : Paging :=
  { paging with
    kernelPageTable := fun i =>
      if i = 0xB9 ∨ i = 0xBA ∨ i = 0xBB then kernelPte true i
      else paging.kernelPageTable i }

/-- `execute_paging_init`.  The address is computed modulo 2^32 and stored as a
signed integer before it is divided. -/
def executePagingInit (pid : Int) (paging : Paging) : Paging :=
  let phyAddr := int32 (0x800000 + 0x400000 * (pid - 1))
  { paging with
    kernelPageDirectory := fun i =>
      if i = 32 then
        { paging.kernelPageDirectory 32 with
          present := true
          user := true
          tableAddr := addrField ((phyAddr.tdiv 4096).tdiv 1024 * 1024) }
      else paging.kernelPageDirectory i }

/-- `map_vidmem`. -/
def mapVidmem (layout : Layout) (paging : Paging) : Paging :=
  { paging with
    kernelPageDirectory := fun i =>
      if i = 40 then
        { paging.kernelPageDirectory 40 with
          present := true
          user := true
          size := false
          readWrite := true
          tableAddr := addrField (layout.pagetableVideo / 4096 : Nat) }
      else paging.kernelPageDirectory i
    pagetableVideo := fun i =>
      if i = 0 then
        { paging.pagetableVideo 0 with
          present := true
          user := true
          readWrite := true
          pageAddr := addrField 0xB8 }
      else paging.pagetableVideo i }

/-- The tables once the kernel has booted. -/
def bootPaging (layout : Layout) : Paging :=
  terminalVideopageInit (pagingInit layout zeroPaging)

/-! ## The walk -/

/-- The result of a translation: the physical address, and whether user mode may
use it. -/
structure Mapping where
  physical : Nat
  user : Bool
  deriving DecidableEq, Repr

/-- Physical memory at a page frame, read as a page table. -/
def tableAt (layout : Layout) (paging : Paging) (frame : Nat) : Nat → Pte :=
  if frame = layout.kernelPageTable / 4096 then paging.kernelPageTable
  else if frame = layout.pagetableVideo / 4096 then paging.pagetableVideo
  else layout.other frame

/-- The processor's translation of a virtual address. -/
def translate (layout : Layout) (paging : Paging) (address : Nat) : Option Mapping :=
  let pde := paging.kernelPageDirectory (address / 4194304)
  if pde.present then
    if pde.size then
      some ⟨pde.tableAddr / 1024 * 4194304 + address % 4194304, pde.user⟩
    else
      let pte := tableAt layout paging pde.tableAddr (address / 4096 % 1024)
      if pte.present then
        some ⟨pte.pageAddr * 4096 + address % 4096, pde.user && pte.user⟩
      else none
  else none

/-! ## The intended address map -/

/-- The two windows a running program sees: which frame holds its image, counted
from 1, and whether the video window is open. -/
structure Windows where
  program : Option Nat
  video : Bool
  deriving DecidableEq, Repr

/-- The intended address map. -/
def Windows.map (windows : Windows) (address : Nat) : Option Mapping :=
  if 0x400000 ≤ address ∧ address < 0x800000 then some ⟨address, false⟩
  else if 0xB8000 ≤ address ∧ address < 0xBC000 then some ⟨address, false⟩
  else if 0x8000000 ≤ address ∧ address < 0x8400000 then
    windows.program.map fun k => ⟨0x800000 + 0x400000 * (k - 1) + (address - 0x8000000), true⟩
  else if 0xA000000 ≤ address ∧ address < 0xA001000 then
    if windows.video then some ⟨0xB8000 + (address - 0xA000000), true⟩ else none
  else none

/-- A call that changes the address map: a program frame between 1 and 5, or the
video window. -/
inductive PagingCall where
  | program (k : Nat) (low : 1 ≤ k) (high : k ≤ 5)
  | video

/-- The effect of a call on the tables. -/
def PagingCall.run (layout : Layout) (paging : Paging) : PagingCall → Paging
  | .program k _ _ => executePagingInit k paging
  | .video => mapVidmem layout paging

/-- The effect of a call on the intended map: the last program frame counts, and
the video window stays open. -/
def PagingCall.open (windows : Windows) : PagingCall → Windows
  | .program k _ _ => { windows with program := some k }
  | .video => { windows with video := true }

/-! ## Refinement -/

/-- The directory entry of the program window for frame `k`. -/
def programPde (k : Nat) : Pde :=
  ⟨true, true, true, false, false, false, false, true, false, 0, (k + 1) * 1024⟩

/-- The tables realise an address map. -/
structure Represents (layout : Layout) (paging : Paging) (windows : Windows) : Prop where
  low : paging.kernelPageDirectory 0 = initPde layout 0
  kernel : paging.kernelPageDirectory 1 = initPde layout 1
  program : match windows.program with
    | none => paging.kernelPageDirectory 32 = initPde layout 32
    | some k => paging.kernelPageDirectory 32 = programPde k ∧ 1 ≤ k ∧ k ≤ 5
  video : if windows.video then
      (paging.kernelPageDirectory 40).present = true ∧
      (paging.kernelPageDirectory 40).user = true ∧
      (paging.kernelPageDirectory 40).size = false ∧
      (paging.kernelPageDirectory 40).tableAddr = layout.pagetableVideo / 4096 ∧
      (paging.pagetableVideo 0).present = true ∧
      (paging.pagetableVideo 0).user = true ∧
      (paging.pagetableVideo 0).pageAddr = 0xB8
    else (paging.kernelPageDirectory 40).present = false
  rest : ∀ i < 1024, i ≠ 0 → i ≠ 1 → i ≠ 32 → i ≠ 40 →
    (paging.kernelPageDirectory i).present = false
  table : ∀ i < 1024, paging.kernelPageTable i = kernelPte (0xB8 ≤ i ∧ i ≤ 0xBB) i
  videoTable : ∀ i < 1024, i ≠ 0 → (paging.pagetableVideo i).present = false

theorem addrField_natCast {value : Nat} (bound : value < 1048576) :
    addrField (value : Int) = value := by
  simp only [addrField]
  omega

/-- The frame computed for program `k`, as the 20-bit field that holds it. -/
theorem program_field {k : Nat} (high : k ≤ 5) :
    addrField (((int32 (0x800000 + 0x400000 * ((k : Int) - 1))).tdiv 4096).tdiv 1024 * 1024) =
      (k + 1) * 1024 := by
  revert k
  decide

/-- The program entry for any frame differs only in three fields from the entry
before it, so `execute_paging_init` need write only those. -/
theorem executePagingInit_pde {paging : Paging} {k : Nat} (high : k ≤ 5)
    (before : (∃ layout, paging.kernelPageDirectory 32 = initPde layout 32) ∨
      ∃ k', paging.kernelPageDirectory 32 = programPde k') :
    (executePagingInit k paging).kernelPageDirectory 32 = programPde k := by
  simp only [executePagingInit, if_true, program_field high]
  rcases before with ⟨layout, before⟩ | ⟨k', before⟩ <;> rw [before] <;> rfl

theorem executePagingInit_of_ne (paging : Paging) (pid : Int) {i : Nat} (other : i ≠ 32) :
    (executePagingInit pid paging).kernelPageDirectory i = paging.kernelPageDirectory i := by
  simp [executePagingInit, other]

theorem mapVidmem_of_ne (layout : Layout) (paging : Paging) {i : Nat} (other : i ≠ 40) :
    (mapVidmem layout paging).kernelPageDirectory i = paging.kernelPageDirectory i := by
  simp [mapVidmem, other]

theorem represents_boot (layout : Layout) :
    Represents layout (bootPaging layout) ⟨none, false⟩ where
  low := rfl
  kernel := rfl
  program := rfl
  video := rfl
  rest i bound zero one _ _ := by
    simp [bootPaging, terminalVideopageInit, pagingInit, initPde, bound, zero, one]
  table i bound := by
    simp only [bootPaging, terminalVideopageInit, pagingInit, bound, if_true]
    split
    next page => rcases page with rfl | rfl | rfl <;> rfl
    next page =>
      congr 1
      by_cases live : i = 0xB8
      · simp [live]
      · have outside : ¬(0xB8 ≤ i ∧ i ≤ 0xBB) := by omega
        simp [live, outside]
  videoTable _ _ _ := rfl

section Represents

variable {layout : Layout} {paging : Paging} {windows : Windows}

theorem Represents.program_before (represents : Represents layout paging windows) :
    (∃ layout, paging.kernelPageDirectory 32 = initPde layout 32) ∨
      ∃ k', paging.kernelPageDirectory 32 = programPde k' := by
  have program := represents.program
  cases mapped : windows.program with
  | none =>
      rw [mapped] at program
      exact .inl ⟨layout, program⟩
  | some k =>
      rw [mapped] at program
      exact .inr ⟨k, program.1⟩

/-- Mapping a program frame replaces the one mapped before. -/
theorem Represents.executePagingInit (represents : Represents layout paging windows) {k : Nat}
    (low : 1 ≤ k) (high : k ≤ 5) :
    Represents layout (executePagingInit k paging) { windows with program := some k } where
  low := represents.low
  kernel := represents.kernel
  program := ⟨executePagingInit_pde high represents.program_before, low, high⟩
  video := represents.video
  rest i bound zero one program video := by
    rw [executePagingInit_of_ne paging k program]
    exact represents.rest i bound zero one program video
  table := represents.table
  videoTable := represents.videoTable

/-- Opening the video window leaves the program window alone. -/
theorem Represents.mapVidmem (represents : Represents layout paging windows) :
    Represents layout (mapVidmem layout paging) { windows with video := true } where
  low := represents.low
  kernel := represents.kernel
  program := represents.program
  video := by
    have bound := layout.pagetableVideo_lt
    have field := addrField_natCast (show layout.pagetableVideo / 4096 < 1048576 by omega)
    exact ⟨rfl, rfl, rfl, field, rfl, rfl, rfl⟩
  rest i bound zero one program video := by
    rw [mapVidmem_of_ne layout paging video]
    exact represents.rest i bound zero one program video
  table := represents.table
  videoTable i bound live := by
    simpa [Kernel.mapVidmem, live] using represents.videoTable i bound live

/-- Each call keeps the tables in step with the intended map. -/
theorem Represents.call (represents : Represents layout paging windows) (call : PagingCall) :
    Represents layout (call.run layout paging) (call.open windows) := by
  cases call with
  | program k low high => exact represents.executePagingInit low high
  | video => exact represents.mapVidmem

/-- So does every sequence of calls. -/
theorem Represents.calls (represents : Represents layout paging windows)
    (calls : List PagingCall) :
    Represents layout (calls.foldl (PagingCall.run layout) paging)
      (calls.foldl PagingCall.open windows) := by
  induction calls generalizing paging windows with
  | nil => exact represents
  | cons call calls ih => exact ih (represents.call call)

/-- The first table maps the video pages to themselves, for the kernel only. -/
private theorem Represents.translate_low (represents : Represents layout paging windows)
    {address : Nat} (inside : address / 4194304 = 0) :
    translate layout paging address =
      if 0xB8000 ≤ address ∧ address < 0xBC000 then some ⟨address, false⟩ else none := by
  have bound := layout.kernelPageTable_lt
  have index : address / 4096 % 1024 = address / 4096 := by omega
  have frame : tableAt layout paging (layout.kernelPageTable / 4096) =
      paging.kernelPageTable := if_pos rfl
  simp only [translate, inside, represents.low, initPde, if_true,
    addrField_natCast (show layout.kernelPageTable / 4096 < 1048576 by omega), frame, index,
    represents.table (address / 4096) (by omega), kernelPte]
  have field := addrField_natCast (show address / 4096 < 1048576 by omega)
  by_cases page : 0xB8 ≤ address / 4096 ∧ address / 4096 ≤ 0xBB
  · have range : 0xB8000 ≤ address ∧ address < 0xBC000 := by omega
    simp only [page, range, decide_true, and_self, if_true, field, Bool.false_eq_true, if_false,
      Bool.false_and, Option.some.injEq, Mapping.mk.injEq, and_true]
    omega
  · have range : ¬(0xB8000 ≤ address ∧ address < 0xBC000) := by omega
    simp [page, range]

/-- The program window is one 4 MB page. -/
theorem translate_program (layout : Layout) {k address : Nat}
    (program : paging.kernelPageDirectory 32 = programPde k) (positive : 1 ≤ k)
    (low : 0x8000000 ≤ address) (high : address < 0x8400000) :
    translate layout paging address =
      some ⟨0x800000 + 0x400000 * (k - 1) + (address - 0x8000000), true⟩ := by
  have index : address / 4194304 = 32 := by omega
  have physical : (k + 1) * 1024 / 1024 * 4194304 + address % 4194304 =
      0x800000 + 0x400000 * (k - 1) + (address - 0x8000000) := by omega
  simp only [translate, index, program, programPde, if_true, physical]

private theorem Represents.translate_video (represents : Represents layout paging windows)
    {address : Nat} (inside : address / 4194304 = 40) :
    translate layout paging address =
      if address < 0xA001000 ∧ windows.video then
        some ⟨0xB8000 + (address - 0xA000000), true⟩
      else none := by
  have video := represents.video
  have bound : layout.pagetableVideo / 4096 ≠ layout.kernelPageTable / 4096 := by
    have distinct := layout.distinct
    have aligned := layout.kernelPageTable_aligned
    have aligned' := layout.pagetableVideo_aligned
    omega
  have frame : tableAt layout paging (layout.pagetableVideo / 4096) = paging.pagetableVideo := by
    rw [tableAt, if_neg bound, if_pos rfl]
  by_cases opened : windows.video
  · rw [if_pos opened] at video
    obtain ⟨present, user, size, table, live, liveUser, page⟩ := video
    simp only [translate, inside, present, size, table, frame, user, if_true, Bool.true_and,
      Bool.false_eq_true, if_false, opened, and_true]
    by_cases first : address < 0xA001000
    · have index : address / 4096 % 1024 = 0 := by omega
      simp only [index, live, liveUser, page, first, if_true, Option.some.injEq,
        Mapping.mk.injEq, and_true]
      omega
    · have index : address / 4096 % 1024 ≠ 0 := by omega
      have absent := represents.videoTable (address / 4096 % 1024) (by omega) index
      simp [absent, first]
  · rw [if_neg opened] at video
    simp [translate, inside, video, opened]

/-- The walk of the tables is the intended map. -/
theorem Represents.translate (represents : Represents layout paging windows) {address : Nat}
    (bound : address < 4294967296) :
    translate layout paging address = windows.map address := by
  by_cases low : address / 4194304 = 0
  · have kernel : ¬(0x400000 ≤ address ∧ address < 0x800000) := by omega
    have program : ¬(0x8000000 ≤ address ∧ address < 0x8400000) := by omega
    have video : ¬(0xA000000 ≤ address ∧ address < 0xA001000) := by omega
    rw [represents.translate_low low, Windows.map, if_neg kernel, if_neg program, if_neg video]
  have lowVideo : ¬(0xB8000 ≤ address ∧ address < 0xBC000) := by omega
  by_cases kernel : address / 4194304 = 1
  · have inside : 0x400000 ≤ address ∧ address < 0x800000 := by omega
    have physical : addrField (0x400000 / 4096 : Nat) / 1024 * 4194304 + address % 4194304 =
        address := by
      rw [addrField_natCast (by omega)]
      omega
    rw [Windows.map, if_pos inside]
    simp only [Kernel.translate, kernel, represents.kernel, initPde, Nat.one_ne_zero, if_true,
      if_false, physical]
  have notKernel : ¬(0x400000 ≤ address ∧ address < 0x800000) := by omega
  rw [Windows.map, if_neg notKernel, if_neg lowVideo]
  by_cases program : address / 4194304 = 32
  · have inside : 0x8000000 ≤ address ∧ address < 0x8400000 := by omega
    rw [if_pos inside]
    have entry := represents.program
    cases mapped : windows.program with
    | none =>
        rw [mapped] at entry
        simp [Kernel.translate, program, entry, initPde]
    | some k =>
        rw [mapped] at entry
        exact translate_program layout entry.1 entry.2.1 inside.1 inside.2
  have notProgram : ¬(0x8000000 ≤ address ∧ address < 0x8400000) := by omega
  rw [if_neg notProgram]
  by_cases video : address / 4194304 = 40
  · rw [represents.translate_video video]
    have above : 0xA000000 ≤ address := by omega
    by_cases first : address < 0xA001000
    · simp [first, above]
    · simp [first]
  · have outside : ¬(0xA000000 ≤ address ∧ address < 0xA001000) := by omega
    have absent := represents.rest (address / 4194304) (by omega) low kernel program video
    simp [Kernel.translate, absent, outside]

end Represents

/-! ## The address map after any calls -/

/-- The windows before the first call. -/
def noWindows : Windows := ⟨none, false⟩

theorem Windows.map_user {windows : Windows} {address : Nat} {mapping : Mapping}
    (mapped : windows.map address = some mapping) (user : mapping.user = true) :
    0x8000000 ≤ address ∧ address < 0x8400000 ∨ 0xA000000 ≤ address ∧ address < 0xA001000 := by
  have kernelOnly {physical : Nat} (same : some (⟨physical, false⟩ : Mapping) = some mapping) :
      False := by
    obtain rfl := Option.some.inj same
    simp at user
  rw [Windows.map] at mapped
  split at mapped
  · exact absurd mapped kernelOnly
  · split at mapped
    · exact absurd mapped kernelOnly
    · split at mapped
      next program => exact .inl program
      · split at mapped
        next video => exact .inr video
        · simp at mapped

theorem Windows.map_program {windows : Windows} {address : Nat} {mapping : Mapping}
    (low : 0x8000000 ≤ address) (high : address < 0x8400000)
    (mapped : windows.map address = some mapping) :
    ∃ k, windows.program = some k ∧
      mapping.physical = 0x800000 + 0x400000 * (k - 1) + (address - 0x8000000) := by
  have notKernel : ¬(0x400000 ≤ address ∧ address < 0x800000) := by omega
  have notVideo : ¬(0xB8000 ≤ address ∧ address < 0xBC000) := by omega
  rw [Windows.map, if_neg notKernel, if_neg notVideo, if_pos ⟨low, high⟩,
    Option.map_eq_some_iff] at mapped
  obtain ⟨k, program, rfl⟩ := mapped
  exact ⟨k, program, rfl⟩

/-- A mapped program frame is one of the five. -/
theorem PagingCall.program_range {windows : Windows} (calls : List PagingCall)
    (before : ∀ k, windows.program = some k → 1 ≤ k ∧ k ≤ 5) :
    ∀ k, (calls.foldl PagingCall.open windows).program = some k → 1 ≤ k ∧ k ≤ 5 := by
  induction calls generalizing windows with
  | nil => exact before
  | cons call calls ih =>
      apply ih
      intro k program
      cases call with
      | program k' low high =>
          obtain rfl : k' = k := Option.some.inj program
          exact ⟨low, high⟩
      | video => exact before k program

/-- The tables after boot and some calls. -/
def pagingAfter (layout : Layout) (calls : List PagingCall) : Paging :=
  calls.foldl (PagingCall.run layout) (bootPaging layout)

/-- The intended windows after some calls. -/
def windowsAfter (calls : List PagingCall) : Windows :=
  calls.foldl PagingCall.open noWindows

/-- After boot and any sequence of calls the walk is the intended map at every
32-bit address, user mode reaches only the program and video windows, the program
window lies above 8 MB, and different programs have disjoint frames. -/
theorem translate_after_calls (layout : Layout) (calls : List PagingCall) :
    (∀ address < 4294967296,
      translate layout (pagingAfter layout calls) address = (windowsAfter calls).map address) ∧
    (∀ address < 4294967296, ∀ mapping,
      translate layout (pagingAfter layout calls) address = some mapping →
      mapping.user = true →
      0x8000000 ≤ address ∧ address < 0x8400000 ∨
        0xA000000 ≤ address ∧ address < 0xA001000) ∧
    ∀ address, 0x8000000 ≤ address → address < 0x8400000 → ∀ mapping,
      translate layout (pagingAfter layout calls) address = some mapping →
      0x800000 ≤ mapping.physical ∧
      ∀ calls' address', 0x8000000 ≤ address' → address' < 0x8400000 → ∀ mapping',
        translate layout (pagingAfter layout calls') address' = some mapping' →
        (windowsAfter calls).program ≠ (windowsAfter calls').program →
        mapping.physical ≠ mapping'.physical := by
  have walk (calls : List PagingCall) {address : Nat} (bound : address < 4294967296) :
      translate layout (pagingAfter layout calls) address = (windowsAfter calls).map address :=
    ((represents_boot layout).calls calls).translate bound
  have range (calls : List PagingCall) {k : Nat} (program : (windowsAfter calls).program = some k) :
      1 ≤ k ∧ k ≤ 5 :=
    PagingCall.program_range calls (by simp [noWindows]) k program
  refine ⟨fun address bound => walk calls bound, fun address bound mapping mapped user => ?_, ?_⟩
  · rw [walk calls bound] at mapped
    exact Windows.map_user mapped user
  · intro address low high mapping mapped
    rw [walk calls (by omega)] at mapped
    obtain ⟨k, program, physical⟩ := Windows.map_program low high mapped
    refine ⟨by omega, fun calls' address' low' high' mapping' mapped' different same => ?_⟩
    rw [walk calls' (by omega)] at mapped'
    obtain ⟨k', program', physical'⟩ := Windows.map_program low' high' mapped'
    obtain ⟨positive, -⟩ := range calls program
    obtain ⟨positive', -⟩ := range calls' program'
    apply different
    rw [program, program']
    congr 1
    omega

end Ece391.Kernel
