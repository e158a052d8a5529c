import Ece391.Kernel.VideoWindow
import Ece391.Library.MappedStore

/-!
# The pointer given to `system_vidmap`

The call stores a four-byte address through the pointer its caller passes, and means to
accept the pointers into the program page only.  The test compares the first byte with an
inclusive upper end, so the last three addresses of the page and the address behind it are
accepted too, although some byte of the word then lies in the page behind, which is never
mapped.
-/

namespace Ece391.Kernel

open Ece391.Library

/-- The little-endian bytes of `USER_VMEM_ADDR`. -/
def userVmemAddr : List UInt8 := [0x00, 0x00, 0x00, 0x0A]

/-- The frame a virtual address points to. -/
def physicalOf (layout : Layout) (paging : Paging) (address : Nat) : Option Nat :=
  (translate layout paging address).map Mapping.physical

/-- `system_vidmap` with the memory it writes: the return value, physical memory and the
tables afterwards.  A store that is not mapped raises a page fault, and the call does not
return. -/
def systemVidmapStore (layout : Layout) (memory : Bytes) (paging : Paging) (screenStart : Nat) :
    Option (Int × Bytes × Paging) :=
  if screenStart = 0 then some (-1, memory, paging)
  else if screenStart < 0x8000000 ∨ screenStart > 0x8000000 + 0x400000 then
    some (-1, memory, paging)
  else
    match storeMapped (physicalOf layout paging) memory screenStart userVmemAddr with
    | none => none
    | some stored => some (0, stored, mapVidmem layout paging)

/-- All four bytes of the word lie in the program page. -/
def InProgramPage (screenStart : Nat) : Prop :=
  0x8000000 ≤ screenStart ∧ screenStart + 4 ≤ 0x8400000

/-- The pointers that the test accepts although the word leaves the page. -/
def PastProgramPage (screenStart : Nat) : Prop :=
  0x83FFFFD ≤ screenStart ∧ screenStart ≤ 0x8400000

/-- Memory after the address has been stored: its four bytes are where the pointer points
and nothing else has changed. -/
structure AddressStored (layout : Layout) (paging : Paging) (screenStart : Nat)
    (memory stored : Bytes) : Prop where
  written : ∀ i byte, userVmemAddr[i]? = some byte →
    ∃ frame, physicalOf layout paging (screenStart + i) = some frame ∧ stored frame = byte
  frame : ∀ frame, (∀ i < 4, physicalOf layout paging (screenStart + i) ≠ some frame) →
    stored frame = memory frame

/-- What the call is to do with a pointer: a word inside the program page is stored and the
window mapped; for any other pointer it returns -1 and changes neither memory nor tables. -/
structure PointerChecked (layout : Layout) (memory : Bytes) (paging : Paging)
    (screenStart : Nat) (result : Option (Int × Bytes × Paging)) : Prop where
  inside : InProgramPage screenStart →
    ∃ stored, result = some (0, stored, mapVidmem layout paging) ∧
      AddressStored layout paging screenStart memory stored
  outside : ¬ InProgramPage screenStart → result = some (-1, memory, paging)

/-! ## The program page -/

section

variable {layout : Layout} {paging : Paging} {windows : Windows} {k : Nat}
variable {screenStart : Nat} {memory : Bytes}

/-- The program page maps to the frame of the running program. -/
theorem physicalOf_program (represents : Represents layout paging windows)
    (running : windows.program = some k) {address : Nat} (low : 0x8000000 ≤ address)
    (high : address < 0x8400000) :
    physicalOf layout paging address =
      some (0x800000 + 0x400000 * (k - 1) + (address - 0x8000000)) := by
  have notKernel : ¬ (0x400000 ≤ address ∧ address < 0x800000) := by omega
  have notVideo : ¬ (0xB8000 ≤ address ∧ address < 0xBC000) := by omega
  rw [physicalOf, represents.translate (by omega), Windows.map, if_neg notKernel,
    if_neg notVideo, if_pos ⟨low, high⟩, running]
  rfl

/-- The page behind it is never mapped. -/
theorem physicalOf_behind (represents : Represents layout paging windows) {address : Nat}
    (low : 0x8400000 ≤ address) (high : address < 0x8800000) :
    physicalOf layout paging address = none := by
  have notKernel : ¬ (0x400000 ≤ address ∧ address < 0x800000) := by omega
  have notVideo : ¬ (0xB8000 ≤ address ∧ address < 0xBC000) := by omega
  have notProgram : ¬ (0x8000000 ≤ address ∧ address < 0x8400000) := by omega
  have notWindow : ¬ (0xA000000 ≤ address ∧ address < 0xA001000) := by omega
  rw [physicalOf, represents.translate (by omega), Windows.map, if_neg notKernel,
    if_neg notVideo, if_neg notProgram, if_neg notWindow]
  rfl

/-- A pointer that the test rejects is refused. -/
theorem systemVidmapStore_refused
    (rejected : screenStart < 0x8000000 ∨ screenStart > 0x8000000 + 0x400000) :
    systemVidmapStore layout memory paging screenStart = some (-1, memory, paging) := by
  by_cases null : screenStart = 0
  · rw [systemVidmapStore, if_pos null]
  · rw [systemVidmapStore, if_neg null, if_pos rejected]

theorem systemVidmapStore_accepted (low : 0x8000000 ≤ screenStart)
    (high : screenStart ≤ 0x8400000) :
    systemVidmapStore layout memory paging screenStart =
      match storeMapped (physicalOf layout paging) memory screenStart userVmemAddr with
      | none => none
      | some stored => some (0, stored, mapVidmem layout paging) := by
  rw [systemVidmapStore, if_neg (by omega), if_neg (by omega)]

/-- A word inside the page is stored as it should be. -/
theorem systemVidmapStore_inside (represents : Represents layout paging windows)
    (running : windows.program = some k) (inside : InProgramPage screenStart) :
    ∃ stored, systemVidmapStore layout memory paging screenStart =
        some (0, stored, mapVidmem layout paging) ∧
      AddressStored layout paging screenStart memory stored := by
  obtain ⟨low, high⟩ := inside
  have length : userVmemAddr.length = 4 := rfl
  have mapped (i : Nat) (within : i < userVmemAddr.length) :
      physicalOf layout paging (screenStart + i) =
        some (0x800000 + 0x400000 * (k - 1) + (screenStart + i - 0x8000000)) := by
    rw [length] at within
    exact physicalOf_program represents running (by omega) (by omega)
  have completes : ∃ stored,
      storeMapped (physicalOf layout paging) memory screenStart userVmemAddr = some stored :=
    storeMapped_completes fun i within => ⟨_, mapped i within⟩
  obtain ⟨stored, completed⟩ := completes
  refine ⟨stored, ?_, ?_, ?_⟩
  · rw [systemVidmapStore_accepted low (by omega), completed]
  · intro i byte listed
    refine storeMapped_written completed ?_ listed
    intro i within j within' same
    rw [mapped i within, mapped j within', Option.some.injEq] at same
    omega
  · intro frame unreached
    exact storeMapped_frame completed unreached

/-- A word that the test accepts and that leaves the page faults. -/
theorem systemVidmapStore_faults (represents : Represents layout paging windows)
    (past : PastProgramPage screenStart) :
    systemVidmapStore layout memory paging screenStart = none := by
  obtain ⟨low, high⟩ := past
  have length : userVmemAddr.length = 4 := rfl
  -- The word's last byte is always behind the page.
  have unmapped : physicalOf layout paging (screenStart + 3) = none :=
    physicalOf_behind represents (by omega) (by omega)
  rw [systemVidmapStore_accepted (by omega) (by omega),
    storeMapped_faults (by omega) unmapped]

/-- Without the memory, this is the call on the tables alone. -/
theorem systemVidmapStore_systemVidmap {state : ProcessState}
    (represents : Represents layout state.paging windows) (running : windows.program = some k) :
    (systemVidmapStore layout memory state.paging screenStart).map
        (fun result => (result.1, { state with paging := result.2.2 })) =
      systemVidmap layout state screenStart := by
  by_cases null : screenStart = 0
  · rw [systemVidmapStore, systemVidmap, if_pos null, if_pos null]
    rfl
  by_cases rejected : screenStart < 0x8000000 ∨ screenStart > 0x8000000 + 0x400000
  · rw [systemVidmapStore_refused rejected, systemVidmap, if_neg null, if_pos rejected]
    rfl
  rw [systemVidmap, if_neg null, if_neg rejected]
  by_cases inside : screenStart + 3 < 0x8400000
  · obtain ⟨stored, completed, -⟩ := @systemVidmapStore_inside layout state.paging windows k
      screenStart memory represents running ⟨by omega, by omega⟩
    rw [completed, if_pos inside]
    rfl
  · rw [systemVidmapStore_faults represents ⟨by omega, by omega⟩, if_neg inside]
    rfl

end

/-! ## Every pointer -/

/-- While a program runs, the call does what it is to do with a pointer exactly if the
pointer is none of the four at the end of the page. -/
theorem systemVidmapStore_checked (layout : Layout) (memory : Bytes) {calls : List PagingCall}
    {k : Nat} (running : (windowsAfter calls).program = some k) (screenStart : Nat) :
    PointerChecked layout memory (pagingAfter layout calls) screenStart
        (systemVidmapStore layout memory (pagingAfter layout calls) screenStart) ↔
      ¬ PastProgramPage screenStart := by
  have represents : Represents layout (pagingAfter layout calls) (windowsAfter calls) :=
    (represents_boot layout).calls calls
  constructor
  · intro checked past
    have leaves : ¬ InProgramPage screenStart := by
      intro inside
      have high := inside.2
      have low := past.1
      omega
    have returned := checked.outside leaves
    rw [systemVidmapStore_faults represents past] at returned
    cases returned
  · intro rest
    refine ⟨systemVidmapStore_inside represents running, ?_⟩
    intro leaves
    apply systemVidmapStore_refused
    by_contra accepted
    by_cases inside : screenStart + 4 ≤ 0x8400000
    · exact leaves ⟨by omega, inside⟩
    · exact rest ⟨by omega, by omega⟩

/-- A program in the first frame. -/
def firstProgram : List PagingCall := [.program 1 (by decide) (by decide)]

/-- The start of the page is a pointer the call treats as it should. -/
theorem systemVidmapStore_start :
    PointerChecked smallLayout (fun _ => 0) (pagingAfter smallLayout firstProgram) 0x8000000
      (systemVidmapStore smallLayout (fun _ => 0) (pagingAfter smallLayout firstProgram)
        0x8000000) :=
  (systemVidmapStore_checked smallLayout (fun _ => 0) (show
    (windowsAfter firstProgram).program = some 1 from rfl) 0x8000000).mpr
    fun past => absurd past.1 (by decide)

/-- The end of the page is not: the store faults. -/
theorem systemVidmapStore_end :
    ¬ PointerChecked smallLayout (fun _ => 0) (pagingAfter smallLayout firstProgram) 0x8400000
      (systemVidmapStore smallLayout (fun _ => 0) (pagingAfter smallLayout firstProgram)
        0x8400000) := by
  have represents : Represents smallLayout (pagingAfter smallLayout firstProgram)
      (windowsAfter firstProgram) := (represents_boot smallLayout).calls firstProgram
  intro checked
  have returned := checked.outside fun inside => absurd inside.2 (by decide)
  rw [systemVidmapStore_faults represents ⟨by decide, by decide⟩] at returned
  cases returned

end Ece391.Kernel
