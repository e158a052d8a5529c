import Ece391.Kernel.ExecuteAcceptance
import Ece391.Library.Footprint

/-!
# Where the program image is copied to

`system_execute` has `read_data` copy a whole file to the load address inside the program page.
The format allows files that are longer than the rest of the page, and the room is compared with
nothing: the copy then runs on into the next page, which is not mapped.
-/

namespace Ece391.Kernel

open Ece391.Library

/-! ## `read_data` with the memory it stores to -/

/-- The address of an element of a byte buffer. -/
def storeAddress (buf i : Nat) : Nat :=
  (buf + i) % 4294967296

/-- The copy loop of `read_data`, which stores one byte after another. -/
def copyLoop (image : Image) (inode offset buf : Nat) :
    (remaining current i : Nat) → Tracked Nat UInt8 → Int × Tracked Nat UInt8
  | 0, _, i, memory => (int32 i, memory)
  | remaining + 1, current, i, memory =>
      if current = fileLength image inode then (int32 ((current : Int) - offset), memory)
      else
        copyLoop image inode offset buf remaining (current + 1) (i + 1)
          (memory.store (storeAddress buf i) (byteAt image inode current))

/-- `read_data` into a buffer in memory. -/
def readDataInto (image : Image) (inode offset length buf : Nat) (memory : Tracked Nat UInt8) :
    Int × Tracked Nat UInt8 :=
  if inode > uint32 (image.inodeCount - 1) then (-1, memory)
  else if offset ≥ fileLength image inode then (0, memory)
  else
    copyLoop image inode offset buf ((offset + length) % 4294967296 - offset) offset 0 memory

section Copy

variable {image : Image} {inode offset buf remaining current i : Nat}
variable {memory : Tracked Nat UInt8} {area : Set Nat}

private theorem copyLoop_return (written : List UInt8) (counted : written.length = i) :
    (copyLoop image inode offset buf remaining current i memory).1 =
      (readDataLoop image inode offset remaining current written).1 := by
  induction remaining generalizing current i memory written with
  | zero => rw [copyLoop, readDataLoop, counted]
  | succ remaining ih =>
      rw [copyLoop, readDataLoop]
      split
      · rfl
      · exact ih _ (by simp [counted])

/-- The memory does not change what `read_data` returns. -/
theorem readDataInto_return (image : Image) (inode offset length buf : Nat)
    (memory : Tracked Nat UInt8) :
    (readDataInto image inode offset length buf memory).1 =
      (readData image inode offset length).1 := by
  rw [readDataInto, readData]
  split
  · rfl
  · split
    · rfl
    · exact copyLoop_return [] rfl

private theorem copyLoop_within (before : current ≤ fileLength image inode)
    (each : ∀ k, i ≤ k → k < i + min remaining (fileLength image inode - current) →
      storeAddress buf k ∈ area) :
    Within area memory (copyLoop image inode offset buf remaining current i memory).2 := by
  induction remaining generalizing current i memory with
  | zero => exact .refl memory
  | succ remaining ih =>
      rw [copyLoop]
      split
      · exact .refl memory
      next more =>
        have here : storeAddress buf i ∈ area := each i (Nat.le_refl i) (by omega)
        refine (Within.store memory here _).trans (ih (by omega) fun k low high => ?_)
        exact each k (by omega) (by omega)

private theorem copyLoop_keeps {address : Nat} (stored : address ∈ memory.writes) :
    address ∈ (copyLoop image inode offset buf remaining current i memory).2.writes := by
  induction remaining generalizing current i memory with
  | zero => exact stored
  | succ remaining ih =>
      rw [copyLoop]
      split
      · exact stored
      · exact ih (List.mem_cons_of_mem _ stored)

private theorem copyLoop_stores (before : current ≤ fileLength image inode) {k : Nat}
    (low : i ≤ k) (high : k < i + min remaining (fileLength image inode - current)) :
    storeAddress buf k ∈
      (copyLoop image inode offset buf remaining current i memory).2.writes := by
  induction remaining generalizing current i memory with
  | zero => omega
  | succ remaining ih =>
      rw [copyLoop, if_neg (by omega)]
      rcases Nat.lt_or_eq_of_le low with later | rfl
      · exact ih (by omega) later (by omega)
      · exact copyLoop_keeps List.mem_cons_self

/-- Without a wrap of the address no byte is stored over another. -/
private theorem copyLoop_cells (before : current ≤ fileLength image inode)
    (noWrap : buf + i + remaining ≤ 4294967296) {k : Nat} (low : i ≤ k)
    (high : k < i + min remaining (fileLength image inode - current)) :
    (copyLoop image inode offset buf remaining current i memory).2.cells (storeAddress buf k) =
      byteAt image inode (current + (k - i)) := by
  induction remaining generalizing current i memory with
  | zero => omega
  | succ remaining ih =>
      rw [copyLoop, if_neg (by omega)]
      rcases Nat.lt_or_eq_of_le low with later | rfl
      · rw [ih (by omega) (by omega) later (by omega)]
        congr 1
        omega
      · -- The later stores are elsewhere.
        let elsewhere : Set Nat := { address | address ≠ storeAddress buf i }
        have rest (stored : Tracked Nat UInt8) : Within elsewhere stored
            (copyLoop image inode offset buf remaining (current + 1) (i + 1) stored).2 := by
          refine copyLoop_within (by omega) fun k low high => ?_
          simp only [elsewhere, Set.mem_ofPred_eq, storeAddress]
          omega
        rw [(rest _).unchanged _ fun other => other rfl, Nat.sub_self, Nat.add_zero]
        exact Function.update_self ..

end Copy

/-! ## The copy of a program image -/

/-- The program image as it is copied to its load address. -/
def copyImage (image : Image) (inode : Nat) (memory : Tracked Nat UInt8) : Tracked Nat UInt8 :=
  (readDataInto image inode 0 (fileLength image inode) 0x8048000 memory).2

/-- The part of the program page from the load address on. -/
def imageArea : Set Nat :=
  { address | 0x8048000 ≤ address ∧ address < 0x8400000 }

/-- The copy stays inside the program page, and a file that does not fit is refused. -/
structure CopiesInside (image : Image) (locals : Locals) (state : ProcessState)
    (command : Option Bytes) (inode : Nat) : Prop where
  inside : state.HasSlot → ∀ memory : Tracked Nat UInt8,
    Within imageArea memory.quiet (copyImage image inode memory.quiet)
  refused : imageRoom < fileLength image inode →
    ∃ state', systemExecute image locals state command = .returns (-1) state'

section

variable {image : Image} {locals : Locals} {state : ProcessState} {command : Option Bytes}
variable {inode : Nat} {args : Bytes} {memory : Tracked Nat UInt8} {area : Set Nat}

theorem IsElf.copyImage_eq (elf : IsElf image inode) (memory : Tracked Nat UInt8) :
    copyImage image inode memory =
      (copyLoop image inode 0 0x8048000 (fileLength image inode) 0 0 memory).2 := by
  obtain ⟨known, nonempty⟩ := elf.inside
  have bound := fileLength_lt image inode
  rw [copyImage, readDataInto, if_neg (Nat.not_lt.mpr known), if_neg (Nat.not_le.mpr nonempty),
    Nat.zero_add, Nat.mod_eq_of_lt bound, Nat.sub_zero]

/-- A file that fits is copied inside the page. -/
theorem IsElf.copy_within (elf : IsElf image inode) (fits : fileLength image inode ≤ imageRoom) :
    Within imageArea memory (copyImage image inode memory) := by
  rw [elf.copyImage_eq]
  refine copyLoop_within (Nat.zero_le _) fun k _ high => ?_
  simp only [imageRoom] at fits
  simp only [imageArea, storeAddress, Set.mem_ofPred_eq]
  omega

/-- The copy puts the bytes that the program starts with at the load address. -/
theorem IsElf.copy_cells (elf : IsElf image inode) (fits : fileLength image inode ≤ imageRoom)
    {k : Nat} (inside : k < (fileBytes image inode).length) :
    (copyImage image inode memory).cells (0x8048000 + k) = (fileBytes image inode)[k] := by
  rw [length_fileBytes] at inside
  simp only [imageRoom] at fits
  have address : storeAddress 0x8048000 k = 0x8048000 + k := by
    rw [storeAddress]
    omega
  have copied := @copyLoop_cells image inode 0 0x8048000 (fileLength image inode) 0 0 memory
    (Nat.zero_le _) (by omega) k (Nat.zero_le _) (by omega)
  rw [address] at copied
  rw [elf.copyImage_eq, copied]
  simp [fileBytes]

/-- A file that does not fit is copied to the first address behind the page. -/
theorem IsElf.copy_overruns (elf : IsElf image inode)
    (large : imageRoom < fileLength image inode) :
    0x8400000 ∈ (copyImage image inode memory).writes := by
  rw [elf.copyImage_eq]
  have stored := @copyLoop_stores image inode 0 0x8048000 (fileLength image inode) 0 0 memory
    (Nat.zero_le _) imageRoom (Nat.zero_le _) (by omega)
  exact stored

theorem IsElf.not_copiesInside (elf : IsElf image inode) (free : state.HasSlot)
    (large : imageRoom < fileLength image inode) :
    ¬CopiesInside image locals state command inode := by
  intro copies
  have overrun := @IsElf.copy_overruns image inode (Tracked.quiet ⟨fun _ => 0, []⟩) elf large
  have inside := (copies.inside free ⟨fun _ => 0, []⟩).inside rfl overrun
  exact absurd inside.2 (by omega)

/-- For every file that is accepted, the copy stays inside the page, and the file is refused if it
does not fit, exactly when no process slot is free or it fits between its load address and the
end of the page. -/
theorem image_copy_inside_iff
    (resolved : resolveCommand image locals command = .program inode args) :
    CopiesInside image locals state command inode ↔
      (state.HasSlot → fileLength image inode ≤ imageRoom) := by
  have elf := resolveCommand_elf resolved
  constructor
  · intro copies free
    by_contra large
    exact elf.not_copiesInside free (Nat.lt_of_not_le large) copies
  · intro fits
    refine ⟨fun free memory => elf.copy_within (fits free), fun large => ?_⟩
    rcases assignPID_spec state with ⟨slot, bound, -, free, -⟩ | ⟨failed, -⟩
    · exact absurd (fits ⟨slot, bound, free⟩) (Nat.not_le.mpr large)
    · exact ⟨_, systemExecute_full resolved failed⟩

end

theorem image_copy_inside_shell :
    ∃ inode args,
      resolveCommand smallImage zeroLocals (some (cstring oneArgument)) = .program inode args ∧
      CopiesInside smallImage zeroLocals (bootState smallLayout) (some (cstring oneArgument))
        inode := by
  have resolves : Resolves smallImage zeroLocals oneArgument (smallImage.direntries 1) :=
    resolves_shell zeroLocals (by decide) (by decide) (by decide) (by decide)
  have resolved := resolveCommand_of_resolves (terminated_holds (by decide)) (by decide)
    (by decide) resolves
  rw [if_pos (by decide)] at resolved
  exact ⟨_, _, resolved, (image_copy_inside_iff resolved).mpr fun _ => by decide⟩

/-- On a well-formed image with a shell of the greatest length of the format, the copy runs
past the page. -/
theorem image_copy_leaves_page :
    (shellVariant 2 (1023 * 4096)).WellFormed ∧
    ∃ inode args, resolveCommand (shellVariant 2 (1023 * 4096)) zeroLocals
        (some (cstring oneArgument)) = .program inode args ∧
      systemExecute (shellVariant 2 (1023 * 4096)) zeroLocals (bootState smallLayout)
        (some (cstring oneArgument)) = .stuck ∧
      (∀ memory, 0x8400000 ∈ (copyImage (shellVariant 2 (1023 * 4096)) inode memory).writes) ∧
      ¬CopiesInside (shellVariant 2 (1023 * 4096)) zeroLocals (bootState smallLayout)
        (some (cstring oneArgument)) inode := by
  have resolved := resolveCommand_of_resolves (terminated_holds (by decide)) (by decide)
    (by decide) (shellVariant_resolves 2 (1023 * 4096) zeroLocals)
  rw [if_pos (by decide)] at resolved
  have elf := resolveCommand_elf resolved
  have free : (bootState smallLayout).HasSlot := ⟨0, by decide, by decide⟩
  obtain ⟨slot, -, assigned⟩ := free.assigned
  have large : imageRoom < fileLength (shellVariant 2 (1023 * 4096))
      (uint32 ((shellVariant 2 (1023 * 4096)).direntries 1).inodeNum) := by decide
  have stuck := systemExecute_program resolved assigned
  rw [if_pos large] at stuck
  exact ⟨shellVariant_wellFormed (by decide) (by decide), _, _, resolved, stuck,
    fun memory => elf.copy_overruns large, elf.not_copiesInside free large⟩

end Ece391.Kernel
