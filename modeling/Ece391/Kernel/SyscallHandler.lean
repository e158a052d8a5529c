import Ece391.Library.Machine32
import Mathlib.Tactic.IntervalCases

/-!
# The system call handler

`syscall_handler` saves three registers and the flags, pushes the three arguments, and
calls through `system_table` when the number in `eax` is from 1 to 10.  The table has nine
words, a null and the eight functions, so the numbers 9 and 10 call through whatever lies
behind it.
-/

namespace Ece391.Kernel

open Ece391.Library

/-- The functions of `system_table`. -/
inductive SystemCall where
  | halt
  | execute
  | read
  | write
  | open
  | close
  | getargs
  | vidmap
  deriving DecidableEq, Repr

/-- `system_table`; `none` is the null in its first place. -/
def systemTable : List (Option SystemCall) :=
  [none, some .halt, some .execute, some .read, some .write, some .open, some .close,
    some .getargs, some .vidmap]

/-- The registers, with the stack that `esp` points to. -/
structure Cpu where
  eax : BitVec 32
  ebx : BitVec 32
  ecx : BitVec 32
  edx : BitVec 32
  esi : BitVec 32
  edi : BitVec 32
  ebp : BitVec 32
  flags : BitVec 32
  stack : Stack

namespace Cpu

def pushl (cpu : Cpu) (word : BitVec 32) : Cpu :=
  { cpu with stack := cpu.stack.push word }

/-- `cmpl`, which changes the flags only. -/
def cmpl (cpu : Cpu) (first second : BitVec 32) : Cpu :=
  { cpu with flags := compareFlags cpu.flags first second }

/-- The pushes at the start of the handler.  The processor has cleared VM and RF on the
way in, so `pushfl` stores the whole flags word. -/
def saved (cpu : Cpu) : Cpu :=
  let callerSaved := ((cpu.pushl cpu.ebp).pushl cpu.edi).pushl cpu.esi
  let flagsSaved := callerSaved.pushl cpu.flags
  ((flagsSaved.pushl cpu.edx).pushl cpu.ecx).pushl cpu.ebx

/-- `teardown` up to its `iret`: the arguments are dropped, which changes flags that
`popfl` then replaces, and the saved words are popped. -/
def teardown (cpu : Cpu) : Cpu :=
  let saved := cpu.stack.drop 3
  { cpu with
    flags := saved.word 0
    esi := (saved.drop 1).word 0
    edi := ((saved.drop 1).drop 1).word 0
    ebp := (((saved.drop 1).drop 1).drop 1).word 0
    stack := (((saved.drop 1).drop 1).drop 1).drop 1 }

end Cpu

/-- An indirect call: the place of the word it goes through, the function the table has
there, and the three arguments its callee finds on the stack.  A call through a word that
is no entry of the table has no function. -/
structure IndirectCall where
  place : Nat
  function : Option SystemCall
  arguments : BitVec 32 × BitVec 32 × BitVec 32

/-- A pass through the handler: the call it made and the registers at `iret`. -/
structure Handling where
  called : Option IndirectCall
  cpu : Cpu

section

variable (callee : Option SystemCall → Cpu → Cpu) (returnAddress : BitVec 32)

/-- `syscall_handler` from its first instruction to its `iret`.  A callee takes the
registers at its first instruction to those after its `ret`. -/
def syscallHandler (cpu : Cpu) : Handling :=
  let saved := cpu.saved
  let low := saved.cmpl saved.eax 0
  if lessOrEqual low.flags then ⟨none, { low with eax := -1 }.teardown⟩
  else
    let high := low.cmpl low.eax 10
    if !lessOrEqual high.flags then ⟨none, { high with eax := -1 }.teardown⟩
    else
      let place := high.eax.toNat
      let function := systemTable[place]?.join
      let entered := high.pushl returnAddress
      ⟨some ⟨place, function,
          entered.stack.word 1, entered.stack.word 2, entered.stack.word 3⟩,
        (callee function entered).teardown⟩

end

/-- The functions follow the C calling convention: they keep `ebx`, `esi`, `edi` and `ebp`,
pop their return address, and leave the words above their three arguments alone, as far
as the frame that the processor pushed. -/
structure CConvention (callee : Option SystemCall → Cpu → Cpu) : Prop where
  pointer : ∀ function cpu,
    (callee (some function) cpu).stack.pointer = cpu.stack.pointer + 4
  registers : ∀ function cpu,
    (callee (some function) cpu).ebx = cpu.ebx ∧ (callee (some function) cpu).esi = cpu.esi ∧
      (callee (some function) cpu).edi = cpu.edi ∧ (callee (some function) cpu).ebp = cpu.ebp
  above : ∀ function cpu i, 3 ≤ i → i < 12 →
    (callee (some function) cpu).stack.word i = cpu.stack.word (i + 1)

/-- The number of a system call. -/
def Numbered (eax : BitVec 32) : Prop :=
  1 ≤ eax.toInt ∧ eax.toInt ≤ 8

/-- The stack, the saved registers, the flags and the words that `iret` pops are as they
were. -/
structure Restored (before after : Cpu) : Prop where
  pointer : after.stack.pointer = before.stack.pointer
  ebp : after.ebp = before.ebp
  esi : after.esi = before.esi
  edi : after.edi = before.edi
  flags : after.flags = before.flags
  frame : ∀ i < 5, after.stack.word i = before.stack.word i

/-- What the handler is to do: it calls the function of its number with the three
arguments, returns -1 for a number without function, and restores what it saved. -/
structure Handled (before : Cpu) (handling : Handling) : Prop where
  entry : ∀ call, handling.called = some call →
    Numbered before.eax ∧ (call.place : Int) = before.eax.toInt ∧
      systemTable[call.place]? = some call.function ∧ call.function ≠ none ∧
      call.arguments = (before.ebx, before.ecx, before.edx)
  served : Numbered before.eax → ∃ call, handling.called = some call
  refused : ¬ Numbered before.eax → handling.called = none ∧ handling.cpu.eax = -1
  restored : Restored before handling.cpu

/-! ## Saving and restoring -/

/-- The words above the arguments are those that were saved. -/
structure Kept (before after : Cpu) : Prop where
  pointer : after.stack.pointer = before.saved.stack.pointer
  words : ∀ i, 3 ≤ i → i < 12 → after.stack.word i = before.saved.stack.word i

section

variable {before after : Cpu}

/-- `teardown` undoes the pushes. -/
theorem Kept.restored (kept : Kept before after) : Restored before after.teardown where
  pointer := by
    have pushed : (before.saved.stack.drop 7).pointer = (before.stack.drop 0).pointer := by
      simp only [Cpu.saved, Cpu.pushl, Stack.pointer_push_drop]
    have empty : (before.stack.drop 0).pointer = before.stack.pointer := BitVec.add_zero _
    rw [← empty, ← pushed, Stack.pointer_drop, ← kept.pointer]
    simp only [Cpu.teardown, Stack.drop_drop, Stack.pointer_drop, Nat.reduceAdd]
  ebp := by
    have saved := kept.words 6 (by decide) (by decide)
    simp only [Cpu.teardown, Stack.word_drop]
    exact saved.trans (by simp [Cpu.saved, Cpu.pushl])
  esi := by
    have saved := kept.words 4 (by decide) (by decide)
    simp only [Cpu.teardown, Stack.word_drop]
    exact saved.trans (by simp [Cpu.saved, Cpu.pushl])
  edi := by
    have saved := kept.words 5 (by decide) (by decide)
    simp only [Cpu.teardown, Stack.word_drop]
    exact saved.trans (by simp [Cpu.saved, Cpu.pushl])
  flags := by
    have saved := kept.words 3 (by decide) (by decide)
    simp only [Cpu.teardown, Stack.word_drop]
    exact saved.trans (by simp [Cpu.saved, Cpu.pushl])
  frame i inside := by
    have saved := kept.words (7 + i) (by omega) (by omega)
    have place : 3 + (1 + (1 + (1 + (1 + i)))) = 7 + i := by omega
    simp only [Cpu.teardown, Stack.word_drop, place]
    refine saved.trans ?_
    interval_cases i <;> simp [Cpu.saved, Cpu.pushl]

/-- Without a call nothing below the saved words has changed. -/
theorem Kept.refl (same : after.stack = before.saved.stack) : Kept before after where
  pointer := congrArg Stack.pointer same
  words i _ _ := by rw [same]

/-- A callee that follows the convention keeps them too. -/
theorem Kept.call {callee : Option SystemCall → Cpu → Cpu} (convention : CConvention callee)
    (function : SystemCall) {returnAddress : BitVec 32}
    (entered : after.stack = before.saved.stack.push returnAddress) :
    Kept before (callee (some function) after) where
  pointer := by
    rw [convention.pointer, entered, Stack.pointer_push, BitVec.sub_add_cancel]
  words i low high := by
    rw [convention.above function after i low high, entered,
      Stack.word_push_succ _ _ (by omega)]

end

/-! ## The two exits -/

section

variable {callee : Option SystemCall → Cpu → Cpu} {returnAddress : BitVec 32} {cpu : Cpu}

theorem saved_eax : cpu.saved.eax = cpu.eax := by
  simp only [Cpu.saved, Cpu.pushl]

/-- A number outside the range of the two tests reaches `teardown` with -1. -/
theorem syscallHandler_invalid (outside : ¬ (1 ≤ cpu.eax.toInt ∧ cpu.eax.toInt ≤ 10)) :
    ∃ invalid : Cpu, syscallHandler callee returnAddress cpu = ⟨none, invalid.teardown⟩ ∧
      invalid.stack = cpu.saved.stack ∧ invalid.eax = -1 := by
  have zero : (0 : BitVec 32).toInt = 0 := rfl
  have ten : (10 : BitVec 32).toInt = 10 := rfl
  simp only [syscallHandler, Cpu.cmpl, lessOrEqual_compareFlags, saved_eax, zero, ten]
  by_cases low : cpu.eax.toInt ≤ 0
  · rw [if_pos (by simpa using low)]
    exact ⟨_, rfl, rfl, rfl⟩
  · have high : ¬ cpu.eax.toInt ≤ 10 := by omega
    rw [if_neg (by simpa using low), if_pos (by simpa using high)]
    exact ⟨_, rfl, rfl, rfl⟩

/-- A number inside it calls through its word of the table. -/
theorem syscallHandler_call (low : 1 ≤ cpu.eax.toInt) (high : cpu.eax.toInt ≤ 10) :
    ∃ entered : Cpu, syscallHandler callee returnAddress cpu =
        ⟨some ⟨cpu.eax.toNat, systemTable[cpu.eax.toNat]?.join, cpu.ebx, cpu.ecx, cpu.edx⟩,
          (callee systemTable[cpu.eax.toNat]?.join entered).teardown⟩ ∧
      entered.stack = cpu.saved.stack.push returnAddress := by
  have zero : (0 : BitVec 32).toInt = 0 := rfl
  have ten : (10 : BitVec 32).toInt = 10 := rfl
  simp only [syscallHandler, Cpu.cmpl, lessOrEqual_compareFlags, saved_eax, zero, ten]
  have positive : ¬ cpu.eax.toInt ≤ 0 := by omega
  rw [if_neg (by simpa using positive), if_neg (by simpa using high)]
  refine ⟨{ cpu.saved with
    flags := compareFlags (compareFlags cpu.saved.flags cpu.eax 0) cpu.eax 10
    stack := cpu.saved.stack.push returnAddress }, ?_, rfl⟩
  simp [Cpu.pushl, Cpu.saved]

theorem toNat_of_small (low : 1 ≤ cpu.eax.toInt) : (cpu.eax.toNat : Int) = cpu.eax.toInt := by
  rw [BitVec.toInt_eq_toNat_cond] at low ⊢
  split at low
  · rw [if_pos (by assumption)]
  · omega

/-- The table has a function for the numbers from 1 to 8. -/
theorem systemTable_numbered {place : Nat} (low : 1 ≤ place) (high : place ≤ 8) :
    ∃ function, systemTable[place]? = some (some function) := by
  interval_cases place <;> exact ⟨_, rfl⟩

end

/-! ## Every number -/

/-- With callees that follow the C calling convention the handler does what it is to do
for every number but 9 and 10. -/
theorem syscallHandler_handled {callee : Option SystemCall → Cpu → Cpu}
    (convention : CConvention callee) (returnAddress : BitVec 32) (cpu : Cpu) :
    Handled cpu (syscallHandler callee returnAddress cpu) ↔ cpu.eax ≠ 9 ∧ cpu.eax ≠ 10 := by
  constructor
  · intro handled
    have inside (called : 1 ≤ cpu.eax.toInt ∧ cpu.eax.toInt ≤ 10) : Numbered cpu.eax := by
      obtain ⟨entered, handling, -⟩ :=
        @syscallHandler_call callee returnAddress cpu called.1 called.2
      exact (handled.entry _ (congrArg Handling.called handling)).1
    constructor
    all_goals
      intro number
      rw [number] at inside
      have numbered := inside (by decide)
      exact absurd numbered.2 (by decide)
  · rintro ⟨nine, ten⟩
    by_cases numbered : Numbered cpu.eax
    · obtain ⟨low, high⟩ := numbered
      have place := toNat_of_small low
      obtain ⟨function, listed⟩ := @systemTable_numbered cpu.eax.toNat (by omega) (by omega)
      obtain ⟨entered, handling, stack⟩ :=
        @syscallHandler_call callee returnAddress cpu low (by omega)
      rw [handling, listed]
      refine ⟨?_, fun _ => ⟨_, rfl⟩, fun other => absurd ⟨low, high⟩ other,
        (Kept.call convention function stack).restored⟩
      intro call called
      obtain rfl := Option.some.inj called
      exact ⟨⟨low, high⟩, place, listed, by simp, rfl⟩
    · have outside : ¬ (1 ≤ cpu.eax.toInt ∧ cpu.eax.toInt ≤ 10) := by
        rintro ⟨low, high⟩
        have place := toNat_of_small low
        have number : cpu.eax.toNat = 9 ∨ cpu.eax.toNat = 10 := by
          have above : ¬ cpu.eax.toInt ≤ 8 := fun bound => numbered ⟨low, bound⟩
          omega
        cases number with
        | inl same => exact nine (BitVec.eq_of_toNat_eq same)
        | inr same => exact ten (BitVec.eq_of_toNat_eq same)
      obtain ⟨invalid, handling, stack, ret⟩ :=
        @syscallHandler_invalid callee returnAddress cpu outside
      rw [handling]
      refine ⟨fun call called => by simp at called, fun other => absurd other numbered,
        fun _ => ⟨rfl, ret⟩, (Kept.refl stack).restored⟩

/-- Functions that refuse their arguments. -/
def refusingCallee (_ : Option SystemCall) (cpu : Cpu) : Cpu :=
  { cpu with eax := -1, stack := cpu.stack.drop 1 }

theorem refusingCallee_convention : CConvention refusingCallee where
  pointer _ _ := rfl
  registers _ _ := ⟨rfl, rfl, rfl, rfl⟩
  above function cpu i _ _ := by
    simp [refusingCallee, Nat.add_comm]

/-- A number with null arguments. -/
def nullArguments (number : BitVec 32) : Cpu :=
  ⟨number, 0, 0, 0, 0, 0, 0, 0x2, ⟨0x800000, fun _ => 0⟩⟩

/-- `getargs` into a null buffer is handled as it should be. -/
theorem syscallHandler_getargs :
    Handled (nullArguments 7) (syscallHandler refusingCallee 0x401000 (nullArguments 7)) :=
  (syscallHandler_handled refusingCallee_convention 0x401000 (nullArguments 7)).mpr
    ⟨by decide, by decide⟩

/-- The number 9 calls through the word behind the table. -/
theorem syscallHandler_nine :
    ¬ Handled (nullArguments 9)
      (syscallHandler refusingCallee 0x401000 (nullArguments 9)) := by
  intro handled
  obtain ⟨entered, handling, -⟩ := @syscallHandler_call refusingCallee 0x401000
    (nullArguments 9) (by decide) (by decide)
  have called := handled.entry _ (congrArg Handling.called handling)
  exact absurd called.1.2 (by decide)

end Ece391.Kernel
