import Ece391.Kernel.SyscallHandler

/-!
# System calls from a program

A program calls a function of its library, which loads the arguments into registers and interrupts
into the kernel; the handler there calls the function of the number and returns to the library,
which returns to the program.  For the program this is a call of the kernel's function: its
arguments arrive, its result comes back, and what the program may rely on is as it was.
-/

namespace Ece391.Programs

open Ece391.Library Ece391.Kernel

/-! ## The way into the kernel and back -/

/-- `esp0` of the TSS, the selectors that are pushed, and the return addresses within the library
and the handler. -/
structure Gateway where
  esp0 : BitVec 32
  ss : BitVec 32
  cs : BitVec 32
  behindInt : BitVec 32
  behindCall : BitVec 32

/-- The flags that an interrupt gate clears: TF, IF, NT, RF and VM. -/
def gateFlags (flags : BitVec 32) : BitVec 32 :=
  flags &&& ~~~(0x34300 : BitVec 32)

/-- `int` in a program: the processor switches to the stack of the kernel and pushes where to
return to. -/
def Gateway.interrupt (gateway : Gateway) (cpu : Cpu) : Cpu :=
  let kernel : Stack := ⟨gateway.esp0, cpu.stack.memory⟩
  { cpu with
    flags := gateFlags cpu.flags
    stack := ((((kernel.push gateway.ss).push cpu.stack.pointer).push cpu.flags).push
      gateway.cs).push gateway.behindInt }

/-- `iret` to a program: the address to go on at, and the registers. -/
def iret (cpu : Cpu) : BitVec 32 × Cpu :=
  (cpu.stack.word 0,
    { cpu with flags := cpu.stack.word 2, stack := ⟨cpu.stack.word 3, cpu.stack.memory⟩ })

/-- A call of the library: the call that the kernel made, where the program goes on, and the
registers there. -/
structure LibraryCall where
  called : Option IndirectCall
  behindInt : BitVec 32
  eip : BitVec 32
  cpu : Cpu

/-- The registers of `DO_CALL` at its `int`. -/
def loaded (number : BitVec 32) (cpu : Cpu) : Cpu :=
  let pushed := cpu.pushl cpu.ebx
  { pushed with
    eax := number
    ebx := pushed.stack.word 2
    ecx := pushed.stack.word 3
    edx := pushed.stack.word 4 }

/-- `DO_CALL` from its first instruction to its `ret`. -/
def doCall (callee : Option SystemCall → Cpu → Cpu) (gateway : Gateway) (number : BitVec 32)
    (cpu : Cpu) : LibraryCall :=
  let handling :=
    syscallHandler callee gateway.behindCall (gateway.interrupt (loaded number cpu))
  let (behindInt, back) := iret handling.cpu
  let popped := { back with ebx := back.stack.word 0, stack := back.stack.drop 1 }
  ⟨handling.called, behindInt, popped.stack.word 0,
    { popped with stack := popped.stack.drop 1 }⟩

/-- `_start` behind its call of `main`: two null words, the result of `main`, and a call of
`ece391_halt`. -/
def startTail (callee : Option SystemCall → Cpu → Cpu) (gateway : Gateway)
    (returnAddress : BitVec 32) (cpu : Cpu) : LibraryCall :=
  doCall callee gateway 1
    ((((cpu.pushl 0).pushl 0).pushl cpu.eax).pushl returnAddress)

/-! ## What a program may rely on -/

/-- A program has called a library function and goes on behind the call. -/
structure Returned (before : Cpu) (call : LibraryCall) : Prop where
  eip : call.eip = before.stack.word 0
  pointer : call.cpu.stack.pointer = before.stack.pointer + 4
  ebx : call.cpu.ebx = before.ebx
  esi : call.cpu.esi = before.esi
  edi : call.cpu.edi = before.edi
  ebp : call.cpu.ebp = before.ebp
  flags : call.cpu.flags = before.flags

/-- The two words of the frame of a library function: the saved register and the return address. -/
def framePlaces (cpu : Cpu) : List (BitVec 32) :=
  [cpu.stack.pointer - 4, cpu.stack.pointer]

/-- The kernel leaves the frame alone: its stack lies elsewhere, and with the arguments of the call
its functions store nothing there. -/
structure FrameKept (callee : Option SystemCall → Cpu → Cpu) (gateway : Gateway) (cpu : Cpu) :
    Prop where
  clear : ∀ place ∈ framePlaces cpu, (⟨gateway.esp0, cpu.stack.memory⟩ : Stack).Clear 13 place
  stores : ∀ place ∈ framePlaces cpu, ∀ function entered,
    entered.stack.word 1 = cpu.stack.word 1 → entered.stack.word 2 = cpu.stack.word 2 →
    entered.stack.word 3 = cpu.stack.word 3 →
    loadWord (callee (some function) entered).stack.memory place =
      loadWord entered.stack.memory place

section

variable {callee : Option SystemCall → Cpu → Cpu} {gateway : Gateway} {number : BitVec 32}
variable {cpu : Cpu}

/-- The arguments are loaded from above the return address. -/
theorem loaded_arguments (number : BitVec 32) (cpu : Cpu) :
    (loaded number cpu).ebx = cpu.stack.word 1 ∧ (loaded number cpu).ecx = cpu.stack.word 2 ∧
      (loaded number cpu).edx = cpu.stack.word 3 := by
  simp [loaded, Cpu.pushl]

/-- The kernel calls through the place of the number, with the three arguments. -/
theorem doCall_called (low : 1 ≤ number.toInt) (high : number.toInt ≤ 10) :
    (doCall callee gateway number cpu).called =
      some ⟨number.toNat, systemTable[number.toNat]?.join, cpu.stack.word 1, cpu.stack.word 2,
        cpu.stack.word 3⟩ := by
  obtain ⟨first, second, third⟩ := loaded_arguments number cpu
  obtain ⟨entered, handling, -⟩ := @syscallHandler_call callee gateway.behindCall
    (gateway.interrupt (loaded number cpu)) low high
  have called := congrArg Handling.called handling
  rw [← first, ← second, ← third]
  exact called

/-- The words that the processor pushes. -/
theorem interrupt_frame (gateway : Gateway) (cpu : Cpu) :
    (gateway.interrupt cpu).stack.word 0 = gateway.behindInt ∧
      (gateway.interrupt cpu).stack.word 2 = cpu.flags ∧
        (gateway.interrupt cpu).stack.word 3 = cpu.stack.pointer := by
  simp [Gateway.interrupt]

/-- Up to the kernel's function the words of the frame are as the library has left them. -/
theorem entered_frame {entered : Cpu} {place : BitVec 32}
    (clear : (⟨gateway.esp0, cpu.stack.memory⟩ : Stack).Clear 13 place)
    (stack : entered.stack = (gateway.interrupt cpu).saved.stack.push gateway.behindCall) :
    loadWord entered.stack.memory place = loadWord cpu.stack.memory place := by
  let words := [gateway.ss, cpu.stack.pointer, cpu.flags, gateway.cs, gateway.behindInt, cpu.ebp,
    cpu.edi, cpu.esi, gateFlags cpu.flags, cpu.edx, cpu.ecx, cpu.ebx, gateway.behindCall]
  rw [stack]
  exact @Stack.Clear.loadWord_pushes ⟨gateway.esp0, cpu.stack.memory⟩ place words clear

/-- The function of the kernel finds the arguments. -/
theorem entered_arguments {entered : Cpu}
    (stack : entered.stack =
      (gateway.interrupt (loaded number cpu)).saved.stack.push gateway.behindCall) :
    entered.stack.word 1 = cpu.stack.word 1 ∧ entered.stack.word 2 = cpu.stack.word 2 ∧
      entered.stack.word 3 = cpu.stack.word 3 := by
  obtain ⟨first, second, third⟩ := loaded_arguments number cpu
  rw [← first, ← second, ← third, stack]
  simp [Cpu.saved, Cpu.pushl, Gateway.interrupt]

/-- The frame of a library function, at its `int`. -/
theorem loaded_frame (number : BitVec 32) (cpu : Cpu) :
    loadWord (loaded number cpu).stack.memory (cpu.stack.pointer - 4) = cpu.ebx ∧
      loadWord (loaded number cpu).stack.memory cpu.stack.pointer = cpu.stack.word 0 := by
  constructor
  · exact loadWord_storeWord ..
  · have second : (cpu.stack.push cpu.ebx).word 1 = cpu.stack.word 0 :=
      Stack.word_push_succ _ _ (by decide)
    have place : cpu.stack.pointer - 4 + BitVec.ofNat 32 (4 * 1) = cpu.stack.pointer :=
      BitVec.sub_add_cancel ..
    rw [Stack.word, Stack.pointer_push, place] at second
    exact second

/-- The kernel has answered a call: its function has found the arguments, and its result and what it
has stored have come back. -/
structure CallServed (callee : Option SystemCall → Cpu → Cpu) (function : SystemCall)
    (arguments : BitVec 32 × BitVec 32 × BitVec 32) (after : Cpu) : Prop where
  found : ∃ entered : Cpu,
    (entered.stack.word 1, entered.stack.word 2, entered.stack.word 3) = arguments ∧
      after.eax = (callee (some function) entered).eax ∧
        after.stack.memory = (callee (some function) entered).stack.memory

/-- The way back from the handler to the program. -/
theorem doCall_back {called : Option IndirectCall} {back : Cpu}
    (handling : syscallHandler callee gateway.behindCall
      (gateway.interrupt (loaded number cpu)) = ⟨called, back⟩) :
    doCall callee gateway number cpu =
      ⟨called, back.stack.word 0,
        (⟨back.stack.word 3, back.stack.memory⟩ : Stack).word 1,
        { back with
          ebx := (⟨back.stack.word 3, back.stack.memory⟩ : Stack).word 0
          flags := back.stack.word 2
          stack := (⟨back.stack.word 3, back.stack.memory⟩ : Stack).drop 2 }⟩ := by
  rw [doCall, handling]
  simp only [iret, Stack.word_drop, Stack.drop_drop]

/-- For a program a function of its library is the kernel's function of the number: it is called
with the three arguments, its result and what it has stored come back, and the program goes on
behind its call with its registers, its flags and its stack. -/
theorem doCall_returns (convention : CConvention callee) (low : 1 ≤ number.toInt)
    (high : number.toInt ≤ 8) (kept : FrameKept callee gateway cpu) :
    ∃ function, systemTable[number.toNat]? = some (some function) ∧
      (doCall callee gateway number cpu).called = some ⟨number.toNat, some function,
        cpu.stack.word 1, cpu.stack.word 2, cpu.stack.word 3⟩ ∧
      CallServed callee function (cpu.stack.word 1, cpu.stack.word 2, cpu.stack.word 3)
        (doCall callee gateway number cpu).cpu ∧
      (doCall callee gateway number cpu).behindInt = gateway.behindInt ∧
      Returned cpu (doCall callee gateway number cpu) := by
  have place : (number.toNat : Int) = number.toInt :=
    @toNat_of_small (loaded number cpu) low
  have called := @doCall_called callee gateway number cpu low (by omega)
  obtain ⟨function, listed⟩ := @systemTable_numbered number.toNat (by omega) (by omega)
  have inside : (gateway.interrupt (loaded number cpu)).eax.toInt ≤ 10 :=
    Int.le_trans high (by decide)
  obtain ⟨entered, handling, stack⟩ := @syscallHandler_call callee gateway.behindCall
    (gateway.interrupt (loaded number cpu)) low inside
  have entry : (systemTable[(gateway.interrupt (loaded number cpu)).eax.toNat]?).join =
      some function := congrArg Option.join listed
  rw [entry] at handling
  rw [listed] at called
  obtain ⟨first, second, third⟩ := entered_arguments stack
  have restored := (Kept.call convention function stack).restored
  obtain ⟨eip, flags, pointer⟩ := interrupt_frame gateway (loaded number cpu)
  have frame (place : BitVec 32) (inside : place ∈ framePlaces cpu) :
      loadWord (callee (some function) entered).teardown.stack.memory place =
        loadWord (loaded number cpu).stack.memory place :=
    (kept.stores place inside function entered first second third).trans
      (entered_frame (kept.clear place inside) stack)
  obtain ⟨saved, back⟩ := loaded_frame number cpu
  have result := doCall_back handling
  rw [(restored.frame 0 (by decide)).trans eip, (restored.frame 2 (by decide)).trans flags,
    (restored.frame 3 (by decide)).trans pointer] at result
  have bottom := (frame _ List.mem_cons_self).trans saved
  have top := (frame _ (List.mem_cons_of_mem _ List.mem_cons_self)).trans back
  have above : cpu.stack.pointer - 4 + BitVec.ofNat 32 (4 * 1) = cpu.stack.pointer :=
    BitVec.sub_add_cancel ..
  have below : cpu.stack.pointer - 4 + BitVec.ofNat 32 (4 * 0) = cpu.stack.pointer - 4 :=
    BitVec.add_zero _
  have eight : cpu.stack.pointer - 4 + BitVec.ofNat 32 (4 * 2) = cpu.stack.pointer + 4 := by
    bv_omega
  refine ⟨function, listed, called, ⟨entered, ?arguments, ?result, ?memory⟩,
    congrArg LibraryCall.behindInt result, ?returned⟩
  case arguments => rw [first, second, third]
  case result => exact congrArg (fun call => call.cpu.eax) result
  case memory => exact congrArg (fun call => call.cpu.stack.memory) result
  case returned =>
    exact {
      eip := (congrArg LibraryCall.eip result).trans ((congrArg _ above).trans top)
      pointer := (congrArg (fun call => call.cpu.stack.pointer) result).trans eight
      ebx := (congrArg (fun call => call.cpu.ebx) result).trans ((congrArg _ below).trans bottom)
      esi := (congrArg (fun call => call.cpu.esi) result).trans restored.esi
      edi := (congrArg (fun call => call.cpu.edi) result).trans restored.edi
      ebp := (congrArg (fun call => call.cpu.ebp) result).trans restored.ebp
      flags := congrArg (fun call => call.cpu.flags) result }

/-- A program that returns from `main` halts with the result as its status. -/
theorem startTail_halts (returnAddress : BitVec 32) :
    (startTail callee gateway returnAddress cpu).called =
      some ⟨1, some .halt, cpu.eax, 0, 0⟩ := by
  rw [startTail, doCall_called (by decide) (by decide)]
  simp [Cpu.pushl, systemTable]

end

/-- A kernel with its stack below 8 MB. -/
def kernelGateway : Gateway :=
  ⟨0x7FFFFC, 0x2B, 0x23, 0x8048200, 0x401000⟩

/-- A program with its stack at the end of its page. -/
def programCpu : Cpu :=
  { nullArguments 0 with stack := ⟨0x83FFFE0, fun _ => 0⟩ }

theorem programCpu_frame : FrameKept refusingCallee kernelGateway programCpu where
  clear place inside := by
    have places : place = 0x83FFFDC ∨ place = 0x83FFFE0 := by
      simpa [framePlaces, programCpu] using inside
    rcases places with rfl | rfl <;> simp [Stack.Clear, kernelGateway]
  stores _ _ _ _ _ _ _ := rfl

/-- `ece391_getargs` with null arguments. -/
theorem doCall_returns_getargs :
    (doCall refusingCallee kernelGateway 7 programCpu).cpu.eax = -1 ∧
      Returned programCpu (doCall refusingCallee kernelGateway 7 programCpu) := by
  obtain ⟨function, -, -, ⟨entered, -, result, -⟩, -, returned⟩ :=
    @doCall_returns refusingCallee kernelGateway 7 programCpu refusingCallee_convention
      (by decide) (by decide) programCpu_frame
  exact ⟨result, returned⟩

end Ece391.Programs
