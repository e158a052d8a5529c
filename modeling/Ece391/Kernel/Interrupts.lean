import Ece391.Kernel.InterruptMasks
import Ece391.Library.Preemption

/-!
# Interrupts while the kernel runs

The kernel boots with interrupts off, sets up the controllers, and enables the clock and then the
keyboard.  From then on interrupts may come whenever the flag is set, also inside a handler that has
set it again: the keyboard handler sets it before it ends its interrupt, and runs a shell, between
two ends of its interrupt, when a key starts a terminal.

The bodies of the handlers are taken not to fault.  They can: `terminal_switch`, Backspace and
Ctrl-L may store to a page that is not mapped, and the page fault then halts a process while the
keyboard is still in service.

No interrupt is ever delivered while another one is in service, each one that is delivered finds
its handler, and as long as no handler faults the code that runs always comes to a point where
nothing is in service.  After a fault of the keyboard's handler nothing is delivered while only
other code runs.
-/

namespace Ece391.Kernel

open Ece391.Library

/-! ## The handlers -/

/-- Writes to ports. -/
def outs (writes : List Outb) : List (Instruction Outb) :=
  writes.map .write

-- The accesses of a handler to its device and to memory are `work`, which does not fault.

/-- `rtc_handler`: it selects a register of the clock, reads it, and sets `in_count`. -/
def rtcHandler : List (Instruction Outb) :=
  [.cli, .write ⟨0x0C, 0x70⟩, .work, .work] ++ outs (sendEoi 8) ++ [.sti]

/-- `keyboard_handler` for a key that starts no terminal. -/
def keyboardHandler : List (Instruction Outb) :=
  [.cli, .work, .sti] ++ outs (sendEoi 1)

/-- `keyboard_handler` for a key that starts a terminal: `terminal_init` ends the interrupt and
executes a shell, which may return. -/
def keyboardHandlerStarting : List (Instruction Outb) :=
  [.cli, .work] ++ outs (sendEoi 1) ++ [.process, .sti] ++ outs (sendEoi 1)

/-- `LINK`: `pushal`, `pushfl`, the number and the call, and then back. -/
def link (handler : List (Instruction Outb)) : List (Instruction Outb) :=
  [.work, .pushfl, .work] ++ handler ++ [.work, .popfl, .work, .iret]

/-- The entry points of the interrupt descriptor table. -/
inductive Linkage where
  | exception (number : Nat)
  | keyboardHandlerLink
  | rtcHandlerLink
  | syscallHandler
  deriving DecidableEq, Repr

/-- An interrupt gate, through which the flag is cleared. -/
structure Gate where
  present : Bool
  dpl : Nat
  handler : Option Linkage

/-- `idt` behind `init_IDT`.  Vector 20 has the linkage of vector 15. -/
def initIDT (vector : BitVec 8) : Gate :=
  let i := vector.toNat
  { present := (i < 21 && i != 0x15) || i == 0x80 || i == 0x21 || i == 0x28
    dpl := if i = 0x80 then 3 else 0
    handler :=
      if i < 20 then some (.exception i)
      else if i = 20 then some (.exception 15)
      else if i = 0x21 then some .keyboardHandlerLink
      else if i = 0x28 then some .rtcHandlerLink
      else if i = 0x80 then some .syscallHandler
      else none }

/-- The code that a vector from the controllers leads to. -/
def entered (vector : Option (BitVec 8)) (code : List (Instruction Outb)) : Prop :=
  ∃ number, vector = some number ∧ (initIDT number).present = true ∧
    ((initIDT number).handler = some .keyboardHandlerLink ∧
        (code = link keyboardHandler ∨ code = link keyboardHandlerStarting) ∨
      (initIDT number).handler = some .rtcHandlerLink ∧ code = link rtcHandler)

/-! ## The boot -/

/-- `rtc_init`, where register B held `prev`. -/
def rtcInit (prev : BitVec 8) (masks : IrqMasks) : IrqMasks × List (Instruction Outb) :=
  let (masks, first) := enableIrq 8 masks
  let (masks, second) := enableIrq 2 masks
  (masks, [.cli, .write ⟨0x8B, 0x70⟩, .work, .write ⟨0x8B, 0x70⟩, .write ⟨prev ||| 0x40, 0x71⟩] ++
    outs first ++ outs second ++ [.sti])

/-- `keyboard_initialize`. -/
def keyboardInitialize (masks : IrqMasks) : IrqMasks × List (Instruction Outb) :=
  let (masks, writes) := enableIrq 1 masks
  (masks, outs writes ++ [.work])

/-- `entry` from `init_IDT` on, and then whatever the kernel runs. -/
def entry (prev : BitVec 8) : List (Instruction Outb) :=
  let (masks, controllers) := i8259Init .initial
  let (masks, clock) := rtcInit prev masks
  let (_, keyboard) := keyboardInitialize masks
  [.work] ++ outs controllers ++ clock ++ keyboard ++ [.work, .sti, .process]

theorem slaveWire_inside : 2 < 8 := by
  decide

/-- The line of the first controller that the second one is wired to. -/
def slaveWire : Fin 8 :=
  ⟨2, slaveWire_inside⟩

/-- The two controllers, with lines of the first or of the second one. -/
def controllers (answers : BitVec 8 → Fin 8 → Bool) :
    Device Cascade (Fin 8 ⊕ Fin 8) Outb (Option (BitVec 8)) where
  raise
    | .inl line, pair => { pair with master := pair.master.raise line }
    | .inr line, pair => { pair with slave := pair.slave.raise line }
  write := Outb.apply
  acknowledge := Cascade.acknowledge slaveWire answers

/-! ## The views that are allowed -/

/-- The controllers with some lines of the first one masked and in service. -/
def configured (masked inService : BitVec 8) : Cascade :=
  ⟨⟨0, masked, inService, 0x20, 0x04, 0x01, .nothing⟩, ⟨0, 0xFE, 0, 0x28, 0x28, 0x01, .nothing⟩⟩

/-- The flag is set while nothing is in service, before and after the keyboard has been enabled, and
while the keyboard is in service. -/
def Allowed (view : Cascade) : Prop :=
  view = configured 0xFB 0 ∨ view = configured 0xF9 0 ∨ view = configured 0xF9 0x02

/-- What a write does without the requests. -/
def writeQuiet (write : Outb) (view : Cascade) : Cascade :=
  (write.apply view).quiet

section

variable {pair : Cascade} {answers : BitVec 8 → Fin 8 → Bool}

theorem quiet_apply (write : Outb) (pair : Cascade) :
    (write.apply pair).quiet = writeQuiet write pair.quiet := by
  rw [writeQuiet, Outb.apply, Outb.apply]
  split
  · exact congrArg (Cascade.mk · _) (Controller.quiet_command _)
  split
  · exact congrArg (Cascade.mk · _) (Controller.quiet_data _)
  split
  · exact congrArg (Cascade.mk _) (Controller.quiet_command _)
  split
  · exact congrArg (Cascade.mk _) (Controller.quiet_data _)
  · rfl

theorem quiet_raise (line : Fin 8 ⊕ Fin 8) (pair : Cascade) :
    ((controllers answers).raise line pair).quiet = pair.quiet := by
  cases line <;> rfl

/-- The code of the boot. -/
theorem entry_eq (prev : BitVec 8) :
    entry prev = [.work, .write ⟨0xFF, 0x21⟩, .write ⟨0xFF, 0xA1⟩, .write ⟨0x11, 0x20⟩,
      .write ⟨0x11, 0xA0⟩, .write ⟨0x20, 0x21⟩, .write ⟨0x28, 0xA1⟩, .write ⟨0x04, 0x21⟩,
      .write ⟨0x28, 0xA1⟩, .write ⟨0x01, 0x21⟩, .write ⟨0x01, 0xA1⟩, .write ⟨0xFF, 0x21⟩,
      .write ⟨0xFF, 0xA1⟩, .write ⟨0xFB, 0x21⟩, .cli, .write ⟨0x8B, 0x70⟩, .work,
      .write ⟨0x8B, 0x70⟩, .write ⟨prev ||| 0x40, 0x71⟩, .write ⟨0xFE, 0xA1⟩, .write ⟨0xFB, 0x21⟩,
      .sti, .write ⟨0xF9, 0x21⟩, .work, .work, .sti, .process] :=
  rfl

/-- The controllers when the clock has been enabled; the first bytes for the masks may still have
been words of an initialisation. -/
def clockEnabled (pair : Cascade) : Cascade :=
  ⟨⟨0, 0xFB, (pair.quiet.master.data 0xFF).inService, 0x20, 0x04, 0x01, .nothing⟩,
    ⟨0, 0xFE, (pair.quiet.slave.data 0xFF).inService, 0x28, 0x28, 0x01, .nothing⟩⟩

/-- The boot is disciplined. -/
theorem entry_disciplined (settled : pair.Settled) (prev : BitVec 8) :
    Disciplined writeQuiet Allowed (configured 0xF9 0) pair.quiet false [] (entry prev) := by
  have clock : clockEnabled pair = configured 0xFB 0 := by
    have first : (pair.quiet.master.data 0xFF).inService = 0 :=
      (data_inService _).trans settled.1
    have second : (pair.quiet.slave.data 0xFF).inService = 0 :=
      (data_inService _).trans settled.2
    rw [clockEnabled, first, second]
    rfl
  have keyboard : writeQuiet ⟨0xF9, 0x21⟩ (clockEnabled pair) = configured 0xF9 0 := by
    rw [clock]
    rfl
  rw [entry_eq]
  simp only [Disciplined, Bool.false_eq_true, false_implies, true_and, forall_const]
  exact ⟨.inl clock, .inr (.inl keyboard), .inr (.inl keyboard), .inr (.inl keyboard), keyboard⟩

/-- The controllers with the clock in service. -/
def clockServed (masked : BitVec 8) : Cascade :=
  ⟨(configured masked 0x04).master, ⟨0, 0xFE, 0x01, 0x28, 0x28, 0x01, .nothing⟩⟩

theorem rtcHandler_disciplined {masked : BitVec 8} (enabled : masked = 0xFB ∨ masked = 0xF9) :
    Disciplined writeQuiet Allowed (configured masked 0) (clockServed masked) false []
      (link rtcHandler) := by
  have code : link rtcHandler = [.work, .pushfl, .work, .cli, .write ⟨0x0C, 0x70⟩, .work, .work,
      .write ⟨0x60, 0xA0⟩, .write ⟨0x62, 0x20⟩, .sti, .work, .popfl, .work, .iret] := rfl
  rw [code]
  simp only [Disciplined, Bool.false_eq_true, false_implies, true_and, and_true]
  rcases enabled with rfl | rfl
  · exact ⟨.inl rfl, rfl⟩
  · exact ⟨.inr (.inl rfl), rfl⟩

theorem keyboardHandler_disciplined :
    Disciplined writeQuiet Allowed (configured 0xF9 0) (configured 0xF9 0x02) false []
      (link keyboardHandler) := by
  have code : link keyboardHandler = [.work, .pushfl, .work, .cli, .work, .sti,
      .write ⟨0x61, 0x20⟩, .work, .popfl, .work, .iret] := rfl
  rw [code]
  simp only [Disciplined, Bool.false_eq_true, false_implies, true_and, and_true, forall_const]
  exact ⟨.inr (.inr rfl), .inr (.inl rfl), rfl⟩

theorem keyboardHandlerStarting_disciplined :
    Disciplined writeQuiet Allowed (configured 0xF9 0) (configured 0xF9 0x02) false []
      (link keyboardHandlerStarting) := by
  have code : link keyboardHandlerStarting = [.work, .pushfl, .work, .cli, .work,
      .write ⟨0x61, 0x20⟩, .process, .sti, .write ⟨0x61, 0x20⟩, .work, .popfl, .work, .iret] := rfl
  rw [code]
  simp only [Disciplined, Bool.false_eq_true, false_implies, true_and, and_true, forall_const]
  exact ⟨.inr (.inl rfl), .inr (.inl rfl), .inr (.inl rfl), rfl⟩

/-! ## Deliveries -/

/-- The only line of the slave that is ever enabled is the one of the clock. -/
theorem slave_pending {masked inService : BitVec 8}
    (view : pair.quiet = configured masked inService) {source : Fin 8}
    (pending : pair.slave.pending = some source) : source = 0 := by
  obtain ⟨-, unmasked, -⟩ := Controller.pending_some pending
  have mask : pair.slave.masked = 0xFE := congrArg (·.slave.masked) view
  rw [mask] at unmasked
  exact (by decide : ∀ line : Fin 8, (0xFE : BitVec 8).getLsbD line = false → line = 0) _ unmasked

/-- The slave delivers exactly the clock, when nothing is in service. -/
theorem slave_pending_iff {masked inService : BitVec 8}
    (view : pair.quiet = configured masked inService) :
    pair.slave.pending.isSome ↔ pair.slave.requested.getLsbD 0 = true := by
  have mask : pair.slave.masked = 0xFE := congrArg (·.slave.masked) view
  have idle : pair.slave.inService = 0 := congrArg (·.slave.inService) view
  constructor
  · intro some_
    obtain ⟨source, pending⟩ := Option.isSome_iff_exists.mp some_
    obtain rfl := slave_pending view pending
    exact (Controller.pending_some pending).1
  · intro requested
    refine @Controller.pending_isSome pair.slave 0 requested (by rw [mask]; decide) ?_
    intro before _
    rw [idle]
    simp

/-- The line of the master that is delivered is the one of the keyboard, or that of the slave. -/
theorem master_pending {masked inService : BitVec 8}
    (enabled : masked = 0xFB ∨ masked = 0xF9) (view : pair.quiet = configured masked inService)
    {line : Fin 8} (pending : (pair.input slaveWire).pending = some line) :
    masked = 0xF9 ∧ line = 1 ∨ line = 2 ∧ pair.slave.pending = some 0 := by
  obtain ⟨requested, unmasked, -⟩ := Controller.pending_some pending
  have mask : (pair.input slaveWire).masked = masked := congrArg (·.master.masked) view
  have clock (second : line = 2) : pair.slave.pending = some 0 := by
    subst second
    cases source : pair.slave.pending with
    | some source_ => rw [slave_pending view source]
    | none =>
        have delivers := Cascade.input_wire.symm.trans requested
        rw [source] at delivers
        cases delivers
  rw [mask] at unmasked
  rcases enabled with rfl | rfl
  · have second := (by decide : ∀ line : Fin 8, (0xFB : BitVec 8).getLsbD line = false → line = 2)
      line unmasked
    exact .inr ⟨second, clock second⟩
  · have lines : ∀ line : Fin 8, (0xF9 : BitVec 8).getLsbD line = false → line = 1 ∨ line = 2 := by
      decide
    rcases lines line unmasked with first | second
    · exact .inl ⟨rfl, first⟩
    · exact .inr ⟨second, clock second⟩

/-- While the keyboard is in service nothing is delivered. -/
theorem acknowledge_none (view : pair.quiet = configured 0xF9 0x02) :
    (controllers answers).acknowledge pair = none := by
  refine Option.map_eq_none_iff.mpr (Option.eq_none_iff_forall_ne_some.mpr fun line pending => ?_)
  obtain ⟨-, -, unblocked⟩ := Controller.pending_some pending
  have busy : (pair.input slaveWire).inService = 0x02 := congrArg (·.master.inService) view
  have behind : (1 : Fin 8) ≤ line := by
    rcases master_pending (.inr rfl) view pending with ⟨-, rfl⟩ | ⟨rfl, -⟩ <;> decide
  have free := unblocked 1 behind
  rw [busy] at free
  exact absurd free (by decide)

/-- What is delivered while nothing is in service. -/
theorem acknowledge_some {masked : BitVec 8} (answering : ∀ id line, answers id line = true)
    (enabled : masked = 0xFB ∨ masked = 0xF9) (view : pair.quiet = configured masked 0)
    {vector : Option (BitVec 8)} {pair' : Cascade}
    (acknowledged : (controllers answers).acknowledge pair = some (vector, pair')) :
    masked = 0xF9 ∧ vector = some 0x21 ∧ pair'.quiet = configured 0xF9 0x02 ∨
      vector = some 0x28 ∧ pair'.quiet = clockServed masked := by
  obtain ⟨line, pending, same⟩ := Option.map_eq_some_iff.mp acknowledged
  have place := master_pending enabled view pending
  have master : pair.master.quiet = (configured masked 0).master := congrArg Cascade.master view
  have slave : pair.slave.quiet = (configured masked 0).slave := congrArg Cascade.slave view
  have cascade : pair.master.cascade = 0x04 := congrArg Controller.cascade master
  have served (line : Fin 8) : ((pair.input slaveWire).serve line).quiet =
      ((configured masked 0).master.serve line).quiet := by
    rw [Controller.quiet_serve, ← master]
    exact Controller.quiet_serve.symm
  rcases place with ⟨rfl, rfl⟩ | ⟨rfl, source⟩
  · left
    have vectors : pair.master.vector 1 = 0x21 := by
      have base : pair.master.vectors = 0x20 := congrArg Controller.vectors master
      rw [Controller.vector, base]
      decide
    rw [cascade, if_neg (by decide), vectors] at same
    obtain ⟨rfl, rfl⟩ := Prod.mk.inj same
    exact ⟨rfl, rfl, congrArg₂ Cascade.mk ((served 1).trans (by decide)) slave⟩
  · right
    have vectors : pair.slave.vector 0 = 0x28 := by
      have base : pair.slave.vectors = 0x28 := congrArg Controller.vectors slave
      rw [Controller.vector, base]
      decide
    rw [cascade, if_pos (by decide), source] at same
    simp only [answering, and_true] at same
    rw [if_pos (show (2 : Fin 8) = slaveWire from rfl), vectors] at same
    obtain ⟨rfl, rfl⟩ := Prod.mk.inj same
    have ended : (pair.slave.serve 0).quiet = (clockServed masked).slave := by
      have idle : pair.slave.quiet = (configured 0xFB 0).slave := slave
      rw [Controller.quiet_serve, idle]
      exact (by decide : ((configured 0xFB 0).slave.serve 0).quiet = (clockServed 0xFB).slave)
    refine ⟨rfl, congrArg₂ Cascade.mk ((served 2).trans ?_) ended⟩
    rcases enabled with rfl | rfl <;> decide

/-- Whatever is delivered finds a handler, and the handlers are disciplined. -/
theorem entered_covered (answering : ∀ id line, answers id line = true) :
    Covered writeQuiet Allowed Cascade.Settled (controllers answers) Cascade.quiet entered := by
  intro pair vector pair' allowed acknowledged
  have idle {masked : BitVec 8} (enabled : masked = 0xFB ∨ masked = 0xF9)
      (view : pair.quiet = configured masked 0) :
      pair.quiet.Settled ∧ (∃ code, entered vector code) ∧ ∀ code, entered vector code →
        Disciplined writeQuiet Allowed pair.quiet pair'.quiet false [] code := by
    rw [view]
    refine ⟨⟨rfl, rfl⟩, ?_⟩
    rcases acknowledge_some answering enabled view acknowledged with
      ⟨rfl, rfl, view'⟩ | ⟨rfl, view'⟩
    · rw [view']
      refine ⟨⟨_, 0x21, rfl, by decide, .inl ⟨by decide, .inl rfl⟩⟩, ?_⟩
      rintro code ⟨number, same, -, ⟨-, rfl | rfl⟩ | ⟨other, -⟩⟩
      · exact keyboardHandler_disciplined
      · exact keyboardHandlerStarting_disciplined
      · obtain rfl := Option.some.inj same
        exact absurd other (by decide)
    · rw [view']
      refine ⟨⟨_, 0x28, rfl, by decide, .inr ⟨by decide, rfl⟩⟩, ?_⟩
      rintro code ⟨number, same, -, ⟨other, -⟩ | ⟨-, rfl⟩⟩
      · obtain rfl := Option.some.inj same
        exact absurd other (by decide)
      · exact rtcHandler_disciplined enabled
  rcases allowed with view | view | view
  · exact idle (.inl rfl) view
  · exact idle (.inr rfl) view
  · rw [acknowledge_none view] at acknowledged
    cases acknowledged

/-! ## Runs -/

/-- With nothing in service, a request of the clock is delivered or makes way for the keyboard, and
so is one of the keyboard once it is enabled. -/
theorem acknowledge_isSome {masked : BitVec 8} (enabled : masked = 0xFB ∨ masked = 0xF9)
    (view : pair.quiet = configured masked 0)
    (requested : pair.slave.requested.getLsbD 0 = true ∨
      pair.master.requested.getLsbD 1 = true ∧ pair.master.masked.getLsbD 1 = false) :
    ((controllers answers).acknowledge pair).isSome := by
  have mask : (pair.input slaveWire).masked = masked := congrArg (·.master.masked) view
  have idle : (pair.input slaveWire).inService = 0 := congrArg (·.master.inService) view
  have unblocked (line : Fin 8) : (pair.input slaveWire).Unblocked line := by
    intro before _
    rw [idle]
    simp
  refine (Option.isSome_map ..).trans ?_
  rcases requested with clock | ⟨keyboard, unmasked⟩
  · have delivers := (@Cascade.input_wire pair slaveWire).trans ((slave_pending_iff view).mpr clock)
    refine Controller.pending_isSome delivers ?_ (unblocked slaveWire)
    rw [mask]
    rcases enabled with rfl | rfl <;> decide
  · have other : (1 : Fin 8) ≠ slaveWire := by decide
    exact Controller.pending_isSome ((Cascade.input_other other).trans keyboard) unmasked
      (unblocked 1)

variable {events : List (CoreEvent (Fin 8 ⊕ Fin 8) (Option (BitVec 8)))}
variable {core : Core Cascade Outb}

theorem booted_orderly (answering : ∀ id line, answers id line = true) (settled : pair.Settled)
    (prev : BitVec 8)
    (run : Run (CoreStep (controllers answers) entered) ⟨pair, false, entry prev, []⟩ events core) :
    core.Orderly writeQuiet Allowed Cascade.Settled Cascade.quiet := by
  refine run.invariant (Core.Orderly writeQuiet Allowed Cascade.Settled Cascade.quiet)
    (fun _ _ _ orderly step =>
      orderly.step quiet_raise quiet_apply (entered_covered answering) step)
    ⟨⟨configured 0xF9 0, [], [], ⟨rfl, rfl⟩, entry_disciplined settled prev, rfl, .bottom _⟩,
      nofun⟩

/-- However interrupts arrive while the kernel boots and runs, if no handler faults: one is
delivered only while none is in service, by the vector of the keyboard or of the clock, and finds
its handler; with none in service and the flag set, a request of the clock or of the enabled
keyboard leads to a delivery; and the code that runs comes to a point where none is in service. -/
theorem interrupts_served (answering : ∀ id line, answers id line = true) (settled : pair.Settled)
    (prev : BitVec 8)
    (run : Run (CoreStep (controllers answers) entered) ⟨pair, false, entry prev, []⟩ events core) :
    (∀ vector pair', core.enabled = true →
      (controllers answers).acknowledge core.controller = some (vector, pair') →
        core.controller.Settled ∧ (vector = some 0x21 ∨ vector = some 0x28) ∧
          ∃ code, entered vector code) ∧
    (core.enabled = true → core.controller.Settled →
      (core.controller.slave.requested.getLsbD 0 = true ∨
        core.controller.master.requested.getLsbD 1 = true ∧
          core.controller.master.masked.getLsbD 1 = false) →
      ((controllers answers).acknowledge core.controller).isSome) ∧
    ∃ last, Relation.ReflTransGen (Executes (controllers answers)) core last ∧
      last.controller.Settled := by
  have orderly := booted_orderly answering settled prev run
  have idle (enabled : core.enabled = true)
      (other : core.controller.quiet ≠ configured 0xF9 0x02) :
      ∃ masked : BitVec 8, (masked = 0xFB ∨ masked = 0xF9) ∧
        core.controller.quiet = configured masked 0 := by
    rcases orderly.allowed enabled with view | view | view
    · exact ⟨_, .inl rfl, view⟩
    · exact ⟨_, .inr rfl, view⟩
    · exact absurd view other
  refine ⟨fun vector pair' enabled acknowledged => ?_, fun enabled settled' requested => ?_,
    orderly.settles quiet_apply⟩
  · obtain ⟨settled', handled, -⟩ :=
      entered_covered answering _ _ _ (orderly.allowed enabled) acknowledged
    obtain ⟨masked, kind, view⟩ := idle enabled fun view => by
      rw [acknowledge_none view] at acknowledged
      cases acknowledged
    refine ⟨settled', ?_, handled⟩
    rcases acknowledge_some answering kind view acknowledged with ⟨-, keyboard, -⟩ | ⟨clock, -⟩
    · exact .inl keyboard
    · exact .inr clock
  · obtain ⟨masked, kind, view⟩ := idle enabled fun view => by
      have busy : core.controller.master.inService = 0x02 := congrArg (·.master.inService) view
      rw [settled'.1] at busy
      exact absurd busy (by decide)
    exact acknowledge_isSome kind view requested

end

/-- Two controllers as they may be before the boot. -/
def coldControllers : Cascade :=
  ⟨⟨0, 0xB8, 0, 0x08, 0x04, 0x01, .nothing⟩, ⟨0, 0x8E, 0, 0x70, 0x02, 0x01, .nothing⟩⟩

/-- A key is pressed before the first instruction. -/
theorem interrupts_served_early :
    ∃ last, Relation.ReflTransGen (Executes (controllers fun _ _ => true))
        ⟨(controllers fun _ _ => true).raise (.inl 1) coldControllers, false,
          (entry 0x02).tail, []⟩ last ∧
      last.controller.Settled :=
  (@interrupts_served coldControllers (fun _ _ => true) _ _ (fun _ _ => rfl) ⟨rfl, rfl⟩ 0x02
    (.cons (.raised (.inl 1)) (.cons (.executed .work) (.nil _)))).2.2

/-! ## A fault of the keyboard's handler -/

/-- While other code runs with the keyboard in service, as it does when a fault has ended the
keyboard's handler, nothing is delivered. -/
theorem nothing_delivered_in_service {pair : Cascade} {answers : BitVec 8 → Fin 8 → Bool}
    {enabled : Bool} {stack : List (Pushed Outb)} {core : Core Cascade Outb}
    {events : List (CoreEvent (Fin 8 ⊕ Fin 8) (Option (BitVec 8)))}
    (view : pair.quiet = configured 0xF9 0x02)
    (run : Run (CoreStep (controllers answers) entered) ⟨pair, enabled, [.process], stack⟩ events
      core) :
    ∀ vector, .accepted vector ∉ events := by
  have kept := run.history
    (fun past core => core.controller.quiet = configured 0xF9 0x02 ∧
      (core.code = [.process] ∨ core.code = []) ∧ ∀ vector, .accepted vector ∉ past) ?_ []
    ⟨view, .inl rfl, by simp⟩
  · exact kept.2.2
  rintro past before event after ⟨view, code, silent⟩ step
  cases step with
  | raised line => exact ⟨(@quiet_raise answers line _).trans view, code, by simpa using silent⟩
  | accepted _ acknowledged _ =>
      rw [acknowledge_none view] at acknowledged
      cases acknowledged
  | executed executes =>
      rcases code with code | code
      · cases executes with
        | process => exact ⟨view, .inl code, by simpa using silent⟩
        | finished => exact ⟨view, .inr (List.cons.inj code).2, by simpa using silent⟩
        | _ => cases code
      · cases executes <;> cases code

/-! ## The line of the slave -/

/-- A slave that compares the line with the three bits of its third word stays silent for the clock,
whose handler is then never found. -/
theorem clock_unanswered {masked : BitVec 8} {pair pair' : Cascade}
    {vector : Option (BitVec 8)} (enabled : masked = 0xFB ∨ masked = 0xF9)
    (view : pair.quiet = configured masked 0) (silent : pair.master.requested.getLsbD 1 = false)
    (acknowledged :
      (controllers fun id line => id.extractLsb' 0 3 == BitVec.ofNat 3 line).acknowledge pair =
        some (vector, pair')) :
    vector = none := by
  obtain ⟨line, pending, same⟩ := Option.map_eq_some_iff.mp acknowledged
  have wired : pair.master.cascade = 0x04 := congrArg (·.master.cascade) view
  have identity : pair.slave.cascade = 0x28 := congrArg (·.slave.cascade) view
  rcases master_pending enabled view pending with ⟨-, rfl⟩ | ⟨rfl, source⟩
  · obtain ⟨requested, -, -⟩ := Controller.pending_some pending
    have other : (1 : Fin 8) ≠ slaveWire := by decide
    have pressed := (Cascade.input_other other).symm.trans requested
    exact absurd (silent.symm.trans pressed) (by decide)
  · rw [wired, if_pos (by decide), source, identity] at same
    dsimp only at same
    rw [if_neg (by decide)] at same
    exact (congrArg Prod.fst same).symm

end Ece391.Kernel
