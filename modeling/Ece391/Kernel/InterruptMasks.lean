import Ece391.Library.InterruptController
import Mathlib.Data.Finset.Basic
import Mathlib.Tactic.FinCases

/-!
# The masks of the interrupt controllers

`enable_irq` and `disable_irq` keep a copy of each mask register and write it out after each change,
and `send_eoi` ends an interrupt, at the slave and then at the master for the lines of the slave.
After `i8259_init` the registers mask exactly the lines that are not enabled, whatever calls follow.
The initialisation tells the slave its vectors a second time where it should tell it its line.
-/

namespace Ece391.Kernel

open Ece391.Library

/-- A call of `outb`. -/
structure Outb where
  data : BitVec 8
  port : Nat
  deriving DecidableEq, Repr

/-- What it does to the two controllers. -/
def Outb.apply (write : Outb) (pair : Cascade) : Cascade :=
  if write.port = 0x20 then { pair with master := pair.master.command write.data }
  else if write.port = 0x21 then { pair with master := pair.master.data write.data }
  else if write.port = 0xA0 then { pair with slave := pair.slave.command write.data }
  else if write.port = 0xA1 then { pair with slave := pair.slave.data write.data }
  else pair

/-- `master_mask` and `slave_mask`. -/
structure IrqMasks where
  masterMask : BitVec 8
  slaveMask : BitVec 8

/-- Their initial values. -/
def IrqMasks.initial : IrqMasks :=
  ⟨0xFF, 0xFF⟩

/-- `enable_irq`. -/
def enableIrq (irqNum : BitVec 32) (masks : IrqMasks) : IrqMasks × List Outb :=
  let offset := irqNum - 8
  if irqNum.toNat < 8 then
    let masterMask := masks.masterMask &&& ~~~BitVec.twoPow 8 irqNum.toNat
    ({ masks with masterMask }, [⟨masterMask, 0x21⟩])
  else if irqNum.toNat ≤ 15 then
    let slaveMask := masks.slaveMask &&& ~~~BitVec.twoPow 8 offset.toNat
    ({ masks with slaveMask }, [⟨slaveMask, 0xA1⟩])
  else (masks, [])

/-- `disable_irq`. -/
def disableIrq (irqNum : BitVec 32) (masks : IrqMasks) : IrqMasks × List Outb :=
  let offset := irqNum - 8
  if irqNum.toNat < 8 then
    let masterMask := masks.masterMask ||| BitVec.twoPow 8 irqNum.toNat
    ({ masks with masterMask }, [⟨masterMask, 0x21⟩])
  else if irqNum.toNat ≤ 15 then
    let slaveMask := masks.slaveMask ||| BitVec.twoPow 8 offset.toNat
    ({ masks with slaveMask }, [⟨slaveMask, 0xA1⟩])
  else (masks, [])

/-- `send_eoi`. -/
def sendEoi (irqNum : BitVec 32) : List Outb :=
  if irqNum.toNat < 8 then [⟨(irqNum ||| 0x60).setWidth 8, 0x20⟩]
  else if irqNum.toNat ≤ 15 then
    [⟨((irqNum - 8) ||| 0x60).setWidth 8, 0xA0⟩, ⟨0x02 ||| 0x60, 0x20⟩]
  else []

/-- `i8259_init`; the third word of the slave is `ICW2_SLAVE`. -/
def i8259Init (masks : IrqMasks) : IrqMasks × List Outb :=
  let enabled := enableIrq 2 masks
  (enabled.1,
    [⟨masks.masterMask, 0x21⟩, ⟨masks.slaveMask, 0xA1⟩, ⟨0x11, 0x20⟩, ⟨0x11, 0xA0⟩, ⟨0x20, 0x21⟩,
      ⟨0x28, 0xA1⟩, ⟨0x04, 0x21⟩, ⟨0x28, 0xA1⟩, ⟨0x01, 0x21⟩, ⟨0x01, 0xA1⟩,
      ⟨masks.masterMask, 0x21⟩, ⟨masks.slaveMask, 0xA1⟩] ++ enabled.2)

/-- Writes after one another. -/
def writeAll (writes : List Outb) (pair : Cascade) : Cascade :=
  writes.foldl (fun pair write => write.apply pair) pair

/-! ## Calls -/

/-- A call to the interrupt controllers. -/
inductive IrqCall where
  | enableIrq (irqNum : BitVec 32)
  | disableIrq (irqNum : BitVec 32)
  | sendEoi (irqNum : BitVec 32)

/-- The variables of the kernel and the controllers. -/
structure IrqState where
  masks : IrqMasks
  pair : Cascade

/-- The state behind `i8259_init`. -/
def IrqState.started (pair : Cascade) : IrqState :=
  let (masks, writes) := i8259Init .initial
  ⟨masks, writeAll writes pair⟩

def IrqCall.run (state : IrqState) : IrqCall → IrqState
  | .enableIrq irqNum =>
      let (masks, writes) := Kernel.enableIrq irqNum state.masks
      ⟨masks, writeAll writes state.pair⟩
  | .disableIrq irqNum =>
      let (masks, writes) := Kernel.disableIrq irqNum state.masks
      ⟨masks, writeAll writes state.pair⟩
  | .sendEoi irqNum => { state with pair := writeAll (Kernel.sendEoi irqNum) state.pair }

/-- The lines that are enabled behind a call. -/
def IrqCall.enables (enabled : Finset Nat) : IrqCall → Finset Nat
  | .enableIrq irqNum => insert irqNum.toNat enabled
  | .disableIrq irqNum => enabled.erase irqNum.toNat
  | .sendEoi _ => enabled

/-- The lines that a call finishes: the one it names, and the line of the slave for those behind
it. -/
def IrqCall.finishes (irq : Nat) : IrqCall → Bool
  | .sendEoi irqNum =>
      irq = irqNum.toNat || decide (irq = 2 ∧ 8 ≤ irqNum.toNat ∧ irqNum.toNat ≤ 15)
  | _ => false

/-- The bit of a line in the registers of the two controllers. -/
def irqBit (master slave : BitVec 8) (irq : Nat) : Bool :=
  if irq < 8 then master.getLsbD irq else slave.getLsbD (irq - 8)

/-- Controllers that are set up, where the copies of the masks are right and exactly some lines are
enabled. -/
structure IrqState.Tracks (state : IrqState) (enabled : Finset Nat) : Prop where
  masterReady : state.pair.master.awaited = .nothing
  slaveReady : state.pair.slave.awaited = .nothing
  masterMask : state.pair.master.masked = state.masks.masterMask
  slaveMask : state.pair.slave.masked = state.masks.slaveMask
  masterVectors : state.pair.master.vectors = 0x20
  slaveVectors : state.pair.slave.vectors = 0x28
  masterCascade : state.pair.master.cascade = 0x04
  slaveCascade : state.pair.slave.cascade = 0x28
  masked : ∀ irq < 16,
    irqBit state.pair.master.masked state.pair.slave.masked irq = decide (irq ∉ enabled)

/-- The lines in service. -/
def IrqState.inService (state : IrqState) : Nat → Bool :=
  irqBit state.pair.master.inService state.pair.slave.inService

section

variable {state : IrqState} {enabled : Finset Nat} {pair : Cascade} {irqNum : BitVec 32}
variable {controller : Controller} {irq : Nat}

/-- A byte for a controller that is set up is its mask. -/
theorem data_ready (ready : controller.awaited = .nothing) (byte : BitVec 8) :
    controller.data byte = { controller with masked := byte } := by
  rw [Controller.data, ready]

/-- The end of an interrupt finishes the line it names. -/
theorem command_eoi (inside : irqNum.toNat < 8) :
    controller.command ((irqNum ||| 0x60).setWidth 8) =
      controller.finish ⟨irqNum.toNat, inside⟩ := by
  obtain ⟨line, same⟩ : ∃ line : Fin 8, irqNum = BitVec.ofNat 32 line :=
    ⟨⟨irqNum.toNat, inside⟩,
      ((BitVec.ofNat_toNat 32 irqNum).trans (BitVec.setWidth_eq irqNum)).symm⟩
  subst same
  fin_cases line <;> rfl

/-- A mask written to the master. -/
theorem IrqState.Tracks.writeMaster {enabled' : Finset Nat} (tracks : state.Tracks enabled)
    (mask : BitVec 8) (low : ∀ irq < 8, mask.getLsbD irq = decide (irq ∉ enabled'))
    (high : ∀ irq, 8 ≤ irq → (irq ∈ enabled' ↔ irq ∈ enabled)) :
    (⟨{ state.masks with masterMask := mask }, writeAll [⟨mask, 0x21⟩] state.pair⟩ :
      IrqState).Tracks enabled' := by
  have written : writeAll [⟨mask, 0x21⟩] state.pair =
      { state.pair with master := { state.pair.master with masked := mask } } := by
    rw [← data_ready tracks.masterReady]
    rfl
  rw [written]
  refine ⟨tracks.masterReady, tracks.slaveReady, rfl, tracks.slaveMask, tracks.masterVectors,
    tracks.slaveVectors, tracks.masterCascade, tracks.slaveCascade, fun irq inside => ?_⟩
  have before := tracks.masked irq inside
  rw [irqBit] at before ⊢
  by_cases first : irq < 8
  · rw [if_pos first, low irq first]
  · rw [if_neg first] at before ⊢
    rw [before]
    exact decide_eq_decide.mpr (not_congr (high irq (by omega)).symm)

/-- A mask written to the slave. -/
theorem IrqState.Tracks.writeSlave {enabled' : Finset Nat} (tracks : state.Tracks enabled)
    (mask : BitVec 8) (low : ∀ irq < 8, irq ∈ enabled' ↔ irq ∈ enabled)
    (high : ∀ place < 8, mask.getLsbD place = decide (place + 8 ∉ enabled')) :
    (⟨{ state.masks with slaveMask := mask }, writeAll [⟨mask, 0xA1⟩] state.pair⟩ :
      IrqState).Tracks enabled' := by
  have written : writeAll [⟨mask, 0xA1⟩] state.pair =
      { state.pair with slave := { state.pair.slave with masked := mask } } := by
    rw [← data_ready tracks.slaveReady]
    rfl
  rw [written]
  refine ⟨tracks.masterReady, tracks.slaveReady, tracks.masterMask, rfl, tracks.masterVectors,
    tracks.slaveVectors, tracks.masterCascade, tracks.slaveCascade, fun irq inside => ?_⟩
  have before := tracks.masked irq inside
  rw [irqBit] at before ⊢
  by_cases first : irq < 8
  · rw [if_pos first] at before ⊢
    rw [before]
    exact decide_eq_decide.mpr (not_congr (low irq first).symm)
  · rw [if_neg first, high (irq - 8) (by omega), Nat.sub_add_cancel (by omega)]

/-- Lines from 16 on do not matter. -/
theorem IrqState.Tracks.outside {enabled' : Finset Nat} (tracks : state.Tracks enabled)
    (same : ∀ irq < 16, irq ∈ enabled' ↔ irq ∈ enabled) : state.Tracks enabled' :=
  { tracks with
    masked := fun irq inside => (tracks.masked irq inside).trans
      (decide_eq_decide.mpr (not_congr (same irq inside).symm)) }

/-- What `send_eoi` does to the controllers. -/
theorem sendEoi_finishes (irqNum : BitVec 32) (pair : Cascade) :
    writeAll (sendEoi irqNum) pair =
      if low : irqNum.toNat < 8 then
        { pair with master := pair.master.finish ⟨irqNum.toNat, low⟩ }
      else if high : irqNum.toNat ≤ 15 then
        ⟨pair.master.finish 2, pair.slave.finish ⟨irqNum.toNat - 8, by omega⟩⟩
      else pair := by
  rw [sendEoi]
  by_cases low : irqNum.toNat < 8
  · rw [if_pos low, dif_pos low, ← command_eoi low]
    rfl
  · rw [if_neg low, dif_neg low]
    by_cases high : irqNum.toNat ≤ 15
    · have offset : (irqNum - 8).toNat = irqNum.toNat - 8 := by bv_omega
      have inside : (irqNum - 8).toNat < 8 := by omega
      have line : (⟨(irqNum - 8).toNat, inside⟩ : Fin 8) = ⟨irqNum.toNat - 8, by omega⟩ :=
        Fin.ext offset
      rw [if_pos high, dif_pos high, ← line, ← command_eoi inside]
      rfl
    · rw [if_neg high, dif_neg high]
      rfl

/-- A call keeps the registers in step with the lines that are enabled. -/
theorem IrqState.Tracks.run (tracks : state.Tracks enabled) (call : IrqCall) :
    (call.run state).Tracks (call.enables enabled) := by
  have master (irq : Nat) (inside : irq < 8) :
      state.masks.masterMask.getLsbD irq = decide (irq ∉ enabled) := by
    rw [← tracks.masterMask, ← tracks.masked irq (by omega), irqBit, if_pos inside]
  have slave (place : Nat) (inside : place < 8) :
      state.masks.slaveMask.getLsbD place = decide (place + 8 ∉ enabled) := by
    rw [← tracks.slaveMask, ← tracks.masked (place + 8) (by omega), irqBit, if_neg (by omega),
      Nat.add_sub_cancel]
  cases call with
  | enableIrq irqNum =>
      simp only [IrqCall.run, IrqCall.enables, enableIrq]
      by_cases low : irqNum.toNat < 8
      · rw [if_pos low]
        refine tracks.writeMaster _ (fun irq inside => ?_) (fun irq behind => ?_)
        · rw [getLsbD_clear _ _ inside, master irq inside]
          simp [eq_comm, and_comm]
        · simp [show irq ≠ irqNum.toNat by omega]
      · rw [if_neg low]
        by_cases high : irqNum.toNat ≤ 15
        · have offset : (irqNum - 8).toNat = irqNum.toNat - 8 := by bv_omega
          rw [if_pos high]
          refine tracks.writeSlave _ (fun irq inside => ?_) (fun place inside => ?_)
          · simp [show irq ≠ irqNum.toNat by omega]
          · have line : irqNum.toNat - 8 = place ↔ place + 8 = irqNum.toNat := by omega
            rw [getLsbD_clear _ _ inside, slave place inside, offset]
            simp [line, and_comm]
        · rw [if_neg high]
          exact tracks.outside fun irq inside => by simp [show irq ≠ irqNum.toNat by omega]
  | disableIrq irqNum =>
      simp only [IrqCall.run, IrqCall.enables, disableIrq]
      by_cases low : irqNum.toNat < 8
      · rw [if_pos low]
        refine tracks.writeMaster _ (fun irq inside => ?_) (fun irq behind => ?_)
        · rw [getLsbD_set _ _ inside, master irq inside]
          simp [eq_comm, Bool.or_comm]
        · simp [show irq ≠ irqNum.toNat by omega]
      · rw [if_neg low]
        by_cases high : irqNum.toNat ≤ 15
        · have offset : (irqNum - 8).toNat = irqNum.toNat - 8 := by bv_omega
          rw [if_pos high]
          refine tracks.writeSlave _ (fun irq inside => ?_) (fun place inside => ?_)
          · simp [show irq ≠ irqNum.toNat by omega]
          · have line : irqNum.toNat - 8 = place ↔ place + 8 = irqNum.toNat := by omega
            rw [getLsbD_set _ _ inside, slave place inside, offset]
            simp [line, Bool.or_comm]
        · rw [if_neg high]
          exact tracks.outside fun irq inside => by simp [show irq ≠ irqNum.toNat by omega]
  | sendEoi irqNum =>
      change (⟨state.masks, writeAll (Kernel.sendEoi irqNum) state.pair⟩ : IrqState).Tracks enabled
      rw [sendEoi_finishes]
      split
      · exact { tracks with }
      · split
        · exact { tracks with }
        · exact { tracks with }

/-- The initialisation sets both controllers up, whatever state they are in, with the line of the
slave enabled. -/
theorem IrqState.started_tracks (pair : Cascade) : (IrqState.started pair).Tracks {2} :=
  ⟨rfl, rfl, rfl, rfl, rfl, rfl, rfl, rfl, by
    change ∀ irq < 16, irqBit 0xFB 0xFF irq = decide (irq ∉ ({2} : Finset Nat))
    decide⟩

/-! ## Interrupts in service -/

theorem data_inService (byte : BitVec 8) :
    (controller.data byte).inService = controller.inService := by
  obtain ⟨_, _, _, _, _, _, awaited⟩ := controller
  cases awaited <;> rfl

/-- A finished line is not in service. -/
theorem finish_getLsbD (line : Fin 8) {place : Nat} (inside : place < 8) :
    (controller.finish line).inService.getLsbD place =
      (controller.inService.getLsbD place && decide (line.val ≠ place)) :=
  getLsbD_clear _ _ inside

/-- A call takes exactly the lines that it finishes out of service. -/
theorem IrqCall.run_inService (call : IrqCall) (inside : irq < 16) :
    (call.run state).inService irq = (state.inService irq && !call.finishes irq) := by
  cases call with
  | enableIrq irqNum =>
      simp only [IrqCall.run, Kernel.enableIrq, IrqCall.finishes, Bool.not_false, Bool.and_true]
      split
      · exact congrArg (irqBit · _ irq) (data_inService _)
      · split
        · exact congrArg (irqBit _ · irq) (data_inService _)
        · rfl
  | disableIrq irqNum =>
      simp only [IrqCall.run, Kernel.disableIrq, IrqCall.finishes, Bool.not_false, Bool.and_true]
      split
      · exact congrArg (irqBit · _ irq) (data_inService _)
      · split
        · exact congrArg (irqBit _ · irq) (data_inService _)
        · rfl
  | sendEoi irqNum =>
      simp only [IrqCall.run, IrqCall.finishes, IrqState.inService, sendEoi_finishes, irqBit]
      by_cases low : irqNum.toNat < 8
      · rw [dif_pos low]
        by_cases first : irq < 8
        · rw [if_pos first, if_pos first, finish_getLsbD _ first]
          simp [show ¬8 ≤ irqNum.toNat by omega, eq_comm]
        · rw [if_neg first, if_neg first]
          simp [show ¬8 ≤ irqNum.toNat by omega, show irq ≠ irqNum.toNat by omega]
      · rw [dif_neg low]
        by_cases high : irqNum.toNat ≤ 15
        · rw [dif_pos high]
          by_cases first : irq < 8
          · rw [if_pos first, if_pos first, finish_getLsbD _ first]
            simp [high, show 8 ≤ irqNum.toNat by omega, show irq ≠ irqNum.toNat by omega, eq_comm]
          · have line : irqNum.toNat - 8 = irq - 8 ↔ irq = irqNum.toNat := by omega
            rw [if_neg first, if_neg first, finish_getLsbD _ (by omega)]
            simp [line, show irq ≠ 2 by omega]
        · rw [dif_neg high]
          split
          · simp [high, show irq ≠ irqNum.toNat by omega]
          · simp [high, show irq ≠ irqNum.toNat by omega]

/-- Calls after one another. -/
theorem IrqState.Tracks.runs (tracks : state.Tracks enabled) (calls : List IrqCall) :
    (calls.foldl IrqCall.run state).Tracks (calls.foldl IrqCall.enables enabled) ∧
      ∀ irq < 16, (calls.foldl IrqCall.run state).inService irq =
        (state.inService irq && calls.all fun call => !call.finishes irq) := by
  induction calls generalizing state enabled with
  | nil => exact ⟨tracks, fun irq _ => (Bool.and_true _).symm⟩
  | cons call calls ih =>
      obtain ⟨tracks', served⟩ := ih (tracks.run call)
      refine ⟨tracks', fun irq inside => ?_⟩
      rw [List.foldl_cons, served irq inside, call.run_inService inside, List.all_cons,
        Bool.and_assoc]

/-- Behind the initialisation, and whatever calls follow, the mask registers mask exactly the lines
below 16 that are not enabled, and an interrupt stays in service until a call finishes its line. -/
theorem masks_follow (pair : Cascade) (calls : List IrqCall) :
    (calls.foldl IrqCall.run (.started pair)).Tracks (calls.foldl IrqCall.enables {2}) ∧
      ∀ irq < 16, (calls.foldl IrqCall.run (.started pair)).inService irq =
        (irqBit pair.master.inService pair.slave.inService irq &&
          calls.all fun call => !call.finishes irq) := by
  have start (irq : Nat) : (IrqState.started pair).inService irq =
      irqBit pair.master.inService pair.slave.inService irq := by
    change irqBit (pair.master.data 0xFF).inService (pair.slave.data 0xFF).inService irq = _
    rw [data_inService, data_inService]
  obtain ⟨tracks, served⟩ := (IrqState.started_tracks pair).runs calls
  exact ⟨tracks, fun irq inside => (served irq inside).trans (congrArg (· && _) (start irq))⟩

end

end Ece391.Kernel
