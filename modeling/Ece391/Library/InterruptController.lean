import Mathlib.Data.BitVec
import Mathlib.Data.List.FinRange

/-!
# A pair of interrupt controllers

A controller latches requests on eight lines, masks some of them, and delivers the first line that
is neither masked nor as late as one in service.  It is set up by three or four words, and then told
which lines are masked and which are finished.  A second controller may be wired to a line of the
first one, which then asks it for the vector.

Of the commands there are the start of the initialisation and the specific end of interrupt; the
others leave the controller as it is.  A request stays latched until it is acknowledged.
-/

namespace Ece391.Library

/-- The word of the initialisation that comes next: whether the controller works alone, and whether
there is a fourth word. -/
inductive Awaited where
  | nothing
  | vectors (alone fourth : Bool)
  | cascade (fourth : Bool)
  | mode
  deriving DecidableEq, Repr

/-- An interrupt controller. -/
structure Controller where
  requested : BitVec 8
  masked : BitVec 8
  inService : BitVec 8
  vectors : BitVec 8
  cascade : BitVec 8
  mode : BitVec 8
  awaited : Awaited
  deriving DecidableEq, Repr

namespace Controller

/-- The controller after an interrupt of a line has been finished. -/
def finish (controller : Controller) (line : Fin 8) : Controller :=
  { controller with inService := controller.inService &&& ~~~BitVec.twoPow 8 line }

/-- A byte written to the command port. -/
def command (controller : Controller) (byte : BitVec 8) : Controller :=
  if byte.getLsbD 4 then
    { controller with
      requested := 0
      masked := 0
      awaited := .vectors (byte.getLsbD 1) (byte.getLsbD 0) }
  else if byte.extractLsb' 3 5 = 0b01100 then
    controller.finish (byte.extractLsb' 0 3).toFin
  else controller

/-- A byte written to the data port. -/
def data (controller : Controller) (byte : BitVec 8) : Controller :=
  match controller.awaited with
  | .nothing => { controller with masked := byte }
  | .vectors alone fourth =>
      { controller with
        vectors := byte
        awaited := if !alone then .cascade fourth else if fourth then .mode else .nothing }
  | .cascade fourth =>
      { controller with cascade := byte, awaited := if fourth then .mode else .nothing }
  | .mode => { controller with mode := byte, awaited := .nothing }

/-- A request arrives. -/
def raise (controller : Controller) (line : Fin 8) : Controller :=
  { controller with requested := controller.requested ||| BitVec.twoPow 8 line }

/-- No interrupt of a line or of one before it is in service. -/
def Unblocked (controller : Controller) (line : Fin 8) : Prop :=
  ∀ before ≤ line, controller.inService.getLsbD before = false

instance (controller : Controller) (line : Fin 8) : Decidable (controller.Unblocked line) :=
  inferInstanceAs (Decidable (∀ before ≤ line, controller.inService.getLsbD before = false))

/-- The line whose request is delivered. -/
def pending (controller : Controller) : Option (Fin 8) :=
  (List.finRange 8).find? fun line =>
    controller.requested.getLsbD line && !controller.masked.getLsbD line &&
      decide (controller.Unblocked line)

/-- The controller after a request has been delivered: with automatic ends of interrupt it does not
stay in service. -/
def serve (controller : Controller) (line : Fin 8) : Controller :=
  { controller with
    requested := controller.requested &&& ~~~BitVec.twoPow 8 line
    inService :=
      if controller.mode.getLsbD 1 then controller.inService
      else controller.inService ||| BitVec.twoPow 8 line }

/-- The vector of a line. -/
def vector (controller : Controller) (line : Fin 8) : BitVec 8 :=
  (controller.vectors &&& 0xF8) ||| BitVec.ofNat 8 line

/-- The controller without its requests. -/
def quiet (controller : Controller) : Controller :=
  { controller with requested := 0 }

end Controller

/-- Two controllers, the second of which is wired to a line of the first. -/
structure Cascade where
  master : Controller
  slave : Controller
  deriving DecidableEq, Repr

namespace Cascade

/-- The first controller with the output of the second one on its line. -/
def input (pair : Cascade) (wire : Fin 8) : Controller :=
  { pair.master with
    requested :=
      if pair.slave.pending.isSome then pair.master.requested ||| BitVec.twoPow 8 wire
      else pair.master.requested &&& ~~~BitVec.twoPow 8 wire }

/-- The acknowledgement of an interrupt: the vector, if a controller answers with one.  A slave
answers when the master has been told that there is one on the line, and `answers` says that the
identity the slave has been told is the right one for it. -/
def acknowledge (wire : Fin 8) (answers : BitVec 8 → Fin 8 → Bool) (pair : Cascade) :
    Option (Option (BitVec 8) × Cascade) :=
  (pair.input wire).pending.map fun line =>
    let master := (pair.input wire).serve line
    if pair.master.cascade.getLsbD line then
      match pair.slave.pending with
      | some source =>
          if line = wire ∧ answers pair.slave.cascade line then
            (some (pair.slave.vector source), ⟨master, pair.slave.serve source⟩)
          else (none, ⟨master, pair.slave⟩)
      | none => (none, ⟨master, pair.slave⟩)
    else (some (pair.master.vector line), ⟨master, pair.slave⟩)

/-- The pair without its requests. -/
def quiet (pair : Cascade) : Cascade :=
  ⟨pair.master.quiet, pair.slave.quiet⟩

/-- No interrupt is in service. -/
def Settled (pair : Cascade) : Prop :=
  pair.master.inService = 0 ∧ pair.slave.inService = 0

instance (pair : Cascade) : Decidable pair.Settled :=
  inferInstanceAs (Decidable (_ ∧ _))

end Cascade

/-! ## Single lines -/

/-- A register without a line. -/
theorem getLsbD_clear (register : BitVec 8) (line : Nat) {place : Nat} (inside : place < 8) :
    (register &&& ~~~BitVec.twoPow 8 line).getLsbD place =
      (register.getLsbD place && decide (line ≠ place)) := by
  rw [BitVec.getLsbD_and, BitVec.getLsbD_not, BitVec.getLsbD_twoPow]
  by_cases same : line = place
  · subst same
    simp [inside]
  · simp [inside, same]

/-- A register with a line. -/
theorem getLsbD_set (register : BitVec 8) (line : Nat) {place : Nat} (inside : place < 8) :
    (register ||| BitVec.twoPow 8 line).getLsbD place =
      (register.getLsbD place || decide (line = place)) := by
  rw [BitVec.getLsbD_or, BitVec.getLsbD_twoPow]
  by_cases same : line = place
  · subst same
    simp [inside]
  · simp [same]

/-! ## Requests -/

section

variable {controller : Controller} {line : Fin 8}

theorem Controller.quiet_raise : (controller.raise line).quiet = controller.quiet :=
  rfl

theorem Controller.quiet_serve :
    (controller.serve line).quiet = (controller.quiet.serve line).quiet :=
  rfl

/-- A command does the same to the rest of the controller whatever is requested. -/
theorem Controller.quiet_command (byte : BitVec 8) :
    (controller.command byte).quiet = (controller.quiet.command byte).quiet := by
  simp only [Controller.command]
  split
  · rfl
  · split <;> rfl

theorem Controller.quiet_data (byte : BitVec 8) :
    (controller.data byte).quiet = (controller.quiet.data byte).quiet := by
  obtain ⟨_, _, _, _, _, _, awaited⟩ := controller
  cases awaited <;> rfl

/-- What is delivered has been requested, is not masked, and nothing before it is in service. -/
theorem Controller.pending_some (found : controller.pending = some line) :
    controller.requested.getLsbD line = true ∧ controller.masked.getLsbD line = false ∧
      controller.Unblocked line := by
  have passes := List.find?_some found
  simpa [and_assoc] using passes

/-- While nothing is in service, a request that is not masked is delivered, or one before it. -/
theorem Controller.pending_isSome (requested : controller.requested.getLsbD line = true)
    (unmasked : controller.masked.getLsbD line = false) (unblocked : controller.Unblocked line) :
    controller.pending.isSome := by
  rw [Controller.pending, List.find?_isSome]
  exact ⟨line, List.mem_finRange line, by rw [requested, unmasked]; simp [unblocked]⟩

variable {pair : Cascade} {wire : Fin 8}

/-- On the wire the first controller sees what the second one delivers. -/
theorem Cascade.input_wire :
    (pair.input wire).requested.getLsbD wire = pair.slave.pending.isSome := by
  cases delivers : pair.slave.pending.isSome
  · simp only [Cascade.input, delivers, Bool.false_eq_true, if_false]
    rw [getLsbD_clear _ _ wire.isLt]
    simp
  · simp only [Cascade.input, delivers, if_true]
    rw [getLsbD_set _ _ wire.isLt]
    simp

/-- On its other lines it sees its own requests. -/
theorem Cascade.input_other (other : line ≠ wire) :
    (pair.input wire).requested.getLsbD line = pair.master.requested.getLsbD line := by
  have apart : (wire : Nat) ≠ line := fun same => other (Fin.ext same.symm)
  simp only [Cascade.input]
  split
  · rw [getLsbD_set _ _ line.isLt]
    simp [apart]
  · rw [getLsbD_clear _ _ line.isLt]
    simp [apart]

end

end Ece391.Library
