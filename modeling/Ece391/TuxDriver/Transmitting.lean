import Ece391.Library.Run
import Ece391.TuxDriver.LineDiscipline

/-!
# Sending bytes to the controller

`tuxctl_ldisc_put` appends to the transmit ring and `tuxctl_ldisc_write_wakeup` offers bytes
of it to the serial driver, which accepts what it has room for.  The loop of
`tuxctl_ldisc_write_wakeup` takes one byte more out of the ring than there is room, so a
byte is lost exactly when the ring holds more than the driver accepts.  A buffer that does
not fit in the ring loses its end as well, which its callers do not notice.
-/

namespace Ece391.TuxDriver

open Ece391.Library

/-- The rings, the bytes the driver has accepted, and the bytes `tuxctl_ldisc_put` has. -/
structure Transmission where
  data : LdiscData
  accepted : List UInt8
  taken : List UInt8

/-- A call, with the value that `write_room` returns during it. -/
inductive TransmitCall where
  | put (buf : List UInt8) (room : Int)
  | writeWakeup (room : Int)
  deriving DecidableEq, Repr

/-- The serial driver accepts `min(n, room)` of the bytes it is offered. -/
def driverAccepts (room : Int) (offered : List UInt8) : List UInt8 :=
  offered.take (min (offered.length : Int) room).toNat

namespace Transmission

/-- The effect of a call. -/
def call (transmission : Transmission) : TransmitCall → Transmission
  | .put buf room =>
      let result := tuxctlLdiscPut buf room transmission.data
      { data := result.data
        accepted := transmission.accepted ++ driverAccepts room result.offered
        taken := transmission.taken ++ buf.take (buf.length - result.notWritten) }
  | .writeWakeup room =>
      let result := tuxctlLdiscWriteWakeup room transmission.data
      { transmission with
        data := result.2
        accepted := transmission.accepted ++ driverAccepts room result.1 }

/-- The send side after `tuxctl_ldisc_open`. -/
def opened (rxBuf txBuf : Fin 64 → UInt8) : Transmission :=
  ⟨tuxctlLdiscOpen rxBuf txBuf, [], []⟩

/-- The accepted bytes followed by those in the ring are the bytes that were put. -/
def InOrder (transmission : Transmission) : Prop :=
  transmission.accepted ++ transmission.data.tx.contents = transmission.taken

instance (transmission : Transmission) : Decidable transmission.InOrder :=
  inferInstanceAs (Decidable (_ = _))

end Transmission

def TransmitStep (before : Transmission) (call : TransmitCall) (after : Transmission) : Prop :=
  after = before.call call

/-- The driver has room for a number of bytes.  A negative `room` also keeps them, since
none is then taken out of the ring. -/
def HasRoom (room : Int) (waiting : Nat) : Prop :=
  room < 0 ∨ (waiting : Int) ≤ room

/-- A call is safe when the driver has room for all that the ring holds when it is woken. -/
def TransmitCall.Safe (before : Transmission) : TransmitCall → Prop
  | .put buf room => HasRoom room (min (before.data.tx.used + buf.length) 63)
  | .writeWakeup room => HasRoom room before.data.tx.used

instance (room : Int) (waiting : Nat) : Decidable (HasRoom room waiting) :=
  inferInstanceAs (Decidable (_ ∨ _))

/-- The buffer that a call is given. -/
def TransmitCall.buffer : TransmitCall → Option (List UInt8)
  | .put buf _ => some buf
  | .writeWakeup _ => none

/-- A call loses nothing when the ring has room for its buffer and the driver for all that the
ring then holds. -/
def TransmitCall.Lossless (before : Transmission) : TransmitCall → Prop
  | .put buf room => before.data.tx.used + buf.length ≤ 63 ∧
      HasRoom room (before.data.tx.used + buf.length)
  | .writeWakeup room => HasRoom room before.data.tx.used

instance (before : Transmission) : (call : TransmitCall) → Decidable (call.Lossless before)
  | .put _ _ => inferInstanceAs (Decidable (_ ∧ _))
  | .writeWakeup _ => inferInstanceAs (Decidable (HasRoom _ _))

namespace Transmission

/-- Calls after one another. -/
def callAll (transmission : Transmission) (calls : List TransmitCall) : Transmission :=
  calls.foldl call transmission

/-- None of the calls loses anything. -/
def Lossless : Transmission → List TransmitCall → Prop
  | _, [] => True
  | transmission, call :: calls =>
      call.Lossless transmission ∧ (transmission.call call).Lossless calls

instance decidableLossless :
    (transmission : Transmission) → (calls : List TransmitCall) →
      Decidable (transmission.Lossless calls)
  | _, [] => .isTrue trivial
  | transmission, call :: calls =>
      have := decidableLossless (transmission.call call) calls
      inferInstanceAs (Decidable (_ ∧ _))

end Transmission

section

variable {room : Int} {tx : Ring UInt8 64} {data : LdiscData} {accepted taken : List UInt8}

/-- The loop takes bytes out until `n` exceeds `room`. -/
theorem writeWakeupLoop_contents {fuel n : Nat} (enough : tx.used ≤ fuel) :
    (writeWakeupLoop room fuel n tx).1 = tx.contents.take (room + 1 - n).toNat ∧
      (writeWakeupLoop room fuel n tx).2.contents = tx.contents.drop (room + 1 - n).toNat := by
  induction fuel generalizing n tx with
  | zero =>
      have none : tx.contents = [] := Ring.contents_of_empty (Ring.empty_iff.mpr (by omega))
      simp [writeWakeupLoop, none]
  | succ fuel ih =>
      rw [writeWakeupLoop]
      split
      next more =>
        have popped := Ring.pop_used more.2
        obtain ⟨buf, rest⟩ := @ih tx.pop (n + 1) (by omega)
        have count : (room + 1 - n).toNat = (room + 1 - ↑(n + 1)).toNat + 1 := by omega
        rw [count, Ring.pop_contents more.2, List.take_succ_cons, List.drop_succ_cons]
        exact ⟨congrArg _ buf, rest⟩
      next stops =>
        by_cases empty : tx.Empty
        · simp [Ring.contents_of_empty empty]
        · have count : (room + 1 - n).toNat = 0 := by
            have last : ¬(n : Int) ≤ room := fun more => stops ⟨more, empty⟩
            omega
          simp [count]

theorem tuxctlLdiscWriteWakeup_contents (room : Int) (data : LdiscData) :
    (tuxctlLdiscWriteWakeup room data).1 = data.tx.contents.take (room + 1).toNat ∧
      (tuxctlLdiscWriteWakeup room data).2.tx.contents =
        data.tx.contents.drop (room + 1).toNat := by
  have enough : data.tx.used ≤ 64 := Nat.le_of_lt data.tx.used_lt
  have loop := @writeWakeupLoop_contents room data.tx 64 0 enough
  rw [Int.natCast_zero, Int.sub_zero] at loop
  exact loop

/-- Of the bytes taken out of the ring all are accepted, or the last one is lost. -/
theorem driverAccepts_append_iff (waiting : List UInt8) :
    driverAccepts room (waiting.take (room + 1).toNat) ++ waiting.drop (room + 1).toNat =
        waiting ↔ HasRoom room waiting.length := by
  rw [HasRoom, driverAccepts, List.length_take]
  constructor
  · intro kept
    have lengths := congrArg List.length kept
    simp only [List.length_append, List.length_take, List.length_drop] at lengths
    omega
  · intro space
    have all : (min (min (room + 1).toNat waiting.length : Nat) room : Int).toNat =
        min (room + 1).toNat waiting.length ∨ room < 0 := by omega
    rcases all with all | negative
    · rw [all, List.take_take, Nat.min_assoc, Nat.min_comm waiting.length, ← Nat.min_assoc,
        Nat.min_self, ← List.take_take, List.take_length, List.take_append_drop]
    · have none : (room + 1).toNat = 0 := by omega
      simp [none]

/-- Waking the driver keeps the order exactly when it has room for all bytes in the ring. -/
theorem writeWakeup_inOrder_iff (ordered : accepted ++ data.tx.contents = taken) :
    accepted ++ driverAccepts room (tuxctlLdiscWriteWakeup room data).1 ++
        (tuxctlLdiscWriteWakeup room data).2.tx.contents = taken ↔
      HasRoom room data.tx.used := by
  obtain ⟨offered, rest⟩ := tuxctlLdiscWriteWakeup_contents room data
  rw [offered, rest, ← ordered, List.append_assoc, List.append_cancel_left_eq,
    driverAccepts_append_iff, Ring.contents_length]

/-- What `tuxctl_ldisc_put` stores is what it reports as written. -/
theorem fill_stored (buf : List UInt8) (tx : Ring UInt8 64) :
    (Ring.fill buf tx).2.contents =
        tx.contents ++ buf.take (buf.length - (Ring.fill buf tx).1.length) ∧
      (Ring.fill buf tx).2.used = min (tx.used + buf.length) 63 := by
  obtain ⟨contents, rest⟩ := Ring.fill_contents buf tx
  have stored : buf.take (buf.length - (Ring.fill buf tx).1.length) = buf.take tx.room := by
    rw [rest, List.length_drop, List.take_eq_take_iff]
    omega
  refine ⟨by rw [contents, stored], ?_⟩
  have bound := tx.used_lt
  rw [← Ring.contents_length, contents, List.length_append, List.length_take,
    Ring.contents_length, Ring.room]
  omega

end

theorem Transmission.opened_inOrder (rxBuf txBuf : Fin 64 → UInt8) :
    (Transmission.opened rxBuf txBuf).InOrder :=
  Ring.contents_of_empty rfl

/-- A call keeps the order exactly when it is safe. -/
theorem TransmitStep.inOrder_iff {before after : Transmission} {call : TransmitCall}
    (step : TransmitStep before call after) (ordered : before.InOrder) :
    after.InOrder ↔ call.Safe before := by
  rw [step]
  cases call with
  | put buf room =>
      obtain ⟨contents, used⟩ := fill_stored buf before.data.tx
      have stored : before.accepted ++ (Ring.fill buf before.data.tx).2.contents =
          before.taken ++ buf.take (buf.length - (Ring.fill buf before.data.tx).1.length) := by
        rw [contents, ← List.append_assoc, ordered]
      rw [TransmitCall.Safe, ← used]
      exact writeWakeup_inOrder_iff stored
  | writeWakeup room => exact writeWakeup_inOrder_iff ordered

/-- A call that loses nothing keeps the order and takes its whole buffer. -/
theorem TransmitCall.Lossless.call {before : Transmission} {call : TransmitCall}
    (lossless : call.Lossless before) (ordered : before.InOrder) :
    (before.call call).InOrder ∧
      (before.call call).taken = before.taken ++ call.buffer.getD [] := by
  have step : TransmitStep before call (before.call call) := rfl
  cases call with
  | writeWakeup room =>
      exact ⟨(step.inOrder_iff ordered).mpr lossless, (List.append_nil _).symm⟩
  | put buf room =>
      obtain ⟨fits, space⟩ := lossless
      refine ⟨(step.inOrder_iff ordered).mpr ?_, ?_⟩
      · rw [TransmitCall.Safe, Nat.min_eq_left fits]
        exact space
      · have all : (Ring.fill buf before.data.tx).1.length = 0 := by
          rw [(Ring.fill_contents buf before.data.tx).2, Ring.room, List.length_drop]
          omega
        have whole : (before.call (.put buf room)).taken =
            before.taken ++ buf.take (buf.length - (Ring.fill buf before.data.tx).1.length) := rfl
        rw [whole, all, Nat.sub_zero, List.take_length]
        rfl

/-- So do calls after one another. -/
theorem Transmission.Lossless.callAll {before : Transmission} {calls : List TransmitCall}
    (lossless : before.Lossless calls) (ordered : before.InOrder) :
    (before.callAll calls).InOrder ∧
      (before.callAll calls).taken =
        before.taken ++ (calls.filterMap TransmitCall.buffer).flatten := by
  induction calls generalizing before with
  | nil => exact ⟨ordered, (List.append_nil _).symm⟩
  | cons call calls ih =>
      obtain ⟨ordered', taken⟩ := lossless.1.call ordered
      obtain ⟨ordered'', taken'⟩ := ih lossless.2 ordered'
      refine ⟨ordered'', taken'.trans ?_⟩
      rw [taken, List.append_assoc]
      cases call <;> rfl

/-- In a run from an open line discipline the bytes accepted by the driver followed by those
in the ring are the bytes put, in order, exactly as long as the driver has room for all that
the ring holds whenever it is woken. -/
theorem bytes_in_order_iff_room {rxBuf txBuf : Fin 64 → UInt8} {calls : List TransmitCall}
    {last : Transmission} :
    Run (fun before call after => TransmitStep before call after ∧ after.InOrder)
        (.opened rxBuf txBuf) calls last ↔
      Run (fun before call after => TransmitStep before call after ∧ call.Safe before)
        (.opened rxBuf txBuf) calls last :=
  Run.good_iff_allowed Transmission.InOrder (fun _ _ after => after.InOrder)
    (fun before (call : TransmitCall) => call.Safe before)
    (fun _ _ _ ordered step => step.inOrder_iff ordered) (fun _ _ _ _ _ ordered => ordered)
    (Transmission.opened_inOrder rxBuf txBuf)

/-- Of the two bytes of `tux_init` the second is lost when the driver has room for one. -/
theorem bytes_not_always_in_order :
    ∃ last, Run TransmitStep (.opened (fun _ => 0) (fun _ => 0)) [.put [0xC3, 0xC8] 1] last ∧
      last.accepted = [0xC3] ∧ last.data.tx.contents = [] ∧ last.taken = [0xC3, 0xC8] ∧
      ¬last.InOrder := by
  refine ⟨_, .single rfl, by decide, by decide, by decide, by decide⟩

end Ece391.TuxDriver
