import Ece391.Library.Packets
import Ece391.Library.Ring
import Mathlib.Data.List.GetD

/-!
# The line discipline of the Tux controller

The line discipline keeps the bytes received from the controller and the bytes to be sent
to it in two rings.  The serial driver below it is not modelled: a call that reaches it
takes the value of its `write_room` as an argument and yields the bytes it was offered.
-/

namespace Ece391.TuxDriver

open Ece391.Library

/-- `tuxctl_ldisc_data_t`, with `TUXCTL_BUFSIZE` 64. -/
structure LdiscData where
  rx : Ring UInt8 64
  tx : Ring UInt8 64

/-- A packet passed to `tuxctl_handle_packet`. -/
abbrev Packet := Triple UInt8

/-- The fields set by `tuxctl_ldisc_open`.  The buffers are as `kmalloc` returned them. -/
def tuxctlLdiscOpen (rxBuf txBuf : Fin 64 → UInt8) : LdiscData where
  rx := ⟨rxBuf, 0, 0⟩
  tx := ⟨txBuf, 0, 0⟩

/-! ## Sending -/

/-- The loop of `tuxctl_ldisc_write_wakeup` from a value of `n` on.  Each round takes a byte
out of the ring, so 64 rounds are enough. -/
def writeWakeupLoop (room : Int) :
    (fuel : Nat) → (n : Nat) → Ring UInt8 64 → List UInt8 × Ring UInt8 64
  | 0, _, tx => ([], tx)
  | fuel + 1, n, tx =>
      if n ≤ room ∧ ¬tx.Empty then
        let (buf, rest) := writeWakeupLoop room fuel (n + 1) tx.pop
        (tx.buf tx.start :: buf, rest)
      else ([], tx)

/-- `tuxctl_ldisc_write_wakeup`: the bytes offered to the driver. -/
def tuxctlLdiscWriteWakeup (room : Int) (data : LdiscData) : List UInt8 × LdiscData :=
  let (buf, tx) := writeWakeupLoop room 64 0 data.tx
  (buf, { data with tx := tx })

/-- What `tuxctl_ldisc_put` returns, the bytes offered to the driver, and the rings. -/
structure PutResult where
  notWritten : Nat
  offered : List UInt8
  data : LdiscData

/-- `tuxctl_ldisc_put`. -/
def tuxctlLdiscPut (buf : List UInt8) (room : Int) (data : LdiscData) : PutResult :=
  let (rest, tx) := Ring.fill buf data.tx
  let (offered, data) := tuxctlLdiscWriteWakeup room { data with tx := tx }
  ⟨rest.length, offered, data⟩

/-! ## Receiving -/

/-- `tuxctl_ldisc_get`. -/
def tuxctlLdiscGet (n : Nat) (data : LdiscData) : List UInt8 × LdiscData :=
  let (buf, rx) := Ring.drain n data.rx
  (buf, { data with rx := rx })

/-- The check of the framing bits. -/
def framed (packet : Packet) : Bool :=
  packet.first &&& 0x80 = 0 ∧ packet.second &&& 0x80 ≠ 0 ∧ packet.third &&& 0x80 ≠ 0

/-- The loop of `tuxctl_ldisc_data_callback` over the potential packet beginnings: the
packets handled, and the last value of `i`. -/
def callbackLoop (packet : List UInt8) : (fuel : Nat) → (i : Nat) → List Packet × Nat
  | 0, i => ([], i)
  | fuel + 1, i =>
      if (i : Int) < packet.length - 2 then
        let p : Packet := ⟨packet.getD i 0, packet.getD (i + 1) 0, packet.getD (i + 2) 0⟩
        if framed p then
          let later := callbackLoop packet fuel (i + 3)
          (p :: later.1, later.2)
        else callbackLoop packet fuel (i + 1)
      else ([], i)

section

variable {packet : List UInt8} {i fuel : Nat}

theorem drop_two (more : i + 1 < packet.length) :
    packet.drop i = packet.getD i 0 :: packet.getD (i + 1) 0 :: packet.drop (i + 2) := by
  rw [List.drop_eq_getElem_cons (by omega), List.drop_eq_getElem_cons more,
    List.getD_eq_getElem _ _ (by omega), List.getD_eq_getElem _ _ more]

theorem drop_three (more : i + 2 < packet.length) :
    packet.drop i =
      packet.getD i 0 :: packet.getD (i + 1) 0 :: packet.getD (i + 2) 0 :: packet.drop (i + 3) := by
  rw [drop_two (by omega), List.drop_eq_getElem_cons more, List.getD_eq_getElem _ _ more]

/-- The loop decodes the bytes from `i` on. -/
theorem callbackLoop_packets (enough : packet.length ≤ i + fuel) :
    (callbackLoop packet fuel i).1 = (packets framed (packet.drop i)).1 ∧
      packet.drop (callbackLoop packet fuel i).2 = (packets framed (packet.drop i)).2 := by
  induction fuel generalizing i with
  | zero =>
      have short : packet.drop i = [] := List.drop_eq_nil_of_le enough
      rw [packets_short (by simp [short])]
      exact ⟨rfl, rfl⟩
  | succ fuel ih =>
      simp only [callbackLoop]
      split
      next more =>
        rw [drop_three (by omega)]
        split
        next accepted =>
          obtain ⟨handled, left⟩ := ih (i := i + 3) (by omega)
          rw [packets_accepted accepted]
          exact ⟨congrArg _ handled, left⟩
        next rejected =>
          obtain ⟨handled, left⟩ := ih (i := i + 1) (by omega)
          rw [packets_skipped rejected, ← drop_two (by omega)]
          exact ⟨handled, left⟩
      next last =>
        rw [packets_short (by rw [List.length_drop]; omega)]
        exact ⟨rfl, rfl⟩

/-- The bytes after the loop fit in `saved`. -/
theorem callbackLoop_left (packet : List UInt8) :
    (packet.drop (callbackLoop packet packet.length 0).2).length ≤ 2 := by
  rw [(callbackLoop_packets (by omega)).2]
  exact packets_left_length ..

end

/-- The rings, and the first `n_saved` bytes of the static array `saved`. -/
structure Receiver where
  data : LdiscData
  saved : List UInt8
  saved_le : saved.length ≤ 2

/-- `tuxctl_ldisc_data_callback`: the packets passed to `tuxctl_handle_packet`, which does
not use the receive ring, and what is left for the next call. -/
def tuxctlLdiscDataCallback (receiver : Receiver) : List Packet × Receiver :=
  let taken := tuxctlLdiscGet (12 - receiver.saved.length) receiver.data
  let packet := receiver.saved ++ taken.1
  let handled := callbackLoop packet packet.length 0
  (handled.1, ⟨taken.2, packet.drop handled.2, callbackLoop_left packet⟩)

/-- `tuxctl_ldisc_rcv_buf`, for an open line discipline. -/
def tuxctlLdiscRcvBuf (cp : List UInt8) (receiver : Receiver) : List Packet × Receiver :=
  let stored := Ring.fill cp receiver.data.rx
  tuxctlLdiscDataCallback { receiver with data := { receiver.data with rx := stored.2 } }

end Ece391.TuxDriver
