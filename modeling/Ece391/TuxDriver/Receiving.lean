import Ece391.Library.Run
import Ece391.TuxDriver.LineDiscipline

/-!
# Receiving packets from the controller

Bytes arrive in chunks.  Each chunk is stored in the receive ring, and a callback decodes at
most 12 bytes of it, together with the bytes saved by the callback before.  As long as the
ring has room for the chunks, the packets handled do not depend on how the stream was cut.
-/

namespace Ece391.TuxDriver

open Ece391.Library

/-- The receiver and the packets handled since the start. -/
structure Reception where
  receiver : Receiver
  handled : List Packet

/-- The receive side after `tuxctl_ldisc_open`, with nothing saved. -/
def Reception.opened (rxBuf txBuf : Fin 64 → UInt8) : Reception where
  receiver := ⟨tuxctlLdiscOpen rxBuf txBuf, [], by decide⟩
  handled := []

/-- A chunk that fits in the ring is received. -/
structure RcvStep (before : Reception) (chunk : List UInt8) (after : Reception) : Prop where
  fits : chunk.length ≤ before.receiver.data.rx.room
  result : after =
    ⟨(tuxctlLdiscRcvBuf chunk before.receiver).2,
      before.handled ++ (tuxctlLdiscRcvBuf chunk before.receiver).1⟩

/-- The bytes received that are not part of a handled packet and not skipped yet. -/
def Receiver.pending (receiver : Receiver) : List UInt8 :=
  receiver.saved ++ receiver.data.rx.contents

section

variable {receiver : Receiver} {chunk more : List UInt8}

/-- A callback handles the packets at the front of the pending bytes. -/
theorem tuxctlLdiscDataCallback_packets (receiver : Receiver) (more : List UInt8) :
    packets framed (receiver.pending ++ more) =
      ((tuxctlLdiscDataCallback receiver).1 ++
          (packets framed ((tuxctlLdiscDataCallback receiver).2.pending ++ more)).1,
        (packets framed ((tuxctlLdiscDataCallback receiver).2.pending ++ more)).2) := by
  obtain ⟨taken, rest⟩ := Ring.drain_contents (12 - receiver.saved.length) receiver.data.rx
  let front := receiver.saved ++ (tuxctlLdiscGet (12 - receiver.saved.length) receiver.data).1
  have enough : front.length ≤ 0 + front.length := by omega
  obtain ⟨handled, left⟩ := callbackLoop_packets enough
  have split : receiver.pending ++ more =
      front ++ (receiver.data.rx.contents.drop (12 - receiver.saved.length) ++ more) := by
    simp only [front, tuxctlLdiscGet, taken, Receiver.pending, List.append_assoc]
    rw [← List.append_assoc (List.take _ _), List.take_append_drop]
  have after : (tuxctlLdiscDataCallback receiver).2.pending =
      front.drop (callbackLoop front front.length 0).2 ++
        receiver.data.rx.contents.drop (12 - receiver.saved.length) := by
    rw [← rest]
    rfl
  rw [split, packets_append, after, left, List.append_assoc]
  have same : (tuxctlLdiscDataCallback receiver).1 = (packets framed front).1 := handled
  rw [same]
  rfl

/-- A chunk that fits is appended to the pending bytes before they are decoded. -/
theorem tuxctlLdiscRcvBuf_packets (fits : chunk.length ≤ receiver.data.rx.room)
    (more : List UInt8) :
    packets framed (receiver.pending ++ chunk ++ more) =
      ((tuxctlLdiscRcvBuf chunk receiver).1 ++
          (packets framed ((tuxctlLdiscRcvBuf chunk receiver).2.pending ++ more)).1,
        (packets framed ((tuxctlLdiscRcvBuf chunk receiver).2.pending ++ more)).2) := by
  obtain ⟨stored, -⟩ := Ring.fill_contents chunk receiver.data.rx
  rw [List.take_of_length_le fits] at stored
  have pending : receiver.pending ++ chunk =
      Receiver.pending { receiver with
        data := { receiver.data with rx := (Ring.fill chunk receiver.data.rx).2 } } := by
    rw [Receiver.pending, Receiver.pending, stored, List.append_assoc]
  rw [pending]
  exact tuxctlLdiscDataCallback_packets ..

end

/-- The packets handled and those still pending make up the stream received so far. -/
def Reception.Faithful (stream : List UInt8) (reception : Reception) : Prop :=
  ∀ more, (packets framed (stream ++ more)).1 =
    reception.handled ++ (packets framed (reception.receiver.pending ++ more)).1

theorem RcvStep.faithful {before after : Reception} {stream chunk : List UInt8}
    (step : RcvStep before chunk after) (faithful : before.Faithful stream) :
    after.Faithful (stream ++ chunk) := by
  intro more
  have decoded := congrArg Prod.fst (tuxctlLdiscRcvBuf_packets step.fits more)
  rw [List.append_assoc, faithful, ← List.append_assoc, decoded, step.result, List.append_assoc]

/-- However the stream is cut into chunks that fit in the ring, the packets handled are at
every moment a prefix of the packets of the whole stream, whatever is still to come, and
those missing are the packets of the bytes that wait in `saved` and in the ring. -/
theorem packets_handled_in_order {rxBuf txBuf : Fin 64 → UInt8} {chunks : List (List UInt8)}
    {last : Reception} (run : Run RcvStep (.opened rxBuf txBuf) chunks last)
    (future : List UInt8) :
    last.handled <+: (packets framed (chunks.flatten ++ future)).1 ∧
      (packets framed (chunks.flatten ++ future)).1 =
        last.handled ++ (packets framed (last.receiver.pending ++ future)).1 := by
  have faithful : last.Faithful chunks.flatten := by
    refine run.history (fun past reception => reception.Faithful past.flatten) ?_ [] ?_
    · intro past before chunk after faithful step
      rw [List.flatten_append, List.flatten_singleton]
      exact step.faithful faithful
    · intro more
      rfl
  exact ⟨(faithful future).symm ▸ List.prefix_append .., faithful future⟩

/-- An acknowledgement that arrives in two pieces after a stray byte. -/
theorem packets_handled_in_order_split :
    ∃ last, Run RcvStep (.opened (fun _ => 0) (fun _ => 0)) [[0x80, 0x40], [0x80, 0x80]] last ∧
      last.handled <+: (packets framed [0x80, 0x40, 0x80, 0x80]).1 := by
  have run : Run RcvStep (.opened (fun _ => 0) (fun _ => 0)) [[0x80, 0x40], [0x80, 0x80]] _ :=
    .cons ⟨by decide, rfl⟩ (.single ⟨by decide, rfl⟩)
  exact ⟨_, run, by simpa using (packets_handled_in_order run []).1⟩

end Ece391.TuxDriver
