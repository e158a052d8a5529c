import Ece391.ModeX.Board
import Ece391.TuxDriver.Controller
import Mathlib.Data.List.Induction

/-!
# The buttons of the controller in the game

A button that is pressed or released sends a packet, whose bytes come in chunks.  `rtc_thread` polls
the buttons at each tick and wakes `tux_thread` while any of them is down, `tux_thread` stores a
direction for the keyboard and for itself in `next_dir`, and nothing orders these steps.  What
`tux_thread` stores is always the direction of the only button that the last event before the last
poll has reported as down.
-/

namespace Ece391.TuxDriver

open Ece391.Library
open Ece391.ModeX (Direction)

/-! ## The threads -/

/-- The `switch` of `tux_thread`; the buttons start, A, B and C have empty cases. -/
def tuxSwitch (buttons : UInt8) : Option Direction :=
  if buttons = 0xEF then some .up
  else if buttons = 0xDF then some .down
  else if buttons = 0x7F then some .right
  else if buttons = 0xBF then some .left
  else none

/-- What happens to the buttons, in any order. -/
inductive PadEvent where
  /-- Bytes from the controller. -/
  | chunk (cp : List UInt8)
  /-- Another ioctl of the game. -/
  | ioctl (cmd : TuxIoctl) (arg : UInt32) (copyRet : Nat)
  /-- `TUX_BUTTONS` and the comparison behind it, in `rtc_thread`. -/
  | poll (arg : UInt32) (copyRet : Nat)
  /-- `tux_thread` finds `buttons_pressed` and goes past its wait. -/
  | wakes
  /-- The `switch` of `tux_thread`. -/
  | switches
  /-- `keyboard_thread` stores a direction. -/
  | key (direction : Direction)
  /-- `rtc_thread` starts a level. -/
  | level

/-- The driver, the variables of the game, whether `tux_thread` is past its wait, and the packets
that have been handled. -/
structure Pad where
  receiver : Receiver
  controller : Controller
  buttons : UInt8
  buttonsPressed : Bool
  awake : Bool
  nextDir : Direction
  handled : List Packet

namespace Pad

/-- When the first level has been started. -/
def initial (rxBuf txBuf : Fin 64 → UInt8) : Pad where
  receiver := ⟨tuxctlLdiscOpen rxBuf txBuf, [], Nat.zero_le 2⟩
  controller := .initial
  buttons := 0
  buttonsPressed := false
  awake := false
  nextDir := .stop
  handled := []

/-- The direction that an event stores in `next_dir`. -/
def stores (pad : Pad) : PadEvent → Option Direction
  | .switches => if pad.awake then tuxSwitch pad.buttons else none
  | .key direction => some direction
  | .level => some .stop
  | .chunk _ | .ioctl .. | .poll .. | .wakes => none

/-- An event. -/
def step (pad : Pad) (event : PadEvent) : Pad :=
  let pad := { pad with nextDir := (pad.stores event).getD pad.nextDir }
  match event with
  | .chunk cp =>
      let (packets, receiver) := tuxctlLdiscRcvBuf cp pad.receiver
      { pad with
        receiver
        controller := packets.foldl (fun controller packet =>
          (tuxctlHandlePacket packet controller).1) pad.controller
        handled := pad.handled ++ packets }
  | .ioctl cmd arg copyRet =>
      { pad with controller := (tuxctlIoctl cmd arg copyRet pad.controller).controller }
  | .poll arg copyRet =>
      let result := tuxctlIoctl .buttons arg copyRet pad.controller
      let buttons := result.copied.getD pad.buttons
      { pad with controller := result.controller, buttons, buttonsPressed := buttons != 0xFF }
  | .wakes => { pad with awake := pad.awake || pad.buttonsPressed }
  | .switches => { pad with awake := false }
  | .key _ | .level => pad

/-- The state after some events. -/
def play (pad : Pad) (events : List PadEvent) : Pad :=
  events.foldl step pad

end Pad

/-! ## What is reported -/

/-- A poll that reaches the game. -/
def PadEvent.Polls : PadEvent → Prop
  | .poll arg copyRet => arg ≠ 0 ∧ copyRet = 0
  | _ => False

/-- The direction whose button is the only one that a packet reports as down.  A button that is down
has its bit clear. -/
def heldAlone (packet : Packet) : Option Direction :=
  if packet.second &&& 0x0F ≠ 0x0F then none
  else if packet.third &&& 0x0F = 0x0E then some .up
  else if packet.third &&& 0x0F = 0x0B then some .down
  else if packet.third &&& 0x0F = 0x07 then some .right
  else if packet.third &&& 0x0F = 0x0D then some .left
  else none

/-- The last event of the buttons among some packets. -/
def lastPress (handled : List Packet) : Option Packet :=
  (handled.filter fun packet => packet.first = mtcpBiocEvent).getLast?

/-- The byte that the driver keeps after some packets. -/
def keptButtons (handled : List Packet) : UInt8 :=
  (lastPress handled).elim 0 packetButtons

section

variable {packet : Packet} {handled : List Packet} {pad : Pad} {event : PadEvent}
variable {events : List PadEvent}

theorem tuxctlHandlePacket_buttonVal (packet : Packet) (controller : Controller) :
    (tuxctlHandlePacket packet controller).1.buttonVal =
      if packet.first = mtcpBiocEvent then packetButtons packet else controller.buttonVal := by
  rw [tuxctlHandlePacket]
  split
  · rfl
  split
  · rfl
  split <;> rfl

theorem tuxctlIoctl_buttonVal (cmd : TuxIoctl) (arg : UInt32) (copyRet : Nat)
    (controller : Controller) :
    (tuxctlIoctl cmd arg copyRet controller).controller.buttonVal = controller.buttonVal := by
  cases cmd with
  | setLed =>
      simp only [tuxctlIoctl]
      split <;> rfl
  | buttons =>
      simp only [tuxctlIoctl, tuxButtons]
      split
      · rfl
      · split <;> rfl
  | init | readLed | ledRequest | ledAck | other => rfl

theorem tuxSwitch_low : ∀ b < 16, ∀ c < 16,
    tuxSwitch (packetButtons ⟨0, UInt8.ofNat b, UInt8.ofNat c⟩) =
      heldAlone ⟨0, UInt8.ofNat b, UInt8.ofNat c⟩ := by
  decide

/-- Only the low bits of a byte count. -/
theorem low_bits (byte : UInt8) :
    UInt8.ofNat (byte.toNat % 16) &&& 0x0F = byte &&& 0x0F ∧
      (UInt8.ofNat (byte.toNat % 16)).toUInt32 &&& bitwiseMask = byte.toUInt32 &&& bitwiseMask := by
  have low : (byte.toNat % 16) % 256 = byte.toNat % 16 := by omega
  constructor
  · rw [← UInt8.toNat_inj, UInt8.toNat_and, UInt8.toNat_and, UInt8.toNat_ofNat', low]
    exact (Nat.and_two_pow_sub_one_eq_mod _ 4).trans
      ((Nat.mod_mod ..).trans (Nat.and_two_pow_sub_one_eq_mod _ 4).symm)
  · rw [← UInt32.toNat_inj, UInt32.toNat_and, UInt32.toNat_and, UInt8.toNat_toUInt32,
      UInt8.toNat_toUInt32, UInt8.toNat_ofNat', low]
    exact (Nat.and_two_pow_sub_one_eq_mod _ 4).trans
      ((Nat.mod_mod ..).trans (Nat.and_two_pow_sub_one_eq_mod _ 4).symm)

/-- `tux_thread` finds the direction of the only button that is down. -/
theorem tuxSwitch_packetButtons (packet : Packet) :
    tuxSwitch (packetButtons packet) = heldAlone packet := by
  have low := tuxSwitch_low _ (Nat.mod_lt packet.second.toNat (by decide)) _
    (Nat.mod_lt packet.third.toNat (by decide))
  obtain ⟨second, second'⟩ := low_bits packet.second
  obtain ⟨third, third'⟩ := low_bits packet.third
  simp only [packetButtons, heldAlone, second, second', third, third'] at low
  exact low

theorem lastPress_concat :
    lastPress (handled ++ [packet]) =
      if packet.first = mtcpBiocEvent then some packet else lastPress handled := by
  rw [lastPress, List.filter_append]
  by_cases press : packet.first = mtcpBiocEvent
  · simp [press]
  · simp [press, lastPress]

theorem handled_buttonVal (packets : List Packet) (controller : Controller)
    (kept : controller.buttonVal = keptButtons handled) :
    (packets.foldl (fun controller packet => (tuxctlHandlePacket packet controller).1)
      controller).buttonVal = keptButtons (handled ++ packets) := by
  induction packets generalizing controller handled with
  | nil => rwa [List.append_nil]
  | cons packet packets ih =>
      rw [List.foldl_cons, List.append_cons]
      apply ih
      rw [tuxctlHandlePacket_buttonVal, keptButtons, lastPress_concat]
      split
      · rfl
      · exact kept

/-- The driver keeps the buttons of the last event. -/
theorem Pad.step_kept (kept : pad.controller.buttonVal = keptButtons pad.handled)
    (event : PadEvent) :
    (pad.step event).controller.buttonVal = keptButtons (pad.step event).handled := by
  cases event with
  | chunk cp => exact handled_buttonVal _ _ kept
  | ioctl cmd arg copyRet => exact (tuxctlIoctl_buttonVal ..).trans kept
  | poll arg copyRet => exact (tuxctlIoctl_buttonVal ..).trans kept
  | wakes | switches | key direction | level => exact kept

theorem Pad.play_kept (kept : pad.controller.buttonVal = keptButtons pad.handled)
    (events : List PadEvent) :
    (pad.play events).controller.buttonVal = keptButtons (pad.play events).handled := by
  induction events generalizing pad with
  | nil => exact kept
  | cons event events ih => exact ih (pad.step_kept kept event)

/-- A poll that reaches the game copies what the driver keeps. -/
theorem Pad.step_polls (polls : event.Polls) :
    (pad.step event).buttons = pad.controller.buttonVal := by
  cases event with
  | poll arg copyRet =>
      obtain ⟨address, rfl⟩ := polls
      simp only [Pad.step, tuxctlIoctl, tuxButtons, if_neg address]
      rfl
  | chunk _ | ioctl _ _ _ | wakes | switches | key _ | level => exact polls.elim

/-- Nothing else changes the copy. -/
theorem Pad.step_buttons (other : ¬event.Polls) : (pad.step event).buttons = pad.buttons := by
  cases event with
  | poll arg copyRet =>
      have failed : (tuxctlIoctl .buttons arg copyRet pad.controller).copied = none := by
        simp only [tuxctlIoctl, tuxButtons]
        split
        · rfl
        next address =>
          rw [if_pos fun done => other ⟨address, done⟩]
      change ((tuxctlIoctl .buttons arg copyRet pad.controller).copied.getD pad.buttons) = _
      rw [failed]
      rfl
  | chunk _ | ioctl _ _ _ | wakes | switches | key _ | level => rfl

theorem Pad.play_buttons (others : ∀ event ∈ events, ¬event.Polls) :
    (pad.play events).buttons = pad.buttons := by
  induction events generalizing pad with
  | nil => rfl
  | cons event events ih =>
      rw [Pad.play, List.foldl_cons]
      exact (ih fun later inside => others later (List.mem_cons_of_mem _ inside)).trans
        (Pad.step_buttons (others event List.mem_cons_self))

/-- The copy is what the driver kept at the last poll. -/
theorem Pad.play_polled {past rest : List PadEvent} {poll : PadEvent}
    (kept : pad.controller.buttonVal = keptButtons pad.handled) (polls : poll.Polls)
    (others : ∀ event ∈ rest, ¬event.Polls) :
    (pad.play (past ++ poll :: rest)).buttons = keptButtons (pad.play past).handled := by
  rw [Pad.play, List.foldl_append, List.foldl_cons]
  exact (Pad.play_buttons others).trans
    ((Pad.step_polls polls).trans (Pad.play_kept kept past))

theorem last_poll (events : List PadEvent) :
    (∀ event ∈ events, ¬event.Polls) ∨
      ∃ past poll rest, events = past ++ poll :: rest ∧ poll.Polls ∧
        ∀ event ∈ rest, ¬event.Polls := by
  induction events with
  | nil => exact .inl nofun
  | cons event events ih =>
      rcases ih with none | ⟨past, poll, rest, rfl, polls, others⟩
      · by_cases polls : event.Polls
        · exact .inr ⟨[], event, events, rfl, polls, none⟩
        · exact .inl (List.forall_mem_cons.mpr ⟨polls, none⟩)
      · exact .inr ⟨event :: past, poll, rest, rfl, polls, others⟩

theorem tuxSwitch_keptButtons (handled : List Packet) (direction : Direction) :
    tuxSwitch (keptButtons handled) = some direction ↔
      ∃ packet, lastPress handled = some packet ∧ heldAlone packet = some direction := by
  rw [keptButtons]
  cases last : lastPress handled with
  | none =>
      have silent : tuxSwitch 0 = none := by decide
      simp [silent]
  | some packet => simp [tuxSwitch_packetButtons]

end

/-- Whatever bytes arrive and however the threads take their turns, the `switch` of `tux_thread`
stores a direction exactly when the thread is past its wait and the last event of the buttons that
had been handled at the last poll reports the button of that direction as the only one down. -/
theorem next_dir_reported (rxBuf txBuf : Fin 64 → UInt8) (events : List PadEvent)
    (direction : Direction) :
    ((Pad.initial rxBuf txBuf).play events).stores .switches = some direction ↔
      ((Pad.initial rxBuf txBuf).play events).awake = true ∧
        ∃ past poll rest packet, events = past ++ poll :: rest ∧ poll.Polls ∧
          (∀ event ∈ rest, ¬event.Polls) ∧
            lastPress ((Pad.initial rxBuf txBuf).play past).handled = some packet ∧
              heldAlone packet = some direction := by
  have kept : (Pad.initial rxBuf txBuf).controller.buttonVal =
      keptButtons (Pad.initial rxBuf txBuf).handled := rfl
  rw [Pad.stores]
  split
  next awake =>
    simp only [awake, true_and]
    constructor
    · intro stored
      rcases last_poll events with none | ⟨past, poll, rest, rfl, polls, others⟩
      · rw [Pad.play_buttons none] at stored
        cases stored
      · rw [Pad.play_polled kept polls others, tuxSwitch_keptButtons] at stored
        obtain ⟨packet, last, alone⟩ := stored
        exact ⟨past, poll, rest, packet, rfl, polls, others, last, alone⟩
    · rintro ⟨past, poll, rest, packet, rfl, polls, others, last, alone⟩
      rw [Pad.play_polled kept polls others, tuxSwitch_keptButtons]
      exact ⟨packet, last, alone⟩
  next asleep => simp [asleep]

end Ece391.TuxDriver
