import Ece391.Library.Run
import Ece391.TuxDriver.LineDiscipline

/-!
# The Tux controller driver

The packet handler and the ioctls share the acknowledge flag, the buttons and the last value
of the LEDs.  The buffers they put are sequences of protocol commands, and each function
yields the commands it sends.
-/

namespace Ece391.TuxDriver

open Ece391.Library

/-! ## The protocol -/

/-- `MTCP_RESP`. -/
def mtcpResp (n : UInt8) : UInt8 :=
  (n &&& 7) ||| ((n &&& (0x18 : UInt8)) <<< (1 : UInt8)) ||| 0x40

def mtcpAck : UInt8 := mtcpResp 0x0

def mtcpBiocEvent : UInt8 := mtcpResp 0x1

def mtcpReset : UInt8 := mtcpResp 0x6

/-- `MTCP_CMD`. -/
def mtcpCmd (c : UInt8) : UInt8 :=
  0xC0 ||| c

def mtcpBiocOn : UInt8 := mtcpCmd 0x3

def mtcpLedSet : UInt8 := mtcpCmd 0x6

def mtcpLedUsr : UInt8 := mtcpCmd 0x8

/-- A command, as the driver means it. -/
inductive Command where
  | biocOn
  | ledUsr
  | ledSet (arguments : List UInt8)
  deriving DecidableEq, Repr

/-- The bytes put for a command. -/
def Command.bytes : Command → List UInt8
  | .biocOn => [mtcpBiocOn]
  | .ledUsr => [mtcpLedUsr]
  | .ledSet arguments => mtcpLedSet :: arguments

/-! ## The driver -/

/-- The global variables `ack_flag`, `button_val[0]` and `prev_state_leds`. -/
structure Controller where
  ackFlag : Int
  buttonVal : UInt8
  prevStateLeds : UInt32
  deriving DecidableEq, Repr

/-- The values they are initialised with. -/
def Controller.initial : Controller where
  ackFlag := 1
  buttonVal := 0
  prevStateLeds := 0

/-- `hex_num_to_byte`. -/
def hexNumToByte (input : UInt8) : UInt8 :=
  [0xE7, 0x06, 0xCB, 0x8F, 0x2E, 0xAD, 0xED, 0x86, 0xEF, 0xAF, 0xEE, 0x6D, 0xE1, 0x4F, 0xEA,
    0xE8].getD input.toNat 0

def bitwiseMask : UInt32 := 0x0F

def bitwiseMask2 : UInt32 := 0x08

/-- The four bits of an argument from a bit on. -/
def extract (arg msb : UInt32) : UInt32 :=
  ((bitwiseMask <<< msb) &&& arg) >>> msb

/-- The byte that `tux_set_led` computes for one LED: the digit and the decimal point, or
nothing when the LED is off. -/
def ledByte (arg led : UInt32) : UInt8 :=
  let hex := ((arg >>> (4 * led)) &&& (0x000F : UInt32)).toUInt8
  let status := (extract arg 16 &&& (bitwiseMask2 >>> (3 - led))) >>> led
  let decimal := ((extract arg 24 &&& (bitwiseMask2 >>> (3 - led))) <<< (4 - led)).toUInt8
  if status = 0 then 0x00 else hexNumToByte hex + decimal

/-- `tux_set_led`: the argument bytes of the command in `led_set_buf`. -/
def tuxSetLed (arg : UInt32) : List Command :=
  [.ledSet [(extract arg 16).toUInt8, ledByte arg 0, ledByte arg 1, ledByte arg 2,
    ledByte arg 3]]

/-- `tux_init`. -/
def tuxInit (controller : Controller) : Controller × List Command :=
  ({ controller with ackFlag := 1 }, [.biocOn, .ledUsr])

/-- The buttons of a packet, in the order right, left, down, up, C, B, A, start. -/
def packetButtons (packet : Packet) : UInt8 :=
  let b := packet.second.toUInt32 &&& bitwiseMask
  let c := packet.third.toUInt32 &&& bitwiseMask
  let right := c &&& bitwiseMask2
  let down := (c &&& (bitwiseMask2 >>> (1 : UInt32))) >>> (1 : UInt32)
  let left := (c &&& (bitwiseMask2 >>> (2 : UInt32))) <<< (1 : UInt32)
  let up := c &&& (bitwiseMask2 >>> (3 : UInt32))
  (b ||| ((right + left + down + up) <<< (4 : UInt32))).toUInt8

/-- `tuxctl_handle_packet` from the case of `MTCP_RESET` on. -/
def handleReset (controller : Controller) : Controller × List Command :=
  let initialised := tuxInit controller
  (initialised.1, initialised.2 ++ tuxSetLed initialised.1.prevStateLeds)

/-- `tuxctl_handle_packet` from the case of `MTCP_ACK` on, which has no `break`. -/
def handleAck (controller : Controller) : Controller × List Command :=
  handleReset { controller with ackFlag := 1 }

/-- `tuxctl_handle_packet`.  The case of `MTCP_BIOC_EVENT` has no `break` either. -/
def tuxctlHandlePacket (packet : Packet) (controller : Controller) :
    Controller × List Command :=
  if packet.first = mtcpBiocEvent then
    handleAck { controller with buttonVal := packetButtons packet }
  else if packet.first = mtcpAck then handleAck controller
  else if packet.first = mtcpReset then handleReset controller
  else (controller, [])

/-- The ioctl numbers of `tuxctl-ioctl.h`, and any other. -/
inductive TuxIoctl where
  | setLed
  | readLed
  | buttons
  | init
  | ledRequest
  | ledAck
  | other
  deriving DecidableEq, Repr

/-- What an ioctl returns, the byte it copies to the user, and the commands it sends. -/
structure IoctlResult where
  ret : Int
  copied : Option UInt8
  sent : List Command
  controller : Controller

/-- `tux_buttons`, where `copy_to_user` leaves a number of bytes uncopied. -/
def tuxButtons (arg : UInt32) (copyRet : Nat) (controller : Controller) : IoctlResult :=
  if arg = 0 then ⟨-22, none, [], controller⟩
  else if copyRet ≠ 0 then ⟨-22, none, [], controller⟩
  else ⟨0, some controller.buttonVal, [], controller⟩

/-- `tuxctl_ioctl`. -/
def tuxctlIoctl (cmd : TuxIoctl) (arg : UInt32) (copyRet : Nat) (controller : Controller) :
    IoctlResult :=
  match cmd with
  | .init =>
      let initialised := tuxInit controller
      ⟨0, none, initialised.2, initialised.1⟩
  | .buttons => tuxButtons arg copyRet controller
  | .setLed =>
      if controller.ackFlag = 1 then
        ⟨0, none, tuxSetLed arg, { controller with ackFlag := 0, prevStateLeds := arg }⟩
      else ⟨0, none, [], controller⟩
  | .ledAck | .ledRequest | .readLed | .other => ⟨-22, none, [], controller⟩

/-! ## What can happen to the driver -/

/-- A call from above, or a packet from below. -/
inductive DriverEvent where
  | ioctl (cmd : TuxIoctl) (arg : UInt32) (copyRet : Nat)
  | packet (packet : Packet)
  deriving DecidableEq, Repr

/-- An event and the commands that the driver sends while it handles it. -/
structure DriverLabel where
  event : DriverEvent
  sent : List Command
  deriving DecidableEq, Repr

/-- The driver handles an event. -/
inductive DriverStep (before : Controller) : DriverLabel → Controller → Prop where
  | ioctl (cmd : TuxIoctl) (arg : UInt32) (copyRet : Nat) :
      DriverStep before
        ⟨.ioctl cmd arg copyRet, (tuxctlIoctl cmd arg copyRet before).sent⟩
        (tuxctlIoctl cmd arg copyRet before).controller
  | packet (packet : Packet) :
      DriverStep before ⟨.packet packet, (tuxctlHandlePacket packet before).2⟩
        (tuxctlHandlePacket packet before).1

/-- A packet with a given opcode arrives. -/
def DriverLabel.Receives (opcode : UInt8) (label : DriverLabel) : Prop :=
  ∃ packet, label.event = .packet packet ∧ packet.first = opcode

/-- An ioctl with a given number is made. -/
def DriverLabel.Calls (cmd : TuxIoctl) (label : DriverLabel) : Prop :=
  ∃ arg copyRet, label.event = .ioctl cmd arg copyRet

instance (opcode : UInt8) (label : DriverLabel) : Decidable (label.Receives opcode) :=
  match handled : label.event with
  | .packet packet =>
      decidable_of_iff (packet.first = opcode) (by simp [DriverLabel.Receives, handled])
  | .ioctl _ _ _ => .isFalse (by simp [DriverLabel.Receives, handled])

instance (cmd : TuxIoctl) (label : DriverLabel) : Decidable (label.Calls cmd) :=
  match called : label.event with
  | .packet _ => .isFalse (by simp [DriverLabel.Calls, called])
  | .ioctl made _ _ =>
      decidable_of_iff (made = cmd) (by simp [DriverLabel.Calls, called])

section

variable {packet : Packet}

/-- Each of the three packets with a case sends the two initialisation commands and the last
value of the LEDs. -/
theorem tuxctlHandlePacket_sent (packet : Packet) (controller : Controller) :
    (tuxctlHandlePacket packet controller).2 =
      if packet.first = mtcpBiocEvent ∨ packet.first = mtcpAck ∨ packet.first = mtcpReset then
        [.biocOn, .ledUsr] ++ tuxSetLed controller.prevStateLeds
      else [] := by
  simp only [tuxctlHandlePacket]
  split
  next button => simp [button, handleAck, handleReset, tuxInit]
  next other =>
    split
    next ack => simp [ack, handleAck, handleReset, tuxInit]
    next other' =>
      split
      next reset => simp [reset, handleReset, tuxInit]
      next unknown => simp [other, other', unknown]

/-- The other packets change nothing. -/
theorem tuxctlHandlePacket_other (controller : Controller)
    (button : packet.first ≠ mtcpBiocEvent) (ack : packet.first ≠ mtcpAck)
    (reset : packet.first ≠ mtcpReset) :
    tuxctlHandlePacket packet controller = (controller, []) := by
  simp only [tuxctlHandlePacket, button, ack, reset, if_false]

end

end Ece391.TuxDriver
