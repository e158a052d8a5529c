import Ece391.Library.Repeats
import Ece391.TuxDriver.LedStream
import Ece391.TuxDriver.Transmitting

/-!
# The clock of the game on the controller

The maze game sends the elapsed time to the driver at each tick, the driver drops the updates that
come before an acknowledgement and repeats the last one after every packet, and the line discipline
passes the bytes of all of them to the serial driver.  As long as it loses none of them, the device
has shown the times that the driver has taken, in order, whatever packets arrive when, and however
far it has read; it finds a byte that is no command exactly when a packet has been answered before
the first time was taken.
-/

namespace Ece391.TuxDriver

open Ece391.Library

/-! ## The game -/

/-- `LED_DEFAULT`. -/
def ledDefault : UInt32 :=
  0x040F0000

/-- `tux_clock`: the argument of its ioctl. -/
def tuxClock (elapsedTime : Nat) : UInt32 :=
  let minute := elapsedTime / 60
  let minute1 := minute % 10
  let minute2 := minute / 10
  let second := elapsedTime % 60
  let second1 := second % 10
  let second2 := second / 10
  ledDefault ||| UInt32.ofNat second1 ||| UInt32.ofNat (second2 <<< 4) |||
    UInt32.ofNat (minute1 <<< 8) ||| UInt32.ofNat (minute2 <<< 12)

/-- What the game asks of the driver, and what arrives from below. -/
inductive GameEvent where
  /-- `TUX_INIT`, in `main`. -/
  | init
  /-- `tux_clock`, at a tick of `rtc_thread`. -/
  | clock (elapsedTime : Nat)
  /-- `TUX_BUTTONS`, at a tick of `rtc_thread`. -/
  | buttons (arg : UInt32) (copyRet : Nat)
  | packet (packet : Packet)
  /-- The serial driver can take more. -/
  | writeWakeup
  deriving DecidableEq

/-- An event, and the calls of the line discipline that are made meanwhile. -/
structure GameLabel where
  event : GameEvent
  calls : List TransmitCall

/-- The driver, the line discipline below it, and the times that the driver has taken. -/
structure Game where
  controller : Controller
  line : Transmission
  times : List Nat

/-- The buffers that commands are put in: `tux_init` puts its two commands at once. -/
def putBuffers : List Command → List (List UInt8)
  | [] => []
  | .biocOn :: .ledUsr :: rest => [mtcpBiocOn, mtcpLedUsr] :: putBuffers rest
  | command :: rest => command.bytes :: putBuffers rest

namespace Game

/-- Before the first event, with the line discipline open. -/
def opened (rxBuf txBuf : Fin 64 → UInt8) : Game :=
  ⟨.initial, .opened rxBuf txBuf, []⟩

/-- What the driver does at an event: its variables, and the commands that it sends. -/
def handles (game : Game) : GameEvent → Controller × List Command
  | .init =>
      let result := tuxctlIoctl .init 0 0 game.controller
      (result.controller, result.sent)
  | .clock elapsedTime =>
      let result := tuxctlIoctl .setLed (tuxClock elapsedTime) 0 game.controller
      (result.controller, result.sent)
  | .buttons arg copyRet =>
      let result := tuxctlIoctl .buttons arg copyRet game.controller
      (result.controller, result.sent)
  | .packet packet => tuxctlHandlePacket packet game.controller
  | .writeWakeup => (game.controller, [])

/-- The time that the driver takes at an event, unless it drops it. -/
def takes (game : Game) : GameEvent → List Nat
  | .clock elapsedTime => if game.controller.ackFlag = 1 then [elapsedTime] else []
  | _ => []

/-- The driver and the line discipline after an event. -/
def step (game : Game) (label : GameLabel) : Game :=
  ⟨(game.handles label.event).1, game.line.callAll label.calls,
    game.times ++ game.takes label.event⟩

/-- The driver after some events. -/
def play (rxBuf txBuf : Fin 64 → UInt8) (labels : List GameLabel) : Game :=
  labels.foldl step (opened rxBuf txBuf)

end Game

/-- The driver puts the commands of an event, and `tuxctl_ldisc_write_wakeup` may be called
besides. -/
structure GameStep (before : Game) (label : GameLabel) (after : Game) : Prop where
  puts : label.calls.filterMap TransmitCall.buffer = putBuffers (before.handles label.event).2
  after : after = before.step label

/-- A step in which no byte is lost. -/
def LosslessStep (before : Game) (label : GameLabel) (after : Game) : Prop :=
  GameStep before label after ∧ before.line.Lossless label.calls

/-! ## The display -/

/-- The arguments of a command that sets LEDs. -/
def Request.update : Request → Option (List UInt8)
  | .command opcode arguments =>
      if opcode = mtcpLedSet ∧ arguments.headD 0 ≠ 0 then some arguments else none
  | .unrecognised _ => none

/-- The settings that a device has displayed after it has read some bytes. -/
def displayed (arrived : List UInt8) : List (List UInt8) :=
  (arrived.foldl Device.read Device.initial).received.filterMap Request.update

/-- The digits of a time, with minutes before seconds. -/
def clockDigit (time : Nat) (led : Fin 4) : Nat :=
  match led.val with
  | 0 => time % 60 % 10
  | 1 => time % 60 / 10
  | 2 => time / 60 % 10
  | _ => time / 600

/-- A setting of all four LEDs that shows a time below 100 minutes, with a point behind the
minutes. -/
def ShowsTime (time : Nat) (arguments : List UInt8) : Prop :=
  arguments.length = 5 ∧ arguments.headD 0 = 0x0F ∧
    (time < 6000 → ∀ led : Fin 4,
      Shows (arguments.getD (1 + led) 0) (clockDigit time led) (led.val == 2))

/-- The display has gone through some times, in order. -/
def RunsThrough (times : List Nat) (settings : List (List UInt8)) : Prop :=
  ∃ shown, Repeats times shown ∧ List.Forall₂ ShowsTime shown settings

/-- A packet that the driver answers. -/
def Answered (packet : Packet) : Prop :=
  packet.first = mtcpBiocEvent ∨ packet.first = mtcpAck ∨ packet.first = mtcpReset

instance (packet : Packet) : Decidable (Answered packet) :=
  inferInstanceAs (Decidable (_ ∨ _))

/-! ## The argument of the clock -/

theorem ledDigit_or (first second : UInt32) (led : Fin 4) :
    ledDigit (first ||| second) led = ledDigit first led ||| ledDigit second led := by
  rw [ledDigit, UInt32.toNat_or, Nat.shiftRight_or_distrib]
  exact Nat.or_mod_two_pow (n := 4)

theorem ledEnabled_or (first second : UInt32) (led : Fin 4) :
    ledEnabled (first ||| second) led = (ledEnabled first led || ledEnabled second led) := by
  rw [ledEnabled, UInt32.toNat_or, Nat.testBit_or]
  rfl

theorem ledPoint_or (first second : UInt32) (led : Fin 4) :
    ledPoint (first ||| second) led = (ledPoint first led || ledPoint second led) := by
  rw [ledPoint, UInt32.toNat_or, Nat.testBit_or]
  rfl

/-- The clock sets all four LEDs, whatever the time is. -/
theorem enablesAll_tuxClock (time : Nat) : EnablesAll (tuxClock time) := by
  intro led
  have enabled : ∀ led, ledEnabled ledDefault led = true := by decide
  rw [tuxClock, ledEnabled_or, ledEnabled_or, ledEnabled_or, ledEnabled_or, enabled]
  rfl

/-- A digit in one of the four places of an argument. -/
def placeDigit (digit : Nat) (place : Fin 4) : UInt32 :=
  UInt32.ofNat (digit <<< (4 * place.val))

theorem tuxClock_eq (time : Nat) :
    tuxClock time = ledDefault ||| placeDigit (clockDigit time 0) 0 |||
      placeDigit (clockDigit time 1) 1 ||| placeDigit (clockDigit time 2) 2 |||
        placeDigit (clockDigit time 3) 3 := by
  have minutes : time / 60 / 10 = time / 600 := Nat.div_div_eq_div_mul ..
  rw [tuxClock, minutes]
  rfl

theorem ledDigit_placeDigit : ∀ digit < 10, ∀ place led : Fin 4,
    ledDigit (placeDigit digit place) led = if place = led then digit else 0 := by
  decide

theorem ledPoint_placeDigit : ∀ digit < 10, ∀ place led : Fin 4,
    ledPoint (placeDigit digit place) led = false := by
  decide

theorem clockDigit_lt {time : Nat} (small : time < 6000) (led : Fin 4) :
    clockDigit time led < 10 := by
  rw [clockDigit]
  split <;> omega

/-- The digits of a time that has at most two digits for the minutes. -/
theorem ledDigit_tuxClock {time : Nat} (small : time < 6000) (led : Fin 4) :
    ledDigit (tuxClock time) led = clockDigit time led := by
  have base : ∀ led, ledDigit ledDefault led = 0 := by decide
  have digits (place : Fin 4) := ledDigit_placeDigit _ (clockDigit_lt small place) place led
  rw [tuxClock_eq]
  simp only [ledDigit_or, base, digits]
  match led with
  | 0 => simp
  | 1 => simp
  | 2 => simp
  | 3 => simp

/-- Only the point behind the minutes is set. -/
theorem ledPoint_tuxClock {time : Nat} (small : time < 6000) (led : Fin 4) :
    ledPoint (tuxClock time) led = (led.val == 2) := by
  have base : ∀ led : Fin 4, ledPoint ledDefault led = (led.val == 2) := by decide
  have points (place : Fin 4) := ledPoint_placeDigit _ (clockDigit_lt small place) place led
  rw [tuxClock_eq]
  simp only [ledPoint_or, base, points, Bool.or_false]

/-- The command for a time shows it. -/
theorem showsTime_tuxClock (time : Nat) : ShowsTime time (ledArguments (tuxClock time)) := by
  have all := enablesAll_tuxClock time
  have leds := maskedLeds_eq_iff.mpr all
  have full : ∀ n < 16, (∀ led : Fin 4, n.testBit led = true) → n = 15 := by decide
  have mask : ledMask (tuxClock time) = 0x0F := by
    rw [ledMask, full _ (Nat.mod_lt _ (by decide)) fun led => ?_]
    · rfl
    · rw [testBit_fourBits]
      exact all led
  refine ⟨?_, mask, fun small led => ?_⟩
  · rw [ledArguments, leds]
    rfl
  · have placed :
        (ledArguments (tuxClock time)).getD (1 + led) 0 = placedByte (tuxClock time) led := by
      rw [ledArguments, leds, Nat.add_comm, List.getD_cons_succ]
      simp [List.getD_eq_getElem?_getD]
    have digit := clockDigit_lt small led
    rw [placed, placedByte_of_bits, if_pos (all led), ledDigit_tuxClock small,
      ledPoint_tuxClock small]
    exact (hexNumToByte_shows _ (by omega) _).mpr (by omega)

/-! ## The device -/

/-- Bytes that a device at a command boundary takes for some requests, to be at one again. -/
def Reads (bytes : List UInt8) (requests : List Request) : Prop :=
  ∀ received, bytes.foldl Device.read ⟨received, none⟩ = ⟨received ++ requests, none⟩

/-- What the device takes `tux_init` for. -/
def setup : List Request :=
  [.command mtcpBiocOn [], .command mtcpLedUsr []]

/-- What it takes an update that enables no LED for: each of the four data bytes is a byte too
many. -/
def blank : List Request :=
  [.command mtcpLedSet [0], .unrecognised 0, .unrecognised 0, .unrecognised 0, .unrecognised 0]

/-- What it takes an update of the clock for. -/
def clockSet (time : Nat) : Request :=
  .command mtcpLedSet (ledArguments (tuxClock time))

section

variable {first second bytes : List UInt8} {requests requests' : List Request} {time : Nat}

theorem Reads.append (reads : Reads first requests) (reads' : Reads second requests') :
    Reads (first ++ second) (requests ++ requests') := by
  intro received
  rw [List.foldl_append, reads, reads', List.append_assoc]

theorem reads_none : Reads [] [] := fun received => by
  rw [List.append_nil]
  rfl

theorem reads_setup : Reads ([Command.biocOn, .ledUsr].flatMap Command.bytes) setup := by
  intro received
  have bytes : [Command.biocOn, .ledUsr].flatMap Command.bytes = [0xC3, 0xC8] := by decide
  rw [bytes, List.foldl_cons, List.foldl_cons, List.foldl_nil, Device.read, if_pos (by decide),
    Device.proceed, if_pos (by decide), Device.read, if_pos (by decide), Device.proceed,
    if_pos (by decide), List.append_assoc]
  rfl

theorem reads_clockSet (time : Nat) : Reads (sentBytes (tuxClock time)) [clockSet time] :=
  fun _ => read_update (enablesAll_tuxClock time)

theorem reads_blank : Reads (sentBytes 0) blank := by
  intro received
  have bytes : sentBytes 0 = [0xC6, 0, 0, 0, 0, 0] := by decide
  have command := @read_command received 0 [] (by decide)
  have unrecognised (received : List Request) :
      Device.read ⟨received, none⟩ 0 = ⟨received ++ [.unrecognised 0], none⟩ := by
    rw [Device.read, if_neg (by decide)]
  rw [bytes]
  change [0, 0, 0, 0].foldl Device.read ([mtcpLedSet, 0].foldl Device.read ⟨received, none⟩) = _
  rw [command]
  simp only [List.foldl_cons, List.foldl_nil, unrecognised, List.append_assoc]
  rfl

/-- What has been received stays so. -/
theorem received_grows (device : Device) (bytes : List UInt8) :
    device.received <+: (bytes.foldl Device.read device).received := by
  have proceeds (device : Device) (opcode : UInt8) (arrived : List UInt8) :
      device.received <+: (device.proceed opcode arrived).received := by
    rw [Device.proceed]
    split
    · exact List.prefix_append _ _
    · exact List.prefix_refl _
  induction bytes generalizing device with
  | nil => exact List.prefix_refl _
  | cons byte bytes ih =>
      apply List.IsPrefix.trans _ (ih (device.read byte))
      rw [Device.read]
      split
      · exact proceeds ..
      split
      · exact proceeds ..
      · exact List.prefix_append _ _

theorem update_clockSet : (clockSet time).update = some (ledArguments (tuxClock time)) := by
  have full : (ledArguments (tuxClock time)).headD 0 ≠ 0 := by
    rw [(showsTime_tuxClock time).2.1]
    decide
  exact if_pos ⟨rfl, full⟩

end

/-! ## Runs -/

/-- What an event may send, by what the device takes it for, and the times that have been taken
before and after it. -/
inductive Progress : List Nat → List Request → List Nat → Prop where
  | quiet {times : List Nat} : Progress times [] times
  | setup {times : List Nat} : Progress times setup times
  | update {times : List Nat} (time : Nat) : Progress times [clockSet time] (times ++ [time])
  | again {times : List Nat} {time : Nat} :
      Progress (times ++ [time]) (setup ++ [clockSet time]) (times ++ [time])
  | blank : Progress [] (setup ++ blank) []

/-- The value of `prev_state_leds` after some times. -/
def lastLeds (times : List Nat) : UInt32 :=
  times.getLast?.elim 0 tuxClock

/-- A packet that is answered before a time has been taken. -/
def Early (game : Game) (event : GameEvent) : Prop :=
  ∃ packet, event = .packet packet ∧ Answered packet ∧ game.times = []

/-- The buffers hold the bytes of the commands, one after another. -/
theorem flatten_putBuffers (commands : List Command) :
    (putBuffers commands).flatten = commands.flatMap Command.bytes := by
  induction commands using putBuffers.induct with
  | case1 => rfl
  | case2 rest ih =>
      rw [putBuffers, List.flatten_cons, ih]
      rfl
  | case3 command rest other ih =>
      rw [putBuffers.eq_3 _ _ other, List.flatten_cons, ih, List.flatMap_cons]

section

variable {game last : Game} {event : GameEvent} {label : GameLabel} {labels : List GameLabel}
variable {rxBuf txBuf : Fin 64 → UInt8}

/-- A poll of the buttons sends nothing. -/
theorem tuxctlIoctl_buttons (arg : UInt32) (copyRet : Nat) (controller : Controller) :
    (tuxctlIoctl .buttons arg copyRet controller).controller = controller ∧
      (tuxctlIoctl .buttons arg copyRet controller).sent = [] := by
  simp only [tuxctlIoctl, tuxButtons]
  split
  · exact ⟨rfl, rfl⟩
  · split <;> exact ⟨rfl, rfl⟩

/-- A packet leaves the last value of the LEDs. -/
theorem tuxctlHandlePacket_prevStateLeds (packet : Packet) (controller : Controller) :
    (tuxctlHandlePacket packet controller).1.prevStateLeds = controller.prevStateLeds := by
  rw [tuxctlHandlePacket]
  split
  · rfl
  split
  · rfl
  split <;> rfl

/-- What an answer sends. -/
theorem answer_progress {times : List Nat} {leds : UInt32} (last : leds = lastLeds times) :
    ∃ requests,
      Reads (([Command.biocOn, .ledUsr] ++ tuxSetLed leds).flatMap Command.bytes) requests ∧
      Progress times requests times ∧ ((∃ byte, .unrecognised byte ∈ requests) ↔ times = []) := by
  rw [List.flatMap_append, last]
  rcases List.eq_nil_or_concat times with rfl | ⟨before, time, rfl⟩
  · refine ⟨setup ++ blank, reads_setup.append reads_blank, .blank, ?_⟩
    simp [setup, blank]
  · rw [List.concat_eq_append, lastLeds, List.getLast?_concat]
    refine ⟨setup ++ [clockSet time], reads_setup.append (reads_clockSet time), .again, ?_⟩
    simp [setup, clockSet]

/-- What the driver does at an event. -/
theorem Game.event_progress (leds : game.controller.prevStateLeds = lastLeds game.times)
    (event : GameEvent) :
    ∃ requests, Reads ((game.handles event).2.flatMap Command.bytes) requests ∧
      Progress game.times requests (game.times ++ game.takes event) ∧
        (game.handles event).1.prevStateLeds = lastLeds (game.times ++ game.takes event) ∧
          ((∃ byte, .unrecognised byte ∈ requests) ↔ Early game event) := by
  have kept : game.times ++ [] = game.times := List.append_nil _
  cases event with
  | init => exact ⟨setup, reads_setup, kept.symm ▸ .setup, kept.symm ▸ leds, by simp [setup, Early]⟩
  | clock time =>
      by_cases ready : game.controller.ackFlag = 1
      · simp only [Game.handles, Game.takes, tuxctlIoctl, if_pos ready]
        refine ⟨[clockSet time], reads_clockSet time, .update time, ?_, by simp [clockSet, Early]⟩
        rw [lastLeds, List.getLast?_concat]
        rfl
      · simp only [Game.handles, Game.takes, tuxctlIoctl, if_neg ready, kept]
        exact ⟨[], reads_none, .quiet, leds, by simp [Early]⟩
  | buttons arg copyRet =>
      obtain ⟨same, silent⟩ := tuxctlIoctl_buttons arg copyRet game.controller
      simp only [Game.handles, Game.takes, same, silent, kept]
      exact ⟨[], reads_none, .quiet, leds, by simp [Early]⟩
  | packet packet =>
      have sent := tuxctlHandlePacket_sent packet game.controller
      have leds' := tuxctlHandlePacket_prevStateLeds packet game.controller
      simp only [Game.handles, Game.takes, leds', kept]
      by_cases answered : Answered packet
      · obtain ⟨requests, reads, progress, surplus⟩ := answer_progress leds
        rw [sent.trans (if_pos answered)]
        refine ⟨requests, reads, progress, leds, ?_⟩
        rw [surplus]
        simp [Early, answered]
      · rw [sent.trans (if_neg answered)]
        exact ⟨[], reads_none, .quiet, leds, by simp [Early, answered]⟩
  | writeWakeup => exact ⟨[], reads_none, kept.symm ▸ .quiet, kept.symm ▸ leds, by simp [Early]⟩

/-- Nothing has been lost, and the device takes all that was put for settings that go through the
times. -/
structure Followed (game : Game) (received : List Request) : Prop where
  ordered : game.line.InOrder
  reads : Reads game.line.taken received
  leds : game.controller.prevStateLeds = lastLeds game.times
  shown : ∃ shown, Repeats game.times shown ∧
    received.filterMap Request.update = shown.map fun time => ledArguments (tuxClock time)

theorem Progress.repeats {times times' shown : List Nat} {requests : List Request}
    (progress : Progress times requests times') (repeats : Repeats times shown) :
    ∃ more, Repeats times' (shown ++ more) ∧
      requests.filterMap Request.update = more.map fun time => ledArguments (tuxClock time) := by
  have silent : TuxDriver.setup.filterMap Request.update = [] := by decide
  cases progress with
  | quiet => exact ⟨[], by rwa [List.append_nil], rfl⟩
  | setup => exact ⟨[], by rwa [List.append_nil], silent⟩
  | update time =>
      refine ⟨[time], .next time repeats, ?_⟩
      rw [List.filterMap_cons_some update_clockSet]
      rfl
  | @again before time =>
      refine ⟨[time], .again repeats, ?_⟩
      rw [List.filterMap_append, silent, List.nil_append, List.filterMap_cons_some update_clockSet]
      rfl
  | blank => exact ⟨[], by rwa [List.append_nil], by decide⟩

/-- An event in which no byte is lost keeps the device in step. -/
theorem Followed.step {received : List Request} (followed : Followed game received)
    (step : LosslessStep game label last) :
    ∃ requests, Followed last (received ++ requests) ∧
      ((∃ byte, .unrecognised byte ∈ requests) ↔ Early game label.event) := by
  obtain ⟨⟨puts, rfl⟩, lossless⟩ := step
  obtain ⟨shown, repeats, settings⟩ := followed.shown
  obtain ⟨requests, reads, progress, leds, surplus⟩ := Game.event_progress followed.leds label.event
  obtain ⟨more, repeats', settings'⟩ := progress.repeats repeats
  obtain ⟨ordered, taken⟩ := lossless.callAll followed.ordered
  rw [puts, flatten_putBuffers] at taken
  refine ⟨requests, ⟨ordered, ?_, leds, shown ++ more, repeats', ?_⟩, surplus⟩
  · rw [Game.step, taken]
    exact followed.reads.append reads
  · rw [List.filterMap_append, settings, settings', List.map_append]

/-- A packet has been answered before the first time was taken. -/
def Hasty (rxBuf txBuf : Fin 64 → UInt8) (labels : List GameLabel) : Prop :=
  ∃ past label rest, labels = past ++ label :: rest ∧ Early (Game.play rxBuf txBuf past) label.event

theorem hasty_concat :
    Hasty rxBuf txBuf (labels ++ [label]) ↔
      Hasty rxBuf txBuf labels ∨ Early (Game.play rxBuf txBuf labels) label.event := by
  constructor
  · rintro ⟨past, first, rest, split, early⟩
    rcases List.eq_nil_or_concat rest with rfl | ⟨rest, last, rfl⟩
    · obtain ⟨rfl, same⟩ := List.append_inj' split rfl
      exact .inr (List.singleton_inj.mp same ▸ early)
    · rw [List.concat_eq_append, ← List.cons_append, ← List.append_assoc] at split
      obtain ⟨rfl, -⟩ := List.append_inj' split rfl
      exact .inl ⟨past, first, rest, rfl, early⟩
  · rintro (⟨past, first, rest, rfl, early⟩ | early)
    · exact ⟨past, first, rest ++ [label], by simp, early⟩
    · exact ⟨labels, label, [], rfl, early⟩

theorem opened_followed (rxBuf txBuf : Fin 64 → UInt8) : Followed (.opened rxBuf txBuf) [] :=
  ⟨Transmission.opened_inOrder rxBuf txBuf, reads_none, rfl, [], .nil, rfl⟩

/-- The run lemma: the device stays in step as long as no byte is lost. -/
theorem followed_run (run : Run LosslessStep (.opened rxBuf txBuf) labels last) :
    ∃ received, Followed last received ∧
      ((∃ byte, .unrecognised byte ∈ received) ↔ Hasty rxBuf txBuf labels) := by
  have played := run.history
    (fun past game => game = Game.play rxBuf txBuf past ∧ ∃ received, Followed game received ∧
      ((∃ byte, .unrecognised byte ∈ received) ↔ Hasty rxBuf txBuf past)) ?_ []
    ⟨rfl, [], opened_followed rxBuf txBuf, by simp [Hasty]⟩
  · exact played.2
  rintro past before label after ⟨rfl, received, followed, surplus⟩ step
  obtain ⟨requests, followed', surplus'⟩ := followed.step step
  refine ⟨?_, received ++ requests, followed', ?_⟩
  · rw [step.1.after, Game.play, Game.play, List.foldl_append]
    rfl
  · rw [hasty_concat, ← surplus, ← surplus']
    simp only [List.mem_append, exists_or]

/-- Whatever the game asks and whatever packets arrive, in any order, as long as the line discipline
loses no byte: the device has displayed some first of the times that the driver has taken, in order
and each of them once or more, when it has read a part of the bytes, and all of them when it has
read all bytes and none waits in the ring; it then has found a byte that is no command exactly when
a packet has been answered before a time was taken. -/
theorem clock_followed (run : Run LosslessStep (.opened rxBuf txBuf) labels last) :
    (∀ arrived, arrived <+: last.line.accepted →
      ∃ seen, seen <+: last.times ∧ RunsThrough seen (displayed arrived)) ∧
    (last.line.data.tx.Empty →
      RunsThrough last.times (displayed last.line.accepted) ∧
      ((∃ byte, .unrecognised byte ∈
          (last.line.accepted.foldl Device.read Device.initial).received) ↔
        ∃ past label rest packet, labels = past ++ label :: rest ∧ label.event = .packet packet ∧
          Answered packet ∧ (Game.play rxBuf txBuf past).times = [])) := by
  obtain ⟨received, followed, surplus⟩ := followed_run run
  obtain ⟨shown, repeats, settings⟩ := followed.shown
  have device := followed.reads []
  rw [List.nil_append] at device
  have shows (shown : List Nat) :
      List.Forall₂ ShowsTime shown (shown.map fun time => ledArguments (tuxClock time)) :=
    List.forall₂_map_right_iff.mpr (List.forall₂_same.mpr fun time _ => showsTime_tuxClock time)
  have all : displayed last.line.taken = shown.map fun time => ledArguments (tuxClock time) := by
    rw [displayed, Device.initial, device]
    exact settings
  have ordered : last.line.accepted ++ last.line.data.tx.contents = last.line.taken :=
    followed.ordered
  refine ⟨fun arrived early => ?_, fun empty => ?_⟩
  · obtain ⟨rest, split⟩ := early.trans ⟨_, ordered⟩
    have earlier : displayed arrived <+: displayed last.line.taken := by
      rw [← split, displayed, displayed, List.foldl_append]
      exact (received_grows _ rest).filterMap _
    rw [all] at earlier
    obtain ⟨seen, inside, same⟩ := List.prefix_map_iff.mp earlier
    obtain ⟨done, before, repeats'⟩ := repeats.before inside
    exact ⟨done, before, seen, repeats', same ▸ shows seen⟩
  · rw [Ring.contents_of_empty empty, List.append_nil] at ordered
    rw [ordered]
    refine ⟨⟨shown, repeats, all ▸ shows shown⟩, ?_⟩
    rw [Device.initial, device, surplus]
    constructor
    · rintro ⟨past, label, rest, split, packet, event, answered, none⟩
      exact ⟨past, label, rest, packet, split, event, answered, none⟩
    · rintro ⟨past, label, rest, packet, split, event, answered, none⟩
      exact ⟨past, label, rest, split, packet, event, answered, none⟩

end

/-- Two times with an acknowledgement in between, before which a third one is dropped. -/
def twoTimes : List GameLabel :=
  [⟨.init, [.put [0xC3, 0xC8] 64]⟩, ⟨.clock 754, [.put (sentBytes (tuxClock 754)) 64]⟩,
    ⟨.clock 755, []⟩,
    ⟨.packet ⟨mtcpAck, 0x80, 0x80⟩,
      [.put [0xC3, 0xC8] 64, .writeWakeup 64, .put (sentBytes (tuxClock 754)) 64]⟩,
    ⟨.clock 756, [.put (sentBytes (tuxClock 756)) 64]⟩]

/-- The device displays 12:34, and then 12:36. -/
theorem clock_followed_two :
    ∃ last, Run LosslessStep (.opened (fun _ => 0) fun _ => 0) twoTimes last ∧
      RunsThrough [754, 756] (displayed last.line.accepted) ∧
      ¬∃ byte, .unrecognised byte ∈
        (last.line.accepted.foldl Device.read Device.initial).received := by
  have run : Run LosslessStep (.opened (fun _ => 0) fun _ => 0) twoTimes
      (Game.play (fun _ => 0) (fun _ => 0) twoTimes) :=
    .cons ⟨⟨by decide, rfl⟩, by decide⟩ (.cons ⟨⟨by decide, rfl⟩, by decide⟩
      (.cons ⟨⟨by decide, rfl⟩, by decide⟩ (.cons ⟨⟨by decide, rfl⟩, by decide⟩
        (.single ⟨⟨by decide, rfl⟩, by decide⟩))))
  refine ⟨_, run, ((clock_followed run).2 (by decide)).1, ?_⟩
  rintro ⟨byte, member⟩
  have read : ((Game.play (fun _ => 0) (fun _ => 0) twoTimes).line.accepted.foldl Device.read
      Device.initial).received =
        setup ++ [clockSet 754] ++ (setup ++ [clockSet 754]) ++ [clockSet 756] := by decide
  rw [read] at member
  simp [setup, clockSet] at member

end Ece391.TuxDriver
