import Ece391.TuxDriver.Controller

/-!
# The link between the driver and the controller

Commands and packets are in flight between the driver and the device and may be delivered
in any order.  The device answers each command with one acknowledgement and sends other
packets on its own.  The buffers put by the driver are taken to reach the link whole.

Two things are followed over all interleavings: how many commands and acknowledgements are
in flight, and how many LED updates of the user have been sent since the last event that
raises the acknowledge flag.
-/

namespace Ece391.TuxDriver

open Ece391.Library

/-! ## Messages in flight -/

/-- The driver, the commands on their way to the device and the packets on their way
back. -/
structure Link where
  controller : Controller
  commands : List Command
  packets : List Packet

/-- The driver acts, the device executes a command, or the device sends a packet that is not
an answer. -/
inductive LinkEvent where
  | driver (label : DriverLabel)
  | execute (command : Command)
  | report (packet : Packet)

/-- A step of the driver or of the device.  Messages are taken from anywhere in flight. -/
inductive LinkStep : Link → LinkEvent → Link → Prop where
  | ioctl {before after : Controller} {label : DriverLabel} {commands : List Command}
      {packets : List Packet} {cmd : TuxIoctl} {arg : UInt32} {copyRet : Nat} :
      label.event = .ioctl cmd arg copyRet → DriverStep before label after →
      LinkStep ⟨before, commands, packets⟩ (.driver label)
        ⟨after, commands ++ label.sent, packets⟩
  | packet {before after : Controller} {label : DriverLabel} {commands : List Command}
      {earlier later : List Packet} {packet : Packet} :
      label.event = .packet packet → DriverStep before label after →
      LinkStep ⟨before, commands, earlier ++ packet :: later⟩ (.driver label)
        ⟨after, commands ++ label.sent, earlier ++ later⟩
  | execute {controller : Controller} {earlier later : List Command} {packets : List Packet}
      {command : Command} {answer : Packet} :
      answer.first = mtcpAck →
      LinkStep ⟨controller, earlier ++ command :: later, packets⟩ (.execute command)
        ⟨controller, earlier ++ later, packets ++ [answer]⟩
  | report {controller : Controller} {commands : List Command} {packets : List Packet}
      {packet : Packet} :
      packet.first ≠ mtcpAck →
      LinkStep ⟨controller, commands, packets⟩ (.report packet)
        ⟨controller, commands, packets ++ [packet]⟩

/-- The number of commands and acknowledgements in flight. -/
def Link.inFlight (link : Link) : Nat :=
  link.commands.length + link.packets.countP fun packet => packet.first = mtcpAck

/-- Whether the step is an ioctl call or handles a reset. -/
def LinkEvent.IsCause : LinkEvent → Prop
  | .driver label => (∃ cmd, label.Calls cmd) ∨ label.Receives mtcpReset
  | _ => False

/-- What the packet handler is meant to do: it answers neither acknowledgements nor button
events, it sends commands only for a reset, and nothing but an ioctl or a reset adds to
what is in flight. -/
structure Quiet (before : Link) (event : LinkEvent) (after : Link) : Prop where
  silent : ∀ label, event = .driver label →
    label.Receives mtcpAck ∨ label.Receives mtcpBiocEvent → label.sent = []
  resets : ∀ label packet, event = .driver label → label.event = .packet packet →
    label.sent ≠ [] → packet.first = mtcpReset
  bounded : ¬event.IsCause → after.inFlight ≤ before.inFlight

/-- No acknowledgement and no button event is handled. -/
def LinkEvent.Allowed : LinkEvent → Prop
  | .driver label => ¬label.Receives mtcpAck ∧ ¬label.Receives mtcpBiocEvent
  | _ => True

section

variable {before after : Link} {event : LinkEvent}

theorem DriverStep.packet_sent {before after : Controller} {label : DriverLabel}
    {packet : Packet} (step : DriverStep before label after)
    (handled : label.event = .packet packet) :
    label.sent =
      if packet.first = mtcpBiocEvent ∨ packet.first = mtcpAck ∨ packet.first = mtcpReset then
        [.biocOn, .ledUsr] ++ tuxSetLed before.prevStateLeds
      else [] := by
  cases step with
  | ioctl cmd arg copyRet => cases handled
  | packet other =>
      obtain rfl : other = packet := by simpa using handled
      exact tuxctlHandlePacket_sent ..

theorem DriverLabel.receives_iff (label : DriverLabel) {packet : Packet}
    (handled : label.event = .packet packet) (opcode : UInt8) :
    label.Receives opcode ↔ packet.first = opcode := by
  constructor
  · rintro ⟨received, same, first⟩
    obtain rfl : packet = received := by simpa using handled.symm.trans same
    exact first
  · intro first
    exact ⟨packet, handled, first⟩

/-- A message that is handled leaves, the others stay in flight. -/
theorem countP_taken {earlier later : List Packet} (packet : Packet) :
    (earlier ++ later).countP (fun packet => packet.first = mtcpAck) ≤
      (earlier ++ packet :: later).countP fun packet => packet.first = mtcpAck := by
  simp only [List.countP_append, List.countP_cons]
  omega

/-- The driver takes no part in a step of the device. -/
theorem Quiet.of_bounded (device : ∀ label, event ≠ .driver label)
    (bounded : after.inFlight ≤ before.inFlight) : Quiet before event after where
  silent label same := absurd same (device label)
  resets label _ same := absurd same (device label)
  bounded _ := bounded

/-- A step does what it is meant to exactly when it handles neither an acknowledgement nor a
button event. -/
theorem LinkStep.quiet_iff (step : LinkStep before event after) :
    Quiet before event after ↔ event.Allowed := by
  cases step with
  | @ioctl _ _ label _ _ cmd arg copyRet called taken =>
      have noPacket (opcode : UInt8) : ¬label.Receives opcode := by
        rintro ⟨packet, handled, -⟩
        rw [called] at handled
        cases handled
      refine ⟨fun _ => ⟨noPacket _, noPacket _⟩, fun _ => ?_⟩
      constructor
      case silent =>
        rintro _ ⟨⟩ (ack | button)
        · exact absurd ack (noPacket _)
        · exact absurd button (noPacket _)
      case resets =>
        rintro _ packet ⟨⟩ handled
        rw [called] at handled
        cases handled
      case bounded =>
        intro noCause
        exact absurd (.inl ⟨cmd, arg, copyRet, called⟩) noCause
  | @packet _ _ label _ earlier later packet handled taken =>
      have sent := taken.packet_sent handled
      have opcode := label.receives_iff handled
      rw [LinkEvent.Allowed, opcode, opcode]
      constructor
      · intro quiet
        have silent := quiet.silent label rfl
        rw [opcode, opcode, sent] at silent
        constructor
        · intro ack
          simpa [ack] using silent (.inl ack)
        · intro button
          simpa [button] using silent (.inr button)
      · intro allowed
        constructor
        case silent =>
          rintro _ ⟨⟩ received
          rw [opcode, opcode] at received
          rcases received with ack | button
          · exact absurd ack allowed.1
          · exact absurd button allowed.2
        case resets =>
          rintro _ other ⟨⟩ same answered
          obtain rfl : packet = other := by simpa using handled.symm.trans same
          by_contra noReset
          simp [sent, allowed.1, allowed.2, noReset] at answered
        case bounded =>
          intro noCause
          have noReset : packet.first ≠ mtcpReset := fun reset =>
            noCause (.inr ((opcode _).mpr reset))
          have none : label.sent = [] := by simp [sent, allowed.1, allowed.2, noReset]
          simp only [Link.inFlight, none, List.append_nil]
          have fewer := @countP_taken earlier later packet
          omega
  | @execute _ earlier later packets command answer ack =>
      refine ⟨fun _ => trivial, fun _ => .of_bounded (by rintro _ ⟨⟩) ?_⟩
      simp only [Link.inFlight, List.length_append, List.length_cons, List.countP_append,
        List.countP_singleton, ack, decide_true, if_true]
      omega
  | @report _ commands packets packet other =>
      refine ⟨fun _ => trivial, fun _ => .of_bounded (by rintro _ ⟨⟩) ?_⟩
      simp [Link.inFlight, other]

end

/-- Over any run and any order of deliveries the packet handler does what it is meant to,
and what is in flight grows only through ioctls and resets, exactly as long as no
acknowledgement and no button event is handled. -/
theorem link_quiet_iff_allowed {start last : Link} {events : List LinkEvent} :
    Run (fun before event after => LinkStep before event after ∧ Quiet before event after)
        start events last ↔
      Run (fun before event after => LinkStep before event after ∧ event.Allowed)
        start events last :=
  Run.good_iff_allowed (fun _ => True) Quiet (fun _ event => event.Allowed)
    (fun _ _ _ _ step => step.quiet_iff) (fun _ _ _ _ _ _ => trivial) trivial

/-- After `TUX_INIT` the answer to the first of its two commands is followed by three new
commands. -/
theorem link_not_always_quiet :
    ∃ middle last, Run LinkStep ⟨.initial, [], []⟩
        [.driver ⟨.ioctl .init 0 0, [.biocOn, .ledUsr]⟩, .execute .biocOn] middle ∧
      LinkStep middle
        (.driver ⟨.packet ⟨mtcpAck, 0x80, 0x80⟩, [.biocOn, .ledUsr] ++ tuxSetLed 0⟩) last ∧
      middle.inFlight = 2 ∧ last.inFlight = 4 := by
  have called : LinkStep ⟨.initial, [], []⟩ (.driver ⟨.ioctl .init 0 0, [.biocOn, .ledUsr]⟩)
      ⟨.initial, [] ++ [.biocOn, .ledUsr], []⟩ := .ioctl rfl (.ioctl .init 0 0)
  have executed : LinkStep ⟨.initial, [] ++ .biocOn :: [.ledUsr], []⟩ (.execute .biocOn)
      ⟨.initial, [] ++ [.ledUsr], [] ++ [⟨mtcpAck, 0x80, 0x80⟩]⟩ := .execute rfl
  have handled : LinkStep ⟨.initial, [.ledUsr], [] ++ ⟨mtcpAck, 0x80, 0x80⟩ :: []⟩
      (.driver ⟨.packet ⟨mtcpAck, 0x80, 0x80⟩, [.biocOn, .ledUsr] ++ tuxSetLed 0⟩)
      ⟨.initial, [.ledUsr] ++ ([.biocOn, .ledUsr] ++ tuxSetLed 0), [] ++ []⟩ :=
    .packet rfl (.packet ⟨mtcpAck, 0x80, 0x80⟩)
  exact ⟨_, _, .cons called (.single executed), handled, by decide, by decide⟩

/-! ## Updates of the user -/

namespace DriverLabel

/-- An update of the LEDs that is sent for the user. -/
def IsUserUpdate (label : DriverLabel) : Prop :=
  label.Calls .setLed ∧ label.sent ≠ []

/-- What is meant to permit the next update: an acknowledgement, a reset of the device, or
an initialisation by the user. -/
def Permits (label : DriverLabel) : Prop :=
  label.Receives mtcpAck ∨ label.Receives mtcpReset ∨ label.Calls .init

instance (label : DriverLabel) : Decidable label.IsUserUpdate :=
  inferInstanceAs (Decidable (_ ∧ _))

end DriverLabel

section

variable {before after start last : Controller} {label : DriverLabel}
variable {labels : List DriverLabel}

/-- An update is sent only with the flag high, and lowers it. -/
theorem DriverStep.userUpdate (step : DriverStep before label after)
    (update : label.IsUserUpdate) : before.ackFlag = 1 ∧ after.ackFlag = 0 := by
  obtain ⟨⟨arg, copyRet, called⟩, sent⟩ := update
  cases step with
  | ioctl cmd arg' copyRet' =>
      obtain rfl : cmd = .setLed := by
        simp only [DriverEvent.ioctl.injEq] at called
        exact called.1
      by_cases high : before.ackFlag = 1
      · simp [tuxctlIoctl, high]
      · simp [tuxctlIoctl, high] at sent
  | packet packet => cases called

/-- A low flag stays low until an event that permits an update, or a button event. -/
theorem DriverStep.low (step : DriverStep before label after) (low : before.ackFlag ≠ 1)
    (permits : ¬label.Permits) (button : ¬label.Receives mtcpBiocEvent) :
    after.ackFlag ≠ 1 := by
  cases step with
  | ioctl cmd arg copyRet =>
      cases cmd with
      | init => exact absurd (.inr (.inr ⟨arg, copyRet, rfl⟩)) permits
      | setLed => simp [tuxctlIoctl, low]
      | buttons =>
          simp only [tuxctlIoctl, tuxButtons]
          split
          · exact low
          · split <;> exact low
      | readLed | ledRequest | ledAck | other => exact low
  | packet packet =>
      have noAck : packet.first ≠ mtcpAck := fun ack => permits (.inl ⟨packet, rfl, ack⟩)
      have noReset : packet.first ≠ mtcpReset := fun reset =>
        permits (.inr (.inl ⟨packet, rfl, reset⟩))
      have noButton : packet.first ≠ mtcpBiocEvent := fun event => button ⟨packet, rfl, event⟩
      rw [tuxctlHandlePacket_other before noButton noAck noReset]
      exact low

theorem low_run (run : Run DriverStep start labels last) (low : start.ackFlag ≠ 1)
    (still : ∀ label ∈ labels, ¬label.Permits ∧ ¬label.Receives mtcpBiocEvent) :
    last.ackFlag ≠ 1 :=
  (run.restrict still).invariant (fun controller => controller.ackFlag ≠ 1)
    (fun _ _ _ low step => step.1.low low step.2.1 step.2.2) low

/-- While the flag is low no update is sent. -/
theorem no_userUpdate_of_low (run : Run DriverStep start labels last)
    (low : start.ackFlag ≠ 1)
    (still : ∀ label ∈ labels, ¬label.Permits ∧ ¬label.Receives mtcpBiocEvent) :
    ∀ label ∈ labels, ¬label.IsUserUpdate := by
  induction run with
  | nil state => simp
  | @cons before middle last label labels step rest ih =>
      obtain ⟨permits, button⟩ := still label List.mem_cons_self
      have later := ih (step.low low permits button) fun other member =>
        still other (List.mem_cons_of_mem label member)
      intro other member
      rcases List.mem_cons.mp member with rfl | member
      · exact fun update => low (step.userUpdate update).1
      · exact later other member

/-- So there is at most one update in them. -/
theorem countP_userUpdate_le (run : Run DriverStep start labels last)
    (still : ∀ label ∈ labels, ¬label.Permits ∧ ¬label.Receives mtcpBiocEvent) :
    labels.countP (·.IsUserUpdate) ≤ 1 := by
  induction run with
  | nil state => simp
  | @cons before middle last label labels step rest ih =>
      have stillLater := fun other member => still other (List.mem_cons_of_mem label member)
      rw [List.countP_cons]
      split
      next update =>
        have lowered := (step.userUpdate (of_decide_eq_true update)).2
        have low : middle.ackFlag ≠ 1 := by omega
        have none : labels.countP (·.IsUserUpdate) = 0 := by
          rw [List.countP_eq_zero]
          simpa using no_userUpdate_of_low rest low stillLater
        omega
      next other => exact ih stillLater

end

/-- In any interleaving of ioctls and packets, between two updates sent for the user with no
button event between them an acknowledgement or a reset has arrived or the user has
initialised the controller; so at most one update is sent from one of these to the next. -/
theorem user_updates_permitted {start last : Controller} {labels : List DriverLabel}
    (run : Run DriverStep start labels last) :
    (∀ past first between second rest, labels = past ++ first :: (between ++ second :: rest) →
      first.IsUserUpdate → second.IsUserUpdate →
      (∀ label ∈ between, ¬label.Receives mtcpBiocEvent) →
      ∃ label ∈ between, label.Permits) ∧
    ∀ past segment rest, labels = past ++ (segment ++ rest) →
      (∀ label ∈ segment, ¬label.Permits ∧ ¬label.Receives mtcpBiocEvent) →
      segment.countP (·.IsUserUpdate) ≤ 1 := by
  constructor
  · rintro past first between second rest rfl update update' button
    obtain ⟨_, -, afterPast⟩ := run.split
    obtain ⟨middle, step, afterFirst⟩ := afterPast.uncons
    obtain ⟨beforeSecond, inBetween, fromSecond⟩ := afterFirst.split
    obtain ⟨_, step', -⟩ := fromSecond.uncons
    by_contra none
    have still : ∀ label ∈ between, ¬label.Permits ∧ ¬label.Receives mtcpBiocEvent :=
      fun label member => ⟨fun permits => none ⟨label, member, permits⟩, button label member⟩
    have low : middle.ackFlag ≠ 1 := by
      have lowered := (step.userUpdate update).2
      omega
    exact low_run inBetween low still (step'.userUpdate update').1
  · rintro past segment rest rfl still
    obtain ⟨_, -, afterPast⟩ := run.split
    obtain ⟨_, inSegment, -⟩ := afterPast.split
    exact countP_userUpdate_le inSegment still

/-- Two updates of the user, with an initialisation between them. -/
def updatesAroundInit : List DriverLabel :=
  [⟨.ioctl .setLed 1 0, tuxSetLed 1⟩, ⟨.ioctl .init 0 0, [.biocOn, .ledUsr]⟩,
    ⟨.ioctl .setLed 2 0, tuxSetLed 2⟩]

theorem updatesAroundInit_run : Run DriverStep .initial updatesAroundInit ⟨0, 0, 2⟩ :=
  .cons (.ioctl .setLed 1 0) (.cons (.ioctl .init 0 0) (.single (.ioctl .setLed 2 0)))

/-- Two updates of the user are sent although no packet has arrived at all. -/
theorem user_updates_without_packet :
    ∃ labels last, Run DriverStep .initial labels last ∧ labels.countP (·.IsUserUpdate) = 2 ∧
      ∀ label ∈ labels, ¬label.Receives mtcpAck ∧ ¬label.Receives mtcpReset :=
  ⟨updatesAroundInit, _, updatesAroundInit_run, by decide, by decide⟩

/-- The initialisation is what permits the second of them. -/
theorem user_updates_permitted_init :
    ∃ label ∈ [(⟨.ioctl .init 0 0, [.biocOn, .ledUsr]⟩ : DriverLabel)], label.Permits :=
  (user_updates_permitted updatesAroundInit_run).1 [] ⟨.ioctl .setLed 1 0, tuxSetLed 1⟩ _
    ⟨.ioctl .setLed 2 0, tuxSetLed 2⟩ [] rfl (by decide) (by decide) (by decide)

end Ece391.TuxDriver
