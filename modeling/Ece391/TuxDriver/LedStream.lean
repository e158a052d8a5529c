import Ece391.TuxDriver.LedGlyphs

/-!
# The stream of LED commands

The device reads the bytes it is sent by the protocol: an opcode, and then as many argument
bytes as the opcode asks for.  The number of arguments of `MTCP_LED_SET` is given by its first
argument, while `tux_set_led` always sends five.
-/

namespace Ece391.TuxDriver

/-! ## The device -/

def mtcpClkSet : UInt8 := mtcpCmd 0xA

def mtcpClkMax : UInt8 := mtcpCmd 0x10

/-- The commands are numbered up to `MTCP_POLL_LEDS`. -/
def Recognised (opcode : UInt8) : Prop :=
  opcode &&& 0xE0 = 0xC0 ∧ opcode &&& 0x1F ≤ 0x13

instance (opcode : UInt8) : Decidable (Recognised opcode) :=
  inferInstanceAs (Decidable (_ ∧ _))

/-- The LEDs of a mask, in increasing order. -/
def maskedLeds (mask : UInt8) : List (Fin 4) :=
  (List.finRange 4).filter fun led => mask.toNat.testBit led

/-- The number of arguments of a command, given those that have arrived. -/
def argumentCount (opcode : UInt8) (arrived : List UInt8) : Nat :=
  if opcode = mtcpLedSet then 1 + (maskedLeds (arrived.headD 0)).length
  else if opcode = mtcpClkSet ∨ opcode = mtcpClkMax then 2
  else 0

/-- What the device takes a part of the stream for. -/
inductive Request where
  | command (opcode : UInt8) (arguments : List UInt8)
  | unrecognised (byte : UInt8)
  deriving DecidableEq, Repr

/-- The device, with the requests it has received and the opcode and the arguments of the
command it is in, if it is not at a command boundary. -/
structure Device where
  received : List Request
  pending : Option (UInt8 × List UInt8)
  deriving DecidableEq, Repr

namespace Device

def initial : Device := ⟨[], none⟩

/-- A command is received when all of its arguments have arrived. -/
def proceed (device : Device) (opcode : UInt8) (arrived : List UInt8) : Device :=
  if argumentCount opcode arrived ≤ arrived.length then
    ⟨device.received ++ [.command opcode arrived], none⟩
  else { device with pending := some (opcode, arrived) }

/-- A byte is the next argument of a command or, at a command boundary, an opcode. -/
def read (device : Device) (byte : UInt8) : Device :=
  match device.pending with
  | some (opcode, arrived) => device.proceed opcode (arrived ++ [byte])
  | none =>
      if Recognised byte then device.proceed byte []
      else ⟨device.received ++ [.unrecognised byte], none⟩

/-- The requests received, and the one under way. -/
def begun (device : Device) : Nat :=
  device.received.length + if device.pending.isSome then 1 else 0

end Device

/-! ## The updates -/

/-- The mask of an update, which is bits 19 to 16 of its argument. -/
def ledMask (arg : UInt32) : UInt8 :=
  UInt8.ofNat (arg.toNat >>> 16 % 16)

/-- The arguments of the command for an update: the mask, and one byte for each LED of the
mask. -/
def ledArguments (arg : UInt32) : List UInt8 :=
  ledMask arg :: (maskedLeds (ledMask arg)).map (placedByte arg)

/-- The bytes of an update. -/
def sentBytes (arg : UInt32) : List UInt8 :=
  (tuxSetLed arg).flatMap Command.bytes

/-- The bytes of an update are one command. -/
def SendsCommand (arg : UInt32) : Prop :=
  sentBytes arg = mtcpLedSet :: ledArguments arg

instance (arg : UInt32) : Decidable (SendsCommand arg) :=
  inferInstanceAs (Decidable (_ = _))

/-- After every number of updates the device is at a command boundary and has received one
command for each of them. -/
def InStep (args : List UInt32) : Prop :=
  ∀ sent, sent <+: args →
    (sent.flatMap sentBytes).foldl Device.read Device.initial =
      ⟨sent.map fun arg => .command mtcpLedSet (ledArguments arg), none⟩

/-- An argument that enables every LED. -/
def EnablesAll (arg : UInt32) : Prop :=
  ∀ led, ledEnabled arg led = true

instance (arg : UInt32) : Decidable (EnablesAll arg) :=
  inferInstanceAs (Decidable (∀ _, _))

section

variable {device : Device} {received : List Request} {mask : UInt8} {arg : UInt32}
variable {args sent : List UInt32}

/-- The byte of a disabled LED is sent as well. -/
theorem sentBytes_eq (arg : UInt32) :
    sentBytes arg = mtcpLedSet :: ledMask arg :: (List.finRange 4).map (placedByte arg) := by
  have mask : (extract arg 16).toUInt8 = ledMask arg := by
    rw [← UInt8.toNat_inj, UInt32.toNat_toUInt8, extract_toNat arg (by decide), ledMask,
      UInt8.toNat_ofNat']
    rfl
  rw [← mask]
  rfl

theorem mem_maskedLeds {led : Fin 4} :
    led ∈ maskedLeds (ledMask arg) ↔ ledEnabled arg led = true := by
  have bound : arg.toNat >>> 16 % 16 < 256 := by omega
  rw [maskedLeds, List.mem_filter, ledMask, UInt8.toNat_ofNat', Nat.mod_eq_of_lt bound,
    testBit_fourBits, ledEnabled]
  simp

/-- The command has all of the bytes that are sent exactly when every LED is enabled. -/
theorem maskedLeds_eq_iff : maskedLeds (ledMask arg) = List.finRange 4 ↔ EnablesAll arg := by
  constructor
  · intro all led
    rw [← mem_maskedLeds, all]
    exact List.mem_finRange led
  · intro all
    refine List.filter_eq_self.mpr fun led _ => ?_
    have enabled : led ∈ maskedLeds (ledMask arg) := mem_maskedLeds.mpr (all led)
    exact (List.mem_filter.mp enabled).2

theorem sendsCommand_iff : SendsCommand arg ↔ EnablesAll arg := by
  rw [SendsCommand, sentBytes_eq, ledArguments, ← maskedLeds_eq_iff]
  constructor
  · intro same
    have lengths := congrArg List.length same
    simp only [List.length_cons, List.length_map, Nat.add_right_cancel_iff] at lengths
    exact (List.filter_sublist.eq_of_length lengths.symm)
  · intro all
    rw [all]

/-! ## The device reads a command -/

/-- The data bytes that a mask asks for complete the command. -/
theorem read_data (data rest : List UInt8)
    (all : data.length + rest.length = (maskedLeds mask).length) :
    rest.foldl Device.read (Device.proceed ⟨received, none⟩ mtcpLedSet (mask :: data)) =
      ⟨received ++ [.command mtcpLedSet (mask :: (data ++ rest))], none⟩ := by
  have count : argumentCount mtcpLedSet (mask :: data) = 1 + (maskedLeds mask).length := rfl
  induction rest generalizing data with
  | nil =>
      have complete : argumentCount mtcpLedSet (mask :: data) ≤ (mask :: data).length := by
        rw [count, ← all, List.length_cons, List.length_nil]
        omega
      rw [List.foldl_nil, Device.proceed, if_pos complete, List.append_nil]
  | cons byte rest ih =>
      have waits : ¬argumentCount mtcpLedSet (mask :: data) ≤ (mask :: data).length := by
        rw [count, ← all, List.length_cons, List.length_cons]
        omega
      have remaining : (data ++ [byte]).length + rest.length = (maskedLeds mask).length := by
        rw [← all, List.length_append, List.length_cons, List.length_cons, List.length_nil]
        omega
      have next := ih (data ++ [byte]) remaining rfl
      rw [List.append_assoc] at next
      rw [Device.proceed, if_neg waits, List.foldl_cons]
      exact next

theorem read_command (data : List UInt8) (all : data.length = (maskedLeds mask).length) :
    (mtcpLedSet :: mask :: data).foldl Device.read ⟨received, none⟩ =
      ⟨received ++ [.command mtcpLedSet (mask :: data)], none⟩ := by
  have waits : ¬argumentCount mtcpLedSet [] ≤ ([] : List UInt8).length := by decide
  have opcode : Device.read ⟨received, none⟩ mtcpLedSet = ⟨received, some (mtcpLedSet, [])⟩ := by
    rw [Device.read, if_pos (by decide), Device.proceed, if_neg waits]
  have rest := @read_data received mask [] data (by simpa using all)
  rw [List.foldl_cons, opcode, List.foldl_cons]
  exact rest

/-! ## Surplus bytes -/

/-- Whatever a byte is, a request is under way or received after it. -/
theorem begun_read (device : Device) (byte : UInt8) :
    (device.read byte).begun = device.received.length + 1 := by
  have proceeds (opcode : UInt8) (arrived : List UInt8) :
      (device.proceed opcode arrived).begun = device.received.length + 1 := by
    rw [Device.proceed]
    split <;> simp [Device.begun]
  rw [Device.read]
  split
  · exact proceeds _ _
  · split
    · exact proceeds _ _
    · simp [Device.begun]

theorem begun_le_foldl (bytes : List UInt8) (device : Device) :
    device.begun ≤ (bytes.foldl Device.read device).begun := by
  induction bytes generalizing device with
  | nil => exact Nat.le_refl _
  | cons byte bytes ih =>
      have step : device.begun ≤ (device.read byte).begun := by
        rw [begun_read, Device.begun]
        split <;> omega
      exact Nat.le_trans step (ih _)

/-- A byte after a command is taken for another one. -/
theorem surplus_begins (data : List UInt8) (surplus : (maskedLeds mask).length < data.length) :
    received.length + 2 ≤
      ((mtcpLedSet :: mask :: data).foldl Device.read ⟨received, none⟩).begun := by
  have parts : mtcpLedSet :: mask :: data =
      (mtcpLedSet :: mask :: data.take (maskedLeds mask).length) ++
        data.drop (maskedLeds mask).length := by
    simp
  obtain ⟨byte, rest, more⟩ : ∃ byte rest, data.drop (maskedLeds mask).length = byte :: rest := by
    cases left : data.drop (maskedLeds mask).length with
    | nil => exact absurd (List.drop_eq_nil_iff.mp left) (by omega)
    | cons byte rest => exact ⟨byte, rest, rfl⟩
  rw [parts, List.foldl_append, read_command _ (by simp; omega), more, List.foldl_cons]
  refine Nat.le_trans ?_ (begun_le_foldl rest _)
  rw [begun_read]
  simp

/-! ## Sequences of updates -/

/-- An update that enables every LED is one command for the device. -/
theorem read_update (all : EnablesAll arg) :
    (sentBytes arg).foldl Device.read ⟨received, none⟩ =
      ⟨received ++ [.command mtcpLedSet (ledArguments arg)], none⟩ := by
  rw [sendsCommand_iff.mpr all]
  exact read_command _ (List.length_map _)

theorem read_updates (all : ∀ arg ∈ sent, EnablesAll arg) :
    (sent.flatMap sentBytes).foldl Device.read ⟨received, none⟩ =
      ⟨received ++ sent.map fun arg => .command mtcpLedSet (ledArguments arg), none⟩ := by
  induction sent generalizing received with
  | nil => simp
  | cons arg sent ih =>
      rw [List.flatMap_cons, List.foldl_append, read_update (all arg List.mem_cons_self),
        ih fun next later => all next (List.mem_cons_of_mem _ later)]
      simp

/-- An update that leaves a LED disabled begins more than one command. -/
theorem not_enablesAll_begins (missing : ¬EnablesAll arg) :
    received.length + 2 ≤ ((sentBytes arg).foldl Device.read ⟨received, none⟩).begun := by
  have fewer : (maskedLeds (ledMask arg)).length < (List.finRange 4).length := by
    refine Nat.lt_of_le_of_ne List.filter_sublist.length_le fun same => ?_
    exact missing (maskedLeds_eq_iff.mp (List.filter_sublist.eq_of_length same))
  rw [sentBytes_eq]
  exact surplus_begins _ (by simpa using fewer)

theorem inStep_iff : InStep args ↔ ∀ arg ∈ args, EnablesAll arg := by
  constructor
  · intro inStep arg member
    obtain ⟨before, after, split⟩ := List.append_of_mem member
    by_contra missing
    have boundary := inStep before ⟨arg :: after, split.symm⟩
    have next := inStep (before ++ [arg]) ⟨after, by simp [split]⟩
    rw [List.flatMap_append, List.foldl_append, boundary] at next
    have begins := @not_enablesAll_begins
      (before.map fun arg => .command mtcpLedSet (ledArguments arg)) arg missing
    simp only [List.flatMap_cons, List.flatMap_nil, List.append_nil] at next
    rw [next] at begins
    simp [Device.begun] at begins
  · intro all sent prefixed
    have updates := @read_updates [] sent fun arg member => all arg (prefixed.subset member)
    exact updates

/-- The updates are commands of the protocol, and the device keeps in step with them, exactly
when every one of them enables all four LEDs. -/
theorem tux_set_led_in_step (args : List UInt32) :
    ((∀ arg ∈ args, SendsCommand arg) ∧ InStep args) ↔ ∀ arg ∈ args, EnablesAll arg := by
  rw [inStep_iff]
  simp only [sendsCommand_iff, and_self]

/-- With LEDs 0 and 3 enabled the device takes the byte of LED 3, a 2, for `MTCP_CLK_POLL`. -/
theorem tux_set_led_out_of_step :
    sentBytes 0x92000 = [0xC6, 0x09, 0xE7, 0x00, 0x00, 0xCB] ∧ ¬SendsCommand 0x92000 ∧
      (sentBytes 0x92000).foldl Device.read Device.initial =
        ⟨[.command 0xC6 [0x09, 0xE7, 0x00], .unrecognised 0x00, .command 0xCB []], none⟩ ∧
      ¬InStep [0x92000] :=
  ⟨by decide, by decide, by decide,
    fun inStep => absurd (inStep [0x92000] (List.prefix_refl _)) (by decide)⟩

end

end Ece391.TuxDriver
