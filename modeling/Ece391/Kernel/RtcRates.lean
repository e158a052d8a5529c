import Ece391.Kernel.DriverCalls
import Mathlib.Tactic.IntervalCases

/-!
# Frequencies of the real-time clock

`system_write` on an rtc descriptor passes its frequency to `rtc_set_freq`.  The table of
rates there agrees with the clock's own formula, a rate `r` giving 32768 >> (r - 1)
interrupts a second.  `rtc_set_freq` returns 1 when it has set a rate, and `rtc_write`
takes every value but 0 for an error.
-/

namespace Ece391.Kernel

/-- The frequencies the clock is to serve: the powers of two from 2 to 1024. -/
def Served (freq : Int) : Prop :=
  ∃ k : Nat, 1 ≤ k ∧ k ≤ 10 ∧ freq = 2 ^ k

/-- The register's low four bits are the rate of the frequency and its high four bits are
unchanged. -/
def RateSet (freq : Int) (before after : UInt8) : Prop :=
  ((32768 >>> ((after &&& 0x0F).toNat - 1) : Nat) : Int) = freq ∧ 1 ≤ (after &&& 0x0F).toNat ∧
    after &&& 0xF0 = before &&& 0xF0

/-- What a write of a frequency is to do: it returns 0 for the served frequencies and sets
their rate; for any other it returns -1 and leaves register A alone. -/
structure RtcWritten (freq : Int) (before : UInt8) (ret : Int) (after : UInt8) : Prop where
  accepts : ret = 0 ↔ Served freq
  sets : Served freq → RateSet freq before after
  refuses : ¬ Served freq → ret = -1 ∧ after = before

/-! ## The rate table -/

private theorem listed_or {freq entry : Int} {rate entryRate : UInt8} {others : Option UInt8}
    (listed : (if freq = entry then some entryRate else others) = some rate) :
    freq = entry ∧ entryRate = rate ∨ others = some rate := by
  by_cases first : freq = entry
  · rw [if_pos first] at listed
    exact .inl ⟨first, Option.some.inj listed⟩
  · rw [if_neg first] at listed
    exact .inr listed

/-- Every entry of the table is a power of two with the rate of the clock's formula, and
the four bits above the rate are clear. -/
theorem hexRate_some {freq : Int} {rate : UInt8} (listed : hexRate freq = some rate) :
    Served freq ∧ ((32768 >>> (rate.toNat - 1) : Nat) : Int) = freq ∧ 1 ≤ rate.toNat ∧
      rate &&& 0x0F = rate ∧ rate &&& 0xF0 = 0 := by
  unfold hexRate at listed
  rcases listed_or listed with ⟨rfl, rfl⟩ | listed
  · exact ⟨⟨1, by decide⟩, by decide, by decide, by decide, by decide⟩
  rcases listed_or listed with ⟨rfl, rfl⟩ | listed
  · exact ⟨⟨2, by decide⟩, by decide, by decide, by decide, by decide⟩
  rcases listed_or listed with ⟨rfl, rfl⟩ | listed
  · exact ⟨⟨3, by decide⟩, by decide, by decide, by decide, by decide⟩
  rcases listed_or listed with ⟨rfl, rfl⟩ | listed
  · exact ⟨⟨4, by decide⟩, by decide, by decide, by decide, by decide⟩
  rcases listed_or listed with ⟨rfl, rfl⟩ | listed
  · exact ⟨⟨5, by decide⟩, by decide, by decide, by decide, by decide⟩
  rcases listed_or listed with ⟨rfl, rfl⟩ | listed
  · exact ⟨⟨6, by decide⟩, by decide, by decide, by decide, by decide⟩
  rcases listed_or listed with ⟨rfl, rfl⟩ | listed
  · exact ⟨⟨7, by decide⟩, by decide, by decide, by decide, by decide⟩
  rcases listed_or listed with ⟨rfl, rfl⟩ | listed
  · exact ⟨⟨8, by decide⟩, by decide, by decide, by decide, by decide⟩
  rcases listed_or listed with ⟨rfl, rfl⟩ | listed
  · exact ⟨⟨9, by decide⟩, by decide, by decide, by decide, by decide⟩
  rcases listed_or listed with ⟨rfl, rfl⟩ | listed
  · exact ⟨⟨10, by decide⟩, by decide, by decide, by decide, by decide⟩
  cases listed

/-- Every power of two in range has an entry, and is even. -/
theorem hexRate_served {freq : Int} (served : Served freq) :
    freq.tmod 2 = 0 ∧ ∃ rate, hexRate freq = some rate := by
  obtain ⟨k, low, high, rfl⟩ := served
  interval_cases k <;> exact ⟨by decide, _, rfl⟩

theorem or_and (value rate mask : UInt8) :
    (value ||| rate) &&& mask = (value &&& mask) ||| (rate &&& mask) :=
  UInt8.toBitVec_inj.mp BitVec.and_or_distrib_right

/-- `rtc_set_freq` on a served frequency returns 1 with the rate set. -/
theorem rtcSetFreq_served {freq : Int} (served : Served freq) (regA : UInt8) :
    (rtcSetFreq freq regA).1 = 1 ∧ RateSet freq regA (rtcSetFreq freq regA).2 := by
  obtain ⟨even, rate, listed⟩ := hexRate_served served
  obtain ⟨-, formula, positive, low, high⟩ := hexRate_some listed
  have set : rtcSetFreq freq regA = (1, (regA &&& 0xF0) ||| rate) := by
    simp [rtcSetFreq, even, listed]
  rw [set]
  have lowBits : ((regA &&& 0xF0) ||| rate) &&& 0x0F = rate := by
    rw [or_and, low, UInt8.and_assoc, show (0xF0 : UInt8) &&& 0x0F = 0 by decide,
      UInt8.and_zero, UInt8.zero_or]
  have highBits : ((regA &&& 0xF0) ||| rate) &&& 0xF0 = regA &&& 0xF0 := by
    rw [or_and, high, UInt8.and_assoc, UInt8.and_self, UInt8.or_zero]
  exact ⟨rfl, by rwa [lowBits], by rwa [lowBits], highBits⟩

/-- On any other frequency it returns -1 and changes nothing. -/
theorem rtcSetFreq_unserved {freq : Int} (unserved : ¬ Served freq) (regA : UInt8) :
    rtcSetFreq freq regA = (-1, regA) := by
  unfold rtcSetFreq
  split
  · rfl
  · cases listed : hexRate freq with
    | none => rfl
    | some rate => exact absurd (hexRate_some listed).1 unserved

/-! ## Writing a frequency -/

section

variable (devices : Devices) {fda : Fda} {slot : Fin 8}

/-- On an rtc descriptor `system_write` is `rtc_write`. -/
theorem systemWrite_rtc (rtc : (fda slot).fop = some .rtc) (buf : Bytes) (nbytes : Int) :
    ∃ result, systemWrite devices fda slot.val (some buf) nbytes = some result ∧
      (result.ret, result.devices) = rtcWrite devices buf := by
  have inside : ¬ ((slot.val : Int) < 0 ∨ (slot.val : Int) > 7) := by omega
  refine ⟨⟨(rtcWrite devices buf).1, fda, (rtcWrite devices buf).2, [], [], [.writeOp .rtc]⟩,
    ?_, by simp only [Prod.mk.eta]⟩
  simp only [systemWrite, inside, dif_neg, not_false_eq_true, Int.toNat_natCast, Fin.eta, rtc,
    Fop.write]

-- The frequency is a variable here: the word read through the pointer does not reduce.
theorem rtcWrite_reads {devices : Devices} {buf : Bytes} {freq : Int}
    (reads : readInt32 buf = freq) :
    (rtcWrite devices buf).1 = (if (rtcSetFreq freq devices.regA).1 ≠ 0 then -1 else 0) ∧
      (rtcWrite devices buf).2.regA = (rtcSetFreq freq devices.regA).2 := by
  simp only [rtcWrite, reads, and_self]

/-- `rtc_write` never reports success, whatever it does to the register. -/
theorem rtcWrite_refuses (devices : Devices) (buf : Bytes) : (rtcWrite devices buf).1 = -1 := by
  obtain ⟨freq, reads⟩ : ∃ freq, readInt32 buf = freq := ⟨_, rfl⟩
  rw [(rtcWrite_reads reads).1]
  by_cases served : Served freq
  · simp [(rtcSetFreq_served served devices.regA).1]
  · simp [rtcSetFreq_unserved served]

/-- What it does to the register is right for every frequency. -/
theorem rtcWrite_register (devices : Devices) (buf : Bytes) :
    (Served (readInt32 buf) →
        RateSet (readInt32 buf) devices.regA (rtcWrite devices buf).2.regA) ∧
      (¬ Served (readInt32 buf) → (rtcWrite devices buf).2.regA = devices.regA) := by
  obtain ⟨freq, reads⟩ : ∃ freq, readInt32 buf = freq := ⟨_, rfl⟩
  rw [(rtcWrite_reads reads).2, reads]
  constructor
  · intro served
    exact (rtcSetFreq_served served devices.regA).2
  · intro unserved
    rw [rtcSetFreq_unserved unserved]

/-- A write of a frequency to an rtc descriptor does what it is to do exactly if the
frequency is not served. -/
theorem systemWrite_rtc_written (rtc : (fda slot).fop = some .rtc)
    (buf : Bytes) (nbytes : Int) :
    ∃ result, systemWrite devices fda slot.val (some buf) nbytes = some result ∧
      (RtcWritten (readInt32 buf) devices.regA result.ret result.devices.regA ↔
        ¬ Served (readInt32 buf)) := by
  obtain ⟨result, completed, effect⟩ := systemWrite_rtc devices rtc buf nbytes
  have ret : result.ret = -1 := (congrArg Prod.fst effect).trans (rtcWrite_refuses devices buf)
  have register := rtcWrite_register devices buf
  rw [← congrArg Prod.snd effect] at register
  refine ⟨result, completed, ?_⟩
  constructor
  · intro written served
    have accepted := written.accepts.mpr served
    omega
  · intro unserved
    exact
      { accepts := by simp [ret, unserved]
        sets := fun served => absurd served unserved
        refuses := fun _ => ⟨ret, register.2 unserved⟩ }

/-- A table whose descriptors are all open on the clock. -/
def rtcFda : Fda := fun _ => ⟨some .rtc, 0, 0, 1, 0⟩

/-- 3 Hz is refused as it should be. -/
theorem systemWrite_rtc_three :
    ∃ result, systemWrite (typedDevices []) rtcFda 2 (some (cstring [3])) 4 = some result ∧
      RtcWritten (readInt32 (cstring [3])) 0x26 result.ret result.devices.regA := by
  obtain ⟨result, completed, written⟩ := systemWrite_rtc_written (typedDevices [])
    (show (rtcFda 2).fop = some .rtc from rfl) (cstring [3]) 4
  refine ⟨result, completed, written.mpr ?_⟩
  rintro ⟨k, low, high, power⟩
  have three : readInt32 (cstring [3]) = 3 := by decide
  rw [three] at power
  interval_cases k <;> simp at power

/-- The four bytes of 2 Hz are refused. -/
theorem systemWrite_rtc_failure :
    ¬ ∀ (devices : Devices) (fda : Fda) (slot : Fin 8) (buf : Bytes) (nbytes : Int),
      (fda slot).fop = some .rtc → (fda slot).flags = 1 →
      ∃ result, systemWrite devices fda slot.val (some buf) nbytes = some result ∧
        RtcWritten (readInt32 buf) devices.regA result.ret result.devices.regA := by
  intro written
  obtain ⟨result, completed, effect⟩ :=
    written (typedDevices []) rtcFda 2 (cstring [2]) 4 rfl rfl
  obtain ⟨_, reached, outcome⟩ :=
    systemWrite_rtc (typedDevices []) (show (rtcFda 2).fop = some .rtc from rfl) (cstring [2]) 4
  rw [completed] at reached
  obtain rfl := Option.some.inj reached
  have ret : result.ret = -1 :=
    (congrArg Prod.fst outcome).trans (rtcWrite_refuses (typedDevices []) (cstring [2]))
  have served : Served (readInt32 (cstring [2])) := ⟨1, by decide⟩
  have accepted := effect.accepts.mpr served
  omega

end

end Ece391.Kernel
