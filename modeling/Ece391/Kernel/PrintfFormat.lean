import Ece391.Kernel.Printf

/-!
# The end of a format

The loop of `printf` tests for the terminator before each piece of the format, but a conversion
steps over the byte it ends at without a test.  A format that is cut off inside a conversion is
read beyond its terminator, and every other format is read up to it.
-/

namespace Ece391.Kernel

open Ece391.Library

/-- Whether the bytes before an index end inside a conversion: after its `%` and any number of
`#`. -/
def insideAfter (format : Bytes) : Nat → Bool
  | 0 => false
  | i + 1 => if insideAfter format i then format i = 0x23 else format i = 0x25

/-- A format is terminated after so many bytes. -/
structure Terminated (format : Bytes) (length : Nat) : Prop where
  ordinary : ∀ i < length, format i ≠ 0
  ended : format length = 0

/-- A format is cut off inside a conversion. -/
def CutOff (format : Bytes) (length : Nat) : Prop :=
  insideAfter format length = true

instance (format : Bytes) (length : Nat) : Decidable (CutOff format length) :=
  inferInstanceAs (Decidable (_ = _))

/-- `printf` ends, has read no byte of the format beyond the terminator, and returns the
length of the format. -/
def ReturnsLength (call : PrintfCall) (length : Nat) : Prop :=
  ∃ fuel ret put, (printf call fuel).value = some (ret, put) ∧
    (printf call fuel).Inside (· ≤ length) ∧ ret = length

section

variable {call : PrintfCall} {format : Bytes} {state next last : Printing}
variable {fuel length : Nat} {alternate : Bool}

theorem insideAfter_percent (outside : insideAfter format state.buf = false) :
    insideAfter format (state.buf + 1) = decide (format state.buf = 0x25) := by
  simp [insideAfter, outside]

theorem insideAfter_hash (inside : insideAfter format state.buf = true) :
    insideAfter format (state.buf + 1) = decide (format state.buf = 0x23) := by
  simp [insideAfter, inside]

/-! ## A conversion -/

/-- A byte other than `#` ends the conversion, whether `printf` knows it or not. -/
theorem formatCharSwitch_other (other : call.format state.buf ≠ 0x23) :
    ∃ next, (formatCharSwitch call (fuel + 1) alternate state).value = some next ∧
      next.buf = state.buf := by
  rw [formatCharSwitch_value, if_neg other, unsignedText_eq, signedText_eq]
  obtain ⟨text, hexadecimal⟩ : ∃ text,
      hexText call.convBuf alternate (call.stack state.esp) = some text := by
    cases alternate with
    | false => exact ⟨_, hexText_plain _ _⟩
    | true => exact ⟨_, hexText_alternate _ _⟩
  rw [hexadecimal]
  split
  · exact ⟨_, rfl, rfl⟩
  split
  · exact ⟨_, rfl, rfl⟩
  split
  · exact ⟨_, rfl, rfl⟩
  split
  · exact ⟨_, rfl, rfl⟩
  split
  · exact ⟨_, rfl, rfl⟩
  split
  · exact ⟨_, rfl, rfl⟩
  · exact ⟨_, rfl, rfl⟩

theorem formatCharSwitch_places (call : PrintfCall) (fuel : Nat) (alternate : Bool)
    (state : Printing) :
    (formatCharSwitch call (fuel + 1) alternate state).places =
      if call.format state.buf = 0x23 then
        state.buf :: (formatCharSwitch call fuel true state.advance).places
      else [state.buf] := by
  rw [formatCharSwitch, Traced.bind_places, Traced.read_places, Traced.read_value]
  by_cases hash : call.format state.buf = 0x23
  · rw [if_pos hash, if_neg (by rw [hash]; decide), if_pos hash]
    rfl
  · rw [if_neg hash]
    by_cases percent : call.format state.buf = 0x25
    · rw [if_pos percent]
      rfl
    · rw [if_neg percent]
      rw [if_neg hash]
      split
      · rfl
      split
      · rfl
      split
      · rfl
      split
      · rfl
      split
      · rfl
      · rfl

/-- After a `#` the format goes on inside the conversion. -/
theorem hash_continues (terminated : Terminated format length)
    (inside : insideAfter format state.buf = true) (bound : state.buf ≤ length)
    (hash : format state.buf = 0x23) :
    state.buf < length ∧ insideAfter format state.advance.buf = true := by
  refine ⟨Nat.lt_of_le_of_ne bound fun atEnd => ?_,
    (insideAfter_hash inside).trans (decide_eq_true hash)⟩
  rw [atEnd, terminated.ended] at hash
  exact absurd hash (by decide)

/-- A conversion is read up to the byte that ends it, which may be the terminator. -/
theorem formatCharSwitch_ends (terminated : Terminated call.format length)
    (inside : insideAfter call.format state.buf = true) (bound : state.buf ≤ length)
    (converted : (formatCharSwitch call fuel alternate state).value = some next) :
    next.buf ≤ length ∧ state.buf ≤ next.buf ∧
      insideAfter call.format next.buf = true ∧ insideAfter call.format (next.buf + 1) = false ∧
      (formatCharSwitch call fuel alternate state).Inside (· ≤ next.buf) := by
  induction fuel generalizing alternate state with
  | zero => cases converted
  | succ fuel ih =>
      rw [Traced.Inside, formatCharSwitch_places]
      by_cases hash : call.format state.buf = 0x23
      · obtain ⟨before, again⟩ := hash_continues terminated inside bound hash
        rw [formatCharSwitch_value, if_neg (by rw [hash]; decide), if_pos hash] at converted
        obtain ⟨within, later, ends, left, reads⟩ := ih again before converted
        rw [if_pos hash]
        have forward : state.buf ≤ next.buf := Nat.le_of_succ_le later
        exact ⟨within, forward, ends, left, List.forall_mem_cons.mpr ⟨forward, reads⟩⟩
      · obtain ⟨stopped, same, stays⟩ := @formatCharSwitch_other call state fuel alternate hash
        obtain rfl : stopped = next := Option.some.inj (same.symm.trans converted)
        rw [if_neg hash, stays]
        refine ⟨bound, Nat.le_refl _, inside, ?_, by simp⟩
        exact (insideAfter_hash inside).trans (decide_eq_false hash)

theorem formatCharSwitch_isSome (terminated : Terminated call.format length)
    (inside : insideAfter call.format state.buf = true) (bound : state.buf ≤ length)
    (enough : length - state.buf < fuel) :
    ∃ next, (formatCharSwitch call fuel alternate state).value = some next := by
  induction fuel generalizing alternate state with
  | zero => omega
  | succ fuel ih =>
      by_cases hash : call.format state.buf = 0x23
      · obtain ⟨before, again⟩ := hash_continues terminated inside bound hash
        have fewer : length - state.advance.buf < fuel := by
          change length - (state.buf + 1) < fuel
          omega
        rw [formatCharSwitch_value, if_neg (by rw [hash]; decide), if_pos hash]
        exact ih again before fewer
      · obtain ⟨next, same, _⟩ := @formatCharSwitch_other call state fuel alternate hash
        exact ⟨next, same⟩

/-! ## The loop -/

theorem printfBody_places (call : PrintfCall) (fuel : Nat) (state : Printing) :
    (printfBody call fuel state).places =
      if call.format state.buf = 0x25 then
        state.buf :: (formatCharSwitch call fuel false state.advance).places
      else [state.buf, state.buf] := by
  rw [printfBody, Traced.bind_places, Traced.read_places, Traced.read_value]
  split
  · change [state.buf] ++ ((formatCharSwitch call fuel false state.advance).places ++ []) = _
    rw [List.append_nil, List.singleton_append]
  · rfl

/-- The body reads up to the byte before the next piece, and only a format that is cut off
lets it pass the terminator. -/
theorem printfBody_steps (terminated : Terminated call.format length)
    (outside : insideAfter call.format state.buf = false) (before : state.buf < length)
    (stepped : (printfBody call fuel state).value = some next) :
    state.buf < next.buf ∧ insideAfter call.format next.buf = false ∧
      (next.buf ≤ length ∨ next.buf = length + 1 ∧ CutOff call.format length) ∧
      (printfBody call fuel state).Inside (· < next.buf) := by
  have after := insideAfter_percent outside
  rw [printfBody_value] at stepped
  rw [Traced.Inside, printfBody_places]
  by_cases percent : call.format state.buf = 0x25
  · rw [if_pos percent] at stepped
    obtain ⟨converted, switched, rfl⟩ := Option.map_eq_some_iff.mp stepped
    have inside := after.trans (decide_eq_true percent)
    obtain ⟨within, later, ends, left, reads⟩ :=
      @formatCharSwitch_ends call state.advance converted fuel length false terminated inside
        before switched
    rw [if_pos percent]
    refine ⟨Nat.lt_succ_of_le (Nat.le_of_succ_le later), left, ?_,
      List.forall_mem_cons.mpr ⟨Nat.lt_succ_of_le (Nat.le_of_succ_le later),
        fun place member => Nat.lt_succ_of_le (reads place member)⟩⟩
    rcases Nat.lt_or_eq_of_le within with early | atEnd
    · exact .inl early
    · exact .inr ⟨congrArg (· + 1) atEnd, atEnd ▸ ends⟩
  · rw [if_neg percent] at stepped
    obtain rfl := Option.some.inj stepped
    rw [if_neg percent]
    exact ⟨Nat.lt_succ_self _, after.trans (decide_eq_false percent), .inl before,
      by simp [Printing.advance, Printing.putc]⟩

theorem printfBody_isSome (terminated : Terminated call.format length)
    (outside : insideAfter call.format state.buf = false) (before : state.buf < length)
    (enough : length - state.buf < fuel) :
    ∃ next, (printfBody call fuel state).value = some next := by
  rw [printfBody_value]
  by_cases percent : call.format state.buf = 0x25
  · have inside := (insideAfter_percent outside).trans (decide_eq_true percent)
    have fewer : length - state.advance.buf < fuel := by
      change length - (state.buf + 1) < fuel
      omega
    obtain ⟨converted, switched⟩ :=
      @formatCharSwitch_isSome call state.advance fuel length false terminated inside before fewer
    exact ⟨converted.advance, by rw [if_pos percent, switched, Option.map_some]⟩
  · exact ⟨_, if_neg percent⟩

theorem printfLoop_end (ended : call.format state.buf = 0) :
    printfLoop call (fuel + 1) state = ⟨some state, [state.buf]⟩ := by
  rw [printfLoop]
  change (⟨(if call.format state.buf = 0 then _ else _ : Traced _ _).value,
    [state.buf] ++ (if call.format state.buf = 0 then _ else _ : Traced _ _).places⟩ :
      Traced _ _) = _
  rw [if_pos ended]
  rfl

theorem printfLoop_next (ordinary : call.format state.buf ≠ 0)
    (stepped : (printfBody call (fuel + 1) state).value = some next) :
    (printfLoop call (fuel + 1) state).value = (printfLoop call fuel next).value ∧
      (printfLoop call (fuel + 1) state).places =
        state.buf :: ((printfBody call (fuel + 1) state).places ++
          (printfLoop call fuel next).places) := by
  refine ⟨by rw [printfLoop_value, if_neg ordinary, stepped, Option.bind_some], ?_⟩
  rw [printfLoop, Traced.bind_places, Traced.read_value, if_neg ordinary, Traced.bind_places,
    stepped]
  rfl

/-- The loop reads a format that is not cut off up to its terminator and stops there. -/
theorem printfLoop_within (terminated : Terminated call.format length)
    (whole : ¬CutOff call.format length) (outside : insideAfter call.format state.buf = false)
    (bound : state.buf ≤ length) (ran : (printfLoop call fuel state).value = some last) :
    last.buf = length ∧ (printfLoop call fuel state).Inside (· ≤ length) := by
  induction fuel generalizing state with
  | zero => cases ran
  | succ fuel ih =>
      rcases Nat.lt_or_eq_of_le bound with before | atEnd
      · have ordinary := terminated.ordinary _ before
        cases body : (printfBody call (fuel + 1) state).value with
        | none =>
            rw [printfLoop_value, if_neg ordinary, body] at ran
            cases ran
        | some next =>
            obtain ⟨forward, left, within | ⟨_, cut⟩, reads⟩ :=
              printfBody_steps terminated outside before body
            · obtain ⟨value, places⟩ := printfLoop_next ordinary body
              obtain ⟨stops, later⟩ := ih left within (value.symm.trans ran)
              refine ⟨stops, ?_⟩
              rw [Traced.Inside, places]
              refine List.forall_mem_cons.mpr ⟨bound, fun place member => ?_⟩
              rcases List.mem_append.mp member with first | second
              · exact Nat.le_trans (Nat.le_of_lt (reads place first)) within
              · exact later place second
            · exact absurd cut whole
      · have ended : call.format state.buf = 0 := atEnd ▸ terminated.ended
        rw [printfLoop_end ended] at ran ⊢
        obtain rfl := Option.some.inj ran
        exact ⟨atEnd, by simp [Traced.Inside, atEnd]⟩

theorem printfLoop_isSome (terminated : Terminated call.format length)
    (whole : ¬CutOff call.format length) (outside : insideAfter call.format state.buf = false)
    (bound : state.buf ≤ length) (enough : length - state.buf < fuel) :
    ∃ last, (printfLoop call fuel state).value = some last := by
  induction fuel generalizing state with
  | zero => omega
  | succ fuel ih =>
      rcases Nat.lt_or_eq_of_le bound with before | atEnd
      · obtain ⟨next, body⟩ := printfBody_isSome terminated outside before enough
        obtain ⟨forward, left, within | ⟨_, cut⟩, _⟩ :=
          printfBody_steps terminated outside before body
        · rw [(printfLoop_next (terminated.ordinary _ before) body).1]
          exact ih left within (by omega)
        · exact absurd cut whole
      · have ended : call.format state.buf = 0 := atEnd ▸ terminated.ended
        exact ⟨state, by rw [printfLoop_end ended]⟩

/-- The loop over a format that is cut off tests the byte behind the terminator. -/
theorem printfLoop_beyond (terminated : Terminated call.format length)
    (cut : CutOff call.format length) (outside : insideAfter call.format state.buf = false)
    (bound : state.buf ≤ length) (ran : (printfLoop call fuel state).value = some last) :
    length + 1 ∈ (printfLoop call fuel state).places := by
  induction fuel generalizing state with
  | zero => cases ran
  | succ fuel ih =>
      have before : state.buf < length := by
        refine Nat.lt_of_le_of_ne bound fun atEnd => ?_
        rw [atEnd] at outside
        exact absurd cut (by rw [CutOff, outside]; decide)
      have ordinary := terminated.ordinary _ before
      cases body : (printfBody call (fuel + 1) state).value with
      | none =>
          rw [printfLoop_value, if_neg ordinary, body] at ran
          cases ran
      | some next =>
          obtain ⟨value, places⟩ := printfLoop_next ordinary body
          rw [value] at ran
          rw [places]
          refine List.mem_cons_of_mem _ (List.mem_append_right _ ?_)
          obtain ⟨_, left, within | ⟨passed, _⟩, _⟩ :=
            printfBody_steps terminated outside before body
          · exact ih left within ran
          · -- The loop has ended, so it has made its test at least once.
            cases fuel with
            | zero => cases ran
            | succ fuel =>
                rw [printfLoop, Traced.bind_places, Traced.read_places, passed]
                exact List.mem_append_left _ (List.mem_singleton_self _)

/-! ## The call as a whole -/

theorem printf_value (call : PrintfCall) (fuel : Nat) :
    (printf call fuel).value = (printfLoop call fuel ⟨0, 0, []⟩).value.map fun last =>
      (int32 last.buf, last.put) := rfl

theorem printf_places (call : PrintfCall) (fuel : Nat) :
    (printf call fuel).places = (printfLoop call fuel ⟨0, 0, []⟩).places :=
  List.append_nil _

theorem not_returnsLength_of_cutOff (terminated : Terminated call.format length)
    (cut : CutOff call.format length) : ¬ReturnsLength call length := by
  rintro ⟨fuel, ret, put, ran, reads, _⟩
  rw [printf_value] at ran
  obtain ⟨last, looped, _⟩ := Option.map_eq_some_iff.mp ran
  have beyond := printfLoop_beyond terminated cut rfl (Nat.zero_le length) looped
  rw [← printf_places] at beyond
  exact Nat.not_succ_le_self length (reads _ beyond)

theorem int32_length_iff (length : Nat) :
    int32 (length : Int) = length ↔ length < 2147483648 := by
  constructor
  · intro same
    rw [int32] at same
    split at same <;> omega
  · intro small
    exact int32_of_range (by omega) (by omega)

/-- `printf` keeps inside its format, ends and returns the length exactly when the format is
not cut off inside a conversion and the length is a positive `int32_t`. -/
theorem printf_returns_length_iff (terminated : Terminated call.format length) :
    ReturnsLength call length ↔ ¬CutOff call.format length ∧ length < 2147483648 := by
  constructor
  · intro returns
    have whole : ¬CutOff call.format length :=
      fun cut => not_returnsLength_of_cutOff terminated cut returns
    obtain ⟨fuel, ret, put, ran, _, same⟩ := returns
    rw [printf_value] at ran
    obtain ⟨last, looped, result⟩ := Option.map_eq_some_iff.mp ran
    obtain ⟨stops, _⟩ := printfLoop_within terminated whole rfl (Nat.zero_le length) looped
    have returned : int32 last.buf = ret := (Prod.mk.inj result).1
    rw [stops, same] at returned
    exact ⟨whole, (int32_length_iff length).mp returned⟩
  · rintro ⟨whole, small⟩
    obtain ⟨last, looped⟩ := @printfLoop_isSome call ⟨0, 0, []⟩ (length + 1) length terminated
      whole rfl (Nat.zero_le length) (Nat.lt_succ_self length)
    obtain ⟨stops, reads⟩ := printfLoop_within terminated whole rfl (Nat.zero_le length) looped
    refine ⟨length + 1, int32 last.buf, last.put, ?_, ?_, ?_⟩
    · rw [printf_value, looped, Option.map_some]
    · rw [Traced.Inside, printf_places]
      exact reads
    · rw [stops]
      exact (int32_length_iff length).mpr small

theorem printf_returns_length_call : ReturnsLength numbersCall 9 :=
  (printf_returns_length_iff ⟨by decide, rfl⟩).mpr ⟨by decide, by decide⟩

/-- The format `"%"`, with the string `"AB"` behind it. -/
def percentCall : PrintfCall where
  format := cstring [0x25, 0x00, 0x41, 0x42]
  stack := fun _ => 0
  strings := fun _ => []
  convBuf := fun _ => 0

/-- The string behind the format is printed too. -/
theorem printf_reads_beyond :
    (printf percentCall 5).value = some (4, [0x41, 0x42]) ∧
      2 ∈ (printf percentCall 5).places ∧ ¬ReturnsLength percentCall 1 :=
  ⟨by decide, by decide, not_returnsLength_of_cutOff ⟨by decide, rfl⟩ (by decide)⟩

end

end Ece391.Kernel
