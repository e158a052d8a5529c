import Ece391.Kernel.CommandLine
import Ece391.Library.Traced

/-!
# Handing the argument to the program

The argument of a command is copied twice by `strncpy`: by `system_execute` into the 32 bytes of
the control block, and by `system_getargs` from there into the buffer of the program.  Neither
copy leaves room for a terminator, and neither call checks a length.
-/

namespace Ece391.Kernel

open Ece391.Library

/-- `strncpy` with a log of the source bytes it tests.  The terminator is tested before the
bound, so one byte behind the last one copied is read. -/
def strncpyTraced (src : Bytes) : (count i : Nat) → Traced Nat (List UInt8)
  | 0, i => do
      let _ ← Traced.read i (src i)
      pure []
  | count + 1, i => do
      let char ← Traced.read i (src i)
      if char = 0 then pure (List.replicate (count + 1) 0)
      else do
        let rest ← strncpyTraced src count (i + 1)
        pure (char :: rest)

/-- The memory from the `args` field of the current control block on. -/
def argsMemory (state : ProcessState) (memory : Bytes) : Bytes :=
  overwrite memory (state.pcbs state.pcbObj).args

/-- `system_getargs`: the return value and the bytes stored in the buffer, with a log of the
bytes read from `args` on.  The buffer is what it held before, or NULL. -/
def systemGetargs (args : Bytes) (buf : Option Bytes) (nbytes : Int) :
    Traced Nat (Int × List UInt8) :=
  match buf with
  | none => pure (-1, [])
  | some _ => do
      let first ← Traced.read 0 (args 0)
      if first = 0 then pure (-1, [])
      else do
        let written ← strncpyTraced args (uint32 nbytes) 0
        pure (0, written)

/-! ## The logged copy -/

section Copy

variable {src : Bytes} {count i bound : Nat}

theorem strncpyTraced_succ (src : Bytes) (count i : Nat) :
    strncpyTraced src (count + 1) i =
      Traced.read i (src i) >>= fun _ =>
        if src i = 0 then pure (List.replicate (count + 1) 0)
        else strncpyTraced src count (i + 1) >>= fun rest => pure (src i :: rest) := rfl

theorem strncpyTraced_value (src : Bytes) (count i : Nat) :
    (strncpyTraced src count i).value = strncpyFrom src count i := by
  induction count generalizing i with
  | zero => rfl
  | succ count ih =>
      rw [strncpyTraced_succ, strncpyFrom, Traced.bind_value, Traced.ite_value, Traced.pure_value,
        Traced.bind_value, Traced.pure_value, ih]

/-- The copy reads up to the terminator, or up to its bound. -/
theorem inside_strncpyTraced :
    Traced.Inside (· < bound) (strncpyTraced src count i) ↔
      i + (fieldFrom 0 src count i).length < bound := by
  induction count generalizing i with
  | zero => simp [strncpyTraced, fieldFrom]
  | succ count ih =>
      rw [strncpyTraced_succ, fieldFrom, Traced.inside_bind, Traced.inside_read]
      by_cases ended : src i = 0
      · simp [ended]
      · rw [if_neg ended, if_neg ended, Traced.inside_bind, ih, List.length_cons]
        constructor
        · rintro ⟨_, rest, _⟩
          omega
        · intro inside
          exact ⟨by omega, by omega, Traced.inside_pure _⟩

theorem systemGetargs_some {args content : Bytes} {nbytes : Int} (first : args 0 ≠ 0) :
    systemGetargs args (some content) nbytes =
      Traced.read 0 (args 0) >>= fun _ =>
        strncpyTraced args (uint32 nbytes) 0 >>= fun written => pure (0, written) := by
  change (Traced.read 0 (args 0) >>= fun _ =>
    if args 0 = 0 then pure (-1, [])
    else strncpyTraced args (uint32 nbytes) 0 >>= fun written => pure (0, written)) = _
  simp only [if_neg first]

/-- A call with a buffer and an argument always succeeds, whatever the size of either. -/
theorem systemGetargs_value {args content : Bytes} {nbytes : Int} (first : args 0 ≠ 0) :
    (systemGetargs args (some content) nbytes).value = (0, strncpy args (uint32 nbytes)) := by
  rw [systemGetargs_some first, Traced.bind_value, Traced.bind_value, Traced.pure_value,
    strncpyTraced_value, strncpy]

theorem inside_systemGetargs {args content : Bytes} {nbytes : Int} (first : args 0 ≠ 0) :
    (systemGetargs args (some content) nbytes).Inside (· < 32) ↔
      (field 0 (uint32 nbytes) args).length < 32 := by
  rw [systemGetargs_some first, Traced.inside_bind, Traced.inside_read, Traced.inside_bind,
    inside_strncpyTraced, Nat.zero_add, field]
  constructor
  · rintro ⟨_, inside, _⟩
    exact inside
  · intro inside
    exact ⟨by omega, inside, Traced.inside_pure _⟩

end Copy

/-! ## The argument in the control block -/

section Argument

variable {arg : List UInt8} {memory : Bytes}

theorem recorded_symbol (ordinary : 0 ∉ arg) {i : Nat} (inside : i < 32) :
    overwrite memory (strncpy (cstring arg) 32) i = (arg.take 32).getD i 0 := by
  have holds : Holds 0 (cstring arg) arg := terminated_holds ordinary
  rw [overwrite_strncpy memory _ inside, holds.field]

/-- A shorter argument is terminated in the control block. -/
theorem recorded_holds (ordinary : 0 ∉ arg) (short : arg.length < 32) :
    Holds 0 (overwrite memory (strncpy (cstring arg) 32)) arg where
  ordinary := ordinary
  agree i inside := by
    rw [recorded_symbol ordinary (by omega), List.take_of_length_le (by omega)]
    simp [inside]
  ended := by
    rw [recorded_symbol ordinary short, List.take_of_length_le (by omega)]
    simp

/-- A longer one fills its field without a terminator. -/
theorem recorded_full (ordinary : 0 ∉ arg) (long : 32 ≤ arg.length) {i : Nat} (inside : i < 32) :
    overwrite memory (strncpy (cstring arg) 32) i ≠ 0 := by
  have within : i < (arg.take 32).length := by
    rw [List.length_take]
    omega
  rw [recorded_symbol ordinary inside, List.getD_eq_getElem?_getD,
    List.getElem?_eq_getElem within, Option.getD_some]
  intro ended
  exact ordinary (List.take_subset 32 arg (ended ▸ List.getElem_mem within))

theorem recorded_first (ordinary : 0 ∉ arg) (nonempty : arg ≠ []) :
    overwrite memory (strncpy (cstring arg) 32) 0 ≠ 0 := by
  rcases Nat.lt_or_ge arg.length 32 with short | long
  · have positive := List.length_pos_iff.mpr nonempty
    rw [(recorded_holds ordinary short).agree 0 positive]
    exact fun ended => ordinary (ended ▸ List.getElem_mem positive)
  · exact recorded_full ordinary long (by omega)

/-- What `system_getargs` owes a program that was started with an argument. -/
structure ArgumentDelivered (arg : List UInt8) (buf : Option Bytes) (nbytes : Int)
    (call : Traced Nat (Int × List UInt8)) : Prop where
  /-- Only the 32 bytes of the field are read. -/
  reads : call.Inside (· < 32)
  bounded : (call.value.2.length : Int) ≤ max nbytes 0
  whole : call.value.1 = 0 → ∃ content, buf = some content ∧
    Holds 0 (overwrite content call.value.2) arg
  refused : 32 < arg.length ∨ nbytes ≤ arg.length → call.value.1 = -1

theorem delivered_null {nbytes : Int} (args : Bytes) :
    ArgumentDelivered arg none nbytes (systemGetargs args none nbytes) where
  reads := Traced.inside_pure _
  bounded := Int.le_max_right _ _
  whole success := absurd success (by simp [systemGetargs])
  refused _ := rfl

/-- The copy delivers an argument that leaves room for a terminator in both places. -/
theorem delivered_short {nbytes : Int} {content : Bytes} (ordinary : 0 ∉ arg) (nonempty : arg ≠ [])
    (short : arg.length < 32) (room : arg.length < nbytes) (typed : nbytes < 2147483648) :
    ArgumentDelivered arg (some content) nbytes
      (systemGetargs (overwrite memory (strncpy (cstring arg) 32)) (some content) nbytes) := by
  have size : uint32 nbytes = nbytes.toNat := uint32_of_nonneg (by omega) (by omega)
  have first := @recorded_first arg memory ordinary nonempty
  have held := @recorded_holds arg memory ordinary short
  have copied : field 0 (uint32 nbytes) (overwrite memory (strncpy (cstring arg) 32)) = arg := by
    rw [held.field, List.take_of_length_le (by omega)]
  constructor
  · rw [inside_systemGetargs first, copied]
    exact short
  · rw [systemGetargs_value first, length_strncpy, size]
    omega
  · intro _
    refine ⟨content, rfl, ordinary, fun i inside => ?_, ?_⟩
    · rw [systemGetargs_value first, overwrite_strncpy _ _ (by omega), copied]
      simp [inside]
    · rw [systemGetargs_value first, overwrite_strncpy _ _ (by omega), copied]
      simp
  · rintro (long | small)
    · omega
    · omega

/-- An argument that fills the field has nothing to end the second copy. -/
theorem delivered_long {nbytes : Int} {content : Bytes} (ordinary : 0 ∉ arg) (nonempty : arg ≠ [])
    (typed : -2147483648 ≤ nbytes) (typed' : nbytes < 2147483648)
    (delivered : ArgumentDelivered arg (some content) nbytes
      (systemGetargs (overwrite memory (strncpy (cstring arg) 32)) (some content) nbytes)) :
    arg.length < 32 ∧ arg.length < nbytes := by
  have first := @recorded_first arg memory ordinary nonempty
  have success := congrArg Prod.fst (@systemGetargs_value _ content nbytes first)
  have fits : ¬(32 < arg.length ∨ nbytes ≤ arg.length) := by
    intro refused
    have failed : (0 : Int) = -1 := success.symm.trans (delivered.refused refused)
    omega
  refine ⟨?_, by omega⟩
  by_contra full
  have size : uint32 nbytes = nbytes.toNat := uint32_of_nonneg (by omega) (by omega)
  have inside := (inside_systemGetargs first).mp delivered.reads
  have ended := field_stop (Nat.lt_trans inside (show 32 < uint32 nbytes by omega))
  exact recorded_full ordinary (by omega) inside ended

end Argument

section

variable {image : Image} {locals : Locals} {state state' : ProcessState} {command : Bytes}
variable {name arg : List UInt8} {gap eip : Nat} {loaded : List UInt8}

/-- A program that is started with a name, spaces and one word gets the word as its argument
exactly when the word leaves room for a terminator both in the control block and in the
buffer, or there is no buffer. -/
theorem getargs_delivers_iff
    (holds : Holds 0 command (name ++ List.replicate (gap + 1) 32 ++ arg))
    (small : (name ++ List.replicate (gap + 1) 32 ++ arg).length < 2147483648)
    (word : 32 ∉ arg) (nonempty : arg ≠ [])
    (executed : systemExecute image locals state (some command) = .userMode eip loaded state')
    (memory : Bytes) (buf : Option Bytes) {nbytes : Int} (typed : -2147483648 ≤ nbytes)
    (typed' : nbytes < 2147483648) :
    ArgumentDelivered arg buf nbytes (systemGetargs (argsMemory state' memory) buf nbytes) ↔
      buf = none ∨ arg.length < 32 ∧ arg.length < nbytes := by
  have ordinary : 0 ∉ arg := fun ended => holds.ordinary (List.mem_append_right _ ended)
  have member : (32 : UInt8) ∈ name ++ List.replicate (gap + 1) 32 ++ arg := by
    simp [List.replicate_succ]
  have recorded : argsMemory state' memory = overwrite memory (strncpy (cstring arg) 32) := by
    rw [argsMemory, systemExecute_args holds small executed, commandArgs, if_pos member,
      lastWord_of_words word]
  rw [recorded]
  cases buf with
  | none => exact iff_of_true (delivered_null _) (.inl rfl)
  | some content =>
      constructor
      · intro delivered
        exact .inr (delivered_long ordinary nonempty typed typed' delivered)
      · rintro (null | ⟨short, room⟩)
        · cases null
        · exact delivered_short ordinary nonempty short room typed'

end

/-- The shell started with an argument on the small image. -/
theorem smallImage_started {symbols : List UInt8} (holds : Holds 0 (cstring symbols) symbols)
    (short : symbols.length ≤ 128) (name : firstWord 32 symbols = [115, 104, 101, 108, 108])
    (member : 32 ∈ symbols) :
    ∃ eip loaded state', systemExecute smallImage zeroLocals (bootState smallLayout)
        (some (cstring symbols)) = .userMode eip loaded state' ∧
      (state'.pcbs state'.pcbObj).args = strncpy (cstring (lastWord 32 symbols)) 32 := by
  have inside : ¬OverrunsArgs zeroLocals symbols := fun overrun => overrun.1 member
  obtain ⟨eip, loaded, state', executed, args⟩ :=
    (smallImage_launches zeroLocals name).executed holds short inside
  rw [commandArgs, if_pos member] at args
  exact ⟨eip, loaded, state', executed, args⟩

theorem getargs_delivers_letter :
    ∃ eip loaded state', systemExecute smallImage zeroLocals (bootState smallLayout)
        (some (cstring oneArgument)) = .userMode eip loaded state' ∧
      ArgumentDelivered [97] (some fun _ => 0) 1024
        (systemGetargs (argsMemory state' fun _ => 46) (some fun _ => 0) 1024) := by
  have holds : Holds 0 (cstring oneArgument) oneArgument := terminated_holds (by decide)
  obtain ⟨eip, loaded, state', executed, -⟩ :=
    smallImage_started holds (by decide) (by decide) (by decide)
  refine ⟨eip, loaded, state', executed, ?_⟩
  have delivers := @getargs_delivers_iff _ _ _ _ _ [115, 104, 101, 108, 108] [97] 0 _ _ holds
    (by decide) (by decide) (by decide) executed (fun _ => 46) (some fun _ => 0) 1024
    (by decide) (by decide)
  exact delivers.mpr (.inr ⟨by decide, by decide⟩)

/-- The 32-byte file name of the small image, as an argument. -/
def longArgument : List UInt8 :=
  [118, 101, 114, 121, 108, 97, 114, 103, 101, 116, 101, 120, 116, 119, 105, 116,
    104, 118, 101, 114, 121, 108, 111, 110, 103, 110, 97, 109, 101, 46, 116, 120]

/-- Reading the 32-byte name as an argument runs past the field, and a buffer of one byte gets a
letter that nothing terminates. -/
theorem getargs_not_always_delivers :
    (∃ eip loaded state', systemExecute smallImage zeroLocals (bootState smallLayout)
        (some (cstring ([115, 104, 101, 108, 108, 32] ++ longArgument))) =
          .userMode eip loaded state' ∧
      ¬ArgumentDelivered longArgument (some fun _ => 0) 1024
        (systemGetargs (argsMemory state' fun _ => 46) (some fun _ => 0) 1024)) ∧
    ∃ eip loaded state', systemExecute smallImage zeroLocals (bootState smallLayout)
        (some (cstring oneArgument)) = .userMode eip loaded state' ∧
      ¬ArgumentDelivered [97] (some fun _ => 0) 1
        (systemGetargs (argsMemory state' fun _ => 46) (some fun _ => 0) 1) := by
  constructor
  · obtain ⟨eip, loaded, state', executed, args⟩ := @smallImage_started
      ([115, 104, 101, 108, 108, 32] ++ longArgument) (terminated_holds (by decide)) (by decide)
      (by decide) (by decide)
    have word : lastWord 32 ([115, 104, 101, 108, 108, 32] ++ longArgument) = longArgument := by
      decide
    refine ⟨eip, loaded, state', executed, fun delivered => ?_⟩
    rw [argsMemory, args, word] at delivered
    have room := delivered_long (by decide) (by decide) (by decide) (by decide) delivered
    exact absurd room.1 (by decide)
  · obtain ⟨eip, loaded, state', executed, args⟩ :=
      @smallImage_started oneArgument (terminated_holds (by decide)) (by decide) (by decide)
        (by decide)
    refine ⟨eip, loaded, state', executed, fun delivered => ?_⟩
    rw [argsMemory, args, show lastWord 32 oneArgument = [97] by decide] at delivered
    have room := delivered_long (by decide) (by decide) (by decide) (by decide) delivered
    exact absurd room.2 (by decide)

end Ece391.Kernel
