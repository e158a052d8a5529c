import Ece391.Kernel.Itoa
import Ece391.Library.Traced

/-!
# `printf`

The format is read byte by byte, and every read is logged with its index.  A conversion begins
at a `%` and takes the next word of the stack, except for `%%` and what `printf` does not know.
The texts of `%u`, `%d`, `%x` and `%#x` are numerals of that word.
-/

namespace Ece391.Kernel

open Ece391.Library

/-! ## The call -/

/-- What a call finds: the format, the words above it on the stack, the strings at their
addresses, and what `conv_buf` holds before it is written. -/
structure PrintfCall where
  format : Bytes
  stack : Nat → UInt32
  strings : UInt32 → List UInt8
  convBuf : Bytes

/-- The pointers `buf` and `esp`, counted from the start of the format and of the words, and
the bytes given to `putc`. -/
structure Printing where
  buf : Nat
  esp : Nat
  put : List UInt8

/-- The bytes that `puts` gives to `putc`. -/
def puts (s : Bytes) : List UInt8 :=
  field 0 4294967296 s

/-- The fuel of the loops of `itoa`: a word has no more than 32 digits. -/
def itoaFuel : Nat := 33

/-- The text of `%x`, and of `%#x` when `alternate` is set.  The digits of `%#x` are stored
from `conv_buf[8]` on, and as many zeros below as are missing. -/
def hexText (convBuf : Bytes) (alternate : Bool) (value : UInt32) : Option (List UInt8) :=
  if alternate then do
    let digits ← itoa itoaFuel value (fun i => convBuf (8 + i)) 16
    let startingIndex := strlen digits
    let stored : Bytes := fun i => if i < 8 then convBuf i else digits (i - 8)
    let padded := (List.range (8 - startingIndex)).foldl
      (fun buf (i : Nat) => Function.update buf (startingIndex + i) 0x30) stored
    some (puts fun i => padded (startingIndex + i))
  else (itoa itoaFuel value convBuf 16).map puts

/-- The text of `%u`. -/
def unsignedText (convBuf : Bytes) (value : UInt32) : Option (List UInt8) :=
  (itoa itoaFuel value convBuf 10).map puts

/-- The text of `%d`, where `-value` wraps. -/
def signedText (convBuf : Bytes) (value : UInt32) : Option (List UInt8) :=
  if value.toInt32 < 0 then
    (itoa itoaFuel (-value) (fun i => convBuf (1 + i)) 10).map fun digits =>
      puts fun i => if i = 0 then 0x2D else digits (i - 1)
  else (itoa itoaFuel value convBuf 10).map puts

namespace Printing

/-- `buf++`. -/
def advance (state : Printing) : Printing :=
  { state with buf := state.buf + 1 }

def putc (state : Printing) (char : UInt8) : Printing :=
  { state with put := state.put ++ [char] }

/-- A text is put, and `esp++`. -/
def takeWord (state : Printing) (text : List UInt8) : Printing :=
  { state with esp := state.esp + 1, put := state.put ++ text }

end Printing

/-- The `switch` from `format_char_switch` on, which a `#` enters again. -/
def formatCharSwitch (call : PrintfCall) :
    (fuel : Nat) → (alternate : Bool) → Printing → Traced Nat (Option Printing)
  | 0, _, _ => pure none
  | fuel + 1, alternate, state => do
      let char ← Traced.read state.buf (call.format state.buf)
      let word := call.stack state.esp
      if char = 0x25 then pure (some (state.putc 0x25))
      else if char = 0x23 then formatCharSwitch call fuel true state.advance
      else if char = 0x78 then
        pure ((hexText call.convBuf alternate word).map state.takeWord)
      else if char = 0x75 then pure ((unsignedText call.convBuf word).map state.takeWord)
      else if char = 0x64 then pure ((signedText call.convBuf word).map state.takeWord)
      else if char = 0x63 then pure (some (state.takeWord [word.toUInt8]))
      else if char = 0x73 then pure (some (state.takeWord (puts (cstring (call.strings word)))))
      else pure (some state)

/-- The body of the loop, from `switch (*buf)` on. -/
def printfBody (call : PrintfCall) (fuel : Nat) (state : Printing) :
    Traced Nat (Option Printing) := do
  let char ← Traced.read state.buf (call.format state.buf)
  if char = 0x25 then do
    let converted ← formatCharSwitch call fuel false state.advance
    pure (converted.map Printing.advance)
  else do
    let literal ← Traced.read state.buf (call.format state.buf)
    pure (some (state.putc literal).advance)

/-- The loop of `printf`. -/
def printfLoop (call : PrintfCall) : (fuel : Nat) → Printing → Traced Nat (Option Printing)
  | 0, _ => pure none
  | fuel + 1, state => do
      let char ← Traced.read state.buf (call.format state.buf)
      if char = 0 then pure (some state)
      else do
        let next ← printfBody call (fuel + 1) state
        match next with
        | none => pure none
        | some next => printfLoop call fuel next

/-- `printf`: the return value, and the bytes given to `putc`. -/
def printf (call : PrintfCall) (fuel : Nat) : Traced Nat (Option (Int × List UInt8)) := do
  let last ← printfLoop call fuel ⟨0, 0, []⟩
  pure (last.map fun last => (int32 last.buf, last.put))

/-! ## Reading numbers back -/

/-- The loop puts a text for the conversion at `buf`, which is so long, and takes a word. -/
def Prints (call : PrintfCall) (state : Printing) (length : Nat) (text : List UInt8) : Prop :=
  ∀ fuel, 0 < fuel → (printfLoop call (fuel + 1) state).value =
    (printfLoop call fuel ⟨state.buf + length, state.esp + 1, state.put ++ text⟩).value

section

variable {call : PrintfCall} {convBuf s : Bytes} {text : List UInt8} {value radix : UInt32}
variable {state : Printing} {fuel : Nat}

theorem zero_notMem_itoaText (large : 1 < radix.toNat) (known : radix.toNat ≤ 36) :
    0 ∉ itoaText value radix :=
  zero_notMem_spell (digitsOf_lt_36 large known)

/-! ## The texts of the conversions -/

theorem puts_eq (holds : Holds 0 s text) (small : text.length ≤ 4294967296) : puts s = text := by
  rw [puts, holds.field, List.take_of_length_le small]

/-- What `puts` puts from a buffer that `itoa` has filled. -/
theorem puts_itoaText (large : 1 < radix.toNat) (known : radix.toNat ≤ 36) :
    puts (overwrite s (itoaText value radix ++ [0])) = itoaText value radix := by
  have few := @length_itoaText_le radix value large
  exact puts_eq (holds_overwrite (zero_notMem_itoaText large known)) (by omega)

theorem unsignedText_eq (convBuf : Bytes) (value : UInt32) :
    unsignedText convBuf value = some (itoaText value 10) := by
  rw [unsignedText, itoa_eq value convBuf (by decide) (by decide) (by decide), Option.map_some,
    puts_itoaText (by decide) (by decide)]

theorem hexText_plain (convBuf : Bytes) (value : UInt32) :
    hexText convBuf false value = some (itoaText value 16) := by
  rw [hexText, if_neg (by decide), itoa_eq value convBuf (by decide) (by decide) (by decide),
    Option.map_some, puts_itoaText (by decide) (by decide)]

/-- A byte in front of a string. -/
theorem holds_cons {char : UInt8} (holds : Holds 0 s text) (ordinary : char ≠ 0) :
    Holds 0 (fun i => if i = 0 then char else s (i - 1)) (char :: text) where
  ordinary := fun member => (List.mem_cons.mp member).elim ordinary.symm holds.ordinary
  agree index inside := by
    cases index with
    | zero => rfl
    | succ index => exact holds.agree index (Nat.lt_of_succ_lt_succ inside)
  ended := holds.ended

theorem signedText_eq (convBuf : Bytes) (value : UInt32) :
    signedText convBuf value =
      some (if value.toInt32 < 0 then 0x2D :: itoaText (-value) 10 else itoaText value 10) := by
  rw [signedText]
  split
  next negative =>
    have few := @length_itoaText_le 10 (-value) (by decide)
    have digits : Holds 0 (overwrite (fun i => convBuf (1 + i)) (itoaText (-value) 10 ++ [0]))
        (itoaText (-value) 10) :=
      holds_overwrite (zero_notMem_itoaText (by decide) (by decide))
    have signed := @holds_cons _ _ 0x2D digits (by decide)
    rw [itoa_eq (-value) _ (by decide) (by decide) (by decide), Option.map_some,
      puts_eq signed (by rw [List.length_cons]; omega)]
  next positive =>
    rw [itoa_eq value convBuf (by decide) (by decide) (by decide), Option.map_some,
      puts_itoaText (by decide) (by decide)]

/-- The zeros that are stored below the digits. -/
theorem padLoop_eq (stored : Bytes) (start count i : Nat) :
    (List.range count).foldl
        (fun buf (k : Nat) => Function.update buf (start + k) 0x30) stored i =
      if start ≤ i ∧ i < start + count then 0x30 else stored i := by
  induction count with
  | zero => simp
  | succ count ih =>
      rw [List.range_succ, List.foldl_append, List.foldl_cons, List.foldl_nil]
      by_cases last : i = start + count
      · rw [last, Function.update_self, if_pos (by omega)]
      · rw [Function.update_of_ne last, ih]
        by_cases padded : start ≤ i ∧ i < start + count
        · rw [if_pos padded, if_pos (by omega)]
        · rw [if_neg padded, if_neg (by omega)]

theorem length_hexadecimal_le (value : UInt32) : (itoaText value 16).length ≤ 8 := by
  rw [itoaText, numeral, spell, List.length_reverse, List.length_map]
  exact length_digitsOf_le (by decide) (by decide) value.toNat_lt

/-- `%#x` puts as many zeros as are missing to eight digits. -/
theorem hexText_alternate (convBuf : Bytes) (value : UInt32) :
    hexText convBuf true value =
      some (List.replicate (8 - (itoaText value 16).length) 0x30 ++ itoaText value 16) := by
  have eight := length_hexadecimal_le value
  have ordinary : 0 ∉ itoaText value 16 := zero_notMem_itoaText (by decide) (by decide)
  rw [hexText, if_pos rfl, itoa_eq value _ (by decide) (by decide) (by decide)]
  change some (puts _) = _
  rw [strlen_overwrite ordinary (by omega)]
  generalize itoaText value 16 = digits at eight ordinary
  generalize zeros : 8 - digits.length = count
  congr 1
  refine puts_eq ⟨?_, fun index inside => ?_, ?_⟩ (by simp; omega)
  · simpa using ordinary
  · rw [padLoop_eq]
    rw [List.length_append, List.length_replicate] at inside
    by_cases below : index < count
    · rw [if_pos (by omega), List.getElem_append_left (by simpa using below),
        List.getElem_replicate]
    · rw [if_neg (by omega), if_neg (by omega), overwrite_inside (by simp; omega),
        List.getElem_append_left (by omega), List.getElem_append_right (by simp; omega)]
      congr 1
      simp
      omega
  · rw [padLoop_eq, List.length_append, List.length_replicate, if_neg (by omega),
      if_neg (by omega), overwrite_inside (by simp; omega)]
    have last : digits.length + (count + digits.length) - 8 = digits.length := by omega
    simp [last]

/-! ## What the texts read back as -/

theorem printfLoop_value (call : PrintfCall) (fuel : Nat) (state : Printing) :
    (printfLoop call (fuel + 1) state).value =
      if call.format state.buf = 0 then some state
      else (printfBody call (fuel + 1) state).value.bind fun next =>
        (printfLoop call fuel next).value := by
  rw [printfLoop, Traced.bind_value, Traced.ite_value, Traced.bind_value, Traced.read_value]
  congr 1
  cases (printfBody call (fuel + 1) state).value <;> rfl

theorem printfBody_value (call : PrintfCall) (fuel : Nat) (state : Printing) :
    (printfBody call fuel state).value =
      if call.format state.buf = 0x25 then
        (formatCharSwitch call fuel false state.advance).value.map Printing.advance
      else some (state.putc (call.format state.buf)).advance := by
  rw [printfBody, Traced.bind_value, Traced.ite_value]
  rfl

theorem formatCharSwitch_value (call : PrintfCall) (fuel : Nat) (alternate : Bool)
    (state : Printing) :
    (formatCharSwitch call (fuel + 1) alternate state).value =
      if call.format state.buf = 0x25 then some (state.putc 0x25)
      else if call.format state.buf = 0x23 then
        (formatCharSwitch call fuel true state.advance).value
      else if call.format state.buf = 0x78 then
        (hexText call.convBuf alternate (call.stack state.esp)).map state.takeWord
      else if call.format state.buf = 0x75 then
        (unsignedText call.convBuf (call.stack state.esp)).map state.takeWord
      else if call.format state.buf = 0x64 then
        (signedText call.convBuf (call.stack state.esp)).map state.takeWord
      else if call.format state.buf = 0x63 then
        some (state.takeWord [(call.stack state.esp).toUInt8])
      else if call.format state.buf = 0x73 then
        some (state.takeWord (puts (cstring (call.strings (call.stack state.esp)))))
      else some state := by
  rw [formatCharSwitch, Traced.bind_value, Traced.ite_value, Traced.ite_value, Traced.ite_value,
    Traced.ite_value, Traced.ite_value, Traced.ite_value, Traced.ite_value]
  rfl

/-- The call `printf("%u%d%x%#x", 0, INT_MIN, 0xBEEF, 14)`. -/
def numbersCall : PrintfCall where
  format := cstring [0x25, 0x75, 0x25, 0x64, 0x25, 0x78, 0x25, 0x23, 0x78]
  stack := fun i => [0, 0x80000000, 0xBEEF, 14].getD i 0
  strings := fun _ => []
  convBuf := fun _ => 0xCC

/-- The padded text is stored around the index 8, as the comment of `printf` shows it. -/
example : hexText (fun _ => 0xCC) true 14 =
    some [0x30, 0x30, 0x30, 0x30, 0x30, 0x30, 0x30, 0x45] := by
  decide

end

end Ece391.Kernel
