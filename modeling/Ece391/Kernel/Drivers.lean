import Ece391.Kernel.Filesystem

/-!
# The drivers behind the operation tables

A descriptor points at one of six operation tables.  Each read below gives the
return value, the bytes it stores in the caller's buffer (always consecutive from
its start) and the state it leaves; `none` is a call that has not completed,
because it still waits for an interrupt or because it has faulted.

The devices are what the driver finds when its wait ends, so interrupts may have
changed them in any way since the call was made.  Console messages from `printf`
are left out; `terminalWrite` keeps the bytes it passes to `putc`.
-/

namespace Ece391.Kernel

open Ece391.Library

/-- The operation tables; `file_operations_initialize` fills them with the drivers
of the same name. -/
inductive Fop where
  | null
  | stdin
  | stdout
  | rtc
  | files
  | directories
  deriving DecidableEq, Repr

/-- An entry of a process's descriptor table; `none` is a null `fop`. -/
structure FileDescriptor where
  fop : Option Fop
  inodeIdx : Nat
  filePosition : Nat
  flags : Nat
  fileType : Nat
  deriving DecidableEq, Repr

abbrev Fda := Fin 8 → FileDescriptor

/-- The line buffer shared by the keyboard handler and `terminal_read`.  The count
is decremented only when positive, so it is a natural number; the buffer is the
memory from its first byte on. -/
structure Keyboard where
  keyboardBuffer : Bytes
  numCharsTyped : Nat
  enterPressedFlag : Int

/-- Device state seen by the drivers: the line buffer, the interrupt counter that
`rtc_read` waits for, and register A of the clock. -/
structure Devices where
  keyboard : Keyboard
  inCount : Nat
  regA : UInt8

/-- Devices after a line has been typed. -/
def typedDevices (line : List UInt8) : Devices :=
  ⟨⟨cstring line, line.length, 1⟩, 1, 0x26⟩

/-- Memory after consecutive bytes have been stored from its start. -/
def overwrite (memory : Bytes) (written : List UInt8) : Bytes :=
  fun i => (written[i]?).getD (memory i)

/-- Memory that `strncpy` has filled holds the string, and zeros behind it. -/
theorem overwrite_strncpy (memory src : Bytes) {n i : Nat} (inside : i < n) :
    overwrite memory (strncpy src n) i = (field 0 n src).getD i 0 := by
  rw [overwrite, strncpy_eq]
  by_cases within : i < (field 0 n src).length
  · simp [List.getElem?_append_left within, within]
  · have beyond := Nat.not_lt.mp within
    rw [List.getElem?_append_right beyond, List.getElem?_replicate, if_pos (by omega)]
    simp [beyond]

/-- A field of it reads as the same field of the source, whether or not a NUL has been copied. -/
theorem field_overwrite_strncpy (memory src : Bytes) {width n : Nat} (inside : width ≤ n) :
    field 0 width (overwrite memory (strncpy src n)) = field 0 width src := by
  have copied : field 0 width (overwrite memory (strncpy src n)) =
      field 0 width (terminated 0 (field 0 n src)) :=
    field_congr fun i below => overwrite_strncpy memory src (Nat.lt_of_lt_of_le below inside)
  rw [copied, (terminated_holds stop_notMem_field).field, take_field inside]

/-! ## Terminal -/

def clearKeyboardBuff (keyboard : Keyboard) : Keyboard :=
  { keyboard with
    keyboardBuffer := fun i => if i < 128 then 0 else keyboard.keyboardBuffer i
    numCharsTyped := 0 }

/-- The copy loop for fewer than 128 bytes.  Only an early exit sets the count. -/
def terminalCopyLoop (keyboard : Keyboard) : (remaining i : Nat) → Int × List UInt8
  | 0, _ => (0, [])
  | remaining + 1, i =>
      if keyboard.keyboardBuffer i = 0 then ((i : Int) + 1, [keyboard.keyboardBuffer i])
      else if i = keyboard.numCharsTyped then ((i : Int) + 1, [0])
      else
        let rest := terminalCopyLoop keyboard remaining (i + 1)
        (rest.1, keyboard.keyboardBuffer i :: rest.2)

/-- `terminal_read`, once its wait for Enter is over. -/
def terminalRead (devices : Devices) (nbytes : Int) : Option (Int × List UInt8 × Devices) :=
  let keyboard := devices.keyboard
  if nbytes = 0 then some (nbytes, [], devices)
  else if keyboard.enterPressedFlag ≠ 1 then none
  else
    let copied :=
      if nbytes < 128 then terminalCopyLoop keyboard keyboard.numCharsTyped 0
      else
        ((keyboard.numCharsTyped : Int),
          (List.range keyboard.numCharsTyped).map keyboard.keyboardBuffer ++ [0])
    let cleared := { clearKeyboardBuff keyboard with enterPressedFlag := 0 }
    some (copied.1, copied.2, { devices with keyboard := cleared })

/-- The output loop of `terminal_write`: it stops at a NUL and then reports 0. -/
def printLoop (text : Bytes) (nbytes : Int) : (remaining i : Nat) → Int × List UInt8
  | 0, _ => (nbytes, [])
  | remaining + 1, i =>
      if text i = 0 then (0, [])
      else
        let rest := printLoop text nbytes remaining (i + 1)
        (rest.1, text i :: rest.2)

/-- The 80-byte temporary of `terminal_write` after the copy of `nbytes` bytes. -/
def tempBuffer (buf : Bytes) (nbytes : Nat) : Bytes :=
  fun i => if i < nbytes then buf i else if i = 79 then 10 else 0

/-- `terminal_write`: the return value and the bytes passed to `putc`.  A negative
size makes the copy to the 80-byte temporary run through the stack and fault. -/
def terminalWrite (buf : Bytes) (nbytes : Int) : Option (Int × List UInt8) :=
  if nbytes = 0 then some (0, [])
  else if nbytes < 0 then none
  else if nbytes ≤ 80 then some (printLoop (tempBuffer buf nbytes.toNat) nbytes 80 0)
  else some (printLoop buf nbytes nbytes.toNat 0)

/-! ## Real-time clock -/

/-- The rate written for a frequency, `none` for a frequency that has none. -/
def hexRate (freq : Int) : Option UInt8 :=
  if freq = 2 then some 0x0F
  else if freq = 4 then some 0x0E
  else if freq = 8 then some 0x0D
  else if freq = 16 then some 0x0C
  else if freq = 32 then some 0x0B
  else if freq = 64 then some 0x0A
  else if freq = 128 then some 0x09
  else if freq = 256 then some 0x08
  else if freq = 512 then some 0x07
  else if freq = 1024 then some 0x06
  else none

/-- `rtc_set_freq`: the return value and register A afterwards. -/
def rtcSetFreq (freq : Int) (regA : UInt8) : Int × UInt8 :=
  if freq.tmod 2 ≠ 0 then (-1, regA)
  else
    match hexRate freq with
    | none => (-1, regA)
    | some rate => (1, (regA &&& 0xF0) ||| rate)

/-- A little-endian `int32_t` read through a pointer. -/
def readInt32 (buf : Bytes) : Int :=
  int32 ((buf 0).toNat + 256 * (buf 1).toNat + 65536 * (buf 2).toNat +
    16777216 * (buf 3).toNat)

/-- `rtc_write`, which accepts only a return value 0 from `rtc_set_freq`. -/
def rtcWrite (devices : Devices) (buf : Bytes) : Int × Devices :=
  let set := rtcSetFreq (readInt32 buf) devices.regA
  (if set.1 ≠ 0 then -1 else 0, { devices with regA := set.2 })

/-- `rtc_read` stores nothing and returns 0 after the next interrupt. -/
def rtcRead (devices : Devices) : Option Int :=
  if devices.inCount = 0 then none else some 0

/-! ## Directories and regular files -/

/-- A descriptor table with one file position advanced; positions are 32 bits. -/
def advance (fda : Fda) (fd : Fin 8) (amount : Int) : Fda :=
  Function.update fda fd
    { fda fd with filePosition := uint32 ((fda fd).filePosition + amount) }

/-- `directory_read`; the caller's buffer holds `buf` before the call, and the
local entry it passes down holds `dentry`.  A string in mapped memory is shorter than
2^31 bytes, so its length as an `int` is not negative. -/
def directoryRead (image : Image) (fda : Fda) (fd : Fin 8) (buf : Bytes) (dentry : Dentry) :
    Int × List UInt8 × Fda :=
  let entry := readDentryByIndex image (fda fd).filePosition dentry
  if entry.1 = -1 then (-1, [], fda)
  else
    let written := strncpy entry.2.namePtr 32
    let length := strlen (overwrite buf written)
    (if length > 32 then 32 else (length : Int), written, advance fda fd 1)

/-- `file_read`. -/
def fileRead (image : Image) (fda : Fda) (fd : Fin 8) (numBytes : Int) :
    Int × List UInt8 × Fda :=
  if numBytes ≤ 0 then (-1, [], fda)
  else
    let read := readData image (fda fd).inodeIdx (fda fd).filePosition (uint32 numBytes)
    if read.1 = -1 then (-1, read.2, fda) else (read.1, read.2, advance fda fd read.1)

/-! ## What the operations change -/

@[simp] theorem advance_of_ne {fda : Fda} {fd other : Fin 8} (different : other ≠ fd)
    (amount : Int) : advance fda fd amount other = fda other :=
  Function.update_of_ne different ..

@[simp] theorem advance_fop (fda : Fda) (fd : Fin 8) (amount : Int) (other : Fin 8) :
    (advance fda fd amount other).fop = (fda other).fop := by
  by_cases same : other = fd
  · simp [advance, same]
  · simp [same]

@[simp] theorem advance_flags (fda : Fda) (fd : Fin 8) (amount : Int) (other : Fin 8) :
    (advance fda fd amount other).flags = (fda other).flags := by
  by_cases same : other = fd
  · simp [advance, same]
  · simp [same]

@[simp] theorem advance_fileType (fda : Fda) (fd : Fin 8) (amount : Int) (other : Fin 8) :
    (advance fda fd amount other).fileType = (fda other).fileType := by
  by_cases same : other = fd
  · simp [advance, same]
  · simp [same]

/-- A directory read leaves the table alone or advances its own position. -/
theorem directoryRead_fda (image : Image) (fda : Fda) (fd : Fin 8) (buf : Bytes)
    (dentry : Dentry) :
    (directoryRead image fda fd buf dentry).2.2 = fda ∨
      (directoryRead image fda fd buf dentry).2.2 = advance fda fd 1 := by
  simp only [directoryRead]
  split
  · exact .inl rfl
  · exact .inr rfl

/-- So does a file read, by the number of bytes it reports. -/
theorem fileRead_fda (image : Image) (fda : Fda) (fd : Fin 8) (numBytes : Int) :
    (fileRead image fda fd numBytes).2.2 = fda ∨
      ∃ amount, (fileRead image fda fd numBytes).2.2 = advance fda fd amount := by
  simp only [fileRead]
  split
  · exact .inl rfl
  · split
    · exact .inl rfl
    · exact .inr ⟨_, rfl⟩

end Ece391.Kernel
