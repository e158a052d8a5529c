import Ece391.BlinkDriver.Panel
import Ece391.Library.LinkedList
import Mathlib.Data.Fintype.Card
import Mathlib.Data.List.FinRange

/-!
# The blink driver of `fish`

The program `fish` carries a blink driver of its own, in user space.  Its structures lie in an
array, and a place of the array is free when its location is 0; the list links places of the
array.  A reference model keeps the blinking characters in a plain list.
-/

namespace Ece391.Programs.Fish

open Ece391.Library Ece391.BlinkDriver

/-! ## The structures -/

/-- The fields of `struct mp1_blink_struct` but the link. -/
structure Blinking where
  location : UInt16
  onChar : UInt8
  offChar : UInt8
  onLength : UInt16
  offLength : UInt16
  countdown : UInt16
  status : UInt16
  deriving DecidableEq, Repr

/-- `struct mp1_blink_struct`; a pointer is null or a place of `blink_array`. -/
structure Slot extends Blinking where
  next : Option (Fin 2000)
  deriving DecidableEq

/-- `blink_array`, `mp1_list_head`, and the bytes from `vmem_base_addr` on. -/
structure Pool where
  blinkArray : Fin 2000 → Slot
  listHead : Option (Fin 2000)
  video : Nat → UInt8

/-- A structure of zeros. -/
def zeroed : Slot :=
  ⟨⟨0, 0, 0, 0, 0, 0, 0⟩, none⟩

/-- The pool after the `ece391_memset` of `main`. -/
def Pool.cleared (video : Nat → UInt8) : Pool :=
  ⟨fun _ => zeroed, none, video⟩

def Pool.store (pool : Pool) (element : Fin 2000) (slot : Slot) : Pool :=
  { pool with blinkArray := Function.update pool.blinkArray element slot }

/-- `mp1_malloc`. -/
def mp1Malloc (pool : Pool) : Option (Fin 2000) :=
  (List.finRange 2000).find? fun i => (pool.blinkArray i).location = 0

/-- `mp1_free`. -/
def mp1Free (pool : Pool) (memory : Fin 2000) : Pool :=
  pool.store memory zeroed

/-- `mp1_poke`. -/
def mp1Poke (pool : Pool) (offset : Nat) (char : UInt8) : Pool :=
  { pool with video := Function.update pool.video offset char }

/-! ## The calls -/

/-- `mp1_ioctl_add`, for the structure that the argument points to. -/
def mp1IoctlAdd (user : Slot) (pool : Pool) : Int × Pool :=
  if user.location.toNat ≥ 80 * 25 then (-1, pool)
  else
    let temp := { user with status := 1, countdown := user.onLength }
    match mp1Malloc pool with
    | none => (-1, pool)
    | some element =>
        let pool := pool.store element { temp with next := pool.listHead }
        let pool := { pool with listHead := some element }
        (0, mp1Poke pool (2 * temp.location.toNat) temp.onChar)

/-- `mp1_find_helper`. -/
def mp1FindHelper (location : UInt16) (pool : Pool) :
    (fuel : Nat) → Option (Fin 2000) → Option (Option (Fin 2000))
  | 0, _ => none
  | _ + 1, none => some none
  | fuel + 1, some element =>
      if (pool.blinkArray element).location = location then some (some element)
      else mp1FindHelper location pool fuel (pool.blinkArray element).next

/-- The loop at `remove_find_prev`, and the removal.  `previous` is the structure whose link `edx`
points to, or `none` for `mp1_list_head`.  A link through null is a fault. -/
def removeFindPrev (element : Fin 2000) (pool : Pool) :
    (fuel : Nat) → (previous : Option (Fin 2000)) → Option Pool
  | 0, _ => none
  | fuel + 1, previous =>
      let link := previous.elim pool.listHead fun before => (pool.blinkArray before).next
      if link = some element then
        let rest := (pool.blinkArray element).next
        match previous with
        | none => some { pool with listHead := rest }
        | some before =>
            some (pool.store before { pool.blinkArray before with next := rest })
      else link.bind fun before => removeFindPrev element pool fuel (some before)

/-- `mp1_ioctl_remove`. -/
def mp1IoctlRemove (fuel : Nat) (arg : UInt32) (pool : Pool) : Option (Int × Pool) := do
  match ← mp1FindHelper arg.toUInt16 pool fuel pool.listHead with
  | none => pure (-1, pool)
  | some element =>
      let pool ← removeFindPrev element pool fuel none
      pure (0, mp1Free pool element)

/-- `mp1_ioctl_find`: the result and the structure that is copied back, if one is. -/
def mp1IoctlFind (fuel : Nat) (location : UInt16) (pool : Pool) :
    Option (Int × Option Slot) := do
  match ← mp1FindHelper location pool fuel pool.listHead with
  | none => pure (-1, none)
  | some element => pure (0, some (pool.blinkArray element))

/-- `mp1_ioctl_sync`.  The `cmovl` behind `testb` is never taken, as that test clears the sign and
the overflow flag; so the character that is shown is always `OFF_CHAR`. -/
def mp1IoctlSync (fuel : Nat) (arg : UInt32) (pool : Pool) : Option (Int × Pool) := do
  match ← mp1FindHelper (arg >>> 16).toUInt16 pool fuel pool.listHead with
  | none => pure (-1, pool)
  | some source =>
      match ← mp1FindHelper (arg &&& 0xFFFF).toUInt16 pool fuel pool.listHead with
      | none => pure (-1, pool)
      | some target =>
          let first := pool.blinkArray source
          let slot :=
            { pool.blinkArray target with
              onLength := first.onLength
              offLength := first.offLength
              countdown := first.countdown
              status := first.status }
          pure (0, mp1Poke (pool.store target slot) (2 * slot.location.toNat) slot.offChar)

/-- The loop of `mp1_rtc_tasklet`. -/
def taskletLoop (pool : Pool) : (fuel : Nat) → Option (Fin 2000) → Option Pool
  | 0, _ => none
  | _ + 1, none => some pool
  | fuel + 1, some element =>
      let slot := pool.blinkArray element
      let counted := { slot with countdown := slot.countdown - 1 }
      let pool :=
        if counted.countdown.toInt16 > 0 then pool.store element counted
        else if slot.status &&& 1 = 0 then
          mp1Poke
            (pool.store element
              { slot with countdown := slot.onLength, status := slot.status ^^^ 1 })
            (2 * slot.location.toNat) slot.onChar
        else
          mp1Poke
            (pool.store element
              { slot with countdown := slot.offLength, status := slot.status ^^^ 1 })
            (2 * slot.location.toNat) slot.offChar
      taskletLoop pool fuel slot.next

/-- `mp1_rtc_tasklet`. -/
def mp1RtcTasklet (fuel : Nat) (pool : Pool) : Option Pool :=
  taskletLoop pool fuel pool.listHead

/-- A call of the driver. -/
inductive Call where
  | add (user : Slot)
  | remove (arg : UInt32)
  | find (location : UInt16)
  | sync (arg : UInt32)
  | tasklet

/-- What a call gives back: the value that it returns, and the structure that it copies to the
caller, if it copies one. -/
structure Answer (α : Type) where
  ret : Int
  copied : Option α
  deriving DecidableEq

/-- An answer that copies nothing. -/
def Answer.plain {α : Type} (ret : Int) : Answer α :=
  ⟨ret, none⟩

/-- `mp1_ioctl`, and the tasklet, which returns nothing. -/
def Pool.serve (fuel : Nat) (pool : Pool) : Call → Option (Answer Slot × Pool)
  | .add user => some ((mp1IoctlAdd user pool).map .plain id)
  | .remove arg => (mp1IoctlRemove fuel arg pool).map (Prod.map .plain id)
  | .find location =>
      (mp1IoctlFind fuel location pool).map fun (ret, copied) => (⟨ret, copied⟩, pool)
  | .sync arg => (mp1IoctlSync fuel arg pool).map (Prod.map .plain id)
  | .tasklet => (mp1RtcTasklet fuel pool).map fun pool => (.plain 0, pool)

/-- Calls after one another: what they give back, and the last pool. -/
def Pool.serveAll (fuel : Nat) (pool : Pool) :
    List Call → Option (List (Answer Slot) × Pool)
  | [] => some ([], pool)
  | call :: calls => do
      let (answer, pool) ← pool.serve fuel call
      let (answers, pool) ← pool.serveAll fuel calls
      pure (answer :: answers, pool)

/-! ## The reference model -/

/-- A new blinking character starts its first phase. -/
def Blinking.started (blink : Blinking) : Blinking :=
  { blink with status := 1, countdown := blink.onLength }

/-- The timing of another one. -/
def Blinking.timedAs (blink source : Blinking) : Blinking :=
  { blink with
    onLength := source.onLength
    offLength := source.offLength
    countdown := source.countdown
    status := source.status }

/-- Whether the next tick ends a phase. -/
def Blinking.Turns (blink : Blinking) : Prop :=
  ¬(blink.countdown - 1).toInt16 > 0

instance (blink : Blinking) : Decidable blink.Turns :=
  inferInstanceAs (Decidable (¬_))

/-- One tick. -/
def Blinking.tick (blink : Blinking) : Blinking :=
  if blink.Turns then
    { blink with
      countdown := if blink.status &&& 1 = 0 then blink.onLength else blink.offLength
      status := blink.status ^^^ 1 }
  else { blink with countdown := blink.countdown - 1 }

/-- The character that is shown when a phase ends. -/
def Blinking.turned (blink : Blinking) : UInt8 :=
  if blink.status &&& 1 = 0 then blink.onChar else blink.offChar

/-- The blinking characters, the last one added first, and the screen. -/
structure Shown where
  blinks : List Blinking
  video : Nat → UInt8

namespace Shown

def showAt (video : Nat → UInt8) (location : UInt16) (char : UInt8) : Nat → UInt8 :=
  Function.update video (2 * location.toNat) char

/-- The first blinking character at a location. -/
def find (shown : Shown) (location : UInt16) : Option Blinking :=
  shown.blinks.find? fun blink => blink.location = location

/-- The screen after a tick of some of them. -/
def ticked (video : Nat → UInt8) : List Blinking → Nat → UInt8
  | [] => video
  | blink :: rest =>
      ticked (if blink.Turns then showAt video blink.location blink.turned else video) rest

/-- What a call is for. -/
def serve (shown : Shown) : Call → Answer Blinking × Shown
  | .add user =>
      if user.location.toNat < 2000 ∧ shown.blinks.length < 2000 then
        (.plain 0, ⟨user.toBlinking.started :: shown.blinks,
          showAt shown.video user.location user.onChar⟩)
      else (.plain (-1), shown)
  | .remove arg =>
      match shown.find arg.toUInt16 with
      | none => (.plain (-1), shown)
      | some _ =>
          (.plain 0, { shown with
            blinks := shown.blinks.eraseP fun blink => blink.location = arg.toUInt16 })
  | .find location =>
      match shown.find location with
      | none => (.plain (-1), shown)
      | some blink => (⟨0, some blink⟩, shown)
  | .sync arg =>
      match shown.find (arg >>> 16).toUInt16, shown.find (arg &&& 0xFFFF).toUInt16 with
      | some source, some target =>
          (.plain 0, ⟨replaceFirst (fun blink => blink.location = (arg &&& 0xFFFF).toUInt16)
              (·.timedAs source) shown.blinks,
            showAt shown.video target.location target.offChar⟩)
      | _, _ => (.plain (-1), shown)
  | .tasklet => (.plain 0, ⟨shown.blinks.map Blinking.tick, ticked shown.video shown.blinks⟩)

def serveAll (shown : Shown) : List Call → List (Answer Blinking) × Shown
  | [] => ([], shown)
  | call :: calls =>
      let (answer, shown) := shown.serve call
      let (answers, shown) := shown.serveAll calls
      (answer :: answers, shown)

end Shown

end Ece391.Programs.Fish
