import Ece391.BlinkDriver.Device
import Ece391.Library.TwoPhase

/-!
# A reference model of the blink driver

The driver is meant to keep a list of blinking characters, newest first.  A `Blink`
can only hold a valid location and one of two phases.  `Panel` gives the effect of
each request on the list and on the screen, and `requested` says which request a
control call makes, or that it is rejected before the list is looked at.
-/

namespace Ece391.BlinkDriver

open Ece391.Library

/-- A blinking character. -/
structure Blink where
  location : UInt16
  onChar : UInt8
  offChar : UInt8
  onLength : UInt16
  offLength : UInt16
  countdown : UInt16
  on : Bool
  location_le : location.toNat ≤ 1999
  deriving DecidableEq

/-- The structure that holds a blinking character. -/
def Blink.toStruct (blink : Blink) (next : Ptr) : BlinkStruct where
  location := blink.location
  onChar := blink.onChar
  offChar := blink.offChar
  onLength := blink.onLength
  offLength := blink.offLength
  countdown := blink.countdown
  status := if blink.on then 1 else 0
  next := next

/-- The character shown in the current phase. -/
def Blink.char (blink : Blink) : UInt8 :=
  if blink.on then blink.onChar else blink.offChar

/-- A new blinking character starts its first phase. -/
def Blink.start (user : BlinkStruct) (valid : user.location.toNat ≤ 1999) : Blink where
  location := user.location
  onChar := user.onChar
  offChar := user.offChar
  onLength := user.onLength
  offLength := user.offLength
  countdown := user.onLength
  on := true
  location_le := valid

/-- Whether the next tasklet run changes the phase. -/
def Blink.Flips (blink : Blink) : Prop :=
  blink.countdown - 1 = 0

instance (blink : Blink) : Decidable blink.Flips :=
  inferInstanceAs (Decidable (_ = _))

/-- One tasklet run. -/
def Blink.tick (blink : Blink) : Blink :=
  if blink.Flips then
    if blink.on then { blink with on := false, countdown := blink.offLength }
    else { blink with on := true, countdown := blink.onLength }
  else { blink with countdown := blink.countdown - 1 }

/-- The timing of one blinking character given to another. -/
def Blink.withTiming (blink source : Blink) : Blink :=
  { blink with
    onLength := source.onLength
    offLength := source.offLength
    countdown := source.countdown
    on := source.on }

/-- The list of blinking characters and the screen. -/
structure Panel where
  blinks : List Blink
  video : Nat → UInt8

/-- A request of a control call. -/
inductive Request where
  | rejected
  | add (blink : Blink)
  | remove (location : UInt16)
  | find (location : UInt16)
  | sync (first second : UInt16)

/-- Whether a request names a location. -/
def Request.Names (location : UInt16) : Request → Prop
  | .rejected => False
  | .add blink => blink.location = location
  | .remove removed => removed = location
  | .find found => found = location
  | .sync first second => first = location ∨ second = location

/-- Whether a request may add, remove or rewrite an element at a location.  A SYNC only reads
the element at its first one. -/
def Request.Changes (location : UInt16) : Request → Prop
  | .rejected | .find _ => False
  | .add blink => blink.location = location
  | .remove removed => removed = location
  | .sync _ second => second = location

theorem Request.Changes.names {location : UInt16} {request : Request}
    (changes : request.Changes location) : request.Names location := by
  cases request with
  | rejected | find => exact changes.elim
  | add | remove => exact changes
  | sync first second => exact .inr changes

/-- The first element with a property replaced. -/
def replaceFirst {α : Type} (accept : α → Bool) (replacement : α → α) : List α → List α
  | [] => []
  | element :: rest =>
      if accept element then replacement element :: rest
      else element :: replaceFirst accept replacement rest

/-- The first blinking character at a location. -/
def Panel.find (panel : Panel) (location : UInt16) : Option Blink :=
  panel.blinks.find? fun blink => blink.location = location

/-- The screen after a character has been shown at its location. -/
def showChar (video : Nat → UInt8) (blink : Blink) : Nat → UInt8 :=
  Function.update video (2 * blink.location.toNat) blink.char

/-- The effect of a request. -/
def Panel.apply (panel : Panel) : Request → Panel
  | .rejected => panel
  | .add blink => ⟨blink :: panel.blinks, showChar panel.video blink⟩
  | .remove location =>
      { panel with blinks := panel.blinks.eraseP fun blink => blink.location = location }
  | .find _ => panel
  | .sync first second =>
      match panel.find first, panel.find second with
      | some source, some target =>
          { blinks := replaceFirst (fun blink => blink.location = second)
              (·.withTiming source) panel.blinks
            video := showChar panel.video (target.withTiming source) }
      | _, _ => panel

/-- The screen after one tasklet run over a list. -/
def showFlips (video : Nat → UInt8) : List Blink → Nat → UInt8
  | [] => video
  | blink :: rest => showFlips (if blink.Flips then showChar video blink.tick else video) rest

/-- The effect of a tasklet run. -/
def Panel.tick (panel : Panel) : Panel where
  blinks := panel.blinks.map Blink.tick
  video := showFlips panel.video panel.blinks

/-! ## What a control call asks for -/

theorem toInt_toInt16 (value : UInt16) :
    value.toInt16.toInt =
      if value.toNat < 32768 then (value.toNat : Int) else value.toNat - 65536 := by
  have bits : value.toInt16.toInt = value.toBitVec.toInt := rfl
  rw [bits, BitVec.toInt_eq_toNat_cond]
  have size := value.toNat_lt
  have same : value.toBitVec.toNat = value.toNat := rfl
  rw [same]
  split <;> split <;> omega

/-- The signed range check accepts exactly the locations on the screen. -/
theorem validLocation_iff (location : UInt16) :
    ValidLocation location ↔ location.toNat ≤ 1999 := by
  have size := location.toNat_lt
  have zero : (0 : Int16).toInt = 0 := rfl
  have last : (1999 : Int16).toInt = 1999 := rfl
  simp only [ValidLocation, gt_iff_lt, Int16.lt_iff_toInt_lt, zero, last, toInt_toInt16]
  split <;> omega

/-- The request of `mp1_ioctl_add`. -/
def requestedAdd (env : Env) (arg : UInt32) : Request :=
  if env.malloc = 0 ∨ arg = 0 ∨ env.fromUserLeft ≠ 0 then .rejected
  else if valid : env.fromUser.location.toNat ≤ 1999 then .add (.start env.fromUser valid)
  else .rejected

/-- The request of `mp1_ioctl_remove`. -/
def requestedRemove (arg : UInt32) : Request :=
  if arg.toUInt16.toNat ≤ 1999 then .remove arg.toUInt16 else .rejected

/-- The request of `mp1_ioctl_find`. -/
def requestedFind (env : Env) (arg : UInt32) : Request :=
  if env.malloc = 0 ∨ arg = 0 ∨ env.fromUserLeft ≠ 0 then .rejected
  else if env.fromUser.location.toNat ≤ 1999 then .find env.fromUser.location
  else .rejected

/-- The request of `mp1_ioctl_sync`. -/
def requestedSync (arg : UInt32) : Request :=
  if arg = 0 then .rejected
  else if arg.toUInt16.toNat ≤ 1999 ∧ (arg >>> 16).toUInt16.toNat ≤ 1999 then
    .sync (arg >>> 16).toUInt16 arg.toUInt16
  else .rejected

/-- The request of `mp1_ioctl`. -/
def requested (env : Env) (arg cmd : UInt32) : Request :=
  if cmd.toInt32 > 3 ∨ cmd.toInt32 < 0 then .rejected
  else if cmd = 0 then requestedAdd env arg
  else if cmd = 1 then requestedRemove arg
  else if cmd = 2 then requestedFind env arg
  else requestedSync arg

/-- What a request copies out to the user: the first match of a search, if the copy
succeeds. -/
def Panel.copied (panel : Panel) (env : Env) : Request → Option Blink
  | .find location => if env.toUserLeft = 0 then panel.find location else none
  | _ => none

/-- Whether a request succeeds. -/
def Panel.accepts (panel : Panel) (env : Env) : Request → Bool
  | .rejected => false
  | .add _ => true
  | .remove location => (panel.find location).isSome
  | .find location => (panel.find location).isSome && env.toUserLeft = 0
  | .sync first second => (panel.find first).isSome && (panel.find second).isSome

/-! ## Requests that fail -/

section Refused

variable {panel : Panel} {env : Env} {request : Request}

/-- A request that fails has no effect. -/
theorem Panel.apply_of_refused (refused : panel.accepts env request = false) :
    panel.apply request = panel := by
  cases request with
  | rejected => rfl
  | add blink => cases refused
  | remove location =>
      have absent : panel.find location = none := by simpa [Panel.accepts] using refused
      rw [Panel.find, List.find?_eq_none] at absent
      rw [Panel.apply, List.eraseP_of_forall_not absent]
  | find location => rfl
  | sync first second =>
      rw [Panel.accepts, Bool.and_eq_false_iff] at refused
      rw [Panel.apply]
      split
      next source target foundFirst foundSecond => simp [foundFirst, foundSecond] at refused
      next => rfl

/-- A request that fails copies nothing out. -/
theorem Panel.copied_of_refused (refused : panel.accepts env request = false) :
    panel.copied env request = none := by
  cases request with
  | find location =>
      rw [Panel.copied]
      split
      next copied => simpa [Panel.accepts, copied] using refused
      next => rfl
  | _ => rfl

end Refused

/-! ## Lists split at the first match -/

section Split

variable {α : Type} {accept : α → Bool} {left right : List α} {element : α}

theorem find?_split (first : ∀ other ∈ left, ¬accept other) (accepted : accept element) :
    (left ++ element :: right).find? accept = some element := by
  rw [List.find?_append, List.find?_eq_none.mpr first, Option.none_or,
    List.find?_cons_of_pos accepted]

theorem eraseP_split (first : ∀ other ∈ left, ¬accept other) (accepted : accept element) :
    (left ++ element :: right).eraseP accept = left ++ right := by
  rw [List.eraseP_append_right _ first, List.eraseP_cons_of_pos accepted]

theorem replaceFirst_split (replacement : α → α) (first : ∀ other ∈ left, ¬accept other)
    (accepted : accept element) :
    replaceFirst accept replacement (left ++ element :: right) =
      left ++ replacement element :: right := by
  induction left with
  | nil => simp [replaceFirst, accepted]
  | cons other left ih =>
      have rejected := first other (by simp)
      rw [List.cons_append, replaceFirst, if_neg rejected,
        ih fun later membership => first later (by simp [membership]), List.cons_append]

end Split

end Ece391.BlinkDriver
