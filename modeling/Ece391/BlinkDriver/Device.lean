import Mathlib.Logic.Function.Basic

/-!
# The blink driver

The driver keeps a linked list of structures allocated by `mp1_malloc`.  Each
control call and each tasklet run below follows the assembly branch by branch.  A
pointer is a 32-bit value and the heap maps the pointers of allocated blocks to
their contents, so that an access to any other pointer, and the release of a block
that is not allocated, is a fault (`none`).
-/

namespace Ece391.BlinkDriver

/-- A pointer; 0 is null. -/
abbrev Ptr := UInt32

/-- `struct mp1_blink_struct`. -/
structure BlinkStruct where
  location : UInt16
  onChar : UInt8
  offChar : UInt8
  onLength : UInt16
  offLength : UInt16
  countdown : UInt16
  status : UInt16
  next : Ptr
  deriving DecidableEq, Repr

/-- The allocated blocks, `mp1_list_head`, and the bytes from `vmem_base_addr` on. -/
structure Device where
  heap : Ptr → Option BlinkStruct
  listHead : Ptr
  video : Nat → UInt8

/-- What the functions the driver calls do during one call: the pointer that
`mp1_malloc` returns and the content of a new block, what `mp1_copy_from_user`
leaves in the block and the number of bytes it did not copy, the number of bytes
`mp1_copy_to_user` did not copy, and the value `mp1_free` leaves in `%eax`. -/
structure Env where
  malloc : Ptr
  fresh : BlinkStruct
  fromUser : BlinkStruct
  fromUserLeft : UInt32
  toUserLeft : UInt32
  freeEax : UInt32

/-- How a call ends: its return value, whether it took its success exit, and the
structure copied to the user, if one was. -/
structure Result where
  ret : UInt32
  ok : Bool
  copied : Option BlinkStruct
  device : Device

/-! ## The functions the driver calls -/

/-- `mp1_malloc`. -/
def malloc (env : Env) (device : Device) : Device :=
  if env.malloc = 0 then device
  else { device with heap := Function.update device.heap env.malloc (some env.fresh) }

/-- `mp1_free`, which accepts a null pointer. -/
def free (device : Device) (ptr : Ptr) : Option Device :=
  if ptr = 0 then some device
  else
    match device.heap ptr with
    | none => none
    | some _ => some { device with heap := Function.update device.heap ptr none }

/-- A store to an allocated block. -/
def store (device : Device) (ptr : Ptr) (cell : BlinkStruct) : Option Device :=
  match device.heap ptr with
  | none => none
  | some _ => some { device with heap := Function.update device.heap ptr (some cell) }

theorem free_of_stored {device : Device} {ptr : Ptr} {cell : BlinkStruct} (nonNull : ptr ≠ 0)
    (stored : device.heap ptr = some cell) :
    free device ptr = some { device with heap := Function.update device.heap ptr none } := by
  simp only [free, nonNull, stored, if_false]

theorem store_of_stored {device : Device} {ptr : Ptr} {old : BlinkStruct} (cell : BlinkStruct)
    (stored : device.heap ptr = some old) :
    store device ptr cell =
      some { device with heap := Function.update device.heap ptr (some cell) } := by
  simp only [store, stored]

/-- `mp1_poke`. -/
def poke (device : Device) (offset : Nat) (char : UInt8) : Device :=
  { device with video := Function.update device.video offset char }

/-- The signed 16-bit range check of a location. -/
def ValidLocation (location : UInt16) : Prop :=
  ¬location.toInt16 < 0 ∧ ¬location.toInt16 > 1999

instance (location : UInt16) : Decidable (ValidLocation location) :=
  inferInstanceAs (Decidable (_ ∧ _))

/-! ## Traversal -/

/-- The removal of a found element: the pointer to it is redirected to its successor
and the element is freed. -/
def traversalRemove (device : Device) (previous element : Ptr) (cell : BlinkStruct) :
    Option (UInt32 × Device) :=
  let unlinked :=
    if previous = 0 then some { device with listHead := cell.next }
    else
      match device.heap previous with
      | none => none
      | some before => store device previous { before with next := cell.next }
  unlinked.bind fun unlinked => (free unlinked element).map fun freed => (1, freed)

/-- The loop of `mp1_traversal_init`: the pointer or success code it returns.  Its
fuel is the number of pointers, so a loop that ends at all ends before it runs
out. -/
def traversalLoop (location : UInt16) (removeBit : UInt32) (device : Device) :
    (fuel : Nat) → (previous element : Ptr) → Option (UInt32 × Device)
  | 0, _, _ => none
  | fuel + 1, previous, element =>
      if element = 0 then some (0, device)
      else
        match device.heap element with
        | none => none
        | some cell =>
            if cell.location - location = 0 then
              if removeBit = 1 then traversalRemove device previous element cell
              else some (element, device)
            else traversalLoop location removeBit device fuel element cell.next

/-- `mp1_traversal_init`. -/
def traversalInit (location : UInt16) (removeBit : UInt32) (device : Device) :
    Option (UInt32 × Device) :=
  traversalLoop location removeBit device 4294967296 0 device.listHead

/-! ## Control calls -/

/-- The common error exit of `mp1_ioctl_add`: -1, unless the block has to be freed. -/
def addError (env : Env) (device : Device) (block : Ptr) : Option Result :=
  if block = 0 then some ⟨0xFFFFFFFF, false, none, device⟩
  else (free device block).map fun freed => ⟨env.freeEax, false, none, freed⟩

/-- `mp1_ioctl_add`. -/
def ioctlAdd (env : Env) (device : Device) (arg : UInt32) : Option Result :=
  let device := malloc env device
  let block := env.malloc
  if block = 0 then addError env device block
  else if arg = 0 then addError env device block
  else
    match store device block env.fromUser with
    | none => none
    | some device =>
        let cell := env.fromUser
        if env.fromUserLeft ≠ 0 then addError env device block
        else if ValidLocation cell.location then
          let cell :=
            { cell with countdown := cell.onLength, status := 1, next := device.listHead }
          match store device block cell with
          | none => none
          | some device =>
              let device := { device with listHead := block }
              some ⟨0, true, none, poke device (2 * cell.location.toNat) cell.onChar⟩
        else addError env device block

/-- `mp1_ioctl_remove`. -/
def ioctlRemove (device : Device) (arg : UInt32) : Option Result :=
  let location := arg.toUInt16
  if ValidLocation location then
    match traversalInit location 1 device with
    | none => none
    | some (eax, device) =>
        if eax = 1 then some ⟨0, true, none, device⟩ else some ⟨0xFFFFFFFF, false, none, device⟩
  else some ⟨0xFFFFFFFF, false, none, device⟩

/-- The common exit of `mp1_ioctl_find`: the temporary block is freed, which leaves
its own value in `%eax`. -/
def findExit (env : Env) (device : Device) (block : Ptr) (ok : Bool)
    (copied : Option BlinkStruct) : Option Result :=
  (free device block).map fun freed => ⟨env.freeEax, ok, copied, freed⟩

/-- `mp1_ioctl_find`. -/
def ioctlFind (env : Env) (device : Device) (arg : UInt32) : Option Result :=
  let device := malloc env device
  let block := env.malloc
  if block = 0 then findExit env device block false none
  else if arg = 0 then findExit env device block false none
  else
    match store device block env.fromUser with
    | none => none
    | some device =>
        let location := env.fromUser.location
        if env.fromUserLeft ≠ 0 then findExit env device block false none
        else if ValidLocation location then
          match traversalInit location 0 device with
          | none => none
          | some (element, device) =>
              if element = 0 then findExit env device block false none
              else
                match device.heap element with
                | none => none
                | some cell =>
                    if env.toUserLeft ≠ 0 then findExit env device block false none
                    else findExit env device block true (some cell)
        else findExit env device block false none

/-- The last part of `mp1_ioctl_sync`, for two elements that were found. -/
def syncElements (device : Device) (source target : Ptr) : Option Result :=
  match device.heap source, device.heap target with
  | some first, some second =>
      let cell :=
        { second with
          onLength := first.onLength
          offLength := first.offLength
          countdown := first.countdown
          status := first.status }
      match store device target cell with
      | none => none
      | some device =>
          let offset := 2 * cell.location.toNat
          if cell.status.toInt16 < 0 then some ⟨0xFFFFFFFF, false, none, device⟩
          else if cell.status = 0 then
            some ⟨0, true, none, poke device offset cell.offChar⟩
          else if cell.status.toInt16 > 1 then some ⟨0xFFFFFFFF, false, none, device⟩
          else some ⟨0, true, none, poke device offset cell.onChar⟩
  | _, _ => none

/-- `mp1_ioctl_sync`: the high half of the argument is the source's location and the
low half the target's. -/
def ioctlSync (device : Device) (arg : UInt32) : Option Result :=
  let failed : Result := ⟨0xFFFFFFFF, false, none, device⟩
  let second := arg.toUInt16
  let first := (arg >>> 16).toUInt16
  if arg = 0 then some failed
  else if ¬ValidLocation second then some failed
  else if ¬ValidLocation first then some failed
  else
    match traversalInit first 0 device with
    | none => none
    | some (source, device) =>
        if source = 0 then some ⟨0xFFFFFFFF, false, none, device⟩
        else
          match traversalInit second 0 device with
          | none => none
          | some (target, device) =>
              if target = 0 then some ⟨0xFFFFFFFF, false, none, device⟩
              else syncElements device source target

/-- `mp1_ioctl`. -/
def ioctl (env : Env) (device : Device) (arg cmd : UInt32) : Option Result :=
  if cmd.toInt32 > 3 then some ⟨0xFFFFFFFF, false, none, device⟩
  else if cmd.toInt32 < 0 then some ⟨0xFFFFFFFF, false, none, device⟩
  else if cmd = 0 then ioctlAdd env device arg
  else if cmd = 1 then ioctlRemove device arg
  else if cmd = 2 then ioctlFind env device arg
  else ioctlSync device arg

/-! ## The tasklet -/

/-- The loop of `mp1_rtc_tasklet`.  A status that is neither 0 nor 1 ends it. -/
def taskletLoop (device : Device) : (fuel : Nat) → (element : Ptr) → Option Device
  | 0, _ => none
  | fuel + 1, element =>
      if element = 0 then some device
      else
        match device.heap element with
        | none => none
        | some cell =>
            let counted := { cell with countdown := cell.countdown - 1 }
            let offset := 2 * cell.location.toNat
            if counted.countdown ≠ 0 then
              (store device element counted).bind fun device =>
                taskletLoop device fuel cell.next
            else if cell.status.toInt16 < 0 then store device element counted
            else if cell.status = 0 then
              (store device element { counted with status := 1, countdown := cell.onLength }).bind
                fun device => taskletLoop (poke device offset cell.onChar) fuel cell.next
            else if cell.status.toInt16 > 1 then store device element counted
            else
              (store device element { counted with status := 0, countdown := cell.offLength }).bind
                fun device => taskletLoop (poke device offset cell.offChar) fuel cell.next

/-- `mp1_rtc_tasklet`. -/
def rtcTasklet (device : Device) : Option Device :=
  taskletLoop device 4294967296 device.listHead

end Ece391.BlinkDriver
