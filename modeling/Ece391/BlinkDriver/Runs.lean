import Ece391.BlinkDriver.Refinement
import Ece391.Library.Run

/-!
# Runs of the blink driver

Control calls and tasklet runs in any order, from the empty list on.  What the
functions called by the driver return is part of each event and is arbitrary, except
that `mp1_malloc` never hands out a block that is in use.
-/

namespace Ece391.BlinkDriver

open Ece391.Library

/-- What the driver is called for. -/
inductive Event where
  | ioctl (env : Env) (arg cmd : UInt32)
  | tasklet

/-- The driver handles an event without a fault. -/
inductive Step : Device → Event → Device → Prop where
  | ioctl {env : Env} {device : Device} {arg cmd : UInt32} {result : Result} :
      Fresh env device → ioctl env device arg cmd = some result →
      Step device (.ioctl env arg cmd) result.device
  | tasklet {device device' : Device} :
      rtcTasklet device = some device' → Step device .tasklet device'

/-- The driver before the first call. -/
def idle (video : Nat → UInt8) : Device :=
  ⟨fun _ => none, 0, video⟩

/-- The effect of an event on the reference model. -/
def Panel.step (panel : Panel) : Event → Panel
  | .ioctl env arg cmd => panel.apply (requested env arg cmd)
  | .tasklet => panel.tick

/-- The reference model after a sequence of events. -/
def Panel.after (panel : Panel) (events : List Event) : Panel :=
  events.foldl Panel.step panel

theorem idle_represents (video : Nat → UInt8) : Represents (idle video) [] :=
  ⟨Stored.nil_iff.mpr rfl, fun _ present => absurd rfl present⟩

section Runs

variable {device device' : Device} {nodes : Nodes} {event : Event} {events : List Event}
variable {video : Nat → UInt8}

/-- Each event has the effect that the reference model gives it. -/
theorem Represents.step (represents : Represents device nodes) (step : Step device event device') :
    ∃ nodes', Represents device' nodes' ∧
      panelOf device' nodes' = (panelOf device nodes).step event := by
  cases step with
  | ioctl fresh called =>
      obtain ⟨_, same, serves⟩ := ioctl_spec represents fresh _ _
      obtain rfl := Option.some.inj (called.symm.trans same)
      obtain ⟨nodes', represents', applied, _⟩ := serves.represents
      exact ⟨nodes', represents', applied⟩
  | tasklet ran =>
      obtain ⟨_, same, represents', video⟩ := rtcTasklet_spec represents
      obtain rfl := Option.some.inj (ran.symm.trans same)
      refine ⟨_, represents', ?_⟩
      simp only [panelOf, Panel.step, Panel.tick, List.map_map, video]
      rfl

/-- A run from the empty list represents what the reference model has reached. -/
theorem Represents.run (run : Run Step (idle video) events device) :
    ∃ nodes, Represents device nodes ∧ panelOf device nodes = Panel.after ⟨[], video⟩ events := by
  refine run.history
    (fun past device => ∃ nodes, Represents device nodes ∧
      panelOf device nodes = Panel.after ⟨[], video⟩ past) ?_
    [] ⟨[], idle_represents video, rfl⟩
  rintro past before event after ⟨nodes, represents, same⟩ step
  obtain ⟨nodes', represents', stepped⟩ := represents.step step
  refine ⟨nodes', represents', ?_⟩
  rw [stepped, same, Panel.after, Panel.after, List.foldl_append, List.foldl_cons, List.foldl_nil]

/-- A block of a represented list holds one of its blinking characters. -/
theorem Represents.block (represents : Represents device nodes) {ptr : Ptr} {cell : BlinkStruct}
    (present : device.heap ptr = some cell) :
    ∃ node ∈ nodes, node.1 = ptr ∧ ∃ next, cell = node.2.toStruct next := by
  have allocated : device.heap ptr ≠ none := by simp [present]
  obtain ⟨node, membership, rfl⟩ := List.mem_map.mp (represents.owned ptr allocated)
  obtain ⟨next, stored⟩ := represents.stored.contents node membership
  exact ⟨node, membership, rfl, next, Option.some.inj (present.symm.trans stored)⟩

theorem Blink.toStruct_valid (blink : Blink) (next : Ptr) :
    (blink.toStruct next).location.toNat ≤ 1999 ∧
      ((blink.toStruct next).status = 0 ∨ (blink.toStruct next).status = 1) := by
  refine ⟨blink.location_le, ?_⟩
  cases phase : blink.on with
  | false => exact .inl (by simp [Blink.toStruct, phase])
  | true => exact .inr (by simp [Blink.toStruct, phase])

/-- After any sequence of control calls and tasklet runs the list is acyclic and its
nodes are exactly the allocated blocks, each with a location on the screen and a
status 0 or 1; its contents and the screen are those of the reference model.  No
further event faults: a control call succeeds exactly when its request does, copies
out what the reference model finds, and changes nothing when it fails. -/
theorem driver_refines_panel (run : Run Step (idle video) events device) :
    ∃ nodes : Nodes,
      Linked BlinkStruct.next 0 device.heap device.listHead (nodes.map Prod.fst) ∧
      (nodes.map Prod.fst).Nodup ∧
      (∀ ptr, device.heap ptr ≠ none ↔ ptr ∈ nodes.map Prod.fst) ∧
      (∀ ptr cell, device.heap ptr = some cell →
        cell.location.toNat ≤ 1999 ∧ (cell.status = 0 ∨ cell.status = 1)) ∧
      (∀ node ∈ nodes, ∃ next, device.heap node.1 = some (node.2.toStruct next)) ∧
      (⟨nodes.map Prod.snd, device.video⟩ : Panel) = Panel.after ⟨[], video⟩ events ∧
      (∃ device', rtcTasklet device = some device') ∧
      ∀ env, Fresh env device → ∀ arg cmd, ∃ result,
        ioctl env device arg cmd = some result ∧
        result.ok =
          (Panel.after ⟨[], video⟩ events).accepts env (requested env arg cmd) ∧
        Copies result.copied
          ((Panel.after ⟨[], video⟩ events).copied env (requested env arg cmd)) ∧
        (result.ok = false → result.device = device) := by
  obtain ⟨nodes, represents, same⟩ := Represents.run run
  refine ⟨nodes, represents.stored.linked, represents.stored.nodup, fun ptr => ?_,
    fun ptr cell present => ?_, represents.stored.contents, same, ?_,
    fun env fresh arg cmd => ?_⟩
  · refine ⟨represents.owned ptr, fun member => ?_⟩
    obtain ⟨cell, stored⟩ := represents.stored.linked.allocated ptr member
    simp [stored]
  · obtain ⟨node, _, _, next, rfl⟩ := represents.block present
    exact node.2.toStruct_valid next
  · obtain ⟨device', ran, _⟩ := rtcTasklet_spec represents
    exact ⟨device', ran⟩
  · obtain ⟨result, called, serves⟩ := ioctl_spec represents fresh arg cmd
    rw [← same]
    exact ⟨result, called, serves.accepted, serves.copied, serves.failed⟩

end Runs

/-! ## One added character -/

/-- A structure for location 5. -/
def smallStruct : BlinkStruct where
  location := 5
  onChar := 65
  offChar := 66
  onLength := 2
  offLength := 1
  countdown := 0
  status := 0
  next := 0

/-- Every called function succeeds. -/
def smallEnv : Env where
  malloc := 4096
  fresh := smallStruct
  fromUser := smallStruct
  fromUserLeft := 0
  toUserLeft := 0
  freeEax := 0

/-- The device whose only element has just been added. -/
def smallDevice : Device where
  heap := Function.update (fun _ => none) 4096
    (some { smallStruct with countdown := 2, status := 1 })
  listHead := 4096
  video := Function.update (fun _ => 0) 10 65

theorem smallDevice_added :
    ioctl smallEnv (idle fun _ => 0) 1 0 = some ⟨0, true, none, smallDevice⟩ := by
  simp [ioctl, ioctlAdd, smallEnv, smallStruct, malloc, store, idle, poke, smallDevice,
    ValidLocation]

/-- The list of a device with one character, which a search finds. -/
theorem driver_refines_panel_added :
    ∃ nodes : Nodes,
      Linked BlinkStruct.next 0 smallDevice.heap smallDevice.listHead (nodes.map Prod.fst) ∧
      nodes.map Prod.snd = [.start smallStruct (by decide)] ∧
      ∃ result, ioctl { smallEnv with malloc := 8192 } smallDevice 1 2 = some result ∧
        result.ok = true := by
  have run : Run Step (idle fun _ => 0) [.ioctl smallEnv 1 0] smallDevice :=
    .single (.ioctl (fun _ => rfl) smallDevice_added)
  obtain ⟨nodes, linked, _, _, _, _, same, _, calls⟩ := driver_refines_panel run
  have unused : Fresh { smallEnv with malloc := 8192 } smallDevice := fun _ => rfl
  obtain ⟨result, called, accepted, _⟩ := calls _ unused 1 2
  exact ⟨nodes, linked, congrArg Panel.blinks same, result, called, accepted⟩

end Ece391.BlinkDriver
