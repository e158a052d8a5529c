import Ece391.Library.Run
import Mathlib.Logic.Relation

/-!
# Code that interrupts can preempt

A core runs code that is seen as far as it concerns interrupts: it sets and clears the interrupt
flag, saves and restores it, writes to the interrupt controller, runs other code that may do what it
likes with the flag, and returns.  While the flag is set the core accepts what the controller
delivers, clears the flag, and runs a handler.

A view of the controller leaves out what arrives from outside.  Code is disciplined when it sets the
flag only in views that are declared open, and returns in the view that it was entered in.  When
every handler that can be entered in an open view is disciplined, so is the core, whatever arrives
when.
-/

namespace Ece391.Library

universe u

/-- What an instruction does to interrupts. -/
inductive Instruction (Write : Type u) where
  | cli
  | sti
  /-- Code that does nothing of all this, and does not fault. -/
  | work
  | write (command : Write)
  | pushfl
  | popfl
  /-- Other code, which may set and clear the flag at will. -/
  | process
  | iret

/-- A word of the stack that concerns interrupts: saved flags, or where to return to. -/
inductive Pushed (Write : Type u) where
  | flags (enabled : Bool)
  | frame (enabled : Bool) (code : List (Instruction Write))

/-- An interrupt controller. -/
structure Device (Controller Line Write Vector : Type u) where
  raise : Line → Controller → Controller
  write : Write → Controller → Controller
  /-- The vector of the interrupt that is delivered, if one is. -/
  acknowledge : Controller → Option (Vector × Controller)

/-- The core with its controller. -/
structure Core (Controller Write : Type u) where
  controller : Controller
  enabled : Bool
  code : List (Instruction Write)
  stack : List (Pushed Write)

/-- What happens next. -/
inductive CoreEvent (Line Vector : Type u) where
  | raised (line : Line)
  | accepted (vector : Vector)
  | executed

variable {Controller Line Write Vector View : Type u}

/-- The execution of an instruction. -/
inductive Executes (device : Device Controller Line Write Vector) :
    Core Controller Write → Core Controller Write → Prop where
  | cli {controller enabled code stack} :
      Executes device ⟨controller, enabled, .cli :: code, stack⟩ ⟨controller, false, code, stack⟩
  | sti {controller enabled code stack} :
      Executes device ⟨controller, enabled, .sti :: code, stack⟩ ⟨controller, true, code, stack⟩
  | work {controller enabled code stack} :
      Executes device ⟨controller, enabled, .work :: code, stack⟩ ⟨controller, enabled, code, stack⟩
  | write {controller enabled code stack} (command : Write) :
      Executes device ⟨controller, enabled, .write command :: code, stack⟩
        ⟨device.write command controller, enabled, code, stack⟩
  | pushfl {controller enabled code stack} :
      Executes device ⟨controller, enabled, .pushfl :: code, stack⟩
        ⟨controller, enabled, code, .flags enabled :: stack⟩
  | popfl {controller enabled saved code stack} :
      Executes device ⟨controller, enabled, .popfl :: code, .flags saved :: stack⟩
        ⟨controller, saved, code, stack⟩
  | process {controller enabled code stack} (enabled' : Bool) :
      Executes device ⟨controller, enabled, .process :: code, stack⟩
        ⟨controller, enabled', .process :: code, stack⟩
  | finished {controller enabled code stack} :
      Executes device ⟨controller, enabled, .process :: code, stack⟩
        ⟨controller, enabled, code, stack⟩
  | iret {controller enabled saved code rest stack} :
      Executes device ⟨controller, enabled, .iret :: rest, .frame saved code :: stack⟩
        ⟨controller, saved, code, stack⟩

/-- A step of the core.  An interrupt is accepted between two instructions, while the flag is
set. -/
inductive CoreStep (device : Device Controller Line Write Vector)
    (handlers : Vector → List (Instruction Write) → Prop) :
    Core Controller Write → CoreEvent Line Vector → Core Controller Write → Prop where
  | raised {core : Core Controller Write} (line : Line) :
      CoreStep device handlers core (.raised line)
        { core with controller := device.raise line core.controller }
  | accepted {core : Core Controller Write} {controller : Controller} {vector : Vector}
      {code : List (Instruction Write)} :
      core.enabled = true → device.acknowledge core.controller = some (vector, controller) →
      handlers vector code →
      CoreStep device handlers core (.accepted vector)
        ⟨controller, false, code, .frame true core.code :: core.stack⟩
  | executed {core core' : Core Controller Write} :
      Executes device core core' → CoreStep device handlers core .executed core'

/-! ## Disciplined code -/

section

variable (writeView : Write → View → View) (allowed settled : View → Prop)

/-- Code that starts in a view with the flag as given, has pushed some flags, and was entered in the
view `home`. -/
def Disciplined (home : View) : View → Bool → List Bool → List (Instruction Write) → Prop
  | view, _, _, [] => view = home
  | view, _, pushed, .cli :: code => Disciplined home view false pushed code
  | view, _, pushed, .sti :: code => allowed view ∧ Disciplined home view true pushed code
  | view, enabled, pushed, .work :: code => Disciplined home view enabled pushed code
  | view, enabled, pushed, .write command :: code =>
      (enabled = true → allowed (writeView command view)) ∧
        Disciplined home (writeView command view) enabled pushed code
  | view, enabled, pushed, .pushfl :: code => Disciplined home view enabled (enabled :: pushed) code
  | _, _, [], .popfl :: _ => False
  | view, _, saved :: pushed, .popfl :: code =>
      (saved = true → allowed view) ∧ Disciplined home view saved pushed code
  | view, _, pushed, .process :: code =>
      allowed view ∧ ∀ enabled, Disciplined home view enabled pushed code
  | view, _, pushed, .iret :: _ => view = home ∧ pushed = []

/-- The stack below code that was entered in a view: the code that it has preempted was disciplined
and stood in that view. -/
inductive Suspended : View → List (Pushed Write) → Prop where
  | bottom (home : View) : Suspended home []
  | frame {home home' : View} {pushed : List Bool} {code : List (Instruction Write)}
      {below : List (Pushed Write)} :
      allowed home → settled home' → Disciplined writeView allowed home' home true pushed code →
      Suspended home' below →
      Suspended home (.frame true code :: (pushed.map .flags ++ below))

/-- The code that runs and the code that it has preempted are disciplined, and the flag is set in
allowed views only. -/
structure Core.Orderly (view : Controller → View) (core : Core Controller Write) : Prop where
  current : ∃ home pushed below, settled home ∧
    Disciplined writeView allowed home (view core.controller) core.enabled pushed core.code ∧
      core.stack = pushed.map .flags ++ below ∧ Suspended writeView allowed settled home below
  allowed : core.enabled = true → allowed (view core.controller)

/-- Whatever is delivered in an allowed view was delivered in a settled one, and has a handler; all
its handlers are disciplined. -/
def Covered (device : Device Controller Line Write Vector) (view : Controller → View)
    (handlers : Vector → List (Instruction Write) → Prop) : Prop :=
  ∀ controller vector controller', allowed (view controller) →
    device.acknowledge controller = some (vector, controller') →
    settled (view controller) ∧ (∃ code, handlers vector code) ∧
      ∀ code, handlers vector code →
        Disciplined writeView allowed (view controller) (view controller') false [] code

end

section

variable {writeView : Write → View → View} {allowed settled : View → Prop}
variable {device : Device Controller Line Write Vector} {view : Controller → View}
variable {handlers : Vector → List (Instruction Write) → Prop}
variable {core core' : Core Controller Write}

/-- An instruction keeps the core orderly. -/
theorem Core.Orderly.executes
    (writes : ∀ command controller,
      view (device.write command controller) = writeView command (view controller))
    (orderly : core.Orderly writeView allowed settled view) (step : Executes device core core') :
    core'.Orderly writeView allowed settled view := by
  obtain ⟨⟨home, pushed, below, settled_, disciplined, stack, suspended⟩, open_⟩ := orderly
  cases step with
  | cli => exact ⟨⟨home, pushed, below, settled_, disciplined, stack, suspended⟩, nofun⟩
  | sti => exact ⟨⟨home, pushed, below, settled_, disciplined.2, stack, suspended⟩,
      fun _ => disciplined.1⟩
  | work => exact ⟨⟨home, pushed, below, settled_, disciplined, stack, suspended⟩, open_⟩
  | write command =>
      rw [Disciplined, ← writes] at disciplined
      exact ⟨⟨home, pushed, below, settled_, disciplined.2, stack, suspended⟩, disciplined.1⟩
  | @pushfl _ enabled =>
      exact ⟨⟨home, enabled :: pushed, below, settled_, disciplined, congrArg (_ :: ·) stack,
        suspended⟩, open_⟩
  | popfl =>
      cases pushed with
      | nil => exact disciplined.elim
      | cons saved pushed =>
          obtain ⟨same, stack'⟩ := List.cons.inj stack
          obtain rfl := Pushed.flags.inj same
          exact ⟨⟨home, pushed, below, settled_, disciplined.2, stack', suspended⟩, disciplined.1⟩
  | process enabled =>
      exact ⟨⟨home, pushed, below, settled_, disciplined, stack, suspended⟩,
        fun _ => disciplined.1⟩
  | @finished _ enabled =>
      exact ⟨⟨home, pushed, below, settled_, disciplined.2 enabled, stack, suspended⟩,
        fun _ => disciplined.1⟩
  | iret =>
      obtain ⟨same, rfl⟩ := disciplined
      cases suspended with
      | bottom => cases stack
      | @frame _ home' pushed' code _ allowed_ settled' disciplined' suspended' =>
          obtain ⟨same', rfl⟩ := List.cons.inj stack
          obtain ⟨rfl, rfl⟩ := Pushed.frame.inj same'
          exact ⟨⟨home', pushed', _, settled', same ▸ disciplined', rfl, suspended'⟩,
            fun _ => same ▸ allowed_⟩

/-- So does every step, when the handlers are covered. -/
theorem Core.Orderly.step {event : CoreEvent Line Vector}
    (raises : ∀ line controller, view (device.raise line controller) = view controller)
    (writes : ∀ command controller,
      view (device.write command controller) = writeView command (view controller))
    (covered : Covered writeView allowed settled device view handlers)
    (orderly : core.Orderly writeView allowed settled view)
    (step : CoreStep device handlers core event core') :
    core'.Orderly writeView allowed settled view := by
  cases step with
  | executed executes => exact orderly.executes writes executes
  | raised line =>
      obtain ⟨current, open_⟩ := orderly
      rw [← raises line] at current open_
      exact ⟨current, open_⟩
  | @accepted controller vector code enabled acknowledged handler =>
      obtain ⟨⟨home, pushed, below, settled_, disciplined, stack, suspended⟩, open_⟩ := orderly
      obtain ⟨settled', -, handles⟩ := covered _ _ _ (open_ enabled) acknowledged
      rw [enabled] at disciplined
      refine ⟨⟨view core.controller, [], _, settled', handles code handler, rfl, ?_⟩, nofun⟩
      rw [stack]
      exact .frame (open_ enabled) settled_ disciplined suspended

/-- What code does before it returns leads to the view that it was entered in. -/
theorem Disciplined.finishes
    (writes : ∀ command controller,
      view (device.write command controller) = writeView command (view controller))
    {home : View} {controller : Controller} {enabled : Bool} {pushed : List Bool}
    {code : List (Instruction Write)} (below : List (Pushed Write))
    (disciplined : Disciplined writeView allowed home (view controller) enabled pushed code) :
    ∃ last, Relation.ReflTransGen (Executes device)
        ⟨controller, enabled, code, pushed.map .flags ++ below⟩ last ∧
      view last.controller = home := by
  induction code generalizing controller enabled pushed with
  | nil => exact ⟨_, .refl, disciplined⟩
  | cons instruction code ih =>
      cases instruction with
      | cli =>
          obtain ⟨last, runs, same⟩ := @ih controller false pushed disciplined
          exact ⟨last, .head .cli runs, same⟩
      | sti =>
          obtain ⟨last, runs, same⟩ := ih disciplined.2
          exact ⟨last, .head .sti runs, same⟩
      | work =>
          obtain ⟨last, runs, same⟩ := @ih controller enabled pushed disciplined
          exact ⟨last, .head .work runs, same⟩
      | write command =>
          rw [Disciplined, ← writes] at disciplined
          obtain ⟨last, runs, same⟩ := ih disciplined.2
          exact ⟨last, .head (.write command) runs, same⟩
      | pushfl =>
          obtain ⟨last, runs, same⟩ := @ih controller enabled (enabled :: pushed) disciplined
          exact ⟨last, .head .pushfl runs, same⟩
      | popfl =>
          cases pushed with
          | nil => exact disciplined.elim
          | cons saved pushed =>
              obtain ⟨last, runs, same⟩ := ih disciplined.2
              exact ⟨last, .head .popfl runs, same⟩
      | process =>
          obtain ⟨last, runs, same⟩ := ih (disciplined.2 enabled)
          exact ⟨last, .head .finished runs, same⟩
      | iret => exact ⟨_, .refl, disciplined.1⟩

/-- From every orderly core, instructions alone lead to a settled view. -/
theorem Core.Orderly.settles
    (writes : ∀ command controller,
      view (device.write command controller) = writeView command (view controller))
    (orderly : core.Orderly writeView allowed settled view) :
    ∃ last, Relation.ReflTransGen (Executes device) core last ∧ settled (view last.controller) := by
  obtain ⟨⟨home, pushed, below, settled_, disciplined, stack, -⟩, -⟩ := orderly
  obtain ⟨last, runs, same⟩ := disciplined.finishes writes below
  rw [← stack] at runs
  exact ⟨last, runs, same ▸ settled_⟩

end

end Ece391.Library
