import Ece391.Kernel.Booting

/-!
# What a failed execute leaves behind

`system_execute` has failure exits before, between and after its assignments to the
process state.  The exits before `assign_PID` change nothing and the check after the
image copy never fails, but the error code of `assign_PID` is stored in `pid` before
it is tested.
-/

namespace Ece391.Kernel

open Ece391.Library

/-- Two states with the same process state: `pid`, `pcb_obj`, every control block,
the program window and the kernel stack of the task state segment. -/
structure SameProcesses (before after : ProcessState) : Prop where
  pid : after.pid = before.pid
  pcbObj : after.pcbObj = before.pcbObj
  pcbs : after.pcbs = before.pcbs
  window : after.paging.kernelPageDirectory 32 = before.paging.kernelPageDirectory 32
  esp0 : after.tssEsp0 = before.tssEsp0

/-- A command of at most 128 bytes whose first word names a file that starts with the
magic bytes, with arguments that fit in their buffer. -/
def Loadable (image : Image) (locals : Locals) : Option Bytes → Prop
  | none => False
  | some command =>
      let cmdStrlen := int32 (strlen command)
      cmdStrlen ≤ 128 ∧
      cmdStrlen - argStart command locals.argStartingIndex cmdStrlen.toNat ≤ 128 ∧
      ∃ dentry, readDentryByName image (fileNameBuffer command cmdStrlen) locals.dentry =
          .found dentry ∧
        IsElf image (uint32 dentry.inodeNum)

section

variable {image : Image} {locals : Locals} {command : Option Bytes}
variable {layout : Layout} {start state state' : ProcessState} {callers : List ProcessState}
variable {calls : List ProcessCall}

theorem resolveCommand_program_iff :
    (∃ inode args, resolveCommand image locals command = .program inode args) ↔
      Loadable image locals command := by
  cases command with
  | none => simp [resolveCommand, Loadable]
  | some command =>
      simp only [resolveCommand, Loadable]
      by_cases long : int32 (strlen command) > 128
      · have notShort := Int.not_le.mpr long
        simp [long, notShort]
      have short := Int.not_lt.mp long
      rw [if_neg long]
      by_cases overrun : int32 (strlen command) -
          argStart command locals.argStartingIndex (int32 (strlen command)).toNat > 128
      · have notInside := Int.not_le.mpr overrun
        simp [overrun, notInside]
      have inside := Int.not_lt.mp overrun
      rw [if_neg overrun]
      simp only [short, inside, true_and]
      split
      next endless => simp [endless]
      next missing => simp [missing]
      next dentry found =>
        by_cases elf : IsElf image (uint32 dentry.inodeNum) <;> simp [found, elf]

/-- With every slot used the running process is the fifth, or a failed execute has
stored the error code before. -/
theorem Running.pid_of_full {cur : Nat} (running : Running state cur)
    (full : ∀ slot : Nat, slot ≤ 4 → state.Active slot) : state.pid = 4 ∨ state.pid = -99 := by
  have last : cur = 4 := by
    have bound := running.bound
    by_contra short
    exact running.free 4 (by omega) (by omega) (full 4 (by omega))
  rcases running.pid with pid | ⟨_, pid⟩
  · exact .inl (by omega)
  · exact .inr pid

/-- In every run from boot, a call of `system_execute` that returns -1 leaves the
process state unchanged exactly when it is not a loadable command given while `pid`
is 4, the number of the last slot. -/
theorem execute_failure_unchanged_iff (booted : Booted layout start)
    (run : Run (ProcessStep image) ⟨start, []⟩ calls ⟨state, callers⟩)
    (failed : systemExecute image locals state command = .returns (-1) state') :
    SameProcesses state state' ↔ ¬(Loadable image locals command ∧ state.pid = 4) := by
  have nested := Nested.run booted run
  rcases systemExecute_cases image locals state command with
    stuck | ⟨rejected, refused⟩ | ⟨inode, args, resolved, full, exhausted⟩ |
      ⟨_, _, _, _, _, _, _, ran⟩
  · simp [stuck] at failed
  · rw [refused] at failed
    obtain ⟨-, rfl⟩ := Outcome.returns.inj failed
    constructor
    · rintro - ⟨loadable, -⟩
      obtain ⟨inode, args, resolved⟩ := resolveCommand_program_iff.mpr loadable
      simp [rejected] at resolved
    · intro _
      exact ⟨rfl, rfl, rfl, rfl, rfl⟩
  · rw [exhausted] at failed
    obtain ⟨-, rfl⟩ := Outcome.returns.inj failed
    have loadable := resolveCommand_program_iff.mp ⟨inode, args, resolved⟩
    cases callers with
    | nil => exact absurd (full 0 (by omega)) (nested.idle 0 (by omega))
    | cons caller callers =>
        constructor
        · rintro same ⟨-, last⟩
          have stored : (-99 : Int) = state.pid := same.pid
          omega
        · intro allowed
          rcases nested.1.pid_of_full full with last | error
          · exact absurd ⟨loadable, last⟩ allowed
          · exact ⟨error.symm, rfl, rfl, rfl, rfl⟩
  · simp [ran] at failed

end

/-- A shell that is given no command refuses it without changing anything. -/
theorem execute_failure_unchanged_null :
    ∃ state callers, Run (ProcessStep smallImage) ⟨bootState smallLayout, []⟩
        (List.replicate 1 (.execute (some shellCommand) zeroLocals)) ⟨state, callers⟩ ∧
      systemExecute smallImage zeroLocals state none = .returns (-1) state ∧
      SameProcesses state state := by
  obtain ⟨state, callers, run, -, -⟩ :=
    smallImage_bootable.shells_nest (bootState_booted smallLayout) zeroLocals (by decide)
      (show 0 ≤ 4 by decide)
  have failed : systemExecute smallImage zeroLocals state none = .returns (-1) state := rfl
  refine ⟨state, callers, run, failed, ?_⟩
  exact (execute_failure_unchanged_iff (bootState_booted smallLayout) run failed).mpr
    fun refuted => refuted.1

/-- The fifth nested shell asks for a sixth: the call returns -1 and `pid` holds the
error code. -/
theorem sixth_shell_changes_pid :
    ∃ state callers state', Run (ProcessStep smallImage) ⟨bootState smallLayout, []⟩
        (List.replicate 5 (.execute (some shellCommand) zeroLocals)) ⟨state, callers⟩ ∧
      systemExecute smallImage zeroLocals state (some shellCommand) = .returns (-1) state' ∧
      state.pid = 4 ∧ state'.pid = -99 ∧ ¬SameProcesses state state' := by
  obtain ⟨state, callers, run, running, pid, -⟩ :=
    smallImage_bootable.shells_nest (bootState_booted smallLayout) zeroLocals (by decide)
      (show 4 ≤ 4 by decide)
  have index : 5 - zeroLocals.argStartingIndex ≤ 128 := by decide
  obtain ⟨inode, resolved, -⟩ := smallImage_bootable.shell_resolves index
  have full : assignPID state = -99 := by
    rcases assignPID_spec state with ⟨slot, bound, -, free, -⟩ | ⟨assigned, -⟩
    · exact absurd (running.isActive bound) free
    · exact assigned
  have failed := systemExecute_full resolved full
  refine ⟨state, callers, _, run, failed, pid, rfl, fun same => ?_⟩
  have stored : (-99 : Int) = state.pid := same.pid
  omega

end Ece391.Kernel
