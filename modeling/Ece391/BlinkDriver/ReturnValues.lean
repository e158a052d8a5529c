import Ece391.BlinkDriver.Runs

/-!
# The values that control calls return

A control call owes its caller 0 when the request took effect and -1 when it did not.  Two
exits put the value into `%eax` and then call `mp1_free`, which leaves there what it likes:
every exit of the search, and the failure of an addition whose block was allocated.
-/

namespace Ece391.BlinkDriver

/-- What a call owes its caller. -/
def owed (accepted : Bool) : UInt32 :=
  if accepted then 0 else 0xFFFFFFFF

/-- The last thing the call does is to free its block: it is a search, or an addition that
has a block and gives it up because the argument is null, the copy fails or the location is
off the screen. -/
def EndsInFree (env : Env) (arg cmd : UInt32) : Prop :=
  cmd = 2 ∨
    cmd = 0 ∧ env.malloc ≠ 0 ∧
      (arg = 0 ∨ env.fromUserLeft ≠ 0 ∨ ¬ ValidLocation env.fromUser.location)

/-- The value a call returns: what `mp1_free` leaves if it ends there, and what it owes
otherwise. -/
def Returned (env : Env) (free : Prop) (result : Result) : Prop :=
  (free → result.ret = env.freeEax) ∧ (¬ free → result.ret = owed result.ok)

section

variable {env : Env} {device : Device} {arg cmd : UInt32} {result : Result}

theorem findExit_returned {block : Ptr} {ok : Bool} {copied : Option BlinkStruct}
    (called : findExit env device block ok copied = some result) :
    result.ret = env.freeEax := by
  rw [findExit, Option.map_eq_some_iff] at called
  obtain ⟨freed, -, rfl⟩ := called
  rfl

theorem addError_returned {block : Ptr} (called : addError env device block = some result) :
    result.ok = false ∧ (block ≠ 0 → result.ret = env.freeEax) ∧
      (block = 0 → result.ret = 0xFFFFFFFF) := by
  rw [addError] at called
  split at called
  next null =>
    obtain rfl := Option.some.inj called
    exact ⟨rfl, fun block => absurd null block, fun _ => rfl⟩
  next block =>
    rw [Option.map_eq_some_iff] at called
    obtain ⟨freed, -, rfl⟩ := called
    exact ⟨rfl, fun _ => rfl, fun null => absurd null block⟩

/-- `mp1_ioctl_find` ends in `mp1_free` on every path. -/
theorem ioctlFind_returned (called : ioctlFind env device arg = some result) :
    result.ret = env.freeEax := by
  simp only [ioctlFind] at called
  repeat' split at called
  all_goals first | exact findExit_returned called | cases called

/-- `mp1_ioctl_add` ends there when it gives up its block. -/
theorem ioctlAdd_returned (called : ioctlAdd env device arg = some result) :
    Returned env (env.malloc ≠ 0 ∧
      (arg = 0 ∨ env.fromUserLeft ≠ 0 ∨ ¬ ValidLocation env.fromUser.location)) result := by
  simp only [ioctlAdd] at called
  by_cases null : env.malloc = 0
  · rw [if_pos null] at called
    obtain ⟨failed, -, error⟩ := addError_returned called
    refine ⟨fun block => absurd null block.1, fun _ => ?_⟩
    rw [error null, failed]
    rfl
  rw [if_neg null] at called
  have gaveUp {device : Device} (called : addError env device env.malloc = some result)
      (reason : arg = 0 ∨ env.fromUserLeft ≠ 0 ∨ ¬ ValidLocation env.fromUser.location) :
      Returned env (env.malloc ≠ 0 ∧
        (arg = 0 ∨ env.fromUserLeft ≠ 0 ∨ ¬ ValidLocation env.fromUser.location)) result :=
    ⟨fun _ => (addError_returned called).2.1 null, fun kept => absurd ⟨null, reason⟩ kept⟩
  split at called
  next argument => exact gaveUp called (.inl argument)
  next argument =>
    split at called
    · cases called
    · split at called
      next short => exact gaveUp called (.inr (.inl short))
      next copied =>
        split at called
        next valid =>
          split at called
          · cases called
          · obtain rfl := Option.some.inj called
            refine ⟨?_, fun _ => rfl⟩
            rintro ⟨-, none | short | invalid⟩
            · exact absurd none argument
            · exact absurd short copied
            · exact absurd valid invalid
        next invalid => exact gaveUp called (.inr (.inr invalid))

theorem ioctlRemove_returned (called : ioctlRemove device arg = some result) :
    result.ret = owed result.ok := by
  simp only [ioctlRemove] at called
  repeat' split at called
  all_goals cases called
  all_goals rfl

theorem syncElements_returned {source target : Ptr}
    (called : syncElements device source target = some result) :
    result.ret = owed result.ok := by
  simp only [syncElements] at called
  repeat' split at called
  all_goals cases called
  all_goals rfl

theorem ioctlSync_returned (called : ioctlSync device arg = some result) :
    result.ret = owed result.ok := by
  simp only [ioctlSync] at called
  repeat' split at called
  all_goals first | exact syncElements_returned called | cases called
  all_goals rfl

/-- A call that does not end in `mp1_free` returns what it owes. -/
theorem Returned.of_owed {free : Prop} (kept : ¬ free) (ret : result.ret = owed result.ok) :
    Returned env free result :=
  ⟨fun freed => absurd freed kept, fun _ => ret⟩

/-- What `mp1_ioctl` returns. -/
theorem ioctl_returned (called : ioctl env device arg cmd = some result) :
    Returned env (EndsInFree env arg cmd) result := by
  have rest (notAdd : cmd ≠ 0) (notFind : cmd ≠ 2) : ¬ EndsInFree env arg cmd := by
    rintro (find | ⟨add, -⟩)
    · exact notFind find
    · exact notAdd add
  rw [ioctl] at called
  split at called
  next above =>
    obtain rfl := Option.some.inj called
    refine .of_owed (rest ?_ ?_) rfl
    · rintro rfl
      exact absurd above (by decide)
    · rintro rfl
      exact absurd above (by decide)
  split at called
  next below =>
    obtain rfl := Option.some.inj called
    refine .of_owed (rest ?_ ?_) rfl
    · rintro rfl
      exact absurd below (by decide)
    · rintro rfl
      exact absurd below (by decide)
  split at called
  next add =>
    subst add
    obtain ⟨freed, kept⟩ := ioctlAdd_returned called
    refine ⟨?_, fun other => kept fun gaveUp => other (.inr ⟨rfl, gaveUp⟩)⟩
    rintro (find | ⟨-, gaveUp⟩)
    · exact absurd find (by decide)
    · exact freed gaveUp
  next notAdd =>
    split at called
    next remove =>
      subst remove
      exact .of_owed (rest notAdd (by decide)) (ioctlRemove_returned called)
    next =>
      split at called
      next find =>
        exact ⟨fun _ => ioctlFind_returned called, fun other => absurd (.inl find) other⟩
      next notFind => exact .of_owed (rest notAdd notFind) (ioctlSync_returned called)

end

/-! ## Every call -/

/-- On every list, every call has the effect its request asks for, and it returns what it
owes exactly if it does not end in `mp1_free` or that happens to leave the value owed. -/
theorem ioctl_returns_owed {env : Env} {device : Device} {nodes : Nodes}
    (represents : Represents device nodes) (fresh : Fresh env device) (arg cmd : UInt32) :
    ∃ result, ioctl env device arg cmd = some result ∧
      Serves env device nodes (requested env arg cmd) result ∧
      (result.ret = owed ((panelOf device nodes).accepts env (requested env arg cmd)) ↔
        ¬ EndsInFree env arg cmd ∨
          env.freeEax = owed ((panelOf device nodes).accepts env (requested env arg cmd))) := by
  obtain ⟨result, called, serves⟩ := ioctl_spec represents fresh arg cmd
  obtain ⟨freed, kept⟩ := ioctl_returned called
  refine ⟨result, called, serves, ?_⟩
  rw [← serves.accepted]
  by_cases free : EndsInFree env arg cmd
  · rw [freed free]
    simp [free]
  · rw [kept free]
    simp [free]

/-- Adding to the empty list returns what it owes. -/
theorem ioctl_returns_owed_added :
    ∃ result, ioctl smallEnv (idle fun _ => 0) 1 0 = some result ∧ result.ret = 0 := by
  obtain ⟨result, called, -, owes⟩ :=
    ioctl_returns_owed (idle_represents fun _ => 0) (show Fresh smallEnv _ from fun _ => rfl) 1 0
  refine ⟨result, called, owes.mpr (.inl ?_)⟩
  rintro (find | ⟨-, -, null | short | invalid⟩)
  · exact absurd find (by decide)
  · exact absurd null (by decide)
  · exact absurd short (by decide)
  · exact absurd invalid (by decide)

/-- A search on the empty list fails, and returns the 0 that `mp1_free` leaves. -/
theorem ioctl_returns_owed_search :
    ∃ result, ioctl smallEnv (idle fun _ => 0) 1 2 = some result ∧
      (panelOf (idle fun _ => 0) []).accepts smallEnv (requested smallEnv 1 2) = false ∧
      result.ret ≠ owed false := by
  obtain ⟨result, called, -⟩ := ioctl_spec (idle_represents fun _ => 0)
    (show Fresh smallEnv _ from fun _ => rfl) 1 2
  refine ⟨result, called, rfl, ?_⟩
  rw [(ioctl_returned called).1 (.inl rfl)]
  decide

end Ece391.BlinkDriver
