import Mathlib
import Chronix.Model.Select
import Chronix.Soundness.UserPtr
import Chronix.Soundness.Protection
import Chronix.Soundness.SigMask

/-! # What `pselect6` indexes, and where it writes the except set

`FdSet::is_set` indexes word `fd / 64` of sixteen, and panics from descriptor `FD_SET_SIZE` on
(`FdSet.is_set_eq_none_iff`). The loop of `sys_pselect6` runs to the caller's `nfds` and asks
every set it has at every descriptor, so with a read or a write set and `nfds` past
`FD_SET_SIZE` the call never gets to its `await`: it fails on a user pointer or a descriptor, or
panics (`sys_pselect6_past_fd_set_size`). The except handle is built on `writefds_ptr`
(`pselectHandles_ok`), so the except set the caller passed is never the one cleared.

The mask of `pselect6` is installed before the timeout is checked, and the `EINVAL` of an
invalid timeout returns with it in place (`sys_pselect6_invalid_timeout_keeps_mask`), as does the
`EINTR` of a signal (`pselect6_resume_interrupted`).
-/

namespace Chronix

open PageFaultAccessType

/-- A run of `x >>= f` that succeeds is a run of `x` that succeeds followed by one of `f`. -/
theorem UserCheck.bind_ok {α β : Type} {x : UserCheck α} {f : α → UserCheck β}
    {vm vm' : UserVmSpace} {b : β} (ran : (x >>= f).run vm = some (.ok b, vm')) :
    ∃ a vm₁, x.run vm = some (.ok a, vm₁) ∧ (f a).run vm₁ = some (.ok b, vm') := by
  simp only [ExceptT.run_bind] at ran
  change (x.run vm).bind _ = _ at ran
  simp only [Option.bind_eq_some_iff] at ran
  obtain ⟨⟨result, vm₁⟩, first, rest⟩ := ran
  cases result with
  | error e => simp [pure, StateT.pure] at rest
  | ok a => exact ⟨a, vm₁, first, rest⟩

/-- A handle that passes is the pointer it checked, or none when the tested pointer is null. -/
theorem userHandle_ok {lazy : LazyFault} {tested ptr size : ℕ} {access : PageFaultAccessType}
    {vm vm' : UserVmSpace} {handle : Option ℕ}
    (passed : (userHandle lazy tested ptr size access).run vm = some (.ok handle, vm')) :
    handle = if tested = 0 then none else some ptr := by
  unfold userHandle at passed
  split_ifs at passed with absent
  · simp only [ExceptT.run, pure, ExceptT.pure, StateT.pure, ExceptT.mk, Option.some.injEq,
      Prod.mk.injEq, Except.ok.injEq] at passed
    simp [absent, passed.1]
  · change Option.map _ (ensurePtr lazy ptr vm ptr size access) = _ at passed
    simp only [Option.map_eq_some_iff] at passed
    obtain ⟨⟨checked, _⟩, ensured, found⟩ := passed
    cases checked with
    | none => simp at found
    | some checked =>
      -- `ensure_*` hands back the pointer it was given
      have same : checked = ptr := by
        simp only [ensurePtr, Option.map_eq_some_iff] at ensured
        obtain ⟨⟨result, _⟩, -, given⟩ := ensured
        cases result with
        | error => simp at given
        | ok =>
          simp only [Prod.mk.injEq, Option.some.injEq] at given
          exact given.1.symm
      simp only [Prod.mk.injEq, Except.ok.injEq] at found
      simp [absent, ← found.1, same]

/-- The handles of a `sys_pselect6` whose pointers all pass: each is its pointer, or none for a
null one, and the except handle is `writefds_ptr` whenever `exceptfds_ptr` is not null. -/
theorem pselectHandles_ok {lazy : LazyFault} {readfds_ptr writefds_ptr exceptfds_ptr timeout_ptr
    sigmask_ptr : ℕ} {vm vm' : UserVmSpace} {handles : PselectHandles}
    (passed : (pselectHandles lazy readfds_ptr writefds_ptr exceptfds_ptr timeout_ptr
      sigmask_ptr).run vm = some (.ok handles, vm')) :
    handles.readfds_r = (if readfds_ptr = 0 then none else some readfds_ptr) ∧
      handles.readfds_w = (if readfds_ptr = 0 then none else some readfds_ptr) ∧
      handles.writefds_r = (if writefds_ptr = 0 then none else some writefds_ptr) ∧
      handles.writefds_w = (if writefds_ptr = 0 then none else some writefds_ptr) ∧
      handles.exceptfds_w = (if exceptfds_ptr = 0 then none else some writefds_ptr) ∧
      handles.timeout = (if timeout_ptr = 0 then none else some timeout_ptr) ∧
      handles.new_mask = (if sigmask_ptr = 0 then none else some sigmask_ptr) := by
  -- one successful bind per pointer block, in the source's order
  obtain ⟨readfds_w, _, readW, passed⟩ := UserCheck.bind_ok passed
  obtain ⟨readfds_r, _, readR, passed⟩ := UserCheck.bind_ok passed
  obtain ⟨writefds_w, _, writeW, passed⟩ := UserCheck.bind_ok passed
  obtain ⟨writefds_r, _, writeR, passed⟩ := UserCheck.bind_ok passed
  obtain ⟨exceptfds_w, _, exceptW, passed⟩ := UserCheck.bind_ok passed
  obtain ⟨timeout, _, timed, passed⟩ := UserCheck.bind_ok passed
  obtain ⟨new_mask, _, masked, passed⟩ := UserCheck.bind_ok passed
  simp only [ExceptT.run, pure, ExceptT.pure, StateT.pure, ExceptT.mk, Option.some.injEq,
    Prod.mk.injEq, Except.ok.injEq] at passed
  rw [← passed.1]
  exact ⟨userHandle_ok readR, userHandle_ok readW, userHandle_ok writeR, userHandle_ok writeW,
    userHandle_ok exceptW, userHandle_ok timed, userHandle_ok masked⟩

namespace FdSet

/-- `is_set` panics exactly from descriptor `FD_SET_SIZE` on. -/
theorem is_set_eq_none_iff (s : FdSet) (fd : ℕ) : s.is_set fd = none ↔ FD_SET_SIZE ≤ fd := by
  rw [is_set, Option.map_eq_none_iff, Vector.getElem?_eq_none_iff]
  simp only [FD_SET_LEN, FD_SET_SIZE]
  omega

end FdSet

/-- Asking a set past `FD_SET_SIZE` panics. -/
theorem askedIn_past_fd_set_size (mem : ℕ → FdSet) (ptr : ℕ) {fd : ℕ} (past : FD_SET_SIZE ≤ fd)
    (event : PollEvents) : askedIn mem (some ptr) fd event = none := by
  simp only [askedIn, Option.map_eq_none_iff, FdSet.is_set_eq_none_iff, past]

section Polls

variable {mem : ℕ → FdSet} {fdTable : FdTable} {readfds_r writefds_r : Option ℕ}

/-- The loop does not get through a descriptor past `FD_SET_SIZE` while a read or a write set is
asked: it has stopped on an error before, or it panics there. -/
theorem pselectPolls_past_fd_set_size {fds : List ℕ} {fd : ℕ} (member : fd ∈ fds)
    (past : FD_SET_SIZE ≤ fd) (asked : readfds_r.isSome ∨ writefds_r.isSome)
    (polls : List (ℕ × PollEvents × ℕ)) :
    pselectPolls mem fdTable readfds_r writefds_r fds ≠ some (.ok polls) := by
  -- induction on the descriptors: the loop finishes only if its rest finishes
  induction fds generalizing polls with
  | nil => exact absurd member List.not_mem_nil
  | cons head rest ih =>
    intro finished
    rcases List.mem_cons.mp member with here | later
    · subst here
      cases readfds_r with
      | some ptr =>
        simp [pselectPolls, askedIn_past_fd_set_size mem ptr past] at finished
      | none =>
        obtain ⟨ptr, rfl⟩ := Option.isSome_iff_exists.mp (asked.resolve_left (by simp))
        have unset : (mem ptr).is_set fd = none := (FdSet.is_set_eq_none_iff _ _).mpr past
        simp [pselectPolls, askedIn, unset] at finished
    · simp only [pselectPolls, Option.bind_eq_bind, Option.bind_eq_some_iff] at finished
      obtain ⟨_, -, _, -, finished⟩ := finished
      split_ifs at finished
      · exact ih later _ finished
      · split at finished
        · simp at finished
        · obtain ⟨result, ranRest, mapped⟩ := Option.map_eq_some_iff.mp finished
          cases result with
          | error => simp [Except.map] at mapped
          | ok found => exact ih later found ranRest

end Polls

section Entry

variable {lazy : LazyFault} {vm vm' : UserVmSpace} {fdTable : FdTable} {task task' : Tcb}
  {mem : ℕ → FdSet} {timeoutVal : TimeSpec} {sigmaskVal : SigSet} {cur : ℕ} {nfds : ℤ}
  {readfds_ptr writefds_ptr exceptfds_ptr timeout_ptr sigmask_ptr : ℕ}

/-- A `sys_pselect6` that reaches its `await` has passed every pointer block. -/
theorem sys_pselect6_waiting {wait : PselectWait}
    (waiting : sys_pselect6 lazy vm fdTable task mem timeoutVal sigmaskVal cur nfds readfds_ptr
      writefds_ptr exceptfds_ptr timeout_ptr sigmask_ptr = some (.waiting wait, task', vm')) :
    ∃ vm₁, (pselectHandles lazy readfds_ptr writefds_ptr exceptfds_ptr timeout_ptr
      sigmask_ptr).run vm = some (.ok wait.handles, vm₁) := by
  unfold sys_pselect6 at waiting
  split_ifs at waiting with negative
  · simp [pure] at waiting
  simp only [Option.bind_eq_bind, Option.bind_eq_some_iff] at waiting
  obtain ⟨⟨handles, vm₁⟩, passed, waiting⟩ := waiting
  cases handles with
  | error => simp at waiting
  | ok handles =>
    simp only [Option.bind_eq_some_iff] at waiting
    obtain ⟨polls, -, waiting⟩ := waiting
    cases polls with
    | error => simp at waiting
    | ok polls =>
      refine ⟨vm₁, ?_⟩
      dsimp only at waiting
      -- every waiting stage carries the handles that passed
      have carried : wait.handles = handles := by
        split at waiting
        · split_ifs at waiting
          · simp at waiting
          · simp only [Option.some.injEq, Prod.mk.injEq, PselectStage.waiting.injEq] at waiting
            rw [← waiting.1]
        · simp only [Option.some.injEq, Prod.mk.injEq, PselectStage.waiting.injEq] at waiting
          rw [← waiting.1]
      rw [carried]
      exact passed

/-- Past `FD_SET_SIZE`, with a read or a write set, `sys_pselect6` only returns errors. -/
theorem sys_pselect6_past_fd_set_size {stage : PselectStage} (past : (FD_SET_SIZE : ℤ) < nfds)
    (asked : readfds_ptr ≠ 0 ∨ writefds_ptr ≠ 0)
    (ran : sys_pselect6 lazy vm fdTable task mem timeoutVal sigmaskVal cur nfds readfds_ptr
      writefds_ptr exceptfds_ptr timeout_ptr sigmask_ptr = some (stage, task', vm')) :
    ∃ error, stage = .returned (.error error) := by
  unfold sys_pselect6 at ran
  rw [if_neg (by omega)] at ran
  simp only [Option.bind_eq_bind, Option.bind_eq_some_iff] at ran
  obtain ⟨⟨handles, vm₁⟩, passed, ran⟩ := ran
  cases handles with
  | error error =>
    cases ran
    exact ⟨error, rfl⟩
  | ok handles =>
    obtain ⟨readR, -, writeR, -⟩ := pselectHandles_ok passed
    have member : FD_SET_SIZE ∈ List.range nfds.toNat := List.mem_range.mpr (by omega)
    have set : handles.readfds_r.isSome ∨ handles.writefds_r.isSome := by
      rw [readR, writeR]
      rcases asked with reading | writing
      · exact .inl (by simp [reading])
      · exact .inr (by simp [writing])
    simp only [Option.bind_eq_some_iff] at ran
    obtain ⟨polls, looped, ran⟩ := ran
    cases polls with
    | error error =>
      cases ran
      exact ⟨error, rfl⟩
    | ok polls =>
      exact absurd looped (pselectPolls_past_fd_set_size member le_rfl set polls)

/-- With its pointers passed and its loop done, a `sys_pselect6` with a mask and an invalid
timeout returns `EINVAL` with the mask installed: the one at entry with the caller's added. -/
theorem sys_pselect6_invalid_timeout_keeps_mask {handles : PselectHandles} {vm₁ : UserVmSpace}
    {polls : List (ℕ × PollEvents × ℕ)} (counted : 0 ≤ nfds)
    (passed : (pselectHandles lazy readfds_ptr writefds_ptr exceptfds_ptr timeout_ptr
      sigmask_ptr).run vm = some (.ok handles, vm₁))
    (looped : pselectPolls mem fdTable handles.readfds_r handles.writefds_r
      (List.range nfds.toNat) = some (.ok polls))
    (timed : timeout_ptr ≠ 0) (masked : sigmask_ptr ≠ 0) (invalid : timeoutVal.isValid = false) :
    ∃ task', sys_pselect6 lazy vm fdTable task mem timeoutVal sigmaskVal cur nfds readfds_ptr
        writefds_ptr exceptfds_ptr timeout_ptr sigmask_ptr =
          some (.returned (.error .EINVAL), task', vm₁) ∧
      task'.sig_manager.blocked_sigs = task.sig_manager.blocked_sigs ||| sigmaskVal := by
  obtain ⟨-, -, -, -, -, timeout, newMask⟩ := pselectHandles_ok passed
  rw [if_neg timed] at timeout
  rw [if_neg masked] at newMask
  refine ⟨Tcb.set_wake_up_sigs
      { task.setBlocked (task.sig_manager.blocked_sigs ||| sigmaskVal) with
        task_status := .Interruptable } (~~~(task.sig_manager.blocked_sigs ||| sigmaskVal)), ?_, rfl⟩
  unfold sys_pselect6
  rw [if_neg (by omega)]
  simp [passed, looped, timeout, newMask, invalid]
  rfl

end Entry

section Resume

variable {task task' : Tcb} {mem mem' : ℕ → FdSet} {wait : PselectWait}
  {poll : ℕ → PollEvents → PollEvents} {now : ℕ}

theorem clearAt_of_ne {handle : Option ℕ} {ptr : ℕ} (other : handle ≠ some ptr) :
    clearAt mem handle ptr = mem ptr := by
  cases handle with
  | none => rfl
  | some at_ => exact Function.update_of_ne (fun same => other (by rw [same])) _ _

theorem markAt_of_ne {handle : Option ℕ} {ptr fd : ℕ} (other : handle ≠ some ptr)
    (marked : markAt mem handle fd = some mem') : mem' ptr = mem ptr := by
  cases handle with
  | none => cases marked; rfl
  | some at_ =>
    obtain ⟨set, -, rfl⟩ := Option.map_eq_some_iff.mp marked
    exact Function.update_of_ne (fun same => other (by rw [same])) _ _

/-- A mark made where the report asks for it writes only through its handle. -/
theorem markIf_of_ne {handle : Option ℕ} {ptr fd res res₁ : ℕ} {mem₁ : ℕ → FdSet} {ready : Bool}
    (other : handle ≠ some ptr) (marked : markIf ready mem handle fd res = some (mem₁, res₁)) :
    mem₁ ptr = mem ptr := by
  unfold markIf at marked
  cases ready
  · cases marked
    rfl
  · obtain ⟨_, markedAt, finished⟩ := Option.map_eq_some_iff.mp marked
    cases finished
    exact markAt_of_ne other markedAt

/-- The marking loop writes only through the read and the write handle. -/
theorem pselectMark_of_ne {handles : PselectHandles} {ptr : ℕ}
    (notRead : handles.readfds_w ≠ some ptr) (notWrite : handles.writefds_w ≠ some ptr) :
    ∀ {ret : List (ℕ × PollEvents)} {mem mem' : ℕ → FdSet} {res res' : ℕ},
      pselectMark handles ret mem res = some (mem', res') → mem' ptr = mem ptr := by
  intro ret
  -- induction on the ready descriptors, one read mark and one write mark each
  induction ret with
  | nil =>
    intro mem mem' res res' marked
    cases marked
    rfl
  | cons head rest ih =>
    intro mem mem' res res' marked
    obtain ⟨fd, events⟩ := head
    rw [pselectMark] at marked
    obtain ⟨⟨mem₁, res₁⟩, read, marked⟩ := Option.bind_eq_some_iff.mp marked
    obtain ⟨⟨mem₂, res₂⟩, write, marked⟩ := Option.bind_eq_some_iff.mp marked
    rw [ih marked, markIf_of_ne notWrite write, markIf_of_ne notRead read]

/-- After its `await`, `sys_pselect6` writes the user's memory only through its three handles. -/
theorem pselect6_resume_of_ne {stage : PselectStage} {ptr : ℕ}
    (notRead : wait.handles.readfds_w ≠ some ptr) (notWrite : wait.handles.writefds_w ≠ some ptr)
    (notExcept : wait.handles.exceptfds_w ≠ some ptr)
    (resumed : pselect6_resume task mem wait poll now = some (stage, task', mem')) :
    mem' ptr = mem ptr := by
  have cleared : clearHandles wait.handles mem ptr = mem ptr := by
    rw [clearHandles, clearAt_of_ne notExcept, clearAt_of_ne notWrite, clearAt_of_ne notRead]
  unfold pselect6_resume at resumed
  split at resumed
  · cases resumed
    rfl
  · cases resumed
    rfl
  · cases resumed
    exact cleared
  · obtain ⟨⟨marked, res⟩, ran, finished⟩ := Option.map_eq_some_iff.mp resumed
    simp only [Prod.mk.injEq] at finished
    rw [← finished.2.2, pselectMark_of_ne notRead notWrite ran, cleared]

/-- Every return of `sys_pselect6` after its `await` but `EINTR` makes the task running and puts
its mask back; `EINTR` leaves the task as the race found it, with the temporary mask. -/
theorem pselect6_resume_mask {result : Except SysError ℕ}
    (resumed : pselect6_resume task mem wait poll now = some (.returned result, task', mem')) :
    (result = .error .EINTR ∧ task' = task) ∨
      (task'.sig_manager.blocked_sigs = (task.restoreMask wait.prev_mask).sig_manager.blocked_sigs ∧
        task'.task_status = .Running) := by
  unfold pselect6_resume at resumed
  split at resumed
  · cases resumed
  · cases resumed
    exact .inl ⟨rfl, rfl⟩
  · cases resumed
    right
    cases wait.prev_mask <;> exact ⟨rfl, rfl⟩
  · obtain ⟨⟨marked, res⟩, -, finished⟩ := Option.map_eq_some_iff.mp resumed
    cases finished
    right
    cases wait.prev_mask <;> exact ⟨rfl, rfl⟩

end Resume

/-- `FdSet::is_set` panics from descriptor `FD_SET_SIZE` on; with a read or a write set and
`nfds` past `FD_SET_SIZE`, `sys_pselect6` returns nothing but errors, as its loop panics where it
does not stop earlier; and the except handle is `writefds_ptr`, so that no run of the call writes
the except set at an address the other two sets do not share. -/
theorem sys_pselect6_overruns_and_misdirects :
    (∀ (s : FdSet) fd, s.is_set fd = none ↔ FD_SET_SIZE ≤ fd) ∧
      (∀ lazy vm fdTable task mem timeoutVal sigmaskVal cur nfds readfds_ptr writefds_ptr
          exceptfds_ptr timeout_ptr sigmask_ptr stage task' vm',
        (FD_SET_SIZE : ℤ) < nfds → readfds_ptr ≠ 0 ∨ writefds_ptr ≠ 0 →
        sys_pselect6 lazy vm fdTable task mem timeoutVal sigmaskVal cur nfds readfds_ptr
            writefds_ptr exceptfds_ptr timeout_ptr sigmask_ptr = some (stage, task', vm') →
          ∃ error, stage = .returned (.error error)) ∧
      (∀ lazy vm fdTable task mem timeoutVal sigmaskVal cur nfds readfds_ptr writefds_ptr
          exceptfds_ptr timeout_ptr sigmask_ptr wait task' vm',
        sys_pselect6 lazy vm fdTable task mem timeoutVal sigmaskVal cur nfds readfds_ptr
            writefds_ptr exceptfds_ptr timeout_ptr sigmask_ptr = some (.waiting wait, task', vm') →
          wait.handles.exceptfds_w = (if exceptfds_ptr = 0 then none else some writefds_ptr) ∧
          ∀ woken poll now stage task'' mem', exceptfds_ptr ≠ readfds_ptr →
            exceptfds_ptr ≠ writefds_ptr →
            pselect6_resume woken mem wait poll now = some (stage, task'', mem') →
              mem' exceptfds_ptr = mem exceptfds_ptr) := by
  refine ⟨FdSet.is_set_eq_none_iff, fun _ _ _ _ _ _ _ _ _ _ _ _ _ _ _ _ _ past asked ran =>
    sys_pselect6_past_fd_set_size past asked ran, ?_⟩
  intro _ _ _ _ mem _ _ _ _ readfds_ptr writefds_ptr exceptfds_ptr _ _ wait _ _ waiting
  obtain ⟨_, passed⟩ := sys_pselect6_waiting waiting
  obtain ⟨-, readW, -, writeW, exceptW, -, -⟩ := pselectHandles_ok passed
  refine ⟨exceptW, fun _ _ _ _ _ _ notRead notWrite resumed => ?_⟩
  -- the three handles are the read, the write and again the write pointer
  have handle (tested ptr : ℕ) (distinct : exceptfds_ptr ≠ ptr) :
      (if tested = 0 then none else some ptr) ≠ some exceptfds_ptr := by
    split_ifs <;> simp [Ne.symm distinct]
  exact pselect6_resume_of_ne (readW ▸ handle _ _ notRead) (writeW ▸ handle _ _ notWrite)
    (exceptW ▸ handle _ _ notWrite) resumed

/-- The set holding descriptor `0` alone. -/
def fd0Set : FdSet := ⟨(Vector.replicate FD_SET_LEN 0).set 0 1 (by decide)⟩

/-- User memory with descriptor `0` in the sets at `0x10000` and `0x10100`, and empty sets
elsewhere. -/
def selectMem (ptr : ℕ) : FdSet :=
  if ptr = 0x10000 ∨ ptr = 0x10100 then fd0Set else ⟨Vector.replicate FD_SET_LEN 0⟩

/-- On `faultedSpace`, with the three standard descriptors open: `nfds = 1025` with an empty read
set at `0x10000` panics, and with a read set at the unmapped address `1` fails with `EFAULT`.
`nfds = 1` with the read, write and except sets at `0x10000`, `0x10080` and `0x10100`, all asking
for descriptor `0`, waits with the except handle at `0x10080`; once the file reports input the
call returns `1`, and the except set still holds descriptor `0`. -/
theorem sys_pselect6_overruns_and_misdirects_faultedSpace :
    (sys_pselect6 LazyFault.passEveryFault faultedSpace (FdTable.new 7) Tcb.usr1Task
      (fun _ => ⟨Vector.replicate FD_SET_LEN 0⟩) ⟨0, 0⟩ .empty 0 1025 0x10000 0 0 0 0).isNone ∧
      (∃ error task' vm', sys_pselect6 LazyFault.passEveryFault faultedSpace (FdTable.new 7)
        Tcb.usr1Task selectMem ⟨0, 0⟩ .empty 0 1025 0x1 0 0 0 0 =
          some (.returned (.error error), task', vm')) ∧
      ∃ wait task' vm' task'' mem', sys_pselect6 LazyFault.passEveryFault faultedSpace
          (FdTable.new 7) Tcb.usr1Task selectMem ⟨0, 0⟩ .empty 0 1 0x10000 0x10080 0x10100 0 0 =
            some (.waiting wait, task', vm') ∧
        wait.handles.exceptfds_w = some 0x10080 ∧
        pselect6_resume task' selectMem wait (fun _ _ => .IN) 0 =
          some (.returned (.ok 1), task'', mem') ∧
        mem' 0x10100 = selectMem 0x10100 ∧ (selectMem 0x10100).is_set 0 = some true := by
  have panics : (sys_pselect6 LazyFault.passEveryFault faultedSpace (FdTable.new 7) Tcb.usr1Task
      (fun _ => ⟨Vector.replicate FD_SET_LEN 0⟩) ⟨0, 0⟩ .empty 0 1025 0x10000 0 0 0 0).isNone := by
    decide +kernel
  have faulted : (sys_pselect6 LazyFault.passEveryFault faultedSpace (FdTable.new 7) Tcb.usr1Task
      selectMem ⟨0, 0⟩ .empty 0 1025 0x1 0 0 0 0).map (·.1) = some (.returned (.error .EFAULT)) := by
    decide +kernel
  obtain ⟨⟨stage, task', vm'⟩, failed, rfl⟩ := Option.map_eq_some_iff.mp faulted
  obtain ⟨error, returned⟩ := sys_pselect6_overruns_and_misdirects.2.1 _ _ _ _ _ _ _ _ _ _ _ _ _ _ _
    _ _ (by decide) (.inl (by decide)) failed
  have served : ((sys_pselect6 LazyFault.passEveryFault faultedSpace (FdTable.new 7) Tcb.usr1Task
      selectMem ⟨0, 0⟩ .empty 0 1 0x10000 0x10080 0x10100 0 0).bind fun entered =>
        match entered.1 with
        | .waiting wait => (pselect6_resume entered.2.1 selectMem wait (fun _ _ => .IN) 0).map
            fun resumed => (resumed.1, resumed.2.2 0x10100)
        | .returned _ => none) = some (.returned (.ok 1), fd0Set) := by
    decide +kernel
  obtain ⟨⟨stage, task'', vm''⟩, entered, served⟩ := Option.bind_eq_some_iff.mp served
  cases stage with
  | returned => simp at served
  | waiting wait =>
    obtain ⟨⟨resumedStage, task₃, mem'⟩, resumed, finished⟩ := Option.map_eq_some_iff.mp served
    simp only [Prod.mk.injEq] at finished
    obtain ⟨rfl, -⟩ := finished
    obtain ⟨exceptW, untouched⟩ := sys_pselect6_overruns_and_misdirects.2.2 _ _ _ _ _ _ _ _ _ _ _ _
      _ _ _ _ _ entered
    exact ⟨panics, ⟨error, task', vm', returned ▸ failed⟩, wait, task'', vm'', task₃, mem', entered,
      by rw [exceptW]; rfl, resumed,
      untouched _ _ _ _ _ _ (by decide) (by decide) resumed, by decide⟩

end Chronix
