import Mathlib
import Chronix.Model.Process
import Chronix.Soundness.Signal

/-! # Signals through the process system calls, and what a clone inherits

Three places where the system calls do something other than what their callers rely on.

`sys_tkill` and `sys_tgkill` accept signal 0. `receive` files it as a standard signal, under the
bit of signal 64, and `dequeue_one` hands it out, where `check_and_handle` asserts it is not 0:
a thread with nothing pending that does not block signal 64 panics the kernel on its next
return to user space (`sysTkill_zero_fails_assert`).

`fork` gives the child `SigManager::new()` (default actions) unless the flags hold
`CLONE_SIGHAND`, and `SigManager::from_another` otherwise, which copies the actions and clears
the blocked mask: a clone never inherits the parent's blocked mask, and a clone without
`CLONE_SIGHAND` never inherits its actions (`sysClone_child_signal_state`).

`sys_setpgid` `unwrap`s the task of a nonzero `pid`, so an unknown `pid` panics the kernel
instead of failing with `ESRCH` (`sysSetpgid_unknown_pid_panics`).
-/

namespace Chronix

namespace TaskSystem

variable {s : TaskSystem}

theorem get_task_putTask (s : TaskSystem) (task : Tcb) (k : ℕ) :
    (s.putTask task).get_task k = if k = task.tid then some task else s.get_task k :=
  SortedMap.get?_insert _ _ _ _

theorem get_task_modifyTask (s : TaskSystem) (tid : ℕ) (f : Tcb → Tcb) (k : ℕ) :
    (s.modifyTask tid f).get_task k = if k = tid then (s.get_task k).map f else s.get_task k :=
  SortedMap.get?_modify _ _ _ _

theorem task_manager_of_writeUser {vm addr value : ℕ} {s' : TaskSystem}
    (written : s.writeUser vm addr value = some s') : s'.task_manager = s.task_manager := by
  unfold writeUser at written
  obtain ⟨mem, -, rfl⟩ := Option.map_eq_some_iff.mp written
  rfl

/-- A delivery to a task in the table goes to its manager's `receive`. -/
theorem recv_sigs_of_receive {tid : ℕ} {task : Tcb} {sig : SigInfo} {m : SigManager}
    (found : s.get_task tid = some task) (received : task.sig_manager.receive sig = some m) :
    s.recv_sigs tid sig = some (s.putTask { task with sig_manager := m }) := by
  simp only [recv_sigs, found, received]
  rfl

/-! ## Signal 0 -/

/-- A `Wf` manager with nothing pending has the bit of signal 0 clear: it is the bit of signal 64,
which no pending standard signal owns. -/
theorem contain_sig_zero_of_idle {m : SigManager} (wf : m.Wf) (idle : m.pending_sigs = []) :
    m.bitmap.contain_sig 0 = false := by
  have sameBit : m.bitmap.contain_sig 0 = m.bitmap.contain_sig SIGRTMAX := by
    simp only [SigSet.contain_sig_eq]
    rfl
  rw [sameBit]
  cases set : m.bitmap.contain_sig SIGRTMAX with
  | false => rfl
  | true =>
    obtain ⟨sig, member, -⟩ := (wf.bitmap SIGRTMAX (by decide) le_rfl).mp set
    simp [idle] at member

/-- Signal 0 passes `receive`'s `signo < SIGRTMIN` test and is queued as a standard signal. -/
theorem receive_zero {m : SigManager} (wf : m.Wf) (idle : m.pending_sigs = []) (sig : SigInfo)
    (zero : sig.si_signo = 0) :
    m.receive sig = some { m with bitmap := m.bitmap.add_sig 0, pending_sigs := [sig] } := by
  have clear := contain_sig_zero_of_idle wf idle
  simp [SigManager.receive, zero, clear, idle, SIGRTMIN]

/-- A queue holding only signal 0, which the thread does not block, makes `dequeue_one` hand it
out. -/
theorem dequeue_one_zero {m : SigManager} {sig : SigInfo} (queued : m.pending_sigs = [sig])
    (zero : sig.si_signo = 0) (unblocked : m.blocked_sigs.contain_sig 0 = false) :
    ∃ m', m.dequeue_one = some (some sig, m') := by
  have first : SigManager.dequeueStandard m.blocked_sigs 1 [sig] = (some sig, []) := by
    simp [SigManager.dequeueStandard, zero, unblocked]
  simp only [SigManager.dequeue_one, queued, List.length_singleton, first]
  exact ⟨_, rfl⟩

/-- `sys_tkill(target, 0)` on a thread with nothing pending that does not block signal 64 succeeds
and queues signal 0, and the next round of `check_and_handle` on that thread fails its
`assert!(sig.si_signo != 0)`. -/
theorem sysTkill_zero_fails_assert (s : TaskSystem) (tid target pid : ℕ) (cur task : Tcb)
    (caller : s.get_task tid = some cur) (callerPid : s.pid cur = some pid)
    (found : s.get_task target = some task) (keyed : task.tid = target)
    (wf : task.sig_manager.Wf) (idle : task.sig_manager.pending_sigs = [])
    (unblocked : task.sig_manager.blocked_sigs.contain_sig 0 = false) :
    ∃ s', s.sys_tkill tid target 0 = some (s', .ok 0) ∧
      (∃ task', s'.get_task target = some task' ∧
        task'.sig_manager.pending_sigs = [⟨0, SigInfo.TKILL, some pid⟩]) ∧
      s'.dequeueToHandle target = none := by
  have received := receive_zero wf idle ⟨0, SigInfo.TKILL, some pid⟩ rfl
  have delivered := recv_sigs_of_receive (s := s) found received
  set task' : Tcb := { task with sig_manager :=
    { task.sig_manager with
      bitmap := task.sig_manager.bitmap.add_sig 0
      pending_sigs := [⟨0, SigInfo.TKILL, some pid⟩] } }
  have stored : (s.putTask task').get_task target = some task' := by
    rw [get_task_putTask, if_pos keyed.symm]
  refine ⟨s.putTask task', ?_, ⟨task', stored, rfl⟩, ?_⟩
  · simp only [sys_tkill, caller, callerPid, Int.toNat_natCast, found,
      Option.bind_eq_bind, Option.bind_some, Int.toNat_zero, keyed, delivered]
    rfl
  · obtain ⟨m', dequeued⟩ := dequeue_one_zero (m := task'.sig_manager) rfl rfl unblocked
    simp only [dequeueToHandle, stored, Option.bind_eq_bind, Option.bind_some, dequeued]
    simp

/-- `tkill(1, 0)` on the init process right after boot. -/
theorem sysTkill_zero_fails_assert_initproc :
    ∃ s', (init ⟨0, 0, 0⟩ default (FdTable.new 0)).sys_tkill 1 1 0 = some (s', .ok 0) ∧
      (∃ task', s'.get_task 1 = some task' ∧
        task'.sig_manager.pending_sigs = [⟨0, SigInfo.TKILL, some 1⟩]) ∧
      s'.dequeueToHandle 1 = none :=
  sysTkill_zero_fails_assert _ 1 1 1 (initTask ⟨0, 0, 0⟩) (initTask ⟨0, 0, 0⟩) rfl rfl rfl rfl
    SigManager.wf_new rfl (SigSet.contain_sig_empty 0)

/-! ## What a clone inherits -/

/-- `fork` hands back the task it built, with the signal manager `forkSigManager` gives it, and
the system `registerTask` leaves. -/
theorem fork_eq {tid : ℕ} {flag : CloneFlags} {s1 : TaskSystem} {task : Tcb}
    (forked : s.fork tid flag = some (s1, task)) :
    ∃ (caller : Tcb) (s0 : TaskSystem), s.get_task tid = some caller ∧
      task.sig_manager = forkSigManager caller flag ∧ s0.registerTask caller task flag = some s1 := by
  unfold fork at forked
  simp only [Option.bind_eq_bind, Option.bind_eq_some_iff, Option.pure_def, Option.some.injEq,
    Prod.mk.injEq] at forked
  obtain ⟨caller, current, ⟨leader, is_leader, cells, s'⟩, -, s2, registered, rfl, rfl⟩ := forked
  exact ⟨caller, _, current, rfl, registered⟩

/-- The task `registerTask` registers is in `TASK_MANAGER` under its tid. -/
theorem get_task_of_registerTask {caller task : Tcb} {flag : CloneFlags} {s1 : TaskSystem}
    (registered : s.registerTask caller task flag = some s1) : s1.get_task task.tid = some task := by
  unfold registerTask at registered
  simp only [Option.bind_eq_bind, Option.bind_eq_some_iff, Option.pure_def, Option.some.injEq]
    at registered
  obtain ⟨s2, -, rfl⟩ := registered
  rw [get_task_putTask, if_pos rfl]

theorem sig_manager_modifyTask {f : Tcb → Tcb} (keeps : ∀ t, (f t).sig_manager = t.sig_manager)
    (tid k : ℕ) :
    ((s.modifyTask tid f).get_task k).map Tcb.sig_manager = (s.get_task k).map Tcb.sig_manager := by
  rw [get_task_modifyTask]
  split_ifs
  · rw [Option.map_map]
    exact Option.map_congr fun t _ => keeps t
  · rfl

theorem sig_manager_modifyTaskIf {f : Tcb → Tcb} (keeps : ∀ t, (f t).sig_manager = t.sig_manager)
    (cond : Bool) (tid k : ℕ) :
    ((s.modifyTaskIf cond tid f).get_task k).map Tcb.sig_manager =
      (s.get_task k).map Tcb.sig_manager := by
  unfold modifyTaskIf
  split_ifs
  · exact sig_manager_modifyTask keeps tid k
  · rfl

theorem get_task_of_writeUserIf {cond : Bool} {vm addr value : ℕ} {s' : TaskSystem}
    (written : s.writeUserIf cond vm addr value = some s') (k : ℕ) :
    s'.get_task k = s.get_task k := by
  unfold writeUserIf at written
  split_ifs at written
  · rw [get_task, get_task, task_manager_of_writeUser written]
  · cases written
    rfl

/-- Only `CLONE_SIGHAND` lets a child of `sys_clone` keep the caller's actions, and no child keeps
the caller's blocked mask or pending signals. -/
theorem sysClone_child_signal_state (s : TaskSystem) (tid flags stack parent_tid tls child_tid : ℕ)
    (caller : Tcb) (current : s.get_task tid = some caller) (s' : TaskSystem) (newTid : ℕ)
    (cloned : s.sys_clone tid flags stack parent_tid tls child_tid = some (s', .ok newTid)) :
    ∃ child, s'.get_task newTid = some child ∧ child.sig_manager.pending_sigs = [] ∧
      child.sig_manager.blocked_sigs = SigSet.empty ∧
      child.sig_manager.sig_handler =
        if flags &&& CloneFlags.SIGHAND = CloneFlags.SIGHAND then caller.sig_manager.sig_handler
        else SigManager.new.sig_handler := by
  unfold sys_clone at cloned
  split at cloned
  · cases cloned
  rename_i cflags parsed
  simp only [Option.bind_eq_bind, Option.bind_eq_some_iff] at cloned
  obtain ⟨⟨s1, task⟩, forked, parent, -, cloned⟩ := cloned
  dsimp only at cloned
  split at cloned
  · cases cloned
  rename_i s2 wroteParent
  split at cloned
  · cases cloned
  rename_i s3 wroteChild
  simp only [Option.some.injEq, Prod.mk.injEq, Except.ok.injEq] at cloned
  obtain ⟨rfl, rfl⟩ := cloned
  obtain ⟨caller', s0, current', forkedManager, registered⟩ := fork_eq forked
  rw [current, Option.some.injEq] at current'
  subst current'
  -- the steps after `fork` touch registers, tid addresses and memory, never a signal manager
  have kept : (((s3.modifyTaskIf (cflags.contains CloneFlags.CHILD_CLEARTID) task.tid
      fun t => t.setClearChildTid child_tid).modifyTaskIf (cflags.contains CloneFlags.SETTLS)
      task.tid fun t => t.setTp tls).get_task task.tid).map Tcb.sig_manager =
      some task.sig_manager := by
    rw [sig_manager_modifyTaskIf _, sig_manager_modifyTaskIf _, get_task_of_writeUserIf wroteChild,
      sig_manager_modifyTaskIf _, get_task_of_writeUserIf wroteParent, sig_manager_modifyTaskIf _,
      sig_manager_modifyTask _, sig_manager_modifyTask _, get_task_of_registerTask registered,
      Option.map_some]
    all_goals exact fun _ => rfl
  obtain ⟨child, found, sameManager⟩ := Option.map_eq_some_iff.mp kept
  have sighand : cflags.contains CloneFlags.SIGHAND =
      decide (flags &&& CloneFlags.SIGHAND = CloneFlags.SIGHAND) := by
    unfold CloneFlags.from_bits at parsed
    split_ifs at parsed
    cases parsed
    have masked : usizeNot 0xff &&& CloneFlags.SIGHAND = CloneFlags.SIGHAND := by decide
    simp only [CloneFlags.contains, Nat.land_assoc, masked]
  refine ⟨child, found, ?_, ?_, ?_⟩ <;>
    simp only [sameManager, forkedManager, forkSigManager, sighand, decide_eq_true_eq] <;>
    split_ifs <;> rfl

/-- The init process after it has installed a user handler at `0x1000` for `SIGUSR1` and blocked
`SIGUSR1`. -/
def usr1HandledInit : TaskSystem :=
  (init ⟨0, 0, 0⟩ default (FdTable.new 0)).modifyTask 1 fun t =>
    { t with sig_manager := { t.sig_manager with
        blocked_sigs := SigSet.empty.add_sig SIGUSR1
        sig_handler := t.sig_manager.sig_handler.set SIGUSR1
          ⟨⟨.user 0x1000, 0, SigSet.empty⟩, true⟩ (by decide) } }

/-- A plain `fork` flags word (`SIGCHLD`) from that init process: its child neither blocks
`SIGUSR1` nor keeps the handler. -/
theorem sysClone_child_signal_state_usr1Handled :
    ∃ caller s' child, usr1HandledInit.get_task 1 = some caller ∧
      usr1HandledInit.sys_clone 1 17 0 0 0 0 = some (s', .ok 2) ∧ s'.get_task 2 = some child ∧
      child.sig_manager.blocked_sigs ≠ caller.sig_manager.blocked_sigs ∧
      child.sig_manager.sig_handler ≠ caller.sig_manager.sig_handler := by
  obtain ⟨caller, current⟩ : ∃ caller, usr1HandledInit.get_task 1 = some caller := ⟨_, rfl⟩
  obtain ⟨s', cloned⟩ : ∃ s', usr1HandledInit.sys_clone 1 17 0 0 0 0 = some (s', .ok 2) :=
    ⟨_, rfl⟩
  obtain ⟨child, found, -, blocked, actions⟩ :=
    sysClone_child_signal_state _ 1 17 0 0 0 0 caller current s' 2 cloned
  have plain : ¬17 &&& CloneFlags.SIGHAND = CloneFlags.SIGHAND := by decide
  rw [if_neg plain] at actions
  -- the caller's mask and actions are the ones it set up
  have callerMask : caller.sig_manager.blocked_sigs = SigSet.empty.add_sig SIGUSR1 := by
    cases current
    rfl
  have callerActions : caller.sig_manager.sig_handler ≠ SigManager.new.sig_handler := by
    cases current
    decide
  refine ⟨caller, s', child, current, cloned, found, ?_, ?_⟩
  · rw [blocked, callerMask]
    decide
  · rw [actions]
    exact callerActions.symm

/-! ## Process groups -/

/-- `sys_setpgid` of a nonzero `pid` that names no task panics the kernel. -/
theorem sysSetpgid_unknown_pid_panics (s : TaskSystem) (tid pid pgid : ℕ) (nonzero : pid ≠ 0)
    (unknown : s.get_task pid = none) : s.sys_setpgid tid pid pgid = none := by
  simp [sys_setpgid, nonzero, unknown]

/-- `setpgid(2, 0)` right after boot, when only the init process exists. -/
theorem sysSetpgid_unknown_pid_panics_initproc :
    (init ⟨0, 0, 0⟩ default (FdTable.new 0)).sys_setpgid 1 2 0 = none :=
  sysSetpgid_unknown_pid_panics _ 1 2 0 (by decide) rfl

end TaskSystem

end Chronix
