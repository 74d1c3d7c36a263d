import Mathlib
import Chronix.Model.SigMask

/-! # Which mask a task has once its handlers have returned

No round of `check_and_handle` but one that pushes a frame changes the blocked mask, and a frame
records the mask blocked when the loop began (`checkAndHandle_frame`). What `sys_rt_sigreturn`
puts back is therefore the mask the system call returned with. `sys_rt_sigsuspend` returns
that way with the old mask only after a suspension (`rt_sigsuspend_resume_restores`). When a
signal it lets through is pending at entry, the `?` returns `EINTR` with the temporary mask in
place, the frame records the temporary mask, and the caller keeps it after `rt_sigreturn`
(`sys_rt_sigsuspend_pending_keeps_mask`).
-/

namespace Chronix

namespace SigManager

variable {m m' : SigManager}

/-- `dequeue_one` leaves the blocked mask alone. -/
theorem dequeue_one_blocked {sig : Option SigInfo} (dequeued : m.dequeue_one = some (sig, m')) :
    m'.blocked_sigs = m.blocked_sigs := by
  unfold dequeue_one at dequeued
  split at dequeued
  · cases dequeued
    rfl
  · simp only [Option.map_eq_some_iff] at dequeued
    obtain ⟨found, -, taken⟩ := dequeued
    cases found with
    | none => cases taken; rfl
    | some entry => cases taken; rfl

/-- A round that pushes no frame leaves the blocked mask alone, and a frame records the mask
blocked before its round. -/
theorem handleRound_blocked {round : HandleRound} (handled : m.handleRound = some (round, m')) :
    (∀ sig uc_sigmask, round = .frame sig uc_sigmask → uc_sigmask = m.blocked_sigs) ∧
      ((∀ sig uc_sigmask, round ≠ .frame sig uc_sigmask) → m'.blocked_sigs = m.blocked_sigs) := by
  unfold handleRound at handled
  cases dequeued : m.dequeue_one with
  | none => simp [dequeued] at handled
  | some result =>
    obtain ⟨found, after⟩ := result
    have kept := dequeue_one_blocked dequeued
    cases found with
    | none =>
      simp only [dequeued, Option.bind_eq_bind, Option.bind_some, Option.some.injEq,
        Prod.mk.injEq] at handled
      obtain ⟨rfl, rfl⟩ := handled
      exact ⟨fun _ _ => nofun, fun _ => kept⟩
    | some sig =>
      by_cases unnumbered : sig.si_signo = 0
      · simp [dequeued, unnumbered] at handled
      cases action : after.sig_handler[sig.si_signo]? with
      | none => simp [dequeued, unnumbered, action] at handled
      | some sig_action =>
        cases user : sig_action.is_user
        · -- a kernel handler: the manager of the dequeue, as it was
          simp only [dequeued, unnumbered, action, user, Option.bind_eq_bind, Option.bind_some,
            if_false, Bool.false_eq_true, Option.some.injEq, Prod.mk.injEq] at handled
          obtain ⟨rfl, rfl⟩ := handled
          exact ⟨fun _ _ => nofun, fun _ => kept⟩
        · -- a user handler: the frame records the mask of the dequeue, which is the one before
          simp only [dequeued, unnumbered, action, user, Option.bind_eq_bind, Option.bind_some,
            if_false, if_true, Option.some.injEq, Prod.mk.injEq] at handled
          obtain ⟨rfl, rfl⟩ := handled
          refine ⟨fun _ _ recorded => ?_, fun noFrame => absurd rfl (noFrame _ _)⟩
          cases recorded
          exact kept

/-- Whatever number of rounds it runs, `check_and_handle` pushes a frame that records the mask
blocked when it began, and without a frame it leaves that mask in place. -/
theorem checkAndHandle_frame {rounds : ℕ} {frame : Option (SigInfo × SigSet)}
    (handled : checkAndHandle rounds m = some (frame, m')) :
    (∀ pushed ∈ frame, pushed.2 = m.blocked_sigs) ∧
      (frame = none → m'.blocked_sigs = m.blocked_sigs) := by
  -- induction on the rounds: a kernel round keeps the mask for the rounds after it
  induction rounds generalizing m with
  | zero =>
    cases handled
    exact ⟨fun _ absent => absurd absent (Option.not_mem_none _), fun _ => rfl⟩
  | succ rounds ih =>
    simp only [checkAndHandle, Option.bind_eq_bind, Option.bind_eq_some_iff] at handled
    obtain ⟨⟨round, after⟩, first, handled⟩ := handled
    cases round with
    | done =>
      cases handled
      exact ⟨fun _ absent => absurd absent (Option.not_mem_none _),
        fun _ => (handleRound_blocked first).2 (fun _ _ => nofun)⟩
    | kernel sig =>
      have kept := (handleRound_blocked first).2 (fun _ _ => nofun)
      rw [← kept]
      exact ih handled
    | frame sig uc_sigmask =>
      cases handled
      refine ⟨fun pushed recorded => ?_, fun absent => nomatch absent⟩
      cases recorded
      exact (handleRound_blocked first).1 sig uc_sigmask rfl

end SigManager

namespace Tcb

variable {task : Tcb} {mask : SigSet}

/-- A suspension keeps the mask it will put back: the one at entry. -/
theorem sys_rt_sigsuspend_suspended {oldmask : SigSet}
    (suspended : (task.sys_rt_sigsuspend mask).2 = .suspended oldmask) :
    oldmask = task.sig_manager.blocked_sigs := by
  dsimp only [sys_rt_sigsuspend] at suspended
  split_ifs at suspended
  cases suspended
  rfl

/-- After a suspension `sys_rt_sigsuspend` returns with the mask at entry, and running. -/
theorem rt_sigsuspend_resume_restores {oldmask : SigSet} (woken : Tcb)
    (suspended : (task.sys_rt_sigsuspend mask).2 = .suspended oldmask) :
    (woken.rt_sigsuspend_resume oldmask).1.sig_manager.blocked_sigs = task.sig_manager.blocked_sigs ∧
      (woken.rt_sigsuspend_resume oldmask).1.task_status = .Running := by
  rw [← sys_rt_sigsuspend_suspended suspended]
  exact ⟨rfl, rfl⟩

/-- A return of `sys_rt_sigsuspend` before its suspension leaves the temporary mask in
`blocked_sigs`, and the frame of every handler the signal delivery then runs records it, so that
`rt_sigreturn` puts it back. -/
theorem sys_rt_sigsuspend_pending_keeps_mask (task : Tcb) (mask : SigSet)
    {result : Except SysError ℕ}
    (returned : (task.sys_rt_sigsuspend mask).2 = .returned result) :
    (task.sys_rt_sigsuspend mask).1.sig_manager.blocked_sigs =
        mask.remove (SigSet.SIGSTOP ||| SigSet.SIGKILL) ∧
      ∀ rounds sig uc_sigmask delivered,
        (task.sys_rt_sigsuspend mask).1.sig_manager.checkAndHandle rounds =
            some (some (sig, uc_sigmask), delivered) →
          ({ (task.sys_rt_sigsuspend mask).1 with sig_manager := delivered }.sys_rt_sigreturn
              uc_sigmask).sig_manager.blocked_sigs =
            mask.remove (SigSet.SIGSTOP ||| SigSet.SIGKILL) := by
  have temporary : (task.sys_rt_sigsuspend mask).1.sig_manager.blocked_sigs =
      mask.remove (SigSet.SIGSTOP ||| SigSet.SIGKILL) := by
    dsimp only [sys_rt_sigsuspend] at returned ⊢
    split_ifs at returned ⊢
    rfl
  refine ⟨temporary, fun rounds sig uc_sigmask delivered handled => ?_⟩
  have recorded := (SigManager.checkAndHandle_frame handled).1 (sig, uc_sigmask) rfl
  rw [← temporary, ← recorded]
  rfl

/-- A task that blocks `SIGUSR1`, handles it in user mode and has it pending. -/
def usr1Task : Tcb where
  serial := 0
  tid := 1
  leader := none
  is_leader := true
  task_status := .Running
  exit_code := 0
  cells := 0
  sig_manager :=
    { ((SigManager.new.set_sigaction SIGUSR1 ⟨⟨.user 0x1000, 0, .empty⟩, true⟩).receive
        ⟨SIGUSR1, SigInfo.USER, none⟩).getD .new with
      blocked_sigs := SigSet.empty.add_sig SIGUSR1 }
  vm_space := 1
  fd_table := 2
  trap_context := ⟨0, 0, 0⟩
  tid_address := ⟨none, none⟩

/-- `rt_sigsuspend` with the empty mask on `usr1Task` returns `EINTR` at once; the handler of
`SIGUSR1` runs with a frame that records the empty mask, and after `rt_sigreturn` the task blocks
nothing, where it blocked `SIGUSR1` before the call. -/
theorem sys_rt_sigsuspend_pending_keeps_mask_usr1Task :
    (usr1Task.sys_rt_sigsuspend .empty).2 = .returned (.error .EINTR) ∧
      usr1Task.sig_manager.blocked_sigs ≠ SigSet.empty.remove (SigSet.SIGSTOP ||| SigSet.SIGKILL) ∧
      (usr1Task.sys_rt_sigsuspend .empty).1.sig_manager.blocked_sigs =
        SigSet.empty.remove (SigSet.SIGSTOP ||| SigSet.SIGKILL) ∧
      ∃ sig uc_sigmask delivered,
        (usr1Task.sys_rt_sigsuspend .empty).1.sig_manager.checkAndHandle 1 =
          some (some (sig, uc_sigmask), delivered) ∧
        ({ (usr1Task.sys_rt_sigsuspend .empty).1 with sig_manager := delivered }.sys_rt_sigreturn
          uc_sigmask).sig_manager.blocked_sigs =
            SigSet.empty.remove (SigSet.SIGSTOP ||| SigSet.SIGKILL) := by
  have returned : (usr1Task.sys_rt_sigsuspend .empty).2 = .returned (.error .EINTR) := by
    decide +kernel
  have changed : usr1Task.sig_manager.blocked_sigs ≠
      SigSet.empty.remove (SigSet.SIGSTOP ||| SigSet.SIGKILL) := by decide +kernel
  have framed : ((usr1Task.sys_rt_sigsuspend .empty).1.sig_manager.checkAndHandle 1).map
      (fun handled => handled.1.isSome) = some true := by decide +kernel
  obtain ⟨⟨frame, delivered⟩, handled, pushed⟩ := Option.map_eq_some_iff.mp framed
  obtain ⟨⟨sig, uc_sigmask⟩, rfl⟩ := Option.isSome_iff_exists.mp pushed
  obtain ⟨temporary, restored⟩ := sys_rt_sigsuspend_pending_keeps_mask usr1Task .empty returned
  exact ⟨returned, changed, temporary, sig, uc_sigmask, delivered, handled,
    restored 1 sig uc_sigmask delivered handled⟩

end Tcb

end Chronix
