import Mathlib
import Chronix.Model.Task
import Chronix.Model.SysError

/-! # The blocked mask across `rt_sigsuspend`, signal delivery and `rt_sigreturn`

`sys_rt_sigsuspend` (`syscall/signal.rs`) puts the caller's mask in `blocked_sigs`, returns
`EINTR` at once when a signal it lets through is already pending, and otherwise suspends; once it
runs again it puts the old mask back. The model splits it at its `suspend_now().await`, as
`sys_waitpid` is split: `sys_rt_sigsuspend` runs up to the suspension and
`rt_sigsuspend_resume` after it.

On its way back to user mode a task runs `check_and_handle` (`task/signal.rs`): it takes the next
signal to handle with `dequeue_one`, runs a kernel handler and goes on, or pushes a frame for a
user handler that records the mask blocked at that moment, blocks the handler's mask and stops.
`sys_rt_sigreturn` puts the recorded mask back. The model follows the mask: where the frame goes
on the user stack, the registers it saves and what the kernel handlers do to the task are left
out. The frame is the signal and the mask it records.
-/

namespace Chronix

namespace SigSet

/-- The flag `SigSet::SIGKILL`. -/
def SIGKILL : SigSet := ⟨sigBit Chronix.SIGKILL⟩

/-- The flag `SigSet::SIGSTOP`. -/
def SIGSTOP : SigSet := ⟨sigBit Chronix.SIGSTOP⟩

end SigSet

/-- `SigActionFlag::SA_NODEFER`. -/
def SA_NODEFER : ℕ := 0x40000000

namespace SigManager

/-- `SigManager::user_define_sets`: the signals whose action is a user handler. -/
def user_define_sets (m : SigManager) : SigSet :=
  (List.finRange (SIGRTMAX + 1)).foldl
    (fun ret i => if (m.sig_handler.get i).is_user then ret.add_sig i else ret) SigSet.empty

end SigManager

namespace Tcb

/-- `set_wake_up_sigs(sigs)`: `SIGKILL` and `SIGSTOP` always wake the task. -/
def set_wake_up_sigs (task : Tcb) (sigs : SigSet) : Tcb :=
  { task with sig_manager := { task.sig_manager with
      wake_sigs := sigs ||| SigSet.SIGKILL ||| SigSet.SIGSTOP } }

/-- The task with `blocked_sigs` set to `mask`. -/
def setBlocked (task : Tcb) (mask : SigSet) : Tcb :=
  { task with sig_manager := { task.sig_manager with blocked_sigs := mask } }

end Tcb

/-- How far `sys_rt_sigsuspend` got: returned, or suspended with the mask to put back. -/
inductive SigsuspendStage
  | returned (result : Except SysError ℕ)
  | suspended (oldmask : SigSet)
deriving DecidableEq, Repr

namespace Tcb

/-- `sys_rt_sigsuspend(mask_ptr)` up to its suspension, for the mask `*mask_ptr`. -/
def sys_rt_sigsuspend (task : Tcb) (mask : SigSet) : Tcb × SigsuspendStage :=
  let mask := mask.remove (SigSet.SIGSTOP ||| SigSet.SIGKILL)
  let oldmask := task.sig_manager.blocked_sigs
  let task := task.setBlocked mask
  let invoke_sigs := task.sig_manager.user_define_sets
  -- the `?` on the pending check returns before the mask is put back
  if task.sig_manager.check_pending_flag (~~~mask ||| invoke_sigs) then
    (task, .returned (.error .EINTR))
  else
    ({ task with
        sig_manager := { task.sig_manager with wake_sigs := ~~~mask ||| invoke_sigs }
        task_status := .Interruptable }, .suspended oldmask)

/-- The rest of `sys_rt_sigsuspend` once the task runs again: the old mask back, the task
running, and `EINTR`. -/
def rt_sigsuspend_resume (task : Tcb) (oldmask : SigSet) : Tcb × Except SysError ℕ :=
  ({ task.setBlocked oldmask with task_status := .Running }, .error .EINTR)

/-- The mask part of `sys_rt_sigreturn`: `blocked_sigs` from the frame's `uc_sigmask`. All 64
bits of a `SigSet` are flags, so `from_bits_truncate` keeps the word. -/
def sys_rt_sigreturn (task : Tcb) (uc_sigmask : SigSet) : Tcb := task.setBlocked uc_sigmask

end Tcb

/-- What one round of `check_and_handle`'s loop did: found nothing to handle, ran the kernel
handler of a signal, or pushed the frame of a user handler. -/
inductive HandleRound
  | done
  | kernel (sig : SigInfo)
  | frame (sig : SigInfo) (uc_sigmask : SigSet)
deriving DecidableEq, Repr

namespace SigManager

/-- One round of `check_and_handle`'s loop on the manager. `none` is a panic: the `assert!` on
the number, or an index past `sig_handler`. A user handler blocks its signal, unless
`SA_NODEFER`, and its `sa_mask`, and the frame records the mask blocked before. -/
def handleRound (m : SigManager) : Option (HandleRound × SigManager) := do
  let (sig, m) ← m.dequeue_one
  match sig with
  | none => some (.done, m)
  | some sig =>
    if sig.si_signo = 0 then none
    else
      let sig_action ← m.sig_handler[sig.si_signo]?
      if sig_action.is_user then
        let old_blocked_sigs := m.blocked_sigs
        let blocked := if sig_action.sa.sa_flags &&& SA_NODEFER ≠ 0 then old_blocked_sigs
          else old_blocked_sigs.add_sig sig.si_signo
        some (.frame sig old_blocked_sigs, { m with blocked_sigs := blocked ||| sig_action.sa.sa_mask })
      else some (.kernel sig, m)

/-- `check_and_handle` on the manager, for at most `rounds` rounds: the frame it pushed, if any,
and the manager after it. -/
def checkAndHandle : ℕ → SigManager → Option (Option (SigInfo × SigSet) × SigManager)
  | 0, m => some (none, m)
  | rounds + 1, m => do
    let (round, m) ← m.handleRound
    match round with
    | .done => some (none, m)
    | .kernel _ => checkAndHandle rounds m
    | .frame sig uc_sigmask => some (some (sig, uc_sigmask), m)

end SigManager

end Chronix
