import Mathlib
import Chronix.Model.Task
import Chronix.Model.SysError

/-! # The process and signal system calls

`syscall/process.rs` and `syscall/signal.rs`: `clone`, `fork`, `exit`, `exit_group`, `waitpid`,
`setpgid`, `getpgid`, `kill`, `tkill` and `tgkill`, each on the task system and the calling task.
A call's result is `none` where the kernel panics, and otherwise the system after the call with
the call's `SysResult`.

`sys_waitpid` is an `async fn` that suspends until a signal wakes the caller. The model splits it
at its `suspend_now().await`: `sys_waitpid` runs up to the first suspension and reports
`blocked`, with the caller interruptible and waiting for `SIGCHLD` and every unblocked signal;
`waitpid_resume` is one wake-up of its loop. A run may take a wake-up at any time, which
includes every schedule the kernel can take.

`check_and_handle` is modelled up to its `assert!`: `dequeueToHandle` is the dequeue at the top of
its loop and the assert on the signal number. What it then does with the signal (a user frame or
a kernel default action) is left out.
-/

namespace Chronix

namespace TaskSystem

variable (s : TaskSystem)

/-- `INITPROC` as `TaskControlBlock::new` builds it: the first allocation and the first tid, a
leader, ready, with default signal actions; `trap` is what its ELF image gives. -/
def initTask (trap : TrapRegs) : Tcb where
  serial := 0
  tid := INITPROC_PID
  leader := none
  is_leader := true
  task_status := .Ready
  exit_code := 0
  cells := 0
  sig_manager := SigManager.new
  vm_space := 1
  fd_table := 2
  trap_context := trap
  tid_address := ⟨none, none⟩

/-- The system after `task::init`: the init process alone in its thread group, in
`TASK_MANAGER` and in its process group; `mem` and `fdTable` are its address space and its
`FdTable::new`. -/
def init (trap : TrapRegs) (mem : UserMem) (fdTable : FdTable) : TaskSystem :=
  let initproc := initTask trap
  let s : TaskSystem :=
    { task_manager := .empty, process_groups := .empty
      cells := Function.update default 0
        ⟨none, .empty, ThreadGroup.new.push INITPROC_PID 0 false, INITPROC_PID⟩
      vm_spaces := Function.update default 1 mem
      fd_tables := Function.update default 2 fdTable
      tid_allocator := (TidAllocator.new.alloc).2, next_serial := 1, next_cell := 3 }
  (s.putTask initproc).add_group initproc

/-- A write of a `u32` through `UserPtrRaw::ensure_write` into an address space; `none` where
`ensure_write` refuses the address. -/
def writeUser (vm addr value : ℕ) : Option TaskSystem :=
  ((s.vm_spaces vm).write? addr value).map fun mem =>
    { s with vm_spaces := Function.update s.vm_spaces vm mem }

/-- A write of `writeUser` made only when `cond` holds. -/
def writeUserIf (cond : Bool) (vm addr value : ℕ) : Option TaskSystem :=
  if cond then s.writeUser vm addr value else some s

/-- An update of `modifyTask` made only when `cond` holds. -/
def modifyTaskIf (cond : Bool) (tid : ℕ) (f : Tcb → Tcb) : TaskSystem :=
  if cond then s.modifyTask tid f else s

end TaskSystem

namespace Tcb

/-- `set_ret_nth(0, value)`. -/
def setReturn (t : Tcb) (value : ℕ) : Tcb := { t with trap_context := { t.trap_context with a0 := value } }

/-- `*sp() = value`. -/
def setSp (t : Tcb) (value : ℕ) : Tcb := { t with trap_context := { t.trap_context with sp := value } }

/-- `*tp() = value`. -/
def setTp (t : Tcb) (value : ℕ) : Tcb := { t with trap_context := { t.trap_context with tp := value } }

/-- `tid_address().set_child_tid = Some(addr)`. -/
def setChildTid (t : Tcb) (addr : ℕ) : Tcb :=
  { t with tid_address := { t.tid_address with set_child_tid := some addr } }

/-- `tid_address().clear_child_tid = Some(addr)`. -/
def setClearChildTid (t : Tcb) (addr : ℕ) : Tcb :=
  { t with tid_address := { t.tid_address with clear_child_tid := some addr } }

end Tcb

namespace TaskSystem

variable (s : TaskSystem)

/-! ## Creating and ending tasks -/

/-- `sys_clone` (riscv64 argument order): the flags word less its low byte must be a set of clone
flags; the child returns 0 and the caller the child's tid. The `PARENT_SETTID` and
`CHILD_SETTID` writes go to the caller's address space and fail with `EINVAL` after the child is
created. -/
def sys_clone (tid flags stack parent_tid tls child_tid : ℕ) :
    Option (TaskSystem × Except SysError ℕ) :=
  match CloneFlags.from_bits (flags &&& usizeNot 0xff) with
  | none => some (s, .error .EINVAL)
  | some flags => do
    let (s, newTask) ← s.fork tid flags
    let task ← s.get_task tid
    let newTid := newTask.tid
    let s := s.modifyTask newTid (·.setReturn 0)
    let s := s.modifyTask tid (·.setReturn newTid)
    let s := s.modifyTaskIf (stack ≠ 0) newTid (·.setSp stack)
    match s.writeUserIf (flags.contains CloneFlags.PARENT_SETTID) task.vm_space parent_tid newTid with
    | none => some (s, .error .EINVAL)
    | some s =>
    let s := s.modifyTaskIf (flags.contains CloneFlags.CHILD_SETTID) newTid (·.setChildTid child_tid)
    match s.writeUserIf (flags.contains CloneFlags.CHILD_SETTID) task.vm_space child_tid newTid with
    | none => some (s, .error .EINVAL)
    | some s =>
    let s := s.modifyTaskIf (flags.contains CloneFlags.CHILD_CLEARTID) newTid (·.setClearChildTid child_tid)
    let s := s.modifyTaskIf (flags.contains CloneFlags.SETTLS) newTid (·.setTp tls)
    some (s, .ok newTid)

/-- `sys_fork`: a `fork` with no flags; the child returns 0 and the caller its pid. -/
def sys_fork (tid : ℕ) : Option (TaskSystem × Except SysError ℕ) := do
  let (s, newTask) ← s.fork tid ⟨0⟩
  let s := s.modifyTask newTask.tid (·.setReturn 0)
  some (s, .ok newTask.tid)

/-- The exit code `(exit_code as usize & 0xFF) << 8` of `sys_exit` and `sys_exit_group`. -/
def exitStatus (exit_code : ℤ) : ℕ := (exit_code % 256).toNat * 256

/-- `sys_exit`. -/
def sys_exit (tid : ℕ) (exit_code : ℤ) : Option (TaskSystem × Except SysError ℕ) :=
  (s.do_exit tid (exitStatus exit_code)).map fun s => (s, .ok 0)

/-- `sys_exit_group`. -/
def sys_exit_group (tid : ℕ) (exit_code : ℤ) : Option (TaskSystem × Except SysError ℕ) :=
  (s.do_group_exit tid (exitStatus exit_code)).map fun s => (s, .ok 0)

/-! ## Waiting for children -/

/-- How far a call of `sys_waitpid` got: returned, or suspended waiting for a signal. -/
inductive WaitOutcome
  | returned (result : Except SysError ℕ)
  | blocked

/-- The child `sys_waitpid` reaps: for `pid = -1` the first zombie child with no live thread, for
`pid > 0` the child `pid` when it is such; `ECHILD` for no child `pid`, `EINVAL` for the other
values of `pid`. -/
def waitTarget (task : Tcb) (pid : ℤ) : Except SysError (Option Tcb) :=
  let children := (s.cells task.cells).children
  let exited (child : Tcb) : Bool :=
    child.task_status = .Zombie ∧ (s.cells child.cells).thread_group.alive = 0
  if pid = -1 then
    .ok ((children.entries.filterMap fun entry => s.upgrade entry.2).find? exited)
  else if 0 < pid then
    match children.get? pid.toNat with
    | some serial => .ok ((s.upgrade serial).filter exited)
    | none => .error .ECHILD
  else .error .EINVAL

/-- Give the tids of dropped tasks back to the allocator, in the order they are dropped. -/
def recycleTids (tids : List ℕ) : Option TaskSystem :=
  (tids.foldlM TidAllocator.dealloc s.tid_allocator).map fun tid_allocator => { s with tid_allocator }

/-- The reaping of `sys_waitpid`: the exit code is written to `exit_code_ptr` unless it is 0, every
thread of the child leaves `TASK_MANAGER`, the child leaves its parent's children, and the
caller's process group keeps only the caller. The threads are dropped as the loop passes them and
the child itself last, when the call returns; their tids go back to the allocator. -/
def reap (task res : Tcb) (exit_code_ptr : ℕ) : Option (TaskSystem × Except SysError ℕ) :=
  match (if exit_code_ptr ≠ 0 then s.writeUser task.vm_space exit_code_ptr res.exit_code
      else some s) with
  | none => some (s, .error .EINVAL)
  | some s => do
    let threads := s.threads (s.cells res.cells).thread_group
    let s ← threads.foldlM (fun s thread => s.remove_task thread.tid) s
    let s := s.modifyCells res.cells fun c => { c with thread_group := c.thread_group.clear }
    let s := s.modifyCells task.cells fun c => { c with children := c.children.erase res.tid }
    let s ← s.removeFromGroup task
    let s ← s.recycleTids ((threads.map Tcb.tid).filter (· ≠ res.tid) ++ [res.tid])
    pure (s, .ok res.tid)

/-- The caller of `sys_waitpid` suspends: interruptible, woken by `SIGCHLD` and every signal it
does not block. -/
def suspendForChild (tid : ℕ) : TaskSystem :=
  s.modifyTask tid fun t => { t with
    task_status := .Interruptable
    sig_manager := { t.sig_manager with wake_sigs := ~~~t.sig_manager.blocked_sigs ||| SigSet.SIGCHLD } }

/-- `sys_waitpid` up to its first suspension. -/
def sys_waitpid (tid : ℕ) (pid : ℤ) (exit_code_ptr : ℕ) (option : ℤ) :
    Option (TaskSystem × WaitOutcome) := do
  if option < 0 then return (s, .returned (.error .EINVAL))
  let task ← s.get_task tid
  if (s.cells task.cells).children.entries.isEmpty then return (s, .returned (.error .ECHILD))
  match s.waitTarget task pid with
  | .error e => some (s, .returned (.error e))
  | .ok (some res) => (s.reap task res exit_code_ptr).map fun (s, r) => (s, .returned r)
  | .ok none =>
    if option.toNat &&& 1 = 1 then some (s, .returned (.ok 0))
    else some (s.suspendForChild tid, .blocked)

/-- One wake-up in `sys_waitpid`'s loop: running again, the caller takes a pending `SIGCHLD`; with
none it returns `EINTR`, and with one it reaps a child that has exited or suspends again. -/
def waitpid_resume (tid : ℕ) (pid : ℤ) (exit_code_ptr : ℕ) : Option (TaskSystem × WaitOutcome) := do
  let task ← s.get_task tid
  let (si, manager) := task.sig_manager.dequeue_expected_one SigSet.SIGCHLD
  let task := { task with task_status := .Running, sig_manager := manager }
  let s := s.putTask task
  match si with
  | none => some (s, .returned (.error .EINTR))
  | some _ =>
    match s.waitTarget task pid with
    | .error e => some (s, .returned (.error e))
    | .ok (some res) => (s.reap task res exit_code_ptr).map fun (s, r) => (s, .returned r)
    | .ok none => some (s.suspendForChild tid, .blocked)

/-! ## Process groups -/

/-- `sys_setpgid`: `unwrap`s the task of a nonzero `pid`. -/
def sys_setpgid (tid pid pgid : ℕ) : Option (TaskSystem × Except SysError ℕ) := do
  let task ← if pid = 0 then s.get_task tid else s.get_task pid
  if pgid = 0 then return (s.add_group task, .ok 0)
  if (s.get_group pgid).isSome then
    let s ← s.add_task_to_group pgid task
    return (s, .ok 0)
  return (s.add_group task, .ok 0)

/-- `sys_getpgid`. -/
def sys_getpgid (tid pid : ℕ) : Option (Except SysError ℕ) := do
  if pid = 0 then
    let task ← s.get_task tid
    return .ok (s.pgid task)
  match s.get_task pid with
  | some task => some (.ok (s.pgid task))
  | none => some (.error .ESRCH)

/-! ## Sending signals -/

/-- `sys_kill`: signal 0 sends nothing. `pid = 0` sends to the leaders of the caller's group,
`unwrap`ping every `Weak` of it; `pid = -1` to every leader but the init process; `pid < -1` to
the member of the caller's group whose tid is `-pid`; `pid > 0` to the leader `pid`. -/
def sys_kill (tid : ℕ) (pid signo : ℤ) : Option (TaskSystem × Except SysError ℕ) := do
  if signo = 0 then return (s, .ok 0)
  if signo < 0 ∨ SIGRTMAX ≤ signo.toNat then return (s, .error .EINVAL)
  let cur ← s.get_task tid
  let pgid := s.pgid cur
  let curPid ← s.pid cur
  let sig : SigInfo := ⟨signo.toNat, SigInfo.USER, some curPid⟩
  if pid = 0 then
    let group ← s.get_group pgid
    let s ← group.foldlM (fun s weak => do
        let process ← s.upgrade weak
        if process.is_leader then s.recv_sigs_process_level process sig else pure s) s
    return (s, .ok 0)
  if pid = -1 then
    let s ← s.task_manager.entries.foldlM (fun s entry =>
        if entry.2.tid = INITPROC_PID then pure s
        else if signo ≠ 0 ∧ entry.2.is_leader then s.recv_sigs_process_level entry.2 sig
        else pure s) s
    return (s, .ok 0)
  if pid < -1 then
    match s.get_group pgid with
    | none => return (s, .error .ESRCH)
    | some group =>
      let s ← (group.filterMap s.upgrade).foldlM (fun s task =>
          if task.tid = (-pid).toNat then
            s.recv_sigs_process_level task ⟨signo.toNat, SigInfo.USER, some pgid⟩
          else pure s) s
      return (s, .ok 0)
  match s.get_task pid.toNat with
  | some task =>
    if task.is_leader then
      let s ← s.recv_sigs_process_level task sig
      return (s, .ok 0)
    else return (s, .error .ESRCH)
  | none => return (s, .error .ESRCH)

/-- `sys_tkill`: any signal below `SIGRTMAX`, 0 included, to the thread `tid`. -/
def sys_tkill (tid : ℕ) (target : ℤ) (sig : ℤ) : Option (TaskSystem × Except SysError ℕ) := do
  if sig < 0 ∨ SIGRTMAX ≤ sig.toNat ∨ target < 0 then return (s, .error .EINVAL)
  let cur ← s.get_task tid
  let curPid ← s.pid cur
  match s.get_task target.toNat with
  | none => some (s, .error .ESRCH)
  | some task =>
    let s ← s.recv_sigs task.tid ⟨sig.toNat, SigInfo.TKILL, some curPid⟩
    return (s, .ok 0)

/-- `sys_tgkill`: any signal below `SIGRTMAX`, 0 included, to the thread `target` of the process
`tgid`. -/
def sys_tgkill (tid : ℕ) (tgid target signo : ℤ) : Option (TaskSystem × Except SysError ℕ) := do
  if signo < 0 ∨ SIGRTMAX ≤ signo.toNat ∨ target < 0 then return (s, .error .EINVAL)
  if tgid < 0 ∨ target < 0 then return (s, .error .EINVAL)
  let cur ← s.get_task tid
  let curPid ← s.pid cur
  match s.get_task tgid.toNat with
  | none => some (s, .error .ESRCH)
  | some task =>
    if !task.is_leader then return (s, .error .ESRCH)
    match (s.threads (s.cells task.cells).thread_group).find? fun thread => thread.tid = target.toNat with
    | some thread =>
      let s ← s.recv_sigs thread.tid ⟨signo.toNat, SigInfo.TKILL, some curPid⟩
      return (s, .ok 0)
    | none => some (s, .error .ESRCH)

/-- The top of `check_and_handle`'s loop: `dequeue_one` on the task's manager, then
`assert!(sig.si_signo != 0)` on the signal it hands out. -/
def dequeueToHandle (tid : ℕ) : Option (TaskSystem × Option SigInfo) := do
  let task ← s.get_task tid
  let (sig, manager) ← task.sig_manager.dequeue_one
  let s := s.putTask { task with sig_manager := manager }
  match sig with
  | some sig => if sig.si_signo ≠ 0 then some (s, some sig) else none
  | none => some (s, none)


/-! ## The process lifecycle -/

/-- The calls that create tasks, end them and reap them. -/
inductive LifecycleCall
  | clone (flags stack parent_tid tls child_tid : ℕ)
  | fork
  | exit (exit_code : ℤ)
  | exit_group (exit_code : ℤ)
  | waitpid (pid : ℤ) (exit_code_ptr : ℕ) (option : ℤ)
  | waitpid_resume (pid : ℤ) (exit_code_ptr : ℕ)

/-- Task `call.1` makes the call `call.2`: the system after it. -/
def lifecycleStep : ℕ × LifecycleCall → Option TaskSystem
  | (tid, .clone flags stack parent_tid tls child_tid) =>
    (s.sys_clone tid flags stack parent_tid tls child_tid).map Prod.fst
  | (tid, .fork) => (s.sys_fork tid).map Prod.fst
  | (tid, .exit exit_code) => (s.sys_exit tid exit_code).map Prod.fst
  | (tid, .exit_group exit_code) => (s.sys_exit_group tid exit_code).map Prod.fst
  | (tid, .waitpid pid exit_code_ptr option) => (s.sys_waitpid tid pid exit_code_ptr option).map Prod.fst
  | (tid, .waitpid_resume pid exit_code_ptr) => (s.waitpid_resume tid pid exit_code_ptr).map Prod.fst

/-- The scheduler runs only tasks that have not exited: a call comes from a task of
`TASK_MANAGER` that is not a zombie. -/
def Runs (call : ℕ × LifecycleCall) : Prop :=
  ∃ task, s.get_task call.1 = some task ∧ task.task_status ≠ .Zombie

end TaskSystem

end Chronix
