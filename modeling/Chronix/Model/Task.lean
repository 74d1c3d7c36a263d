import Mathlib
import Chronix.Model.Signal
import Chronix.Model.FdTable
import Chronix.ToMathlib.SortedMap

/-! # Tasks, thread groups and the two managers

`task/task.rs`, `task/tid.rs`, `task/manager.rs` and `task/signal.rs`. A `TaskControlBlock` is
reached through `Arc`s held by `TASK_MANAGER` and by its parent's children map, and named by
`Weak`s in its thread group, in its children's parent cell and in `PROCESS_GROUP_MANAGER`.

The model keeps the live control blocks in `TASK_MANAGER`, under their tids: the other owners of
a block's `Arc`, the parent's children map and the scheduler, let go of it in the same step as
the manager (a task leaves the scheduler when it becomes a zombie, and `sys_waitpid` takes a
reaped child out of both). Every block carries the serial number of its allocation, and a `Weak`
is that number, so a `Weak` to a reaped task upgrades to nothing even after its tid is handed out
again. A thread shares the parent cell, the children map, the thread group and the pgid cell of
the task that created it, which are those of its leader; a new process gets four new ones. The
model allocates the four together as one `ProcessCells`. An address space and an fd table are
cells of their own, shared or copied under `CLONE_VM` and `CLONE_FILES`.

An `assert!`, an `unwrap` of `None` and a `panic!` are `none`. Timers, the working directory,
the scheduler's wakers and the futex queues are touched by no modelled result and are left out.
-/

namespace Chronix

/-- `INITPROC_PID`. -/
def INITPROC_PID : ℕ := 1

/-- `TaskStatus`. -/
inductive TaskStatus
  | Ready
  | Running
  | Zombie
  | Stopped
  | Interruptable
  | UnInterruptable
deriving DecidableEq, Repr

/-- `TidAllocator`: `recycled` is a stack whose top is its last element. -/
structure TidAllocator where
  current : ℕ
  recycled : List ℕ
deriving DecidableEq, Repr

namespace TidAllocator

def new : TidAllocator := ⟨INITPROC_PID, []⟩

/-- `TidAllocator::alloc`: the last recycled tid, else a fresh one. -/
def alloc (a : TidAllocator) : ℕ × TidAllocator :=
  match a.recycled.getLast? with
  | some tid => (tid, { a with recycled := a.recycled.dropLast })
  | none => (a.current, { a with current := a.current + 1 })

/-- `TidAllocator::dealloc`, with its two asserts. -/
def dealloc (a : TidAllocator) (pid : ℕ) : Option TidAllocator :=
  if pid < a.current ∧ pid ∉ a.recycled then some { a with recycled := a.recycled ++ [pid] }
  else none

end TidAllocator

/-- `TID_ALLOCATOR` with the tids of the `TidHandle`s alive, in the order they were handed
out. -/
structure TidHandles where
  allocator : TidAllocator
  live : List ℕ
deriving DecidableEq, Repr

/-- What happens to `TID_ALLOCATOR`: `tid_alloc()` makes a handle, and a handle's `drop`
deallocates its tid. -/
inductive TidCall
  | alloc
  | drop (tid : ℕ)
deriving DecidableEq, Repr

namespace TidHandles

/-- No handle yet, and `TidAllocator::new()`. -/
def new : TidHandles := ⟨TidAllocator.new, []⟩

/-- One call on the allocator; a failed assert of `dealloc` is `none`. -/
def step (s : TidHandles) : TidCall → Option TidHandles
  | .alloc => some ⟨s.allocator.alloc.2, s.live ++ [s.allocator.alloc.1]⟩
  | .drop tid => (s.allocator.dealloc tid).map fun allocator => ⟨allocator, s.live.erase tid⟩

/-- Each `TidHandle` is dropped once: only the tid of a live handle is given back. -/
def Allowed (s : TidHandles) : TidCall → Prop
  | .alloc => True
  | .drop tid => tid ∈ s.live

end TidHandles

/-- `ThreadGroup`: its members by tid, each a `Weak`. -/
structure ThreadGroup where
  members : SortedMap ℕ ℕ
  alive : ℕ
  group_exiting : Bool
  group_exit_code : ℕ

namespace ThreadGroup

def new : ThreadGroup := ⟨.empty, 0, false, 0⟩

/-- `ThreadGroup::push`: a task that is not a zombie counts as alive. -/
def push (tg : ThreadGroup) (tid serial : ℕ) (zombie : Bool) : ThreadGroup :=
  { tg with
    alive := if !zombie then tg.alive + 1 else tg.alive
    members := tg.members.insert tid serial }

/-- `ThreadGroup::sub_alive`. -/
def sub_alive (tg : ThreadGroup) (val : ℕ) : Option ThreadGroup :=
  if tg.alive < val then none else some { tg with alive := tg.alive - val }

/-- `ThreadGroup::clear`. -/
def clear (tg : ThreadGroup) : ThreadGroup := { tg with alive := 0, members := .empty }

end ThreadGroup

/-- The cells the threads of a process share: `parent` (a `Weak`), `children` (tid to child),
`thread_group` and `pgid`. -/
structure ProcessCells where
  parent : Option ℕ
  children : SortedMap ℕ ℕ
  thread_group : ThreadGroup
  pgid : ℕ

instance : Inhabited ProcessCells := ⟨⟨none, .empty, .new, 0⟩⟩

/-- The registers of a trap context that the modelled calls read or write. -/
structure TrapRegs where
  a0 : ℕ
  sp : ℕ
  tp : ℕ
deriving DecidableEq, Repr

/-- `TidAddress`. -/
structure TidAddress where
  set_child_tid : Option ℕ
  clear_child_tid : Option ℕ
deriving DecidableEq, Repr

/-- A user address space as the modelled calls see it: the 32-bit words that `ensure_write`
accepts, with their values. -/
structure UserMem where
  words : SortedMap ℕ ℕ

instance : Inhabited UserMem := ⟨⟨.empty⟩⟩

/-- `UserPtrRaw::new(addr).ensure_write(vm)` followed by a write of a `u32`. -/
def UserMem.write? (mem : UserMem) (addr value : ℕ) : Option UserMem :=
  if (mem.words.get? addr).isSome then some ⟨mem.words.insert addr (value % 2 ^ 32)⟩ else none

instance : Inhabited FdTable := ⟨⟨[], ⟨0, 0⟩⟩⟩

/-- `TaskControlBlock`. `leader` is the `Weak` to the leader of a thread that is not one;
`cells`, `vm_space` and `fd_table` name shared cells. -/
structure Tcb where
  serial : ℕ
  tid : ℕ
  leader : Option ℕ
  is_leader : Bool
  task_status : TaskStatus
  exit_code : ℕ
  cells : ℕ
  sig_manager : SigManager
  vm_space : ℕ
  fd_table : ℕ
  trap_context : TrapRegs
  tid_address : TidAddress

/-- The whole task system: `TASK_MANAGER`, `PROCESS_GROUP_MANAGER` (each group a list of
`Weak`s), the shared cells, `TID_ALLOCATOR` and the allocation counters. -/
structure TaskSystem where
  task_manager : SortedMap ℕ Tcb
  process_groups : SortedMap ℕ (List ℕ)
  cells : ℕ → ProcessCells
  vm_spaces : ℕ → UserMem
  fd_tables : ℕ → FdTable
  tid_allocator : TidAllocator
  next_serial : ℕ
  next_cell : ℕ

namespace TaskSystem

variable (s : TaskSystem)

/-- `TASK_MANAGER.get_task(tid)`. -/
def get_task (tid : ℕ) : Option Tcb := s.task_manager.get? tid

/-- `Weak::upgrade`: the live task of an allocation. -/
def upgrade (weak : ℕ) : Option Tcb :=
  (s.task_manager.entries.find? fun entry => entry.2.serial = weak).map Prod.snd

/-- Store a task's control block back under its tid. -/
def putTask (task : Tcb) : TaskSystem := { s with task_manager := s.task_manager.insert task.tid task }

/-- Update the task under `tid`, if there is one. -/
def modifyTask (tid : ℕ) (f : Tcb → Tcb) : TaskSystem :=
  { s with task_manager := s.task_manager.modify tid f }

/-- Update a bundle of process cells. -/
def modifyCells (id : ℕ) (f : ProcessCells → ProcessCells) : TaskSystem :=
  { s with cells := Function.update s.cells id (f (s.cells id)) }

/-- `ThreadGroup::iter`: the members that upgrade, in the order of their tids. -/
def threads (tg : ThreadGroup) : List Tcb := tg.members.entries.filterMap fun entry => s.upgrade entry.2

/-- `TaskControlBlock::pid`: the tid of the leader. -/
def pid (task : Tcb) : Option ℕ :=
  if task.is_leader then some task.tid else (task.leader.bind s.upgrade).map Tcb.tid

/-- `TaskControlBlock::get_leader`. -/
def get_leader (task : Tcb) : Option Tcb :=
  if task.is_leader then some task else task.leader.bind s.upgrade

/-- `TaskControlBlock::pgid`. -/
def pgid (task : Tcb) : ℕ := (s.cells task.cells).pgid

/-! ## The two managers -/

/-- `TaskManager::remove_task`: the init process is never removed. -/
def remove_task (tid : ℕ) : Option TaskSystem :=
  if tid = INITPROC_PID then none
  else some { s with task_manager := s.task_manager.erase tid }

/-- `ProcessGroupManager::add_group`: the task leads a group of its own tid, which replaces any
group of that number. -/
def add_group (task : Tcb) : TaskSystem :=
  let s := s.modifyCells task.cells fun cells => { cells with pgid := task.tid }
  { s with process_groups := s.process_groups.insert task.tid [task.serial] }

/-- `ProcessGroupManager::add_task_to_group`: `unwrap`s the group. -/
def add_task_to_group (pgid : ℕ) (task : Tcb) : Option TaskSystem :=
  let s := s.modifyCells task.cells fun cells => { cells with pgid := pgid }
  match s.process_groups.get? pgid with
  | some group => some { s with process_groups := s.process_groups.insert pgid (group ++ [task.serial]) }
  | none => none

/-- `ProcessGroupManager::get_group`. -/
def get_group (pgid : ℕ) : Option (List ℕ) := s.process_groups.get? pgid

/-- `ProcessGroupManager::remove`: the group of the task keeps the `Weak`s that upgrade to the
task itself. -/
def removeFromGroup (task : Tcb) : Option TaskSystem :=
  match s.process_groups.get? (s.pgid task) with
  | some group =>
    some { s with process_groups := s.process_groups.insert (s.pgid task) (group.filter fun weak =>
      (s.upgrade weak).any fun inner => inner.serial = task.serial) }
  | none => none

/-! ## Signal delivery -/

/-- `TaskControlBlock::recv_sigs`: the task's manager receives the signal. Waking the task when
the signal is one it waits for touches only the scheduler. -/
def recv_sigs (tid : ℕ) (sig : SigInfo) : Option TaskSystem :=
  match s.get_task tid with
  | some task => do
    let manager ← task.sig_manager.receive sig
    pure (s.putTask { task with sig_manager := manager })
  | none => some s

/-- `TaskControlBlock::recv_sigs_process_level`: the first thread of the group that does not block
the signal gets it, else the first thread. -/
def recv_sigs_process_level (task : Tcb) (sig : SigInfo) : Option TaskSystem :=
  let threads := s.threads (s.cells task.cells).thread_group
  match threads.find? fun thread => !thread.sig_manager.blocked_sigs.contain_sig sig.si_signo with
  | some thread => s.recv_sigs thread.tid sig
  | none =>
    match threads.head? with
    | some first => s.recv_sigs first.tid sig
    | none => none

/-- `TaskControlBlock::notify_parent`: `SIGCHLD` to the parent, if it is still there. -/
def notify_parent (task : Tcb) : Option TaskSystem :=
  match (s.cells task.cells).parent.bind s.upgrade with
  | some parent => do
    let pid ← s.pid task
    s.recv_sigs_process_level parent ⟨SIGCHLD, SigInfo.CLD_EXITED, some pid⟩
  | none => some s

/-! ## Fork -/

/-- `CloneFlags` (`syscall/process.rs`). -/
structure CloneFlags where
  bits : ℕ
deriving DecidableEq, Repr

namespace CloneFlags

def VM : ℕ := 0x100
def FS : ℕ := 0x200
def FILES : ℕ := 0x400
def SIGHAND : ℕ := 0x800
def PIDFD : ℕ := 0x1000
def PARENT : ℕ := 0x8000
def THREAD : ℕ := 0x10000
def SYSVSEM : ℕ := 0x40000
def SETTLS : ℕ := 0x80000
def PARENT_SETTID : ℕ := 0x100000
def CHILD_CLEARTID : ℕ := 0x200000
def CHILD_SETTID : ℕ := 0x1000000
def DETACHED : ℕ := 0x400000
def UNTRACED : ℕ := 0x800000
def NEWCGROUP : ℕ := 0x2000000
def NEWUTS : ℕ := 0x4000000
def NEWIPC : ℕ := 0x8000000
def NEWUSER : ℕ := 0x10000000
def NEWPID : ℕ := 0x20000000
def NEWNET : ℕ := 0x40000000
/-- `CloneFlags::IO`, under the name Linux gives it. -/
def CLONE_IO : ℕ := 0x80000000
def LEGACY_FLAGS : ℕ := 0xffffffff

/-- `CloneFlags::all()`. -/
def all : ℕ :=
  [VM, FS, FILES, SIGHAND, PIDFD, PARENT, THREAD, SYSVSEM, SETTLS, PARENT_SETTID, CHILD_CLEARTID,
    CHILD_SETTID, DETACHED, UNTRACED, NEWCGROUP, NEWUTS, NEWIPC, NEWUSER, NEWPID, NEWNET, CLONE_IO,
    LEGACY_FLAGS].foldl (· ||| ·) 0

def from_bits (bits : ℕ) : Option CloneFlags :=
  if bits &&& all = bits then some ⟨bits⟩ else none

def contains (flags : CloneFlags) (flag : ℕ) : Bool := flags.bits &&& flag = flag

end CloneFlags

/-- The signal manager of a new task: the caller's actions under `CLONE_SIGHAND`, the defaults
otherwise; nothing pending or blocked either way. -/
def forkSigManager (caller : Tcb) (flag : CloneFlags) : SigManager :=
  if flag.contains CloneFlags.SIGHAND then SigManager.from_another caller.sig_manager
  else SigManager.new

/-- The leader, the leader flag and the cells of a new task: a thread joins the caller's cells; a
process gets new ones, with the caller as parent and the caller's pgid. -/
def forkCells (caller : Tcb) (flag : CloneFlags) : Option (Option ℕ × Bool × ℕ × TaskSystem) :=
  if flag.contains CloneFlags.THREAD then
    (s.get_leader caller).map fun leader => (some leader.serial, false, caller.cells, s)
  else
    some (none, true, s.next_cell,
      { s with
        cells := Function.update s.cells s.next_cell ⟨some caller.serial, .empty, .new, s.pgid caller⟩
        next_cell := s.next_cell + 1 })

/-- The address space of a new task: the caller's under `CLONE_VM`, a copy of it otherwise. -/
def forkVmSpace (caller : Tcb) (flag : CloneFlags) : ℕ × TaskSystem :=
  if flag.contains CloneFlags.VM then (caller.vm_space, s)
  else
    (s.next_cell, { s with
      vm_spaces := Function.update s.vm_spaces s.next_cell (s.vm_spaces caller.vm_space)
      next_cell := s.next_cell + 1 })

/-- The fd table of a new task: the caller's under `CLONE_FILES`, a copy of it otherwise. -/
def forkFdTable (caller : Tcb) (flag : CloneFlags) : ℕ × TaskSystem :=
  if flag.contains CloneFlags.FILES then (caller.fd_table, s)
  else
    (s.next_cell, { s with
      fd_tables := Function.update s.fd_tables s.next_cell (s.fd_tables caller.fd_table)
      next_cell := s.next_cell + 1 })

/-- A new leader joins the process group of its pgid; a new thread joins none. -/
def joinGroup (task : Tcb) : Option TaskSystem :=
  if task.is_leader then s.add_task_to_group (s.pgid task) task else some s

/-- The end of `fork`: a new process joins the caller's children, the new task joins its thread
group and, a leader, the process group of its pgid, and the task joins `TASK_MANAGER`. -/
def registerTask (caller task : Tcb) (flag : CloneFlags) : Option TaskSystem := do
  let s := if !flag.contains CloneFlags.THREAD then
      s.modifyCells caller.cells fun c => { c with children := c.children.insert task.tid task.serial }
    else s
  let s := s.modifyCells task.cells fun c =>
    { c with thread_group := c.thread_group.push task.tid task.serial (task.task_status = .Zombie) }
  let s ← s.joinGroup task
  pure (s.putTask task)

/-- `TaskControlBlock::fork`: the new task and the system that holds it. -/
def fork (tid : ℕ) (flag : CloneFlags) : Option (TaskSystem × Tcb) := do
  let caller ← s.get_task tid
  let (newTid, tid_allocator) := s.tid_allocator.alloc
  let (leader, is_leader, cells, s) ← s.forkCells caller flag
  let (vm_space, s) := s.forkVmSpace caller flag
  let (fd_table, s) := s.forkFdTable caller flag
  let task : Tcb :=
    { serial := s.next_serial, tid := newTid, leader, is_leader
      task_status := caller.task_status, exit_code := 0, cells
      sig_manager := forkSigManager caller flag, vm_space, fd_table
      trap_context := caller.trap_context, tid_address := ⟨none, none⟩ }
  let s := { s with tid_allocator, next_serial := s.next_serial + 1 }
  let s ← s.registerTask caller task flag
  pure (s, task)

/-! ## Exit -/

/-- `TaskControlBlock::mm_release`: a word-aligned `clear_child_tid` gets 0 and is forgotten; the
futex wake-ups and the robust list are left out. -/
def mm_release (task : Tcb) : TaskSystem :=
  match task.tid_address.clear_child_tid with
  | some addr =>
    if addr ≠ 0 ∧ addr % 4 = 0 then
      let s := match (s.vm_spaces task.vm_space).write? addr 0 with
        | some mem => { s with vm_spaces := Function.update s.vm_spaces task.vm_space mem }
        | none => s
      s.modifyTask task.tid fun t => { t with tid_address := { t.tid_address with clear_child_tid := none } }
    else s
  | none => s

/-- The children of an exiting process go to the init process: each zombie child is reported to
it, each child's parent cell names it, and it takes over the children map. -/
def reparentChildren (task : Tcb) : Option TaskSystem := do
  let children := (s.cells task.cells).children
  if children.entries.isEmpty then return s
  let initproc ← s.get_task INITPROC_PID
  let s ← children.entries.foldlM (fun s entry =>
      match s.upgrade entry.2 with
      | some child => do
        let s ← if child.task_status = .Zombie then
            s.recv_sigs_process_level initproc ⟨SIGCHLD, SigInfo.CLD_EXITED, none⟩
          else pure s
        pure (s.modifyCells child.cells fun c => { c with parent := some initproc.serial })
      | none => pure s) s
  let s := s.modifyCells initproc.cells fun c => { c with children := c.children.append children }
  pure (s.modifyCells task.cells fun c => { c with children := .empty })

/-- `TaskControlBlock::do_exit`. -/
def do_exit (tid code : ℕ) : Option TaskSystem := do
  let task ← s.get_task tid
  if task.task_status = .Zombie then return s
  if task.tid = INITPROC_PID then none
  let s := s.modifyTask tid fun t => { t with exit_code := code }
  let tg ← (s.cells task.cells).thread_group.sub_alive 1
  let is_last := tg.alive = 0
  let tg := if tg.alive = 0 ∧ !tg.group_exiting then
      { tg with group_exiting := true, group_exit_code := code }
    else tg
  let s := s.modifyCells task.cells fun c => { c with thread_group := tg }
  let s := s.mm_release ((s.get_task tid).getD task)
  let s := s.modifyTask tid fun t => { t with task_status := .Zombie }
  if is_last then
    let s ← s.reparentChildren task
    let table := s.fd_tables task.fd_table
    let s := { s with fd_tables := Function.update s.fd_tables task.fd_table { table with fd_table := [] } }
    s.notify_parent task
  else pure s

/-- `TaskControlBlock::do_group_exit`: the first thread to call it fixes the exit code and sends
`SIGKILL` to every other live thread. -/
def do_group_exit (tid code : ℕ) : Option TaskSystem := do
  let task ← s.get_task tid
  let tg := (s.cells task.cells).thread_group
  if tg.group_exiting then s.do_exit tid tg.group_exit_code
  else
    let s := s.modifyCells task.cells fun c =>
      { c with thread_group := { c.thread_group with group_exiting := true, group_exit_code := code } }
    let pid ← s.pid task
    let others := (s.threads tg).filter fun thread =>
      !(thread.tid = tid ∨ thread.task_status = .Zombie)
    let s ← others.foldlM (fun s thread => s.recv_sigs thread.tid ⟨SIGKILL, SigInfo.KERNEL, some pid⟩) s
    s.do_exit tid code

end TaskSystem

end Chronix
