import Mathlib
import Chronix.Model.UserPtr
import Chronix.Model.FdTable
import Chronix.Model.SigMask
import Chronix.Model.Time

/-! # `pselect6`

`sys_pselect6` (`syscall/io.rs`) checks its user pointers, reads the read and write sets, polls
the files of the descriptors they hold, and writes the sets back with the descriptors found
ready. An `FdSet` is an array of sixteen `usize` words, bit `fd % 64` of word `fd / 64` standing
for descriptor `fd`; an index past the array is a panic, as Rust checks it in a release build too.

The user memory the call reads and writes is a map from an address to the `FdSet` stored there,
so that two handles on one address see each other's writes; the `TimeSpec` and the `SigSet`
the call reads are its parameters. A file is its number in the open-file table, and what its
`poll` reports for the events asked is a parameter of the model. The model splits the call at
its `await`, as `sys_waitpid` is split: `sys_pselect6` runs up to the race of the futures and
`pselect6_resume` after it, given how the race ended.
-/

namespace Chronix

open PageFaultAccessType

/-- `FD_SET_SIZE`. -/
def FD_SET_SIZE : ℕ := 1024

/-- `FD_SET_LEN`: the words of a set, `FD_SET_SIZE / (8 * size_of::<usize>())`. -/
def FD_SET_LEN : ℕ := FD_SET_SIZE / (8 * 8)

/-- `FdSet`. -/
structure FdSet where
  fds_bits : Vector ℕ FD_SET_LEN
deriving DecidableEq, Repr

namespace FdSet

/-- `FdSet::clear`. -/
def clear (_ : FdSet) : FdSet := ⟨Vector.replicate FD_SET_LEN 0⟩

/-- `FdSet::mark_fd`: `none` is the panic of an index past the array. -/
def mark_fd (s : FdSet) (fd : ℕ) : Option FdSet :=
  let idx := fd / 64
  let bit := fd % 64
  let mask := 1 <<< bit
  if h : idx < FD_SET_LEN then some ⟨s.fds_bits.set idx (s.fds_bits[idx] ||| mask)⟩ else none

/-- `FdSet::is_set`: `none` is the panic of an index past the array. -/
def is_set (s : FdSet) (fd : ℕ) : Option Bool :=
  let idx := fd / 64
  let bit := fd % 64
  let mask := 1 <<< bit
  s.fds_bits[idx]?.map fun word => word &&& mask != 0

end FdSet

/-- `PollEvents`, an `i16` of flags. -/
structure PollEvents where
  bits : ℕ
deriving DecidableEq, Repr

namespace PollEvents

def IN : PollEvents := ⟨0x001⟩
def OUT : PollEvents := ⟨0x004⟩
def HUP : PollEvents := ⟨0x010⟩
def ERR : PollEvents := ⟨0x008⟩

def empty : PollEvents := ⟨0⟩

def is_empty (e : PollEvents) : Bool := e.bits == 0

def contains (e other : PollEvents) : Bool := e.bits &&& other.bits == other.bits

def insert (e other : PollEvents) : PollEvents := ⟨e.bits ||| other.bits⟩

end PollEvents

/-- `size_of::<FdSet>()`. -/
def FD_SET_BYTES : ℕ := 8 * FD_SET_LEN

/-- The user-pointer blocks of `sys_pselect6`: the state is the address space. -/
abbrev UserCheck := ExceptT SysError (StateT UserVmSpace Option)

/-- One block `if tested == 0 { None } else { Some(UserPtrRaw::new(ptr).ensure_*(vm)
.ok_or(EFAULT)?) }`, with the pointer kept as its address. -/
def userHandle (lazy : LazyFault) (tested ptr size : ℕ) (access : PageFaultAccessType) :
    UserCheck (Option ℕ) :=
  if tested = 0 then pure none
  else fun vm => (ensurePtr lazy ptr vm ptr size access).map fun (checked, vm) =>
    (match checked with
      | some ptr => .ok (some ptr)
      | none => .error .EFAULT, vm)

/-- The handles `sys_pselect6` builds on the user's arguments. -/
structure PselectHandles where
  readfds_w : Option ℕ
  readfds_r : Option ℕ
  writefds_w : Option ℕ
  writefds_r : Option ℕ
  exceptfds_w : Option ℕ
  timeout : Option ℕ
  new_mask : Option ℕ
deriving DecidableEq, Repr

/-- The seven pointer blocks of `sys_pselect6`, in the source's order. -/
def pselectHandles (lazy : LazyFault) (readfds_ptr writefds_ptr exceptfds_ptr timeout_ptr
    sigmask_ptr : ℕ) : UserCheck PselectHandles := do
  let readfds_w ← userHandle lazy readfds_ptr readfds_ptr FD_SET_BYTES WRITE
  let readfds_r ← userHandle lazy readfds_ptr readfds_ptr FD_SET_BYTES READ
  let writefds_w ← userHandle lazy writefds_ptr writefds_ptr FD_SET_BYTES WRITE
  let writefds_r ← userHandle lazy writefds_ptr writefds_ptr FD_SET_BYTES READ
  -- the except block tests `exceptfds_ptr` and checks `writefds_ptr`
  let exceptfds_w ← userHandle lazy exceptfds_ptr writefds_ptr FD_SET_BYTES WRITE
  let timeout ← userHandle lazy timeout_ptr timeout_ptr 16 READ
  let new_mask ← userHandle lazy sigmask_ptr sigmask_ptr 8 READ
  return ⟨readfds_w, readfds_r, writefds_w, writefds_r, exceptfds_w, timeout, new_mask⟩

/-- The events a set asks for at `fd`: `none` is the panic of `is_set`. -/
def askedIn (mem : ℕ → FdSet) (handle : Option ℕ) (fd : ℕ) (event : PollEvents) :
    Option PollEvents :=
  match handle with
  | none => some .empty
  | some ptr => ((mem ptr).is_set fd).map fun set => if set then event else .empty

/-- The `for fd in 0..nfds` loop of `sys_pselect6`: every descriptor the read or the write set
holds, with the events asked for and its file; `EBADF` for one that is not open. -/
def pselectPolls (mem : ℕ → FdSet) (fdTable : FdTable) (readfds_r writefds_r : Option ℕ) :
    List ℕ → Option (Except SysError (List (ℕ × PollEvents × ℕ)))
  | [] => some (.ok [])
  | fd :: rest => do
    let inRead ← askedIn mem readfds_r fd .IN
    let inWrite ← askedIn mem writefds_r fd .OUT
    let events := PollEvents.empty.insert inRead |>.insert inWrite
    if events.is_empty then pselectPolls mem fdTable readfds_r writefds_r rest
    else
      match fdTable.get_file fd with
      | .error error => some (.error error)
      | .ok file =>
        (pselectPolls mem fdTable readfds_r writefds_r rest).map
          (·.map ((fd, events, file) :: ·))

/-- `PSelectFuture::poll`, with `poll file events` what the file's `poll` reports: the
descriptors whose report is not empty, with their reports; `none` is `Poll::Pending`. -/
def pselectFuturePoll (poll : ℕ → PollEvents → PollEvents) (polls : List (ℕ × PollEvents × ℕ)) :
    Option (List (ℕ × PollEvents)) :=
  let ret := polls.filterMap fun (fd, events, file) =>
    let result := poll file events
    if result.is_empty then none else some (fd, result)
  if ret.length > 0 then some ret else none

/-- Where `sys_pselect6` stands at its `await`: the handles, the polls, the mask to put back,
the mask `IntrBySignalFuture` tests against, and when the timer of a timeout expires. -/
structure PselectWait where
  handles : PselectHandles
  polls : List (ℕ × PollEvents × ℕ)
  prev_mask : Option SigSet
  intr_mask : SigSet
  expire : Option ℕ
deriving DecidableEq, Repr

/-- How far `sys_pselect6` got: returned, or waiting at its `await`. -/
inductive PselectStage
  | returned (result : Except SysError ℕ)
  | waiting (wait : PselectWait)
deriving DecidableEq, Repr

/-- `sys_pselect6(nfds, readfds_ptr, writefds_ptr, exceptfds_ptr, timeout_ptr, sigmask_ptr)` up
to its `await`, for the task `task` with open files `fdTable` and address space `vm`, at time
`cur`; `timeoutVal` and `sigmaskVal` are what `timeout_ptr` and `sigmask_ptr` point at. -/
def sys_pselect6 (lazy : LazyFault) (vm : UserVmSpace) (fdTable : FdTable) (task : Tcb)
    (mem : ℕ → FdSet) (timeoutVal : TimeSpec) (sigmaskVal : SigSet) (cur : ℕ) (nfds : ℤ)
    (readfds_ptr writefds_ptr exceptfds_ptr timeout_ptr sigmask_ptr : ℕ) :
    Option (PselectStage × Tcb × UserVmSpace) := do
  if nfds < 0 then return (.returned (.error .EINVAL), task, vm)
  let (handles, vm) ← (pselectHandles lazy readfds_ptr writefds_ptr exceptfds_ptr timeout_ptr
    sigmask_ptr).run vm
  match handles with
  | .error error => some (.returned (.error error), task, vm)
  | .ok handles =>
    let polls ← pselectPolls mem fdTable handles.readfds_r handles.writefds_r
      (List.range nfds.toNat)
    match polls with
    | .error error => some (.returned (.error error), task, vm)
    | .ok polls =>
      let prev_mask := handles.new_mask.map fun _ => task.sig_manager.blocked_sigs
      let task := match handles.new_mask with
        | some _ => task.setBlocked (task.sig_manager.blocked_sigs ||| sigmaskVal)
        | none => task
      let task := { task with task_status := .Interruptable }
      let task := task.set_wake_up_sigs (~~~task.sig_manager.blocked_sigs)
      let intr_mask := task.sig_manager.blocked_sigs
      match handles.timeout.map fun _ => timeoutVal with
      | some timeout =>
        -- the temporary mask is in place when the timeout is found invalid
        if !timeout.isValid then some (.returned (.error .EINVAL), task, vm)
        else
          some (.waiting ⟨handles, polls, prev_mask, intr_mask, some (cur + timeout.toDuration)⟩,
            task, vm)
      | none => some (.waiting ⟨handles, polls, prev_mask, intr_mask, none⟩, task, vm)

/-- `IntrBySignalFuture::poll`: a standard signal pending outside `mask`. -/
def intrBySignal (m : SigManager) (mask : SigSet) : Bool := !(m.bitmap &&& ~~~mask).is_empty

/-- What the race at the `await` of `sys_pselect6` gives when the task is polled at time `now`. -/
inductive PselectOutcome
  | ready (ret : List (ℕ × PollEvents))
  | timedOut
  | interrupted
  | pending
deriving DecidableEq, Repr

/-- `Select2Futures` of the pselect future, under `TimedTaskFuture` when there is a timeout, and
`IntrBySignalFuture`, polled at time `now` with the task's manager `m`: the files first, then
the timer, then the signals. -/
def pselectRace (poll : ℕ → PollEvents → PollEvents) (wait : PselectWait) (m : SigManager)
    (now : ℕ) : PselectOutcome :=
  match pselectFuturePoll poll wait.polls with
  | some ret => .ready ret
  | none =>
    if wait.expire.any (· ≤ now) then .timedOut
    else if intrBySignal m wait.intr_mask then .interrupted
    else .pending

/-- The task with its old mask back, when there is one to put back. -/
def Tcb.restoreMask (task : Tcb) (prev_mask : Option SigSet) : Tcb :=
  match prev_mask with
  | some mask => task.setBlocked mask
  | none => task

/-- `fds.to_mut().clear()` on the set at a handle. -/
def clearAt (mem : ℕ → FdSet) : Option ℕ → (ℕ → FdSet)
  | some ptr => Function.update mem ptr (mem ptr).clear
  | none => mem

/-- The three `clear`s of `sys_pselect6`, on the read, the write and the except handle. -/
def clearHandles (handles : PselectHandles) (mem : ℕ → FdSet) : ℕ → FdSet :=
  clearAt (clearAt (clearAt mem handles.readfds_w) handles.writefds_w) handles.exceptfds_w

/-- `fds.to_mut().mark_fd(fd)` on the set at a handle. -/
def markAt (mem : ℕ → FdSet) (handle : Option ℕ) (fd : ℕ) : Option (ℕ → FdSet) :=
  match handle with
  | some ptr => ((mem ptr).mark_fd fd).map (Function.update mem ptr)
  | none => some mem

/-- One block `if ready { handle.map(|fds| fds.to_mut().mark_fd(fd)); res += 1; }` of the loop
over the ready descriptors. -/
def markIf (ready : Bool) (mem : ℕ → FdSet) (handle : Option ℕ) (fd res : ℕ) :
    Option ((ℕ → FdSet) × ℕ) :=
  if ready then (markAt mem handle fd).map fun mem => (mem, res + 1) else some (mem, res)

/-- The loop over the ready descriptors at the end of `sys_pselect6`: the sets written and the
count. -/
def pselectMark (handles : PselectHandles) :
    List (ℕ × PollEvents) → (ℕ → FdSet) → ℕ → Option ((ℕ → FdSet) × ℕ)
  | [], mem, res => some (mem, res)
  | (fd, events) :: rest, mem, res => do
    let (mem, res) ← markIf (events.contains .IN || events.contains .HUP) mem handles.readfds_w fd res
    let (mem, res) ← markIf (events.contains .OUT) mem handles.writefds_w fd res
    pselectMark handles rest mem res

/-- `sys_pselect6` after its `await`, when the task is polled at time `now`: `poll` is what the
files report and `task` carries the signals pending by then. A race still pending leaves the
call waiting. -/
def pselect6_resume (task : Tcb) (mem : ℕ → FdSet) (wait : PselectWait)
    (poll : ℕ → PollEvents → PollEvents) (now : ℕ) :
    Option (PselectStage × Tcb × (ℕ → FdSet)) :=
  match pselectRace poll wait task.sig_manager now with
  | .pending => some (.waiting wait, task, mem)
  -- `EINTR` returns with the temporary mask and the task interruptible
  | .interrupted => some (.returned (.error .EINTR), task, mem)
  | .timedOut =>
    some (.returned (.ok 0), { task with task_status := .Running }.restoreMask wait.prev_mask,
      clearHandles wait.handles mem)
  | .ready ret =>
    let task := { task with task_status := .Running }.restoreMask wait.prev_mask
    (pselectMark wait.handles ret (clearHandles wait.handles mem) 0).map fun (mem, res) =>
      (.returned (.ok res), task, mem)

end Chronix
