import Mathlib
import Chronix.Model.Select
import Chronix.Model.Splice

/-! # The pipes of `fs/pipefs.rs` and the calls in flight on them

`sys_pipe2` builds its pipes with `make_pipe` of `fs/pipefs.rs`. A pipe's `PipeMeta` holds the
ring buffer, the two close flags and the wakers of the readers and of the writers that wait, all
under one lock. `PipeMeta` of the splice model is the ring buffer and the two flags; the two
queues of wakers are kept beside it here.

The kernel runs on one hart with a cooperative executor: a task runs from one poll of its future
to the next `Pending`. A call of `PipeFile::read` whose `PipeReadFuture` is ready therefore runs to
its return as one step: the future's check, the ring buffer's `read` and the wake of one waiting
writer. A future that is not ready pushes its task's waker under the lock and returns `Pending`;
the call then waits until `Waker::wake` makes it runnable, and its next step polls the future
anew. `PipeFile::write` is the same with the sides swapped and `EPIPE` for a reader that is gone.
`base_poll`, which `ppoll` and `pselect6` call on the file, is one step too: it reports the
events of its end and pushes the task's waker on that end's queue when the event asked for is
not there, whatever the task does next. The `Drop` of a `PipeFile` runs when its last `Arc` goes,
held by the fd tables and by the calls in flight: it sets its side's close flag and wakes every
waiter of the other side.

A task is its index in `calls`, whose entry is the task's read or write call, in flight or
returned; a task with no entry has made no call. A waker is the id of its task, and waking a task
resumes its call if that call waits. `delivered` and `accepted` are the history the model keeps
beside the source's state: the bytes the reads returned and the bytes the writes took, in the
order of the calls.
-/

namespace Chronix

namespace PipeMeta

/-- The close flag of side `operate` set, as its `PipeFile`'s `Drop` does. -/
def close (p : PipeMeta) (operate : Bool) : PipeMeta :=
  if operate then { p with is_read_closed := true } else { p with is_write_closed := true }

end PipeMeta

/-- Where a call of `PipeFile::read` (`operate`) or `PipeFile::write` stands. -/
inductive PipeCallPc
  /-- Runnable: its next step polls its future. -/
  | poll
  /-- Its future returned `Pending` with its waker pushed. -/
  | pending
  /-- The call returned. -/
  | done (result : Except SysError ℕ)
deriving DecidableEq, Repr

/-- Whether a call has returned. -/
def PipeCallPc.isDone : PipeCallPc → Bool
  | .done _ => true
  | _ => false

/-- A call in flight on one end of the pipe, with the user's buffer. -/
structure PipeCall where
  operate : Bool
  buf : List UInt8
  pc : PipeCallPc
deriving DecidableEq, Repr

/-- What `Waker::wake` does to a call: a call that waits is polled again. -/
def PipeCall.resume (call : PipeCall) : PipeCall :=
  if call.pc = .pending then { call with pc := .poll } else call

/-- One pipe of `fs/pipefs.rs`, the handles on its two `PipeFile`s and the calls on them. -/
structure PipeFsSystem where
  pipe_meta : PipeMeta
  read_waker : List ℕ
  write_waker : List ℕ
  /-- The fd-table handles on the reading `PipeFile`. -/
  reader_files : ℕ
  /-- The fd-table handles on the writing `PipeFile`. -/
  writer_files : ℕ
  calls : List PipeCall
  delivered : List UInt8
  accepted : List UInt8
deriving DecidableEq, Repr

namespace PipeFsSystem

/-- `make_pipe`: a new pipe with one handle on each end. -/
def make_pipe (capacity : ℕ) : PipeFsSystem :=
  ⟨⟨RingBuffer.new capacity, false, false⟩, [], [], 1, 1, [], [], []⟩

variable (s : PipeFsSystem)

/-- The wakers queued on side `operate`: `read_waker` for the readers. -/
def wakers (operate : Bool) : List ℕ := if operate then s.read_waker else s.write_waker

/-- The wakers of side `operate` replaced by `ws`. -/
def setWakers (operate : Bool) (ws : List ℕ) : PipeFsSystem :=
  if operate then { s with read_waker := ws } else { s with write_waker := ws }

/-- The fd-table handles on side `operate`. -/
def files (operate : Bool) : ℕ := if operate then s.reader_files else s.writer_files

def setFiles (operate : Bool) (n : ℕ) : PipeFsSystem :=
  if operate then { s with reader_files := n } else { s with writer_files := n }

def setCall (tid : ℕ) (call : PipeCall) : PipeFsSystem := { s with calls := s.calls.set tid call }

/-- Whether a call on side `operate` is in flight, holding an `Arc` of its `PipeFile`. -/
def busy (operate : Bool) : Bool :=
  s.calls.any fun call => call.operate == operate && !call.pc.isDone

/-- `Waker::wake` on the waker of call `tid`. -/
def wake (tid : ℕ) : PipeFsSystem := { s with calls := s.calls.modify tid PipeCall.resume }

/-- `Drop for PipeFile` on side `operate`: its close flag is set, and every waker of the other
side is popped and woken in turn. -/
def drop (operate : Bool) : PipeFsSystem :=
  (s.wakers !operate).foldl wake
    ({ s with pipe_meta := s.pipe_meta.close operate }.setWakers (!operate) [])

/-- A handle or a call on side `operate` goes; the last one drops the `PipeFile`. -/
def release (operate : Bool) : PipeFsSystem :=
  if s.files operate = 0 ∧ s.busy operate = false then s.drop operate else s

/-- `if let Some(waker) = meta.X_waker.pop_front() { waker.wake() }` at the end of a call of side
`!operate`: one waiter of side `operate` is popped and woken. -/
def wakeOne (operate : Bool) : PipeFsSystem :=
  match s.wakers operate with
  | [] => s
  | waker :: rest => (s.setWakers operate rest).wake waker

/-- The call `tid` returns `result`, and its `Arc` on the `PipeFile` of its side goes. -/
def complete (tid : ℕ) (call : PipeCall) (result : Except SysError ℕ) : PipeFsSystem :=
  (s.setCall tid { call with pc := .done result }).release call.operate

/-- The call `tid` waits: its waker is pushed on its side. -/
def suspend (tid : ℕ) (call : PipeCall) : PipeFsSystem :=
  (s.setCall tid { call with pc := .pending }).setWakers call.operate
    (s.wakers call.operate ++ [tid])

/-- `PipeFile::read` from a poll of its `PipeReadFuture`: ready with `IN` when the ring buffer
holds bytes, and then the ring buffer's `read` and one waiting writer woken; ready with `HUP`
when the writer is gone, and the read returns 0; otherwise the call waits. -/
def readStep (tid : ℕ) (call : PipeCall) : Option PipeFsSystem :=
  if !s.pipe_meta.ring_buffer.isEmpty then
    (s.pipe_meta.ring_buffer.read call.buf).map fun r =>
      ({ s with
          pipe_meta := { s.pipe_meta with ring_buffer := r.2.2 }
          delivered := s.delivered ++ r.2.1.take r.1 }.wakeOne false).complete tid
        { call with buf := r.2.1 } (.ok r.1)
  else if s.pipe_meta.is_write_closed then some (s.complete tid call (.ok 0))
  else some (s.suspend tid call)

/-- `PipeFile::write` from a poll of its `PipeWriteFuture`: ready with `ERR` when the reader is
gone, and the write fails with `EPIPE`; ready with `OUT` when the ring buffer has room, and then
the ring buffer's `write` and one waiting reader woken; otherwise the call waits. -/
def writeStep (tid : ℕ) (call : PipeCall) : Option PipeFsSystem :=
  if s.pipe_meta.is_read_closed then some (s.complete tid call (.error .EPIPE))
  else if !s.pipe_meta.ring_buffer.isFull then
    (s.pipe_meta.ring_buffer.write call.buf).map fun r =>
      ({ s with
          pipe_meta := { s.pipe_meta with ring_buffer := r.2 }
          accepted := s.accepted ++ call.buf.take r.1 }.wakeOne true).complete tid call (.ok r.1)
  else some (s.suspend tid call)

/-- The next step of call `tid`; a call that waits or has returned has none. -/
def runCall (tid : ℕ) (call : PipeCall) : Option PipeFsSystem :=
  match call.pc with
  | .poll => if call.operate then s.readStep tid call else s.writeStep tid call
  | _ => none

/-- `base_poll(events)` of task `tid` on the end `operate`: the events of the end, and the task's
waker pushed on the end's queue when the event asked for (`OUT` of a writer, `IN` of a reader)
is not there. -/
def base_poll (tid : ℕ) (operate : Bool) (events : PollEvents) : PollEvents × PipeFsSystem :=
  if !operate then
    let res := if s.pipe_meta.is_read_closed then PollEvents.ERR else PollEvents.empty
    if events.contains .OUT && !s.pipe_meta.ring_buffer.isFull then (res.insert .OUT, s)
    else (res, s.setWakers false (s.write_waker ++ [tid]))
  else
    let res := if s.pipe_meta.is_write_closed then PollEvents.HUP else PollEvents.empty
    if events.contains .IN && !s.pipe_meta.ring_buffer.isEmpty then (res.insert .IN, s)
    else (res, s.setWakers true (s.read_waker ++ [tid]))

/-- Task `tid` is in no read or write call: it has made none, or its last one returned. -/
def idle (tid : ℕ) : Bool := (s.calls[tid]?).all fun call => call.pc.isDone

end PipeFsSystem

/-- What happens next on the pipe: task `tid` calls `read` (`operate`) or `write` on its end, takes
the next step of its call, or calls `base_poll` on an end; or an fd-table handle on an end is
duplicated or closed. -/
inductive PipeFsEvent
  | call (tid : ℕ) (operate : Bool) (buf : List UInt8)
  | run (tid : ℕ)
  | basePoll (tid : ℕ) (operate : Bool) (events : PollEvents)
  | dup (operate : Bool)
  | close (operate : Bool)
deriving DecidableEq, Repr

namespace PipeFsSystem

variable (s : PipeFsSystem)

/-- One step of the system. A call or a poll needs a handle on its end and a task that is in no
call: a task's first call is the next entry of `calls`. -/
def step : PipeFsEvent → Option PipeFsSystem
  | .call tid operate buf =>
    if s.files operate = 0 ∨ !s.idle tid then none
    else if tid = s.calls.length then
      some { s with calls := s.calls ++ [⟨operate, buf, .poll⟩] }
    else if tid < s.calls.length then some (s.setCall tid ⟨operate, buf, .poll⟩)
    else none
  | .run tid => do
    let call ← s.calls[tid]?
    s.runCall tid call
  | .basePoll tid operate events =>
    if s.files operate = 0 ∨ !s.idle tid then none else some (s.base_poll tid operate events).2
  | .dup operate =>
    if s.files operate = 0 then none else some (s.setFiles operate (s.files operate + 1))
  | .close operate =>
    if s.files operate = 0 then none
    else some ((s.setFiles operate (s.files operate - 1)).release operate)

end PipeFsSystem

end Chronix
