import Mathlib
import Chronix.Model.RingBuffer

/-! # Pipes and the tasks that wait on them

`fs/pipe.rs`: a pipe is a ring buffer under one lock and a `Pipe` record under another, which holds
the two close flags and the wakers of the readers and of the writers that wait. `PipeFile::read`
polls a `PipeReadFuture` and then wakes one waiting writer; `PipeFile::write` polls a
`PipeWriteFuture` and then wakes one waiting reader; the `Drop` of a `PipeFile` sets its side's
close flag and wakes every waiter of the other side.

Each critical section is one atomic step. A poll holds the ring buffer's lock from its start to
its return and takes the pipe's lock twice in between: once to read the other side's close flag
and once to push its waker. `Drop` takes the pipe's lock only, so it can run between those two.
A task is a call in flight, and `PipePc` says where it stands between two critical sections. A
waker is the id of the task it wakes, and `Waker::wake` makes a waiting task runnable again, so
that the executor polls its future anew. A spin lock that another task holds makes a step
disabled, as does a task that waits.

A `PipeFile` is dropped when its last `Arc` goes: the handles in fd tables (`files`) and the calls
in flight, which each hold one. The two futures and the two tails of `read` and `write` are one
family: each definition takes the side, `true` for the reader as in `PipeFile.operate`.

`fs/mod.rs` declares no `pipe` module: `sys_pipe2` builds its pipes with `fs/pipefs.rs`, whose polls
read the close flag and push the waker under one lock. This module models `fs/pipe.rs`.
-/

namespace Chronix

/-- `Pipe`, without its handle on the ring buffer, which `PipeSystem` keeps beside it. -/
structure Pipe where
  write_close : Bool
  read_close : Bool
  read_waker : List ℕ
  write_waker : List ℕ
deriving DecidableEq, Repr

namespace Pipe

/-- `Pipe::new`: both sides open, nobody waiting. -/
def new : Pipe := ⟨false, false, [], []⟩

/-- The close flag a poll of side `operate` reads: a reader reads `write_close`. -/
def peerClosed (p : Pipe) (operate : Bool) : Bool := if operate then p.write_close else p.read_close

/-- The wakers of the tasks of side `operate` that wait. -/
def wakers (p : Pipe) (operate : Bool) : List ℕ := if operate then p.read_waker else p.write_waker

/-- The wakers of side `operate` replaced by `ws`. -/
def setWakers (p : Pipe) (operate : Bool) (ws : List ℕ) : Pipe :=
  if operate then { p with read_waker := ws } else { p with write_waker := ws }

/-- The close flag of side `operate` set, as its `PipeFile`'s `Drop` does. -/
def close (p : Pipe) (operate : Bool) : Pipe :=
  if operate then { p with read_close := true } else { p with write_close := true }

end Pipe

/-- Where a task in `PipeFile::read` or `PipeFile::write` stands. -/
inductive PipePc
  /-- Runnable: its next step polls the future from the start. -/
  | poll
  /-- Holds the ring buffer's lock and moved no byte: its next step reads the other side's close
  flag. -/
  | checkClosed
  /-- Holds the ring buffer's lock and found the other side open: its next step pushes its waker. -/
  | pushWaker
  /-- The poll returned `Pending`: the task runs again once its waker is woken. -/
  | pending
  /-- The future returned `Ready`: its next step wakes one waiter of the other side. -/
  | wakePeer
  /-- The call returned. -/
  | done
deriving DecidableEq, Repr

/-- A call in flight on one end of the pipe, with the fields of its future. -/
structure PipeTask where
  /-- `true` in `PipeFile::read`, `false` in `PipeFile::write`. -/
  operate : Bool
  user_buf : List UInt8
  already_put : ℕ
  pc : PipePc
deriving DecidableEq, Repr

/-- What `Waker::wake` does to the task: a task that waits is polled again. -/
def PipeTask.resume (task : PipeTask) : PipeTask :=
  if task.pc = .pending then { task with pc := .poll } else task

/-- One pipe, its two `PipeFile`s and the tasks that call into them. A task's id is its index in
`tasks`. -/
structure PipeSystem where
  pipe : Pipe
  ring_buffer : RingBuffer
  /-- The task that holds the ring buffer's lock. -/
  ring_holder : Option ℕ
  /-- The fd-table handles on the reading `PipeFile`. -/
  reader_files : ℕ
  /-- The fd-table handles on the writing `PipeFile`. -/
  writer_files : ℕ
  tasks : List PipeTask
  /-- Every waker handed to `Waker::wake`, in order. -/
  woken : List ℕ
deriving DecidableEq, Repr

/-- The steps of the tasks and of the processes that hold the pipe's fds. -/
inductive PipeEvent
  /-- A new task calls `PipeFile::read` (`true`) or `PipeFile::write` through a handle. -/
  | call (operate : Bool) (user_buf : List UInt8)
  /-- Task `tid` runs its next critical section. -/
  | run (tid : ℕ)
  /-- A handle on a side is duplicated (`dup`, `fork`). -/
  | dup (operate : Bool)
  /-- A handle on a side is closed. -/
  | close (operate : Bool)
deriving DecidableEq, Repr

/-- `ring_buf.read(user_buf)` for a reader and `ring_buf.write(user_buf)` for a writer: the bytes
moved, the user buffer after the move and the ring buffer after it. -/
def transfer (operate : Bool) (rb : RingBuffer) (buf : List UInt8) :
    Option (ℕ × List UInt8 × RingBuffer) :=
  if operate then rb.read buf else (rb.write buf).map fun (size, rb) => (size, buf, rb)

namespace PipeSystem

/-- `make_pipe`: a new pipe with one handle on each end. -/
def make_pipe (capacity : ℕ) : PipeSystem where
  pipe := .new
  ring_buffer := .new capacity
  ring_holder := none
  reader_files := 1
  writer_files := 1
  tasks := []
  woken := []

variable (s : PipeSystem)

/-- The fd-table handles on side `operate`. -/
def files (operate : Bool) : ℕ := if operate then s.reader_files else s.writer_files

def setFiles (operate : Bool) (n : ℕ) : PipeSystem :=
  if operate then { s with reader_files := n } else { s with writer_files := n }

def setTask (tid : ℕ) (task : PipeTask) : PipeSystem := { s with tasks := s.tasks.set tid task }

/-- Whether a call on side `operate` is in flight, holding an `Arc` of its `PipeFile`. -/
def busy (operate : Bool) : Bool := s.tasks.any fun task => task.operate == operate && task.pc != .done

/-- `Waker::wake` on the waker of task `tid`: logged, and the task resumes. -/
def wake (tid : ℕ) : PipeSystem :=
  { s with woken := s.woken ++ [tid], tasks := s.tasks.modify tid PipeTask.resume }

/-- `Drop for PipeFile` on side `operate`: its close flag is set, and every waker of the other side
is popped and woken in turn. -/
def drop (operate : Bool) : PipeSystem :=
  let waiting := s.pipe.wakers !operate
  waiting.foldl wake { s with pipe := (s.pipe.close operate).setWakers (!operate) [] }

/-- A handle or a call on side `operate` goes; the last one drops the `PipeFile`. -/
def release (operate : Bool) : PipeSystem :=
  if s.files operate = 0 ∧ s.busy operate = false then s.drop operate else s

/-- The end of `PipeFile::read` (`PipeFile::write`): under the pipe's lock, one waiting writer
(reader) is popped and woken. -/
def wakePeer (operate : Bool) : PipeSystem :=
  match s.pipe.wakers !operate with
  | [] => s
  | waker :: rest => { s with pipe := s.pipe.setWakers (!operate) rest }.wake waker

/-- The first critical section of a poll: an empty user buffer is ready at once; otherwise the
task takes the ring buffer's lock and moves bytes, and it keeps the lock if none moved. -/
def pollTransfer (tid : ℕ) (task : PipeTask) : Option PipeSystem :=
  if task.user_buf.length = 0 then some (s.setTask tid { task with pc := .wakePeer })
  else if s.ring_holder.isSome then none
  else do
    let (size, user_buf, ring_buffer) ← transfer task.operate s.ring_buffer task.user_buf
    let task := { task with user_buf, already_put := task.already_put + size }
    if size = 0 then
      some { (s.setTask tid { task with pc := .checkClosed }) with ring_buffer, ring_holder := some tid }
    else some { (s.setTask tid { task with pc := .wakePeer }) with ring_buffer }

/-- The second: under the pipe's lock, the other side's close flag. A closed side makes the
future ready and its return frees the ring buffer's lock. -/
def pollCheckClosed (tid : ℕ) (task : PipeTask) : PipeSystem :=
  if s.pipe.peerClosed task.operate then
    { (s.setTask tid { task with pc := .wakePeer }) with ring_holder := none }
  else s.setTask tid { task with pc := .pushWaker }

/-- The third: under the pipe's lock again, the task's waker is pushed; the poll returns
`Pending` and frees the ring buffer's lock. -/
def pollPushWaker (tid : ℕ) (task : PipeTask) : PipeSystem :=
  { (s.setTask tid { task with pc := .pending }) with
    pipe := s.pipe.setWakers task.operate (s.pipe.wakers task.operate ++ [tid])
    ring_holder := none }

/-- The poll of the future of side `operate`, one critical section at a time. -/
def pollFuture (tid : ℕ) (task : PipeTask) : Option PipeSystem :=
  match task.pc with
  | .poll => s.pollTransfer tid task
  | .checkClosed => some (s.pollCheckClosed tid task)
  | .pushWaker => some (s.pollPushWaker tid task)
  | _ => none

end PipeSystem

/-- `PipeReadFuture::poll`. -/
def PipeReadFuture.poll (s : PipeSystem) (tid : ℕ) (task : PipeTask) : Option PipeSystem :=
  s.pollFuture tid task

/-- `PipeWriteFuture::poll`. -/
def PipeWriteFuture.poll (s : PipeSystem) (tid : ℕ) (task : PipeTask) : Option PipeSystem :=
  s.pollFuture tid task

namespace PipeSystem

variable (s : PipeSystem)

/-- The next critical section of task `tid`: a step of its future's poll, or the tail of its
call, after which the call's `Arc` goes. A task that waits or has returned has none. -/
def runTask (tid : ℕ) (task : PipeTask) : Option PipeSystem :=
  match task.pc with
  | .wakePeer =>
    some (((s.setTask tid { task with pc := .done }).wakePeer task.operate).release task.operate)
  | .pending | .done => none
  | _ =>
    if task.operate then PipeReadFuture.poll s tid task else PipeWriteFuture.poll s tid task

/-- One step of the system. -/
def step : PipeEvent → Option PipeSystem
  | .call operate user_buf =>
    if s.files operate = 0 then none
    else some { s with tasks := s.tasks ++ [⟨operate, user_buf, 0, .poll⟩] }
  | .run tid => do
    let task ← s.tasks[tid]?
    s.runTask tid task
  | .dup operate =>
    if s.files operate = 0 then none else some (s.setFiles operate (s.files operate + 1))
  | .close operate =>
    if s.files operate = 0 then none
    else some ((s.setFiles operate (s.files operate - 1)).release operate)

/-- A run: the events in order, each enabled where it comes. -/
def run (events : List PipeEvent) : Option PipeSystem := events.foldlM step s

end PipeSystem

end Chronix
