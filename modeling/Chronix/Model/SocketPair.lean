import Mathlib
import Chronix.Model.RingBuffer
import Chronix.Model.Select
import Chronix.Model.SysError

/-! # Socket pairs

`net/socketpair.rs`: `make_socketpair` builds two `SocketPairConnection`s over one
`SocketPairInternal`, whose lock guards a `SocketPairMeta`: two `BufferEndpoint`s and the two close
flags. `end1` carries what the first end sends to the second, `end2` what the second sends to the
first; each has a ring buffer and the wakers of the tasks that wait on it. `recv` awaits a
`SocketPairReadFuture`, then reads under the lock and wakes one waiting writer; `send` awaits a
`SocketPairWriteFuture`, asserts that it reported `OUT`, then writes under the lock and wakes one
waiting reader; `poll` reports the events of both directions and registers the caller's waker;
`close` sets its end's flag and wakes the wakers it names.

Every critical section holds the meta lock from start to end, and is one atomic step. A task is a
call in flight on one end, and `SocketPairPc` says where it stands between two critical sections:
the await of a future returns, and the rest of the call takes the lock anew. A waker is the id of
the task it wakes, and waking a task that waits makes the executor poll its future again. A panic
is an error of the step.
-/

namespace Chronix

/-- `BufferEndpoint`: one direction of the pair. -/
structure BufferEndpoint where
  buffer : RingBuffer
  read_wakers : List ℕ
  write_wakers : List ℕ
deriving DecidableEq, Repr

namespace BufferEndpoint

/-- `BufferEndpoint::new`. -/
def new (capacity : ℕ) : BufferEndpoint := ⟨.new capacity, [], []⟩

/-- The `read_wakers` (`reading`) or the `write_wakers`. -/
def wakers (e : BufferEndpoint) (reading : Bool) : List ℕ :=
  if reading then e.read_wakers else e.write_wakers

def setWakers (e : BufferEndpoint) (reading : Bool) (ws : List ℕ) : BufferEndpoint :=
  if reading then { e with read_wakers := ws } else { e with write_wakers := ws }

/-- `push_back` of a waker. -/
def pushWaker (e : BufferEndpoint) (reading : Bool) (waker : ℕ) : BufferEndpoint :=
  e.setWakers reading (e.wakers reading ++ [waker])

end BufferEndpoint

/-- `SocketPairMeta`. -/
structure SocketPairMeta where
  /-- The first end's bytes, on their way to the second. -/
  end1 : BufferEndpoint
  /-- The second end's bytes, on their way to the first. -/
  end2 : BufferEndpoint
  end1_closed : Bool
  end2_closed : Bool
deriving DecidableEq, Repr

namespace SocketPairMeta

/-- `end1` (`first`) or `end2`. -/
def endpoint (m : SocketPairMeta) (first : Bool) : BufferEndpoint :=
  if first then m.end1 else m.end2

def setEndpoint (m : SocketPairMeta) (first : Bool) (e : BufferEndpoint) : SocketPairMeta :=
  if first then { m with end1 := e } else { m with end2 := e }

/-- `end1_closed` (`first`) or `end2_closed`. -/
def closed (m : SocketPairMeta) (first : Bool) : Bool :=
  if first then m.end1_closed else m.end2_closed

def setClosed (m : SocketPairMeta) (first : Bool) : SocketPairMeta :=
  if first then { m with end1_closed := true } else { m with end2_closed := true }

end SocketPairMeta

/-- `SocketPairInternal::new`: both directions empty, both ends open. -/
def SocketPairInternal.new (capacity : ℕ) : SocketPairMeta :=
  ⟨.new capacity, .new capacity, false, false⟩

/-- The poll of the two futures: ready with `IN` when the endpoint's buffer holds bytes, ready with
`HUP` when `other_end_closed`, and otherwise `Pending` once the caller's waker is pushed on the
endpoint's `read_wakers` (`reading`) or `write_wakers`. -/
def pollEndpoint (m : SocketPairMeta) (first reading other_end_closed : Bool) (waker : ℕ) :
    Option PollEvents × SocketPairMeta :=
  let endpoint := m.endpoint first
  if !endpoint.buffer.isEmpty then (some .IN, m)
  else if other_end_closed then (some .HUP, m)
  else (none, m.setEndpoint first (endpoint.pushWaker reading waker))

/-- `SocketPairReadFuture::poll`: the first end reads `end2` and watches `end2_closed`. -/
def SocketPairReadFuture.poll (m : SocketPairMeta) (is_first_end : Bool) (waker : ℕ) :
    Option PollEvents × SocketPairMeta :=
  pollEndpoint m (!is_first_end) true (m.closed !is_first_end) waker

/-- `SocketPairWriteFuture::poll`: the first end writes `end1` and watches `end2_closed`. Like the
read future it tests the buffer for bytes, not for room, and never reports `OUT`. -/
def SocketPairWriteFuture.poll (m : SocketPairMeta) (is_first_end : Bool) (waker : ℕ) :
    Option PollEvents × SocketPairMeta :=
  pollEndpoint m is_first_end false (m.closed !is_first_end) waker

/-- `SocketPairConnection::poll`, after `get_waker`: the events of the end's two directions, and the
caller's waker registered where an asked event is not ready. -/
def SocketPairConnection.poll (m : SocketPairMeta) (is_first_end : Bool) (events : PollEvents)
    (waker : ℕ) : PollEvents × SocketPairMeta :=
  let read_endpoint := m.endpoint !is_first_end
  let write_endpoint := m.endpoint is_first_end
  let other_end_closed := m.closed !is_first_end
  let res := PollEvents.empty
  let res :=
    if !read_endpoint.buffer.isEmpty then res.insert .IN
    else if other_end_closed then res.insert .HUP
    else res
  let res :=
    if other_end_closed then res.insert .ERR
    else if !write_endpoint.buffer.isFull then res.insert .OUT
    else res
  -- `contains` asks for every flag of `IN | HUP`, and at most one of them is set
  let m :=
    if events.contains .IN && !res.contains (PollEvents.IN.insert .HUP) then
      m.setEndpoint (!is_first_end) (read_endpoint.pushWaker true waker)
    else m
  let m :=
    if events.contains .OUT && !res.contains (PollEvents.OUT.insert .ERR) then
      m.setEndpoint is_first_end ((m.endpoint is_first_end).pushWaker false waker)
    else m
  (res, m)

/-- What a call returns. -/
inductive SocketPairRet
  | ok (len : ℕ)
  | err (e : SysError)
  | events (res : PollEvents)
deriving DecidableEq, Repr

/-- The panics of the calls. -/
inductive SocketPairPanic
  /-- `assert!(revents.contains(PollEvents::OUT))` in `send`. -/
  | assertOut
  /-- A slice of `RingBuffer::read` or `RingBuffer::write` out of bounds. -/
  | sliceIndex
deriving DecidableEq, Repr

/-- The call a task makes. -/
inductive SocketPairCall
  | recv (buf : List UInt8)
  | send (buf : List UInt8)
  | poll (events : PollEvents)
deriving DecidableEq, Repr

/-- Where a call stands between two critical sections. -/
inductive SocketPairPc
  /-- Runnable: its next step polls its future, or runs `poll`'s critical section. -/
  | poll
  /-- The future returned `Pending`: the task runs again once its waker is woken. -/
  | pending
  /-- The future returned `revents`: the next step is the rest of the call. -/
  | ready (revents : PollEvents)
  | done (ret : SocketPairRet)
deriving DecidableEq, Repr

/-- A call in flight on the first end (`is_first_end`) or the second. -/
structure SocketPairTask where
  is_first_end : Bool
  call : SocketPairCall
  pc : SocketPairPc
deriving DecidableEq, Repr

/-- What waking the task's waker does: a task that waits is polled again. -/
def SocketPairTask.resume (task : SocketPairTask) : SocketPairTask :=
  if task.pc = .pending then { task with pc := .poll } else task

/-- The pair's shared state and the tasks that call into its ends; a task's id is its index. -/
structure SocketPairSystem where
  internal : SocketPairMeta
  tasks : List SocketPairTask
deriving DecidableEq, Repr

/-- The steps of the tasks and of the handles on the two ends. -/
inductive SocketPairEvent
  /-- A new task calls into the first end (`true`) or the second. -/
  | call (is_first_end : Bool) (call : SocketPairCall)
  /-- Task `tid` runs its next critical section. -/
  | run (tid : ℕ)
  /-- `close` on an end, from `shutdown` or the `Drop` of its connection. -/
  | close (is_first_end : Bool)
deriving DecidableEq, Repr

/-- `make_socketpair`, without the two `Socket`s around the connections. -/
def make_socketpair (capacity : ℕ) : SocketPairSystem :=
  ⟨SocketPairInternal.new capacity, []⟩

namespace SocketPairSystem

variable (s : SocketPairSystem)

def setTask (tid : ℕ) (task : SocketPairTask) : SocketPairSystem :=
  { s with tasks := s.tasks.set tid task }

def setInternal (m : SocketPairMeta) : SocketPairSystem := { s with internal := m }

/-- `Waker::wake` on the waker of task `tid`. -/
def wake (tid : ℕ) : SocketPairSystem := { s with tasks := s.tasks.modify tid SocketPairTask.resume }

/-- `if let Some(waker) = wakers.pop_front() { waker.wake() }` on the `read_wakers` (`reading`) or
`write_wakers` of endpoint `first`. -/
def wakeOne (first reading : Bool) : SocketPairSystem :=
  let endpoint := s.internal.endpoint first
  match endpoint.wakers reading with
  | [] => s
  | waker :: rest => (s.setInternal (s.internal.setEndpoint first (endpoint.setWakers reading rest))).wake waker

/-- The locked part of `recv` and `send`: move bytes between `buf` and the ring buffer of endpoint
`first`, and wake one waiter of the other kind if any byte moved. -/
def transfer (first reading : Bool) (buf : List UInt8) :
    Except SocketPairPanic (ℕ × List UInt8 × SocketPairSystem) :=
  let endpoint := s.internal.endpoint first
  let moved :=
    if reading then endpoint.buffer.read buf
    else (endpoint.buffer.write buf).map fun (len, rb) => (len, buf, rb)
  match moved with
  | none => .error .sliceIndex
  | some (len, buf, buffer) =>
    let s := s.setInternal (s.internal.setEndpoint first { endpoint with buffer })
    .ok (len, buf, if len > 0 then s.wakeOne first !reading else s)

end SocketPairSystem

/-- The rest of `SocketPairConnection::recv` once its future returned `revents`: `Ok(0)` on `HUP`,
else a read of the endpoint the end reads. -/
def SocketPairConnection.recv (s : SocketPairSystem) (tid : ℕ) (task : SocketPairTask)
    (revents : PollEvents) (buf : List UInt8) : Except SocketPairPanic SocketPairSystem :=
  if revents.contains .HUP then .ok (s.setTask tid { task with pc := .done (.ok 0) })
  else do
    let (len, buf, s) ← s.transfer (!task.is_first_end) true buf
    .ok (s.setTask tid { task with call := .recv buf, pc := .done (.ok len) })

/-- The rest of `SocketPairConnection::send` once its future returned `revents`: `EPIPE` on `ERR`,
the assertion that `OUT` was reported, and a write of the end's own endpoint. -/
def SocketPairConnection.send (s : SocketPairSystem) (tid : ℕ) (task : SocketPairTask)
    (revents : PollEvents) (buf : List UInt8) : Except SocketPairPanic SocketPairSystem :=
  if revents.contains .ERR then .ok (s.setTask tid { task with pc := .done (.err .EPIPE) })
  else if !revents.contains .OUT then .error .assertOut
  else do
    let (len, _, s) ← s.transfer task.is_first_end false buf
    .ok (s.setTask tid { task with pc := .done (.ok len) })

/-- `SocketPairConnection::close`: a second close returns at once; the first sets the end's flag,
then wakes every `write_wakers` of the end's own endpoint and every `read_wakers` of the other. -/
def SocketPairConnection.close (s : SocketPairSystem) (is_first_end : Bool) : SocketPairSystem :=
  if s.internal.closed is_first_end then s
  else
    let m := s.internal.setClosed is_first_end
    let writers := (m.endpoint is_first_end).write_wakers
    let m := m.setEndpoint is_first_end ((m.endpoint is_first_end).setWakers false [])
    let readers := (m.endpoint !is_first_end).read_wakers
    let m := m.setEndpoint (!is_first_end) ((m.endpoint !is_first_end).setWakers true [])
    readers.foldl SocketPairSystem.wake (writers.foldl SocketPairSystem.wake (s.setInternal m))

namespace SocketPairSystem

variable (s : SocketPairSystem)

/-- The end of a future's poll: `Pending` leaves the task waiting, `Ready` hands its events on. -/
def afterPoll (tid : ℕ) (task : SocketPairTask) : Option PollEvents × SocketPairMeta → SocketPairSystem
  | (none, m) => (s.setInternal m).setTask tid { task with pc := .pending }
  | (some revents, m) => (s.setInternal m).setTask tid { task with pc := .ready revents }

/-- The next critical section of task `tid`. A task that waits or has returned has none, and its
event changes nothing. -/
def runTask (tid : ℕ) (task : SocketPairTask) : Except SocketPairPanic SocketPairSystem :=
  match task.call, task.pc with
  | .recv _, .poll => .ok (s.afterPoll tid task (SocketPairReadFuture.poll s.internal task.is_first_end tid))
  | .send _, .poll => .ok (s.afterPoll tid task (SocketPairWriteFuture.poll s.internal task.is_first_end tid))
  | .poll events, .poll =>
    let (res, m) := SocketPairConnection.poll s.internal task.is_first_end events tid
    .ok ((s.setInternal m).setTask tid { task with pc := .done (.events res) })
  | .recv buf, .ready revents => SocketPairConnection.recv s tid task revents buf
  | .send buf, .ready revents => SocketPairConnection.send s tid task revents buf
  | _, _ => .ok s

/-- One step of the system; `none` where a task panics. -/
def step : SocketPairEvent → Option SocketPairSystem
  | .call is_first_end call => some { s with tasks := s.tasks ++ [⟨is_first_end, call, .poll⟩] }
  | .run tid =>
    match s.tasks[tid]? with
    | some task => (s.runTask tid task).toOption
    | none => some s
  | .close is_first_end => some (SocketPairConnection.close s is_first_end)

/-- A run of events, in order. -/
def run (events : List SocketPairEvent) : Option SocketPairSystem := events.foldlM step s

end SocketPairSystem

end Chronix
