import Mathlib
import Chronix.Model.RingBuffer

/-! # The serial console's input path

`drivers/serial/mod.rs`: a `Serial` device keeps the bytes its interrupt handler has taken from the
UART in a ring buffer of `UART_BUF_LEN` bytes, with the wakers of the tasks that wait for input.
`handle_irq` moves bytes from the UART's receive FIFO into the ring buffer until the FIFO is empty
or the buffer is full, and wakes one waiting task. `CharDevice::read` waits until `poll_in` finds
input, reads the ring buffer under the lock, and then takes more bytes from the UART itself,
without the lock, while the UART has input and the caller's buffer has room.

The UART's receive FIFO is a list of bytes that `arrive` one at a time: the driver's `poll_in`
tests it for a byte, and `getc` takes its front, spinning while it is empty (`Uart::receive`). A
critical section under the serial lock is one step, and so is each test and each `getc` of
`read`'s unlocked loop. `handle_irq` holds the lock with interrupts off on its hart and is one
step, as on a single hart, where nothing else runs while it does. A task is a `read` in flight; a
waker is the id of its task, and waking a task that has suspended makes it poll again.
`arrived`, `delivered` and `dropped` are the history the model keeps beside the source's state:
the bytes that reached the UART, the bytes the reads took, and the bytes `handle_irq` lost.
-/

namespace Chronix

/-- `UART_BUF_LEN`. -/
def UART_BUF_LEN : ℕ := 512

/-- `SerialInner`. -/
structure SerialInner where
  read_buf : RingBuffer
  pollin_queue : List ℕ
deriving DecidableEq, Repr

/-- Where a `read` stands. -/
inductive SerialPc
  /-- Runnable: its next step is `poll_in`'s critical section. -/
  | pollIn
  /-- `poll_in` returned `false`, and `suspend_now` holds the task until its waker is woken. -/
  | suspended
  /-- `poll_in` returned `true`: the next step reads the ring buffer under the lock. -/
  | readBuf
  /-- The test of the unlocked loop: `uart.poll_in() && len < buf.len()`. -/
  | drainCheck
  /-- The loop's `uart.getc()`. -/
  | drainGet
  /-- `read` returned `len`. -/
  | done
deriving DecidableEq, Repr

/-- A `read` in flight: the caller's buffer and the number of bytes put in it so far. -/
structure SerialTask where
  buf : List UInt8
  len : ℕ
  pc : SerialPc
deriving DecidableEq, Repr

/-- What waking the task's waker does: a task that has suspended polls again. -/
def SerialTask.resume (task : SerialTask) : SerialTask :=
  if task.pc = .suspended then { task with pc := .pollIn } else task

/-- The UART, the device and the `read`s in flight; a task's id is its index. -/
structure SerialSystem where
  /-- The UART's receive FIFO, front first. -/
  fifo : List UInt8
  inner : SerialInner
  tasks : List SerialTask
  /-- The bytes `handle_irq` took from the UART and could not store, in order. -/
  dropped : List UInt8
  /-- The bytes that reached the UART, in order. -/
  arrived : List UInt8
  /-- The bytes the reads took, from the ring buffer or the UART, in the order they took them. -/
  delivered : List UInt8
deriving DecidableEq, Repr

/-- What happens next: a byte reaches the UART, its interrupt is handled, a task calls `read`, or
a task takes its next step. -/
inductive SerialEvent
  | arrive (byte : UInt8)
  | irq
  | read (buf : List UInt8)
  | run (tid : ℕ)
deriving DecidableEq, Repr

/-- `Serial::new`, before any byte reaches the UART. -/
def Serial.new : SerialSystem := ⟨[], ⟨.new UART_BUF_LEN, []⟩, [], [], [], []⟩

/-- The loop of `handle_irq`: each byte `getc` takes from the FIFO is enqueued, and the first one
that does not fit ends the loop and is lost. The FIFO left, the ring buffer, and the byte lost. -/
def irqLoop : List UInt8 → RingBuffer → Option (List UInt8 × RingBuffer × List UInt8)
  | [], read_buf => some ([], read_buf, [])
  | byte :: fifo, read_buf => do
    let (stored, read_buf) ← read_buf.enqueue byte
    match stored with
    | none => some (fifo, read_buf, [byte])
    | some () => irqLoop fifo read_buf

namespace SerialSystem

variable (s : SerialSystem)

def setTask (tid : ℕ) (task : SerialTask) : SerialSystem :=
  { s with tasks := s.tasks.set tid task }

def setInner (inner : SerialInner) : SerialSystem := { s with inner }

/-- `Waker::wake` on the waker of task `tid`. -/
def wake (tid : ℕ) : SerialSystem := { s with tasks := s.tasks.modify tid SerialTask.resume }

/-- `uart.poll_in()`: the UART holds a byte. -/
def uartPollIn : Bool := !s.fifo.isEmpty

/-- `Serial::handle_irq`: the loop over the UART's FIFO, then the first waiting task woken. -/
def handle_irq : Option SerialSystem := do
  let (fifo, read_buf, lost) ← irqLoop s.fifo s.inner.read_buf
  let s := { s with fifo, dropped := s.dropped ++ lost }.setInner { s.inner with read_buf }
  match s.inner.pollin_queue with
  | [] => some s
  | waiting :: rest => some ((s.setInner { s.inner with pollin_queue := rest }).wake waiting)

/-- `Serial::poll_in`, its critical section: ready when the UART or the ring buffer holds a byte;
otherwise the caller's waker is queued and `read` suspends. -/
def poll_in (tid : ℕ) (task : SerialTask) : SerialSystem :=
  if s.uartPollIn || !s.inner.read_buf.isEmpty then s.setTask tid { task with pc := .readBuf }
  else
    (s.setInner { s.inner with pollin_queue := s.inner.pollin_queue ++ [tid] }).setTask tid
      { task with pc := .suspended }

/-- The next step of `CharDevice::read` for `Serial`, in task `tid`; `none` on a panic. A task that
has suspended or returned has no step, and neither has a `getc` that spins on an empty FIFO. -/
def read (tid : ℕ) (task : SerialTask) : Option SerialSystem :=
  match task.pc with
  | .pollIn => some (s.poll_in tid task)
  | .readBuf => do
    let (len, buf, read_buf) ← s.inner.read_buf.read task.buf
    some (({ s with delivered := s.delivered ++ buf.take len }.setInner
      { s.inner with read_buf }).setTask tid { task with buf, len, pc := .drainCheck })
  | .drainCheck =>
    if s.uartPollIn && decide (task.len < task.buf.length) then
      some (s.setTask tid { task with pc := .drainGet })
    else some (s.setTask tid { task with pc := .done })
  | .drainGet =>
    match s.fifo with
    | [] => some s
    | byte :: fifo =>
      some ({ s with fifo, delivered := s.delivered ++ [byte] }.setTask tid
        { task with buf := task.buf.set task.len byte, len := task.len + 1, pc := .drainCheck })
  | .suspended | .done => some s

/-- One step of the system. -/
def step : SerialEvent → Option SerialSystem
  | .arrive byte => some { s with fifo := s.fifo ++ [byte], arrived := s.arrived ++ [byte] }
  | .irq => s.handle_irq
  | .read buf => some { s with tasks := s.tasks ++ [⟨buf, 0, .pollIn⟩] }
  | .run tid =>
    match s.tasks[tid]? with
    | some task => s.read tid task
    | none => some s

/-- A run of events, in order. -/
def run (events : List SerialEvent) : Option SerialSystem := events.foldlM step s

end SerialSystem

end Chronix
