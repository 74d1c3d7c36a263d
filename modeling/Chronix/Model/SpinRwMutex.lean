import Mathlib
import Chronix.Model.Addr

/-! # The spinning reader-writer lock

`SpinRwMutex` (`os/src/sync/mutex/spin_rw_mutex.rs`) keeps its whole state in one `AtomicUsize`,
`status`: the top bit says a writer holds the lock, the other bits count the readers. Every
thread that uses the lock runs the code of `rlock`, `wlock`, `ReadMutexGuard::upgrade` and the
two guards' `drop` as a sequence of atomic operations on `status`, and threads interleave at
those operations. The model is a thread pool: each thread is a program counter over that code,
and a step either lets a thread start a call or runs its next atomic operation, as one
sequentially consistent step. A thread that spins `0x1000000` times in a wait loop panics
(`none`).

`S::before_lock` and `S::after_unlock` (interrupts off and on again for `SpinNoIrqRwLock`) do not
touch `status`, and the data behind the lock is not read by any modelled result: both are left
out.
-/

namespace Chronix

namespace SpinRwMutex

/-- `WRITER_MASK`: the top bit of a `usize`. -/
def WRITER_MASK : ℕ := 2 ^ 63

/-- `READER_MASK`: every bit but the top one. -/
def READER_MASK : ℕ := 2 ^ 63 - 1

/-- The wait loops give up after this many turns. -/
def DEADLOCK_TRIES : ℕ := 0x1000000

end SpinRwMutex

open SpinRwMutex

/-- Where a thread is in the code of the lock. A thread holds a `ReadMutexGuard` from the
successful `compare_exchange` of `rlock` until the `fetch_sub` of its `drop`, and a
`WriteMutexGuard` from a successful `compare_exchange` of `wlock` or `upgrade` until the
`fetch_and` of its `drop`. -/
inductive RwPc
  | idle
  /-- `wait_unlock_read`, after `try_count` turns. -/
  | rlockWait (try_count : ℕ)
  /-- `rlock`: `let oldval = self.status.load(..)`. -/
  | rlockLoad
  /-- `rlock`: `compare_exchange(oldval, oldval + 1, ..)`. -/
  | rlockCas (oldval : ℕ)
  /-- Holding a `ReadMutexGuard`. -/
  | reading
  /-- `wait_unlock_write`, after `try_count` turns. -/
  | wlockWait (try_count : ℕ)
  /-- `wlock`: `let oldval = self.status.load(..)`. -/
  | wlockLoad
  /-- `wlock`: `compare_exchange(oldval, oldval | WRITER_MASK, ..)`. -/
  | wlockCas (oldval : ℕ)
  /-- Holding a `WriteMutexGuard`. -/
  | writing
  /-- `upgrade`: `let oldval = self.mutex.status.load(..)`. -/
  | upgradeLoad
  /-- `upgrade`: `compare_exchange(oldval, WRITER_MASK, ..)`. -/
  | upgradeCas (oldval : ℕ)
  /-- `ReadMutexGuard::drop`: `fetch_sub(1, ..)`. -/
  | readDrop
  /-- `WriteMutexGuard::drop`: `fetch_and(!WRITER_MASK, ..)`. -/
  | writeDrop
deriving DecidableEq, Repr

namespace RwPc

/-- The thread holds a `ReadMutexGuard`. -/
def holdsRead : RwPc → Bool
  | reading | upgradeLoad | upgradeCas _ | readDrop => true
  | _ => false

/-- The thread holds a `WriteMutexGuard`. -/
def holdsWrite : RwPc → Bool
  | writing | writeDrop => true
  | _ => false

end RwPc

/-- The lock's `status` and the threads that use it, by index. -/
structure RwSystem where
  status : ℕ
  threads : List RwPc
deriving DecidableEq, Repr

/-- What the scheduler lets happen next: a thread starts a call on the lock, or runs the next
atomic operation of the call it is in. -/
inductive RwEvent
  | rlock (thread : ℕ)
  | wlock (thread : ℕ)
  | upgrade (thread : ℕ)
  | dropGuard (thread : ℕ)
  | run (thread : ℕ)
deriving DecidableEq, Repr

namespace RwSystem

/-- `SpinRwMutex::new` with `n` threads that have not called it yet. -/
def new (n : ℕ) : RwSystem := ⟨0, List.replicate n .idle⟩

/-- Move thread `thread` to `pc`. -/
def setPc (s : RwSystem) (thread : ℕ) (pc : RwPc) : RwSystem :=
  { s with threads := s.threads.set thread pc }

/-- One turn of a wait loop that must wait again: `try_count += 1`, and the deadlock panic. -/
def spin (s : RwSystem) (thread : ℕ) (try_count : ℕ) (waiting : ℕ → RwPc) : Option RwSystem :=
  if try_count + 1 = DEADLOCK_TRIES then none else some (s.setPc thread (waiting (try_count + 1)))

/-- The next atomic operation of a thread at `pc`. -/
def runPc (s : RwSystem) (thread : ℕ) : RwPc → Option RwSystem
  | .rlockWait try_count =>
    if s.status &&& WRITER_MASK ≠ 0 then s.spin thread try_count .rlockWait
    else some (s.setPc thread .rlockLoad)
  | .rlockLoad =>
    let oldval := s.status
    -- too many readers: `continue`, back to `wait_unlock_read`
    if oldval &&& READER_MASK = READER_MASK then some (s.setPc thread (.rlockWait 0))
    else some (s.setPc thread (.rlockCas oldval))
  | .rlockCas oldval =>
    if s.status = oldval then some { s.setPc thread .reading with status := usizeWrap (oldval + 1) }
    else some (s.setPc thread (.rlockWait 0))
  | .wlockWait try_count =>
    if s.status &&& WRITER_MASK ≠ 0 ∨ s.status &&& READER_MASK ≠ 0 then
      s.spin thread try_count .wlockWait
    else some (s.setPc thread .wlockLoad)
  | .wlockLoad => some (s.setPc thread (.wlockCas s.status))
  | .wlockCas oldval =>
    if s.status = oldval then some { s.setPc thread .writing with status := oldval ||| WRITER_MASK }
    else some (s.setPc thread (.wlockWait 0))
  | .upgradeLoad =>
    let oldval := s.status
    -- another reader or a writer: `drop(self); return None`
    if oldval &&& READER_MASK > 1 ∨ oldval &&& WRITER_MASK ≠ 0 then some (s.setPc thread .readDrop)
    else some (s.setPc thread (.upgradeCas oldval))
  | .upgradeCas oldval =>
    -- on success the read guard is forgotten; on failure it is dropped on return
    if s.status = oldval then some { s.setPc thread .writing with status := WRITER_MASK }
    else some (s.setPc thread .readDrop)
  | .readDrop => some { s.setPc thread .idle with status := usizeSub s.status 1 }
  | .writeDrop => some { s.setPc thread .idle with status := s.status &&& usizeNot WRITER_MASK }
  | .idle | .reading | .writing => some s

/-- A thread at `pc` starts a call: `rlock` or `wlock` from no guard, `upgrade` or the `drop`
of the guard it holds. An event a thread is in no position for changes nothing. -/
def call (s : RwSystem) (thread : ℕ) (pc : RwPc) (next : RwPc) : RwSystem :=
  if s.threads[thread]? = some pc then s.setPc thread next else s

/-- One step of the system. -/
def step (s : RwSystem) : RwEvent → Option RwSystem
  | .rlock thread => some (s.call thread .idle (.rlockWait 0))
  | .wlock thread => some (s.call thread .idle (.wlockWait 0))
  | .upgrade thread => some (s.call thread .reading .upgradeLoad)
  | .dropGuard thread =>
    some (if s.threads[thread]? = some .writing then s.setPc thread .writeDrop
      else s.call thread .reading .readDrop)
  | .run thread =>
    match s.threads[thread]? with
    | some pc => s.runPc thread pc
    | none => some s

/-- A run of events, in order. -/
def run (s : RwSystem) (events : List RwEvent) : Option RwSystem := events.foldlM step s

end RwSystem

end Chronix
