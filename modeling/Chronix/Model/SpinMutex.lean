import Mathlib
import Chronix.Model.SpinRwMutex

/-! # The spin mutex

`SpinMutex` (`os/src/sync/mutex/spin_mutex.rs`) is the lock under the kernel's `SpinLock` and
`SpinNoIrqLock`. Its state is one `AtomicUsize`, `owner`: `usize::MAX` while the lock is free,
and otherwise the `tp` of the hart that took it, which is the hart's id. `lock` loads `owner` and
panics when it is the caller's own id; `wait_unlock` then loads it until it reads free, panicking
on an owner that is no hart and after `0x1000000` turns, the limit of `SpinRwMutex`'s loops; and
`lock` compare-exchanges `owner` from `usize::MAX` to its id, asserting that id is below
`MAX_PROCESSORS`, or starts over when the exchange fails. The guard's `drop` stores `usize::MAX`.

The model is the pool of harts, as for `SpinRwMutex`: a hart is its index, each one a program
counter over `lock`, `wait_unlock` and the guard's `drop`, and a step starts a call or runs the
next atomic operation on `owner` as one sequentially consistent step. A hart makes one call at a
time: `lock`, from no guard or again while it holds the guard, and `drop` of the guard it holds.
A `lock` made while the hart holds the guard is at `relockLoad` until its first load; were the
word to name another hart there, the call would go on as one from no guard. A panic is an error
with the values its message prints (the address `wait_unlock` prints apart).

`S::before_lock` and `S::after_unlock` do not touch `owner`, and no modelled result reads the
data behind the lock: both are left out.
-/

namespace Chronix

namespace SpinMutex

/-- `usize::MAX`: the owner of a free lock. -/
def USIZE_MAX : ℕ := 2 ^ 64 - 1

/-- `Constant::MAX_PROCESSORS` of the riscv64 and loongarch64 boards. -/
def MAX_PROCESSORS : ℕ := 4

end SpinMutex

open SpinMutex SpinRwMutex

/-- The panics of `lock`, with the values their messages print. -/
inductive MutexPanic
  /-- `"[dead lock] hart {} is trying to get the lock, which is already hold by itself"`. -/
  | selfLock (new_owner : ℕ)
  /-- `"owner {:#x} {} > MAX_PROCESSORS"`, of the owner `wait_unlock` loaded. -/
  | badOwner (cur_owner : ℕ)
  /-- `"Mutex: deadlock detected! {} try_count > {:#x}, {} is holding lock"`. -/
  | deadlock (tp try_count cur_owner : ℕ)
  /-- `assert!(new_owner < Constant::MAX_PROCESSORS)`. -/
  | assertOwner (new_owner : ℕ)
deriving DecidableEq, Repr

/-- Where a hart is in the code of the lock. A hart holds the `MutexGuard` from the successful
`compare_exchange` of `lock` until the `store` of its `drop`. -/
inductive MutexPc
  | idle
  /-- `lock`'s loop: `let old_owner = self.owner.load(..)`. -/
  | lockLoad
  /-- `wait_unlock` after `try_count` turns: `self.owner.load(..)`. -/
  | waitLoad (try_count : ℕ)
  /-- `lock`: `compare_exchange(usize::MAX, new_owner, ..)`. -/
  | lockCas
  /-- Holding a `MutexGuard`. -/
  | holding
  /-- Holding a `MutexGuard` and in `lock` again: `let old_owner = self.owner.load(..)`. -/
  | relockLoad
  /-- `MutexGuard::drop`: `self.mutex.owner.store(usize::MAX, ..)`. -/
  | unlockStore
deriving DecidableEq, Repr

namespace MutexPc

/-- The hart holds the `MutexGuard`. -/
def holdsGuard : MutexPc → Bool
  | holding | relockLoad | unlockStore => true
  | _ => false

end MutexPc

/-- The lock's `owner` and the harts that use it, by id. -/
structure MutexSystem where
  owner : ℕ
  harts : List MutexPc
deriving DecidableEq, Repr

/-- What the scheduler lets happen next: a hart starts a call on the lock, or runs the next
atomic operation of the call it is in. -/
inductive MutexEvent
  | lock (hart : ℕ)
  | dropGuard (hart : ℕ)
  | run (hart : ℕ)
deriving DecidableEq, Repr

namespace MutexSystem

/-- `SpinMutex::new` with `n` harts that have not called it yet. -/
def new (n : ℕ) : MutexSystem := ⟨USIZE_MAX, List.replicate n .idle⟩

/-- Move hart `hart` to `pc`. -/
def setPc (s : MutexSystem) (hart : ℕ) (pc : MutexPc) : MutexSystem :=
  { s with harts := s.harts.set hart pc }

/-- The next atomic operation of hart `hart` at `pc`, whose `tp` is `hart`. -/
def runPc (s : MutexSystem) (hart : ℕ) : MutexPc → Except MutexPanic MutexSystem
  | .lockLoad | .relockLoad =>
    let old_owner := s.owner
    if old_owner = hart then .error (.selfLock hart) else .ok (s.setPc hart (.waitLoad 0))
  | .waitLoad try_count =>
    let cur_owner := s.owner
    if cur_owner = USIZE_MAX then .ok (s.setPc hart .lockCas)
    else if cur_owner ≥ MAX_PROCESSORS then .error (.badOwner cur_owner)
    -- `spin_loop(); try_count += 1`, and the deadlock check
    else if try_count + 1 = DEADLOCK_TRIES then .error (.deadlock hart (try_count + 1) cur_owner)
    else .ok (s.setPc hart (.waitLoad (try_count + 1)))
  | .lockCas =>
    if s.owner = USIZE_MAX then
      if hart < MAX_PROCESSORS then .ok { s.setPc hart .holding with owner := hart }
      else .error (.assertOwner hart)
    -- the exchange failed: `loop` again from the first load
    else .ok (s.setPc hart .lockLoad)
  | .unlockStore => .ok { s.setPc hart .idle with owner := USIZE_MAX }
  | .idle | .holding => .ok s

/-- Where `lock` starts: from no guard, and from holding the guard, which nothing stops before
the loop's first load. -/
def lockStart : MutexPc → Option MutexPc
  | .idle => some .lockLoad
  | .holding => some .relockLoad
  | _ => none

/-- Where the guard's `drop` starts: from holding it. -/
def dropStart : MutexPc → Option MutexPc
  | .holding => some .unlockStore
  | _ => none

/-- Hart `hart` starts a call at the place `start` gives for where it is. An event a hart is in
no position for changes nothing. -/
def call (s : MutexSystem) (hart : ℕ) (start : MutexPc → Option MutexPc) : MutexSystem :=
  match s.harts[hart]?.bind start with
  | some next => s.setPc hart next
  | none => s

/-- One step of the system; `none` where a hart panics. -/
def step (s : MutexSystem) : MutexEvent → Option MutexSystem
  | .lock hart => some (s.call hart lockStart)
  | .dropGuard hart => some (s.call hart dropStart)
  | .run hart =>
    match s.harts[hart]? with
    | some pc => (s.runPc hart pc).toOption
    | none => some s

/-- A run of events, in order. -/
def run (s : MutexSystem) (events : List MutexEvent) : Option MutexSystem := events.foldlM step s

end MutexSystem

end Chronix
