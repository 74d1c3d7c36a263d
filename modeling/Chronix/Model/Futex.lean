import Mathlib
import Chronix.Model.SysError
import Chronix.ToMathlib.Deque

/-! # The futex manager

`FutexManager` (`os/src/syscall/futex.rs`) keeps a `HashMap` from `FutexHashKey` to a
`VecDeque` of waiters. The map is a function to `Option` queues, as a `HashMap` is read through
`get_mut` and changed through `insert` and `remove` one key at a time; a queue is a list, front
first. Waking a waiter consumes it and calls its `Waker`, so each waking operation also returns
the waiters it woke, in the order it woke them. The waker itself is a type parameter: the
manager only moves it. A panic (an `unwrap` of `None`, an index past the end of a deque) is
`none`.
-/

namespace Chronix

/-- `FutexHashKey`: a shared futex by physical address, a private one by address space and
virtual address. -/
inductive FutexHashKey
  | shared (paddr : ℕ)
  | «private» (mm vaddr : ℕ)
deriving DecidableEq, Repr

/-- `FutexWaiter`. -/
structure FutexWaiter (ω : Type*) where
  tid : ℕ
  waker : ω
  mask : UInt32

/-- `FutexManager`. -/
structure FutexManager (ω : Type*) where
  futexs : FutexHashKey → Option (List (FutexWaiter ω))

namespace FutexManager

variable {ω : Type*}

/-- `FutexManager::new`. -/
def new : FutexManager ω := ⟨fun _ => none⟩

/-- `FutexManager::add_waiter`: to the back of the key's queue, created when missing. -/
def addWaiter (m : FutexManager ω) (key : FutexHashKey) (waiter : FutexWaiter ω) :
    FutexManager ω :=
  match m.futexs key with
  | some waiters => ⟨Function.update m.futexs key (some (waiters ++ [waiter]))⟩
  | none => ⟨Function.update m.futexs key (some [waiter])⟩

/-- `FutexManager::remove_waiter`: the first waiter of `tid` in the key's queue, removed at the
index the scan finds. An emptied queue stays in the map. -/
def removeWaiter (m : FutexManager ω) (key : FutexHashKey) (tid : ℕ) :
    Option (FutexWaiter ω) × FutexManager ω :=
  match m.futexs key with
  | some waiters =>
    match waiters.findIdx? (fun waiter => waiter.tid == tid) with
    | some i =>
      match waiters.removeAt? i with
      | some (removed, rest) => (some removed, ⟨Function.update m.futexs key (some rest)⟩)
      | none => (none, m)
    | none => (none, m)
  | none => (none, m)

/-- `FutexManager::wake`: pop and wake `min(n, len)` waiters from the front of the key's queue;
`EINVAL` when the key has no queue. -/
def wake (m : FutexManager ω) (key : FutexHashKey) (n : UInt32) :
    Option ((Except SysError ℕ × List (FutexWaiter ω)) × FutexManager ω) :=
  match m.futexs key with
  | some waiters =>
    let n := min n.toNat waiters.length
    (List.moveFront n waiters []).map fun (rest, woken) =>
      ((.ok n, woken), ⟨Function.update m.futexs key (some rest)⟩)
  | none => some ((.error .EINVAL, []), m)

/-- The `while` loop of `wake_bitset`. The loop tests the waiter at `len - 1 - i`, counted from
the back with the length `len` the queue had before the loop, and removes the one at `i`; it
returns the queue left, the count and the waiters woken. -/
def wakeBitset.loop (mask : UInt32) (len maxCount : ℕ) (waiters : List (FutexWaiter ω))
    (i count : ℕ) (woken : List (FutexWaiter ω)) :
    Option (List (FutexWaiter ω) × ℕ × List (FutexWaiter ω)) :=
  if _running : i < len ∧ count < maxCount then
    match waiters[len - 1 - i]? with
    | none => none
    | some tested =>
      if tested.mask &&& mask ≠ 0 then
        match waiters.removeAt? i with
        | some (waiter, rest) => wakeBitset.loop mask len maxCount rest i (count + 1) (woken ++ [waiter])
        | none => none
      else wakeBitset.loop mask len maxCount waiters (i + 1) count woken
  else some (waiters, count, woken)
termination_by (len - i) + (maxCount - count)
decreasing_by all_goals omega

/-- `FutexManager::wake_bitset`: wake up to `n` waiters of the key whose masks meet `mask`;
`EINVAL` when the key has no queue. -/
def wakeBitset (m : FutexManager ω) (key : FutexHashKey) (n mask : UInt32) :
    Option ((Except SysError ℕ × List (FutexWaiter ω)) × FutexManager ω) :=
  match m.futexs key with
  | some waiters =>
    (wakeBitset.loop mask waiters.length n.toNat waiters 0 0 []).map fun (rest, count, woken) =>
      ((.ok count, woken), ⟨Function.update m.futexs key (some rest)⟩)
  | none => some ((.error .EINVAL, []), m)

/-- `FutexManager::requeue_waiters`: take the old queue out of the map (`EINVAL` when there is
none), move its first `min(n_req, len)` waiters to the back of the new key's queue (created when
missing), then put the rest of the old queue back under the old key when it is not empty. -/
def requeueWaiters (m : FutexManager ω) (old new : FutexHashKey) (nReq : ℕ) :
    Option (Except SysError ℕ × FutexManager ω) :=
  match m.futexs old with
  | none => some (.error .EINVAL, m)
  | some oldWaiters =>
    let futexs := Function.update m.futexs old none
    let n := min nReq oldWaiters.length
    (List.moveFront n oldWaiters ((futexs new).getD [])).map fun (rest, newWaiters) =>
      let futexs := Function.update futexs new (some newWaiters)
      (.ok n, ⟨if rest ≠ [] then Function.update futexs old (some rest) else futexs⟩)

end FutexManager

end Chronix
