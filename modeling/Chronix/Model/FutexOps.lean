import Mathlib
import Chronix.Model.SysFutex
import Chronix.Model.Time

/-! # The waiting and the wake-op arms of `sys_futex`

`FUTEX_WAIT` and `FUTEX_WAIT_BITSET` go on, after the first read of `*uaddr` (`sysFutex`), in two
parts with other tasks running in between. `futexWait` runs up to the suspension: it compares
the value read with `val`, queues the caller with `add_awaiter` and, for a timed wait, reads and
checks the timeout. `futexWaitResume` is what runs once the task is scheduled again. Every way
the caller gives up waiting is the same block of the source, `futexGiveUp`.

`FUTEX_WAKE_OP` (`futexWakeOp`) decodes `val3`, replaces `*uaddr2` by the operation's result,
wakes waiters at `uaddr` and, when the comparison holds, wakes again. The kernel is built
without SMP, and nothing runs between the load of `*uaddr2` and the `compare_exchange` after
it, so the exchange succeeds at its first try and the loop's `EBUSY` is never returned.

The value of a user word that the code loads is a parameter, as the address space model holds
no memory contents; the accesses themselves go through `kernelAccess`, which models the traps.
What `add_awaiter` and the resumption do to the task's own state (its interruptible and
running marks, its wake-up signals) is left out: the model follows the futex manager.
-/

namespace Chronix

open Constant PageFaultAccessType

/-- The key of the futex at `uaddr` as every arm of `sys_futex` builds it: from the address for
a private futex, and through `translate_uva_checked` for a shared one. -/
def futexKey (lazy : LazyFault) (s : UserVmSpace) (mm uaddr : ℕ) (isPrivate : Bool) :
    Option (Except SysError FutexHashKey × UserVmSpace) :=
  if isPrivate then some (.ok (.private mm (VirtAddr.ofUsize uaddr).val), s)
  else
    (s.translateUvaChecked lazy (VirtAddr.ofUsize uaddr) WRITE).map fun (paddr, s) =>
      (match paddr with
        | some paddr => .ok (.shared paddr)
        | none => .error .EINVAL, s)

/-! ## Waiting -/

namespace FutexManager

variable {ω : Type*}

/-- `add_awaiter`: the caller, with its waker and mask, to the back of the key's queue. -/
def addAwaiter (fm : FutexManager ω) (key : FutexHashKey) (tid : ℕ) (waker : ω) (mask : UInt32) :
    FutexManager ω :=
  fm.addWaiter key ⟨tid, waker, mask⟩

/-- The block the waiting arm runs at each way of giving up the wait: `remove_waiter`, and
`Ok(0)` when a waker had already taken the caller out of the queue, `error` otherwise. -/
def futexGiveUp (fm : FutexManager ω) (key : FutexHashKey) (tid : ℕ) (error : SysError) :
    Except SysError ℕ × FutexManager ω :=
  match fm.removeWaiter key tid with
  | (none, fm) => (.ok 0, fm)
  | (some _, fm) => (.error error, fm)

end FutexManager

/-- Where the waiting arm stands when it stops: returned with a result, or suspended, for
`dur` nanoseconds by `suspend_timeout` or with no limit by `suspend_now`. -/
inductive FutexWaitStage
  | returned (result : Except SysError ℕ)
  | suspended (dur : Option ℕ)
deriving DecidableEq, Repr

open FutexManager in
/-- The waiting arm of `sys_futex` from its first read of `*uaddr`, which gave `loaded`, up to
the suspension, for the caller `tid` with waker `waker`. `timeout` is the `TimeSpec` that
`timeout` points at, `none` for a null pointer; `cur` is `get_current_time_duration()`. -/
def futexWait {ω : Type*} (fm : FutexManager ω) (key : FutexHashKey) (mask : UInt32) (tid : ℕ)
    (waker : ω) (val loaded : UInt32) (timeout : Option TimeSpec) (isRealtime : Bool) (cur : ℕ) :
    FutexWaitStage × FutexManager ω :=
  -- the second load, under the futex manager's lock, reads what the first one read
  if loaded ≠ val then (.returned (.error .EAGAIN), fm)
  else
    let fm := fm.addAwaiter key tid waker mask
    match timeout with
    | none => (.suspended none, fm)
    | some timeout =>
      -- the timeout is read and checked after the caller is queued
      if !timeout.isValid then (.returned (.error .EINVAL), fm)
      else if isRealtime then
        if timeout.toDuration ≤ cur then
          let (result, fm) := fm.futexGiveUp key tid .ETIMEOUT
          (.returned result, fm)
        else (.suspended (some (timeout.toDuration - cur)), fm)
      else (.suspended (some timeout.toDuration), fm)

open FutexManager in
/-- The waiting arm once the task runs again. `rem` is what `suspend_timeout` returned for a
timed wait, `none` after `suspend_now`; `pending` is whether a signal the task does not block
is pending (`check_pending_flag(!blocked_sigs)`). -/
def futexWaitResume {ω : Type*} (fm : FutexManager ω) (key : FutexHashKey) (tid : ℕ)
    (rem : Option ℕ) (pending : Bool) : Except SysError ℕ × FutexManager ω :=
  if rem = some 0 then fm.futexGiveUp key tid .ETIMEOUT
  else if pending then fm.futexGiveUp key tid .EINTR
  else (.ok 0, fm)

/-! ## Wake-op -/

def FUTEX_OP_SET : UInt32 := 0
def FUTEX_OP_ADD : UInt32 := 1
def FUTEX_OP_OR : UInt32 := 2
def FUTEX_OP_ANDN : UInt32 := 3
def FUTEX_OP_XOR : UInt32 := 4
def FUTEX_OP_ARG_SHIFT : UInt32 := 8

def FUTEX_OP_CMP_EQ : UInt32 := 0
def FUTEX_OP_CMP_NE : UInt32 := 1
def FUTEX_OP_CMP_LT : UInt32 := 2
def FUTEX_OP_CMP_LE : UInt32 := 3
def FUTEX_OP_CMP_GT : UInt32 := 4
def FUTEX_OP_CMP_GE : UInt32 := 5

/-- The `match op & 0x7` in the loop of `FUTEX_WAKE_OP`: the value stored over `oldval`.
`none` is the `panic!("Unknown futex op")`. -/
def wakeOpNewval (op oldval actualOparg : UInt32) : Option UInt32 :=
  if op &&& 0x7 = FUTEX_OP_SET then some actualOparg
  else if op &&& 0x7 = FUTEX_OP_ADD then some (oldval + actualOparg)
  else if op &&& 0x7 = FUTEX_OP_OR then some (oldval ||| actualOparg)
  else if op &&& 0x7 = FUTEX_OP_ANDN then some (oldval &&& ~~~actualOparg)
  else if op &&& 0x7 = FUTEX_OP_XOR then some (oldval ^^^ actualOparg)
  else none

/-- The `match cmp` of `FUTEX_WAKE_OP`. `none` is the `panic!("Unknown futex op cmp")`. -/
def wakeOpCheck (cmp oldval cmparg : UInt32) : Option Bool :=
  if cmp = FUTEX_OP_CMP_EQ then some (oldval == cmparg)
  else if cmp = FUTEX_OP_CMP_NE then some (oldval != cmparg)
  else if cmp = FUTEX_OP_CMP_GE then some (decide (oldval ≥ cmparg))
  else if cmp = FUTEX_OP_CMP_GT then some (decide (oldval > cmparg))
  else if cmp = FUTEX_OP_CMP_LE then some (decide (oldval ≤ cmparg))
  else if cmp = FUTEX_OP_CMP_LT then some (decide (oldval < cmparg))
  else none

/-- The `FUTEX_WAKE_OP` arm of `sys_futex`, for the futex of `key` at `uaddr`, `val2` the low
32 bits of `timeout`, and `oldval` the value of `*uaddr2`. It returns the result, the new value
of `*uaddr2`, the futex manager and the address space. -/
def futexWakeOp {ω : Type} (lazy : LazyFault) (s : UserVmSpace) (mm uaddr2 : ℕ)
    (isPrivate : Bool) (fm : FutexManager ω) (key : FutexHashKey) (val val2 val3 oldval : UInt32) :
    Option (Except SysError ℕ × UInt32 × FutexManager ω × UserVmSpace) := do
  let op := (val3 >>> 28) &&& 0xF
  let cmp := (val3 >>> 24) &&& 0xF
  let oparg := (val3 >>> 12) &&& 0xFFF
  let cmparg := val3 &&& 0xFFF
  -- a release build masks the shift amount to its low five bits, as `<<<` on `UInt32` does
  let actualOparg := if op &&& FUTEX_OP_ARG_SHIFT ≠ 0 then 1 <<< oparg else oparg
  let s ← s.kernelAccess lazy uaddr2 READ
  let newval ← wakeOpNewval op oldval actualOparg
  let s ← s.kernelAccess lazy uaddr2 WRITE
  let ((woke1, _), fm) ← fm.wake key val
  match woke1 with
  | .error error => some (.error error, newval, fm, s)
  | .ok n1 =>
    let check ← wakeOpCheck cmp oldval cmparg
    if check then
      let (key2, s) ← futexKey lazy s mm uaddr2 isPrivate
      match key2 with
      | .error error => some (.error error, newval, fm, s)
      | .ok _ =>
        -- the second wake is on `key`: `key2` is computed and left unused
        let ((woke2, _), fm) ← fm.wake key val2
        match woke2 with
        | .error error => some (.error error, newval, fm, s)
        | .ok n2 => some (.ok (n1 + n2), newval, fm, s)
    else some (.ok n1, newval, fm, s)

end Chronix
