import Mathlib
import Chronix.Model.FutexOps
import Chronix.Soundness.Futex
import Chronix.Soundness.Protection
import Chronix.Soundness.SysFutex

/-! # What the waiting and the wake-op arms leave in the futex manager

A waiting caller is counted by `waiting`: the times its tid stands in the key's queue. The
waiting arm is meant to leave that count where it found it on every return. Each way of giving
up takes one waiter out (`futexGiveUp_spec`), so a wait that suspends and then resumes, or gives
up at once on an expired deadline, does (`futexWait_suspended`, `futexWaitResume_clean`,
`futexWait_returned`). The return for an invalid timeout comes after `add_awaiter` and takes
nothing out: the caller stays queued after the call has returned
(`futexWait_invalid_timeout_leaves_waiter`).

`FUTEX_WAKE_OP` changes no queue but the one at `uaddr` (`futexWakeOp_queues_of_ne`): the second
wake, meant for the waiters at `uaddr2`, is made at `uaddr` again. An operation code or a
comparison code out of the source's tables is a panic, after `*uaddr2` has been read and, for
the comparison, after the first wake.
-/

namespace Chronix

open Constant PageFaultAccessType

namespace FutexManager

variable {ω : Type*}

/-- How many times `tid` stands in the key's queue. -/
def waiting (fm : FutexManager ω) (key : FutexHashKey) (tid : ℕ) : ℕ :=
  (fm.queues key).countP fun waiter => waiter.tid == tid

theorem waiting_addAwaiter (fm : FutexManager ω) (key : FutexHashKey) (tid : ℕ) (waker : ω)
    (mask : UInt32) : (fm.addAwaiter key tid waker mask).waiting key tid = fm.waiting key tid + 1 := by
  simp [waiting, addAwaiter, queues_addWaiter]

theorem waiting_removeWaiter (fm : FutexManager ω) (key : FutexHashKey) (tid : ℕ) :
    (fm.removeWaiter key tid).2.waiting key tid = fm.waiting key tid - 1 := by
  rw [waiting, (removeWaiter_spec fm key tid).2, Function.update_self, List.countP_eraseP_self]
  rfl

theorem removeWaiter_eq_none_iff (fm : FutexManager ω) (key : FutexHashKey) (tid : ℕ) :
    (fm.removeWaiter key tid).1 = none ↔ fm.waiting key tid = 0 := by
  rw [(removeWaiter_spec fm key tid).1, List.find?_eq_none, waiting, List.countP_eq_zero]

/-- Giving up takes one waiter of `tid` out of the key's queue, and returns `Ok(0)` exactly when
there was none to take. -/
theorem futexGiveUp_spec (fm : FutexManager ω) (key : FutexHashKey) (tid : ℕ) (error : SysError) :
    (fm.futexGiveUp key tid error).2.waiting key tid = fm.waiting key tid - 1 ∧
      ((fm.futexGiveUp key tid error).1 = .ok 0 ↔ fm.waiting key tid = 0) := by
  have left := waiting_removeWaiter fm key tid
  have none_iff := removeWaiter_eq_none_iff fm key tid
  unfold futexGiveUp
  rcases removal : fm.removeWaiter key tid with ⟨_ | removed, after⟩
  · rw [removal] at left none_iff
    exact ⟨left, by simpa using none_iff⟩
  · rw [removal] at left none_iff
    refine ⟨left, ?_⟩
    simp only [reduceCtorEq, false_iff] at none_iff ⊢
    exact fun _ => none_iff ‹_›

end FutexManager

open FutexManager

section Waiting

variable {ω : Type*} {fm fm' : FutexManager ω} {key : FutexHashKey} {mask : UInt32} {tid : ℕ}
  {waker : ω} {val loaded : UInt32} {timeout : Option TimeSpec} {isRealtime : Bool} {cur : ℕ}

/-- A wait that suspends has queued its caller once. -/
theorem futexWait_suspended {dur : Option ℕ}
    (suspended : futexWait fm key mask tid waker val loaded timeout isRealtime cur =
      (.suspended dur, fm')) :
    fm'.waiting key tid = fm.waiting key tid + 1 := by
  by_cases mismatch : loaded = val
  swap
  · simp [futexWait, mismatch] at suspended
  -- every suspension keeps the manager that `add_awaiter` left
  have queued : fm' = fm.addAwaiter key tid waker mask := by
    cases timeout with
    | none =>
      simp [futexWait, mismatch] at suspended
      exact suspended.2.symm
    | some timeout =>
      cases valid : timeout.isValid
      · simp [futexWait, mismatch, valid] at suspended
      by_cases expired : timeout.toDuration ≤ cur <;> cases isRealtime <;>
        simp [futexWait, mismatch, valid, expired] at suspended <;> exact suspended.2.symm
  rw [queued]
  exact waiting_addAwaiter fm key tid waker mask

/-- Every return of the wait before its suspension, but the one for an invalid timeout, leaves
the caller's count in the queue as it was: nothing was queued, or the expired deadline took
out what `add_awaiter` put in. -/
theorem futexWait_returned {result : Except SysError ℕ}
    (returned : futexWait fm key mask tid waker val loaded timeout isRealtime cur =
      (.returned result, fm')) :
    result = .error .EINVAL ∨ fm'.waiting key tid = fm.waiting key tid := by
  by_cases mismatch : loaded = val
  swap
  · simp [futexWait, mismatch] at returned
    exact .inr (by rw [← returned.2])
  cases timeout with
  | none => simp [futexWait, mismatch] at returned
  | some timeout =>
    cases valid : timeout.isValid
    · simp [futexWait, mismatch, valid] at returned
      exact .inl returned.1.symm
    by_cases expired : timeout.toDuration ≤ cur <;> cases isRealtime <;>
      simp [futexWait, mismatch, valid, expired] at returned
    -- the expired realtime deadline: `add_awaiter`, then `remove_waiter`
    right
    rw [← returned.2, (futexGiveUp_spec _ key tid _).1, waiting_addAwaiter, Nat.add_sub_cancel]

/-- Once the task runs again with at most one waiter of its own in the queue, and, unless its
timeout ran out or a signal is pending, after a waker took that waiter out, the arm returns with
none of the caller's waiters left. -/
theorem futexWaitResume_clean {rem : Option ℕ} {pending : Bool}
    (atMostOnce : fm.waiting key tid ≤ 1)
    (woken : rem ≠ some 0 → pending = false → fm.waiting key tid = 0) :
    (futexWaitResume fm key tid rem pending).2.waiting key tid = 0 := by
  unfold futexWaitResume
  split_ifs with expired interrupted
  · rw [(futexGiveUp_spec fm key tid _).1]
    omega
  · rw [(futexGiveUp_spec fm key tid _).1]
    omega
  · exact woken expired (by simpa using interrupted)

/-- An invalid timeout is found after the caller has been queued, and the arm returns `EINVAL`
with the caller still in the queue. -/
theorem futexWait_invalid_timeout_leaves_waiter (fm : FutexManager ω) (key : FutexHashKey)
    (mask : UInt32) (tid : ℕ) (waker : ω) (val : UInt32) (timeout : TimeSpec) (isRealtime : Bool)
    (cur : ℕ) (invalid : timeout.isValid = false) :
    ∃ fm', futexWait fm key mask tid waker val val (some timeout) isRealtime cur =
        (.returned (.error .EINVAL), fm') ∧
      fm'.queues key = fm.queues key ++ [⟨tid, waker, mask⟩] ∧
      fm'.waiting key tid = fm.waiting key tid + 1 := by
  refine ⟨fm.addAwaiter key tid waker mask, ?_, ?_, waiting_addAwaiter fm key tid waker mask⟩
  · simp [futexWait, invalid]
  · simp [addAwaiter, queues_addWaiter]

end Waiting

/-- A caller with no waiter of its own at `⟨0, 0x10000⟩`, and a timeout of a second and a half
billion nanoseconds. -/
theorem futexWait_invalid_timeout_leaves_waiter_new :
    (⟨1, 1500000000⟩ : TimeSpec).isValid = false ∧
      ∃ fm', futexWait (FutexManager.new : FutexManager Unit) (.private 0 0x10000) 0xFFFFFFFF 1 ()
          0 0 (some ⟨1, 1500000000⟩) false 0 = (.returned (.error .EINVAL), fm') ∧
        fm'.queues (.private 0 0x10000) = [⟨1, (), 0xFFFFFFFF⟩] ∧
        fm'.waiting (.private 0 0x10000) 1 = 1 := by
  have invalid : (⟨1, 1500000000⟩ : TimeSpec).isValid = false := by decide
  obtain ⟨fm', returned, queued, counted⟩ :=
    futexWait_invalid_timeout_leaves_waiter (FutexManager.new : FutexManager Unit)
      (.private 0 0x10000) 0xFFFFFFFF 1 () 0 ⟨1, 1500000000⟩ false 0 invalid
  exact ⟨invalid, fm', returned, queued, counted⟩

/-! ## Wake-op -/

theorem wakeOpNewval_of_unknown {op : UInt32} (unknown : 4 < op &&& 0x7) (oldval actualOparg : UInt32) :
    wakeOpNewval op oldval actualOparg = none := by
  have other : ∀ code : UInt32, code ≤ 4 → op &&& 0x7 ≠ code :=
    fun code small same => absurd (same ▸ unknown) (UInt32.not_lt.mpr small)
  simp [wakeOpNewval, FUTEX_OP_SET, FUTEX_OP_ADD, FUTEX_OP_OR, FUTEX_OP_ANDN, FUTEX_OP_XOR,
    other 0 (by decide), other 1 (by decide), other 2 (by decide), other 3 (by decide),
    other 4 (by decide)]

theorem wakeOpCheck_of_unknown {cmp : UInt32} (unknown : 5 < cmp) (oldval cmparg : UInt32) :
    wakeOpCheck cmp oldval cmparg = none := by
  have other : ∀ code : UInt32, code ≤ 5 → cmp ≠ code :=
    fun code small same => absurd (same ▸ unknown) (UInt32.not_lt.mpr small)
  simp [wakeOpCheck, FUTEX_OP_CMP_EQ, FUTEX_OP_CMP_NE, FUTEX_OP_CMP_GE, FUTEX_OP_CMP_GT,
    FUTEX_OP_CMP_LE, FUTEX_OP_CMP_LT, other 0 (by decide), other 1 (by decide),
    other 2 (by decide), other 3 (by decide), other 4 (by decide), other 5 (by decide)]

namespace FutexManager

variable {ω : Type*}

/-- `wake` changes no queue but the key's. -/
theorem wake_queues_of_ne {m m' : FutexManager ω} {key : FutexHashKey} {n : UInt32}
    {outcome : Except SysError ℕ × List (FutexWaiter ω)}
    (woke : m.wake key n = some (outcome, m')) {other : FutexHashKey} (distinct : other ≠ key) :
    m'.queues other = m.queues other := by
  unfold wake at woke
  cases present : m.futexs key with
  | none =>
    simp only [present, Option.some.injEq, Prod.mk.injEq] at woke
    rw [← woke.2]
  | some waiters =>
    simp only [present, Option.map_eq_some_iff] at woke
    obtain ⟨_, -, woke⟩ := woke
    simp only [Prod.mk.injEq] at woke
    rw [← woke.2, queues_update, Function.update_of_ne distinct]

/-- `wake` on a key with a queue succeeds. -/
theorem wake_ok_of_present {m : FutexManager ω} {key : FutexHashKey}
    (present : (m.futexs key).isSome) (n : UInt32) :
    ∃ count woken m', m.wake key n = some ((.ok count, woken), m') := by
  obtain ⟨waiters, stored⟩ := Option.isSome_iff_exists.mp present
  obtain ⟨m', woke, -⟩ := wake_of_present stored n
  exact ⟨_, _, m', woke⟩

end FutexManager

section WakeOp

variable {ω : Type} (lazy : LazyFault) (s : UserVmSpace) (mm uaddr2 : ℕ) (isPrivate : Bool)
  (fm : FutexManager ω) (key : FutexHashKey) (val val2 val3 oldval : UInt32)

/-- An operation code past `FUTEX_OP_XOR` is a panic. -/
theorem futexWakeOp_of_unknown_op (unknown : (4 : UInt32) < ((val3 >>> 28) &&& 0xF) &&& 0x7) :
    futexWakeOp lazy s mm uaddr2 isPrivate fm key val val2 val3 oldval = none := by
  simp only [futexWakeOp, wakeOpNewval_of_unknown unknown]
  cases s.kernelAccess lazy uaddr2 READ <;> rfl

/-- A comparison code past `FUTEX_OP_CMP_GE` is a panic once the first wake has succeeded. -/
theorem futexWakeOp_of_unknown_cmp (present : (fm.futexs key).isSome)
    (unknown : (5 : UInt32) < (val3 >>> 24) &&& 0xF) :
    futexWakeOp lazy s mm uaddr2 isPrivate fm key val val2 val3 oldval = none := by
  obtain ⟨count, woken, woke, wake⟩ := FutexManager.wake_ok_of_present present val
  simp only [futexWakeOp, wake, wakeOpCheck_of_unknown unknown]
  cases s.kernelAccess lazy uaddr2 READ <;> simp

/-- `FUTEX_WAKE_OP` changes no queue but the one of `key`: both of its wakes are made there. -/
theorem futexWakeOp_queues_of_ne {r : Except SysError ℕ} {newval : UInt32}
    {fm' : FutexManager ω} {s' : UserVmSpace}
    (run : futexWakeOp lazy s mm uaddr2 isPrivate fm key val val2 val3 oldval =
      some (r, newval, fm', s'))
    {other : FutexHashKey} (distinct : other ≠ key) :
    fm'.queues other = fm.queues other := by
  simp only [futexWakeOp, Option.bind_eq_bind, Option.bind_eq_some_iff] at run
  obtain ⟨_, -, _, -, _, -, ⟨⟨woke1, _⟩, fm1⟩, first, run⟩ := run
  rw [← FutexManager.wake_queues_of_ne first distinct]
  -- past the first wake, the manager is `fm1`, or `fm1` after the second wake on `key`
  cases woke1 with
  | error =>
    cases run
    rfl
  | ok n1 =>
    simp only [Option.bind_eq_some_iff] at run
    obtain ⟨check, -, run⟩ := run
    cases check with
    | false =>
      cases run
      rfl
    | true =>
      simp only [if_true, Option.bind_eq_some_iff] at run
      obtain ⟨⟨key2, _⟩, -, run⟩ := run
      cases key2 with
      | error =>
        cases run
        rfl
      | ok =>
        simp only [Option.bind_eq_some_iff] at run
        obtain ⟨⟨⟨woke2, _⟩, fm2⟩, second, run⟩ := run
        rw [← FutexManager.wake_queues_of_ne second distinct]
        cases woke2 <;> cases run <;> rfl

/-- `FUTEX_WAKE_OP` panics on an operation code past `FUTEX_OP_XOR`, and on a comparison code past
`FUTEX_OP_CMP_GE` once it has woken waiters at `uaddr`; and whatever the comparison gives, it
leaves every queue but the one at `uaddr`, that of `uaddr2` included, as it was. -/
theorem futexWakeOp_panics_or_wakes_uaddr :
    ((4 : UInt32) < ((val3 >>> 28) &&& 0xF) &&& 0x7 →
        futexWakeOp lazy s mm uaddr2 isPrivate fm key val val2 val3 oldval = none) ∧
      ((fm.futexs key).isSome → (5 : UInt32) < (val3 >>> 24) &&& 0xF →
        futexWakeOp lazy s mm uaddr2 isPrivate fm key val val2 val3 oldval = none) ∧
      ∀ r newval fm' s', futexWakeOp lazy s mm uaddr2 isPrivate fm key val val2 val3 oldval =
          some (r, newval, fm', s') →
        ∀ other, other ≠ key → fm'.queues other = fm.queues other :=
  ⟨futexWakeOp_of_unknown_op lazy s mm uaddr2 isPrivate fm key val val2 val3 oldval,
    futexWakeOp_of_unknown_cmp lazy s mm uaddr2 isPrivate fm key val val2 val3 oldval,
    fun _ _ _ _ run _ distinct => futexWakeOp_queues_of_ne lazy s mm uaddr2 isPrivate fm key val
      val2 val3 oldval run distinct⟩

end WakeOp

/-- One waiter at `uaddr = 0x10000` and one at `uaddr2 = 0x10004`, both private futexes of the
address space `0`. -/
def twoQueues : FutexManager Unit :=
  (FutexManager.new.addWaiter (.private 0 0x10000) ⟨1, (), 0xFFFFFFFF⟩).addWaiter
    (.private 0 0x10004) ⟨2, (), 0xFFFFFFFF⟩

/-- On `twoQueues`, with `*uaddr2 = 0` mapped in `faultedSpace`: operation code `5` and comparison
code `6` panic; and `FUTEX_OP_SET` with `FUTEX_OP_CMP_EQ 0`, whose comparison holds, returns one
woken waiter and leaves the waiter at `uaddr2` queued, where Linux wakes it. -/
theorem futexWakeOp_panics_or_wakes_uaddr_twoQueues :
    futexWakeOp LazyFault.passEveryFault faultedSpace 0 0x10004 true twoQueues
        (.private 0 0x10000) 1 1 0x50000000 0 = none ∧
      futexWakeOp LazyFault.passEveryFault faultedSpace 0 0x10004 true twoQueues
        (.private 0 0x10000) 1 1 0x06000000 0 = none ∧
      wakeOpCheck 0 0 0 = some true ∧
      (∃ fm' s', futexWakeOp LazyFault.passEveryFault faultedSpace 0 0x10004 true twoQueues
          (.private 0 0x10000) 1 1 0 0 = some (.ok 1, 0, fm', s') ∧
        fm'.queues (.private 0 (VirtAddr.ofUsize 0x10004).val) = [⟨2, (), 0xFFFFFFFF⟩]) := by
  have unknownOp : (4 : UInt32) < (((0x50000000 : UInt32) >>> 28) &&& 0xF) &&& 0x7 := by decide
  have unknownCmp : (5 : UInt32) < ((0x06000000 : UInt32) >>> 24) &&& 0xF := by decide
  have present : (twoQueues.futexs (.private 0 0x10000)).isSome := by decide
  have ran : (futexWakeOp LazyFault.passEveryFault faultedSpace 0 0x10004 true twoQueues
      (.private 0 0x10000) 1 1 0 0).map (fun run => (run.1, run.2.1)) = some (.ok 1, 0) := by
    decide +kernel
  obtain ⟨⟨r, newval, fm', s'⟩, run⟩ := Option.map_eq_some_iff.mp ran
  simp only [Prod.mk.injEq] at run
  obtain ⟨run, rfl, rfl⟩ := run
  have kept := (futexWakeOp_panics_or_wakes_uaddr LazyFault.passEveryFault faultedSpace 0 0x10004
    true twoQueues (.private 0 0x10000) 1 1 0 0).2.2 _ _ _ _ run
    (.private 0 (VirtAddr.ofUsize 0x10004).val) (by decide)
  refine ⟨(futexWakeOp_panics_or_wakes_uaddr LazyFault.passEveryFault faultedSpace 0 0x10004 true
      twoQueues (.private 0 0x10000) 1 1 0x50000000 0).1 unknownOp,
    (futexWakeOp_panics_or_wakes_uaddr LazyFault.passEveryFault faultedSpace 0 0x10004 true
      twoQueues (.private 0 0x10000) 1 1 0x06000000 0).2.1 present unknownCmp,
    by decide, fm', s', run, ?_⟩
  rw [kept]
  rfl

end Chronix
