import Chronix.Model.Futex

/-! # What the futex manager does to the waiter queues

The abstract state is a FIFO queue of waiters for every key (`queues`), empty where the map has
none. Against it, `add_waiter`, `remove_waiter`, `wake` and a requeue between two different keys
do what a map of FIFO queues should: `queues_addWaiter`, `removeWaiter_spec`, `wake_of_present`
and `requeueWaiters_of_ne`. `wakeBitset_spec` shows that `wake_bitset`, whenever it returns,
neither loses nor duplicates a waiter. What goes wrong is in the two remaining cases:
`wake_bitset` tests one position and removes another, and a requeue onto its own key writes the
moved waiters over (`requeueWaiters_self`).
-/

namespace Chronix

namespace FutexManager

variable {ω : Type*}

/-- The queue of every key, empty where the map has none. -/
def queues (m : FutexManager ω) (key : FutexHashKey) : List (FutexWaiter ω) :=
  (m.futexs key).getD []

theorem queues_update (m : FutexManager ω) (key : FutexHashKey)
    (entry : Option (List (FutexWaiter ω))) :
    (⟨Function.update m.futexs key entry⟩ : FutexManager ω).queues =
      Function.update m.queues key (entry.getD []) := by
  funext other
  by_cases same : other = key
  · subst same
    simp [queues]
  · simp [queues, Function.update_of_ne same]

theorem queues_of_present {m : FutexManager ω} {key : FutexHashKey}
    {waiters : List (FutexWaiter ω)} (present : m.futexs key = some waiters) :
    m.queues key = waiters := by
  simp [queues, present]

/-- `add_waiter` appends to the key's queue. -/
theorem queues_addWaiter (m : FutexManager ω) (key : FutexHashKey) (waiter : FutexWaiter ω) :
    (m.addWaiter key waiter).queues = Function.update m.queues key (m.queues key ++ [waiter]) := by
  unfold addWaiter
  cases present : m.futexs key <;> simp [queues_update, queues, present]

/-- `remove_waiter` takes the first waiter of `tid` out of the key's queue, if there is one. -/
theorem removeWaiter_spec (m : FutexManager ω) (key : FutexHashKey) (tid : ℕ) :
    (m.removeWaiter key tid).1 = (m.queues key).find? (fun waiter => waiter.tid == tid) ∧
      (m.removeWaiter key tid).2.queues =
        Function.update m.queues key ((m.queues key).eraseP fun waiter => waiter.tid == tid) := by
  cases present : m.futexs key with
  | none => simp [removeWaiter, queues, present]
  | some waiters =>
    have queue := queues_of_present present
    cases first : waiters.findIdx? (fun waiter => waiter.tid == tid) with
    | none =>
      -- no waiter of `tid`: nothing is found and nothing is erased
      have missing := List.findIdx?_eq_none_iff.mp first
      have absent : waiters.find? (fun waiter => waiter.tid == tid) = none :=
        List.find?_eq_none.mpr fun waiter member => by simp [missing waiter member]
      have unchanged : waiters.eraseP (fun waiter => waiter.tid == tid) = waiters :=
        List.eraseP_of_forall_not fun waiter member => by simp [missing waiter member]
      simp only [removeWaiter, present, first, queue, absent, unchanged]
      exact ⟨trivial, by rw [← queue, Function.update_eq_self]⟩
    | some i =>
      have removal := List.removeAt?_findIdx? first
      cases found : waiters.find? (fun waiter => waiter.tid == tid) with
      | none =>
        have missing := List.find?_eq_none.mp found
        obtain ⟨inBounds, selected, -⟩ := List.findIdx?_eq_some_iff_getElem.mp first
        exact absurd selected (missing _ (List.getElem_mem inBounds))
      | some waiter =>
        rw [found, Option.map_some] at removal
        simp only [removeWaiter, present, first, removal, queue, found]
        exact ⟨trivial, queues_update m key _⟩

/-- `wake` on a key with a queue wakes its first `min(n, len)` waiters in order and leaves the
rest; the `unwrap`s of its `pop_front`s never fail. -/
theorem wake_of_present {m : FutexManager ω} {key : FutexHashKey} {waiters : List (FutexWaiter ω)}
    (present : m.futexs key = some waiters) (n : UInt32) :
    ∃ woke : FutexManager ω, m.wake key n =
        some ((.ok (min n.toNat waiters.length), waiters.take (min n.toNat waiters.length)), woke) ∧
      woke.queues = Function.update m.queues key (waiters.drop (min n.toNat waiters.length)) := by
  refine ⟨⟨Function.update m.futexs key (some (waiters.drop (min n.toNat waiters.length)))⟩, ?_,
    queues_update m key _⟩
  simp only [wake, present, List.moveFront_of_le (Nat.min_le_right _ _), Option.map_some,
    List.nil_append]

/-- A requeue between two keys moves the first `min(n_req, len)` waiters of the old queue to the
back of the new one, in order, and leaves the rest of the old queue. -/
theorem requeueWaiters_of_ne {m : FutexManager ω} {old new : FutexHashKey} (distinct : old ≠ new)
    {waiters : List (FutexWaiter ω)} (present : m.futexs old = some waiters) (nReq : ℕ) :
    ∃ moved : FutexManager ω, m.requeueWaiters old new nReq =
        some (.ok (min nReq waiters.length), moved) ∧
      moved.queues = Function.update (Function.update m.queues old
          (waiters.drop (min nReq waiters.length))) new
        (m.queues new ++ waiters.take (min nReq waiters.length)) := by
  refine ⟨_, by
    simp only [requeueWaiters, present, List.moveFront_of_le (Nat.min_le_right _ _), Option.map_some]
    rfl, ?_⟩
  funext key
  by_cases atNew : key = new
  · subst atNew
    split_ifs <;> simp [queues, Function.update_of_ne distinct.symm]
  · by_cases atOld : key = old
    · subst atOld
      split_ifs with remaining
      · simp [queues, Function.update_of_ne atNew]
      · simp [queues, Function.update_of_ne atNew, not_not.mp remaining]
    · split_ifs <;> simp [queues, Function.update_of_ne atNew, Function.update_of_ne atOld]

/-- A requeue onto its own key puts the old queue's remainder back over the moved waiters: the
key is left with the waiters that were not moved, or with all of them when all were moved. -/
theorem requeueWaiters_self {m : FutexManager ω} {key : FutexHashKey}
    {waiters : List (FutexWaiter ω)} (present : m.futexs key = some waiters) (nReq : ℕ) :
    ∃ requeued : FutexManager ω, m.requeueWaiters key key nReq =
        some (.ok (min nReq waiters.length), requeued) ∧
      requeued.queues key = if nReq < waiters.length then waiters.drop nReq else waiters := by
  refine ⟨_, by
    simp only [requeueWaiters, present, List.moveFront_of_le (Nat.min_le_right _ _), Option.map_some]
    rfl, ?_⟩
  by_cases partly : nReq < waiters.length
  · -- some waiters stay behind, and are put back over the moved ones
    simp [queues, partly, Nat.min_eq_left (Nat.le_of_lt partly)]
  · have moved : min nReq waiters.length = waiters.length :=
      Nat.min_eq_right (Nat.le_of_not_lt partly)
    simp [queues, partly, moved]

/-- The loop of `wake_bitset`, whenever it ends without a panic, moves waiters from the queue to
the woken list one at a time and counts them: what it woke and what it left are the queue it
started with. -/
theorem wakeBitset.loop_spec (mask : UInt32) (len maxCount : ℕ) (waiters : List (FutexWaiter ω))
    (i count : ℕ) (woken : List (FutexWaiter ω)) :
    ∀ rest count' woken', wakeBitset.loop mask len maxCount waiters i count woken =
        some (rest, count', woken') →
      ∃ extra, woken' = woken ++ extra ∧ count' = count + extra.length ∧
        (extra ++ rest).Perm waiters := by
  fun_induction wakeBitset.loop mask len maxCount waiters i count woken with
  | case1 => intro _ _ _ panicked; cases panicked
  | case2 waiters i count woken _ _ _ _ removed rest removal ih =>
    intro _ _ _ ran
    obtain ⟨extra, rfl, rfl, kept⟩ := ih _ _ _ ran
    refine ⟨removed :: extra, by simp, by simp; omega, ?_⟩
    exact (List.Perm.cons removed kept).trans (List.perm_of_removeAt? removal)
  | case3 => intro _ _ _ panicked; cases panicked
  | case4 _ _ _ _ _ _ _ _ ih => exact ih
  | case5 waiters i count woken _ =>
    intro _ _ _ finished
    cases finished
    exact ⟨[], by simp, rfl, List.Perm.refl _⟩

/-- `wake_bitset`, when it returns, wakes some of the key's waiters, reports how many, and keeps
all the others under the key: no waiter is lost or duplicated. -/
theorem wakeBitset_spec {m : FutexManager ω} {key : FutexHashKey} {n mask : UInt32}
    {count : ℕ} {woken : List (FutexWaiter ω)} {woke : FutexManager ω}
    (returned : m.wakeBitset key n mask = some ((.ok count, woken), woke)) :
    count = woken.length ∧ (woken ++ woke.queues key).Perm (m.queues key) ∧
      ∀ other, other ≠ key → woke.queues other = m.queues other := by
  unfold wakeBitset at returned
  cases present : m.futexs key with
  | none => simp [present] at returned
  | some waiters =>
    simp only [present, Option.map_eq_some_iff, Prod.exists] at returned
    obtain ⟨rest, count', woken', ran, result⟩ := returned
    cases result
    obtain ⟨extra, rfl, rfl, kept⟩ := wakeBitset.loop_spec mask _ _ waiters 0 0 [] _ _ _ ran
    refine ⟨by simp, ?_, fun other distinct => ?_⟩
    · simpa [queues_update, queues_of_present present] using kept
    · simp [queues_update, Function.update_of_ne distinct]

end FutexManager

/-- Three runs of the futex manager against a map of FIFO queues, on one shared key. Two waiters
whose masks both match: `wake_bitset` with `n = 2` removes the first, then tests index 1 of the
one-element queue and panics. A non-matching waiter before a matching one: `wake_bitset` tests
the back of the queue and wakes the front. A requeue of one waiter onto the same key: the
remainder is put back over it and the moved waiter is gone. -/
theorem futexManager_wakeBitset_requeue_violations :
    (((FutexManager.new.addWaiter (.shared 4096) ⟨1, (), 0xFFFFFFFF⟩).addWaiter (.shared 4096)
        ⟨2, (), 0xFFFFFFFF⟩).wakeBitset (.shared 4096) 2 0xFFFFFFFF = none) ∧
      ((((FutexManager.new.addWaiter (.shared 4096) ⟨1, (), 1⟩).addWaiter (.shared 4096)
        ⟨2, (), 2⟩).wakeBitset (.shared 4096) 1 2).map fun result => result.1.2) =
          some [⟨1, (), 1⟩] ∧
      ((((FutexManager.new.addWaiter (.shared 4096) ⟨1, (), 0xFFFFFFFF⟩).addWaiter (.shared 4096)
        ⟨2, (), 0xFFFFFFFF⟩).requeueWaiters (.shared 4096) (.shared 4096) 1).map
          fun result => result.2.queues (.shared 4096)) = some [⟨2, (), 0xFFFFFFFF⟩] := by
  refine ⟨?_, ?_, ?_⟩
  · simp [FutexManager.addWaiter, FutexManager.new, FutexManager.wakeBitset,
      FutexManager.wakeBitset.loop, List.removeAt?]
  · simp [FutexManager.addWaiter, FutexManager.new, FutexManager.wakeBitset,
      FutexManager.wakeBitset.loop, List.removeAt?]
  · simp [FutexManager.addWaiter, FutexManager.new, FutexManager.requeueWaiters,
      FutexManager.queues, List.moveFront]

end Chronix
