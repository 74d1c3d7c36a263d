import Mathlib
import Chronix.Model.Signal

/-! # The signal manager keeps its queue and its bitmap in step

A `SigManager` holds each pending standard signal twice: in the queue and as a bit of the
bitmap. `Wf` says the two agree, the queue holds each standard number at most once, and every
real-time queue is filed under the real-time number of its signals. `receive` of a signal
numbered from 1 to `SIGRTMAX`, `dequeue_one` and `dequeue_expected_one` keep `Wf`
(`Wf.receive`, `Wf.dequeue_one`, `Wf.dequeue_expected_one`), and on a `Wf` manager
`dequeue_one` never hands out signal 0, the one its caller asserts against, and never fails one
of its own asserts. `check_pending` peeks at what `dequeue_expected_one` takes, and its flag says
whether there is one (`Wf.check_pending_flag_eq`).

Signal 0 is outside this: its bit is bit 63, which `Wf` keeps clear, and it passes the
`signo < SIGRTMIN` test as a standard signal.
-/

/-- Removing the first element that passes a test leaves the others: the one `find?` finds. -/
theorem List.perm_cons_eraseP_of_find? {α : Type*} {p : α → Bool} {l : List α} {a : α}
    (found : l.find? p = some a) : (a :: l.eraseP p).Perm l := by
  obtain ⟨passes, before, after, rfl, skipped⟩ := List.find?_eq_some_iff_append.mp found
  rw [List.eraseP_append_right _ (fun b member => by simpa using skipped b member),
    List.eraseP_cons_of_pos passes]
  exact List.perm_middle.symm

namespace Chronix

namespace SigSet

/-- Signal `signo` owns bit `(signo + 63) % 64`: the shift amount `signo - 1`, wrapped and
masked. -/
theorem getLsbD_sigBit (signo i : ℕ) :
    (sigBit signo).getLsbD i = decide ((signo + 63) % 64 = i) := by
  have index : usizeSub signo 1 % 64 = (signo + 63) % 64 := by unfold usizeSub usizeWrap; omega
  rw [sigBit, ← BitVec.twoPow_eq, BitVec.getLsbD_twoPow, index]
  simp [Nat.mod_lt _ (show 0 < 64 by decide)]

theorem contain_sig_eq (s : SigSet) (signo : ℕ) :
    s.contain_sig signo = s.bits.getLsbD ((signo + 63) % 64) := by
  rw [contain_sig]
  cases bit : s.bits.getLsbD ((signo + 63) % 64)
  · rw [beq_eq_false_iff_ne]
    intro same
    have atBit := congrArg (fun b : BitVec 64 => b.getLsbD ((signo + 63) % 64)) same
    simp [BitVec.getLsbD_and, getLsbD_sigBit, bit] at atBit
  · rw [beq_iff_eq]
    apply BitVec.eq_of_getLsbD_eq
    intro i _
    rw [BitVec.getLsbD_and, getLsbD_sigBit]
    by_cases same : (signo + 63) % 64 = i
    · subst same
      simp [bit]
    · simp [same]

@[simp] theorem contain_sig_empty (signo : ℕ) : empty.contain_sig signo = false := by
  simp [contain_sig_eq, empty]

theorem contain_sig_add_sig (s : SigSet) (a b : ℕ) :
    (s.add_sig a).contain_sig b = (s.contain_sig b || decide ((a + 63) % 64 = (b + 63) % 64)) := by
  simp only [contain_sig_eq, add_sig, BitVec.getLsbD_or, getLsbD_sigBit]

theorem contain_sig_remove_sig (s : SigSet) (a b : ℕ) :
    (s.remove_sig a).contain_sig b =
      (s.contain_sig b && !decide ((a + 63) % 64 = (b + 63) % 64)) := by
  simp only [contain_sig_eq, remove_sig, BitVec.getLsbD_and, BitVec.getLsbD_not, getLsbD_sigBit,
    Nat.mod_lt _ (show 0 < 64 by decide), decide_true, Bool.true_and]

theorem contain_sig_and (s t : SigSet) (signo : ℕ) :
    (s &&& t).contain_sig signo = (s.contain_sig signo && t.contain_sig signo) := by
  simp only [contain_sig_eq]
  exact BitVec.getLsbD_and

/-- A set is empty when it holds none of the signals 1 to `SIGRTMAX`, which own the 64 bits. -/
theorem is_empty_iff (s : SigSet) :
    s.is_empty = true ↔ ∀ signo, 1 ≤ signo → signo ≤ SIGRTMAX → s.contain_sig signo = false := by
  rw [is_empty, beq_iff_eq]
  constructor
  · rintro empty signo - -
    simp [contain_sig_eq, empty]
  · intro none
    apply BitVec.eq_of_getLsbD_eq
    intro i below
    have clear := none (i + 1) (by omega) (by unfold SIGRTMAX; omega)
    rw [contain_sig_eq, show (i + 1 + 63) % 64 = i by omega] at clear
    simp [clear]

/-- Signals 1 to `SIGRTMAX` own distinct bits. -/
theorem sameBit_iff {a b : ℕ} (lowA : 1 ≤ a) (highA : a ≤ SIGRTMAX) (lowB : 1 ≤ b)
    (highB : b ≤ SIGRTMAX) : (a + 63) % 64 = (b + 63) % 64 ↔ a = b := by
  unfold SIGRTMAX at highA highB
  omega

end SigSet

namespace SigManager

variable {m : SigManager}

/-- The queue of standard signals and the bitmap agree, and the real-time queues are filed under
their numbers. -/
structure Wf (m : SigManager) : Prop where
  standard : ∀ sig ∈ m.pending_sigs, 1 ≤ sig.si_signo ∧ sig.si_signo < SIGRTMIN
  nodup : (m.pending_sigs.map SigInfo.si_signo).Nodup
  bitmap : ∀ signo, 1 ≤ signo → signo ≤ SIGRTMAX →
    (m.bitmap.contain_sig signo = true ↔ ∃ sig ∈ m.pending_sigs, sig.si_signo = signo)
  realTime : ∀ entry ∈ m.pending_rt_sigs.entries, SIGRTMIN ≤ entry.1 ∧ entry.1 ≤ SIGRTMAX ∧
    ∀ sig ∈ entry.2, sig.si_signo = entry.1

theorem wf_new : Wf new where
  standard := by simp [new]
  nodup := by simp [new]
  bitmap := by simp [new]
  realTime := by simp [new]

theorem wf_from_another (other : SigManager) : Wf (from_another other) where
  standard := by simp [from_another, new]
  nodup := by simp [from_another, new]
  bitmap := by simp [from_another, new]
  realTime := by simp [from_another, new]

/-- Reordering the queue keeps `Wf`. -/
theorem Wf.permute (wf : Wf m) {queue : List SigInfo} (perm : queue.Perm m.pending_sigs) :
    Wf { m with pending_sigs := queue } where
  standard sig member := wf.standard sig (perm.mem_iff.mp member)
  nodup := ((perm.map SigInfo.si_signo).nodup_iff).mpr wf.nodup
  bitmap signo low high := by
    rw [wf.bitmap signo low high]
    simp only [perm.mem_iff]
  realTime := wf.realTime

/-- Taking a signal out of the queue and its bit out of the bitmap keeps `Wf`. -/
theorem Wf.take (wf : Wf m) {sig : SigInfo} {rest : List SigInfo}
    (perm : (sig :: rest).Perm m.pending_sigs) :
    Wf { m with pending_sigs := rest, bitmap := m.bitmap.remove_sig sig.si_signo } := by
  have inQueue : ∀ other ∈ rest, other ∈ m.pending_sigs :=
    fun other member => perm.mem_iff.mp (List.mem_cons_of_mem _ member)
  have distinct : (sig :: rest).map SigInfo.si_signo |>.Nodup :=
    ((perm.map SigInfo.si_signo).nodup_iff).mpr wf.nodup
  rw [List.map_cons, List.nodup_cons] at distinct
  obtain ⟨low, high⟩ := wf.standard sig (perm.mem_iff.mp List.mem_cons_self)
  refine ⟨fun other member => wf.standard other (inQueue other member), distinct.2, ?_, wf.realTime⟩
  intro signo lowSigno highSigno
  have sameBit := SigSet.sameBit_iff low (by unfold SIGRTMIN SIGRTMAX at *; omega) lowSigno highSigno
  simp only [SigSet.contain_sig_remove_sig, sameBit, Bool.and_eq_true, wf.bitmap signo lowSigno highSigno,
    Bool.not_eq_true', decide_eq_false_iff_not]
  constructor
  · rintro ⟨⟨other, member, rfl⟩, differs⟩
    rcases List.mem_cons.mp (perm.mem_iff.mpr member) with rfl | inRest
    · exact absurd rfl differs
    · exact ⟨other, inRest, rfl⟩
  · rintro ⟨other, member, rfl⟩
    refine ⟨⟨other, inQueue other member, rfl⟩, fun same => distinct.1 ?_⟩
    rw [same]
    exact List.mem_map_of_mem member

/-- Popping the front of a real-time queue keeps `Wf`. -/
theorem Wf.popRealTime (wf : Wf m) (signo : ℕ) :
    Wf { m with pending_rt_sigs := m.pending_rt_sigs.modify signo List.tail } := by
  refine ⟨wf.standard, wf.nodup, wf.bitmap, ?_⟩
  intro entry member
  rcases (SortedMap.mem_modify _ _ _ _).mp member with ⟨queue, stored, rfl⟩ | ⟨stored, -⟩
  · obtain ⟨low, high, filed⟩ := wf.realTime _ stored
    exact ⟨low, high, fun sig inTail => filed sig (List.mem_of_mem_tail inTail)⟩
  · exact wf.realTime entry stored

/-! ## Receiving -/

/-- `receive` of a signal numbered from 1 to `SIGRTMAX` does not panic and keeps `Wf`. -/
theorem Wf.receive (wf : Wf m) {sig : SigInfo} (low : 1 ≤ sig.si_signo)
    (high : sig.si_signo ≤ SIGRTMAX) : ∃ m', m.receive sig = some m' ∧ Wf m' := by
  unfold SigManager.receive
  dsimp only
  split_ifs with standard queued
  · -- a standard signal whose bit is clear is queued and its bit set
    refine ⟨_, rfl, ⟨?_, ?_, ?_, wf.realTime⟩⟩
    · intro other member
      rcases List.mem_append.mp member with inQueue | fresh
      · exact wf.standard other inQueue
      · rw [List.mem_singleton.mp fresh]
        exact ⟨low, standard⟩
    · have absent : ∀ other ∈ m.pending_sigs, other.si_signo ≠ sig.si_signo := by
        intro other inQueue same
        have present := (wf.bitmap _ low high).mpr ⟨other, inQueue, same⟩
        simp [present] at queued
      simpa [List.nodup_append] using ⟨wf.nodup, absent⟩
    · intro signo lowSigno highSigno
      have sameBit := SigSet.sameBit_iff low high lowSigno highSigno
      simp only [SigSet.contain_sig_add_sig, sameBit, Bool.or_eq_true,
        wf.bitmap signo lowSigno highSigno, decide_eq_true_eq, List.mem_append, List.mem_singleton]
      constructor
      · rintro (⟨other, member, rfl⟩ | rfl)
        · exact ⟨other, .inl member, rfl⟩
        · exact ⟨sig, .inr rfl, rfl⟩
      · rintro ⟨other, member | rfl, rfl⟩
        · exact .inl ⟨other, member, rfl⟩
        · exact .inr rfl
  · exact ⟨m, rfl, wf⟩
  · -- a real-time signal joins the queue of its number
    refine ⟨_, rfl, ⟨wf.standard, wf.nodup, wf.bitmap, ?_⟩⟩
    intro entry member
    rcases (SortedMap.mem_insert _ _ _ _).mp member with rfl | ⟨stored, -⟩
    · refine ⟨not_lt.mp standard, high, fun other queued => ?_⟩
      rcases List.mem_append.mp queued with old | fresh
      · cases stored : m.pending_rt_sigs.get? sig.si_signo with
        | none => simp [stored] at old
        | some queue =>
          rw [stored, Option.getD_some] at old
          exact (wf.realTime _ ((SortedMap.get?_eq_some_iff _ _ _).mp stored)).2.2 other old
      · rw [List.mem_singleton.mp fresh]
    · exact wf.realTime entry stored

/-! ## Dequeuing -/

/-- The first stage of `dequeue_one` hands out a signal of the queue and leaves the others,
reordered. -/
theorem dequeueStandard_perm (blocked : SigSet) (fuel : ℕ) (queue : List SigInfo) :
    ((dequeueStandard blocked fuel queue).1.toList ++ (dequeueStandard blocked fuel queue).2).Perm
      queue := by
  induction fuel generalizing queue with
  | zero => simp [dequeueStandard]
  | succ fuel ih =>
    cases queue with
    | nil => simp [dequeueStandard]
    | cons sig rest =>
      rw [dequeueStandard]
      split_ifs
      · exact (ih (rest ++ [sig])).trans (List.perm_append_singleton sig rest)
      · simp

/-- The second stage of `dequeue_one` panics only on a queue filed outside the real-time
numbers. -/
theorem dequeueRealTime_ne_none (blocked : SigSet) {entries : List (ℕ × List SigInfo)}
    (filed : ∀ entry ∈ entries, SIGRTMIN ≤ entry.1 ∧ entry.1 ≤ SIGRTMAX) :
    dequeueRealTime blocked entries ≠ none := by
  induction entries with
  | nil => simp [dequeueRealTime]
  | cons entry rest ih =>
    obtain ⟨signo, queue⟩ := entry
    have rest_filed := fun other member => filed other (List.mem_cons_of_mem _ member)
    rw [dequeueRealTime.eq_def]
    dsimp only
    rw [if_pos (filed _ List.mem_cons_self)]
    split_ifs
    · exact ih rest_filed
    · split
      · simp
      · exact ih rest_filed

/-- What the second stage hands out is the front of a stored queue. -/
theorem mem_of_dequeueRealTime {blocked : SigSet} {entries : List (ℕ × List SigInfo)}
    {signo : ℕ} {sig : SigInfo} (found : dequeueRealTime blocked entries = some (some (signo, sig))) :
    ∃ queue, (signo, queue) ∈ entries ∧ sig ∈ queue := by
  induction entries with
  | nil => simp [dequeueRealTime] at found
  | cons entry rest ih =>
    obtain ⟨key, queue⟩ := entry
    have later : dequeueRealTime blocked rest = some (some (signo, sig)) →
        ∃ queue', (signo, queue') ∈ (key, queue) :: rest ∧ sig ∈ queue' := by
      intro foundLater
      obtain ⟨other, member, holds⟩ := ih foundLater
      exact ⟨other, List.mem_cons_of_mem _ member, holds⟩
    cases queue with
    | nil =>
      rw [dequeueRealTime.eq_def] at found
      dsimp only at found
      split_ifs at found
      all_goals exact later found
    | cons first tail =>
      rw [dequeueRealTime.eq_def] at found
      dsimp only at found
      split_ifs at found
      · exact later found
      · simp only [Option.some.injEq, Prod.mk.injEq] at found
        obtain ⟨rfl, rfl⟩ := found
        exact ⟨first :: tail, List.mem_cons_self, List.mem_cons_self⟩

/-- `dequeue_one` on a `Wf` manager does not panic, keeps `Wf`, and hands out a signal numbered
from 1 to `SIGRTMAX`: the `assert!(sig.si_signo != 0)` of `check_and_handle` holds. -/
theorem Wf.dequeue_one (wf : Wf m) :
    ∃ r m', m.dequeue_one = some (r, m') ∧ Wf m' ∧
      ∀ sig, r = some sig → 1 ≤ sig.si_signo ∧ sig.si_signo ≤ SIGRTMAX := by
  have perm := dequeueStandard_perm m.blocked_sigs m.pending_sigs.length m.pending_sigs
  unfold SigManager.dequeue_one
  cases stage : dequeueStandard m.blocked_sigs m.pending_sigs.length m.pending_sigs with
  | mk taken rest =>
    rw [stage] at perm
    cases taken with
    | some sig =>
      obtain ⟨low, high⟩ := wf.standard sig (perm.mem_iff.mp (by simp))
      refine ⟨_, _, rfl, wf.take perm, ?_⟩
      rintro _ ⟨⟩
      exact ⟨low, by unfold SIGRTMIN SIGRTMAX at *; omega⟩
    | none =>
      have reordered := wf.permute (show rest.Perm m.pending_sigs by simpa using perm)
      have filed := fun entry member => (wf.realTime entry member).imp_right And.left
      cases found : dequeueRealTime m.blocked_sigs m.pending_rt_sigs.entries with
      | none => exact absurd found (dequeueRealTime_ne_none _ filed)
      | some result =>
        cases result with
        | none => exact ⟨_, _, rfl, reordered, by simp⟩
        | some pair =>
          obtain ⟨signo, sig⟩ := pair
          obtain ⟨queue, stored, member⟩ := mem_of_dequeueRealTime found
          obtain ⟨low, high, numbered⟩ := wf.realTime _ stored
          refine ⟨_, _, rfl, reordered.popRealTime signo, ?_⟩
          rintro _ ⟨⟩
          rw [numbered sig member]
          exact ⟨by unfold SIGRTMIN at low; omega, high⟩

/-! ## Which signal comes out -/

/-- A queued standard signal that `dequeue_one` may hand out: `SIGKILL`, `SIGSTOP`, or one that
is not blocked. -/
def Ready (blocked : SigSet) (sig : SigInfo) : Prop :=
  sig.si_signo = SIGKILL ∨ sig.si_signo = SIGSTOP ∨ blocked.contain_sig sig.si_signo = false

/-- A real-time queue that `dequeue_one` may take from: its number is not blocked and it is not
empty. -/
def RealTimeReady (blocked : SigSet) (entry : ℕ × List SigInfo) : Prop :=
  blocked.contain_sig entry.1 = false ∧ entry.2 ≠ []

/-- The test by which the first stage pushes a signal back is exactly that it is not ready. -/
theorem not_ready_iff (blocked : SigSet) (sig : SigInfo) :
    ¬ Ready blocked sig ↔
      sig.si_signo ≠ SIGKILL ∧ sig.si_signo ≠ SIGSTOP ∧ blocked.contain_sig sig.si_signo = true := by
  simp only [Ready, not_or, Bool.not_eq_false]

/-- The first `n` rounds of the first stage find a signal exactly when one of the first `n`
queued signals is ready: each blocked one goes behind the others and is not met again. -/
theorem dequeueStandard_isSome_iff (blocked : SigSet) (n : ℕ) (queue : List SigInfo)
    (rounds : n ≤ queue.length) :
    (dequeueStandard blocked n queue).1.isSome ↔ ∃ sig ∈ queue.take n, Ready blocked sig := by
  induction n generalizing queue with
  | zero => simp [dequeueStandard]
  | succ n ih =>
    cases queue with
    | nil => exact absurd rounds (by simp)
    | cons sig rest =>
      have later : n ≤ rest.length := by simpa using rounds
      rw [dequeueStandard, List.take_succ_cons, List.exists_mem_cons_iff]
      split_ifs with pushed
      · -- `sig` is blocked: it goes to the back, past the `n` rounds left
        rw [ih (rest ++ [sig]) (by simp; omega), List.take_append_of_le_length later]
        exact ⟨.inr, fun found => found.resolve_left ((not_ready_iff blocked sig).mpr pushed)⟩
      · exact iff_of_true rfl (.inl (not_not.mp (mt (not_ready_iff blocked sig).mp pushed)))

/-- What the first stage hands out is ready. -/
theorem ready_of_dequeueStandard {blocked : SigSet} {n : ℕ} {queue rest : List SigInfo}
    {sig : SigInfo} (found : dequeueStandard blocked n queue = (some sig, rest)) :
    Ready blocked sig := by
  induction n generalizing queue with
  | zero => simp [dequeueStandard] at found
  | succ n ih =>
    cases queue with
    | nil => simp [dequeueStandard] at found
    | cons first others =>
      rw [dequeueStandard] at found
      split_ifs at found with pushed
      · exact ih found
      · simp only [Prod.mk.injEq, Option.some.injEq] at found
        obtain ⟨rfl, -⟩ := found
        exact not_not.mp (mt (not_ready_iff blocked _).mp (by simpa using pushed))

/-- The second stage over queues sorted by number: it finds nothing exactly when no queue is
ready, and otherwise the front of the ready queue with the least number. -/
theorem dequeueRealTime_spec (blocked : SigSet) {entries : List (ℕ × List SigInfo)}
    (sorted : entries.Pairwise fun a b => a.1 < b.1)
    (filed : ∀ entry ∈ entries, SIGRTMIN ≤ entry.1 ∧ entry.1 ≤ SIGRTMAX) :
    (dequeueRealTime blocked entries = some none ↔ ∀ entry ∈ entries, ¬ RealTimeReady blocked entry) ∧
    ∀ signo sig, dequeueRealTime blocked entries = some (some (signo, sig)) →
      ∃ queue, (signo, queue) ∈ entries ∧ RealTimeReady blocked (signo, queue) ∧
        queue.head? = some sig ∧ ∀ entry ∈ entries, RealTimeReady blocked entry → signo ≤ entry.1 := by
  induction entries with
  | nil => simp [dequeueRealTime]
  | cons entry rest ih =>
    obtain ⟨signo, queue⟩ := entry
    obtain ⟨before, restSorted⟩ := List.pairwise_cons.mp sorted
    obtain ⟨restNone, restSome⟩ :=
      ih restSorted fun other member => filed other (List.mem_cons_of_mem _ member)
    -- a queue passed over is not ready, so the answer is the answer for the rest
    have passed : ¬ RealTimeReady blocked (signo, queue) →
        (dequeueRealTime blocked rest = some none ↔
          ∀ other ∈ (signo, queue) :: rest, ¬ RealTimeReady blocked other) ∧
        ∀ found sig, dequeueRealTime blocked rest = some (some (found, sig)) →
          ∃ queue', (found, queue') ∈ (signo, queue) :: rest ∧ RealTimeReady blocked (found, queue') ∧
            queue'.head? = some sig ∧
            ∀ other ∈ (signo, queue) :: rest, RealTimeReady blocked other → found ≤ other.1 := by
      intro idle
      refine ⟨by rw [restNone, List.forall_mem_cons]; exact ⟨fun none => ⟨idle, none⟩, And.right⟩,
        fun found sig hit => ?_⟩
      obtain ⟨queue', member, ready, front, least⟩ := restSome found sig hit
      refine ⟨queue', List.mem_cons_of_mem _ member, ready, front, fun other inList otherReady => ?_⟩
      rcases List.mem_cons.mp inList with rfl | later
      · exact absurd otherReady idle
      · exact least other later otherReady
    rw [dequeueRealTime.eq_def]
    dsimp only
    rw [if_pos (filed _ List.mem_cons_self)]
    split_ifs with blockedSigno
    · exact passed fun ready => by simp [ready.1] at blockedSigno
    · cases queue with
      | nil => exact passed fun ready => ready.2 rfl
      | cons first tail =>
        -- the first ready queue: its front comes out
        have ready : RealTimeReady blocked (signo, first :: tail) :=
          ⟨Bool.not_eq_true _ ▸ blockedSigno, List.cons_ne_nil _ _⟩
        refine ⟨iff_of_false (by simp) fun none => none _ List.mem_cons_self ready, ?_⟩
        intro found sig hit
        simp only [Option.some.injEq, Prod.mk.injEq] at hit
        obtain ⟨rfl, rfl⟩ := hit
        refine ⟨first :: tail, List.mem_cons_self, ready, rfl, fun other inList _ => ?_⟩
        rcases List.mem_cons.mp inList with rfl | later
        · exact le_rfl
        · exact (before other later).le

/-- `dequeue_one` on a `Wf` manager hands out a signal exactly when a queued standard signal is
ready or a real-time queue is. A ready standard signal always wins: one of them comes out, its
bit is cleared, and the other standard signals stay queued, reordered. Otherwise the oldest
signal of the ready real-time queue with the least number comes out, and every other signal
stays where it was. The mask is left as it is. -/
theorem Wf.dequeue_one_picks (wf : Wf m) :
    ∃ r m', m.dequeue_one = some (r, m') ∧ m'.blocked_sigs = m.blocked_sigs ∧
      (r.isSome ↔ (∃ sig ∈ m.pending_sigs, Ready m.blocked_sigs sig) ∨
        ∃ entry ∈ m.pending_rt_sigs.entries, RealTimeReady m.blocked_sigs entry) ∧
      ∀ sig, r = some sig →
        (Ready m.blocked_sigs sig ∧ (sig :: m'.pending_sigs).Perm m.pending_sigs ∧
          m'.bitmap = m.bitmap.remove_sig sig.si_signo ∧ m'.pending_rt_sigs = m.pending_rt_sigs) ∨
        ((∀ other ∈ m.pending_sigs, ¬ Ready m.blocked_sigs other) ∧
          (∃ queue, (sig.si_signo, queue) ∈ m.pending_rt_sigs.entries ∧
            RealTimeReady m.blocked_sigs (sig.si_signo, queue) ∧ queue.head? = some sig) ∧
          (∀ entry ∈ m.pending_rt_sigs.entries, RealTimeReady m.blocked_sigs entry →
            sig.si_signo ≤ entry.1) ∧
          m'.pending_rt_sigs = m.pending_rt_sigs.modify sig.si_signo List.tail ∧
          m'.pending_sigs.Perm m.pending_sigs ∧ m'.bitmap = m.bitmap) := by
  have perm := dequeueStandard_perm m.blocked_sigs m.pending_sigs.length m.pending_sigs
  have standardFound := dequeueStandard_isSome_iff m.blocked_sigs m.pending_sigs.length
    m.pending_sigs le_rfl
  rw [List.take_length] at standardFound
  have filed := fun entry member => (wf.realTime entry member).imp_right And.left
  obtain ⟨rtNone, rtSome⟩ := dequeueRealTime_spec m.blocked_sigs m.pending_rt_sigs.sorted filed
  unfold SigManager.dequeue_one
  cases stage : dequeueStandard m.blocked_sigs m.pending_sigs.length m.pending_sigs with
  | mk taken rest =>
    rw [stage] at perm standardFound
    cases taken with
    | some sig =>
      -- a ready standard signal comes out
      refine ⟨_, _, rfl, rfl, iff_of_true rfl (.inl (standardFound.mp rfl)), ?_⟩
      rintro _ ⟨⟩
      exact .inl ⟨ready_of_dequeueStandard stage, perm, rfl, rfl⟩
    | none =>
      have idle : ∀ other ∈ m.pending_sigs, ¬ Ready m.blocked_sigs other := fun other member ready =>
        absurd (standardFound.mpr ⟨other, member, ready⟩) (by simp)
      have kept : rest.Perm m.pending_sigs := by simpa using perm
      cases found : dequeueRealTime m.blocked_sigs m.pending_rt_sigs.entries with
      | none => exact absurd found (dequeueRealTime_ne_none _ filed)
      | some result =>
        cases result with
        | none =>
          refine ⟨_, _, rfl, rfl, iff_of_false (by simp) ?_, by simp⟩
          rintro (⟨other, member, ready⟩ | ⟨entry, member, ready⟩)
          · exact idle other member ready
          · exact rtNone.mp found entry member ready
        | some pair =>
          obtain ⟨signo, sig⟩ := pair
          obtain ⟨queue, stored, ready, front, least⟩ := rtSome signo sig found
          -- the queue is filed under the number of its signals
          have numbered : sig.si_signo = signo :=
            (wf.realTime _ stored).2.2 sig (List.mem_of_mem_head? front)
          refine ⟨_, _, rfl, rfl, iff_of_true rfl (.inr ⟨_, stored, ready⟩), ?_⟩
          rintro _ ⟨⟩
          rw [numbered]
          exact .inr ⟨idle, ⟨queue, stored, ready, front⟩, least, rfl, kept, rfl⟩

/-- `dequeue_expected_one` hands out what `check_pending` peeks at. -/
theorem fst_dequeue_expected_one (m : SigManager) (expected : SigSet) :
    (m.dequeue_expected_one expected).1 = m.check_pending expected := by
  unfold dequeue_expected_one check_pending
  dsimp only
  split
  · cases m.expectedRealTime expected <;> rfl
  · cases m.pending_sigs.find? _ <;> rfl

theorem Wf.dequeue_expected_one (wf : Wf m) (expected : SigSet) :
    Wf (m.dequeue_expected_one expected).2 := by
  unfold SigManager.dequeue_expected_one
  dsimp only
  split
  · split
    · exact wf.popRealTime _
    · exact wf
  · split
    · rename_i sig found
      exact wf.take (List.perm_cons_eraseP_of_find? found)
    · exact wf

/-- On a `Wf` manager the flag says whether `check_pending` finds a signal. -/
theorem Wf.check_pending_flag_eq (wf : Wf m) (expected : SigSet) :
    m.check_pending_flag expected = (m.check_pending expected).isSome := by
  unfold check_pending_flag check_pending
  dsimp only
  split
  · cases found : m.expectedRealTime expected with
    | none => rfl
    | some entry =>
      have nonEmpty := List.find?_some found
      simp only [Bool.and_eq_true, Bool.not_eq_true', List.isEmpty_eq_false_iff] at nonEmpty
      obtain ⟨sig, rest, queued⟩ := List.exists_cons_of_ne_nil nonEmpty.2
      simp [queued]
  · rename_i notEmpty
    have present : ∃ signo, 1 ≤ signo ∧ signo ≤ SIGRTMAX ∧
        (m.bitmap &&& expected).contain_sig signo = true := by
      by_contra none
      apply notEmpty
      rw [SigSet.is_empty_iff]
      intro signo low high
      rw [← Bool.not_eq_true]
      exact fun holds => none ⟨signo, low, high, holds⟩
    obtain ⟨signo, low, high, both⟩ := present
    rw [SigSet.contain_sig_and, Bool.and_eq_true] at both
    obtain ⟨sig, member, rfl⟩ := (wf.bitmap signo low high).mp both.1
    symm
    apply List.find?_isSome.mpr
    refine ⟨sig, member, ?_⟩
    rw [SigSet.contain_sig_and, both.1, both.2]
    rfl

/-! ## Runs -/

/-- What a task's signal manager is asked to do: take a delivered signal, or one of the two
dequeues. -/
inductive SigOp
  | receive (sig : SigInfo)
  | dequeueOne
  | dequeueExpected (expected : SigSet)

/-- A delivery numbered from 1 to `SIGRTMAX`, as `sys_kill` and the kernel send them; only
`sys_tkill` and `sys_tgkill` let signal 0 through. -/
def SigOp.Numbered : SigOp → Prop
  | .receive sig => 1 ≤ sig.si_signo ∧ sig.si_signo ≤ SIGRTMAX
  | _ => True

/-- One request on the manager; `none` where it panics. -/
def perform (m : SigManager) : SigOp → Option SigManager
  | .receive sig => m.receive sig
  | .dequeueOne => m.dequeue_one.map Prod.snd
  | .dequeueExpected expected => some (m.dequeue_expected_one expected).2

theorem Wf.perform (wf : Wf m) {op : SigOp} (numbered : op.Numbered) :
    ∃ m', m.perform op = some m' ∧ Wf m' := by
  cases op with
  | receive sig => exact wf.receive numbered.1 numbered.2
  | dequeueOne =>
    obtain ⟨r, m', dequeued, wf', -⟩ := wf.dequeue_one
    exact ⟨m', by simp [SigManager.perform, dequeued], wf'⟩
  | dequeueExpected expected => exact ⟨_, rfl, wf.dequeue_expected_one expected⟩

/-- Every run of numbered deliveries and dequeues from a `Wf` manager never panics and stays
`Wf`. -/
theorem Wf.run (wf : Wf m) (ops : List SigOp) (numbered : ∀ op ∈ ops, op.Numbered) :
    ∃ m', ops.foldlM SigManager.perform m = some m' ∧ Wf m' := by
  induction ops generalizing m with
  | nil => exact ⟨m, rfl, wf⟩
  | cons op rest ih =>
    obtain ⟨next, performed, wfNext⟩ := wf.perform (numbered op List.mem_cons_self)
    obtain ⟨last, ran, wfLast⟩ :=
      ih wfNext fun other member => numbered other (List.mem_cons_of_mem _ member)
    exact ⟨last, by rw [List.foldlM_cons, performed]; exact ran, wfLast⟩

/-- `SigManager::new` with `SIGUSR1` blocked. -/
def usr1Blocked : SigManager := { new with blocked_sigs := SigSet.empty.add_sig SIGUSR1 }

/-- `SIGUSR1` from task 1, `SIGRTMIN + 3` from task 2, and `SIGRTMIN + 2` from tasks 3 and 4. -/
def mixedSignals : List SigOp :=
  [.receive ⟨SIGUSR1, SigInfo.USER, some 1⟩, .receive ⟨SIGRTMIN + 3, SigInfo.USER, some 2⟩,
    .receive ⟨SIGRTMIN + 2, SigInfo.USER, some 3⟩, .receive ⟨SIGRTMIN + 2, SigInfo.USER, some 4⟩]

/-- With `SIGUSR1` blocked and pending beside three real-time signals, `dequeue_one` passes the
standard signal over and takes the oldest signal of the least real-time number, from task 3,
leaving the other queues and the standard queue as they were. -/
theorem Wf.dequeue_one_picks_mixedSignals :
    ∃ m, mixedSignals.foldlM SigManager.perform usr1Blocked = some m ∧ Wf m ∧
      ∃ m', m.dequeue_one = some (some ⟨SIGRTMIN + 2, SigInfo.USER, some 3⟩, m') ∧
        (∀ entry ∈ m.pending_rt_sigs.entries, RealTimeReady m.blocked_sigs entry →
          SIGRTMIN + 2 ≤ entry.1) ∧
        m'.pending_rt_sigs = m.pending_rt_sigs.modify (SIGRTMIN + 2) List.tail ∧
        m'.pending_sigs.Perm m.pending_sigs := by
  have wfBlocked : Wf usr1Blocked := ⟨wf_new.standard, wf_new.nodup, wf_new.bitmap, wf_new.realTime⟩
  have numbered : ∀ op ∈ mixedSignals, op.Numbered := by
    simp [mixedSignals, SigOp.Numbered, SIGUSR1, SIGRTMIN, SIGRTMAX]
  obtain ⟨m, ran, wf⟩ := wfBlocked.run mixedSignals numbered
  obtain ⟨r, m', dequeued, -, -, picks⟩ := wf.dequeue_one_picks
  have summary : (mixedSignals.foldlM SigManager.perform usr1Blocked).map (fun m => m.dequeue_one.map Prod.fst) =
      some (some (some ⟨SIGRTMIN + 2, SigInfo.USER, some 3⟩)) := by decide +kernel
  rw [ran, Option.map_some, dequeued, Option.map_some, Option.some.injEq, Option.some.injEq] at summary
  subst summary
  rcases picks _ rfl with ⟨-, perm, -⟩ | ⟨-, -, least, tail, kept, -⟩
  · -- a real-time signal is no standard one, so it is not in the standard queue
    have standard := wf.standard _ (perm.subset List.mem_cons_self)
    exact absurd standard.2 (by decide)
  · exact ⟨m, ran, wf, m', dequeued, least, tail, kept⟩

end SigManager

end Chronix
