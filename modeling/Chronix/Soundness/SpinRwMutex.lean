import Mathlib
import Chronix.Model.SpinRwMutex
import Chronix.ToMathlib.Reachable

/-! # What the reader-writer lock guarantees

The reader count is kept exactly: in every run from `SpinRwMutex::new`, the low bits of
`status` are the number of threads that hold a `ReadMutexGuard` (`reachable_readerBits`). Every
change of the count is a `compare_exchange` from a value the thread loaded, a `fetch_sub` by a
reader, or the `compare_exchange` of `upgrade`, which only succeeds when its own guard is the one
reader counted; `ReaderBits` carries the facts each thread checked at its load.

Exclusion does not hold. `wlock` waits until `status` is `0`, loads it again and
compare-exchanges from what it loaded to that value with the writer bit set, so a reader that
takes the lock between the wait and the load is not seen: the writer gets its guard with the
reader's still live (`rwMutex_writer_meets_reader`). Two writers race the same way, the second
one setting an already set bit (`rwMutex_two_writers`).
-/

namespace Chronix

open SpinRwMutex

namespace SpinRwMutex

/-- A value of `status` with the writer bit `writer` and `readers` in the reader bits. -/
def statusOf (writer : Bool) (readers : ℕ) : ℕ := (if writer then WRITER_MASK else 0) + readers

section Status

variable {readers : ℕ}

private theorem testBit_writer (writer : Bool) (bounded : readers < WRITER_MASK) :
    (statusOf writer readers).testBit 63 = writer := by
  have low : readers.testBit 63 = false := Nat.testBit_lt_two_pow bounded
  cases writer
  · simpa [statusOf] using low
  · rw [statusOf, if_pos rfl, WRITER_MASK, Nat.testBit_two_pow_add_eq, low]
    rfl

theorem statusOf_and_readerMask (writer : Bool) (bounded : readers < WRITER_MASK) :
    statusOf writer readers &&& READER_MASK = readers := by
  rw [READER_MASK, Nat.and_two_pow_sub_one_eq_mod]
  unfold statusOf WRITER_MASK at *
  split <;> omega

theorem statusOf_and_writerMask (writer : Bool) (bounded : readers < WRITER_MASK) :
    statusOf writer readers &&& WRITER_MASK = if writer then WRITER_MASK else 0 := by
  rw [WRITER_MASK, Nat.and_two_pow, ← WRITER_MASK, testBit_writer writer bounded]
  cases writer <;> simp

theorem statusOf_or_writerMask (writer : Bool) (bounded : readers < WRITER_MASK) :
    statusOf writer readers ||| WRITER_MASK = statusOf true readers := by
  -- below the writer bit, adding it is setting it
  have joined : statusOf true readers = WRITER_MASK ||| readers := by
    have tagged := Nat.two_pow_add_eq_or_of_lt bounded 1
    rwa [Nat.mul_one] at tagged
  cases writer
  · rw [joined, Nat.lor_comm]
    simp [statusOf]
  · rw [joined, Nat.lor_assoc, Nat.lor_comm readers, ← Nat.lor_assoc, Nat.or_self]

/-- `!WRITER_MASK` is `READER_MASK`: clearing the writer bit keeps the reader bits. -/
theorem statusOf_and_not_writerMask (writer : Bool) (bounded : readers < WRITER_MASK) :
    statusOf writer readers &&& usizeNot WRITER_MASK = statusOf false readers := by
  have complement : usizeNot WRITER_MASK = READER_MASK := by decide
  rw [complement, statusOf_and_readerMask writer bounded]
  simp [statusOf]

theorem statusOf_add_one (writer : Bool) (bounded : readers + 1 < WRITER_MASK) :
    usizeWrap (statusOf writer readers + 1) = statusOf writer (readers + 1) := by
  unfold usizeWrap statusOf WRITER_MASK at *
  split <;> omega

theorem statusOf_sub_one (writer : Bool) (counted : 0 < readers) (bounded : readers < WRITER_MASK) :
    usizeSub (statusOf writer readers) 1 = statusOf writer (readers - 1) := by
  unfold usizeSub usizeWrap statusOf WRITER_MASK at *
  split <;> omega

end Status

end SpinRwMutex

namespace RwPc

/-- What a thread about to compare-exchange checked of the value it loaded. -/
def Checked : RwPc → Prop
  | rlockCas oldval => oldval &&& READER_MASK ≠ READER_MASK
  | upgradeCas oldval => oldval &&& READER_MASK ≤ 1 ∧ oldval &&& WRITER_MASK = 0
  | _ => True

end RwPc

namespace RwSystem

/-- The number of threads that hold a `ReadMutexGuard`. -/
def readers (s : RwSystem) : ℕ := s.threads.countP RwPc.holdsRead

/-- The reader bits of `status` count the read guards, and every thread about to
compare-exchange checked what its load saw. -/
structure ReaderBits (s : RwSystem) : Prop where
  encoded : ∃ writer, s.status = statusOf writer s.readers
  bounded : s.readers < WRITER_MASK
  checked : ∀ pc ∈ s.threads, pc.Checked

theorem readerBits_new (n : ℕ) : (new n).ReaderBits where
  encoded := ⟨false, by simp [new, readers, statusOf, List.countP_replicate, RwPc.holdsRead]⟩
  bounded := by simp [new, readers, WRITER_MASK, List.countP_replicate, RwPc.holdsRead]
  checked pc member := by
    rw [new, List.mem_replicate] at member
    rw [member.2]
    trivial

section Step

variable {s : RwSystem} {thread : ℕ} {pc : RwPc}

@[simp] theorem getElem?_setPc (s : RwSystem) (thread : ℕ) (pc : RwPc) (k : ℕ) :
    (s.setPc thread pc).threads[k]? =
      if thread = k then (if thread < s.threads.length then some pc else none)
      else s.threads[k]? :=
  List.getElem?_set

theorem readers_setPc (current : s.threads[thread]? = some pc) (pc' : RwPc) :
    (s.setPc thread pc').readers =
      s.readers - (if pc.holdsRead then 1 else 0) + (if pc'.holdsRead then 1 else 0) := by
  obtain ⟨inside, found⟩ := List.getElem?_eq_some_iff.mp current
  rw [readers, setPc, List.countP_set inside, found, readers]

/-- A thread holding a read guard is counted. -/
theorem readers_pos (current : s.threads[thread]? = some pc) (holds : pc.holdsRead) :
    0 < s.readers :=
  List.countP_pos_iff.mpr ⟨pc, List.mem_of_getElem? current, holds⟩

/-- A thread moves to `pc'` and `status` becomes `status'`: the invariant holds if the new
value encodes the new count and the thread's new check holds. -/
theorem ReaderBits.update (inv : s.ReaderBits) (current : s.threads[thread]? = some pc)
    (pc' : RwPc) (checked : pc'.Checked) {status' readers' : ℕ}
    (encoded : ∃ writer, status' = statusOf writer readers')
    (count : readers' = s.readers - (if pc.holdsRead then 1 else 0) +
      (if pc'.holdsRead then 1 else 0))
    (bounded : readers' < WRITER_MASK) :
    ({ s.setPc thread pc' with status := status' } : RwSystem).ReaderBits := by
  have same : ({ s.setPc thread pc' with status := status' } : RwSystem).readers = readers' := by
    rw [count, ← readers_setPc current]
    rfl
  refine ⟨same ▸ encoded, same ▸ bounded, fun other member => ?_⟩
  rcases List.mem_or_eq_of_mem_set member with old | rfl
  · exact inv.checked other old
  · exact checked

/-- A thread moves between two places that both hold a read guard or both do not, and
`status` stays. -/
theorem ReaderBits.setPc (inv : s.ReaderBits) (current : s.threads[thread]? = some pc)
    (pc' : RwPc) (same : pc.holdsRead = pc'.holdsRead) (checked : pc'.Checked) :
    (s.setPc thread pc').ReaderBits := by
  have count : s.readers = s.readers - (if pc.holdsRead then 1 else 0) +
      (if pc'.holdsRead then 1 else 0) := by
    rw [← same]
    split
    · have := readers_pos current ‹_›
      omega
    · omega
  exact inv.update current pc' checked inv.encoded count inv.bounded

/-- One more turn of a wait loop, or its deadlock panic. -/
theorem ReaderBits.spin (inv : s.ReaderBits) (current : s.threads[thread]? = some pc)
    {try_count : ℕ} (waiting : ℕ → RwPc) (same : pc.holdsRead = (waiting (try_count + 1)).holdsRead)
    (checked : (waiting (try_count + 1)).Checked) {next : RwSystem}
    (spun : s.spin thread try_count waiting = some next) : next.ReaderBits := by
  unfold RwSystem.spin at spun
  split at spun
  · cases spun
  · cases spun
    exact inv.setPc current _ same checked

/-- The next atomic operation of any thread keeps the invariant. -/
theorem ReaderBits.runPc (inv : s.ReaderBits) (current : s.threads[thread]? = some pc)
    {next : RwSystem} (ran : s.runPc thread pc = some next) : next.ReaderBits := by
  obtain ⟨writer, encoded⟩ := inv.encoded
  have checked : pc.Checked := inv.checked pc (List.mem_of_getElem? current)
  cases pc with
  | idle | reading | writing =>
    cases ran
    exact inv
  | rlockWait try_count =>
    simp only [RwSystem.runPc] at ran
    split at ran
    · exact inv.spin current .rlockWait rfl trivial ran
    · cases ran
      exact inv.setPc current _ rfl trivial
  | wlockWait try_count =>
    simp only [RwSystem.runPc] at ran
    split at ran
    · exact inv.spin current .wlockWait rfl trivial ran
    · cases ran
      exact inv.setPc current _ rfl trivial
  | rlockLoad =>
    simp only [RwSystem.runPc] at ran
    split at ran
    · cases ran
      exact inv.setPc current _ rfl trivial
    · cases ran
      exact inv.setPc current _ rfl ‹_›
  | wlockLoad =>
    cases ran
    exact inv.setPc current _ rfl trivial
  | upgradeLoad =>
    simp only [RwSystem.runPc] at ran
    split at ran
    · cases ran
      exact inv.setPc current _ rfl trivial
    · cases ran
      -- neither another reader nor a writer was seen
      have seen : s.status &&& READER_MASK ≤ 1 ∧ s.status &&& WRITER_MASK = 0 := by
        push Not at *
        exact ‹_›
      exact inv.setPc current _ rfl seen
  | rlockCas oldval =>
    simp only [RwSystem.runPc] at ran
    split at ran
    · -- the `compare_exchange` succeeds: one more reader, below the reader limit
      next loaded =>
      cases ran
      have room : s.readers + 1 < WRITER_MASK := by
        have full := statusOf_and_readerMask writer inv.bounded
        rw [← encoded, loaded] at full
        have := inv.bounded
        unfold RwPc.Checked at checked
        unfold READER_MASK WRITER_MASK at *
        omega
      refine inv.update current .reading trivial ⟨writer, ?_⟩ (by simp [RwPc.holdsRead]) room
      rw [← loaded, encoded, statusOf_add_one writer room]
    · cases ran
      exact inv.setPc current _ rfl trivial
  | wlockCas oldval =>
    simp only [RwSystem.runPc] at ran
    split at ran
    · -- the `compare_exchange` succeeds: the writer bit is set, the readers stay
      next loaded =>
      cases ran
      refine inv.update current .writing trivial ⟨true, ?_⟩ (by simp [RwPc.holdsRead]) inv.bounded
      rw [← loaded, encoded, statusOf_or_writerMask writer inv.bounded]
    · cases ran
      exact inv.setPc current _ rfl trivial
  | upgradeCas oldval =>
    simp only [RwSystem.runPc] at ran
    split at ran
    · -- the `compare_exchange` succeeds: the one reader counted is this thread, and becomes
      -- the writer
      next loaded =>
      cases ran
      have alone : s.readers = 1 := by
        have counted := readers_pos current rfl
        have bits := statusOf_and_readerMask writer inv.bounded
        rw [← encoded, loaded] at bits
        unfold RwPc.Checked at checked
        omega
      refine inv.update current .writing trivial ⟨true, ?_⟩ (by simp [RwPc.holdsRead, alone])
        (Nat.two_pow_pos 63)
      simp [statusOf]
    · cases ran
      exact inv.setPc current _ rfl trivial
  | readDrop =>
    simp only [RwSystem.runPc, Option.some.injEq] at ran
    subst ran
    have counted := readers_pos current rfl
    refine inv.update current .idle trivial
      ⟨writer, by rw [encoded, statusOf_sub_one writer counted inv.bounded]⟩
      (by simp [RwPc.holdsRead]) (by have := inv.bounded; omega)
  | writeDrop =>
    simp only [RwSystem.runPc, Option.some.injEq] at ran
    subst ran
    refine inv.update current .idle trivial ⟨false, ?_⟩ (by simp [RwPc.holdsRead]) inv.bounded
    rw [encoded, statusOf_and_not_writerMask writer inv.bounded]

/-- Starting a call moves the thread between two places that agree on holding a read guard. -/
theorem ReaderBits.call (inv : s.ReaderBits) {pc' : RwPc} (same : pc.holdsRead = pc'.holdsRead)
    (checked : pc'.Checked) : (s.call thread pc pc').ReaderBits := by
  unfold RwSystem.call
  split
  · next current => exact inv.setPc current pc' same checked
  · exact inv

/-- Every step keeps the invariant. -/
theorem ReaderBits.step (inv : s.ReaderBits) {event : RwEvent} {next : RwSystem}
    (stepped : s.step event = some next) : next.ReaderBits := by
  cases event with
  | rlock thread | wlock thread | upgrade thread =>
    cases stepped
    exact inv.call rfl trivial
  | dropGuard thread =>
    cases stepped
    split
    · next current => exact inv.setPc current .writeDrop rfl trivial
    · exact inv.call rfl trivial
  | run thread =>
    simp only [RwSystem.step] at stepped
    split at stepped
    · next current => exact inv.runPc current stepped
    · cases stepped
      exact inv

end Step

/-- The invariant holds in every state of every interleaving from `SpinRwMutex::new`. -/
theorem reachable_readerBits {n : ℕ} {s : RwSystem}
    (reached : Reachable step (fun _ _ => True) (new n) s) : s.ReaderBits :=
  reached.invariant ReaderBits (readerBits_new n) fun _ _ _ inv _ stepped => inv.step stepped

/-- In every interleaving from `SpinRwMutex::new`, the reader bits of `status` are the number of
live read guards. -/
theorem readerBits_count {n : ℕ} {s : RwSystem}
    (reached : Reachable step (fun _ _ => True) (new n) s) :
    s.status &&& READER_MASK = s.readers := by
  have inv := reachable_readerBits reached
  obtain ⟨writer, encoded⟩ := inv.encoded
  rw [encoded, statusOf_and_readerMask writer inv.bounded]

/-! ## Exclusion fails -/

/-- From any moment the lock is free and two threads hold no guard: the writer passes
`wait_unlock_write`, the reader then takes the lock, and the writer's load sees the reader and
compare-exchanges from it. Both end up holding their guards. -/
theorem rwMutex_writer_meets_reader (s : RwSystem) (free : s.status = 0) {writer reader : ℕ}
    (apart : writer ≠ reader) (writerIdle : s.threads[writer]? = some .idle)
    (readerIdle : s.threads[reader]? = some .idle) :
    ∃ s', s.run [.wlock writer, .run writer, .rlock reader, .run reader, .run reader,
        .run reader, .run writer, .run writer] = some s' ∧
      s'.threads[writer]? = some .writing ∧ s'.threads[reader]? = some .reading := by
  obtain ⟨writerIn, writerAt⟩ := List.getElem?_eq_some_iff.mp writerIdle
  obtain ⟨readerIn, readerAt⟩ := List.getElem?_eq_some_iff.mp readerIdle
  simp [run, step, call, runPc, setPc, free, apart, Ne.symm apart, writerIn,
    readerIn, writerAt, readerAt, usizeWrap, READER_MASK, WRITER_MASK]

/-- `SpinRwMutex::new` used by two threads. -/
theorem rwMutex_writer_meets_reader_new :
    (new 2).status = 0 ∧ (new 2).threads[0]? = some .idle ∧ (new 2).threads[1]? = some .idle ∧
      ∃ s', (new 2).run [.wlock 0, .run 0, .rlock 1, .run 1, .run 1, .run 1, .run 0, .run 0] =
          some s' ∧ s'.threads[0]? = some .writing ∧ s'.threads[1]? = some .reading :=
  ⟨rfl, rfl, rfl, rwMutex_writer_meets_reader (new 2) rfl (by decide) rfl rfl⟩

/-- Two writers pass `wait_unlock_write` together; the first sets the writer bit, and the
second loads the set bit and compare-exchanges it to itself. -/
theorem rwMutex_two_writers (s : RwSystem) (free : s.status = 0) {first second : ℕ}
    (apart : first ≠ second) (firstIdle : s.threads[first]? = some .idle)
    (secondIdle : s.threads[second]? = some .idle) :
    ∃ s', s.run [.wlock first, .run first, .wlock second, .run second, .run first, .run first,
        .run second, .run second] = some s' ∧
      s'.threads[first]? = some .writing ∧ s'.threads[second]? = some .writing := by
  obtain ⟨firstIn, firstAt⟩ := List.getElem?_eq_some_iff.mp firstIdle
  obtain ⟨secondIn, secondAt⟩ := List.getElem?_eq_some_iff.mp secondIdle
  simp [run, step, call, runPc, setPc, free, apart, Ne.symm apart, firstIn,
    secondIn, firstAt, secondAt, READER_MASK, WRITER_MASK]

end RwSystem

end Chronix
