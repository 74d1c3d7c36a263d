import Mathlib
import Chronix.Model.Serial
import Chronix.Soundness.RingBuffer
import Chronix.ToMathlib.Reachable

/-! # The serial console's input: every byte accounted for, the order not kept

Over every interleaving of bytes reaching the UART, interrupts and the steps of `read`s from
`Serial::new`, the bytes the reads took, those in the ring buffer, those still in the UART and
those `handle_irq` dropped are, counted with multiplicity, the bytes that arrived: none is
duplicated, and none is lost but the ones `handle_irq` takes from the UART into a full ring
buffer and throws away.

The order is another matter. `read` drains the UART itself, without the lock, after it has read
the ring buffer; an interrupt in between moves the UART's bytes into the ring buffer, and the
read then takes a later byte while the earlier ones wait for the next read
(`serial_read_takes_later_byte`).

`handle_irq`'s loop enters through one lemma: it moves the front of the UART's FIFO to the back
of the ring buffer, with the byte that did not fit between (`irqLoop_spec`).
-/

namespace Chronix

/-- `handle_irq`'s loop: the ring buffer's bytes followed by the FIFO's are the same after it,
with the byte it lost between the two. -/
theorem irqLoop_spec {rb : RingBuffer} (wf : rb.Wf) (fifo : List UInt8) :
    ∃ fifo' rb' lost, irqLoop fifo rb = some (fifo', rb', lost) ∧ rb'.Wf ∧
      rb.contents ++ fifo = rb'.contents ++ lost ++ fifo' := by
  induction fifo generalizing rb with
  | nil => exact ⟨[], rb, [], rfl, wf, by simp⟩
  | cons byte fifo ih =>
    obtain ⟨next, enqueued, wfNext, pushed⟩ := wf.enqueue_spec byte
    have items : next.contents =
        rb.contents ++ [byte].take (min [byte].length rb.toFifo.room) := by
      rw [← RingBuffer.items_toFifo, pushed, BoundedFifo.items_push, BoundedFifo.push_fst,
        RingBuffer.items_toFifo]
    by_cases full : rb.toFifo.room = 0
    · -- the byte does not fit: the loop ends, and the byte is lost
      have kept : next.contents = rb.contents := by simpa [full] using items
      refine ⟨fifo, next, [byte], ?_, wfNext, by rw [kept]; simp⟩
      simp only [irqLoop, enqueued, if_pos full, Option.bind_eq_bind, Option.bind_some]
    · have stored : next.contents = rb.contents ++ [byte] := by
        rw [items, min_eq_left (by simp; omega)]
        rfl
      obtain ⟨fifo', rb', lost, looped, wf', moved⟩ := ih wfNext
      refine ⟨fifo', rb', lost, ?_, wf', ?_⟩
      · simp only [irqLoop, enqueued, if_neg full, Option.bind_eq_bind, Option.bind_some]
        exact looped
      · rw [← moved, stored, List.append_assoc, List.singleton_append]

namespace SerialSystem

/-! ## The invariant and what keeps it -/

/-- The invariant of every state reachable from `Serial::new`. -/
structure Inv (s : SerialSystem) : Prop where
  wf : s.inner.read_buf.Wf
  conserved : (s.delivered ++ s.inner.read_buf.contents ++ s.fifo ++ s.dropped).Perm s.arrived

variable {s : SerialSystem}

theorem inv_new : Serial.new.Inv where
  wf := RingBuffer.wf_new (by decide)
  conserved := by
    rw [show Serial.new.inner.read_buf.contents = [] from
      RingBuffer.items_toFifo _ ▸ congrArg BoundedFifo.items (RingBuffer.toFifo_new _)]
    rfl

/-- `Inv` reads the ring buffer and the four lists of bytes only. -/
theorem Inv.congr {s' : SerialSystem} (inv : s.Inv) (ring : s'.inner.read_buf = s.inner.read_buf)
    (fifo : s'.fifo = s.fifo) (dropped : s'.dropped = s.dropped)
    (arrived : s'.arrived = s.arrived) (delivered : s'.delivered = s.delivered) : s'.Inv where
  wf := ring ▸ inv.wf
  conserved := by
    rw [ring, fifo, dropped, arrived, delivered]
    exact inv.conserved

theorem Inv.setTask (inv : s.Inv) (tid : ℕ) (task : SerialTask) : (s.setTask tid task).Inv :=
  inv.congr rfl rfl rfl rfl rfl

theorem Inv.wake (inv : s.Inv) (tid : ℕ) : (s.wake tid).Inv :=
  inv.congr rfl rfl rfl rfl rfl

theorem Inv.setQueue (inv : s.Inv) (queue : List ℕ) :
    (s.setInner { s.inner with pollin_queue := queue }).Inv :=
  inv.congr rfl rfl rfl rfl rfl

/-- A byte reaches the UART. -/
theorem Inv.arrive (inv : s.Inv) (byte : UInt8) :
    ({ s with fifo := s.fifo ++ [byte], arrived := s.arrived ++ [byte] } : SerialSystem).Inv where
  wf := inv.wf
  conserved := by
    -- the new byte sits at the back of the FIFO, before the dropped bytes
    have moved : (s.delivered ++ s.inner.read_buf.contents ++ (s.fifo ++ [byte]) ++ s.dropped).Perm
        (s.delivered ++ s.inner.read_buf.contents ++ s.fifo ++ s.dropped ++ [byte]) := by
      simp only [List.append_assoc]
      exact List.Perm.append_left _ (List.Perm.append_left _ (List.Perm.append_left _
        List.perm_append_comm))
    exact moved.trans (inv.conserved.append_right [byte])

/-- `handle_irq` moves bytes from the UART to the ring buffer, and drops the one that does not
fit. -/
theorem Inv.handle_irq (inv : s.Inv) {s' : SerialSystem} (handled : s.handle_irq = some s') :
    s'.Inv := by
  obtain ⟨fifo', rb', lost, looped, wf', moved⟩ := irqLoop_spec inv.wf s.fifo
  let loaded : SerialSystem :=
    { s with fifo := fifo', dropped := s.dropped ++ lost }.setInner { s.inner with read_buf := rb' }
  have loadedInv : loaded.Inv := by
    refine ⟨wf', List.Perm.trans ?_ inv.conserved⟩
    change (s.delivered ++ rb'.contents ++ fifo' ++ (s.dropped ++ lost)).Perm
      (s.delivered ++ s.inner.read_buf.contents ++ s.fifo ++ s.dropped)
    rw [List.append_assoc s.delivered s.inner.read_buf.contents, moved]
    rw [List.perm_iff_count]
    intro byte
    simp only [List.count_append]
    omega
  unfold SerialSystem.handle_irq at handled
  rw [looped, Option.bind_eq_bind, Option.bind_some] at handled
  dsimp only at handled
  -- the first waiting task is woken, if any
  split at handled
  · rw [← Option.some_inj.mp handled]
    exact loadedInv
  · rw [← Option.some_inj.mp handled]
    exact (loadedInv.setQueue _).wake _

/-- A step of `read`: `poll_in` and the loop's tests move no byte, the read of the ring buffer
moves its front to the reader, and `getc` moves the UART's. -/
theorem Inv.read (inv : s.Inv) {tid : ℕ} {task : SerialTask} {s' : SerialSystem}
    (stepped : s.read tid task = some s') : s'.Inv := by
  unfold SerialSystem.read at stepped
  split at stepped
  · -- `poll_in`'s critical section queues a waker at most
    cases stepped
    unfold poll_in
    split_ifs
    · exact inv.setTask _ _
    · exact (inv.setQueue _).setTask _ _
  · -- the ring buffer's `read`: what it hands out is its front
    obtain ⟨next, got, wfNext, popped⟩ := inv.wf.read_spec task.buf
    rw [got, Option.bind_eq_bind, Option.bind_some, Option.some_inj] at stepped
    subst stepped
    refine Inv.setTask ⟨wfNext, ?_⟩ _ _
    change (s.delivered ++ ((s.inner.read_buf.toFifo.pop task.buf.length).1 ++
        task.buf.drop (s.inner.read_buf.toFifo.pop task.buf.length).1.length).take
          (s.inner.read_buf.toFifo.pop task.buf.length).1.length ++ next.contents ++ s.fifo ++
        s.dropped).Perm s.arrived
    rw [List.take_left, List.append_assoc s.delivered, ← RingBuffer.items_toFifo next, popped,
      BoundedFifo.pop_append, RingBuffer.items_toFifo]
    exact inv.conserved
  · split at stepped <;>
    · cases stepped
      exact inv.setTask _ _
  · -- `getc` takes the UART's front byte
    split at stepped
    · cases stepped
      exact inv
    · rename_i byte fifo front
      cases stepped
      refine Inv.setTask (s := { s with fifo := fifo, delivered := s.delivered ++ [byte] })
        ⟨inv.wf, ?_⟩ _ _
      have conserved := inv.conserved
      rw [front] at conserved
      refine List.Perm.trans ?_ conserved
      change (s.delivered ++ [byte] ++ s.inner.read_buf.contents ++ fifo ++ s.dropped).Perm
        (s.delivered ++ s.inner.read_buf.contents ++ byte :: fifo ++ s.dropped)
      rw [List.perm_iff_count]
      intro x
      simp only [List.count_append, List.count_cons, List.count_nil]
      omega
  all_goals
    -- a task that waits or has returned takes no step
    cases stepped
    exact inv

/-- Every step of the system keeps the invariant. -/
theorem Inv.step (inv : s.Inv) {event : SerialEvent} {s' : SerialSystem}
    (stepped : s.step event = some s') : s'.Inv := by
  cases event with
  | arrive byte =>
    cases stepped
    exact inv.arrive byte
  | irq => exact inv.handle_irq stepped
  | read buf =>
    cases stepped
    exact inv.congr rfl rfl rfl rfl rfl
  | run tid =>
    simp only [SerialSystem.step] at stepped
    split at stepped
    · exact inv.read stepped
    · cases stepped
      exact inv

/-- The run lemma: every state reachable from `Serial::new` keeps the invariant. -/
theorem reachable_inv {s : SerialSystem}
    (reached : Reachable step (fun _ _ => True) Serial.new s) : s.Inv :=
  reached.invariant Inv inv_new fun _ _ _ inv _ stepped => inv.step stepped

end SerialSystem

/-- On every interleaving from `Serial::new`, the bytes the reads took, the ring buffer's, the
UART's and those `handle_irq` dropped are the bytes that arrived, counted with multiplicity. -/
theorem serial_conserves_bytes {s : SerialSystem}
    (reached : Reachable SerialSystem.step (fun _ _ => True) Serial.new s) :
    (s.delivered ++ s.inner.read_buf.contents ++ s.fifo ++ s.dropped).Perm s.arrived :=
  (SerialSystem.reachable_inv reached).conserved

/-- Bytes 1 and 2 arrive and a read of two bytes finds the ring buffer empty; before its
`getc`, the interrupt moves both into the ring buffer and byte 3 arrives. The read takes byte 3,
and bytes 1 and 2 wait in the ring buffer for the next read. -/
theorem serial_read_takes_later_byte :
    ∃ s, Serial.new.run [.arrive 1, .arrive 2, .read [0, 0], .run 0, .run 0, .run 0, .irq,
        .arrive 3, .run 0] = some s ∧
      s.arrived = [1, 2, 3] ∧ s.delivered = [3] ∧ s.inner.read_buf.contents = [1, 2] ∧
      (s.delivered ++ s.inner.read_buf.contents ++ s.fifo ++ s.dropped).Perm s.arrived := by
  obtain ⟨s, ran⟩ : ∃ s, Serial.new.run [.arrive 1, .arrive 2, .read [0, 0], .run 0, .run 0,
      .run 0, .irq, .arrive 3, .run 0] = some s :=
    Option.isSome_iff_exists.mp (by decide +kernel)
  have summary : (Serial.new.run [.arrive 1, .arrive 2, .read [0, 0], .run 0, .run 0, .run 0,
      .irq, .arrive 3, .run 0]).map
        (fun s => (s.arrived, s.delivered, s.inner.read_buf.contents)) =
      some ([1, 2, 3], [3], [1, 2]) := by decide +kernel
  rw [ran, Option.map_some, Option.some_inj] at summary
  simp only [Prod.mk.injEq] at summary
  exact ⟨s, ran, summary.1, summary.2.1, summary.2.2,
    serial_conserves_bytes (Reachable.of_foldlM ran)⟩

end Chronix
