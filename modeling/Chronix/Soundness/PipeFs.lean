import Mathlib
import Chronix.Model.PipeFs
import Chronix.Soundness.RingBuffer
import Chronix.ToMathlib.Reachable

/-! # The pipes of `fs/pipefs.rs`: no byte lost, and the wakers `base_poll` leaves

Over every interleaving of read and write calls, `base_poll`s, handle duplications and closes
from `make_pipe`, one invariant holds. The ring buffer stays well formed, and the bytes the reads
returned followed by the bytes the pipe holds are the bytes the writes took: no byte is lost,
duplicated or reordered. A read or write call that waits has its task's waker on its side's
queue, and its peer is open, so no call waits behind a closed peer.

The queues hold more than the waiting calls: `base_poll` pushes the waker of a task that does not
wait on the pipe, and a task that polls and then calls has its waker queued twice. The end of a
read or a write wakes the front waker of the other side only, so a waker that `base_poll` left
takes the wake a waiting call needed: after a write the reader still waits, with bytes in the
pipe (`pipeFs_write_wakes_stale_waker`).

A waiting call is found through its task (`Waiting`), and each update of the model has a lemma
saying which calls wait after it: a wake resumes its task's call, the `Drop` resumes every call
of the queue it empties, the return of a call and the push of its waker change that call only.
The ring buffer's `read` and `write` enter through their specs on the queue the ring buffer
refines.
-/

namespace Chronix

namespace PipeMeta

/-- The close flag that makes the futures of side `operate` ready: the writer's for a reader. -/
def peerClosed (p : PipeMeta) (operate : Bool) : Bool :=
  if operate then p.is_write_closed else p.is_read_closed

theorem peerClosed_close_not (p : PipeMeta) (operate : Bool) :
    (p.close operate).peerClosed (!operate) = true := by
  cases operate <;> rfl

theorem peerClosed_close_self (p : PipeMeta) (operate : Bool) :
    (p.close operate).peerClosed operate = p.peerClosed operate := by
  cases operate <;> rfl

@[simp] theorem ring_buffer_close (p : PipeMeta) (operate : Bool) :
    (p.close operate).ring_buffer = p.ring_buffer := by
  cases operate <;> rfl

end PipeMeta

namespace PipeCall

/-- A wake changes neither the side of a call nor whether it returned. -/
@[simp] theorem operate_resume (call : PipeCall) : call.resume.operate = call.operate := by
  unfold resume
  split_ifs <;> rfl

@[simp] theorem isDone_resume (call : PipeCall) : call.resume.pc.isDone = call.pc.isDone := by
  unfold resume
  split_ifs with pending
  · rw [pending]
    rfl
  · rfl

end PipeCall

namespace PipeFsSystem

/-! ## What each update leaves alone -/

section Frame

variable (s : PipeFsSystem)

theorem wakers_setWakers (operate : Bool) (ws : List ℕ) (side : Bool) :
    (s.setWakers operate ws).wakers side = if side = operate then ws else s.wakers side := by
  cases operate <;> cases side <;> rfl

@[simp] theorem pipe_meta_setWakers (operate : Bool) (ws : List ℕ) :
    (s.setWakers operate ws).pipe_meta = s.pipe_meta := by
  cases operate <;> rfl

@[simp] theorem calls_setWakers (operate : Bool) (ws : List ℕ) :
    (s.setWakers operate ws).calls = s.calls := by
  cases operate <;> rfl

@[simp] theorem delivered_setWakers (operate : Bool) (ws : List ℕ) :
    (s.setWakers operate ws).delivered = s.delivered := by
  cases operate <;> rfl

@[simp] theorem accepted_setWakers (operate : Bool) (ws : List ℕ) :
    (s.setWakers operate ws).accepted = s.accepted := by
  cases operate <;> rfl

@[simp] theorem wakers_setCall (tid : ℕ) (call : PipeCall) (side : Bool) :
    (s.setCall tid call).wakers side = s.wakers side := rfl

@[simp] theorem pipe_meta_setCall (tid : ℕ) (call : PipeCall) :
    (s.setCall tid call).pipe_meta = s.pipe_meta := rfl

@[simp] theorem delivered_setCall (tid : ℕ) (call : PipeCall) :
    (s.setCall tid call).delivered = s.delivered := rfl

@[simp] theorem accepted_setCall (tid : ℕ) (call : PipeCall) :
    (s.setCall tid call).accepted = s.accepted := rfl

@[simp] theorem wakers_wake (tid : ℕ) (side : Bool) : (s.wake tid).wakers side = s.wakers side :=
  rfl

@[simp] theorem pipe_meta_wake (tid : ℕ) : (s.wake tid).pipe_meta = s.pipe_meta := rfl

@[simp] theorem delivered_wake (tid : ℕ) : (s.wake tid).delivered = s.delivered := rfl

@[simp] theorem accepted_wake (tid : ℕ) : (s.wake tid).accepted = s.accepted := rfl

@[simp] theorem wakers_setFiles (operate : Bool) (n : ℕ) (side : Bool) :
    (s.setFiles operate n).wakers side = s.wakers side := by
  cases operate <;> rfl

theorem setWakers_wakers (operate : Bool) : s.setWakers operate (s.wakers operate) = s := by
  cases operate <;> rfl

@[simp] theorem files_setWakers (operate : Bool) (ws : List ℕ) (side : Bool) :
    (s.setWakers operate ws).files side = s.files side := by
  cases operate <;> rfl

@[simp] theorem files_setCall (tid : ℕ) (call : PipeCall) (side : Bool) :
    (s.setCall tid call).files side = s.files side := rfl

@[simp] theorem files_wake (tid : ℕ) (side : Bool) : (s.wake tid).files side = s.files side :=
  rfl

@[simp] theorem files_wakeOne (operate side : Bool) :
    (s.wakeOne operate).files side = s.files side := by
  unfold wakeOne
  split <;> simp

/-- A side with a handle left is not dropped. -/
theorem release_of_files {operate : Bool} (held : s.files operate ≠ 0) :
    s.release operate = s := by
  simp [release, held]

/-- `base_poll` changes its end's queue only: it pushes the task's waker there, or nothing. -/
theorem base_poll_snd (tid : ℕ) (operate : Bool) (events : PollEvents) :
    ∃ pushed : List ℕ, (pushed = [] ∨ pushed = [tid]) ∧
      (s.base_poll tid operate events).2 = s.setWakers operate (s.wakers operate ++ pushed) := by
  cases operate <;>
    simp only [base_poll, Bool.not_false, Bool.not_true, Bool.false_eq_true, ↓reduceIte] <;>
    split_ifs
  all_goals first
    | exact ⟨[tid], .inr rfl, rfl⟩
    | exact ⟨[], .inl rfl, by rw [List.append_nil, setWakers_wakers]⟩

/-- The wakes of `Drop` change the calls only. -/
theorem foldl_wake_eq (ws : List ℕ) :
    ws.foldl wake s = { s with calls := (ws.foldl wake s).calls } := by
  induction ws generalizing s with
  | nil => rfl
  | cons w rest ih =>
    conv_lhs => rw [List.foldl_cons, ih]
    rfl

@[simp] theorem pipe_meta_drop (operate : Bool) :
    (s.drop operate).pipe_meta = s.pipe_meta.close operate := by
  rw [drop, foldl_wake_eq]
  exact pipe_meta_setWakers _ _ _

theorem wakers_drop (operate side : Bool) :
    (s.drop operate).wakers side = if side = !operate then [] else s.wakers side := by
  rw [drop, foldl_wake_eq]
  exact wakers_setWakers _ _ _ _

@[simp] theorem delivered_drop (operate : Bool) : (s.drop operate).delivered = s.delivered := by
  rw [drop, foldl_wake_eq]
  exact delivered_setWakers _ _ _

@[simp] theorem accepted_drop (operate : Bool) : (s.drop operate).accepted = s.accepted := by
  rw [drop, foldl_wake_eq]
  exact accepted_setWakers _ _ _

end Frame

/-! ## The calls that wait -/

/-- Call `tid` is a call of side `operate` that waits. -/
def Waiting (s : PipeFsSystem) (operate : Bool) (tid : ℕ) : Prop :=
  ∃ call, s.calls[tid]? = some call ∧ call.operate = operate ∧ call.pc = .pending

section Waiting

variable {s : PipeFsSystem} {operate : Bool} {tid : ℕ}

theorem Waiting.unique {other : Bool} (waits : s.Waiting operate tid)
    (waitsOther : s.Waiting other tid) : operate = other := by
  obtain ⟨call, found, side, -⟩ := waits
  obtain ⟨call', found', side', -⟩ := waitsOther
  rw [found, Option.some_inj] at found'
  rw [← side, ← side', found']

/-- A wake resumes its call, and only it. -/
theorem waiting_wake (w : ℕ) :
    (s.wake w).Waiting operate tid ↔ s.Waiting operate tid ∧ tid ≠ w := by
  unfold Waiting wake
  rw [List.getElem?_modify]
  by_cases same : w = tid
  · subst same
    cases s.calls[w]? with
    | none => simp
    | some call => by_cases pending : call.pc = .pending <;> simp [PipeCall.resume, pending]
  · simp [same, Ne.symm same]

/-- A wake changes no call's side and returns no call. -/
theorem calls_wake_spec {w : ℕ} {call : PipeCall} (found : (s.wake w).calls[tid]? = some call) :
    ∃ old, s.calls[tid]? = some old ∧ call.operate = old.operate ∧
      call.pc.isDone = old.pc.isDone := by
  unfold wake at found
  rw [List.getElem?_modify, Option.map_eq_map] at found
  obtain ⟨old, foundOld, resumed⟩ := Option.map_eq_some_iff.mp found
  refine ⟨old, foundOld, ?_⟩
  subst resumed
  split_ifs <;> simp

/-- A call replaced leaves the other tasks' calls waiting or not. -/
theorem waiting_setCall_ne {call : PipeCall} {k : ℕ} (other : tid ≠ k) :
    (s.setCall tid call).Waiting operate k ↔ s.Waiting operate k := by
  unfold Waiting setCall
  rw [List.getElem?_set_ne other]

/-- A wake leaves a call that does not wait as it is. -/
theorem calls_wake_of_ne_pending {call : PipeCall} (found : s.calls[tid]? = some call)
    (running : call.pc ≠ .pending) (w : ℕ) : (s.wake w).calls[tid]? = some call := by
  unfold wake
  rw [List.getElem?_modify, found]
  simp [PipeCall.resume, running]

theorem calls_wakeOne_of_ne_pending {call : PipeCall} (found : s.calls[tid]? = some call)
    (running : call.pc ≠ .pending) (side : Bool) : (s.wakeOne side).calls[tid]? = some call := by
  unfold wakeOne
  split
  · exact found
  · exact calls_wake_of_ne_pending (by rw [calls_setWakers]; exact found) running _

/-- The wakes of `Drop` resume every call of the queue. -/
theorem waiting_foldl_wake (ws : List ℕ) :
    (ws.foldl wake s).Waiting operate tid ↔ s.Waiting operate tid ∧ tid ∉ ws := by
  induction ws generalizing s with
  | nil => simp
  | cons w rest ih =>
    rw [List.foldl_cons, ih, waiting_wake, List.mem_cons, not_or, and_assoc]

theorem waiting_setWakers (side : Bool) (ws : List ℕ) :
    (s.setWakers side ws).Waiting operate tid ↔ s.Waiting operate tid := by
  unfold Waiting
  rw [calls_setWakers]

theorem waiting_setFiles (side : Bool) (n : ℕ) :
    (s.setFiles side n).Waiting operate tid ↔ s.Waiting operate tid := by
  cases side <;> rfl

/-- A call that does not wait, replaced by one that does not wait, leaves the waiting calls. -/
theorem waiting_setCall {call call' : PipeCall} (found : s.calls[tid]? = some call)
    (running : call.pc ≠ .pending) (stays : call'.pc ≠ .pending) (k : ℕ) :
    (s.setCall tid call').Waiting operate k ↔ s.Waiting operate k := by
  unfold Waiting setCall
  by_cases same : tid = k
  · subst same
    have inside : tid < s.calls.length := (List.getElem?_eq_some_iff.mp found).1
    rw [List.getElem?_set_self inside, found]
    simp [running, stays]
  · rw [List.getElem?_set_ne same]

/-- A call that does not wait starts to wait. -/
theorem waiting_setCall_pending {call : PipeCall} (found : s.calls[tid]? = some call) (k : ℕ) :
    (s.setCall tid { call with pc := .pending }).Waiting operate k ↔
      s.Waiting operate k ∨ (k = tid ∧ call.operate = operate) := by
  unfold Waiting setCall
  by_cases same : tid = k
  · subst same
    have inside : tid < s.calls.length := (List.getElem?_eq_some_iff.mp found).1
    rw [List.getElem?_set_self inside, found]
    simp only [Option.some.injEq, exists_eq_left', true_and]
    tauto
  · rw [List.getElem?_set_ne same]
    simp [Ne.symm same]

/-- `Drop` on side `operate` resumes the calls of every task queued on the other side. -/
theorem waiting_drop (side : Bool) :
    (s.drop operate).Waiting side tid ↔ s.Waiting side tid ∧ tid ∉ s.wakers (!operate) := by
  unfold drop
  rw [waiting_foldl_wake, waiting_setWakers]
  rfl

/-- A task in no call has no call that waits. -/
theorem not_pending_of_idle {call : PipeCall} (idle : s.idle tid = true)
    (found : s.calls[tid]? = some call) : call.pc ≠ .pending := by
  intro pending
  simp [PipeFsSystem.idle, found, pending, PipeCallPc.isDone] at idle

end Waiting

/-! ## The invariant and what keeps it -/

/-- The invariant of every pipe reachable from `make_pipe`. -/
structure Inv (s : PipeFsSystem) : Prop where
  wf : s.pipe_meta.ring_buffer.Wf
  conserved : s.delivered ++ s.pipe_meta.ring_buffer.contents = s.accepted
  queued : ∀ side tid, s.Waiting side tid → tid ∈ s.wakers side
  closed : ∀ side tid, s.pipe_meta.peerClosed side = true → ¬ s.Waiting side tid

variable {s : PipeFsSystem}

theorem inv_make_pipe {capacity : ℕ} (positive : 0 < capacity) : (make_pipe capacity).Inv where
  wf := RingBuffer.wf_new positive
  conserved := by
    rw [make_pipe, List.nil_append, ← RingBuffer.items_toFifo, RingBuffer.toFifo_new]
    rfl
  queued side tid waits := by
    obtain ⟨call, found, -⟩ := waits
    cases found
  closed side tid _ waits := by
    obtain ⟨call, found, -⟩ := waits
    cases found

/-- `Inv` reads the ring buffer, the flags, the queues, the calls and the two histories. -/
theorem Inv.congr {s' : PipeFsSystem} (inv : s.Inv) (pipe : s'.pipe_meta = s.pipe_meta)
    (queues : ∀ side, s'.wakers side = s.wakers side)
    (waiting : ∀ side tid, s'.Waiting side tid ↔ s.Waiting side tid)
    (delivered : s'.delivered = s.delivered) (accepted : s'.accepted = s.accepted) : s'.Inv where
  wf := pipe ▸ inv.wf
  conserved := by rw [pipe, delivered, accepted]; exact inv.conserved
  queued side tid waits := by
    rw [queues]
    exact inv.queued side tid ((waiting side tid).mp waits)
  closed side tid closedSide waits :=
    inv.closed side tid (pipe ▸ closedSide) ((waiting side tid).mp waits)

theorem Inv.setFiles (inv : s.Inv) (operate : Bool) (n : ℕ) : (s.setFiles operate n).Inv :=
  inv.congr (by cases operate <;> rfl) (wakers_setFiles s operate n)
    (fun _ _ => waiting_setFiles operate n) (by cases operate <;> rfl) (by cases operate <;> rfl)

/-- Wakers pushed on a queue keep the invariant: the waiting calls stay queued. -/
theorem Inv.push (inv : s.Inv) (operate : Bool) (pushed : List ℕ) :
    (s.setWakers operate (s.wakers operate ++ pushed)).Inv where
  wf := by simpa only [pipe_meta_setWakers] using inv.wf
  conserved := by
    simpa only [pipe_meta_setWakers, delivered_setWakers, accepted_setWakers] using inv.conserved
  queued side tid waits := by
    rw [waiting_setWakers] at waits
    rw [wakers_setWakers]
    split_ifs with same
    · subst same
      exact List.mem_append_left _ (inv.queued side tid waits)
    · exact inv.queued side tid waits
  closed side tid closedSide waits := by
    rw [pipe_meta_setWakers] at closedSide
    exact inv.closed side tid closedSide ((waiting_setWakers operate _).mp waits)

/-- `base_poll` keeps the invariant, whatever the task does after it. -/
theorem Inv.base_poll (inv : s.Inv) (tid : ℕ) (operate : Bool) (events : PollEvents) :
    (s.base_poll tid operate events).2.Inv := by
  obtain ⟨pushed, -, polled⟩ := s.base_poll_snd tid operate events
  rw [polled]
  exact inv.push operate pushed

/-- The end of a call wakes the first waker of a side, if any; a call that waited behind it is
still queued. -/
theorem Inv.wakeOne (inv : s.Inv) (operate : Bool) : (s.wakeOne operate).Inv := by
  unfold PipeFsSystem.wakeOne
  split
  · exact inv
  · rename_i w rest front
    refine ⟨by simpa only [pipe_meta_wake, pipe_meta_setWakers] using inv.wf,
      by simpa only [pipe_meta_wake, pipe_meta_setWakers, delivered_wake, delivered_setWakers,
        accepted_wake, accepted_setWakers] using inv.conserved,
      fun side tid waits => ?_, fun side tid closedSide waits => ?_⟩
    · rw [waiting_wake, waiting_setWakers] at waits
      have queued := inv.queued side tid waits.1
      rw [wakers_wake, wakers_setWakers]
      split_ifs with same
      · -- the queue without its front: the front is woken, a call behind it is still there
        subst same
        rw [front] at queued
        exact (List.mem_cons.mp queued).resolve_left waits.2
      · exact queued
    · rw [waiting_wake, waiting_setWakers] at waits
      simp only [pipe_meta_wake, pipe_meta_setWakers] at closedSide
      exact inv.closed side tid closedSide waits.1

/-- `Drop` on side `operate`: the other side's queue is emptied and every call in it resumed, so
no call of that side waits behind the closed peer. -/
theorem Inv.drop (inv : s.Inv) (operate : Bool) : (s.drop operate).Inv where
  wf := by
    rw [pipe_meta_drop, PipeMeta.ring_buffer_close]
    exact inv.wf
  conserved := by
    rw [pipe_meta_drop, PipeMeta.ring_buffer_close, delivered_drop, accepted_drop]
    exact inv.conserved
  queued side tid waits := by
    rw [waiting_drop] at waits
    rw [wakers_drop]
    split_ifs with other
    · -- every call of the other side that waited was queued, and is resumed
      subst other
      exact absurd (inv.queued _ tid waits.1) waits.2
    · exact inv.queued side tid waits.1
  closed side tid closedSide waits := by
    rw [waiting_drop] at waits
    rw [pipe_meta_drop] at closedSide
    by_cases other : side = !operate
    · subst other
      exact waits.2 (inv.queued _ tid waits.1)
    · have same : side = operate := by cases operate <;> cases side <;> simp_all
      subst same
      rw [PipeMeta.peerClosed_close_self] at closedSide
      exact inv.closed side tid closedSide waits.1

theorem Inv.release (inv : s.Inv) (operate : Bool) : (s.release operate).Inv := by
  unfold PipeFsSystem.release
  split_ifs
  · exact inv.drop operate
  · exact inv

/-- A call that does not wait returns. -/
theorem Inv.complete (inv : s.Inv) {tid : ℕ} {call : PipeCall} (found : s.calls[tid]? = some call)
    (running : call.pc ≠ .pending) (call' : PipeCall) (result : Except SysError ℕ) :
    (s.complete tid call' result).Inv := by
  have returned : (s.setCall tid { call' with pc := .done result }).Inv :=
    inv.congr rfl (fun _ => rfl) (fun _ _ => waiting_setCall found running (by simp) _) rfl rfl
  exact returned.release _

/-- A call that does not wait, on a side whose peer is open, pushes its waker. -/
theorem Inv.suspend (inv : s.Inv) {tid : ℕ} {call : PipeCall} (found : s.calls[tid]? = some call)
    (peerOpen : s.pipe_meta.peerClosed call.operate = false) :
    (s.suspend tid call).Inv := by
  have pipe : (s.suspend tid call).pipe_meta = s.pipe_meta := by
    rw [PipeFsSystem.suspend, pipe_meta_setWakers]
    rfl
  have queues : ∀ side, (s.suspend tid call).wakers side =
      if side = call.operate then s.wakers call.operate ++ [tid] else s.wakers side := by
    intro side
    rw [PipeFsSystem.suspend, wakers_setWakers, wakers_setCall]
  have waiting : ∀ side k, (s.suspend tid call).Waiting side k ↔
      s.Waiting side k ∨ (k = tid ∧ call.operate = side) := fun side k => by
    rw [PipeFsSystem.suspend, waiting_setWakers, waiting_setCall_pending found]
  refine ⟨pipe ▸ inv.wf, ?_, fun side k waits => ?_, fun side k closedSide waits => ?_⟩
  · rw [pipe, PipeFsSystem.suspend, delivered_setWakers, accepted_setWakers, delivered_setCall,
      accepted_setCall]
    exact inv.conserved
  · rw [queues]
    rcases (waiting side k).mp waits with waited | ⟨rfl, rfl⟩
    · split_ifs with same
      · subst same
        exact List.mem_append_left _ (inv.queued _ k waited)
      · exact inv.queued side k waited
    · rw [if_pos rfl]
      exact List.mem_append_right _ (List.mem_singleton_self _)
  · rw [pipe] at closedSide
    rcases (waiting side k).mp waits with waited | ⟨-, rfl⟩
    · exact inv.closed side k closedSide waited
    · rw [peerOpen] at closedSide
      cases closedSide

/-- A ready read moves the front of the ring buffer to the reader. -/
theorem Inv.readStep (inv : s.Inv) {tid : ℕ} {call : PipeCall} (found : s.calls[tid]? = some call)
    (polling : call.pc = .poll) (reads : call.operate = true) {s' : PipeFsSystem}
    (stepped : s.readStep tid call = some s') : s'.Inv := by
  have running : call.pc ≠ .pending := by rw [polling]; decide
  unfold PipeFsSystem.readStep at stepped
  split_ifs at stepped with holding closed
  · -- ready with `IN`: the bytes popped from the ring buffer are the bytes the read returns
    obtain ⟨next, got, wfNext, popped⟩ := inv.wf.read_spec call.buf
    rw [got, Option.map_some, Option.some_inj] at stepped
    subst stepped
    have handedOut : ((s.pipe_meta.ring_buffer.toFifo.pop call.buf.length).1 ++
        call.buf.drop (s.pipe_meta.ring_buffer.toFifo.pop call.buf.length).1.length).take
          (s.pipe_meta.ring_buffer.toFifo.pop call.buf.length).1.length =
        (s.pipe_meta.ring_buffer.toFifo.pop call.buf.length).1 := List.take_left
    have moved : ({ s with
        pipe_meta := { s.pipe_meta with ring_buffer := next }
        delivered := s.delivered ++ (s.pipe_meta.ring_buffer.toFifo.pop call.buf.length).1 } :
          PipeFsSystem).Inv := by
      refine ⟨wfNext, ?_, inv.queued, inv.closed⟩
      change s.delivered ++ (s.pipe_meta.ring_buffer.toFifo.pop call.buf.length).1 ++
        next.contents = s.accepted
      rw [← inv.conserved, List.append_assoc, ← RingBuffer.items_toFifo next, popped,
        BoundedFifo.pop_append, RingBuffer.items_toFifo]
    rw [handedOut]
    refine (moved.wakeOne false).complete (calls_wakeOne_of_ne_pending ?_ running false) running _ _
    exact found
  · -- ready with `HUP`: the read returns 0
    cases stepped
    exact inv.complete found running call (.ok 0)
  · -- the writer is there and the ring buffer empty: the read waits
    cases stepped
    refine inv.suspend found ?_
    rw [reads]
    simpa [PipeMeta.peerClosed] using closed

/-- A ready write moves the bytes the ring buffer takes from the writer. -/
theorem Inv.writeStep (inv : s.Inv) {tid : ℕ} {call : PipeCall}
    (found : s.calls[tid]? = some call) (polling : call.pc = .poll)
    (writes : call.operate = false) {s' : PipeFsSystem}
    (stepped : s.writeStep tid call = some s') : s'.Inv := by
  have running : call.pc ≠ .pending := by rw [polling]; decide
  unfold PipeFsSystem.writeStep at stepped
  split_ifs at stepped with gone room
  · -- ready with `ERR`: the write fails with `EPIPE`
    cases stepped
    exact inv.complete found running call (.error .EPIPE)
  · -- ready with `OUT`: the bytes pushed on the ring buffer are the bytes the write took
    obtain ⟨next, wrote, wfNext, pushed⟩ := inv.wf.write_spec call.buf
    rw [wrote, Option.map_some, Option.some_inj] at stepped
    subst stepped
    have moved : ({ s with
        pipe_meta := { s.pipe_meta with ring_buffer := next }
        accepted := s.accepted ++ call.buf.take (s.pipe_meta.ring_buffer.toFifo.push call.buf).1 } :
          PipeFsSystem).Inv := by
      refine ⟨wfNext, ?_, inv.queued, inv.closed⟩
      change s.delivered ++ next.contents =
        s.accepted ++ call.buf.take (s.pipe_meta.ring_buffer.toFifo.push call.buf).1
      rw [← inv.conserved, List.append_assoc, ← RingBuffer.items_toFifo next, pushed,
        BoundedFifo.items_push, RingBuffer.items_toFifo]
    refine (moved.wakeOne true).complete (calls_wakeOne_of_ne_pending ?_ running true) running _ _
    exact found
  · -- the reader is there and the ring buffer full: the write waits
    cases stepped
    refine inv.suspend found ?_
    rw [writes]
    simpa [PipeMeta.peerClosed] using gone

/-! ## What a step can do -/

section Inversion

variable {s' : PipeFsSystem}

/-- A call starts on a task in no call: its first call is appended, a later one replaces the
call that returned. -/
theorem step_call {tid : ℕ} {operate : Bool} {buf : List UInt8}
    (stepped : s.step (.call tid operate buf) = some s') :
    s.idle tid = true ∧
      ((s' = { s with calls := s.calls ++ [⟨operate, buf, .poll⟩] }) ∨
        ∃ old, s.calls[tid]? = some old ∧ s' = s.setCall tid ⟨operate, buf, .poll⟩) := by
  simp only [PipeFsSystem.step] at stepped
  split_ifs at stepped with refused fresh inside
  · exact ⟨by simpa using (not_or.mp refused).2, .inl (Option.some_inj.mp stepped).symm⟩
  · exact ⟨by simpa using (not_or.mp refused).2,
      .inr ⟨_, List.getElem?_eq_getElem inside, (Option.some_inj.mp stepped).symm⟩⟩

/-- Only a call that is polled takes a step: a read's or a write's. -/
theorem step_run {tid : ℕ} (stepped : s.step (.run tid) = some s') :
    ∃ call, s.calls[tid]? = some call ∧ call.pc = .poll ∧
      (if call.operate then s.readStep tid call else s.writeStep tid call) = some s' := by
  simp only [PipeFsSystem.step, Option.bind_eq_bind, Option.bind_eq_some_iff] at stepped
  obtain ⟨call, found, ran⟩ := stepped
  unfold PipeFsSystem.runCall at ran
  split at ran
  · exact ⟨call, found, by assumption, ran⟩
  · cases ran

theorem step_basePoll {tid : ℕ} {operate : Bool} {events : PollEvents}
    (stepped : s.step (.basePoll tid operate events) = some s') :
    s.idle tid = true ∧ s' = (s.base_poll tid operate events).2 := by
  simp only [PipeFsSystem.step] at stepped
  split_ifs at stepped with refused
  exact ⟨by simpa using (not_or.mp refused).2, (Option.some_inj.mp stepped).symm⟩

theorem step_dup {operate : Bool} (stepped : s.step (.dup operate) = some s') :
    s' = s.setFiles operate (s.files operate + 1) := by
  simp only [PipeFsSystem.step] at stepped
  split_ifs at stepped
  exact (Option.some_inj.mp stepped).symm

theorem step_close {operate : Bool} (stepped : s.step (.close operate) = some s') :
    s' = (s.setFiles operate (s.files operate - 1)).release operate := by
  simp only [PipeFsSystem.step] at stepped
  split_ifs at stepped
  exact (Option.some_inj.mp stepped).symm

end Inversion

/-- A task's first call is polled first, so it does not wait. -/
theorem waiting_call (operate : Bool) (buf : List UInt8) (side : Bool) (tid : ℕ) :
    ({ s with calls := s.calls ++ [⟨operate, buf, .poll⟩] } : PipeFsSystem).Waiting side tid ↔
      s.Waiting side tid := by
  unfold Waiting
  rw [List.getElem?_append]
  split_ifs with inside
  · rfl
  · have absent : s.calls[tid]? = none := List.getElem?_eq_none (by omega)
    rw [absent]
    cases h : tid - s.calls.length with
    | zero => simp
    | succ k => simp

/-- Every step of the system keeps the invariant. -/
theorem Inv.step (inv : s.Inv) {event : PipeFsEvent} {s' : PipeFsSystem}
    (stepped : s.step event = some s') : s'.Inv := by
  cases event with
  | call tid operate buf =>
    obtain ⟨idle, rfl | ⟨old, found, rfl⟩⟩ := step_call stepped
    · exact inv.congr rfl (fun _ => rfl) (waiting_call operate buf) rfl rfl
    · -- the task's last call returned, and its next one is polled first
      exact inv.congr rfl (fun _ => rfl)
        (fun _ _ => waiting_setCall found (not_pending_of_idle idle found) (by simp) _) rfl rfl
  | run tid =>
    obtain ⟨call, found, polling, ran⟩ := step_run stepped
    cases reads : call.operate
    · rw [reads] at ran
      exact inv.writeStep found polling reads ran
    · rw [reads] at ran
      exact inv.readStep found polling reads ran
  | basePoll tid operate events =>
    obtain ⟨-, rfl⟩ := step_basePoll stepped
    exact inv.base_poll tid operate events
  | dup operate =>
    rw [step_dup stepped]
    exact inv.setFiles operate _
  | close operate =>
    rw [step_close stepped]
    exact (inv.setFiles operate _).release operate

/-- The run lemma: every pipe reachable from `make_pipe` keeps the invariant. -/
theorem reachable_inv {capacity : ℕ} (positive : 0 < capacity) {s : PipeFsSystem}
    (reached : Reachable step (fun _ _ => True) (make_pipe capacity) s) : s.Inv :=
  reached.invariant Inv (inv_make_pipe positive) fun _ _ _ inv _ stepped => inv.step stepped

/-! ## Every interleaving -/

/-- On every interleaving of calls, polls and closes from `make_pipe`, the bytes the reads
returned, followed by the bytes the pipe holds, are the bytes the writes took. -/
theorem pipeFs_conserves_bytes {capacity : ℕ} (positive : 0 < capacity) {s : PipeFsSystem}
    (reached : Reachable step (fun _ _ => True) (make_pipe capacity) s) :
    s.delivered ++ s.pipe_meta.ring_buffer.contents = s.accepted :=
  (reachable_inv positive reached).conserved

theorem pipeFs_conserves_bytes_through_close :
    ∃ s, ([.call 0 true [0, 0, 0], .run 0, .call 1 false [1, 2], .run 1, .run 0, .close false,
        .call 2 true [0], .run 2] : List PipeFsEvent).foldlM step (make_pipe 4) = some s ∧
      s.delivered = [1, 2] ∧ s.delivered ++ s.pipe_meta.ring_buffer.contents = s.accepted := by
  obtain ⟨s, ran⟩ : ∃ s, ([.call 0 true [0, 0, 0], .run 0, .call 1 false [1, 2], .run 1,
      .run 0,
      .close false, .call 2 true [0], .run 2] : List PipeFsEvent).foldlM step (make_pipe 4) =
        some s := ⟨_, rfl⟩
  refine ⟨s, ran, ?_, pipeFs_conserves_bytes (by decide) (Reachable.of_foldlM ran)⟩
  rw [Option.some_inj.mp (ran.symm.trans rfl)]
  rfl

/-- On every interleaving from `make_pipe`, a read or write call that waits has its task's
waker on its side's queue, and the other side is still open: no call waits behind a closed
peer. -/
theorem pipeFs_waiting_call_queued {capacity : ℕ} (positive : 0 < capacity)
    {s : PipeFsSystem} (reached : Reachable step (fun _ _ => True) (make_pipe capacity) s)
    {side : Bool} {tid : ℕ} (waits : s.Waiting side tid) :
    tid ∈ s.wakers side ∧ s.pipe_meta.peerClosed side = false := by
  have inv := reachable_inv positive reached
  refine ⟨inv.queued side tid waits, ?_⟩
  cases closed : s.pipe_meta.peerClosed side
  · rfl
  · exact absurd waits (inv.closed side tid closed)

/-- Task 0 polls the empty reading end, then reads from it and waits: its waker is queued
twice, once by `base_poll` and once by the read. -/
theorem pipeFs_poller_waits_queued_twice :
    ∃ s, ([.basePoll 0 true .IN, .call 0 true [0, 0], .run 0] : List PipeFsEvent).foldlM step
        (make_pipe 4) = some s ∧
      s.Waiting true 0 ∧ s.wakers true = [0, 0] ∧ 0 ∈ s.wakers true ∧
      s.pipe_meta.peerClosed true = false := by
  obtain ⟨s, ran⟩ : ∃ s, ([.basePoll 0 true .IN, .call 0 true [0, 0], .run 0] :
      List PipeFsEvent).foldlM step (make_pipe 4) = some s := ⟨_, rfl⟩
  have reached := Option.some_inj.mp (ran.symm.trans rfl)
  have waits : s.Waiting true 0 := by
    rw [reached]
    exact ⟨_, rfl, rfl, rfl⟩
  have twice : s.wakers true = [0, 0] := by
    rw [reached]
    rfl
  exact ⟨s, ran, waits, twice,
    pipeFs_waiting_call_queued (by decide) (Reachable.of_foldlM ran) waits⟩

/-! ## A write wakes the front waker only -/

/-- A write with the reader there and room in the ring buffer pops the front waker of
`read_waker` and wakes that task only. When the waker is one `base_poll` left, a reader that
waits behind it stays pending with the written bytes in the pipe. -/
theorem pipeFs_write_wakes_stale_waker {capacity : ℕ} (positive : 0 < capacity)
    {s : PipeFsSystem} (reached : Reachable step (fun _ _ => True) (make_pipe capacity) s)
    {w : ℕ} {call : PipeCall} (found : s.calls[w]? = some call) (polling : call.pc = .poll)
    (writes : call.operate = false) (bytes : call.buf ≠ []) (held : s.files false ≠ 0)
    (readerOpen : s.pipe_meta.is_read_closed = false)
    (room : s.pipe_meta.ring_buffer.isFull = false) {p r : ℕ} {rest : List ℕ}
    (front : s.read_waker = p :: rest) (stale : ¬ s.Waiting true p) (waits : s.Waiting true r) :
    ∃ s', s.step (.run w) = some s' ∧ s'.read_waker = rest ∧ s'.Waiting true r ∧
      s'.pipe_meta.ring_buffer.contents ≠ [] := by
  have wf := (reachable_inv positive reached).wf
  obtain ⟨next, wrote, -, pushed⟩ := wf.write_spec call.buf
  -- the pipe after the ring buffer's write, before the wake and the return
  let written : PipeFsSystem := { s with
    pipe_meta := { s.pipe_meta with ring_buffer := next }
    accepted := s.accepted ++ call.buf.take (s.pipe_meta.ring_buffer.toFifo.push call.buf).1 }
  have woken : written.wakeOne true = (written.setWakers true rest).wake p := by
    unfold wakeOne
    rw [show written.wakers true = p :: rest from front]
  have running : call.pc ≠ .pending := by rw [polling]; decide
  have found' : ((written.setWakers true rest).wake p).calls[w]? = some call :=
    calls_wake_of_ne_pending found running p
  have stepped : s.step (.run w) = some ((written.wakeOne true).complete w call
      (.ok (s.pipe_meta.ring_buffer.toFifo.push call.buf).1)) := by
    simp only [step, found, Option.bind_eq_bind, Option.bind_some, runCall, polling, writes,
      Bool.false_eq_true, ↓reduceIte]
    rw [writeStep, if_neg (by rw [readerOpen]; decide), if_pos (by rw [room]; rfl), wrote,
      Option.map_some]
  -- the writer keeps a handle, so the return drops nothing
  have kept : (written.wakeOne true).complete w call
      (.ok (s.pipe_meta.ring_buffer.toFifo.push call.buf).1) =
      ((written.setWakers true rest).wake p).setCall w
        { call with pc := .done (.ok (s.pipe_meta.ring_buffer.toFifo.push call.buf).1) } := by
    rw [complete, woken, writes]
    exact release_of_files _ (by rw [files_setCall, files_wake, files_setWakers]; exact held)
  have roomy : 0 < s.pipe_meta.ring_buffer.toFifo.room := by
    have notFull :
        s.pipe_meta.ring_buffer.contents.length ≠ s.pipe_meta.ring_buffer.arr.length := by
      simpa [wf.isFull_eq] using room
    have := RingBuffer.length_contents_le s.pipe_meta.ring_buffer
    rw [wf.room_toFifo, ← wf.length_contents]
    omega
  refine ⟨_, stepped, ?_, ?_, ?_⟩
  · rw [kept]
    rfl
  · rw [kept, waiting_setCall found' running (by simp) r, waiting_wake, waiting_setWakers]
    exact ⟨waits, fun same => stale (same ▸ waits)⟩
  · rw [kept]
    change next.contents ≠ []
    rw [← RingBuffer.items_toFifo, pushed]
    exact BoundedFifo.items_push_ne_nil _ bytes roomy

/-- Task 2 polls the empty reading end and goes on, task 0 reads and waits behind its waker, and
task 1 writes a byte: the write wakes task 2, and task 0 still waits with the byte in the pipe. -/
theorem pipeFs_poll_then_write_misses_reader :
    ∃ s, ([.basePoll 2 true .IN, .call 0 true [0], .run 0, .call 1 false [7]] :
        List PipeFsEvent).foldlM step (make_pipe 4) = some s ∧
      ∃ s', s.step (.run 1) = some s' ∧ s'.read_waker = [0] ∧ s'.Waiting true 0 ∧
        s'.pipe_meta.ring_buffer.contents ≠ [] := by
  obtain ⟨s, ran⟩ : ∃ s, ([.basePoll 2 true .IN, .call 0 true [0], .run 0,
      .call 1 false [7]] : List PipeFsEvent).foldlM step (make_pipe 4) = some s := ⟨_, rfl⟩
  have reached := Option.some_inj.mp (ran.symm.trans rfl)
  have stale : ¬ s.Waiting true 2 := by
    rw [reached]
    rintro ⟨call, found, -⟩
    cases found
  have waits : s.Waiting true 0 := by
    rw [reached]
    exact ⟨_, rfl, rfl, rfl⟩
  exact ⟨s, ran, pipeFs_write_wakes_stale_waker (by decide) (Reachable.of_foldlM ran)
    (show s.calls[1]? = some ⟨false, [7], .poll⟩ by rw [reached]; rfl) rfl rfl (by decide)
    (by rw [reached]; decide) (by rw [reached]; rfl) (by rw [reached]; rfl)
    (show s.read_waker = 2 :: [0] by rw [reached]; rfl) stale waits⟩

end PipeFsSystem

namespace PipeFsEvent

/-- An event in which no writer takes part: no write call starts, and no handle on the writing
end is closed. -/
def writerQuiet : PipeFsEvent → Bool
  | .call _ operate _ => operate
  | .close operate => operate
  | _ => true

end PipeFsEvent

namespace PipeFsSystem

/-! ## A reader that no write wakes -/

/-- Reader `r` waits, its waker is not on the writers' queue, and every write call returned: only
a new write call or the writer's `Drop` can wake it. -/
structure Stranded (s : PipeFsSystem) (r : ℕ) : Prop where
  waits : s.Waiting true r
  notWriter : r ∉ s.write_waker
  writesDone : ∀ call ∈ s.calls, call.operate = false → call.pc.isDone = true

section Stranded

variable {s : PipeFsSystem} {r : ℕ}

/-- An update that keeps the calls, and leaves `r` off the writers' queue, keeps `r` stranded. -/
theorem Stranded.congr {s' : PipeFsSystem} (st : s.Stranded r) (calls : s'.calls = s.calls)
    (writers : r ∉ s'.write_waker) : s'.Stranded r where
  waits := by
    unfold Waiting
    rw [calls]
    exact st.waits
  notWriter := writers
  writesDone call mem := st.writesDone call (calls ▸ mem)

theorem Stranded.ne_of_running (st : s.Stranded r) {tid : ℕ} {call : PipeCall}
    (found : s.calls[tid]? = some call) (running : call.pc ≠ .pending) : tid ≠ r := by
  rintro rfl
  obtain ⟨call', found', -, pending⟩ := st.waits
  rw [found, Option.some_inj] at found'
  exact running (found' ▸ pending)

/-- A task in no call is not the stranded reader, whose call waits. -/
theorem Stranded.ne_of_idle (st : s.Stranded r) {tid : ℕ} (idle : s.idle tid = true) :
    tid ≠ r := by
  rintro rfl
  obtain ⟨call, found, -, pending⟩ := st.waits
  exact not_pending_of_idle idle found pending

theorem Stranded.wake (st : s.Stranded r) {w : ℕ} (other : w ≠ r) : (s.wake w).Stranded r where
  waits := (waiting_wake w).mpr ⟨st.waits, Ne.symm other⟩
  notWriter := st.notWriter
  writesDone call mem writes := by
    obtain ⟨tid, found⟩ := List.mem_iff_getElem?.mp mem
    obtain ⟨old, foundOld, side, done⟩ := calls_wake_spec found
    rw [done]
    exact st.writesDone old (List.mem_of_getElem? foundOld) (side ▸ writes)

theorem Stranded.foldl_wake (st : s.Stranded r) {ws : List ℕ} (absent : r ∉ ws) :
    (ws.foldl PipeFsSystem.wake s).Stranded r := by
  induction ws generalizing s with
  | nil => exact st
  | cons w rest ih =>
    rw [List.mem_cons, not_or] at absent
    exact ih (st.wake (Ne.symm absent.1)) absent.2

/-- The end of a read wakes the front writer's waker, which is not `r`. -/
theorem Stranded.wakeOne_false (st : s.Stranded r) : (s.wakeOne false).Stranded r := by
  unfold wakeOne
  split
  · exact st
  · rename_i w rest front
    have absent : r ∉ w :: rest := front ▸ st.notWriter
    rw [List.mem_cons, not_or] at absent
    have popped : (s.setWakers false rest).Stranded r := st.congr (calls_setWakers _ _ _) absent.2
    exact popped.wake (Ne.symm absent.1)

/-- The reader's `Drop` wakes the writers' wakers, none of which is `r`. -/
theorem Stranded.release_true (st : s.Stranded r) : (s.release true).Stranded r := by
  unfold release drop
  split_ifs
  · have emptied : ({ s with pipe_meta := s.pipe_meta.close true }.setWakers (!true) []).Stranded
        r := st.congr (calls_setWakers _ _ _) List.not_mem_nil
    exact emptied.foldl_wake st.notWriter
  · exact st

theorem Stranded.setWakers_true (st : s.Stranded r) (ws : List ℕ) :
    (s.setWakers true ws).Stranded r :=
  st.congr (calls_setWakers _ _ _) st.notWriter

theorem Stranded.setFiles (st : s.Stranded r) (operate : Bool) (n : ℕ) :
    (s.setFiles operate n).Stranded r :=
  st.congr (by cases operate <;> rfl) (by cases operate <;> exact st.notWriter)

/-- Another task's call replaced by a read leaves `r` stranded. -/
theorem Stranded.setCall (st : s.Stranded r) {tid : ℕ} (other : tid ≠ r) {call : PipeCall}
    (reads : call.operate = true) : (s.setCall tid call).Stranded r where
  waits := (waiting_setCall_ne other).mpr st.waits
  notWriter := st.notWriter
  writesDone c mem writes := by
    rcases List.mem_or_eq_of_mem_set mem with old | new
    · exact st.writesDone c old writes
    · -- the new call is a read
      rw [new, reads] at writes
      cases writes

theorem Stranded.complete (st : s.Stranded r) {tid : ℕ} (other : tid ≠ r) {call : PipeCall}
    (reads : call.operate = true) (result : Except SysError ℕ) :
    (s.complete tid call result).Stranded r := by
  unfold PipeFsSystem.complete
  rw [reads]
  exact (st.setCall other (by rfl)).release_true

/-- `base_poll` of another task pushes at most that task's waker. -/
theorem Stranded.base_poll (st : s.Stranded r) {tid : ℕ} (other : tid ≠ r) (operate : Bool)
    (events : PollEvents) : (s.base_poll tid operate events).2.Stranded r := by
  obtain ⟨pushed, small, polled⟩ := s.base_poll_snd tid operate events
  rw [polled]
  refine st.congr (calls_setWakers _ _ _) ?_
  cases operate
  · -- the writers' queue gains at most `tid`
    change r ∉ s.write_waker ++ pushed
    rcases small with rfl | rfl
    · simpa using st.notWriter
    · simpa [Ne.symm other] using st.notWriter
  · exact st.notWriter

/-- The step of another reader's call leaves `r` stranded: a read wakes writers only. -/
theorem Stranded.readStep (st : s.Stranded r) {tid : ℕ} {call : PipeCall}
    (found : s.calls[tid]? = some call) (polling : call.pc = .poll) (reads : call.operate = true)
    {s' : PipeFsSystem} (stepped : s.readStep tid call = some s') : s'.Stranded r := by
  have other := st.ne_of_running found (by rw [polling]; decide)
  unfold PipeFsSystem.readStep at stepped
  split_ifs at stepped
  · -- ready with `IN`: the bytes go to the reader, and the front writer is woken
    obtain ⟨got, -, rfl⟩ := Option.map_eq_some_iff.mp stepped
    refine (Stranded.wakeOne_false (st.congr ?_ ?_)).complete other ?_ _
    · rfl
    · exact st.notWriter
    · exact reads
  · -- ready with `HUP`: the read returns 0
    cases stepped
    exact st.complete other reads _
  · -- the read waits, its waker pushed on the readers' queue
    cases stepped
    unfold suspend
    rw [reads]
    exact (st.setCall other (by rfl)).setWakers_true _

/-- Every step in which no writer takes part leaves `r` stranded. -/
theorem Stranded.step (st : s.Stranded r) {event : PipeFsEvent}
    (quiet : event.writerQuiet = true) {s' : PipeFsSystem} (stepped : s.step event = some s') :
    s'.Stranded r := by
  cases event with
  | call tid operate buf =>
    -- no write call starts
    cases operate
    · cases quiet
    obtain ⟨idle, rfl | ⟨-, -, rfl⟩⟩ := step_call stepped
    · refine ⟨(waiting_call true buf true r).mpr st.waits, st.notWriter, fun c mem writes => ?_⟩
      rcases List.mem_append.mp mem with old | new
      · exact st.writesDone c old writes
      · rw [List.mem_singleton.mp new] at writes
        cases writes
    · exact st.setCall (st.ne_of_idle idle) rfl
  | run tid =>
    obtain ⟨call, found, polling, ran⟩ := step_run stepped
    cases reads : call.operate
    · -- a write call would be in flight, but every write call returned
      have done := st.writesDone call (List.mem_of_getElem? found) reads
      rw [polling] at done
      cases done
    · rw [reads] at ran
      exact st.readStep found polling reads ran
  | basePoll tid operate events =>
    obtain ⟨idle, rfl⟩ := step_basePoll stepped
    exact st.base_poll (st.ne_of_idle idle) operate events
  | dup operate =>
    rw [step_dup stepped]
    exact st.setFiles operate _
  | close operate =>
    -- no handle on the writing end is closed
    cases operate
    · cases quiet
    rw [step_close stepped]
    exact (st.setFiles true _).release_true

/-- The run lemma: every run from a stranded reader in which no writer takes part keeps it
stranded. -/
theorem Stranded.reachable (st : s.Stranded r) {s' : PipeFsSystem}
    (reached : Reachable PipeFsSystem.step (fun _ (event : PipeFsEvent) => event.writerQuiet = true)
      s s') : s'.Stranded r :=
  reached.invariant (Stranded · r) st fun _ _ _ stranded quiet stepped =>
    stranded.step quiet stepped

end Stranded

/-- Two readers wait on the empty pipe, a write of two bytes wakes the first, and the first reads
one byte: the second reader waits with a byte in the pipe, and no run in which no writer takes
part wakes it. -/
theorem pipeFs_second_reader_stranded :
    ∃ registered s, ([.call 0 true [0], .run 0, .call 1 true [0], .run 1] :
        List PipeFsEvent).foldlM step (make_pipe 4) = some registered ∧
      registered.Waiting true 1 ∧ registered.pipe_meta.ring_buffer.contents = [] ∧
      ([.call 2 false [7, 8], .run 2, .run 0] : List PipeFsEvent).foldlM step registered =
        some s ∧
      s.accepted = [7, 8] ∧ s.delivered = [7] ∧ s.pipe_meta.ring_buffer.contents = [8] ∧
      ∀ s', Reachable step (fun _ event => event.writerQuiet = true) s s' →
        s'.Waiting true 1 := by
  refine ⟨_, _, rfl, ⟨_, rfl, rfl, rfl⟩, rfl, rfl, rfl, rfl, rfl,
    fun s' reached => (Stranded.reachable ⟨⟨_, rfl, rfl, rfl⟩, ?_, ?_⟩ reached).waits⟩
  all_goals decide

end PipeFsSystem

end Chronix
