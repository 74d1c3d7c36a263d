import Mathlib
import Chronix.Model.SocketPair
import Chronix.ToMathlib.Reachable

/-! # No byte crosses a socket pair

`SocketPairWriteFuture::poll` is a copy of the read future: it is ready when its buffer holds
bytes or the other end has closed, and then reports `IN` or `HUP`, never `OUT`. A send's buffer
starts empty, so its future waits; once the other end has closed it is ready with `HUP`, and
`send` fails its `assert!` on `OUT`. No call ever writes a ring buffer, both stay as
`SocketPairInternal::new` made them, and a `recv` can only wait or return `Ok(0)` after the other
end's close. `Quiet` is that invariant, with where each queued waker comes from.

`close` wakes the writers queued on its own endpoint and the readers queued on the other one: the
calls of its own end, while those of the other end, which the close concerns, stay queued. With
no byte moving nothing else pops a waker, so a call that waits on an end waits until that same
end is closed.
-/

namespace Chronix

namespace BufferEndpoint

@[simp]
theorem buffer_setWakers (e : BufferEndpoint) (reading : Bool) (ws : List ℕ) :
    (e.setWakers reading ws).buffer = e.buffer := by
  cases reading <;> rfl

@[simp]
theorem wakers_setWakers (e : BufferEndpoint) (reading other : Bool) (ws : List ℕ) :
    (e.setWakers reading ws).wakers other = if reading = other then ws else e.wakers other := by
  cases reading <;> cases other <;> rfl

@[simp]
theorem buffer_pushWaker (e : BufferEndpoint) (reading : Bool) (waker : ℕ) :
    (e.pushWaker reading waker).buffer = e.buffer :=
  buffer_setWakers _ _ _

theorem mem_wakers_pushWaker {e : BufferEndpoint} {reading other : Bool} {waker v : ℕ}
    (queued : v ∈ (e.pushWaker reading waker).wakers other) :
    v ∈ e.wakers other ∨ (v = waker ∧ reading = other) := by
  rw [pushWaker, wakers_setWakers] at queued
  split_ifs at queued with same
  · subst same
    simpa using queued
  · exact .inl queued

end BufferEndpoint

namespace SocketPairMeta

@[simp]
theorem endpoint_setEndpoint (m : SocketPairMeta) (first other : Bool) (e : BufferEndpoint) :
    (m.setEndpoint first e).endpoint other = if first = other then e else m.endpoint other := by
  cases first <;> cases other <;> rfl

@[simp]
theorem closed_setEndpoint (m : SocketPairMeta) (first other : Bool) (e : BufferEndpoint) :
    (m.setEndpoint first e).closed other = m.closed other := by
  cases first <;> cases other <;> rfl

@[simp]
theorem endpoint_setClosed (m : SocketPairMeta) (first other : Bool) :
    (m.setClosed first).endpoint other = m.endpoint other := by
  cases first <;> cases other <;> rfl

end SocketPairMeta

namespace SocketPairTask

@[simp]
theorem is_first_end_resume (task : SocketPairTask) : task.resume.is_first_end = task.is_first_end := by
  unfold resume
  split_ifs <;> rfl

theorem resume_of_ne_pending {task : SocketPairTask} (running : task.pc ≠ .pending) :
    task.resume = task := by
  rw [resume, if_neg running]

@[simp]
theorem resume_resume (task : SocketPairTask) : task.resume.resume = task.resume := by
  by_cases waits : task.pc = .pending
  · simp [resume, waits]
  · rw [resume_of_ne_pending waits, resume_of_ne_pending waits]

/-- Where a call can stand: a `recv` or a `send` gets no further than a future ready with `HUP`,
a `recv` returns only `Ok(0)`, and a `send` never returns. -/
def Stalled (task : SocketPairTask) : Prop :=
  match task.call, task.pc with
  | .recv _, .ready revents | .send _, .ready revents => revents = .HUP
  | .recv _, .done ret => ret = .ok 0
  | .send _, .done _ => False
  | _, _ => True

theorem stalled_poll (is_first_end : Bool) (call : SocketPairCall) :
    Stalled ⟨is_first_end, call, .poll⟩ := by
  cases call <;> trivial

theorem Stalled.resume {task : SocketPairTask} (stalled : task.Stalled) : task.resume.Stalled := by
  by_cases waits : task.pc = .pending
  · obtain ⟨is_first_end, call, pc⟩ := task
    cases call <;> simp_all [SocketPairTask.resume, Stalled]
  · rwa [resume_of_ne_pending waits]

theorem Stalled.ite_resume {task : SocketPairTask} (c : Prop) [Decidable c] (stalled : task.Stalled) :
    ((if c then SocketPairTask.resume else id) task).Stalled := by
  split_ifs
  · exact stalled.resume
  · exact stalled

@[simp]
theorem is_first_end_ite_resume (c : Prop) [Decidable c] (task : SocketPairTask) :
    ((if c then resume else id) task).is_first_end = task.is_first_end := by
  split_ifs <;> simp

end SocketPairTask

namespace SocketPairSystem

variable {s s' : SocketPairSystem}

@[simp]
theorem internal_setTask (s : SocketPairSystem) (tid : ℕ) (task : SocketPairTask) :
    (s.setTask tid task).internal = s.internal := rfl

@[simp]
theorem internal_setInternal (s : SocketPairSystem) (m : SocketPairMeta) :
    (s.setInternal m).internal = m := rfl

@[simp]
theorem tasks_setInternal (s : SocketPairSystem) (m : SocketPairMeta) :
    (s.setInternal m).tasks = s.tasks := rfl

@[simp]
theorem setInternal_internal (s : SocketPairSystem) : s.setInternal s.internal = s := rfl

@[simp]
theorem internal_wake (s : SocketPairSystem) (w : ℕ) : (s.wake w).internal = s.internal := rfl

theorem getElem?_setTask_self {tid : ℕ} {task : SocketPairTask} (found : s.tasks[tid]? = some task)
    (task' : SocketPairTask) : (s.setTask tid task').tasks[tid]? = some task' := by
  have inBounds : tid < s.tasks.length := (List.getElem?_eq_some_iff.mp found).1
  rw [setTask, List.getElem?_set_self inBounds]

theorem getElem?_setTask_of_ne {tid k : ℕ} (other : tid ≠ k) (task : SocketPairTask) :
    (s.setTask tid task).tasks[k]? = s.tasks[k]? :=
  List.getElem?_set_ne other

/-- A task that waits has no step. -/
theorem runTask_of_pending (s : SocketPairSystem) (tid : ℕ) {task : SocketPairTask}
    (pending : task.pc = .pending) : s.runTask tid task = .ok s := by
  obtain ⟨A, call, pc⟩ := task
  obtain rfl : pc = .pending := pending
  cases call <;> rfl

theorem getElem?_wake_tasks (s : SocketPairSystem) (w k : ℕ) :
    (s.wake w).tasks[k]? = s.tasks[k]?.map (if w = k then SocketPairTask.resume else id) := by
  rw [wake, List.getElem?_modify]
  split_ifs <;> rfl

@[simp]
theorem internal_foldl_wake (ws : List ℕ) (s : SocketPairSystem) :
    (ws.foldl wake s).internal = s.internal := by
  induction ws generalizing s with
  | nil => rfl
  | cons w rest ih => rw [List.foldl_cons, ih, internal_wake]

/-- Waking the wakers `ws` in turn resumes the tasks they name, once each. -/
theorem getElem?_foldl_wake_tasks (ws : List ℕ) (s : SocketPairSystem) (k : ℕ) :
    (ws.foldl wake s).tasks[k]? = s.tasks[k]?.map (if k ∈ ws then SocketPairTask.resume else id) := by
  induction ws generalizing s with
  | nil => simp
  | cons w rest ih =>
    rw [List.foldl_cons, ih, getElem?_wake_tasks, Option.map_map]
    congr 1
    funext task
    by_cases named : k = w
    · subst named
      by_cases again : k ∈ rest <;> simp [again]
    · simp [named, Ne.symm named]

end SocketPairSystem

/-! ## Where wakers come from -/

/-- The end whose calls queue on the `read_wakers` (`reading`) or `write_wakers` of endpoint
`first`: the other end reads an endpoint, its own end writes it. -/
def waiterEnd (first reading : Bool) : Bool := if reading then !first else first

/-- `m'` is `m` with at most waker `w` pushed, and only where a call of end `A` queues; the buffers
are the same. -/
structure Pushed (A : Bool) (w : ℕ) (m m' : SocketPairMeta) : Prop where
  buffer : ∀ first, (m'.endpoint first).buffer = (m.endpoint first).buffer
  wakers : ∀ first reading, ∀ v ∈ (m'.endpoint first).wakers reading,
    v ∈ (m.endpoint first).wakers reading ∨ (v = w ∧ waiterEnd first reading = A)

namespace Pushed

variable {A : Bool} {w : ℕ} {m m₁ m₂ : SocketPairMeta}

theorem refl (A : Bool) (w : ℕ) (m : SocketPairMeta) : Pushed A w m m :=
  ⟨fun _ => rfl, fun _ _ _ queued => .inl queued⟩

theorem trans (first : Pushed A w m m₁) (second : Pushed A w m₁ m₂) : Pushed A w m m₂ where
  buffer f := (second.buffer f).trans (first.buffer f)
  wakers f r v queued := by
    rcases second.wakers f r v queued with earlier | pushed
    · exact first.wakers f r v earlier
    · exact .inr pushed

theorem pushWaker (m : SocketPairMeta) {first reading : Bool} (owner : waiterEnd first reading = A) :
    Pushed A w m (m.setEndpoint first ((m.endpoint first).pushWaker reading w)) where
  buffer f := by
    rw [SocketPairMeta.endpoint_setEndpoint]
    split_ifs with same
    · subst same
      exact BufferEndpoint.buffer_pushWaker _ _ _
    · rfl
  wakers f r v queued := by
    rw [SocketPairMeta.endpoint_setEndpoint] at queued
    split_ifs at queued with same
    · subst same
      rcases BufferEndpoint.mem_wakers_pushWaker queued with earlier | ⟨rfl, rfl⟩
      · exact .inl earlier
      · exact .inr ⟨rfl, owner⟩
    · exact .inl queued

theorem pushWaker_if (m : SocketPairMeta) (c : Bool) {first reading : Bool}
    (owner : waiterEnd first reading = A) :
    Pushed A w m (if c then m.setEndpoint first ((m.endpoint first).pushWaker reading w) else m) := by
  split_ifs
  · exact pushWaker m owner
  · exact refl A w m

end Pushed

theorem isEmpty_new (capacity : ℕ) : (RingBuffer.new capacity).isEmpty = true := rfl

theorem isFull_new (capacity : ℕ) : (RingBuffer.new capacity).isFull = false := rfl

/-- A future over an empty buffer: `HUP` if the other end has closed, else it waits. -/
theorem pollEndpoint_of_isEmpty {m : SocketPairMeta} {first : Bool}
    (empty : (m.endpoint first).buffer.isEmpty = true) (reading other_end_closed : Bool) (waker : ℕ) :
    pollEndpoint m first reading other_end_closed waker =
      if other_end_closed then (some .HUP, m)
      else (none, m.setEndpoint first ((m.endpoint first).pushWaker reading waker)) := by
  simp [pollEndpoint, empty]

/-- `poll` queues the caller's waker only where a call of its own end waits. -/
theorem SocketPairConnection.pushed_poll (m : SocketPairMeta) (is_first_end : Bool)
    (events : PollEvents) (waker : ℕ) :
    Pushed is_first_end waker m (SocketPairConnection.poll m is_first_end events waker).2 := by
  simp only [SocketPairConnection.poll]
  exact (Pushed.pushWaker_if m _ (by simp [waiterEnd])).trans
    (Pushed.pushWaker_if _ _ (by simp [waiterEnd]))

/-- What `poll` reports of an end whose incoming buffer is empty and whose outgoing buffer is not
full: `HUP` and `ERR` once the other end has closed, `OUT` before. -/
theorem SocketPairConnection.poll_of_isEmpty (m : SocketPairMeta) (is_first_end : Bool)
    (empty : (m.endpoint !is_first_end).buffer.isEmpty = true)
    (room : (m.endpoint is_first_end).buffer.isFull = false) (events : PollEvents) (waker : ℕ) :
    (SocketPairConnection.poll m is_first_end events waker).1 =
      if m.closed !is_first_end then (PollEvents.empty.insert .HUP).insert .ERR
      else PollEvents.empty.insert .OUT := by
  cases closed : m.closed !is_first_end <;> simp [SocketPairConnection.poll, empty, room, closed]

/-! ## What `close` does -/

namespace SocketPairConnection

variable {s : SocketPairSystem} {B : Bool}

theorem close_of_closed (closed : s.internal.closed B = true) : close s B = s := by
  simp [close, closed]

/-- The first `close` sets the flag and empties two queues. -/
theorem internal_close (opened : s.internal.closed B = false) :
    (close s B).internal =
      ((s.internal.setClosed B).setEndpoint B ((s.internal.endpoint B).setWakers false [])).setEndpoint
        (!B) ((s.internal.endpoint !B).setWakers true []) := by
  simp [close, opened]

theorem buffer_close (s : SocketPairSystem) (B first : Bool) :
    ((close s B).internal.endpoint first).buffer = (s.internal.endpoint first).buffer := by
  cases closed : s.internal.closed B
  · rw [internal_close closed]
    cases B <;> cases first <;> simp
  · rw [close_of_closed closed]

/-- `close` only takes wakers off their queues. -/
theorem mem_close_wakers {first reading : Bool} {v : ℕ}
    (queued : v ∈ ((close s B).internal.endpoint first).wakers reading) :
    v ∈ (s.internal.endpoint first).wakers reading := by
  cases closed : s.internal.closed B
  · rw [internal_close closed] at queued
    cases B <;> cases first <;> cases reading <;> simp_all
  · rwa [close_of_closed closed] at queued

/-- The first `close` of an end resumes the calls named by the end's own `write_wakers` and the
other endpoint's `read_wakers`, and leaves every other task. -/
theorem getElem?_close_tasks (opened : s.internal.closed B = false) (k : ℕ) :
    (close s B).tasks[k]? = s.tasks[k]?.map
      (if k ∈ (s.internal.endpoint B).write_wakers ∨ k ∈ (s.internal.endpoint !B).read_wakers
        then SocketPairTask.resume else id) := by
  simp only [close, opened, Bool.false_eq_true, if_false, SocketPairSystem.getElem?_foldl_wake_tasks,
    SocketPairSystem.tasks_setInternal, Option.map_map, SocketPairMeta.endpoint_setEndpoint,
    SocketPairMeta.endpoint_setClosed, Bool.eq_not_self, if_false]
  congr 1
  funext task
  by_cases writer : k ∈ (s.internal.endpoint B).write_wakers <;>
    by_cases reader : k ∈ (s.internal.endpoint !B).read_wakers <;> simp [writer, reader]

end SocketPairConnection

/-! ## The invariant -/

open SocketPairSystem SocketPairTask

/-- Every task keeps its end, at its index. -/
def KeepsEnds (ts ts' : List SocketPairTask) : Prop :=
  ∀ (k : ℕ) (t : SocketPairTask), ts[k]? = some t →
    ∃ t' : SocketPairTask, ts'[k]? = some t' ∧ t'.is_first_end = t.is_first_end

/-- The buffers are as new, every call is stalled, and each queued waker names a call of the end
that queues there. -/
structure Quiet (capacity : ℕ) (s : SocketPairSystem) : Prop where
  buffer : ∀ first, (s.internal.endpoint first).buffer = .new capacity
  stalled : ∀ (k : ℕ) (task : SocketPairTask), s.tasks[k]? = some task → task.Stalled
  queued : ∀ first reading, ∀ w ∈ (s.internal.endpoint first).wakers reading,
    ∃ task : SocketPairTask, s.tasks[w]? = some task ∧ task.is_first_end = waiterEnd first reading

namespace Quiet

variable {capacity : ℕ} {s s' : SocketPairSystem}

theorem make_socketpair (capacity : ℕ) : Quiet capacity (make_socketpair capacity) where
  buffer first := by cases first <;> rfl
  stalled k task := by simp [Chronix.make_socketpair]
  queued first reading w := by
    cases first <;> cases reading <;>
      simp [Chronix.make_socketpair, SocketPairInternal.new, SocketPairMeta.endpoint,
        BufferEndpoint.new, BufferEndpoint.wakers]

/-- The general preservation step: the buffers stay, every task is stalled and keeps its end, and a
waker is either an old one or names a call of the end that queues there. -/
theorem next (q : Quiet capacity s)
    (buffer : ∀ first, (s'.internal.endpoint first).buffer = (s.internal.endpoint first).buffer)
    (stalled : ∀ (k : ℕ) (task : SocketPairTask), s'.tasks[k]? = some task → task.Stalled)
    (keeps : KeepsEnds s.tasks s'.tasks)
    (queued : ∀ first reading, ∀ v ∈ (s'.internal.endpoint first).wakers reading,
      v ∈ (s.internal.endpoint first).wakers reading ∨
        ∃ task : SocketPairTask, s'.tasks[v]? = some task ∧ task.is_first_end = waiterEnd first reading) :
    Quiet capacity s' where
  buffer first := (buffer first).trans (q.buffer first)
  stalled := stalled
  queued first reading v member := by
    rcases queued first reading v member with earlier | fresh
    · obtain ⟨task, found, owner⟩ := q.queued first reading v earlier
      obtain ⟨task', found', same⟩ := keeps v task found
      exact ⟨task', found', same.trans owner⟩
    · exact fresh

/-- Task `tid` moves on in its own end, and the meta gets at most its waker. -/
theorem update (q : Quiet capacity s) {tid : ℕ} {task task' : SocketPairTask}
    (found : s.tasks[tid]? = some task) {m : SocketPairMeta} (pushed : Pushed task.is_first_end tid s.internal m)
    (stalled : task'.Stalled) (same : task'.is_first_end = task.is_first_end) :
    Quiet capacity ((s.setInternal m).setTask tid task') := by
  have moved : ((s.setInternal m).setTask tid task').tasks[tid]? = some task' :=
    getElem?_setTask_self found task'
  refine q.next pushed.buffer ?_ ?_ ?_
  · intro k t at_k
    by_cases here : tid = k
    · subst here
      obtain rfl := Option.some.inj (moved.symm.trans at_k)
      exact stalled
    · rw [getElem?_setTask_of_ne here] at at_k
      exact q.stalled k t at_k
  · intro k t at_k
    by_cases here : tid = k
    · subst here
      obtain rfl := Option.some.inj (found.symm.trans at_k)
      exact ⟨task', moved, same⟩
    · exact ⟨t, (getElem?_setTask_of_ne here task').trans at_k, rfl⟩
  · intro first reading v member
    rcases pushed.wakers first reading v member with earlier | ⟨rfl, owner⟩
    · exact .inl earlier
    · exact .inr ⟨task', moved, same.trans owner.symm⟩

theorem call (q : Quiet capacity s) (is_first_end : Bool) (c : SocketPairCall) :
    Quiet capacity { s with tasks := s.tasks ++ [⟨is_first_end, c, .poll⟩] } := by
  refine q.next (fun _ => rfl) ?_ ?_ (fun _ _ _ member => .inl member)
  · intro k t at_k
    rw [List.getElem?_append] at at_k
    split_ifs at at_k with old
    · exact q.stalled k t at_k
    · -- the new task, at `.poll`
      obtain ⟨_, named⟩ := List.getElem?_eq_some_iff.mp at_k
      rw [List.getElem_singleton] at named
      exact named ▸ stalled_poll is_first_end c
  · intro k t at_k
    exact ⟨t, (List.getElem?_append_left (List.getElem?_eq_some_iff.mp at_k).1).trans at_k, rfl⟩

/-- The poll of a future over a buffer of a quiet system: `HUP`, or the task waits with its waker
pushed. -/
theorem afterPoll_pollEndpoint (q : Quiet capacity s) (tid : ℕ) (task : SocketPairTask)
    (first reading c : Bool) (owner : waiterEnd first reading = task.is_first_end) :
    ∃ m pc, s.afterPoll tid task (pollEndpoint s.internal first reading c tid) =
        (s.setInternal m).setTask tid { task with pc } ∧
      Pushed task.is_first_end tid s.internal m ∧ (pc = .pending ∨ pc = .ready .HUP) := by
  rw [pollEndpoint_of_isEmpty (by rw [q.buffer first]; rfl)]
  split_ifs
  · exact ⟨s.internal, .ready .HUP, rfl, Pushed.refl _ _ _, .inr rfl⟩
  · exact ⟨_, .pending, rfl, Pushed.pushWaker _ owner, .inl rfl⟩

/-- What the next critical section of a task does in a quiet system: nothing, or it moves the task
on in its own end and pushes at most its waker; no byte moves. -/
theorem runTask_cases (q : Quiet capacity s) {tid : ℕ} {task : SocketPairTask}
    (found : s.tasks[tid]? = some task) (ran : s.runTask tid task = .ok s') :
    s' = s ∨ ∃ m task', s' = (s.setInternal m).setTask tid task' ∧
      Pushed task.is_first_end tid s.internal m ∧ task'.Stalled ∧
      task'.is_first_end = task.is_first_end := by
  have stalled := q.stalled tid task found
  obtain ⟨A, call, pc⟩ := task
  cases call with
  | recv buf =>
    cases pc with
    | poll =>
      -- the read future, over the other end's buffer
      obtain ⟨m, pc, moved, pushed, waits⟩ := q.afterPoll_pollEndpoint tid ⟨A, .recv buf, .poll⟩
        (!A) true (s.internal.closed !A) (by simp [waiterEnd])
      refine .inr ⟨m, ⟨A, .recv buf, pc⟩, (Except.ok.inj ran).symm.trans moved, pushed, ?_, rfl⟩
      rcases waits with rfl | rfl <;> simp [SocketPairTask.Stalled]
    | ready revents =>
      -- the future was ready with `HUP`, and `recv` returns `Ok(0)` without the lock
      obtain rfl : revents = .HUP := stalled
      refine .inr ⟨s.internal, ⟨A, .recv buf, .done (.ok 0)⟩, ?_, Pushed.refl _ _ _, rfl, rfl⟩
      rw [setInternal_internal, ← Except.ok.inj ran]
    | pending | done _ => exact .inl (Except.ok.inj ran).symm
  | send buf =>
    cases pc with
    | poll =>
      -- the write future, over the end's own buffer
      obtain ⟨m, pc, moved, pushed, waits⟩ := q.afterPoll_pollEndpoint tid ⟨A, .send buf, .poll⟩
        A false (s.internal.closed !A) (by simp [waiterEnd])
      refine .inr ⟨m, ⟨A, .send buf, pc⟩, (Except.ok.inj ran).symm.trans moved, pushed, ?_, rfl⟩
      rcases waits with rfl | rfl <;> simp [SocketPairTask.Stalled]
    | ready revents =>
      -- ready only with `HUP`, which fails the assertion on `OUT`
      obtain rfl : revents = .HUP := stalled
      cases ran
    | pending | done _ => exact .inl (Except.ok.inj ran).symm
  | poll events =>
    cases pc with
    | poll =>
      -- `poll`'s one critical section, which returns the events
      let polled := SocketPairConnection.poll s.internal A events tid
      have ran : Except.ok ((s.setInternal polled.2).setTask tid
          ⟨A, .poll events, .done (.events polled.1)⟩) = .ok s' := ran
      exact .inr ⟨polled.2, ⟨A, .poll events, .done (.events polled.1)⟩, (Except.ok.inj ran).symm,
        SocketPairConnection.pushed_poll s.internal A events tid, trivial, rfl⟩
    | pending | ready _ | done _ => exact .inl (Except.ok.inj ran).symm

theorem runTask (q : Quiet capacity s) {tid : ℕ} {task : SocketPairTask}
    (found : s.tasks[tid]? = some task) (ran : s.runTask tid task = .ok s') : Quiet capacity s' := by
  rcases q.runTask_cases found ran with rfl | ⟨m, task', rfl, pushed, stalled, same⟩
  · exact q
  · exact q.update found pushed stalled same

theorem close (q : Quiet capacity s) (B : Bool) : Quiet capacity (SocketPairConnection.close s B) := by
  cases closed : s.internal.closed B
  · refine q.next (SocketPairConnection.buffer_close s B) ?_ ?_
      (fun _ _ _ member => .inl (SocketPairConnection.mem_close_wakers member))
    · intro k t at_k
      rw [SocketPairConnection.getElem?_close_tasks closed, Option.map_eq_some_iff] at at_k
      obtain ⟨t₀, found, rfl⟩ := at_k
      exact SocketPairTask.Stalled.ite_resume _ (q.stalled k t₀ found)
    · intro k t found
      exact ⟨_, by rw [SocketPairConnection.getElem?_close_tasks closed, found]; rfl,
        is_first_end_ite_resume _ _⟩
  · rwa [SocketPairConnection.close_of_closed closed]

/-- Every step keeps the invariant. -/
theorem step (q : Quiet capacity s) {event : SocketPairEvent} (stepped : s.step event = some s') :
    Quiet capacity s' := by
  cases event with
  | call is_first_end c =>
    obtain rfl := Option.some.inj stepped
    exact q.call is_first_end c
  | run tid =>
    simp only [SocketPairSystem.step] at stepped
    split at stepped
    · rename_i task found
      exact q.runTask found (Except.toOption_eq_some.mp stepped)
    · obtain rfl := Option.some.inj stepped
      exact q
  | close B =>
    obtain rfl := Option.some.inj stepped
    exact q.close B

/-- A call that waits on an end stays as it is through every step but the close of that end: the
other end's close pops only the queues where the other end's calls wait. -/
theorem waiter_stays (q : Quiet capacity s) {tid : ℕ} {task : SocketPairTask}
    (waiting : s.tasks[tid]? = some task) (pending : task.pc = .pending) {event : SocketPairEvent}
    (notClose : event ≠ .close task.is_first_end) (stepped : s.step event = some s') :
    s'.tasks[tid]? = some task := by
  cases event with
  | call A c =>
    obtain rfl := Option.some.inj stepped
    exact (List.getElem?_append_left (List.getElem?_eq_some_iff.mp waiting).1).trans waiting
  | run k =>
    simp only [SocketPairSystem.step] at stepped
    split at stepped
    · rename_i t found
      have ran := Except.toOption_eq_some.mp stepped
      by_cases same : k = tid
      · -- the waiting task itself has no step
        subst same
        obtain rfl := Option.some.inj (found.symm.trans waiting)
        rw [runTask_of_pending s k pending] at ran
        rw [← Except.ok.inj ran]
        exact waiting
      · rcases q.runTask_cases found ran with rfl | ⟨m, t', rfl, -⟩
        · exact waiting
        · exact (getElem?_setTask_of_ne same t').trans waiting
    · obtain rfl := Option.some.inj stepped
      exact waiting
  | close B =>
    obtain rfl := Option.some.inj stepped
    have other : B ≠ task.is_first_end := fun same => notClose (same ▸ rfl)
    cases closed : s.internal.closed B
    · -- the queues that `close B` empties hold calls of end `B` only
      have notQueued : ∀ first reading, waiterEnd first reading = B →
          tid ∉ (s.internal.endpoint first).wakers reading := by
        intro first reading owner queued
        obtain ⟨t, found, owned⟩ := q.queued first reading tid queued
        obtain rfl := Option.some.inj (waiting.symm.trans found)
        exact other (owned.trans owner).symm
      rw [SocketPairConnection.getElem?_close_tasks closed, waiting, if_neg]
      · rfl
      rintro (writer | reader)
      · exact notQueued B false (by simp [waiterEnd]) writer
      · exact notQueued (!B) true (by simp [waiterEnd]) reader
    · rwa [SocketPairConnection.close_of_closed closed]

theorem of_reachable {allowed : SocketPairSystem → SocketPairEvent → Prop}
    (reached : Reachable SocketPairSystem.step allowed (Chronix.make_socketpair capacity) s) :
    Quiet capacity s :=
  reached.invariant _ (make_socketpair capacity) fun _ _ _ q _ stepped => q.step stepped

end Quiet

/-! ## The pair over whole runs -/

open SocketPairSystem

variable {capacity : ℕ} {s s' : SocketPairSystem}

/-- Over every interleaving of calls and closes on the two ends, no byte is written to either ring
buffer, every `recv` that returns returns `Ok(0)`, and no `send` returns. -/
theorem socketpair_moves_no_byte
    (reached : Reachable SocketPairSystem.step (fun _ _ => True) (make_socketpair capacity) s) :
    (∀ first, (s.internal.endpoint first).buffer = .new capacity) ∧
    ∀ task ∈ s.tasks,
      (∀ buf ret, task.call = .recv buf → task.pc = .done ret → ret = .ok 0) ∧
      ∀ buf ret, task.call = .send buf → task.pc ≠ .done ret := by
  have q := Quiet.of_reachable reached
  refine ⟨q.buffer, fun task member => ?_⟩
  obtain ⟨k, found⟩ := List.mem_iff_getElem?.mp member
  have stalled := q.stalled k task found
  obtain ⟨A, call, pc⟩ := task
  refine ⟨?_, ?_⟩
  · rintro buf ret rfl rfl
    exact stalled
  · rintro buf ret rfl rfl
    exact stalled

/-- The first end sends while the second receives; the first end then closes, and its send polls
again. -/
def crossedCalls : List SocketPairEvent :=
  [.call true (.send [1, 2]), .call false (.recv [0, 0]), .run 0, .run 1, .close true, .run 0]

def crossedEnd : SocketPairSystem := ((make_socketpair 2).run crossedCalls).getD (make_socketpair 2)

theorem crossed_calls_move_no_byte :
    Reachable SocketPairSystem.step (fun _ _ => True) (make_socketpair 2) crossedEnd ∧
    (∀ first, (crossedEnd.internal.endpoint first).buffer = .new 2) ∧
    ∀ task ∈ crossedEnd.tasks,
      (∀ buf ret, task.call = .recv buf → task.pc = .done ret → ret = .ok 0) ∧
      ∀ buf ret, task.call = .send buf → task.pc ≠ .done ret :=
  have reached := Reachable.of_foldlM
    (show crossedCalls.foldlM SocketPairSystem.step (make_socketpair 2) = some crossedEnd from rfl)
  ⟨reached, socketpair_moves_no_byte reached⟩

/-- A send whose future is polled waits while the other end is open, although `poll` on its end
reports `OUT` then; once the other end has closed, its future is ready with `HUP` and its next step
panics on the assertion, although `poll` reports `ERR`, for which `send` has its `EPIPE` branch. -/
theorem send_waits_or_panics {tid : ℕ} {A : Bool} {buf : List UInt8}
    (reached : Reachable SocketPairSystem.step (fun _ _ => True) (make_socketpair capacity) s)
    (sending : s.tasks[tid]? = some ⟨A, .send buf, .poll⟩) (events : PollEvents) :
    ∃ s', s.step (.run tid) = some s' ∧
      (s.internal.closed (!A) = false →
        s'.tasks[tid]? = some ⟨A, .send buf, .pending⟩ ∧
        (SocketPairConnection.poll s.internal A events tid).1.contains .OUT) ∧
      (s.internal.closed (!A) = true →
        s'.step (.run tid) = none ∧
        (SocketPairConnection.poll s.internal A events tid).1.contains .ERR) := by
  have q := Quiet.of_reachable reached
  have reports := SocketPairConnection.poll_of_isEmpty s.internal A
    (by rw [q.buffer]; rfl) (by rw [q.buffer]; rfl) events tid
  have polled : s.step (.run tid) = some (s.afterPoll tid ⟨A, .send buf, .poll⟩
      (pollEndpoint s.internal A false (s.internal.closed !A) tid)) := by
    simp [SocketPairSystem.step, sending, runTask, SocketPairWriteFuture.poll, Except.toOption]
  rw [pollEndpoint_of_isEmpty (by rw [q.buffer]; rfl)] at polled
  cases closed : s.internal.closed !A
  · -- the other end is open: the send waits
    simp only [closed, Bool.false_eq_true, if_false] at polled reports
    refine ⟨_, polled, fun _ => ⟨getElem?_setTask_self sending _, ?_⟩, fun opened => ?_⟩
    · rw [reports]
      rfl
    · cases opened
  · -- the other end has closed: ready with `HUP`, and the assertion on `OUT` fails
    simp only [closed, if_true] at polled reports
    refine ⟨_, polled, fun opened => ?_, fun _ => ⟨?_, ?_⟩⟩
    · cases opened
    · simp only [SocketPairSystem.step, afterPoll, setInternal_internal, getElem?_setTask_self sending]
      rfl
    · rw [reports]
      rfl

/-- The second end closes, then the first end sends. -/
def sendAfterClose : List SocketPairEvent := [.close false, .call true (.send [7])]

def sendAfterCloseEnd : SocketPairSystem :=
  ((make_socketpair 2).run sendAfterClose).getD (make_socketpair 2)

theorem send_after_close_panics :
    Reachable SocketPairSystem.step (fun _ _ => True) (make_socketpair 2) sendAfterCloseEnd ∧
    sendAfterCloseEnd.tasks[0]? = some ⟨true, .send [7], .poll⟩ ∧
    sendAfterCloseEnd.internal.closed false = true ∧
    ∃ s', sendAfterCloseEnd.step (.run 0) = some s' ∧
      (sendAfterCloseEnd.internal.closed (!true) = false →
        s'.tasks[0]? = some ⟨true, .send [7], .pending⟩ ∧
        (SocketPairConnection.poll sendAfterCloseEnd.internal true .OUT 0).1.contains .OUT) ∧
      (sendAfterCloseEnd.internal.closed (!true) = true →
        s'.step (.run 0) = none ∧
        (SocketPairConnection.poll sendAfterCloseEnd.internal true .OUT 0).1.contains .ERR) :=
  have reached := Reachable.of_foldlM
    (show sendAfterClose.foldlM SocketPairSystem.step (make_socketpair 2) = some sendAfterCloseEnd
      from rfl)
  have sending : sendAfterCloseEnd.tasks[0]? = some ⟨true, .send [7], .poll⟩ := rfl
  ⟨reached, sending, rfl, send_waits_or_panics reached sending .OUT⟩

/-- A call that waits on an end (a `recv` or a `send` whose future returned `Pending`) stays
waiting through every run that does not close that same end, even one in which the other end
closes: the other end's close, which should deliver `HUP` or `ERR` to it, does not wake it. -/
theorem waiting_call_misses_peer_close {tid : ℕ} {task : SocketPairTask}
    (reached : Reachable SocketPairSystem.step (fun _ _ => True) (make_socketpair capacity) s)
    (waiting : s.tasks[tid]? = some task) (pending : task.pc = .pending)
    (later : Reachable SocketPairSystem.step (fun _ event => event ≠ .close task.is_first_end) s s') :
    s'.tasks[tid]? = some task := by
  have kept := later.invariant (fun s'' => Quiet capacity s'' ∧ s''.tasks[tid]? = some task)
    ⟨Quiet.of_reachable reached, waiting⟩
    fun _ _ _ ⟨q, waits⟩ notClose stepped => ⟨q.step stepped, q.waiter_stays waits pending notClose stepped⟩
  exact kept.2

/-- The first end's `recv` waits. -/
def recvWaits : List SocketPairEvent := [.call true (.recv [0]), .run 0]

def recvWaitsEnd : SocketPairSystem := ((make_socketpair 2).run recvWaits).getD (make_socketpair 2)

/-- Then the second end closes. -/
def recvPeerClosed : SocketPairSystem := (recvWaitsEnd.step (.close false)).getD recvWaitsEnd

theorem recv_misses_peer_close :
    Reachable SocketPairSystem.step (fun _ _ => True) (make_socketpair 2) recvWaitsEnd ∧
    recvWaitsEnd.tasks[0]? = some ⟨true, .recv [0], .pending⟩ ∧
    Reachable SocketPairSystem.step (fun _ event => event ≠ .close true) recvWaitsEnd recvPeerClosed ∧
    recvPeerClosed.internal.closed false = true ∧
    recvPeerClosed.tasks[0]? = some ⟨true, .recv [0], .pending⟩ :=
  have reached := Reachable.of_foldlM
    (show recvWaits.foldlM SocketPairSystem.step (make_socketpair 2) = some recvWaitsEnd from rfl)
  have waiting : recvWaitsEnd.tasks[0]? = some ⟨true, .recv [0], .pending⟩ := rfl
  have later : Reachable SocketPairSystem.step (fun _ event => event ≠ .close true) recvWaitsEnd
      recvPeerClosed := .step (.close false) .start (by decide) rfl
  ⟨reached, waiting, later, rfl, waiting_call_misses_peer_close reached waiting rfl later⟩

end Chronix
