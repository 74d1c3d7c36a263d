import Mathlib
import Chronix.Model.Pipe
import Chronix.ToMathlib.Reachable

/-! # A reader that polls across the writer's `Drop` waits for ever

`PipeReadFuture::poll` reads `write_close` and pushes its waker in two critical sections of the
pipe's lock. When the last writing handle goes between the two, `Drop` sets `write_close` and
wakes the readers queued so far, and the reader then queues its waker behind the close. From
there no step of the system wakes it: only the tail of a writer's call and the writer's `Drop` pop
`read_waker`, and no writer is left to run either. `Stranded` is that situation, and every step
keeps it.

`fs/pipe.rs` is not compiled (`fs/mod.rs` declares no `pipe` module), so this is a race of that
file only; the kernel's pipes come from `fs/pipefs.rs`, whose poll checks the close flag and
pushes its waker in one critical section (`Chronix.Soundness.PipeFs`).
-/

namespace Chronix

namespace PipeSystem

variable {s s' : PipeSystem}

theorem getElem?_wake_tasks (s : PipeSystem) (w k : ℕ) :
    (s.wake w).tasks[k]? = s.tasks[k]?.map (if w = k then PipeTask.resume else id) := by
  rw [wake, List.getElem?_modify]
  split_ifs <;> rfl

theorem resume_of_ne_pending {task : PipeTask} (running : task.pc ≠ .pending) :
    task.resume = task := by
  rw [PipeTask.resume, if_neg running]

theorem operate_resume (task : PipeTask) : task.resume.operate = task.operate := by
  unfold PipeTask.resume
  split_ifs <;> rfl

/-- Reader `r` waits as `task` with its waker queued behind a closed write side, no writer is left
to pop it, and no waker handed out after the wakes `before` was `r`'s. -/
structure Stranded (r : ℕ) (task : PipeTask) (before : List ℕ) (s : PipeSystem) : Prop where
  waits : s.tasks[r]? = some task
  reads : task.operate = true
  pending : task.pc = .pending
  queued : r ∈ s.pipe.read_waker
  closed : s.pipe.write_close = true
  notWriterWaker : r ∉ s.pipe.write_waker
  noWriterFiles : s.writer_files = 0
  writersDone : ∀ (k : ℕ) (t : PipeTask), s.tasks[k]? = some t → t.operate = true ∨ t.pc = .done
  unwoken : ∃ later, s.woken = before ++ later ∧ r ∉ later

namespace Stranded

variable {r : ℕ} {task : PipeTask} {before : List ℕ}

/-- `Stranded` reads the pipe, the writing handles, the tasks and the wake log only. -/
theorem congr (stranded : Stranded r task before s) (pipe : s'.pipe = s.pipe)
    (files : s'.writer_files = s.writer_files) (tasks : s'.tasks = s.tasks)
    (woken : s'.woken = s.woken) : Stranded r task before s' where
  waits := tasks ▸ stranded.waits
  reads := stranded.reads
  pending := stranded.pending
  queued := pipe ▸ stranded.queued
  closed := pipe ▸ stranded.closed
  notWriterWaker := pipe ▸ stranded.notWriterWaker
  noWriterFiles := files ▸ stranded.noWriterFiles
  writersDone := tasks ▸ stranded.writersDone
  unwoken := woken ▸ stranded.unwoken

/-- A task other than `r` that can run. -/
theorem ne_of_running (stranded : Stranded r task before s) {k : ℕ} {t : PipeTask}
    (found : s.tasks[k]? = some t) (running : t.pc ≠ .pending) : k ≠ r := by
  rintro rfl
  rw [stranded.waits, Option.some.injEq] at found
  exact running (found ▸ stranded.pending)

theorem wake (stranded : Stranded r task before s) {w : ℕ} (other : w ≠ r) :
    Stranded r task before (s.wake w) where
  __ := stranded
  waits := by rw [getElem?_wake_tasks, if_neg other, stranded.waits]; rfl
  writersDone := by
    intro k t found
    rw [getElem?_wake_tasks, Option.map_eq_some_iff] at found
    obtain ⟨t, found, rfl⟩ := found
    obtain reading | finished := stranded.writersDone k t found
    · left
      split_ifs <;> simp [operate_resume, reading]
    · right
      split_ifs <;> simp [resume_of_ne_pending, finished]
  unwoken := by
    obtain ⟨later, woken, fresh⟩ := stranded.unwoken
    refine ⟨later ++ [w], ?_, ?_⟩
    · rw [PipeSystem.wake, woken, List.append_assoc]
    · simp [fresh, other.symm]

theorem foldl_wake (stranded : Stranded r task before s) {waiting : List ℕ} (absent : r ∉ waiting) :
    Stranded r task before (waiting.foldl PipeSystem.wake s) := by
  induction waiting generalizing s with
  | nil => exact stranded
  | cons w rest ih =>
    rw [List.mem_cons, not_or] at absent
    exact ih (stranded.wake (Ne.symm absent.1)) absent.2

theorem setTask (stranded : Stranded r task before s) {k : ℕ} {t : PipeTask} (other : k ≠ r)
    (reading : t.operate = true) : Stranded r task before (s.setTask k t) where
  __ := stranded
  waits := by rw [PipeSystem.setTask, List.getElem?_set_ne other]; exact stranded.waits
  writersDone := by
    intro j t' found
    rw [PipeSystem.setTask, List.getElem?_set] at found
    split_ifs at found
    · cases found
      exact .inl reading
    · exact stranded.writersDone j t' found

theorem setFiles_reader (stranded : Stranded r task before s) (n : ℕ) :
    Stranded r task before (s.setFiles true n) :=
  stranded.congr rfl rfl rfl rfl

/-- The reading `PipeFile`'s `Drop` wakes writers only. -/
theorem drop_reader (stranded : Stranded r task before s) :
    Stranded r task before (s.drop true) := by
  have cleared : Stranded r task before
      { s with pipe := (s.pipe.close true).setWakers false [] } :=
    { stranded with notWriterWaker := List.not_mem_nil }
  exact cleared.foldl_wake stranded.notWriterWaker

theorem release_reader (stranded : Stranded r task before s) :
    Stranded r task before (s.release true) := by
  unfold PipeSystem.release
  split_ifs
  · exact stranded.drop_reader
  · exact stranded

/-- The tail of a reader's call pops a writer's waker, never `r`'s. -/
theorem wakePeer_reader (stranded : Stranded r task before s) :
    Stranded r task before (s.wakePeer true) := by
  unfold PipeSystem.wakePeer
  split
  · exact stranded
  · rename_i w rest queue
    have absent := stranded.notWriterWaker
    simp only [Pipe.wakers, Bool.not_true, Bool.false_eq_true, ↓reduceIte] at queue
    rw [queue, List.mem_cons, not_or] at absent
    have popped : Stranded r task before { s with pipe := s.pipe.setWakers false rest } :=
      { stranded with notWriterWaker := absent.2 }
    exact popped.wake (Ne.symm absent.1)

/-- Another reader queues its waker behind `r`'s. -/
theorem pushReaderWaker (stranded : Stranded r task before s) (k : ℕ) :
    Stranded r task before { s with pipe := { s.pipe with read_waker := s.pipe.read_waker ++ [k] } } :=
  { stranded with queued := List.mem_append_left _ stranded.queued }

/-- A reader other than `r` polls: it may take the ring buffer's lock and push its own waker. -/
theorem pollFuture (stranded : Stranded r task before s) {k : ℕ} {t : PipeTask} (other : k ≠ r)
    (reading : t.operate = true) (polled : s.pollFuture k t = some s') :
    Stranded r task before s' := by
  obtain ⟨operate, user_buf, already_put, pc⟩ := t
  subst reading
  unfold PipeSystem.pollFuture at polled
  split at polled
  · unfold PipeSystem.pollTransfer at polled
    split_ifs at polled
    · cases polled
      exact stranded.setTask other rfl
    · simp only [Option.bind_eq_bind, Option.bind_eq_some_iff] at polled
      obtain ⟨⟨size, user_buf, ring_buffer⟩, -, polled⟩ := polled
      dsimp only at polled
      split_ifs at polled <;> cases polled <;>
        exact (stranded.setTask other (by rfl)).congr rfl rfl rfl rfl
  · cases polled
    unfold PipeSystem.pollCheckClosed
    split_ifs <;> exact (stranded.setTask other (by rfl)).congr rfl rfl rfl rfl
  · cases polled
    exact ((stranded.pushReaderWaker k).setTask other (by rfl)).congr rfl rfl rfl rfl
  · cases polled

/-- Another task runs: a writer has returned, so only a reader other than `r` can. -/
theorem runTask (stranded : Stranded r task before s) {k : ℕ} {t : PipeTask}
    (found : s.tasks[k]? = some t) (ran : s.runTask k t = some s') :
    Stranded r task before s' := by
  have idle := stranded.writersDone k t found
  obtain ⟨operate, user_buf, already_put, pc⟩ := t
  unfold PipeSystem.runTask at ran
  split at ran
  · rename_i tail
    cases ran
    subst tail
    have other := stranded.ne_of_running found (by simp)
    obtain reading | finished := idle
    · subst reading
      exact ((stranded.setTask other (by rfl)).wakePeer_reader).release_reader
    · cases finished
  · cases ran
  · cases ran
  · rename_i notTail notWaiting notDone
    have other := stranded.ne_of_running found notWaiting
    obtain reading | finished := idle
    · subst reading
      exact stranded.pollFuture other rfl ran
    · exact absurd finished notDone

/-- No step of the system wakes `r`. -/
theorem step (stranded : Stranded r task before s) {event : PipeEvent}
    (stepped : s.step event = some s') : Stranded r task before s' := by
  cases event with
  | call operate user_buf =>
    simp only [PipeSystem.step] at stepped
    split_ifs at stepped with files
    cases stepped
    cases operate
    · simp [PipeSystem.files, stranded.noWriterFiles] at files
    · have within : r < s.tasks.length := (List.getElem?_eq_some_iff.mp stranded.waits).1
      refine { stranded with waits := ?_, writersDone := ?_ }
      · rw [List.getElem?_append_left within]
        exact stranded.waits
      · intro k t found
        rw [List.getElem?_append] at found
        split_ifs at found
        · exact stranded.writersDone k t found
        · simp only [List.getElem?_singleton] at found
          split_ifs at found
          cases found
          exact .inl rfl
  | run tid =>
    simp only [PipeSystem.step, Option.bind_eq_bind, Option.bind_eq_some_iff] at stepped
    obtain ⟨t, found, ran⟩ := stepped
    exact stranded.runTask found ran
  | dup operate =>
    simp only [PipeSystem.step] at stepped
    split_ifs at stepped with files
    cases stepped
    cases operate
    · simp [PipeSystem.files, stranded.noWriterFiles] at files
    · exact stranded.setFiles_reader _
  | close operate =>
    simp only [PipeSystem.step] at stepped
    split_ifs at stepped with files
    cases stepped
    cases operate
    · simp [PipeSystem.files, stranded.noWriterFiles] at files
    · exact (stranded.setFiles_reader _).release_reader

/-- From a stranded reader, every reachable state keeps it stranded. -/
theorem reachable (stranded : Stranded r task before s)
    (reached : Reachable PipeSystem.step (fun _ _ => True) s s') : Stranded r task before s' :=
  reached.invariant (Stranded r task before) stranded fun _ _ _ inv _ stepped => inv.step stepped

end Stranded

/-- The interleaving: a reader polls the empty pipe and finds the write side open, the last
writing handle is closed, and the reader pushes its waker. -/
def closeRace : List PipeEvent := [.call true [0], .run 0, .run 0, .close false, .run 0]

/-- After `closeRace` on a pipe of any capacity, the reader waits with its waker queued behind the
closed write side, and no continuation of the run ever wakes it. -/
theorem pipe_closeRace_strands_reader (capacity : ℕ) :
    ∃ s task, (make_pipe capacity).run closeRace = some s ∧ task.pc = .pending ∧
      s.tasks[0]? = some task ∧ s.pipe.write_close = true ∧ 0 ∈ s.pipe.read_waker ∧
      ∀ events s', s.run events = some s' →
        s'.tasks[0]? = some task ∧ 0 ∈ s'.pipe.read_waker ∧ 0 ∉ s'.woken := by
  let reader : PipeTask := ⟨true, [0], 0, .pending⟩
  let raced : PipeSystem := ⟨⟨true, false, [0], []⟩, .new capacity, none, 1, 0, [reader], []⟩
  have onlyReader : ∀ (k : ℕ) (t : PipeTask), raced.tasks[k]? = some t → t.operate = true ∨ t.pc = .done := by
    intro k t found
    cases k with
    | zero =>
      cases found
      exact .inl rfl
    | succ k => simp [raced] at found
  have stranded : Stranded 0 reader [] raced :=
    ⟨rfl, rfl, rfl, List.mem_singleton_self 0, rfl, List.not_mem_nil, rfl, onlyReader,
      ⟨[], rfl, List.not_mem_nil⟩⟩
  refine ⟨raced, reader, rfl, rfl, rfl, rfl, stranded.queued, fun events s' ran => ?_⟩
  have later := stranded.reachable (Reachable.of_foldlM ran)
  obtain ⟨rest, woken, fresh⟩ := later.unwoken
  refine ⟨later.waits, later.queued, ?_⟩
  rw [woken, List.nil_append]
  exact fresh

end PipeSystem

end Chronix

