import Mathlib
import Chronix.Model.Timer
import Chronix.ToMathlib.Reachable

/-! # What the timer manager delivers

Every arming of an interval timer gets a fresh id, below `TIMER_ID_ALLOCATOR`, and a callback
acts only for the id in `itimers[0]`. From these two facts, `TimerSystem.Inv` holds of every
state a run of `setitimer` calls and timer checks reaches: the manager holds at most one timer
of the current real arming, due at its `next_expire`, and a one-shot arming has sent at most one
`SIGALRM` and still holds a timer only when it has sent none.

`check` is proved one turn at a time: `TimerManager.check_induction` carries any property that a
turn keeps through the whole loop, and the turn (`fire`) is the callback's three cases
(`RealITimer.callback_cases`).
-/

namespace Chronix

/-! ## Counting the timers of one id -/

section Carrying

variable {α : Type} {l : List (α × ℕ)} {k : ℕ}

theorem countP_carrying_eq_zero (apart : ∀ timer ∈ l, timer.2 ≠ k) :
    l.countP (fun timer => timer.2 == k) = 0 := by
  rw [List.countP_eq_zero]
  intro timer mem carries
  exact apart timer mem (beq_iff_eq.mp carries)

variable [DecidableEq α]

theorem countP_carrying_erase_le (timer : α × ℕ) :
    (l.erase timer).countP (fun timer => timer.2 == k) ≤ l.countP (fun timer => timer.2 == k) :=
  (List.erase_sublist).countP_le

/-- Popping a timer of id `k` leaves one fewer of that id. -/
theorem countP_carrying_erase {timer : α × ℕ} (mem : timer ∈ l) :
    (l.erase timer).countP (fun t => t.2 == timer.2) + 1 = l.countP (fun t => t.2 == timer.2) := by
  have held : 0 < l.countP (fun t => t.2 == timer.2) :=
    List.countP_pos_iff.mpr ⟨timer, mem, by simp⟩
  rw [List.countP_erase]
  simp only [mem, beq_self_eq_true, and_self, if_true]
  omega

end Carrying

theorem peekTimer_mem {timers : List (Duration × ℕ)} {timer : Duration × ℕ}
    (peeked : peekTimer timers = some timer) : timer ∈ timers :=
  List.argmin_mem peeked

/-! ## The callback -/

namespace RealITimer

variable {s s' : TimeState} {id : ℕ} {now : Duration} {sent : Bool}
  {back : Option (Duration × ℕ)}

/-- What the callback can do: nothing for another id than `itimers[0]`'s; `SIGALRM` for that
one, which is re-armed, with its new expiry recorded in `itimers[0]`, when its interval is
nonzero. -/
theorem callback_cases (called : callback s id now = some (s', sent, back)) :
    (id ≠ (s.itimers 0).id ∧ s' = s ∧ sent = false ∧ back = none) ∨
    (id = (s.itimers 0).id ∧ (s.itimers 0).interval = Duration.ZERO ∧ s' = s ∧ sent = true ∧
      back = none) ∨
    (id = (s.itimers 0).id ∧ (s.itimers 0).interval ≠ Duration.ZERO ∧ ∃ next_expire,
      s' = { s with itimers := Function.update s.itimers 0 { s.itimers 0 with next_expire } } ∧
      sent = true ∧ back = some (next_expire, id)) := by
  unfold callback at called
  split_ifs at called with other zero
  · cases called
    exact .inl ⟨Ne.symm other, rfl, rfl, rfl⟩
  · cases called
    exact .inr (.inl ⟨(not_not.mp other).symm, zero, rfl, rfl, rfl⟩)
  · obtain ⟨next_expire, -, rearmed⟩ := Option.map_eq_some_iff.mp called
    cases rearmed
    exact .inr (.inr ⟨(not_not.mp other).symm, zero, next_expire, rfl, rfl, rfl⟩)

end RealITimer

namespace TimerManager

variable {s s' : TimeState} {timer : Duration × ℕ} {now : Duration} {sent : Bool}

theorem fire_eq_some (fired : fire s timer now = some (s', sent)) :
    ∃ r, RealITimer.callback { s with timers := s.timers.erase timer } timer.2 now = some r ∧
      s' = { r.1 with timers := r.1.timers ++ r.2.2.toList } ∧ sent = r.2.1 := by
  obtain ⟨r, called, same⟩ := Option.map_eq_some_iff.mp fired
  simp only [Prod.mk.injEq] at same
  exact ⟨r, called, same.1.symm, same.2.symm⟩

/-- A turn changes no id of the interval timers. -/
theorem fire_ids (fired : fire s timer now = some (s', sent)) (which : ℕ) :
    (s'.itimers which).id = (s.itimers which).id := by
  obtain ⟨⟨c, sent, back⟩, called, rfl, rfl⟩ := fire_eq_some fired
  rcases RealITimer.callback_cases called with
    ⟨-, rfl, -, -⟩ | ⟨-, -, rfl, -, -⟩ | ⟨-, -, next_expire, rfl, -, -⟩
  · rfl
  · rfl
  · rcases eq_or_ne which 0 with rfl | other
    · simp
    · simp [Function.update_of_ne other]

/-- A turn sends `SIGALRM` only for a timer of the real arming's id. -/
theorem fire_sent (fired : fire s timer now = some (s', sent)) (alarmed : sent = true) :
    timer.2 = (s.itimers 0).id := by
  obtain ⟨⟨c, sent, back⟩, called, rfl, rfl⟩ := fire_eq_some fired
  rcases RealITimer.callback_cases called with
    ⟨-, -, unsent, -⟩ | ⟨mine, -⟩ | ⟨mine, -⟩
  · simp [unsent] at alarmed
  · exact mine
  · exact mine

/-- The heap is empty, or its earliest timer is not due at `now`: where `check`'s loop stops. -/
def Stopped (s : TimeState) (now : Duration) : Prop :=
  peekTimer s.timers = none ∨ ∃ timer, peekTimer s.timers = some timer ∧ now.nanos < timer.1.nanos

/-- A turn of `check` where the loop stops: whatever readings come after, nothing changes. -/
theorem check_cons_of_stopped {reading : Duration × Duration} (stopped : Stopped s reading.1)
    (more : List (Duration × Duration)) : check s (reading :: more) = some (s, []) := by
  rcases stopped with empty | ⟨timer, peeked, notDue⟩
  · rw [check, empty]
  · have notLe : ¬ timer.1 ≤ reading.1 := by
      rw [Duration.le_iff]
      omega
    rw [check, peeked]
    exact if_neg notLe

/-- A turn of `check` on a due timer: it fires and the loop goes on with the next readings. -/
theorem check_cons_of_due {reading : Duration × Duration} {timer : Duration × ℕ}
    {r : TimeState × Bool} (peeked : peekTimer s.timers = some timer) (due : timer.1 ≤ reading.1)
    (fired : fire s timer reading.2 = some r) (more : List (Duration × Duration)) :
    check s (reading :: more) =
      (check r.1 more).map fun c => (c.1, (if r.2 then [timer.2] else []) ++ c.2) := by
  rw [check, peeked]
  exact (if_pos due).trans (by rw [fired, Option.bind_some])

/-- What a turn of `check`'s loop can do: stop, with the heap empty or its earliest timer not
due at the reading; or fire that timer, due at the reading, and go on with the next readings. -/
theorem check_cons_cases {reading : Duration × Duration} {readings : List (Duration × Duration)}
    {alarms : List ℕ} (checked : check s (reading :: readings) = some (s', alarms)) :
    (Stopped s reading.1 ∧ s' = s ∧ alarms = []) ∨
    ∃ timer r, peekTimer s.timers = some timer ∧ timer.1 ≤ reading.1 ∧
      fire s timer reading.2 = some r ∧ ∃ rest, check r.1 readings = some (s', rest) ∧
        alarms = (if r.2 then [timer.2] else []) ++ rest := by
  cases peeked : peekTimer s.timers with
  | none =>
    rw [check_cons_of_stopped (.inl peeked), Option.some.injEq, Prod.mk.injEq] at checked
    exact .inl ⟨.inl peeked, checked.1.symm, checked.2.symm⟩
  | some timer =>
    by_cases due : timer.1 ≤ reading.1
    · cases fired : fire s timer reading.2 with
      | none =>
        rw [check, peeked] at checked
        simp [due, fired] at checked
      | some r =>
        rw [check_cons_of_due peeked due fired] at checked
        obtain ⟨c, rest, same⟩ := Option.map_eq_some_iff.mp checked
        simp only [Prod.mk.injEq] at same
        obtain ⟨rfl, rfl⟩ := same
        exact .inr ⟨timer, r, rfl, due, fired, c.2, rest, rfl⟩
    · have stopped : Stopped s reading.1 :=
        .inr ⟨timer, peeked, by rw [Duration.le_iff] at due; omega⟩
      rw [check_cons_of_stopped stopped, Option.some.injEq, Prod.mk.injEq] at checked
      exact .inl ⟨stopped, checked.1.symm, checked.2.symm⟩

/-- The loop of `check` keeps every property that a turn on a timer of the heap keeps. -/
theorem check_induction (P : TimeState → List ℕ → Prop)
    (turn : ∀ s alarms timer now s' sent, P s alarms → timer ∈ s.timers →
      fire s timer now = some (s', sent) → P s' (alarms ++ if sent then [timer.2] else []))
    {readings : List (Duration × Duration)} {alarms sent : List ℕ}
    (checked : check s readings = some (s', sent)) (holds : P s alarms) :
    P s' (alarms ++ sent) := by
  -- the loop takes one pair of readings a turn
  induction readings generalizing s alarms sent with
  | nil => cases checked
  | cons reading readings ih =>
    rcases check_cons_cases checked with ⟨-, rfl, rfl⟩ |
      ⟨timer, r, peeked, -, fired, rest, looped, rfl⟩
    · simpa using holds
    · have after := ih looped (turn s alarms timer reading.2 r.1 r.2 holds (peekTimer_mem peeked) fired)
      rwa [List.append_assoc] at after

/-- Where the loop stops, every timer of the heap expires after the reading: the heap's `peek`
is a timer of least expiry. -/
theorem Stopped.lt_expire {now : Duration} (stopped : Stopped s now) :
    ∀ timer ∈ s.timers, now.nanos < timer.1.nanos := by
  intro timer held
  rcases stopped with empty | ⟨earliest, peeked, notDue⟩
  · rw [List.argmin_eq_none.mp empty] at held
    cases held
  · have least : earliest.1.nanos ≤ timer.1.nanos :=
      List.le_of_mem_argmin (f := fun timer : Duration × ℕ => timer.1.nanos) held peeked
    omega

/-- `check` returns only when no timer is due at the reading where its loop stopped: the loop
fires a timer at each reading of `taken`, needs exactly the readings up to `stop` (it runs out on
`taken` alone and returns the same on `taken ++ [stop]`), and every timer left in
`TIMER_MANAGER` expires after `stop`. The min-heap's `peek` is what makes one comparison at
`stop` enough. -/
theorem check_leaves_none_due {readings : List (Duration × Duration)} {alarms : List ℕ}
    (checked : check s readings = some (s', alarms)) :
    ∃ taken stop rest, readings = taken ++ stop :: rest ∧ check s taken = none ∧
      check s (taken ++ [stop]) = some (s', alarms) ∧
      ∀ timer ∈ s'.timers, stop.1.nanos < timer.1.nanos := by
  induction readings generalizing s alarms with
  | nil => cases checked
  | cons reading readings ih =>
    rcases check_cons_cases checked with ⟨stopped, rfl, rfl⟩ |
      ⟨timer, r, peeked, due, fired, rest, looped, rfl⟩
    · -- the loop stops at its first reading
      exact ⟨[], reading, readings, rfl, rfl, check_cons_of_stopped stopped [], stopped.lt_expire⟩
    · -- the loop fires `timer` at `reading` and stops further on
      obtain ⟨taken, stop, later, split, short, exact, after⟩ := ih looped
      refine ⟨reading :: taken, stop, later, by rw [split, List.cons_append], ?_, ?_, after⟩
      · rw [check_cons_of_due peeked due fired, short, Option.map_none]
      · rw [List.cons_append, check_cons_of_due peeked due fired, exact, Option.map_some]

/-- An arming of one second, every second, checked at two seconds twice: the first turn fires and
re-arms at three seconds, and the loop stops at the second reading. -/
theorem check_stops_before_rearmed_timer :
    ∃ armed after, sys_setitimer TimerSystem.init.time 0 (some ⟨⟨1, 0⟩, ⟨1, 0⟩⟩) 0 true
        Duration.ZERO = some armed ∧
      check armed.1 [(⟨2000000000, by decide⟩, ⟨2000000000, by decide⟩),
        (⟨2000000000, by decide⟩, ⟨2000000000, by decide⟩)] = some after ∧
      after.1.timers.map (fun timer => timer.1.nanos) = [3000000000] ∧
      ∃ taken stop rest, [((⟨2000000000, by decide⟩ : Duration), (⟨2000000000, by decide⟩ : Duration)),
          (⟨2000000000, by decide⟩, ⟨2000000000, by decide⟩)] = taken ++ stop :: rest ∧
        check armed.1 taken = none ∧ check armed.1 (taken ++ [stop]) = some after ∧
        ∀ timer ∈ after.1.timers, stop.1.nanos < timer.1.nanos := by
  have ran : (sys_setitimer TimerSystem.init.time 0 (some ⟨⟨1, 0⟩, ⟨1, 0⟩⟩) 0 true
      Duration.ZERO).bind (fun armed => (check armed.1 [(⟨2000000000, by decide⟩,
        ⟨2000000000, by decide⟩), (⟨2000000000, by decide⟩, ⟨2000000000, by decide⟩)]).map
        fun after => after.1.timers.map fun timer => timer.1.nanos) = some [3000000000] := by
    decide +kernel
  obtain ⟨armed, armedEq, rest⟩ := Option.bind_eq_some_iff.mp ran
  obtain ⟨after, checked, left⟩ := Option.map_eq_some_iff.mp rest
  exact ⟨armed, after, armedEq, checked, left, check_leaves_none_due checked⟩

end TimerManager

/-! ## `setitimer` -/

/-- What `setitimer` can do to the times: nothing, on its early errors; otherwise a fresh id
and a new arming of `itimers[which]`, whose timer goes to the manager when the value is nonzero.
A failed write of the old value comes after the arming. -/
theorem sys_setitimer_cases {s : TimeState} {which : ℕ} {new : Option ITimerVal} {old_ptr : ℕ}
    {oldWritable : Bool} {now : Duration} {r : TimeState × Option ITimerVal × Except SysError ℕ}
    (called : sys_setitimer s which new old_ptr oldWritable now = some r) :
    r.1 = s ∨ ∃ interval next_expire pushed, (pushed = [] ∨ pushed = [(next_expire, s.timer_id)]) ∧
      r.1 = { s with itimers := Function.update s.itimers which ⟨interval, next_expire, s.timer_id⟩
                     timer_id := s.timer_id + 1
                     timers := s.timers ++ pushed } := by
  unfold sys_setitimer at called
  by_cases tooHigh : which > 2
  · rw [if_pos tooHigh] at called
    cases called
    exact .inl rfl
  rw [if_neg tooHigh] at called
  rcases new with _ | new
  · cases called
    exact .inl rfl
  dsimp only at called
  by_cases invalid : (!new.isValid) = true
  · rw [if_pos invalid] at called
    cases called
    exact .inl rfl
  rw [if_neg invalid] at called
  obtain ⟨interval, -, called⟩ := Option.bind_eq_some_iff.mp called
  right
  by_cases zero : new.it_value.is_zero = true
  · simp only [zero, if_true, Option.pure_def, Option.bind_eq_bind, Option.bind_some] at called
    refine ⟨interval, Duration.ZERO, [], .inl rfl, ?_⟩
    split_ifs at called <;> cases called <;> simp
  · simp only [zero, Bool.false_eq_true, if_false, Option.pure_def, Option.bind_eq_bind] at called
    obtain ⟨value, -, called⟩ := Option.bind_eq_some_iff.mp called
    obtain ⟨next_expire, -, called⟩ := Option.bind_eq_some_iff.mp called
    refine ⟨interval, next_expire, [(next_expire, s.timer_id)], .inr rfl, ?_⟩
    split_ifs at called <;> cases called <;> rfl

namespace TimerSystem

/-- What holds of every state a run reaches. Ids come fresh from `TIMER_ID_ALLOCATOR`; the
manager holds at most one timer of the real arming's id, due at its `next_expire`; and a one-shot
real arming has sent `SIGALRM` and still holds a timer at most once between them. -/
structure Inv (s : TimerSystem) : Prop where
  timer_ids : ∀ timer ∈ s.time.timers, 0 < timer.2 ∧ timer.2 < s.time.timer_id
  itimer_ids : ∀ which, (s.time.itimers which).id < s.time.timer_id
  alarm_ids : ∀ id ∈ s.alarms, id < s.time.timer_id
  real_once : s.time.timers.countP (fun timer => timer.2 == (s.time.itimers 0).id) ≤ 1
  real_expiry : ∀ timer ∈ s.time.timers, timer.2 = (s.time.itimers 0).id →
    timer.1 = (s.time.itimers 0).next_expire
  one_shot : (s.time.itimers 0).interval = Duration.ZERO →
    s.alarms.count (s.time.itimers 0).id +
      s.time.timers.countP (fun timer => timer.2 == (s.time.itimers 0).id) ≤ 1

theorem inv_init : init.Inv where
  timer_ids := by simp [init]
  itimer_ids := by simp [init]
  alarm_ids := by simp [init]
  real_once := by simp [init]
  real_expiry := by simp [init]
  one_shot := by simp [init]

variable {s : TimeState} {alarms : List ℕ}

/-- Popping a timer keeps the invariant. -/
theorem Inv.pop (inv : Inv ⟨s, alarms⟩) (timer : Duration × ℕ) :
    Inv ⟨{ s with timers := s.timers.erase timer }, alarms⟩ where
  timer_ids t mem := inv.timer_ids t (List.mem_of_mem_erase mem)
  itimer_ids := inv.itimer_ids
  alarm_ids := inv.alarm_ids
  real_once := (countP_carrying_erase_le timer).trans inv.real_once
  real_expiry t mem := inv.real_expiry t (List.mem_of_mem_erase mem)
  one_shot zero := by
    have popped := countP_carrying_erase_le (l := s.timers) (k := (s.itimers 0).id) timer
    have := inv.one_shot zero
    dsimp only at popped this ⊢
    omega

/-- The real arming's timer, popped with `SIGALRM` sent and not re-armed. -/
theorem Inv.alarm (inv : Inv ⟨s, alarms⟩) {timer : Duration × ℕ} (mem : timer ∈ s.timers)
    (mine : timer.2 = (s.itimers 0).id) :
    Inv ⟨{ s with timers := s.timers.erase timer }, alarms ++ [timer.2]⟩ where
  timer_ids := (inv.pop timer).timer_ids
  itimer_ids := inv.itimer_ids
  alarm_ids id sent := by
    rcases List.mem_append.mp sent with old | now
    · exact inv.alarm_ids id old
    · rw [List.mem_singleton.mp now]
      exact (inv.timer_ids timer mem).2
  real_once := (inv.pop timer).real_once
  real_expiry := (inv.pop timer).real_expiry
  one_shot zero := by
    -- the alarm takes the place of the timer it pops
    have popped := countP_carrying_erase mem
    have := inv.one_shot zero
    dsimp only at this ⊢
    rw [List.count_append, ← mine, List.count_singleton_self]
    rw [← mine] at this
    omega

/-- The real arming's timer, popped with `SIGALRM` sent and pushed back at its new expiry. -/
theorem Inv.rearm (inv : Inv ⟨s, alarms⟩) {timer : Duration × ℕ} (mem : timer ∈ s.timers)
    (mine : timer.2 = (s.itimers 0).id) (nonzero : (s.itimers 0).interval ≠ Duration.ZERO)
    (next_expire : Duration) :
    Inv ⟨{ s with
        itimers := Function.update s.itimers 0 { s.itimers 0 with next_expire }
        timers := s.timers.erase timer ++ [(next_expire, timer.2)] }, alarms ++ [timer.2]⟩ := by
  have ids (which : ℕ) :
      (Function.update s.itimers 0 { s.itimers 0 with next_expire } which).id = (s.itimers which).id := by
    rcases eq_or_ne which 0 with rfl | other
    · rw [Function.update_self]
    · rw [Function.update_of_ne other]
  -- no other timer of the real arming is left once this one is popped
  have alone : (s.timers.erase timer).countP (fun t => t.2 == timer.2) = 0 := by
    have popped := countP_carrying_erase mem
    have := inv.real_once
    dsimp only at this
    rw [← mine] at this
    omega
  have pushed := (inv.alarm mem mine).alarm_ids
  refine ⟨?_, ?_, ?_, ?_, ?_, ?_⟩
  · intro t held
    rcases List.mem_append.mp held with old | new
    · exact (inv.pop timer).timer_ids t old
    · rw [List.mem_singleton.mp new]
      exact inv.timer_ids timer mem
  · intro which
    rw [ids]
    exact inv.itimer_ids which
  · exact pushed
  · dsimp only
    rw [ids, ← mine, List.countP_append, alone]
    simp
  · intro t held carries
    dsimp only at carries ⊢
    rw [ids, ← mine] at carries
    rcases List.mem_append.mp held with old | new
    · have : 0 < (s.timers.erase timer).countP (fun t => t.2 == timer.2) :=
        List.countP_pos_iff.mpr ⟨t, old, by simp [carries]⟩
      omega
    · rw [List.mem_singleton.mp new, Function.update_self]
  · intro zero
    dsimp only at zero
    rw [Function.update_self] at zero
    exact absurd zero nonzero

/-- A turn of `check` keeps the invariant. -/
theorem Inv.fire (inv : Inv ⟨s, alarms⟩) {timer : Duration × ℕ} (mem : timer ∈ s.timers)
    {now : Duration} {s' : TimeState} {sent : Bool}
    (fired : TimerManager.fire s timer now = some (s', sent)) :
    Inv ⟨s', alarms ++ if sent then [timer.2] else []⟩ := by
  obtain ⟨⟨c, sent, back⟩, called, rfl, rfl⟩ := TimerManager.fire_eq_some fired
  rcases RealITimer.callback_cases called with
    ⟨-, rfl, rfl, rfl⟩ | ⟨mine, -, rfl, rfl, rfl⟩ | ⟨mine, nonzero, next_expire, rfl, rfl, rfl⟩
  · simpa using inv.pop timer
  · simpa using inv.alarm mem mine
  · simpa using inv.rearm mem mine nonzero next_expire

/-- An arming by `setitimer`: a fresh id for `itimers[which]`, and its timer pushed when the value
is nonzero. -/
theorem Inv.arm (inv : Inv ⟨s, alarms⟩) (which : ℕ) (interval next_expire : Duration)
    {pushed : List (Duration × ℕ)} (shape : pushed = [] ∨ pushed = [(next_expire, s.timer_id)]) :
    Inv ⟨{ s with
        itimers := Function.update s.itimers which ⟨interval, next_expire, s.timer_id⟩
        timer_id := s.timer_id + 1
        timers := s.timers ++ pushed }, alarms⟩ := by
  have fresh : ∀ t ∈ pushed, t = (next_expire, s.timer_id) := by
    rcases shape with rfl | rfl <;> simp
  have few : pushed.length ≤ 1 := by
    rcases shape with rfl | rfl <;> simp
  have before (t) (held : t ∈ s.timers) : t.2 < s.timer_id := (inv.timer_ids t held).2
  -- the pushed timer carries the fresh id, which no earlier arming has
  have apart : ∀ t ∈ pushed, t.2 ≠ (s.itimers 0).id := fun t new => by
    rw [fresh t new]
    exact (inv.itimer_ids 0).ne'
  refine ⟨?_, ?_, ?_, ?_, ?_, ?_⟩ <;> dsimp only
  · intro t held
    rcases List.mem_append.mp held with old | new
    · exact ⟨(inv.timer_ids t old).1, Nat.lt_succ_of_lt (before t old)⟩
    · rw [fresh t new]
      exact ⟨Nat.zero_lt_of_lt (inv.itimer_ids 0), Nat.lt_succ_self _⟩
  · intro w
    rcases eq_or_ne w which with rfl | other
    · simp
    · rw [Function.update_of_ne other]
      exact Nat.lt_succ_of_lt (inv.itimer_ids w)
  · intro id sent
    exact Nat.lt_succ_of_lt (inv.alarm_ids id sent)
  all_goals rcases eq_or_ne which 0 with rfl | other
  · rw [Function.update_self, List.countP_append,
      countP_carrying_eq_zero fun t held => (before t held).ne]
    simpa using (List.countP_le_length (l := pushed)).trans few
  · rw [Function.update_of_ne (Ne.symm other), List.countP_append, countP_carrying_eq_zero apart]
    simpa using inv.real_once
  · intro t held carries
    rw [Function.update_self] at carries ⊢
    rcases List.mem_append.mp held with old | new
    · exact absurd carries (before t old).ne
    · rw [fresh t new]
  · intro t held carries
    rw [Function.update_of_ne (Ne.symm other)] at carries ⊢
    rcases List.mem_append.mp held with old | new
    · exact inv.real_expiry t old carries
    · exact absurd carries (apart t new)
  · rintro -
    rw [Function.update_self, List.countP_append,
      countP_carrying_eq_zero fun t held => (before t held).ne,
      List.count_eq_zero_of_not_mem fun sent => (inv.alarm_ids _ sent).ne rfl]
    simpa using (List.countP_le_length (l := pushed)).trans few
  · intro zero
    rw [Function.update_of_ne (Ne.symm other)] at zero ⊢
    rw [List.countP_append, countP_carrying_eq_zero apart]
    simpa using inv.one_shot zero

/-- Every call keeps the invariant. -/
theorem Inv.step {s s' : TimerSystem} (inv : s.Inv) {call : TimerCall}
    (stepped : s.step call = some s') : s'.Inv := by
  cases call with
  | setitimer which new old_ptr oldWritable now =>
    obtain ⟨r, called, rfl⟩ := Option.map_eq_some_iff.mp stepped
    rcases sys_setitimer_cases called with same | ⟨interval, next_expire, pushed, shape, armed⟩
    · have kept : { s with time := r.1 } = s := by rw [same]
      rwa [kept]
    · have := Inv.arm (s := s.time) inv which interval next_expire shape
      rwa [← armed] at this
  | check readings =>
    obtain ⟨r, checked, rfl⟩ := Option.map_eq_some_iff.mp stepped
    exact TimerManager.check_induction (fun s alarms => Inv ⟨s, alarms⟩)
      (fun _ _ _ _ _ _ holds mem fired => holds.fire mem fired) checked inv

theorem reachable_inv {allowed : TimerSystem → TimerCall → Prop} {s : TimerSystem}
    (reached : Reachable step allowed init s) : s.Inv :=
  reached.invariant Inv inv_init fun _ _ _ inv _ stepped => inv.step stepped

/-- On every run of `setitimer` calls and timer checks, `TIMER_MANAGER` holds at most one timer
of the current `ITIMER_REAL` arming, and that timer is due at the `next_expire` the arming
records: a re-arming by `setitimer` or by the callback never leaves a second one. -/
theorem timer_manager_holds_real_timer_once {s : TimerSystem}
    (reached : Reachable step (fun _ _ => True) init s) :
    s.time.timers.countP (fun timer => timer.2 == (s.time.itimers 0).id) ≤ 1 ∧
      ∀ timer ∈ s.time.timers, timer.2 = (s.time.itimers 0).id →
        timer.1 = (s.time.itimers 0).next_expire :=
  ⟨(reachable_inv reached).real_once, (reachable_inv reached).real_expiry⟩

theorem real_timer_rearmed_once :
    ∃ s, ([.setitimer 0 (some ⟨⟨1, 0⟩, ⟨1, 0⟩⟩) 0 true Duration.ZERO,
        .check [(⟨2000000000, by decide⟩, ⟨2000000000, by decide⟩),
          (⟨2000000000, by decide⟩, ⟨2000000000, by decide⟩)]] : List TimerCall).foldlM
        step init = some s ∧
      s.alarms = [1] ∧ s.time.timers.map (fun timer => (timer.1.nanos, timer.2)) = [(3000000000, 1)] ∧
      s.time.timers.countP (fun timer => timer.2 == (s.time.itimers 0).id) ≤ 1 ∧
      ∀ timer ∈ s.time.timers, timer.2 = (s.time.itimers 0).id →
        timer.1 = (s.time.itimers 0).next_expire := by
  have ran : (([.setitimer 0 (some ⟨⟨1, 0⟩, ⟨1, 0⟩⟩) 0 true Duration.ZERO,
      .check [(⟨2000000000, by decide⟩, ⟨2000000000, by decide⟩),
        (⟨2000000000, by decide⟩, ⟨2000000000, by decide⟩)]] : List TimerCall).foldlM
      step init).map (fun s => (s.alarms, s.time.timers.map fun t => (t.1.nanos, t.2))) =
      some ([1], [(3000000000, 1)]) := by decide +kernel
  obtain ⟨s, reached, summary⟩ := Option.map_eq_some_iff.mp ran
  simp only [Prod.mk.injEq] at summary
  exact ⟨s, reached, summary.1, summary.2,
    timer_manager_holds_real_timer_once (Reachable.of_foldlM reached)⟩

/-- A one-shot `ITIMER_REAL` arming sends `SIGALRM` at most once on every run, and not at all
while `TIMER_MANAGER` still holds its timer. -/
theorem one_shot_real_itimer_alarms_once {s : TimerSystem}
    (reached : Reachable step (fun _ _ => True) init s)
    (oneShot : (s.time.itimers 0).interval = Duration.ZERO) :
    s.alarms.count (s.time.itimers 0).id +
      s.time.timers.countP (fun timer => timer.2 == (s.time.itimers 0).id) ≤ 1 :=
  (reachable_inv reached).one_shot oneShot

theorem one_shot_alarm_after_two_checks :
    ∃ s, ([.setitimer 0 (some ⟨⟨0, 0⟩, ⟨1, 0⟩⟩) 0 true Duration.ZERO,
        .check [(⟨2000000000, by decide⟩, ⟨2000000000, by decide⟩),
          (⟨2000000000, by decide⟩, ⟨2000000000, by decide⟩)],
        .check [(⟨5000000000, by decide⟩, ⟨5000000000, by decide⟩)]] : List TimerCall).foldlM
        step init = some s ∧
      (s.time.itimers 0).interval = Duration.ZERO ∧ s.alarms = [1] ∧
      s.alarms.count (s.time.itimers 0).id +
        s.time.timers.countP (fun timer => timer.2 == (s.time.itimers 0).id) ≤ 1 := by
  have ran : (([.setitimer 0 (some ⟨⟨0, 0⟩, ⟨1, 0⟩⟩) 0 true Duration.ZERO,
      .check [(⟨2000000000, by decide⟩, ⟨2000000000, by decide⟩),
        (⟨2000000000, by decide⟩, ⟨2000000000, by decide⟩)],
      .check [(⟨5000000000, by decide⟩, ⟨5000000000, by decide⟩)]] : List TimerCall).foldlM
      step init).map (fun s => ((s.time.itimers 0).interval.nanos, s.alarms)) = some (0, [1]) := by
    decide +kernel
  obtain ⟨s, reached, summary⟩ := Option.map_eq_some_iff.mp ran
  simp only [Prod.mk.injEq] at summary
  have oneShot : (s.time.itimers 0).interval = Duration.ZERO := Duration.ext summary.1
  exact ⟨s, reached, oneShot, summary.2,
    one_shot_real_itimer_alarms_once (Reachable.of_foldlM reached) oneShot⟩

end TimerSystem

/-- Whether a call arms `ITIMER_REAL`. -/
def TimerCall.armsReal : TimerCall → Bool
  | .setitimer which .. => which == 0
  | .check _ => false

namespace TimerSystem

/-- A run that never arms `ITIMER_REAL` keeps the id of `itimers[0]` at `0`, which no timer
carries, so no callback sends anything. -/
theorem unarmed_step {s s' : TimerSystem}
    (unarmed : s.Inv ∧ (s.time.itimers 0).id = 0 ∧ s.alarms = []) {call : TimerCall}
    (notReal : call.armsReal = false) (stepped : s.step call = some s') :
    s'.Inv ∧ (s'.time.itimers 0).id = 0 ∧ s'.alarms = [] := by
  refine ⟨unarmed.1.step stepped, ?_⟩
  cases call with
  | setitimer which new old_ptr oldWritable now =>
    have other : which ≠ 0 := by simpa [TimerCall.armsReal] using notReal
    obtain ⟨r, called, rfl⟩ := Option.map_eq_some_iff.mp stepped
    rcases sys_setitimer_cases called with same | ⟨interval, next_expire, pushed, -, armed⟩
    · rw [same]
      exact unarmed.2
    · rw [armed]
      exact ⟨by simpa [Function.update_of_ne (Ne.symm other)] using unarmed.2.1, unarmed.2.2⟩
  | check readings =>
    obtain ⟨r, checked, rfl⟩ := Option.map_eq_some_iff.mp stepped
    have after := TimerManager.check_induction
      (fun s alarms => Inv ⟨s, alarms⟩ ∧ (s.itimers 0).id = 0 ∧ alarms = [])
      (fun s alarms timer now s' sent holds mem fired => by
        refine ⟨holds.1.fire mem fired, by rw [TimerManager.fire_ids fired, holds.2.1], ?_⟩
        cases sent
        · simpa using holds.2.2
        · -- a timer carries a positive id, never the `0` of `itimers[0]`
          have mine := TimerManager.fire_sent fired rfl
          have := (holds.1.timer_ids timer mem).1
          omega)
      checked unarmed
    exact after.2

/-- A task that arms only `ITIMER_VIRTUAL` and `ITIMER_PROF` never gets a signal from them:
their timers go to `TIMER_MANAGER`, but the callback compares its id with `itimers[0]`'s, so a
timer that fires sends nothing, on every run. -/
theorem virtual_and_prof_itimers_never_alarm {s : TimerSystem}
    (reached : Reachable step (fun _ call => call.armsReal = false) init s) : s.alarms = [] :=
  (reached.invariant (fun s => s.Inv ∧ (s.time.itimers 0).id = 0 ∧ s.alarms = [])
    ⟨inv_init, rfl, rfl⟩ fun _ _ _ unarmed notReal stepped =>
      unarmed_step unarmed notReal stepped).2.2

theorem virtual_itimer_fires_silently :
    ∃ s, Reachable step (fun _ call => call.armsReal = false) init s ∧
      s.time.timers = [] ∧ s.alarms = [] := by
  have ran : (init.step (.setitimer 1 (some ⟨⟨0, 0⟩, ⟨1, 0⟩⟩) 0 true Duration.ZERO)).bind
      (fun armed => (armed.step (.check [(⟨2000000000, by decide⟩, ⟨2000000000, by decide⟩),
        (⟨2000000000, by decide⟩, ⟨2000000000, by decide⟩)])).map
        fun s => s.time.timers.length) = some 0 := by
    decide +kernel
  obtain ⟨armed, armedStep, rest⟩ := Option.bind_eq_some_iff.mp ran
  obtain ⟨s, checkedStep, popped⟩ := Option.map_eq_some_iff.mp rest
  have reached : Reachable step (fun _ call => call.armsReal = false) init s :=
    .step _ (.step _ .start rfl armedStep) rfl checkedStep
  exact ⟨s, reached, List.length_eq_zero_iff.mp popped, virtual_and_prof_itimers_never_alarm reached⟩

end TimerSystem

end Chronix
