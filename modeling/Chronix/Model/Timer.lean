import Mathlib
import Chronix.Model.TimeSyscalls

/-! # The timer manager and the real interval timer

`TIMER_MANAGER` (`timer/timer.rs`) keeps the kernel's timers in a `BinaryHeap` of
`Reverse<Timer>`, a min-heap by expiry: the order of `Timer` compares `expire` only. `check` runs
at every timer interrupt. It peeks at the earliest timer, and while that one is due at the
clock's reading, it pops it, runs its callback and pushes back the timer the callback returns.

`sys_setitimer` hands the manager a `RealITimer` for every arming with a nonzero value; it holds
the task and the id that `alloc_timer_id` gave the arming, which `itimers[which]` also records.
The callback reads `itimers[0]` of the task, whatever `which` armed it: when the id there is not
its own it does nothing; otherwise it sends `SIGALRM` to the process and, for a nonzero interval,
re-arms, with `next_expire` at the clock's reading plus the interval and the timer pushed back
with that expiry.

The model follows one task, alive throughout: its interval timers and the manager's timers are
those of `TimeState`, each timer by its expiry and its `RealITimer`'s id. The heap is the list of
its timers. `peek` is the first timer of least expiry, and `pop` removes that one; among timers
that expire together the heap may pop another, and no result below depends on which. A turn of
`check`'s loop reads the clock at the peek and, in a callback that re-arms, once more, so the
readings are a list of pairs; the loop is `none` when they run out. The `SIGALRM`s sent are
logged by the id of the timer that sent them.

The manager also holds the timers `Timer::new_waker_timer` makes for timeouts and those of the
network stack. Their callbacks wake a task or poll the interfaces and read no interval timer; the
model leaves them out.
-/

namespace Chronix

/-- `timers.peek()` on the min-heap: a timer of least expiry. -/
def peekTimer (timers : List (Duration × ℕ)) : Option (Duration × ℕ) :=
  timers.argmin fun timer => timer.1.nanos

/-- `RealITimer::callback` of the timer `id`, with the clock at `now`: the state after, whether
`SIGALRM` was sent, and the timer handed back. `Duration`'s `+` panics past its range. -/
def RealITimer.callback (s : TimeState) (id : ℕ) (now : Duration) :
    Option (TimeState × Bool × Option (Duration × ℕ)) :=
  if (s.itimers 0).id ≠ id then some (s, false, none)
  else if (s.itimers 0).interval = Duration.ZERO then some (s, true, none)
  else (now.add? (s.itimers 0).interval).map fun next_expire =>
    ({ s with itimers := Function.update s.itimers 0 { s.itimers 0 with next_expire } }, true,
      some (next_expire, id))

namespace TimerManager

/-- A turn of `check`'s loop on the due timer `timer`: `pop`, the callback with the clock at
`now`, and the push of the timer it hands back. The state after, and whether `SIGALRM` was sent. -/
def fire (s : TimeState) (timer : Duration × ℕ) (now : Duration) : Option (TimeState × Bool) :=
  (RealITimer.callback { s with timers := s.timers.erase timer } timer.2 now).map fun r =>
    ({ r.1 with timers := r.1.timers ++ r.2.2.toList }, r.2.1)

/-- `TimerManager::check`, one turn of its loop for each pair of readings: the state after, and
the ids of the timers that sent `SIGALRM`, in order. -/
def check (s : TimeState) : List (Duration × Duration) → Option (TimeState × List ℕ)
  | [] => none
  | reading :: readings =>
    match peekTimer s.timers with
    | none => some (s, [])
    | some timer =>
      if timer.1 ≤ reading.1 then
        (fire s timer reading.2).bind fun r =>
          (check r.1 readings).map fun c => (c.1, (if r.2 then [timer.2] else []) ++ c.2)
      else some (s, [])

end TimerManager

/-- The calls that reach the timers: `setitimer` by the task, and `check` at a timer interrupt. -/
inductive TimerCall
  | setitimer (which : ℕ) (new : Option ITimerVal) (old_ptr : ℕ) (oldWritable : Bool)
      (now : Duration)
  | check (readings : List (Duration × Duration))

/-- The task's times and the `SIGALRM`s sent to it, by the id of the timer that sent each. -/
structure TimerSystem where
  time : TimeState
  alarms : List ℕ

namespace TimerSystem

/-- A new task: `[ITimer::ZERO; 3]`, `CLOCK_DEVIATION` at zero, `TIMER_ID_ALLOCATOR` at `1` and
no timer in `TIMER_MANAGER`. -/
def init : TimerSystem :=
  ⟨⟨fun _ => Duration.ZERO, fun _ => ⟨Duration.ZERO, Duration.ZERO, 0⟩, 1, []⟩, []⟩

/-- One call; `none` where it panics. -/
def step (s : TimerSystem) : TimerCall → Option TimerSystem
  | .setitimer which new old_ptr oldWritable now =>
    (sys_setitimer s.time which new old_ptr oldWritable now).map fun r => { s with time := r.1 }
  | .check readings =>
    (TimerManager.check s.time readings).map fun r => ⟨r.1, s.alarms ++ r.2⟩

end TimerSystem

end Chronix
