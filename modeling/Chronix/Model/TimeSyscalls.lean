import Mathlib
import Chronix.Model.Time
import Chronix.Model.SysError

/-! # The time system calls

`syscall/time.rs`: `nanosleep`, `clock_nanosleep`, `clock_settime`, `setitimer` and `adjtimex`,
and the deadline `suspend_timeout` and `TimedTaskFuture::new` (`timer/timed_task.rs`) compute,
`get_current_time_duration() + time_limit`. A panic of `core::time::Duration` (an overflow of
`Duration::new`, `+` or `-`) makes the call `none`; an error or a success is a `SysResult`.

A value the call reads from user memory is `none` when the pointer check fails. The clock is the
argument `now`; where a call reads it twice, both readings are `now`. `clock_settime` also reads
the clock in milliseconds (`now_ms`) and `adjtimex` in nanoseconds (`current_ns`). The two
sleeps are modelled up to their `await`: they return the deadline they sleep until.
-/

namespace Chronix

def CLOCK_REALTIME : ℕ := 0
def CLOCK_MONOTONIC : ℕ := 1
def CLOCK_PROCESS_CPUTIME_ID : ℕ := 2
def CLOCK_THREAD_CPUTIME_ID : ℕ := 3

/-- The deadline of `suspend_timeout(task, time_limit)` and of `TimedTaskFuture::new(time_limit,
_)`: `get_current_time_duration() + time_limit`. -/
def timeoutExpire (now time_limit : Duration) : Option Duration := now.add? time_limit

/-- How a sleep ends its first run: with a `SysResult`, or suspended until a deadline. -/
inductive SleepOutcome
  | returned (result : Except SysError ℕ)
  | sleeping (expire : Duration)
deriving DecidableEq

/-- `sys_nanosleep` up to its `await`. -/
def sys_nanosleep (time_ptr : ℕ) (time_val : Option TimeSpec) (now : Duration) : Option SleepOutcome :=
  if time_ptr = 0 then some (.returned (.ok 0))
  else
    match time_val with
    | none => some (.returned (.error .EFAULT))
    | some time_val =>
      if !time_val.isValid then some (.returned (.error .EINVAL))
      else do
        let sleep_time_duration ← time_val.into
        let expire ← timeoutExpire now sleep_time_duration
        pure (.sleeping expire)

/-- `sys_clock_nanosleep` up to its `await`: with `flags` 1 the time is a deadline, and a
deadline already past returns at once. -/
def sys_clock_nanosleep (clock_id flags : ℕ) (t : Option TimeSpec) (now : Duration) :
    Option SleepOutcome :=
  if clock_id = CLOCK_REALTIME ∨ clock_id = CLOCK_MONOTONIC then
    match t with
    | none => some (.returned (.error .EFAULT))
    | some t =>
      if !t.isValid then some (.returned (.error .EINVAL))
      else do
        let req_time ← t.into
        if flags = 1 then
          if req_time ≤ now then return .returned (.ok 0)
          let sleep_time ← req_time.sub? now
          let expire ← timeoutExpire now sleep_time
          pure (.sleeping expire)
        else
          let expire ← timeoutExpire now req_time
          pure (.sleeping expire)
  else some (.returned (.error .EOPNOTSUPP))

/-- `ITimer`. -/
structure ITimer where
  interval : Duration
  next_expire : Duration
  id : ℕ

/-- What the time system calls keep: `CLOCK_DEVIATION`, the calling task's interval timers, the
next id of `alloc_timer_id`, and the timers given to `TIMER_MANAGER`, by expiry and id. -/
structure TimeState where
  clock_deviation : ℕ → Duration
  itimers : ℕ → ITimer
  timer_id : ℕ
  timers : List (Duration × ℕ)

/-- `sys_clock_settime`: the value read is converted to a `Duration` before it is checked. -/
def sys_clock_settime (s : TimeState) (clock_id : ℕ) (tp : Option TimeSpec) (now : Duration)
    (now_ms : ℕ) : Option (TimeState × Except SysError ℕ) :=
  if clock_id = CLOCK_PROCESS_CPUTIME_ID ∨ clock_id = CLOCK_THREAD_CPUTIME_ID ∨
      clock_id = CLOCK_MONOTONIC then
    some (s, .error .EINVAL)
  else
    match tp with
    | none => some (s, .error .EFAULT)
    | some tp => do
      let duration ← tp.into
      if !tp.isValid then return (s, .error .EINVAL)
      if clock_id = CLOCK_REALTIME then
        if tp.into_ms < now_ms then return (s, .error .EINVAL)
        let deviation ← duration.sub? now
        return ({ s with clock_deviation := Function.update s.clock_deviation clock_id deviation }, .ok 0)
      else return (s, .error .EINVAL)

/-- `sys_setitimer`: the old value it writes to `old_ptr` (when `old_ptr` is not 0 and can be
written), the state after and the result. -/
def sys_setitimer (s : TimeState) (which : ℕ) (new : Option ITimerVal) (old_ptr : ℕ)
    (oldWritable : Bool) (now : Duration) : Option (TimeState × Option ITimerVal × Except SysError ℕ) :=
  if which > 2 then some (s, none, .error .EINVAL)
  else
    match new with
    | none => some (s, none, .error .EFAULT)
    | some new =>
      if !new.isValid then some (s, none, .error .EINVAL)
      else do
        let id := s.timer_id
        let itimer := s.itimers which
        let prev_timeval : ITimerVal :=
          ⟨.ofDuration itimer.interval, .ofDuration (itimer.next_expire.saturating_sub now)⟩
        let interval ← new.it_interval.into
        let next_expire ← if new.it_value.is_zero then some Duration.ZERO
          else do now.add? (← new.it_value.into)
        let timers := if new.it_value.is_zero then s.timers else s.timers ++ [(next_expire, id)]
        let s := { s with
          itimers := Function.update s.itimers which ⟨interval, next_expire, id⟩
          timer_id := id + 1
          timers := timers }
        if old_ptr ≠ 0 then
          if oldWritable then pure (s, some prev_timeval, .ok 0) else pure (s, none, .error .EFAULT)
        else pure (s, none, .ok 0)

/-- `KernTimex`, with the fields `adjtimex` reads; the others are carried through unread. -/
structure KernTimex where
  kt_modes : ℕ
  kt_time : TimeVal
  kt_tick : ℤ
deriving DecidableEq, Repr

def ADJ_OFFSET : ℕ := 0x0001
def ADJ_FREQUENCY : ℕ := 0x0002
def ADJ_MAXERROR : ℕ := 0x0004
def ADJ_ESTERROR : ℕ := 0x0008
def ADJ_STATUS : ℕ := 0x0010
def ADJ_TIMECONST : ℕ := 0x0020
def ADJ_TAI : ℕ := 0x0080
def ADJ_SETOFFSET : ℕ := 0x0100
def ADJ_MICRO : ℕ := 0x1000
def ADJ_NANO : ℕ := 0x2000
def ADJ_TICK : ℕ := 0x4000
def ADJ_OFFSET_SINGLESHOT : ℕ := 0x8001
def ADJ_OFFSET_SS_READ : ℕ := 0xa001

/-- `TimexModes::all()`. -/
def TIMEX_MODES_ALL : ℕ :=
  ADJ_OFFSET ||| ADJ_FREQUENCY ||| ADJ_MAXERROR ||| ADJ_ESTERROR ||| ADJ_STATUS ||| ADJ_TIMECONST |||
    ADJ_TAI ||| ADJ_SETOFFSET ||| ADJ_MICRO ||| ADJ_NANO ||| ADJ_TICK ||| ADJ_OFFSET_SINGLESHOT |||
    ADJ_OFFSET_SS_READ

/-- `TIMEX`'s initial value. -/
def TIMEX_INIT : KernTimex := ⟨0, TimeVal.ZERO, 10000⟩

/-- `add_offset`: the wall time is `wall_time()` at `current_ns`; the wall time as a `Duration`
is subtracted from the clock. -/
def add_offset (delta : TimeSpec) (current_ns : ℕ) (now : Duration) : Option (Except SysError ℕ) := do
  if !delta.isValid then return .error .EINVAL
  let wall_time := TimeSpec.wall_time current_ns
  let new_time : TimeSpec :=
    ⟨usizeWrap (wall_time.tv_sec + delta.tv_sec), usizeWrap (wall_time.tv_nsec + delta.tv_nsec)⟩
  let delta_dur ← delta.into
  let wall_time_dur ← wall_time.into
  let elapsed ← now.sub? wall_time_dur
  if elapsed < delta_dur || !new_time.isValid then return .error .EINVAL
  return .ok 0

/-- `do_adjtimex`. `TimexModes::from_bits` refuses a bit outside `all()`. -/
def do_adjtimex (timex : KernTimex) (current_ns : ℕ) (now : Duration) : Option (Except SysError ℕ) := do
  if timex.kt_modes = 0x80000 then return .error .EINVAL
  if timex.kt_modes ||| TIMEX_MODES_ALL ≠ TIMEX_MODES_ALL then return .error .EINVAL
  let modes := timex.kt_modes
  let ret ← if modes &&& ADJ_SETOFFSET = ADJ_SETOFFSET then
      let tv_nsec :=
        if modes &&& ADJ_NANO = ADJ_NANO then usizeWrap (timex.kt_time.usec * 1000)
        else timex.kt_time.usec
      add_offset ⟨timex.kt_time.sec, tv_nsec⟩ current_ns now
    else some (.ok 0)
  match ret with
  | .error e => return .error e
  | .ok ret =>
    if modes &&& ADJ_TICK = ADJ_TICK ∧ (timex.kt_tick < 9000 ∨ timex.kt_tick > 11000) then
      return .error .EINVAL
    return .ok ret

/-- `sys_adjtimex` on the `KernTimex` at the user's pointer (`none` when it cannot be read) and
`TIMEX`: `TIMEX` after, what the call writes back to the user, and the result. -/
def sys_adjtimex (TIMEX : KernTimex) (timex : Option KernTimex) (writable : Bool) (current_ns : ℕ)
    (now : Duration) : Option (KernTimex × Option KernTimex × Except SysError ℕ) :=
  match timex with
  | none => some (TIMEX, none, .error .EFAULT)
  | some r_timex =>
    if r_timex.kt_modes = 0x8000 then some (TIMEX, none, .error .EINVAL)
    else if !writable then some (TIMEX, none, .error .EFAULT)
    else if r_timex.kt_modes = 0 then some (TIMEX, some TIMEX, .ok 0)
    else do
      match ← do_adjtimex r_timex current_ns now with
      | .error e => pure (TIMEX, none, .error e)
      | .ok status =>
        let w_timex := { r_timex with kt_tick := 10000 }
        pure (w_timex, some w_timex, .ok status)

end Chronix
