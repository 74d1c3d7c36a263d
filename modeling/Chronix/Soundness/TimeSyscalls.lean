import Mathlib
import Chronix.Model.TimeSyscalls

/-! # Which time arithmetic can panic

A `TimeSpec` that passed `TimeSpec::is_valid` has fewer than `2 ^ 63` seconds, so its `Duration`
exists and, added to a clock below `2 ^ 63` seconds, gives a deadline
(`timeoutExpire_of_isValid`): the sleeps (`sys_nanosleep_ne_none`,
`sys_clock_nanosleep_ne_none`) and the timeouts of `futex`, `ppoll`, `pselect6` and
`rt_sigtimedwait`, which all check `is_valid` first, never panic there.

Three paths do panic. `add_offset` subtracts the wall time, a fixed base of some 55 years plus
the time since boot, from the time since boot, so every `adjtimex` with `ADJ_SETOFFSET` and a
valid offset panics. `clock_settime` converts the `TimeSpec` to a `Duration` before it checks it,
and `Duration::new` overflows for the largest second counts. `setitimer` checks only the
microseconds of the new value, and adds its seconds to the clock.
-/

namespace Chronix

/-! ## The conversions -/

theorem TimeSpec.into_eq (t : TimeSpec) :
    t.into = Duration.ofNanos? (t.tv_sec * NANOS_PER_SEC + t.tv_nsec % 2 ^ 32) :=
  Duration.new_eq_ofNanos? _ _

theorem TimeVal.into_eq (t : TimeVal) :
    t.into = Duration.ofNanos? (t.sec * NANOS_PER_SEC + usizeWrap (t.usec * MSEC_PER_SEC) % 2 ^ 32) :=
  Duration.new_eq_ofNanos? _ _

/-- A valid `TimeSpec` is a `Duration` below `2 ^ 63` seconds. -/
theorem TimeSpec.into_of_isValid {t : TimeSpec} (valid : t.isValid = true) :
    ∃ d, t.into = some d ∧ d.nanos = t.tv_sec * NANOS_PER_SEC + t.tv_nsec ∧
      d.nanos < 2 ^ 63 * NANOS_PER_SEC := by
  simp only [TimeSpec.isValid, Bool.and_eq_true, decide_eq_true_eq] at valid
  obtain ⟨⟨secSmall, -⟩, nsecSmall⟩ := valid
  have kept : t.tv_nsec % 2 ^ 32 = t.tv_nsec := Nat.mod_eq_of_lt (by omega)
  obtain ⟨d, converted, count⟩ :=
    Duration.exists_ofNanos?_eq_some (n := t.tv_sec * NANOS_PER_SEC + t.tv_nsec) (by
      unfold Duration.LIMIT NANOS_PER_SEC
      omega)
  refine ⟨d, by rw [TimeSpec.into_eq, kept, converted], count, ?_⟩
  unfold NANOS_PER_SEC at *
  omega

/-- A `TimeVal` of a `usize` of seconds and fewer than a million microseconds is a `Duration`. -/
theorem TimeVal.into_of_lt {t : TimeVal} (secSmall : t.sec < 2 ^ 64) (usecSmall : t.usec < 1000000) :
    ∃ d, t.into = some d ∧ d.nanos = t.sec * NANOS_PER_SEC + t.usec * 1000 := by
  have kept : usizeWrap (t.usec * MSEC_PER_SEC) % 2 ^ 32 = t.usec * 1000 := by
    unfold usizeWrap MSEC_PER_SEC
    omega
  obtain ⟨d, converted, count⟩ :=
    Duration.exists_ofNanos?_eq_some (n := t.sec * NANOS_PER_SEC + t.usec * 1000) (by
      unfold Duration.LIMIT NANOS_PER_SEC
      omega)
  exact ⟨d, by rw [TimeVal.into_eq, kept, converted], count⟩

/-! ## Validated timeouts -/

/-- A clock and a time limit below `2 ^ 63` seconds each give a deadline. -/
theorem timeoutExpire_of_lt {now limit : Duration} (nowSmall : now.nanos < 2 ^ 63 * NANOS_PER_SEC)
    (limitSmall : limit.nanos < 2 ^ 63 * NANOS_PER_SEC) :
    ∃ expire, timeoutExpire now limit = some expire ∧ expire.nanos = now.nanos + limit.nanos :=
  Duration.exists_add?_eq_some (by unfold Duration.LIMIT; omega)

/-- Every timeout that passed `TimeSpec::is_valid` gives a deadline on a clock below `2 ^ 63`
seconds. -/
theorem timeoutExpire_of_isValid {t : TimeSpec} (valid : t.isValid = true) {now : Duration}
    (nowSmall : now.nanos < 2 ^ 63 * NANOS_PER_SEC) :
    ∃ d expire, t.into = some d ∧ timeoutExpire now d = some expire := by
  obtain ⟨d, converted, -, small⟩ := TimeSpec.into_of_isValid valid
  obtain ⟨expire, expired, -⟩ := timeoutExpire_of_lt nowSmall small
  exact ⟨d, expire, converted, expired⟩

/-- `sys_nanosleep` never panics on a clock below `2 ^ 63` seconds. -/
theorem sys_nanosleep_ne_none (time_ptr : ℕ) (time_val : Option TimeSpec) {now : Duration}
    (nowSmall : now.nanos < 2 ^ 63 * NANOS_PER_SEC) : sys_nanosleep time_ptr time_val now ≠ none := by
  unfold sys_nanosleep
  split_ifs with null
  · exact Option.some_ne_none _
  cases time_val with
  | none => exact Option.some_ne_none _
  | some time_val =>
    by_cases valid : time_val.isValid = true
    · obtain ⟨d, expire, converted, expired⟩ := timeoutExpire_of_isValid valid nowSmall
      simp only [valid, Bool.not_true, Bool.false_eq_true, if_false, converted, expired,
        Option.bind_eq_bind, Option.bind_some, Option.pure_def]
      exact Option.some_ne_none _
    · simp only [valid, Bool.not_false, if_true]
      exact Option.some_ne_none _

/-- `sys_clock_nanosleep` never panics on a clock below `2 ^ 63` seconds: a deadline in the
future is reached again by adding to the clock what is left of it. -/
theorem sys_clock_nanosleep_ne_none (clock_id flags : ℕ) (t : Option TimeSpec) {now : Duration}
    (nowSmall : now.nanos < 2 ^ 63 * NANOS_PER_SEC) :
    sys_clock_nanosleep clock_id flags t now ≠ none := by
  unfold sys_clock_nanosleep
  by_cases clock : clock_id = CLOCK_REALTIME ∨ clock_id = CLOCK_MONOTONIC
  swap
  · rw [if_neg clock]
    exact Option.some_ne_none _
  rw [if_pos clock]
  cases t with
  | none => exact Option.some_ne_none _
  | some t =>
    dsimp only
    by_cases valid : t.isValid = true
    swap
    · rw [if_pos (by simpa using valid)]
      exact Option.some_ne_none _
    obtain ⟨req_time, converted, -, reqSmall⟩ := TimeSpec.into_of_isValid valid
    rw [if_neg (by simpa using valid), converted, Option.bind_eq_bind, Option.bind_some]
    by_cases absolute : flags = 1
    swap
    · obtain ⟨expire, expired, -⟩ := timeoutExpire_of_lt nowSmall reqSmall
      rw [if_neg absolute, expired, Option.bind_some]
      exact Option.some_ne_none _
    rw [if_pos absolute]
    by_cases past : req_time ≤ now
    · rw [if_pos past]
      exact Option.some_ne_none _
    -- the time left until the deadline is shorter than the deadline, so it can be added back
    obtain ⟨sleep_time, slept, sleepNanos⟩ :=
      Duration.exists_sub?_eq_some (le_of_lt (not_le.mp past))
    obtain ⟨expire, expired, -⟩ := @timeoutExpire_of_lt now sleep_time nowSmall (by omega)
    rw [if_neg past, slept, Option.bind_some, expired, Option.bind_some]
    exact Option.some_ne_none _

/-! ## The panics -/

/-- The wall time of `TimeSpec::wall_time` is a `Duration` of the fixed base plus the clock. -/
theorem TimeSpec.into_wall_time {current_ns : ℕ} (currentSmall : current_ns < 2 ^ 64) :
    ∃ d, (TimeSpec.wall_time current_ns).into = some d ∧
      d.nanos = 1757088000 * NANOS_PER_SEC + current_ns := by
  -- neither the seconds nor the nanoseconds of the wall time wrap
  have count : usizeWrap (1757088000 + current_ns / NSEC_PER_SEC) * NANOS_PER_SEC +
      current_ns % NSEC_PER_SEC % 2 ^ 32 = 1757088000 * NANOS_PER_SEC + current_ns := by
    unfold usizeWrap NSEC_PER_SEC NANOS_PER_SEC
    omega
  obtain ⟨d, converted, nanos⟩ :=
    Duration.exists_ofNanos?_eq_some (n := 1757088000 * NANOS_PER_SEC + current_ns) (by
      unfold Duration.LIMIT NANOS_PER_SEC
      omega)
  refine ⟨d, ?_, nanos⟩
  rw [TimeSpec.into_eq, TimeSpec.wall_time]
  dsimp only
  rw [count, converted]

/-- `add_offset` panics for every valid offset: it subtracts the wall time from the clock, and
the wall time is the clock plus some 55 years. -/
theorem add_offset_eq_none {delta : TimeSpec} (valid : delta.isValid = true) {current_ns : ℕ}
    (currentSmall : current_ns < 2 ^ 64) {now : Duration}
    (behind : now.nanos < 1757088000 * NANOS_PER_SEC + current_ns) :
    add_offset delta current_ns now = none := by
  obtain ⟨delta_dur, deltaConverted, -⟩ := TimeSpec.into_of_isValid valid
  obtain ⟨wall_time_dur, wallConverted, wallNanos⟩ := TimeSpec.into_wall_time currentSmall
  have panics : now.sub? wall_time_dur = none := Duration.sub?_eq_none_iff.mpr (by omega)
  unfold add_offset
  rw [if_neg (by simpa using valid)]
  simp only [Option.bind_eq_bind]
  rw [deltaConverted, Option.bind_some, wallConverted, Option.bind_some, panics, Option.bind_none]

/-- The offset `do_adjtimex` builds from a `timeval` of valid microseconds is valid, whether
`ADJ_NANO` reads them as nanoseconds or scales them. -/
theorem adjtimex_delta_isValid {timex : KernTimex} (secValid : timex.kt_time.sec < 2 ^ 63)
    (usecValid : timex.kt_time.usec < 1000000) (nano : Bool) :
    (⟨timex.kt_time.sec, if nano then usizeWrap (timex.kt_time.usec * 1000) else timex.kt_time.usec⟩ :
      TimeSpec).isValid = true := by
  have scaled : usizeWrap (timex.kt_time.usec * 1000) = timex.kt_time.usec * 1000 := by
    unfold usizeWrap
    omega
  simp only [TimeSpec.isValid, Bool.and_eq_true, decide_eq_true_eq]
  cases nano <;> simp only [Bool.false_eq_true, if_false, if_true, scaled] <;> omega

/-- `do_adjtimex` with `ADJ_SETOFFSET` among supported modes and an offset of valid
microseconds panics in `add_offset`. -/
theorem do_adjtimex_eq_none {timex : KernTimex}
    (supported : timex.kt_modes ||| TIMEX_MODES_ALL = TIMEX_MODES_ALL)
    (setoffset : timex.kt_modes &&& ADJ_SETOFFSET = ADJ_SETOFFSET)
    (secValid : timex.kt_time.sec < 2 ^ 63) (usecValid : timex.kt_time.usec < 1000000)
    {current_ns : ℕ} (currentSmall : current_ns < 2 ^ 64) {now : Duration}
    (behind : now.nanos < 1757088000 * NANOS_PER_SEC + current_ns) :
    do_adjtimex timex current_ns now = none := by
  have notUnsupported : timex.kt_modes ≠ 0x80000 := by
    intro unsupported
    rw [unsupported] at supported
    exact absurd supported (by decide)
  have valid := adjtimex_delta_isValid secValid usecValid (decide (timex.kt_modes &&& ADJ_NANO = ADJ_NANO))
  simp only [decide_eq_true_eq] at valid
  unfold do_adjtimex
  rw [if_neg notUnsupported, if_neg (not_not.mpr supported)]
  simp only [Option.bind_eq_bind]
  rw [if_pos setoffset, add_offset_eq_none valid currentSmall behind, Option.bind_none]

/-- `sys_adjtimex` panics for every offset of valid microseconds it is asked to add with
`ADJ_SETOFFSET`. -/
theorem sys_adjtimex_eq_none (TIMEX : KernTimex) {timex : KernTimex}
    (supported : timex.kt_modes ||| TIMEX_MODES_ALL = TIMEX_MODES_ALL)
    (setoffset : timex.kt_modes &&& ADJ_SETOFFSET = ADJ_SETOFFSET)
    (secValid : timex.kt_time.sec < 2 ^ 63) (usecValid : timex.kt_time.usec < 1000000)
    {current_ns : ℕ} (currentSmall : current_ns < 2 ^ 64) {now : Duration}
    (behind : now.nanos < 1757088000 * NANOS_PER_SEC + current_ns) :
    sys_adjtimex TIMEX (some timex) true current_ns now = none := by
  -- the modes with the `ADJ_SETOFFSET` bit are neither 0 nor the refused `0x8000`
  have notRefused : timex.kt_modes ≠ 0x8000 := by
    intro refused
    rw [refused] at setoffset
    exact absurd setoffset (by decide)
  have notZero : timex.kt_modes ≠ 0 := by
    intro zero
    rw [zero] at setoffset
    exact absurd setoffset (by decide)
  unfold sys_adjtimex
  dsimp only
  rw [if_neg notRefused, if_neg (by decide), if_neg notZero]
  simp only [Option.bind_eq_bind]
  rw [do_adjtimex_eq_none supported setoffset secValid usecValid currentSmall behind, Option.bind_none]

/-- `sys_clock_settime` on a clock it does not refuse at once panics in `Duration::new` for a
`TimeSpec` whose seconds and nanoseconds overflow, before it checks the `TimeSpec`. -/
theorem sys_clock_settime_eq_none (s : TimeState) {clock_id : ℕ}
    (notRefused : ¬(clock_id = CLOCK_PROCESS_CPUTIME_ID ∨ clock_id = CLOCK_THREAD_CPUTIME_ID ∨
      clock_id = CLOCK_MONOTONIC))
    {tp : TimeSpec} (overflow : Duration.LIMIT ≤ tp.tv_sec * NANOS_PER_SEC + tp.tv_nsec % 2 ^ 32)
    (now : Duration) (now_ms : ℕ) : sys_clock_settime s clock_id (some tp) now now_ms = none := by
  have panics : tp.into = none := by
    rw [TimeSpec.into_eq, Duration.ofNanos?_eq_none_iff]
    exact overflow
  unfold sys_clock_settime
  rw [if_neg notRefused]
  dsimp only
  simp only [Option.bind_eq_bind]
  rw [panics, Option.bind_none]

/-- `sys_setitimer` panics when the seconds of the new value, which `ITimerVal::is_valid` does
not check, carry the deadline past the range of a `Duration`. -/
theorem sys_setitimer_eq_none (s : TimeState) {which : ℕ} (whichOk : which ≤ 2) {new : ITimerVal}
    (valid : new.isValid = true) (intervalSecs : new.it_interval.sec < 2 ^ 64)
    (valueSecs : new.it_value.sec < 2 ^ 64) (old_ptr : ℕ) (oldWritable : Bool) {now : Duration}
    (late : Duration.LIMIT ≤ now.nanos + (new.it_value.sec * NANOS_PER_SEC + new.it_value.usec * 1000)) :
    sys_setitimer s which (some new) old_ptr oldWritable now = none := by
  simp only [ITimerVal.isValid, Bool.and_eq_true, decide_eq_true_eq] at valid
  obtain ⟨intervalUsec, valueUsec⟩ := valid
  obtain ⟨interval, intervalConverted, -⟩ := TimeVal.into_of_lt intervalSecs intervalUsec
  obtain ⟨value, valueConverted, valueNanos⟩ := TimeVal.into_of_lt valueSecs valueUsec
  -- a zero value would leave the deadline at the clock, which is in range
  have notZero : new.it_value.is_zero = false := by
    have inRange := now.lt_limit
    simp only [TimeVal.is_zero, Bool.and_eq_false_iff, decide_eq_false_iff_not]
    by_contra both
    push Not at both
    rw [both.1, both.2] at late
    omega
  have panics : now.add? value = none := by
    rw [Duration.add?_eq_none_iff, valueNanos]
    exact late
  unfold sys_setitimer
  rw [if_neg (by omega)]
  dsimp only
  rw [if_neg (by simp only [ITimerVal.isValid, intervalUsec, valueUsec, decide_true, Bool.and_self,
    Bool.not_true, Bool.false_eq_true, not_false_eq_true])]
  simp only [Option.bind_eq_bind]
  rw [intervalConverted, Option.bind_some, notZero, if_neg Bool.false_ne_true, valueConverted,
    Option.bind_some, panics, Option.bind_none]

/-- Three system calls panic on values a user passes them: `adjtimex` with `ADJ_SETOFFSET` and
every valid offset, `clock_settime` with a `TimeSpec` too large for a `Duration`, and
`setitimer` with seconds that carry the deadline out of range. -/
theorem time_syscalls_panic_on_user_values :
    (∀ (TIMEX timex : KernTimex) (current_ns : ℕ) (now : Duration),
      timex.kt_modes ||| TIMEX_MODES_ALL = TIMEX_MODES_ALL →
      timex.kt_modes &&& ADJ_SETOFFSET = ADJ_SETOFFSET →
      timex.kt_time.sec < 2 ^ 63 → timex.kt_time.usec < 1000000 → current_ns < 2 ^ 64 →
      now.nanos < 1757088000 * NANOS_PER_SEC + current_ns →
      sys_adjtimex TIMEX (some timex) true current_ns now = none) ∧
    (∀ (s : TimeState) (clock_id : ℕ) (tp : TimeSpec) (now : Duration) (now_ms : ℕ),
      ¬(clock_id = CLOCK_PROCESS_CPUTIME_ID ∨ clock_id = CLOCK_THREAD_CPUTIME_ID ∨
        clock_id = CLOCK_MONOTONIC) →
      Duration.LIMIT ≤ tp.tv_sec * NANOS_PER_SEC + tp.tv_nsec % 2 ^ 32 →
      sys_clock_settime s clock_id (some tp) now now_ms = none) ∧
    (∀ (s : TimeState) (which : ℕ) (new : ITimerVal) (old_ptr : ℕ) (oldWritable : Bool)
      (now : Duration), which ≤ 2 → new.isValid = true → new.it_interval.sec < 2 ^ 64 →
      new.it_value.sec < 2 ^ 64 →
      Duration.LIMIT ≤ now.nanos + (new.it_value.sec * NANOS_PER_SEC + new.it_value.usec * 1000) →
      sys_setitimer s which (some new) old_ptr oldWritable now = none) := by
  refine ⟨?adjtimex, ?settime, ?setitimer⟩
  case adjtimex =>
    intro TIMEX timex current_ns now supported setoffset secValid usecValid currentSmall behind
    exact sys_adjtimex_eq_none TIMEX supported setoffset secValid usecValid currentSmall behind
  case settime =>
    intro s clock_id tp now now_ms notRefused overflow
    exact sys_clock_settime_eq_none s notRefused overflow now now_ms
  case setitimer =>
    intro s which new old_ptr oldWritable now whichOk valid intervalSecs valueSecs late
    exact sys_setitimer_eq_none s whichOk valid intervalSecs valueSecs old_ptr oldWritable late

/-- At boot: an `adjtimex` that adds one second, a `clock_settime` to the last second a
`Duration` can hold plus one second of nanoseconds, and a `setitimer` of `2 ^ 64 - 1` seconds
one second after boot all panic. -/
theorem time_syscalls_panic_at_boot :
    sys_adjtimex TIMEX_INIT (some ⟨ADJ_SETOFFSET, ⟨1, 0⟩, 10000⟩) true 0 Duration.ZERO = none ∧
    sys_clock_settime ⟨fun _ => .ZERO, fun _ => ⟨.ZERO, .ZERO, 0⟩, 0, []⟩ CLOCK_REALTIME
      (some ⟨2 ^ 64 - 1, 1000000000⟩) Duration.ZERO 0 = none ∧
    sys_setitimer ⟨fun _ => .ZERO, fun _ => ⟨.ZERO, .ZERO, 0⟩, 0, []⟩ 0
      (some ⟨TimeVal.ZERO, ⟨2 ^ 64 - 1, 0⟩⟩) 0 false ⟨NANOS_PER_SEC, by decide⟩ = none :=
  ⟨time_syscalls_panic_on_user_values.1 _ _ _ _ (by decide) (by decide) (by decide) (by decide)
      (by decide) (by decide),
    time_syscalls_panic_on_user_values.2.1 _ _ _ _ _ (by decide) (by decide),
    time_syscalls_panic_on_user_values.2.2 _ _ _ _ _ _ (by decide) (by decide) (by decide)
      (by decide) (by decide)⟩

end Chronix
