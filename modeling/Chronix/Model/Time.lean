import Mathlib
import Chronix.Model.Addr
import Chronix.ToMathlib.Duration

/-! # Times of the system calls

`TimeSpec` and `TimeVal` (`os/src/timer/ffi.rs`) are the `struct timespec` and `struct timeval`
that system calls read from user memory, and `ITimerVal` (`timer/timer.rs`) the
`struct itimerval`. `TimeSpec.toDuration` is a duration as a number of nanoseconds, for the
system calls that only compare it; `TimeSpec.into` and `TimeVal.into` are the conversions to
`core::time::Duration`, which panic where `Duration::new` does. The `usize` arithmetic wraps.
-/

namespace Chronix

def MSEC_PER_SEC : ℕ := 1000
def USEC_PER_SEC : ℕ := 1000000
def NSEC_PER_SEC : ℕ := 1000000000

/-- `TimeSpec`, with its two `usize` fields. -/
structure TimeSpec where
  tv_sec : ℕ
  tv_nsec : ℕ
deriving DecidableEq, Repr

namespace TimeSpec

/-- `TimeSpec::is_valid`: both fields are non-negative as `isize`, and there are fewer
nanoseconds than a second. -/
def isValid (t : TimeSpec) : Bool :=
  decide (t.tv_sec < 2 ^ 63) && decide (t.tv_nsec < 2 ^ 63) && decide (t.tv_nsec < 1000000000)

/-- `Duration::new(tv_sec as u64, tv_nsec as u32)`, in nanoseconds. -/
def toDuration (t : TimeSpec) : ℕ := t.tv_sec * 1000000000 + t.tv_nsec % 2 ^ 32

/-- `TimeSpec::ZERO`. -/
def ZERO : TimeSpec := ⟨0, 0⟩

/-- `Into<Duration> for TimeSpec`: `Duration::new(tv_sec as u64, tv_nsec as u32)`. -/
def into (t : TimeSpec) : Option Duration := Duration.new t.tv_sec (t.tv_nsec % 2 ^ 32)

/-- `From<Duration> for TimeSpec`. -/
def ofDuration (d : Duration) : TimeSpec := ⟨d.as_secs, d.subsec_nanos⟩

/-- `TimeSpec::into_ms`. -/
def into_ms (t : TimeSpec) : ℕ :=
  usizeWrap (usizeWrap (t.tv_sec * MSEC_PER_SEC) + t.tv_nsec / (NSEC_PER_SEC / MSEC_PER_SEC))

/-- `TimeSpec::wall_time`, with `get_current_time_ns()` as `current`: a fixed base in seconds
plus the time since boot. -/
def wall_time (current : ℕ) : TimeSpec :=
  ⟨usizeWrap (1757088000 + current / NSEC_PER_SEC), current % NSEC_PER_SEC⟩

end TimeSpec

/-- `TimeVal`, with its two `usize` fields. -/
structure TimeVal where
  sec : ℕ
  usec : ℕ
deriving DecidableEq, Repr

namespace TimeVal

/-- `TimeVal::ZERO`. -/
def ZERO : TimeVal := ⟨0, 0⟩

/-- `TimeVal::is_valid`: the seconds are positive as an `isize`, the microseconds non-negative
and fewer than a second. -/
def isValid (t : TimeVal) : Bool :=
  decide (0 < t.sec ∧ t.sec < 2 ^ 63) && decide (t.usec < 2 ^ 63) && decide (t.usec < 1000000)

/-- `TimeVal::is_zero`. -/
def is_zero (t : TimeVal) : Bool := t.sec = 0 && t.usec = 0

/-- `Into<Duration> for TimeVal`: `Duration::new(sec as u64, (usec * MSEC_PER_SEC) as u32)`. -/
def into (t : TimeVal) : Option Duration :=
  Duration.new t.sec (usizeWrap (t.usec * MSEC_PER_SEC) % 2 ^ 32)

/-- `From<Duration> for TimeVal`. -/
def ofDuration (d : Duration) : TimeVal := ⟨d.as_secs, d.subsec_nanos / 1000⟩

end TimeVal

/-- `ITimerVal`. -/
structure ITimerVal where
  it_interval : TimeVal
  it_value : TimeVal
deriving DecidableEq, Repr

/-- `ITimerVal::is_valid`: only the microseconds are checked. -/
def ITimerVal.isValid (v : ITimerVal) : Bool :=
  decide (v.it_interval.usec < 1000000) && decide (v.it_value.usec < 1000000)

end Chronix
