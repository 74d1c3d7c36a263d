import Mathlib
import Chronix.ToMathlib.Duration

/-! # CPU-time accounting

`timer/recoder.rs` keeps, for each task, the user and the kernel time it has used and two
stamps: `user_start`, set when the task is forked and at every return to user mode, and
`kernel_start`, set when the executor switches the task in and at every trap. `record_trap`
charges `now - user_start` to `user_time`, `record_trap_return` charges `now - user_start` to
`kernel_time`, and `record_switch_out` charges `now - kernel_start` to `kernel_time`.
`trap_return` (`trap/mod.rs`) calls `record_trap_return` before the return to user mode and
`record_trap` after the trap back; `switch_to_current_task` and `switch_out_current_task`
(`processor/processor.rs`) call `record_switch_in` and `record_switch_out`, and `fork` calls
`update_user_start` on the new task's recorder. The clock `get_current_time_duration()` is the
argument `now` of each call. A `Duration` operation that panics makes the call `none`.

When `sys_waitpid` (`syscall/process.rs`) reaps a child `res_task`, it runs
`res_task.time_recorder().update_child_time(res_task.time_recorder().time_pair())`. The recorders
of all tasks are a map from their tid.
-/

namespace Chronix

/-- `TimeRecorder`. -/
structure TimeRecorder where
  user_time : Duration
  kernel_time : Duration
  kernel_start : Duration
  user_start : Duration
  child_user_time : Duration
  child_kernel_time : Duration
deriving DecidableEq

namespace TimeRecorder

/-- `TimeRecorder::new`. -/
def new : TimeRecorder := ⟨.ZERO, .ZERO, .ZERO, .ZERO, .ZERO, .ZERO⟩

/-- `time_pair`. -/
def time_pair (r : TimeRecorder) : Duration × Duration := (r.user_time, r.kernel_time)

/-- `child_time_pair`. -/
def child_time_pair (r : TimeRecorder) : Duration × Duration :=
  (r.child_user_time, r.child_kernel_time)

/-- `processor_time`. -/
def processor_time (r : TimeRecorder) : Option Duration := r.kernel_time.add? r.user_time

/-- `update_user_start`. -/
def update_user_start (r : TimeRecorder) (user_start : Duration) : TimeRecorder :=
  { r with user_start := user_start }

/-- `update_child_time`. -/
def update_child_time (r : TimeRecorder) (pair : Duration × Duration) : Option TimeRecorder := do
  let child_user_time ← r.child_user_time.add? pair.1
  let child_kernel_time ← r.child_kernel_time.add? pair.2
  pure { r with child_user_time := child_user_time, child_kernel_time := child_kernel_time }

/-- `record_switch_in`. -/
def record_switch_in (r : TimeRecorder) (current_time : Duration) : TimeRecorder :=
  { r with kernel_start := current_time }

/-- `record_switch_out`. -/
def record_switch_out (r : TimeRecorder) (current_time : Duration) : Option TimeRecorder := do
  let kernel_time_slice ← current_time.sub? r.kernel_start
  let kernel_time ← r.kernel_time.add? kernel_time_slice
  pure { r with kernel_time := kernel_time }

/-- `record_trap`: from user to kernel. -/
def record_trap (r : TimeRecorder) (current_time : Duration) : Option TimeRecorder := do
  let user_time ← r.user_time.add? (← current_time.sub? r.user_start)
  pure { r with kernel_start := current_time, user_time := user_time }

/-- `record_trap_return`: from kernel to user. -/
def record_trap_return (r : TimeRecorder) (current_time : Duration) : Option TimeRecorder := do
  let kernel_time ← r.kernel_time.add? (← current_time.sub? r.user_start)
  pure { r with kernel_time := kernel_time, user_start := current_time }

/-- The calls the kernel makes into a task's recorder. -/
inductive Hook
  | fork
  | switch_in
  | switch_out
  | trap
  | trap_return
deriving DecidableEq, Repr

/-- The recorder after one call, at clock `now`. -/
def record (r : TimeRecorder) : Hook → Duration → Option TimeRecorder
  | .fork, now => some (r.update_user_start now)
  | .switch_in, now => some (r.record_switch_in now)
  | .switch_out, now => r.record_switch_out now
  | .trap, now => r.record_trap now
  | .trap_return, now => r.record_trap_return now

/-- The recorder after a sequence of calls, each with its clock reading. -/
def replay (r : TimeRecorder) : List (Hook × Duration) → Option TimeRecorder
  | [] => some r
  | (hook, now) :: calls => do replay (← r.record hook now) calls

end TimeRecorder

/-- The time accounting of `sys_waitpid` when it reaps `res_task`, on the recorders of all tasks
by tid. -/
def waitpidChildTime (recorders : ℕ → TimeRecorder) (res_task : ℕ) : Option (ℕ → TimeRecorder) := do
  let r ← (recorders res_task).update_child_time (recorders res_task).time_pair
  pure (Function.update recorders res_task r)

end Chronix
