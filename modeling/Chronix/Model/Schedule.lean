import Mathlib
import Chronix.Model.Addr

/-! # PELT load tracking

`processor/schedule.rs` tracks the load of a task as Linux's per-entity load tracking does: time
is cut into periods of 1024 µs, and `load_sum` adds up the time the task was runnable, each past
period decayed by `y`, with `y ^ 32 = 1 / 2`. `decay_load(val, n)` computes `val * y ^ n` in
32-bit fixed point: a shift by `n / 32`, then a product with `y ^ (n % 32)` from `DECLINE_TABLE`.
`update_task_load` decays the sum over the whole periods that `delta` completes and adds their
contributions (`_add_segment`); `period_contribute` keeps the part of the last period that is
not complete yet. `_update_load_avg` divides the sum by `LOAD_AVG_MAX - 1024 + period_contribute`.

The `u64` and `u32` arithmetic wraps as the release build's does (`usizeWrap` for a `u64`); the
`as u32` casts truncate. The table lookup is always in range, and the one division that can
panic, by a zero divider, returns `none`.
-/

namespace Chronix

/-- `value as u32`, and `u32` arithmetic of the release build. -/
def u32Wrap (value : ℕ) : ℕ := value % 2 ^ 32

/-- `u32` subtraction of the release build. -/
def u32Sub (a b : ℕ) : ℕ := u32Wrap (a + 2 ^ 32 - b)

/-- `DECLINE_TABLE`: `y ^ n * 2 ^ 32` for `n < 32`. -/
def DECLINE_TABLE : List ℕ :=
  [0xffffffff, 0xfa83b2da, 0xf5257d14, 0xefe4b99a, 0xeac0c6e6, 0xe5b906e6,
    0xe0ccdeeb, 0xdbfbb796, 0xd744fcc9, 0xd2a81d91, 0xce248c14, 0xc9b9bd85,
    0xc5672a10, 0xc12c4cc9, 0xbd08a39e, 0xb8fbaf46, 0xb504f333, 0xb123f581,
    0xad583ee9, 0xa9a15ab4, 0xa5fed6a9, 0xa2704302, 0x9ef5325f, 0x9b8d39b9,
    0x9837f050, 0x94f4efa8, 0x91c3d373, 0x8ea4398a, 0x8b95c1e3, 0x88980e80,
    0x85aac367, 0x82cd8698]

def LOAD_AVG_PERIOD : ℕ := 32

/-- The sum of the geometric series of the decay factor. -/
def LOAD_AVG_MAX : ℕ := 47742

def PELT_MIN_DIVIDER : ℕ := LOAD_AVG_MAX - 1024

/-- `decay_load(val, num)`: `val * y ^ num`, and zero past 63 half-lives. The index into the
table is below `LOAD_AVG_PERIOD`. -/
def decay_load (val num : ℕ) : ℕ :=
  if num > LOAD_AVG_PERIOD * 63 then 0
  else
    let inner_num := u32Wrap num
    let val := if inner_num ≥ LOAD_AVG_PERIOD then val >>> (inner_num / LOAD_AVG_PERIOD) else val
    let inner_num := if inner_num ≥ LOAD_AVG_PERIOD then inner_num % LOAD_AVG_PERIOD else inner_num
    usizeWrap ((val * DECLINE_TABLE.getD inner_num 0) >>> 32)

/-- `_add_segment(period_num, load1, load3)`: the decayed rest of the first period, the full
periods in between, and the started last one. -/
def addSegment (period_num load1 load3 : ℕ) : ℕ :=
  let c1 := decay_load load1 period_num
  let c2 := usizeSub (usizeSub LOAD_AVG_MAX (decay_load LOAD_AVG_MAX period_num)) 1024
  let c3 := load3
  u32Wrap (usizeWrap (usizeWrap (c1 + c2) + c3))

/-- `TaskLoadTracker`, with its `u64` and `u32` fields. -/
structure TaskLoadTracker where
  last_update_time : ℕ
  load_sum : ℕ
  period_contribute : ℕ
  load_avg : ℕ
deriving DecidableEq, Repr

namespace TaskLoadTracker

/-- `TaskLoadTracker::new`. -/
def new : TaskLoadTracker := ⟨0, 0, 0, 0⟩

/-- `get_pelt_divider`. -/
def getPeltDivider (t : TaskLoadTracker) : ℕ := u32Wrap (t.period_contribute + PELT_MIN_DIVIDER)

/-- `update_task_load(delta)`: the number of periods `delta` completes, as a `u32`, and the
tracker after. -/
def updateTaskLoad (t : TaskLoadTracker) (delta : ℕ) : ℕ × TaskLoadTracker :=
  let delta := usizeWrap (delta + t.period_contribute)
  let periods := delta / 1024
  if periods ≠ 0 then
    let load_sum := decay_load t.load_sum periods
    let delta := delta % 1024
    let contribute := addSegment periods (u32Sub 1024 t.period_contribute) (u32Wrap delta)
    (u32Wrap periods,
      { t with period_contribute := u32Wrap delta, load_sum := usizeWrap (load_sum + contribute) })
  else
    -- no period is complete: the contribute added is zero
    (u32Wrap periods, { t with period_contribute := u32Wrap delta })

/-- `update_load_sum(current)`: `1` when a period was completed, and the tracker after. The
difference of the timestamps wraps. -/
def updateLoadSum (t : TaskLoadTracker) (current : ℕ) : ℕ × TaskLoadTracker :=
  let delta_time := usizeSub current t.last_update_time
  if delta_time = 0 then (0, t)
  else
    let (periods, t) :=
      { t with last_update_time := usizeWrap (t.last_update_time + delta_time) }.updateTaskLoad delta_time
    (if periods = 0 then 0 else 1, t)

/-- `_update_load_avg`, which panics on a zero divider. -/
def updateLoadAvg (t : TaskLoadTracker) : Option TaskLoadTracker :=
  if t.getPeltDivider = 0 then none
  else some { t with load_avg := u32Wrap (t.load_sum / t.getPeltDivider) }

/-- `update_load_avg_se(now)`: `update_load_sum`, then `_update_load_avg` when a period was
completed. `Processor::update_load_avg` runs this on the current task and on the processor. -/
def updateLoadAvgSe (t : TaskLoadTracker) (now : ℕ) : Option (ℕ × TaskLoadTracker) :=
  if (t.updateLoadSum now).1 ≠ 0 then (t.updateLoadSum now).2.updateLoadAvg.map fun t => (1, t)
  else some (0, (t.updateLoadSum now).2)

/-- The tracker after `update_load_avg_se` at each timestamp of a run. -/
def run (t : TaskLoadTracker) : List ℕ → Option TaskLoadTracker
  | [] => some t
  | now :: nows => do
    let (_, t) ← t.updateLoadAvgSe now
    run t nows

end TaskLoadTracker

end Chronix
