import Mathlib
import Chronix.Model.Schedule

/-! # PELT stays within its divider on forward runs

`decay_load` is a shift and a product with a factor below one, so it is at most its argument,
monotone and superadditive; at one period it takes `LOAD_AVG_MAX` to exactly
`LOAD_AVG_MAX - 1024`, and further periods only take it lower, so `_add_segment` never
underflows. From these, every call of `update_task_load` whose `delta + period_contribute`
fits a `u64` keeps `period_contribute < 1024` and `load_sum ≤ get_pelt_divider()`
(`Bounded.updateTaskLoad`), and over every run of non-decreasing timestamps `_update_load_avg`
never divides by zero and `load_avg ≤ 1` (`Bounded.run`). `period_contribute < 1024` and a
non-zero divider hold on every run (`run_some`).

A timestamp earlier than `last_update_time` by at most `period_contribute` makes
`delta + period_contribute` wrap to a value below `period_contribute`: no period completes,
`period_contribute` drops and `load_sum` stays, above the divider
(`updateLoadSum_backwards_exceeds_divider`).
-/

namespace Chronix

open TaskLoadTracker

/-! ## `decay_load` -/

theorem getD_DECLINE_TABLE_le (i : ℕ) : DECLINE_TABLE.getD i 0 ≤ 2 ^ 32 := by
  rw [List.getD_eq_getElem?_getD]
  cases entry : DECLINE_TABLE[i]? with
  | none => exact Nat.zero_le _
  | some factor =>
    have below : ∀ x ∈ DECLINE_TABLE, x ≤ 2 ^ 32 := by decide
    exact below factor (List.mem_of_getElem? entry)

/-- A product with a factor at most one in 32-bit fixed point is at most the value. -/
theorem mul_div_two_pow_le (val : ℕ) {factor : ℕ} (le : factor ≤ 2 ^ 32) :
    val * factor / 2 ^ 32 ≤ val :=
  calc val * factor / 2 ^ 32
      ≤ val * 2 ^ 32 / 2 ^ 32 := Nat.div_le_div_right (Nat.mul_le_mul_left _ le)
    _ = val := Nat.mul_div_cancel _ (Nat.two_pow_pos 32)

/-- Within 63 half-lives, `decay_load` halves `val` once per 32 periods and multiplies by the
table's factor for the rest. -/
theorem decay_load_eq {val num : ℕ} (valSmall : val < 2 ^ 64) (numSmall : num ≤ 2016) :
    decay_load val num = val / 2 ^ (num / 32) * DECLINE_TABLE.getD (num % 32) 0 / 2 ^ 32 := by
  have notPast : ¬ num > LOAD_AVG_PERIOD * 63 := by unfold LOAD_AVG_PERIOD; omega
  have asU32 : u32Wrap num = num := Nat.mod_eq_of_lt (by omega)
  have fits := mul_div_two_pow_le (val / 2 ^ (num / 32)) (getD_DECLINE_TABLE_le (num % 32))
  have halved : val / 2 ^ (num / 32) ≤ val := Nat.div_le_self _ _
  rw [decay_load, if_neg notPast]
  simp only [asU32, LOAD_AVG_PERIOD, Nat.shiftRight_eq_div_pow]
  split_ifs with periods
  · exact usizeWrap_of_lt (by omega)
  · rw [Nat.div_eq_of_lt (by omega : num < 32), Nat.mod_eq_of_lt (by omega : num < 32), pow_zero,
      Nat.div_one] at fits ⊢
    exact usizeWrap_of_lt (by omega)

theorem decay_load_of_gt {val num : ℕ} (past : 2016 < num) : decay_load val num = 0 :=
  if_pos (by unfold LOAD_AVG_PERIOD; omega)

theorem decay_load_le_div (val num : ℕ) (valSmall : val < 2 ^ 64) :
    decay_load val num ≤ val / 2 ^ (num / 32) := by
  rcases Nat.lt_or_ge 2016 num with past | within
  · rw [decay_load_of_gt past]
    exact Nat.zero_le _
  · rw [decay_load_eq valSmall within]
    exact mul_div_two_pow_le _ (getD_DECLINE_TABLE_le _)

theorem decay_load_le (val num : ℕ) (valSmall : val < 2 ^ 64) : decay_load val num ≤ val :=
  (decay_load_le_div val num valSmall).trans (Nat.div_le_self _ _)

theorem decay_load_mono {a b : ℕ} (num : ℕ) (le : a ≤ b) (bSmall : b < 2 ^ 64) :
    decay_load a num ≤ decay_load b num := by
  rcases Nat.lt_or_ge 2016 num with past | within
  · rw [decay_load_of_gt past, decay_load_of_gt past]
  · rw [decay_load_eq (by omega) within, decay_load_eq bSmall within]
    exact Nat.div_le_div_right (Nat.mul_le_mul_right _ (Nat.div_le_div_right le))

/-- The decay of a sum is at least the sum of the decays: both the shift and the fixed-point
product round down. -/
theorem decay_load_add_le {a b : ℕ} (num : ℕ) (small : a + b < 2 ^ 64) :
    decay_load a num + decay_load b num ≤ decay_load (a + b) num := by
  rcases Nat.lt_or_ge 2016 num with past | within
  · rw [decay_load_of_gt past, decay_load_of_gt past, decay_load_of_gt past]
  · rw [decay_load_eq (by omega) within, decay_load_eq (by omega) within, decay_load_eq small within]
    calc a / 2 ^ (num / 32) * DECLINE_TABLE.getD (num % 32) 0 / 2 ^ 32 +
          b / 2 ^ (num / 32) * DECLINE_TABLE.getD (num % 32) 0 / 2 ^ 32
        ≤ (a / 2 ^ (num / 32) + b / 2 ^ (num / 32)) * DECLINE_TABLE.getD (num % 32) 0 / 2 ^ 32 := by
          rw [Nat.add_mul]
          exact Nat.div_add_div_le_add_div
      _ ≤ (a + b) / 2 ^ (num / 32) * DECLINE_TABLE.getD (num % 32) 0 / 2 ^ 32 :=
          Nat.div_le_div_right (Nat.mul_le_mul_right _ Nat.div_add_div_le_add_div)

/-- One period or more takes `LOAD_AVG_MAX` down by at least `1024`, so the subtraction of
`_add_segment` does not underflow. One period gives exactly `LOAD_AVG_MAX - 1024`. -/
theorem decay_load_max_add_le {periods : ℕ} (positive : 1 ≤ periods) :
    decay_load LOAD_AVG_MAX periods + 1024 ≤ LOAD_AVG_MAX := by
  rcases Nat.lt_or_ge periods 32 with firstHalfLife | later
  · have table : ∀ p < 32, 1 ≤ p → decay_load LOAD_AVG_MAX p + 1024 ≤ LOAD_AVG_MAX := by decide
    exact table periods firstHalfLife positive
  · -- past one half-life the value is at most half of `LOAD_AVG_MAX`
    have halved := decay_load_le_div LOAD_AVG_MAX periods (by decide)
    have half : LOAD_AVG_MAX / 2 ^ (periods / 32) ≤ LOAD_AVG_MAX / 2 ^ 1 :=
      Nat.div_le_div_left (Nat.pow_le_pow_right (by omega) (by omega)) (by positivity)
    unfold LOAD_AVG_MAX at *
    omega

/-! ## `_add_segment` -/

/-- `_add_segment` with a first part of at most a period and a last part below a period: the
sum of its three terms, with no wrap. -/
theorem addSegment_eq {periods load1 load3 : ℕ} (positive : 1 ≤ periods) (load1Le : load1 ≤ 1024)
    (load3Lt : load3 < 1024) :
    addSegment periods load1 load3 =
      decay_load load1 periods + (LOAD_AVG_MAX - decay_load LOAD_AVG_MAX periods - 1024) + load3 := by
  have noUnderflow := decay_load_max_add_le positive
  have first := decay_load_le load1 periods (by omega)
  have fullPeriods : usizeSub (usizeSub LOAD_AVG_MAX (decay_load LOAD_AVG_MAX periods)) 1024 =
      LOAD_AVG_MAX - decay_load LOAD_AVG_MAX periods - 1024 := by
    unfold usizeSub usizeWrap LOAD_AVG_MAX at *
    omega
  have sum : usizeWrap (usizeWrap (decay_load load1 periods +
      (LOAD_AVG_MAX - decay_load LOAD_AVG_MAX periods - 1024)) + load3) =
      decay_load load1 periods + (LOAD_AVG_MAX - decay_load LOAD_AVG_MAX periods - 1024) + load3 := by
    unfold usizeWrap LOAD_AVG_MAX at *
    omega
  have small : decay_load load1 periods + (LOAD_AVG_MAX - decay_load LOAD_AVG_MAX periods - 1024) +
      load3 < 2 ^ 32 := by
    unfold LOAD_AVG_MAX at *
    omega
  simp only [addSegment]
  rw [fullPeriods, sum]
  exact Nat.mod_eq_of_lt small

/-! ## The bounds a tracker keeps -/

/-- What `_update_load_avg` relies on: the started period is below a period, the sum is at most
the divider, and the average is at most one. -/
structure TaskLoadTracker.Bounded (t : TaskLoadTracker) : Prop where
  contribute_lt : t.period_contribute < 1024
  load_sum_le : t.load_sum ≤ PELT_MIN_DIVIDER + t.period_contribute
  load_avg_le : t.load_avg ≤ 1

theorem bounded_new : TaskLoadTracker.new.Bounded := ⟨by decide, by decide, by decide⟩

theorem getPeltDivider_eq {t : TaskLoadTracker} (small : t.period_contribute < 1024) :
    t.getPeltDivider = PELT_MIN_DIVIDER + t.period_contribute := by
  unfold getPeltDivider u32Wrap PELT_MIN_DIVIDER LOAD_AVG_MAX
  omega

/-! ## One call of each function

`update_load_sum` and `update_load_avg_se` match on the result of a call whose arguments hold a
wrapping subtraction; their spec lemmas name that result, so that no proof reduces the match by
evaluating the call. -/

/-- `period_contribute` stays below a period on every call, whatever `delta` is. -/
theorem contribute_lt_updateTaskLoad {t : TaskLoadTracker} (delta : ℕ) :
    (t.updateTaskLoad delta).2.period_contribute < 1024 := by
  unfold updateTaskLoad u32Wrap
  dsimp only
  split_ifs with periods
  · exact lt_of_le_of_lt (Nat.mod_le _ _) (Nat.mod_lt _ (by omega))
  · have below : usizeWrap (delta + t.period_contribute) < 1024 := by omega
    exact lt_of_le_of_lt (Nat.mod_le _ _) below

/-- `update_task_load` changes `load_sum` and `period_contribute` only. -/
theorem updateTaskLoad_snd (t : TaskLoadTracker) (delta : ℕ) :
    ∃ load_sum period_contribute, (t.updateTaskLoad delta).2 =
      { t with load_sum := load_sum, period_contribute := period_contribute } := by
  unfold updateTaskLoad
  dsimp only
  split_ifs
  exacts [⟨_, _, rfl⟩, ⟨_, _, rfl⟩]

theorem last_update_time_updateTaskLoad (t : TaskLoadTracker) (delta : ℕ) :
    (t.updateTaskLoad delta).2.last_update_time = t.last_update_time := by
  obtain ⟨_, _, updated⟩ := updateTaskLoad_snd t delta
  rw [updated]

theorem load_avg_updateTaskLoad (t : TaskLoadTracker) (delta : ℕ) :
    (t.updateTaskLoad delta).2.load_avg = t.load_avg := by
  obtain ⟨_, _, updated⟩ := updateTaskLoad_snd t delta
  rw [updated]

/-- `update_task_load` when `delta` completes no period: only `period_contribute` moves. -/
theorem updateTaskLoad_of_lt {t : TaskLoadTracker} {delta : ℕ}
    (noPeriod : usizeWrap (delta + t.period_contribute) < 1024) :
    t.updateTaskLoad delta =
      (0, { t with period_contribute := usizeWrap (delta + t.period_contribute) }) := by
  have periods : usizeWrap (delta + t.period_contribute) / 1024 = 0 := Nat.div_eq_of_lt noPeriod
  have asU32 : u32Wrap (usizeWrap (delta + t.period_contribute)) =
      usizeWrap (delta + t.period_contribute) := Nat.mod_eq_of_lt (by omega)
  unfold updateTaskLoad
  dsimp only
  rw [periods, if_neg (not_not.mpr rfl), asU32]
  rfl

/-- `update_task_load` when `delta` completes a period: the sum decays over the periods and takes
in `_add_segment`, and `period_contribute` keeps the rest. -/
theorem updateTaskLoad_of_le {t : TaskLoadTracker} {delta : ℕ}
    (period : 1024 ≤ usizeWrap (delta + t.period_contribute)) :
    t.updateTaskLoad delta =
      (u32Wrap (usizeWrap (delta + t.period_contribute) / 1024),
        { t with
          period_contribute := u32Wrap (usizeWrap (delta + t.period_contribute) % 1024)
          load_sum := usizeWrap (decay_load t.load_sum (usizeWrap (delta + t.period_contribute) / 1024) +
            addSegment (usizeWrap (delta + t.period_contribute) / 1024) (u32Sub 1024 t.period_contribute)
              (u32Wrap (usizeWrap (delta + t.period_contribute) % 1024))) }) := by
  unfold updateTaskLoad
  dsimp only
  rw [if_pos (by omega)]

theorem load_sum_updateTaskLoad_of_le {t : TaskLoadTracker} {delta : ℕ}
    (period : 1024 ≤ usizeWrap (delta + t.period_contribute)) :
    (t.updateTaskLoad delta).2.load_sum =
      usizeWrap (decay_load t.load_sum (usizeWrap (delta + t.period_contribute) / 1024) +
        addSegment (usizeWrap (delta + t.period_contribute) / 1024) (u32Sub 1024 t.period_contribute)
          (u32Wrap (usizeWrap (delta + t.period_contribute) % 1024))) := by
  rw [updateTaskLoad_of_le period]

theorem period_contribute_updateTaskLoad_of_le {t : TaskLoadTracker} {delta : ℕ}
    (period : 1024 ≤ usizeWrap (delta + t.period_contribute)) :
    (t.updateTaskLoad delta).2.period_contribute =
      u32Wrap (usizeWrap (delta + t.period_contribute) % 1024) := by
  rw [updateTaskLoad_of_le period]

theorem updateLoadSum_of_eq_zero {t : TaskLoadTracker} {current : ℕ}
    (same : usizeSub current t.last_update_time = 0) : t.updateLoadSum current = (0, t) := by
  rewrite [updateLoadSum.eq_1, if_pos same]
  exact rfl

theorem updateLoadSum_fst_of_ne_zero {t : TaskLoadTracker} {current : ℕ}
    (moved : usizeSub current t.last_update_time ≠ 0) :
    (t.updateLoadSum current).1 =
      if ({ t with last_update_time := usizeWrap (t.last_update_time + usizeSub current t.last_update_time) }.updateTaskLoad
          (usizeSub current t.last_update_time)).1 = 0 then 0 else 1 := by
  rewrite [updateLoadSum.eq_1, if_neg moved]
  generalize TaskLoadTracker.updateTaskLoad _ _ = result
  obtain ⟨periods, t'⟩ := result
  exact rfl

theorem updateLoadSum_snd_of_ne_zero {t : TaskLoadTracker} {current : ℕ}
    (moved : usizeSub current t.last_update_time ≠ 0) :
    (t.updateLoadSum current).2 =
      ({ t with last_update_time := usizeWrap (t.last_update_time + usizeSub current t.last_update_time) }.updateTaskLoad
        (usizeSub current t.last_update_time)).2 := by
  rewrite [updateLoadSum.eq_1, if_neg moved]
  generalize TaskLoadTracker.updateTaskLoad _ _ = result
  obtain ⟨periods, t'⟩ := result
  exact rfl

theorem contribute_lt_updateLoadSum {t : TaskLoadTracker} (small : t.period_contribute < 1024)
    (current : ℕ) : (t.updateLoadSum current).2.period_contribute < 1024 := by
  by_cases moved : usizeSub current t.last_update_time = 0
  · rewrite [updateLoadSum_of_eq_zero moved]
    exact small
  · rewrite [updateLoadSum_snd_of_ne_zero moved]
    exact contribute_lt_updateTaskLoad _

theorem last_update_time_updateLoadSum {t : TaskLoadTracker} {current : ℕ}
    (later : t.last_update_time ≤ current) (small : current < 2 ^ 64) :
    (t.updateLoadSum current).2.last_update_time = current := by
  by_cases moved : usizeSub current t.last_update_time = 0
  · rewrite [updateLoadSum_of_eq_zero moved]
    show t.last_update_time = current
    unfold usizeSub usizeWrap at moved
    omega
  · rewrite [updateLoadSum_snd_of_ne_zero moved, last_update_time_updateTaskLoad]
    show usizeWrap (t.last_update_time + usizeSub current t.last_update_time) = current
    unfold usizeSub usizeWrap
    omega

/-- `_update_load_avg` on a started period below a period divides by the divider, which is not
zero. -/
theorem updateLoadAvg_eq {t : TaskLoadTracker} (small : t.period_contribute < 1024) :
    t.updateLoadAvg = some { t with load_avg := u32Wrap (t.load_sum / t.getPeltDivider) } := by
  have positive : t.getPeltDivider ≠ 0 := by
    rw [getPeltDivider_eq small]
    unfold PELT_MIN_DIVIDER LOAD_AVG_MAX
    omega
  exact if_neg positive

/-- Whatever the timestamp, `update_load_avg_se` on a started period below a period does not
panic, and keeps the started period below a period. -/
theorem updateLoadAvgSe_some {t : TaskLoadTracker} (small : t.period_contribute < 1024) (now : ℕ) :
    ∃ updated t', t.updateLoadAvgSe now = some (updated, t') ∧ t'.period_contribute < 1024 := by
  have after := contribute_lt_updateLoadSum small now
  rw [updateLoadAvgSe]
  -- the call is named, and only its result is taken apart
  generalize t.updateLoadSum now = result at after ⊢
  obtain ⟨updated, t'⟩ := result
  dsimp only at after ⊢
  split_ifs
  · rw [updateLoadAvg_eq after]
    exact ⟨1, _, rfl, after⟩
  · exact ⟨0, t', rfl, after⟩

/-- On every run, whatever the timestamps, `period_contribute` stays below a period and
`_update_load_avg` never divides by zero. -/
theorem run_some {t : TaskLoadTracker} (small : t.period_contribute < 1024) (nows : List ℕ) :
    ∃ t', t.run nows = some t' ∧ t'.period_contribute < 1024 := by
  induction nows generalizing t with
  | nil => exact ⟨t, rfl, small⟩
  | cons now nows ih =>
    obtain ⟨_, t', stepped, small'⟩ := updateLoadAvgSe_some small now
    obtain ⟨t'', ran, small''⟩ := ih small'
    exact ⟨t'', by rw [run, stepped]; exact ran, small''⟩

/-! ## The bounds over a run -/

theorem TaskLoadTracker.Bounded.with_last_update_time {t : TaskLoadTracker} (bounded : t.Bounded) (time : ℕ) :
    { t with last_update_time := time }.Bounded :=
  ⟨bounded.1, bounded.2, bounded.3⟩

/-- One call of `update_task_load` whose `delta + period_contribute` fits a `u64` keeps the
bounds. With a complete period the decayed sum, the decayed rest of the started period and the
full periods stay within the decay of `LOAD_AVG_MAX`. -/
theorem TaskLoadTracker.Bounded.updateTaskLoad {t : TaskLoadTracker} (bounded : t.Bounded) {delta : ℕ}
    (noWrap : delta + t.period_contribute < 2 ^ 64) : (t.updateTaskLoad delta).2.Bounded := by
  obtain ⟨small, sumLe, avgLe⟩ := bounded
  refine ⟨contribute_lt_updateTaskLoad delta, ?_, (load_avg_updateTaskLoad t delta).trans_le avgLe⟩
  rcases Nat.lt_or_ge (usizeWrap (delta + t.period_contribute)) 1024 with noPeriod | period
  · rw [updateTaskLoad_of_lt noPeriod]
    dsimp only
    rw [usizeWrap_of_lt noWrap]
    omega
  · rw [usizeWrap_of_lt noWrap] at period
    have positive : 1 ≤ (delta + t.period_contribute) / 1024 := by omega
    have rest : u32Sub 1024 t.period_contribute = 1024 - t.period_contribute := by
      unfold u32Sub u32Wrap
      omega
    have started : u32Wrap ((delta + t.period_contribute) % 1024) = (delta + t.period_contribute) % 1024 :=
      Nat.mod_eq_of_lt (by omega)
    rw [load_sum_updateTaskLoad_of_le, period_contribute_updateTaskLoad_of_le, usizeWrap_of_lt noWrap,
      rest, started, addSegment_eq positive (by omega) (Nat.mod_lt _ (by omega))]
    rotate_left
    · rwa [usizeWrap_of_lt noWrap]
    · rwa [usizeWrap_of_lt noWrap]
    -- the decayed sum and the decayed rest of the started period decay no more than `LOAD_AVG_MAX`
    have sumSmall : t.load_sum + (1024 - t.period_contribute) ≤ LOAD_AVG_MAX := by
      unfold PELT_MIN_DIVIDER at sumLe
      unfold LOAD_AVG_MAX at sumLe ⊢
      omega
    have together := decay_load_add_le (a := t.load_sum) (b := 1024 - t.period_contribute)
      ((delta + t.period_contribute) / 1024) (by unfold LOAD_AVG_MAX at sumSmall; omega)
    have atMost := decay_load_mono ((delta + t.period_contribute) / 1024) sumSmall (by decide)
    have noUnderflow := decay_load_max_add_le positive
    unfold PELT_MIN_DIVIDER LOAD_AVG_MAX at *
    rw [usizeWrap_of_lt (by omega)]
    omega

/-- `update_load_sum` at a timestamp that does not make `delta + period_contribute` wrap keeps
the bounds. -/
theorem TaskLoadTracker.Bounded.updateLoadSum {t : TaskLoadTracker} (bounded : t.Bounded) {current : ℕ}
    (noWrap : usizeSub current t.last_update_time + t.period_contribute < 2 ^ 64) :
    (t.updateLoadSum current).2.Bounded := by
  by_cases moved : usizeSub current t.last_update_time = 0
  · rewrite [updateLoadSum_of_eq_zero moved]
    exact bounded
  · rewrite [updateLoadSum_snd_of_ne_zero moved]
    exact (bounded.with_last_update_time _).updateTaskLoad noWrap

/-- `update_load_avg_se` keeps the bounds: a completed period recomputes the average, at most
one. -/
theorem TaskLoadTracker.Bounded.updateLoadAvgSe {t : TaskLoadTracker} (bounded : t.Bounded) {now : ℕ}
    (noWrap : usizeSub now t.last_update_time + t.period_contribute < 2 ^ 64) :
    ∃ updated t', t.updateLoadAvgSe now = some (updated, t') ∧ t'.Bounded ∧
      t'.last_update_time = (t.updateLoadSum now).2.last_update_time := by
  have after := bounded.updateLoadSum noWrap
  rw [TaskLoadTracker.updateLoadAvgSe]
  generalize t.updateLoadSum now = result at after ⊢
  obtain ⟨updated, t'⟩ := result
  dsimp only at after ⊢
  split_ifs
  · rw [updateLoadAvg_eq after.contribute_lt]
    refine ⟨1, _, rfl, ⟨after.contribute_lt, after.load_sum_le, ?_⟩, rfl⟩
    -- the sum is at most the divider
    have quotient : t'.load_sum / t'.getPeltDivider ≤ 1 := by
      rw [getPeltDivider_eq after.contribute_lt, Nat.div_le_iff_le_mul_add_pred (by
        unfold PELT_MIN_DIVIDER LOAD_AVG_MAX; omega)]
      have := after.load_sum_le
      omega
    exact (Nat.mod_le _ _).trans quotient
  · exact ⟨0, t', rfl, after, rfl⟩

/-- Over every run of non-decreasing timestamps that stay a period below `2 ^ 64`,
`update_load_avg_se` never panics, and the tracker keeps its bounds: `load_sum` at most the
divider and `load_avg` at most one. -/
theorem TaskLoadTracker.Bounded.run {t : TaskLoadTracker} (bounded : t.Bounded) {nows : List ℕ}
    (sorted : (t.last_update_time :: nows).Pairwise (· ≤ ·))
    (early : ∀ now ∈ nows, now + 1024 ≤ 2 ^ 64) :
    ∃ t', t.run nows = some t' ∧ t'.Bounded := by
  induction nows generalizing t with
  | nil => exact ⟨t, rfl, bounded⟩
  | cons now nows ih =>
    obtain ⟨later, rest⟩ := List.pairwise_cons.mp sorted
    have nowLe : t.last_update_time ≤ now := later now List.mem_cons_self
    have nowSmall : now + 1024 ≤ 2 ^ 64 := early now List.mem_cons_self
    have noWrap : usizeSub now t.last_update_time + t.period_contribute < 2 ^ 64 := by
      have := bounded.contribute_lt
      unfold usizeSub usizeWrap
      omega
    obtain ⟨_, t', stepped, bounded', moved⟩ := bounded.updateLoadAvgSe noWrap
    rw [last_update_time_updateLoadSum nowLe (by omega)] at moved
    obtain ⟨t'', ran, bounded''⟩ := ih bounded' (moved ▸ rest)
      fun later member => early later (List.mem_cons_of_mem _ member)
    exact ⟨t'', by rw [TaskLoadTracker.run, stepped]; exact ran, bounded''⟩

/-! ## A timestamp that goes back -/

/-- `update_load_sum` at a timestamp `k` earlier than the last, with `0 < k ≤ period_contribute`:
the difference wraps to `2 ^ 64 - k`, adding `period_contribute` wraps again to
`period_contribute - k`, and no period completes. `period_contribute` drops by `k` and
`load_sum` stays, so a tracker whose sum reached its divider ends above it. -/
theorem updateLoadSum_backwards_exceeds_divider (t : TaskLoadTracker) (k : ℕ)
    (small : t.period_contribute < 1024) (timeSmall : t.last_update_time < 2 ^ 64)
    (saturated : t.getPeltDivider ≤ t.load_sum) (positive : 0 < k) (within : k ≤ t.period_contribute) :
    (t.updateLoadSum (usizeSub t.last_update_time k)).1 = 0 ∧
      (t.updateLoadSum (usizeSub t.last_update_time k)).2.period_contribute = t.period_contribute - k ∧
      (t.updateLoadSum (usizeSub t.last_update_time k)).2.load_sum = t.load_sum ∧
      (t.updateLoadSum (usizeSub t.last_update_time k)).2.getPeltDivider <
        (t.updateLoadSum (usizeSub t.last_update_time k)).2.load_sum := by
  have difference : usizeSub (usizeSub t.last_update_time k) t.last_update_time = 2 ^ 64 - k := by
    unfold usizeSub usizeWrap
    omega
  have moved : usizeSub (usizeSub t.last_update_time k) t.last_update_time ≠ 0 := by
    rw [difference]
    omega
  have wrapped : usizeWrap (2 ^ 64 - k + t.period_contribute) = t.period_contribute - k := by
    unfold usizeWrap
    omega
  have noPeriod : usizeWrap (2 ^ 64 - k + t.period_contribute) < 1024 := by
    rw [wrapped]
    omega
  have divider := getPeltDivider_eq small
  rw [updateLoadSum_fst_of_ne_zero moved, updateLoadSum_snd_of_ne_zero moved, difference,
    updateTaskLoad_of_lt (t := { t with last_update_time := usizeWrap (t.last_update_time + (2 ^ 64 - k)) })
      noPeriod]
  dsimp only
  rw [wrapped]
  refine ⟨rfl, rfl, rfl, ?_⟩
  -- the divider drops with `period_contribute`, below the sum that reached the old one
  rw [getPeltDivider_eq] <;> dsimp only
  · unfold PELT_MIN_DIVIDER at divider ⊢
    omega
  · omega

/-- A new tracker at `3072500` µs has a sum equal to its divider, `46718 + 500`; at `3072400`
µs, `100` µs earlier, `period_contribute` drops to `400` and the sum exceeds the divider. -/
theorem updateLoadSum_backwards_after_saturation :
    (TaskLoadTracker.new.updateLoadSum 3072500).2 = ⟨3072500, 47218, 500, 0⟩ ∧
      (⟨3072500, 47218, 500, 0⟩ : TaskLoadTracker).period_contribute < 1024 ∧
      (⟨3072500, 47218, 500, 0⟩ : TaskLoadTracker).last_update_time < 2 ^ 64 ∧
      (⟨3072500, 47218, 500, 0⟩ : TaskLoadTracker).getPeltDivider ≤ 47218 ∧ 0 < 100 ∧ 100 ≤ 500 ∧
      usizeSub 3072500 100 = 3072400 ∧
      ((⟨3072500, 47218, 500, 0⟩ : TaskLoadTracker).updateLoadSum 3072400).2.getPeltDivider <
        ((⟨3072500, 47218, 500, 0⟩ : TaskLoadTracker).updateLoadSum 3072400).2.load_sum := by
  have broken := (updateLoadSum_backwards_exceeds_divider ⟨3072500, 47218, 500, 0⟩ 100
    (by decide) (by decide) (by decide) (by decide) (by decide)).2.2.2
  refine ⟨by decide, by decide, by decide, by decide, by decide, by decide, by decide, ?_⟩
  rwa [show usizeSub 3072500 100 = 3072400 by decide] at broken

end Chronix
