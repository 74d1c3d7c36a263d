import Mathlib
import Chronix.Model.TimeRecorder

/-! # CPU time against the time on a CPU

What the accounting is for (`CpuAccount`): a task is off every CPU, in the kernel or in user
mode, each since some time, and a stay on a CPU is added to the user or the kernel time when it
ends. The two times then never exceed the time elapsed (`CpuAccount.run_le_elapsed`).

The recorder follows the account's user time on every run the account accepts, as long as no
`Duration` overflows (`Tracks.replay`): `record_trap` charges the stay since the last return to
user mode. Its kernel time does not follow: `record_trap_return` charges `now - user_start`, the
whole time since the last return to user mode or the fork, and so charges again the user stay
before the last trap and the time off the CPU before the switch-in. `sys_waitpid` adds the
reaped child's times to the child's own recorder and leaves every other recorder as it was, the
caller's included.
-/

namespace Chronix

open TimeRecorder

/-! ## What the accounting is for -/

/-- Where a task is, and since when: off every CPU, in the kernel, or in user mode. -/
inductive CpuMode
  | off (since : ℕ)
  | kernel (since : ℕ)
  | user (since : ℕ)
deriving DecidableEq, Repr

/-- The time the current stay started. -/
def CpuMode.since : CpuMode → ℕ
  | .off since | .kernel since | .user since => since

/-- The user and the kernel time a task has used, and where it is now. -/
structure CpuAccount where
  mode : CpuMode
  user : ℕ
  kernel : ℕ
deriving DecidableEq, Repr

namespace CpuAccount

/-- A task forked at `time`, not yet on a CPU. -/
def start (time : ℕ) : CpuAccount := ⟨.off time, 0, 0⟩

/-- One call at clock `now`: a switch-in starts a stay in the kernel; a return to user mode or a
switch-out ends one and adds it to the kernel time; a trap ends a stay in user mode and adds it
to the user time. A call that cannot happen where the task is, or a clock that goes back, is
`none`. -/
def step (a : CpuAccount) (hook : Hook) (now : ℕ) : Option CpuAccount :=
  if now < a.mode.since then none
  else
    match a.mode, hook with
    | .off _, .switch_in => some { a with mode := .kernel now }
    | .kernel since, .trap_return => some { a with mode := .user now, kernel := a.kernel + (now - since) }
    | .kernel since, .switch_out => some { a with mode := .off now, kernel := a.kernel + (now - since) }
    | .user since, .trap => some { a with mode := .kernel now, user := a.user + (now - since) }
    | _, _ => none

/-- The account after a sequence of calls. -/
def run (a : CpuAccount) : List (Hook × Duration) → Option CpuAccount
  | [] => some a
  | (hook, now) :: calls => do run (← a.step hook now.nanos) calls

/-- A step adds to the two times at most the time it moves the start of the stay. -/
theorem step_le_elapsed {a a' : CpuAccount} {hook : Hook} {now : ℕ}
    (stepped : a.step hook now = some a') :
    a'.user + a'.kernel + a.mode.since ≤ a.user + a.kernel + a'.mode.since := by
  obtain ⟨mode, user, kernel⟩ := a
  unfold step at stepped
  split_ifs at stepped with back
  -- one case for each call that can happen where the task is
  cases mode <;> cases hook <;> simp only [reduceCtorEq, Option.some.injEq] at stepped <;>
    subst stepped <;> simp only [CpuMode.since] at back ⊢ <;> omega

/-- Over every run the account accepts, the user and the kernel time grow by at most the time
elapsed. -/
theorem run_le_elapsed {a a' : CpuAccount} {calls : List (Hook × Duration)}
    (accepted : a.run calls = some a') :
    a'.user + a'.kernel + a.mode.since ≤ a.user + a.kernel + a'.mode.since := by
  induction calls generalizing a with
  | nil =>
    cases accepted
    exact le_refl _
  | cons call calls ih =>
    obtain ⟨hook, now⟩ := call
    obtain ⟨next, stepped, rest⟩ := Option.bind_eq_some_iff.mp accepted
    have first := step_le_elapsed stepped
    have later := ih rest
    omega

end CpuAccount

/-! ## The recorder's calls -/

section Hooks

variable {r : TimeRecorder} {now : Duration}

theorem record_trap_eq (later : r.user_start ≤ now)
    (fits : r.user_time.nanos + (now.nanos - r.user_start.nanos) < Duration.LIMIT) :
    ∃ user_time : Duration,
      user_time.nanos = r.user_time.nanos + (now.nanos - r.user_start.nanos) ∧
      r.record_trap now = some { r with kernel_start := now, user_time := user_time } := by
  obtain ⟨slice, sliced, sliceNanos⟩ := Duration.exists_sub?_eq_some later
  obtain ⟨user_time, added, userNanos⟩ :=
    Duration.exists_add?_eq_some (a := r.user_time) (b := slice) (by omega)
  refine ⟨user_time, by omega, ?_⟩
  simp only [record_trap, sliced, added, Option.bind_eq_bind, Option.bind_some, Option.pure_def]

theorem record_trap_return_eq (later : r.user_start ≤ now)
    (fits : r.kernel_time.nanos + (now.nanos - r.user_start.nanos) < Duration.LIMIT) :
    ∃ kernel_time : Duration,
      kernel_time.nanos = r.kernel_time.nanos + (now.nanos - r.user_start.nanos) ∧
      r.record_trap_return now = some { r with kernel_time := kernel_time, user_start := now } := by
  obtain ⟨slice, sliced, sliceNanos⟩ := Duration.exists_sub?_eq_some later
  obtain ⟨kernel_time, added, kernelNanos⟩ :=
    Duration.exists_add?_eq_some (a := r.kernel_time) (b := slice) (by omega)
  refine ⟨kernel_time, by omega, ?_⟩
  simp only [record_trap_return, sliced, added, Option.bind_eq_bind, Option.bind_some,
    Option.pure_def]

theorem record_switch_out_eq (later : r.kernel_start ≤ now)
    (fits : r.kernel_time.nanos + (now.nanos - r.kernel_start.nanos) < Duration.LIMIT) :
    ∃ kernel_time : Duration,
      kernel_time.nanos = r.kernel_time.nanos + (now.nanos - r.kernel_start.nanos) ∧
      r.record_switch_out now = some { r with kernel_time := kernel_time } := by
  obtain ⟨slice, sliced, sliceNanos⟩ := Duration.exists_sub?_eq_some later
  obtain ⟨kernel_time, added, kernelNanos⟩ :=
    Duration.exists_add?_eq_some (a := r.kernel_time) (b := slice) (by omega)
  refine ⟨kernel_time, by omega, ?_⟩
  simp only [record_switch_out, sliced, added, Option.bind_eq_bind, Option.bind_some,
    Option.pure_def]

end Hooks

/-! ## The user time follows the account -/

/-- The recorder follows the account: the same user time, `user_start` no later than the start
of the current stay and at the start of a stay in user mode, and `kernel_start` at the start of a
stay in the kernel. -/
structure Tracks (r : TimeRecorder) (a : CpuAccount) : Prop where
  user_time : r.user_time.nanos = a.user
  user_start_le : r.user_start.nanos ≤ a.mode.since
  user_start_of_user : ∀ since, a.mode = .user since → r.user_start.nanos = since
  kernel_start_of_kernel : ∀ since, a.mode = .kernel since → r.kernel_start.nanos = since

/-- A task just forked: the new recorder with `user_start` at the fork follows the new account. -/
theorem tracks_start (time : Duration) :
    Tracks (TimeRecorder.new.update_user_start time) (CpuAccount.start time.nanos) :=
  ⟨rfl, le_refl _, fun _ off => (by cases off), fun _ off => (by cases off)⟩

/-- Each call the account takes, the recorder takes too and keeps following it, and adds to its
user and kernel time at most the clock. -/
theorem Tracks.record {r : TimeRecorder} {a a' : CpuAccount} {hook : Hook} {now : Duration}
    (tracks : Tracks r a) (stepped : a.step hook now.nanos = some a')
    (fits : r.user_time.nanos + r.kernel_time.nanos + now.nanos < Duration.LIMIT) :
    ∃ r', r.record hook now = some r' ∧ Tracks r' a' ∧
      r'.user_time.nanos + r'.kernel_time.nanos ≤ r.user_time.nanos + r.kernel_time.nanos + now.nanos := by
  obtain ⟨user_time, user_start_le, user_start_of_user, kernel_start_of_kernel⟩ := tracks
  obtain ⟨mode, user, kernel⟩ := a
  unfold CpuAccount.step at stepped
  split_ifs at stepped with back
  dsimp only at user_time user_start_le user_start_of_user kernel_start_of_kernel back stepped
  -- one case for each call that can happen where the task is
  cases mode <;> cases hook <;> simp only [reduceCtorEq, Option.some.injEq] at stepped <;>
    subst stepped <;> simp only [CpuMode.since] at back user_start_le
  case off.switch_in since =>
    refine ⟨_, rfl, ⟨user_time, show r.user_start.nanos ≤ now.nanos by omega,
      fun _ entered => (by cases entered), fun _ entered => (by cases entered; rfl)⟩, ?_⟩
    show r.user_time.nanos + r.kernel_time.nanos ≤ _
    omega
  case kernel.trap_return since =>
    obtain ⟨kernel_time, kernelNanos, recorded⟩ :=
      record_trap_return_eq (r := r) (show r.user_start.nanos ≤ now.nanos by omega) (by omega)
    refine ⟨_, recorded, ⟨user_time, le_refl _, fun _ entered => (by cases entered; rfl),
      fun _ entered => (by cases entered)⟩, ?_⟩
    show r.user_time.nanos + kernel_time.nanos ≤ _
    omega
  case kernel.switch_out since =>
    have started := kernel_start_of_kernel since rfl
    obtain ⟨kernel_time, kernelNanos, recorded⟩ :=
      record_switch_out_eq (r := r) (show r.kernel_start.nanos ≤ now.nanos by omega) (by omega)
    refine ⟨_, recorded, ⟨user_time, show r.user_start.nanos ≤ now.nanos by omega,
      fun _ off => (by cases off), fun _ off => (by cases off)⟩, ?_⟩
    show r.user_time.nanos + kernel_time.nanos ≤ _
    omega
  case user.trap since =>
    have started := user_start_of_user since rfl
    obtain ⟨user_time', userNanos, recorded⟩ :=
      record_trap_eq (r := r) (show r.user_start.nanos ≤ now.nanos by omega) (by omega)
    refine ⟨_, recorded, ⟨show user_time'.nanos = user + (now.nanos - since) by omega,
      show r.user_start.nanos ≤ now.nanos by omega, fun _ entered => (by cases entered),
      fun _ entered => (by cases entered; rfl)⟩, ?_⟩
    show user_time'.nanos + r.kernel_time.nanos ≤ _
    omega

/-- Over every run the account accepts, with the clock at most `bound` and room for the times to
grow by `bound` at each call, the recorder takes every call and keeps following the account. -/
theorem Tracks.replay {r : TimeRecorder} {a a' : CpuAccount} {calls : List (Hook × Duration)}
    {bound : ℕ} (tracks : Tracks r a) (accepted : a.run calls = some a')
    (bounded : ∀ call ∈ calls, call.2.nanos ≤ bound)
    (fits : r.user_time.nanos + r.kernel_time.nanos + calls.length * bound < Duration.LIMIT) :
    ∃ r', r.replay calls = some r' ∧ Tracks r' a' := by
  induction calls generalizing r a with
  | nil =>
    cases accepted
    exact ⟨r, rfl, tracks⟩
  | cons call calls ih =>
    obtain ⟨hook, now⟩ := call
    obtain ⟨next, stepped, rest⟩ := Option.bind_eq_some_iff.mp accepted
    have nowLe := bounded _ List.mem_cons_self
    simp only [List.length_cons, Nat.add_mul, Nat.one_mul] at fits
    obtain ⟨r', recorded, tracks', grew⟩ := tracks.record stepped (by dsimp only at nowLe; omega)
    obtain ⟨r'', replayed, tracks''⟩ := ih tracks' rest
      (fun call member => bounded call (List.mem_cons_of_mem _ member)) (by dsimp only at nowLe; omega)
    exact ⟨r'', by rw [TimeRecorder.replay, recorded]; exact replayed, tracks''⟩

/-- From the fork on, over every run the account accepts, the recorder's user time is the time
the task spent in user mode, as long as the times have room to grow by the clock at each call. -/
theorem replay_user_time (time : Duration) {calls : List (Hook × Duration)} {a' : CpuAccount}
    {bound : ℕ} (accepted : (CpuAccount.start time.nanos).run calls = some a')
    (bounded : ∀ call ∈ calls, call.2.nanos ≤ bound) (fits : calls.length * bound < Duration.LIMIT) :
    ∃ r', (TimeRecorder.new.update_user_start time).replay calls = some r' ∧
      r'.user_time.nanos = a'.user := by
  obtain ⟨r', replayed, tracks⟩ := (tracks_start time).replay accepted bounded (by
    simp only [update_user_start, TimeRecorder.new, Duration.nanos_ZERO]
    omega)
  exact ⟨r', replayed, tracks.user_time⟩

/-! ## The kernel time charges a stay in user mode again -/

theorem replay_append (r : TimeRecorder) (calls calls' : List (Hook × Duration)) :
    r.replay (calls ++ calls') = (r.replay calls).bind fun r => r.replay calls' := by
  induction calls generalizing r with
  | nil => rfl
  | cons call calls ih =>
    obtain ⟨hook, now⟩ := call
    simp only [List.cons_append, TimeRecorder.replay, Option.bind_eq_bind, Option.bind_assoc, ih]

/-- A return to user mode at `a` and the trap back at `b`: the stay `[a, b]` goes to the user
time, and the whole time since the last return to user mode, `a - user_start`, to the kernel
time. -/
theorem replay_user_stay {r : TimeRecorder} {a b : Duration} (returned : r.user_start ≤ a)
    (trapped : a ≤ b) (fits : r.user_time.nanos + r.kernel_time.nanos + b.nanos < Duration.LIMIT) :
    ∃ r', r.replay [(.trap_return, a), (.trap, b)] = some r' ∧
      r'.user_time.nanos = r.user_time.nanos + (b.nanos - a.nanos) ∧
      r'.kernel_time.nanos = r.kernel_time.nanos + (a.nanos - r.user_start.nanos) ∧
      r'.user_start = a ∧ r'.kernel_start = b := by
  have returned' : r.user_start.nanos ≤ a.nanos := returned
  have trapped' : a.nanos ≤ b.nanos := trapped
  obtain ⟨kernel_time, kernelNanos, recordedReturn⟩ := record_trap_return_eq (r := r) returned (by omega)
  obtain ⟨user_time, userNanos, recordedTrap⟩ :=
    record_trap_eq (r := { r with kernel_time := kernel_time, user_start := a }) trapped (by
      dsimp only
      omega)
  have replayed : r.replay [(.trap_return, a), (.trap, b)] =
      some { { r with kernel_time := kernel_time, user_start := a } with
        kernel_start := b, user_time := user_time } := by
    simp only [TimeRecorder.replay, record, recordedReturn, recordedTrap, Option.bind_eq_bind,
      Option.bind_some]
  exact ⟨_, replayed, userNanos, kernelNanos, rfl, rfl⟩

/-- A visit to a CPU: switched in at `s`, in user mode over `[a, b]` and `[c, e]`, switched out at
`d`. -/
def cpuVisit (s a b c e d : Duration) : List (Hook × Duration) :=
  [(.switch_in, s)] ++ [(.trap_return, a), (.trap, b)] ++ [(.trap_return, c), (.trap, e)] ++
    [(.switch_out, d)]

/-- `sys_waitpid` reaping `res_task` adds the child's own times to the child's own child times and
changes no other recorder. -/
theorem waitpidChildTime_eq {recorders : ℕ → TimeRecorder} {res_task : ℕ}
    (userFits : (recorders res_task).child_user_time.nanos + (recorders res_task).user_time.nanos <
      Duration.LIMIT)
    (kernelFits : (recorders res_task).child_kernel_time.nanos + (recorders res_task).kernel_time.nanos <
      Duration.LIMIT) :
    ∃ recorders', waitpidChildTime recorders res_task = some recorders' ∧
      (recorders' res_task).child_user_time.nanos =
        (recorders res_task).child_user_time.nanos + (recorders res_task).user_time.nanos ∧
      (recorders' res_task).child_kernel_time.nanos =
        (recorders res_task).child_kernel_time.nanos + (recorders res_task).kernel_time.nanos ∧
      ∀ waiter ≠ res_task, recorders' waiter = recorders waiter := by
  obtain ⟨child_user_time, addedUser, userNanos⟩ := Duration.exists_add?_eq_some userFits
  obtain ⟨child_kernel_time, addedKernel, kernelNanos⟩ := Duration.exists_add?_eq_some kernelFits
  have updated : waitpidChildTime recorders res_task = some (Function.update recorders res_task
      { recorders res_task with
        child_user_time := child_user_time
        child_kernel_time := child_kernel_time }) := by
    simp only [waitpidChildTime, update_child_time, time_pair, addedUser, addedKernel,
      Option.bind_eq_bind, Option.bind_some, Option.pure_def]
  refine ⟨_, updated, ?_, ?_, fun waiter other => Function.update_of_ne other _ _⟩
  · rw [Function.update_self]
    exact userNanos
  · rw [Function.update_self]
    exact kernelNanos

/-- Over a visit to a CPU the user time grows by the two stays in user mode, but the kernel time
grows by the time in the kernel, `(a - s) + (c - b) + (d - e)`, and again by the first stay in
user mode, `b - a`, and by the time off the CPU since the last return to user mode, `s - u`:
together they grow by more than the visit lasts whenever the task ran in user mode. When
`sys_waitpid` reaps a child, the child's recorder adds its own times to its child times, and
every other recorder, the caller's included, is left as it was. -/
theorem replay_visit_charges_user_stay_to_kernel (r : TimeRecorder) (s a b c e d : Duration)
    (ordered : r.user_start ≤ s ∧ s ≤ a ∧ a ≤ b ∧ b ≤ c ∧ c ≤ e ∧ e ≤ d)
    (fits : r.user_time.nanos + r.kernel_time.nanos + 2 * d.nanos < Duration.LIMIT) :
    (∃ r', r.replay (cpuVisit s a b c e d) = some r' ∧
      r'.user_time.nanos = r.user_time.nanos + ((b.nanos - a.nanos) + (e.nanos - c.nanos)) ∧
      r'.kernel_time.nanos = r.kernel_time.nanos +
        ((a.nanos - s.nanos) + (c.nanos - b.nanos) + (d.nanos - e.nanos)) +
        ((b.nanos - a.nanos) + (s.nanos - r.user_start.nanos))) ∧
    ∀ (recorders : ℕ → TimeRecorder) (res_task : ℕ),
      (recorders res_task).child_user_time.nanos + (recorders res_task).user_time.nanos < Duration.LIMIT →
      (recorders res_task).child_kernel_time.nanos + (recorders res_task).kernel_time.nanos < Duration.LIMIT →
      ∃ recorders', waitpidChildTime recorders res_task = some recorders' ∧
        (recorders' res_task).child_user_time.nanos =
          (recorders res_task).child_user_time.nanos + (recorders res_task).user_time.nanos ∧
        (recorders' res_task).child_kernel_time.nanos =
          (recorders res_task).child_kernel_time.nanos + (recorders res_task).kernel_time.nanos ∧
        ∀ waiter ≠ res_task, recorders' waiter = recorders waiter := by
  refine ⟨?_, fun _ _ userFits kernelFits => waitpidChildTime_eq userFits kernelFits⟩
  obtain ⟨switchedIn, returned, trapped, returnedAgain, trappedAgain, switchedOut⟩ := ordered
  rw [Duration.le_iff] at switchedIn returned trapped returnedAgain trappedAgain switchedOut
  -- the two stays in user mode, then the switch-out
  obtain ⟨r₁, firstStay, user₁, kernel₁, userStart₁, -⟩ := replay_user_stay
    (r := r.record_switch_in s) (show r.user_start.nanos ≤ a.nanos by omega) (a := a) (b := b)
    (Duration.le_iff.mpr trapped) (show r.user_time.nanos + r.kernel_time.nanos + b.nanos < _ by omega)
  obtain ⟨r₂, secondStay, user₂, kernel₂, -, kernelStart₂⟩ := replay_user_stay (r := r₁) (a := c)
    (b := e) (by rw [userStart₁, Duration.le_iff]; omega) (Duration.le_iff.mpr trappedAgain) (by
      dsimp only [record_switch_in] at user₁ kernel₁
      omega)
  obtain ⟨kernel_time, kernelNanos, switched⟩ := record_switch_out_eq (r := r₂)
    (show r₂.kernel_start ≤ d by rw [kernelStart₂, Duration.le_iff]; omega) (by
      rw [kernelStart₂]
      dsimp only [record_switch_in] at user₁ kernel₁
      rw [userStart₁] at kernel₂
      omega)
  have switchedIn' : r.replay [(.switch_in, s)] = some (r.record_switch_in s) := rfl
  have switchedOut' : r₂.replay [(.switch_out, d)] = some { r₂ with kernel_time := kernel_time } := by
    simp only [TimeRecorder.replay, record, switched, Option.bind_eq_bind, Option.bind_some]
  refine ⟨{ r₂ with kernel_time := kernel_time }, ?_, ?_, ?_⟩
  · rw [cpuVisit, replay_append, replay_append, replay_append, switchedIn', Option.bind_some,
      firstStay, Option.bind_some, secondStay, Option.bind_some, switchedOut']
  · dsimp only [record_switch_in] at user₁
    show r₂.user_time.nanos = _
    omega
  · dsimp only [record_switch_in] at user₁ kernel₁
    rw [userStart₁] at kernel₂
    rw [kernelStart₂] at kernelNanos
    show kernel_time.nanos = _
    omega

/-- A task forked at 0 and switched in at 0 runs in user mode over `[0, 10]` and `[15, 20]` ns
and is switched out at 25 ns: its user time is 15 ns, its kernel time 20 ns rather than 10, and
together they exceed the 25 ns it was on the CPU. -/
theorem replay_visit_overcharges :
    ∃ r', (TimeRecorder.new.update_user_start .ZERO).replay
        (cpuVisit .ZERO .ZERO ⟨10, by decide⟩ ⟨15, by decide⟩ ⟨20, by decide⟩ ⟨25, by decide⟩) =
          some r' ∧
      r'.user_time.nanos = 15 ∧ r'.kernel_time.nanos = 20 ∧ 25 < r'.user_time.nanos + r'.kernel_time.nanos := by
  obtain ⟨⟨r', replayed, user, kernel⟩, -⟩ := replay_visit_charges_user_stay_to_kernel
    (TimeRecorder.new.update_user_start .ZERO) .ZERO .ZERO ⟨10, by decide⟩ ⟨15, by decide⟩
    ⟨20, by decide⟩ ⟨25, by decide⟩ (by decide) (by decide)
  simp only [update_user_start, TimeRecorder.new, Duration.nanos_ZERO] at user kernel
  exact ⟨r', replayed, by omega, by omega, by omega⟩

end Chronix
