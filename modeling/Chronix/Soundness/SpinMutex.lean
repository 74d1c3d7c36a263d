import Mathlib
import Chronix.Model.SpinMutex
import Chronix.ToMathlib.Reachable

/-! # What the spin mutex guarantees

Unlike `SpinRwMutex`, whose `compare_exchange` starts from whatever value its load saw, `lock`
exchanges from `usize::MAX` only, so a hart takes the lock only when no hart holds it. In every
interleaving from `SpinMutex::new` the owner word names the one hart that holds the guard, and
is free when none does (`OwnerInv`, `spinMutex_owner_names_holder`). The checks `lock` makes on
the words it loads follow (`spinMutex_lock_panics`): a `lock` from no guard never finds its own
id in the word, and one made while the hart holds the guard always does, and panics; the word
never names an owner past `MAX_PROCESSORS`; the assertion after the exchange fails only for a
hart whose id is past it; and the deadlock check names a hart that holds the guard.

Every step is one of the moves `runPc_ok_cases` lists: a hart moves between two places that
agree on holding the guard, takes a free lock, or releases the one it holds; the invariant is
proved once for each move.
-/

namespace Chronix

open SpinMutex SpinRwMutex

namespace MutexSystem

section Step

variable {s : MutexSystem} {hart : ℕ} {pc : MutexPc}

@[simp] theorem owner_setPc (s : MutexSystem) (hart : ℕ) (pc : MutexPc) :
    (s.setPc hart pc).owner = s.owner := rfl

@[simp] theorem length_setPc (s : MutexSystem) (hart : ℕ) (pc : MutexPc) :
    (s.setPc hart pc).harts.length = s.harts.length :=
  List.length_set

theorem getElem?_setPc_self (current : s.harts[hart]? = some pc) (pc' : MutexPc) :
    (s.setPc hart pc').harts[hart]? = some pc' :=
  List.getElem?_set_self (List.getElem?_eq_some_iff.mp current).1

theorem getElem?_setPc_of_ne {other : ℕ} (apart : hart ≠ other) (pc' : MutexPc) :
    (s.setPc hart pc').harts[other]? = s.harts[other]? :=
  List.getElem?_set_ne apart

theorem setPc_setPc (s : MutexSystem) (hart : ℕ) (pc pc' : MutexPc) :
    (s.setPc hart pc).setPc hart pc' = s.setPc hart pc' := by
  simp [setPc, List.set_set]

/-- The moves of a hart's next atomic operation that returns: none, a move between two places
that agree on holding the guard, the exchange that takes a free lock, the store that releases
it, or a `lock` made while holding the guard that loads a word naming another hart. -/
theorem runPc_ok_cases {next : MutexSystem} (ran : s.runPc hart pc = .ok next) :
    next = s ∨
    (∃ pc', pc.holdsGuard = pc'.holdsGuard ∧ next = s.setPc hart pc') ∨
    (pc = .lockCas ∧ s.owner = USIZE_MAX ∧ hart < MAX_PROCESSORS ∧
      next = { s.setPc hart .holding with owner := hart }) ∨
    (pc = .unlockStore ∧ next = { s.setPc hart .idle with owner := USIZE_MAX }) ∨
    (pc = .relockLoad ∧ s.owner ≠ hart ∧ next = s.setPc hart (.waitLoad 0)) := by
  cases pc with
  | idle | holding =>
    cases ran
    exact .inl rfl
  | lockLoad =>
    simp only [runPc] at ran
    split at ran
    · cases ran
    · cases ran
      exact .inr (.inl ⟨.waitLoad 0, rfl, rfl⟩)
  | relockLoad =>
    simp only [runPc] at ran
    split at ran
    · cases ran
    · next other =>
      cases ran
      exact .inr (.inr (.inr (.inr ⟨rfl, other, rfl⟩)))
  | waitLoad try_count =>
    simp only [runPc] at ran
    split at ran
    · cases ran
      exact .inr (.inl ⟨.lockCas, rfl, rfl⟩)
    · split at ran
      · cases ran
      · split at ran
        · cases ran
        · cases ran
          exact .inr (.inl ⟨.waitLoad (try_count + 1), rfl, rfl⟩)
  | lockCas =>
    simp only [runPc] at ran
    split at ran
    · next free =>
      split at ran
      · next bound =>
        cases ran
        exact .inr (.inr (.inl ⟨rfl, free, bound, rfl⟩))
      · cases ran
    · cases ran
      exact .inr (.inl ⟨.lockLoad, rfl, rfl⟩)
  | unlockStore =>
    cases ran
    exact .inr (.inr (.inr (.inl ⟨rfl, rfl⟩)))

/-- The panics of a hart's next atomic operation, with what the hart loaded. -/
theorem runPc_error_cases {e : MutexPanic} (panicked : s.runPc hart pc = .error e) :
    ((pc = .lockLoad ∨ pc = .relockLoad) ∧ s.owner = hart ∧ e = .selfLock hart) ∨
    (∃ try_count, pc = .waitLoad try_count ∧ s.owner ≠ USIZE_MAX ∧
      (MAX_PROCESSORS ≤ s.owner ∧ e = .badOwner s.owner ∨
        try_count + 1 = DEADLOCK_TRIES ∧ e = .deadlock hart (try_count + 1) s.owner)) ∨
    (pc = .lockCas ∧ MAX_PROCESSORS ≤ hart ∧ e = .assertOwner hart) := by
  cases pc with
  | idle | holding | unlockStore => cases panicked
  | lockLoad =>
    simp only [runPc] at panicked
    split at panicked
    · next mine =>
      cases panicked
      exact .inl ⟨.inl rfl, mine, rfl⟩
    · cases panicked
  | relockLoad =>
    simp only [runPc] at panicked
    split at panicked
    · next mine =>
      cases panicked
      exact .inl ⟨.inr rfl, mine, rfl⟩
    · cases panicked
  | waitLoad try_count =>
    simp only [runPc] at panicked
    split at panicked
    · cases panicked
    · next free =>
      split at panicked
      · next bad =>
        cases panicked
        exact .inr (.inl ⟨try_count, rfl, free, .inl ⟨bad, rfl⟩⟩)
      · split at panicked
        · next tries =>
          cases panicked
          exact .inr (.inl ⟨try_count, rfl, free, .inr ⟨tries, rfl⟩⟩)
        · cases panicked
  | lockCas =>
    simp only [runPc] at panicked
    split at panicked
    · split at panicked
      · cases panicked
      · next bound =>
        cases panicked
        exact .inr (.inr ⟨rfl, Nat.le_of_not_lt bound, rfl⟩)
    · cases panicked

/-- The owner word names the one hart that holds the guard. -/
structure OwnerInv (s : MutexSystem) : Prop where
  /-- A hart that holds the guard is the owner, and its id is below `MAX_PROCESSORS`. -/
  held_owner : ∀ {hart pc}, s.harts[hart]? = some pc → pc.holdsGuard →
    s.owner = hart ∧ hart < MAX_PROCESSORS
  /-- A taken lock is held by the hart it names. -/
  owner_held : s.owner ≠ USIZE_MAX → ∃ pc, s.harts[s.owner]? = some pc ∧ pc.holdsGuard

theorem ownerInv_new (n : ℕ) : (new n).OwnerInv where
  held_owner {hart pc} current holds := by
    -- every hart of a new lock is idle
    have idle : pc = .idle := List.eq_of_mem_replicate (List.mem_of_getElem? current)
    subst idle
    cases holds
  owner_held free := absurd rfl free

/-- A hart moves between two places that agree on holding the guard, and `owner` stays. -/
theorem OwnerInv.setPc (inv : s.OwnerInv) (current : s.harts[hart]? = some pc) (pc' : MutexPc)
    (same : pc.holdsGuard = pc'.holdsGuard) : (s.setPc hart pc').OwnerInv where
  held_owner {other q} found holds := by
    rcases eq_or_ne hart other with rfl | apart
    · rw [getElem?_setPc_self current, Option.some.injEq] at found
      subst found
      exact inv.held_owner current (same.trans holds)
    · rw [getElem?_setPc_of_ne apart] at found
      exact inv.held_owner found holds
  owner_held taken := by
    obtain ⟨q, found, holds⟩ := inv.owner_held taken
    rw [owner_setPc]
    rcases eq_or_ne hart s.owner with named | apart
    · rw [← named, current, Option.some.injEq] at found
      subst found
      exact ⟨pc', named ▸ getElem?_setPc_self current pc', same.symm.trans holds⟩
    · exact ⟨q, (getElem?_setPc_of_ne apart pc').trans found, holds⟩

/-- The `compare_exchange` of `lock` succeeds on a free word: the hart takes the guard. -/
theorem OwnerInv.acquire (inv : s.OwnerInv) (current : s.harts[hart]? = some pc)
    (free : s.owner = USIZE_MAX) (bound : hart < MAX_PROCESSORS) :
    ({ s.setPc hart .holding with owner := hart } : MutexSystem).OwnerInv where
  held_owner {other q} found holds := by
    dsimp only at found ⊢
    rcases eq_or_ne hart other with rfl | apart
    · exact ⟨rfl, bound⟩
    · -- a holder before the exchange would have been named by the word, which was free
      rw [getElem?_setPc_of_ne apart] at found
      have named := inv.held_owner found holds
      rw [free, USIZE_MAX, MAX_PROCESSORS] at named
      omega
  owner_held _ := ⟨.holding, getElem?_setPc_self current .holding, rfl⟩

/-- The `store` of the guard's `drop` frees the word: the holder was the only one. -/
theorem OwnerInv.release (inv : s.OwnerInv) (current : s.harts[hart]? = some pc)
    (holds : pc.holdsGuard) :
    ({ s.setPc hart .idle with owner := USIZE_MAX } : MutexSystem).OwnerInv where
  held_owner {other q} found held := by
    dsimp only at found
    rcases eq_or_ne hart other with rfl | apart
    · rw [getElem?_setPc_self current, Option.some.injEq] at found
      subst found
      cases held
    · rw [getElem?_setPc_of_ne apart] at found
      have mine := (inv.held_owner current holds).1
      have theirs := (inv.held_owner found held).1
      exact absurd (mine.symm.trans theirs) apart
  owner_held taken := absurd rfl taken

/-- The next atomic operation of any hart keeps the invariant. -/
theorem OwnerInv.runPc (inv : s.OwnerInv) (current : s.harts[hart]? = some pc)
    {next : MutexSystem} (ran : s.runPc hart pc = .ok next) : next.OwnerInv := by
  rcases runPc_ok_cases ran with
    rfl | ⟨pc', same, rfl⟩ | ⟨-, free, bound, rfl⟩ | ⟨rfl, rfl⟩ | ⟨rfl, other, -⟩
  · exact inv
  · exact inv.setPc current pc' same
  · exact inv.acquire current free bound
  · exact inv.release current rfl
  · -- a hart that holds the guard is what the word names
    exact absurd (inv.held_owner current rfl).1 other

/-- `lock` starts where the hart holds the guard exactly when it was holding it. -/
theorem holdsGuard_lockStart {pc next : MutexPc} (started : lockStart pc = some next) :
    pc.holdsGuard = next.holdsGuard := by
  cases pc <;> cases started <;> rfl

theorem holdsGuard_dropStart {pc next : MutexPc} (started : dropStart pc = some next) :
    pc.holdsGuard = next.holdsGuard := by
  -- only a hart that holds the guard drops it
  cases pc <;> cases started
  rfl

/-- Starting a call moves the hart between two places that agree on holding the guard. -/
theorem OwnerInv.call (inv : s.OwnerInv) {start : MutexPc → Option MutexPc}
    (same : ∀ {pc next}, start pc = some next → pc.holdsGuard = next.holdsGuard) :
    (s.call hart start).OwnerInv := by
  unfold MutexSystem.call
  split
  · next next started =>
    obtain ⟨pc, current, starts⟩ := Option.bind_eq_some_iff.mp started
    exact inv.setPc current next (same starts)
  · exact inv

/-- Every step keeps the invariant. -/
theorem OwnerInv.step (inv : s.OwnerInv) {event : MutexEvent} {next : MutexSystem}
    (stepped : s.step event = some next) : next.OwnerInv := by
  cases event with
  | lock hart =>
    cases stepped
    exact inv.call holdsGuard_lockStart
  | dropGuard hart =>
    cases stepped
    exact inv.call holdsGuard_dropStart
  | run hart =>
    simp only [MutexSystem.step] at stepped
    split at stepped
    · -- a panic ends the run, so the operation returned
      next current => exact inv.runPc current (Except.toOption_eq_some.mp stepped)
    · cases stepped
      exact inv

/-- Every step keeps the number of harts. -/
theorem length_step {event : MutexEvent} {next : MutexSystem}
    (stepped : s.step event = some next) : next.harts.length = s.harts.length := by
  cases event with
  | lock hart | dropGuard hart =>
    cases stepped
    unfold MutexSystem.call
    split <;> simp
  | run hart =>
    simp only [MutexSystem.step] at stepped
    split at stepped
    · rcases runPc_ok_cases (Except.toOption_eq_some.mp stepped) with
        rfl | ⟨_, -, rfl⟩ | ⟨-, -, -, rfl⟩ | ⟨-, rfl⟩ | ⟨-, -, rfl⟩ <;> simp
    · cases stepped
      rfl

/-- The word is free or names a hart below `MAX_PROCESSORS`. -/
theorem OwnerInv.owner_lt (inv : s.OwnerInv) (taken : s.owner ≠ USIZE_MAX) :
    s.owner < MAX_PROCESSORS := by
  obtain ⟨_, found, holds⟩ := inv.owner_held taken
  exact (inv.held_owner found holds).2

/-- Two harts that hold the guard are one. -/
theorem OwnerInv.unique (inv : s.OwnerInv) {first second : ℕ} {pc₁ pc₂ : MutexPc}
    (found₁ : s.harts[first]? = some pc₁) (found₂ : s.harts[second]? = some pc₂)
    (holds₁ : pc₁.holdsGuard) (holds₂ : pc₂.holdsGuard) : first = second :=
  (inv.held_owner found₁ holds₁).1.symm.trans (inv.held_owner found₂ holds₂).1

/-- The word is free exactly when no hart holds the guard. -/
theorem OwnerInv.free_iff (inv : s.OwnerInv) :
    s.owner = USIZE_MAX ↔ ∀ (hart : ℕ) (pc : MutexPc), s.harts[hart]? = some pc → pc.holdsGuard = false := by
  constructor
  · intro free hart pc found
    by_contra holds
    -- a holder's id is below `MAX_PROCESSORS`, and the free word is not
    have named := inv.held_owner found (Bool.not_eq_false _ ▸ holds)
    rw [free, USIZE_MAX, MAX_PROCESSORS] at named
    omega
  · intro unheld
    by_contra taken
    obtain ⟨pc, found, holds⟩ := inv.owner_held taken
    rw [unheld _ pc found] at holds
    cases holds

/-- A hart the word names holds the guard. -/
theorem OwnerInv.holds_of_owner (inv : s.OwnerInv) (taken : s.owner ≠ USIZE_MAX)
    (current : s.harts[s.owner]? = some pc) : pc.holdsGuard := by
  obtain ⟨q, found, holds⟩ := inv.owner_held taken
  rw [current, Option.some.injEq] at found
  exact found ▸ holds

end Step

/-- The invariant holds in every state of every interleaving from `SpinMutex::new`. -/
theorem reachable_ownerInv {n : ℕ} {s : MutexSystem}
    (reached : Reachable step (fun _ _ => True) (new n) s) : s.OwnerInv :=
  reached.invariant OwnerInv (ownerInv_new n) fun _ _ _ inv _ stepped => inv.step stepped

/-- Every interleaving keeps the `n` harts of `SpinMutex::new n`. -/
theorem reachable_length {n : ℕ} {s : MutexSystem}
    (reached : Reachable step (fun _ _ => True) (new n) s) : s.harts.length = n :=
  reached.invariant (fun s => s.harts.length = n) List.length_replicate
    fun _ _ _ same _ stepped => (length_step stepped).trans same

/-- In every interleaving from `SpinMutex::new`, at most one hart holds the guard, the owner
word is `usize::MAX` exactly when none does, and otherwise it is the id of the one that does. -/
theorem spinMutex_owner_names_holder {n : ℕ} {s : MutexSystem}
    (reached : Reachable step (fun _ _ => True) (new n) s) :
    (∀ {first second : ℕ} {pc₁ pc₂ : MutexPc}, s.harts[first]? = some pc₁ →
      s.harts[second]? = some pc₂ → pc₁.holdsGuard → pc₂.holdsGuard → first = second) ∧
    (s.owner = USIZE_MAX ↔ ∀ (hart : ℕ) (pc : MutexPc), s.harts[hart]? = some pc → pc.holdsGuard = false) ∧
    (s.owner ≠ USIZE_MAX → ∃ pc, s.harts[s.owner]? = some pc ∧ pc.holdsGuard) := by
  have inv := reachable_ownerInv reached
  exact ⟨inv.unique, inv.free_iff, inv.owner_held⟩

/-- Hart 0 takes the lock and hart 1 then waits for it: the word names hart 0. -/
theorem spinMutex_second_hart_waits :
    ∃ s, (new 2).run [.lock 0, .run 0, .run 0, .run 0, .lock 1, .run 1] = some s ∧
      s.owner = 0 ∧ s.harts = [.holding, .waitLoad 0] ∧
      (∀ {first second : ℕ} {pc₁ pc₂ : MutexPc}, s.harts[first]? = some pc₁ →
        s.harts[second]? = some pc₂ → pc₁.holdsGuard → pc₂.holdsGuard → first = second) ∧
      (s.owner = USIZE_MAX ↔ ∀ (hart : ℕ) (pc : MutexPc), s.harts[hart]? = some pc → pc.holdsGuard = false) ∧
      (s.owner ≠ USIZE_MAX → ∃ pc, s.harts[s.owner]? = some pc ∧ pc.holdsGuard) := by
  have ran : (new 2).run [.lock 0, .run 0, .run 0, .run 0, .lock 1, .run 1] =
      some ⟨0, [.holding, .waitLoad 0]⟩ := by decide
  exact ⟨_, ran, rfl, rfl, spinMutex_owner_names_holder (Reachable.of_foldlM ran)⟩

/-! ## The checks of `lock` -/

section Spin

variable {n : ℕ} {s : MutexSystem} {hart : ℕ}

theorem runPc_waitLoad_spin {try_count : ℕ} (taken : s.owner ≠ USIZE_MAX)
    (named : s.owner < MAX_PROCESSORS) (room : try_count + 1 ≠ DEADLOCK_TRIES) :
    s.runPc hart (.waitLoad try_count) = .ok (s.setPc hart (.waitLoad (try_count + 1))) := by
  simp [runPc, taken, Nat.not_le.mpr named, room]

/-- While the lock is taken, a hart in `wait_unlock` turns until the deadlock check: every try
count up to the limit is reached. -/
theorem reachable_waitLoad {try_count : ℕ}
    (reached : Reachable step (fun _ _ => True) (new n) s)
    (current : s.harts[hart]? = some (.waitLoad try_count)) (taken : s.owner ≠ USIZE_MAX)
    {later : ℕ} (after : try_count < later) (below : later < DEADLOCK_TRIES) :
    Reachable step (fun _ _ => True) (new n) (s.setPc hart (.waitLoad later)) := by
  have named := (reachable_ownerInv reached).owner_lt taken
  induction later, after using Nat.le_induction with
  | base =>
    refine reached.step (.run hart) trivial ?_
    simp [step, current, runPc_waitLoad_spin taken named (Nat.ne_of_lt below), Except.toOption]
  | succ later _ turned =>
    -- the hart turned `later` times and the word still names the holder
    have spun : (s.setPc hart (.waitLoad later)).runPc hart (.waitLoad later) =
        .ok ((s.setPc hart (.waitLoad later)).setPc hart (.waitLoad (later + 1))) :=
      runPc_waitLoad_spin taken named (Nat.ne_of_lt below)
    refine (turned (by omega)).step (.run hart) trivial ?_
    simp [step, getElem?_setPc_self current, spun, setPc_setPc, Except.toOption]

end Spin

/-- A hart that holds the guard and calls `lock` again panics at the loop's first load: the
word names it. -/
theorem OwnerInv.relock_panics {s : MutexSystem} (inv : s.OwnerInv) {hart : ℕ}
    (current : s.harts[hart]? = some .holding) :
    ∃ next, s.step (.lock hart) = some next ∧ next.step (.run hart) = none := by
  have started : s.step (.lock hart) = some (s.setPc hart .relockLoad) := by
    rw [MutexSystem.step, MutexSystem.call, current, Option.bind_some]
    rfl
  have mine : s.owner = hart := (inv.held_owner current rfl).1
  refine ⟨_, started, ?_⟩
  have panics : (s.setPc hart .relockLoad).runPc hart .relockLoad = .error (.selfLock hart) :=
    if_pos mine
  rw [MutexSystem.step, getElem?_setPc_self current]
  simp only [panics]
  rfl

/-- In every interleaving from `SpinMutex::new` of fewer harts than `usize::MAX`, `lock` panics in
three ways only. A `lock` made while the hart holds the guard panics at its first load, with the
self-deadlock message, and every such call does; a `lock` from no guard never fails that check.
The deadlock check fires after `0x1000000` turns of `wait_unlock`, and the hart its message names
as holding the lock is another hart, which holds the guard. The assertion after the exchange
fails only for a hart whose id is past `MAX_PROCESSORS`; the check of an owner past
`MAX_PROCESSORS` never fires. -/
theorem spinMutex_lock_panics {n : ℕ} {s : MutexSystem} (ids : n ≤ USIZE_MAX)
    (reached : Reachable step (fun _ _ => True) (new n) s) :
    (∀ (hart : ℕ) (pc : MutexPc) (e : MutexPanic), s.harts[hart]? = some pc →
      s.runPc hart pc = .error e →
      (pc = .relockLoad ∧ e = .selfLock hart) ∨
      (∃ holder, e = .deadlock hart DEADLOCK_TRIES s.owner ∧ s.owner ≠ hart ∧
        s.harts[s.owner]? = some holder ∧ holder.holdsGuard) ∨
      (pc = .lockCas ∧ e = .assertOwner hart ∧ MAX_PROCESSORS ≤ hart)) ∧
    (∀ hart, s.harts[hart]? = some .holding →
      ∃ next, s.step (.lock hart) = some next ∧ next.step (.run hart) = none) := by
  have inv := reachable_ownerInv reached
  refine ⟨fun hart pc e current panicked => ?_, fun hart current => inv.relock_panics current⟩
  -- a hart's id is below `n`, so a word naming it is taken
  have taken_of_named : s.owner = hart → s.owner ≠ USIZE_MAX := by
    intro named
    have inside := (List.getElem?_eq_some_iff.mp current).1
    rw [reachable_length reached] at inside
    omega
  rcases runPc_error_cases panicked with
    ⟨rfl | rfl, named, rfl⟩ | ⟨try_count, rfl, taken, ⟨bad, -⟩ | ⟨tries, rfl⟩⟩ | ⟨rfl, past, rfl⟩
  · -- the word names this hart only while it holds the guard, which a hart in `lock` does not
    have holds := inv.holds_of_owner (taken_of_named named) (named ▸ current)
    cases holds
  · exact .inl ⟨rfl, rfl⟩
  · exact absurd (inv.owner_lt taken) (Nat.not_lt.mpr bad)
  · obtain ⟨holder, found, holds⟩ := inv.owner_held taken
    refine .inr (.inl ⟨holder, by rw [tries], fun named => ?_, found, holds⟩)
    have waiting := inv.holds_of_owner taken (named ▸ current)
    cases waiting
  · exact .inr (.inr ⟨rfl, rfl, past⟩)

/-- Two harts: hart 0 takes the lock and hart 1 turns in `wait_unlock` up to its last try. Hart
1's next load fails the deadlock check, naming hart 0, which holds the guard; and hart 0 calling
`lock` again panics at once. -/
theorem spinMutex_relock_and_deadlock :
    ∃ s, Reachable step (fun _ _ => True) (new 2) s ∧
      s.harts = [.holding, .waitLoad (DEADLOCK_TRIES - 1)] ∧
      s.runPc 1 (.waitLoad (DEADLOCK_TRIES - 1)) = .error (.deadlock 1 DEADLOCK_TRIES 0) ∧
      (∃ holder, s.owner ≠ 1 ∧ s.harts[s.owner]? = some holder ∧ holder.holdsGuard) ∧
      ∃ next, s.step (.lock 0) = some next ∧ next.step (.run 0) = none := by
  have ran : (new 2).run [.lock 0, .run 0, .run 0, .run 0, .lock 1, .run 1] =
      some ⟨0, [.holding, .waitLoad 0]⟩ := by decide
  have turned : Reachable step (fun _ _ => True) (new 2) (MutexSystem.setPc
      ⟨0, [.holding, .waitLoad 0]⟩ 1 (.waitLoad (DEADLOCK_TRIES - 1))) :=
    reachable_waitLoad (Reachable.of_foldlM ran) rfl (by decide) (by decide) (by decide)
  have current : (MutexSystem.setPc ⟨0, [.holding, .waitLoad 0]⟩ 1
      (.waitLoad (DEADLOCK_TRIES - 1))).harts[1]? = some (.waitLoad (DEADLOCK_TRIES - 1)) := rfl
  have panicked : (MutexSystem.setPc ⟨0, [.holding, .waitLoad 0]⟩ 1
      (.waitLoad (DEADLOCK_TRIES - 1))).runPc 1 (.waitLoad (DEADLOCK_TRIES - 1)) =
      .error (.deadlock 1 DEADLOCK_TRIES 0) := by decide
  obtain ⟨classified, relocked⟩ := spinMutex_lock_panics (by decide) turned
  refine ⟨_, turned, rfl, panicked, ?_, relocked 0 rfl⟩
  rcases classified 1 _ _ current panicked with ⟨waiting, -⟩ | ⟨holder, -, other, found, holds⟩ |
    ⟨waiting, -⟩
  · cases waiting
  · exact ⟨holder, other, found, holds⟩
  · cases waiting

end MutexSystem

end Chronix
