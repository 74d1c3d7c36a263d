import Mathlib

/-! # Runs of a partial step function

A component is a state type with a step function that takes an action and either returns the
next state or stops (a panic). A run may be restricted by a precondition on each action, for the
contracts that callers of the component promise. An invariant holds of every reachable state
once it holds initially and every allowed step that returns preserves it; this is the induction
rule the run lemmas of the development use. A step that reports its panics as errors of `Except`
runs through `Except.toOption`.
-/

universe u v w

variable {σ : Type u} {α : Type v}

/-- States reached from `start` by finitely many allowed steps, each of which returns. -/
inductive Reachable (step : σ → α → Option σ) (allowed : σ → α → Prop) (start : σ) : σ → Prop
  | start : Reachable step allowed start start
  | step {state next : σ} (action : α) : Reachable step allowed start state →
      allowed state action → step state action = some next → Reachable step allowed start next

/-- A step written in `Except`, whose errors are its panics, returns exactly when it is `ok`. -/
theorem Except.toOption_eq_some {ε : Type v} {x : Except ε σ} {next : σ} :
    x.toOption = some next ↔ x = .ok next := by
  cases x <;> simp [Except.toOption]

namespace Reachable

variable {step : σ → α → Option σ} {allowed : σ → α → Prop} {start : σ}

/-- The induction rule: an inductive invariant holds of every reachable state. -/
theorem invariant (inv : σ → Prop) (initial : inv start)
    (preserved : ∀ state action next, inv state → allowed state action →
      step state action = some next → inv next)
    {state : σ} (reached : Reachable step allowed start state) : inv state := by
  induction reached with
  | start => exact initial
  | step action _ permitted stepped ih => exact preserved _ action _ ih permitted stepped

/-- Extending a reachable state by a run of `foldlM` reaches its end. -/
theorem foldlM {middle final : σ} {actions : List α}
    (reached : Reachable step (fun _ _ => True) start middle)
    (ran : actions.foldlM step middle = some final) :
    Reachable step (fun _ _ => True) start final := by
  induction actions generalizing middle with
  | nil =>
    cases ran
    exact reached
  | cons action rest ih =>
    simp only [List.foldlM_cons, Option.bind_eq_bind, Option.bind_eq_some_iff] at ran
    obtain ⟨next, stepped, ran⟩ := ran
    exact ih (reached.step action trivial stepped) ran

/-- Every state a run of `foldlM` ends in is reachable. -/
theorem of_foldlM {final : σ} {actions : List α} (ran : actions.foldlM step start = some final) :
    Reachable step (fun _ _ => True) start final :=
  Reachable.start.foldlM ran

end Reachable

/-! ## Runs with their actions

A run records the actions it takes, so that two systems can be compared on the same actions:
forward simulation relates the ends of every run of one to the end of the other's, and a map
that commutes with the steps maps every run to a run.
-/

/-- A run from a state that takes `actions` in order, each allowed where it is taken. -/
inductive Run (step : σ → α → Option σ) (allowed : σ → α → Prop) : σ → List α → σ → Prop
  | nil (state : σ) : Run step allowed state [] state
  | cons {state next final : σ} {action : α} {rest : List α} : allowed state action →
      step state action = some next → Run step allowed next rest final →
      Run step allowed state (action :: rest) final

namespace Run

variable {step : σ → α → Option σ} {allowed : σ → α → Prop} {start final : σ} {actions : List α}

/-- A run computes `foldlM` of its actions. -/
theorem foldlM (run : Run step allowed start actions final) :
    actions.foldlM step start = some final := by
  induction run with
  | nil => rfl
  | cons _ stepped _ ih => simp [List.foldlM_cons, stepped, ih]

/-- A run from a reachable state ends in a reachable state. -/
theorem reachable {state : σ} (run : Run step allowed state actions final)
    (reached : Reachable step allowed start state) : Reachable step allowed start final := by
  induction run with
  | nil => exact reached
  | cons permitted stepped _ ih => exact ih (reached.step _ permitted stepped)

/-- A run of `foldlM` whose every action is allowed anywhere is a run. -/
theorem of_foldlM (permitted : ∀ state action, allowed state action)
    (ran : actions.foldlM step start = some final) : Run step allowed start actions final := by
  induction actions generalizing start with
  | nil =>
    cases ran
    exact .nil _
  | cons action rest ih =>
    simp only [List.foldlM_cons, Option.bind_eq_bind, Option.bind_eq_some_iff] at ran
    obtain ⟨next, stepped, ran⟩ := ran
    exact .cons (permitted start action) stepped (ih ran)

/-- A run of `foldlM` that checks each action before it takes it, with a check that implies
the action is allowed, is a run. -/
theorem of_checked {check : σ → α → Bool}
    (sound : ∀ state action, check state action = true → allowed state action)
    (ran : actions.foldlM (fun state action => if check state action then step state action
      else none) start = some final) : Run step allowed start actions final := by
  induction actions generalizing start with
  | nil =>
    cases ran
    exact .nil _
  | cons action rest ih =>
    simp only [List.foldlM_cons, Option.bind_eq_bind, Option.bind_eq_some_iff] at ran
    obtain ⟨next, stepped, ran⟩ := ran
    split at stepped
    · next checked => exact .cons (sound start action checked) stepped (ih ran)
    · cases stepped

/-- Forward simulation: a relation that every allowed step keeps, by a step of the other system
on the same action, relates the end of every run to the end of the other system's run. -/
theorem simulate {τ : Type w} {R : σ → τ → Prop} {stepOther : τ → α → Option τ}
    (sim : ∀ {state next : σ} {action : α} {other : τ}, R state other → allowed state action →
      step state action = some next → ∃ other', stepOther other action = some other' ∧ R next other')
    (run : Run step allowed start actions final) {other : τ} (related : R start other) :
    ∃ other', actions.foldlM stepOther other = some other' ∧ R final other' := by
  induction run generalizing other with
  | nil _ => exact ⟨other, rfl, related⟩
  | cons permitted stepped _ ih =>
    obtain ⟨next, steppedOther, relatedNext⟩ := sim related permitted stepped
    obtain ⟨final', ranOther, relatedFinal⟩ := ih relatedNext
    exact ⟨final', by simp [List.foldlM_cons, steppedOther, ranOther], relatedFinal⟩

end Run

/-- A map that commutes with every step maps every run of `foldlM` to a run of the other
system, stopping where it stops. -/
theorem List.foldlM_map_of_commute {τ : Type w} {step : σ → α → Option σ}
    {stepOther : τ → α → Option τ} (f : σ → τ)
    (commute : ∀ state action, (step state action).map f = stepOther (f state) action)
    (actions : List α) (start : σ) :
    (actions.foldlM step start).map f = actions.foldlM stepOther (f start) := by
  induction actions generalizing start with
  | nil => rfl
  | cons action rest ih =>
    rw [List.foldlM_cons, List.foldlM_cons, ← commute]
    cases step start action with
    | none => rfl
    | some next => exact ih next
