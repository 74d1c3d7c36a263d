import Mathlib
import Chronix.Model.Task
import Chronix.ToMathlib.Reachable

/-! # Tid allocation

Every task holds a `TidHandle`, and dropping the handle gives its tid back through
`TidAllocator::dealloc`. Tids are told apart by the allocator alone: `alloc` takes the top of the
recycle stack or else the counter, on two branches that touch different fields. What keeps them
apart is an invariant over the counter, the stack and the live handles together (`Live`): the
live tids are exactly those of `[INITPROC_PID, current)` that are not on the stack, each held
once, and the stack holds each tid once. Every call keeps it, so it holds after every run that
drops each handle once (`reachable_live`); `alloc` then returns a tid nobody holds, and the
`dealloc` of a live tid passes both of its asserts.

The counter is a `usize` that `alloc` increments: it wraps only after `2^64 - INITPROC_PID`
tids are live at once, and the model counts in `ℕ`.
-/

namespace Chronix

namespace TidHandles

/-- The invariant tying the counter, the recycle stack and the live handles together. -/
structure Live (s : TidHandles) : Prop where
  nodup : s.live.Nodup
  mem_live : ∀ tid, tid ∈ s.live ↔
    INITPROC_PID ≤ tid ∧ tid < s.allocator.current ∧ tid ∉ s.allocator.recycled
  recycled_nodup : s.allocator.recycled.Nodup
  mem_recycled : ∀ tid ∈ s.allocator.recycled, INITPROC_PID ≤ tid ∧ tid < s.allocator.current
  first : INITPROC_PID ≤ s.allocator.current

theorem live_new : new.Live where
  nodup := List.nodup_nil
  mem_live tid := by simp [new, TidAllocator.new]
  recycled_nodup := List.nodup_nil
  mem_recycled := by simp [new, TidAllocator.new]
  first := le_refl _

section

variable {s : TidHandles}

/-- The tid `alloc` hands out is at least `INITPROC_PID` and held by no live handle. -/
theorem Live.alloc_fresh (inv : s.Live) :
    INITPROC_PID ≤ s.allocator.alloc.1 ∧ s.allocator.alloc.1 ∉ s.live := by
  unfold TidAllocator.alloc
  split
  · -- the top of the recycle stack: recycled, so not live
    next tid top =>
    have stacked : tid ∈ s.allocator.recycled := List.mem_of_getLast? top
    exact ⟨(inv.mem_recycled tid stacked).1, fun held => ((inv.mem_live tid).mp held).2.2 stacked⟩
  · -- the counter: not below itself, so not live
    exact ⟨inv.first, fun held => (lt_irrefl _ ((inv.mem_live _).mp held).2.1)⟩

/-- `dealloc` of a live tid passes both asserts. -/
theorem Live.dealloc_isSome (inv : s.Live) {tid : ℕ} (held : tid ∈ s.live) :
    (s.allocator.dealloc tid).isSome := by
  obtain ⟨-, below, fresh⟩ := (inv.mem_live tid).mp held
  simp [TidAllocator.dealloc, below, fresh]

/-- `alloc` from the recycle stack: the tid on top becomes live. -/
theorem Live.alloc_recycled (inv : s.Live) {tid : ℕ}
    (top : s.allocator.recycled.getLast? = some tid) :
    (⟨s.allocator.alloc.2, s.live ++ [s.allocator.alloc.1]⟩ : TidHandles).Live := by
  obtain ⟨rest, stack⟩ := List.getLast?_eq_some_iff.mp top
  have picked : s.allocator.alloc = (tid, { s.allocator with recycled := rest }) := by
    simp [TidAllocator.alloc, stack]
  have stackNodup : (rest ++ [tid]).Nodup := stack ▸ inv.recycled_nodup
  have notRest : tid ∉ rest := by simpa using (List.nodup_append.mp stackNodup).2.2 tid
  have bounds := inv.mem_recycled tid (by simp [stack])
  have notLive : tid ∉ s.live := fun held => ((inv.mem_live tid).mp held).2.2 (by simp [stack])
  simp only [picked]
  refine ⟨?_, fun t => ?_, stackNodup.of_append_left, fun t member => ?_, inv.first⟩
  · exact inv.nodup.append (List.nodup_singleton tid) (List.disjoint_singleton.mpr notLive)
  · rw [List.mem_append, inv.mem_live t, stack]
    by_cases same : t = tid
    · subst same
      simp [bounds, notRest]
    · simp [same]
  · exact inv.mem_recycled t (by simp [stack, member])

/-- `alloc` from the counter: the counter becomes live and moves up. -/
theorem Live.alloc_counter (inv : s.Live) (empty : s.allocator.recycled.getLast? = none) :
    (⟨s.allocator.alloc.2, s.live ++ [s.allocator.alloc.1]⟩ : TidHandles).Live := by
  have drained : s.allocator.recycled = [] := List.getLast?_eq_none_iff.mp empty
  have picked : s.allocator.alloc =
      (s.allocator.current, { s.allocator with current := s.allocator.current + 1 }) := by
    simp [TidAllocator.alloc, empty]
  have notLive : s.allocator.current ∉ s.live :=
    fun held => lt_irrefl _ ((inv.mem_live _).mp held).2.1
  simp only [picked]
  refine ⟨?_, fun t => ?_, inv.recycled_nodup, ?_, Nat.le_succ_of_le inv.first⟩
  · exact inv.nodup.append (List.nodup_singleton _) (List.disjoint_singleton.mpr notLive)
  · rw [List.mem_append, inv.mem_live t, drained]
    have := inv.first
    simp only [List.not_mem_nil, not_false_eq_true, and_true, List.mem_singleton]
    omega
  · simp [drained]

/-- Every allowed call keeps the invariant. -/
theorem Live.step (inv : s.Live) {call : TidCall} (allowed : s.Allowed call) {next : TidHandles}
    (stepped : step s call = some next) : next.Live := by
  cases call with
  | alloc =>
    simp only [TidHandles.step, Option.some.injEq] at stepped
    subst stepped
    cases top : s.allocator.recycled.getLast? with
    | some tid => exact inv.alloc_recycled top
    | none => exact inv.alloc_counter top
  | drop tid =>
    -- the tid goes back on the stack and its handle leaves the live list
    obtain ⟨first, below, fresh⟩ := (inv.mem_live tid).mp allowed
    have pushed : s.allocator.dealloc tid =
        some { s.allocator with recycled := s.allocator.recycled ++ [tid] } := by
      simp [TidAllocator.dealloc, below, fresh]
    simp only [TidHandles.step, pushed, Option.map_some, Option.some.injEq] at stepped
    subst stepped
    refine ⟨inv.nodup.erase tid, fun t => ?_, ?_, fun t member => ?_, inv.first⟩
    · rw [inv.nodup.mem_erase_iff, inv.mem_live t]
      simp only [List.mem_append, List.mem_singleton, not_or]
      tauto
    · exact inv.recycled_nodup.append (List.nodup_singleton tid) (List.disjoint_singleton.mpr fresh)
    · rcases List.mem_append.mp member with stacked | pushedTid
      · exact inv.mem_recycled t stacked
      · rw [List.mem_singleton.mp pushedTid]
        exact ⟨first, below⟩

end

/-- The invariant holds after every run from `TidAllocator::new()` that drops each handle
once. -/
theorem reachable_live {s : TidHandles} (reached : Reachable step Allowed new s) : s.Live :=
  reached.invariant Live live_new fun _ _ _ inv allowed stepped => inv.step allowed stepped

/-- After every run from `TidAllocator::new()` in which each handle is dropped once, no tid is
live twice, the live tids are `[INITPROC_PID, current)` without the recycle stack, `alloc`
returns a tid of at least `INITPROC_PID` that no live handle holds, and dropping any live handle
passes both asserts of `dealloc`. -/
theorem tidHandles_unique {s : TidHandles} (reached : Reachable step Allowed new s) :
    s.live.Nodup ∧
      (∀ tid, tid ∈ s.live ↔
        INITPROC_PID ≤ tid ∧ tid < s.allocator.current ∧ tid ∉ s.allocator.recycled) ∧
      (INITPROC_PID ≤ s.allocator.alloc.1 ∧ s.allocator.alloc.1 ∉ s.live) ∧
      ∀ tid ∈ s.live, (s.allocator.dealloc tid).isSome := by
  have inv := reachable_live reached
  exact ⟨inv.nodup, inv.mem_live, inv.alloc_fresh, fun _ held => inv.dealloc_isSome held⟩

/-- Three tids handed out and the second one's handle dropped. -/
def afterDrop : TidHandles := ⟨⟨4, [2]⟩, [1, 3]⟩

theorem tidHandles_unique_afterDrop :
    Reachable step Allowed new afterDrop ∧ afterDrop.live.Nodup ∧
      (∀ tid, tid ∈ afterDrop.live ↔ INITPROC_PID ≤ tid ∧ tid < afterDrop.allocator.current ∧
        tid ∉ afterDrop.allocator.recycled) ∧
      (INITPROC_PID ≤ afterDrop.allocator.alloc.1 ∧ afterDrop.allocator.alloc.1 ∉ afterDrop.live) ∧
      ∀ tid ∈ afterDrop.live, (afterDrop.allocator.dealloc tid).isSome := by
  have one : Reachable step Allowed new ⟨⟨2, []⟩, [1]⟩ :=
    Reachable.start.step TidCall.alloc trivial rfl
  have three : Reachable step Allowed new ⟨⟨4, []⟩, [1, 2, 3]⟩ :=
    (one.step TidCall.alloc trivial rfl).step TidCall.alloc trivial rfl
  have reached : Reachable step Allowed new afterDrop :=
    three.step (TidCall.drop 2) (show 2 ∈ [1, 2, 3] by decide) rfl
  exact ⟨reached, tidHandles_unique reached⟩

end TidHandles

end Chronix
