import Mathlib

/-! # Intrusive linked stacks and chains

An intrusive stack threads its nodes through two pointer fields of the nodes themselves, `last`
and `next`; memory is the function from a node to those fields, and a node outside the stack
may hold anything. `Segment links prev head xs after` says that following `next` from `head`
visits `xs` and then reaches `after`, each node's `last` pointing back to the one before it
(`prev` for the first); `Holds` is a whole stack, with nothing before its first node or after its
last. `push`, `pop` and `remove` keep it and change the fields of the stack's own nodes only, so
stacks over disjoint nodes of one memory leave one another alone.

A `Chain` is the singly linked case, through one `next` field.
-/

universe u

namespace LinkedStack

variable {ι : Type u}

/-- The `last` and `next` fields of a node. -/
structure Links (ι : Type u) where
  last : Option ι
  next : Option ι

/-- Following `next` from `head` visits `xs` and then reaches `after`; each node's `last` points
to the one before it, `prev` for the first. -/
def Segment (links : ι → Links ι) : Option ι → Option ι → List ι → Option ι → Prop
  | _, head, [], after => head = after
  | prev, head, x :: xs, after =>
    head = some x ∧ (links x).last = prev ∧ Segment links (some x) (links x).next xs after

/-- The stack from `head` holds `xs`, top first, each node once. -/
def Holds (links : ι → Links ι) (head : Option ι) (xs : List ι) : Prop :=
  xs.Nodup ∧ Segment links none head xs none

section Segments

variable {links links' : ι → Links ι}

@[simp] theorem segment_nil (prev head after : Option ι) :
    Segment links prev head [] after ↔ head = after := Iff.rfl

@[simp] theorem segment_cons (prev head after : Option ι) (x : ι) (xs : List ι) :
    Segment links prev head (x :: xs) after ↔
      head = some x ∧ (links x).last = prev ∧ Segment links (some x) (links x).next xs after :=
  Iff.rfl

/-- A segment reads the fields of its own nodes only. -/
theorem Segment.congr {prev head after : Option ι} {xs : List ι}
    (segment : Segment links prev head xs after) (same : ∀ x ∈ xs, links' x = links x) :
    Segment links' prev head xs after := by
  induction xs generalizing prev head with
  | nil => exact segment
  | cons x xs ih =>
    obtain ⟨first, back, rest⟩ := segment
    have here := same x List.mem_cons_self
    refine ⟨first, by rw [here, back], ?_⟩
    rw [here]
    exact ih rest fun y member => same y (List.mem_cons_of_mem x member)

/-- A non-empty segment starts at its first node. -/
theorem Segment.head_eq {prev head after : Option ι} {xs : List ι}
    (segment : Segment links prev head xs after) (nonempty : xs ≠ []) : head = xs.head? := by
  cases xs with
  | nil => exact absurd rfl nonempty
  | cons x xs => exact segment.1

/-- A segment splits where its list does. -/
theorem segment_append {prev head after : Option ι} {xs ys : List ι} :
    Segment links prev head (xs ++ ys) after ↔
      ∃ mid, Segment links prev head xs mid ∧
        Segment links (xs.getLast?.or prev) mid ys after := by
  induction xs generalizing prev head with
  | nil => simp
  | cons x xs ih =>
    have lastOf : (x :: xs).getLast?.or prev = xs.getLast?.or (some x) := by
      cases xs <;> simp [List.getLast?_cons]
    simp only [List.cons_append, segment_cons, ih, lastOf]
    constructor
    · rintro ⟨first, back, mid, front, rest⟩
      exact ⟨mid, ⟨first, back, front⟩, rest⟩
    · rintro ⟨mid, ⟨first, back, front⟩, rest⟩
      exact ⟨first, back, mid, front, rest⟩

/-- A stack reads the fields of its own nodes only. -/
theorem Holds.congr {head : Option ι} {xs : List ι} (holds : Holds links head xs)
    (same : ∀ x ∈ xs, links' x = links x) : Holds links' head xs :=
  ⟨holds.1, holds.2.congr same⟩

theorem Holds.head_eq {head : Option ι} {xs : List ι} (holds : Holds links head xs) :
    head = xs.head? := by
  cases xs with
  | nil => exact holds.2
  | cons x xs => exact holds.2.head_eq (List.cons_ne_nil x xs)

end Segments

/-- Following `next` from `head` visits `xs` and then stops: a singly linked list. -/
def Chain (next : ι → Option ι) : Option ι → List ι → Prop
  | head, [] => head = none
  | head, x :: xs => head = some x ∧ Chain next (next x) xs

section Chains

variable {next next' : ι → Option ι}

@[simp] theorem chain_nil (head : Option ι) : Chain next head [] ↔ head = none := Iff.rfl

@[simp] theorem chain_cons (head : Option ι) (x : ι) (xs : List ι) :
    Chain next head (x :: xs) ↔ head = some x ∧ Chain next (next x) xs := Iff.rfl

/-- A chain reads the `next` fields of its own nodes only. -/
theorem Chain.congr {head : Option ι} {xs : List ι} (chain : Chain next head xs)
    (same : ∀ x ∈ xs, next' x = next x) : Chain next' head xs := by
  induction xs generalizing head with
  | nil => exact chain
  | cons x xs ih =>
    obtain ⟨first, rest⟩ := chain
    refine ⟨first, ?_⟩
    rw [same x List.mem_cons_self]
    exact ih rest fun y member => same y (List.mem_cons_of_mem x member)

/-- A chain is empty exactly when its head is null. -/
theorem Chain.head_eq_none_iff {head : Option ι} {xs : List ι} (chain : Chain next head xs) :
    head = none ↔ xs = [] := by
  cases xs with
  | nil => simpa using chain
  | cons x xs => simp [chain.1]

end Chains

variable [DecidableEq ι]

/-- `*node.last() = last`. -/
def setLast (links : ι → Links ι) (node : ι) (last : Option ι) : ι → Links ι :=
  Function.update links node { links node with last }

/-- `*node.next() = next`. -/
def setNext (links : ι → Links ι) (node : ι) (next : Option ι) : ι → Links ι :=
  Function.update links node { links node with next }

/-- `push(val)`: `val` goes on top. -/
def push (links : ι → Links ι) (head : Option ι) (val : ι) : (ι → Links ι) × Option ι :=
  let links := setLast (setNext links val head) val none
  match head with
  | none => (links, some val)
  | some first => (setLast links first (some val), some val)

/-- `pop()`: the top node, unlinked, or `none` on an empty stack. -/
def pop (links : ι → Links ι) (head : Option ι) : Option ι × (ι → Links ι) × Option ι :=
  match head with
  | none => (none, links, none)
  | some top =>
    let head := (links top).next
    let links := match head with
      | none => links
      | some first => setLast links first none
    (some top, setNext (setLast links top none) top none, head)

/-- `remove(t)`: unlink `t` from anywhere in the stack; `none` where an `assert!` fails. -/
def remove (links : ι → Links ι) (head : Option ι) (t : ι) :
    Option ((ι → Links ι) × Option ι) :=
  let unlinked (links : ι → Links ι) := setNext (setLast links t none) t none
  match (links t).last with
  | none =>
    if head = some t then
      let head := (links t).next
      match head with
      | none => some (unlinked links, head)
      | some first => some (unlinked (setLast links first none), head)
    else none
  | some last =>
    if head = some t then none
    else
      let links := setNext links last (links t).next
      match (links t).next with
      | none => some (unlinked links, head)
      | some next => some (unlinked (setLast links next (links t).last), head)

section Fields

variable {links : ι → Links ι} {node other : ι}

@[simp] theorem setLast_self (last : Option ι) :
    setLast links node last node = { links node with last } := by
  simp [setLast]

@[simp] theorem setLast_of_ne (last : Option ι) (apart : other ≠ node) :
    setLast links node last other = links other := by
  simp [setLast, apart]

@[simp] theorem setNext_self (next : Option ι) :
    setNext links node next node = { links node with next } := by
  simp [setNext]

@[simp] theorem setNext_of_ne (next : Option ι) (apart : other ≠ node) :
    setNext links node next other = links other := by
  simp [setNext, apart]

end Fields

section Relink

variable {links : ι → Links ι}

/-- Pointing the first node's `last` elsewhere moves the start of the segment. -/
theorem Segment.setLast_first {prev after : Option ι} {x : ι} {xs : List ι}
    (segment : Segment links prev (some x) (x :: xs) after) (fresh : x ∉ xs)
    (prev' : Option ι) : Segment (setLast links x prev') prev' (some x) (x :: xs) after := by
  obtain ⟨-, -, rest⟩ := segment
  refine ⟨rfl, by simp, ?_⟩
  simp only [setLast_self]
  exact rest.congr fun y member => setLast_of_ne _ fun same => fresh (same ▸ member)

/-- Pointing the last node's `next` elsewhere moves the end of the segment. -/
theorem Segment.setNext_last {prev head after : Option ι} {xs : List ι} {x : ι}
    (segment : Segment links prev head (xs ++ [x]) after) (fresh : x ∉ xs) (after' : Option ι) :
    Segment (setNext links x after') prev head (xs ++ [x]) after' := by
  obtain ⟨mid, front, last⟩ := segment_append.mp segment
  obtain ⟨first, back, -⟩ := last
  refine segment_append.mpr ⟨mid, front.congr fun y member => ?_, first, by simpa using back, ?_⟩
  · exact setNext_of_ne _ fun same => fresh (same ▸ member)
  · simp

end Relink

section Operations

variable {links : ι → Links ι} {head : Option ι}

/-- `push` of a node from outside puts it on top and changes the fields of the stack's nodes only. -/
theorem Holds.push {xs : List ι} (holds : Holds links head xs) {val : ι} (fresh : val ∉ xs) :
    ∃ links', LinkedStack.push links head val = (links', some val) ∧
      Holds links' (some val) (val :: xs) ∧ ∀ y ∉ val :: xs, links' y = links y := by
  suffices pushed : (LinkedStack.push links head val).2 = some val ∧
      Holds (LinkedStack.push links head val).1 (some val) (val :: xs) ∧
      ∀ y ∉ val :: xs, (LinkedStack.push links head val).1 y = links y from
    ⟨_, Prod.ext rfl pushed.1, pushed.2⟩
  obtain ⟨nodup, segment⟩ := holds
  cases xs with
  | nil =>
    simp only [segment_nil] at segment
    subst segment
    refine ⟨rfl, ⟨List.nodup_singleton val, by simp [LinkedStack.push]⟩, fun y outside => ?_⟩
    have apart : y ≠ val := by simpa using outside
    simp [LinkedStack.push, apart]
  | cons x xs =>
    obtain ⟨rfl, back, rest⟩ := segment
    have apart : x ≠ val := fun same => fresh (same ▸ List.mem_cons_self)
    have others : ∀ y ∈ xs, y ≠ x ∧ y ≠ val := fun y member =>
      ⟨fun same => (List.nodup_cons.mp nodup).1 (same ▸ member),
        fun same => fresh (same ▸ List.mem_cons_of_mem x member)⟩
    refine ⟨rfl, ⟨List.nodup_cons.mpr ⟨fresh, nodup⟩, ?_⟩, fun y outside => ?_⟩
    · refine ⟨rfl, by simp [LinkedStack.push, apart.symm], by simp [LinkedStack.push, apart.symm],
        by simp [LinkedStack.push], ?_⟩
      simp only [LinkedStack.push, setLast_self, setLast_of_ne _ apart, setNext_of_ne _ apart]
      exact rest.congr fun y member => by simp [(others y member).1, (others y member).2]
    · simp only [List.mem_cons, not_or] at outside
      simp [LinkedStack.push, outside.1, outside.2.1]

/-- `pop` of a stack takes its top node and changes the fields of the stack's nodes only. -/
theorem Holds.pop {x : ι} {xs : List ι} (holds : Holds links head (x :: xs)) :
    ∃ links' head', LinkedStack.pop links head = (some x, links', head') ∧
      Holds links' head' xs ∧ ∀ y ∉ x :: xs, links' y = links y := by
  suffices popped : (LinkedStack.pop links head).1 = some x ∧
      Holds (LinkedStack.pop links head).2.1 (LinkedStack.pop links head).2.2 xs ∧
      ∀ y ∉ x :: xs, (LinkedStack.pop links head).2.1 y = links y from
    ⟨_, _, Prod.ext popped.1 rfl, popped.2⟩
  obtain ⟨nodup, rfl, -, rest⟩ := holds
  have fresh := (List.nodup_cons.mp nodup).1
  cases xs with
  | nil =>
    simp only [segment_nil] at rest
    refine ⟨rfl, ⟨List.nodup_nil, by simp [LinkedStack.pop, rest]⟩, fun y outside => ?_⟩
    have apart : y ≠ x := by simpa using outside
    simp [LinkedStack.pop, rest, apart]
  | cons y ys =>
    obtain ⟨first, -, tail⟩ := rest
    have apart : y ≠ x := fun same => fresh (same ▸ List.mem_cons_self)
    have others : ∀ z ∈ ys, z ≠ x ∧ z ≠ y := fun z member =>
      ⟨fun same => fresh (same ▸ List.mem_cons_of_mem y member),
        fun same => (List.nodup_cons.mp (List.nodup_cons.mp nodup).2).1 (same ▸ member)⟩
    refine ⟨rfl, ⟨(List.nodup_cons.mp nodup).2, ?_⟩, fun z outside => ?_⟩
    · simp only [LinkedStack.pop, first]
      refine ⟨rfl, by simp [apart], ?_⟩
      simp only [setNext_of_ne _ apart, setLast_of_ne _ apart, setLast_self]
      exact tail.congr fun z member => by simp [(others z member).1, (others z member).2]
    · simp only [List.mem_cons, not_or] at outside
      simp [LinkedStack.pop, first, outside.1, outside.2.1]

/-- `pop` of an empty stack returns nothing and changes nothing. -/
theorem Holds.pop_nil (holds : Holds links head []) :
    LinkedStack.pop links head = (none, links, none) := by
  obtain ⟨-, empty⟩ := holds
  simp only [segment_nil] at empty
  simp [LinkedStack.pop, empty]

/-- `remove` of a node of the stack passes its asserts, unlinks it, and changes the fields of
the stack's nodes only. -/
theorem Holds.remove {xs : List ι} (holds : Holds links head xs) {t : ι} (member : t ∈ xs) :
    ∃ links' head', LinkedStack.remove links head t = some (links', head') ∧
      Holds links' head' (xs.erase t) ∧ ∀ y ∉ xs, links' y = links y := by
  obtain ⟨nodup, segment⟩ := holds
  obtain ⟨before, after, rfl⟩ := List.append_of_mem member
  have distinct := List.nodup_middle.mp nodup
  have notBefore : t ∉ before := (List.nodup_cons.mp distinct).1 ∘ List.mem_append_left after
  have notAfter : t ∉ after := (List.nodup_cons.mp distinct).1 ∘ List.mem_append_right before
  have remaining : (before ++ after).Nodup := (List.nodup_cons.mp distinct).2
  rw [List.erase_append_right _ notBefore, List.erase_cons_head]
  obtain ⟨mid, front, rfl, back, rest⟩ := segment_append.mp segment
  -- `t`'s own fields are cleared last and read by no one afterwards
  have cleared : ∀ (links' : ι → Links ι) y, y ≠ t →
      setNext (setLast links' t none) t none y = links' y := fun links' y apart => by
    simp [apart]
  cases before using List.reverseRecOn with
  | nil =>
    -- `t` is on top: its `last` is null and the head moves down
    simp only [segment_nil] at front
    subst front
    simp only [List.getLast?_nil, Option.or_none] at back
    cases after with
    | nil =>
      simp only [segment_nil] at rest
      refine ⟨setNext (setLast links t none) t none, none,
        by simp [LinkedStack.remove, back, rest], ⟨List.nodup_nil, rfl⟩, ?_⟩
      intro y outside
      exact cleared links y (by simpa using outside)
    | cons next after =>
      obtain ⟨first, backNext, tail⟩ := rest
      refine ⟨setNext (setLast (setLast links next none) t none) t none, some next,
        by simp [LinkedStack.remove, back, first], ⟨remaining, ?_⟩, ?_⟩
      · refine (Segment.setLast_first ⟨rfl, backNext, tail⟩ ?_ none).congr fun y member => ?_
        · exact (List.nodup_cons.mp (by simpa using remaining)).1
        · exact cleared _ y fun same => notAfter (same ▸ member)
      · intro y outside
        simp only [List.nil_append, List.mem_cons, not_or] at outside
        rw [cleared _ y outside.1, setLast_of_ne _ outside.2.1]
  | append_singleton before last _ =>
    -- `t` has a node above it, `last`, whose `next` now skips `t`
    have frontNodup : (before ++ [last]).Nodup := (List.nodup_append.mp remaining).1
    have lastFresh : last ∉ before := by
      simp only [List.nodup_append, List.nodup_cons, List.nodup_nil] at frontNodup
      exact fun member => frontNodup.2.2 last member last (by simp) rfl
    have tLast : t ≠ last := fun same => notBefore (by simp [same])
    have headNe : head ≠ some t := by
      rw [front.head_eq (by simp)]
      intro first
      exact notBefore (List.mem_of_mem_head? first)
    simp only [List.getLast?_append, List.getLast?_singleton, Option.some_or] at back
    cases after with
    | nil =>
      simp only [segment_nil] at rest
      refine ⟨setNext (setLast (setNext links last none) t none) t none, head,
        by simp [LinkedStack.remove, back, headNe, rest, tLast], ⟨?_, ?_⟩, ?_⟩
      · simpa using frontNodup
      · rw [List.append_nil]
        exact (front.setNext_last lastFresh none).congr fun y member =>
          cleared _ y fun same => notBefore (same ▸ member)
      · intro y outside
        simp only [List.mem_append, List.mem_singleton, not_or] at outside
        rw [cleared _ y outside.2, setNext_of_ne _ outside.1.2]
    | cons next after =>
      obtain ⟨first, backNext, tail⟩ := rest
      have nextFresh : next ∉ before ++ [last] := fun member =>
        (List.nodup_append.mp remaining).2.2 next member next List.mem_cons_self rfl
      have nextNe : next ≠ last := fun same => nextFresh (by simp [same])
      have tNext : t ≠ next := fun same => notAfter (same ▸ List.mem_cons_self)
      refine ⟨setNext (setLast (setLast (setNext links last (some next)) next (some last)) t none)
        t none, head, by simp [LinkedStack.remove, back, headNe, first, tLast],
        ⟨remaining, segment_append.mpr ⟨some next, ?_, ?_⟩⟩, ?_⟩
      · refine (front.setNext_last lastFresh (some next)).congr fun y member => ?_
        have apart : y ≠ t := fun same => notBefore (same ▸ member)
        have apartNext : y ≠ next := fun same => nextFresh (same ▸ member)
        simp [apart, apartNext]
      · simp only [List.getLast?_append, List.getLast?_singleton, Option.some_or]
        have afterNodup := (List.nodup_append.mp remaining).2.1
        refine (Segment.setLast_first ⟨rfl, backNext, tail⟩ (List.nodup_cons.mp afterNodup).1
          (some last)).congr fun y member => ?_
        have apart : y ≠ t := fun same => notAfter (same ▸ member)
        have apartLast : y ≠ last := fun same =>
          (List.nodup_append.mp remaining).2.2 last (by simp) y member same.symm
        by_cases here : y = next
        · subst here; simp [apart, nextNe]
        · simp [apart, here, apartLast]
      · intro y outside
        simp only [List.mem_append, List.mem_cons, not_or] at outside
        simp [outside.1.2, outside.2.1, outside.2.2.1]

/-- Moving node `t`, already taken off one stack (by `pop` or `remove`), onto another with
`push` keeps both, and a third stack over other nodes. -/
theorem Holds.move {h₂ h₃ h₁' : Option ι} {xs ys zs : List ι} {t : ι}
    (target : Holds links h₂ ys) (other : Holds links h₃ zs) (nodup : (xs ++ ys ++ zs).Nodup)
    (member : t ∈ xs) {links₁ : ι → Links ι} (taken : Holds links₁ h₁' (xs.erase t))
    (frame : ∀ y ∉ xs, links₁ y = links y) :
    ∃ links₂, LinkedStack.push links₁ h₂ t = (links₂, some t) ∧ Holds links₂ h₁' (xs.erase t) ∧
      Holds links₂ (some t) (t :: ys) ∧ Holds links₂ h₃ zs := by
  have disjoint := List.nodup_append.mp (List.nodup_append.mp nodup).1
  have disjoint' := List.nodup_append.mp nodup
  have notXs : ∀ y ∈ ys, y ∉ xs := fun y member' inXs => disjoint.2.2 y inXs y member' rfl
  have notXsYs : ∀ z ∈ zs, z ∉ xs ++ ys := fun z member' inBoth =>
    disjoint'.2.2 z inBoth z member' rfl
  have fresh : t ∉ ys := fun inYs => notXs t inYs member
  obtain ⟨links₂, pushed, holds, frame₂⟩ :=
    (target.congr fun y inYs => frame y (notXs y inYs)).push fresh
  refine ⟨links₂, pushed, taken.congr fun y inRest => frame₂ y ?_, holds, ?_⟩
  · simp only [List.mem_cons, not_or]
    refine ⟨fun same => ?_, fun inYs => notXs y inYs (List.mem_of_mem_erase inRest)⟩
    exact (List.Nodup.not_mem_erase disjoint.1) (same ▸ inRest)
  · refine other.congr fun z inZs => ?_
    have outside := notXsYs z inZs
    simp only [List.mem_append, not_or] at outside
    rw [frame₂ z (by simp only [List.mem_cons, not_or]; exact ⟨fun same => outside.1
      (same ▸ member), outside.2⟩), frame z outside.1]

end Operations

section ChainOperations

variable {next : ι → Option ι} {head : Option ι}

/-- Pushing a node from outside on a chain: `node.next = head; head = node`. -/
theorem Chain.push {xs : List ι} (chain : Chain next head xs) {x : ι} (fresh : x ∉ xs) :
    Chain (Function.update next x head) (some x) (x :: xs) := by
  refine ⟨rfl, ?_⟩
  rw [Function.update_self]
  exact chain.congr fun y member =>
    Function.update_of_ne (fun same : y = x => fresh (same ▸ member)) _ _

/-- Taking the first node of a chain: `head = head.next; node.next = null`. -/
theorem Chain.pop {x : ι} {xs : List ι} (chain : Chain next head (x :: xs)) (fresh : x ∉ xs) :
    Chain (Function.update next x none) (next x) xs :=
  chain.2.congr fun y member =>
    Function.update_of_ne (fun same : y = x => fresh (same ▸ member)) _ _

end ChainOperations

end LinkedStack
