import Mathlib
import Chronix.Model.SegmentTree

/-! # The segment tree holds a set of points

The abstraction of a node is the `Finset` of points it holds inside its range (`denote`): all of
them when `Full`, none when `Empty`, and what its two children hold when `Half`. `Wf` is the
shape `operation` keeps: childless `Full` and `Empty` nodes on ordered ranges, and `Half` nodes
with both children on ranges of at least two points, whose children's statuses combine to
`Half`. From it:

* `Wf.operation`: `operation` keeps `Wf` and updates the held points by
  `RangeSetOperation.update`;
* `Wf.intersect`: `intersect` counts the held points of the query and finds every child it
  unwraps;
* `Wf.status_exact`: on a non-empty range a well-formed node is `Full` or `Empty` exactly when
  it holds all or none of the range.

`RangeSet` then refines a set of points of its root range under any sequence of `insert` and
`remove`. ℕ stands for the kernel's `usize` (`FileReader` keeps a `RangeSet<usize>` of page
numbers): ℕ's subtraction truncates where `usize`'s wraps, and the two agree wherever the code's
does not wrap, which is in `mid` on every range of a tree with an ordered root, and in
`intersect` for queries inside the root range. The results below are stated for those.
-/

namespace Chronix

/-! ## Points of a range -/

namespace Range

/-- The points of a range of naturals. -/
def points (range : Range ℕ) : Finset ℕ := Finset.Ico range.start range.end

@[simp] theorem mem_points {range : Range ℕ} {point : ℕ} :
    point ∈ range.points ↔ range.start ≤ point ∧ point < range.end :=
  Finset.mem_Ico

theorem card_points (range : Range ℕ) : range.points.card = range.end - range.start :=
  Nat.card_Ico _ _

theorem points_eq_empty_iff {range : Range ℕ} : range.points = ∅ ↔ ¬ range.start < range.end :=
  Finset.Ico_eq_empty_iff

theorem points_inter_points (a b : Range ℕ) :
    a.points ∩ b.points = (⟨max a.start b.start, min a.end b.end⟩ : Range ℕ).points :=
  Finset.Ico_inter_Ico

/-- Ranges that do not meet share no point. -/
theorem points_inter_eq_empty {a b : Range ℕ} (apart : ¬ (b.start < a.end ∧ a.start < b.end)) :
    a.points ∩ b.points = ∅ := by
  ext point
  simp only [Finset.mem_inter, mem_points, Finset.notMem_empty, iff_false]
  omega

end Range

/-! ## What an operation does to a set of points -/

namespace RangeSetOperation

/-- The effect of `op` on the points held: `Fill` adds `points`, `Clear` takes them away. -/
def update : RangeSetOperation → Finset ℕ → Finset ℕ → Finset ℕ
  | .fill, held, points => held ∪ points
  | .clear, held, points => held \ points

@[simp] theorem update_empty (op : RangeSetOperation) (held : Finset ℕ) :
    op.update held ∅ = held := by
  cases op <;> simp [update]

/-- Updating what two disjoint parts hold, each with its share of `points`, is updating what
they hold together. -/
theorem update_union (op : RangeSetOperation) {left right lower upper points : Finset ℕ}
    (inLower : left ⊆ lower) (inUpper : right ⊆ upper) (apart : Disjoint lower upper) :
    op.update left (points ∩ lower) ∪ op.update right (points ∩ upper) =
      op.update (left ∪ right) (points ∩ (lower ∪ upper)) := by
  cases op with
  | fill =>
    simp only [update, Finset.inter_union_distrib_left]
    ac_rfl
  | clear =>
    ext point
    have apartAt : point ∈ lower → point ∉ upper := fun inLowerAt =>
      Finset.disjoint_left.mp apart inLowerAt
    have lowerAt := @inLower point
    have upperAt := @inUpper point
    simp only [update, Finset.mem_union, Finset.mem_sdiff, Finset.mem_inter] at apartAt ⊢
    tauto

end RangeSetOperation

namespace RangeSetNodeStatus

@[simp] theorem combine_self (status : RangeSetNodeStatus) : status.combine status = status := by
  simp [combine]

/-- Children whose statuses do not combine to `Half` both have the combined status. -/
theorem eq_combine_of_ne_half {status other : RangeSetNodeStatus}
    (settled : status.combine other ≠ .half) :
    status = status.combine other ∧ other = status.combine other := by
  unfold combine at *
  split_ifs at * with differ
  · exact absurd rfl settled
  · exact ⟨not_not.mp differ, rfl⟩

theorem apply_ne_half (status : RangeSetNodeStatus) (op : RangeSetOperation) :
    status.apply op ≠ .half := by
  cases op <;> simp [apply]

end RangeSetNodeStatus

namespace RangeSetNode

/-! ## The abstraction and the shape invariant -/

theorem mid_bounds {range : Range ℕ} (ordered : range.start ≤ range.end) :
    range.start ≤ mid range ∧ mid range ≤ range.end := by
  simp only [mid]
  omega

theorem points_halves {range : Range ℕ} (ordered : range.start ≤ range.end) :
    (⟨range.start, mid range⟩ : Range ℕ).points ∪ (⟨mid range, range.end⟩ : Range ℕ).points =
      range.points :=
  Finset.Ico_union_Ico_eq_Ico (mid_bounds ordered).1 (mid_bounds ordered).2

theorem lower_subset {range : Range ℕ} (ordered : range.start ≤ range.end) :
    (⟨range.start, mid range⟩ : Range ℕ).points ⊆ range.points :=
  points_halves ordered ▸ Finset.subset_union_left

theorem upper_subset {range : Range ℕ} (ordered : range.start ≤ range.end) :
    (⟨mid range, range.end⟩ : Range ℕ).points ⊆ range.points :=
  points_halves ordered ▸ Finset.subset_union_right

theorem disjoint_halves (range : Range ℕ) :
    Disjoint (⟨range.start, mid range⟩ : Range ℕ).points (⟨mid range, range.end⟩ : Range ℕ).points :=
  Finset.Ico_disjoint_Ico_consecutive _ _ _

/-- The points a node holds inside `range`: all of them when `Full`, none when `Empty`, and what
its children hold in their halves when `Half`. -/
def denote : RangeSetNode → Range ℕ → Finset ℕ
  | ⟨_, _, .full⟩, range => range.points
  | ⟨_, _, .empty⟩, _ => ∅
  | ⟨left, right, .half⟩, range =>
    (match left with
      | some child => child.denote ⟨range.start, mid range⟩
      | none => ∅) ∪
    (match right with
      | some child => child.denote ⟨mid range, range.end⟩
      | none => ∅)

theorem denote_of_full {node : RangeSetNode} (full : node.status = .full) (range : Range ℕ) :
    node.denote range = range.points := by
  obtain ⟨left, right, status⟩ := node
  subst full
  rfl

theorem denote_of_empty {node : RangeSetNode} (empty : node.status = .empty) (range : Range ℕ) :
    node.denote range = ∅ := by
  obtain ⟨left, right, status⟩ := node
  subst empty
  rfl

/-- The shape `operation` keeps. A leaf is `Full` or `Empty` on an ordered range; a `Half` node
has both children, on a range of at least two points so that both halves are non-empty, and its
children's statuses combine to `Half`. -/
inductive Wf : RangeSetNode → Range ℕ → Prop
  | leaf {status : RangeSetNodeStatus} {range : Range ℕ} (settled : status ≠ .half)
      (ordered : range.start ≤ range.end) : Wf ⟨none, none, status⟩ range
  | half {left right : RangeSetNode} {range : Range ℕ} (wide : range.start + 2 ≤ range.end)
      (mixed : left.status.combine right.status = .half)
      (leftWf : Wf left ⟨range.start, mid range⟩) (rightWf : Wf right ⟨mid range, range.end⟩) :
      Wf ⟨some left, some right, .half⟩ range

namespace Wf

variable {node : RangeSetNode} {range : Range ℕ}

theorem ordered (wf : node.Wf range) : range.start ≤ range.end := by
  cases wf with
  | leaf _ ordered => exact ordered
  | half wide _ _ _ => omega

theorem denote_subset (wf : node.Wf range) : node.denote range ⊆ range.points := by
  induction wf with
  | @leaf status range settled _ =>
    cases status with
    | empty => exact Finset.empty_subset _
    | full => exact subset_rfl
    | half => exact absurd rfl settled
  | @half left right range wide _ _ _ leftIh rightIh =>
    rw [← points_halves (by omega : range.start ≤ range.end)]
    exact Finset.union_subset_union leftIh rightIh

/-- The children `operation` works on: the node's own, or for a leaf two copies of it, which
hold between them what the node holds. -/
theorem children (wf : node.Wf range) :
    (node.left.getD (new node.status)).Wf ⟨range.start, mid range⟩ ∧
      (node.right.getD (new node.status)).Wf ⟨mid range, range.end⟩ ∧
      node.denote range =
        (node.left.getD (new node.status)).denote ⟨range.start, mid range⟩ ∪
          (node.right.getD (new node.status)).denote ⟨mid range, range.end⟩ := by
  cases wf with
  | @leaf status range settled ordered =>
    refine ⟨.leaf settled (mid_bounds ordered).1, .leaf settled (mid_bounds ordered).2, ?_⟩
    cases status with
    | empty => simp [denote, new]
    | full => exact (points_halves ordered).symm
    | half => exact absurd rfl settled
  | half _ _ leftWf rightWf => exact ⟨leftWf, rightWf, rfl⟩

end Wf

/-! ## `operation` -/

/-- A child as `operation` leaves it: operated on when `opRange` meets the child's range. -/
def visit (child : RangeSetNode) (childRange opRange : Range ℕ) (op : RangeSetOperation) :
    RangeSetNode :=
  if childRange.start < opRange.end ∧ opRange.start < childRange.end then
    child.operation childRange opRange op
  else child

/-- The node `operation` builds from its two updated children: childless when their statuses
agree, and `Half` with both of them otherwise. -/
def collapse (left right : RangeSetNode) : RangeSetNode :=
  if left.status.combine right.status ≠ .half then ⟨none, none, left.status.combine right.status⟩
  else ⟨some left, some right, left.status.combine right.status⟩

section Operation

variable {opRange : Range ℕ} {op : RangeSetOperation}

theorem operation_of_covered {node : RangeSetNode} {range : Range ℕ}
    (covered : opRange.start ≤ range.start ∧ range.end ≤ opRange.end) :
    node.operation range opRange op = ⟨none, none, node.status.apply op⟩ := by
  rw [operation, dif_pos covered]

theorem operation_of_not_covered {node : RangeSetNode} {range : Range ℕ}
    (uncovered : ¬ (opRange.start ≤ range.start ∧ range.end ≤ opRange.end)) :
    node.operation range opRange op =
      collapse (visit (node.left.getD (new node.status)) ⟨range.start, mid range⟩ opRange op)
        (visit (node.right.getD (new node.status)) ⟨mid range, range.end⟩ opRange op) := by
  rw [operation, dif_neg uncovered]
  rfl

/-- `after` is what `op` on `opRange` should make of `before` at `range`: well formed, and
holding the points of `before` updated on the part of `opRange` inside `range`. -/
structure Updates (op : RangeSetOperation) (opRange range : Range ℕ)
    (before after : RangeSetNode) : Prop where
  wf : after.Wf range
  denote_eq : after.denote range = op.update (before.denote range) (opRange.points ∩ range.points)

theorem visit_updates {child : RangeSetNode} {childRange : Range ℕ} (childWf : child.Wf childRange)
    (recurse : childRange.start < opRange.end ∧ opRange.start < childRange.end →
      Updates op opRange childRange child (child.operation childRange opRange op)) :
    Updates op opRange childRange child (visit child childRange opRange op) := by
  unfold visit
  split_ifs with meets
  · exact recurse meets
  · -- a child the operated range misses keeps its points
    refine ⟨childWf, ?_⟩
    rw [Range.points_inter_eq_empty meets, RangeSetOperation.update_empty]

/-- The last step of `operation`: the node built from two well-formed children holds what they
hold, and is well formed when a `Half` result has room for two children. -/
theorem collapse_spec {left right : RangeSetNode} {range : Range ℕ}
    (leftWf : left.Wf ⟨range.start, mid range⟩) (rightWf : right.Wf ⟨mid range, range.end⟩)
    (ordered : range.start ≤ range.end)
    (room : left.status.combine right.status = .half → range.start + 2 ≤ range.end) :
    (collapse left right).Wf range ∧
      (collapse left right).denote range =
        left.denote ⟨range.start, mid range⟩ ∪ right.denote ⟨mid range, range.end⟩ := by
  unfold collapse
  split_ifs with settled
  · refine ⟨.leaf settled ordered, ?_⟩
    obtain ⟨sameLeft, sameRight⟩ := RangeSetNodeStatus.eq_combine_of_ne_half settled
    -- both children have the collapsed status, so they hold all of their halves or none
    generalize left.status.combine right.status = status at settled sameLeft sameRight
    cases status with
    | full =>
      rw [denote_of_full sameLeft, denote_of_full sameRight, points_halves ordered]
      rfl
    | empty =>
      rw [denote_of_empty sameLeft, denote_of_empty sameRight, Finset.empty_union]
      rfl
    | half => exact absurd rfl settled
  · have mixed := not_not.mp settled
    rw [mixed]
    exact ⟨.half (room mixed) mixed leftWf rightWf, rfl⟩

/-- `operation` keeps the shape invariant and applies `op` to the points of `opRange` inside the
node's range. The induction is on the length of the range, as `operation`'s recursion is. -/
theorem Wf.operation {node : RangeSetNode} {range : Range ℕ} (wf : node.Wf range) :
    Updates op opRange range node (node.operation range opRange op) := by
  induction hLength : range.end - range.start using Nat.strong_induction_on
    generalizing node range with
  | _ length ih =>
  have ordered := wf.ordered
  by_cases covered : opRange.start ≤ range.start ∧ range.end ≤ opRange.end
  · rw [operation_of_covered covered]
    refine ⟨.leaf (RangeSetNodeStatus.apply_ne_half _ _) ordered, ?_⟩
    have inside : opRange.points ∩ range.points = range.points :=
      Finset.inter_eq_right.mpr (Finset.Ico_subset_Ico covered.1 covered.2)
    rw [inside]
    cases op with
    | fill => exact (Finset.union_eq_right.mpr wf.denote_subset).symm
    | clear => exact (Finset.sdiff_eq_empty_iff_subset.mpr wf.denote_subset).symm
  · rw [operation_of_not_covered covered]
    obtain ⟨leftWf, rightWf, split⟩ := wf.children
    -- a visited child lies strictly inside the uncovered range, so its range is shorter
    have left := visit_updates leftWf fun meets =>
      ih _ (by simp only [mid] at meets ⊢; omega) leftWf rfl
    have right := visit_updates rightWf fun meets =>
      ih _ (by simp only [mid] at meets ⊢; omega) rightWf rfl
    -- a `Half` result needs two points: on a shorter range neither child is visited, and both
    -- are copies of the childless node
    have room : (visit (node.left.getD (new node.status)) ⟨range.start, mid range⟩ opRange op).status.combine
        (visit (node.right.getD (new node.status)) ⟨mid range, range.end⟩ opRange op).status =
          .half → range.start + 2 ≤ range.end := by
      intro mixed
      by_contra short
      have skipLeft : ¬ (range.start < opRange.end ∧ opRange.start < mid range) := by
        simp only [mid]
        omega
      have skipRight : ¬ (mid range < opRange.end ∧ opRange.start < range.end) := by
        simp only [mid]
        omega
      cases wf with
      | leaf settled _ =>
        simp only [visit, if_neg skipLeft, if_neg skipRight, Option.getD_none, new,
          RangeSetNodeStatus.combine_self] at mixed
        exact settled mixed
      | half wide _ _ _ => exact short wide
    obtain ⟨collapsedWf, collapsedDenote⟩ := collapse_spec left.wf right.wf ordered room
    refine ⟨collapsedWf, ?_⟩
    rw [collapsedDenote, left.denote_eq, right.denote_eq,
      RangeSetOperation.update_union op leftWf.denote_subset rightWf.denote_subset
        (disjoint_halves range),
      points_halves ordered, split]

end Operation

/-! ## Termination of `operation` -/

/-- A call of `operation` is on a strictly shorter range. A half as long as its parent is the
upper half of a unit range, and `opRange` meets that half only by covering the parent. -/
theorem OperationCall.shorter {opRange range child : Range ℕ}
    (call : OperationCall opRange range child) :
    child.end - child.start < range.end - range.start := by
  obtain ⟨uncovered, ⟨_, below, rfl⟩ | ⟨above, _, rfl⟩⟩ := call
  · simp only [mid] at below ⊢
    omega
  · simp only [mid] at uncovered above ⊢
    omega

/-- `operation` terminates: every call it makes is on a shorter range, so no chain of calls is
infinite. -/
theorem operation_calls_terminate (opRange : Range ℕ) :
    (∀ range child, OperationCall opRange range child →
      child.end - child.start < range.end - range.start) ∧
    WellFounded fun child range => OperationCall opRange range child :=
  ⟨fun _ _ call => call.shorter,
    Subrelation.wf (fun call => call.shorter) (measure fun range : Range ℕ => range.end - range.start).wf⟩

/-! ## `intersect` and the statuses -/

/-- What a `Half` node holds in one half is what it holds in all, restricted to that half. -/
theorem inter_lower_of_split {lower upper left right : Finset ℕ} (inLower : left ⊆ lower)
    (inUpper : right ⊆ upper) (apart : Disjoint lower upper) : (left ∪ right) ∩ lower = left := by
  rw [Finset.union_inter_distrib_right, Finset.inter_eq_left.mpr inLower,
    Finset.disjoint_iff_inter_eq_empty.mp (Finset.disjoint_of_subset_left inUpper apart.symm),
    Finset.union_empty]

/-- `intersect` at a `Half` node with both children: the count of each side it visits. -/
theorem intersect_half (left right : RangeSetNode) (range query : Range ℕ) :
    intersect ⟨some left, some right, .half⟩ range query =
      (if range.start < query.end ∧ query.start < mid range then
          left.intersect ⟨range.start, mid range⟩ query
        else some 0).bind fun leftCount =>
      (if mid range < query.end ∧ query.start < range.end then
          right.intersect ⟨mid range, range.end⟩ query
        else some 0).bind fun rightCount => some (leftCount + rightCount) := by
  simp only [intersect]
  split_ifs <;> rfl

namespace Wf

variable {node : RangeSetNode} {range : Range ℕ}

/-- One side of a `Half` node counts the held points of the query in its half, whether
`intersect` visits it or not. -/
theorem side_count {child : RangeSetNode} {childRange : Range ℕ} (childWf : child.Wf childRange)
    (query : Range ℕ)
    (visited : childRange.start < query.end ∧ query.start < childRange.end →
      child.intersect childRange query = some (child.denote childRange ∩ query.points).card) :
    (if childRange.start < query.end ∧ query.start < childRange.end then
        child.intersect childRange query
      else some 0) = some (child.denote childRange ∩ query.points).card := by
  split_ifs with meets
  · exact visited meets
  · have missed : childRange.points ∩ query.points = ∅ :=
      Range.points_inter_eq_empty fun ⟨before, after⟩ => meets ⟨after, before⟩
    have none : child.denote childRange ∩ query.points = ∅ := Finset.subset_empty.mp
      (missed ▸ Finset.inter_subset_inter childWf.denote_subset subset_rfl)
    rw [none]
    rfl

/-- `intersect` returns the number of held points of the query, and never meets a missing
child. -/
theorem intersect (wf : node.Wf range) (query : Range ℕ) :
    node.intersect range query = some (node.denote range ∩ query.points).card := by
  induction wf with
  | @leaf status range settled _ =>
    cases status with
    | full =>
      rw [RangeSetNode.intersect, denote, Range.points_inter_points, Range.card_points]
    | empty => rfl
    | half => exact absurd rfl settled
  | @half left right range wide _ leftWf rightWf leftIh rightIh =>
    have leftCount := side_count leftWf query fun _ => leftIh
    have rightCount := side_count rightWf query fun _ => rightIh
    have apart : Disjoint (left.denote ⟨range.start, mid range⟩ ∩ query.points)
        (right.denote ⟨mid range, range.end⟩ ∩ query.points) :=
      Finset.disjoint_of_subset_left Finset.inter_subset_left
        (Finset.disjoint_of_subset_right Finset.inter_subset_left
          (Finset.disjoint_of_subset_left leftWf.denote_subset
            (Finset.disjoint_of_subset_right rightWf.denote_subset (disjoint_halves range))))
    have split : (⟨some left, some right, .half⟩ : RangeSetNode).denote range ∩ query.points =
        left.denote ⟨range.start, mid range⟩ ∩ query.points ∪
          right.denote ⟨mid range, range.end⟩ ∩ query.points :=
      Finset.union_inter_distrib_right _ _ _
    rw [intersect_half, leftCount, rightCount, split, Finset.card_union_of_disjoint apart]
    rfl

/-- On a non-empty range the status says whether the node holds all of it or none of it. The
`Half` case is where the children's statuses differing matters: all of the range would make both
children `Full`, none of it both `Empty`. -/
theorem status_exact (wf : node.Wf range) (nonempty : range.start < range.end) :
    (node.status = .full ↔ node.denote range = range.points) ∧
      (node.status = .empty ↔ node.denote range = ∅) := by
  induction wf with
  | @leaf status range settled _ =>
    have occupied : range.points ≠ ∅ := fun vacant =>
      Range.points_eq_empty_iff.mp vacant nonempty
    cases status with
    | full => exact ⟨iff_of_true rfl rfl, iff_of_false (by decide) occupied⟩
    | empty => exact ⟨iff_of_false (by decide) occupied.symm, iff_of_true rfl rfl⟩
    | half => exact absurd rfl settled
  | @half left right range wide mixed leftWf rightWf leftIh rightIh =>
    have leftExact := leftIh (by simp only [mid]; omega)
    have rightExact := rightIh (by simp only [mid]; omega)
    have ordered : range.start ≤ range.end := by omega
    have onLower := inter_lower_of_split leftWf.denote_subset rightWf.denote_subset
      (disjoint_halves range)
    have onUpper := inter_lower_of_split rightWf.denote_subset leftWf.denote_subset
      (disjoint_halves range).symm
    rw [Finset.union_comm] at onUpper
    constructor
    · refine iff_of_false (fun full => nomatch full) fun whole => ?_
      have leftFull := leftExact.1.mpr <| onLower.symm.trans <|
        (congrArg (· ∩ _) whole).trans (Finset.inter_eq_right.mpr (lower_subset ordered))
      have rightFull := rightExact.1.mpr <| onUpper.symm.trans <|
        (congrArg (· ∩ _) whole).trans (Finset.inter_eq_right.mpr (upper_subset ordered))
      rw [leftFull, rightFull] at mixed
      exact absurd mixed (by decide)
    · refine iff_of_false (fun empty => nomatch empty) fun vacant => ?_
      obtain ⟨leftVacant, rightVacant⟩ := Finset.union_eq_empty.mp vacant
      rw [leftExact.2.mpr leftVacant, rightExact.2.mpr rightVacant] at mixed
      exact absurd mixed (by decide)

end Wf

/-- `holds` is true of the node at `range` and of each descendant at the range `operation`
gives it. -/
def EveryNode (holds : RangeSetNode → Range ℕ → Prop) : RangeSetNode → Range ℕ → Prop
  | node@⟨left, right, _⟩, range =>
    holds node range ∧
      (match left with
        | some child => child.EveryNode holds ⟨range.start, mid range⟩
        | none => True) ∧
      (match right with
        | some child => child.EveryNode holds ⟨mid range, range.end⟩
        | none => True)

/-- What the node of a set holding `held` should be: on a non-empty range, `Full` and `Empty`
exactly when all or none of the range is held; and a `Half` node has both children. -/
def Exact (held : Finset ℕ) (node : RangeSetNode) (range : Range ℕ) : Prop :=
  (range.start < range.end →
      (node.status = .full ↔ range.points ⊆ held) ∧
        (node.status = .empty ↔ Disjoint range.points held)) ∧
    (node.status = .half → node.left.isSome ∧ node.right.isSome)

namespace Wf

variable {node : RangeSetNode} {range : Range ℕ}

theorem exact (wf : node.Wf range) {held : Finset ℕ}
    (restrict : node.denote range = held ∩ range.points) : Exact held node range := by
  refine ⟨fun nonempty => ?_, fun half => ?_⟩
  · obtain ⟨full, empty⟩ := wf.status_exact nonempty
    rw [full, empty, restrict, Finset.inter_comm, Finset.inter_eq_left,
      ← Finset.disjoint_iff_inter_eq_empty]
    exact ⟨Iff.rfl, Iff.rfl⟩
  · cases wf with
    | leaf settled _ => exact absurd half settled
    | half _ _ _ _ => exact ⟨rfl, rfl⟩

/-- Every node of a well-formed tree holding `held` in its range is exact. The induction is on
`Wf`; a child holds what the parent holds, restricted to the child's half. -/
theorem everyNode_exact (wf : node.Wf range) {held : Finset ℕ} :
    node.denote range = held ∩ range.points → node.EveryNode (Exact held) range := by
  induction wf with
  | leaf settled ordered =>
    intro restrict
    exact ⟨(Wf.leaf settled ordered).exact restrict, trivial, trivial⟩
  | @half left right range wide mixed leftWf rightWf leftIh rightIh =>
    intro restrict
    have ordered : range.start ≤ range.end := by omega
    have inside : ∀ half : Range ℕ, half.points ⊆ range.points →
        held ∩ range.points ∩ half.points = held ∩ half.points := fun half within => by
      rw [Finset.inter_assoc, Finset.inter_eq_right.mpr within]
    have onLower : left.denote ⟨range.start, mid range⟩ = held ∩ (⟨range.start, mid range⟩ : Range ℕ).points := by
      rw [← inter_lower_of_split leftWf.denote_subset rightWf.denote_subset (disjoint_halves range),
        ← inside _ (lower_subset ordered)]
      exact congrArg (· ∩ _) restrict
    have onUpper : right.denote ⟨mid range, range.end⟩ = held ∩ (⟨mid range, range.end⟩ : Range ℕ).points := by
      rw [← inter_lower_of_split rightWf.denote_subset leftWf.denote_subset
          (disjoint_halves range).symm, Finset.union_comm,
        ← inside _ (upper_subset ordered)]
      exact congrArg (· ∩ _) restrict
    exact ⟨(Wf.half wide mixed leftWf rightWf).exact restrict, leftIh onLower, rightIh onUpper⟩

end Wf

end RangeSetNode

/-! ## The set -/

/-- A call of `RangeSet`'s interface that changes it. -/
inductive RangeSetCall
  | insert (range : Range ℕ)
  | remove (range : Range ℕ)
deriving DecidableEq, Repr

/-- What a call does to the abstract set of a root range `root`: `insert r` adds the points of
`r` inside the root range, `remove r` takes away the points of `r`. -/
def RangeSetCall.update (root : Range ℕ) (held : Finset ℕ) : RangeSetCall → Finset ℕ
  | .insert range => held ∪ (range.points ∩ root.points)
  | .remove range => held \ range.points

namespace RangeSet

/-- Make a call. -/
def perform (set : RangeSet) : RangeSetCall → RangeSet
  | .insert range => set.insert range
  | .remove range => set.remove range

/-- The points the set holds. -/
def held (set : RangeSet) : Finset ℕ := set.root.denote set.range

/-- The root is well formed on the root range. -/
def Wf (set : RangeSet) : Prop := set.root.Wf set.range

theorem wf_new {range : Range ℕ} (ordered : range.start ≤ range.end) : (new range).Wf :=
  .leaf (by decide) ordered

theorem held_new (range : Range ℕ) : (new range).held = ∅ := rfl

theorem range_new (range : Range ℕ) : (new range).range = range := rfl

theorem range_perform (set : RangeSet) (call : RangeSetCall) :
    (set.perform call).range = set.range := by
  cases call <;> simp only [perform, RangeSet.insert, RangeSet.remove] <;> split_ifs <;> rfl

theorem points_eq_empty_of_isEmpty {range : Range ℕ} (empty : range.isEmpty = true) :
    range.points = ∅ :=
  Range.points_eq_empty_iff.mpr (by simpa [Range.isEmpty] using empty)

namespace Wf

variable {set : RangeSet}

theorem held_subset (wf : set.Wf) : set.held ⊆ set.range.points :=
  RangeSetNode.Wf.denote_subset wf

theorem insert (wf : set.Wf) (range : Range ℕ) :
    (set.insert range).Wf ∧ (set.insert range).held = set.held ∪ (range.points ∩ set.range.points) := by
  unfold RangeSet.insert
  split_ifs with empty
  · rw [points_eq_empty_of_isEmpty empty, Finset.empty_inter, Finset.union_empty]
    exact ⟨wf, rfl⟩
  · exact ⟨(RangeSetNode.Wf.operation wf).wf, (RangeSetNode.Wf.operation wf).denote_eq⟩

theorem remove (wf : set.Wf) (range : Range ℕ) :
    (set.remove range).Wf ∧ (set.remove range).held = set.held \ range.points := by
  unfold RangeSet.remove
  split_ifs with empty
  · rw [points_eq_empty_of_isEmpty empty, Finset.sdiff_empty]
    exact ⟨wf, rfl⟩
  · refine ⟨(RangeSetNode.Wf.operation wf).wf, ?_⟩
    -- the set holds only points of the root range, so clearing outside it changes nothing
    show (set.root.operation set.range range .clear).denote set.range = set.held \ range.points
    rw [(RangeSetNode.Wf.operation wf).denote_eq]
    ext point
    have inRoot : point ∈ set.held → point ∈ set.range.points := fun member =>
      held_subset wf member
    simp only [RangeSetOperation.update, Finset.mem_sdiff, Finset.mem_inter] at inRoot ⊢
    exact ⟨fun ⟨held, kept⟩ => ⟨held, fun cleared => kept ⟨cleared, inRoot held⟩⟩,
      fun ⟨held, kept⟩ => ⟨held, fun cleared => kept cleared.1⟩⟩

theorem perform (wf : set.Wf) (call : RangeSetCall) :
    (set.perform call).Wf ∧ (set.perform call).held = call.update set.range set.held := by
  cases call with
  | insert range => exact wf.insert range
  | remove range => exact wf.remove range

/-- The run lemma: along any sequence of calls the set stays well formed and holds what the
abstract set does. -/
theorem run (wf : set.Wf) (calls : List RangeSetCall) :
    (calls.foldl RangeSet.perform set).Wf ∧
      (calls.foldl RangeSet.perform set).range = set.range ∧
      (calls.foldl RangeSet.perform set).held = calls.foldl (RangeSetCall.update set.range) set.held := by
  induction calls generalizing set with
  | nil => exact ⟨wf, rfl, rfl⟩
  | cons call calls ih =>
    obtain ⟨performedWf, performedHeld⟩ := wf.perform call
    obtain ⟨finalWf, finalRange, finalHeld⟩ := ih performedWf
    rw [range_perform] at finalRange finalHeld
    exact ⟨finalWf, finalRange, finalHeld.trans (by rw [performedHeld]; rfl)⟩

/-- `contains` says whether all of the query is held. -/
theorem contains (wf : set.Wf) (query : Range ℕ) :
    set.contains query = some (decide (query.points ⊆ set.held)) := by
  unfold RangeSet.contains
  split_ifs with empty
  · rw [points_eq_empty_of_isEmpty empty]
    simp
  · rw [RangeSetNode.Wf.intersect wf, Option.map_some, ← Range.card_points]
    -- the held points of the query are all of it exactly when they are as many
    have counted : (set.held ∩ query.points).card = query.points.card ↔ query.points ⊆ set.held :=
      ⟨fun equal => Finset.inter_eq_right.mp
          (Finset.eq_of_subset_of_card_le Finset.inter_subset_right equal.ge),
        fun within => by rw [Finset.inter_eq_right.mpr within]⟩
    exact congrArg some (decide_eq_decide.mpr counted)

/-- `intersects` says whether some point of the query is held. -/
theorem intersects (wf : set.Wf) (query : Range ℕ) :
    set.intersects query = some (decide (∃ point ∈ query.points, point ∈ set.held)) := by
  unfold RangeSet.intersects
  split_ifs with empty
  · rw [points_eq_empty_of_isEmpty empty]
    simp
  · rw [RangeSetNode.Wf.intersect wf, Option.map_some]
    have counted : (set.held ∩ query.points).card ≠ 0 ↔ ∃ point ∈ query.points, point ∈ set.held := by
      rw [Finset.card_ne_zero]
      exact ⟨fun ⟨point, member⟩ => ⟨point, (Finset.mem_inter.mp member).2,
          (Finset.mem_inter.mp member).1⟩,
        fun ⟨point, inQuery, held⟩ => ⟨point, Finset.mem_inter.mpr ⟨held, inQuery⟩⟩⟩
    exact congrArg some (decide_eq_decide.mpr counted)

end Wf

end RangeSet

/-- A root over the empty range `0..0` is `Empty`, yet every point of its range is held: a node
on an empty range cannot be both `Full` and `Empty`, which exactness there would need. -/
theorem rangeSet_emptyRoot_not_full :
    ¬ ((RangeSet.new ⟨0, 0⟩).root.status = .full ↔
      (⟨0, 0⟩ : Range ℕ).points ⊆ ([] : List RangeSetCall).foldl (RangeSetCall.update ⟨0, 0⟩) ∅) := by
  decide

/-- The segment tree refines a set of points of an ordered root range: after any calls,
`contains` and `intersects` answer for the abstract set on queries inside the root range, every
node on a non-empty range is exact, and `Half` nodes have both children. -/
theorem rangeSet_refines_heldPoints (root : Range ℕ) (ordered : root.start ≤ root.end)
    (calls : List RangeSetCall) :
    (∀ query : Range ℕ, root.start ≤ query.start → query.start ≤ query.end →
        query.end ≤ root.end →
      (calls.foldl RangeSet.perform (RangeSet.new root)).contains query =
          some (decide (query.points ⊆ calls.foldl (RangeSetCall.update root) ∅)) ∧
        (calls.foldl RangeSet.perform (RangeSet.new root)).intersects query =
          some (decide (∃ point ∈ query.points,
            point ∈ calls.foldl (RangeSetCall.update root) ∅))) ∧
      (calls.foldl RangeSet.perform (RangeSet.new root)).root.EveryNode
        (RangeSetNode.Exact (calls.foldl (RangeSetCall.update root) ∅)) root := by
  obtain ⟨wf, rangeEq, heldEq⟩ := (RangeSet.wf_new ordered).run calls
  rw [RangeSet.held_new, RangeSet.range_new] at heldEq
  rw [RangeSet.range_new] at rangeEq
  refine ⟨fun query _ _ _ => ⟨?_, ?_⟩, ?_⟩
  · rw [wf.contains, heldEq]
  · rw [wf.intersects, heldEq]
  · -- the held points lie in the root range, so the root holds them all
    have every := RangeSetNode.Wf.everyNode_exact wf
      (Finset.inter_eq_left.mpr wf.held_subset).symm
    rw [rangeEq, heldEq] at every
    exact every

theorem rangeSet_refines_heldPoints_insert :
    ([RangeSetCall.insert ⟨1, 3⟩].foldl RangeSet.perform (RangeSet.new ⟨0, 4⟩)).contains ⟨1, 3⟩ =
      some true := by
  have refines := (rangeSet_refines_heldPoints ⟨0, 4⟩ (by decide) [.insert ⟨1, 3⟩]).1 ⟨1, 3⟩
    (by decide) (by decide) (by decide)
  rw [refines.1]
  decide

end Chronix
