import Mathlib
import Chronix.Model.RangeMap

/-! # The `segment-tree` crate

`RangeSet<U>` (`utils/segment-tree`) stores a set of points of a fixed root range as a lazily
built segment tree. A node is `Full`, `Empty` or `Half`; only `Half` nodes are meant to carry
children. `operation` materialises missing children with the parent's status, descends into
the children the operated range meets, and collapses the node when its children agree. The
crate is generic in `U`; the kernel's one instantiation, the `mapped` set of `FileReader`, is a
`RangeSet<usize>` of page numbers, and the model's `U` is the natural numbers. A panic (`unwrap`
of a missing child) is `none`.
-/

namespace Chronix

/-- `RangeSetNodeStatus`. -/
inductive RangeSetNodeStatus
  | empty
  | half
  | full
deriving DecidableEq, Repr

/-- `RangeSetOperation`. -/
inductive RangeSetOperation
  | fill
  | clear
deriving DecidableEq, Repr

namespace RangeSetNodeStatus

/-- `RangeSetNodeStatus::apply`: the status is overwritten by the operation's. -/
def apply (_ : RangeSetNodeStatus) : RangeSetOperation → RangeSetNodeStatus
  | .fill => .full
  | .clear => .empty

/-- `RangeSetNodeStatus::combine`: `Half` unless both statuses agree. -/
def combine (status other : RangeSetNodeStatus) : RangeSetNodeStatus :=
  if status ≠ other then .half else other

end RangeSetNodeStatus

/-- `RangeSetNode`: optional boxed children and a status. -/
structure RangeSetNode where
  left : Option RangeSetNode
  right : Option RangeSetNode
  status : RangeSetNodeStatus

namespace RangeSetNode

/-- `RangeSetNode::new`: a childless node. -/
def new (status : RangeSetNodeStatus) : RangeSetNode := ⟨none, none, status⟩

/-- The split point `range.start + (range.end - range.start) / 2`. -/
def mid (range : Range ℕ) : ℕ := range.start + (range.end - range.start) / 2

/-- `RangeSetNode::operation`: apply `op` to the points of `opRange` inside the node's
`range`. The recursion is on the length of `range`: a child is visited only when `opRange`
meets it without covering the parent, which forces the child to be shorter. -/
def operation (node : RangeSetNode) (range opRange : Range ℕ) (op : RangeSetOperation) :
    RangeSetNode :=
  if covered : opRange.start ≤ range.start ∧ range.end ≤ opRange.end then
    ⟨none, none, node.status.apply op⟩
  else
    let left := node.left.getD (new node.status)
    let left :=
      if _goLeft : range.start < opRange.end ∧ opRange.start < mid range then
        left.operation ⟨range.start, mid range⟩ opRange op
      else left
    let right := node.right.getD (new node.status)
    let right :=
      if _goRight : mid range < opRange.end ∧ opRange.start < range.end then
        right.operation ⟨mid range, range.end⟩ opRange op
      else right
    let status := left.status.combine right.status
    if status ≠ .half then ⟨none, none, status⟩ else ⟨some left, some right, status⟩
termination_by range.end - range.start
decreasing_by
  all_goals simp only [mid] at *
  all_goals omega

/-- The calls `operation` on `range` makes for `opRange`: none when `opRange` covers `range`,
and otherwise one on the lower half `range.start..mid` when `opRange` meets it and one on the
upper half `mid..range.end` when `opRange` meets that. -/
def OperationCall (opRange range child : Range ℕ) : Prop :=
  ¬ (opRange.start ≤ range.start ∧ range.end ≤ opRange.end) ∧
    ((range.start < opRange.end ∧ opRange.start < mid range ∧ child = ⟨range.start, mid range⟩) ∨
      (mid range < opRange.end ∧ opRange.start < range.end ∧ child = ⟨mid range, range.end⟩))

/-- `RangeSetNode::intersect`: the number of points of `opRange` inside the node's `range`
that the node holds. A `Half` node unwraps both children it visits. -/
def intersect : RangeSetNode → Range ℕ → Range ℕ → Option ℕ
  | ⟨_, _, .full⟩, range, opRange =>
    some (min range.end opRange.end - max range.start opRange.start)
  | ⟨_, _, .empty⟩, _, _ => some 0
  | ⟨left, right, .half⟩, range, opRange => do
    let leftCount ← if range.start < opRange.end ∧ opRange.start < mid range then
        match left with
        | some child => child.intersect ⟨range.start, mid range⟩ opRange
        | none => none
      else some 0
    let rightCount ← if mid range < opRange.end ∧ opRange.start < range.end then
        match right with
        | some child => child.intersect ⟨mid range, range.end⟩ opRange
        | none => none
      else some 0
    pure (leftCount + rightCount)

end RangeSetNode

/-- `RangeSet<U>`: the root node and the root range it covers. -/
structure RangeSet where
  root : RangeSetNode
  range : Range ℕ

namespace RangeSet

/-- `RangeSet::new`: an empty set over `range`. -/
def new (range : Range ℕ) : RangeSet := ⟨RangeSetNode.new .empty, range⟩

/-- `RangeSet::insert`. -/
def insert (set : RangeSet) (range : Range ℕ) : RangeSet :=
  if range.isEmpty then set
  else { set with root := set.root.operation set.range range .fill }

/-- `RangeSet::remove`. -/
def remove (set : RangeSet) (range : Range ℕ) : RangeSet :=
  if range.isEmpty then set
  else { set with root := set.root.operation set.range range .clear }

/-- `RangeSet::contains`: the points of `range` held number `range.end - range.start`. -/
def contains (set : RangeSet) (range : Range ℕ) : Option Bool :=
  if range.isEmpty then some true
  else (set.root.intersect set.range range).map fun count => count = range.end - range.start

/-- `RangeSet::intersects`: some point of `range` is held. -/
def intersects (set : RangeSet) (range : Range ℕ) : Option Bool :=
  if range.isEmpty then some false
  else (set.root.intersect set.range range).map fun count => count ≠ 0

end RangeSet

end Chronix
