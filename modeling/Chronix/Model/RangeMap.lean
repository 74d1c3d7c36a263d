import Chronix.ToMathlib.SortedMap

/-! # The `range-map` crate

`RangeMap<U, V>` (`utils/range-map`) keys a `BTreeMap` by the start of each range and keeps the
end beside the value in a `Node`. The kernel is built in release mode, where `debug_assert!` is
compiled out, so the model has no check of its own for empty ranges. A panic (the `unwrap` of a
`None`, a failed `assert!`) is `none`. An operation returns the map as it is after the call,
also on its error paths, so that the frame of each error path is a lemma and not a given.
-/

namespace Chronix

/-- `core::ops::Range`: the half-open interval `[start, end)`. -/
structure Range (U : Type*) where
  start : U
  «end» : U
deriving DecidableEq, Repr

namespace Range

variable {U : Type*} [LinearOrder U]

/-- `Range::is_empty`. -/
def isEmpty (range : Range U) : Bool := !decide (range.start < range.end)

/-- `Range::contains`. -/
def contains (range : Range U) (point : U) : Prop := range.start ≤ point ∧ point < range.end

instance (range : Range U) (point : U) : Decidable (range.contains point) :=
  inferInstanceAs (Decidable (_ ∧ _))

/-- Two ranges share no point. -/
def Disjoint (a b : Range U) : Prop := ∀ point, a.contains point → ¬ b.contains point

@[simp] theorem isEmpty_eq_false_iff (range : Range U) :
    range.isEmpty = false ↔ range.start < range.end := by
  simp [isEmpty]

/-- For non-empty ranges, sharing no point means that one ends before the other starts. -/
theorem disjoint_iff {a b : Range U} (nonemptyA : a.start < a.end)
    (nonemptyB : b.start < b.end) :
    a.Disjoint b ↔ a.end ≤ b.start ∨ b.end ≤ a.start := by
  constructor
  · intro apart
    by_contra overlap
    simp only [not_or, not_le] at overlap
    rcases le_total a.start b.start with before | after
    · exact apart b.start ⟨before, overlap.1⟩ ⟨le_rfl, nonemptyB⟩
    · exact apart a.start ⟨le_rfl, nonemptyA⟩ ⟨after, overlap.2⟩
  · rintro (first | second) point inA inB
    · exact absurd (inA.2.trans_le first) (not_lt.mpr inB.1)
    · exact absurd (inB.2.trans_le second) (not_lt.mpr inA.1)

theorem Disjoint.symm {a b : Range U} (apart : a.Disjoint b) : b.Disjoint a :=
  fun point inB inA => apart point inA inB

end Range

/-- The end of a range and its value, stored under the range's start. -/
structure Node (U V : Type*) where
  «end» : U
  value : V

/-- `RangeMap<U, V>`: a `BTreeMap` from the start of each range to its `Node`. -/
structure RangeMap (U V : Type*) [LinearOrder U] where
  tree : SortedMap U (Node U V)

namespace RangeMap

variable {U V : Type*} [LinearOrder U]

/-- `RangeMap::new`. -/
def new : RangeMap U V := ⟨SortedMap.empty⟩

/-- The range a stored entry stands for. -/
def entryRange (entry : U × Node U V) : Range U := ⟨entry.1, entry.2.end⟩

/-- The stored ranges with their values, in order of their starts. -/
def ranges (m : RangeMap U V) : List (Range U × V) :=
  m.tree.entries.map fun entry => (entryRange entry, entry.2.value)

/-- `RangeMap::try_insert`: `Err(value)` when the last range starting before `range.end` reaches
past `range.start`; otherwise the `BTreeMap::try_insert(..).ok().unwrap()`, which panics when
the start is already a key. -/
def tryInsert (m : RangeMap U V) (range : Range U) (value : V) :
    Option (Except V Unit × RangeMap U V) :=
  if (m.tree.lastBelow? range.end).any (fun entry => decide (range.start < entry.2.end)) then
    some (.error value, m)
  else
    (m.tree.tryInsert? range.start ⟨range.end, value⟩).map fun tree => (.ok (), ⟨tree⟩)

/-- `RangeMap::get_key_value`: the stored range containing `key`, with its value. -/
def getKeyValue (m : RangeMap U V) (key : U) : Option (Range U × V) :=
  (m.tree.lastAtMost? key).bind fun entry =>
    if key < entry.2.end then some (entryRange entry, entry.2.value) else none

/-- `RangeMap::get`: the value of the stored range containing `key`. -/
def get (m : RangeMap U V) (key : U) : Option V :=
  (m.getKeyValue key).map Prod.snd

/-- Assign through the reference `get_mut` or `get_key_value_mut` returns: the value stored
under the start `start`. -/
def modifyValue (m : RangeMap U V) (start : U) (update : V → V) : RangeMap U V :=
  ⟨m.tree.modify start fun node => { node with value := update node.value }⟩

/-- `RangeMap::is_range_free`. -/
def isRangeFree (m : RangeMap U V) (range : Range U) : Except Unit Unit :=
  if range.isEmpty then .error ()
  else if (m.tree.lastAtMost? range.start).any (fun entry => decide (range.start < entry.2.end))
  then .error ()
  else if (m.tree.firstIn? range.start range.end).isSome then .error ()
  else .ok ()

/-- `RangeMap::force_remove_one`: remove the node under `range.start` (the `unwrap` panics when
there is none), then `assert!` that it ended at `range.end`. -/
def forceRemoveOne (m : RangeMap U V) (range : Range U) : Option (V × RangeMap U V) :=
  (m.tree.remove? range.start).bind fun removed =>
    if removed.1.end = range.end then some (removed.1.value, ⟨removed.2⟩) else none

/-- Move the end of the node under `start`. -/
def setEnd (m : RangeMap U V) (start newEnd : U) : RangeMap U V :=
  ⟨m.tree.modify start fun node => { node with «end» := newEnd }⟩

/-- `RangeMap::extend_back`: the node under `range.start` must exist (`unwrap`); it grows to
`range.end` when `node.end..range.end` is free. -/
def extendBack (m : RangeMap U V) (range : Range U) : Option (Except Unit Unit × RangeMap U V) :=
  (m.tree.get? range.start).map fun node =>
    match m.isRangeFree ⟨node.end, range.end⟩ with
    | .error () => (.error (), m)
    | .ok () => (.ok (), m.setEnd range.start range.end)

/-- `RangeMap::reduce_back`: the node under `range.start` must exist (`unwrap`); it shrinks to
end at `range.end`, and is removed when that leaves it empty. -/
def reduceBack (m : RangeMap U V) (range : Range U) : Option (Except Unit Unit × RangeMap U V) :=
  (m.tree.get? range.start).bind fun node =>
    if range.start ≤ range.end ∧ range.end < node.end then
      if range.start = range.end then
        (m.tree.remove? range.start).map fun removed => (.ok (), ⟨removed.2⟩)
      else some (.ok (), m.setEnd range.start range.end)
    else some (.error (), m)

/-- `RangeMap::range_intersect_key_value`: the last range starting before `range.end`, when it
reaches past `range.start`. -/
def rangeIntersectKeyValue (m : RangeMap U V) (range : Range U) : Option (Range U × V) :=
  (m.tree.lastBelow? range.end).bind fun entry =>
    if range.start < entry.2.end then some (entryRange entry, entry.2.value) else none

/-- `RangeMap::range_contain_key_value`: the last range starting at or before `range.start`,
when it reaches `range.end`. -/
def rangeContainKeyValue (m : RangeMap U V) (range : Range U) : Option (Range U × V) :=
  (m.tree.lastAtMost? range.start).bind fun entry =>
    if range.end ≤ entry.2.end then some (entryRange entry, entry.2.value) else none

/-- `RangeMap::range_intersect`: the value `range_intersect_key_value` finds. -/
def rangeIntersect (m : RangeMap U V) (range : Range U) : Option V :=
  (m.rangeIntersectKeyValue range).map Prod.snd

/-- `RangeMap::range_contain`: the value `range_contain_key_value` finds. -/
def rangeContain (m : RangeMap U V) (range : Range U) : Option V :=
  (m.rangeContainKeyValue range).map Prod.snd

/-- `RangeMap::range(r).next()`: the first stored range whose start lies in `r`. -/
def firstStartingIn (m : RangeMap U V) (range : Range U) : Option (Range U × V) :=
  (m.tree.firstIn? range.start range.end).map fun entry =>
    (entryRange entry, entry.2.value)

section FindFreeRange

variable [HAdd U ℕ U]

/-- The `for` loop of `find_free_range` over the nodes starting in `start..range.end`: it stops
at the first gap of `size` before a node, fails when a node leaves no room before `range.end`,
and otherwise moves `last_end` past the node. -/
def findFreeRange.scan (upper : U) (size : ℕ) : List (U × Node U V) → U → Option U
  | [], lastEnd => some lastEnd
  | entry :: rest, lastEnd =>
    if lastEnd + size ≤ entry.1 then some lastEnd
    else if upper < entry.2.end + size then none
    else findFreeRange.scan upper size rest entry.2.end

/-- `RangeMap::find_free_range`: first fit of `size` in `range`, starting from the start of the
node that covers `range.start`, if any. -/
def findFreeRange (m : RangeMap U V) (range : Range U) (size : ℕ) : Option (Range U) :=
  if range.end < range.start + size then none
  else
    let start := match m.tree.lastAtMost? range.start with
      | some entry => if range.start < entry.2.end then min range.start entry.1 else range.start
      | none => range.start
    (findFreeRange.scan range.end size
        (m.tree.entries.filter fun entry => start ≤ entry.1 ∧ entry.1 < range.end) start).map
      fun lastEnd => ⟨lastEnd, lastEnd + size⟩

end FindFreeRange

/-! ## The representation invariant -/

/-- Every stored node is a non-empty range, and a node ends before any later node starts. -/
structure Valid (m : RangeMap U V) : Prop where
  nonempty : ∀ entry ∈ m.tree.entries, entry.1 < entry.2.end
  separated : ∀ a ∈ m.tree.entries, ∀ b ∈ m.tree.entries, a.1 < b.1 → a.2.end ≤ b.1

theorem valid_new : (new : RangeMap U V).Valid :=
  ⟨fun _ absent => absurd absent List.not_mem_nil, fun _ absent => absurd absent List.not_mem_nil⟩

omit [LinearOrder U] in
@[simp] theorem entryRange_start (entry : U × Node U V) : (entryRange entry).start = entry.1 := rfl

omit [LinearOrder U] in
@[simp] theorem entryRange_end (entry : U × Node U V) :
    (entryRange entry).end = entry.2.end := rfl

theorem mem_ranges (m : RangeMap U V) (range : Range U) (value : V) :
    (range, value) ∈ m.ranges ↔ (range.start, ⟨range.end, value⟩) ∈ m.tree.entries := by
  simp only [ranges, List.mem_map, Prod.mk.injEq]
  constructor
  · rintro ⟨entry, member, rfl, rfl⟩
    exact member
  · intro member
    exact ⟨_, member, rfl, rfl⟩

theorem mem_setEnd (m : RangeMap U V) (start newEnd : U) (entry : U × Node U V) :
    entry ∈ (m.setEnd start newEnd).tree.entries ↔
      (∃ node, (start, node) ∈ m.tree.entries ∧ entry = (start, { node with «end» := newEnd })) ∨
        (entry ∈ m.tree.entries ∧ entry.1 ≠ start) :=
  m.tree.mem_modify start _ entry

/-! ## Sizes

A loop of the kernel that removes a range on every turn ends because the map shrinks. -/

theorem length_forceRemoveOne {m m' : RangeMap U V} {range : Range U} {value : V}
    (removed : m.forceRemoveOne range = some (value, m')) :
    m'.tree.entries.length < m.tree.entries.length := by
  unfold forceRemoveOne at removed
  cases found : m.tree.remove? range.start with
  | none => simp [found] at removed
  | some result =>
    rw [found, Option.bind_some] at removed
    split_ifs at removed
    cases removed
    obtain ⟨member, rest⟩ := (m.tree.remove?_eq_some_iff _ _ _).mp found
    rw [rest]
    exact m.tree.length_erase_lt member

@[simp] theorem length_modifyValue (m : RangeMap U V) (start : U) (update : V → V) :
    (m.modifyValue start update).tree.entries.length = m.tree.entries.length :=
  SortedMap.length_modify _ _ _

theorem length_extendBack {m m' : RangeMap U V} {range : Range U} {result : Except Unit Unit}
    (extended : m.extendBack range = some (result, m')) :
    m'.tree.entries.length = m.tree.entries.length := by
  unfold extendBack at extended
  obtain ⟨node, -, ran⟩ := Option.map_eq_some_iff.mp extended
  split at ran <;> cases ran
  · rfl
  · exact SortedMap.length_modify _ _ _

end RangeMap

end Chronix
