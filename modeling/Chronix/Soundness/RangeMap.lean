import Mathlib
import Chronix.Model.RangeMap
import Chronix.ToMathlib.Reachable

/-! # The representation invariant of `RangeMap`

`try_insert` decides overlap by looking at one neighbour only, the last node starting before the
new range's end, and `extend_back` and `reduce_back` move an end in place. Each is right only
under the invariant that stored ranges are non-empty and ordered without overlap, which each
must in turn preserve. This module characterises every operation on a valid map by the stored
ranges it touches, and concludes that the invariant holds along every run from `new()` whose
`try_insert` ranges are non-empty. Only a `debug_assert!` checks that precondition: in the
kernel's release build `try_insert` stores an empty range, after which the invariant fails and a
later `try_insert` of a free range panics (`tryInsert_empty_breaks_contract`).
-/

namespace Chronix.RangeMap

variable {U V : Type*} [LinearOrder U]

/-- Distinct stored entries of a valid map share no point. -/
theorem Valid.disjoint {m : RangeMap U V} (valid : m.Valid) {a b : U × Node U V}
    (memberA : a ∈ m.tree.entries) (memberB : b ∈ m.tree.entries) (different : a ≠ b) :
    (entryRange a).Disjoint (entryRange b) := by
  rw [Range.disjoint_iff (valid.nonempty a memberA) (valid.nonempty b memberB)]
  rcases lt_trichotomy a.1 b.1 with before | same | after
  · exact .inl (valid.separated a memberA b memberB before)
  · exact absurd (m.tree.eq_of_mem_of_key_eq memberA memberB same) different
  · exact .inr (valid.separated b memberB a memberA after)

/-- Only the last node starting before `range.end` can overlap `range`: when it ends by
`range.start`, every stored range is disjoint from `range`. -/
theorem Valid.disjoint_of_lastBelow {m : RangeMap U V} (valid : m.Valid) {range : Range U}
    (clear : ∀ last, m.tree.lastBelow? range.end = some last → last.2.end ≤ range.start)
    (entry : U × Node U V) (member : entry ∈ m.tree.entries) :
    (entryRange entry).Disjoint range := by
  intro point inEntry inRange
  have below : entry.1 < range.end := lt_of_le_of_lt inEntry.1 inRange.2
  obtain ⟨last, found⟩ : ∃ last, m.tree.lastBelow? range.end = some last := by
    cases found : m.tree.lastBelow? range.end with
    | none =>
      have above := (m.tree.lastBelow?_eq_none_iff _).mp found entry member
      exact absurd above (not_le.mpr below)
    | some last => exact ⟨last, rfl⟩
  obtain ⟨lastMember, -, greatest⟩ := (m.tree.lastBelow?_eq_some_iff _ last).mp found
  have lastEnd := clear last found
  rcases eq_or_ne entry last with rfl | different
  · exact absurd (inEntry.2.trans_le lastEnd) (not_lt.mpr inRange.1)
  · have before : entry.1 < last.1 :=
      lt_of_le_of_ne (greatest entry member below)
        (fun same => different (m.tree.eq_of_mem_of_key_eq member lastMember same))
    have ends := valid.separated entry member last lastMember before
    have lastNonempty := valid.nonempty last lastMember
    exact absurd (inEntry.2.trans_le (ends.trans (lastNonempty.le.trans lastEnd)))
      (not_lt.mpr inRange.1)

/-- A range disjoint from every stored range starts at no stored key. -/
theorem key_ne_of_disjoint {m : RangeMap U V} (valid : m.Valid) {range : Range U}
    (nonempty : range.start < range.end)
    (apart : ∀ entry ∈ m.tree.entries, (entryRange entry).Disjoint range)
    (entry : U × Node U V) (member : entry ∈ m.tree.entries) : entry.1 ≠ range.start := by
  intro same
  have reaches : range.start < entry.2.end := same ▸ valid.nonempty entry member
  exact apart entry member range.start ⟨same.le, reaches⟩ ⟨le_rfl, nonempty⟩

/-- `try_insert` of a non-empty range into a valid map never reaches its `unwrap`; it succeeds
exactly when the range is disjoint from every stored range, and then adds exactly that range,
while on `Err` the map is unchanged. -/
theorem tryInsert_spec {m : RangeMap U V} (valid : m.Valid) {range : Range U}
    (nonempty : range.start < range.end) (value : V) :
    ∃ result next, m.tryInsert range value = some (result, next) ∧
      (result = .ok () ↔ ∀ entry ∈ m.tree.entries, (entryRange entry).Disjoint range) ∧
      (result = .ok () → ∀ entry, entry ∈ next.tree.entries ↔
        entry = (range.start, ⟨range.end, value⟩) ∨ entry ∈ m.tree.entries) ∧
      (result ≠ .ok () → next = m) := by
  unfold tryInsert
  split_ifs with overlapTest
  · obtain ⟨last, found, reaches⟩ := (Option.any_eq_true _ _).mp overlapTest
    obtain ⟨lastMember, below, -⟩ := (m.tree.lastBelow?_eq_some_iff _ last).mp found
    refine ⟨.error value, m, rfl, ⟨(fun failed => by cases failed), fun apart => ?_⟩,
      (fun failed => by cases failed), fun _ => rfl⟩
    have overlap := apart last lastMember
    rw [Range.disjoint_iff (valid.nonempty last lastMember) nonempty] at overlap
    simp only [decide_eq_true_eq] at reaches
    rcases overlap with ends | starts
    · exact absurd reaches (not_lt.mpr ends)
    · exact absurd below (not_lt.mpr starts)
  · have clear : ∀ last, m.tree.lastBelow? range.end = some last → last.2.end ≤ range.start := by
      intro last found
      have quiet := (Option.any_eq_false _ _).mp (Bool.eq_false_iff.mpr overlapTest) last found
      simpa only [decide_eq_false_iff_not, not_lt] using quiet
    have apart := valid.disjoint_of_lastBelow clear
    have absent := key_ne_of_disjoint valid nonempty apart
    obtain ⟨tree, inserted⟩ := Option.isSome_iff_exists.mp
      ((m.tree.tryInsert?_isSome_iff range.start ⟨range.end, value⟩).mpr absent)
    refine ⟨.ok (), ⟨tree⟩, by rw [inserted]; rfl, iff_of_true rfl apart, fun _ entry => ?_,
      fun failed => absurd rfl failed⟩
    exact SortedMap.mem_of_tryInsert? inserted entry

/-- Adding a range disjoint from all stored ranges keeps the map valid. -/
theorem Valid.insert {m : RangeMap U V} (valid : m.Valid) {range : Range U}
    (nonempty : range.start < range.end)
    (apart : ∀ entry ∈ m.tree.entries, (entryRange entry).Disjoint range) {next : RangeMap U V}
    {value : V} (members : ∀ entry, entry ∈ next.tree.entries ↔
      entry = (range.start, ⟨range.end, value⟩) ∨ entry ∈ m.tree.entries) : next.Valid := by
  have separatedFrom : ∀ entry ∈ m.tree.entries,
      entry.2.end ≤ range.start ∨ range.end ≤ entry.1 := fun entry member =>
    (Range.disjoint_iff (valid.nonempty entry member) nonempty).mp (apart entry member)
  constructor
  · intro entry member
    rcases (members entry).mp member with rfl | old
    · exact nonempty
    · exact valid.nonempty entry old
  · intro a memberA b memberB before
    rcases (members a).mp memberA with rfl | oldA <;> rcases (members b).mp memberB with rfl | oldB
    · exact absurd before (lt_irrefl _)
    · rcases separatedFrom b oldB with ends | starts
      · exact absurd (before.trans_le ((valid.nonempty b oldB).le.trans ends)) (lt_irrefl _)
      · exact starts
    · rcases separatedFrom a oldA with ends | starts
      · exact ends
      · exact absurd (before.trans (nonempty.trans_le starts)) (lt_irrefl _)
    · exact valid.separated a oldA b oldB before

theorem Valid.tryInsert {m next : RangeMap U V} (valid : m.Valid) {range : Range U}
    (nonempty : range.start < range.end) {value : V} {result : Except V Unit}
    (inserted : m.tryInsert range value = some (result, next)) : next.Valid := by
  obtain ⟨result', next', computed, succeeds, members, unchanged⟩ :=
    tryInsert_spec valid nonempty value
  rw [inserted, Option.some.injEq, Prod.mk.injEq] at computed
  obtain ⟨rfl, rfl⟩ := computed
  by_cases ok : result = .ok ()
  · exact valid.insert nonempty (succeeds.mp ok) (members ok)
  · rw [unchanged ok]
    exact valid

/-- Dropping stored entries keeps the map valid. -/
theorem Valid.of_subset {m next : RangeMap U V} (valid : m.Valid)
    (subset : ∀ entry ∈ next.tree.entries, entry ∈ m.tree.entries) : next.Valid :=
  ⟨fun entry member => valid.nonempty entry (subset entry member),
    fun a memberA b memberB => valid.separated a (subset a memberA) b (subset b memberB)⟩

theorem Valid.forceRemoveOne {m next : RangeMap U V} (valid : m.Valid) {range : Range U}
    {value : V} (removed : m.forceRemoveOne range = some (value, next)) : next.Valid := by
  simp only [RangeMap.forceRemoveOne, Option.bind_eq_some_iff] at removed
  obtain ⟨⟨node, rest⟩, taken, asserted⟩ := removed
  split_ifs at asserted
  cases asserted
  obtain ⟨-, rfl⟩ := (m.tree.remove?_eq_some_iff _ _ _).mp taken
  exact valid.of_subset fun entry member => ((m.tree.mem_erase _ entry).mp member).1

/-- `is_range_free` on a valid map holds exactly of the non-empty ranges disjoint from every
stored range. -/
theorem isRangeFree_eq_ok_iff {m : RangeMap U V} (valid : m.Valid) (range : Range U) :
    m.isRangeFree range = .ok () ↔
      range.start < range.end ∧ ∀ entry ∈ m.tree.entries, (entryRange entry).Disjoint range := by
  unfold isRangeFree
  split_ifs with empty coveredStart startsInside
  · simp only [false_iff, not_and]
    intro nonempty
    exact absurd ((Range.isEmpty_eq_false_iff range).mpr nonempty) (by simp [empty])
  · obtain ⟨last, found, reaches⟩ := (Option.any_eq_true _ _).mp coveredStart
    obtain ⟨lastMember, atMost, -⟩ := (m.tree.lastAtMost?_eq_some_iff _ last).mp found
    simp only [decide_eq_true_eq] at reaches
    simp only [false_iff, not_and]
    intro nonempty apart
    exact apart last lastMember range.start ⟨atMost, reaches⟩ ⟨le_rfl, nonempty⟩
  · obtain ⟨first, found⟩ := Option.isSome_iff_exists.mp startsInside
    obtain ⟨firstMember, ⟨atLeast, below⟩, -⟩ := (m.tree.firstIn?_eq_some_iff _ _ first).mp found
    simp only [false_iff, not_and]
    intro _ apart
    exact apart first firstMember first.1 ⟨le_rfl, valid.nonempty first firstMember⟩ ⟨atLeast, below⟩
  · have nonempty : range.start < range.end := by simpa [Range.isEmpty] using empty
    refine iff_of_true rfl ⟨nonempty, fun entry member => ?_⟩
    rw [Range.disjoint_iff (valid.nonempty entry member) nonempty]
    rcases le_or_gt entry.1 range.start with before | after
    · left
      obtain ⟨last, found⟩ : ∃ last, m.tree.lastAtMost? range.start = some last := by
        cases found : m.tree.lastAtMost? range.start with
        | none =>
          have above := (m.tree.lastAtMost?_eq_none_iff _).mp found entry member
          exact absurd above (not_lt.mpr before)
        | some last => exact ⟨last, rfl⟩
      obtain ⟨lastMember, atMost, greatest⟩ := (m.tree.lastAtMost?_eq_some_iff _ last).mp found
      have lastEnd : last.2.end ≤ range.start := by
        have quiet := (Option.any_eq_false _ _).mp (Bool.eq_false_iff.mpr coveredStart) last found
        simpa only [decide_eq_false_iff_not, not_lt] using quiet
      rcases eq_or_ne entry last with rfl | different
      · exact lastEnd
      · have earlier : entry.1 < last.1 := lt_of_le_of_ne (greatest entry member before)
          (fun same => different (m.tree.eq_of_mem_of_key_eq member lastMember same))
        exact (valid.separated entry member last lastMember earlier).trans
          ((valid.nonempty last lastMember).le.trans lastEnd)
    · right
      have none := Option.not_isSome_iff_eq_none.mp startsInside
      exact (m.tree.firstIn?_eq_none_iff _ _).mp none entry member after.le

/-- A free range is non-empty, no stored range holds its start, and none starts inside it: the
lookups `unmap` makes on such a range find nothing. -/
theorem lookups_of_isRangeFree {m : RangeMap U V} {range : Range U}
    (free : m.isRangeFree range = .ok ()) :
    range.start < range.end ∧ m.getKeyValue range.start = none ∧
      m.firstStartingIn range = none := by
  unfold isRangeFree at free
  split_ifs at free with empty covered inside
  refine ⟨by simpa [Range.isEmpty] using empty, ?_, ?_⟩
  · unfold getKeyValue
    cases found : m.tree.lastAtMost? range.start with
    | none => rfl
    | some last =>
      -- the last range starting at or before the start ends before it
      have quiet := (Option.any_eq_false _ _).mp (Bool.eq_false_iff.mpr covered) last found
      simp only [decide_eq_false_iff_not] at quiet
      simp [quiet]
  · simp [firstStartingIn, Option.not_isSome_iff_eq_none.mp inside]

/-- Moving the end of a stored node keeps the map valid when the node stays non-empty and ends
before every later node starts. -/
theorem Valid.setEnd {m : RangeMap U V} (valid : m.Valid) {start newEnd : U} {node : Node U V}
    (member : (start, node) ∈ m.tree.entries) (nonempty : start < newEnd)
    (beforeLater : ∀ entry ∈ m.tree.entries, start < entry.1 → newEnd ≤ entry.1) :
    (m.setEnd start newEnd).Valid := by
  have cases (entry) (present : entry ∈ (m.setEnd start newEnd).tree.entries) :
      entry = (start, { node with «end» := newEnd }) ∨ (entry ∈ m.tree.entries ∧ entry.1 ≠ start) := by
    rcases (m.mem_setEnd start newEnd entry).mp present with ⟨stored, storedMember, rfl⟩ | old
    · have same := m.tree.eq_of_mem_of_key_eq storedMember member rfl
      simp only [Prod.mk.injEq, true_and] at same
      exact .inl (by rw [same])
    · exact .inr old
  constructor
  · intro entry present
    rcases cases entry present with rfl | ⟨old, -⟩
    · exact nonempty
    · exact valid.nonempty entry old
  · intro a presentA b presentB before
    rcases cases a presentA with rfl | ⟨oldA, movedA⟩ <;>
      rcases cases b presentB with rfl | ⟨oldB, movedB⟩
    · exact absurd before (lt_irrefl _)
    · exact beforeLater b oldB before
    · exact valid.separated a oldA (start, node) member before
    · exact valid.separated a oldA b oldB before

/-- `extend_back` on a valid map, from the start of a stored node: it succeeds exactly when the
new end lies past the node's end and the added part is disjoint from every other stored range;
on success only that node's end moves, on failure nothing changes. -/
theorem extendBack_spec {m : RangeMap U V} (valid : m.Valid) {start : U} {node : Node U V}
    (member : (start, node) ∈ m.tree.entries) (newEnd : U) :
    ∃ result next, m.extendBack ⟨start, newEnd⟩ = some (result, next) ∧
      (result = .ok () ↔ node.end < newEnd ∧ ∀ entry ∈ m.tree.entries, entry ≠ (start, node) →
        (entryRange entry).Disjoint ⟨node.end, newEnd⟩) ∧
      (result = .ok () → next = m.setEnd start newEnd) ∧
      (result ≠ .ok () → next = m) := by
  have found : m.tree.get? start = some node := (m.tree.get?_eq_some_iff start node).mpr member
  have ownPart : (entryRange (start, node)).Disjoint ⟨node.end, newEnd⟩ :=
    fun point inNode inAdded => absurd inNode.2 (not_lt.mpr inAdded.1)
  have free := isRangeFree_eq_ok_iff valid ⟨node.end, newEnd⟩
  unfold extendBack
  rw [found, Option.map_some]
  cases checked : m.isRangeFree ⟨node.end, newEnd⟩ with
  | error failure =>
    refine ⟨.error (), m, rfl, iff_of_false (fun failed => by cases failed) ?_,
      (fun failed => by cases failed), fun _ => rfl⟩
    rintro ⟨grows, apart⟩
    have ok := free.mpr ⟨grows, fun entry present => by
      rcases eq_or_ne entry (start, node) with rfl | other
      · exact ownPart
      · exact apart entry present other⟩
    rw [checked] at ok
    cases ok
  | ok _ =>
    obtain ⟨grows, apart⟩ := free.mp checked
    exact ⟨.ok (), _, rfl, iff_of_true rfl ⟨grows, fun entry present _ => apart entry present⟩,
      fun _ => rfl, fun failed => absurd rfl failed⟩

theorem Valid.extendBack {m next : RangeMap U V} (valid : m.Valid) {range : Range U}
    {result : Except Unit Unit} (extended : m.extendBack range = some (result, next)) :
    next.Valid := by
  obtain ⟨node, found, -⟩ := Option.map_eq_some_iff.mp extended
  have member := (m.tree.get?_eq_some_iff _ _).mp found
  obtain ⟨result', next', computed, succeeds, moved, unchanged⟩ :=
    extendBack_spec valid member range.end
  rw [extended, Option.some.injEq, Prod.mk.injEq] at computed
  obtain ⟨rfl, rfl⟩ := computed
  by_cases ok : result = .ok ()
  · obtain ⟨grows, apart⟩ := succeeds.mp ok
    rw [moved ok]
    refine valid.setEnd member ((valid.nonempty _ member).trans grows) fun entry present later => ?_
    have other : entry ≠ (range.start, node) := by
      rintro rfl
      exact lt_irrefl _ later
    have afterNode := valid.separated _ member entry present later
    rcases (Range.disjoint_iff (valid.nonempty entry present) grows).mp
        (apart entry present other) with ends | starts
    · exact absurd ((valid.nonempty entry present).trans_le ends) (not_lt.mpr afterNode)
    · exact starts
  · rw [unchanged ok]
    exact valid

theorem Valid.reduceBack {m next : RangeMap U V} (valid : m.Valid) {range : Range U}
    {result : Except Unit Unit} (reduced : m.reduceBack range = some (result, next)) :
    next.Valid := by
  simp only [RangeMap.reduceBack, Option.bind_eq_some_iff] at reduced
  obtain ⟨node, found, reduced⟩ := reduced
  have member := (m.tree.get?_eq_some_iff _ _).mp found
  split_ifs at reduced with shrinks emptied
  · obtain ⟨⟨value, rest⟩, taken, computed⟩ := Option.map_eq_some_iff.mp reduced
    cases computed
    obtain ⟨-, rfl⟩ := (m.tree.remove?_eq_some_iff _ _ _).mp taken
    exact valid.of_subset fun entry present => ((m.tree.mem_erase _ entry).mp present).1
  · cases reduced
    refine valid.setEnd member (lt_of_le_of_ne shrinks.1 emptied) fun entry present later => ?_
    exact shrinks.2.le.trans (valid.separated _ member entry present later)
  · cases reduced
    exact valid

/-! ## Runs of the mutating operations -/

/-- The operations that change a `RangeMap`, with the arguments their caller passes. -/
inductive Op (U V : Type*)
  | tryInsert (range : Range U) (value : V)
  | forceRemoveOne (range : Range U)
  | extendBack (range : Range U)
  | reduceBack (range : Range U)

/-- The map after an operation; `none` when the operation panics. -/
def step (m : RangeMap U V) : Op U V → Option (RangeMap U V)
  | .tryInsert range value => (m.tryInsert range value).map Prod.snd
  | .forceRemoveOne range => (m.forceRemoveOne range).map Prod.snd
  | .extendBack range => (m.extendBack range).map Prod.snd
  | .reduceBack range => (m.reduceBack range).map Prod.snd

/-- The precondition the `# Panic` section of the type puts on its callers: `try_insert` takes a
non-empty range. Only the `debug_assert!` checks it, and the kernel is built without it
(`tryInsert_empty_breaks_contract`). -/
def Op.NonEmpty (_ : RangeMap U V) : Op U V → Prop
  | .tryInsert range _ => range.start < range.end
  | _ => True

instance (m : RangeMap U V) : (op : Op U V) → Decidable (Op.NonEmpty m op)
  | .tryInsert range _ => inferInstanceAs (Decidable (range.start < range.end))
  | .forceRemoveOne _ | .extendBack _ | .reduceBack _ => inferInstanceAs (Decidable True)

/-- One step of an operation that keeps the precondition keeps a valid map valid. -/
theorem Valid.step {m next : RangeMap U V} (valid : m.Valid) {op : Op U V}
    (allowed : Op.NonEmpty m op) (stepped : m.step op = some next) : next.Valid := by
  cases op with
  | tryInsert range value =>
    obtain ⟨⟨result, _⟩, inserted, rfl⟩ := Option.map_eq_some_iff.mp stepped
    exact valid.tryInsert allowed inserted
  | forceRemoveOne range =>
    obtain ⟨⟨value, _⟩, removed, rfl⟩ := Option.map_eq_some_iff.mp stepped
    exact valid.forceRemoveOne removed
  | extendBack range =>
    obtain ⟨⟨result, _⟩, extended, rfl⟩ := Option.map_eq_some_iff.mp stepped
    exact valid.extendBack extended
  | reduceBack range =>
    obtain ⟨⟨result, _⟩, reduced, rfl⟩ := Option.map_eq_some_iff.mp stepped
    exact valid.reduceBack reduced

/-- Every map reached from `new()` by operations whose `try_insert` ranges are non-empty is
valid. -/
theorem valid_of_reachable {m : RangeMap U V}
    (reached : Reachable (fun m op => m.step op) Op.NonEmpty new m) : m.Valid :=
  reached.invariant RangeMap.Valid valid_new fun _ _ _ valid allowed stepped =>
    valid.step allowed stepped

/-! ## The contract of every reachable map -/

theorem forall_mem_ranges (m : RangeMap U V) (property : Range U → Prop) :
    (∀ stored ∈ m.ranges, property stored.1) ↔
      ∀ entry ∈ m.tree.entries, property (entryRange entry) :=
  List.forall_mem_map

/-- What the crate gives its callers of a map: the stored ranges are non-empty and pairwise
disjoint, `try_insert` of a non-empty range returns without panicking and succeeds exactly on
ranges disjoint from all stored ones, and `extend_back` from a stored start succeeds exactly
when it strictly extends that range into free space; both leave the map alone on `Err`. -/
structure Contract (m : RangeMap U V) : Prop where
  nonempty : ∀ stored ∈ m.ranges, stored.1.start < stored.1.end
  disjoint : ∀ a ∈ m.ranges, ∀ b ∈ m.ranges, a.1 ≠ b.1 → a.1.Disjoint b.1
  tryInsert : ∀ (range : Range U) (value : V), range.start < range.end →
    ∃ result next, m.tryInsert range value = some (result, next) ∧
      (result = .ok () ↔ ∀ stored ∈ m.ranges, range.Disjoint stored.1) ∧
      (result ≠ .ok () → next = m)
  extendBack : ∀ stored ∈ m.ranges, ∀ newEnd : U, ∃ result next,
    m.extendBack ⟨stored.1.start, newEnd⟩ = some (result, next) ∧
      (result = .ok () ↔ stored.1.end < newEnd ∧ ∀ other ∈ m.ranges, other.1 ≠ stored.1 →
        Range.Disjoint ⟨stored.1.end, newEnd⟩ other.1) ∧
      (result ≠ .ok () → next = m)

/-- A valid map meets the contract. -/
theorem Valid.contract {m : RangeMap U V} (valid : m.Valid) : m.Contract where
  nonempty := (m.forall_mem_ranges fun range => range.start < range.end).mpr valid.nonempty
  disjoint := by
    simp only [ranges, List.mem_map]
    rintro _ ⟨a, memberA, rfl⟩ _ ⟨b, memberB, rfl⟩ different
    exact valid.disjoint memberA memberB fun same => different (by rw [same])
  tryInsert range value nonempty := by
    obtain ⟨result, next, computed, succeeds, -, unchanged⟩ := tryInsert_spec valid nonempty value
    refine ⟨result, next, computed, ?_, unchanged⟩
    rw [succeeds, m.forall_mem_ranges fun stored => range.Disjoint stored]
    exact forall₂_congr fun _ _ => ⟨Range.Disjoint.symm, Range.Disjoint.symm⟩
  extendBack := by
    simp only [ranges, List.mem_map]
    rintro _ ⟨⟨start, node⟩, member, rfl⟩ newEnd
    obtain ⟨result, next, computed, succeeds, -, unchanged⟩ := extendBack_spec valid member newEnd
    refine ⟨result, next, computed, ?_, unchanged⟩
    rw [succeeds]
    refine and_congr_right fun _ => ⟨?_, ?_⟩
    · rintro apart _ ⟨entry, present, rfl⟩ different
      exact (apart entry present fun same => different (by rw [same])).symm
    · intro apart entry present different
      have otherKey : entry.1 ≠ start := fun same =>
        different (m.tree.eq_of_mem_of_key_eq present member same)
      refine (apart _ ⟨entry, present, rfl⟩ fun same => otherKey ?_).symm
      exact congrArg Range.start same

/-! ## An empty range in a release build -/

/-- A stored range that starts before the end of a free non-empty range `[s, e)` ends by `s`. -/
theorem Valid.end_le_of_apart {m : RangeMap U V} (valid : m.Valid) {s e : U} (nonempty : s < e)
    (apart : ∀ entry ∈ m.tree.entries, (entryRange entry).Disjoint ⟨s, e⟩)
    {entry : U × Node U V} (member : entry ∈ m.tree.entries) (below : entry.1 < e) :
    entry.2.end ≤ s := by
  rcases (Range.disjoint_iff (valid.nonempty entry member) nonempty).mp (apart entry member)
    with ends | starts
  · exact ends
  · exact absurd below (not_lt.mpr starts)

/-- `try_insert` of the empty range `[s, s)` at the start of a free non-empty range `[s, e)`
succeeds: no stored range starting before `s` reaches past it, and none starts at `s`. -/
theorem tryInsert_empty_of_apart {m : RangeMap U V} (valid : m.Valid) {s e : U} (nonempty : s < e)
    (apart : ∀ entry ∈ m.tree.entries, (entryRange entry).Disjoint ⟨s, e⟩) (value : V) :
    ∃ next, m.tryInsert ⟨s, s⟩ value = some (.ok (), next) ∧
      ∀ entry, entry ∈ next.tree.entries ↔ entry = (s, ⟨s, value⟩) ∨ entry ∈ m.tree.entries := by
  have quiet : (m.tree.lastBelow? s).any (fun entry => decide (s < entry.2.end)) = false := by
    cases found : m.tree.lastBelow? s with
    | none => rfl
    | some last =>
      obtain ⟨member, below, -⟩ := (m.tree.lastBelow?_eq_some_iff _ last).mp found
      simpa using valid.end_le_of_apart nonempty apart member (below.trans nonempty)
  obtain ⟨tree, inserted⟩ := Option.isSome_iff_exists.mp
    ((m.tree.tryInsert?_isSome_iff s ⟨s, value⟩).mpr (key_ne_of_disjoint valid nonempty apart))
  refine ⟨⟨tree⟩, ?_, SortedMap.mem_of_tryInsert? inserted⟩
  simp [tryInsert, quiet, inserted]

/-- Once the empty range `[s, s)` is stored, `try_insert` of `[s, e)` passes the overlap test,
since the range found before `e` ends by `s`, and panics at the `unwrap`: `s` is a key already. -/
theorem tryInsert_panics_of_empty {m next : RangeMap U V} (valid : m.Valid) {s e : U}
    (nonempty : s < e) (apart : ∀ entry ∈ m.tree.entries, (entryRange entry).Disjoint ⟨s, e⟩)
    {value : V} (members : ∀ entry, entry ∈ next.tree.entries ↔
      entry = (s, ⟨s, value⟩) ∨ entry ∈ m.tree.entries) (other : V) :
    next.tryInsert ⟨s, e⟩ other = none := by
  have quiet : (next.tree.lastBelow? e).any (fun entry => decide (s < entry.2.end)) = false := by
    cases found : next.tree.lastBelow? e with
    | none => rfl
    | some last =>
      obtain ⟨member, below, -⟩ := (next.tree.lastBelow?_eq_some_iff _ last).mp found
      have ends : last.2.end ≤ s := by
        rcases (members last).mp member with rfl | old
        · exact le_rfl
        · exact valid.end_le_of_apart nonempty apart old below
      simpa using ends
  have taken : next.tree.tryInsert? s ⟨e, other⟩ = none :=
    (next.tree.tryInsert?_eq_none_iff _ _).mpr ⟨_, (members _).mpr (.inl rfl), rfl⟩
  simp [tryInsert, quiet, taken]

/-- The contract holds along every run whose `try_insert` ranges are non-empty, and the kernel's
release build does not check that precondition. From any such map and a free non-empty range
`[s, e)`, `try_insert(s..s)` succeeds and stores the empty range, so that the map breaks the
contract, and `try_insert(s..e)` of a non-empty range disjoint from every stored range then
panics at its `unwrap`. -/
theorem tryInsert_empty_breaks_contract {m : RangeMap U V}
    (reached : Reachable (fun m op => m.step op) Op.NonEmpty new m) {s e : U} (nonempty : s < e)
    (apart : ∀ stored ∈ m.ranges, Range.Disjoint ⟨s, e⟩ stored.1) (value other : V) :
    m.Contract ∧ ∃ next, m.tryInsert ⟨s, s⟩ value = some (.ok (), next) ∧
      (⟨s, s⟩, value) ∈ next.ranges ∧ ¬ next.Contract ∧
      (∀ stored ∈ next.ranges, Range.Disjoint ⟨s, e⟩ stored.1) ∧
      next.tryInsert ⟨s, e⟩ other = none := by
  have valid := valid_of_reachable reached
  have apartEntries : ∀ entry ∈ m.tree.entries, (entryRange entry).Disjoint ⟨s, e⟩ :=
    fun entry member =>
      ((m.forall_mem_ranges fun stored => Range.Disjoint ⟨s, e⟩ stored).mp apart entry member).symm
  obtain ⟨next, inserted, members⟩ := tryInsert_empty_of_apart valid nonempty apartEntries value
  have stored : (⟨s, s⟩, value) ∈ next.ranges :=
    (next.mem_ranges _ _).mpr ((members _).mpr (.inl rfl))
  refine ⟨valid.contract, next, inserted, stored,
    fun contract => lt_irrefl s (contract.nonempty _ stored), ?_,
    tryInsert_panics_of_empty valid nonempty apartEntries members other⟩
  -- the new range has no point, and the old ones are apart from `[s, e)`
  refine (next.forall_mem_ranges fun stored => Range.Disjoint ⟨s, e⟩ stored).mpr
    fun entry member => ?_
  rcases (members entry).mp member with rfl | old
  · exact fun _ _ inEmpty => lt_irrefl s (inEmpty.1.trans_lt inEmpty.2)
  · exact (apartEntries entry old).symm

/-- `RangeMap::new()`, then `try_insert(5..5)` and `try_insert(5..8)`. -/
theorem tryInsert_empty_breaks_contract_new :
    (5 : ℕ) < 8 ∧ (∀ stored ∈ (new : RangeMap ℕ Unit).ranges, Range.Disjoint ⟨5, 8⟩ stored.1) ∧
      ∃ next, (new : RangeMap ℕ Unit).tryInsert ⟨5, 5⟩ () = some (.ok (), next) ∧
        ¬ next.Contract ∧ next.tryInsert ⟨5, 8⟩ () = none := by
  have apart : ∀ stored ∈ (new : RangeMap ℕ Unit).ranges, Range.Disjoint ⟨5, 8⟩ stored.1 :=
    fun _ absent => absurd absent List.not_mem_nil
  obtain ⟨-, next, inserted, -, broken, -, panics⟩ :=
    tryInsert_empty_breaks_contract .start (by decide : (5 : ℕ) < 8) apart () ()
  exact ⟨by decide, apart, next, inserted, broken, panics⟩

end Chronix.RangeMap
