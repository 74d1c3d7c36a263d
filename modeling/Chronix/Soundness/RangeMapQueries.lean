import Mathlib
import Chronix.Model.Addr
import Chronix.Soundness.RangeMap

/-! # What the queries of a `RangeMap` find

Each query looks at one node only: `get` and `range_contain` at the last node starting at or
before a key, `range_intersect` at the last node starting before the end of a range. On a valid
map that node stands for all the others, since a node starting later lies past the key and an
earlier one ends before the found node starts. So each query finds exactly the stored range with
the property it tests, and `None` means that no stored range has it.
-/

namespace Chronix.RangeMap

open Constant

variable {U V : Type*} [LinearOrder U]

/-- The last node starting at or before a point of a stored range is that range's node. -/
theorem Valid.lastAtMost?_of_contains {m : RangeMap U V} (valid : m.Valid)
    {entry : U × Node U V} (member : entry ∈ m.tree.entries) {key : U}
    (inside : (entryRange entry).contains key) : m.tree.lastAtMost? key = some entry := by
  obtain ⟨last, found⟩ : ∃ last, m.tree.lastAtMost? key = some last := by
    cases found : m.tree.lastAtMost? key with
    | none =>
      exact absurd ((m.tree.lastAtMost?_eq_none_iff _).mp found entry member) (not_lt.mpr inside.1)
    | some last => exact ⟨last, rfl⟩
  obtain ⟨lastMember, atMost, greatest⟩ := (m.tree.lastAtMost?_eq_some_iff _ last).mp found
  rcases eq_or_ne entry last with rfl | different
  · exact found
  · -- a node starting later than `entry` starts past its end, so past `key`
    have earlier : entry.1 < last.1 := lt_of_le_of_ne (greatest entry member inside.1)
      fun same => different (m.tree.eq_of_mem_of_key_eq member lastMember same)
    exact absurd (inside.2.trans_le (valid.separated entry member last lastMember earlier))
      (not_lt.mpr atMost)

/-- `get_key_value(key)` on a valid map finds exactly the stored range holding `key`. -/
theorem getKeyValue_eq_some_iff {m : RangeMap U V} (valid : m.Valid) (key : U)
    (stored : Range U × V) :
    m.getKeyValue key = some stored ↔ stored ∈ m.ranges ∧ stored.1.contains key := by
  obtain ⟨range, value⟩ := stored
  rw [mem_ranges]
  constructor
  · intro found
    obtain ⟨last, lastFound, hit⟩ := Option.bind_eq_some_iff.mp found
    obtain ⟨lastMember, atMost, -⟩ := (m.tree.lastAtMost?_eq_some_iff _ last).mp lastFound
    split_ifs at hit with reaches
    obtain ⟨rfl, rfl⟩ := Prod.mk.inj (Option.some.inj hit)
    exact ⟨lastMember, atMost, reaches⟩
  · rintro ⟨member, inside⟩
    simp only [getKeyValue, valid.lastAtMost?_of_contains member inside, Option.bind_some,
      if_pos inside.2]
    rfl

/-- `get(key)`, and the value `get_mut(key)` hands out, is the value of the stored range
holding `key`. -/
theorem get_eq_some_iff {m : RangeMap U V} (valid : m.Valid) (key : U) (value : V) :
    m.get key = some value ↔ ∃ range, (range, value) ∈ m.ranges ∧ range.contains key := by
  simp only [get, Option.map_eq_some_iff, getKeyValue_eq_some_iff valid]
  constructor
  · rintro ⟨⟨range, _⟩, ⟨member, inside⟩, rfl⟩
    exact ⟨range, member, inside⟩
  · rintro ⟨range, member, inside⟩
    exact ⟨(range, value), ⟨member, inside⟩, rfl⟩

/-- What `range_contain_key_value(range)` finds reaches from at or before `range.start` to at or
past `range.end`. -/
theorem rangeContainKeyValue_sound {m : RangeMap U V} {range : Range U} {stored : Range U × V}
    (found : m.rangeContainKeyValue range = some stored) :
    stored ∈ m.ranges ∧ stored.1.start ≤ range.start ∧ range.end ≤ stored.1.end := by
  obtain ⟨last, lastFound, hit⟩ := Option.bind_eq_some_iff.mp found
  obtain ⟨lastMember, atMost, -⟩ := (m.tree.lastAtMost?_eq_some_iff _ last).mp lastFound
  split_ifs at hit with reaches
  cases hit
  exact ⟨List.mem_map_of_mem lastMember, atMost, reaches⟩

/-- `range_contain(range)` on a valid map finds a range whenever some stored range reaches from
at or before `range.start` to at or past `range.end`, empty `range` included. -/
theorem rangeContain_isSome_iff {m : RangeMap U V} (valid : m.Valid) (range : Range U) :
    (m.rangeContain range).isSome ↔
      ∃ stored ∈ m.ranges, stored.1.start ≤ range.start ∧ range.end ≤ stored.1.end := by
  rw [rangeContain, Option.isSome_map]
  constructor
  · intro found
    obtain ⟨stored, hit⟩ := Option.isSome_iff_exists.mp found
    obtain ⟨member, covers⟩ := rangeContainKeyValue_sound hit
    exact ⟨stored, member, covers⟩
  · rintro ⟨⟨stored, value⟩, member, atMost, reaches⟩
    rw [mem_ranges] at member
    obtain ⟨last, found⟩ : ∃ last, m.tree.lastAtMost? range.start = some last := by
      cases found : m.tree.lastAtMost? range.start with
      | none => exact absurd ((m.tree.lastAtMost?_eq_none_iff _).mp found _ member) (not_lt.mpr atMost)
      | some last => exact ⟨last, rfl⟩
    obtain ⟨lastMember, -, greatest⟩ := (m.tree.lastAtMost?_eq_some_iff _ last).mp found
    -- the last node starting by `range.start` is the stored range, or starts after it ends
    have lastReaches : range.end ≤ last.2.end := by
      rcases eq_or_ne (stored.start, ⟨stored.end, value⟩) last with same | different
      · exact same ▸ reaches
      · have earlier : stored.start < last.1 := lt_of_le_of_ne (greatest _ member atMost)
          fun same => different (m.tree.eq_of_mem_of_key_eq member lastMember same)
        exact reaches.trans ((valid.separated _ member last lastMember earlier).trans
          (valid.nonempty last lastMember).le)
    simp [rangeContainKeyValue, found, lastReaches]

/-- For a non-empty `range`, `range_contain_key_value(range)` on a valid map finds exactly the
stored range that holds it. -/
theorem rangeContainKeyValue_eq_some_iff {m : RangeMap U V} (valid : m.Valid) {range : Range U}
    (nonempty : range.start < range.end) (stored : Range U × V) :
    m.rangeContainKeyValue range = some stored ↔
      stored ∈ m.ranges ∧ stored.1.start ≤ range.start ∧ range.end ≤ stored.1.end := by
  refine ⟨rangeContainKeyValue_sound, fun ⟨member, atMost, reaches⟩ => ?_⟩
  obtain ⟨⟨start, «end»⟩, value⟩ := stored
  rw [mem_ranges] at member
  have inside : (entryRange (start, (⟨«end», value⟩ : Node U V))).contains range.start :=
    ⟨atMost, nonempty.trans_le reaches⟩
  simp only [rangeContainKeyValue, valid.lastAtMost?_of_contains member inside, Option.bind_some]
  rw [if_pos reaches]
  rfl

/-- What `range_intersect_key_value(range)` finds shares a point with a non-empty `range`. -/
theorem rangeIntersectKeyValue_sound {m : RangeMap U V} (valid : m.Valid) {range : Range U}
    (nonempty : range.start < range.end) {stored : Range U × V}
    (found : m.rangeIntersectKeyValue range = some stored) :
    stored ∈ m.ranges ∧ ¬ stored.1.Disjoint range := by
  obtain ⟨last, lastFound, hit⟩ := Option.bind_eq_some_iff.mp found
  obtain ⟨lastMember, below, -⟩ := (m.tree.lastBelow?_eq_some_iff _ last).mp lastFound
  split_ifs at hit with reaches
  cases hit
  refine ⟨List.mem_map_of_mem lastMember, fun apart => ?_⟩
  -- the later of the two starts lies in both
  exact apart (max last.1 range.start)
    ⟨le_max_left _ _, max_lt (valid.nonempty last lastMember) reaches⟩
    ⟨le_max_right _ _, max_lt below nonempty⟩

/-- For a non-empty `range`, `range_intersect(range)` on a valid map finds a value exactly when
some stored range shares a point with `range`. -/
theorem rangeIntersect_isSome_iff {m : RangeMap U V} (valid : m.Valid) {range : Range U}
    (nonempty : range.start < range.end) :
    (m.rangeIntersect range).isSome ↔ ∃ stored ∈ m.ranges, ¬ stored.1.Disjoint range := by
  rw [rangeIntersect, Option.isSome_map]
  constructor
  · intro found
    obtain ⟨stored, hit⟩ := Option.isSome_iff_exists.mp found
    exact ⟨stored, rangeIntersectKeyValue_sound valid nonempty hit⟩
  · rintro ⟨⟨stored, value⟩, member, overlap⟩
    rw [mem_ranges] at member
    obtain ⟨point, inStored, inRange⟩ : ∃ point, stored.contains point ∧ range.contains point := by
      by_contra apart
      push Not at apart
      exact overlap apart
    obtain ⟨last, found⟩ : ∃ last, m.tree.lastBelow? range.end = some last := by
      cases found : m.tree.lastBelow? range.end with
      | none =>
        exact absurd ((m.tree.lastBelow?_eq_none_iff _).mp found _ member)
          (not_le.mpr (inStored.1.trans_lt inRange.2))
      | some last => exact ⟨last, rfl⟩
    obtain ⟨lastMember, -, greatest⟩ := (m.tree.lastBelow?_eq_some_iff _ last).mp found
    -- the last node starting before `range.end` is the stored range, or starts after it ends
    have lastReaches : range.start < last.2.end := by
      rcases eq_or_ne (stored.start, ⟨stored.end, value⟩) last with same | different
      · exact same ▸ inRange.1.trans_lt inStored.2
      · have earlier : stored.start < last.1 :=
          lt_of_le_of_ne (greatest _ member (inStored.1.trans_lt inRange.2))
            fun same => different (m.tree.eq_of_mem_of_key_eq member lastMember same)
        exact inRange.1.trans_lt (inStored.2.trans_le ((valid.separated _ member last lastMember
          earlier).trans (valid.nonempty last lastMember).le))
    simp [rangeIntersectKeyValue, found, lastReaches]

/-- On a valid map every query agrees with the stored ranges. `get_key_value(key)` and `get(key)`
find exactly the stored range holding `key`, and `None` when there is none. `is_range_free`
holds exactly of the non-empty ranges disjoint from every stored range. `range_contain` finds a
range exactly when a stored range reaches from at or before `range.start` to at or past
`range.end`, which for a non-empty `range` is the one it returns. `range_intersect` of a
non-empty range finds one exactly when some stored range shares a point with it. -/
theorem queries_agree_with_ranges {m : RangeMap U V} (valid : m.Valid) :
    (∀ key stored, m.getKeyValue key = some stored ↔ stored ∈ m.ranges ∧ stored.1.contains key) ∧
    (∀ key value, m.get key = some value ↔ ∃ range, (range, value) ∈ m.ranges ∧ range.contains key) ∧
    (∀ range, m.isRangeFree range = .ok () ↔
      range.start < range.end ∧ ∀ stored ∈ m.ranges, stored.1.Disjoint range) ∧
    (∀ range, (m.rangeContain range).isSome ↔
      ∃ stored ∈ m.ranges, stored.1.start ≤ range.start ∧ range.end ≤ stored.1.end) ∧
    (∀ range, range.start < range.end → ∀ stored, m.rangeContainKeyValue range = some stored ↔
      stored ∈ m.ranges ∧ stored.1.start ≤ range.start ∧ range.end ≤ stored.1.end) ∧
    (∀ range, range.start < range.end →
      ((m.rangeIntersect range).isSome ↔ ∃ stored ∈ m.ranges, ¬ stored.1.Disjoint range)) := by
  refine ⟨getKeyValue_eq_some_iff valid, get_eq_some_iff valid, fun range => ?_,
    rangeContain_isSome_iff valid, fun _ nonempty => rangeContainKeyValue_eq_some_iff valid nonempty,
    fun _ nonempty => rangeIntersect_isSome_iff valid nonempty⟩
  rw [isRangeFree_eq_ok_iff valid, m.forall_mem_ranges fun stored => stored.Disjoint range]

/-- The map that `try_insert` of `[1, 3)`, `[3, 6)` and `[8, 9)` builds: two touching ranges,
then a gap. -/
def touchingRanges : RangeMap ℕ Unit :=
  ⟨⟨[(1, ⟨3, ()⟩), (3, ⟨6, ()⟩), (8, ⟨9, ()⟩)], by decide⟩⟩

theorem valid_touchingRanges : touchingRanges.Valid :=
  valid_of_reachable (((Reachable.start.step (.tryInsert ⟨1, 3⟩ ()) (by decide) rfl).step
    (.tryInsert ⟨3, 6⟩ ()) (by decide) rfl).step (.tryInsert ⟨8, 9⟩ ()) (by decide) rfl)

/-- Page `3`, where `[1, 3)` ends and `[3, 6)` starts, lies in `[3, 6)` only; `[6, 8)` is free;
`[3, 6)` holds `3..6`; and the last range starting before `8`, `[3, 6)`, meets `[5, 8)`. -/
theorem queries_agree_with_ranges_touchingRanges :
    touchingRanges.Valid ∧ touchingRanges.getKeyValue 3 = some (⟨3, 6⟩, ()) ∧
      (∀ stored ∈ touchingRanges.ranges, stored.1.Disjoint ⟨6, 8⟩) ∧
      (touchingRanges.rangeContain ⟨3, 6⟩).isSome ∧
      (touchingRanges.rangeIntersect ⟨5, 8⟩).isSome := by
  have queries := queries_agree_with_ranges valid_touchingRanges
  have stored : ((⟨3, 6⟩ : Range ℕ), ()) ∈ touchingRanges.ranges := by decide
  refine ⟨valid_touchingRanges, (queries.1 3 _).mpr ⟨stored, by decide⟩,
    ((queries.2.2.1 ⟨6, 8⟩).mp (by decide)).2, (queries.2.2.2.1 ⟨3, 6⟩).mpr (by decide),
    (queries.2.2.2.2.2 ⟨5, 8⟩ (by decide)).mpr ⟨_, stored, fun apart => ?_⟩⟩
  exact apart 5 (by decide) (by decide)

/-! ## First fit

`find_free_range(range, size)` first moves its start back to the node covering `range.start`,
then walks the nodes starting from there up to `range.end`, taking the first gap of `size` and
failing at the first node that leaves no room before `range.end`. When no `+ size` it computes
overflows, this is a first-fit search: it returns the least start of a free piece of `range` of
`size`, and `None` when there is none. Over any key type this needs `+ size` to grow with the
key and lie above it up to a cap that the stored ends and `range` stay within
(`Valid.findFreeRange_isLeast`); for the kernel's `VirtPageNum`, whose `+` keeps 27 bits, it
needs `range.end + size` and every stored end `+ size` below `2 ^ 27` (`findFreeRange_firstFit`).
A stored end past that bound makes the test of the node's end against `range.end` wrap
(`findFreeRange_wraps_past_range`).
-/

/-- The snapped start of `find_free_range`: the start of the node covering `range.start`, if
any. -/
def snapStart (m : RangeMap U V) (range : Range U) : U :=
  match m.tree.lastAtMost? range.start with
  | some entry => if range.start < entry.2.end then min range.start entry.1 else range.start
  | none => range.start

theorem snapStart_le (m : RangeMap U V) (range : Range U) : snapStart m range ≤ range.start := by
  unfold snapStart
  split
  · split_ifs
    · exact min_le_left _ _
    · exact le_rfl
  · exact le_rfl

/-- Every node starting before the snapped start ends by it. -/
theorem Valid.end_le_snapStart {m : RangeMap U V} (valid : m.Valid) (range : Range U)
    {entry : U × Node U V} (member : entry ∈ m.tree.entries) (before : entry.1 < snapStart m range) :
    entry.2.end ≤ snapStart m range := by
  unfold snapStart at before ⊢
  cases found : m.tree.lastAtMost? range.start with
  | none =>
    simp only [found] at before
    exact absurd ((m.tree.lastAtMost?_eq_none_iff _).mp found entry member) (not_lt.mpr before.le)
  | some last =>
    simp only [found] at before ⊢
    obtain ⟨lastMember, atMost, greatest⟩ := (m.tree.lastAtMost?_eq_some_iff _ last).mp found
    split_ifs at before ⊢ with covers
    · -- snapped to the covering node: an earlier node ends before it starts
      rw [min_eq_right atMost] at before ⊢
      exact valid.separated entry member last lastMember before
    · rcases eq_or_ne entry last with rfl | different
      · exact not_lt.mp covers
      · have earlier : entry.1 < last.1 := lt_of_le_of_ne (greatest entry member before.le)
          fun same => different (m.tree.eq_of_mem_of_key_eq member lastMember same)
        exact (valid.separated entry member last lastMember earlier).trans atMost

/-- A start moved back is the start of a stored node holding `range.start`. -/
theorem snapStart_covered {m : RangeMap U V} {range : Range U}
    (moved : snapStart m range < range.start) :
    ∃ entry ∈ m.tree.entries, entry.1 = snapStart m range ∧ range.start < entry.2.end := by
  unfold snapStart at moved ⊢
  cases found : m.tree.lastAtMost? range.start with
  | none =>
    simp only [found] at moved
    exact absurd moved (lt_irrefl _)
  | some last =>
    simp only [found] at moved ⊢
    obtain ⟨lastMember, atMost, -⟩ := (m.tree.lastAtMost?_eq_some_iff _ last).mp found
    split_ifs at moved ⊢ with covers
    · exact ⟨last, lastMember, (min_eq_right atMost).symm, covers⟩
    · exact absurd moved (lt_irrefl _)

section FindFreeRange

variable [HAdd U ℕ U]

/-- `u + size` lies above `u` and grows with it for every key up to `cap`: no `+ size` of such a
key wraps. -/
structure AddBelow (size : ℕ) (cap : U) : Prop where
  grows : ∀ u, u ≤ cap → u < u + size
  mono : ∀ u v, u ≤ v → v ≤ cap → u + size ≤ v + size

/-- `[s, s + size)` is a non-empty piece of `range` that no stored range touches: a place that
`find_free_range(range, size)` may hand out. -/
structure FreeFor (m : RangeMap U V) (range : Range U) (size : ℕ) (s : U) : Prop where
  after : range.start ≤ s
  grows : s < s + size
  fits : s + size ≤ range.end
  apart : ∀ stored ∈ m.ranges, stored.1.Disjoint ⟨s, s + size⟩

/-- What the loop of `find_free_range` looks for in the nodes `nodes` from `lastEnd` on: a
non-empty place of `size` after `lastEnd` and before `upper` that none of them touches. -/
structure ScanFree (upper : U) (size : ℕ) (nodes : List (U × Node U V)) (lastEnd s : U) : Prop where
  after : lastEnd ≤ s
  grows : s < s + size
  fits : s + size ≤ upper
  apart : ∀ entry ∈ nodes, (entryRange entry).Disjoint ⟨s, s + size⟩

/-- A place the loop looks for below a capped `upper` is within the cap. -/
theorem ScanFree.le_cap {size : ℕ} {upper cap lastEnd s : U} {nodes : List (U × Node U V)}
    (free : ScanFree upper size nodes lastEnd s) (capped : upper ≤ cap) : s ≤ cap :=
  (free.grows.trans_le (free.fits.trans capped)).le

/-- A place of `size` that no node touches lies past a node the loop skipped because the gap
before it was too small. -/
theorem ScanFree.past_skipped {size : ℕ} {cap : U} (add : AddBelow size cap) {upper lastEnd s : U}
    (capped : upper ≤ cap) {entry : U × Node U V} {rest : List (U × Node U V)}
    (free : ScanFree upper size (entry :: rest) lastEnd s) (small : ¬ lastEnd + size ≤ entry.1)
    (nonempty : entry.1 < entry.2.end) : entry.2.end ≤ s := by
  rcases (Range.disjoint_iff nonempty free.grows).mp (free.apart entry List.mem_cons_self)
    with past | before
  · exact past
  · exact absurd ((add.mono _ _ free.after (free.le_cap capped)).trans before) small

theorem findFreeRange_eq (m : RangeMap U V) (range : Range U) (size : ℕ) :
    m.findFreeRange range size =
      if range.end < range.start + size then none
      else (findFreeRange.scan range.end size
          (m.tree.entries.filter fun entry => snapStart m range ≤ entry.1 ∧ entry.1 < range.end)
          (snapStart m range)).map fun lastEnd => ⟨lastEnd, lastEnd + size⟩ :=
  rfl

/-- The loop of `find_free_range` over nodes that are ordered and apart, start at or after
`lastEnd`, and with room for `size` after `lastEnd`, all within the cap of `+ size`: what it
returns is the least free place, and `None` means there is none. -/
theorem scan_spec {size : ℕ} {cap : U} (add : AddBelow size cap) {upper : U} (capped : upper ≤ cap)
    (nodes : List (U × Node U V)) (lastEnd : U)
    (ordered : nodes.Pairwise fun a b => a.2.end ≤ b.1) (nonempty : ∀ entry ∈ nodes, entry.1 < entry.2.end)
    (endsCapped : ∀ entry ∈ nodes, entry.2.end ≤ cap) (lastCapped : lastEnd ≤ cap)
    (below : ∀ entry ∈ nodes, lastEnd ≤ entry.1) (room : lastEnd + size ≤ upper) :
    (∀ s, findFreeRange.scan upper size nodes lastEnd = some s →
      IsLeast {s | ScanFree upper size nodes lastEnd s} s) ∧
    (findFreeRange.scan upper size nodes lastEnd = none → ∀ s, ¬ ScanFree upper size nodes lastEnd s) := by
  induction nodes generalizing lastEnd with
  | nil =>
    refine ⟨fun s found => ?_, fun absent => by simp [findFreeRange.scan] at absent⟩
    simp only [findFreeRange.scan, Option.some.injEq] at found
    subst found
    exact ⟨⟨le_rfl, add.grows lastEnd lastCapped, room, fun _ absent => absurd absent List.not_mem_nil⟩,
      fun _ free => free.after⟩
  | cons entry rest ih =>
    obtain ⟨before, restOrdered⟩ := List.pairwise_cons.mp ordered
    have first : entry.1 < entry.2.end := nonempty entry List.mem_cons_self
    unfold findFreeRange.scan
    split_ifs with gap full
    · -- a gap of `size` before `entry`: `lastEnd` is the least free place
      refine ⟨fun s found => ?_, fun absent => by cases absent⟩
      cases found
      refine ⟨⟨le_rfl, add.grows lastEnd lastCapped, room, fun other member => ?_⟩,
        fun _ free => free.after⟩
      rw [Range.disjoint_iff (nonempty other member) (add.grows lastEnd lastCapped)]
      rcases List.mem_cons.mp member with rfl | later
      · exact .inr gap
      · exact .inr (gap.trans ((first.le).trans (before other later)))
    · -- `entry` leaves no room before `upper`, and every free place would lie past it
      refine ⟨fun _ found => found.elim, fun _ s free => ?_⟩
      have past := free.past_skipped add capped gap first
      exact absurd ((add.mono _ _ past (free.le_cap capped)).trans free.fits) (not_le.mpr full)
    · -- `entry` is skipped: the free places are those of the rest from its end on
      have same : ∀ s, ScanFree upper size (entry :: rest) lastEnd s ↔
          ScanFree upper size rest entry.2.end s := by
        intro s
        constructor
        · intro free
          exact ⟨free.past_skipped add capped gap first, free.grows, free.fits,
            fun other member => free.apart other (List.mem_cons_of_mem entry member)⟩
        · intro free
          refine ⟨(below entry List.mem_cons_self).trans (first.le.trans free.after), free.grows,
            free.fits, fun other member => ?_⟩
          rcases List.mem_cons.mp member with rfl | later
          · exact (Range.disjoint_iff first free.grows).mpr (.inl free.after)
          · exact free.apart other later
      have sets : {s | ScanFree upper size (entry :: rest) lastEnd s} =
          {s | ScanFree upper size rest entry.2.end s} := Set.ext same
      rw [sets]
      simp only [same]
      exact ih entry.2.end restOrdered
        (fun other member => nonempty other (List.mem_cons_of_mem entry member))
        (fun other member => endsCapped other (List.mem_cons_of_mem entry member))
        (endsCapped entry List.mem_cons_self) before (not_lt.mp full)

/-- The free places of `range` are those the loop looks for, among the nodes from the snapped
start up to `range.end` and after that start: a node before the snapped start ends by it, a node
from `range.end` on starts past every place, and a place before `range.start` would lie inside
the node the start was moved back to. -/
theorem Valid.freeFor_iff_scanFree {m : RangeMap U V} (valid : m.Valid) (range : Range U)
    {size : ℕ} (s : U) :
    FreeFor m range size s ↔ ScanFree range.end size
      (m.tree.entries.filter fun entry => snapStart m range ≤ entry.1 ∧ entry.1 < range.end)
      (snapStart m range) s := by
  constructor
  · intro free
    refine ⟨(snapStart_le m range).trans free.after, free.grows, free.fits, fun entry member => ?_⟩
    exact (m.forall_mem_ranges fun stored => stored.Disjoint ⟨s, s + size⟩).mp free.apart entry
      (List.mem_filter.mp member).1
  · intro free
    have after : range.start ≤ s := by
      rcases (snapStart_le m range).lt_or_eq with moved | kept
      · -- the start was moved back to a node holding `range.start`; the place lies past it
        obtain ⟨node, member, start, covers⟩ := snapStart_covered moved
        have kept : node ∈ m.tree.entries.filter
            fun entry => snapStart m range ≤ entry.1 ∧ entry.1 < range.end := by
          refine List.mem_filter.mpr ⟨member, decide_eq_true ⟨start.ge, ?_⟩⟩
          exact start ▸ free.after.trans_lt (free.grows.trans_le free.fits)
        rcases (Range.disjoint_iff (valid.nonempty node member) free.grows).mp (free.apart node kept)
          with past | before
        · exact covers.le.trans past
        · exact absurd (free.grows.trans_le (before.trans (start.trans_le free.after))) (lt_irrefl s)
      · exact kept ▸ free.after
    refine ⟨after, free.grows, free.fits,
      (m.forall_mem_ranges fun stored => stored.Disjoint ⟨s, s + size⟩).mpr fun entry member => ?_⟩
    rw [Range.disjoint_iff (valid.nonempty entry member) free.grows]
    by_cases early : entry.1 < snapStart m range
    · exact .inl ((valid.end_le_snapStart range member early).trans free.after)
    by_cases late : range.end ≤ entry.1
    · exact .inr (free.fits.trans late)
    have kept : entry ∈ m.tree.entries.filter
        fun entry => snapStart m range ≤ entry.1 ∧ entry.1 < range.end :=
      List.mem_filter.mpr ⟨member, decide_eq_true ⟨not_lt.mp early, not_le.mp late⟩⟩
    exact (Range.disjoint_iff (valid.nonempty entry member) free.grows).mp (free.apart entry kept)

/-- `find_free_range(range, size)` on a valid map whose stored ends and `range` lie within the
cap of `+ size` is a first-fit search: it returns `[s, s + size)` for the least start `s` of a
free piece of `range` of `size`, and `None` exactly when there is no such piece. -/
theorem Valid.findFreeRange_isLeast {m : RangeMap U V} (valid : m.Valid) (range : Range U)
    {size : ℕ} {cap : U} (add : AddBelow size cap)
    (endsCapped : ∀ stored ∈ m.ranges, stored.1.end ≤ cap) (startCapped : range.start ≤ cap)
    (capped : range.end ≤ cap) :
    (∀ free, m.findFreeRange range size = some free ↔
      free.end = free.start + size ∧ IsLeast {s | FreeFor m range size s} free.start) ∧
    (m.findFreeRange range size = none ↔ ∀ s, ¬ FreeFor m range size s) := by
  rw [findFreeRange_eq]
  split_ifs with tooSmall
  · -- not even `range.start` leaves room for `size`
    have nowhere : ∀ s, ¬ FreeFor m range size s := fun s free =>
      absurd ((add.mono _ _ free.after (free.grows.trans_le (free.fits.trans capped)).le).trans
        free.fits) (not_le.mpr tooSmall)
    exact ⟨fun _ => iff_of_false (by simp) fun ⟨_, least⟩ => nowhere _ least.1,
      iff_of_true rfl nowhere⟩
  · let nodes := m.tree.entries.filter
      fun entry => snapStart m range ≤ entry.1 ∧ entry.1 < range.end
    have ordered : nodes.Pairwise fun a b => a.2.end ≤ b.1 :=
      (m.tree.sorted.imp_of_mem fun memberA memberB before =>
        valid.separated _ memberA _ memberB before).filter _
    have below : ∀ entry ∈ nodes, snapStart m range ≤ entry.1 := fun entry member =>
      (of_decide_eq_true (List.mem_filter.mp member).2).1
    have room : snapStart m range + size ≤ range.end :=
      (add.mono _ _ (snapStart_le m range) startCapped).trans (not_lt.mp tooSmall)
    have nodesCapped : ∀ entry ∈ nodes, entry.2.end ≤ cap := fun entry member =>
      (m.forall_mem_ranges fun stored => stored.end ≤ cap).mp endsCapped entry
        (List.mem_filter.mp member).1
    obtain ⟨found, absent⟩ := scan_spec add capped nodes (snapStart m range) ordered
      (fun entry member => valid.nonempty entry (List.mem_filter.mp member).1) nodesCapped
      ((snapStart_le m range).trans startCapped) below room
    have sets : {s | FreeFor m range size s} = {s | ScanFree range.end size nodes (snapStart m range) s} :=
      Set.ext (valid.freeFor_iff_scanFree range)
    cases scanned : findFreeRange.scan range.end size nodes (snapStart m range) with
    | none =>
      have nowhere : ∀ s, ¬ FreeFor m range size s := fun s free =>
        absent scanned s ((valid.freeFor_iff_scanFree range s).mp free)
      exact ⟨fun _ => iff_of_false (by simp) fun ⟨_, least⟩ => nowhere _ least.1,
        iff_of_true rfl nowhere⟩
    | some s =>
      have least : IsLeast {s | FreeFor m range size s} s := sets ▸ found s scanned
      refine ⟨fun free => ⟨fun hit => ?_, fun ⟨ends, least'⟩ => ?_⟩,
        iff_of_false (by simp) fun nowhere => nowhere s least.1⟩
      · cases hit
        exact ⟨rfl, least⟩
      · obtain ⟨start, «end»⟩ := free
        obtain rfl : s = start := least.unique least'
        simp only at ends
        rw [ends]
        rfl

end FindFreeRange

/-! ### Pages -/

/-- `vpn + count` is the sum while it stays below `2 ^ VPN_WIDTH`. -/
theorem VirtPageNum.add_val {vpn : VirtPageNum} {count : ℕ}
    (small : vpn.val + count < 2 ^ VPN_WIDTH) : (vpn + count).val = vpn.val + count := by
  show (vpn.val + count) % 2 ^ 64 % 2 ^ VPN_WIDTH = vpn.val + count
  rw [Nat.mod_eq_of_lt (small.trans_le (by decide)), Nat.mod_eq_of_lt small]

/-- The `+ size` of `VirtPageNum` wraps on no page up to `2 ^ VPN_WIDTH - 1 - size`. -/
theorem addBelow_virtPageNum {size : ℕ} (positive : 0 < size) (fits : size < 2 ^ VPN_WIDTH) :
    AddBelow size (⟨2 ^ VPN_WIDTH - 1 - size⟩ : VirtPageNum) where
  grows u capped := by
    have below : u.val ≤ 2 ^ VPN_WIDTH - 1 - size := capped
    show u.val < (u + size).val
    rw [VirtPageNum.add_val (by omega)]
    omega
  mono u v before capped := by
    have ordered : u.val ≤ v.val := before
    have below : v.val ≤ 2 ^ VPN_WIDTH - 1 - size := capped
    show (u + size).val ≤ (v + size).val
    rw [VirtPageNum.add_val (by omega), VirtPageNum.add_val (by omega)]
    omega

/-- `find_free_range(range, size)` on a valid map of pages is a first-fit search when no `+ size`
it computes wraps: for `size > 0`, a `range` that starts by its end, and `range.end + size` and
every stored end `+ size` below `2 ^ VPN_WIDTH`, it returns `[s, s + size)` for the least start
`s` of a free piece of `range` of `size`, and `None` exactly when there is no such piece. -/
theorem findFreeRange_firstFit {m : RangeMap VirtPageNum V} (valid : m.Valid)
    (range : Range VirtPageNum) {size : ℕ} (positive : 0 < size) (ordered : range.start ≤ range.end)
    (fits : range.end.val + size < 2 ^ VPN_WIDTH)
    (endsFit : ∀ stored ∈ m.ranges, stored.1.end.val + size < 2 ^ VPN_WIDTH) :
    (∀ free, m.findFreeRange range size = some free ↔
      free.end = free.start + size ∧ IsLeast {s | FreeFor m range size s} free.start) ∧
    (m.findFreeRange range size = none ↔ ∀ s, ¬ FreeFor m range size s) := by
  have add := addBelow_virtPageNum positive (lt_of_le_of_lt (Nat.le_add_left _ _) fits)
  have capped : range.end ≤ ⟨2 ^ VPN_WIDTH - 1 - size⟩ :=
    show range.end.val ≤ 2 ^ VPN_WIDTH - 1 - size by omega
  have endsCapped : ∀ stored ∈ m.ranges, stored.1.end ≤ ⟨2 ^ VPN_WIDTH - 1 - size⟩ :=
    fun stored member => show stored.1.end.val ≤ 2 ^ VPN_WIDTH - 1 - size by
      have := endsFit stored member
      omega
  exact valid.findFreeRange_isLeast range add endsCapped (ordered.trans capped) capped

/-- Two areas of pages, `[0x10, 0x20)` and `[0x22, 0x30)`, as `try_insert` stores them. -/
def twoAreas : RangeMap VirtPageNum Unit :=
  ⟨⟨[(⟨0x10⟩, ⟨⟨0x20⟩, ()⟩), (⟨0x22⟩, ⟨⟨0x30⟩, ()⟩)], by decide⟩⟩

/-- A search for three pages from page `0x15`, inside the first area, to `0x40`: it moves back to
the first area, skips the gap of two pages, and returns the pages after the second area. -/
theorem findFreeRange_firstFit_twoAreas :
    twoAreas.Valid ∧ 0 < 3 ∧ (⟨0x15⟩ : VirtPageNum) ≤ ⟨0x40⟩ ∧ 0x40 + 3 < 2 ^ VPN_WIDTH ∧
      (∀ stored ∈ twoAreas.ranges, stored.1.end.val + 3 < 2 ^ VPN_WIDTH) ∧
      twoAreas.findFreeRange ⟨⟨0x15⟩, ⟨0x40⟩⟩ 3 = some ⟨⟨0x30⟩, ⟨0x33⟩⟩ ∧
      IsLeast {s | FreeFor twoAreas ⟨⟨0x15⟩, ⟨0x40⟩⟩ 3 s} ⟨0x30⟩ := by
  have valid : twoAreas.Valid :=
    valid_of_reachable ((Reachable.start.step (.tryInsert ⟨⟨0x10⟩, ⟨0x20⟩⟩ ()) (by decide) rfl).step
      (.tryInsert ⟨⟨0x22⟩, ⟨0x30⟩⟩ ()) (by decide) rfl)
  have ordered : (⟨0x15⟩ : VirtPageNum) ≤ ⟨0x40⟩ := by decide
  have fits : 0x40 + 3 < 2 ^ VPN_WIDTH := by decide
  have endsFit : ∀ stored ∈ twoAreas.ranges, stored.1.end.val + 3 < 2 ^ VPN_WIDTH := by decide
  have found : twoAreas.findFreeRange ⟨⟨0x15⟩, ⟨0x40⟩⟩ 3 = some ⟨⟨0x30⟩, ⟨0x33⟩⟩ := by decide
  exact ⟨valid, by decide, ordered, fits, endsFit, found,
    (((findFreeRange_firstFit valid _ (by decide) ordered fits endsFit).1 _).mp found).2⟩

/-- A map of pages holding the one range `[0, 2 ^ 27 - 1)`. -/
def nearlyFull : RangeMap VirtPageNum Unit :=
  ⟨⟨[(⟨0⟩, ⟨⟨2 ^ 27 - 1⟩, ()⟩)], List.pairwise_singleton _ _⟩⟩

/-- With the `+` of `VirtPageNum`, which keeps 27 bits, `find_free_range([0, 10), 1)` on
`nearlyFull` takes the end of its one range for a place: `2 ^ 27 - 1 + 1` wraps to `0`, below
`range.end`. It returns `[2 ^ 27 - 1, 0)`, although no page of `[0, 10)` is free. -/
theorem findFreeRange_wraps_past_range :
    nearlyFull.Valid ∧ nearlyFull.findFreeRange ⟨⟨0⟩, ⟨10⟩⟩ 1 = some ⟨⟨2 ^ 27 - 1⟩, ⟨0⟩⟩ ∧
      ∀ s, ¬ FreeFor nearlyFull ⟨⟨0⟩, ⟨10⟩⟩ 1 s := by
  have valid : nearlyFull.Valid :=
    valid_of_reachable (.step (.tryInsert ⟨⟨0⟩, ⟨2 ^ 27 - 1⟩⟩ ()) .start (by decide) rfl)
  refine ⟨valid, by decide +kernel, fun s free => ?_⟩
  -- a place of one page that does not wrap and ends by page 10 starts below 10
  have grows : s.val < (s + 1).val := free.grows
  have fits : (s + 1).val ≤ 10 := free.fits
  have small : s.val < 10 := by
    simp only [HAdd.hAdd, VirtPageNum.add, VirtPageNum.ofUsize, usizeWrap, VPN_WIDTH, VA_WIDTH,
      PAGE_SIZE_BITS] at grows fits
    omega
  have stored : ((⟨⟨0⟩, ⟨2 ^ 27 - 1⟩⟩ : Range VirtPageNum), ()) ∈ nearlyFull.ranges := by decide
  exact free.apart _ stored s ⟨Nat.zero_le _, show s.val < 2 ^ 27 - 1 by omega⟩ ⟨le_rfl, free.grows⟩

end Chronix.RangeMap
