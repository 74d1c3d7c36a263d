import Mathlib

/-! # Ordered maps as key-sorted entry lists

A search tree with unique keys is observed through its in-order entry list, whose keys strictly
increase. A range query yields the entries with keys in the range, in key order; `next` takes
the first of them and `next_back` the last. Every operation below is characterised by
membership, so that proofs about a client reason about the set of stored entries and never
about positions in the list. Insertion keeps the list sorted by construction.
-/

namespace List

variable {α κ : Type*} [LinearOrder κ]

/-- In a list sorted by a key, `find?` returns the matching element of least key. -/
theorem find?_eq_some_iff_of_sorted (key : α → κ) {l : List α}
    (sorted : l.Pairwise (fun a b => key a < key b)) (p : α → Bool) (x : α) :
    l.find? p = some x ↔ x ∈ l ∧ p x ∧ ∀ y ∈ l, p y → key x ≤ key y := by
  induction l with
  | nil => simp
  | cons head rest ih =>
    have later := (pairwise_cons.mp sorted).1
    have restSorted := sorted.of_cons
    by_cases selected : p head
    · rw [find?_cons_of_pos selected, Option.some.injEq]
      simp only [mem_cons, forall_eq_or_imp]
      constructor
      · rintro rfl
        exact ⟨.inl rfl, selected, fun _ => le_rfl, fun y member _ => (later y member).le⟩
      · rintro ⟨rfl | member, -, first, -⟩
        · rfl
        · exact absurd (first selected) (not_le.mpr (later x member))
    · rw [find?_cons_of_neg selected, ih restSorted]
      constructor
      · rintro ⟨member, passes, least⟩
        refine ⟨mem_cons_of_mem _ member, passes, fun y inList passesY => ?_⟩
        rcases mem_cons.mp inList with rfl | inRest
        · exact absurd passesY selected
        · exact least y inRest passesY
      · rintro ⟨member, passes, least⟩
        have other : x ≠ head := by rintro rfl; exact selected passes
        exact ⟨(mem_cons.mp member).resolve_left other, passes,
          fun y inRest => least y (mem_cons_of_mem _ inRest)⟩

/-- In a list sorted by a key, the last element passing a filter is the one of greatest key. -/
theorem getLast?_filter_eq_some_iff_of_sorted (key : α → κ) {l : List α}
    (sorted : l.Pairwise (fun a b => key a < key b)) (p : α → Bool) (x : α) :
    (l.filter p).getLast? = some x ↔ x ∈ l ∧ p x ∧ ∀ y ∈ l, p y → key y ≤ key x := by
  have reversed : l.reverse.Pairwise (fun a b => OrderDual.toDual (key a) < OrderDual.toDual (key b)) :=
    pairwise_reverse.mpr sorted
  rw [getLast?_filter, find?_eq_some_iff_of_sorted (fun a => OrderDual.toDual (key a)) reversed]
  simp only [mem_reverse, OrderDual.toDual_le_toDual]

end List

/-- A finite map whose entries are kept with strictly increasing keys. -/
structure SortedMap (κ ν : Type*) [LinearOrder κ] where
  entries : List (κ × ν)
  sorted : entries.Pairwise (fun a b => a.1 < b.1)

namespace SortedMap

variable {κ ν : Type*} [LinearOrder κ]

/-- The map with no entries. -/
def empty : SortedMap κ ν := ⟨[], .nil⟩

/-- The value stored under a key. -/
def get? (m : SortedMap κ ν) (key : κ) : Option ν :=
  (m.entries.find? (fun entry => entry.1 = key)).map Prod.snd

/-- The last entry of `range(..bound)`: the entry of greatest key below `bound`. -/
def lastBelow? (m : SortedMap κ ν) (bound : κ) : Option (κ × ν) :=
  (m.entries.filter (fun entry => entry.1 < bound)).getLast?

/-- The last entry of `range(..=bound)`: the entry of greatest key at most `bound`. -/
def lastAtMost? (m : SortedMap κ ν) (bound : κ) : Option (κ × ν) :=
  (m.entries.filter (fun entry => entry.1 ≤ bound)).getLast?

/-- The first entry of `range(lower..upper)`: the entry of least key in `[lower, upper)`. -/
def firstIn? (m : SortedMap κ ν) (lower upper : κ) : Option (κ × ν) :=
  m.entries.find? (fun entry => lower ≤ entry.1 ∧ entry.1 < upper)

/-- Place an entry before the first entry of greater key. -/
def insertEntry (key : κ) (value : ν) : List (κ × ν) → List (κ × ν)
  | [] => [(key, value)]
  | entry :: rest =>
    if key < entry.1 then (key, value) :: entry :: rest else entry :: insertEntry key value rest

theorem mem_insertEntry (key : κ) (value : ν) (entries : List (κ × ν)) (entry : κ × ν) :
    entry ∈ insertEntry key value entries ↔ entry = (key, value) ∨ entry ∈ entries := by
  induction entries with
  | nil => simp [insertEntry]
  | cons head rest ih =>
    unfold insertEntry
    split_ifs
    · simp only [List.mem_cons]
    · simp only [List.mem_cons, ih, or_left_comm]

theorem sorted_insertEntry (key : κ) (value : ν) {entries : List (κ × ν)}
    (sorted : entries.Pairwise (fun a b => a.1 < b.1)) (absent : ∀ entry ∈ entries, entry.1 ≠ key) :
    (insertEntry key value entries).Pairwise (fun a b => a.1 < b.1) := by
  induction entries with
  | nil => simp [insertEntry]
  | cons head rest ih =>
    have later := (List.pairwise_cons.mp sorted).1
    unfold insertEntry
    split_ifs with before
    · refine List.Pairwise.cons ?_ sorted
      intro entry member
      rcases List.mem_cons.mp member with rfl | inRest
      · exact before
      · exact before.trans (later entry inRest)
    · have after : head.1 < key :=
        lt_of_le_of_ne (not_lt.mp before) (absent head List.mem_cons_self)
      refine List.Pairwise.cons ?_ (ih sorted.of_cons fun entry member =>
        absent entry (List.mem_cons_of_mem _ member))
      intro entry member
      rcases (mem_insertEntry key value rest entry).mp member with rfl | inRest
      · exact after
      · exact later entry inRest

/-- `try_insert`: add an entry under a fresh key; `none` when the key is already present. -/
def tryInsert? (m : SortedMap κ ν) (key : κ) (value : ν) : Option (SortedMap κ ν) :=
  if absent : ∀ entry ∈ m.entries, entry.1 ≠ key then
    some ⟨insertEntry key value m.entries, sorted_insertEntry key value m.sorted absent⟩
  else none

/-- The map without the entry under `key`. -/
def erase (m : SortedMap κ ν) (key : κ) : SortedMap κ ν :=
  ⟨m.entries.filter (fun entry => entry.1 ≠ key), m.sorted.filter _⟩

/-- `remove`: the value under a key together with the map without it. -/
def remove? (m : SortedMap κ ν) (key : κ) : Option (ν × SortedMap κ ν) :=
  (m.get? key).map fun value => (value, m.erase key)

/-- Update in place the value under `key` (`get_mut` followed by an assignment). -/
def modify (m : SortedMap κ ν) (key : κ) (update : ν → ν) : SortedMap κ ν :=
  ⟨m.entries.map (fun entry => if entry.1 = key then (entry.1, update entry.2) else entry),
    List.Pairwise.map _ (fun a b lt => by split_ifs <;> exact lt) m.sorted⟩

@[simp] theorem entries_empty : (empty : SortedMap κ ν).entries = [] := rfl

/-- Keys are unique: two stored entries with the same key are the same entry. -/
theorem eq_of_mem_of_key_eq (m : SortedMap κ ν) {a b : κ × ν} (memberA : a ∈ m.entries)
    (memberB : b ∈ m.entries) (same : a.1 = b.1) : a = b := by
  have distinct : (m.entries.map Prod.fst).Nodup :=
    List.pairwise_map.mpr (m.sorted.imp ne_of_lt)
  exact List.inj_on_of_nodup_map distinct memberA memberB same

theorem get?_eq_some_iff (m : SortedMap κ ν) (key : κ) (value : ν) :
    m.get? key = some value ↔ (key, value) ∈ m.entries := by
  simp only [get?, Option.map_eq_some_iff]
  constructor
  · rintro ⟨entry, found, rfl⟩
    have passes := List.find?_some found
    simp only [decide_eq_true_eq] at passes
    rw [← passes]
    exact List.mem_of_find?_eq_some found
  · intro member
    have present : (m.entries.find? (fun entry => entry.1 = key)).isSome :=
      List.find?_isSome.mpr ⟨(key, value), member, decide_eq_true rfl⟩
    obtain ⟨entry, found⟩ := Option.isSome_iff_exists.mp present
    have passes := List.find?_some found
    simp only [decide_eq_true_eq] at passes
    refine ⟨entry, found, ?_⟩
    exact congrArg Prod.snd (m.eq_of_mem_of_key_eq (List.mem_of_find?_eq_some found) member passes)

theorem get?_eq_none_iff (m : SortedMap κ ν) (key : κ) :
    m.get? key = none ↔ ∀ entry ∈ m.entries, entry.1 ≠ key := by
  simp [get?]

theorem lastBelow?_eq_some_iff (m : SortedMap κ ν) (bound : κ) (entry : κ × ν) :
    m.lastBelow? bound = some entry ↔
      entry ∈ m.entries ∧ entry.1 < bound ∧ ∀ other ∈ m.entries, other.1 < bound → other.1 ≤ entry.1 := by
  rw [lastBelow?, List.getLast?_filter_eq_some_iff_of_sorted Prod.fst m.sorted]
  simp only [decide_eq_true_eq]

theorem lastBelow?_eq_none_iff (m : SortedMap κ ν) (bound : κ) :
    m.lastBelow? bound = none ↔ ∀ entry ∈ m.entries, bound ≤ entry.1 := by
  simp [lastBelow?]

theorem lastAtMost?_eq_some_iff (m : SortedMap κ ν) (bound : κ) (entry : κ × ν) :
    m.lastAtMost? bound = some entry ↔
      entry ∈ m.entries ∧ entry.1 ≤ bound ∧ ∀ other ∈ m.entries, other.1 ≤ bound → other.1 ≤ entry.1 := by
  rw [lastAtMost?, List.getLast?_filter_eq_some_iff_of_sorted Prod.fst m.sorted]
  simp only [decide_eq_true_eq]

theorem lastAtMost?_eq_none_iff (m : SortedMap κ ν) (bound : κ) :
    m.lastAtMost? bound = none ↔ ∀ entry ∈ m.entries, bound < entry.1 := by
  simp [lastAtMost?]

theorem firstIn?_eq_some_iff (m : SortedMap κ ν) (lower upper : κ) (entry : κ × ν) :
    m.firstIn? lower upper = some entry ↔
      entry ∈ m.entries ∧ (lower ≤ entry.1 ∧ entry.1 < upper) ∧
        ∀ other ∈ m.entries, lower ≤ other.1 → other.1 < upper → entry.1 ≤ other.1 := by
  rw [firstIn?, List.find?_eq_some_iff_of_sorted Prod.fst m.sorted]
  simp only [decide_eq_true_eq, and_imp]

theorem firstIn?_eq_none_iff (m : SortedMap κ ν) (lower upper : κ) :
    m.firstIn? lower upper = none ↔ ∀ entry ∈ m.entries, lower ≤ entry.1 → upper ≤ entry.1 := by
  simp [firstIn?]

theorem tryInsert?_eq_none_iff (m : SortedMap κ ν) (key : κ) (value : ν) :
    m.tryInsert? key value = none ↔ ∃ entry ∈ m.entries, entry.1 = key := by
  unfold tryInsert?
  split_ifs with absent
  · exact iff_of_false (by simp) (fun ⟨entry, member, atKey⟩ => absent entry member atKey)
  · refine iff_of_true rfl ?_
    by_contra none
    exact absent fun entry member atKey => none ⟨entry, member, atKey⟩

theorem mem_of_tryInsert? {m m' : SortedMap κ ν} {key : κ} {value : ν}
    (inserted : m.tryInsert? key value = some m') (entry : κ × ν) :
    entry ∈ m'.entries ↔ entry = (key, value) ∨ entry ∈ m.entries := by
  unfold tryInsert? at inserted
  split_ifs at inserted
  cases inserted
  exact mem_insertEntry key value m.entries entry

theorem tryInsert?_isSome_iff (m : SortedMap κ ν) (key : κ) (value : ν) :
    (m.tryInsert? key value).isSome ↔ ∀ entry ∈ m.entries, entry.1 ≠ key := by
  unfold tryInsert?
  split_ifs with absent <;> simpa using absent

@[simp] theorem mem_erase (m : SortedMap κ ν) (key : κ) (entry : κ × ν) :
    entry ∈ (m.erase key).entries ↔ entry ∈ m.entries ∧ entry.1 ≠ key := by
  simp [erase]

theorem remove?_eq_some_iff (m : SortedMap κ ν) (key : κ) (value : ν) (rest : SortedMap κ ν) :
    m.remove? key = some (value, rest) ↔ (key, value) ∈ m.entries ∧ rest = m.erase key := by
  simp only [remove?, Option.map_eq_some_iff, Prod.mk.injEq]
  constructor
  · rintro ⟨stored, found, rfl, rfl⟩
    exact ⟨(m.get?_eq_some_iff key stored).mp found, rfl⟩
  · rintro ⟨member, rfl⟩
    exact ⟨value, (m.get?_eq_some_iff key value).mpr member, rfl, rfl⟩

theorem remove?_eq_none_iff (m : SortedMap κ ν) (key : κ) :
    m.remove? key = none ↔ ∀ entry ∈ m.entries, entry.1 ≠ key := by
  simp only [remove?, Option.map_eq_none_iff, get?_eq_none_iff]

theorem mem_modify (m : SortedMap κ ν) (key : κ) (update : ν → ν) (entry : κ × ν) :
    entry ∈ (m.modify key update).entries ↔
      (∃ value, (key, value) ∈ m.entries ∧ entry = (key, update value)) ∨
        (entry ∈ m.entries ∧ entry.1 ≠ key) := by
  simp only [modify, List.mem_map]
  constructor
  · rintro ⟨stored, member, rfl⟩
    split_ifs with atKey
    · exact .inl ⟨stored.2, by rw [← atKey]; exact member, by rw [atKey]⟩
    · exact .inr ⟨member, atKey⟩
  · rintro (⟨value, member, rfl⟩ | ⟨member, other⟩)
    · exact ⟨(key, value), member, by simp⟩
    · exact ⟨entry, member, by simp [other]⟩

theorem length_modify (m : SortedMap κ ν) (key : κ) (update : ν → ν) :
    (m.modify key update).entries.length = m.entries.length :=
  List.length_map _

/-- Erasing a stored key shortens the entry list. -/
theorem length_erase_lt (m : SortedMap κ ν) {entry : κ × ν} (member : entry ∈ m.entries) :
    (m.erase entry.1).entries.length < m.entries.length :=
  List.length_filter_lt_length_iff_exists.mpr ⟨entry, member, by simp⟩

/-- `insert`: the entry under `key` is replaced, or added. -/
def insert (m : SortedMap κ ν) (key : κ) (value : ν) : SortedMap κ ν :=
  ⟨insertEntry key value (m.erase key).entries,
    sorted_insertEntry key value (m.erase key).sorted
      fun entry member => ((m.mem_erase key entry).mp member).2⟩

/-- `split_off(&key)`: the entries below `key`, and those from `key` on. -/
def splitOff (m : SortedMap κ ν) (key : κ) : SortedMap κ ν × SortedMap κ ν :=
  (⟨m.entries.filter (fun entry => entry.1 < key), m.sorted.filter _⟩,
    ⟨m.entries.filter (fun entry => key ≤ entry.1), m.sorted.filter _⟩)

/-- `append`: the entries of `other` inserted one after the other. -/
def append (m other : SortedMap κ ν) : SortedMap κ ν :=
  other.entries.foldl (fun acc entry => acc.insert entry.1 entry.2) m

theorem mem_insert (m : SortedMap κ ν) (key : κ) (value : ν) (entry : κ × ν) :
    entry ∈ (m.insert key value).entries ↔
      entry = (key, value) ∨ (entry ∈ m.entries ∧ entry.1 ≠ key) := by
  simp only [insert, mem_insertEntry, mem_erase]

@[simp] theorem mem_splitOff_fst (m : SortedMap κ ν) (key : κ) (entry : κ × ν) :
    entry ∈ (m.splitOff key).1.entries ↔ entry ∈ m.entries ∧ entry.1 < key := by
  simp [splitOff]

@[simp] theorem mem_splitOff_snd (m : SortedMap κ ν) (key : κ) (entry : κ × ν) :
    entry ∈ (m.splitOff key).2.entries ↔ entry ∈ m.entries ∧ key ≤ entry.1 := by
  simp [splitOff]

theorem get?_splitOff_fst (m : SortedMap κ ν) (key k : κ) :
    (m.splitOff key).1.get? k = if k < key then m.get? k else none := by
  split_ifs with below
  · ext value
    rw [get?_eq_some_iff, get?_eq_some_iff, mem_splitOff_fst]
    exact and_iff_left below
  · rw [get?_eq_none_iff]
    intro entry member same
    exact below (same ▸ ((m.mem_splitOff_fst key entry).mp member).2)

theorem get?_splitOff_snd (m : SortedMap κ ν) (key k : κ) :
    (m.splitOff key).2.get? k = if key ≤ k then m.get? k else none := by
  split_ifs with above
  · ext value
    rw [get?_eq_some_iff, get?_eq_some_iff, mem_splitOff_snd]
    exact and_iff_left above
  · rw [get?_eq_none_iff]
    intro entry member same
    exact above (same ▸ ((m.mem_splitOff_snd key entry).mp member).2)

/-! ## Lookups after an update -/

theorem get?_insert (m : SortedMap κ ν) (key : κ) (value : ν) (k : κ) :
    (m.insert key value).get? k = if k = key then some value else m.get? k := by
  split_ifs with same
  · subst same
    exact ((m.insert k value).get?_eq_some_iff k value).mpr ((m.mem_insert k value _).mpr (.inl rfl))
  · cases stored : m.get? k with
    | none =>
      rw [get?_eq_none_iff] at stored ⊢
      intro entry member
      rcases (m.mem_insert key value entry).mp member with rfl | ⟨inM, -⟩
      · exact Ne.symm same
      · exact stored entry inM
    | some v =>
      rw [get?_eq_some_iff] at stored ⊢
      exact (m.mem_insert key value _).mpr (.inr ⟨stored, same⟩)

theorem get?_modify (m : SortedMap κ ν) (key : κ) (update : ν → ν) (k : κ) :
    (m.modify key update).get? k = if k = key then (m.get? k).map update else m.get? k := by
  split_ifs with same
  · subst same
    cases stored : m.get? k with
    | none =>
      rw [Option.map_none, get?_eq_none_iff]
      intro entry member
      rcases (m.mem_modify k update entry).mp member with ⟨v, inM, rfl⟩ | ⟨-, differs⟩
      · rw [(m.get?_eq_some_iff k v).mpr inM] at stored
        cases stored
      · exact differs
    | some v =>
      rw [Option.map_some, get?_eq_some_iff]
      exact (m.mem_modify k update _).mpr (.inl ⟨v, (m.get?_eq_some_iff k v).mp stored, rfl⟩)
  · cases stored : m.get? k with
    | none =>
      rw [get?_eq_none_iff] at stored ⊢
      intro entry member
      rcases (m.mem_modify key update entry).mp member with ⟨v, -, rfl⟩ | ⟨inM, -⟩
      · exact Ne.symm same
      · exact stored entry inM
    | some v =>
      rw [get?_eq_some_iff] at stored ⊢
      exact (m.mem_modify key update _).mpr (.inr ⟨stored, same⟩)

theorem get?_erase (m : SortedMap κ ν) (key k : κ) :
    (m.erase key).get? k = if k = key then none else m.get? k := by
  split_ifs with same
  · subst same
    rw [get?_eq_none_iff]
    intro entry member
    exact ((m.mem_erase k entry).mp member).2
  · cases stored : m.get? k with
    | none =>
      rw [get?_eq_none_iff] at stored ⊢
      intro entry member
      exact stored entry ((m.mem_erase key entry).mp member).1
    | some v =>
      rw [get?_eq_some_iff] at stored ⊢
      exact (m.mem_erase key _).mpr ⟨stored, same⟩


@[simp] theorem get?_empty (key : κ) : (empty : SortedMap κ ν).get? key = none := rfl

/-! ## Extensionality -/

theorem nodup_entries (m : SortedMap κ ν) : m.entries.Nodup :=
  List.nodup_iff_pairwise_ne.mpr (m.sorted.imp fun lt same => (ne_of_lt lt) (congrArg Prod.fst same))

/-- Two maps with the same entries are the same map. -/
theorem ext_mem {m m' : SortedMap κ ν} (members : ∀ entry, entry ∈ m.entries ↔ entry ∈ m'.entries) :
    m = m' := by
  have perm := (List.perm_ext_iff_of_nodup m.nodup_entries m'.nodup_entries).mpr members
  have entries : m.entries = m'.entries :=
    perm.eq_of_pairwise (fun _ _ _ _ lt gt => absurd (lt.trans gt) (lt_irrefl _)) m.sorted m'.sorted
  cases m
  cases m'
  cases entries
  rfl

/-- Two maps with the same lookups are the same map. -/
theorem ext_get? {m m' : SortedMap κ ν} (same : ∀ key, m.get? key = m'.get? key) : m = m' :=
  ext_mem fun ⟨key, value⟩ => by rw [← get?_eq_some_iff, ← get?_eq_some_iff, same]

theorem insert_of_get? {m : SortedMap κ ν} {key : κ} {value : ν} (stored : m.get? key = some value) :
    m.insert key value = m :=
  ext_get? fun k => by
    rw [get?_insert]
    split_ifs with same
    · rw [same, stored]
    · rfl

theorem erase_of_get?_none {m : SortedMap κ ν} {key : κ} (absent : m.get? key = none) :
    m.erase key = m :=
  ext_get? fun k => by
    rw [get?_erase]
    split_ifs with same
    · rw [same, absent]
    · rfl

theorem erase_insert (m : SortedMap κ ν) (key : κ) (value : ν) :
    (m.insert key value).erase key = m.erase key :=
  ext_get? fun k => by
    simp only [get?_erase, get?_insert]
    split_ifs <;> rfl

theorem erase_modify (m : SortedMap κ ν) (key : κ) (update : ν → ν) :
    (m.modify key update).erase key = m.erase key :=
  ext_get? fun k => by
    simp only [get?_erase, get?_modify]
    split_ifs <;> rfl

/-! ## Mapping the values -/

/-- The map with `f` applied to every value. -/
def map {μ : Type*} (f : ν → μ) (m : SortedMap κ ν) : SortedMap κ μ :=
  ⟨m.entries.map fun entry => (entry.1, f entry.2), List.pairwise_map.mpr m.sorted⟩

section Map

variable {μ : Type*} (f : ν → μ)

@[simp] theorem get?_map (m : SortedMap κ ν) (key : κ) : (m.map f).get? key = (m.get? key).map f := by
  simp only [get?, map, List.find?_map, Option.map_map]
  rfl

theorem map_insert (m : SortedMap κ ν) (key : κ) (value : ν) :
    (m.insert key value).map f = (m.map f).insert key (f value) :=
  ext_get? fun k => by
    simp only [get?_map, get?_insert]
    split_ifs <;> rfl

theorem map_modify (m : SortedMap κ ν) (key : κ) {update : ν → ν} {update' : μ → μ}
    (commutes : ∀ value, f (update value) = update' (f value)) :
    (m.modify key update).map f = (m.map f).modify key update' :=
  ext_get? fun k => by
    simp only [get?_map, get?_modify]
    split_ifs
    · cases m.get? k <;> simp [commutes]
    · rfl

theorem map_erase (m : SortedMap κ ν) (key : κ) : (m.erase key).map f = (m.map f).erase key :=
  ext_get? fun k => by
    simp only [get?_map, get?_erase]
    split_ifs <;> rfl

end Map

/-! ## Counting the values that pass a test -/

/-- The number of stored values that pass `p`. -/
def count (m : SortedMap κ ν) (p : ν → Bool) : ℕ := m.entries.countP fun entry => p entry.2

/-- A stored entry can be taken to the front of the others. -/
theorem perm_erase_of_get? {m : SortedMap κ ν} {key : κ} {value : ν} (stored : m.get? key = some value) :
    m.entries.Perm ((key, value) :: (m.erase key).entries) := by
  have fresh : (key, value) ∉ (m.erase key).entries := by simp
  refine (List.perm_ext_iff_of_nodup m.nodup_entries
    (List.nodup_cons.mpr ⟨fresh, (m.erase key).nodup_entries⟩)).mpr fun entry => ?_
  rw [List.mem_cons, mem_erase]
  constructor
  · intro member
    by_cases atKey : entry.1 = key
    · exact .inl (m.eq_of_mem_of_key_eq member ((m.get?_eq_some_iff key value).mp stored) atKey)
    · exact .inr ⟨member, atKey⟩
  · rintro (rfl | ⟨member, -⟩)
    · exact (m.get?_eq_some_iff key value).mp stored
    · exact member

/-- The entry of a new key can be taken to the front of the others. -/
theorem perm_insert_of_get?_none {m : SortedMap κ ν} {key : κ} (absent : m.get? key = none)
    (value : ν) : (m.insert key value).entries.Perm ((key, value) :: m.entries) := by
  have stored : (m.insert key value).get? key = some value := by simp [get?_insert]
  have moved := perm_erase_of_get? stored
  rwa [erase_insert, erase_of_get?_none absent] at moved

theorem count_of_get? {m : SortedMap κ ν} {key : κ} {value : ν} (stored : m.get? key = some value)
    (p : ν → Bool) : m.count p = (m.erase key).count p + if p value then 1 else 0 := by
  rw [count, (perm_erase_of_get? stored).countP_eq, List.countP_cons]
  rfl

theorem count_insert_of_get?_none {m : SortedMap κ ν} {key : κ} (absent : m.get? key = none)
    (value : ν) (p : ν → Bool) :
    (m.insert key value).count p = m.count p + if p value then 1 else 0 := by
  rw [count, (perm_insert_of_get?_none absent value).countP_eq, List.countP_cons]
  rfl

theorem count_modify {m : SortedMap κ ν} {key : κ} {value : ν} (stored : m.get? key = some value)
    (update : ν → ν) (p : ν → Bool) :
    (m.modify key update).count p + (if p value then 1 else 0) =
      m.count p + if p (update value) then 1 else 0 := by
  have modified : (m.modify key update).get? key = some (update value) := by simp [get?_modify, stored]
  rw [count_of_get? modified, erase_modify, count_of_get? stored]
  omega

/-- A map none of whose values passes `p` counts none. -/
theorem count_eq_zero {m : SortedMap κ ν} {p : ν → Bool}
    (none : ∀ key value, m.get? key = some value → p value = false) : m.count p = 0 := by
  rw [count, List.countP_eq_zero]
  intro entry member
  simpa using none entry.1 entry.2 ((m.get?_eq_some_iff _ _).mpr member)

/-! ## Appending a map -/

private theorem get?_foldl_insert (l : List (κ × ν)) (sorted : l.Pairwise (fun a b => a.1 < b.1))
    (m : SortedMap κ ν) (key : κ) :
    (l.foldl (fun acc entry => acc.insert entry.1 entry.2) m).get? key =
      ((l.find? fun entry => entry.1 = key).map Prod.snd).or (m.get? key) := by
  induction l generalizing m with
  | nil => rfl
  | cons head rest ih =>
    rw [List.foldl_cons, ih sorted.of_cons, get?_insert]
    by_cases atHead : key = head.1
    · have later : rest.find? (fun entry => entry.1 = key) = none := by
        rw [List.find?_eq_none]
        intro entry member same
        have := (List.pairwise_cons.mp sorted).1 entry member
        simp only [decide_eq_true_eq] at same
        rw [same, atHead] at this
        exact lt_irrefl _ this
      subst atHead
      simp [later]
    · have skipped : ¬(head.1 = key) := fun same => atHead same.symm
      simp [skipped, atHead]

theorem eq_empty_of_entries_nil {m : SortedMap κ ν} (none : m.entries = []) : m = empty :=
  ext_get? fun k => by simp [get?, none]

theorem append_of_entries_nil (m : SortedMap κ ν) {other : SortedMap κ ν} (none : other.entries = []) :
    m.append other = m := by
  simp [append, none]

/-- After `append`, a key of `other` holds its value there, any other key its value in `m`. -/
theorem get?_append (m other : SortedMap κ ν) (key : κ) :
    (m.append other).get? key = (other.get? key).or (m.get? key) :=
  get?_foldl_insert other.entries other.sorted m key

end SortedMap
