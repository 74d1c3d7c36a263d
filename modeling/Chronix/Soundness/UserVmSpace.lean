import Chronix.Model.Mm
import Chronix.Soundness.RangeMap

/-! # The area map of a user address space

`push_area` is the one way areas enter the map, and it trusts `try_insert`: on a valid map it
panics exactly when the new area shares a page with a stored one (`pushArea_spec`), and
otherwise stores it under its pages. Every path that pushes an area it has not checked against
the map can therefore panic. `map_elf` pushes one area per `PT_LOAD` header, each rounded out to
whole pages, so two headers whose bytes are apart but whose pages meet make `from_elf` panic
(`fromElf_sharedPage_panics`). `sys_mremap` rounds sizes with `& !(PAGE_SIZE)`, so a size of one
byte becomes zero; `unmap` of zero bytes at the start of an area then hands back an empty area
whose start is still a key, and pushing it back panics inside `try_insert`
(`sysMremap_oneByte_panics`). `try_union` merges neighbours whose offsets continue each other
even when the first one's file length is shorter than its pages, which moves the file offsets of
the second one's pages (`sysMunmap_moves_fileOffset`).
-/

namespace Chronix

namespace UserVmSpace

open RangeMap

/-- The area map is well formed: the `RangeMap` invariant holds, every area is stored under its
own pages, and every frame of an area lies on one of them. -/
structure Wf (s : UserVmSpace) : Prop where
  valid : s.areas.Valid
  keyed : ∀ entry ∈ s.areas.tree.entries, entryRange entry = entry.2.value.rangeVpn
  framesInside : ∀ entry ∈ s.areas.tree.entries, ∀ frame ∈ entry.2.value.frames.entries,
    entry.2.value.rangeVpn.contains frame.1

theorem wf_new : new.Wf :=
  ⟨valid_new, fun _ absent => absurd absent List.not_mem_nil,
    fun _ absent => absurd absent List.not_mem_nil⟩

/-- The entry `push_area` stores for an area. -/
theorem entryRange_of_area (area : UserVmArea) :
    entryRange (area.rangeVpn.start, (⟨area.rangeVpn.end, area⟩ : Node VirtPageNum UserVmArea)) =
      area.rangeVpn :=
  rfl

/-- `push_area` of an area with pages, on a valid map: it panics exactly when the area shares a
page with a stored one; otherwise it adds the area under its pages, keeps every stored area and
maps the area's frames. -/
theorem pushArea_spec {s : UserVmSpace} (valid : s.areas.Valid) {area : UserVmArea}
    (nonempty : area.rangeVpn.start < area.rangeVpn.end) :
    (s.pushArea area = none ↔
      ∃ entry ∈ s.areas.tree.entries, ¬ (entryRange entry).Disjoint area.rangeVpn) ∧
    ∀ s', s.pushArea area = some s' →
      (∀ entry, entry ∈ s'.areas.tree.entries ↔
        entry = (area.rangeVpn.start, ⟨area.rangeVpn.end, area⟩) ∨ entry ∈ s.areas.tree.entries) ∧
      s'.pageTable = area.map s.pageTable ∧ s'.brk = s.brk := by
  obtain ⟨result, next, inserted, succeeds, members, -⟩ := tryInsert_spec valid nonempty area
  cases result with
  | error value =>
    -- `try_insert` refused the range: `push_area` panics
    have refused : s.pushArea area = none := by simp [pushArea, inserted]
    refine ⟨iff_of_true refused ?_, fun _ pushed => absurd (refused ▸ pushed) (by simp)⟩
    by_contra apart
    push Not at apart
    cases succeeds.mpr apart
  | ok =>
    have pushed : s.pushArea area = some { s with areas := next, pageTable := area.map s.pageTable } := by
      simp [pushArea, inserted]
    refine ⟨iff_of_false (by simp [pushed]) ?_, fun s' stored => ?_⟩
    · push Not
      exact succeeds.mp rfl
    · rw [pushed, Option.some.injEq] at stored
      subst stored
      exact ⟨members rfl, rfl, rfl⟩

theorem valid_pushArea {s s' : UserVmSpace} (valid : s.areas.Valid) {area : UserVmArea}
    (nonempty : area.rangeVpn.start < area.rangeVpn.end) (pushed : s.pushArea area = some s') :
    s'.areas.Valid := by
  obtain ⟨refusal, stored⟩ := pushArea_spec valid nonempty
  have apart : ∀ entry ∈ s.areas.tree.entries, (entryRange entry).Disjoint area.rangeVpn := by
    by_contra overlap
    push Not at overlap
    rw [refusal.mpr overlap] at pushed
    cases pushed
  exact valid.insert nonempty apart (stored s' pushed).1

/-- `push_area` keeps the area map well formed when the area has pages and its frames lie on
them. -/
theorem Wf.pushArea {s s' : UserVmSpace} (wf : s.Wf) {area : UserVmArea}
    (nonempty : area.rangeVpn.start < area.rangeVpn.end)
    (inside : ∀ frame ∈ area.frames.entries, area.rangeVpn.contains frame.1)
    (pushed : s.pushArea area = some s') : s'.Wf := by
  have members := ((pushArea_spec wf.valid nonempty).2 s' pushed).1
  refine ⟨valid_pushArea wf.valid nonempty pushed, fun entry member => ?_, fun entry member => ?_⟩
  · rcases (members entry).mp member with rfl | old
    · exact entryRange_of_area area
    · exact wf.keyed entry old
  · rcases (members entry).mp member with rfl | old
    · exact inside
    · exact wf.framesInside entry old

/-! ## Forking an address space -/

/-- Areas with pages, pairwise apart and apart from every stored area, pushed one after another:
no push panics, and the space ends up with its own areas and exactly the pushed ones. -/
theorem foldlM_pushArea_spec (areas : List UserVmArea) {s : UserVmSpace} (valid : s.areas.Valid)
    (nonempty : ∀ area ∈ areas, area.rangeVpn.start < area.rangeVpn.end)
    (pairwise : areas.Pairwise fun a b => a.rangeVpn.Disjoint b.rangeVpn)
    (apart : ∀ area ∈ areas, ∀ entry ∈ s.areas.tree.entries,
      (entryRange entry).Disjoint area.rangeVpn) :
    ∃ s', areas.foldlM (fun child area => child.pushArea area) s = some s' ∧
      (∀ entry, entry ∈ s'.areas.tree.entries ↔
        (∃ area ∈ areas, entry = (area.rangeVpn.start, ⟨area.rangeVpn.end, area⟩)) ∨
          entry ∈ s.areas.tree.entries) ∧
      s'.brk = s.brk := by
  induction areas generalizing s with
  | nil => exact ⟨s, rfl, by simp, rfl⟩
  | cons area rest ih =>
    have first : area.rangeVpn.start < area.rangeVpn.end := nonempty area List.mem_cons_self
    obtain ⟨refusal, stored⟩ := pushArea_spec valid first
    -- the first area overlaps nothing stored, so its push goes through
    obtain ⟨next, pushed⟩ : ∃ next, s.pushArea area = some next := by
      refine Option.ne_none_iff_exists'.mp fun panics => ?_
      obtain ⟨entry, member, overlap⟩ := refusal.mp panics
      exact overlap (apart area List.mem_cons_self entry member)
    obtain ⟨members, -, brk⟩ := stored next pushed
    obtain ⟨firstApart, restApart⟩ := List.pairwise_cons.mp pairwise
    have apartNext : ∀ b ∈ rest, ∀ entry ∈ next.areas.tree.entries,
        (entryRange entry).Disjoint b.rangeVpn := by
      intro b memberB entry member
      rcases (members entry).mp member with rfl | old
      · exact firstApart b memberB
      · exact apart b (List.mem_cons_of_mem area memberB) entry old
    obtain ⟨s', run, members', brk'⟩ := ih (valid_pushArea valid first pushed)
      (fun b memberB => nonempty b (List.mem_cons_of_mem area memberB)) restApart apartNext
    refine ⟨s', by simp only [List.foldlM_cons, pushed, Option.bind_eq_bind, Option.bind_some, run],
      fun entry => ?_, brk'.trans brk⟩
    rw [members', members, List.exists_mem_cons_iff]
    exact or_left_comm.trans or_assoc.symm

/-- The entry under which a well-formed space stores an area is the one `push_area` makes. -/
theorem Wf.entry_eq {s : UserVmSpace} (wf : s.Wf) {entry : VirtPageNum × Node VirtPageNum UserVmArea}
    (member : entry ∈ s.areas.tree.entries) :
    entry = (entry.2.value.rangeVpn.start, ⟨entry.2.value.rangeVpn.end, entry.2.value⟩) := by
  rw [← wf.keyed entry member]
  rfl

/-- `from_existed` of a well-formed space never panics: the child holds exactly the parent's
areas, under the same pages, and the parent's break. -/
theorem fromExisted_spec {s : UserVmSpace} (wf : s.Wf) :
    ∃ child, s.fromExisted = some child ∧ child.areas = s.areas ∧ child.brk = s.brk := by
  let areas := s.areas.tree.entries.map fun entry => entry.2.value
  have fold : s.fromExisted = areas.foldlM (fun child area => child.pushArea area)
      { new with brk := s.brk } := by
    simp only [fromExisted, RangeMap.ranges, areas, List.foldlM_map]
  have nonempty : ∀ area ∈ areas, area.rangeVpn.start < area.rangeVpn.end := by
    simp only [areas, List.mem_map]
    rintro _ ⟨entry, member, rfl⟩
    rw [← wf.keyed entry member]
    exact wf.valid.nonempty entry member
  have pairwise : areas.Pairwise fun a b => a.rangeVpn.Disjoint b.rangeVpn := by
    refine List.pairwise_map.mpr ((List.nodup_iff_pairwise_ne.mp
      s.areas.tree.nodup_entries).imp_of_mem fun memberA memberB different => ?_)
    rw [← wf.keyed _ memberA, ← wf.keyed _ memberB]
    exact wf.valid.disjoint memberA memberB different
  have empty : ∀ entry, entry ∉ ({ new with brk := s.brk } : UserVmSpace).areas.tree.entries :=
    fun _ absent => absurd absent List.not_mem_nil
  obtain ⟨child, run, members, brk⟩ := foldlM_pushArea_spec areas valid_new nonempty pairwise
    fun _ _ entry member => absurd member (empty entry)
  have tree : child.areas.tree = s.areas.tree := by
    refine SortedMap.ext_mem fun entry => ?_
    rw [members]
    simp only [areas, List.mem_map, empty, or_false]
    constructor
    · rintro ⟨_, ⟨stored, member, rfl⟩, rfl⟩
      rwa [← wf.entry_eq member]
    · intro member
      exact ⟨_, ⟨entry, member, rfl⟩, wf.entry_eq member⟩
  exact ⟨child, fold ▸ run, congrArg RangeMap.mk tree, brk⟩

/-! ## Loading an ELF file -/

section MapElf

variable (elfFile : ℕ) (offset : VirtAddr)

/-- The area of every `PT_LOAD` header covers at least one page. -/
def LoadsPaged (headers : List ProgramHeader) : Prop :=
  ∀ ph ∈ headers, ph.type = .Load →
    (loadArea ph elfFile offset).rangeVpn.start < (loadArea ph elfFile offset).rangeVpn.end

instance (headers : List ProgramHeader) : Decidable (LoadsPaged elfFile offset headers) :=
  inferInstanceAs (Decidable (∀ ph ∈ headers, _))

/-- The loop of `map_elf` is bound to panic from `state` on: a stored area shares a page with
the area of a `PT_LOAD` header still to come, or two headers still to come share a page. -/
def Clash (headers : List ProgramHeader) (state : UserVmSpace × VirtPageNum × Option ℕ) : Prop :=
  (∃ ph ∈ headers, ph.type = .Load ∧ ∃ entry ∈ state.1.areas.tree.entries,
      ¬ (entryRange entry).Disjoint (loadArea ph elfFile offset).rangeVpn) ∨
    ∃ first second, [first, second].Sublist headers ∧ first.type = .Load ∧
      second.type = .Load ∧
      ¬ (loadArea first elfFile offset).rangeVpn.Disjoint (loadArea second elfFile offset).rangeVpn

variable {elfFile offset}

/-- A header that is not `PT_LOAD` changes nothing, so a clash further on is still ahead. -/
theorem Clash.of_not_load {ph : ProgramHeader} {rest : List ProgramHeader}
    {state : UserVmSpace × VirtPageNum × Option ℕ} (other : ph.type ≠ .Load)
    (clash : Clash elfFile offset (ph :: rest) state) : Clash elfFile offset rest state := by
  rcases clash with ⟨later, member, load, entry, stored, overlap⟩ |
    ⟨first, second, ordered, loadFirst, loadSecond, overlap⟩
  · rcases List.mem_cons.mp member with rfl | inRest
    · exact absurd load other
    · exact .inl ⟨later, inRest, load, entry, stored, overlap⟩
  · rcases List.sublist_cons_iff.mp ordered with inRest | ⟨tail, same, inRest⟩
    · exact .inr ⟨first, second, inRest, loadFirst, loadSecond, overlap⟩
    · cases same
      exact absurd loadFirst other

/-- After the area of a `PT_LOAD` header is pushed, a clash that does not involve the stored
areas alone is still ahead: the pushed area is stored now. -/
theorem Clash.of_pushed {ph : ProgramHeader} {rest : List ProgramHeader}
    {state : UserVmSpace × VirtPageNum × Option ℕ} {s' : UserVmSpace}
    (nonempty : (loadArea ph elfFile offset).rangeVpn.start <
      (loadArea ph elfFile offset).rangeVpn.end)
    (valid : state.1.areas.Valid) (pushed : state.1.pushArea (loadArea ph elfFile offset) = some s')
    (clash : Clash elfFile offset (ph :: rest) state) (step : VirtPageNum × Option ℕ) :
    Clash elfFile offset rest (s', step) := by
  obtain ⟨refusal, stored⟩ := pushArea_spec valid nonempty
  have members := (stored s' pushed).1
  have kept : ∀ entry ∈ state.1.areas.tree.entries, entry ∈ s'.areas.tree.entries :=
    fun entry member => (members entry).mpr (.inr member)
  have added := (members _).mpr (.inl rfl)
  rcases clash with ⟨later, member, load, entry, old, overlap⟩ |
    ⟨first, second, ordered, loadFirst, loadSecond, overlap⟩
  · rcases List.mem_cons.mp member with rfl | inRest
    · -- the stored area would have made this very push panic
      rw [refusal.mpr ⟨entry, old, overlap⟩] at pushed
      cases pushed
    · exact .inl ⟨later, inRest, load, entry, kept entry old, overlap⟩
  · rcases List.sublist_cons_iff.mp ordered with inRest | ⟨tail, same, inRest⟩
    · exact .inr ⟨first, second, inRest, loadFirst, loadSecond, overlap⟩
    · -- the first of the two is the header just pushed: its area is now a stored one
      obtain ⟨rfl, rfl⟩ := List.cons.inj same
      refine .inl ⟨second, (List.singleton_sublist.mp inRest), loadSecond, _, added, ?_⟩
      rwa [entryRange_of_area]

/-- The loop of `map_elf` panics whenever a clash lies ahead of it. -/
theorem foldlM_segment_eq_none (headers : List ProgramHeader)
    (paged : LoadsPaged elfFile offset headers) (state : UserVmSpace × VirtPageNum × Option ℕ)
    (valid : state.1.areas.Valid) (clash : Clash elfFile offset headers state) :
    headers.foldlM (mapElf.segment elfFile offset) state = none := by
  induction headers generalizing state with
  | nil =>
    rcases clash with ⟨_, absent, -⟩ | ⟨_, _, ordered, -⟩
    · exact absurd absent List.not_mem_nil
    · exact absurd (List.sublist_nil.mp ordered) (by simp)
  | cons ph rest ih =>
    have pagedRest : LoadsPaged elfFile offset rest :=
      fun later member => paged later (List.mem_cons_of_mem _ member)
    rw [List.foldlM_cons]
    by_cases load : ph.type = .Load
    · have nonempty := paged ph List.mem_cons_self load
      cases pushed : state.1.pushArea (loadArea ph elfFile offset) with
      | none => simp [mapElf.segment, load, pushed]
      | some s' =>
        simp only [mapElf.segment, load, if_true, pushed, Option.map_some, Option.bind_eq_bind,
          Option.bind_some]
        exact ih pagedRest _ (valid_pushArea valid nonempty pushed)
          (clash.of_pushed nonempty valid pushed _)
    · simp only [mapElf.segment, load, if_false, Option.bind_eq_bind, Option.bind_some]
      exact ih pagedRest state valid (clash.of_not_load load)

end MapElf

/-- From an ELF file without an interpreter and with two `PT_LOAD` headers whose areas share a
page, `from_elf` panics with `[push_area] fail`, whether or not their bytes overlap. -/
theorem fromElf_sharedPage_panics (elf : ElfFile) (elfFile : ℕ)
    (interp : Except SysError (ElfFile × ℕ)) (static : needsInterp elf = false)
    (paged : LoadsPaged elfFile (VirtAddr.ofUsize 0) elf.programHeaders)
    (first second : ProgramHeader) (ordered : [first, second].Sublist elf.programHeaders)
    (loadFirst : first.type = .Load) (loadSecond : second.type = .Load) (page : VirtPageNum)
    (inFirst : (loadArea first elfFile (VirtAddr.ofUsize 0)).rangeVpn.contains page)
    (inSecond : (loadArea second elfFile (VirtAddr.ofUsize 0)).rangeVpn.contains page) :
    fromElf elf elfFile interp = none := by
  have clash : Clash elfFile (VirtAddr.ofUsize 0) elf.programHeaders
      (new, (VirtAddr.ofUsize 0).floor, none) :=
    .inr ⟨first, second, ordered, loadFirst, loadSecond, fun apart => apart page inFirst inSecond⟩
  have panics := foldlM_segment_eq_none elf.programHeaders paged _ valid_new clash
  simp [fromElf, static, mapElf, panics]

/-- A static ELF whose text ends and whose data starts in the middle of page `0x10`. -/
def sharedPageElf : ElfFile :=
  ⟨0x10000, 56, 64, [⟨.Load, true, false, true, 0, 0x10000, 0x800, 0x800⟩,
    ⟨.Load, true, true, false, 0x800, 0x10800, 0x800, 0x800⟩], false⟩

theorem fromElf_sharedPage_panics_sharedPageElf :
    needsInterp sharedPageElf = false ∧
      LoadsPaged 7 (VirtAddr.ofUsize 0) sharedPageElf.programHeaders ∧
      fromElf sharedPageElf 7 (.error .ENOENT) = none :=
  ⟨by decide, by decide,
    fromElf_sharedPage_panics sharedPageElf 7 (.error .ENOENT) (by decide) (by decide)
      ⟨.Load, true, false, true, 0, 0x10000, 0x800, 0x800⟩
      ⟨.Load, true, true, false, 0x800, 0x10800, 0x800, 0x800⟩ (by decide) rfl rfl ⟨0x10⟩
      (by decide) (by decide)⟩

/-! ## Remapping and unmapping -/

/-- `sys_mmap(0, 4096, PROT_READ | PROT_WRITE, MAP_PRIVATE | MAP_ANONYMOUS, 0, 0)` on a new
address space: one private anonymous page, at the start of the share window. -/
def anonPageMmap : Option (Except SysError ℕ × UserVmSpace) :=
  sysMmap new (fun _ => .error .EBADF) none (VirtAddr.ofUsize 0) 4096 3 0x22 0 0

/-- `sys_mremap(addr, 1, 1, 0, 0)` on the page of `anonPageMmap`: both sizes round to zero,
`unmap` of zero bytes at the area's start leaves the area in place under its key and returns an
empty area starting at the same page, and pushing that one back panics in the `unwrap` of
`try_insert`. -/
theorem sysMremap_oneByte_panics :
    anonPageMmap.map Prod.fst = some (.ok 0x3B_FEFF_D000) ∧
      (anonPageMmap.bind fun result =>
        sysMremap result.2 (VirtAddr.ofUsize 0x3B_FEFF_D000) 1 1 0 0) = none := by
  decide +kernel

/-- The file offset the lazy fault handlers read for page `vpn` of an area:
`offset + (vpn - start) * PAGE_SIZE`. -/
def pageFileOffset (area : UserVmArea) (vpn : VirtPageNum) : ℕ :=
  usizeWrap (area.offset + usizeWrap (usizeSub vpn.val area.rangeVpn.start.val * Constant.PAGE_SIZE))

/-- A static ELF whose first segment has one page of file data and one of `.bss`, and whose
second segment's file data follows straight on in the file and in memory. -/
def mergeableElf : ElfFile :=
  ⟨0x10000, 56, 64, [⟨.Load, true, true, false, 0, 0x10000, 0x1000, 0x2000⟩,
    ⟨.Load, true, true, false, 0x1000, 0x12000, 0x2000, 0x2000⟩], false⟩

/-- The address space `from_elf` builds for `mergeableElf`, read from file `7`. -/
def mergeableSpace : Option UserVmSpace :=
  (fromElf mergeableElf 7 (.error .ENOENT)).bind fun result => result.toOption.map Prod.fst

/-- `sys_munmap(0x11000, 0x2000)` after loading `mergeableElf`: `try_union` merges the two
segments, since the first one's offset and file length lead on to the second one's offset, and
the piece left above the range, page `0x13`, then has file offset `0x3000` and no file length,
where it had `0x2000` and two pages. -/
theorem sysMunmap_moves_fileOffset :
    (mergeableSpace.bind fun s => (s.areas.get ⟨0x13⟩).map fun area =>
        (pageFileOffset area ⟨0x13⟩, area.len)) = some (0x2000, 0x2000) ∧
      (mergeableSpace.bind fun s =>
        (sysMunmap s (VirtAddr.ofUsize 0x11000) 0x2000).bind fun result =>
          (result.2.areas.get ⟨0x13⟩).map fun area =>
            (pageFileOffset area ⟨0x13⟩, area.len)) = some (0x3000, 0) := by
  decide +kernel

end UserVmSpace

end Chronix
