import Chronix.Model.PageTable

/-! # The page table refines a partial map

A riscv64 page table stands for a `PageMap`: `denote` reads, for a page, the leaf entry under its
three indexes, going down the root table and the tables its entries point to. `Inv` says that
these tables form a tree among the table frames, with no leaf above the leaf level, and `Fresh`
that the allocator's frames are new. `map` at the leaf level and `unmap` keep both and act on
`denote` as `PageMap.map` and `PageMap.unmap` act on a partial map, at the pages with the same
indexes; `translate_vpn` reads `denote`. Within `VPN_WIDTH` two pages never share their
indexes, and within `PPN_WIDTH` a frame survives its entry; past either width the refinement
fails, as `pageTable_aliases_truncates` shows.
-/

namespace Chronix

open Constant PageTableEntry

namespace PageTableEntry

/-- The flags of an entry are its low ten bits. -/
theorem testBit_mul_add {p g k : ℕ} (low : g < 2 ^ 10) (below : k < 10) :
    (p * 2 ^ 10 + g).testBit k = g.testBit k := by
  have lowBits : (p * 2 ^ 10 + g) % 2 ^ 10 = g := by omega
  have := Nat.testBit_mod_two_pow (p * 2 ^ 10 + g) 10 k
  rw [lowBits] at this
  simp [this, below]

theorem flagsOf_lt (perm : MapPerm) : flagsOf perm ||| 1 < 2 ^ 10 := by
  obtain ⟨bits, lt⟩ := perm
  revert bits
  decide

/-- An entry that `map` or `find_pte_create` writes: the frame number above the flags, and `V`. -/
theorem setValid_new {ppn : PhysPageNum} (small : ppn.val < 2 ^ PPN_WIDTH) (perm : MapPerm) :
    setValid (new ppn perm) = ppn.val * 2 ^ 10 + (flagsOf perm ||| 1) := by
  have fits : ppn.val <<< 10 < 2 ^ 64 := by
    rw [Nat.shiftLeft_eq]; simp only [PPN_WIDTH, PA_WIDTH, PAGE_SIZE_BITS] at small; omega
  rw [setValid, new, usizeWrap_of_lt fits, Nat.or_assoc,
    ← Nat.shiftLeft_add_eq_or_of_lt (flagsOf_lt perm), Nat.shiftLeft_eq]

theorem isValid_mul_add {p g : ℕ} (low : g < 2 ^ 10) : isValid (p * 2 ^ 10 + g) = isValid g := by
  simp only [isValid, testBit_mul_add low (by decide : 0 < 10)]

theorem isLeaf_mul_add {p g : ℕ} (low : g < 2 ^ 10) : isLeaf (p * 2 ^ 10 + g) = isLeaf g := by
  simp only [isLeaf, isValid_mul_add low, testBit_mul_add low (by decide : 1 < 10),
    testBit_mul_add low (by decide : 2 < 10), testBit_mul_add low (by decide : 3 < 10)]

theorem permOfFlags_mul_add {p g : ℕ} (low : g < 2 ^ 10) :
    permOfFlags (p * 2 ^ 10 + g) = permOfFlags g := by
  simp only [permOfFlags, testBit_mul_add low (by decide : 1 < 10),
    testBit_mul_add low (by decide : 2 < 10), testBit_mul_add low (by decide : 3 < 10),
    testBit_mul_add low (by decide : 4 < 10)]

theorem ppn_mul_add {p g : ℕ} (small : p < 2 ^ PPN_WIDTH) (low : g < 2 ^ 10) :
    PageTableEntry.ppn (p * 2 ^ 10 + g) = ⟨p⟩ := by
  simp only [PageTableEntry.ppn, Nat.shiftRight_eq_div_pow, PhysPageNum.mk.injEq]
  simp only [PPN_WIDTH, PA_WIDTH, PAGE_SIZE_BITS] at small ⊢
  omega

/-- Decoding the entry `map` writes gives back its frame and permission. -/
theorem setValid_new_decode {ppn : PhysPageNum} (small : ppn.val < 2 ^ PPN_WIDTH) (perm : MapPerm) :
    isValid (setValid (new ppn perm)) = true ∧ PageTableEntry.ppn (setValid (new ppn perm)) = ppn ∧
      permOfFlags (setValid (new ppn perm)) = perm := by
  rw [setValid_new small, isValid_mul_add (flagsOf_lt perm), permOfFlags_mul_add (flagsOf_lt perm),
    ppn_mul_add small (flagsOf_lt perm)]
  obtain ⟨bits, lt⟩ := perm
  refine ⟨?_, rfl, ?_⟩ <;> revert bits <;> decide

/-- The entry `find_pte_create` installs points to a table: it is no leaf. -/
theorem isLeaf_setValid_new_empty {ppn : PhysPageNum} (small : ppn.val < 2 ^ PPN_WIDTH) :
    isLeaf (setValid (new ppn .empty)) = false := by
  rw [setValid_new small, isLeaf_mul_add (flagsOf_lt _)]
  decide

end PageTableEntry

namespace PageTable

/-- What a leaf entry maps: its frame and permission, when it is valid. -/
def decode (bits : ℕ) : Option (PhysPageNum × MapPerm) :=
  if isValid bits then some (PageTableEntry.ppn bits, permOfFlags bits) else none

/-- The table that entry `index` of the table in `frame` points to. -/
def child (pt : PageTable) (frame : PhysPageNum) (index : ℕ) : Option PhysPageNum :=
  if isValid (pt.memory frame index) && !isLeaf (pt.memory frame index) then
    some (PageTableEntry.ppn (pt.memory frame index))
  else none

/-- The level-one table under root entry `a`. -/
def levelOne (pt : PageTable) (a : ℕ) : Option PhysPageNum := pt.child pt.rootPpn a

/-- The level-two table under root entry `a` and level-one entry `b`. -/
def levelTwo (pt : PageTable) (a b : ℕ) : Option PhysPageNum :=
  (pt.levelOne a).bind fun table => pt.child table b

/-- The partial map a page table stands for: the leaf entry under a page's three indexes. -/
def denote (pt : PageTable) : PageMap := fun vpn =>
  (pt.levelTwo (vpn.val / 2 ^ 18 % 512) (vpn.val / 2 ^ 9 % 512)).bind fun table =>
    decode (pt.memory table (vpn.val % 512))

/-- The tables form a tree three levels deep: every table lies among the table frames, no
table hangs under two entries or at two levels, and above the leaf level no entry is a leaf. -/
structure Inv (pt : PageTable) : Prop where
  root_mem : pt.rootPpn ∈ pt.frames
  levelOne_mem : ∀ a < 512, ∀ table, pt.levelOne a = some table →
    table ∈ pt.frames ∧ table ≠ pt.rootPpn
  levelTwo_mem : ∀ a < 512, ∀ b < 512, ∀ table, pt.levelTwo a b = some table →
    table ∈ pt.frames ∧ table ≠ pt.rootPpn ∧ ∀ a' < 512, pt.levelOne a' ≠ some table
  levelOne_inj : ∀ a < 512, ∀ a' < 512, ∀ table, pt.levelOne a = some table →
    pt.levelOne a' = some table → a = a'
  levelTwo_inj : ∀ a < 512, ∀ b < 512, ∀ a' < 512, ∀ b' < 512, ∀ table,
    pt.levelTwo a b = some table → pt.levelTwo a' b' = some table → a = a' ∧ b = b'
  root_not_leaf : ∀ a < 512, isLeaf (pt.memory pt.rootPpn a) = false
  levelOne_not_leaf : ∀ a < 512, ∀ table, pt.levelOne a = some table →
    ∀ b < 512, isLeaf (pt.memory table b) = false

/-- The allocator hands out frames once each, none of them a table, each within `PPN_WIDTH`. -/
structure Fresh (pt : PageTable) : Prop where
  nodup : pt.free.Nodup
  not_mem : ∀ frame ∈ pt.free, frame ∉ pt.frames
  small : ∀ frame ∈ pt.free, frame.val < 2 ^ PPN_WIDTH

@[simp] theorem write_memory (pt : PageTable) (frame : PhysPageNum) (index value : ℕ)
    (other : PhysPageNum) (at_ : ℕ) :
    (pt.write frame index value).memory other at_ =
      if other = frame ∧ at_ = index then value else pt.memory other at_ := rfl

@[simp] theorem write_rootPpn (pt : PageTable) (frame : PhysPageNum) (index value : ℕ) :
    (pt.write frame index value).rootPpn = pt.rootPpn := rfl

@[simp] theorem write_frames (pt : PageTable) (frame : PhysPageNum) (index value : ℕ) :
    (pt.write frame index value).frames = pt.frames := rfl

@[simp] theorem write_free (pt : PageTable) (frame : PhysPageNum) (index value : ℕ) :
    (pt.write frame index value).free = pt.free := rfl

theorem child_of_not_leaf {pt : PageTable} {frame : PhysPageNum} {index : ℕ}
    (notLeaf : isLeaf (pt.memory frame index) = false) :
    pt.child frame index =
      if isValid (pt.memory frame index) then some (PageTableEntry.ppn (pt.memory frame index))
      else none := by
  simp [child, notLeaf]

theorem child_eq_none_of_not_valid {pt : PageTable} {frame : PhysPageNum} {index : ℕ}
    (invalid : isValid (pt.memory frame index) = false) : pt.child frame index = none := by
  simp [child, invalid]

/-- A write elsewhere leaves an entry's child as it is. -/
theorem child_write_of_ne {pt : PageTable} {frame other : PhysPageNum} {index at_ value : ℕ}
    (apart : ¬(other = frame ∧ at_ = index)) :
    (pt.write frame index value).child other at_ = pt.child other at_ := by
  simp [child, apart]

/-- `denote` reads a page through its indexes only. -/
theorem denote_congr (pt : PageTable) {vpn vpn' : VirtPageNum} (same : vpn.indexes = vpn'.indexes) :
    pt.denote vpn = pt.denote vpn' := by
  simp only [VirtPageNum.indexes, List.cons.injEq, and_true] at same
  simp only [denote, same]

section Lookup

variable {pt : PageTable}

/-- On a tree, the walk of `find_pte` goes down two tables to the leaf entry. -/
theorem Inv.findPte_walk (inv : pt.Inv) {a b : ℕ} (ha : a < 512) (hb : b < 512) (c : ℕ) :
    findPte.walk pt 0 pt.rootPpn [a, b, c] = (pt.levelTwo a b).bind fun table =>
      if isValid (pt.memory table c) then some ((table, c), 2) else none := by
  have rootEntry := inv.root_not_leaf a ha
  cases valid : isValid (pt.memory pt.rootPpn a) with
  | false => simp [findPte.walk, levelTwo, levelOne, child_eq_none_of_not_valid valid, valid]
  | true =>
    obtain ⟨table, pointer⟩ : ∃ table, PageTableEntry.ppn (pt.memory pt.rootPpn a) = table :=
      ⟨_, rfl⟩
    have one : pt.levelOne a = some table := by
      simp [levelOne, child_of_not_leaf rootEntry, valid, pointer]
    have oneEntry := inv.levelOne_not_leaf a ha table one b hb
    cases valid' : isValid (pt.memory table b) with
    | false =>
      simp [findPte.walk, levelTwo, one, valid, rootEntry, pointer,
        child_eq_none_of_not_valid valid', valid']
    | true =>
      have two : pt.levelTwo a b = some (PageTableEntry.ppn (pt.memory table b)) := by
        simp [levelTwo, one, child_of_not_leaf oneEntry, valid']
      cases leaf : isValid (pt.memory (PageTableEntry.ppn (pt.memory table b)) c) <;>
        simp [findPte.walk, two, valid, rootEntry, pointer, oneEntry, valid', leaf]

/-- On a tree, `find_pte` reaches the leaf entry under the level-two table. -/
theorem Inv.findPte_eq (inv : pt.Inv) (vpn : VirtPageNum) :
    pt.findPte vpn = (pt.levelTwo (vpn.val / 2 ^ 18 % 512) (vpn.val / 2 ^ 9 % 512)).bind
      fun table => if isValid (pt.memory table (vpn.val % 512)) then
        some ((table, vpn.val % 512), 2) else none :=
  inv.findPte_walk (Nat.mod_lt _ (by decide)) (Nat.mod_lt _ (by decide)) _

/-- On a tree, `translate_vpn` reads the frame `denote` maps. -/
theorem Inv.translateVpn_eq (inv : pt.Inv) (vpn : VirtPageNum) :
    pt.translateVpn vpn = (pt.denote vpn).map Prod.fst := by
  simp only [translateVpn, inv.findPte_eq, denote]
  cases pt.levelTwo (vpn.val / 2 ^ 18 % 512) (vpn.val / 2 ^ 9 % 512) with
  | none => rfl
  | some table =>
    cases valid : isValid (pt.memory table (vpn.val % 512)) <;>
      simp [valid, decode, PageLevel.ofUsize, PageLevel.pageCount, Nat.mod_one]

end Lookup


section Leaf

variable {pt : PageTable}

/-- The invariant reads the root table and the level-one tables only. -/
theorem Inv.of_rows (inv : pt.Inv) {next : PageTable} (root : next.rootPpn = pt.rootPpn)
    (frames : next.frames = pt.frames)
    (rootRow : ∀ a < 512, next.memory pt.rootPpn a = pt.memory pt.rootPpn a)
    (oneRows : ∀ a < 512, ∀ table, pt.levelOne a = some table →
      ∀ b < 512, next.memory table b = pt.memory table b) : next.Inv := by
  have one : ∀ a < 512, next.levelOne a = pt.levelOne a := fun a ha => by
    simp only [levelOne, child, root, rootRow a ha]
  have two : ∀ a < 512, ∀ b < 512, next.levelTwo a b = pt.levelTwo a b := fun a ha b hb => by
    simp only [levelTwo, one a ha]
    cases found : pt.levelOne a with
    | none => rfl
    | some table => simp only [Option.bind_some, child, oneRows a ha table found b hb]
  refine ⟨?_, ?_, ?_, ?_, ?_, ?_, ?_⟩
  · rw [root, frames]; exact inv.root_mem
  · intro a ha table found
    rw [root, frames]; exact inv.levelOne_mem a ha table (one a ha ▸ found)
  · intro a ha b hb table found
    rw [root, frames]
    obtain ⟨member, notRoot, notOne⟩ := inv.levelTwo_mem a ha b hb table (two a ha b hb ▸ found)
    exact ⟨member, notRoot, fun a' ha' => one a' ha' ▸ notOne a' ha'⟩
  · intro a ha a' ha' table found found'
    exact inv.levelOne_inj a ha a' ha' table (one a ha ▸ found) (one a' ha' ▸ found')
  · intro a ha b hb a' ha' b' hb' table found found'
    exact inv.levelTwo_inj a ha b hb a' ha' b' hb' table (two a ha b hb ▸ found)
      (two a' ha' b' hb' ▸ found')
  · intro a ha
    rw [root, rootRow a ha]; exact inv.root_not_leaf a ha
  · intro a ha table found b hb
    rw [one a ha] at found
    rw [oneRows a ha table found b hb]; exact inv.levelOne_not_leaf a ha table found b hb

theorem Inv.levelOne_write_leaf (inv : pt.Inv) {a b : ℕ} (ha : a < 512) (hb : b < 512)
    {table : PhysPageNum} (leafTable : pt.levelTwo a b = some table) (c value x : ℕ) :
    (pt.write table c value).levelOne x = pt.levelOne x := by
  have notRoot := (inv.levelTwo_mem a ha b hb table leafTable).2.1
  exact child_write_of_ne fun same => notRoot same.1.symm

theorem Inv.levelTwo_write_leaf (inv : pt.Inv) {a b : ℕ} (ha : a < 512) (hb : b < 512)
    {table : PhysPageNum} (leafTable : pt.levelTwo a b = some table) (c value : ℕ) {x : ℕ}
    (hx : x < 512) (y : ℕ) : (pt.write table c value).levelTwo x y = pt.levelTwo x y := by
  simp only [levelTwo, inv.levelOne_write_leaf ha hb leafTable]
  cases found : pt.levelOne x with
  | none => rfl
  | some upper =>
    have notOne := (inv.levelTwo_mem a ha b hb table leafTable).2.2 x hx
    exact child_write_of_ne fun same => notOne (same.1 ▸ found)

/-- A write to an entry of a level-two table keeps the tree. -/
theorem Inv.write_leaf (inv : pt.Inv) {a b : ℕ} (ha : a < 512) (hb : b < 512)
    {table : PhysPageNum} (leafTable : pt.levelTwo a b = some table) (c value : ℕ) :
    (pt.write table c value).Inv := by
  obtain ⟨-, notRoot, notOne⟩ := inv.levelTwo_mem a ha b hb table leafTable
  refine inv.of_rows rfl rfl (fun x _ => ?_) (fun x hx upper found y _ => ?_)
  · simp [notRoot.symm]
  · have : upper ≠ table := fun same => notOne x hx (same ▸ found)
    simp [this]

/-- A write to an entry of a level-two table changes what the table maps at the pages under
that entry only. -/
theorem Inv.denote_write_leaf (inv : pt.Inv) {a b c : ℕ} (ha : a < 512) (hb : b < 512)
    {table : PhysPageNum} (leafTable : pt.levelTwo a b = some table) (value : ℕ)
    (vpn : VirtPageNum) : (pt.write table c value).denote vpn =
      if vpn.indexes = [a, b, c] then decode value else pt.denote vpn := by
  have hx : vpn.val / 2 ^ 18 % 512 < 512 := Nat.mod_lt _ (by decide)
  have hy : vpn.val / 2 ^ 9 % 512 < 512 := Nat.mod_lt _ (by decide)
  simp only [denote, inv.levelTwo_write_leaf ha hb leafTable c value hx]
  by_cases same : vpn.indexes = [a, b, c]
  · simp only [VirtPageNum.indexes, List.cons.injEq, and_true, Nat.reducePow] at same ⊢
    simp [same, leafTable]
  · rw [if_neg same]
    cases found : pt.levelTwo (vpn.val / 2 ^ 18 % 512) (vpn.val / 2 ^ 9 % 512) with
    | none => rfl
    | some other =>
      -- the entry read is the one written only under the same three indexes
      have apart : ¬(other = table ∧ vpn.val % 512 = c) := by
        rintro ⟨rfl, rfl⟩
        obtain ⟨rfl, rfl⟩ := inv.levelTwo_inj _ hx _ hy a ha b hb _ found leafTable
        exact same rfl
      simp [apart]

end Leaf


/-- The table after `find_pte_create` has put `frame`, just taken from the allocator and zeroed,
under entry `index` of `table`. -/
def install (pt : PageTable) (table : PhysPageNum) (index : ℕ) (frame : PhysPageNum)
    (free : List PhysPageNum) : PageTable where
  rootPpn := pt.rootPpn
  frames := pt.frames ++ [frame]
  memory other at_ :=
    if other = table ∧ at_ = index then setValid (new frame .empty)
    else if other = frame then 0 else pt.memory other at_
  free := free

section Install

variable {pt : PageTable} {table frame : PhysPageNum} {index : ℕ} {free : List PhysPageNum}

theorem child_install_self (small : frame.val < 2 ^ PPN_WIDTH) :
    (pt.install table index frame free).child table index = some frame := by
  simp [child, install, (setValid_new_decode small .empty).1, (setValid_new_decode small _).2.1,
    isLeaf_setValid_new_empty small]

theorem child_install_frame (apart : frame ≠ table) (at_ : ℕ) :
    (pt.install table index frame free).child frame at_ = none := by
  simp [child, install, apart, isValid]

theorem child_install_of_ne {other : PhysPageNum} {at_ : ℕ} (notFrame : other ≠ frame)
    (apart : ¬(other = table ∧ at_ = index)) :
    (pt.install table index frame free).child other at_ = pt.child other at_ := by
  simp [child, install, notFrame, apart]

theorem Fresh.install (fresh : pt.Fresh) (taken : pt.free = frame :: free) :
    (pt.install table index frame free).Fresh := by
  have nodup := fresh.nodup
  rw [taken, List.nodup_cons] at nodup
  refine ⟨nodup.2, fun other (member : other ∈ free) => ?_,
    fun other (member : other ∈ free) => fresh.small other (by simp [taken, member])⟩
  simp only [PageTable.install, List.mem_append, List.mem_singleton, not_or]
  exact ⟨fresh.not_mem other (by simp [taken, member]), fun same => nodup.1 (same ▸ member)⟩

/-- Installing a fresh table under an empty root entry keeps the tree and what it maps. -/
theorem Inv.install_root (inv : pt.Inv) (fresh : pt.Fresh) (taken : pt.free = frame :: free)
    {a : ℕ} (ha : a < 512) (invalid : isValid (pt.memory pt.rootPpn a) = false) :
    (pt.install pt.rootPpn a frame free).levelOne a = some frame ∧
      (pt.install pt.rootPpn a frame free).Inv ∧
      (pt.install pt.rootPpn a frame free).denote = pt.denote := by
  have newFrame : frame ∉ pt.frames := fresh.not_mem frame (by simp [taken])
  have small : frame.val < 2 ^ PPN_WIDTH := fresh.small frame (by simp [taken])
  have notFrame : ∀ other ∈ pt.frames, other ≠ frame := fun other member same =>
    newFrame (same ▸ member)
  have rootNe := notFrame _ inv.root_mem
  have one : ∀ x, (pt.install pt.rootPpn a frame free).levelOne x =
      if x = a then some frame else pt.levelOne x := fun x => by
    split_ifs with hx
    · subst hx; exact child_install_self small
    · exact child_install_of_ne rootNe fun same => hx same.2
  have two : ∀ x < 512, ∀ y, (pt.install pt.rootPpn a frame free).levelTwo x y =
      if x = a then none else pt.levelTwo x y := fun x hx y => by
    simp only [levelTwo, one x]
    split_ifs
    · exact child_install_frame rootNe.symm y
    · cases found : pt.levelOne x with
      | none => rfl
      | some upper =>
        obtain ⟨member, notRoot⟩ := inv.levelOne_mem x hx upper found
        exact child_install_of_ne (notFrame upper member) fun same => notRoot same.1
  refine ⟨by simp [one], ⟨?_, ?_, ?_, ?_, ?_, ?_, ?_⟩, ?_⟩
  · exact List.mem_append_left _ inv.root_mem
  · intro x hx upper found
    rw [one] at found
    split_ifs at found
    · cases found; exact ⟨by simp [install], rootNe.symm⟩
    · obtain ⟨member, notRoot⟩ := inv.levelOne_mem x hx upper found
      exact ⟨List.mem_append_left _ member, notRoot⟩
  · intro x hx y hy lower found
    rw [two x hx] at found
    split_ifs at found
    obtain ⟨member, notRoot, notOne⟩ := inv.levelTwo_mem x hx y hy lower found
    refine ⟨List.mem_append_left _ member, notRoot, fun x' hx' found' => ?_⟩
    rw [one] at found'
    split_ifs at found'
    · cases found'; exact newFrame member
    · exact notOne x' hx' found'
  · intro x hx x' hx' upper found found'
    rw [one] at found found'
    split_ifs at found found' with same same'
    · rw [same, same']
    · cases found; exact absurd (inv.levelOne_mem x' hx' frame found').1 newFrame
    · cases found'; exact absurd (inv.levelOne_mem x hx frame found).1 newFrame
    · exact inv.levelOne_inj x hx x' hx' upper found found'
  · intro x hx y hy x' hx' y' hy' lower found found'
    rw [two x hx] at found
    rw [two x' hx'] at found'
    split_ifs at found found'
    exact inv.levelTwo_inj x hx y hy x' hx' y' hy' lower found found'
  · intro x hx
    by_cases same : x = a
    · subst same; simp [install, isLeaf_setValid_new_empty small]
    · simp [install, same, rootNe, inv.root_not_leaf x hx]
  · intro x hx upper found y hy
    rw [one] at found
    split_ifs at found
    · cases found; simp [install, rootNe.symm, isLeaf, isValid]
    · obtain ⟨member, notRoot⟩ := inv.levelOne_mem x hx upper found
      simp [install, notRoot, notFrame upper member, inv.levelOne_not_leaf x hx upper found y hy]
  · funext vpn
    have hx : vpn.val / 2 ^ 18 % 512 < 512 := Nat.mod_lt _ (by decide)
    simp only [denote, two _ hx]
    split_ifs with same
    · simp only [Nat.reducePow] at same ⊢
      simp [levelTwo, levelOne, same, child_eq_none_of_not_valid invalid]
    · cases found : pt.levelTwo (vpn.val / 2 ^ 18 % 512) (vpn.val / 2 ^ 9 % 512) with
      | none => rfl
      | some lower =>
        obtain ⟨member, notRoot, -⟩ :=
          inv.levelTwo_mem _ hx _ (Nat.mod_lt _ (by decide)) lower found
        simp [install, notRoot, notFrame lower member]

/-- Installing a fresh table under an empty entry of a level-one table keeps the tree and what
it maps. -/
theorem Inv.install_levelOne (inv : pt.Inv) (fresh : pt.Fresh) (taken : pt.free = frame :: free)
    {a b : ℕ} (ha : a < 512) (hb : b < 512) (one : pt.levelOne a = some table)
    (invalid : isValid (pt.memory table b) = false) :
    (pt.install table b frame free).levelTwo a b = some frame ∧
      (pt.install table b frame free).Inv ∧ (pt.install table b frame free).denote = pt.denote := by
  have newFrame : frame ∉ pt.frames := fresh.not_mem frame (by simp [taken])
  have small : frame.val < 2 ^ PPN_WIDTH := fresh.small frame (by simp [taken])
  have notFrame : ∀ other ∈ pt.frames, other ≠ frame := fun other member same =>
    newFrame (same ▸ member)
  have rootNe := notFrame _ inv.root_mem
  obtain ⟨tableMember, tableNotRoot⟩ := inv.levelOne_mem a ha table one
  have one' : ∀ x, (pt.install table b frame free).levelOne x = pt.levelOne x := fun x =>
    child_install_of_ne rootNe fun same => tableNotRoot same.1.symm
  have two : ∀ x < 512, ∀ y, (pt.install table b frame free).levelTwo x y =
      if x = a ∧ y = b then some frame else pt.levelTwo x y := fun x hx y => by
    simp only [levelTwo, one']
    split_ifs with same
    · obtain ⟨rfl, rfl⟩ := same
      simp [one, child_install_self small]
    · cases found : pt.levelOne x with
      | none => rfl
      | some upper =>
        obtain ⟨member, -⟩ := inv.levelOne_mem x hx upper found
        -- another entry of the same level-one table sits under the same root entry
        refine child_install_of_ne (notFrame upper member) fun ⟨sameTable, sameIndex⟩ => same ?_
        subst sameTable
        exact ⟨inv.levelOne_inj x hx a ha upper found one, sameIndex⟩
  have twoNone : pt.levelTwo a b = none := by
    simp [levelTwo, one, child_eq_none_of_not_valid invalid]
  refine ⟨by simp [two a ha], ⟨?_, ?_, ?_, ?_, ?_, ?_, ?_⟩, ?_⟩
  · exact List.mem_append_left _ inv.root_mem
  · intro x hx upper found
    rw [one'] at found
    obtain ⟨member, notRoot⟩ := inv.levelOne_mem x hx upper found
    exact ⟨List.mem_append_left _ member, notRoot⟩
  · intro x hx y hy lower found
    rw [two x hx] at found
    split_ifs at found
    · cases found
      refine ⟨by simp [install], rootNe.symm, fun x' hx' found' => ?_⟩
      rw [one'] at found'
      exact newFrame (inv.levelOne_mem x' hx' frame found').1
    · obtain ⟨member, notRoot, notOne⟩ := inv.levelTwo_mem x hx y hy lower found
      refine ⟨List.mem_append_left _ member, notRoot, fun x' hx' found' => ?_⟩
      rw [one'] at found'
      exact notOne x' hx' found'
  · intro x hx x' hx' upper found found'
    rw [one'] at found found'
    exact inv.levelOne_inj x hx x' hx' upper found found'
  · intro x hx y hy x' hx' y' hy' lower found found'
    rw [two x hx] at found
    rw [two x' hx'] at found'
    split_ifs at found found' with same same'
    · exact ⟨same.1.trans same'.1.symm, same.2.trans same'.2.symm⟩
    · cases found; exact absurd (inv.levelTwo_mem x' hx' y' hy' frame found').1 newFrame
    · cases found'; exact absurd (inv.levelTwo_mem x hx y hy frame found).1 newFrame
    · exact inv.levelTwo_inj x hx y hy x' hx' y' hy' lower found found'
  · intro x hx
    simp [install, tableNotRoot.symm, rootNe, inv.root_not_leaf x hx]
  · intro x hx upper found y hy
    rw [one'] at found
    obtain ⟨member, -⟩ := inv.levelOne_mem x hx upper found
    by_cases same : upper = table ∧ y = b
    · obtain ⟨rfl, rfl⟩ := same
      simp [install, isLeaf_setValid_new_empty small]
    · simp [install, same, notFrame upper member, inv.levelOne_not_leaf x hx upper found y hy]
  · funext vpn
    have hx : vpn.val / 2 ^ 18 % 512 < 512 := Nat.mod_lt _ (by decide)
    have hy : vpn.val / 2 ^ 9 % 512 < 512 := Nat.mod_lt _ (by decide)
    simp only [denote, two _ hx]
    split_ifs with same
    · -- the new table is zeroed: nothing is mapped under it, as nothing was before
      simp only [Nat.reducePow] at same ⊢
      simp [same.1, same.2, twoNone, install, (notFrame table tableMember).symm, decode, isValid]
    · cases found : pt.levelTwo (vpn.val / 2 ^ 18 % 512) (vpn.val / 2 ^ 9 % 512) with
      | none => rfl
      | some lower =>
        obtain ⟨member, -, notOne⟩ := inv.levelTwo_mem _ hx _ hy lower found
        have notTable : lower ≠ table := fun same => notOne a ha (same ▸ one)
        simp [install, notTable, notFrame lower member]

end Install


section Walk

variable {pt : PageTable}

/-- Above `level`, `find_pte_create` goes down a valid entry as it stands. -/
theorem walk_of_valid {level current : PageLevel} {i index : ℕ} {table : PhysPageNum}
    {rest : List ℕ} (atLevel : PageLevel.ofUsize i = some current) (above : current ≠ level)
    (valid : isValid (pt.memory table index) = true) :
    findPteCreate.walk level pt i table (index :: rest) =
      findPteCreate.walk level pt (i + 1) (PageTableEntry.ppn (pt.memory table index)) rest := by
  simp [findPteCreate.walk, atLevel, above, valid]

/-- Above `level`, `find_pte_create` installs the next frame of the allocator under an entry
that is not valid. -/
theorem walk_of_not_valid {level current : PageLevel} {i index : ℕ} {table frame : PhysPageNum}
    {free : List PhysPageNum} {rest : List ℕ} (atLevel : PageLevel.ofUsize i = some current)
    (above : current ≠ level) (taken : pt.free = frame :: free)
    (small : frame.val < 2 ^ PPN_WIDTH) (invalid : isValid (pt.memory table index) = false) :
    findPteCreate.walk level pt i table (index :: rest) =
      findPteCreate.walk level (pt.install table index frame free) (i + 1) frame rest := by
  simp only [findPteCreate.walk, atLevel, above, invalid, allocZeroed, taken,
    (setValid_new_decode small _).2.1]
  rfl

/-- From the root, `find_pte_create` reaches a level-one table under root entry `a`, taking at
most one frame. -/
theorem Inv.walk_root (inv : pt.Inv) (fresh : pt.Fresh) (nonempty : pt.free ≠ []) {a : ℕ}
    (ha : a < 512) (rest : List ℕ) :
    ∃ next table, findPteCreate.walk .Small pt 0 pt.rootPpn (a :: rest) =
        findPteCreate.walk .Small next 1 table rest ∧
      next.levelOne a = some table ∧ next.Inv ∧ next.Fresh ∧ next.denote = pt.denote ∧
      pt.free.length ≤ next.free.length + 1 := by
  cases valid : isValid (pt.memory pt.rootPpn a) with
  | true =>
    refine ⟨pt, _, walk_of_valid rfl (by decide) valid, ?_, inv, fresh, rfl, by omega⟩
    simp [levelOne, child_of_not_leaf (inv.root_not_leaf a ha), valid]
  | false =>
    obtain ⟨frame, free, taken⟩ := List.exists_cons_of_ne_nil nonempty
    obtain ⟨one, inv', denote'⟩ := inv.install_root fresh taken ha valid
    refine ⟨_, frame, walk_of_not_valid rfl (by decide) taken
      (fresh.small frame (by simp [taken])) valid, one, inv', fresh.install taken, denote', ?_⟩
    simp [install, taken]

/-- From a level-one table, `find_pte_create` reaches a level-two table under entry `b`, taking
at most one frame. -/
theorem Inv.walk_levelOne (inv : pt.Inv) (fresh : pt.Fresh) (nonempty : pt.free ≠ [])
    {a b : ℕ} (ha : a < 512) (hb : b < 512) {table : PhysPageNum}
    (one : pt.levelOne a = some table) (rest : List ℕ) :
    ∃ next lower, findPteCreate.walk .Small pt 1 table (b :: rest) =
        findPteCreate.walk .Small next 2 lower rest ∧
      next.levelTwo a b = some lower ∧ next.Inv ∧ next.Fresh ∧ next.denote = pt.denote ∧
      pt.free.length ≤ next.free.length + 1 := by
  cases valid : isValid (pt.memory table b) with
  | true =>
    refine ⟨pt, _, walk_of_valid rfl (by decide) valid, ?_, inv, fresh, rfl, by omega⟩
    simp [levelTwo, one, child_of_not_leaf (inv.levelOne_not_leaf a ha table one b hb), valid]
  | false =>
    obtain ⟨frame, free, taken⟩ := List.exists_cons_of_ne_nil nonempty
    obtain ⟨two, inv', denote'⟩ := inv.install_levelOne fresh taken ha hb one valid
    refine ⟨_, frame, walk_of_not_valid rfl (by decide) taken
      (fresh.small frame (by simp [taken])) valid, two, inv', fresh.install taken, denote', ?_⟩
    simp [install, taken]

end Walk

section Calls

variable {pt : PageTable}

/-- `map(vpn, ppn, perm, Small)` on a tree with two frames left returns, keeps the tree, and
maps `ppn` with `perm` at the pages with the indexes of `vpn`, and nothing else anew. -/
theorem Inv.map_spec (inv : pt.Inv) (fresh : pt.Fresh) (enough : 2 ≤ pt.free.length)
    (vpn : VirtPageNum) {ppn : PhysPageNum} (small : ppn.val < 2 ^ PPN_WIDTH) (perm : MapPerm) :
    ∃ result next, pt.map vpn ppn perm .Small = some (result, next) ∧ next.Inv ∧ next.Fresh ∧
      pt.free.length ≤ next.free.length + 2 ∧
      ∀ v, next.denote v = if v.indexes = vpn.indexes then some (ppn, perm) else pt.denote v := by
  have ha : vpn.val / 2 ^ 18 % 512 < 512 := Nat.mod_lt _ (by decide)
  have hb : vpn.val / 2 ^ 9 % 512 < 512 := Nat.mod_lt _ (by decide)
  obtain ⟨pt1, upper, walk1, one, inv1, fresh1, denote1, length1⟩ :=
    inv.walk_root fresh (List.ne_nil_of_length_pos (by omega)) ha
      [vpn.val / 2 ^ 9 % 512, vpn.val % 512]
  obtain ⟨pt2, lower, walk2, two, inv2, fresh2, denote2, length2⟩ :=
    inv1.walk_levelOne fresh1 (List.ne_nil_of_length_pos (by omega)) ha hb one [vpn.val % 512]
  refine ⟨.ok (lower, vpn.val % 512), pt2.write lower (vpn.val % 512) (setValid (new ppn perm)),
    ?_, inv2.write_leaf ha hb two _ _, ⟨fresh2.nodup, fresh2.not_mem, fresh2.small⟩,
    by simp; omega, fun v => ?_⟩
  · rw [map, findPteCreate, VirtPageNum.indexes, walk1, walk2]
    simp [findPteCreate.walk, PageLevel.ofUsize]
  · rw [inv2.denote_write_leaf ha hb two, denote2, denote1]
    simp [VirtPageNum.indexes, decode, setValid_new_decode small]

/-- `unmap(vpn)` on a tree keeps the tree and its frames, clears what it maps at the pages with
the indexes of `vpn`, and returns `Err` exactly when nothing was mapped there. -/
theorem Inv.unmap_spec (inv : pt.Inv) (fresh : pt.Fresh) (vpn : VirtPageNum) :
    (pt.unmap vpn).2.Inv ∧ (pt.unmap vpn).2.Fresh ∧ (pt.unmap vpn).2.free = pt.free ∧
      ((pt.unmap vpn).1 = .error () ↔ pt.denote vpn = none) ∧
      ∀ v, (pt.unmap vpn).2.denote v = if v.indexes = vpn.indexes then none else pt.denote v := by
  have ha : vpn.val / 2 ^ 18 % 512 < 512 := Nat.mod_lt _ (by decide)
  have hb : vpn.val / 2 ^ 9 % 512 < 512 := Nat.mod_lt _ (by decide)
  -- when `find_pte` finds no valid leaf, nothing is mapped at `vpn` and nothing changes
  have unchanged : pt.denote vpn = none → ∀ v, pt.denote v =
      if v.indexes = vpn.indexes then none else pt.denote v := fun empty v => by
    split_ifs with same
    · rw [pt.denote_congr same, empty]
    · rfl
  unfold unmap
  rw [inv.findPte_eq]
  cases found : pt.levelTwo (vpn.val / 2 ^ 18 % 512) (vpn.val / 2 ^ 9 % 512) with
  | none =>
    have empty : pt.denote vpn = none := by rw [denote, found]; rfl
    simp only [Option.bind_none]
    exact ⟨inv, fresh, trivial, by simp [empty], unchanged empty⟩
  | some lower =>
    cases valid : isValid (pt.memory lower (vpn.val % 512)) with
    | false =>
      have empty : pt.denote vpn = none := by rw [denote, found]; simp [decode, valid]
      simp only [Option.bind_some, valid, Bool.false_eq_true, if_false]
      exact ⟨inv, fresh, trivial, by simp [empty], unchanged empty⟩
    | true =>
      have mapped : pt.denote vpn ≠ none := by rw [denote, found]; simp [decode, valid]
      simp only [Option.bind_some, valid, if_true]
      refine ⟨inv.write_leaf ha hb found _ 0, ⟨fresh.nodup, fresh.not_mem, fresh.small⟩, rfl,
        by simp [mapped], fun v => ?_⟩
      rw [inv.denote_write_leaf ha hb found]
      simp [VirtPageNum.indexes, decode, isValid]

/-- `new_in` with a frame to spare builds a tree that maps nothing. -/
theorem newIn_spec (memory : PhysPageNum → ℕ → ℕ) {frame : PhysPageNum} {free : List PhysPageNum}
    (nodup : (frame :: free).Nodup) (small : ∀ other ∈ frame :: free, other.val < 2 ^ PPN_WIDTH) :
    ∃ pt, newIn memory (frame :: free) = some pt ∧ pt.Inv ∧ pt.Fresh ∧ pt.free = free ∧
      ∀ v, pt.denote v = none := by
  refine ⟨⟨frame, [frame], fun other at_ => if other = frame then 0 else memory other at_, free⟩,
    rfl, ?_⟩
  rw [List.nodup_cons] at nodup
  -- the root is zeroed: it has no child
  have none : ∀ a, PageTable.levelOne ⟨frame, [frame],
      fun other at_ => if other = frame then 0 else memory other at_, free⟩ a = none := fun a => by
    simp [levelOne, child, isValid]
  refine ⟨⟨by simp, ?_, ?_, ?_, ?_, ?_, ?_⟩, ⟨nodup.2, ?_, fun other member => small other (by simp [member])⟩,
    rfl, fun v => by simp [denote, levelTwo, none]⟩
  all_goals simp [none, levelTwo, isLeaf, isValid]
  exact fun other member same => nodup.1 (same ▸ member)

end Calls

end PageTable

/-- A call the user memory code makes on a page table: `map` at the leaf level, or `unmap`. -/
inductive PageTableOp
  | map (vpn : VirtPageNum) (ppn : PhysPageNum) (perm : MapPerm)
  | unmap (vpn : VirtPageNum)
deriving DecidableEq, Repr

namespace PageTableOp

/-- The call on the page table; `none` is a panic. -/
def run (pt : PageTable) : PageTableOp → Option PageTable
  | .map vpn ppn perm => (pt.map vpn ppn perm .Small).map Prod.snd
  | .unmap vpn => some (pt.unmap vpn).2

/-- The call on the partial map. -/
def apply (table : PageMap) : PageTableOp → PageMap
  | .map vpn ppn perm => table.map vpn ppn perm
  | .unmap vpn => table.unmap vpn

/-- The page and frame of the call fit their fields: `VPN_WIDTH` and `PPN_WIDTH` bits. -/
def Bounded : PageTableOp → Prop
  | .map vpn ppn _ => vpn.val < 2 ^ VPN_WIDTH ∧ ppn.val < 2 ^ PPN_WIDTH
  | .unmap vpn => vpn.val < 2 ^ VPN_WIDTH

instance : DecidablePred Bounded
  | .map _ _ _ => inferInstanceAs (Decidable (_ ∧ _))
  | .unmap _ => inferInstanceAs (Decidable (_ < _))

end PageTableOp

namespace PageTable

/-- The entries the walks for `vpn` go through above the leaf level are tables, never leaves:
`find_pte_create` goes down every valid one, and `find_pte` would stop at a leaf. -/
def DescendsThroughTables (pt : PageTable) (vpn : VirtPageNum) : Prop :=
  isLeaf (pt.memory pt.rootPpn (vpn.val / 2 ^ 18 % 512)) = false ∧
    ∀ table, pt.levelOne (vpn.val / 2 ^ 18 % 512) = some table →
      isLeaf (pt.memory table (vpn.val / 2 ^ 9 % 512)) = false

theorem Inv.descendsThroughTables {pt : PageTable} (inv : pt.Inv) (vpn : VirtPageNum) :
    pt.DescendsThroughTables vpn :=
  ⟨inv.root_not_leaf _ (Nat.mod_lt _ (by decide)), fun table found =>
    inv.levelOne_not_leaf _ (Nat.mod_lt _ (by decide)) table found _ (Nat.mod_lt _ (by decide))⟩

/-- A tree with an allocator of fresh frames that stands for `table` at every page within
`VPN_WIDTH`. -/
structure Refines (pt : PageTable) (table : PageMap) : Prop where
  inv : pt.Inv
  fresh : pt.Fresh
  denote_eq : ∀ vpn : VirtPageNum, vpn.val < 2 ^ VPN_WIDTH → pt.denote vpn = table vpn

section Runs

variable {pt : PageTable} {table : PageMap}

/-- One call keeps the refinement, taking at most two frames. -/
theorem Refines.run (refines : pt.Refines table) {op : PageTableOp} (bounded : op.Bounded)
    (enough : 2 ≤ pt.free.length) :
    ∃ next, op.run pt = some next ∧ next.Refines (op.apply table) ∧
      pt.free.length ≤ next.free.length + 2 := by
  cases op with
  | map vpn ppn perm =>
    obtain ⟨result, next, mapped, inv, fresh, length, denote⟩ :=
      refines.inv.map_spec refines.fresh enough vpn bounded.2 perm
    refine ⟨next, by simp [PageTableOp.run, mapped], ⟨inv, fresh, fun v small => ?_⟩, length⟩
    rw [denote v]
    by_cases same : v = vpn
    · simp [same, PageTableOp.apply]
    · have apart : v.indexes ≠ vpn.indexes := fun indexes =>
        same (VirtPageNum.eq_of_indexes_eq small bounded.1 indexes)
      simp [apart, same, PageTableOp.apply, refines.denote_eq v small]
  | unmap vpn =>
    obtain ⟨inv, fresh, free, -, denote⟩ := refines.inv.unmap_spec refines.fresh vpn
    refine ⟨_, rfl, ⟨inv, fresh, fun v small => ?_⟩, by simp [free]⟩
    rw [denote v]
    by_cases same : v = vpn
    · simp [same, PageTableOp.apply]
    · have apart : v.indexes ≠ vpn.indexes := fun indexes =>
        same (VirtPageNum.eq_of_indexes_eq small bounded indexes)
      simp [apart, same, PageTableOp.apply, refines.denote_eq v small]

/-- A run of calls keeps the refinement when the allocator has two frames for each. -/
theorem Refines.foldlM_run (refines : pt.Refines table) (ops : List PageTableOp)
    (bounded : ∀ op ∈ ops, op.Bounded) (enough : 2 * ops.length ≤ pt.free.length) :
    ∃ next, ops.foldlM PageTableOp.run pt = some next ∧
      next.Refines (ops.foldl PageTableOp.apply table) := by
  induction ops generalizing pt table with
  | nil => exact ⟨pt, rfl, refines⟩
  | cons op ops ih =>
    simp only [List.length_cons] at enough
    obtain ⟨next, ran, refines', length⟩ :=
      refines.run (bounded op List.mem_cons_self) (by omega)
    obtain ⟨final, ranAll, refinesFinal⟩ :=
      ih refines' (fun op member => bounded op (List.mem_cons_of_mem _ member)) (by omega)
    exact ⟨final, by simp [ran, ranAll], refinesFinal⟩

end Runs

/-- Within the widths of its fields, a page table built by `new_in` and any calls of `map` at
the leaf level and `unmap` stands for the partial map the same calls build: `translate_vpn`
reads its frames, `unmap` fails exactly where it maps nothing, and no walk goes through a leaf.
The allocator gives distinct frames within `PPN_WIDTH`, two for each call beyond the root. -/
theorem pageTable_refines_pageMap (memory : PhysPageNum → ℕ → ℕ) (free : List PhysPageNum)
    (nodup : free.Nodup) (small : ∀ frame ∈ free, frame.val < 2 ^ PPN_WIDTH)
    (ops : List PageTableOp) (bounded : ∀ op ∈ ops, op.Bounded)
    (enough : 2 * ops.length < free.length) :
    ∃ pt, (newIn memory free).bind (fun pt => ops.foldlM PageTableOp.run pt) = some pt ∧
      ∀ vpn : VirtPageNum,
        (vpn.val < 2 ^ VPN_WIDTH →
          pt.translateVpn vpn = (ops.foldl PageTableOp.apply PageMap.empty vpn).map Prod.fst ∧
          ((pt.unmap vpn).1 = .error () ↔ ops.foldl PageTableOp.apply PageMap.empty vpn = none)) ∧
        pt.DescendsThroughTables vpn := by
  have nonempty : free ≠ [] := List.ne_nil_of_length_pos (by omega)
  obtain ⟨frame, rest, rfl⟩ := List.exists_cons_of_ne_nil nonempty
  obtain ⟨pt0, created, inv, fresh, remaining, empty⟩ := newIn_spec memory nodup small
  have refines : pt0.Refines PageMap.empty := ⟨inv, fresh, fun vpn _ => empty vpn⟩
  obtain ⟨pt, ran, ⟨inv', fresh', denote'⟩⟩ :=
    refines.foldlM_run ops bounded (by rw [remaining]; simp at enough; omega)
  refine ⟨pt, by simp [created, ran], fun vpn => ⟨fun within => ?_, inv'.descendsThroughTables vpn⟩⟩
  rw [inv'.translateVpn_eq, ← denote' vpn within]
  exact ⟨rfl, (inv'.unmap_spec fresh' vpn).2.2.2.1⟩

/-- Five frames for the allocator. -/
def sampleFrames : List PhysPageNum := [⟨100⟩, ⟨101⟩, ⟨102⟩, ⟨103⟩, ⟨104⟩]

/-- A map of page `5`, then an unmap of page `6`, which maps nothing. -/
def sampleOps : List PageTableOp := [.map ⟨5⟩ ⟨42⟩ .R, .unmap ⟨6⟩]

theorem pageTable_refines_pageMap_sample :
    sampleFrames.Nodup ∧ (∀ frame ∈ sampleFrames, frame.val < 2 ^ PPN_WIDTH) ∧
      (∀ op ∈ sampleOps, op.Bounded) ∧ 2 * sampleOps.length < sampleFrames.length ∧
      ∃ pt, ((newIn (fun _ _ => 7) sampleFrames).bind fun pt =>
          sampleOps.foldlM PageTableOp.run pt) = some pt ∧
        ∀ vpn : VirtPageNum,
          (vpn.val < 2 ^ VPN_WIDTH →
            pt.translateVpn vpn = (sampleOps.foldl PageTableOp.apply PageMap.empty vpn).map Prod.fst ∧
            ((pt.unmap vpn).1 = .error () ↔
              sampleOps.foldl PageTableOp.apply PageMap.empty vpn = none)) ∧
          pt.DescendsThroughTables vpn :=
  ⟨by decide, by decide, by decide, by decide,
    pageTable_refines_pageMap _ _ (by decide) (by decide) _ (by decide) (by decide)⟩

/-- Past the widths of the fields the refinement fails: page `2 ^ 27 + 5` shares its indexes
with page `5`, and frame `2 ^ 44 + 42` loses its top bit in the entry. -/
theorem pageTable_aliases_truncates :
    ((newIn (fun _ _ => 0) [⟨1⟩, ⟨2⟩, ⟨3⟩]).bind fun pt =>
        [PageTableOp.map ⟨2 ^ 27 + 5⟩ ⟨42⟩ .R].foldlM PageTableOp.run pt).map
        (·.translateVpn ⟨5⟩) = some (some ⟨42⟩) ∧
      [PageTableOp.map ⟨2 ^ 27 + 5⟩ ⟨42⟩ .R].foldl PageTableOp.apply PageMap.empty ⟨5⟩ = none ∧
    ((newIn (fun _ _ => 0) [⟨1⟩, ⟨2⟩, ⟨3⟩]).bind fun pt =>
        [PageTableOp.map ⟨5⟩ ⟨2 ^ 44 + 42⟩ .R].foldlM PageTableOp.run pt).map
        (·.translateVpn ⟨5⟩) = some (some ⟨42⟩) ∧
      [PageTableOp.map ⟨5⟩ ⟨2 ^ 44 + 42⟩ .R].foldl PageTableOp.apply PageMap.empty ⟨5⟩ =
        some (⟨2 ^ 44 + 42⟩, .R) := by
  decide

end PageTable

end Chronix
