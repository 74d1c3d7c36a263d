import Chronix.Model.Addr

/-! # Page tables

`MapPerm` (`hal::component::pagetable`) is a byte of four flags. Above the page table of an
address space, the user memory code sees a partial map from virtual pages to a frame and a
permission: `map(vpn, ppn, perm, Small)` sets it at `vpn` (the riscv64 `find_pte_create` hands
back the leaf entry whether or not it is valid, so the `expect` after it never fails) and
`unmap(vpn)` clears it. `PageMap` is that partial map.

Below it, the riscv64 `PageTable` (`hal/src/component/pagetable/riscv64.rs`) is a tree of
512-entry tables in physical frames, three levels deep. An entry is a word: the frame number
from bit 10 on, and the flags `V`, `R`, `W`, `X`, `U`, ... in the bits below; a valid entry
with none of `R`, `W`, `X` points to the table one level down. Physical memory is a word for
every frame and index; the frame allocator is the list of the frames it will hand out, and runs
out when it is empty (the `unwrap` of `alloc`). `pteflags()` reads the low ten bits, and its
`unwrap` panics on bit 9, which `PTEFlags` does not name: `flags()` is `none` there. The walks
read `is_valid` and `is_leaf` straight from their bits: every entry they meet is one that `map`
or `find_pte_create` wrote, or a zeroed one, and none of these sets bit 9.
-/

namespace Chronix

open Constant

/-- `MapPerm`: `R = 1`, `W = 2`, `X = 4`, `U = 8`; a `bitflags` value has no other bit. -/
structure MapPerm where
  bits : ℕ
  lt : bits < 2 ^ 4
deriving DecidableEq, Repr

namespace MapPerm

def empty : MapPerm := ⟨0, by decide⟩
def R : MapPerm := ⟨1, by decide⟩
def W : MapPerm := ⟨2, by decide⟩
def X : MapPerm := ⟨4, by decide⟩
def U : MapPerm := ⟨8, by decide⟩

/-- `a | b`. -/
def union (a b : MapPerm) : MapPerm := ⟨a.bits ||| b.bits, Nat.or_lt_two_pow a.lt b.lt⟩

/-- `a.contains(b)`. -/
def contains (a b : MapPerm) : Bool := a.bits &&& b.bits == b.bits

end MapPerm

/-- What a page table maps: a frame and a permission for some virtual pages. -/
def PageMap : Type := VirtPageNum → Option (PhysPageNum × MapPerm)

namespace PageMap

/-- The page table of `PageTable::new_in`: nothing mapped. -/
def empty : PageMap := fun _ => none

/-- `map(vpn, ppn, perm, PageLevel::Small)`. -/
def map (table : PageMap) (vpn : VirtPageNum) (ppn : PhysPageNum) (perm : MapPerm) : PageMap :=
  Function.update table vpn (some (ppn, perm))

/-- `unmap(vpn)`, whose result the user memory code ignores. -/
def unmap (table : PageMap) (vpn : VirtPageNum) : PageMap := Function.update table vpn none

@[simp] theorem map_apply (table : PageMap) (vpn : VirtPageNum) (ppn : PhysPageNum) (perm : MapPerm)
    (other : VirtPageNum) :
    table.map vpn ppn perm other = if other = vpn then some (ppn, perm) else table other :=
  @Function.update_apply VirtPageNum _ _ table vpn _ other

@[simp] theorem unmap_apply (table : PageMap) (vpn other : VirtPageNum) :
    table.unmap vpn other = if other = vpn then none else table other :=
  @Function.update_apply VirtPageNum _ _ table vpn _ other

end PageMap

/-- `PageLevel`: the level at which an entry maps, from the root. -/
inductive PageLevel
  | Huge
  | Big
  | Small
deriving DecidableEq, Repr

namespace PageLevel

/-- `PageLevel::from(usize)`, which panics past `2`. -/
def ofUsize : ℕ → Option PageLevel
  | 0 => some .Huge
  | 1 => some .Big
  | 2 => some .Small
  | _ => none

/-- `PageLevel::page_count`. -/
def pageCount : PageLevel → ℕ
  | .Huge => 512 * 512
  | .Big => 512
  | .Small => 1

end PageLevel

/-- `VirtPageNum::indexes`: the three 9-bit table indexes of a page number, root first. -/
def VirtPageNum.indexes (vpn : VirtPageNum) : List ℕ :=
  [vpn.val / 2 ^ 18 % 512, vpn.val / 2 ^ 9 % 512, vpn.val % 512]

/-- Below `2 ^ VPN_WIDTH`, a page is determined by its indexes. -/
theorem VirtPageNum.eq_of_indexes_eq {vpn vpn' : VirtPageNum} (small : vpn.val < 2 ^ VPN_WIDTH)
    (small' : vpn'.val < 2 ^ VPN_WIDTH) (same : vpn.indexes = vpn'.indexes) : vpn = vpn' := by
  simp only [VirtPageNum.indexes, List.cons.injEq, and_true] at same
  simp only [VPN_WIDTH, VA_WIDTH, PAGE_SIZE_BITS] at small small'
  cases vpn; cases vpn'
  simp only [VirtPageNum.mk.injEq, Nat.reducePow] at same small small' ⊢
  omega

namespace PageTableEntry

/-- `PTEFlags::from(MapPerm)`: `R`, `W`, `X`, `U` go to bits 1 to 4. -/
def flagsOf (perm : MapPerm) : ℕ :=
  (if perm.contains .U then 16 else 0) ||| (if perm.contains .R then 2 else 0) |||
    (if perm.contains .W then 4 else 0) ||| (if perm.contains .X then 8 else 0)

/-- `PageTableEntry::new(ppn, perm)`: the frame number above the flags. -/
def new (ppn : PhysPageNum) (perm : MapPerm) : ℕ := usizeWrap (ppn.val <<< 10) ||| flagsOf perm

/-- `set_valid(true)`. -/
def setValid (bits : ℕ) : ℕ := bits ||| 1

/-- `is_valid`: flag `V`. -/
def isValid (bits : ℕ) : Bool := bits.testBit 0

/-- `is_leaf`: valid, with one of `R`, `W`, `X`. -/
def isLeaf (bits : ℕ) : Bool :=
  isValid bits && (bits.testBit 1 || bits.testBit 2 || bits.testBit 3)

/-- `ppn()`: bits 10 to 53. -/
def ppn (bits : ℕ) : PhysPageNum := ⟨bits >>> 10 % 2 ^ PPN_WIDTH⟩

/-- `PTE_FLAGS_MASK`: bits 0 to 9. -/
def PTE_FLAGS_MASK : ℕ := 0x3FF

/-- `pteflags()`: `PTEFlags::from_bits(bits & PTE_FLAGS_MASK).unwrap()`. `PTEFlags` names bits 0
to 8 only, so `from_bits` fails, and the `unwrap` panics, when bit 9 is set: `none`. -/
def pteflags (bits : ℕ) : Option ℕ :=
  let pte := bits &&& PTE_FLAGS_MASK
  if pte < 2 ^ 9 then some pte else none

/-- The `MapPerm` that `flags()` builds from a `PTEFlags` value: `U`, `R`, `W`, `X`. -/
def permOfFlags (pte : ℕ) : MapPerm :=
  ((((MapPerm.empty.union (if pte.testBit 4 then .U else .empty)).union
    (if pte.testBit 1 then .R else .empty)).union (if pte.testBit 2 then .W else .empty)).union
    (if pte.testBit 3 then .X else .empty))

/-- `flags()`: the `MapPerm` of flags `R`, `W`, `X`, `U` of `pteflags()`. -/
def flags (bits : ℕ) : Option MapPerm := (pteflags bits).map permOfFlags

/-- `PPN_MASK`: bits 10 to 53. -/
def PPN_MASK : ℕ := 0x003F_FFFF_FFFF_FC00

/-- `FLAGS_MASK`: `U | R | W | X`. -/
def FLAGS_MASK : ℕ := 16 ||| 2 ||| 4 ||| 8

/-- `set_flags(perm)`: the flags `U`, `R`, `W`, `X` of `perm` in place of the entry's. -/
def setFlags (bits : ℕ) (perm : MapPerm) : ℕ :=
  (bits &&& usizeNot FLAGS_MASK) ||| (flagsOf perm &&& FLAGS_MASK)

/-- `set_ppn(ppn)`: the frame number in place of the entry's. -/
def setPpn (bits : ℕ) (ppn : PhysPageNum) : ℕ :=
  (bits &&& usizeNot PPN_MASK) ||| (usizeWrap (ppn.val <<< 10) &&& PPN_MASK)

/-- `PTEFlags::V`, `D` and `C`, the flags with a setter of their own. -/
def V : ℕ := 1
def D : ℕ := 128
def C : ℕ := 256

/-- `set_valid(val)`, `set_dirty(val)` and `set_cow(val)`, on their flag: `bits |= flag` or
`bits &= !flag`. -/
def setFlag (flag bits : ℕ) (val : Bool) : ℕ :=
  if val then bits ||| flag else bits &&& usizeNot flag

/-- `set_dirty(val)`. -/
def setDirty (bits : ℕ) (val : Bool) : ℕ := setFlag D bits val

/-- `set_cow(val)`. -/
def setCow (bits : ℕ) (val : Bool) : ℕ := setFlag C bits val

/-- `setValid` is `set_valid(true)`, the only way `map` and `find_pte_create` call it. -/
theorem setValid_eq_setFlag (bits : ℕ) : setValid bits = setFlag V bits true := rfl

end PageTableEntry

open PageTableEntry

/-- The riscv64 `PageTable` with the physical memory its walks read and the frame allocator it
takes tables from. -/
structure PageTable where
  rootPpn : PhysPageNum
  frames : List PhysPageNum
  memory : PhysPageNum → ℕ → ℕ
  free : List PhysPageNum

namespace PageTable

/-- Store `value` as entry `index` of the table in `frame`. -/
def write (pt : PageTable) (frame : PhysPageNum) (index value : ℕ) : PageTable :=
  { pt with
    memory := fun other at_ => if other = frame ∧ at_ = index then value else pt.memory other at_ }

/-- `alloc(1).unwrap()` and `fill(0)`: the next frame of the allocator, zeroed. -/
def allocZeroed (pt : PageTable) : Option (PhysPageNum × PageTable) :=
  match pt.free with
  | [] => none
  | frame :: free =>
    some (frame, { pt with
      free
      memory := fun other at_ => if other = frame then 0 else pt.memory other at_ })

/-- `PageTable::new_in`: a zeroed root table. -/
def newIn (memory : PhysPageNum → ℕ → ℕ) (free : List PhysPageNum) : Option PageTable :=
  (allocZeroed ⟨⟨0⟩, [], memory, free⟩).map fun allocated =>
    { allocated.2 with rootPpn := allocated.1, frames := [allocated.1] }

/-- The loop of `find_pte_create(vpn, level)` from index `i` on, at the table in `ppn`: at
`level` it hands back that entry's place; above it, it installs a zeroed table under an entry
that is not valid and goes down. -/
def findPteCreate.walk (level : PageLevel) : PageTable → ℕ → PhysPageNum → List ℕ →
    Option (PageTable × Option (PhysPageNum × ℕ))
  | pt, _, _, [] => some (pt, none)
  | pt, i, ppn, idx :: rest =>
    match PageLevel.ofUsize i with
    | none => none
    | some current =>
      if current = level then some (pt, some (ppn, idx))
      else if isValid (pt.memory ppn idx) then
        walk level pt (i + 1) (PageTableEntry.ppn (pt.memory ppn idx)) rest
      else
        match pt.allocZeroed with
        | none => none
        | some (frame, pt) =>
          let pte := setValid (new frame .empty)
          walk level { pt.write ppn idx pte with frames := pt.frames ++ [frame] } (i + 1)
            (PageTableEntry.ppn pte) rest

/-- `find_pte_create(vpn, level)`. -/
def findPteCreate (pt : PageTable) (vpn : VirtPageNum) (level : PageLevel) :
    Option (PageTable × Option (PhysPageNum × ℕ)) :=
  findPteCreate.walk level pt 0 pt.rootPpn vpn.indexes

/-- The loop of `find_pte(vpn)` from index `i` on: it stops at an entry that is not valid
(`None`), and hands back a leaf, or the entry at index `2`, with its level. -/
def findPte.walk (pt : PageTable) : ℕ → PhysPageNum → List ℕ → Option ((PhysPageNum × ℕ) × ℕ)
  | _, _, [] => none
  | i, ppn, idx :: rest =>
    if !isValid (pt.memory ppn idx) then none
    else if isLeaf (pt.memory ppn idx) || i = 2 then some ((ppn, idx), i)
    else walk pt (i + 1) (PageTableEntry.ppn (pt.memory ppn idx)) rest

/-- `find_pte(vpn)`. -/
def findPte (pt : PageTable) (vpn : VirtPageNum) : Option ((PhysPageNum × ℕ) × ℕ) :=
  findPte.walk pt 0 pt.rootPpn vpn.indexes

/-- `map(vpn, ppn, perm, level)`: the place of the entry it writes, or `Err` when
`find_pte_create` finds none. -/
def map (pt : PageTable) (vpn : VirtPageNum) (ppn : PhysPageNum) (perm : MapPerm)
    (level : PageLevel) : Option (Except Unit (PhysPageNum × ℕ) × PageTable) := do
  let (pt, found) ← pt.findPteCreate vpn level
  match found with
  | none => some (.error (), pt)
  | some (table, idx) => some (.ok (table, idx), pt.write table idx (setValid (new ppn perm)))

/-- `unmap(vpn)`: the entry it clears, or `Err` when `find_pte` finds none. -/
def unmap (pt : PageTable) (vpn : VirtPageNum) : Except Unit ℕ × PageTable :=
  match pt.findPte vpn with
  | none => (.error (), pt)
  | some ((table, idx), _) => (.ok (pt.memory table idx), pt.write table idx 0)

/-- `translate_vpn(vpn)`. -/
def translateVpn (pt : PageTable) (vpn : VirtPageNum) : Option PhysPageNum := do
  let ((table, idx), level) ← pt.findPte vpn
  let level ← PageLevel.ofUsize level
  if !isValid (pt.memory table idx) then none
  else some ⟨(PageTableEntry.ppn (pt.memory table idx)).val + vpn.val % level.pageCount⟩

end PageTable

end Chronix
