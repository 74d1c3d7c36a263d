import Mathlib
import Chronix.Soundness.UserVmArea

/-! # The memory system calls on a valid address space

Three places where `sys_brk`, `sys_mmap` and `sys_mremap` do not do what their callers rely on.

`reset_heap_break` grows a space that has no heap yet by pushing a heap from the break's start to
the new break. `push_area` panics when that range meets a mapped area, and nothing checks it
first: a break set past an `mmap` area or into the stack panics the kernel
(`resetHeapBreak_overlap_panics`), where growing an existing heap through `extend_back` fails
cleanly on the same overlap.

`sys_mmap` with `MAP_FIXED` first calls `unmap` on the range, once, and gives up on its error; on
a range with no area in it `unmap` fails with `EINVAL` (`unmap_of_checkFree`), so a fixed
mapping of free memory fails (`sysMmap_fixed_free_fails`).

`sys_mremap` rounds its sizes with `& !(PAGE_SIZE)`, which keeps the low bits
(`mremapRoundedSize_mod`), and its in-place branches return the rounded old size where the
mapping's address is expected (`sysMremap_inPlace_returns_size`).
-/

namespace Chronix

namespace UserVmSpace

open RangeMap Constant

/-! ## The break -/

/-- `reset_heap_break` on a space with no heap, to a break above the current one, when a page
between the break's start and the new break is already mapped: the heap `push_area` makes meets
that page, and the kernel panics. -/
theorem resetHeapBreak_overlap_panics {s : UserVmSpace} (valid : s.areas.Valid)
    (noHeap : s.findHeap = none) {newBrk : VirtAddr} (grows : s.brk.end < newBrk)
    (page : VirtPageNum) (inHeap : (⟨s.brk.start.floor, newBrk.ceil⟩ : Range VirtPageNum).contains page)
    (mapped : ∃ entry ∈ s.areas.tree.entries, (entryRange entry).contains page) :
    s.resetHeapBreak newBrk = none := by
  obtain ⟨entry, member, inEntry⟩ := mapped
  let heap := UserVmArea.new ⟨s.brk.start, newBrk⟩ .Heap ((MapPerm.R.union .W).union .U)
  have nonempty : heap.rangeVpn.start < heap.rangeVpn.end := inHeap.1.trans_lt inHeap.2
  have refused : s.pushArea heap = none :=
    (pushArea_spec valid nonempty).1.mpr ⟨entry, member, fun apart => apart page inEntry inHeap⟩
  simp only [resetHeapBreak, noHeap, grows, if_true]
  simp [heap] at refused
  simp [refused]

/-- A static ELF of one page of text at `0x10000`: its break starts at `0x11000`. -/
def heapElf : ElfFile :=
  ⟨0x10000, 56, 64, [⟨.Load, true, false, true, 0, 0x10000, 0x1000, 0x1000⟩], false⟩

/-- The address space `from_elf` builds for `heapElf`: the text and the stack. -/
def heapSpace : UserVmSpace :=
  ((fromElf heapElf 7 (.error .ENOENT)).bind fun result => result.toOption.map Prod.fst).getD new

/-- `sys_brk(USER_STACK_TOP)` right after loading `heapElf`: the heap would cover the stack. -/
theorem resetHeapBreak_overlap_panics_heapSpace :
    heapSpace.areas.Valid ∧ heapSpace.findHeap = none ∧
      heapSpace.brk.end < VirtAddr.ofUsize USER_STACK_TOP ∧
      (⟨heapSpace.brk.start.floor, (VirtAddr.ofUsize USER_STACK_TOP).ceil⟩ :
        Range VirtPageNum).contains ⟨USER_STACK_BOTTOM / PAGE_SIZE⟩ ∧
      (∃ entry ∈ heapSpace.areas.tree.entries,
        (entryRange entry).contains ⟨USER_STACK_BOTTOM / PAGE_SIZE⟩) ∧
      heapSpace.resetHeapBreak (VirtAddr.ofUsize USER_STACK_TOP) = none := by
  have valid : heapSpace.areas.Valid := ⟨by decide +kernel, by decide +kernel⟩
  have noHeap : heapSpace.findHeap = none := by decide +kernel
  have grows : heapSpace.brk.end < VirtAddr.ofUsize USER_STACK_TOP := by decide +kernel
  have inHeap : (⟨heapSpace.brk.start.floor, (VirtAddr.ofUsize USER_STACK_TOP).ceil⟩ :
      Range VirtPageNum).contains ⟨USER_STACK_BOTTOM / PAGE_SIZE⟩ := by decide +kernel
  have mapped : ∃ entry ∈ heapSpace.areas.tree.entries,
      (entryRange entry).contains ⟨USER_STACK_BOTTOM / PAGE_SIZE⟩ := by decide +kernel
  exact ⟨valid, noHeap, grows, inHeap, mapped,
    resetHeapBreak_overlap_panics valid noHeap grows _ inHeap mapped⟩

/-! ## Fixed mappings -/

/-- `vpn + (end - vpn)` is `end` again for a page `end` at or above `vpn`. -/
theorem add_usizeSub_of_le {start «end» : VirtPageNum} (ordered : start ≤ «end»)
    (bounded : «end».val < 2 ^ VPN_WIDTH) : start + usizeSub «end».val start.val = «end» := by
  have below : start.val ≤ «end».val := ordered
  have small : «end».val < 2 ^ 64 := bounded.trans (by decide)
  show VirtPageNum.ofUsize (usizeWrap (start.val + usizeWrap («end».val + 2 ^ 64 - start.val))) =
    «end»
  unfold VirtPageNum.ofUsize usizeWrap
  congr 1
  rw [show «end».val + 2 ^ 64 - start.val = («end».val - start.val) + 2 ^ 64 by omega,
    Nat.add_mod_right, Nat.mod_eq_of_lt (by omega : «end».val - start.val < 2 ^ 64),
    show start.val + («end».val - start.val) = «end».val by omega, Nat.mod_eq_of_lt small,
    Nat.mod_eq_of_lt bounded]

/-- `unmap` of a range no area meets: `try_union` stops at the first page, no area holds it,
the range does not wrap and none starts in it, so `unmap` fails with `EINVAL` and leaves the
space as it was. -/
theorem unmap_of_checkFree {s : UserVmSpace} {va : VirtAddr} {len : ℕ}
    (free : s.checkFree va len = .ok ()) : s.unmap va len = some (.error .EINVAL, s) := by
  obtain ⟨nonempty, uncovered, noneStarting⟩ := lookups_of_isRangeFree free
  have ends : va.floor + usizeSub (va + len).ceil.val va.floor.val = (va + len).ceil :=
    add_usizeSub_of_le nonempty.le (VirtAddr.ceil_val_lt _)
  have merged : tryUnion s.areas va.floor (usizeSub (va + len).ceil.val va.floor.val) =
      some (.error (), s.areas) := by
    unfold tryUnion
    rw [tryUnion.loop, ends]
    simp [nonempty, RangeMap.get, uncovered]
  -- the range ends above its start, so `range_mut` does not panic
  simp [unmap, merged, uncovered, ends, noneStarting, nonempty.le]

/-- `sys_mmap` with `MAP_FIXED` of a range no area meets, with every other argument accepted:
the `unmap` it starts with fails, and so does the call. -/
theorem sysMmap_fixed_free_fails {m : UserVmSpace} (getFile : ℕ → Except SysError ℕ)
    (shmAlloc : Option ℕ) {addr : VirtAddr} {length prot flags fd offset : ℕ}
    (fixed : (MmapFlags.fromBitsTruncate flags).contains .MAP_FIXED)
    (opened : (MmapFlags.fromBitsTruncate flags).contains .MAP_ANONYMOUS = false →
      ∃ file, getFile fd = .ok file)
    (sized : length ≠ 0) (placed : addr.val ≠ 0) (aligned : offset % PAGE_SIZE = 0)
    (free : m.checkFree addr length = .ok ()) :
    sysMmap m getFile shmAlloc addr length prot flags fd offset = some (.error .EINVAL, m) := by
  have checked : (if !(MmapFlags.fromBitsTruncate flags).contains .MAP_ANONYMOUS then
      (getFile fd).map fun _ => () else .ok ()) = (.ok () : Except SysError Unit) := by
    cases anonymous : (MmapFlags.fromBitsTruncate flags).contains .MAP_ANONYMOUS
    · obtain ⟨file, found⟩ := opened anonymous
      simp [found, Except.map]
    · rfl
  simp only [sysMmap]
  rw [checked]
  simp [sized, placed, aligned, fixed, unmap_of_checkFree free, Except.map]

/-- `sys_mmap(0x1000_0000, 4096, PROT_READ | PROT_WRITE, MAP_FIXED | MAP_PRIVATE |
MAP_ANONYMOUS, 0, 0)` right after loading `heapElf`, on a page nothing maps. -/
theorem sysMmap_fixed_free_fails_heapSpace :
    (MmapFlags.fromBitsTruncate 0x32).contains .MAP_FIXED ∧
      heapSpace.checkFree (VirtAddr.ofUsize 0x1000_0000) 4096 = .ok () ∧
      sysMmap heapSpace (fun _ => .error .EBADF) none (VirtAddr.ofUsize 0x1000_0000) 4096 3 0x32
        0 0 = some (.error .EINVAL, heapSpace) := by
  have fixed : (MmapFlags.fromBitsTruncate 0x32).contains .MAP_FIXED := by decide
  have free : heapSpace.checkFree (VirtAddr.ofUsize 0x1000_0000) 4096 = .ok () := by
    decide +kernel
  exact ⟨fixed, free, sysMmap_fixed_free_fails _ none fixed
    (fun notAnonymous => absurd notAnonymous (by decide)) (by decide) (by decide) (by decide) free⟩

/-- A value below a page has no bit left once the offset bits are masked off. -/
theorem and_not_pageMask_of_lt {x : ℕ} (small : x < PAGE_SIZE) :
    x &&& usizeNot (PAGE_SIZE - 1) = 0 := by
  have aligned : usizeNot (PAGE_SIZE - 1) % 2 ^ 12 = 0 := by norm_num [usizeNot, PAGE_SIZE]
  have low : (x &&& usizeNot (PAGE_SIZE - 1)) % 2 ^ 12 = 0 := by
    rw [Nat.and_mod_two_pow, aligned, Nat.and_zero]
  have below : x &&& usizeNot (PAGE_SIZE - 1) ≤ x := Nat.and_le_left
  unfold PAGE_SIZE at small
  omega

/-- The page rounding of `alloc_mmap_area` and `alloc_anon_area` wraps to zero for a length
within a page of `usize::MAX` at a page-aligned address. -/
theorem roundedLength_wraps {va : VirtAddr} (aligned : va.pageOffset = 0) {len : ℕ}
    (huge : 2 ^ 64 - PAGE_SIZE < len) (fits : len < 2 ^ 64) : roundedLength va len = 0 := by
  have page : PAGE_SIZE = 4096 := rfl
  have wrapped : usizeWrap (usizeSub (usizeWrap (va.pageOffset + len)) 1 + PAGE_SIZE) =
      len + (PAGE_SIZE - 1) - 2 ^ 64 := by
    rw [aligned]
    simp only [usizeWrap, usizeSub]
    omega
  have small : len + (PAGE_SIZE - 1) - 2 ^ 64 < PAGE_SIZE := by omega
  unfold roundedLength
  rw [wrapped]
  exact and_not_pageMask_of_lt small

/-! ## Remapping in place -/

/-- `& !(PAGE_SIZE)` clears bit 12 only: the rounded size keeps the offset bits of `size - 1`,
so it is a multiple of a page only when `size` is one more than a multiple. -/
theorem mremapRoundedSize_mod {size : ℕ} (positive : 0 < size)
    (bounded : size - 1 + PAGE_SIZE < 2 ^ 64) :
    mremapRoundedSize size % PAGE_SIZE = (size - 1) % PAGE_SIZE := by
  have page : PAGE_SIZE = 2 ^ 12 := rfl
  have rounded : usizeWrap (usizeSub size 1 + PAGE_SIZE) = size - 1 + PAGE_SIZE := by
    simp only [usizeWrap, usizeSub]
    omega
  have low : usizeNot (2 ^ 12) % 2 ^ 12 = 2 ^ 12 - 1 := by norm_num [usizeNot]
  unfold mremapRoundedSize
  rw [rounded, page, Nat.and_mod_two_pow, low, Nat.and_two_pow_sub_one_eq_mod, Nat.mod_mod,
    Nat.add_mod_right]

/-- One in-place branch of `sys_mremap`: `unmap` the old range, resize the area and push it
back; whatever it returns on success is the size it was given. -/
theorem inPlace_size (vm : UserVmSpace) (oldAddr : VirtAddr) (size : ℕ)
    (resize : UserVmArea → UserVmArea) {vm' : UserVmSpace} {r : ℕ}
    (ran : ((vm.unmap oldAddr size).bind fun unmapped => match unmapped.1 with
      | .error e => some (Except.error e, unmapped.2)
      | .ok old => (unmapped.2.pushArea (resize old)).bind fun vm => some (Except.ok size, vm)) =
        some (Except.ok r, vm')) : r = size := by
  obtain ⟨⟨unmapped, rest⟩, -, pushed⟩ := Option.bind_eq_some_iff.mp ran
  cases unmapped with
  | error e => cases pushed
  | ok old =>
    obtain ⟨_, -, returned⟩ := Option.bind_eq_some_iff.mp pushed
    cases returned
    rfl

/-- `sys_mremap` without flags succeeds only in place, and then returns the rounded old size,
not the address of the mapping. -/
theorem sysMremap_inPlace_returns_size {vm : UserVmSpace} {oldAddr : VirtAddr}
    {oldSize newSize newAddress r : ℕ}
    (ok : (sysMremap vm oldAddr oldSize newSize 0 newAddress).map Prod.fst = some (.ok r)) :
    r = mremapRoundedSize oldSize := by
  have flags : MremapFlags.fromBits 0 = some ⟨0⟩ := rfl
  have fixed : (⟨0⟩ : MremapFlags).contains .FIXED = false := rfl
  have dontUnmap : (⟨0⟩ : MremapFlags).contains .DONTUNMAP = false := rfl
  obtain ⟨⟨result, vm'⟩, ran, returned⟩ := Option.map_eq_some_iff.mp ok
  cases returned
  -- every guard that fails returns an error
  by_cases aligned : oldAddr.pageOffset ≠ 0
  · simp [sysMremap, aligned] at ran
  push Not at aligned
  cases area : vm.getAreaView oldAddr with
  | none => simp [sysMremap, aligned, flags, fixed, dontUnmap, area] at ran
  | some oldArea =>
    by_cases short : usizeSub oldArea.rangeVa.end.val oldAddr.val < mremapRoundedSize oldSize
    · simp [sysMremap, aligned, flags, fixed, dontUnmap, area, short] at ran
    by_cases mmap : oldArea.vmaType ≠ .Mmap
    · simp [sysMremap, aligned, flags, fixed, dontUnmap, area, short, mmap] at ran
    push Not at mmap
    -- without flags only the in-place branches are left: shrink, grow, or `ENOMEM`
    by_cases shrinks : mremapRoundedSize newSize ≤ mremapRoundedSize oldSize
    · simp [sysMremap, aligned, flags, fixed, dontUnmap, area, short, mmap, shrinks] at ran
      exact inPlace_size vm oldAddr _
        (fun old => old.shrink (mremapRoundedSize oldSize - mremapRoundedSize newSize)) ran
    by_cases room : vm.checkFree (oldAddr + mremapRoundedSize oldSize)
        (mremapRoundedSize newSize - mremapRoundedSize oldSize) = .ok ()
    · simp [sysMremap, aligned, flags, fixed, dontUnmap, area, short, mmap, shrinks, room] at ran
      exact inPlace_size vm oldAddr _
        (fun old => old.extend (mremapRoundedSize newSize - mremapRoundedSize oldSize)) ran
    · simp [sysMremap, aligned, flags, fixed, dontUnmap, area, short, mmap, shrinks, room] at ran

/-- The space `anonPageMmap` leaves: one private anonymous page at `0x3B_FEFF_D000`. -/
def anonPageSpace : UserVmSpace := (anonPageMmap.map Prod.snd).getD new

/-- `sys_mremap(0x3B_FEFF_D000, 4096, 4096, 0, 0)` on that page returns `0xFFF`. -/
theorem sysMremap_inPlace_returns_size_anonPage :
    (sysMremap anonPageSpace (VirtAddr.ofUsize 0x3B_FEFF_D000) 4096 4096 0 0).map Prod.fst =
        some (.ok 0xFFF) ∧ 0xFFF = mremapRoundedSize 4096 := by
  have ran : (sysMremap anonPageSpace (VirtAddr.ofUsize 0x3B_FEFF_D000) 4096 4096 0 0).map
      Prod.fst = some (.ok 0xFFF) := by
    decide +kernel
  exact ⟨ran, sysMremap_inPlace_returns_size ran⟩

end UserVmSpace

end Chronix
