import Mathlib
import Chronix.Soundness.UserVmSpace

/-! # The per-page view of an area

What a page of a `UserVmArea` holds is written down nowhere as such: the data fault handler
(`UserDataHandler::handle_lazy_page_fault`) works it out from the area's start, `offset` and
`len` each time it maps the page. `split_off` and `push_back_unchecked` rewrite those three
fields and are meant to leave every page as it was. `pageView` collects what the handler reads
for one page, and the results here compare it before and after.

A split keeps the view of every page of both pieces (`splitOff_fst_pageView`,
`splitOff_snd_pageView`). A merge does not: `check_back_contiguous` compares `offset + len` with
the back area's offset, so it also accepts a front area whose file bytes end before its last
page (an ELF segment with `.bss` pages), and the merged area then reads every page of the back
area from a later place in the file (`pushBackUnchecked_moves_pageView`).
-/

namespace Chronix

open Constant

/-- What the data fault handler makes of one page: the frame already there, the area's
permissions, type, flags and file, where in the file the page starts, and how many of its bytes
come from the file (the rest are zero). -/
structure PageView where
  frame : Option PhysPageNum
  mapPerm : MapPerm
  vmaType : UserVmAreaType
  mapFlags : MapFlags
  file : UserVmFile
  fileOffset : ℕ
  fileBytes : ℕ
deriving DecidableEq

/-! ## Pages and their addresses -/

namespace VirtAddr

theorem floor_val_lt (va : VirtAddr) : va.floor.val < 2 ^ VPN_WIDTH :=
  Nat.mod_lt _ (Nat.two_pow_pos _)

theorem ceil_val_lt (va : VirtAddr) : va.ceil.val < 2 ^ VPN_WIDTH := by
  unfold VirtAddr.ceil
  split
  · exact Nat.two_pow_pos _
  · exact Nat.mod_lt _ (Nat.two_pow_pos _)

end VirtAddr

namespace VirtPageNum

/-- The start address of a page is the page number shifted up, with bit 38 copied into the
bits above it by `VirtAddr::from`. -/
theorem startAddr_val {p : VirtPageNum} (bounded : p.val < 2 ^ VPN_WIDTH) :
    p.startAddr.val = p.val * PAGE_SIZE ∨
      p.startAddr.val = p.val * PAGE_SIZE + (2 ^ 64 - 2 ^ VA_WIDTH) := by
  have page : PAGE_SIZE = 4096 := rfl
  have vaWidth : VA_WIDTH = 39 := rfl
  have vpnWidth : VPN_WIDTH = 27 := rfl
  rw [vpnWidth] at bounded
  have small : p.val * PAGE_SIZE < 2 ^ VA_WIDTH := by
    rw [page, vaWidth]
    omega
  unfold startAddr VirtAddr.ofUsize
  rw [usizeWrap_of_lt (small.trans (by rw [vaWidth]; norm_num)), Nat.mod_eq_of_lt small]
  split
  · exact .inl rfl
  · exact .inr rfl

/-- Rounding the start address of a page down gives the page back. -/
theorem floor_startAddr {p : VirtPageNum} (bounded : p.val < 2 ^ VPN_WIDTH) :
    p.startAddr.floor = p := by
  have page : PAGE_SIZE = 4096 := rfl
  have vaWidth : VA_WIDTH = 39 := rfl
  have vpnWidth : VPN_WIDTH = 27 := rfl
  have addr := startAddr_val bounded
  rw [page, vaWidth] at addr
  rw [vpnWidth] at bounded
  unfold VirtAddr.floor
  show (⟨_⟩ : VirtPageNum) = ⟨p.val⟩
  rw [page, vpnWidth]
  congr 1
  omega

/-- Rounding the start address of a page up gives the page back. -/
theorem ceil_startAddr {p : VirtPageNum} (bounded : p.val < 2 ^ VPN_WIDTH) :
    p.startAddr.ceil = p := by
  have page : PAGE_SIZE = 4096 := rfl
  have vaWidth : VA_WIDTH = 39 := rfl
  have vpnWidth : VPN_WIDTH = 27 := rfl
  have addr := startAddr_val bounded
  rw [page, vaWidth] at addr
  rw [vpnWidth] at bounded
  unfold VirtAddr.ceil usizeWrap
  show _ = (⟨p.val⟩ : VirtPageNum)
  split
  · -- only page `0` starts at address `0`
    congr 1
    omega
  · rw [page, vpnWidth]
    congr 1
    omega

end VirtPageNum

namespace UserVmArea

/-! ## The view of a page -/

/-- `area_offset` of `handle_lazy_page_fault`: how far into the area page `vpn` starts. -/
def areaOffset (area : UserVmArea) (vpn : VirtPageNum) : ℕ :=
  usizeWrap (usizeSub vpn.val area.rangeVpn.start.val * PAGE_SIZE)

/-- How many bytes of the page at `area_offset` the handler reads from the file: up to a page,
and none past `len`, where it maps a zero page. -/
def fileBytes (len areaOffset : ℕ) : ℕ :=
  if areaOffset < len then min PAGE_SIZE (len - areaOffset) else 0

/-- Cutting the file length at or after the end of a page leaves that page as it was. -/
theorem fileBytes_min {len cut areaOffset : ℕ} (below : areaOffset + PAGE_SIZE ≤ cut) :
    fileBytes (min len cut) areaOffset = fileBytes len areaOffset := by
  unfold fileBytes
  split_ifs <;> omega

/-- Dropping `skipped` bytes from the front of the file length moves every page back by as
much. -/
theorem fileBytes_sub (len skipped areaOffset : ℕ) :
    fileBytes (len - skipped) areaOffset = fileBytes len (skipped + areaOffset) := by
  unfold fileBytes
  split_ifs <;> omega

/-- The view of page `vpn` of `area`: the file offset is the handler's `vma.offset +
area_offset`, and a page at or past `len` is zero-filled. -/
def pageView (area : UserVmArea) (vpn : VirtPageNum) : PageView where
  frame := area.frames.get? vpn
  mapPerm := area.mapPerm
  vmaType := area.vmaType
  mapFlags := area.mapFlags
  file := area.file
  fileOffset := UserVmSpace.pageFileOffset area vpn
  fileBytes := fileBytes area.len (area.areaOffset vpn)

theorem pageFileOffset_eq (area : UserVmArea) (vpn : VirtPageNum) :
    UserVmSpace.pageFileOffset area vpn = usizeWrap (area.offset + area.areaOffset vpn) := rfl

/-- A page at or above the area's start, below `2 ^ VPN_WIDTH`, starts this many bytes into the
area. -/
theorem areaOffset_eq {area : UserVmArea} {vpn : VirtPageNum}
    (above : area.rangeVpn.start ≤ vpn) (bounded : vpn.val < 2 ^ VPN_WIDTH) :
    area.areaOffset vpn = (vpn.val - area.rangeVpn.start.val) * PAGE_SIZE := by
  have page : PAGE_SIZE = 4096 := rfl
  have vpnWidth : VPN_WIDTH = 27 := rfl
  have below : area.rangeVpn.start.val ≤ vpn.val := above
  rw [vpnWidth] at bounded
  unfold areaOffset usizeSub usizeWrap
  rw [page]
  omega

/-! ## Splitting -/

section Split

variable {area : UserVmArea} {p : VirtPageNum}

theorem splitOff_fst_rangeVpn (bounded : p.val < 2 ^ VPN_WIDTH) :
    (area.splitOff p).1.rangeVpn = ⟨area.rangeVpn.start, p⟩ := by
  simp only [splitOff, rangeVpn, VirtPageNum.ceil_startAddr bounded]

theorem splitOff_snd_rangeVpn (bounded : p.val < 2 ^ VPN_WIDTH) :
    (area.splitOff p).2.rangeVpn = ⟨p, area.rangeVpn.end⟩ := by
  simp only [splitOff, rangeVpn, VirtPageNum.floor_startAddr bounded]

/-- The file length `split_off` leaves to each piece: the front keeps what lies below `p`, the
back the rest. `new_offset - self.offset` does not wrap, as long as `offset` is a `usize`. -/
theorem splitOff_len (usize : area.offset < 2 ^ 64) :
    (area.splitOff p).1.len = min area.len (area.areaOffset p) ∧
      (area.splitOff p).2.len = area.len - area.areaOffset p := by
  have skipped : usizeSub (usizeWrap (area.offset + area.areaOffset p)) area.offset =
      area.areaOffset p := by
    have small : area.areaOffset p < 2 ^ 64 := Nat.mod_lt _ (Nat.two_pow_pos _)
    unfold usizeSub usizeWrap
    omega
  have fold : usizeWrap (usizeSub p.val area.rangeVpn.start.val * PAGE_SIZE) = area.areaOffset p :=
    rfl
  simp only [splitOff, fold, skipped]
  constructor <;> split_ifs <;> omega

/-- Every page of the front piece has the view it had. -/
theorem splitOff_fst_pageView (usize : area.offset < 2 ^ 64)
    (within : area.rangeVpn.start ≤ p ∧ p ≤ area.rangeVpn.end) {vpn : VirtPageNum}
    (page : (area.splitOff p).1.rangeVpn.contains vpn) :
    (area.splitOff p).1.pageView vpn = area.pageView vpn := by
  have bounded : p.val < 2 ^ VPN_WIDTH := lt_of_le_of_lt within.2 (VirtAddr.ceil_val_lt _)
  obtain ⟨above, below⟩ : area.rangeVpn.start ≤ vpn ∧ vpn < p := by
    rwa [splitOff_fst_rangeVpn bounded] at page
  have vpnBounded : vpn.val < 2 ^ VPN_WIDTH := lt_trans below bounded
  have lens := (splitOff_len (p := p) usize).1
  -- the front piece keeps the area's start, so the page is as far into it as before
  have sameStart : (area.splitOff p).1.rangeVpn.start = area.rangeVpn.start := rfl
  have offsets : (area.splitOff p).1.areaOffset vpn = area.areaOffset vpn := by
    simp only [areaOffset, sameStart]
  have pageBelow : area.areaOffset vpn + PAGE_SIZE ≤ area.areaOffset p := by
    have before : vpn.val < p.val := below
    have startBelow : area.rangeVpn.start.val ≤ vpn.val := above
    have page : PAGE_SIZE = 4096 := rfl
    rw [areaOffset_eq above vpnBounded, areaOffset_eq (le_trans above below.le) bounded, page]
    omega
  have frames : (area.splitOff p).1.frames.get? vpn = area.frames.get? vpn := by
    simp only [splitOff, SortedMap.get?_splitOff_fst, if_pos below]
  have sameOffset : (area.splitOff p).1.offset = area.offset := rfl
  simp only [pageView, frames, pageFileOffset_eq, sameOffset, offsets, lens, fileBytes_min pageBelow,
    PageView.mk.injEq, true_and, and_true]
  exact ⟨rfl, rfl, rfl, rfl⟩

/-- Every page of the back piece has the view it had: the back piece starts at `p` and its
file offset has moved on by the bytes of the pages below `p`. -/
theorem splitOff_snd_pageView (usize : area.offset < 2 ^ 64)
    (within : area.rangeVpn.start ≤ p ∧ p ≤ area.rangeVpn.end) {vpn : VirtPageNum}
    (page : (area.splitOff p).2.rangeVpn.contains vpn) :
    (area.splitOff p).2.pageView vpn = area.pageView vpn := by
  have bounded : p.val < 2 ^ VPN_WIDTH := lt_of_le_of_lt within.2 (VirtAddr.ceil_val_lt _)
  obtain ⟨above, below⟩ : p ≤ vpn ∧ vpn < area.rangeVpn.end := by
    rwa [splitOff_snd_rangeVpn bounded] at page
  have vpnBounded : vpn.val < 2 ^ VPN_WIDTH := lt_trans below (VirtAddr.ceil_val_lt _)
  have lens := (splitOff_len (p := p) usize).2
  have newStart : (area.splitOff p).2.rangeVpn.start = p := by
    rw [splitOff_snd_rangeVpn bounded]
  have aboveNew : (area.splitOff p).2.rangeVpn.start ≤ vpn := by
    rw [newStart]
    exact above
  -- the page lies as far into the area as `p` does, and then as far into the back piece
  have offsets : area.areaOffset vpn = area.areaOffset p + (area.splitOff p).2.areaOffset vpn := by
    have pageAbove : p.val ≤ vpn.val := above
    have startBelow : area.rangeVpn.start.val ≤ p.val := within.1
    rw [areaOffset_eq aboveNew vpnBounded, newStart, areaOffset_eq within.1 bounded,
      areaOffset_eq (le_trans within.1 above) vpnBounded, ← Nat.add_mul]
    congr 1
    omega
  have newOffset : (area.splitOff p).2.offset = usizeWrap (area.offset + area.areaOffset p) := rfl
  have frames : (area.splitOff p).2.frames.get? vpn = area.frames.get? vpn := by
    simp only [splitOff, SortedMap.get?_splitOff_snd, if_pos above]
  simp only [pageView, frames, pageFileOffset_eq, newOffset, offsets, lens, fileBytes_sub,
    usizeWrap, Nat.mod_add_mod, Nat.add_assoc, PageView.mk.injEq, true_and, and_true]
  exact ⟨rfl, rfl, rfl, rfl⟩

end Split

/-! ## Merging -/

/-- `push_back_unchecked` after `check_back_contiguous`, when the front area's file bytes end
before the back area starts: the merged area reads the back area's first page from
`offset + (back start - start) * PAGE_SIZE`, where the back area read it from its own `offset`,
`offset + len`. -/
theorem pushBackUnchecked_moves_pageView {area back : UserVmArea}
    (contiguous : area.checkBackContiguous back = true)
    (short : area.len < (back.rangeVpn.start.val - area.rangeVpn.start.val) * PAGE_SIZE) :
    (area.pushBackUnchecked back).pageView back.rangeVpn.start ≠
      back.pageView back.rangeVpn.start := by
  intro same
  have offsets := congrArg PageView.fileOffset same
  have follows : usizeWrap (area.offset + area.len) = back.offset := by
    simp only [checkBackContiguous, Bool.and_eq_true, beq_iff_eq] at contiguous
    exact contiguous.2
  -- the gap to the back area's first page is below `2 ^ 39`, so it does not wrap
  have gapBounded : (back.rangeVpn.start.val - area.rangeVpn.start.val) * PAGE_SIZE < 2 ^ 64 := by
    have startBounded := VirtAddr.floor_val_lt back.rangeVa.start
    have page : PAGE_SIZE = 4096 := rfl
    have vpnWidth : VPN_WIDTH = 27 := rfl
    rw [page]
    rw [vpnWidth] at startBounded
    exact lt_of_le_of_lt (Nat.mul_le_mul_right _ (Nat.sub_le _ _)) (by simp only [rangeVpn]; omega)
  -- the back area starts above the front one, or the gap would be empty
  have ordered : area.rangeVpn.start ≤ back.rangeVpn.start := by
    show area.rangeVpn.start.val ≤ back.rangeVpn.start.val
    by_contra above
    rw [Nat.sub_eq_zero_of_le (Nat.le_of_not_le above), Nat.zero_mul] at short
    exact Nat.not_lt_zero _ short
  have mergedOffset : (area.pushBackUnchecked back).offset = area.offset := rfl
  have mergedAt : (area.pushBackUnchecked back).areaOffset back.rangeVpn.start =
      (back.rangeVpn.start.val - area.rangeVpn.start.val) * PAGE_SIZE :=
    areaOffset_eq ordered (VirtAddr.floor_val_lt _)
  have backAt : back.areaOffset back.rangeVpn.start = 0 := by
    rw [areaOffset_eq le_rfl (VirtAddr.floor_val_lt _), Nat.sub_self, Nat.zero_mul]
  simp only [pageView, pageFileOffset_eq, mergedOffset, mergedAt, backAt, ← follows,
    Nat.add_zero] at offsets
  unfold usizeWrap at offsets
  omega

/-- A segment with one page of file data and one of `.bss`, the first `PT_LOAD` header of
`mergeableElf`. -/
def bssSegment : UserVmArea :=
  UserVmSpace.loadArea ⟨.Load, true, true, false, 0, 0x10000, 0x1000, 0x2000⟩ 7 ⟨0⟩

/-- The segment whose file data follows on, the second `PT_LOAD` header of `mergeableElf`. -/
def nextSegment : UserVmArea :=
  UserVmSpace.loadArea ⟨.Load, true, true, false, 0x1000, 0x12000, 0x2000, 0x2000⟩ 7 ⟨0⟩

theorem pushBackUnchecked_moves_pageView_bssSegment :
    bssSegment.checkBackContiguous nextSegment = true ∧
      bssSegment.len <
        (nextSegment.rangeVpn.start.val - bssSegment.rangeVpn.start.val) * PAGE_SIZE ∧
      (bssSegment.pushBackUnchecked nextSegment).pageView nextSegment.rangeVpn.start ≠
        nextSegment.pageView nextSegment.rangeVpn.start := by
  have contiguous : bssSegment.checkBackContiguous nextSegment = true := by
    decide +kernel
  have short : bssSegment.len <
      (nextSegment.rangeVpn.start.val - bssSegment.rangeVpn.start.val) * PAGE_SIZE := by
    decide +kernel
  exact ⟨contiguous, short, pushBackUnchecked_moves_pageView contiguous short⟩

end UserVmArea

end Chronix
