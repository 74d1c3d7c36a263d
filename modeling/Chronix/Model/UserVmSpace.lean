import Chronix.Model.UserVmArea
import Chronix.Model.UserStack
import Chronix.Model.SysError

/-! # The user address space

`UserVmSpace` (`os/src/mm/vm/uvm.rs`) is a page table, a `RangeMap` of areas keyed by the pages
they cover, and the program break. Every operation returns the space as it is afterwards; a
panic (`panic!`, a failed `unwrap` or `assert!`) is `none`. The page table is the `PageMap` it
stands for.

ELF files are given by what the loader reads from them: the entry point, the program header
table's offset and entry size, its headers, and whether the file is a shared object. Both
callers of `from_elf` pass `Some(file)`, so the areas of `map_elf` are always file backed and the
`copy_data` branch of `push_area` is never taken.
-/

namespace Chronix

open Constant

/-- `xmas_elf::program::Type`, as far as the loader distinguishes it. -/
inductive ProgramType
  | Load
  | Interp
  | Other
deriving DecidableEq, Repr

/-- A program header: type, `R`/`W`/`X` flags, file offset and size, address and memory size. -/
structure ProgramHeader where
  type : ProgramType
  isRead : Bool
  isWrite : Bool
  isExecute : Bool
  offset : ℕ
  virtualAddr : ℕ
  fileSize : ℕ
  memSize : ℕ
deriving DecidableEq, Repr

/-- What the loader reads from an ELF file. -/
structure ElfFile where
  entryPoint : ℕ
  phEntrySize : ℕ
  phOffset : ℕ
  programHeaders : List ProgramHeader
  isSharedObject : Bool
deriving DecidableEq, Repr

/-- `UserVmSpace`. -/
structure UserVmSpace where
  pageTable : PageMap
  areas : RangeMap VirtPageNum UserVmArea
  brk : Range VirtAddr

namespace UserVmSpace

/-- `UserVmSpace::new`. -/
def new : UserVmSpace := ⟨.empty, .new, ⟨⟨0⟩, ⟨0⟩⟩⟩

/-- `push_area(area, None)`: insert the area under its pages and map its frames; a range that
is not free is `panic!("[push_area] fail")`. -/
def pushArea (s : UserVmSpace) (area : UserVmArea) : Option UserVmSpace := do
  let (result, areas) ← s.areas.tryInsert area.rangeVpn area
  match result with
  | .error _ => none
  | .ok () => some { s with areas, pageTable := area.map s.pageTable }

/-- `find_heap`: the area holding the page below the break, when it is the heap. -/
def findHeap (s : UserVmSpace) : Option UserVmArea :=
  (s.areas.get (s.brk.end.ceil - 1)).filter fun area => area.vmaType = .Heap

/-- The `while let Some(range) = self.find_heap()` loop of `reset_heap_break` that lowers the
break: a heap left with no page is removed and the loop looks again; otherwise it is cut at the
page of the new break. Each turn that goes on removes an area. -/
def shrinkHeap (s : UserVmSpace) (newBrk : VirtAddr) : Option (VirtAddr × UserVmSpace) :=
  match s.findHeap with
  | none => some (s.brk.end, s)
  | some heap =>
    let range := heap.rangeVpn
    let newRange : Range VirtPageNum := ⟨range.start, newBrk.ceil⟩
    if range = newRange then some (newBrk, { s with brk := ⟨s.brk.start, newBrk⟩ })
    else if newRange.end ≤ newRange.start then
      match removed : s.areas.forceRemoveOne range with
      | none => none
      | some (heap, areas) =>
        shrinkHeap { s with
          areas
          pageTable := heap.unmap s.pageTable
          brk := ⟨s.brk.start, max newBrk s.brk.start⟩ } newBrk
    else
      match s.areas.reduceBack newRange with
      | none => none
      | some (.error (), areas) => some (s.brk.end, { s with areas })
      | some (.ok (), areas) =>
        -- `self.areas.get_mut(range.start).unwrap()`, then `split_off` in place
        match areas.getKeyValue range.start with
        | none => none
        | some (key, heap) =>
          some (newBrk, { s with
            areas := areas.modifyValue key.start fun _ => (heap.splitOff newBrk.ceil).1
            pageTable := (heap.splitOff newBrk.ceil).2.unmap s.pageTable
            brk := ⟨s.brk.start, newBrk⟩ })
termination_by s.areas.tree.entries.length
decreasing_by exact RangeMap.length_forceRemoveOne removed

/-- `reset_heap_break(new_brk)`: the break it settles on, and the space. -/
def resetHeapBreak (s : UserVmSpace) (newBrk : VirtAddr) : Option (VirtAddr × UserVmSpace) :=
  match s.findHeap with
  | none =>
    if s.brk.end < newBrk then do
      let s ← s.pushArea
        (UserVmArea.new ⟨s.brk.start, newBrk⟩ .Heap ((MapPerm.R.union .W).union .U))
      some (newBrk, { s with brk := ⟨s.brk.start, newBrk⟩ })
    else some (s.brk.end, s)
  | some heap =>
    let range := heap.rangeVpn
    if s.brk.end < newBrk then
      let newRange : Range VirtPageNum := ⟨range.start, newBrk.ceil⟩
      if range = newRange then some (newBrk, { s with brk := ⟨s.brk.start, newBrk⟩ })
      else
        match s.areas.extendBack newRange with
        | none => none
        | some (.error (), areas) => some (s.brk.end, { s with areas })
        | some (.ok (), areas) =>
          match areas.getKeyValue range.start with
          | none => none
          | some (key, _) =>
            some (newBrk, { s with
              areas := areas.modifyValue key.start fun heap =>
                { heap with rangeVa := ⟨heap.rangeVa.start, newBrk⟩ }
              brk := ⟨s.brk.start, newBrk⟩ })
    else if s.brk.start ≤ newBrk then s.shrinkHeap newBrk
    else some (s.brk.end, s)

/-- `from_existed`: the child of a fork, with the parent's break and every area of the parent,
sharing its frames, pushed in order. -/
def fromExisted (s : UserVmSpace) : Option UserVmSpace :=
  s.areas.ranges.foldlM (fun child entry => child.pushArea entry.2) { new with brk := s.brk }

/-- The page-rounded length of `alloc_mmap_area` and `alloc_anon_area`:
`(va.page_offset() + len - 1 + PAGE_SIZE) & !(PAGE_SIZE - 1)`. -/
def roundedLength (va : VirtAddr) (len : ℕ) : ℕ :=
  usizeWrap (usizeSub (usizeWrap (va.pageOffset + len)) 1 + PAGE_SIZE) &&& usizeNot (PAGE_SIZE - 1)

/-- The pages of a new mapping: `va.floor()..(va + len).ceil()` if it is free and `MAP_FIXED`
is set, else the first free run of `len` bytes of pages in `window`. -/
def mmapRange (s : UserVmSpace) (va : VirtAddr) (len : ℕ) (flags : MmapFlags)
    (window : Range VirtPageNum) : Except SysError (Range VirtPageNum) :=
  if flags.contains .MAP_FIXED then
    let range : Range VirtPageNum := ⟨va.floor, (va + len).ceil⟩
    match s.areas.isRangeFree range with
    | .ok () => .ok range
    | .error () => .error .ENOMEM
  else
    match s.areas.findFreeRange window (len / PAGE_SIZE) with
    | some range => .ok range
    | none => .error .ENOMEM

/-- `alloc_mmap_area`: a file mapping, placed in the file window unless `MAP_FIXED`. -/
def allocMmapArea (s : UserVmSpace) (va : VirtAddr) (len : ℕ) (perm : MapPerm)
    (flags : MmapFlags) (file : ℕ) (offset : ℕ) : Option (Except SysError VirtAddr × UserVmSpace) :=
  if len = 0 then some (.error .EINVAL, s)
  else
    let len := roundedLength va len
    match s.mmapRange va len flags
        ⟨(VirtAddr.ofUsize USER_FILE_BEG).floor, (VirtAddr.ofUsize USER_FILE_END).floor⟩ with
    | .error e => some (.error e, s)
    | .ok range =>
      let rangeVa : Range VirtAddr := ⟨range.start.startAddr, range.end.startAddr⟩
      (s.pushArea (.newMmap rangeVa perm flags (.File file) offset len)).map
        fun s => (.ok rangeVa.start, s)

/-- `alloc_anon_area`: an anonymous or shared-memory mapping, placed in the share window unless
`MAP_FIXED`; a private one records its own start address as its offset. -/
def allocAnonArea (s : UserVmSpace) (va : VirtAddr) (len : ℕ) (perm : MapPerm)
    (flags : MmapFlags) (shm : Option ℕ) : Option (Except SysError VirtAddr × UserVmSpace) :=
  if len = 0 then some (.error .EINVAL, s)
  else if flags.contains .MAP_SHARED && shm.isNone then some (.error .EINVAL, s)
  else
    let len := roundedLength va len
    let va := va.floor.startAddr
    match s.mmapRange va len flags
        ⟨(VirtAddr.ofUsize USER_SHARE_BEG).floor, (VirtAddr.ofUsize USER_SHARE_END).floor⟩ with
    | .error e => some (.error e, s)
    | .ok range =>
      let rangeVa : Range VirtAddr := ⟨range.start.startAddr, range.end.startAddr⟩
      let vma := match shm with
        | some shm => UserVmArea.newMmap rangeVa perm flags (.Shm shm) 0 len
        | none => UserVmArea.newMmap rangeVa perm flags .None rangeVa.start.val len
      (s.pushArea vma).map fun s => (.ok rangeVa.start, s)

/-- The loop of `try_union` from page `start` to `end`: while the area at `start` ends before
`end` and the area after it continues it, the two are merged. Each merge removes an area. -/
def tryUnion.loop (areas : RangeMap VirtPageNum UserVmArea) (start «end» : VirtPageNum) :
    Option (Except Unit Unit × RangeMap VirtPageNum UserVmArea) :=
  if start < «end» then
    match areas.get start with
    | none => some (.error (), areas)
    | some vma1 =>
      let newStart := vma1.rangeVpn.end
      if «end» ≤ newStart then some (.ok (), areas)
      else
        match areas.get newStart with
        | none => some (.error (), areas)
        | some vma2 =>
          if vma1.checkBackContiguous vma2 then
            match removed : areas.forceRemoveOne vma2.rangeVpn with
            | none => none
            | some (vma2, rest) =>
              -- `self.areas.get_mut(start).unwrap()`
              match rest.getKeyValue start with
              | none => none
              | some (key, vma1) =>
                let vma1 := vma1.pushBackUnchecked vma2
                match extended : (rest.modifyValue key.start fun _ => vma1).extendBack
                    vma1.rangeVpn with
                | none => none
                | some (_, merged) => loop merged newStart «end»
          else some (.error (), areas)
  else some (.ok (), areas)
termination_by areas.tree.entries.length
decreasing_by
  rw [RangeMap.length_extendBack extended, RangeMap.length_modifyValue]
  exact RangeMap.length_forceRemoveOne removed

/-- `try_union(vpn, pg_len)`. -/
def tryUnion (areas : RangeMap VirtPageNum UserVmArea) (vpn : VirtPageNum) (pgLen : ℕ) :
    Option (Except Unit Unit × RangeMap VirtPageNum UserVmArea) :=
  tryUnion.loop areas vpn (vpn + pgLen)

/-- `unmap(va, len)`: after merging what can be merged, the area containing `va`'s page, or
else the first area starting in the range, is cut at that page and at the end of the range; the
front and back pieces stay, and the middle piece is unmapped and returned. `range_mut` panics
when `vpn + pg_len` has wrapped below `vpn`. -/
def unmap (s : UserVmSpace) (va : VirtAddr) (len : ℕ) :
    Option (Except SysError UserVmArea × UserVmSpace) := do
  let vpn := va.floor
  let pgLen := usizeSub (va + len).ceil.val vpn.val
  let (_, areas) ← tryUnion s.areas vpn pgLen
  let found ← match areas.getKeyValue vpn with
    | some found => some (some found)
    -- `range_mut(vpn..vpn + pg_len)` panics when the end has wrapped below the start
    | none => if vpn + pgLen < vpn then none else some (areas.firstStartingIn ⟨vpn, vpn + pgLen⟩)
  match found with
  | none => some (.error .EINVAL, { s with areas })
  | some (oldRange, front) =>
    let (front, mid) := front.splitOff va.floor
    let areas := areas.modifyValue oldRange.start fun _ => front
    let newRange := front.rangeVpn
    let (_, areas) ← if newRange.isEmpty then
        (areas.forceRemoveOne oldRange).map fun removed => (Except.ok (), removed.2)
      else areas.reduceBack newRange
    if vpn + pgLen < mid.rangeVpn.end then
      let (mid, back) := mid.splitOff (vpn + pgLen)
      if back.rangeVa.isEmpty then
        some (.ok mid, { s with areas, pageTable := mid.unmap s.pageTable })
      else
        let (result, areas) ← areas.tryInsert back.rangeVpn back
        match result with
        | .error _ => some (.error .EFAULT, { s with areas })
        | .ok () => some (.ok mid, { s with areas, pageTable := mid.unmap s.pageTable })
    else some (.ok mid, { s with areas, pageTable := mid.unmap s.pageTable })

/-- `check_free(va, len)`. -/
def checkFree (s : UserVmSpace) (va : VirtAddr) (len : ℕ) : Except Unit Unit :=
  s.areas.isRangeFree ⟨va.floor, (va + len).ceil⟩

/-- `get_area_view(va)`: the area holding `va`'s page (the view is the area without its frames,
which no caller reads). -/
def getAreaView (s : UserVmSpace) (va : VirtAddr) : Option UserVmArea := s.areas.get va.floor

/-- The area `map_elf` builds for a `PT_LOAD` header: its pages, with the file offset rounded
down to a page and the length of file data from there. -/
def loadArea (ph : ProgramHeader) (elfFile : ℕ) (offset : VirtAddr) : UserVmArea :=
  let startVa := VirtAddr.ofUsize (usizeWrap (ph.virtualAddr + offset.val))
  let endVa := VirtAddr.ofUsize (usizeWrap (usizeWrap (ph.virtualAddr + ph.memSize) + offset.val))
  let mapPerm := (((MapPerm.U.union (if ph.isRead then .R else .empty)).union
    (if ph.isWrite then .W else .empty)).union (if ph.isExecute then .X else .empty))
  let elfOffsetStart := (PhysAddr.ofUsize ph.offset).floor.startAddr.val
  let elfOffsetEnd := usizeWrap (ph.offset + ph.fileSize)
  { UserVmArea.new ⟨startVa.floor.startAddr, endVa.ceil.startAddr⟩ .Data mapPerm with
    file := .File elfFile
    offset := elfOffsetStart
    len := usizeSub elfOffsetEnd elfOffsetStart }

/-- One turn of the loop of `map_elf` over the program headers: the area of a `PT_LOAD` header
is pushed, its end page becomes the last one, and its start address is the header address when
none was found before. -/
def mapElf.segment (elfFile : ℕ) (offset : VirtAddr) (state : UserVmSpace × VirtPageNum × Option ℕ)
    (ph : ProgramHeader) : Option (UserVmSpace × VirtPageNum × Option ℕ) :=
  if ph.type = .Load then
    let area := loadArea ph elfFile offset
    (state.1.pushArea area).map fun s =>
      (s, area.rangeVpn.end, state.2.2.orElse fun _ =>
        some (VirtAddr.ofUsize (usizeWrap (ph.virtualAddr + offset.val))).val)
  else some state

/-- `map_elf(elf, Some(file), offset)`: push the area of every `PT_LOAD` header in order. It
returns the end page of the last one (`offset`'s page if there is none) and the start address of
the first. -/
def mapElf (s : UserVmSpace) (elf : ElfFile) (elfFile : ℕ) (offset : VirtAddr) :
    Option ((VirtPageNum × VirtAddr) × UserVmSpace) := do
  let (s, maxEndVpn, headerVa) ←
    elf.programHeaders.foldlM (mapElf.segment elfFile offset) (s, offset.floor, none)
  some ((maxEndVpn, VirtAddr.ofUsize (headerVa.getD 0)), s)

/-- Whether `load_dl_interp_if_needed` loads an interpreter: an `INTERP` header, or a shared
object. -/
def needsInterp (elf : ElfFile) : Bool :=
  elf.programHeaders.any (fun ph => ph.type = .Interp) || elf.isSharedObject

/-- `from_elf(elf, Some(file))`. `interp` is what the interpreter lookup of
`load_dl_interp_if_needed` comes to: the interpreter and its file, or the error it returns. The
result is the space, the stack top, the entry point and the auxiliary vector. -/
def fromElf (elf : ElfFile) (elfFile : ℕ) (interp : Except SysError (ElfFile × ℕ)) :
    Option (Except SysError (UserVmSpace × ℕ × ℕ × List AuxHeader)) := do
  let early : List AuxHeader := [⟨AT_PHENT, elf.phEntrySize⟩,
    ⟨AT_PHNUM, elf.programHeaders.length⟩, ⟨AT_PAGESZ, PAGE_SIZE⟩, ⟨AT_ENTRY, elf.entryPoint⟩]
  -- the interpreter, if any, is mapped first, at `DL_INTERP_OFFSET`
  let loaded : Except SysError (Option (UserVmSpace × ℕ)) ←
    if needsInterp elf then
      match interp with
      | .error e => some (.error e)
      | .ok (interpElf, interpFile) =>
        (new.mapElf interpElf interpFile (VirtAddr.ofUsize DL_INTERP_OFFSET)).map fun mapped =>
          .ok (some (mapped.2, interpElf.entryPoint + DL_INTERP_OFFSET))
    else some (.ok none)
  match loaded with
  | .error e => some (.error e)
  | .ok loaded =>
    let (ret, entry, base) := match loaded with
      | some (ret, interpEntry) => (ret, interpEntry, DL_INTERP_OFFSET)
      | none => (new, elf.entryPoint, 0)
    let auxv := early ++ [⟨AT_BASE, base⟩, ⟨AT_FLAGS, 0⟩, ⟨AT_UID, 0⟩, ⟨AT_EUID, 0⟩,
      ⟨AT_GID, 0⟩, ⟨AT_EGID, 0⟩, ⟨AT_PLATFORM, 0⟩, ⟨AT_HWCAP, 0⟩, ⟨AT_CLKTCK, 100⟩,
      ⟨AT_SECURE, 0⟩, ⟨AT_NOTELF, 0x112d⟩]
    let ((maxEndVpn, headerVa), ret) ← ret.mapElf elf elfFile (VirtAddr.ofUsize 0)
    let phHeadAddr := usizeWrap (headerVa.val + elf.phOffset)
    let auxv := auxv ++ [⟨AT_RANDOM, phHeadAddr⟩, ⟨AT_PHDR, phHeadAddr⟩]
    let ret := { ret with brk := ⟨maxEndVpn.startAddr, maxEndVpn.startAddr⟩ }
    let ret ← ret.pushArea (UserVmArea.new
      ⟨VirtAddr.ofUsize USER_STACK_BOTTOM, VirtAddr.ofUsize USER_STACK_TOP⟩ .Stack
      ((MapPerm.R.union .W).union .U))
    some (.ok (ret, USER_STACK_TOP, entry, auxv))

end UserVmSpace

end Chronix
