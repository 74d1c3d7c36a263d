import Chronix.Model.RangeMap
import Chronix.Model.PageTable

/-! # User virtual memory areas

A `UserVmArea` (`os/src/mm/vm/mod.rs`, methods in `os/src/mm/vm/uvm.rs`) is a range of virtual
addresses with a type, a permission, sharing flags, an optional backing file with an offset and
a length in it, and the frames faulted in so far, keyed by virtual page. A frame is the number
of its first physical page; the owner count of its `StrongArc` is not modelled, and neither are
the write-protection bits that `map` and `clone_cow` set from it (see `PageMap`).

Every `usize` operation wraps as in the release build: `split_off` at a page before the area's
start computes a wrapped offset, exactly as the code does.
-/

namespace Chronix

open Constant

/-- `MmapFlags`, kept by `from_bits_truncate` to its known bits. -/
structure MmapFlags where
  bits : ℕ
deriving DecidableEq, Repr

namespace MmapFlags

def MAP_SHARED : MmapFlags := ⟨0x01⟩
def MAP_PRIVATE : MmapFlags := ⟨0x02⟩
def MAP_SHARED_VALIDATE : MmapFlags := ⟨0x03⟩
def MAP_TYPE_MASK : MmapFlags := ⟨0x03⟩
def MAP_FIXED : MmapFlags := ⟨0x10⟩
def MAP_ANONYMOUS : MmapFlags := ⟨0x20⟩
def MAP_NORESERVE : MmapFlags := ⟨0x4000⟩

/-- `MmapFlags::from_bits_truncate`. -/
def fromBitsTruncate (bits : ℕ) : MmapFlags := ⟨bits &&& 0x4033⟩

/-- `flags.contains(other)`. -/
def contains (flags other : MmapFlags) : Bool := flags.bits &&& other.bits == other.bits

end MmapFlags

/-- `MapFlags`: only `SHARED`. -/
structure MapFlags where
  shared : Bool
deriving DecidableEq, Repr

/-- `MapFlags::from(MmapFlags)`. -/
def MapFlags.ofMmapFlags (flags : MmapFlags) : MapFlags :=
  ⟨flags.contains .MAP_SHARED || flags.contains .MAP_SHARED_VALIDATE⟩

/-- `UserVmAreaType`. -/
inductive UserVmAreaType
  | Data
  | Heap
  | Stack
  | Mmap
deriving DecidableEq, Repr

/-- `UserVmFile`: a file or a System V shared memory object, each named by its identity (the
`PartialEq` of the code compares file pointers and shared memory ids). -/
inductive UserVmFile
  | None
  | File (file : ℕ)
  | Shm (shm : ℕ)
deriving DecidableEq, Repr

/-- `UserVmFile::is_some`. -/
def UserVmFile.isSome : UserVmFile → Bool
  | .None => false
  | _ => true

/-- `UserVmFile::is_file`. -/
def UserVmFile.isFile : UserVmFile → Bool
  | .File _ => true
  | _ => false

/-- `UserVmArea`. -/
structure UserVmArea where
  rangeVa : Range VirtAddr
  vmaType : UserVmAreaType
  mapPerm : MapPerm
  frames : SortedMap VirtPageNum PhysPageNum
  file : UserVmFile
  mapFlags : MapFlags
  offset : ℕ
  len : ℕ

namespace UserVmArea

/-- `UserVmArea::new`. -/
def new (rangeVa : Range VirtAddr) (vmaType : UserVmAreaType) (mapPerm : MapPerm) : UserVmArea :=
  ⟨rangeVa, vmaType, mapPerm, .empty, .None, ⟨false⟩, 0, 0⟩

/-- `UserVmArea::new_mmap`. -/
def newMmap (rangeVa : Range VirtAddr) (mapPerm : MapPerm) (flags : MmapFlags) (file : UserVmFile)
    (offset len : ℕ) : UserVmArea :=
  ⟨rangeVa, .Mmap, mapPerm, .empty, file, .ofMmapFlags flags, offset, len⟩

/-- `UserVmArea::range_vpn`: the pages the area touches. -/
def rangeVpn (area : UserVmArea) : Range VirtPageNum :=
  ⟨area.rangeVa.start.floor, area.rangeVa.end.ceil⟩

/-- `get_mmap_flags`, of `UserVmAreaView`. -/
def getMmapFlags (area : UserVmArea) : MmapFlags :=
  ⟨(if area.mapFlags.shared then MmapFlags.MAP_SHARED.bits else MmapFlags.MAP_PRIVATE.bits) |||
    (if area.file.isFile then 0 else MmapFlags.MAP_ANONYMOUS.bits)⟩

/-- `split_off(p)`: the area keeps what lies below page `p` and returns the rest, with the file
offset moved by the pages skipped and the file length shared out between the two. -/
def splitOff (area : UserVmArea) (p : VirtPageNum) : UserVmArea × UserVmArea :=
  let newOffset :=
    usizeWrap (area.offset + usizeWrap (usizeSub p.val area.rangeVpn.start.val * PAGE_SIZE))
  let skipped := usizeSub newOffset area.offset
  let newLen := if area.len < skipped then 0 else area.len - skipped
  ({ area with
      rangeVa := ⟨area.rangeVa.start, p.startAddr⟩
      frames := (area.frames.splitOff p).1
      len := area.len - newLen },
    { area with
      rangeVa := ⟨p.startAddr, area.rangeVa.end⟩
      frames := (area.frames.splitOff p).2
      offset := newOffset
      len := newLen })

/-- `check_back_contiguous`: `back` starts where the area ends and continues it in every
attribute, its file offset included. -/
def checkBackContiguous (area back : UserVmArea) : Bool :=
  area.rangeVa.end == back.rangeVa.start && area.vmaType == back.vmaType &&
    area.mapPerm == back.mapPerm && area.mapFlags == back.mapFlags && area.file == back.file &&
    usizeWrap (area.offset + area.len) == back.offset

/-- `push_back_unchecked`. -/
def pushBackUnchecked (area back : UserVmArea) : UserVmArea :=
  { area with
    rangeVa := ⟨area.rangeVa.start, back.rangeVa.end⟩
    len := usizeWrap (area.len + back.len)
    frames := area.frames.append back.frames }

/-- `extend(size)`: the end moves up by `size` and out to a page boundary. -/
def extend (area : UserVmArea) (size : ℕ) : UserVmArea :=
  if size = 0 then area
  else
    { area with
      rangeVa := ⟨area.rangeVa.start, (area.rangeVa.end + size).ceil.startAddr⟩
      len := if area.file.isSome then usizeWrap (area.len + size) else area.len }

/-- `shrink(size)`: split at the page of `end - size` and drop the upper part. -/
def shrink (area : UserVmArea) (size : ℕ) : UserVmArea :=
  if size = 0 then area else (area.splitOff (area.rangeVa.end - size).floor).1

/-- `move_frames_to(other)`: every frame goes to the page of `other` at the same distance from
its start. -/
def moveFramesTo (area other : UserVmArea) : UserVmArea × UserVmArea :=
  let selfStart := area.rangeVa.start.floor
  let otherStart := other.rangeVa.start.floor
  ({ area with frames := .empty },
    { other with
      frames := area.frames.entries.foldl
        (fun frames entry => frames.insert (otherStart + usizeSub entry.1.val selfStart.val) entry.2)
        other.frames })

/-- `map`: every frame at its page, with the area's permission. -/
def map (area : UserVmArea) (table : PageMap) : PageMap :=
  area.frames.entries.foldl (fun table entry => table.map entry.1 entry.2 area.mapPerm) table

/-- `unmap`: every page that has a frame. -/
def unmap (area : UserVmArea) (table : PageMap) : PageMap :=
  area.frames.entries.foldl (fun table entry => table.unmap entry.1) table

end UserVmArea

end Chronix
