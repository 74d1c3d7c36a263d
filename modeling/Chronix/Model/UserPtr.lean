import Mathlib
import Chronix.Model.UserVmSpace

/-! # Checking user pointers

Before the kernel reads or writes through a user pointer, `UserPtrRaw::ensure_read` and its
siblings (`os/src/mm/user.rs`) call `UserVmSpace::ensure_access(va, len, access_type)`
(`os/src/mm/vm/uvm.rs`). It refuses a start at or above `USER_ADDR_SPACE.end`, then walks the
pages from `va.floor()` to `(va + len).ceil()`. A page passes at once when the hardware probe
`try_read_user` or `try_write_user` succeeds. Otherwise the area holding the page is looked up,
and every page of it up to the end of the range that cannot be reached without a fault goes
through the area's `handle_page_fault`. A slice checks `size_of::<T>() * len` bytes, a product
that wraps like every `usize` product.

The probes are modelled by the page table: a read succeeds on a page mapped user-readable, a
write on one mapped user-writable. `handle_page_fault` is modelled up
to its permission check. What it does after the check is a parameter `LazyFault`: it reads the
page-table entry and the area's lazy fault handler, which may map frames and read files.
`cstr_slice` reads the bytes of user memory, which the model does not hold; it is left out.
-/

namespace Chronix

open Constant

/-- `PageFaultAccessType`: `READ = 1`, `WRITE = 2`, `EXECUTE = 4`. -/
structure PageFaultAccessType where
  bits : ℕ
deriving DecidableEq, Repr

namespace PageFaultAccessType

def READ : PageFaultAccessType := ⟨1⟩
def WRITE : PageFaultAccessType := ⟨2⟩
def EXECUTE : PageFaultAccessType := ⟨4⟩

/-- `a.contains(b)`. -/
def contains (a b : PageFaultAccessType) : Bool := a.bits &&& b.bits == b.bits

/-- `can_access(flag)`: the area must be readable, and writable or executable when the access
is. -/
def canAccess (access : PageFaultAccessType) (flag : MapPerm) : Bool :=
  if !flag.contains .R then false
  else if access.contains WRITE && !flag.contains .W then false
  else if access.contains EXECUTE && !flag.contains .X then false
  else true

end PageFaultAccessType

open PageFaultAccessType

/-- `try_read_user(va)`: the load succeeds on a page mapped user-readable. -/
def tryReadUser (pageTable : PageMap) (vpn : VirtPageNum) : Bool :=
  match pageTable vpn with
  | some (_, perm) => perm.contains .U && perm.contains .R
  | none => false

/-- `try_write_user(va)`: the store succeeds on a page mapped user-writable. -/
def tryWriteUser (pageTable : PageMap) (vpn : VirtPageNum) : Bool :=
  match pageTable vpn with
  | some (_, perm) => perm.contains .U && perm.contains .W
  | none => false

/-- What `UserVmArea::handle_page_fault` does once the permission check has passed: `none` is a
panic, `Err(())` a fault it gives up on, and `Ok` the area and page table after the fault. -/
def LazyFault : Type :=
  UserVmArea → PageMap → VirtPageNum → PageFaultAccessType →
    Option (Except Unit (UserVmArea × PageMap))

namespace UserVmArea

/-- `access_no_fault(vpn, access_type)`: a frame is there, and a write needs the area shared. -/
def accessNoFault (area : UserVmArea) (vpn : VirtPageNum) (access : PageFaultAccessType) : Bool :=
  match area.frames.get? vpn with
  | some _ => !(access.contains WRITE && !area.mapFlags.shared)
  | none => false

/-- `handle_page_fault(page_table, vpn, access_type)`: an access the area's permission does not
allow fails, and the rest is the lazy fault. -/
def handlePageFault (lazy : LazyFault) (area : UserVmArea) (pageTable : PageMap)
    (vpn : VirtPageNum) (access : PageFaultAccessType) :
    Option (Except Unit (UserVmArea × PageMap)) :=
  if !access.canAccess area.mapPerm then some (.error ()) else lazy area pageTable vpn access

/-- The inner `for vpn in vpn..end.min(area.range_vpn().end)` of `ensure_access`: a page that
faults goes through `handle_page_fault`, and its `?` returns the error with what the earlier
pages changed. -/
def faultPages (lazy : LazyFault) (access : PageFaultAccessType) :
    List VirtPageNum → UserVmArea → PageMap → Option (Except Unit Unit × UserVmArea × PageMap)
  | [], area, pageTable => some (.ok (), area, pageTable)
  | vpn :: rest, area, pageTable =>
    if area.accessNoFault vpn access then faultPages lazy access rest area pageTable
    else
      match area.handlePageFault lazy pageTable vpn access with
      | none => none
      | some (.error ()) => some (.error (), area, pageTable)
      | some (.ok (area, pageTable)) => faultPages lazy access rest area pageTable

end UserVmArea

/-- The pages `start..bound` of a `Range<VirtPageNum>` loop. -/
def pagesBetween (start bound : VirtPageNum) : List VirtPageNum :=
  (List.range (bound.val - start.val)).map fun i => ⟨start.val + i⟩

namespace UserVmSpace

/-- `UserVmSpace::handle_page_fault(va, access_type)`: the fault of the area holding the page of
`va`, and `Err(())` when no area holds it. -/
def handlePageFault (lazy : LazyFault) (s : UserVmSpace) (va : VirtAddr)
    (access : PageFaultAccessType) : Option (Except Unit Unit × UserVmSpace) :=
  match s.areas.getKeyValue va.floor with
  | none => some (.error (), s)
  | some (range, area) =>
    match area.handlePageFault lazy s.pageTable va.floor access with
    | none => none
    | some (.error ()) => some (.error (), s)
    | some (.ok (area, pageTable)) =>
      some (.ok (), { s with
        areas := s.areas.modifyValue range.start fun _ => area
        pageTable })

/-- The `while vpn < end` loop of `ensure_access`. Each turn moves `vpn` up by a page or to the
end of an area that holds it, so `end - vpn` turns are enough; `fuel` counts them, and running
out stands for the loop that never ends when an area's range does not cover its own key. -/
def ensureAccess.loop (lazy : LazyFault) (access : PageFaultAccessType) («end» : VirtPageNum) :
    ℕ → UserVmSpace → VirtPageNum → Option (Except Unit Unit × UserVmSpace)
  | fuel, s, vpn =>
    if vpn < «end» then
      match fuel with
      | 0 => none
      | fuel + 1 =>
        -- the hardware probe: a page that can be touched already needs nothing else
        let probed :=
          if access.contains WRITE then tryWriteUser s.pageTable vpn
          else if access.contains READ then tryReadUser s.pageTable vpn
          else false
        if probed then ensureAccess.loop lazy access «end» fuel s (vpn + 1)
        else
          match s.areas.getKeyValue vpn with
          | none => some (.error (), s)
          | some (range, area) =>
            match area.faultPages lazy access (pagesBetween vpn (min «end» area.rangeVpn.end))
                s.pageTable with
            | none => none
            | some (result, area, pageTable) =>
              let s := { s with
                areas := s.areas.modifyValue range.start fun _ => area
                pageTable }
              match result with
              | .error () => some (.error (), s)
              | .ok () => ensureAccess.loop lazy access «end» fuel s area.rangeVpn.end
    else some (.ok (), s)

/-- `ensure_access(va, len, access_type)`. -/
def ensureAccess (lazy : LazyFault) (s : UserVmSpace) (va : VirtAddr) (len : ℕ)
    (access : PageFaultAccessType) : Option (Except Unit Unit × UserVmSpace) :=
  if va.val ≥ USER_ADDR_SPACE_END then some (.error (), s)
  else
    let vpn := va.floor
    let «end» := (va.add len).ceil
    ensureAccess.loop lazy access «end» («end».val - vpn.val) s vpn

end UserVmSpace

/-- `UserPtrRaw<T>`: a user address, with `size_of::<T>()` as `size`. -/
structure UserPtrRaw where
  ptr : ℕ
  size : ℕ
deriving DecidableEq, Repr

/-- `UserSliceRaw<T>`: a user address and a count of `size_of::<T>()`-byte elements. -/
structure UserSliceRaw where
  ptr : ℕ
  len : ℕ
  size : ℕ
deriving DecidableEq, Repr

/-- `ensure_read` and `ensure_write` of both kinds of pointer: `ensure_access` on the pointer's
bytes, and the pointer back when it passes. The outer `Option` is a panic in the fault
handler. -/
def ensurePtr {P : Type} (lazy : LazyFault) (pointer : P) (vm : UserVmSpace) (ptr len : ℕ)
    (access : PageFaultAccessType) : Option (Option P × UserVmSpace) :=
  (vm.ensureAccess lazy ⟨ptr⟩ len access).map fun (result, vm) =>
    (match result with
      | .ok () => some pointer
      | .error () => none, vm)

namespace UserPtrRaw

/-- `UserPtrRaw::ensure_read`. -/
def ensureRead (lazy : LazyFault) (raw : UserPtrRaw) (vm : UserVmSpace) :
    Option (Option UserPtrRaw × UserVmSpace) :=
  ensurePtr lazy raw vm raw.ptr raw.size READ

/-- `UserPtrRaw::ensure_write`. -/
def ensureWrite (lazy : LazyFault) (raw : UserPtrRaw) (vm : UserVmSpace) :
    Option (Option UserPtrRaw × UserVmSpace) :=
  ensurePtr lazy raw vm raw.ptr raw.size WRITE

end UserPtrRaw

namespace UserSliceRaw

/-- `UserSliceRaw::ensure_read`: `size_of::<T>() * self.len` bytes, as a `usize` product. -/
def ensureRead (lazy : LazyFault) (raw : UserSliceRaw) (vm : UserVmSpace) :
    Option (Option UserSliceRaw × UserVmSpace) :=
  ensurePtr lazy raw vm raw.ptr (usizeWrap (raw.size * raw.len)) READ

/-- `UserSliceRaw::ensure_write`. -/
def ensureWrite (lazy : LazyFault) (raw : UserSliceRaw) (vm : UserVmSpace) :
    Option (Option UserSliceRaw × UserVmSpace) :=
  ensurePtr lazy raw vm raw.ptr (usizeWrap (raw.size * raw.len)) WRITE

end UserSliceRaw

end Chronix
