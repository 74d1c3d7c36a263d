import Chronix.Model.UserVmSpace

/-! # The memory system calls

`sys_mmap`, `sys_munmap`, `sys_mprotect` and `sys_mremap` (`os/src/syscall/mm.rs`) and `sys_brk`
(`os/src/syscall/process.rs`) on the address space of the calling task, with the arguments as
the dispatcher passes them: addresses through `VirtAddr::from`, flag words as the low 32 bits.
The file table and the shared memory manager enter as what they answer: `getFile fd` is the
`get_file` of the task's file table, `shmAlloc` the object `SHM_MANAGER.alloc` hands out.

The loops of `sys_munmap` and `sys_mprotect` walk forward from page to page. The area `unmap`
returns always starts at the current page, and the model stops (`none`) should it not end past
it: the code would then walk back over pages it has passed.
-/

namespace Chronix

open Constant

/-- `MmapProt`, kept by `from_bits_truncate` to its known bits. -/
structure MmapProt where
  bits : ℕ
deriving DecidableEq, Repr

namespace MmapProt

def PROT_READ : MmapProt := ⟨0x1⟩
def PROT_WRITE : MmapProt := ⟨0x2⟩
def PROT_EXEC : MmapProt := ⟨0x4⟩

/-- `MmapProt::from_bits_truncate`. -/
def fromBitsTruncate (bits : ℕ) : MmapProt := ⟨bits &&& 0x7⟩

/-- `prot.contains(other)`. -/
def contains (prot other : MmapProt) : Bool := prot.bits &&& other.bits == other.bits

end MmapProt

/-- `MapPerm::from(MmapProt)`: always `U`, and `R`, `W`, `X` as the protection asks. -/
def MapPerm.ofMmapProt (prot : MmapProt) : MapPerm :=
  ((MapPerm.U.union (if prot.contains .PROT_READ then .R else .empty)).union
    (if prot.contains .PROT_WRITE then .W else .empty)).union
    (if prot.contains .PROT_EXEC then .X else .empty)

/-- `MremapFlags`. -/
structure MremapFlags where
  bits : ℕ
deriving DecidableEq, Repr

namespace MremapFlags

def MAYMOVE : MremapFlags := ⟨1⟩
def FIXED : MremapFlags := ⟨2⟩
def DONTUNMAP : MremapFlags := ⟨4⟩

/-- `MremapFlags::from_bits` of an `i32`: `None` when a bit outside the three flags is set. -/
def fromBits (bits : ℕ) : Option MremapFlags :=
  if bits % 2 ^ 32 &&& 7 = bits % 2 ^ 32 then some ⟨bits % 2 ^ 32⟩ else none

/-- `flags.contains(other)`. -/
def contains (flags other : MremapFlags) : Bool := flags.bits &&& other.bits == other.bits

end MremapFlags

/-- `sys_mmap(addr, length, prot, flags, fd, offset)`. -/
def sysMmap (m : UserVmSpace) (getFile : ℕ → Except SysError ℕ) (shmAlloc : Option ℕ)
    (addr : VirtAddr) (length prot flags fd offset : ℕ) :
    Option (Except SysError ℕ × UserVmSpace) := do
  let flags := MmapFlags.fromBitsTruncate flags
  let perm := MapPerm.ofMmapProt (MmapProt.fromBitsTruncate prot)
  let checked : Except SysError Unit :=
    if !flags.contains .MAP_ANONYMOUS then (getFile fd).map fun _ => () else .ok ()
  match checked with
  | .error e => some (.error e, m)
  | .ok () =>
    if length = 0 then some (.error .EINVAL, m)
    else if addr.val = 0 && flags.contains .MAP_FIXED then some (.error .EINVAL, m)
    else if offset % PAGE_SIZE ≠ 0 then some (.error .EINVAL, m)
    else
      -- a fixed mapping first unmaps one area of the range, and fails when there is none
      let (unmapped, m) ← if flags.contains .MAP_FIXED then
          (m.unmap addr length).map fun result => (result.1.map fun _ => (), result.2)
        else some (.ok (), m)
      match unmapped with
      | .error e => some (.error e, m)
      | .ok () =>
        let anonymous := flags.contains .MAP_ANONYMOUS
        let mapped : Option (Except SysError VirtAddr × UserVmSpace) :=
          if flags.bits &&& MmapFlags.MAP_TYPE_MASK.bits = MmapFlags.MAP_SHARED.bits then
            if anonymous then m.allocAnonArea addr length perm flags shmAlloc
            else match getFile fd with
              | .error e => some (.error e, m)
              | .ok file => m.allocMmapArea addr length perm flags file offset
          else if flags.bits &&& MmapFlags.MAP_TYPE_MASK.bits = MmapFlags.MAP_PRIVATE.bits then
            if anonymous then m.allocAnonArea addr length perm flags none
            else match getFile fd with
              | .error e => some (.error e, m)
              | .ok file => m.allocMmapArea addr length perm flags file offset
          else some (.error .EINVAL, m)
        mapped.map fun result => (result.1.map VirtAddr.val, result.2)

/-- The loop of `sys_munmap`: unmap one area at a time from `cur_vpn` until `end_vpn` or until
no area is left in the range. -/
def sysMunmap.loop (m : UserVmSpace) (endVpn curVpn : VirtPageNum) (length : ℕ) :
    Option UserVmSpace :=
  if curVpn < endVpn then
    match m.unmap curVpn.startAddr length with
    | none => none
    | some (.error _, m) => some m
    | some (.ok vma, m) =>
      let newVpn := vma.rangeVpn.end
      if curVpn < newVpn then
        loop m endVpn newVpn
          (usizeSub length (usizeWrap (usizeSub newVpn.val curVpn.val * 2 ^ PAGE_SIZE_BITS)))
      else none
  else some m
termination_by endVpn.val - curVpn.val
decreasing_by
  have forward : curVpn.val < vma.rangeVpn.end.val := ‹curVpn < newVpn›
  have before : curVpn.val < endVpn.val := ‹curVpn < endVpn›
  omega

/-- `sys_munmap(addr, length)`. -/
def sysMunmap (m : UserVmSpace) (addr : VirtAddr) (length : ℕ) :
    Option (Except SysError ℕ × UserVmSpace) :=
  if length = 0 then some (.ok 0, m)
  else
    let length := usizeWrap (usizeSub length 1 + PAGE_SIZE) &&& usizeNot (PAGE_SIZE - 1)
    (sysMunmap.loop m (addr + length).ceil addr.floor length).map fun m => (.ok 0, m)

/-- The loop of `sys_mprotect`: unmap one area at a time and push it back with the new
permission. -/
def sysMprotect.loop (vm : UserVmSpace) (perm : MapPerm) (endVpn curVpn : VirtPageNum)
    (length : ℕ) : Option UserVmSpace :=
  if curVpn < endVpn then
    match vm.unmap curVpn.startAddr length with
    | none => none
    | some (.error _, vm) => some vm
    | some (.ok vma, vm) =>
      let newVpn := vma.rangeVpn.end
      if curVpn < newVpn then do
        let vm ← vm.pushArea { vma with mapPerm := perm }
        loop vm perm endVpn newVpn
          (usizeSub length (usizeWrap (usizeSub newVpn.val curVpn.val * 2 ^ PAGE_SIZE_BITS)))
      else none
  else some vm
termination_by endVpn.val - curVpn.val
decreasing_by
  have forward : curVpn.val < vma.rangeVpn.end.val := ‹curVpn < newVpn›
  have before : curVpn.val < endVpn.val := ‹curVpn < endVpn›
  omega

/-- `sys_mprotect(addr, length, prot)`. -/
def sysMprotect (vm : UserVmSpace) (addr : VirtAddr) (length prot : ℕ) :
    Option (Except SysError ℕ × UserVmSpace) :=
  if addr.pageOffset ≠ 0 || length = 0 || length % PAGE_SIZE ≠ 0 then some (.error .EINVAL, vm)
  else
    let perm := MapPerm.ofMmapProt (MmapProt.fromBitsTruncate prot)
    (sysMprotect.loop vm perm (addr + length).ceil addr.floor length).map fun vm => (.ok 0, vm)

/-- The size rounding of `sys_mremap`: `(size - 1 + PAGE_SIZE) & !(PAGE_SIZE)`. The mask clears
bit 12 only, not the bits below it. -/
def mremapRoundedSize (size : ℕ) : ℕ :=
  usizeWrap (usizeSub size 1 + PAGE_SIZE) &&& usizeNot PAGE_SIZE

/-- `sys_mremap(old_addr, old_size, new_size, flags, new_address)`. -/
def sysMremap (vm : UserVmSpace) (oldAddr : VirtAddr) (oldSize newSize flags newAddress : ℕ) :
    Option (Except SysError ℕ × UserVmSpace) := do
  if oldAddr.pageOffset ≠ 0 then some (.error .EINVAL, vm) else
  let oldSize := mremapRoundedSize oldSize
  let newSize := mremapRoundedSize newSize
  match MremapFlags.fromBits flags with
  | none => some (.error .EINVAL, vm)
  | some flags =>
  if (flags.contains .FIXED || flags.contains .DONTUNMAP) && !flags.contains .MAYMOVE then
    some (.error .EINVAL, vm) else
  match vm.getAreaView oldAddr with
  | none => some (.error .EINVAL, vm)
  | some oldArea =>
  if usizeSub oldArea.rangeVa.end.val oldAddr.val < oldSize then some (.error .EINVAL, vm) else
  if oldArea.vmaType ≠ .Mmap then some (.error .EINVAL, vm) else
  if flags.contains .DONTUNMAP &&
      !oldArea.getMmapFlags.contains ⟨MmapFlags.MAP_PRIVATE.bits ||| MmapFlags.MAP_ANONYMOUS.bits⟩
  then some (.error .EINVAL, vm) else
  -- in place: shrink, or grow into free pages above
  let inPlace : Option (Option (Except SysError ℕ × UserVmSpace)) :=
    if flags.bits = 0 || flags = .MAYMOVE then
      if newSize ≤ oldSize then some do
        let (unmapped, vm) ← vm.unmap oldAddr oldSize
        match unmapped with
        | .error e => some (.error e, vm)
        | .ok old =>
          let vm ← vm.pushArea (old.shrink (oldSize - newSize))
          some (.ok oldSize, vm)
      else if vm.checkFree (oldAddr + oldSize) (newSize - oldSize) = .ok () then some do
        let (unmapped, vm) ← vm.unmap oldAddr oldSize
        match unmapped with
        | .error e => some (.error e, vm)
        | .ok old =>
          let vm ← vm.pushArea (old.extend (newSize - oldSize))
          some (.ok oldSize, vm)
      else if flags.bits = 0 then some (some (.error .ENOMEM, vm))
      else none
    else none
  match inPlace with
  | some result => result
  | none =>
  -- moved: a new mapping of the same kind, and the frames carried over to it
  let target : Except SysError VirtAddr :=
    if flags.contains .FIXED then
      match vm.checkFree (VirtAddr.ofUsize newAddress) newSize with
      | .ok () => .ok (VirtAddr.ofUsize newAddress)
      | .error () => .error .ENOMEM
    else .ok (VirtAddr.ofUsize 0)
  match target with
  | .error e => some (.error e, vm)
  | .ok newAddr =>
  let allocated ← match oldArea.file with
    | .File file => vm.allocMmapArea newAddr newSize oldArea.mapPerm oldArea.getMmapFlags file 0
    | .Shm shm => vm.allocAnonArea newAddr newSize oldArea.mapPerm oldArea.getMmapFlags (some shm)
    | .None =>
      if oldArea.mapFlags.shared then none
      else vm.allocAnonArea newAddr newSize oldArea.mapPerm oldArea.getMmapFlags none
  match allocated with
  | (.error e, vm) => some (.error e, vm)
  | (.ok newAddr, vm) =>
  -- `vm.unmap(new_addr, new_size).unwrap()`
  let (newUnmapped, vm) ← vm.unmap newAddr newSize
  let newArea ← match newUnmapped with
    | .ok area => some area
    | .error _ => none
  let (oldUnmapped, vm) ← vm.unmap oldAddr oldSize
  match oldUnmapped with
  | .error e => some (.error e, vm)
  | .ok oldArea =>
  let (oldArea, newArea) := oldArea.moveFramesTo newArea
  let vm ← vm.pushArea newArea
  let vm ← if flags.contains .DONTUNMAP then vm.pushArea oldArea else some vm
  some (.ok newAddr.val, vm)

/-- `sys_brk(addr)`: the break `reset_heap_break` settles on. -/
def sysBrk (vm : UserVmSpace) (addr : VirtAddr) : Option (Except SysError ℕ × UserVmSpace) :=
  (vm.resetHeapBreak addr).map fun result => (.ok result.1.val, result.2)

end Chronix
