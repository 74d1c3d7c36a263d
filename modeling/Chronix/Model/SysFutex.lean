import Mathlib
import Chronix.Model.Futex
import Chronix.Model.SysError
import Chronix.Model.UserPtr

/-! # The entry of `sys_futex`

`sys_futex` (`os/src/syscall/futex.rs`) turns `uaddr` into `&AtomicU32` under a `SumGuard`
without checking it. It then builds the key of the futex: a private one from the address as it
is, a shared one through `translate_uva_checked`. `FUTEX_WAIT` and `FUTEX_WAIT_BITSET` start by
reading `*uaddr`. A kernel access to a user page that is not mapped for it traps into
`kernel_trap_handler`. There the address space's `handle_page_fault` either maps the page, after
which the access is made again, or fails, and then the kernel panics.

The model follows `sys_futex` up to that first read, which is where the two waiting operations
first touch user memory. What comes after the read (the comparison with `val`, the wait, and the
other operations) is not modelled: the call ends in `FutexEntry.waiting` or `FutexEntry.other`.
`futex_op` is an `i32`, kept as its 32 bits.
-/

namespace Chronix

open Constant PageFaultAccessType

/-- `FutexOp`, with `Undefined` for every other value. -/
inductive FutexOp
  | Wait
  | Wake
  | Fd
  | Requeue
  | CmpRequeue
  | WakeOp
  | LockPi
  | UnlockPi
  | TryLockPi
  | WaitBitset
  | WakeBitset
  | WaitBitsetPi
  | Undefined
deriving DecidableEq, Repr

namespace FutexOp

/-- `FutexOp::from(i32)`. A negative `i32` has bit 31 set and is none of `0..=11`. -/
def ofBits : ℕ → FutexOp
  | 0 => Wait
  | 1 => Wake
  | 2 => Fd
  | 3 => Requeue
  | 4 => CmpRequeue
  | 5 => WakeOp
  | 6 => LockPi
  | 7 => UnlockPi
  | 8 => TryLockPi
  | 9 => WaitBitset
  | 10 => WakeBitset
  | 11 => WaitBitsetPi
  | _ => Undefined

end FutexOp

def FUTEX_PRIVATE_FLAG_BITMASK : ℕ := 0x80
def FUTEX_CLOCK_REALTIME_BITMASK : ℕ := 0x100

namespace UserVmSpace

/-- `translate_va(va)`: the physical address the page table gives `va`. -/
def translateVa (s : UserVmSpace) (va : VirtAddr) : Option ℕ :=
  (s.pageTable va.floor).map fun (ppn, _) => ppn.startAddr.val + va.val % PAGE_SIZE

/-- `translate_uva_checked(vm, va, access_type)`: the physical address of `va` when the page
table already allows the access. Otherwise the page fault is handled first, and `None` comes
back when that fails; the `unwrap` of the translation after it panics when the page is still
not mapped. -/
def translateUvaChecked (lazy : LazyFault) (s : UserVmSpace) (va : VirtAddr)
    (access : PageFaultAccessType) : Option (Option ℕ × UserVmSpace) :=
  match s.pageTable va.floor with
  | some (ppn, perm) =>
    if access.canAccess perm then some (some (ppn.startAddr.val + va.val % PAGE_SIZE), s)
    else translateUvaChecked.fault lazy s va access
  | none => translateUvaChecked.fault lazy s va access
where
  /-- The `_` arm: `handle_page_fault(va, access_type).ok()?` and then the translation. -/
  fault (lazy : LazyFault) (s : UserVmSpace) (va : VirtAddr) (access : PageFaultAccessType) :
      Option (Option ℕ × UserVmSpace) :=
    match s.handlePageFault lazy va access with
    | none => none
    | some (.error (), s) => some (none, s)
    | some (.ok (), s) => (s.translateVa va).map fun paddr => (some paddr, s)

/-- The page-fault branch of `kernel_trap_handler` with a current task: the address space
handles the fault at `VirtAddr::from(stval)`, and a fault it cannot handle is a `panic!`. -/
def kernelTrapHandler (lazy : LazyFault) (s : UserVmSpace) (stval : ℕ)
    (access : PageFaultAccessType) : Option UserVmSpace :=
  match s.handlePageFault lazy (VirtAddr.ofUsize stval) access with
  | some (.ok (), s) => some s
  | _ => none

/-- A load or store of the kernel at user address `addr`, under `SumGuard`. It goes through when
the address is canonical and its page is mapped for the access (the same test as
`try_read_user` and `try_write_user`). Otherwise it traps. After a handled fault the access
is made again, and a second fault on it is not handled either. -/
def kernelAccess (lazy : LazyFault) (s : UserVmSpace) (addr : ℕ) (access : PageFaultAccessType) :
    Option UserVmSpace :=
  let mapped (s : UserVmSpace) : Bool :=
    (VirtAddr.ofUsize addr).val == addr &&
      (if access.contains WRITE then tryWriteUser s.pageTable (VirtAddr.ofUsize addr).floor
      else tryReadUser s.pageTable (VirtAddr.ofUsize addr).floor)
  if mapped s then some s
  else
    (kernelTrapHandler lazy s addr access).bind fun s => if mapped s then some s else none

end UserVmSpace

/-- Where `sys_futex` ends in the model: an error, a waiting operation past its first read of
`*uaddr`, or another operation with its key. -/
inductive FutexEntry
  | error (error : SysError)
  | waiting (key : FutexHashKey) (mask : ℕ)
  | other (op : FutexOp) (key : FutexHashKey)

/-- `FutexWaiter::FUTEX_BITSET_MATCH_ANY`. -/
def FUTEX_BITSET_MATCH_ANY : ℕ := 0xFFFF_FFFF

/-- `sys_futex(uaddr, futex_op, val, timeout, uaddr2, val3)` up to the first read of `*uaddr` by
`FUTEX_WAIT` and `FUTEX_WAIT_BITSET`, for the task whose address space is `s` and whose
`get_raw_vm_ptr()` is `mm`. -/
def sysFutex (lazy : LazyFault) (s : UserVmSpace) (mm uaddr futexOp val3 : ℕ) :
    Option (FutexEntry × UserVmSpace) := do
  let isPrivate := futexOp &&& FUTEX_PRIVATE_FLAG_BITMASK != 0
  let op := FutexOp.ofBits
    (futexOp &&& (2 ^ 32 - 1 - (FUTEX_PRIVATE_FLAG_BITMASK ||| FUTEX_CLOCK_REALTIME_BITMASK)))
  let keyed : Option (Except SysError FutexHashKey × UserVmSpace) :=
    if isPrivate then some (.ok (.private mm (VirtAddr.ofUsize uaddr).val), s)
    else
      (s.translateUvaChecked lazy (VirtAddr.ofUsize uaddr) WRITE).map fun (paddr, s) =>
        (match paddr with
          | some paddr => .ok (.shared paddr)
          | none => .error .EINVAL, s)
  let (key, s) ← keyed
  match key with
  | .error error => some (.error error, s)
  | .ok key =>
    match op with
    | .Wait | .WaitBitset =>
      let mask := if op = .WaitBitset then val3 else FUTEX_BITSET_MATCH_ANY
      if op = .WaitBitset ∧ val3 = 0 then some (.error .EINVAL, s)
      else
        -- both the timed and the untimed wait start with `uaddr.load(Ordering::Acquire)`
        let s ← s.kernelAccess lazy uaddr READ
        some (.waiting key mask, s)
    | op => some (.other op key, s)

end Chronix
