import Mathlib
import Chronix.Model.SysFutex
import Chronix.Soundness.UserPtr

/-! # A private futex on an unmapped address

A shared futex goes through `translate_uva_checked`, which turns an address no area holds into
`EINVAL` (`sysFutex_shared_unmapped`). A private futex takes its key from the address as it is,
and `FUTEX_WAIT` then loads `*uaddr` in the kernel. On an address no area holds, that load traps,
`handle_page_fault` fails, and `kernel_trap_handler` panics (`sysFutex_private_wait_unmapped`).
-/

namespace Chronix

open Constant PageFaultAccessType

namespace UserVmSpace

variable {lazy : LazyFault} {s : UserVmSpace}

/-- A page fault at an address no area holds fails and changes nothing. -/
theorem handlePageFault_of_getKeyValue {va : VirtAddr} (access : PageFaultAccessType)
    (noArea : s.areas.getKeyValue va.floor = none) :
    s.handlePageFault lazy va access = some (.error (), s) := by
  simp only [handlePageFault, noArea]

/-- A kernel read at an address whose page is not readable and that no area holds ends in the
panic of `kernel_trap_handler`. -/
theorem kernelAccess_read_of_getKeyValue {addr : ℕ}
    (unreadable : tryReadUser s.pageTable (VirtAddr.ofUsize addr).floor = false)
    (noArea : s.areas.getKeyValue (VirtAddr.ofUsize addr).floor = none) :
    s.kernelAccess lazy addr READ = none := by
  have trapped : s.kernelTrapHandler lazy addr READ = none := by
    simp only [kernelTrapHandler, handlePageFault_of_getKeyValue READ noArea]
  have read : READ.contains WRITE = false := by decide
  simp only [kernelAccess, read, unreadable, trapped, Bool.and_false, Bool.false_eq_true,
    if_false, Option.bind_none]

/-- `translate_uva_checked` of an address whose page is not mapped and that no area holds gives
`None`, and changes nothing. -/
theorem translateUvaChecked_of_getKeyValue {va : VirtAddr} (access : PageFaultAccessType)
    (unmapped : s.pageTable va.floor = none) (noArea : s.areas.getKeyValue va.floor = none) :
    s.translateUvaChecked lazy va access = some (none, s) := by
  simp only [translateUvaChecked, unmapped, translateUvaChecked.fault,
    handlePageFault_of_getKeyValue access noArea]

end UserVmSpace

open UserVmSpace

/-- `FUTEX_WAIT` on a shared futex at an address that is not mapped and that no area holds:
`EINVAL`, with nothing changed. -/
theorem sysFutex_shared_unmapped (lazy : LazyFault) (s : UserVmSpace) (mm uaddr val3 : ℕ)
    (unmapped : s.pageTable (VirtAddr.ofUsize uaddr).floor = none)
    (noArea : s.areas.getKeyValue (VirtAddr.ofUsize uaddr).floor = none) :
    sysFutex lazy s mm uaddr 0 val3 = some (.error .EINVAL, s) := by
  have shared : (0 &&& FUTEX_PRIVATE_FLAG_BITMASK != 0) = false := by decide
  simp only [sysFutex, shared, Bool.false_eq_true, if_false,
    translateUvaChecked_of_getKeyValue WRITE unmapped noArea, Option.map_some, Option.bind_eq_bind,
    Option.bind_some]

/-- `FUTEX_WAIT | FUTEX_PRIVATE_FLAG` at an address whose page is not readable and that no area
holds: the kernel panics in `kernel_trap_handler`, for every address space, fault handler and
`val3`. -/
theorem sysFutex_private_wait_unmapped (lazy : LazyFault) (s : UserVmSpace) (mm uaddr val3 : ℕ)
    (unreadable : tryReadUser s.pageTable (VirtAddr.ofUsize uaddr).floor = false)
    (noArea : s.areas.getKeyValue (VirtAddr.ofUsize uaddr).floor = none) :
    sysFutex lazy s mm uaddr FUTEX_PRIVATE_FLAG_BITMASK val3 = none := by
  have isPrivate : (FUTEX_PRIVATE_FLAG_BITMASK &&& FUTEX_PRIVATE_FLAG_BITMASK != 0) = true := by
    decide
  have wait : FutexOp.ofBits (FUTEX_PRIVATE_FLAG_BITMASK &&&
      (2 ^ 32 - 1 - (FUTEX_PRIVATE_FLAG_BITMASK ||| FUTEX_CLOCK_REALTIME_BITMASK))) = .Wait := by
    decide
  simp only [sysFutex, isPrivate, wait, if_true, Option.bind_eq_bind, Option.bind_some,
    kernelAccess_read_of_getKeyValue unreadable noArea, Option.bind_none, reduceCtorEq,
    false_and, if_false]

theorem sysFutex_private_wait_unmapped_new :
    tryReadUser UserVmSpace.new.pageTable (VirtAddr.ofUsize 0x1000).floor = false ∧
      UserVmSpace.new.areas.getKeyValue (VirtAddr.ofUsize 0x1000).floor = none ∧
      sysFutex LazyFault.passEveryFault UserVmSpace.new 0 0x1000 FUTEX_PRIVATE_FLAG_BITMASK 0 =
        none := by
  have unreadable : tryReadUser UserVmSpace.new.pageTable (VirtAddr.ofUsize 0x1000).floor = false :=
    rfl
  have noArea : UserVmSpace.new.areas.getKeyValue (VirtAddr.ofUsize 0x1000).floor = none := by
    decide
  exact ⟨unreadable, noArea, sysFutex_private_wait_unmapped _ _ 0 0x1000 0 unreadable noArea⟩

end Chronix
