import Mathlib
import Chronix.Model.UserPtr

/-! # User slices whose byte length wraps

`UserSliceRaw::ensure_read` and `ensure_write` check `size_of::<T>() * len` bytes, and that
product wraps. `ensure_access` walks the pages from `va.floor()` to `(va + len).ceil()`. For a
page-aligned start that range is empty when the product is a multiple of `2 ^ 64`
(`ensureAccess_of_aligned_zero`). The slice then passes with nothing checked and nothing
changed, although its bytes run past the end of user space (`ensureSlice_wrapped_len`).
-/

namespace Chronix

open Constant

namespace UserVmSpace

/-- The loop of `ensure_access` stops at once when `vpn` is already at or past `end`. -/
theorem ensureAccess.loop_of_le {lazy : LazyFault} {access : PageFaultAccessType}
    {«end» vpn : VirtPageNum} (past : «end» ≤ vpn) (fuel : ℕ) (s : UserVmSpace) :
    ensureAccess.loop lazy access «end» fuel s vpn = some (.ok (), s) := by
  cases fuel <;> simp [ensureAccess.loop, not_lt.mpr past]

/-- A start below the end of user space whose range of pages is empty passes, and changes
nothing. -/
theorem ensureAccess_of_empty {lazy : LazyFault} {s : UserVmSpace} {va : VirtAddr} {len : ℕ}
    {access : PageFaultAccessType} (user : va.val < USER_ADDR_SPACE_END)
    (empty : (va.add len).ceil ≤ va.floor) :
    s.ensureAccess lazy va len access = some (.ok (), s) := by
  simp only [ensureAccess, not_le.mpr user, if_false]
  exact ensureAccess.loop_of_le empty _ s

/-- For a page-aligned user address, `va + 0` rounds up to the page of `va`. -/
theorem ceil_add_zero_of_aligned {va : VirtAddr} (user : va.val < USER_ADDR_SPACE_END)
    (aligned : va.val % PAGE_SIZE = 0) : (va.add 0).ceil = va.floor := by
  have page : PAGE_SIZE = 4096 := rfl
  have space : USER_ADDR_SPACE_END = 2 ^ 38 := rfl
  have vaWidth : VA_WIDTH = 39 := rfl
  have vpnWidth : VPN_WIDTH = 27 := rfl
  rw [space] at user
  rw [page] at aligned
  -- bit 38 is clear, so `VirtAddr::from` keeps the address as it is
  have kept : va.add 0 = va := by
    unfold VirtAddr.add VirtAddr.ofUsize usizeWrap
    rw [vaWidth, if_pos (by omega)]
    show (⟨_⟩ : VirtAddr) = ⟨va.val⟩
    congr 1
    omega
  rw [kept]
  unfold VirtAddr.ceil VirtAddr.floor usizeWrap
  rw [page, vpnWidth]
  split
  · next zero =>
    simp [zero]
  · simp only [VirtPageNum.mk.injEq]
    omega

/-- `ensure_access` of zero bytes at a page-aligned user address passes and changes nothing. -/
theorem ensureAccess_of_aligned_zero {lazy : LazyFault} {s : UserVmSpace} {va : VirtAddr}
    {access : PageFaultAccessType} (user : va.val < USER_ADDR_SPACE_END)
    (aligned : va.val % PAGE_SIZE = 0) :
    s.ensureAccess lazy va 0 access = some (.ok (), s) :=
  ensureAccess_of_empty user (le_of_eq (ceil_add_zero_of_aligned user aligned))

end UserVmSpace

/-- A fault handler that lets every fault through and changes nothing. -/
def LazyFault.passEveryFault : LazyFault := fun area pageTable _ _ => some (.ok (area, pageTable))

namespace UserSliceRaw

open UserVmSpace

/-- A slice at a page-aligned user address whose byte length `size_of::<T>() * len` is a
multiple of `2 ^ 64`: `ensure_read` and `ensure_write` both hand the slice back and change
nothing, for every fault handler and address space, although a slice of positive length then
ends past the end of user space. -/
theorem ensureSlice_wrapped_len (lazy : LazyFault) (vm : UserVmSpace) {raw : UserSliceRaw}
    (aligned : raw.ptr % PAGE_SIZE = 0) (user : raw.ptr < USER_ADDR_SPACE_END)
    (wraps : raw.size * raw.len % 2 ^ 64 = 0) :
    raw.ensureRead lazy vm = some (some raw, vm) ∧ raw.ensureWrite lazy vm = some (some raw, vm) ∧
      (0 < raw.size * raw.len → USER_ADDR_SPACE_END < raw.ptr + raw.size * raw.len) := by
  have checked : usizeWrap (raw.size * raw.len) = 0 := wraps
  have passes (access : PageFaultAccessType) :
      vm.ensureAccess lazy ⟨raw.ptr⟩ 0 access = some (.ok (), vm) :=
    ensureAccess_of_aligned_zero user aligned
  refine ⟨?_, ?_, fun positive => ?_⟩
  · simp only [ensureRead, ensurePtr, checked, passes, Option.map_some]
  · simp only [ensureWrite, ensurePtr, checked, passes, Option.map_some]
  · -- a positive multiple of `2 ^ 64` bytes reaches past every `usize` address
    have space : USER_ADDR_SPACE_END = 2 ^ 38 := rfl
    have large : 2 ^ 64 ≤ raw.size * raw.len :=
      Nat.le_of_dvd positive (Nat.dvd_of_mod_eq_zero wraps)
    rw [space]
    omega

/-- Eight-byte elements, `2 ^ 61` of them, at `0x1000`. -/
def wrappingSlice : UserSliceRaw := ⟨0x1000, 2 ^ 61, 8⟩

theorem ensureSlice_wrapped_len_new :
    wrappingSlice.ptr % PAGE_SIZE = 0 ∧ wrappingSlice.ptr < USER_ADDR_SPACE_END ∧
      wrappingSlice.size * wrappingSlice.len % 2 ^ 64 = 0 ∧
      wrappingSlice.ensureRead LazyFault.passEveryFault .new = some (some wrappingSlice, .new) ∧
      wrappingSlice.ensureWrite LazyFault.passEveryFault .new = some (some wrappingSlice, .new) ∧
      (0 < wrappingSlice.size * wrappingSlice.len →
        USER_ADDR_SPACE_END < wrappingSlice.ptr + wrappingSlice.size * wrappingSlice.len) := by
  have aligned : wrappingSlice.ptr % PAGE_SIZE = 0 := by decide
  have user : wrappingSlice.ptr < USER_ADDR_SPACE_END := by decide
  have wraps : wrappingSlice.size * wrappingSlice.len % 2 ^ 64 = 0 := by
    norm_num [wrappingSlice]
  exact ⟨aligned, user, wraps, ensureSlice_wrapped_len LazyFault.passEveryFault .new aligned user wraps⟩

end UserSliceRaw

end Chronix
