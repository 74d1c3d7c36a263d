import Mathlib

/-! # Addresses and the riscv64 constants

`hal::component::addr` wraps a `usize` in `VirtAddr`, `VirtPageNum`, `PhysAddr` and
`PhysPageNum`; `hal::component::constant::riscv64` fixes the widths and the layout of the user
address space. A `usize` is a natural number below `2 ^ 64` and every arithmetic operation of
the code is written with its wrap-around `% 2 ^ 64`. `VirtAddr::from` sign-extends bit 38, and
`VirtPageNum::from` keeps the low 27 bits, as the code does.
-/

namespace Chronix

/-- The `usize` arithmetic of the release build wraps modulo `2 ^ 64`. -/
def usizeWrap (value : ℕ) : ℕ := value % 2 ^ 64

/-- `usize` subtraction of the release build, for operands below `2 ^ 64`. -/
def usizeSub (a b : ℕ) : ℕ := usizeWrap (a + 2 ^ 64 - b)

/-- `!value` on a `usize`. -/
def usizeNot (value : ℕ) : ℕ := 2 ^ 64 - 1 - value

/-- `a % n` on a `usize`, which panics when `n` is zero. -/
def usizeRem? (a n : ℕ) : Option ℕ := if n = 0 then none else some (a % n)

theorem usizeRem?_of_pos {a n : ℕ} (positive : 0 < n) : usizeRem? a n = some (a % n) :=
  if_neg (Nat.pos_iff_ne_zero.mp positive)

theorem usizeWrap_of_lt {value : ℕ} (small : value < 2 ^ 64) : usizeWrap value = value :=
  Nat.mod_eq_of_lt small

theorem testBit_usizeWrap (value i : ℕ) :
    (usizeWrap value).testBit i = (decide (i < 64) && value.testBit i) :=
  Nat.testBit_mod_two_pow value 64 i

/-- `!value` flips the 64 bits of a `usize` and has none above them. -/
theorem testBit_usizeNot {value : ℕ} (small : value < 2 ^ 64) (i : ℕ) :
    (usizeNot value).testBit i = (decide (i < 64) && !value.testBit i) := by
  rw [usizeNot, Nat.sub_sub, Nat.add_comm, Nat.testBit_two_pow_sub_succ small]

theorem usizeSub_of_le {a b : ℕ} (le : b ≤ a) (small : a < 2 ^ 64) : usizeSub a b = a - b := by
  unfold usizeSub usizeWrap
  omega

theorem usizeWrap_le (value : ℕ) : usizeWrap value ≤ value := Nat.mod_le _ _

theorem usizeSub_one {value : ℕ} (positive : 1 ≤ value) (small : value < 2 ^ 64) :
    usizeSub value 1 = value - 1 := by
  unfold usizeSub usizeWrap
  omega

namespace Constant

def PAGE_SIZE : ℕ := 4096
def PAGE_SIZE_BITS : ℕ := 12
def VA_WIDTH : ℕ := 39
def PA_WIDTH : ℕ := 56
def VPN_WIDTH : ℕ := VA_WIDTH - PAGE_SIZE_BITS
def PPN_WIDTH : ℕ := PA_WIDTH - PAGE_SIZE_BITS
/-- The end of `USER_ADDR_SPACE`. -/
def USER_ADDR_SPACE_END : ℕ := 0x40_0000_0000
def USER_STACK_SIZE : ℕ := 4096 * 4096
def USER_STACK_TOP : ℕ := USER_ADDR_SPACE_END - PAGE_SIZE
def USER_STACK_BOTTOM : ℕ := USER_STACK_TOP - USER_STACK_SIZE
def USER_FILE_SIZE : ℕ := 0x2_0000_0000
def USER_FILE_END : ℕ := USER_STACK_BOTTOM - PAGE_SIZE
def USER_FILE_BEG : ℕ := USER_FILE_END - USER_FILE_SIZE
def USER_SHARE_SIZE : ℕ := 0x2_0000_0000
def USER_SHARE_END : ℕ := USER_FILE_BEG - PAGE_SIZE
def USER_SHARE_BEG : ℕ := USER_SHARE_END - USER_SHARE_SIZE
def DL_INTERP_OFFSET : ℕ := 0x20_0000_0000

end Constant

open Constant

/-- `VirtAddr`. -/
structure VirtAddr where
  val : ℕ
deriving DecidableEq, Repr

/-- `VirtPageNum`. -/
structure VirtPageNum where
  val : ℕ
deriving DecidableEq, Repr

/-- `PhysAddr`. -/
structure PhysAddr where
  val : ℕ
deriving DecidableEq, Repr

/-- `PhysPageNum`. -/
structure PhysPageNum where
  val : ℕ
deriving DecidableEq, Repr

instance : LinearOrder VirtAddr :=
  LinearOrder.lift' VirtAddr.val fun _ _ same => by cases ‹VirtAddr›; cases ‹VirtAddr›; simp_all

instance : LinearOrder VirtPageNum :=
  LinearOrder.lift' VirtPageNum.val fun _ _ same => by
    cases ‹VirtPageNum›; cases ‹VirtPageNum›; simp_all

namespace VirtAddr

/-- `VirtAddr::from`: bit 38 is copied into the upper bits. -/
def ofUsize (value : ℕ) : VirtAddr :=
  if value / 2 ^ (VA_WIDTH - 1) % 2 = 0 then ⟨value % 2 ^ VA_WIDTH⟩
  else ⟨value % 2 ^ VA_WIDTH + (2 ^ 64 - 2 ^ VA_WIDTH)⟩

/-- `VirtAddr + usize`. -/
def add (va : VirtAddr) (offset : ℕ) : VirtAddr := ofUsize (usizeWrap (va.val + offset))

/-- `VirtAddr - usize`. -/
def sub (va : VirtAddr) (offset : ℕ) : VirtAddr := ofUsize (usizeSub va.val offset)

instance : HAdd VirtAddr ℕ VirtAddr := ⟨add⟩
instance : HSub VirtAddr ℕ VirtAddr := ⟨sub⟩

/-- `VirtAddr::page_offset`. -/
def pageOffset (va : VirtAddr) : ℕ := va.val % PAGE_SIZE

/-- `VirtAddr::floor`. -/
def floor (va : VirtAddr) : VirtPageNum := ⟨va.val / PAGE_SIZE % 2 ^ VPN_WIDTH⟩

/-- `VirtAddr::ceil`. -/
def ceil (va : VirtAddr) : VirtPageNum :=
  if va.val = 0 then ⟨0⟩ else ⟨usizeWrap (va.val - 1 + PAGE_SIZE) / PAGE_SIZE % 2 ^ VPN_WIDTH⟩

end VirtAddr

namespace VirtPageNum

/-- `VirtPageNum::from`: the low 27 bits. -/
def ofUsize (value : ℕ) : VirtPageNum := ⟨value % 2 ^ VPN_WIDTH⟩

/-- `VirtPageNum + usize`. -/
def add (vpn : VirtPageNum) (count : ℕ) : VirtPageNum := ofUsize (usizeWrap (vpn.val + count))

/-- `VirtPageNum - usize`. -/
def sub (vpn : VirtPageNum) (count : ℕ) : VirtPageNum := ofUsize (usizeSub vpn.val count)

instance : HAdd VirtPageNum ℕ VirtPageNum := ⟨add⟩
instance : HSub VirtPageNum ℕ VirtPageNum := ⟨sub⟩

/-- `VirtPageNum::start_addr`. -/
def startAddr (vpn : VirtPageNum) : VirtAddr := VirtAddr.ofUsize (usizeWrap (vpn.val * PAGE_SIZE))

end VirtPageNum

namespace PhysAddr

/-- `PhysAddr::from`: the low 56 bits. -/
def ofUsize (value : ℕ) : PhysAddr := ⟨value % 2 ^ PA_WIDTH⟩

/-- `PhysAddr::floor`. -/
def floor (pa : PhysAddr) : PhysPageNum := ⟨pa.val / PAGE_SIZE % 2 ^ PPN_WIDTH⟩

end PhysAddr

/-- `PhysPageNum::start_addr`. -/
def PhysPageNum.startAddr (ppn : PhysPageNum) : PhysAddr := ⟨usizeWrap (ppn.val * PAGE_SIZE)⟩

end Chronix
