import Mathlib
import Chronix.Model.SlabAllocator
import Chronix.ToMathlib.Bits

/-! # The sizes of slab blocks

`next_power_of_two` smears the bits of `x - 1` downwards with the shifts `1` to `32` and adds
one: for `x ≤ 2 ^ 63` that is the least power of two at or above `x`. A `SlabBlock<S>` is
`page_cnt()` pages, a power of two of them for every `S`, and the `cap()` objects of `S` bytes
that floor division gives fit in them. A `SmallSlabBlock<S>` puts its objects after its header,
at `next_power_of_two(max(size_of header, S))`; they fit in its page when `S` is at most a page,
as for every small cache of `SlabAllocatorInner`. Past a page that offset is above `PAGE_SIZE`,
`PAGE_SIZE - offset` wraps, and `cap()` is near `2 ^ 64 / S`.
-/

namespace Chronix

open Constant Nat

/-- The six steps of the smear take the window from one bit to the 64 of a `usize`. -/
theorem smearsBelow_nextPowerOfTwo (y : ℕ) :
    SmearsBelow y 64
      (let x := y ||| y >>> 1
       let x := x ||| x >>> 2
       let x := x ||| x >>> 4
       let x := x ||| x >>> 8
       let x := x ||| x >>> 16
       x ||| x >>> 32) :=
  (smearsBelow_self y).or_shiftRight.or_shiftRight.or_shiftRight.or_shiftRight.or_shiftRight
    |>.or_shiftRight

/-- On `1 ≤ x ≤ 2 ^ 63`, `next_power_of_two` is `2 ^ size (x - 1)`: the smear fills the bits
below the top bit of `x - 1`, and the increment does not wrap. -/
theorem nextPowerOfTwo_of_pos {x : ℕ} (positive : 0 < x) (small : x ≤ 2 ^ 63) :
    nextPowerOfTwo x = 2 ^ (x - 1).size := by
  have sizeLe : (x - 1).size ≤ 63 := size_le.mpr (by omega)
  have bound : 2 ^ (x - 1).size ≤ 2 ^ 63 := Nat.pow_le_pow_right (by omega) sizeLe
  have smeared := smearsBelow_nextPowerOfTwo (x - 1)
  dsimp only at smeared
  rw [nextPowerOfTwo, if_neg (by omega)]
  dsimp only
  rw [smeared.eq_two_pow_size_sub_one (by omega), Nat.sub_add_cancel Nat.one_le_two_pow,
    usizeWrap_of_lt (by omega)]

theorem nextPowerOfTwo_zero : nextPowerOfTwo 0 = 1 := rfl

/-- `next_power_of_two(x)` is the least power of two at or above `x`, for every `x ≤ 2 ^ 63`. -/
theorem nextPowerOfTwo_isLeast {x : ℕ} (small : x ≤ 2 ^ 63) :
    IsLeast {p | p.isPowerOfTwo ∧ x ≤ p} (nextPowerOfTwo x) := by
  rcases Nat.eq_zero_or_pos x with rfl | positive
  · refine ⟨⟨⟨0, rfl⟩, Nat.zero_le _⟩, ?_⟩
    rintro p ⟨⟨k, rfl⟩, -⟩
    exact Nat.one_le_two_pow
  · rw [nextPowerOfTwo_of_pos positive small]
    refine ⟨⟨⟨_, rfl⟩, by have := lt_size_self (x - 1); omega⟩, ?_⟩
    rintro p ⟨⟨k, rfl⟩, above⟩
    -- `x - 1 < 2 ^ k` bounds the size of `x - 1` by `k`
    exact Nat.pow_le_pow_right (by omega) (size_le.mpr (by omega))

theorem le_nextPowerOfTwo {x : ℕ} (small : x ≤ 2 ^ 63) : x ≤ nextPowerOfTwo x :=
  (nextPowerOfTwo_isLeast small).1.2

theorem nextPowerOfTwo_le {x k : ℕ} (small : x ≤ 2 ^ 63) (below : x ≤ 2 ^ k) :
    nextPowerOfTwo x ≤ 2 ^ k :=
  (nextPowerOfTwo_isLeast small).2 ⟨⟨k, rfl⟩, below⟩

/-- `SlabBlock::<S>::page_cnt()` is a power of two for every `S`: its argument is a `usize`
shifted right by `PAGE_SIZE_BITS`, well below `2 ^ 63`. -/
theorem SlabBlock.pageCnt_isPowerOfTwo (S : ℕ) : (SlabBlock.pageCnt S).isPowerOfTwo := by
  have below : usizeWrap (S <<< 3) >>> PAGE_SIZE_BITS ≤ 2 ^ 63 := by
    rw [shiftRight_eq_div_pow]
    have := Nat.mod_lt (S <<< 3) (Nat.two_pow_pos 64)
    unfold usizeWrap PAGE_SIZE_BITS
    omega
  exact (nextPowerOfTwo_isLeast below).1.1

/-- `SlabBlock::<S>::cap()` objects of `S` bytes fit in the block's `page_cnt()` pages. -/
theorem SlabBlock.cap_mul_le (S : ℕ) : SlabBlock.cap S * S ≤ SlabBlock.pageCnt S * PAGE_SIZE :=
  calc SlabBlock.cap S * S
      ≤ usizeWrap (SlabBlock.pageCnt S <<< PAGE_SIZE_BITS) := Nat.div_mul_le_self _ _
    _ ≤ SlabBlock.pageCnt S <<< PAGE_SIZE_BITS := usizeWrap_le _
    _ = SlabBlock.pageCnt S * PAGE_SIZE := shiftLeft_eq _ _

/-- The objects of a small block start after its header and stay within its page when `S` is
at most a page. -/
theorem SmallSlabBlock.objects_fit {S : ℕ} (atMostPage : S ≤ PAGE_SIZE) :
    SmallSlabBlock.headerSize ≤ SmallSlabBlock.firstNode S ∧
      SmallSlabBlock.firstNode S + SmallSlabBlock.cap S * S ≤ PAGE_SIZE := by
  have argSmall : max SmallSlabBlock.headerSize S ≤ 2 ^ 63 := by
    unfold SmallSlabBlock.headerSize PAGE_SIZE at *
    omega
  have afterHeader : SmallSlabBlock.headerSize ≤ SmallSlabBlock.firstNode S :=
    le_trans (le_max_left _ _) (le_nextPowerOfTwo argSmall)
  have inPage : SmallSlabBlock.firstNode S ≤ PAGE_SIZE :=
    nextPowerOfTwo_le (k := 12) argSmall (by unfold SmallSlabBlock.headerSize PAGE_SIZE at *; omega)
  have objects : SmallSlabBlock.cap S * S ≤ PAGE_SIZE - SmallSlabBlock.firstNode S := by
    rw [SmallSlabBlock.cap, usizeSub_of_le inPage (by unfold PAGE_SIZE; omega)]
    exact Nat.div_mul_le_self _ _
  exact ⟨afterHeader, by omega⟩

/-- `next_power_of_two` returns the least power of two at or above its argument up to `2 ^ 63`
(and `1` at `0`); `SlabBlock::page_cnt()` is a power of two; `SlabBlock::cap()` objects fit in
its pages; and a small block's `cap()` objects fit in its page after the header when the object
is at most a page. -/
theorem nextPowerOfTwo_sizes_slab_blocks :
    nextPowerOfTwo 0 = 1 ∧
    (∀ x ≤ 2 ^ 63, IsLeast {p | p.isPowerOfTwo ∧ x ≤ p} (nextPowerOfTwo x)) ∧
    (∀ S, (SlabBlock.pageCnt S).isPowerOfTwo ∧
      SlabBlock.cap S * S ≤ SlabBlock.pageCnt S * PAGE_SIZE) ∧
    (∀ S ≤ PAGE_SIZE, SmallSlabBlock.headerSize ≤ SmallSlabBlock.firstNode S ∧
      SmallSlabBlock.firstNode S + SmallSlabBlock.cap S * S ≤ PAGE_SIZE) :=
  ⟨nextPowerOfTwo_zero, fun _ small => nextPowerOfTwo_isLeast small,
    fun S => ⟨SlabBlock.pageCnt_isPowerOfTwo S, SlabBlock.cap_mul_le S⟩,
    fun _ atMostPage => SmallSlabBlock.objects_fit atMostPage⟩

/-- A small block of 8192-byte objects: its header rounds up to 8192 bytes, past its page, and
`cap()` wraps to `2 ^ 51 - 1` objects, far more than its 16 pages hold. -/
theorem smallSlabBlock_cap_wraps :
    SmallSlabBlock.cap 8192 = 2 ^ 51 - 1 ∧
      SlabBlock.pageCnt 8192 * PAGE_SIZE <
        SmallSlabBlock.firstNode 8192 + SmallSlabBlock.cap 8192 * 8192 := by
  decide

end Chronix
