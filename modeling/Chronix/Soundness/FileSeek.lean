import Mathlib
import Chronix.Model.FileSeek

/-! # `lseek` against POSIX

For a position and a size below `2 ^ 63` and an `isize` offset, every whence of `sys_lseek`
stores the new offset modulo `2 ^ 64` as the position and returns it as an `isize`
(`sysLseek_eq`); only a `SEEK_CUR` below zero fails, with `EINVAL`. Within `[0, 2 ^ 63)` that is
what POSIX asks (`sysLseek_posix_of_mem`). Below zero for `SEEK_SET` and `SEEK_END`, and past
`i64::MAX` for `SEEK_CUR` and `SEEK_END`, the call succeeds instead, stores a position at
`2 ^ 63` or above and returns a negative `isize` (`sysLseek_succeeds_out_of_range`).
-/

namespace Chronix

/-! ## The casts -/

theorem isizeOfUsize_usizeOfIsize (value : ℤ) : isizeOfUsize (usizeOfIsize value) = i64Wrap value := by
  unfold isizeOfUsize usizeOfIsize i64Wrap
  rw [Int.toNat_of_nonneg (Int.emod_nonneg _ (by decide)), Int.bmod_def, Int.bmod_def]
  split_ifs <;> omega

theorem i64Wrap_of_mem {value : ℤ} (low : -2 ^ 63 ≤ value) (high : value < 2 ^ 63) :
    i64Wrap value = value := by
  unfold i64Wrap
  rw [Int.bmod_def]
  split_ifs <;> omega

theorem i64Wrap_sub_two_pow {value : ℤ} (low : 2 ^ 63 ≤ value) (high : value < 2 ^ 64) :
    i64Wrap value = value - 2 ^ 64 := by
  unfold i64Wrap
  rw [Int.bmod_def]
  split_ifs <;> omega

theorem i64Wrap_neg_of_mem {value : ℤ} (outside : value < 0 ∨ 2 ^ 63 ≤ value)
    (low : -2 ^ 63 ≤ value) (high : value < 2 ^ 64) : i64Wrap value < 0 := by
  rcases outside with negative | above
  · rwa [i64Wrap_of_mem low (by omega)]
  · rw [i64Wrap_sub_two_pow above high]
    omega

theorem isizeOfUsize_of_lt {value : ℕ} (small : value < 2 ^ 63) : isizeOfUsize value = value :=
  i64Wrap_of_mem (by omega) (by omega)

theorem i64Abs_of_neg {value : ℤ} (low : -2 ^ 63 < value) (negative : value < 0) :
    i64Abs value = -value := by
  rw [i64Abs, abs_of_neg negative, i64Wrap_of_mem (by omega) (by omega)]

/-- `i64::MIN.abs()` wraps to `i64::MIN`. -/
theorem i64Abs_min : i64Abs (-2 ^ 63) = -2 ^ 63 := by decide

section Arithmetic

variable {base : ℕ} {offset : ℤ}

/-- The check of a negative `SEEK_CUR`: `pos as i64 - off.abs()` is the new offset, also for
`i64::MIN`, whose `abs` wraps to itself and whose subtraction wraps back. -/
theorem i64Wrap_sub_i64Abs (small : base < 2 ^ 63) (low : -2 ^ 63 ≤ offset) (negative : offset < 0) :
    i64Wrap (isizeOfUsize base - i64Abs offset) = base + offset := by
  rw [isizeOfUsize_of_lt small]
  rcases low.eq_or_lt with rfl | above
  · rw [i64Abs_min, i64Wrap_sub_two_pow (by omega) (by omega)]
    omega
  · rw [i64Abs_of_neg above negative, i64Wrap_of_mem (by omega) (by omega)]
    omega

/-- `base - off.abs() as usize` is the new offset modulo `2 ^ 64`. -/
theorem usizeSub_i64Abs (small : base < 2 ^ 63) (low : -2 ^ 63 ≤ offset) (negative : offset < 0) :
    usizeSub base (usizeOfIsize (i64Abs offset)) = usizeOfIsize (base + offset) := by
  rcases low.eq_or_lt with rfl | above
  · rw [i64Abs_min]
    unfold usizeSub usizeWrap usizeOfIsize
    omega
  · rw [i64Abs_of_neg above negative]
    unfold usizeSub usizeWrap usizeOfIsize
    omega

/-- `base + off as usize` is the new offset modulo `2 ^ 64`. -/
theorem usizeWrap_add_usizeOfIsize :
    usizeWrap (base + usizeOfIsize offset) = usizeOfIsize (base + offset) := by
  unfold usizeWrap usizeOfIsize
  omega

end Arithmetic

/-! ## `File::seek` and `sys_lseek` -/

section Seek

variable {file : SeekFile} {offset : ℤ}

theorem SeekFile.seek_current (small : file.pos < 2 ^ 63) (low : -2 ^ 63 ≤ offset)
    (high : offset < 2 ^ 63) :
    file.seek (.Current offset) =
      if file.pos + offset < 0 then .error .EINVAL
      else .ok (usizeOfIsize (file.pos + offset), { file with pos := usizeOfIsize (file.pos + offset) }) := by
  simp only [seek]
  by_cases negative : offset < 0
  · rw [if_pos negative, i64Wrap_sub_i64Abs small low negative, usizeSub_i64Abs small low negative]
  · have below : ¬ (file.pos : ℤ) + offset < 0 := by omega
    rw [if_neg negative, if_neg below, usizeWrap_add_usizeOfIsize]

theorem SeekFile.seek_end (small : file.size < 2 ^ 63) (low : -2 ^ 63 ≤ offset) :
    file.seek (.End offset) =
      .ok (usizeOfIsize (file.size + offset), { file with pos := usizeOfIsize (file.size + offset) }) := by
  simp only [seek]
  by_cases negative : offset < 0
  · rw [if_pos negative, usizeSub_i64Abs small low negative]
  · rw [if_neg negative, usizeWrap_add_usizeOfIsize]

/-- `sys_lseek` with a whence that seeks: `EINVAL` for a `SEEK_CUR` below zero, and otherwise
the new offset modulo `2 ^ 64` as the position, returned as an `isize`. -/
theorem sysLseek_eq {whence : ℕ} (posSmall : file.pos < 2 ^ 63) (sizeSmall : file.size < 2 ^ 63)
    (low : -2 ^ 63 ≤ offset) (high : offset < 2 ^ 63) (seeks : whence ≤ 2) :
    sysLseek file offset whence =
      if whence = 1 ∧ lseekTarget file offset whence < 0 then .error .EINVAL
      else .ok (i64Wrap (lseekTarget file offset whence),
        { file with pos := usizeOfIsize (lseekTarget file offset whence) }) := by
  obtain rfl | rfl | rfl : whence = 0 ∨ whence = 1 ∨ whence = 2 := by omega
  · simp only [sysLseek, Whence.fromRepr, SeekFile.seek, lseekTarget, bind, Except.bind, pure,
      Except.pure, isizeOfUsize_usizeOfIsize]
    rfl
  · rw [sysLseek, Whence.fromRepr, SeekFile.seek_current posSmall low high]
    by_cases negative : (file.pos : ℤ) + offset < 0
    · simp only [lseekTarget, negative, and_self, if_true]
      rfl
    · simp only [lseekTarget, negative, and_false, if_false, bind, Except.bind, pure, Except.pure,
        isizeOfUsize_usizeOfIsize]
  · simp only [sysLseek, Whence.fromRepr, SeekFile.seek_end sizeSmall low, lseekTarget, bind,
      Except.bind, pure, Except.pure, isizeOfUsize_usizeOfIsize]
    rfl

/-- Within `[0, 2 ^ 63)`, and for a `SEEK_CUR` below zero, `sys_lseek` does what POSIX asks. -/
theorem sysLseek_posix_of_mem {whence : ℕ} (posSmall : file.pos < 2 ^ 63)
    (sizeSmall : file.size < 2 ^ 63) (low : -2 ^ 63 ≤ offset) (high : offset < 2 ^ 63)
    (seeks : whence ≤ 2)
    (inside : (0 ≤ lseekTarget file offset whence ∧ lseekTarget file offset whence < 2 ^ 63) ∨
      (whence = 1 ∧ lseekTarget file offset whence < 0)) :
    PosixLseek file offset whence (sysLseek file offset whence) := by
  rw [sysLseek_eq posSmall sizeSmall low high seeks]
  rcases inside with ⟨nonneg, below⟩ | curBelow
  · have notCurBelow : ¬ (whence = 1 ∧ lseekTarget file offset whence < 0) := by omega
    refine ⟨fun negative => absurd negative (by omega), fun above => absurd above (by omega),
      fun _ _ => ?_⟩
    rw [if_neg notCurBelow, i64Wrap_of_mem (by omega) below]
    congr 3
    unfold usizeOfIsize
    omega
  · refine ⟨fun _ => if_pos curBelow, fun above => absurd above (by omega),
      fun nonneg => absurd nonneg (by omega)⟩

end Seek

/-- Out of `[0, 2 ^ 63)`, apart from a `SEEK_CUR` below zero, `sys_lseek` succeeds: it stores the
new offset modulo `2 ^ 64` as the position, returns a negative `isize`, and so does not do what
POSIX asks. -/
theorem sysLseek_succeeds_out_of_range (file : SeekFile) (offset : ℤ) (whence : ℕ)
    (posSmall : file.pos < 2 ^ 63) (sizeSmall : file.size < 2 ^ 63) (low : -2 ^ 63 ≤ offset)
    (high : offset < 2 ^ 63) (seeks : whence ≤ 2)
    (outside : lseekTarget file offset whence < 0 ∨ 2 ^ 63 ≤ lseekTarget file offset whence)
    (notCurBelow : ¬ (whence = 1 ∧ lseekTarget file offset whence < 0)) :
    sysLseek file offset whence =
        .ok (i64Wrap (lseekTarget file offset whence),
          { file with pos := usizeOfIsize (lseekTarget file offset whence) }) ∧
      i64Wrap (lseekTarget file offset whence) < 0 ∧
      ¬ PosixLseek file offset whence (sysLseek file offset whence) := by
  have ran := sysLseek_eq posSmall sizeSmall low high seeks
  rw [if_neg notCurBelow] at ran
  -- the new offset lies in `[-2 ^ 63, 2 ^ 64)` for every whence
  have bounds : -2 ^ 63 ≤ lseekTarget file offset whence ∧ lseekTarget file offset whence < 2 ^ 64 := by
    obtain rfl | rfl | rfl : whence = 0 ∨ whence = 1 ∨ whence = 2 := by omega
    all_goals simp only [lseekTarget]; omega
  have negative := i64Wrap_neg_of_mem outside bounds.1 bounds.2
  refine ⟨ran, negative, fun ⟨belowZero, pastMax, _⟩ => ?_⟩
  rw [ran] at belowZero pastMax
  rcases outside with below | above
  · exact absurd (belowZero below) (by simp)
  · obtain ⟨_, failed⟩ := pastMax above
    exact absurd failed (by simp)

/-- `lseek(fd, -1, SEEK_SET)` on a file at position 0 returns `-1` as a success and moves the
position to `2 ^ 64 - 1`. -/
theorem sysLseek_set_minus_one :
    (⟨0, 0⟩ : SeekFile).pos < 2 ^ 63 ∧ (⟨0, 0⟩ : SeekFile).size < 2 ^ 63 ∧ -2 ^ 63 ≤ (-1 : ℤ) ∧
      (-1 : ℤ) < 2 ^ 63 ∧ 0 ≤ 2 ∧
      sysLseek ⟨0, 0⟩ (-1) 0 = .ok (-1, ⟨2 ^ 64 - 1, 0⟩) ∧
      ¬ PosixLseek ⟨0, 0⟩ (-1) 0 (sysLseek ⟨0, 0⟩ (-1) 0) := by
  obtain ⟨ran, -, wrong⟩ := sysLseek_succeeds_out_of_range ⟨0, 0⟩ (-1) 0 (by decide) (by decide)
    (by decide) (by decide) (by decide) (.inl (by decide)) (by decide)
  exact ⟨by decide, by decide, by decide, by decide, by decide, ran.trans rfl, wrong⟩

end Chronix
