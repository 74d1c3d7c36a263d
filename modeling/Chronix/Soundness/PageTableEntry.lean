import Mathlib
import Chronix.Soundness.PageTable

/-! # The fields of a page-table entry

An entry is a `usize` with the frame number in bits 10 to 53 and the flags below bit 10.
`PageTableEntry::new` puts the two side by side, `ppn()` and `flags()` read them back (`flags()`
through `pteflags()`, which panics on bit 9), and every
setter rewrites its own bits through a mask and keeps the others: `set_ppn` bits 10 to 53,
`set_flags` bits 1 to 4, and `set_valid`, `set_dirty` and `set_cow` one bit each. Each setter has
a lemma that gives every bit of its result (`testBit_setPpn`, `testBit_setFlags`,
`testBit_setFlag`); the round trips follow bit by bit.
-/

namespace Chronix

open Constant

namespace PageTableEntry

theorem testBit_PPN_MASK (i : ℕ) : PPN_MASK.testBit i = (decide (10 ≤ i) && decide (i < 54)) := by
  have shifted : PPN_MASK = (2 ^ 44 - 1) <<< 10 := by decide
  rw [shifted, Nat.testBit_shiftLeft, Nat.testBit_two_pow_sub_one]
  by_cases above : 10 ≤ i
  · simp only [ge_iff_le, above, decide_true, Bool.true_and]
    exact decide_eq_decide.mpr (by omega)
  · simp [above]

theorem testBit_FLAGS_MASK (i : ℕ) : FLAGS_MASK.testBit i = (decide (1 ≤ i) && decide (i < 5)) := by
  have shifted : FLAGS_MASK = (2 ^ 4 - 1) <<< 1 := by decide
  rw [shifted, Nat.testBit_shiftLeft, Nat.testBit_two_pow_sub_one]
  by_cases above : 1 ≤ i
  · simp only [ge_iff_le, above, decide_true, Bool.true_and]
    exact decide_eq_decide.mpr (by omega)
  · simp [above]

/-- The flags `flagsOf` sets lie in bits 1 to 4. -/
theorem testBit_flagsOf (perm : MapPerm) {i : ℕ} (outside : ¬ (1 ≤ i ∧ i < 5)) :
    (flagsOf perm).testBit i = false := by
  have low : flagsOf perm < 2 ^ 5 := by
    obtain ⟨bits, lt⟩ := perm
    revert bits
    decide
  have even : (flagsOf perm).testBit 0 = false := by
    obtain ⟨bits, lt⟩ := perm
    revert bits
    decide
  rcases Nat.lt_or_ge i 1 with zero | high
  · rwa [Nat.lt_one_iff.mp zero]
  · exact Nat.testBit_lt_two_pow (lt_of_lt_of_le low (Nat.pow_le_pow_right (by decide) (by omega)))

/-- `set_flags` writes bits 1 to 4 and keeps the rest of a 64-bit entry. -/
theorem testBit_setFlags {bits : ℕ} (small : bits < 2 ^ 64) (perm : MapPerm) (i : ℕ) :
    (setFlags bits perm).testBit i =
      if 1 ≤ i ∧ i < 5 then (flagsOf perm).testBit i else bits.testBit i := by
  have mask : FLAGS_MASK < 2 ^ 64 := by decide
  rw [setFlags, Nat.testBit_or, Nat.testBit_and, Nat.testBit_and, testBit_usizeNot mask,
    testBit_FLAGS_MASK]
  split_ifs with inside
  · simp [inside.1, inside.2]
  · -- outside the mask the entry's own bit survives; above bit 63 there is none
    have flag := testBit_flagsOf perm inside
    rcases Nat.lt_or_ge i 64 with word | above
    · simp [word, flag]
      omega
    · simp [flag, Nat.testBit_lt_two_pow (lt_of_lt_of_le small (Nat.pow_le_pow_right (by decide) above))]

/-- `set_ppn` writes the low 44 bits of the frame number into bits 10 to 53 and keeps the rest
of a 64-bit entry. -/
theorem testBit_setPpn {bits : ℕ} (small : bits < 2 ^ 64) (ppn : PhysPageNum) (i : ℕ) :
    (setPpn bits ppn).testBit i =
      if 10 ≤ i ∧ i < 54 then ppn.val.testBit (i - 10) else bits.testBit i := by
  have mask : PPN_MASK < 2 ^ 64 := by decide
  rw [setPpn, Nat.testBit_or, Nat.testBit_and, Nat.testBit_and, testBit_usizeNot mask,
    testBit_PPN_MASK, testBit_usizeWrap, Nat.testBit_shiftLeft]
  split_ifs with inside
  · have word : i < 64 := by omega
    simp [inside.1, inside.2, word]
  · rcases Nat.lt_or_ge i 64 with word | above
    · simp only [word, decide_true, Bool.true_and]
      by_cases low : 10 ≤ i
      · have high : ¬ i < 54 := by omega
        simp [low, high]
      · simp [low]
    · simp [not_lt.mpr above,
        Nat.testBit_lt_two_pow (lt_of_lt_of_le small (Nat.pow_le_pow_right (by decide) above))]

/-- `set_valid`, `set_dirty` and `set_cow` write their own bit and keep the rest of a 64-bit
entry. -/
theorem testBit_setFlag {bits : ℕ} (small : bits < 2 ^ 64) {j : ℕ} (word : j < 64) (val : Bool)
    (i : ℕ) : (setFlag (2 ^ j) bits val).testBit i = if i = j then val else bits.testBit i := by
  have mask : 2 ^ j < 2 ^ 64 := Nat.pow_lt_pow_right (by decide) word
  cases val
  · simp only [setFlag, Bool.false_eq_true, if_false, Nat.testBit_and, testBit_usizeNot mask,
      Nat.testBit_two_pow]
    split_ifs with same
    · simp [same]
    · rcases Nat.lt_or_ge i 64 with below | above
      · simp [below, Ne.symm same]
      · simp [Nat.testBit_lt_two_pow (lt_of_lt_of_le small (Nat.pow_le_pow_right (by decide) above))]
  · simp only [setFlag, if_true, Nat.testBit_or, Nat.testBit_two_pow]
    split_ifs with same
    · simp [same]
    · simp [Ne.symm same]

/-- `ppn()` reads bits 10 to 53. -/
theorem testBit_ppn (bits i : ℕ) :
    (PageTableEntry.ppn bits).val.testBit i = (decide (i < 44) && bits.testBit (10 + i)) := by
  simp only [PageTableEntry.ppn, PPN_WIDTH, PA_WIDTH, PAGE_SIZE_BITS, Nat.reduceSub,
    Nat.testBit_mod_two_pow, Nat.testBit_shiftRight]

/-- Two entries with the same bits 10 to 53 have the same frame number. -/
theorem ppn_eq_of_testBit {bits bits' : ℕ}
    (same : ∀ i, 10 ≤ i → i < 54 → bits.testBit i = bits'.testBit i) :
    PageTableEntry.ppn bits = PageTableEntry.ppn bits' := by
  have values : (PageTableEntry.ppn bits).val = (PageTableEntry.ppn bits').val := by
    refine Nat.eq_of_testBit_eq fun i => ?_
    rw [testBit_ppn, testBit_ppn]
    by_cases inside : i < 44
    · rw [same (10 + i) (by omega) (by omega)]
    · simp [inside]
  exact congrArg PhysPageNum.mk values

/-- Two entries with the same bits 1 to 4 have the same permission. -/
theorem permOfFlags_eq_of_testBit {bits bits' : ℕ}
    (same : ∀ i, 1 ≤ i → i < 5 → bits.testBit i = bits'.testBit i) :
    permOfFlags bits = permOfFlags bits' := by
  simp only [permOfFlags, same 1 le_rfl (by decide), same 2 (by decide) (by decide),
    same 3 (by decide) (by decide), same 4 (by decide) (by decide)]

theorem permOfFlags_flagsOf (perm : MapPerm) : permOfFlags (flagsOf perm) = perm := by
  obtain ⟨bits, lt⟩ := perm
  revert bits
  decide

/-- `pteflags()` is the low ten bits, and panics when bit 9 is set. -/
theorem pteflags_eq (bits : ℕ) :
    pteflags bits = if bits.testBit 9 then none else some (bits % 2 ^ 10) := by
  have low : bits &&& PTE_FLAGS_MASK = bits % 2 ^ 10 := Nat.and_two_pow_sub_one_eq_mod bits 10
  have nine : bits % 2 ^ 10 < 2 ^ 9 ↔ bits.testBit 9 = false := by
    rw [Nat.testBit_eq_decide_div_mod_eq]
    simp only [decide_eq_false_iff_not]
    omega
  simp only [pteflags, low]
  by_cases clear : bits.testBit 9 = false
  · rw [if_pos (nine.mpr clear), clear, if_neg Bool.false_ne_true]
  · rw [if_neg (mt nine.mp clear), if_pos (Bool.not_eq_false _ ▸ clear)]

/-- With bit 9 clear, `flags()` reads bits 1 to 4 of the entry. -/
theorem flags_of_clear {bits : ℕ} (clear : bits.testBit 9 = false) :
    flags bits = some (permOfFlags bits) := by
  rw [flags, pteflags_eq, clear, if_neg Bool.false_ne_true, Option.map_some]
  exact congrArg some (permOfFlags_eq_of_testBit fun i _ below => by
    rw [Nat.testBit_mod_two_pow, decide_eq_true (by omega : i < 10), Bool.true_and])

/-- With bit 9 set, `pteflags()` panics, and so does `flags()`. -/
theorem flags_of_set {bits : ℕ} (set : bits.testBit 9 = true) : flags bits = none := by
  rw [flags, pteflags_eq, set, if_pos rfl, Option.map_none]

/-- `PageTableEntry::new` of a frame number within `PPN_WIDTH`: the frame number above the
flags. -/
theorem new_eq_mul_add {ppn : PhysPageNum} (small : ppn.val < 2 ^ PPN_WIDTH) (perm : MapPerm) :
    new ppn perm = ppn.val * 2 ^ 10 + flagsOf perm := by
  have fits : ppn.val <<< 10 < 2 ^ 64 := by
    rw [Nat.shiftLeft_eq]; simp only [PPN_WIDTH, PA_WIDTH, PAGE_SIZE_BITS] at small; omega
  have low : flagsOf perm < 2 ^ 10 := lt_of_le_of_lt Nat.left_le_or (flagsOf_lt perm)
  rw [new, usizeWrap_of_lt fits, ← Nat.shiftLeft_add_eq_or_of_lt low, Nat.shiftLeft_eq]

/-- The fields of an entry round-trip through `new` and every setter. `new(ppn, perm)` gives
back `ppn` and `perm`; on a 64-bit entry, `set_ppn(ppn)` makes `ppn()` return `ppn` and keeps
bits 0 to 9, and `set_flags(perm)` keeps `ppn()` and every bit but 1 to 4, and makes `flags()`
return `perm` when bit 9 is clear. `set_valid`, `set_dirty` and `set_cow` change their own bit
only. On an entry with bit 9 set, `flags()` panics. -/
theorem pageTableEntry_fields_roundTrip :
    (∀ ppn : PhysPageNum, ppn.val < 2 ^ PPN_WIDTH → ∀ perm : MapPerm,
      PageTableEntry.ppn (new ppn perm) = ppn ∧ flags (new ppn perm) = some perm) ∧
    (∀ bits < 2 ^ 64, ∀ ppn : PhysPageNum, ppn.val < 2 ^ PPN_WIDTH →
      PageTableEntry.ppn (setPpn bits ppn) = ppn ∧
        ∀ i < 10, (setPpn bits ppn).testBit i = bits.testBit i) ∧
    (∀ bits < 2 ^ 64, ∀ perm : MapPerm,
      (bits.testBit 9 = false → flags (setFlags bits perm) = some perm) ∧
        PageTableEntry.ppn (setFlags bits perm) = PageTableEntry.ppn bits ∧
        ∀ i, ¬ (1 ≤ i ∧ i < 5) → (setFlags bits perm).testBit i = bits.testBit i) ∧
    (∀ bits < 2 ^ 64, ∀ val : Bool, ∀ i,
      (setFlag V bits val).testBit i = (if i = 0 then val else bits.testBit i) ∧
        (setDirty bits val).testBit i = (if i = 7 then val else bits.testBit i) ∧
        (setCow bits val).testBit i = if i = 8 then val else bits.testBit i) ∧
    (∀ bits, bits.testBit 9 = true → flags bits = none) := by
  refine ⟨fun ppn small perm => ?_, fun bits small ppn fits => ?_, fun bits small perm => ?_,
    fun bits small val i => ?_, fun bits set => flags_of_set set⟩
  · -- `new`: the frame number above flags that fit in ten bits, so bit 9 is clear
    have low : flagsOf perm < 2 ^ 10 := lt_of_le_of_lt Nat.left_le_or (flagsOf_lt perm)
    have clear : (new ppn perm).testBit 9 = false := by
      rw [new_eq_mul_add small, testBit_mul_add low (by decide)]
      exact testBit_flagsOf perm (by omega)
    rw [flags_of_clear clear, new_eq_mul_add small, ppn_mul_add small low, permOfFlags_mul_add low,
      permOfFlags_flagsOf]
    exact ⟨rfl, rfl⟩
  · refine ⟨?_, fun i low => ?_⟩
    · -- bits 10 to 53 of the entry are the bits of `ppn`, which has none from bit 44 on
      have rebuilt : PageTableEntry.ppn (setPpn bits ppn) = PageTableEntry.ppn (ppn.val * 2 ^ 10) := by
        refine ppn_eq_of_testBit fun i above below => ?_
        rw [testBit_setPpn small ppn, if_pos ⟨above, below⟩, ← Nat.shiftLeft_eq,
          Nat.testBit_shiftLeft]
        simp [above]
      rw [rebuilt, ← Nat.add_zero (ppn.val * 2 ^ 10), ppn_mul_add fits (by decide)]
    · rw [testBit_setPpn small ppn, if_neg (by omega)]
  · refine ⟨fun clear => ?_, ?_, fun i outside => ?_⟩
    · -- `set_flags` keeps bit 9, so `pteflags()` does not panic
      have kept : (setFlags bits perm).testBit 9 = false := by
        rw [testBit_setFlags small, if_neg (by omega), clear]
      rw [flags_of_clear kept]
      refine congrArg some ((permOfFlags_eq_of_testBit fun i above below => ?_).trans
        (permOfFlags_flagsOf perm))
      rw [testBit_setFlags small, if_pos ⟨above, below⟩]
    · refine ppn_eq_of_testBit fun i above below => ?_
      rw [testBit_setFlags small, if_neg (by omega)]
    · rw [testBit_setFlags small, if_neg outside]
  · exact ⟨testBit_setFlag small (j := 0) (by decide) val i,
      testBit_setFlag small (j := 7) (by decide) val i, testBit_setFlag small (j := 8) (by decide) val i⟩

/-- Every bit but bit 9 set: `set_ppn`, `set_flags` and `set_dirty` round-trip there, and the
all-ones entry makes `flags()` panic. -/
theorem pageTableEntry_fields_roundTrip_allOnes :
    (2 ^ 64 - 1 - 2 ^ 9 < 2 ^ 64 ∧ (⟨42⟩ : PhysPageNum).val < 2 ^ PPN_WIDTH ∧
      (2 ^ 64 - 1 - 2 ^ 9).testBit 9 = false ∧ (2 ^ 64 - 1).testBit 9 = true) ∧
      PageTableEntry.ppn (setPpn (2 ^ 64 - 1 - 2 ^ 9) ⟨42⟩) = ⟨42⟩ ∧
      flags (setFlags (2 ^ 64 - 1 - 2 ^ 9) .R) = some .R ∧
      (setDirty (2 ^ 64 - 1 - 2 ^ 9) false).testBit 7 = false ∧ flags (2 ^ 64 - 1) = none := by
  have word : 2 ^ 64 - 1 - 2 ^ 9 < 2 ^ 64 := by decide
  have fits : (⟨42⟩ : PhysPageNum).val < 2 ^ PPN_WIDTH := by decide
  have clear : (2 ^ 64 - 1 - 2 ^ 9).testBit 9 = false := by decide
  have set : (2 ^ 64 - 1).testBit 9 = true := by decide
  refine ⟨⟨word, fits, clear, set⟩, (pageTableEntry_fields_roundTrip.2.1 _ word _ fits).1,
    (pageTableEntry_fields_roundTrip.2.2.1 _ word _).1 clear, ?_,
    pageTableEntry_fields_roundTrip.2.2.2.2 _ set⟩
  rw [(pageTableEntry_fields_roundTrip.2.2.2.1 _ word false 7).2.1, if_pos rfl]

end PageTableEntry

end Chronix
