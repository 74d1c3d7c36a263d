import Mathlib

/-! # Little-endian bytes and aligned lengths

A `u64`, `u16` or `u8` field that a kernel copies into user memory lands there as its bytes,
least significant first. `Nat.leBytes w n` is the `w` bytes of `n` and `Nat.ofLeBytes` reads a
number back: reading the `w` bytes gives `n` modulo `2 ^ (8 * w)` (`ofLeBytes_leBytes`), the cast
of `n` to a `w`-byte integer. A length rounded up with `(x + 7) & !0x7` on a 64-bit word is the
multiple of 8 below `x + 7` (`and_two_pow_sub_eight`).
-/

namespace Nat

/-- The `w` low bytes of `n`, least significant first. -/
def leBytes : ℕ → ℕ → List UInt8
  | 0, _ => []
  | w + 1, n => UInt8.ofNat n :: leBytes w (n / 256)

/-- The number whose bytes, least significant first, are `bytes`. -/
def ofLeBytes : List UInt8 → ℕ
  | [] => 0
  | b :: bytes => b.toNat + 256 * ofLeBytes bytes

@[simp]
theorem length_leBytes (w n : ℕ) : (leBytes w n).length = w := by
  induction w generalizing n with
  | zero => rfl
  | succ w ih => rw [leBytes, List.length_cons, ih]

theorem ofLeBytes_leBytes (w n : ℕ) : ofLeBytes (leBytes w n) = n % 2 ^ (8 * w) := by
  induction w generalizing n with
  | zero => rw [leBytes, ofLeBytes, Nat.mul_zero, Nat.pow_zero, Nat.mod_one]
  | succ w ih =>
    -- the low byte, then the bytes of the quotient by 256
    rw [leBytes, ofLeBytes, ih, UInt8.toNat_ofNat', show 8 * (w + 1) = 8 + 8 * w by ring,
      Nat.pow_add, Nat.mod_mul]

/-- `x & !0x7` on a 64-bit word clears the three low bits. -/
theorem and_two_pow_sub_eight {x : ℕ} (small : x < 2 ^ 64) : x &&& (2 ^ 64 - 8) = x / 8 * 8 := by
  have mask : (2 ^ 64 - 8 : ℕ) = (2 ^ 61 - 1) <<< 3 := by decide
  have aligned : x / 8 * 8 = x >>> 3 <<< 3 := by
    rw [shiftLeft_eq, shiftRight_eq_div_pow]
  rw [mask, aligned]
  apply eq_of_testBit_eq
  intro i
  rw [testBit_and, testBit_shiftLeft, testBit_shiftLeft, testBit_two_pow_sub_one, testBit_shiftRight]
  by_cases low : 3 ≤ i
  · by_cases inWord : i - 3 < 61
    · simp only [low, inWord, decide_true, Bool.true_and, Bool.and_true,
        show 3 + (i - 3) = i by omega]
    · -- past the 64 bits of `x` every bit is clear
      have clear : x.testBit i = false :=
        testBit_eq_false_of_lt (lt_of_lt_of_le small (Nat.pow_le_pow_right (by omega) (by omega)))
      simp only [low, inWord, decide_true, decide_false, Bool.and_false,
        show 3 + (i - 3) = i by omega, clear]
  · simp only [ge_iff_le, low, decide_false, Bool.false_and, Bool.and_false]

end Nat
