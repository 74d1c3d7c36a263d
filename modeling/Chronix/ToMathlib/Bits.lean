import Mathlib

/-! # Smearing the bits of a number downwards

`x ||| x >>> 1`, then `||| x >>> 2`, `||| x >>> 4` and so on sets every bit below the highest
set bit of `x`; once the shifts add up to the width of `x`, the result is `2 ^ size x - 1`, and
one more is the least power of two above `x`. `SmearsBelow y w x` says how far the smear has
got: bit `i` of `x` is set iff one of the `w` bits of `y` from `i` up is. Each shift by `w`
doubles the window (`SmearsBelow.or_shiftRight`), and a window as wide as `y` gives
`2 ^ size y - 1` (`SmearsBelow.eq_two_pow_size_sub_one`).
-/

namespace Nat

/-- Bit `i` of `x` is set iff one of the bits `i, ..., i + w - 1` of `y` is. -/
def SmearsBelow (y w x : ℕ) : Prop :=
  ∀ i, x.testBit i = true ↔ ∃ d < w, y.testBit (i + d) = true

theorem smearsBelow_self (y : ℕ) : SmearsBelow y 1 y := by
  intro i
  constructor
  · intro set
    exact ⟨0, Nat.one_pos, set⟩
  · rintro ⟨d, lt, set⟩
    obtain rfl : d = 0 := by omega
    exact set

/-- One step of the smear: or-ing in the value shifted by `w` doubles the window. -/
theorem SmearsBelow.or_shiftRight {y w x : ℕ} (smears : SmearsBelow y w x) :
    SmearsBelow y (2 * w) (x ||| x >>> w) := by
  intro i
  rw [testBit_or, testBit_shiftRight, Bool.or_eq_true, smears i, smears (w + i)]
  constructor
  · rintro (⟨d, lt, set⟩ | ⟨d, lt, set⟩)
    · exact ⟨d, by omega, set⟩
    · exact ⟨w + d, by omega, by rwa [show i + (w + d) = w + i + d by omega]⟩
  · rintro ⟨d, lt, set⟩
    by_cases low : d < w
    · exact .inl ⟨d, low, set⟩
    · exact .inr ⟨d - w, by omega, by rwa [show w + i + (d - w) = i + d by omega]⟩

/-- A window as wide as `y` sets exactly the bits below the size of `y`. -/
theorem SmearsBelow.eq_two_pow_size_sub_one {y w x : ℕ} (smears : SmearsBelow y w x)
    (small : y < 2 ^ w) : x = 2 ^ y.size - 1 := by
  apply eq_of_testBit_eq
  intro i
  rw [testBit_two_pow_sub_one, Bool.eq_iff_iff, smears i, decide_eq_true_iff]
  constructor
  · rintro ⟨d, _, set⟩
    -- a set bit at `i + d` puts `y` at `2 ^ (i + d)` or above
    have above := lt_size.mpr (ge_two_pow_of_testBit set)
    omega
  · intro below
    -- were every bit from `i` up clear, `y` would be below `2 ^ i`
    by_contra clear
    push Not at clear
    have low : y < 2 ^ i := lt_pow_two_of_testBit y fun j atLeast => by
      by_cases inWindow : j < i + w
      · simpa [show i + (j - i) = j by omega] using clear (j - i) (by omega)
      · exact testBit_eq_false_of_lt (lt_of_lt_of_le small (Nat.pow_le_pow_right (by omega) (by omega)))
    exact absurd (size_le.mpr low) (by omega)

end Nat
