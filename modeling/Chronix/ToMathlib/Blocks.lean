import Mathlib

/-! # A sequence stored in blocks

A device that keeps a long sequence in blocks of `n` elements holds element `p` at place `p % n`
of block `p / n` (`flat`). The `len` elements from `pos` are a `window` of the sequence, and
writing a list from `pos` is an `overwrite`. A read or a write that stays within one block is a
slice of that block (`window_flat_of_le`, `flat_update_of_get`); one that spans several splits
where its first piece ends (`window_add`, `overwrite_append`).
-/

namespace Blocks

variable {α : Type*}

/-- The `len` elements of `f` from `pos`. -/
def window (f : ℕ → α) (pos len : ℕ) : List α :=
  (List.range len).map fun i => f (pos + i)

/-- `f` with the elements from `pos` replaced by those of `src`. -/
def overwrite (f : ℕ → α) (pos : ℕ) (src : List α) (p : ℕ) : α :=
  if pos ≤ p then src[p - pos]?.getD (f p) else f p

@[simp]
theorem length_window (f : ℕ → α) (pos len : ℕ) : (window f pos len).length = len := by
  simp [window]

@[simp]
theorem window_zero (f : ℕ → α) (pos : ℕ) : window f pos 0 = [] := rfl

/-- A window splits where its first piece ends. -/
theorem window_add (f : ℕ → α) (pos a b : ℕ) :
    window f pos (a + b) = window f pos a ++ window f (pos + a) b := by
  simp only [window, List.range_add, List.map_append, List.map_map, Function.comp_def,
    Nat.add_assoc]

@[simp]
theorem overwrite_nil (f : ℕ → α) (pos : ℕ) : overwrite f pos [] = f := by
  funext p
  simp [overwrite]

/-- A write splits where its first piece ends. -/
theorem overwrite_append (f : ℕ → α) (pos : ℕ) (a b : List α) :
    overwrite f pos (a ++ b) = overwrite (overwrite f pos a) (pos + a.length) b := by
  funext p
  unfold overwrite
  by_cases first : pos ≤ p
  · by_cases second : pos + a.length ≤ p
    · -- past the first piece, inside or past the second
      have past : a.length ≤ p - pos := by omega
      simp only [first, second, if_true, List.getElem?_append_right past,
        List.getElem?_eq_none past, Option.getD_none, show p - pos - a.length = p - (pos + a.length) by omega]
    · have inside : p - pos < a.length := by omega
      simp only [first, second, if_true, if_false, List.getElem?_append_left inside,
        List.getElem?_eq_getElem inside, Option.getD_some]
  · simp only [first, if_false, show ¬pos + a.length ≤ p by omega]

/-- Outside the written range nothing changes. -/
theorem overwrite_of_lt {f : ℕ → α} {pos p : ℕ} (src : List α) (before : p < pos) :
    overwrite f pos src p = f p := by
  simp [overwrite, show ¬pos ≤ p by omega]

theorem overwrite_of_le {f : ℕ → α} {pos p : ℕ} {src : List α} (after : pos + src.length ≤ p) :
    overwrite f pos src p = f p := by
  simp [overwrite, show pos ≤ p by omega, List.getElem?_eq_none (show src.length ≤ p - pos by omega)]

/-- What was written is read back. -/
theorem window_overwrite (f : ℕ → α) (pos : ℕ) (src : List α) :
    window (overwrite f pos src) pos src.length = src := by
  apply List.ext_getElem (by simp)
  intro i inWindow inSrc
  simp [window, overwrite, List.getElem?_eq_getElem inSrc]

variable {n : ℕ} [NeZero n]

/-- The sequence kept in `blocks`: element `p` is element `p % n` of block `p / n`. -/
def flat (blocks : ℕ → Vector α n) (p : ℕ) : α :=
  (blocks (p / n)).get ⟨p % n, Nat.mod_lt _ (NeZero.pos n)⟩

theorem flat_block_add {blocks : ℕ → Vector α n} {b j : ℕ} (inBlock : j < n) :
    flat blocks (b * n + j) = (blocks b).get ⟨j, inBlock⟩ := by
  have quotient : (b * n + j) / n = b := by
    rw [Nat.add_comm, Nat.add_mul_div_right _ _ (NeZero.pos n), Nat.div_eq_of_lt inBlock,
      Nat.zero_add]
  have remainder : (b * n + j) % n = j := by
    rw [Nat.add_comm, Nat.add_mul_mod_self_right, Nat.mod_eq_of_lt inBlock]
  simp only [flat, quotient, remainder]

/-- A window within one block is a slice of that block. -/
theorem window_flat_of_le (blocks : ℕ → Vector α n) (b : ℕ) {start count : ℕ}
    (fits : start + count ≤ n) :
    window (flat blocks) (b * n + start) count = ((blocks b).toList.drop start).take count := by
  apply List.ext_getElem (by simp; omega)
  intro i inWindow inSlice
  simp only [length_window] at inWindow
  simp only [window, List.getElem_map, List.getElem_range, List.getElem_take, List.getElem_drop,
    Vector.getElem_toList]
  rw [Nat.add_assoc, flat_block_add (show start + i < n by omega)]
  rfl

/-- Replacing one block by a block that differs from it only where `src` is written, from
`start`, writes `src` into the sequence. -/
theorem flat_update_of_get {blocks : ℕ → Vector α n} {b start : ℕ} {src : List α}
    {v : Vector α n} (fits : start + src.length ≤ n)
    (written : ∀ j : Fin n, v.get j =
      if start ≤ j then src[j - start]?.getD ((blocks b).get j) else (blocks b).get j) :
    flat (Function.update blocks b v) = overwrite (flat blocks) (b * n + start) src := by
  funext p
  obtain ⟨q, r, inBlock, rfl⟩ : ∃ q r, r < n ∧ p = q * n + r :=
    ⟨p / n, p % n, Nat.mod_lt _ (NeZero.pos n), (Nat.div_add_mod' p n).symm⟩
  rw [flat_block_add inBlock]
  by_cases same : q = b
  · -- inside block `b`: `written` at place `r`
    subst same
    rw [Function.update_self, written, overwrite, flat_block_add inBlock]
    by_cases after : start ≤ r
    · simp only [after, if_true, show q * n + start ≤ q * n + r by omega,
        show q * n + r - (q * n + start) = r - start by omega]
    · simp only [after, if_false, show ¬q * n + start ≤ q * n + r by omega]
  · -- another block: outside the written range, which `fits` keeps within block `b`
    rw [Function.update_of_ne same, ← flat_block_add inBlock]
    rcases Nat.lt_or_gt_of_ne same with below | above
    · have before : q * n + r < b * n + start :=
        calc q * n + r < (q + 1) * n := by rw [Nat.add_mul, Nat.one_mul]; omega
          _ ≤ b * n := Nat.mul_le_mul_right n below
          _ ≤ b * n + start := Nat.le_add_right _ _
      exact (overwrite_of_lt src before).symm
    · have after : b * n + start + src.length ≤ q * n + r :=
        calc b * n + start + src.length ≤ (b + 1) * n := by rw [Nat.add_mul, Nat.one_mul]; omega
          _ ≤ q * n := Nat.mul_le_mul_right n above
          _ ≤ q * n + r := Nat.le_add_right _ _
      exact (overwrite_of_le after).symm

/-- Replacing a block leaves the other blocks' elements. -/
theorem flat_update_of_ne {blocks : ℕ → Vector α n} {b p : ℕ} (v : Vector α n) (other : p / n ≠ b) :
    flat (Function.update blocks b v) p = flat blocks p := by
  simp [flat, other]

end Blocks
