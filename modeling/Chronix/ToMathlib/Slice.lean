import Mathlib

/-! # Slices of a list and windows of a ring

Rust's slice operations on a `Vec` or a `&mut [T]`, over the list of its elements: `&l[lo..hi]`,
`l[lo..hi].copy_from_slice(src)` and `l[i] = a` panic on a range that does not fit, on a length
mismatch or on an index past the end, so they return an `Option`.

A ring buffer keeps its elements in the window of its backing list that starts at the head and
may wrap past the end. The window of `c` elements from `p` is `(l.rotate p).take c`; the lemmas
below say what the one or two slice copies of a ring buffer read from that window, and what
writing at its end or taking from its front does to it. Indices wrap once at most, which the
last section turns into linear arithmetic.
-/

namespace List

variable {α : Type*}

/-- `&l[lo..hi]`, `none` where Rust's range check panics. -/
def slice? (l : List α) (lo hi : ℕ) : Option (List α) :=
  if lo ≤ hi ∧ hi ≤ l.length then some ((l.drop lo).take (hi - lo)) else none

/-- `l[lo..hi].copy_from_slice(src)`: the list with its range `lo..hi` replaced by `src`, `none`
where the range check or the length check panics. -/
def copyFromSlice? (l : List α) (lo hi : ℕ) (src : List α) : Option (List α) :=
  if lo ≤ hi ∧ hi ≤ l.length ∧ src.length = hi - lo then some (l.take lo ++ src ++ l.drop hi)
  else none

/-- `l[i] = a`, `none` past the end. -/
def set? (l : List α) (i : ℕ) (a : α) : Option (List α) :=
  if i < l.length then some (l.set i a) else none

/-- `Vec::resize(n, a)`: cut to `n` elements or pad with `a` up to `n`. -/
def resize (l : List α) (n : ℕ) (a : α) : List α :=
  l.take n ++ List.replicate (n - l.length) a

/-- `(start..stop).step_by(step)`: `start`, `start + step`, … below `stop`. -/
def rangeStepBy (start stop step : ℕ) : List ℕ :=
  List.range' start ((stop - start + step - 1) / step) step

theorem slice?_of_le {l : List α} {lo hi : ℕ} (ordered : lo ≤ hi) (fits : hi ≤ l.length) :
    l.slice? lo hi = some ((l.drop lo).take (hi - lo)) :=
  if_pos ⟨ordered, fits⟩

theorem copyFromSlice?_of_le {l src : List α} {lo hi : ℕ} (ordered : lo ≤ hi)
    (fits : hi ≤ l.length) (sized : src.length = hi - lo) :
    l.copyFromSlice? lo hi src = some (l.take lo ++ src ++ l.drop hi) :=
  if_pos ⟨ordered, fits, sized⟩

/-- The slice of a prefix, `&l[..pre.len()]`, is the prefix. -/
theorem slice?_append_length (pre rest : List α) : (pre ++ rest).slice? 0 pre.length = some pre := by
  rw [slice?_of_le (Nat.zero_le _) (by simp), List.drop_zero, Nat.sub_zero, List.take_left]

theorem length_of_slice? {l s : List α} {lo hi : ℕ} (sliced : l.slice? lo hi = some s) :
    s.length = hi - lo := by
  unfold slice? at sliced
  split_ifs at sliced with fits
  cases sliced
  simp only [length_take, length_drop]
  omega

theorem set?_of_lt {l : List α} {i : ℕ} (a : α) (inBounds : i < l.length) :
    l.set? i a = some (l.take i ++ [a] ++ l.drop (i + 1)) := by
  simp [set?, inBounds, List.set_eq_take_append_cons_drop]

/-! ## Writes past a prefix

A write through the slice `&mut l[k..]` is a write into `l` at `k` plus its index: the list
before `k` is kept. -/

theorem copyFromSlice?_append_right {pre l src : List α} {lo hi : ℕ} (after : pre.length ≤ lo)
    (ordered : lo ≤ hi) :
    (pre ++ l).copyFromSlice? lo hi src =
      (l.copyFromSlice? (lo - pre.length) (hi - pre.length) src).map (pre ++ ·) := by
  unfold copyFromSlice?
  by_cases fits : lo ≤ hi ∧ hi ≤ l.length + pre.length ∧ src.length = hi - lo
  · rw [if_pos (by simpa [length_append, Nat.add_comm] using fits), if_pos (by omega), Option.map_some]
    congr 1
    rw [take_append, drop_append, take_of_length_le (by omega),
      drop_eq_nil_of_le (by omega), nil_append, append_assoc, append_assoc, append_assoc]
  · rw [if_neg (by simpa [length_append, Nat.add_comm] using fits), if_neg (by omega), Option.map_none]

theorem set?_append_right {pre l : List α} {i : ℕ} (a : α) (after : pre.length ≤ i) :
    (pre ++ l).set? i a = (l.set? (i - pre.length) a).map (pre ++ ·) := by
  unfold set?
  by_cases inBounds : i < pre.length + l.length
  · rw [if_pos (by simpa using inBounds), if_pos (by omega), Option.map_some, set_append_right _ _ after]
  · rw [if_neg (by simpa using inBounds), if_neg (by omega), Option.map_none]

/-! ## Slices read pointwise

A buffer the code fills piece by piece is followed position by position: `getD` with a default
past the end, and `ext_getD` to conclude. -/

/-- Two lists of one length that agree at every position are equal. -/
theorem ext_getD {l l' : List α} (d : α) (sameLength : l.length = l'.length)
    (same : ∀ i, l.getD i d = l'.getD i d) : l = l' := by
  apply ext_getElem sameLength
  intro i inL inL'
  have agree := same i
  rwa [getD_eq_getElem _ _ inL, getD_eq_getElem _ _ inL'] at agree

theorem getD_of_slice? {l s : List α} {lo hi : ℕ} (sliced : l.slice? lo hi = some s) (d : α)
    (i : ℕ) : s.getD i d = if i < hi - lo then l.getD (lo + i) d else d := by
  unfold slice? at sliced
  split_ifs at sliced with fits
  cases sliced
  simp only [getD_eq_getElem?_getD, getElem?_take, getElem?_drop]
  split_ifs <;> rfl

theorem getD_of_copyFromSlice? {l src l' : List α} {lo hi : ℕ}
    (copied : l.copyFromSlice? lo hi src = some l') (d : α) :
    l'.length = l.length ∧
      ∀ j, l'.getD j d = if lo ≤ j ∧ j < hi then src.getD (j - lo) d else l.getD j d := by
  unfold copyFromSlice? at copied
  split_ifs at copied with fits
  cases copied
  refine ⟨by simp; omega, fun j => ?_⟩
  simp only [getD_eq_getElem?_getD, getElem?_append, length_append, length_take, getElem?_take,
    getElem?_drop]
  -- before the range, inside it, after it
  split_ifs <;> first | rfl | omega | (congr 2; omega)

/-- The front of a list replaced by a shorter list, read pointwise. -/
theorem getD_append_drop (pre l : List α) (d : α) (i : ℕ) :
    (pre ++ l.drop pre.length).getD i d = if i < pre.length then pre.getD i d else l.getD i d := by
  simp only [getD_eq_getElem?_getD, getElem?_append, getElem?_drop]
  split_ifs <;> first | rfl | (congr 2; omega)

/-! ## Reading a window -/

/-- A window that does not reach the end is a plain slice. -/
theorem take_rotate_of_add_le {l : List α} {p k : ℕ} (fits : p + k ≤ l.length) :
    (l.rotate p).take k = (l.drop p).take k := by
  rw [rotate_eq_drop_append_take (by omega), take_append_of_le_length (by simp; omega)]

/-- A window that wraps is the tail from `p` followed by the front of the list. -/
theorem take_rotate_of_le_add {l : List α} {p k : ℕ} (start : p ≤ l.length)
    (wraps : l.length ≤ p + k) (within : k ≤ l.length) :
    (l.rotate p).take k = l.drop p ++ l.take (k - (l.length - p)) := by
  have whole : (l.drop p).take k = l.drop p := take_of_length_le (by simp; omega)
  rw [rotate_eq_drop_append_take start, take_append, whole, length_drop, take_take,
    min_eq_left (by omega)]

/-- Taking `k` elements off the front of a window leaves the window that starts `k` further on. -/
theorem take_rotate_eq_drop_take {l : List α} {k c : ℕ} (taken : k ≤ c)
    (within : c ≤ l.length) :
    (l.rotate k).take (c - k) = (l.take c).drop k := by
  rw [take_rotate_of_add_le (by omega), drop_take]

/-! ## Writing over a window -/

/-- Writing `src` from `p` on, without reaching the end, puts it at the front of the list
rotated by `p`. -/
theorem rotate_splice {l src : List α} {p : ℕ} (fits : p + src.length ≤ l.length) :
    (l.take p ++ src ++ l.drop (p + src.length)).rotate p =
      src ++ (l.rotate p).drop src.length := by
  have swapped := rotate_append_length_eq (l.take p) (src ++ l.drop (p + src.length))
  rw [length_take_of_le (by omega)] at swapped
  rw [append_assoc, swapped, rotate_eq_drop_append_take (by omega),
    drop_append_of_le_length (by simp; omega), drop_drop, append_assoc]

/-- Writing `front` from `p` up to the end and `back` from the start on, as a ring buffer does
when a write wraps, puts the two at the front of the list rotated by `p`. -/
theorem rotate_splice_wrap {l front back : List α} {p : ℕ} (toEnd : p + front.length = l.length)
    (short : back.length ≤ p) :
    (back ++ (l.take p ++ front).drop back.length).rotate p =
      front ++ back ++ (l.rotate p).drop (front.length + back.length) := by
  have swapped := rotate_append_length_eq (back ++ (l.take p).drop back.length) front
  have lead : (back ++ (l.take p).drop back.length).length = p := by
    simp [length_take_of_le (show p ≤ l.length by omega)]; omega
  have rest : (l.drop p ++ l.take p).drop (front.length + back.length) =
      (l.take p).drop back.length := by
    rw [drop_append, drop_eq_nil_of_le (by simp; omega), nil_append, length_drop]
    congr 1; omega
  rw [lead] at swapped
  rw [drop_append_of_le_length (by simp; omega), ← append_assoc, swapped,
    rotate_eq_drop_append_take (by omega), rest, append_assoc]

/-- Rotating twice is rotating by the sum, wrapped around the length. -/
theorem rotate_rotate_mod (l : List α) (p c : ℕ) :
    (l.rotate p).rotate c = l.rotate ((p + c) % l.length) := by
  rw [rotate_rotate, rotate_mod]

/-- The list rotated to the start of a window of `c` elements is the list rotated to the end of
the window, rotated on by the rest of the length. -/
theorem rotate_eq_rotate_end {l : List α} {p c : ℕ} (within : c ≤ l.length) :
    l.rotate p = (l.rotate ((p + c) % l.length)).rotate (l.length - c) := by
  rw [rotate_mod, rotate_rotate, show p + c + (l.length - c) = p + l.length by omega,
    ← rotate_mod l (p + l.length), Nat.add_mod_right, rotate_mod]

/-- Whatever is written from the end of a window of `c` elements on extends the window. -/
theorem take_rotate_of_write_after {l l' src : List α} {p c : ℕ}
    (sameLength : l'.length = l.length) (room : c + src.length ≤ l.length)
    (written : l'.rotate ((p + c) % l.length) =
      src ++ (l.rotate ((p + c) % l.length)).drop src.length) :
    (l'.rotate p).take (c + src.length) = (l.rotate p).take c ++ src := by
  have window : l.rotate ((p + c) % l.length) = (l.rotate p).drop c ++ (l.rotate p).take c := by
    rw [← rotate_rotate_mod, rotate_eq_drop_append_take (by simp; omega)]
  have gap : ((l.rotate p).drop c).length =
      src.length + (((l.rotate p).drop c).drop src.length).length := by
    simp; omega
  have swapped := rotate_append_length_eq (src ++ ((l.rotate p).drop c).drop src.length)
    ((l.rotate p).take c)
  rw [length_append, ← gap, length_drop, length_rotate] at swapped
  rw [rotate_eq_rotate_end (show c ≤ l'.length by omega), sameLength, written, window,
    drop_append_of_le_length (by simp; omega), ← append_assoc, swapped, ← append_assoc]
  exact take_left' (by simp; omega)

end List

/-! ## Indices of a ring -/

namespace Nat

/-- An index moved on by at most the length wraps around at most once. -/
theorem add_mod_of_le_add {h c n : ℕ} (wraps : n ≤ h + c) (below : h + c < 2 * n) :
    (h + c) % n = h + c - n := by
  rw [Nat.mod_eq_sub_mod wraps, Nat.mod_eq_of_lt (by omega)]

/-- Moving an index on by at most the length comes back to it only for no move or a whole turn. -/
theorem add_mod_eq_self_iff {h c n : ℕ} (start : h < n) (within : c ≤ n) :
    (h + c) % n = h ↔ c = 0 ∨ c = n := by
  rcases Nat.lt_or_ge (h + c) n with fits | wraps
  · rw [Nat.mod_eq_of_lt fits]; omega
  · rw [add_mod_of_le_add wraps (by omega)]; omega

end Nat
