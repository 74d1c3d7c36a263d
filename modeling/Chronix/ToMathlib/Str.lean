import Mathlib

/-! # String slices as lists

The methods of Rust's `str` that path handling uses, on a string taken as the list of its
characters; every pattern in such code is ASCII, so a character stands for a byte. The
definitions are over any type with decidable equality. `trim_start_matches` removes copies of a
pattern for as long as the rest starts with one. Its recursion runs on fuel, the length of the
string, which suffices since each round removes at least one element.
-/

namespace Str

variable {α : Type*} [DecidableEq α]

/-- `s.trim_start_matches(p)`. -/
def trimStartMatches (p s : List α) : List α := go s.length s
where
  /-- At most `fuel` rounds, each removing a leading copy of `p`. -/
  go : ℕ → List α → List α
    | 0, s => s
    | fuel + 1, s => if p ≠ [] ∧ p.isPrefixOf s then go fuel (s.drop p.length) else s

/-- `s.trim_end_matches(c)`. -/
def trimEndMatches (c : α) (s : List α) : List α := (s.reverse.dropWhile (· == c)).reverse

/-- `s.rsplit(c).next()`: what follows the last `c`, or the whole string. -/
def rsplitFirst (c : α) (s : List α) : List α := (s.reverse.takeWhile (· != c)).reverse

theorem trimStartMatches.go_of_not_prefix {p s : List α} (other : p.isPrefixOf s = false)
    (fuel : ℕ) : trimStartMatches.go p fuel s = s := by
  cases fuel with
  | zero => rfl
  | succ fuel => simp [trimStartMatches.go, other]

theorem trimStartMatches_of_not_prefix {p s : List α} (other : p.isPrefixOf s = false) :
    trimStartMatches p s = s :=
  trimStartMatches.go_of_not_prefix other _

/-- One copy of `p` in front of a string that does not start with another goes. -/
theorem trimStartMatches_append {p s : List α} (nonempty : p ≠ [])
    (other : p.isPrefixOf s = false) : trimStartMatches p (p ++ s) = s := by
  have long : (p ++ s).length = (p.length + s.length - 1) + 1 := by
    have := List.length_pos_of_ne_nil nonempty
    rw [List.length_append]
    omega
  have leading : p.isPrefixOf (p ++ s) = true :=
    List.isPrefixOf_iff_prefix.mpr (List.prefix_append p s)
  rw [trimStartMatches, long, trimStartMatches.go, if_pos ⟨nonempty, leading⟩, List.drop_left,
    trimStartMatches.go_of_not_prefix other]

end Str
