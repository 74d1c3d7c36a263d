import Mathlib

/-! # Double-ended queues as lists

A `VecDeque` is the list of its elements, front first: `push_back` appends, `pop_front` takes the
head, indexing is `l[i]?`. The operations below are the ones whose failure is a panic in the
caller (`unwrap` of an empty `pop_front` or of an out-of-range `remove`), so they return an
`Option`; the lemmas say when they succeed and what they leave.
-/

namespace List

variable {α : Type*}

/-- `n` times `target.push_back(source.pop_front().unwrap())`: the remaining source and the
grown target, or `none` when the source runs out first. -/
def moveFront : ℕ → List α → List α → Option (List α × List α)
  | 0, source, target => some (source, target)
  | _ + 1, [], _ => none
  | n + 1, head :: source, target => moveFront n source (target ++ [head])

/-- Moving at most the whole source never runs out: the first `n` elements go to the back of the
target in order. -/
theorem moveFront_of_le {n : ℕ} {source target : List α} (enough : n ≤ source.length) :
    moveFront n source target = some (source.drop n, target ++ source.take n) := by
  induction n generalizing source target with
  | zero => simp [moveFront]
  | succ n ih =>
    cases source with
    | nil => exact absurd enough (by simp)
    | cons head source =>
      rw [moveFront, ih (by simpa using enough)]
      simp

/-- `VecDeque::remove(i)`: the element at `i` and the others in order, `none` past the end. -/
def removeAt? (l : List α) (i : ℕ) : Option (α × List α) :=
  if h : i < l.length then some (l[i], l.eraseIdx i) else none

/-- A removal takes one element out and keeps the rest: nothing is lost or duplicated. -/
theorem perm_of_removeAt? {l : List α} {i : ℕ} {removed : α} {rest : List α}
    (found : l.removeAt? i = some (removed, rest)) : (removed :: rest).Perm l := by
  unfold removeAt? at found
  split_ifs at found with inBounds
  cases found
  exact (List.getElem_cons_eraseIdx_perm inBounds)

theorem removeAt?_cons_succ (head : α) (l : List α) (i : ℕ) :
    (head :: l).removeAt? (i + 1) =
      (l.removeAt? i).map fun removal => (removal.1, head :: removal.2) := by
  simp only [removeAt?, List.length_cons, Nat.add_lt_add_iff_right]
  split <;> simp

/-- Removing at the first index satisfying `p` takes out `find? p` and leaves `eraseP p`. -/
theorem removeAt?_findIdx? {l : List α} {p : α → Bool} {i : ℕ} (first : l.findIdx? p = some i) :
    l.removeAt? i = (l.find? p).map fun found => (found, l.eraseP p) := by
  induction l generalizing i with
  | nil => simp at first
  | cons head l ih =>
    by_cases selected : p head
    · have zero : i = 0 := by simpa [List.findIdx?_cons, selected] using first.symm
      subst zero
      simp [removeAt?, List.find?_cons_of_pos selected, List.eraseP_cons_of_pos selected]
    · -- the first match lies in the tail, one index further on
      cases later : l.findIdx? p with
      | none => simp [List.findIdx?_cons, selected, later] at first
      | some j =>
        have shifted : i = j + 1 := by
          simpa [List.findIdx?_cons, selected, later, eq_comm] using first
        subst shifted
        rw [removeAt?_cons_succ, ih later, List.find?_cons_of_neg selected,
          List.eraseP_cons_of_neg selected, Option.map_map]
        rfl

/-- Erasing the first element satisfying `p` leaves one fewer of them. -/
theorem countP_eraseP_self (l : List α) (p : α → Bool) :
    (l.eraseP p).countP p = l.countP p - 1 := by
  induction l with
  | nil => rfl
  | cons head l ih =>
    by_cases selected : p head
    · simp [List.eraseP_cons_of_pos selected, selected]
    · simp [List.eraseP_cons_of_neg selected, selected, ih]

end List
