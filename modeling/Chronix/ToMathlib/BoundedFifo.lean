import Mathlib

/-! # Bounded FIFO queues

What a fixed-capacity queue is for: a push accepts as many elements as there is room for and
puts them at the back in order; a pop hands out as many from the front as are asked for and
present. A concrete buffer refines this when an abstraction function takes each of its
operations to the one here. What a pop hands out followed by what is left is what was there
(`pop_append`), and a push only appends (`items_push`); a client's run lemma follows from these
two by induction over its operations.
-/

/-- A queue of at most `capacity` elements, front first. -/
@[ext]
structure BoundedFifo (α : Type*) where
  capacity : ℕ
  items : List α
  length_le : items.length ≤ capacity

namespace BoundedFifo

variable {α : Type*}

/-- The empty queue. -/
def empty (capacity : ℕ) : BoundedFifo α := ⟨capacity, [], Nat.zero_le _⟩

/-- The room left. -/
def room (q : BoundedFifo α) : ℕ := q.capacity - q.items.length

/-- Push as many of `xs` as there is room for: the number accepted and the queue after. -/
def push (q : BoundedFifo α) (xs : List α) : ℕ × BoundedFifo α :=
  (min xs.length q.room,
    ⟨q.capacity, q.items ++ xs.take q.room,
      (by have := q.length_le; simp only [room, List.length_append, List.length_take]; omega)⟩)

/-- Pop up to `k` elements from the front: those handed out and the queue after. -/
def pop (q : BoundedFifo α) (k : ℕ) : List α × BoundedFifo α :=
  (q.items.take k,
    ⟨q.capacity, q.items.drop k, (by have := q.length_le; simp only [List.length_drop]; omega)⟩)

variable (q : BoundedFifo α)

@[simp] theorem items_empty (capacity : ℕ) : (empty capacity : BoundedFifo α).items = [] := rfl

@[simp] theorem capacity_empty (capacity : ℕ) :
    (empty capacity : BoundedFifo α).capacity = capacity :=
  rfl

@[simp] theorem capacity_push (xs : List α) : (q.push xs).2.capacity = q.capacity := rfl

@[simp] theorem capacity_pop (k : ℕ) : (q.pop k).2.capacity = q.capacity := rfl

/-- A push appends exactly the elements it reports as accepted. -/
theorem items_push (xs : List α) : (q.push xs).2.items = q.items ++ xs.take (q.push xs).1 := by
  simp only [push, ← List.take_take]
  rw [List.take_of_length_le (List.length_take_le' _ _)]

/-- What a pop hands out followed by what it leaves is what was there. -/
theorem pop_append (k : ℕ) : (q.pop k).1 ++ (q.pop k).2.items = q.items :=
  List.take_append_drop k q.items

@[simp] theorem items_pop (k : ℕ) : (q.pop k).2.items = q.items.drop k := rfl

@[simp] theorem pop_fst (k : ℕ) : (q.pop k).1 = q.items.take k := rfl

@[simp] theorem push_fst (xs : List α) : (q.push xs).1 = min xs.length q.room := rfl

/-- A push of some elements into a queue with room leaves it non-empty. -/
theorem items_push_ne_nil {xs : List α} (nonempty : xs ≠ []) (roomy : 0 < q.room) :
    (q.push xs).2.items ≠ [] := by
  intro empty
  have taken : xs.take q.room = [] := (List.append_eq_nil_iff.mp empty).2
  rcases List.take_eq_nil_iff.mp taken with none | none
  · omega
  · exact nonempty none

end BoundedFifo
