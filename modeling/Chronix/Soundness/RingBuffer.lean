import Mathlib
import Chronix.Model.RingBuffer
import Chronix.ToMathlib.BoundedFifo

/-! # The ring buffer is a bounded FIFO queue

The bytes a `RingBuffer` holds are the window of its array that starts at the head and holds
`count` bytes, where `count` is the distance from the head round to the tail, told apart by the
state when the two meet. `Wf` is the invariant the code's comment states (head and tail lie in
the array, and they meet exactly when the state is not `NORMAL`); under it every operation
returns without a panic, keeps `Wf`, and acts on the window as the bounded FIFO of
`BoundedFifo` acts on its items. A run of reads, writes, enqueues, dequeues and the two tests
from `RingBuffer::new(n)` then answers as the queue of capacity `n` does, and what it hands out
followed by what it still holds is what it accepted.
-/

namespace Chronix

namespace RingBuffer

variable {rb : RingBuffer}

/-- The number of bytes held: the distance from the head round to the tail, as `read`
computes it, with `head == tail` told apart by the state. -/
def count (rb : RingBuffer) : ℕ :=
  match rb.state with
  | .EMPTY => 0
  | .FULL => rb.arr.length
  | .NORMAL => if rb.head < rb.tail then rb.tail - rb.head else rb.arr.length - rb.head + rb.tail

/-- The bytes held, front first. -/
def contents (rb : RingBuffer) : List UInt8 := (rb.arr.rotate rb.head).take rb.count

/-- The invariant of the code's comment: head and tail lie in the array, and they are equal
exactly when the state is `EMPTY` or `FULL`. -/
structure Wf (rb : RingBuffer) : Prop where
  head_lt : rb.head < rb.arr.length
  tail_lt : rb.tail < rb.arr.length
  normal_iff : rb.state = .NORMAL ↔ rb.head ≠ rb.tail

theorem Wf.positive (wf : rb.Wf) : 0 < rb.arr.length := by
  have := wf.head_lt
  omega

theorem Wf.count_le (wf : rb.Wf) : rb.count ≤ rb.arr.length := by
  have := wf.tail_lt
  cases state : rb.state with
  | EMPTY => simp [count, state]
  | FULL => simp [count, state]
  | NORMAL =>
    simp only [count, state]
    split <;> omega

theorem Wf.count_eq_zero_iff (wf : rb.Wf) : rb.count = 0 ↔ rb.state = .EMPTY := by
  have := wf.head_lt
  have apart := wf.normal_iff
  cases state : rb.state with
  | EMPTY => simp [count, state]
  | FULL => simp only [count, state, reduceCtorEq, iff_false]; omega
  | NORMAL =>
    simp only [state, true_iff] at apart
    simp only [count, state, reduceCtorEq, iff_false]
    split <;> omega

theorem Wf.count_eq_length_iff (wf : rb.Wf) : rb.count = rb.arr.length ↔ rb.state = .FULL := by
  have := wf.positive
  have := wf.tail_lt
  have apart := wf.normal_iff
  cases state : rb.state with
  | EMPTY => simp only [count, state, reduceCtorEq, iff_false]; omega
  | FULL => simp [count, state]
  | NORMAL =>
    simp only [state, true_iff] at apart
    simp only [count, state, reduceCtorEq, iff_false]
    split <;> omega

/-- The tail is `count` bytes on from the head, round the ring. -/
theorem Wf.tail_eq (wf : rb.Wf) : rb.tail = (rb.head + rb.count) % rb.arr.length := by
  have := wf.head_lt
  have := wf.tail_lt
  have apart := wf.normal_iff
  cases state : rb.state with
  | EMPTY =>
    simp only [state, reduceCtorEq, false_iff, not_not] at apart
    simp [count, state, apart, Nat.mod_eq_of_lt wf.tail_lt]
  | FULL =>
    simp only [state, reduceCtorEq, false_iff, not_not] at apart
    simp [count, state, apart, Nat.mod_eq_of_lt wf.tail_lt]
  | NORMAL =>
    simp only [count, state]
    split
    · rw [Nat.mod_eq_of_lt (by omega)]; omega
    · rw [Nat.add_mod_of_le_add (by omega) (by omega)]; omega

/-- A well-formed buffer whose tail is `c` bytes on from its head holds `c` bytes, once its
state says `EMPTY` only for none and `FULL` only for all. -/
theorem Wf.count_eq (wf : rb.Wf) {c : ℕ} (within : c ≤ rb.arr.length)
    (tail : rb.tail = (rb.head + c) % rb.arr.length) (empty : rb.state = .EMPTY → c = 0)
    (full : rb.state = .FULL → c = rb.arr.length) : rb.count = c := by
  have := wf.head_lt
  have apart := wf.normal_iff
  cases state : rb.state with
  | EMPTY => simp [count, state, empty state]
  | FULL => simp [count, state, full state]
  | NORMAL =>
    simp only [state, true_iff] at apart
    have turned : c ≠ 0 ∧ c ≠ rb.arr.length := by
      have := (Nat.add_mod_eq_self_iff wf.head_lt within).not.mp
      rw [← tail] at this
      omega
    simp only [count, state]
    rcases Nat.lt_or_ge (rb.head + c) rb.arr.length with fits | wraps
    · rw [Nat.mod_eq_of_lt fits] at tail
      split <;> omega
    · rw [Nat.add_mod_of_le_add wraps (by omega)] at tail
      split <;> omega

/-- The buffer after `k` bytes leave from the head, as `read` and `dequeue` leave it. -/
def consumed (rb : RingBuffer) (k : ℕ) : RingBuffer :=
  { rb with
    head := (rb.head + k) % rb.arr.length
    state := if (rb.head + k) % rb.arr.length = rb.tail then .EMPTY else .NORMAL }

/-- The buffer after `k` bytes were written from the tail on, giving the array `arr`, as
`write` and `enqueue` leave it. -/
def produced (rb : RingBuffer) (arr : List UInt8) (k : ℕ) : RingBuffer :=
  { rb with
    arr
    tail := (rb.tail + k) % rb.arr.length
    state := if rb.head = (rb.tail + k) % rb.arr.length then .FULL else .NORMAL }

section Consume

variable (wf : rb.Wf) {k : ℕ} (positive : 0 < k) (within : k ≤ rb.count)
include wf

theorem Wf.consumed : (rb.consumed k).Wf where
  head_lt := Nat.mod_lt _ wf.positive
  tail_lt := wf.tail_lt
  normal_iff := by unfold RingBuffer.consumed; split <;> simp_all

include positive within in
theorem Wf.count_consumed : (rb.consumed k).count = rb.count - k := by
  have := wf.count_le
  have tail : rb.tail = ((rb.head + k) % rb.arr.length + (rb.count - k)) % rb.arr.length := by
    rw [Nat.mod_add_mod, wf.tail_eq]
    congr 1
    omega
  apply (wf.consumed).count_eq (by simp [RingBuffer.consumed]; omega) tail
  · intro empty
    have meet : (rb.head + k) % rb.arr.length = rb.tail := by
      by_contra apart
      simp [RingBuffer.consumed, apart] at empty
    have := (Nat.add_mod_eq_self_iff (Nat.mod_lt (rb.head + k) wf.positive)
      (show rb.count - k ≤ rb.arr.length by omega)).mp (by rw [← tail, meet])
    omega
  · intro full
    simp only [RingBuffer.consumed] at full
    split at full <;> cases full

include positive within in
theorem Wf.contents_consumed : (rb.consumed k).contents = rb.contents.drop k := by
  have := wf.count_le
  rw [contents, wf.count_consumed positive within]
  simp only [RingBuffer.consumed]
  rw [← List.rotate_rotate_mod, List.take_rotate_eq_drop_take within (by simpa using this)]
  rfl

end Consume

section Produce

variable (wf : rb.Wf) {arr : List UInt8} (sameLength : arr.length = rb.arr.length) {k : ℕ}
  (positive : 0 < k) (room : rb.count + k ≤ rb.arr.length)
include wf sameLength

theorem Wf.produced : (rb.produced arr k).Wf where
  head_lt := by simpa [RingBuffer.produced, sameLength] using wf.head_lt
  tail_lt := by simpa [RingBuffer.produced, sameLength] using Nat.mod_lt _ wf.positive
  normal_iff := by unfold RingBuffer.produced; split <;> simp_all

include positive room in
theorem Wf.count_produced : (rb.produced arr k).count = rb.count + k := by
  have tail : (rb.produced arr k).tail =
      ((rb.produced arr k).head + (rb.count + k)) % (rb.produced arr k).arr.length := by
    simp only [RingBuffer.produced, sameLength]
    rw [wf.tail_eq, Nat.mod_add_mod, Nat.add_assoc]
  apply (wf.produced sameLength).count_eq (by simp [RingBuffer.produced, sameLength, room]) tail
  · intro empty
    simp only [RingBuffer.produced] at empty
    split at empty <;> cases empty
  · intro full
    have meet : rb.head = (rb.tail + k) % rb.arr.length := by
      by_contra apart
      simp [RingBuffer.produced, apart] at full
    have := (Nat.add_mod_eq_self_iff wf.head_lt room).mp
      (by simpa [RingBuffer.produced, sameLength, ← meet] using tail.symm)
    simp only [RingBuffer.produced, sameLength]
    omega

include positive room in
theorem Wf.contents_produced {src : List UInt8} (sized : src.length = k)
    (written : arr.rotate rb.tail = src ++ (rb.arr.rotate rb.tail).drop k) :
    (rb.produced arr k).contents = rb.contents ++ src := by
  rw [contents, wf.count_produced sameLength positive room]
  simp only [RingBuffer.produced]
  rw [← sized, List.take_rotate_of_write_after sameLength (by omega)
    (by rw [← wf.tail_eq, sized]; exact written)]
  rfl

end Produce

/-! ## The operations on a well-formed buffer -/

theorem readStraight_eq {buf : List UInt8} {k : ℕ} (fits : rb.head + k ≤ rb.arr.length)
    (short : k ≤ buf.length) :
    rb.readStraight buf k = some ((rb.arr.rotate rb.head).take k ++ buf.drop k) := by
  rw [readStraight, List.slice?_of_le (by omega) fits, Option.bind_eq_bind, Option.bind_some,
    List.copyFromSlice?_of_le (Nat.zero_le k) short (by simp; omega),
    List.take_rotate_of_add_le fits]
  simp

theorem Wf.read_eq (wf : rb.Wf) {buf : List UInt8} (nonempty : buf ≠ [])
    (holds : rb.state ≠ .EMPTY) :
    rb.read buf = some (min buf.length rb.count,
      (rb.arr.rotate rb.head).take (min buf.length rb.count) ++ buf.drop (min buf.length rb.count),
      rb.consumed (min buf.length rb.count)) := by
  have := wf.count_le
  have := wf.tail_lt
  rw [read, if_neg (by simp [holds, nonempty])]
  by_cases order : rb.head < rb.tail
  · have count : rb.count = rb.tail - rb.head := by
      have normal : rb.state = .NORMAL := wf.normal_iff.mpr (by omega)
      simp [RingBuffer.count, normal, order]
    simp only [order, if_true]
    rw [count, readStraight_eq (by omega) (by omega)]
    simp only [Option.bind_eq_bind, Option.bind_some, usizeRem?_of_pos wf.positive, min_comm]
    rfl
  · have := wf.head_lt
    have count : rb.count = rb.arr.length - rb.head + rb.tail := by
      cases state : rb.state with
      | EMPTY => exact absurd state holds
      | FULL =>
        have meet : rb.head = rb.tail := by
          by_contra apart
          simpa [state] using wf.normal_iff.mpr apart
        simp [RingBuffer.count, state]
        omega
      | NORMAL => simp [RingBuffer.count, state, order]
    simp only [order, if_false]
    rw [count]
    by_cases short : min (rb.arr.length - rb.head + rb.tail) buf.length ≤ rb.arr.length - rb.head
    · simp only [short, if_true]
      rw [readStraight_eq (by omega) (by omega)]
      simp only [Option.bind_eq_bind, Option.bind_some, usizeRem?_of_pos wf.positive, min_comm]
      rfl
    · simp only [short, if_false]
      rw [List.slice?_of_le (le_of_lt wf.head_lt) le_rfl, Option.bind_eq_bind, Option.bind_some,
        List.copyFromSlice?_of_le (Nat.zero_le _) (by omega) (by simp),
        Option.bind_some, List.slice?_of_le (Nat.zero_le _) (by omega), Option.bind_some,
        List.copyFromSlice?_of_le (by omega) (by simp; omega) (by simp; omega), Option.bind_some,
        List.take_rotate_of_le_add (le_of_lt wf.head_lt) (by omega) (by omega)]
      have right : (rb.arr.drop rb.head).take (rb.arr.length - rb.head) = rb.arr.drop rb.head :=
        List.take_of_length_le (by simp)
      simp only [pure_bind, usizeRem?_of_pos wf.positive, Option.bind_eq_bind, Option.bind_some,
        List.take_zero, List.nil_append, List.drop_zero, Nat.sub_zero, right, min_comm]
      have front : (rb.arr.drop rb.head ++ buf.drop (rb.arr.length - rb.head)).take
          (rb.arr.length - rb.head) = rb.arr.drop rb.head := List.take_left' (by simp)
      have back : (rb.arr.drop rb.head ++ buf.drop (rb.arr.length - rb.head)).drop
          (min buf.length (rb.arr.length - rb.head + rb.tail)) =
            buf.drop (min buf.length (rb.arr.length - rb.head + rb.tail)) := by
        rw [List.drop_append, List.drop_eq_nil_of_le (by simp; omega), List.nil_append,
          List.length_drop, List.drop_drop]
        congr 1
        omega
      rw [front, back]
      rfl

theorem writeStraight_eq {buf : List UInt8} {k : ℕ} (fits : rb.tail + k ≤ rb.arr.length)
    (short : k ≤ buf.length) :
    rb.writeStraight buf k = some (rb.arr.take rb.tail ++ buf.take k ++ rb.arr.drop (rb.tail + k)) := by
  rw [writeStraight, List.slice?_of_le (Nat.zero_le k) short, Option.bind_eq_bind, Option.bind_some,
    List.copyFromSlice?_of_le (by omega) fits (by simp; omega)]
  simp

/-- What a straight write leaves: the bytes written at the front of the array rotated to the
tail. -/
theorem rotate_writeStraight {buf : List UInt8} {k : ℕ} (fits : rb.tail + k ≤ rb.arr.length)
    (short : k ≤ buf.length) :
    (rb.arr.take rb.tail ++ buf.take k ++ rb.arr.drop (rb.tail + k)).rotate rb.tail =
      buf.take k ++ (rb.arr.rotate rb.tail).drop k := by
  have sized : (buf.take k).length = k := List.length_take_of_le short
  have := List.rotate_splice (l := rb.arr) (p := rb.tail)
    (show rb.tail + (buf.take k).length ≤ rb.arr.length by omega)
  rwa [sized] at this

theorem Wf.write_eq (wf : rb.Wf) {buf : List UInt8} (nonempty : buf ≠ [])
    (holds : rb.state ≠ .FULL) :
    ∃ arr, arr.length = rb.arr.length ∧
      arr.rotate rb.tail = buf.take (min buf.length (rb.arr.length - rb.count)) ++
        (rb.arr.rotate rb.tail).drop (min buf.length (rb.arr.length - rb.count)) ∧
      rb.write buf = some (min buf.length (rb.arr.length - rb.count),
        rb.produced arr (min buf.length (rb.arr.length - rb.count))) := by
  have := wf.head_lt
  have := wf.tail_lt
  rw [write, if_neg (by simp [holds, nonempty])]
  by_cases order : rb.head ≤ rb.tail
  · have count : rb.count = rb.tail - rb.head := by
      cases state : rb.state with
      | EMPTY =>
        have meet : rb.head = rb.tail := by
          by_contra apart
          simpa [state] using wf.normal_iff.mpr apart
        simp [RingBuffer.count, state]
        omega
      | FULL => exact absurd state holds
      | NORMAL =>
        have apart := wf.normal_iff.mp state
        simp [RingBuffer.count, state]
        omega
    simp only [order, if_true]
    rw [count, min_comm (rb.arr.length - (rb.tail - rb.head)) buf.length]
    generalize hk : min buf.length (rb.arr.length - (rb.tail - rb.head)) = k
    by_cases short : k ≤ rb.arr.length - rb.tail
    · simp only [short, if_true]
      refine ⟨rb.arr.take rb.tail ++ buf.take k ++ rb.arr.drop (rb.tail + k), by simp; omega,
        rotate_writeStraight (by omega) (by omega), ?_⟩
      rw [writeStraight_eq (by omega) (by omega)]
      simp only [Option.bind_eq_bind, Option.bind_some, pure_bind, usizeRem?_of_pos wf.positive]
      rfl
    · simp only [short, if_false]
      -- the bytes up to the end of the array, and those that wrap to its start
      have front : (buf.take (rb.arr.length - rb.tail)).length = rb.arr.length - rb.tail :=
        List.length_take_of_le (by omega)
      have back : ((buf.drop (rb.arr.length - rb.tail)).take (k - (rb.arr.length - rb.tail))).length =
          k - (rb.arr.length - rb.tail) := List.length_take_of_le (by simp; omega)
      have joined : buf.take (rb.arr.length - rb.tail) ++
          (buf.drop (rb.arr.length - rb.tail)).take (k - (rb.arr.length - rb.tail)) = buf.take k := by
        rw [← List.take_add]
        congr 1
        omega
      have wrapped := List.rotate_splice_wrap (l := rb.arr) (p := rb.tail)
        (show rb.tail + (buf.take (rb.arr.length - rb.tail)).length = rb.arr.length by omega)
        (show ((buf.drop (rb.arr.length - rb.tail)).take (k - (rb.arr.length - rb.tail))).length ≤
          rb.tail by omega)
      rw [front, back, joined, show rb.arr.length - rb.tail + (k - (rb.arr.length - rb.tail)) = k by
        omega] at wrapped
      refine ⟨_, ?_, wrapped, ?_⟩
      · simp
        omega
      · rw [List.slice?_of_le (Nat.zero_le _) (by omega), Option.bind_eq_bind, Option.bind_some,
          List.copyFromSlice?_of_le (by omega) le_rfl (by simp; omega), Option.bind_some,
          List.slice?_of_le (by omega) (by omega), Option.bind_some,
          List.copyFromSlice?_of_le (Nat.zero_le _) (by simp; omega) (by simp; omega),
          Option.bind_some]
        simp only [pure_bind, Option.bind_eq_bind, Option.bind_some, usizeRem?_of_pos wf.positive,
          List.take_zero, List.nil_append, List.drop_zero, Nat.sub_zero, List.drop_length,
          List.append_nil]
        rfl
  · have count : rb.count = rb.arr.length - rb.head + rb.tail := by
      have normal := wf.normal_iff.mpr (show rb.head ≠ rb.tail by omega)
      simp [RingBuffer.count, normal]
      omega
    simp only [order, if_false]
    rw [count, show rb.arr.length - (rb.arr.length - rb.head + rb.tail) = rb.head - rb.tail by omega,
      min_comm (rb.head - rb.tail) buf.length]
    generalize hk : min buf.length (rb.head - rb.tail) = k
    refine ⟨rb.arr.take rb.tail ++ buf.take k ++ rb.arr.drop (rb.tail + k), by simp; omega,
      rotate_writeStraight (by omega) (by omega), ?_⟩
    rw [writeStraight_eq (by omega) (by omega)]
    simp only [Option.bind_eq_bind, Option.bind_some, pure_bind, usizeRem?_of_pos wf.positive]
    rfl

theorem Wf.dequeue_eq (wf : rb.Wf) (holds : rb.state ≠ .EMPTY) :
    rb.dequeue = some ((rb.arr.rotate rb.head).head?, rb.consumed 1) := by
  have inBounds := wf.head_lt
  have front : rb.arr[rb.head]? = some rb.arr[rb.head] := List.getElem?_eq_getElem inBounds
  rw [dequeue, if_neg (by simp [isEmpty, holds]), List.head?_rotate wf.head_lt, front]
  simp only [Option.bind_eq_bind, Option.bind_some, usizeRem?_of_pos wf.positive]
  rfl

theorem Wf.enqueue_eq (wf : rb.Wf) (holds : rb.state ≠ .FULL) (byte : UInt8) :
    rb.enqueue byte =
      some (some (), rb.produced (rb.arr.take rb.tail ++ [byte] ++ rb.arr.drop (rb.tail + 1)) 1) := by
  rw [enqueue, if_neg (by simp [isFull, holds]), List.set?_of_lt byte wf.tail_lt]
  simp only [Option.bind_eq_bind, Option.bind_some, usizeRem?_of_pos wf.positive]
  rfl

/-- What an enqueue leaves: the byte at the front of the array rotated to the tail. -/
theorem Wf.rotate_enqueue (wf : rb.Wf) (byte : UInt8) :
    (rb.arr.take rb.tail ++ [byte] ++ rb.arr.drop (rb.tail + 1)).rotate rb.tail =
      [byte] ++ (rb.arr.rotate rb.tail).drop 1 :=
  List.rotate_splice (show rb.tail + [byte].length ≤ rb.arr.length by simpa using wf.tail_lt)

/-! ## The buffer as a bounded FIFO queue -/

theorem length_contents_le (rb : RingBuffer) : rb.contents.length ≤ rb.arr.length := by
  simp [contents]

/-- The queue a ring buffer holds: its contents, with the array's length as the capacity. -/
def toFifo (rb : RingBuffer) : BoundedFifo UInt8 :=
  ⟨rb.arr.length, rb.contents, rb.length_contents_le⟩

@[simp] theorem capacity_toFifo (rb : RingBuffer) : rb.toFifo.capacity = rb.arr.length := rfl

@[simp] theorem items_toFifo (rb : RingBuffer) : rb.toFifo.items = rb.contents := rfl

theorem Wf.length_contents (wf : rb.Wf) : rb.contents.length = rb.count := by
  simp [contents, wf.count_le]

theorem Wf.room_toFifo (wf : rb.Wf) : rb.toFifo.room = rb.arr.length - rb.count := by
  simp [BoundedFifo.room, wf.length_contents]

/-- The front of the contents, as `read` copies it out. -/
theorem take_contents {k : ℕ} (taken : k ≤ rb.count) :
    rb.contents.take k = (rb.arr.rotate rb.head).take k := by
  rw [contents, List.take_take, min_eq_left taken]

theorem Wf.read_spec (wf : rb.Wf) (buf : List UInt8) :
    ∃ next, rb.read buf = some ((rb.toFifo.pop buf.length).1.length,
        (rb.toFifo.pop buf.length).1 ++ buf.drop (rb.toFifo.pop buf.length).1.length, next) ∧
      next.Wf ∧ next.toFifo = (rb.toFifo.pop buf.length).2 := by
  have taken : (rb.toFifo.pop buf.length).1.length = min buf.length rb.count := by
    simp [wf.length_contents]
  by_cases idle : rb.state = .EMPTY ∨ buf = []
  · -- nothing to hand out: the buffer is left as it is
    have handedOut : rb.contents.take buf.length = [] := by
      rw [List.take_eq_nil_iff]
      rcases idle with empty | nil
      · simp [← List.length_eq_zero_iff, wf.length_contents, wf.count_eq_zero_iff.mpr empty]
      · simp [nil]
    have kept : rb.contents.drop buf.length = rb.contents := by
      rcases List.take_eq_nil_iff.mp handedOut with zero | nil
      · simp [zero]
      · simp [nil]
    refine ⟨rb, ?_, wf, ?_⟩
    · simp only [read, if_pos idle, BoundedFifo.pop_fst, items_toFifo, handedOut, List.length_nil,
        List.nil_append, List.drop_zero]
    · ext <;> simp [kept]
  · have holds : rb.state ≠ .EMPTY := fun empty => idle (.inl empty)
    have nonempty : buf ≠ [] := fun nil => idle (.inr nil)
    have positive : 0 < min buf.length rb.count := by
      have := wf.count_eq_zero_iff.not.mpr holds
      have := List.length_pos_iff.mpr nonempty
      omega
    have front : rb.contents.take buf.length =
        (rb.arr.rotate rb.head).take (min buf.length rb.count) := by
      rw [contents, List.take_take]
    have rest : rb.contents.drop (min buf.length rb.count) = rb.contents.drop buf.length := by
      rcases le_total buf.length rb.count with within | beyond
      · rw [min_eq_left within]
      · rw [min_eq_right beyond, List.drop_eq_nil_of_le (by rw [wf.length_contents]),
          List.drop_eq_nil_of_le (by rw [wf.length_contents]; exact beyond)]
    refine ⟨rb.consumed (min buf.length rb.count), ?_, wf.consumed, ?_⟩
    · rw [wf.read_eq nonempty holds, taken, BoundedFifo.pop_fst, items_toFifo, front]
    · ext
      · rfl
      · rw [items_toFifo, wf.contents_consumed positive (min_le_right _ _), rest]
        rfl

theorem Wf.write_spec (wf : rb.Wf) (buf : List UInt8) :
    ∃ next, rb.write buf = some ((rb.toFifo.push buf).1, next) ∧
      next.Wf ∧ next.toFifo = (rb.toFifo.push buf).2 := by
  have accepted : (rb.toFifo.push buf).1 = min buf.length (rb.arr.length - rb.count) := by
    rw [BoundedFifo.push_fst, wf.room_toFifo]
  have pushed : (rb.toFifo.push buf).2.items =
      rb.contents ++ buf.take (min buf.length (rb.arr.length - rb.count)) := by
    rw [BoundedFifo.items_push, accepted, items_toFifo]
  by_cases idle : rb.state = .FULL ∨ buf = []
  · -- no room or nothing to write: the buffer is left as it is
    have none : min buf.length (rb.arr.length - rb.count) = 0 := by
      rcases idle with full | nil
      · simp [wf.count_eq_length_iff.mpr full]
      · simp [nil]
    refine ⟨rb, ?_, wf, ?_⟩
    · simp only [write, if_pos idle, accepted, none]
    · ext
      · rfl
      · simp [pushed, none]
  · have holds : rb.state ≠ .FULL := fun full => idle (.inl full)
    have nonempty : buf ≠ [] := fun nil => idle (.inr nil)
    have positive : 0 < min buf.length (rb.arr.length - rb.count) := by
      have := wf.count_eq_length_iff.not.mpr holds
      have := wf.count_le
      have := List.length_pos_iff.mpr nonempty
      omega
    obtain ⟨arr, sameLength, written, wrote⟩ := wf.write_eq nonempty holds
    have room : rb.count + min buf.length (rb.arr.length - rb.count) ≤ rb.arr.length := by
      have := wf.count_le
      omega
    refine ⟨rb.produced arr _, by rw [wrote, accepted], wf.produced sameLength, ?_⟩
    ext
    · exact sameLength
    · rw [items_toFifo, wf.contents_produced sameLength positive room
        (List.length_take_of_le (min_le_left _ _)) written, pushed]

theorem Wf.dequeue_spec (wf : rb.Wf) :
    ∃ next, rb.dequeue = some (rb.contents.head?, next) ∧
      next.Wf ∧ next.toFifo = (rb.toFifo.pop 1).2 := by
  by_cases empty : rb.state = .EMPTY
  · have nil : rb.contents = [] := by
      rw [← List.length_eq_zero_iff, wf.length_contents, wf.count_eq_zero_iff.mpr empty]
    refine ⟨rb, ?_, wf, ?_⟩
    · simp [dequeue, isEmpty, empty, nil]
    · ext <;> simp [nil]
  · have positive : 0 < rb.count := by
      have := wf.count_eq_zero_iff.not.mpr empty
      omega
    refine ⟨rb.consumed 1, ?_, wf.consumed, ?_⟩
    · rw [wf.dequeue_eq empty, contents, List.head?_take, if_neg (by omega)]
    · ext
      · rfl
      · rw [items_toFifo, wf.contents_consumed Nat.one_pos positive, BoundedFifo.items_pop,
          items_toFifo]

theorem Wf.enqueue_spec (wf : rb.Wf) (byte : UInt8) :
    ∃ next, rb.enqueue byte = some (if rb.toFifo.room = 0 then none else some (), next) ∧
      next.Wf ∧ next.toFifo = (rb.toFifo.push [byte]).2 := by
  have room := wf.room_toFifo
  have := wf.count_le
  have := wf.tail_lt
  by_cases full : rb.state = .FULL
  · have noRoom : rb.toFifo.room = 0 := by
      rw [room, wf.count_eq_length_iff.mpr full, Nat.sub_self]
    refine ⟨rb, ?_, wf, ?_⟩
    · simp [enqueue, isFull, full, noRoom]
    · ext
      · rfl
      · simp [BoundedFifo.push, noRoom]
  · have positive : 0 < rb.toFifo.room := by
      have := wf.count_eq_length_iff.not.mpr full
      omega
    refine ⟨_, by rw [wf.enqueue_eq full, if_neg (by omega)], wf.produced (by simp; omega), ?_⟩
    ext
    · simp [RingBuffer.produced]
      omega
    · rw [items_toFifo, wf.contents_produced (by simp; omega) Nat.one_pos (by omega) rfl
        (wf.rotate_enqueue byte), BoundedFifo.items_push, BoundedFifo.push_fst, items_toFifo,
        min_eq_left positive]
      rfl

theorem Wf.isEmpty_eq (wf : rb.Wf) : rb.isEmpty = rb.contents.isEmpty := by
  rw [isEmpty, Bool.eq_iff_iff, decide_eq_true_eq, List.isEmpty_iff]
  rw [← List.length_eq_zero_iff, wf.length_contents, wf.count_eq_zero_iff]

theorem Wf.isFull_eq (wf : rb.Wf) : rb.isFull = decide (rb.contents.length = rb.arr.length) := by
  rw [isFull, Bool.eq_iff_iff, decide_eq_true_eq, decide_eq_true_eq]
  rw [wf.length_contents, wf.count_eq_length_iff]

theorem wf_new {n : ℕ} (positive : 0 < n) : (new n).Wf where
  head_lt := by simpa [new]
  tail_lt := by simpa [new]
  normal_iff := by simp [new]

theorem toFifo_new (n : ℕ) : (new n).toFifo = BoundedFifo.empty n := by
  ext <;> simp [new, toFifo, contents, count]

end RingBuffer

/-! ## Runs of a client -/

/-- A call a client makes on a ring buffer. -/
inductive RingOp
  | read (buf : List UInt8)
  | write (buf : List UInt8)
  | enqueue (byte : UInt8)
  | dequeue
  | isEmpty
  | isFull

/-- What a call returns; `read` also gives back the caller's buffer after the copy. -/
inductive RingReply
  | read (len : ℕ) (buf : List UInt8)
  | write (len : ℕ)
  | enqueue (stored : Option Unit)
  | dequeue (byte : Option UInt8)
  | isEmpty (empty : Bool)
  | isFull (full : Bool)
deriving DecidableEq

namespace RingBuffer

/-- One call on the code's buffer, `none` where it panics. -/
def call (rb : RingBuffer) : RingOp → Option (RingReply × RingBuffer)
  | .read buf => (rb.read buf).map fun (len, buf, next) => (.read len buf, next)
  | .write buf => (rb.write buf).map fun (len, next) => (.write len, next)
  | .enqueue byte => (rb.enqueue byte).map fun (stored, next) => (.enqueue stored, next)
  | .dequeue => rb.dequeue.map fun (byte, next) => (.dequeue byte, next)
  | .isEmpty => some (.isEmpty rb.isEmpty, rb)
  | .isFull => some (.isFull rb.isFull, rb)

/-- A run of calls: the replies in order and the buffer after, `none` if a call panics. -/
def run (rb : RingBuffer) : List RingOp → Option (List RingReply × RingBuffer)
  | [] => some ([], rb)
  | op :: ops => do
    let (reply, next) ← rb.call op
    let (replies, last) ← next.run ops
    pure (reply :: replies, last)

end RingBuffer

namespace RingOp

/-- What the bounded FIFO answers to a call, and the queue after it. -/
def onFifo (q : BoundedFifo UInt8) : RingOp → RingReply × BoundedFifo UInt8
  | .read buf =>
    (.read (q.pop buf.length).1.length ((q.pop buf.length).1 ++ buf.drop (q.pop buf.length).1.length),
      (q.pop buf.length).2)
  | .write buf => (.write (q.push buf).1, (q.push buf).2)
  | .enqueue byte => (.enqueue (if q.room = 0 then none else some ()), (q.push [byte]).2)
  | .dequeue => (.dequeue q.items.head?, (q.pop 1).2)
  | .isEmpty => (.isEmpty q.items.isEmpty, q)
  | .isFull => (.isFull (decide (q.items.length = q.capacity)), q)

/-- A run of calls on the bounded FIFO. -/
def runFifo (q : BoundedFifo UInt8) : List RingOp → List RingReply × BoundedFifo UInt8
  | [] => ([], q)
  | op :: ops => ((onFifo q op).1 :: (runFifo (onFifo q op).2 ops).1, (runFifo (onFifo q op).2 ops).2)

/-- The bytes a call gave the queue, as its reply reports them accepted. -/
def accepted : RingOp → RingReply → List UInt8
  | .write buf, .write len => buf.take len
  | .enqueue byte, .enqueue (some ()) => [byte]
  | _, _ => []

end RingOp

/-- The bytes a reply hands out. -/
def RingReply.handedOut : RingReply → List UInt8
  | .read len buf => buf.take len
  | .dequeue byte => byte.toList
  | _ => []

namespace RingOp

/-- One call of the queue hands out bytes from the front and accepts bytes at the back:
what it hands out followed by what is left is what was there followed by what it accepts. -/
theorem handedOut_onFifo (q : BoundedFifo UInt8) (op : RingOp) :
    (onFifo q op).1.handedOut ++ (onFifo q op).2.items = q.items ++ accepted op (onFifo q op).1 := by
  cases op with
  | read buf =>
    simp only [onFifo, RingReply.handedOut, accepted, List.append_nil]
    rw [List.take_left' rfl, BoundedFifo.pop_append]
  | write buf => simp [onFifo, RingReply.handedOut, accepted, BoundedFifo.items_push]
  | enqueue byte =>
    by_cases full : q.room = 0
    · simp [onFifo, RingReply.handedOut, accepted, full, BoundedFifo.push]
    · simp [onFifo, RingReply.handedOut, accepted, full, BoundedFifo.push,
        List.take_of_length_le (show [byte].length ≤ q.room by simp; omega)]
  | dequeue =>
    simp only [onFifo, RingReply.handedOut, accepted, List.append_nil, BoundedFifo.items_pop]
    rw [← List.take_one, List.take_append_drop]
  | isEmpty => simp [onFifo, RingReply.handedOut, accepted]
  | isFull => simp [onFifo, RingReply.handedOut, accepted]

/-- Over a whole run nothing is lost or duplicated: the bytes handed out, in order, followed by
the bytes still held, are the bytes held at the start followed by those accepted, in order. -/
theorem handedOut_runFifo (q : BoundedFifo UInt8) (ops : List RingOp) :
    (runFifo q ops).1.flatMap RingReply.handedOut ++ (runFifo q ops).2.items =
      q.items ++ (List.zipWith accepted ops (runFifo q ops).1).flatten := by
  induction ops generalizing q with
  | nil => simp [runFifo]
  | cons op ops ih =>
    simp only [runFifo, List.flatMap_cons, List.zipWith_cons_cons, List.flatten_cons,
      List.append_assoc, ih]
    rw [← List.append_assoc, handedOut_onFifo, List.append_assoc]

end RingOp

namespace RingBuffer

variable {rb : RingBuffer}

/-- One call on a well-formed buffer returns, keeps it well formed, and answers as the queue it
holds does. -/
theorem Wf.call_refines (wf : rb.Wf) (op : RingOp) :
    ∃ next, rb.call op = some ((RingOp.onFifo rb.toFifo op).1, next) ∧ next.Wf ∧
      next.toFifo = (RingOp.onFifo rb.toFifo op).2 := by
  cases op with
  | read buf =>
    obtain ⟨next, read, wfNext, fifo⟩ := wf.read_spec buf
    exact ⟨next, by simp [call, read, RingOp.onFifo], wfNext, fifo⟩
  | write buf =>
    obtain ⟨next, wrote, wfNext, fifo⟩ := wf.write_spec buf
    exact ⟨next, by simp [call, wrote, RingOp.onFifo], wfNext, fifo⟩
  | enqueue byte =>
    obtain ⟨next, stored, wfNext, fifo⟩ := wf.enqueue_spec byte
    exact ⟨next, by simp [call, stored, RingOp.onFifo], wfNext, fifo⟩
  | dequeue =>
    obtain ⟨next, taken, wfNext, fifo⟩ := wf.dequeue_spec
    exact ⟨next, by simp [call, taken, RingOp.onFifo], wfNext, fifo⟩
  | isEmpty => exact ⟨rb, by simp [call, RingOp.onFifo, wf.isEmpty_eq], wf, rfl⟩
  | isFull => exact ⟨rb, by rw [call, wf.isFull_eq]; rfl, wf, rfl⟩

/-- The run lemma: from a well-formed buffer every run of calls returns, answers as the queue
does, and leaves a well-formed buffer holding the queue's final contents. -/
theorem Wf.run_refines (wf : rb.Wf) (ops : List RingOp) :
    ∃ last, rb.run ops = some ((RingOp.runFifo rb.toFifo ops).1, last) ∧ last.Wf ∧
      last.toFifo = (RingOp.runFifo rb.toFifo ops).2 := by
  induction ops generalizing rb with
  | nil => exact ⟨rb, rfl, wf, rfl⟩
  | cons op ops ih =>
    obtain ⟨next, called, wfNext, fifo⟩ := wf.call_refines op
    obtain ⟨last, ran, wfLast, fifoLast⟩ := ih wfNext
    refine ⟨last, ?_, wfLast, ?_⟩
    · simp only [run, called, Option.bind_eq_bind, Option.bind_some, ran, RingOp.runFifo, ← fifo]
      rfl
    · rw [fifoLast, fifo]
      rfl

end RingBuffer

theorem ringBuffer_refines_boundedFifo {n : ℕ} (positive : 0 < n) (ops : List RingOp) :
    ∃ replies rb, (RingBuffer.new n).run ops = some (replies, rb) ∧
      (replies, rb.toFifo) = RingOp.runFifo (BoundedFifo.empty n) ops ∧
      replies.flatMap RingReply.handedOut ++ rb.contents =
        (List.zipWith RingOp.accepted ops replies).flatten := by
  obtain ⟨rb, ran, -, fifo⟩ := (RingBuffer.wf_new positive).run_refines ops
  rw [RingBuffer.toFifo_new] at ran fifo
  have conserved := RingOp.handedOut_runFifo (BoundedFifo.empty n) ops
  rw [← fifo, BoundedFifo.items_empty, List.nil_append] at conserved
  exact ⟨_, rb, ran, by rw [fifo], conserved⟩

/-- A pipe-sized buffer that takes three bytes, hands two back, and wraps a second write. -/
theorem ringBuffer_refines_boundedFifo_wrap :
    0 < 4 ∧ ∃ replies rb, (RingBuffer.new 4).run
        [.write [1, 2, 3], .read [0, 0], .write [4, 5, 6], .isFull, .dequeue] = some (replies, rb) ∧
      (replies, rb.toFifo) = RingOp.runFifo (BoundedFifo.empty 4)
        [.write [1, 2, 3], .read [0, 0], .write [4, 5, 6], .isFull, .dequeue] ∧
      replies.flatMap RingReply.handedOut ++ rb.contents =
        (List.zipWith RingOp.accepted
          [.write [1, 2, 3], .read [0, 0], .write [4, 5, 6], .isFull, .dequeue] replies).flatten :=
  ⟨by decide, ringBuffer_refines_boundedFifo (by decide) _⟩

end Chronix
