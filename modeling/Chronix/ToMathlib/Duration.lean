import Mathlib

/-! # `core::time::Duration`

A `Duration` of Rust's core library holds whole seconds in a `u64` and the nanoseconds of the
second after them. Counted in nanoseconds it is a natural number below `2 ^ 64` seconds. Each
operation that the library makes panic on overflow (`Duration::new`, `+`, `-`) returns `none`
here, and is specified through the count: a sum or a difference is returned exactly when it is
in range (`add?_eq_some_iff`, `sub?_eq_some_iff`), and `Duration::new(secs, nanos)`, which
carries the whole seconds of `nanos` into `secs`, is the count `secs * 10 ^ 9 + nanos`
(`new_eq_ofNanos?`).
-/

/-- `NANOS_PER_SEC`. -/
def NANOS_PER_SEC : ℕ := 1000000000

/-- The counts of nanoseconds a `Duration` can hold are those below `2 ^ 64` seconds. -/
def Duration.LIMIT : ℕ := 2 ^ 64 * NANOS_PER_SEC

/-- `core::time::Duration`, as its count of nanoseconds. -/
@[ext]
structure Duration where
  nanos : ℕ
  lt_limit : nanos < Duration.LIMIT
deriving DecidableEq

namespace Duration

instance : LE Duration := ⟨fun a b => a.nanos ≤ b.nanos⟩

instance : LT Duration := ⟨fun a b => a.nanos < b.nanos⟩

instance (a b : Duration) : Decidable (a ≤ b) := inferInstanceAs (Decidable (a.nanos ≤ b.nanos))

instance (a b : Duration) : Decidable (a < b) := inferInstanceAs (Decidable (a.nanos < b.nanos))

/-- `Duration::ZERO`. -/
def ZERO : Duration := ⟨0, by decide⟩

/-- The duration of a count of nanoseconds, if the count is in range. -/
def ofNanos? (n : ℕ) : Option Duration := if h : n < LIMIT then some ⟨n, h⟩ else none

/-- `Duration::new(secs, nanos)` for a `u64` and a `u32`: the whole seconds of `nanos` are added
to `secs` by a `checked_add`, which panics past `u64::MAX`. -/
def new (secs nanos : ℕ) : Option Duration :=
  if nanos < NANOS_PER_SEC then ofNanos? (secs * NANOS_PER_SEC + nanos)
  else
    let secs := secs + nanos / NANOS_PER_SEC
    if secs < 2 ^ 64 then ofNanos? (secs * NANOS_PER_SEC + nanos % NANOS_PER_SEC) else none

/-- `Duration + Duration`, which panics on overflow. -/
def add? (a b : Duration) : Option Duration := ofNanos? (a.nanos + b.nanos)

/-- `Duration - Duration`, which panics below zero. -/
def sub? (a b : Duration) : Option Duration :=
  if h : b.nanos ≤ a.nanos then some ⟨a.nanos - b.nanos, by have := a.lt_limit; omega⟩ else none

/-- `Duration::saturating_sub`. -/
def saturating_sub (a b : Duration) : Duration := ⟨a.nanos - b.nanos, by have := a.lt_limit; omega⟩

/-- `Duration::as_secs`. -/
def as_secs (d : Duration) : ℕ := d.nanos / NANOS_PER_SEC

/-- `Duration::subsec_nanos`. -/
def subsec_nanos (d : Duration) : ℕ := d.nanos % NANOS_PER_SEC

/-- `Duration::is_zero`. -/
def is_zero (d : Duration) : Bool := d.nanos = 0

theorem le_iff {a b : Duration} : a ≤ b ↔ a.nanos ≤ b.nanos := Iff.rfl

theorem lt_iff {a b : Duration} : a < b ↔ a.nanos < b.nanos := Iff.rfl

@[simp] theorem nanos_ZERO : ZERO.nanos = 0 := rfl

theorem ofNanos?_eq_some_iff {n : ℕ} {d : Duration} : ofNanos? n = some d ↔ d.nanos = n := by
  unfold ofNanos?
  constructor
  · intro found
    split_ifs at found
    cases found
    rfl
  · rintro rfl
    rw [dif_pos d.lt_limit]

theorem ofNanos?_eq_none_iff {n : ℕ} : ofNanos? n = none ↔ LIMIT ≤ n := by
  unfold ofNanos?
  split_ifs with inRange <;> simp only [false_iff, true_iff] <;> omega

/-- A count in range is a duration. -/
theorem exists_ofNanos?_eq_some {n : ℕ} (inRange : n < LIMIT) :
    ∃ d, ofNanos? n = some d ∧ d.nanos = n :=
  ⟨⟨n, inRange⟩, ofNanos?_eq_some_iff.mpr rfl, rfl⟩

/-- `Duration::new` is the count `secs * 10 ^ 9 + nanos`: the carry of the whole seconds of
`nanos` overflows exactly when the count leaves the range. -/
theorem new_eq_ofNanos? (secs nanos : ℕ) :
    new secs nanos = ofNanos? (secs * NANOS_PER_SEC + nanos) := by
  unfold new
  dsimp only
  split_ifs with below carried
  · rfl
  · -- the carry moves whole seconds from `nanos` into `secs`, and keeps the count
    rw [Nat.add_mul, Nat.add_assoc, Nat.div_add_mod']
  · symm
    rw [ofNanos?_eq_none_iff]
    unfold LIMIT
    unfold NANOS_PER_SEC at *
    omega

theorem add?_eq_some_iff {a b c : Duration} : a.add? b = some c ↔ c.nanos = a.nanos + b.nanos :=
  ofNanos?_eq_some_iff

theorem add?_eq_none_iff {a b : Duration} : a.add? b = none ↔ LIMIT ≤ a.nanos + b.nanos :=
  ofNanos?_eq_none_iff

theorem exists_add?_eq_some {a b : Duration} (inRange : a.nanos + b.nanos < LIMIT) :
    ∃ c, a.add? b = some c ∧ c.nanos = a.nanos + b.nanos :=
  exists_ofNanos?_eq_some inRange

theorem sub?_eq_some_iff {a b c : Duration} :
    a.sub? b = some c ↔ b.nanos ≤ a.nanos ∧ c.nanos = a.nanos - b.nanos := by
  unfold sub?
  split_ifs with le
  · constructor
    · rintro ⟨⟩
      exact ⟨le, rfl⟩
    · rintro ⟨-, same⟩
      exact congrArg some (Duration.ext same.symm)
  · simp only [false_iff, not_and]
    exact fun below => absurd below le

theorem sub?_eq_none_iff {a b : Duration} : a.sub? b = none ↔ a.nanos < b.nanos := by
  unfold sub?
  split_ifs with le <;> simp only [false_iff, true_iff] <;> omega

theorem exists_sub?_eq_some {a b : Duration} (le : b.nanos ≤ a.nanos) :
    ∃ c, a.sub? b = some c ∧ c.nanos = a.nanos - b.nanos :=
  ⟨⟨a.nanos - b.nanos, by have := a.lt_limit; omega⟩, sub?_eq_some_iff.mpr ⟨le, rfl⟩, rfl⟩

end Duration
