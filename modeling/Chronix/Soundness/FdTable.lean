import Mathlib
import Chronix.Model.FdTable

/-! # The file descriptor table and its limit

The allocators keep their promises: `alloc_fd` hands out the lowest empty slot, and
`alloc_fd_from(b)` the lowest empty slot from `b` on; neither changes what any slot holds
(growing the table only adds empty slots). `dup3` puts the old descriptor's file in slot
`new_fd` and leaves every other slot as it was, but it grows the table to `new_fd + 1` with no
look at `RLIMIT_NOFILE` (`dup3_eq`), and `alloc_fd_from` accepts a bound equal to the limit. So
from `FdTable::new()` one `dup3(0, 1024, 0)` hands out a descriptor at the limit and leaves a
table of 1025 slots under a limit of 1024 (`fdTable_dup3_exceeds_rlimit`).
-/

namespace Chronix

namespace FdTable

variable {t t' : FdTable}

/-- Empty slots added at the end change no slot. -/
theorem getD_append_replicate_none (slots : List (Option FdInfo)) (k fd : ℕ) :
    (slots ++ List.replicate k none).getD fd none = slots.getD fd none := by
  simp only [List.getD_eq_getElem?_getD, List.getElem?_append]
  split
  · rfl
  · rename_i beyond
    rw [List.getElem?_eq_none (l := slots) (by omega), List.getElem?_replicate]
    split <;> rfl

theorem slot_resize_of_le (slots : List (Option FdInfo)) {n : ℕ} (grows : slots.length ≤ n)
    (fd : ℕ) : (slots.resize n none).getD fd none = slots.getD fd none := by
  rw [List.resize, List.take_of_length_le grows, getD_append_replicate_none]

theorem findEmpty_eq_some_iff {lo hi fd : ℕ} :
    t.findEmpty lo hi = some fd ↔
      lo ≤ fd ∧ fd < hi ∧ t.slot fd = none ∧ ∀ i, lo ≤ i → i < fd → t.slot i ≠ none := by
  simp only [findEmpty, List.find?_range'_eq_some, Option.isNone_iff_eq_none, List.mem_range'_1,
    Option.not_isNone, Option.isSome_iff_ne_none, ne_eq]
  constructor
  · rintro ⟨empty, ⟨low, high⟩, below⟩
    exact ⟨low, by omega, empty, below⟩
  · rintro ⟨low, high, empty, below⟩
    exact ⟨empty, ⟨low, by omega⟩, below⟩

theorem findEmpty_eq_none_iff {lo hi : ℕ} :
    t.findEmpty lo hi = none ↔ ∀ i, lo ≤ i → i < hi → t.slot i ≠ none := by
  simp only [findEmpty, List.find?_eq_none, List.mem_range'_1, Option.isNone_iff_eq_none, ne_eq]
  constructor
  · intro full i low high
    exact full i ⟨low, by omega⟩
  · rintro full i ⟨low, high⟩
    exact full i low (by omega)

/-- `alloc_fd` hands out the lowest empty slot, and changes no slot. -/
theorem alloc_fd_lowest {fd : ℕ} (allocated : t.alloc_fd = .ok (fd, t')) :
    t'.slot = t.slot ∧ t.slot fd = none ∧ (∀ i < fd, t.slot i ≠ none) ∧
      fd < t'.fd_table.length := by
  unfold alloc_fd at allocated
  split at allocated
  · rename_i found
    cases allocated
    obtain ⟨-, high, empty, below⟩ := findEmpty_eq_some_iff.mp found
    exact ⟨rfl, empty, fun i => below i (Nat.zero_le i), high⟩
  · rename_i full
    split_ifs at allocated
    cases allocated
    refine ⟨?_, ?_, fun i below => findEmpty_eq_none_iff.mp full i (Nat.zero_le i) below, by simp⟩
    · funext fd
      exact getD_append_replicate_none t.fd_table 1 fd
    · simp [slot]

theorem slot_reach {bound : ℕ} (small : bound + 1 < 2 ^ 64) : (t.reach bound).slot = t.slot := by
  unfold reach
  split
  · funext fd
    exact slot_resize_of_le t.fd_table (by rw [usizeWrap_of_lt small]; omega) fd
  · rfl

theorem length_reach {bound : ℕ} (small : bound + 1 < 2 ^ 64) :
    (t.reach bound).fd_table.length = max t.fd_table.length (bound + 1) := by
  unfold reach
  split
  · simp [List.resize, usizeWrap_of_lt small]
    omega
  · omega

/-- `alloc_fd_from` hands out the lowest empty slot from `bound` on, and changes no slot. -/
theorem alloc_fd_from_lowest {bound fd : ℕ} (small : bound + 1 < 2 ^ 64)
    (allocated : t.alloc_fd_from bound = .ok (fd, t')) :
    t'.slot = t.slot ∧ bound ≤ fd ∧ t.slot fd = none ∧
      (∀ i, bound ≤ i → i < fd → t.slot i ≠ none) ∧ fd < t'.fd_table.length := by
  unfold alloc_fd_from at allocated
  split_ifs at allocated
  dsimp only at allocated
  split at allocated
  · rename_i found
    cases allocated
    obtain ⟨low, high, empty, below⟩ := findEmpty_eq_some_iff.mp found
    rw [slot_reach small] at empty below
    exact ⟨slot_reach small, low, empty, below, high⟩
  · -- every slot from `bound` on is taken: the slot pushed at the end is handed out
    rename_i full
    have reached := length_reach (t := t) small
    have taken := findEmpty_eq_none_iff.mp full
    rw [slot_reach small] at taken
    split_ifs at allocated
    cases allocated
    refine ⟨?_, by omega, ?_, fun i low high => taken i low high, by simp⟩
    · funext fd
      rw [← slot_reach (t := t) small]
      exact getD_append_replicate_none _ 1 fd
    · simp only [slot, List.getD_eq_getElem?_getD]
      rw [List.getElem?_eq_none (by omega), Option.getD_none]

theorem slot_eq_none_of_le {fd : ℕ} (beyond : t.fd_table.length ≤ fd) : t.slot fd = none := by
  simp only [slot, List.getD_eq_getElem?_getD]
  rw [List.getElem?_eq_none beyond, Option.getD_none]

/-- A bound at or past the end of the table, and within the limit, is handed out as it is. -/
theorem alloc_fd_from_of_le {bound : ℕ} (beyond : t.fd_table.length ≤ bound)
    (within : bound ≤ t.rlimit.rlim_max) (small : bound + 1 < 2 ^ 64) :
    t.alloc_fd_from bound = .ok (bound, t.reach bound) := by
  have found : (t.reach bound).findEmpty bound (t.reach bound).fd_table.length = some bound := by
    rw [findEmpty_eq_some_iff, length_reach small, slot_reach small]
    exact ⟨le_rfl, by omega, slot_eq_none_of_le beyond, fun i low high => by omega⟩
  simp only [alloc_fd_from, if_neg (show ¬bound > t.rlimit.rlim_max by omega), found]

theorem slot_set {fd : ℕ} (inRange : fd < t.fd_table.length) (info : Option FdInfo) :
    ({ t with fd_table := t.fd_table.set fd info } : FdTable).slot = Function.update t.slot fd info := by
  funext i
  simp only [slot, List.getD_eq_getElem?_getD, List.getElem?_set, Function.update]
  by_cases same : fd = i
  · subst same
    simp [inRange]
  · simp [same, Ne.symm same]

/-- `dup3` puts the old descriptor's file in slot `newFd` and changes no other slot; it grows the
table to hold `newFd` whatever the limit says. -/
theorem dup3_eq {oldFd newFd file : ℕ} (flags : FdFlags) (found : t.get_file oldFd = .ok file)
    (small : newFd + 1 < 2 ^ 64) :
    ∃ t', t.dup3 oldFd newFd flags = .ok (newFd, t') ∧
      t'.slot = Function.update t.slot newFd (some ⟨file, flags⟩) ∧
      t'.fd_table.length = max t.fd_table.length (newFd + 1) ∧ t'.rlimit = t.rlimit := by
  obtain ⟨grown, grew, slots, length, limit⟩ : ∃ grown, t.growTo newFd = .ok grown ∧
      grown.slot = t.slot ∧ grown.fd_table.length = max t.fd_table.length (newFd + 1) ∧
      grown.rlimit = t.rlimit := by
    by_cases short : t.fd_table.length ≤ newFd
    · rw [growTo, if_pos short, if_pos small]
      refine ⟨_, rfl, funext (slot_resize_of_le t.fd_table (by omega)), ?_, rfl⟩
      simp [List.resize]
      omega
    · rw [growTo, if_neg short]
      exact ⟨t, rfl, rfl, by omega, rfl⟩
  refine ⟨{ grown with fd_table := grown.fd_table.set newFd (some ⟨file, flags⟩) }, ?_, ?_, ?_, limit⟩
  · simp only [dup3, found, grew]
    rfl
  · rw [slot_set (by omega), slots]
  · rw [List.length_set, length]

theorem put_file_of_lt {fd : ℕ} (inRange : fd < t.fd_table.length) (info : FdInfo) :
    t.put_file fd info = .ok { t with fd_table := t.fd_table.set fd (some info) } := by
  rw [put_file, if_neg (by omega)]

/-- `dup_with_bound` puts the old descriptor's file in the slot `alloc_fd_from` hands out. -/
theorem dup_with_bound_eq {oldFd bound fd file : ℕ} (flags : FdFlags)
    (found : t.get_file oldFd = .ok file) (small : bound + 1 < 2 ^ 64)
    (allocated : t.alloc_fd_from bound = .ok (fd, t')) :
    t.dup_with_bound oldFd bound flags =
      .ok (fd, { t' with fd_table := t'.fd_table.set fd (some ⟨file, flags⟩) }) := by
  have inRange := (alloc_fd_from_lowest small allocated).2.2.2.2
  simp only [dup_with_bound, found, allocated]
  change t'.put_file fd ⟨file, flags⟩ >>= (fun t => pure (fd, t)) = _
  rw [put_file_of_lt inRange]
  rfl

end FdTable

/-- From `FdTable::new()`, `sys_dup3(0, 1024, 0)` hands out descriptor 1024 and leaves 1025
slots under a limit of 1024; `fcntl(0, F_DUPFD, 1024)`, through `dup_with_bound`, hands out
descriptor 1024 as well. -/
theorem fdTable_dup3_exceeds_rlimit (tty : ℕ) :
    (∃ t, sys_dup3 (FdTable.new tty) 0 MAX_FDS 0 = .ok (MAX_FDS, t) ∧
      t.rlimit.rlim_max = MAX_FDS ∧ t.fd_table.length = MAX_FDS + 1) ∧
    (∃ t, (FdTable.new tty).dup_with_bound 0 MAX_FDS FdFlags.empty = .ok (MAX_FDS, t) ∧
      t.rlimit.rlim_max = MAX_FDS) := by
  have stdin : (FdTable.new tty).get_file 0 = .ok tty := rfl
  constructor
  · obtain ⟨t, duped, -, length, limit⟩ :=
      FdTable.dup3_eq (t := FdTable.new tty) (FdFlags.ofOpenFlags ⟨0⟩) stdin
        (show MAX_FDS + 1 < 2 ^ 64 by decide)
    refine ⟨t, ?_, by rw [limit]; rfl, by rw [length]; rfl⟩
    have valid : OpenFlags.from_bits 0 = some ⟨0⟩ := by decide
    simp only [sys_dup3, valid]
    exact duped
  · have allocated := FdTable.alloc_fd_from_of_le (t := FdTable.new tty)
      (show (FdTable.new tty).fd_table.length ≤ MAX_FDS by simp [FdTable.new, MAX_FDS]) le_rfl
      (by decide)
    exact ⟨_, FdTable.dup_with_bound_eq FdFlags.empty stdin (by decide) allocated, rfl⟩

end Chronix
