import Mathlib
import Chronix.Model.Mm
import Chronix.Soundness.PageTableEntry

/-! # The entries a protection turns into

`MapPerm::from(MmapProt)` always adds `U` and copies `PROT_READ`, `PROT_WRITE` and `PROT_EXEC`
to `R`, `W` and `X`; `PTEFlags::from` and `PageTableEntry::new` carry them to bits 1 to 3, and
`PageTable::map` sets `V`. So the entry written for a page of an area with protection `prot`
has its `R`, `W` and `X` bits exactly as `prot` has them (`entry_of_mmapProt`). Nothing turns
the two encodings that Sv39 does not allow for a user leaf away: `PROT_WRITE` alone gives a
valid entry with `W` and without `R`, which the hardware reserves, and `PROT_NONE` a valid
entry with none of `R`, `W`, `X`, which it reads as a pointer to a next-level table.
`sys_mprotect` re-pushes the area with the new permission, and `push_area` maps every frame the
area already has with it.
-/

namespace Chronix

open Constant PageTableEntry

/-- The flags of the permission of `prot`, with `V`: `V` and `U` set, `R`, `W`, `X` as
`prot`. -/
theorem flagsOf_mmapProt (prot : ℕ) :
    (flagsOf (MapPerm.ofMmapProt (MmapProt.fromBitsTruncate prot)) ||| 1).testBit 0 = true ∧
      (flagsOf (MapPerm.ofMmapProt (MmapProt.fromBitsTruncate prot)) ||| 1).testBit 4 = true ∧
      (flagsOf (MapPerm.ofMmapProt (MmapProt.fromBitsTruncate prot)) ||| 1).testBit 1 =
        prot.testBit 0 ∧
      (flagsOf (MapPerm.ofMmapProt (MmapProt.fromBitsTruncate prot)) ||| 1).testBit 2 =
        prot.testBit 1 ∧
      (flagsOf (MapPerm.ofMmapProt (MmapProt.fromBitsTruncate prot)) ||| 1).testBit 3 =
        prot.testBit 2 := by
  -- only the three low bits of `prot` count, so eight cases decide it
  have low : MmapProt.fromBitsTruncate prot = ⟨prot % 8⟩ := by
    rw [MmapProt.fromBitsTruncate, show (0x7 : ℕ) = 2 ^ 3 - 1 from rfl,
      Nat.and_two_pow_sub_one_eq_mod]
  have bit (i : ℕ) (below : i < 3) : prot.testBit i = (prot % 8).testBit i := by
    rw [show (8 : ℕ) = 2 ^ 3 from rfl, Nat.testBit_mod_two_pow, decide_eq_true below, Bool.true_and]
  have cases : ∀ r < 8,
      (flagsOf (MapPerm.ofMmapProt ⟨r⟩) ||| 1).testBit 0 = true ∧
        (flagsOf (MapPerm.ofMmapProt ⟨r⟩) ||| 1).testBit 4 = true ∧
        (flagsOf (MapPerm.ofMmapProt ⟨r⟩) ||| 1).testBit 1 = r.testBit 0 ∧
        (flagsOf (MapPerm.ofMmapProt ⟨r⟩) ||| 1).testBit 2 = r.testBit 1 ∧
        (flagsOf (MapPerm.ofMmapProt ⟨r⟩) ||| 1).testBit 3 = r.testBit 2 := by
    decide
  rw [low, bit 0 (by decide), bit 1 (by decide), bit 2 (by decide)]
  exact cases (prot % 8) (Nat.mod_lt _ (by decide))

/-- The entry `PageTable::map` writes for a frame within `PPN_WIDTH` and the permission of
`prot`: valid, user, and with `R`, `W`, `X` exactly the bits `PROT_READ`, `PROT_WRITE`,
`PROT_EXEC` of `prot`, for every `prot`. -/
theorem entry_of_mmapProt {ppn : PhysPageNum} (small : ppn.val < 2 ^ PPN_WIDTH) (prot : ℕ) :
    isValid (setValid (new ppn (MapPerm.ofMmapProt (MmapProt.fromBitsTruncate prot)))) = true ∧
      (setValid (new ppn (MapPerm.ofMmapProt (MmapProt.fromBitsTruncate prot)))).testBit 4 = true ∧
      (setValid (new ppn (MapPerm.ofMmapProt (MmapProt.fromBitsTruncate prot)))).testBit 1 =
        prot.testBit 0 ∧
      (setValid (new ppn (MapPerm.ofMmapProt (MmapProt.fromBitsTruncate prot)))).testBit 2 =
        prot.testBit 1 ∧
      (setValid (new ppn (MapPerm.ofMmapProt (MmapProt.fromBitsTruncate prot)))).testBit 3 =
        prot.testBit 2 := by
  have low := flagsOf_lt (MapPerm.ofMmapProt (MmapProt.fromBitsTruncate prot))
  rw [isValid, setValid_new small, testBit_mul_add low (by decide), testBit_mul_add low (by decide),
    testBit_mul_add low (by decide), testBit_mul_add low (by decide), testBit_mul_add low (by decide)]
  exact flagsOf_mmapProt prot

/-- A private anonymous read-write area of one page at `0x10000`, with a frame at its page, as
after a write fault. -/
def faultedArea : UserVmArea :=
  { UserVmArea.newMmap ⟨⟨0x10000⟩, ⟨0x11000⟩⟩ ((MapPerm.U.union .R).union .W) .MAP_PRIVATE .None
      0x10000 4096 with
    frames := SortedMap.empty.insert ⟨0x10⟩ ⟨42⟩ }

def faultedSpace : UserVmSpace := (UserVmSpace.new.pushArea faultedArea).getD .new

/-- `mprotect(0x10000, 4096, PROT_WRITE)` on `faultedSpace` maps frame 42 at the page with the
permission of `PROT_WRITE`, and the entry for it is valid, writable and not readable. -/
theorem entry_of_mmapProt_faultedSpace :
    (⟨42⟩ : PhysPageNum).val < 2 ^ PPN_WIDTH ∧
      (sysMprotect faultedSpace ⟨0x10000⟩ 4096 2).map (fun result => result.2.pageTable ⟨0x10⟩) =
        some (some (⟨42⟩, MapPerm.ofMmapProt (MmapProt.fromBitsTruncate 2))) ∧
      isValid (setValid (new ⟨42⟩ (MapPerm.ofMmapProt (MmapProt.fromBitsTruncate 2)))) = true ∧
      (setValid (new ⟨42⟩ (MapPerm.ofMmapProt (MmapProt.fromBitsTruncate 2)))).testBit 2 = true ∧
      (setValid (new ⟨42⟩ (MapPerm.ofMmapProt (MmapProt.fromBitsTruncate 2)))).testBit 1 = false := by
  have small : (⟨42⟩ : PhysPageNum).val < 2 ^ PPN_WIDTH := by decide
  obtain ⟨valid, -, readable, writable, -⟩ := entry_of_mmapProt small 2
  exact ⟨small, by decide +kernel, valid, writable, readable⟩

end Chronix
