import Mathlib

/-! # A regular file as a byte array

The reference the page caches of tmpfs and ext4 should implement is a byte array `F`: a write
overwrites `F[off..off + len]` and pads with zeros up to `off`, a truncate cuts `F` or pads it
with zeros, and a read returns `min(buf.len(), |F| - off)` bytes of `F`. lwext4's file is this
byte array too, as the ext4 inode sees it through `file_read`, `file_write`, `file_truncate` and
`file_size`. `run` answers a list of requests, as the reference a cached file is compared with.

The lemmas read each operation pointwise: its length, and the byte at every position, with
`getD` and zero past the end.
-/

namespace Chronix

namespace ByteFile

/-- A write of `buf` at `off`, padding with zeros up to `off`. -/
def write (file : List UInt8) (off : ℕ) (buf : List UInt8) : List UInt8 :=
  let padded := file ++ List.replicate (off + buf.length - file.length) 0
  padded.take off ++ buf ++ padded.drop (off + buf.length)

/-- A truncate to `n` bytes, cutting or padding with zeros. -/
def truncate (file : List UInt8) (n : ℕ) : List UInt8 :=
  file.take n ++ List.replicate (n - file.length) 0

/-- A read of `min(buf.len(), |F| - off)` bytes at `off` into the front of `buf`. -/
def read (file : List UInt8) (off : ℕ) (buf : List UInt8) : ℕ × List UInt8 :=
  (min buf.length (file.length - off),
    (file.drop off).take (min buf.length (file.length - off)) ++
      buf.drop (min buf.length (file.length - off)))

end ByteFile

/-- A request on a regular file: a read or a write at an offset, a truncate, or a flush of what
is cached back to the disk. -/
inductive FileOp
  | read (offset : ℕ) (buf : List UInt8)
  | write (offset : ℕ) (buf : List UInt8)
  | truncate (size : ℕ)
  | flush
deriving DecidableEq, Repr

namespace ByteFile

/-- A run of requests on the byte array: what each read returned, and the array after. A flush
changes nothing. -/
def run : List UInt8 → List FileOp → List (ℕ × List UInt8) × List UInt8
  | file, [] => ([], file)
  | file, .read offset buf :: ops => (read file offset buf :: (run file ops).1, (run file ops).2)
  | file, .write offset buf :: ops => run (write file offset buf) ops
  | file, .truncate size :: ops => run (truncate file size) ops
  | file, .flush :: ops => run file ops

variable (file : List UInt8)

@[simp] theorem length_write (off : ℕ) (buf : List UInt8) :
    (write file off buf).length = max file.length (off + buf.length) := by
  simp only [write, List.length_append, List.length_take, List.length_drop, List.length_replicate]
  omega

theorem getD_write (off : ℕ) (buf : List UInt8) (i : ℕ) :
    (write file off buf).getD i 0 =
      if off ≤ i ∧ i < off + buf.length then buf.getD (i - off) 0 else file.getD i 0 := by
  simp only [write, List.getD_eq_getElem?_getD]
  split_ifs with inside
  · rw [List.append_assoc, List.getElem?_append_right (by simp; omega),
      List.getElem?_append_left (by simp; omega)]
    congr 2
    simp only [List.length_take, List.length_append, List.length_replicate]
    omega
  · rcases Nat.lt_or_ge i off with before | after
    · rw [List.append_assoc, List.getElem?_append_left (by simp; omega), List.getElem?_take,
        if_pos before, List.getElem?_append]
      split_ifs with inFile
      · rfl
      · rw [List.getElem?_replicate_of_lt (by omega), List.getElem?_eq_none (by omega)]
        rfl
    · have beyond : off + buf.length ≤ i := by omega
      rw [List.getElem?_append_right (by simp; omega), List.getElem?_drop]
      simp only [List.length_append, List.length_take, List.length_replicate]
      rw [show off + buf.length + (i - (min off (file.length +
          (off + buf.length - file.length)) + buf.length)) = i by omega, List.getElem?_append]
      split_ifs with inFile
      · rfl
      · rw [List.getElem?_eq_none (by omega : file.length ≤ i), List.getElem?_replicate]
        split_ifs <;> rfl

@[simp] theorem length_read (off : ℕ) (buf : List UInt8) :
    (read file off buf).2.length = buf.length := by
  simp only [read, List.length_append, List.length_take, List.length_drop]
  omega

theorem getD_read (off : ℕ) (buf : List UInt8) (j : ℕ) :
    (read file off buf).2.getD j 0 =
      if j < (read file off buf).1 then file.getD (off + j) 0 else buf.getD j 0 := by
  simp only [read, List.getD_eq_getElem?_getD, List.getElem?_append, List.length_take,
    List.length_drop, List.getElem?_take, List.getElem?_drop]
  -- the bytes read from the file, then the rest of the buffer as it was
  split_ifs with before read
  · rfl
  · omega
  · omega
  · congr 2
    omega

@[simp] theorem length_truncate (n : ℕ) : (truncate file n).length = n := by
  simp only [truncate, List.length_append, List.length_take, List.length_replicate]
  omega

theorem getD_truncate (n i : ℕ) :
    (truncate file n).getD i 0 = if i < n then file.getD i 0 else 0 := by
  simp only [truncate, List.getD_eq_getElem?_getD, List.getElem?_append, List.length_take,
    List.getElem?_take, List.getElem?_replicate]
  split_ifs <;> first
    | rfl
    | (rw [List.getElem?_eq_none (by omega)]; rfl)
    | omega

end ByteFile

end Chronix
