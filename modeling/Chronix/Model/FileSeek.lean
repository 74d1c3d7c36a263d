import Mathlib
import Chronix.Model.Addr
import Chronix.Model.SysError

/-! # `lseek` and the file position

`File::seek` (`fs/vfs/file.rs`) moves the position of an open file from the start, the current
position or the size `getattr` reports, and `sys_lseek` (`syscall/fs.rs`) casts its `isize`
offset for the three whences and casts the new position back to an `isize`. The arithmetic is
on `usize` and `i64` as the release build does it: a `usize` wraps modulo `2 ^ 64`, an `i64`
wraps into `[-2 ^ 63, 2 ^ 63)` (`Int.bmod`), `off.abs()` of `i64::MIN` is `i64::MIN`, and
`as` reinterprets the 64 bits. An open file is what `seek` reads of it: `pos()` and `size()`.

`PosixLseek` is the behaviour POSIX asks for, with the new offset computed in the integers.
-/

namespace Chronix

/-- `value as isize` (or `as i64`) for a `usize`: the top half of the range is negative. -/
def isizeOfUsize (value : ℕ) : ℤ := (value : ℤ).bmod (2 ^ 64)

/-- `value as usize` (or `as u64`) for an `isize`: a negative value wraps to the top half. -/
def usizeOfIsize (value : ℤ) : ℕ := (value % 2 ^ 64).toNat

/-- `i64` arithmetic of the release build wraps into `[-2 ^ 63, 2 ^ 63)`. -/
def i64Wrap (value : ℤ) : ℤ := value.bmod (2 ^ 64)

/-- `i64::abs`, which wraps `i64::MIN` to itself. -/
def i64Abs (value : ℤ) : ℤ := i64Wrap |value|

/-- `SeekFrom`. -/
inductive SeekFrom
  | Start (off : ℕ)
  | End (off : ℤ)
  | Current (off : ℤ)
deriving DecidableEq, Repr

/-- The whences of `sys_lseek`. -/
inductive Whence
  | SeekSet
  | SeekCur
  | SeekEnd
  | SeekData
  | SeekHold
deriving DecidableEq, Repr

/-- `Whence::from_repr`. -/
def Whence.fromRepr : ℕ → Option Whence
  | 0 => some .SeekSet
  | 1 => some .SeekCur
  | 2 => some .SeekEnd
  | 3 => some .SeekData
  | 4 => some .SeekHold
  | _ => none

/-- What `File::seek` reads of an open file: the position and the size. -/
structure SeekFile where
  pos : ℕ
  size : ℕ
deriving DecidableEq, Repr

namespace SeekFile

/-- `File::seek`: the new position, which it also stores. A negative `Current` offset is checked
against the position as an `i64`; a negative `End` offset is not checked. -/
def seek (file : SeekFile) : SeekFrom → Except SysError (ℕ × SeekFile)
  | .Current off =>
    if off < 0 then
      if i64Wrap (isizeOfUsize file.pos - i64Abs off) < 0 then .error .EINVAL
      else
        let pos := usizeSub file.pos (usizeOfIsize (i64Abs off))
        .ok (pos, { file with pos })
    else
      let pos := usizeWrap (file.pos + usizeOfIsize off)
      .ok (pos, { file with pos })
  | .Start off => .ok (off, { file with pos := off })
  | .End off =>
    let pos :=
      if off < 0 then usizeSub file.size (usizeOfIsize (i64Abs off))
      else usizeWrap (file.size + usizeOfIsize off)
    .ok (pos, { file with pos })

end SeekFile

/-- `sys_lseek` on an open file: the returned `isize` and the file after. -/
def sysLseek (file : SeekFile) (offset : ℤ) (whence : ℕ) : Except SysError (ℤ × SeekFile) := do
  let some whence := Whence.fromRepr whence | .error .EINVAL
  let (ret, file) ← match whence with
    | .SeekSet => file.seek (.Start (usizeOfIsize offset))
    | .SeekCur => file.seek (.Current offset)
    | .SeekEnd => file.seek (.End offset)
    | _ => .error .EINVAL
  pure (isizeOfUsize ret, file)

/-! ## What POSIX asks of `lseek` -/

/-- The new offset of `lseek` in the integers: the offset itself for `SEEK_SET` (0), added to the
position for `SEEK_CUR` (1) and to the size for `SEEK_END` (2). -/
def lseekTarget (file : SeekFile) (offset : ℤ) : ℕ → ℤ
  | 1 => file.pos + offset
  | 2 => file.size + offset
  | _ => offset

/-- The result POSIX asks of `lseek` with a whence that seeks: `EINVAL` below zero, an error
past `i64::MAX`, and otherwise the new offset, stored as the position. -/
def PosixLseek (file : SeekFile) (offset : ℤ) (whence : ℕ)
    (result : Except SysError (ℤ × SeekFile)) : Prop :=
  (lseekTarget file offset whence < 0 → result = .error .EINVAL) ∧
  (2 ^ 63 ≤ lseekTarget file offset whence → ∃ error, result = .error error) ∧
  (0 ≤ lseekTarget file offset whence → lseekTarget file offset whence < 2 ^ 63 →
    result = .ok (lseekTarget file offset whence,
      { file with pos := (lseekTarget file offset whence).toNat }))

end Chronix
