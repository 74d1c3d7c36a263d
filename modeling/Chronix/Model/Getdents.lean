import Mathlib
import Chronix.Model.Dentry
import Chronix.Model.FileSeek
import Chronix.ToMathlib.Slice
import Chronix.ToMathlib.Bytes

/-! # Reading a directory

`sys_getdents64` (`syscall/fs.rs`) lists the children of the directory open at `fd` into the
user's buffer of `len` bytes, as `linux_dirent64` records. `TmpDentry::load_child_dentry`
(`fs/tmpfs/dentry.rs`) gives the children that are not negative, in the order of the `BTreeMap`
that holds them by name; the loop skips as many as the file position says, and for each child
writes a record at the bytes written so far if it fits in `len`, and moves the position on by
one with `seek(SeekFrom::Current(1))`. The first record that does not fit ends the loop.

A record is laid out by hand: the 24 bytes of the `repr(C)` struct `LinuxDirent64` are copied
to its start, the name is copied over them from byte `LEN_BEFORE_NAME` = 19 on, then a NUL, and
its length is rounded up to 8 with `& !0x7`. The bytes of the record after the NUL keep what the
copy or the user's buffer had there. Fields are little-endian, as on the kernel's targets.

A child is what the loop reads of an `Arc<dyn Dentry>`: its name, as the bytes of the `String`,
its state and its inode's number and `InodeMode` bits. The buffer is the list of the user's
bytes, `none` when `ensure_write` fails; the open file is a `SeekFile`, and a failed `get_file`
is its error. A panic (`unwrap` on `None`) is `none`.
-/

namespace Chronix

/-- `InodeMode::TYPE_MASK`. -/
def InodeMode.TYPE_MASK : ℕ := 0o170000

/-- The `InodeMode` bits of the file types the model keeps. -/
def InodeMode.bits : InodeMode → ℕ
  | .DIR => 0o040000
  | .FILE => 0o100000

/-- What `sys_getdents64` reads of a child's inode: `ino` and the bits of its `InodeMode`. -/
structure DirInode where
  ino : ℕ
  mode : ℕ
deriving DecidableEq, Repr

/-- A child dentry as `sys_getdents64` reads it: its name, its state and its inode. -/
structure ChildDentry where
  name : List UInt8
  state : DentryState
  inode : Option DirInode
deriving DecidableEq, Repr

/-- A tmpfs dentry as `load_child_dentry` reads it: its inode and its children, in the order of
the `BTreeMap` of children. -/
structure DirDentry where
  inode : Option DirInode
  children : List ChildDentry
deriving DecidableEq, Repr

/-- `TmpDentry::load_child_dentry`: `ENOTDIR` when the inode's type does not contain `DIR`, else
the children that are not negative. -/
def DirDentry.load_child_dentry (d : DirDentry) : Except SysError (List ChildDentry) :=
  match d.inode with
  | some inode =>
    if inode.mode &&& InodeMode.TYPE_MASK &&& InodeMode.DIR.bits ≠ InodeMode.DIR.bits then
      .error .ENOTDIR
    else .ok (d.children.filter fun child => child.state ≠ .NEGATIVE)
  | none => .ok (d.children.filter fun child => child.state ≠ .NEGATIVE)

def LEN_BEFORE_NAME : ℕ := 19

/-- `LinuxDirent64`, each field already cast to its width. -/
structure LinuxDirent64 where
  d_ino : ℕ
  d_off : ℕ
  d_reclen : ℕ
  d_type : ℕ
deriving DecidableEq, Repr

/-- The 24 bytes that `copy_from_nonoverlapping` copies of a `LinuxDirent64`: `d_ino` and `d_off`
as 8 bytes, `d_reclen` as 2 and `d_type` as 1, then the 5 bytes of padding of the `repr(C)`
struct, whose value the source leaves unspecified and the model takes as 0. -/
def LinuxDirent64.bytes (d : LinuxDirent64) : List UInt8 :=
  Nat.leBytes 8 d.d_ino ++ Nat.leBytes 8 d.d_off ++ Nat.leBytes 2 d.d_reclen ++
    Nat.leBytes 1 d.d_type ++ List.replicate 5 0

/-- The length of a child's record: `(LEN_BEFORE_NAME + c_name_len + 7) & !0x7`. The name is a
`String` in memory, so the sum does not wrap. -/
def recLen (name : List UInt8) : ℕ := (LEN_BEFORE_NAME + (name.length + 1) + 7) &&& (2 ^ 64 - 8)

/-- The loop of `sys_getdents64` over the children after the position, with `writen_len` bytes
written. The source writes through `buf_it`, the buffer from `writen_len` on; here the same
writes are at `writen_len` plus the source's index. The header copy is an unchecked raw copy,
which stays inside the record because every record has at least 24 bytes. -/
def getdentsLoop (len : ℕ) : List ChildDentry → List UInt8 → SeekFile → ℕ →
    ExceptT SysError Option (List UInt8 × SeekFile × ℕ)
  | [], buf, file, writen_len => pure (buf, file, writen_len)
  | child :: dents, buf, file, writen_len => do
    let name := child.name
    let c_name_len := name.length + 1
    let rec_len := recLen name
    let inode ← unwrap child.inode
    let linux_dirent : LinuxDirent64 :=
      ⟨inode.ino % 2 ^ 64, file.pos % 2 ^ 64, rec_len % 2 ^ 16, inode.mode % 2 ^ 8⟩
    if writen_len + rec_len > len then pure (buf, file, writen_len)
    else
      let sought ← ExceptT.mk (some (file.seek (.Current 1)))
      let buf ← unwrap (buf.copyFromSlice? writen_len (writen_len + 24) linux_dirent.bytes)
      let buf ← unwrap (buf.copyFromSlice? (writen_len + LEN_BEFORE_NAME)
        (writen_len + LEN_BEFORE_NAME + c_name_len - 1) name)
      let buf ← unwrap (buf.set? (writen_len + LEN_BEFORE_NAME + c_name_len - 1) 0)
      getdentsLoop len dents buf sought.2 (writen_len + rec_len)

/-- `sys_getdents64` on the user's buffer, the file at `fd` and its dentry: the length written,
the buffer after and the file after. -/
def sys_getdents64 (buf : Option (List UInt8)) (file : Except SysError SeekFile)
    (dentry : Option DirDentry) : ExceptT SysError Option (ℕ × List UInt8 × SeekFile) := do
  let some buf_slice := buf | throw .EINVAL
  let file ← ExceptT.mk (some file)
  let dentry ← unwrap dentry
  let dents ← ExceptT.mk (some dentry.load_child_dentry)
  let written ← getdentsLoop buf_slice.length (dents.drop file.pos) buf_slice file 0
  pure (written.2.2, written.1, written.2.1)

end Chronix
