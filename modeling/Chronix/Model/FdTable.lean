import Mathlib
import Chronix.Model.Addr
import Chronix.Model.SysError
import Chronix.ToMathlib.Slice

/-! # The file descriptor table

`task/fs.rs`: a task's `FdTable` is a vector of slots, each empty or holding an open file with
its descriptor flags, and the `RLIMIT_NOFILE` limit. An open file is named by the identity of
the `Arc<dyn File>` a slot holds. `OpenFlags` (`fs/mod.rs`) is the bit set of `open` flags; its
`from_bits` accepts a word only when every bit of it is a named flag.

Every method that returns an error does so before it changes the table, so a result is the
new table and the value, or the error.
-/

namespace Chronix

/-- `OpenFlags`: the bits of an `open` flags word. -/
structure OpenFlags where
  bits : ℕ
deriving DecidableEq, Repr

namespace OpenFlags

def O_WRONLY : ℕ := 1
def O_RDWR : ℕ := 2
def O_ACCMODE : ℕ := 3
def O_CREAT : ℕ := 0o100
def O_EXCL : ℕ := 0o200
def O_NOCTTY : ℕ := 0o400
def O_TRUNC : ℕ := 0o1000
def O_APPEND : ℕ := 0o2000
def O_NONBLOCK : ℕ := 0o4000
def O_DSYNC : ℕ := 0o10000
def O_SYNC : ℕ := 0o4010000
def O_RSYNC : ℕ := 0o4010000
def O_DIRECTORY : ℕ := 0o200000
def O_NOFOLLOW : ℕ := 0o400000
def O_CLOEXEC : ℕ := 0o2000000
def O_ASYNC : ℕ := 0o20000
def O_DIRECT : ℕ := 0o40000
def O_LARGEFILE : ℕ := 0o100000
def O_NOATIME : ℕ := 0o1000000
def O_PATH : ℕ := 0o10000000
def O_TMPFILE : ℕ := 0o20200000

/-- The union of the named flags, `OpenFlags::all()`. -/
def all : ℕ :=
  [O_WRONLY, O_RDWR, O_ACCMODE, O_CREAT, O_EXCL, O_NOCTTY, O_TRUNC, O_APPEND, O_NONBLOCK,
    O_DSYNC, O_SYNC, O_RSYNC, O_DIRECTORY, O_NOFOLLOW, O_CLOEXEC, O_ASYNC, O_DIRECT, O_LARGEFILE,
    O_NOATIME, O_PATH, O_TMPFILE].foldl (· ||| ·) 0

/-- `OpenFlags::from_bits`: `none` when a bit of the word is not a named flag. -/
def from_bits (bits : ℕ) : Option OpenFlags :=
  if bits &&& all = bits then some ⟨bits⟩ else none

def contains (flags : OpenFlags) (flag : ℕ) : Bool := flags.bits &&& flag = flag

end OpenFlags

/-- `FdFlags`: the close-on-exec bit. -/
structure FdFlags where
  CLOEXEC : Bool
deriving DecidableEq, Repr

namespace FdFlags

def empty : FdFlags := ⟨false⟩

/-- `From<OpenFlags> for FdFlags`. -/
def ofOpenFlags (flags : OpenFlags) : FdFlags := ⟨flags.contains OpenFlags.O_CLOEXEC⟩

end FdFlags

/-- `FdInfo`: the open file a slot holds and the descriptor's flags. -/
structure FdInfo where
  file : ℕ
  flags : FdFlags
deriving DecidableEq, Repr

/-- `RLimit`. -/
structure RLimit where
  rlim_cur : ℕ
  rlim_max : ℕ
deriving DecidableEq, Repr

/-- `FdTable`. -/
structure FdTable where
  fd_table : List (Option FdInfo)
  rlimit : RLimit
deriving DecidableEq, Repr

/-- `MAX_FDS`. -/
def MAX_FDS : ℕ := 1024

namespace FdTable

/-- `FdTable::new`: the terminal in the three stdio slots, the limit `MAX_FDS`. -/
def new (tty : ℕ) : FdTable where
  fd_table := List.replicate 3 (some ⟨tty, FdFlags.empty⟩)
  rlimit := ⟨MAX_FDS, MAX_FDS⟩

/-- The slot `fd`, empty past the end. -/
def slot (t : FdTable) (fd : ℕ) : Option FdInfo := t.fd_table.getD fd none

/-- `(lo..hi).find(|fd| self.fd_table[*fd].is_none())`. -/
def findEmpty (t : FdTable) (lo hi : ℕ) : Option ℕ :=
  (List.range' lo (hi - lo)).find? fun fd => (t.slot fd).isNone

/-- `FdTable::alloc_fd`: the lowest empty slot, else one pushed below the limit. -/
def alloc_fd (t : FdTable) : Except SysError (ℕ × FdTable) :=
  match t.findEmpty 0 t.fd_table.length with
  | some fd => .ok (fd, t)
  | none =>
    if t.fd_table.length < t.rlimit.rlim_max then
      .ok (t.fd_table.length, { t with fd_table := t.fd_table ++ [none] })
    else .error .EMFILE

/-- The table grown to hold slot `bound`, as `alloc_fd_from` grows it; `bound + 1` wraps. -/
def reach (t : FdTable) (bound : ℕ) : FdTable :=
  if t.fd_table.length ≤ bound then
    { t with fd_table := t.fd_table.resize (usizeWrap (bound + 1)) none }
  else t

/-- `FdTable::alloc_fd_from`: the lowest empty slot from `bound` on, growing the table to reach
`bound`, else one pushed below the limit. -/
def alloc_fd_from (t : FdTable) (bound : ℕ) : Except SysError (ℕ × FdTable) :=
  if bound > t.rlimit.rlim_max then .error .EMFILE else
  let t := t.reach bound
  match t.findEmpty bound t.fd_table.length with
  | some fd => .ok (fd, t)
  | none =>
    if t.fd_table.length < t.rlimit.rlim_max then
      .ok (t.fd_table.length, { t with fd_table := t.fd_table ++ [none] })
    else .error .EMFILE

/-- `FdTable::get_fd_info`. -/
def get_fd_info (t : FdTable) (fd : ℕ) : Except SysError FdInfo :=
  if fd ≥ t.fd_table.length then .error .EBADF
  else match t.slot fd with
    | some fdInfo => .ok fdInfo
    | none => .error .EBADF

/-- `FdTable::get_file`. -/
def get_file (t : FdTable) (fd : ℕ) : Except SysError ℕ :=
  (t.get_fd_info fd).map FdInfo.file

/-- `FdTable::put_file`. -/
def put_file (t : FdTable) (fd : ℕ) (fdInfo : FdInfo) : Except SysError FdTable :=
  if fd ≥ t.fd_table.length then .error .EBADF
  else .ok { t with fd_table := t.fd_table.set fd (some fdInfo) }

/-- `FdTable::remove`. -/
def remove (t : FdTable) (fd : ℕ) : Except SysError FdTable :=
  if fd ≥ t.fd_table.length then .error .EBADF
  else if (t.slot fd).isNone then .error .EBADF
  else .ok { t with fd_table := t.fd_table.set fd none }

/-- `FdTable::dup_with_bound`. -/
def dup_with_bound (t : FdTable) (oldFd bound : ℕ) (flags : FdFlags) :
    Except SysError (ℕ × FdTable) := do
  let file ← t.get_file oldFd
  let (newFd, t) ← t.alloc_fd_from bound
  let t ← t.put_file newFd ⟨file, flags⟩
  pure (newFd, t)

/-- `FdTable::dup_no_flag`. -/
def dup_no_flag (t : FdTable) (oldFd : ℕ) : Except SysError (ℕ × FdTable) := do
  let file ← t.get_file oldFd
  let (newFd, t) ← t.alloc_fd_from 0
  let t ← t.put_file newFd ⟨file, FdFlags.empty⟩
  pure (newFd, t)

/-- The table grown to hold slot `newFd`, as `dup3` and `dup3_with_flags` grow it:
`new_fd.checked_add(1)` fails only at the largest `usize`. -/
def growTo (t : FdTable) (newFd : ℕ) : Except SysError FdTable :=
  if t.fd_table.length ≤ newFd then
    if newFd + 1 < 2 ^ 64 then .ok { t with fd_table := t.fd_table.resize (newFd + 1) none }
    else .error .EMFILE
  else .ok t

/-- `FdTable::dup3`: slot `newFd` gets the file of `oldFd` with the given flags. -/
def dup3 (t : FdTable) (oldFd newFd : ℕ) (flags : FdFlags) : Except SysError (ℕ × FdTable) := do
  let file ← t.get_file oldFd
  let t ← t.growTo newFd
  pure (newFd, { t with fd_table := t.fd_table.set newFd (some ⟨file, flags⟩) })

/-- `FdTable::dup3_with_flags`: slot `newFd` gets the slot `oldFd`, flags included. -/
def dup3_with_flags (t : FdTable) (oldFd newFd : ℕ) : Except SysError (ℕ × FdTable) := do
  let fdInfo ← t.get_fd_info oldFd
  let t ← t.growTo newFd
  pure (newFd, { t with fd_table := t.fd_table.set newFd (some fdInfo) })

/-- `FdTable::set_rlimit`: a limit at or below the table's length cuts the table to it. -/
def set_rlimit (t : FdTable) (rlimit : RLimit) : FdTable :=
  if rlimit.rlim_max ≤ t.fd_table.length then
    { fd_table := t.fd_table.take rlimit.rlim_max, rlimit }
  else { t with rlimit }

/-- `FdTable::do_close_on_exec`: empty every slot whose flags hold `CLOEXEC`. -/
def do_close_on_exec (t : FdTable) : FdTable :=
  { t with fd_table := t.fd_table.map fun slot =>
      match slot with
      | some fdInfo => if fdInfo.flags.CLOEXEC then none else some fdInfo
      | none => none }

end FdTable

/-- `sys_dup`. -/
def sys_dup (t : FdTable) (oldFd : ℕ) : Except SysError (ℕ × FdTable) :=
  t.dup_no_flag oldFd

/-- `sys_dup3`: undefined flag bits and `old_fd == new_fd` are `EINVAL`. -/
def sys_dup3 (t : FdTable) (oldFd newFd flags : ℕ) : Except SysError (ℕ × FdTable) := do
  let some flags := OpenFlags.from_bits flags | throw .EINVAL
  if oldFd = newFd then throw .EINVAL
  t.dup3 oldFd newFd (FdFlags.ofOpenFlags flags)

end Chronix
