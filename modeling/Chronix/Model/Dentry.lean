import Mathlib
import Chronix.Model.SysError
import Chronix.Model.FdTable
import Chronix.ToMathlib.Str

/-! # Dentries, the dentry cache and path resolution

`fs/vfs/dentry.rs`, `utils/path.rs` and the path handling of `syscall/fs.rs`: a dentry has a name,
a parent, its children by name, a state and the inode it points to; `DCACHE` maps absolute paths
to dentries. `Dentry::walk` goes down a relative path one name at a time and stops at the first
name that is missing, where it makes a negative dentry and puts it in `DCACHE`;
`global_find_dentry` tries `DCACHE` and else walks from the root; `Dentry::find` tries `DCACHE`
under a key it builds from the start and the path; `at_helper1` turns a relative path into an
absolute one and calls `global_find_dentry`.

The dentries are those of a tmpfs, whose dentry tree is the file system tree:
`load_child_dentry` reads nothing and fails with `ENOTDIR` below a file, `new_neg_dentry` makes a
negative child that only `DCACHE` holds, and `create` makes an inode of the given type that no
directory lists until a dentry takes it. A dentry and an inode are indices into their lists; a
`Weak` parent always upgrades. Symbolic links are left out, so `follow` returns its dentry. A
string is the list of its characters. A panic (`unwrap` on `None`) is `none`; an error is
`throw`.
-/

namespace Chronix

/-- `DentryState`. -/
inductive DentryState
  | USED
  | UNUSED
  | NEGATIVE
deriving DecidableEq, Repr

/-- The file types of `InodeMode` that the model keeps. -/
inductive InodeMode
  | DIR
  | FILE
deriving DecidableEq, Repr

/-- `DentryInner`: the name, the parent, the children by name, the state and the inode. -/
structure DentryNode where
  name : List Char
  parent : Option ℕ
  children : List Char → Option ℕ
  state : DentryState
  inode : Option ℕ

/-- The dentries, the types of the inodes and `DCACHE`. -/
structure Vfs where
  dentries : List DentryNode
  inodes : List InodeMode
  dcache : List Char → Option ℕ

/-- What path resolution reads of a task: its working directory and, for each fd, `get_file`
(`none` where it fails with `EBADF`) and then `dentry()`. -/
structure FsTask where
  cwd : ℕ
  fd_dentry : ℕ → Option (Option ℕ)

/-- `Option::unwrap` inside a system call: `None` panics. -/
def unwrap {α : Type} (o : Option α) : ExceptT SysError Option α := ExceptT.lift o

/-! ## `utils/path.rs` -/

/-- `abs_path_to_name`: the last component of a path. -/
def abs_path_to_name (path : List Char) : Option (List Char) :=
  if path.isEmpty then none else some (Str.rsplitFirst '/' (Str.trimEndMatches '/' path))

/-- `rel_path_to_abs`: the parent path with one `/` after it, then the relative path without
leading `./`. -/
def rel_path_to_abs (parent_path rel_path : List Char) : Option (List Char) :=
  let abs_path :=
    if parent_path.length = 1 then parent_path
    else if parent_path.getLast? = some '/' then parent_path
    else parent_path ++ ['/']
  let rel_path := Str.trimStartMatches ['.', '/'] rel_path
  if rel_path.isEmpty ∨ rel_path = ['.'] then some (Str.trimEndMatches '/' abs_path)
  else some (abs_path ++ rel_path)

/-! ## Flags -/

/-- `AtFlags::AT_FDCWD`. -/
def AT_FDCWD : ℤ := -100
def AT_SYMLINK_NOFOLLOW : ℕ := 0x100
def AT_EMPTY_PATH : ℕ := 0x1000

/-- `dirfd as i32`. -/
def asI32 (x : ℤ) : ℤ := x.bmod (2 ^ 32)

/-- The union of the values `AtFlags` names, with `AT_FDCWD` as the 32-bit word of `-100`. -/
def AtFlags.all : ℕ := 0xFFFFFF9C ||| 0x100 ||| 0x400 ||| 0x800 ||| 0x1000 ||| 0x6000 ||| 0x2000 ||| 0x4000

/-- `AtFlags::from_bits_truncate`. -/
def AtFlags.from_bits_truncate (bits : ℕ) : ℕ := bits &&& AtFlags.all

/-- The dentry `dirfd` names: the working directory for `AT_FDCWD`, else the open file's. -/
def FsTask.dirDentry (task : FsTask) (dirfd : ℤ) : ExceptT SysError Option ℕ :=
  if asI32 dirfd = AT_FDCWD then pure task.cwd
  else
    match if dirfd < 0 then none else task.fd_dentry dirfd.toNat with
    | none => throw .EBADF
    | some dentry => unwrap dentry

namespace Vfs

variable (t : Vfs)

/-! ## Dentries -/

def node (d : ℕ) : DentryNode := t.dentries.getD d ⟨[], none, fun _ => none, .NEGATIVE, none⟩

def modifyNode (d : ℕ) (f : DentryNode → DentryNode) : Vfs :=
  { t with dentries := t.dentries.modify d f }

/-- `Dentry::parent`. -/
def parent (d : ℕ) : Option ℕ := (t.node d).parent

/-- `Dentry::get_child`. -/
def get_child (d : ℕ) (name : List Char) : Option ℕ := (t.node d).children name

/-- `Dentry::add_child`: the child goes in under its own name. -/
def add_child (d child : ℕ) : Vfs :=
  t.modifyNode d fun n => { n with children := Function.update n.children (t.node child).name (some child) }

/-- `Dentry::set_inode`: the dentry points at the inode and is used. -/
def set_inode (d inode : ℕ) : Vfs := t.modifyNode d fun n => { n with inode := some inode, state := .USED }

/-- `Dentry::set_state`. -/
def set_state (d : ℕ) (state : DentryState) : Vfs := t.modifyNode d fun n => { n with state }

/-- `Dentry::is_negative`. -/
def is_negative (d : ℕ) : Bool := (t.node d).state = .NEGATIVE

/-- `inode_type()` of an inode. -/
def inode_type (i : ℕ) : InodeMode := t.inodes.getD i .FILE

/-- `Dentry::path` with at most `fuel` steps up; a parent is made before its children, so the
number of dentries is enough. -/
def pathFrom : ℕ → ℕ → List Char
  | 0, _ => ['/']
  | fuel + 1, d =>
    match t.parent d with
    | some p =>
      let p_path := pathFrom fuel p
      if p_path = ['/'] then p_path ++ (t.node d).name else p_path ++ ['/'] ++ (t.node d).name
    | none => ['/']

/-- `Dentry::path`: the parent's path, a `/` unless that is the root's, and the name. -/
def path (d : ℕ) : List Char := t.pathFrom t.dentries.length d

/-- `TmpInode::new`, which tmpfs's `create` returns. -/
def create (mode : InodeMode) : Vfs × ℕ := ({ t with inodes := t.inodes ++ [mode] }, t.inodes.length)

/-- `TmpDentry::load_child_dentry`: below a file, `ENOTDIR`; it changes nothing. -/
def load_child_dentry (d : ℕ) : ExceptT SysError Option Unit :=
  match (t.node d).inode with
  | some i => if t.inode_type i ≠ .DIR then throw .ENOTDIR else pure ()
  | none => pure ()

/-- `TmpDentry::new_neg_dentry`: a negative dentry with parent `d`, which `d` does not list. -/
def new_neg_dentry (d : ℕ) (name : List Char) : ExceptT SysError Option (Vfs × ℕ) := do
  let i ← unwrap (t.node d).inode
  if t.inode_type i ≠ .DIR then throw .ENOTDIR
  pure ({ t with dentries := t.dentries ++ [⟨name, some d, fun _ => none, .NEGATIVE, none⟩] },
    t.dentries.length)

/-! ## Walking and finding -/

/-- The loop of `Dentry::walk` over the names of the path. -/
def walkNames (current : ℕ) : List (List Char) → ExceptT SysError Option (Vfs × ℕ)
  | [] => pure (t, current)
  | name :: rest =>
    match t.get_child current name with
    | some child => walkNames child rest
    | none => do
      t.load_child_dentry current
      match t.get_child current name with
      | some child => walkNames child rest
      | none => do
        let (t, neg) ← t.new_neg_dentry current name
        pure ({ t with dcache := Function.update t.dcache (t.path neg) (some neg) }, neg)

/-- `Dentry::walk`: the names of the path, without empty ones and `.`; a `..` is a name. -/
def walk (start : ℕ) (path : List Char) : ExceptT SysError Option (Vfs × ℕ) :=
  t.walkNames start ((path.splitOn '/').filter fun name => !name.isEmpty && name != ['.'])

/-- `global_find_dentry`: `DCACHE` under the path, else a walk from the dentry of `/`. -/
def global_find_dentry (path : List Char) : ExceptT SysError Option (Vfs × ℕ) :=
  match t.dcache path with
  | some d => pure (t, d)
  | none => do
    let root ← unwrap (t.dcache ['/'])
    t.walk root path

/-- The loop of `Dentry::find` that normalises the path: every `..` moves the start to its
parent, wherever it stands, and every name is kept. -/
def normalize (current : ℕ) : List (List Char) → Except SysError (ℕ × List (List Char))
  | [] => .ok (current, [])
  | component :: rest =>
    if component = [] ∨ component = ['.'] then normalize current rest
    else if component = ['.', '.'] then
      match t.parent current with
      | some p => normalize p rest
      | none => .error .ENOENT
    else (normalize current rest).map fun (current, names) => (current, component :: names)

/-- `Dentry::find`: `DCACHE` under the moved start's path followed by the names, with no `/`
between the two, else a walk of the whole path from the moved start; a negative result is
`None`. -/
def find (self : ℕ) (path : List Char) : ExceptT SysError Option (Vfs × Option ℕ) := do
  let path := path.dropWhile (· == '/')
  if path.isEmpty then return (t, some self)
  let (current, names) ← ExceptT.mk (some (t.normalize self (path.splitOn '/')))
  let abs_path := t.path current ++ ['/'].intercalate names
  match t.dcache abs_path with
  | some d => pure (t, if t.is_negative d then none else some d)
  | none => do
    let (t, d) ← t.walk current path
    pure (t, if t.is_negative d then none else some d)

/-! ## `at_helper1` -/

/-- The `while rel_path.starts_with("../")` loop of `at_helper1`: each round takes `..` and the
slashes after it off the path, and every round but the first moves to the parent, whose absence
panics. The fuel is the length of the path, which each round shortens. -/
def resolveParents : ℕ → ℕ → ℕ → List Char → Option (ℕ × List Char)
  | 0, _, parent, rel_path => some (parent, rel_path)
  | fuel + 1, cnt, parent, rel_path =>
    if ['.', '.', '/'].isPrefixOf rel_path then do
      let parent ← if cnt > 0 then t.parent parent else some parent
      let rel_path := Str.trimStartMatches ['/'] (Str.trimStartMatches ['.', '.'] rel_path)
      resolveParents fuel (cnt + 1) parent rel_path
    else some (parent, rel_path)

/-- `Dentry::follow` with no symbolic links: a dentry that is not negative must have an inode. -/
def follow (d : ℕ) : ExceptT SysError Option ℕ :=
  if t.is_negative d then pure d
  else do
    let _ ← unwrap (t.node d).inode
    pure d

/-- The relative branch of `at_helper1`. -/
def atRelative (task : FsTask) (dirfd : ℤ) (path : List Char) :
    ExceptT SysError Option (Vfs × ℕ) := do
  let parent ← task.dirDentry dirfd
  if t.is_negative parent then throw .ENOENT
  let (parent, rel_path) ← unwrap (t.resolveParents path.length 0 parent path)
  let fpath ← unwrap (rel_path_to_abs (t.path parent) rel_path)
  t.global_find_dentry fpath

/-- `at_helper1`. -/
def at_helper1 (task : FsTask) (dirfd : ℤ) (path : List Char) (flags : ℕ) :
    ExceptT SysError Option (Vfs × ℕ) := do
  let (t, dentry) ←
    if path ≠ [] then
      if ['/'].isPrefixOf path then t.global_find_dentry path else t.atRelative task dirfd path
    else if flags &&& AT_EMPTY_PATH = 0 then throw .ENOENT
    else do
      let d ← task.dirDentry dirfd
      pure (t, d)
  if flags &&& AT_SYMLINK_NOFOLLOW ≠ 0 then pure (t, dentry)
  else do
    let dentry ← t.follow dentry
    pure (t, dentry)

/-! ## Namespace system calls -/

/-- `sys_mkdirat`, from the path read out of user memory. -/
def sys_mkdirat (task : FsTask) (dirfd : ℤ) (path : List Char) : ExceptT SysError Option (Vfs × ℕ) := do
  let (t, dentry) ← t.at_helper1 task dirfd path 0
  if (t.node dentry).state ≠ .NEGATIVE then throw .EEXIST
  let parent ← unwrap (t.parent dentry)
  let _ ← unwrap (abs_path_to_name path)
  let _ ← unwrap (t.node parent).inode
  let (t, new_inode) := t.create .DIR
  let t := t.set_inode dentry new_inode
  let t := t.set_state dentry .USED
  pure (t.add_child parent dentry, 0)

/-- `sys_openat` up to the dentry it opens, from the path read out of user memory; the file and
the fd it gets are left out. -/
def sys_openat (task : FsTask) (dirfd : ℤ) (path : List Char) (flags : ℕ) :
    ExceptT SysError Option (Vfs × ℕ) := do
  let open_flags ← unwrap (OpenFlags.from_bits flags)
  let at_flags := AtFlags.from_bits_truncate flags
  let (t, dentry) ← t.at_helper1 task dirfd path at_flags
  let t ←
    if open_flags.contains OpenFlags.O_CREAT then do
      let name ← unwrap (abs_path_to_name path)
      let found ← unwrap (abs_path_to_name (t.path dentry))
      if name ≠ found then throw .ENOENT
      if open_flags.contains OpenFlags.O_EXCL ∧ (t.node dentry).state ≠ .NEGATIVE then throw .EEXIST
      let parent ← unwrap (t.parent dentry)
      let _ ← unwrap (t.node parent).inode
      let (t, inode) := t.create .FILE
      pure ((t.set_inode dentry inode).add_child parent dentry)
    else pure t
  if (t.node dentry).state = .NEGATIVE then throw .ENOENT
  let inode ← unwrap (t.node dentry).inode
  if open_flags.contains OpenFlags.O_DIRECTORY ∧ t.inode_type inode ≠ .DIR then throw .ENOTDIR
  pure (t, dentry)

end Vfs

end Chronix
