import Mathlib
import Chronix.Model.Mm

/-! # System V shared memory

`SHM_MANAGER` (`os/src/ipc/sysv/shm.rs`) maps segment ids to `Arc<ShmObj>`, and each object
carries its `ShmIdDs`, whose `nattch` counts the attaches. `sys_shmat` and `sys_shmdt`
(`os/src/syscall/ipc/sysv.rs`) map and unmap a segment in the caller's address space and move
`nattch` up and down. An attached area holds its own `Arc` to the object, so the object outlives
`IPC_RMID`. The model draws each `Arc::new` from a counter, as an index into the list of every
object made. `UserVmFile::Shm` holds that index, and the manager maps ids to indices.

The system is the manager together with the address spaces of the live processes, by pid.
`fork` copies the parent's areas with `UserVmSpace::from_existed`, `exit` drops the address
space, and `munmap` and `mprotect` run on the caller's space; none of these touch `nattch`.
`ShmIdDs` keeps the two fields that a modelled call reads: the times, the pids and `perm` are
written for `IPC_STAT` only, and that call is left out.
-/

namespace Chronix

open Constant

/-- `key == IPC_PRIVATE`. -/
def IPC_PRIVATE : ℕ := 0

/-- `ShmGetFlags`. -/
structure ShmGetFlags where
  bits : ℕ
deriving DecidableEq, Repr

namespace ShmGetFlags

def IPC_CREAT : ShmGetFlags := ⟨0x200⟩
def IPC_EXCL : ShmGetFlags := ⟨0x400⟩

def fromBitsTruncate (bits : ℕ) : ShmGetFlags := ⟨bits &&& 0x600⟩

/-- `a.contains(b)`. -/
def contains (flags other : ShmGetFlags) : Bool := flags.bits &&& other.bits == other.bits

end ShmGetFlags

/-- `ShmAtFlags`. -/
structure ShmAtFlags where
  bits : ℕ
deriving DecidableEq, Repr

namespace ShmAtFlags

def SHM_RDONLY : ShmAtFlags := ⟨0x1000⟩
def SHM_RND : ShmAtFlags := ⟨0x2000⟩
def SHM_EXEC : ShmAtFlags := ⟨0x8000⟩

def fromBitsTruncate (bits : ℕ) : ShmAtFlags := ⟨bits &&& 0xB000⟩

/-- `a.contains(b)`. -/
def contains (flags other : ShmAtFlags) : Bool := flags.bits &&& other.bits == other.bits

end ShmAtFlags

/-- `perm.remove(other)`: `perm & !other` on the `u8` of a `MapPerm`. -/
def MapPerm.remove (perm other : MapPerm) : MapPerm :=
  ⟨perm.bits &&& (2 ^ 8 - 1 - other.bits), lt_of_le_of_lt Nat.and_le_left perm.lt⟩

/-- `ShmIdDs`, with the size and the attach count. -/
structure ShmIdDs where
  segsz : ℕ
  nattch : ℕ
deriving DecidableEq, Repr

namespace ShmIdDs

/-- `ShmIdDs::new(sz, cpid)`. -/
def new (sz : ℕ) : ShmIdDs := ⟨sz, 0⟩

/-- `attach`: `nattch += 1`. -/
def attach (ds : ShmIdDs) : ShmIdDs := { ds with nattch := usizeWrap (ds.nattch + 1) }

/-- `detach`: `nattch -= 1`, which wraps in the release build, and whether it reached zero. -/
def detach (ds : ShmIdDs) : ShmIdDs × Bool :=
  let nattch := usizeSub ds.nattch 1
  ({ ds with nattch }, nattch == 0)

end ShmIdDs

/-- `ShmObj`: its id and its `shmid_ds` (the page cache holds the segment's data, which no
modelled call reads). -/
structure ShmObj where
  id : ℕ
  shmid_ds : ShmIdDs
deriving DecidableEq, Repr

/-- `ShmIdAllocator`: the last id handed out and the ids in use. -/
structure ShmIdAllocator where
  cur : ℕ
  pool : Finset ℕ
deriving DecidableEq

namespace ShmIdAllocator

def new : ShmIdAllocator := ⟨0, ∅⟩

/-- The loop of `alloc` with `times` turns left: the counter moves on, wrapping from
`usize::MAX` to `1`, and the first id not in the pool is taken; after `1000` ids in use it gives
up. -/
def alloc.loop : ℕ → ShmIdAllocator → Option ℕ × ShmIdAllocator
  | times, a =>
    let cur := (if a.cur = 2 ^ 64 - 1 then 0 else a.cur) + 1
    if cur ∉ a.pool then (some cur, ⟨cur, insert cur a.pool⟩)
    else
      match times with
      | 0 | 1 => (none, ⟨cur, a.pool⟩)
      | times + 2 => loop (times + 1) ⟨cur, a.pool⟩

/-- `alloc`. -/
def alloc (a : ShmIdAllocator) : Option ℕ × ShmIdAllocator := alloc.loop 1000 a

/-- `alloc_at(id)`. -/
def allocAt (a : ShmIdAllocator) (id : ℕ) : Option ℕ × ShmIdAllocator :=
  if id = 0 then a.alloc
  else if id ∈ a.pool then (none, a)
  else (some id, ⟨max a.cur id, insert id a.pool⟩)

/-- `dealloc(id)`. -/
def dealloc (a : ShmIdAllocator) (id : ℕ) : Except Unit Unit × ShmIdAllocator :=
  if id ∈ a.pool then (.ok (), ⟨a.cur, a.pool.erase id⟩) else (.error (), a)

end ShmIdAllocator

/-- `SHM_MANAGER`, with every object any `Arc` has pointed at. -/
structure ShmManager where
  objects : List ShmObj
  files : SortedMap ℕ ℕ
  idAlloc : ShmIdAllocator

namespace ShmManager

def new : ShmManager := ⟨[], .empty, .new⟩

/-- `get(id)`: id `0` is never a segment. -/
def get (m : ShmManager) (id : ℕ) : Option ℕ := if id = 0 then none else m.files.get? id

/-- `Arc::new(ShmObj::new(id, size, pid))`, entered under `id`. -/
def makeObject (m : ShmManager) (id size : ℕ) : ℕ × ShmManager :=
  (m.objects.length, { m with
    objects := m.objects ++ [⟨id, .new size⟩]
    files := m.files.insert id m.objects.length })

/-- `alloc(size, pid)`: the object made and its id. -/
def alloc (m : ShmManager) (size : ℕ) : Option (ℕ × ℕ) × ShmManager :=
  match m.idAlloc.alloc with
  | (none, idAlloc) => (none, { m with idAlloc })
  | (some id, idAlloc) =>
    let (obj, m) := { m with idAlloc }.makeObject id size
    (some (obj, id), m)

/-- `alloc_at(size, pid, id)`: the object already under `id`, or a new one there. -/
def allocAt (m : ShmManager) (size id : ℕ) : Option (ℕ × ℕ) × ShmManager :=
  if id = 0 then m.alloc size
  else
    match m.files.get? id with
    | some obj => (some (obj, id), m)
    | none =>
      match m.idAlloc.allocAt id with
      | (none, idAlloc) => (none, { m with idAlloc })
      | (some id, idAlloc) =>
        let (obj, m) := { m with idAlloc }.makeObject id size
        (some (obj, id), m)

/-- `remove(id)`: the id goes back to the allocator, whatever `dealloc` says, and leaves the
map. -/
def remove (m : ShmManager) (id : ℕ) : Option ℕ × ShmManager :=
  (m.files.get? id, { m with
    idAlloc := (m.idAlloc.dealloc id).2
    files := m.files.erase id })

/-- The `shmid_ds` of an object. -/
def ds (m : ShmManager) (obj : ℕ) : Option ShmIdDs := (m.objects[obj]?).map ShmObj.shmid_ds

/-- `shm.shmid_ds.lock().attach(pid)`. -/
def attach (m : ShmManager) (obj : ℕ) : ShmManager :=
  { m with objects := m.objects.modify obj fun shm => { shm with shmid_ds := shm.shmid_ds.attach } }

/-- `shm.shmid_ds.lock().detach(pid)`, whose result `sys_shmdt` drops. -/
def detach (m : ShmManager) (obj : ℕ) : ShmManager :=
  { m with
    objects := m.objects.modify obj fun shm => { shm with shmid_ds := shm.shmid_ds.detach.1 } }

end ShmManager

/-- `sys_shmget(key, size, shmflg)`, with `key as usize`. -/
def sysShmget (m : ShmManager) (key size shmflg : ℕ) : Option (Except SysError ℕ × ShmManager) :=
  let shmflg := ShmGetFlags.fromBitsTruncate shmflg
  let roundedUpSz := usizeWrap (usizeSub size 1 + PAGE_SIZE) &&& usizeNot (PAGE_SIZE - 1)
  if key = IPC_PRIVATE then
    -- `SHM_MANAGER.alloc(..).unwrap()`
    match m.alloc roundedUpSz with
    | (none, _) => none
    | (some (_, id), m) => some (.ok id, m)
  else
    match m.get key with
    | some obj =>
      if shmflg.contains ⟨ShmGetFlags.IPC_CREAT.bits ||| ShmGetFlags.IPC_EXCL.bits⟩ then
        some (.error .EEXIST, m)
      else
        match m.ds obj with
        | none => none
        | some ds => if ds.segsz < size then some (.error .EINVAL, m) else some (.ok key, m)
    | none =>
      if shmflg.contains .IPC_CREAT then
        match m.allocAt roundedUpSz key with
        | (none, _) => none
        | (some (_, id), m) => some (.ok id, m)
      else some (.error .ENOENT, m)

/-- `sys_shmat(shmid, shmaddr, shmflg)` by the task whose address space is `vm`: a shared
mapping of the segment, and one more attach. -/
def sysShmat (m : ShmManager) (vm : UserVmSpace) (shmid : ℕ) (shmaddr : VirtAddr) (shmflg : ℕ) :
    Option (Except SysError ℕ × ShmManager × UserVmSpace) :=
  let shmflg := ShmAtFlags.fromBitsTruncate shmflg
  if shmaddr.pageOffset ≠ 0 ∧ !shmflg.contains .SHM_RND then some (.error .EINVAL, m, vm)
  else
    let shmaddr := shmaddr.floor.startAddr
    let perm := (MapPerm.U.union .R).union .W
    let perm := if shmflg.contains .SHM_EXEC then perm.union .X else perm
    let perm := if shmflg.contains .SHM_RDONLY then perm.remove .W else perm
    match m.get shmid with
    | none => some (.error .EINVAL, m, vm)
    | some obj =>
      match m.ds obj with
      | none => none
      | some ds =>
        match vm.allocAnonArea shmaddr ds.segsz perm .MAP_SHARED (some obj) with
        | none => none
        | some (.error e, vm) => some (.error e, m, vm)
        | some (.ok va, vm) => some (.ok va.val, m.attach obj, vm)

/-- `sys_shmdt(shmaddr)` by the task whose address space is `vm`: the area at `shmaddr`, when
it maps a segment, is unmapped over its whole length, and the segment loses an attach. -/
def sysShmdt (m : ShmManager) (vm : UserVmSpace) (shmaddr : VirtAddr) :
    Option (Except SysError ℕ × ShmManager × UserVmSpace) :=
  if shmaddr.pageOffset ≠ 0 then some (.error .EINVAL, m, vm)
  else
    -- `get_area_ref(shmaddr)`
    match vm.areas.get shmaddr.floor with
    | none => some (.error .EINVAL, m, vm)
    | some vma =>
      match vma.file with
      | .Shm obj =>
        -- `assert!(vma.map_flags.contains(MapFlags::SHARED))`
        if !vma.mapFlags.shared then none
        else
          -- `vma.range_va.clone().count()`: the bytes of the area
          let len := vma.rangeVa.end.val - vma.rangeVa.start.val
          match vm.unmap shmaddr len with
          | none => none
          | some (.error e, vm) => some (.error e, m, vm)
          | some (.ok _, vm) => some (.ok 0, m.detach obj, vm)
      | _ => some (.error .EINVAL, m, vm)

/-- `sys_shmctl(shmid, IPC_RMID, _)`. -/
def sysShmctlRmid (m : ShmManager) (shmid : ℕ) : Except SysError ℕ × ShmManager :=
  match m.remove shmid with
  | (none, m) => (.error .ENOENT, m)
  | (some _, m) => (.ok 0, m)

/-- The shared-memory manager and the address spaces of the live processes, by pid. -/
structure ShmSystem where
  manager : ShmManager
  spaces : SortedMap ℕ UserVmSpace

/-- The calls that make, map, unmap and drop areas of a segment. -/
inductive ShmCall
  | shmget (key size shmflg : ℕ)
  | shmat (pid shmid : ℕ) (shmaddr : VirtAddr) (shmflg : ℕ)
  | shmdt (pid : ℕ) (shmaddr : VirtAddr)
  | rmid (shmid : ℕ)
  | fork (parent child : ℕ)
  | munmap (pid : ℕ) (addr : VirtAddr) (length : ℕ)
  | mprotect (pid : ℕ) (addr : VirtAddr) (length prot : ℕ)
  | exit (pid : ℕ)

namespace ShmSystem

/-- A call on the address space of `pid`; a pid with no process makes no call. -/
def withSpace (s : ShmSystem) (pid : ℕ)
    (call : UserVmSpace → Option (ShmManager × UserVmSpace)) : Option ShmSystem :=
  match s.spaces.get? pid with
  | none => some s
  | some vm => (call vm).map fun (manager, vm) => ⟨manager, s.spaces.insert pid vm⟩

/-- One call; `none` is a kernel panic. A `fork` makes `child` from `parent` when `child` is
not live yet. -/
def step (s : ShmSystem) : ShmCall → Option ShmSystem
  | .shmget key size shmflg =>
    (sysShmget s.manager key size shmflg).map fun (_, manager) => { s with manager }
  | .shmat pid shmid shmaddr shmflg =>
    s.withSpace pid fun vm =>
      (sysShmat s.manager vm shmid shmaddr shmflg).map fun (_, manager, vm) => (manager, vm)
  | .shmdt pid shmaddr =>
    s.withSpace pid fun vm => (sysShmdt s.manager vm shmaddr).map fun (_, manager, vm) => (manager, vm)
  | .rmid shmid => some { s with manager := (sysShmctlRmid s.manager shmid).2 }
  | .fork parent child =>
    match s.spaces.get? parent, s.spaces.get? child with
    | some vm, none => vm.fromExisted.map fun vm => { s with spaces := s.spaces.insert child vm }
    | _, _ => some s
  | .munmap pid addr length =>
    s.withSpace pid fun vm => (sysMunmap vm addr length).map fun (_, vm) => (s.manager, vm)
  | .mprotect pid addr length prot =>
    s.withSpace pid fun vm => (sysMprotect vm addr length prot).map fun (_, vm) => (s.manager, vm)
  | .exit pid => some { s with spaces := s.spaces.erase pid }

/-- A run of calls, in order. -/
def run (s : ShmSystem) (calls : List ShmCall) : Option ShmSystem := calls.foldlM step s

end ShmSystem

end Chronix
