import Mathlib
import Chronix.Model.Process
import Chronix.Soundness.Process

/-! # The task system as the process lifecycle sees it

The lifecycle of processes reads a few fields of the task system: of each control block its tid,
its serial, its cells, whether it is a zombie and whether it leads; of each bundle of process
cells the parent, the children and the thread group's members and alive counter; and the
counters that hand out serials, cells and tids. `TaskSystem.view` keeps exactly these.

Signal delivery, the user-memory writes of `clone` and `waitpid`, `mm_release`, the process
groups and the fd tables leave the view as it is; `fork`, `do_exit` and the reaping of
`sys_waitpid` act on it as `View.spawn`, `View.exitTask` and `View.reap`. Each lemma below states
one function's effect on the view, so that the invariant of the lifecycle is proved on views only.
-/

namespace Chronix

/-- What the lifecycle reads of a control block. -/
structure TaskShape where
  tid : ℕ
  serial : ℕ
  cells : ℕ
  zombie : Bool
  is_leader : Bool
deriving DecidableEq

/-- What the lifecycle reads of the cells of a process. -/
structure CellsShape where
  parent : Option ℕ
  children : SortedMap ℕ ℕ
  members : SortedMap ℕ ℕ
  alive : ℕ

def Tcb.shape (t : Tcb) : TaskShape :=
  ⟨t.tid, t.serial, t.cells, decide (t.task_status = .Zombie), t.is_leader⟩

def ProcessCells.shape (c : ProcessCells) : CellsShape :=
  ⟨c.parent, c.children, c.thread_group.members, c.thread_group.alive⟩

/-- The task system as the lifecycle sees it. -/
structure View where
  tasks : SortedMap ℕ TaskShape
  cells : ℕ → CellsShape
  next_serial : ℕ
  next_cell : ℕ
  tid_allocator : TidAllocator

namespace View

variable (v : View)

/-- `Weak::upgrade` on the view. -/
def upgrade (weak : ℕ) : Option TaskShape :=
  (v.tasks.entries.find? fun entry => entry.2.serial = weak).map Prod.snd

/-- Every task is stored under its own tid. -/
def Keyed : Prop := ∀ {tid t}, v.tasks.get? tid = some t → t.tid = tid

/-- Serials name tasks: two tasks with one serial are one task. -/
def SerialsUnique : Prop :=
  ∀ {tid tid' t t'}, v.tasks.get? tid = some t → v.tasks.get? tid' = some t' → t.serial = t'.serial →
    tid = tid'

/-- The parent cell of cells `c` names `weak`. -/
def setParent (c weak : ℕ) : View :=
  { v with cells := Function.update v.cells c { v.cells c with parent := some weak } }

theorem upgrade_some {weak : ℕ} {t : TaskShape} (found : v.upgrade weak = some t) :
    ∃ tid, v.tasks.get? tid = some t ∧ t.serial = weak := by
  obtain ⟨entry, first, rfl⟩ := Option.map_eq_some_iff.mp found
  refine ⟨entry.1, (v.tasks.get?_eq_some_iff _ _).mpr (List.mem_of_find?_eq_some first), ?_⟩
  simpa using List.find?_some first

/-- With unique serials, a `Weak` upgrades to the task of its serial. -/
theorem upgrade_eq_some_iff (unique : v.SerialsUnique) (weak : ℕ) (t : TaskShape) :
    v.upgrade weak = some t ↔ ∃ tid, v.tasks.get? tid = some t ∧ t.serial = weak := by
  refine ⟨v.upgrade_some, fun ⟨tid, stored, serial⟩ => ?_⟩
  have present : (v.tasks.entries.find? fun entry => entry.2.serial = weak).isSome :=
    List.find?_isSome.mpr ⟨(tid, t), (v.tasks.get?_eq_some_iff _ _).mp stored, by simpa using serial⟩
  obtain ⟨entry, first⟩ := Option.isSome_iff_exists.mp present
  have same : entry.2.serial = weak := by simpa using List.find?_some first
  have atEntry := (v.tasks.get?_eq_some_iff _ _).mpr (List.mem_of_find?_eq_some first)
  have sameTid : entry.1 = tid := unique atEntry stored (same.trans serial.symm)
  rw [sameTid, stored] at atEntry
  rw [upgrade, first, Option.map_some, ← Option.some.inj atEntry]

theorem upgrade_eq_none_iff (weak : ℕ) :
    v.upgrade weak = none ↔ ∀ tid t, v.tasks.get? tid = some t → t.serial ≠ weak := by
  simp only [upgrade, Option.map_eq_none_iff, List.find?_eq_none, decide_eq_true_eq]
  constructor
  · intro none tid t stored
    exact none (tid, t) ((v.tasks.get?_eq_some_iff _ _).mp stored)
  · intro none entry member
    exact none entry.1 entry.2 ((v.tasks.get?_eq_some_iff _ _).mpr member)

theorem Keyed.of_tasks {v' : View} (keyed : v.Keyed) (same : v'.tasks = v.tasks) : v'.Keyed :=
  fun stored => keyed (same ▸ stored)

@[simp] theorem setParent_tasks (c weak : ℕ) : (v.setParent c weak).tasks = v.tasks := rfl

@[simp] theorem upgrade_setParent (c weak w : ℕ) : (v.setParent c weak).upgrade w = v.upgrade w := rfl

/-- Fresh cells `c` for a new process whose parent is `weak`: no children, an empty thread group. -/
def newCells (c weak : ℕ) : View :=
  { v with cells := Function.update v.cells c ⟨some weak, .empty, .empty, 0⟩ }

/-- `registerTask` on the view: a new process joins the caller's children; the task joins its
thread group and the table. -/
def register (caller task : TaskShape) : View :=
  let cells := if task.is_leader then
      Function.update v.cells caller.cells
        { v.cells caller.cells with children := (v.cells caller.cells).children.insert task.tid task.serial }
    else v.cells
  { v with
    tasks := v.tasks.insert task.tid task
    cells := Function.update cells task.cells
      { cells task.cells with
        members := (cells task.cells).members.insert task.tid task.serial
        alive := if !task.zombie then (cells task.cells).alive + 1 else (cells task.cells).alive } }

/-- The view after `fork` built `task` for `caller`: a new process gets the fresh cells
`task.cells`, with the caller as parent; then the task is registered, and the counters move on. -/
def spawn (caller task : TaskShape) (next_cell : ℕ) (tid_allocator : TidAllocator) : View :=
  let v' := if task.is_leader then v.newCells task.cells caller.serial else v
  { v'.register caller task with next_serial := v.next_serial + 1, next_cell, tid_allocator }

/-- Task `tid` exits: it becomes a zombie and the group of cells `c` counts one task less. -/
def exit (tid c : ℕ) : View :=
  { v with
    tasks := v.tasks.modify tid fun t => { t with zombie := true }
    cells := Function.update v.cells c { v.cells c with alive := (v.cells c).alive - 1 } }

/-- One child of the re-parenting: the parent cell of a child that is still there names `weak`. -/
def adoptChild (weak : ℕ) (entry : ℕ × ℕ) : View :=
  match v.upgrade entry.2 with
  | some child => v.setParent child.cells weak
  | none => v

/-- The children of cells `c` go to the init process `init`: each child's parent cell names it,
its children map takes them over, and cells `c` keep none. -/
def reparent (c : ℕ) (init : TaskShape) : View :=
  let children := (v.cells c).children
  let v₁ := children.entries.foldl (fun v entry => v.adoptChild init.serial entry) v
  let v₂ := { v₁ with
    cells := Function.update v₁.cells init.cells
      { v₁.cells init.cells with children := (v₁.cells init.cells).children.append children } }
  { v₂ with cells := Function.update v₂.cells c { v₂.cells c with children := .empty } }

/-- `do_exit` of the task `t` stored under `tid`, which is not a zombie: the last thread of a
process also hands its children to `init`. -/
def exitTask (tid : ℕ) (t init : TaskShape) : View :=
  if (v.cells t.cells).alive - 1 = 0 then (v.exit tid t.cells).reparent t.cells init
  else v.exit tid t.cells

@[simp] theorem adoptChild_tasks (weak : ℕ) (entry : ℕ × ℕ) : (v.adoptChild weak entry).tasks = v.tasks := by
  unfold adoptChild
  split <;> rfl

theorem reparent_of_empty {c : ℕ} (init : TaskShape) (empty : (v.cells c).children.entries = []) :
    v.reparent c init = v := by
  have appended : ∀ m : SortedMap ℕ ℕ, m.append (v.cells c).children = m :=
    fun m => SortedMap.append_of_entries_nil m empty
  have cleared : (v.cells c).children = .empty := SortedMap.eq_empty_of_entries_nil empty
  simp only [reparent, empty, List.foldl_nil, appended]
  -- what is left writes the cells of `init` and of `c` back as they are
  rw [show ({ v.cells init.cells with children := (v.cells init.cells).children } : CellsShape) =
    v.cells init.cells from rfl, Function.update_eq_self, ← cleared]
  exact congrArg (fun cells => { v with cells }) (Function.update_eq_self c v.cells)

end View

namespace TaskSystem

variable (s : TaskSystem)

/-- The view of the task system. -/
def view : View where
  tasks := s.task_manager.map Tcb.shape
  cells c := (s.cells c).shape
  next_serial := s.next_serial
  next_cell := s.next_cell
  tid_allocator := s.tid_allocator

theorem get?_view (tid : ℕ) : s.view.tasks.get? tid = (s.get_task tid).map Tcb.shape :=
  SortedMap.get?_map _ _ _

theorem upgrade_view (weak : ℕ) : s.view.upgrade weak = (s.upgrade weak).map Tcb.shape := by
  simp only [View.upgrade, upgrade, view, SortedMap.map, List.find?_map, Option.map_map]
  rfl

/-! ## Updates of the tables -/

theorem view_putTask (task : Tcb) :
    (s.putTask task).view = { s.view with tasks := s.view.tasks.insert task.tid task.shape } := by
  simp only [view, putTask, SortedMap.map_insert]

theorem view_modifyTask (tid : ℕ) {f : Tcb → Tcb} {g : TaskShape → TaskShape}
    (commutes : ∀ t, (f t).shape = g t.shape) :
    (s.modifyTask tid f).view = { s.view with tasks := s.view.tasks.modify tid g } := by
  simp only [view, modifyTask, SortedMap.map_modify Tcb.shape _ tid commutes]

/-- An update of a task that keeps its shape keeps the view. -/
theorem view_modifyTask_of_shape (tid : ℕ) {f : Tcb → Tcb} (keeps : ∀ t, (f t).shape = t.shape) :
    (s.modifyTask tid f).view = s.view := by
  have unchanged : s.view.tasks.modify tid id = s.view.tasks := SortedMap.ext_get? fun k => by
    rw [SortedMap.get?_modify]
    split_ifs <;> simp
  rw [view_modifyTask s tid (g := id) keeps, unchanged]

theorem view_modifyCells (c : ℕ) (f : ProcessCells → ProcessCells) :
    (s.modifyCells c f).view =
      { s.view with cells := Function.update s.view.cells c (f (s.cells c)).shape } := by
  simp only [view, modifyCells]
  congr 1
  funext c'
  by_cases same : c' = c
  · subst same
    simp
  · simp [same]

/-- An update of cells that acts on their shape as `F` acts on the view. -/
theorem view_modifyCells_comm (c : ℕ) {f : ProcessCells → ProcessCells} {F : CellsShape → CellsShape}
    (commutes : ∀ cells, (f cells).shape = F cells.shape) :
    (s.modifyCells c f).view =
      { s.view with cells := Function.update s.view.cells c (F (s.view.cells c)) } := by
  rw [view_modifyCells, commutes]
  rfl

/-- An update of cells that keeps their shape keeps the view. -/
theorem view_modifyCells_of_shape (c : ℕ) {f : ProcessCells → ProcessCells}
    (keeps : (f (s.cells c)).shape = (s.cells c).shape) : (s.modifyCells c f).view = s.view := by
  rw [view_modifyCells, keeps]
  show { s.view with cells := Function.update s.view.cells c (s.view.cells c) } = s.view
  rw [Function.update_eq_self]

theorem view_mm_release (task : Tcb) : (s.mm_release task).view = s.view := by
  unfold mm_release
  split
  · split_ifs
    · dsimp only
      rw [view_modifyTask_of_shape]
      · split <;> rfl
      · intro t
        rfl
    · rfl
  · rfl

theorem view_writeUser {vm addr value : ℕ} {s' : TaskSystem}
    (written : s.writeUser vm addr value = some s') : s'.view = s.view := by
  obtain ⟨mem, -, rfl⟩ := Option.map_eq_some_iff.mp written
  rfl

/-! ## Signal delivery -/

section Signals

variable {s}

theorem view_recv_sigs (keyed : s.view.Keyed) {tid : ℕ} {sig : SigInfo} {s' : TaskSystem}
    (received : s.recv_sigs tid sig = some s') : s'.view = s.view := by
  unfold recv_sigs at received
  split at received
  · next task found =>
    simp only [Option.bind_eq_bind, Option.bind_eq_some_iff, Option.pure_def, Option.some.injEq]
      at received
    obtain ⟨manager, -, rfl⟩ := received
    have atTid : task.tid = tid := keyed (t := task.shape) (by rw [get?_view, found, Option.map_some])
    have stored : s.view.tasks.get? ({ task with sig_manager := manager } : Tcb).tid =
        some ({ task with sig_manager := manager } : Tcb).shape := by
      show s.view.tasks.get? task.tid = some task.shape
      rw [atTid, get?_view, found, Option.map_some]
    rw [view_putTask, SortedMap.insert_of_get? stored]
  · cases received
    rfl

theorem view_recv_sigs_process_level (keyed : s.view.Keyed) {task : Tcb} {sig : SigInfo}
    {s' : TaskSystem} (received : s.recv_sigs_process_level task sig = some s') : s'.view = s.view := by
  unfold recv_sigs_process_level at received
  dsimp only at received
  split at received
  · exact view_recv_sigs keyed received
  · split at received
    · exact view_recv_sigs keyed received
    · cases received

theorem view_notify_parent (keyed : s.view.Keyed) {task : Tcb} {s' : TaskSystem}
    (notified : s.notify_parent task = some s') : s'.view = s.view := by
  unfold notify_parent at notified
  split at notified
  · obtain ⟨pid, -, received⟩ := Option.bind_eq_some_iff.mp notified
    exact view_recv_sigs_process_level keyed received
  · cases notified
    rfl

/-- Signals sent to a list of threads in turn leave the view as it is. -/
theorem view_foldlM_recv_sigs (keyed : s.view.Keyed) {threads : List Tcb} {sig : SigInfo}
    {s' : TaskSystem} (sent : threads.foldlM (fun s thread => s.recv_sigs thread.tid sig) s = some s') :
    s'.view = s.view := by
  induction threads generalizing s with
  | nil =>
    cases sent
    rfl
  | cons thread rest ih =>
    simp only [List.foldlM_cons, Option.bind_eq_bind, Option.bind_eq_some_iff] at sent
    obtain ⟨middle, received, sent⟩ := sent
    have same := view_recv_sigs keyed received
    rw [ih (same ▸ keyed) sent, same]

end Signals


/-! ## Fork -/

theorem view_forkVmSpace (caller : Tcb) (flag : CloneFlags) :
    (s.forkVmSpace caller flag).2.view = { s.view with next_cell := (s.forkVmSpace caller flag).2.next_cell } := by
  unfold forkVmSpace
  split_ifs <;> rfl

theorem view_forkFdTable (caller : Tcb) (flag : CloneFlags) :
    (s.forkFdTable caller flag).2.view = { s.view with next_cell := (s.forkFdTable caller flag).2.next_cell } := by
  unfold forkFdTable
  split_ifs <;> rfl

theorem next_cell_forkVmSpace (caller : Tcb) (flag : CloneFlags) :
    s.next_cell ≤ (s.forkVmSpace caller flag).2.next_cell := by
  unfold forkVmSpace
  split_ifs <;> simp

theorem next_cell_forkFdTable (caller : Tcb) (flag : CloneFlags) :
    s.next_cell ≤ (s.forkFdTable caller flag).2.next_cell := by
  unfold forkFdTable
  split_ifs <;> simp

/-- The fresh cells `forkCells` makes for a new process. -/
theorem view_forkCells_process (caller : Tcb) :
    ({ s with
      cells := Function.update s.cells s.next_cell ⟨some caller.serial, .empty, .new, s.pgid caller⟩
      next_cell := s.next_cell + 1 } : TaskSystem).view =
      { s.view.newCells s.next_cell caller.serial with next_cell := s.next_cell + 1 } :=
  congrArg (fun v : View => { v with next_cell := s.next_cell + 1 })
    (view_modifyCells s s.next_cell fun _ => ⟨some caller.serial, .empty, .new, s.pgid caller⟩)

theorem view_joinGroup {task : Tcb} {s' : TaskSystem} (joined : s.joinGroup task = some s') :
    s'.view = s.view := by
  unfold joinGroup add_task_to_group at joined
  split_ifs at joined
  · dsimp only at joined
    split at joined
    · cases joined
      exact view_modifyCells_of_shape s task.cells (f := fun cells => { cells with pgid := s.pgid task }) rfl
    · cases joined
  · cases joined
    rfl


theorem view_registerTask {caller task : Tcb} {flag : CloneFlags} {s' : TaskSystem}
    (registered : s.registerTask caller task flag = some s')
    (leads : task.is_leader = !flag.contains CloneFlags.THREAD) :
    s'.view = s.view.register caller.shape task.shape := by
  unfold registerTask at registered
  simp only [Option.bind_eq_bind, Option.bind_eq_some_iff, Option.pure_def, Option.some.injEq]
    at registered
  obtain ⟨s₁, joined, rfl⟩ := registered
  rw [view_putTask, view_joinGroup _ joined, view_modifyCells_comm _ _ (F := fun cells =>
    { cells with
      members := cells.members.insert task.tid task.serial
      alive := if !task.shape.zombie then cells.alive + 1 else cells.alive }) fun _ => rfl]
  cases leader : task.is_leader
  · -- a thread: no children change
    have thread : flag.contains CloneFlags.THREAD = true := by simpa [leader] using leads
    simp only [thread, Bool.not_true, Bool.false_eq_true, if_false]
    have notLeader : task.shape.is_leader = false := leader
    simp only [View.register, notLeader, Bool.false_eq_true, if_false]
    rfl
  · -- a process: it joins the caller's children first
    have process : flag.contains CloneFlags.THREAD = false := by simpa [leader] using leads
    simp only [process, Bool.not_false, if_true]
    rw [view_modifyCells_comm _ _ (F := fun cells =>
      { cells with children := cells.children.insert task.tid task.serial }) fun _ => rfl]
    have isLeader : task.shape.is_leader = true := leader
    simp only [View.register, isLeader, if_true]
    rfl

/-- `fork` adds its task to the view as `View.spawn` does: a thread in the caller's cells, a
process in fresh cells. -/
theorem view_fork {tid : ℕ} {flag : CloneFlags} {s' : TaskSystem} {task : Tcb}
    (forked : s.fork tid flag = some (s', task)) :
    ∃ caller, s.get_task tid = some caller ∧ task.tid = s.tid_allocator.alloc.1 ∧
      task.serial = s.next_serial ∧ task.task_status = caller.task_status ∧
      (task.is_leader = false ∧ task.cells = caller.cells ∨
        task.is_leader = true ∧ task.cells = s.next_cell ∧ s.next_cell < s'.next_cell) ∧
      s.next_cell ≤ s'.next_cell ∧
      s'.view = s.view.spawn caller.shape task.shape s'.next_cell s.tid_allocator.alloc.2 := by
  unfold fork at forked
  simp only [Option.bind_eq_bind, Option.bind_eq_some_iff, Option.pure_def, Option.some.injEq,
    Prod.mk.injEq] at forked
  obtain ⟨caller, found, ⟨leader, is_leader, cells, s₁⟩, made, s₅, registered, rfl, rfl⟩ := forked
  -- name the systems after the address space and after the fd table
  have vm := view_forkVmSpace s₁ caller flag
  have vmCell := next_cell_forkVmSpace s₁ caller flag
  generalize s₁.forkVmSpace caller flag = pv at vm vmCell registered ⊢
  obtain ⟨vm_space, s₂⟩ := pv
  have fd := view_forkFdTable s₂ caller flag
  have fdCell := next_cell_forkFdTable s₂ caller flag
  generalize s₂.forkFdTable caller flag = pf at fd fdCell registered ⊢
  obtain ⟨fd_table, s₃⟩ := pf
  dsimp only at vm vmCell fd fdCell registered ⊢
  have serial₃ : s₃.next_serial = s₁.next_serial :=
    (congrArg View.next_serial fd).trans (congrArg View.next_serial vm)
  unfold forkCells at made
  split_ifs at made with thread
  · -- a thread: the caller's cells, no new ones
    obtain ⟨lead, -, same⟩ := Option.map_eq_some_iff.mp made
    simp only [Prod.mk.injEq] at same
    obtain ⟨rfl, rfl, rfl, rfl⟩ := same
    have viewed := view_registerTask _ registered (by simp [thread])
    have cell₅ : s₅.next_cell = s₃.next_cell := congrArg View.next_cell viewed
    have v₄ : ({ s₃ with tid_allocator := s.tid_allocator.alloc.2, next_serial := s₃.next_serial + 1 } :
        TaskSystem).view = { s.view with
          next_serial := s.next_serial + 1
          next_cell := s₃.next_cell
          tid_allocator := s.tid_allocator.alloc.2 } := by
      show { s₃.view with next_serial := s₃.next_serial + 1, tid_allocator := s.tid_allocator.alloc.2 } = _
      rw [fd, vm, serial₃]
    refine ⟨caller, found, rfl, serial₃, rfl, .inl ⟨rfl, rfl⟩, cell₅ ▸ vmCell.trans fdCell, ?_⟩
    rw [viewed, v₄, cell₅]
    rfl
  · -- a process: fresh cells whose parent is the caller
    simp only [Option.some.injEq, Prod.mk.injEq] at made
    obtain ⟨rfl, rfl, rfl, rfl⟩ := made
    have viewed := view_registerTask _ registered (by simp [thread])
    have cell₅ : s₅.next_cell = s₃.next_cell := congrArg View.next_cell viewed
    have v₄ : ({ s₃ with tid_allocator := s.tid_allocator.alloc.2, next_serial := s₃.next_serial + 1 } :
        TaskSystem).view = { s.view.newCells s.next_cell caller.serial with
          next_serial := s.next_serial + 1
          next_cell := s₃.next_cell
          tid_allocator := s.tid_allocator.alloc.2 } := by
      show { s₃.view with next_serial := s₃.next_serial + 1, tid_allocator := s.tid_allocator.alloc.2 } = _
      rw [fd, vm, view_forkCells_process, serial₃]
    refine ⟨caller, found, rfl, serial₃, rfl, .inr ⟨rfl, rfl, ?_⟩, ?_, ?_⟩
    · rw [cell₅]
      exact Nat.lt_of_lt_of_le (Nat.lt_succ_self _) (vmCell.trans fdCell)
    · rw [cell₅]
      exact (Nat.le_succ _).trans (vmCell.trans fdCell)
    · rw [viewed, v₄, cell₅]
      rfl


/-! ## Exit -/

section Exit

variable {s}

theorem keyed_exit {v : View} (keyed : v.Keyed) (tid c : ℕ) : (v.exit tid c).Keyed := by
  intro k t stored
  simp only [View.exit, SortedMap.get?_modify] at stored
  split_ifs at stored
  · obtain ⟨t₀, found, rfl⟩ := Option.map_eq_some_iff.mp stored
    exact (keyed found : t₀.tid = k)
  · exact keyed stored

/-- The loop of `reparentChildren` acts on the view as `View.adoptChild` on each entry. -/
theorem view_foldlM_adopt (init : Tcb) {entries : List (ℕ × ℕ)} (keyed : s.view.Keyed) {s' : TaskSystem}
    (moved : entries.foldlM (fun s entry =>
      match s.upgrade entry.2 with
      | some child => do
        let s ← if child.task_status = .Zombie then
            s.recv_sigs_process_level init ⟨SIGCHLD, SigInfo.CLD_EXITED, none⟩
          else pure s
        pure (s.modifyCells child.cells fun c => { c with parent := some init.serial })
      | none => pure s) s = some s') :
    s'.view = entries.foldl (fun v entry => v.adoptChild init.serial entry) s.view := by
  induction entries generalizing s with
  | nil =>
    cases moved
    rfl
  | cons entry rest ih =>
    simp only [List.foldlM_cons, Option.bind_eq_bind, Option.bind_eq_some_iff] at moved
    obtain ⟨middle, stepped, moved⟩ := moved
    have adopted : middle.view = s.view.adoptChild init.serial entry := by
      rw [View.adoptChild, upgrade_view]
      cases found : s.upgrade entry.2 with
      | none =>
        simp only [found] at stepped
        cases stepped
        rfl
      | some child =>
        simp only [found] at stepped
        -- a zombie child is reported to init first, which leaves the view as it is
        obtain ⟨signalled, same, rfl⟩ : ∃ signalled : TaskSystem, signalled.view = s.view ∧
            middle = signalled.modifyCells child.cells fun c => { c with parent := some init.serial } := by
          split_ifs at stepped
          · obtain ⟨signalled, sent, done⟩ := Option.bind_eq_some_iff.mp stepped
            exact ⟨signalled, view_recv_sigs_process_level keyed sent, (Option.some.inj done).symm⟩
          · exact ⟨s, rfl, (Option.some.inj stepped).symm⟩
        rw [Option.map_some, view_modifyCells_comm _ _ (F := fun cells =>
          { cells with parent := some init.serial }) fun _ => rfl, same]
        rfl
    have keyedMiddle : middle.view.Keyed := by
      apply keyed.of_tasks
      rw [adopted, View.adoptChild_tasks]
    rw [ih keyedMiddle moved, adopted, List.foldl_cons]

end Exit

end TaskSystem

end Chronix
