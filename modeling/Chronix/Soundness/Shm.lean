import Mathlib
import Chronix.Model.Shm
import Chronix.Soundness.UserVmSpace

/-! # The attach count of a shared-memory segment

`nattch` is meant to count the areas, over every live address space, that map the segment. Only
`sys_shmat` and `sys_shmdt` move it. `fork` copies every area of the parent, shared-memory ones
included, through `UserVmSpace::from_existed` (`fromExisted_spec`), and leaves `nattch` as it
was (`step_fork_spec`). From a system where the count is right, a fork of a process that has the
segment attached leaves `nattch` below the number of areas (`step_fork_outruns_nattch`). After
that, a `shmdt` in each of the two processes detaches once more than `shmat` attached, and
`nattch -= 1` wraps.
-/

namespace Chronix

open Constant

/-- The areas of `vm` that map segment `obj`. -/
def UserVmSpace.attachedAreas (vm : UserVmSpace) (obj : ℕ) : ℕ :=
  vm.areas.tree.count fun node => node.value.file == .Shm obj

namespace ShmSystem

/-- The areas, over every live address space, that map segment `obj`. -/
def attachCount (s : ShmSystem) (obj : ℕ) : ℕ :=
  (s.spaces.entries.map fun entry => entry.2.attachedAreas obj).sum

/-- A new process adds the areas of its address space to every count. -/
theorem attachCount_insert_of_get?_none {s : ShmSystem} {pid : ℕ}
    (fresh : s.spaces.get? pid = none) (vm : UserVmSpace) (obj : ℕ) :
    attachCount { s with spaces := s.spaces.insert pid vm } obj =
      s.attachCount obj + vm.attachedAreas obj := by
  simp only [attachCount, ((s.spaces.perm_insert_of_get?_none fresh vm).map _).sum_eq,
    List.map_cons, List.sum_cons]
  exact add_comm _ _

/-- `fork` of a well-formed parent into a pid with no process never panics. It leaves the
manager, and so every `nattch`, as it was, and the child brings a copy of every area of the
parent. -/
theorem step_fork_spec {s : ShmSystem} {parent child : ℕ} {vm : UserVmSpace} (wf : vm.Wf)
    (running : s.spaces.get? parent = some vm) (fresh : s.spaces.get? child = none) :
    ∃ s', s.step (.fork parent child) = some s' ∧ s'.manager = s.manager ∧
      ∀ obj, s'.attachCount obj = s.attachCount obj + vm.attachedAreas obj := by
  obtain ⟨copy, existed, areas, -⟩ := UserVmSpace.fromExisted_spec wf
  refine ⟨{ s with spaces := s.spaces.insert child copy }, ?_, rfl, fun obj => ?_⟩
  · simp only [step, running, fresh, existed, Option.map_some]
  · rw [attachCount_insert_of_get?_none fresh, UserVmSpace.attachedAreas, areas]
    rfl

/-- From a system whose count of the areas mapping segment `obj` is its `nattch`, a fork of a
process with the segment attached keeps `nattch` and leaves it below that count. -/
theorem step_fork_outruns_nattch {s : ShmSystem} {parent child obj : ℕ} {vm : UserVmSpace}
    {ds : ShmIdDs} (wf : vm.Wf) (running : s.spaces.get? parent = some vm)
    (fresh : s.spaces.get? child = none) (attached : 0 < vm.attachedAreas obj)
    (stored : s.manager.ds obj = some ds) (counted : ds.nattch = s.attachCount obj) :
    ∃ s', s.step (.fork parent child) = some s' ∧ s'.manager.ds obj = some ds ∧
      ds.nattch < s'.attachCount obj := by
  obtain ⟨s', forked, manager, counts⟩ := step_fork_spec wf running fresh
  refine ⟨s', forked, manager ▸ stored, ?_⟩
  rw [counts, counted]
  exact Nat.lt_add_of_pos_right attached

/-- One process, pid `1`, with an empty address space. -/
def single : ShmSystem := ⟨.new, SortedMap.empty.insert 1 .new⟩

/-- The area `shmat` makes for a one-page segment: the first page of the share window. -/
def shmArea : UserVmArea :=
  .newMmap ⟨⟨257681248256⟩, ⟨257681252352⟩⟩ ((MapPerm.U.union .R).union .W) .MAP_SHARED (.Shm 0) 0
    4096

def attachedSpace : UserVmSpace := (UserVmSpace.new.pushArea shmArea).getD .new

/-- Process `1` after `shmget(IPC_PRIVATE, 4096, 0)` and `shmat` of the segment. -/
def attachedSystem : ShmSystem :=
  (single.run [.shmget IPC_PRIVATE 4096 0, .shmat 1 1 ⟨0⟩ 0]).getD single

theorem attachedSpace_wf : attachedSpace.Wf :=
  UserVmSpace.wf_new.pushArea (by decide) (fun _ absent => absurd absent List.not_mem_nil) rfl

set_option maxRecDepth 100000 in
theorem attachedSystem_running : attachedSystem.spaces.get? 1 = some attachedSpace := rfl

/-- At a system where `nattch = 1` counts the one area of pid `1`, a fork into pid `2` leaves
`nattch` at `1` for two areas, and a `shmdt` in each process then takes `nattch` below zero. -/
theorem step_fork_outruns_nattch_attachedSystem :
    attachedSpace.Wf ∧ attachedSystem.spaces.get? 1 = some attachedSpace ∧
      (attachedSystem.spaces.get? 2).isNone ∧ 0 < attachedSpace.attachedAreas 0 ∧
      attachedSystem.manager.ds 0 = some ⟨4096, 1⟩ ∧ (⟨4096, 1⟩ : ShmIdDs).nattch = attachedSystem.attachCount 0 ∧
      (∃ s', attachedSystem.step (.fork 1 2) = some s' ∧ s'.manager.ds 0 = some ⟨4096, 1⟩ ∧
        (⟨4096, 1⟩ : ShmIdDs).nattch < s'.attachCount 0) ∧
      (attachedSystem.run [.fork 1 2, .shmdt 1 ⟨257681248256⟩, .shmdt 2 ⟨257681248256⟩]).map
        (fun s => s.manager.ds 0) = some (some ⟨4096, 2 ^ 64 - 1⟩) := by
  have fresh : attachedSystem.spaces.get? 2 = none := by
    simpa using (by decide +kernel : (attachedSystem.spaces.get? 2).isNone = true)
  have attached : 0 < attachedSpace.attachedAreas 0 := by decide +kernel
  have stored : attachedSystem.manager.ds 0 = some ⟨4096, 1⟩ := by decide +kernel
  have counted : (⟨4096, 1⟩ : ShmIdDs).nattch = attachedSystem.attachCount 0 := by decide +kernel
  refine ⟨attachedSpace_wf, attachedSystem_running, by rw [fresh]; rfl, attached, stored, counted,
    step_fork_outruns_nattch attachedSpace_wf attachedSystem_running fresh attached stored counted,
    ?_⟩
  decide +kernel

end ShmSystem

end Chronix
