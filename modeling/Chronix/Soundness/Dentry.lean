import Mathlib
import Chronix.Model.Dentry

/-! # Path resolution and `mkdirat` against the directory tree

`at_helper1` strips leading `../` from a relative path with a counter that moves to the parent
in every round but the first, so its first `../` goes and moves nowhere: `../p` resolves as `p`
does (`at_helper1_drops_first_dotdot`). `Dentry::walk` stops at the first missing name and hands
back a negative dentry for it, and `sys_mkdirat` gives that dentry the new directory without
checking that it is the last component of the path: with `/x` missing, `mkdirat("/x/y")`
returns 0 and makes `/x` (`sysMkdirat_missing_parent_makes_it`).
-/

namespace Chronix

namespace Vfs

variable {t : Vfs}

/-! ## The `../` loop of `at_helper1` -/

theorem trimDotDot_slash (p : List Char) (relative : ['/'].isPrefixOf p = false) :
    Str.trimStartMatches ['/'] (Str.trimStartMatches ['.', '.'] (['.', '.', '/'] ++ p)) = p := by
  have dots : Str.trimStartMatches ['.', '.'] (['.', '.'] ++ ('/' :: p)) = '/' :: p :=
    Str.trimStartMatches_append (by simp) rfl
  have slash : Str.trimStartMatches ['/'] (['/'] ++ p) = p :=
    Str.trimStartMatches_append (by simp) relative
  exact (congrArg (Str.trimStartMatches ['/']) dots).trans slash

/-- A path that does not start with `../` leaves the loop at once. -/
theorem resolveParents_of_not_dotdot (fuel cnt parent : ℕ) {p : List Char}
    (noMore : ['.', '.', '/'].isPrefixOf p = false) :
    t.resolveParents fuel cnt parent p = some (parent, p) := by
  cases fuel with
  | zero => rfl
  | succ fuel => simp [resolveParents, noMore]

/-- The first round of the loop takes `../` off and stays where it is. -/
theorem resolveParents_first_dotdot (parent : ℕ) {p : List Char}
    (relative : ['/'].isPrefixOf p = false) (noMore : ['.', '.', '/'].isPrefixOf p = false) :
    t.resolveParents (['.', '.', '/'] ++ p).length 0 parent (['.', '.', '/'] ++ p) =
      t.resolveParents p.length 0 parent p := by
  have long : (['.', '.', '/'] ++ p).length = (p.length + 2) + 1 := by simp
  have leading : ['.', '.', '/'].isPrefixOf (['.', '.', '/'] ++ p) = true :=
    List.isPrefixOf_iff_prefix.mpr (List.prefix_append _ _)
  rw [long, resolveParents, if_pos leading]
  simp only [gt_iff_lt, lt_self_iff_false, ↓reduceIte, Option.bind_eq_bind, Option.bind_some,
    trimDotDot_slash p relative, resolveParents_of_not_dotdot _ _ _ noMore]

theorem at_helper1_drops_first_dotdot (t : Vfs) (task : FsTask) (dirfd : ℤ) (flags : ℕ)
    (p : List Char) (nonempty : p ≠ []) (relative : ['/'].isPrefixOf p = false)
    (noMore : ['.', '.', '/'].isPrefixOf p = false) :
    t.at_helper1 task dirfd (['.', '.', '/'] ++ p) flags = t.at_helper1 task dirfd p flags := by
  have absolute : ['/'].isPrefixOf (['.', '.', '/'] ++ p) = false := rfl
  simp only [at_helper1, atRelative, ne_eq, List.append_eq_nil_iff, nonempty, absolute, relative,
    resolveParents_first_dotdot _ relative noMore, and_false, not_false_eq_true, ↓reduceIte,
    Bool.false_eq_true]

/-! ## Dentries after an update -/

@[simp] theorem unwrap_some {α : Type} (a : α) : unwrap (some a) = pure a := rfl

theorem lt_of_inode {d i : ℕ} (found : (t.node d).inode = some i) : d < t.dentries.length := by
  by_contra outside
  rw [node, List.getD_eq_default _ _ (not_lt.mp outside)] at found
  cases found

theorem node_modifyNode_self {d : ℕ} (inside : d < t.dentries.length) (f : DentryNode → DentryNode) :
    (t.modifyNode d f).node d = f (t.node d) := by
  simp [node, modifyNode, List.getD_eq_getElem?_getD, inside]

theorem node_modifyNode_of_ne {d k : ℕ} (other : d ≠ k) (f : DentryNode → DentryNode) :
    (t.modifyNode d f).node k = t.node k := by
  simp [node, modifyNode, List.getD_eq_getElem?_getD, other]

theorem node_create (mode : InodeMode) (d : ℕ) : (t.create mode).1.node d = t.node d := rfl

theorem length_modifyNode (d : ℕ) (f : DentryNode → DentryNode) :
    (t.modifyNode d f).dentries.length = t.dentries.length :=
  List.length_modify ..

/-- `set_inode` then `set_state` on a dentry, seen from that dentry. -/
theorem node_set_inode_set_state {d : ℕ} (inside : d < t.dentries.length) (i : ℕ)
    (state : DentryState) :
    ((t.set_inode d i).set_state d state).node d = { t.node d with inode := some i, state } := by
  rw [set_state, node_modifyNode_self (by rw [set_inode, length_modifyNode]; exact inside),
    set_inode, node_modifyNode_self inside]

theorem node_add_child_self {d : ℕ} (inside : d < t.dentries.length) (child : ℕ) :
    (t.add_child d child).node d =
      { t.node d with children := Function.update (t.node d).children (t.node child).name (some child) } :=
  node_modifyNode_self inside _

/-! ## A walk into a missing directory -/

/-- `/x/y` splits into the names `x` and `y`. -/
theorem walk_absolute (start : ℕ) {x y : List Char} (xFree : '/' ∉ x) (yFree : '/' ∉ y)
    (xName : x ≠ [] ∧ x ≠ ['.']) (yName : y ≠ [] ∧ y ≠ ['.']) :
    t.walk start ('/' :: (x ++ '/' :: y)) = t.walkNames start [x, y] := by
  have split : ('/' :: (x ++ '/' :: y)).splitOn '/' = [[], x, y] := by
    have parts : (['/'].intercalate [[], x, y]).splitOn '/' = [[], x, y] :=
      List.splitOn_intercalate '/' (by simp [xFree, yFree]) (by simp)
    simpa [List.intercalate] using parts
  rw [walk, split]
  simp [xName, yName]

/-- A walk stops at a missing name below a directory with a new negative dentry for it. -/
theorem walkNames_missing {d i : ℕ} {name : List Char} (missing : t.get_child d name = none)
    (dir : (t.node d).inode = some i) (isDir : t.inode_type i = .DIR) (rest : List (List Char)) :
    ∃ t', t.walkNames d (name :: rest) = pure (t', t.dentries.length) ∧
      t'.dentries = t.dentries ++ [⟨name, some d, fun _ => none, .NEGATIVE, none⟩] ∧
      t'.inodes = t.inodes := by
  let neg : DentryNode := ⟨name, some d, fun _ => none, .NEGATIVE, none⟩
  let added : Vfs := { t with dentries := t.dentries ++ [neg] }
  refine ⟨{ added with
    dcache := Function.update added.dcache (added.path t.dentries.length) (some t.dentries.length) },
    ?_, rfl, rfl⟩
  simp [walkNames, missing, load_child_dentry, new_neg_dentry, dir, isDir, added, neg]

/-- With `/x` missing, `mkdirat("/x/y")` succeeds, and the root then lists `x` as a directory
made for the call. -/
theorem sysMkdirat_missing_parent_makes_it (t : Vfs) (task : FsTask) (dirfd : ℤ)
    (x y : List Char) (root i : ℕ) (xFree : '/' ∉ x) (yFree : '/' ∉ y)
    (xName : x ≠ [] ∧ x ≠ ['.']) (yName : y ≠ [] ∧ y ≠ ['.'])
    (uncached : t.dcache ('/' :: (x ++ '/' :: y)) = none) (rootCached : t.dcache ['/'] = some root)
    (missing : t.get_child root x = none) (rootDir : (t.node root).inode = some i)
    (isDir : t.inode_type i = .DIR) :
    ∃ t', (t.sys_mkdirat task dirfd ('/' :: (x ++ '/' :: y))).run = some (.ok (t', 0)) ∧
      t'.get_child root x = some t.dentries.length ∧ (t'.node t.dentries.length).state = .USED ∧
      ∃ inode, (t'.node t.dentries.length).inode = some inode ∧ t'.inode_type inode = .DIR := by
  obtain ⟨walked, stepped, dentries, inodes⟩ := walkNames_missing missing rootDir isDir [y]
  have rootInside := lt_of_inode rootDir
  have found : t.global_find_dentry ('/' :: (x ++ '/' :: y)) = pure (walked, t.dentries.length) := by
    simp [global_find_dentry, uncached, rootCached, walk_absolute root xFree yFree xName yName,
      stepped]
  have negNode : walked.node t.dentries.length = ⟨x, some root, fun _ => none, .NEGATIVE, none⟩ := by
    simp [node, dentries]
  have rootNode : walked.node root = t.node root := by
    rw [node, node, dentries, List.getD_append _ _ _ _ rootInside]
  -- the state `sys_mkdirat` leaves: the new inode, the negative dentry made used, the root's child
  have other : root ≠ t.dentries.length := rootInside.ne
  have negInside : t.dentries.length < walked.dentries.length := by simp [dentries]
  let made := walked.create .DIR
  let used := (made.1.set_inode t.dentries.length made.2).set_state t.dentries.length .USED
  have usedNeg : used.node t.dentries.length = ⟨x, some root, fun _ => none, .USED, some made.2⟩ := by
    rw [show used = (made.1.set_inode _ made.2).set_state _ .USED from rfl,
      node_set_inode_set_state (t := made.1) negInside, node_create, negNode]
  have usedRoot : used.node root = t.node root := by
    simp only [used, set_state, set_inode, node_modifyNode_of_ne other.symm]
    exact rootNode
  have rootInside' : root < used.dentries.length := by
    simp only [used, set_state, set_inode, length_modifyNode, made, create, dentries,
      List.length_append]
    omega
  refine ⟨used.add_child root t.dentries.length, ?_, ?_, ?_, made.2, ?_, ?_⟩
  · simp [sys_mkdirat, at_helper1, found, follow, is_negative, negNode, parent, abs_path_to_name,
      rootNode, rootDir, create, used, made]
  · rw [get_child, node_add_child_self rootInside', usedNeg]
    simp
  · rw [add_child, node_modifyNode_of_ne other, usedNeg]
  · rw [add_child, node_modifyNode_of_ne other, usedNeg]
  · simp [inode_type, used, made, create, set_state, set_inode, modifyNode, add_child, inodes]

/-- A tmpfs with only its root directory, in `DCACHE` under `/`. -/
def rootOnly : Vfs where
  dentries := [⟨[], none, fun _ => none, .USED, some 0⟩]
  inodes := [.DIR]
  dcache := fun path => if path = ['/'] then some 0 else none

/-- `mkdirat("/x/y")` on a tmpfs with only its root returns 0 and makes `/x`. -/
theorem sysMkdirat_missing_parent_makes_it_rootOnly :
    ∃ t', (rootOnly.sys_mkdirat ⟨0, fun _ => none⟩ AT_FDCWD ['/', 'x', '/', 'y']).run =
        some (.ok (t', 0)) ∧
      t'.get_child 0 ['x'] = some 1 ∧ (t'.node 1).state = .USED ∧
      ∃ inode, (t'.node 1).inode = some inode ∧ t'.inode_type inode = .DIR :=
  sysMkdirat_missing_parent_makes_it rootOnly _ _ ['x'] ['y'] 0 0 (by decide) (by decide)
    (by decide) (by decide) rfl rfl rfl rfl rfl

/-- The sample tree: the root with the directories `a` and `c`, all three in `DCACHE`. -/
def siblingDirs : Vfs where
  dentries :=
    [⟨[], none, fun name => if name = ['a'] then some 1 else if name = ['c'] then some 2 else none,
        .USED, some 0⟩,
      ⟨['a'], some 0, fun _ => none, .USED, some 1⟩, ⟨['c'], some 0, fun _ => none, .USED, some 2⟩]
  inodes := [.DIR, .DIR, .DIR]
  dcache := fun path =>
    if path = ['/'] then some 0 else if path = ['/', 'a'] then some 1
    else if path = ['/', 'c'] then some 2 else none

/-- From `/a`, `../c` resolves as `c` does, to a negative `/a/c`, though `/c` is a directory. -/
theorem at_helper1_drops_first_dotdot_siblings :
    siblingDirs.at_helper1 ⟨1, fun _ => none⟩ AT_FDCWD (['.', '.', '/'] ++ ['c']) 0 =
        siblingDirs.at_helper1 ⟨1, fun _ => none⟩ AT_FDCWD ['c'] 0 ∧
      ((siblingDirs.at_helper1 ⟨1, fun _ => none⟩ AT_FDCWD ['c'] 0).run.map fun result =>
        result.toOption.map fun found => (found.1.is_negative found.2, found.1.path found.2)) =
        some (some (true, ['/', 'a', '/', 'c'])) ∧
      siblingDirs.dcache ['/', 'c'] = some 2 :=
  ⟨at_helper1_drops_first_dotdot _ _ _ _ ['c'] (by simp) rfl rfl, rfl, rfl⟩

end Vfs

end Chronix
