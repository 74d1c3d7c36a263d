import Mathlib
import Chronix.Model.SlabAllocator
import Chronix.ToMathlib.Reachable

/-! # Bookkeeping of the slab caches

A cache files its blocks on three intrusive lists by how many of their objects are handed out,
and each block threads its free objects through their first word. `Bookkeeping` says all of it
at once: the lists hold every block once (`Stacks`), each by its count (`Sized`); the free chain
of each block runs through `cap - size` distinct objects of the block, and the objects handed
out are exactly the others (`Chains`); and the blocks and the frames still to come share no page
(`Separated`). `alloc` and `dealloc` keep it for every layout whose objects fit their blocks and
for block insertion and lookup that behave; the caches of `SlabAllocatorInner` meet both, so
over every run of requests that return only what they hold, `alloc` and `dealloc` never panic
and no object is handed out twice.
-/

namespace Chronix

open Constant LinkedStack

namespace SlabLayout

/-- What `alloc` and `dealloc` rely on in a cache's blocks: two objects or more, each of a byte
or more, all within the block's pages, and a count that fits a `usize`. -/
structure Wf (layout : SlabLayout) : Prop where
  two_le_cap : 2 ≤ layout.cap
  objectSize_pos : 0 < layout.objectSize
  fits : layout.firstNode + layout.cap * layout.objectSize ≤ layout.pageCnt * PAGE_SIZE
  cap_lt : layout.cap < 2 ^ 64

instance (layout : SlabLayout) : Decidable layout.Wf :=
  decidable_of_iff (2 ≤ layout.cap ∧ 0 < layout.objectSize ∧
      layout.firstNode + layout.cap * layout.objectSize ≤ layout.pageCnt * PAGE_SIZE ∧
      layout.cap < 2 ^ 64)
    ⟨fun ⟨two, positive, fits, small⟩ => ⟨two, positive, fits, small⟩,
      fun ⟨two, positive, fits, small⟩ => ⟨two, positive, fits, small⟩⟩

/-- The blocks at pages `a` and `b` have no page in common. -/
def Apart (layout : SlabLayout) (a b : ℕ) : Prop :=
  a + layout.pageCnt ≤ b ∨ b + layout.pageCnt ≤ a

variable {layout : SlabLayout}

theorem Apart.symm {a b : ℕ} (apart : layout.Apart a b) : layout.Apart b a := Or.symm apart

instance : Std.Symm layout.Apart := ⟨fun _ _ => Apart.symm⟩

@[simp] theorem length_nodes (ppn : ℕ) : (layout.nodes ppn).length = layout.cap := by
  simp [nodes]

theorem mem_nodes {ppn p : ℕ} : p ∈ layout.nodes ppn ↔ ∃ k < layout.cap, layout.nodeAddr ppn k = p := by
  simp [nodes]

theorem Wf.pageCnt_pos (wf : layout.Wf) : 0 < layout.pageCnt := by
  have objects : 2 ≤ layout.cap * layout.objectSize :=
    Nat.le_trans wf.two_le_cap (Nat.le_mul_of_pos_right _ wf.objectSize_pos)
  have fits := wf.fits
  simp only [PAGE_SIZE] at fits
  omega

theorem Wf.ne_of_apart (wf : layout.Wf) {a b : ℕ} (apart : layout.Apart a b) : a ≠ b := by
  have := wf.pageCnt_pos
  unfold Apart at apart
  omega

theorem Wf.nodes_nodup (wf : layout.Wf) (ppn : ℕ) : (layout.nodes ppn).Nodup := by
  refine List.Nodup.map (fun k k' same => ?_) List.nodup_range
  simp only [nodeAddr, Nat.add_left_cancel_iff] at same
  exact Nat.eq_of_mul_eq_mul_right wf.objectSize_pos same

/-- The objects of a block lie within its pages. -/
theorem Wf.page_of_mem_nodes (wf : layout.Wf) {ppn p : ℕ} (member : p ∈ layout.nodes ppn) :
    ppn ≤ p / PAGE_SIZE ∧ p / PAGE_SIZE < ppn + layout.pageCnt := by
  obtain ⟨k, below, rfl⟩ := mem_nodes.mp member
  have room : k * layout.objectSize + layout.objectSize ≤ layout.cap * layout.objectSize := by
    rw [← Nat.succ_mul]; exact Nat.mul_le_mul_right _ below
  have fits := wf.fits
  have positive := wf.objectSize_pos
  simp only [nodeAddr, PAGE_SIZE] at fits ⊢
  constructor <;> omega

/-- Blocks that are apart share no object. -/
theorem Wf.not_mem_nodes_of_apart (wf : layout.Wf) {a b p : ℕ} (apart : layout.Apart a b)
    (member : p ∈ layout.nodes a) : p ∉ layout.nodes b := fun member' => by
  have inA := wf.page_of_mem_nodes member
  have inB := wf.page_of_mem_nodes member'
  unfold Apart at apart
  omega

end SlabLayout

/-- The threading loop leaves every other address alone. -/
theorem linkNodes_of_not_mem {node : ℕ → Option ℕ} {last x : ℕ} {rest : List ℕ}
    (outside : x ∉ last :: rest) : linkNodes node last rest x = node x := by
  induction rest generalizing node last with
  | nil =>
    simp only [List.mem_singleton] at outside
    simp [linkNodes, outside]
  | cons next rest ih =>
    simp only [List.mem_cons, not_or] at outside
    rw [linkNodes, ih (by simp [outside.2.1, outside.2.2])]
    exact Function.update_of_ne outside.1 _ _

/-- The threading loop makes the objects a chain, in order. -/
theorem chain_linkNodes {node : ℕ → Option ℕ} {last : ℕ} {rest : List ℕ}
    (nodup : (last :: rest).Nodup) : Chain (linkNodes node last rest) (some last) (last :: rest) := by
  induction rest generalizing node last with
  | nil => simp [linkNodes]
  | cons next rest ih =>
    have distinct := List.nodup_cons.mp nodup
    refine ⟨rfl, ?_⟩
    rw [linkNodes, linkNodes_of_not_mem distinct.1, Function.update_self]
    exact ih distinct.2
namespace SlabState

variable {layout : SlabLayout}

/-- The three block lists hold every block of the cache once. -/
structure Stacks (c : SlabState) (E F U : List ℕ) : Prop where
  empty : Holds c.links c.emptyBlkList E
  free : Holds c.links c.freeBlkList F
  full : Holds c.links c.fullBlkList U
  perm : (E ++ F ++ U).Perm c.blocks

/-- A block's list is the one its count of handed-out objects calls for. -/
structure Sized (layout : SlabLayout) (c : SlabState) (E F U : List ℕ) : Prop where
  empty : ∀ b ∈ E, c.size b = 0
  free : ∀ b ∈ F, 0 < c.size b ∧ c.size b < layout.cap
  full : ∀ b ∈ U, c.size b = layout.cap

/-- The free chain `chains b` of each block, threaded through `node` from `head b`, and the
objects handed out, which are the objects of the blocks that no chain holds. -/
structure Chains (layout : SlabLayout) (c : SlabState) (out : List ℕ) (chains : ℕ → List ℕ) :
    Prop where
  chain : ∀ b ∈ c.blocks, Chain c.node (c.head b) (chains b)
  nodup : ∀ b ∈ c.blocks, (chains b).Nodup
  subset : ∀ b ∈ c.blocks, chains b ⊆ layout.nodes b
  length : ∀ b ∈ c.blocks, (chains b).length + c.size b = layout.cap
  out_nodup : out.Nodup
  mem_out : ∀ p, p ∈ out ↔ ∃ b ∈ c.blocks, p ∈ layout.nodes b ∧ p ∉ chains b

/-- The frames still to come and the blocks have no page in common. -/
def Separated (layout : SlabLayout) (c : SlabState) : Prop :=
  (c.frames ++ c.blocks).Pairwise layout.Apart

/-- The bookkeeping of a cache with `out` handed out. -/
def Bookkeeping (layout : SlabLayout) (c : SlabState) (out : List ℕ) : Prop :=
  ∃ E F U chains, c.Stacks E F U ∧ c.Sized layout E F U ∧ c.Chains layout out chains ∧
    c.Separated layout

variable {c : SlabState} {out E F U : List ℕ} {chains : ℕ → List ℕ}

theorem Separated.blocks (separated : c.Separated layout) : c.blocks.Pairwise layout.Apart :=
  separated.sublist (List.sublist_append_right _ _)

theorem Separated.blocks_nodup (wf : layout.Wf) (separated : c.Separated layout) :
    c.blocks.Nodup :=
  separated.blocks.imp wf.ne_of_apart

theorem Stacks.nodup (lists : c.Stacks E F U) (wf : layout.Wf) (separated : c.Separated layout) :
    (E ++ F ++ U).Nodup :=
  lists.perm.nodup_iff.mpr (separated.blocks_nodup wf)

theorem Stacks.mem (lists : c.Stacks E F U) {b : ℕ} : b ∈ c.blocks ↔ b ∈ E ∨ b ∈ F ∨ b ∈ U := by
  rw [← lists.perm.mem_iff]
  simp

/-- Two blocks of the cache with an object in common are the same block. -/
theorem Separated.eq_of_mem_nodes (wf : layout.Wf) (separated : c.Separated layout) {a b p : ℕ}
    (memberA : a ∈ c.blocks) (memberB : b ∈ c.blocks) (inA : p ∈ layout.nodes a)
    (inB : p ∈ layout.nodes b) : a = b := by
  by_contra different
  have apart : layout.Apart a b :=
    separated.blocks.forall memberA memberB different
  exact wf.not_mem_nodes_of_apart apart inA inB

theorem Chains.of_eq {c' : SlabState} (chainsOk : c.Chains layout out chains)
    (blocks : c'.blocks = c.blocks) (node : c'.node = c.node) (head : c'.head = c.head)
    (size : c'.size = c.size) : c'.Chains layout out chains := by
  obtain ⟨chain, nodup, subset, length, outNodup, memOut⟩ := chainsOk
  refine ⟨?_, ?_, ?_, ?_, outNodup, ?_⟩ <;> rw [blocks]
  · rwa [node, head]
  · exact nodup
  · exact subset
  · rwa [size]
  · exact memOut

/-- An object on a free chain is not handed out. -/
theorem Chains.not_mem_out (chainsOk : c.Chains layout out chains) (wf : layout.Wf)
    (separated : c.Separated layout) {b p : ℕ} (member : b ∈ c.blocks) (free : p ∈ chains b) :
    p ∉ out := fun taken => by
  obtain ⟨b', member', inNodes, notFree⟩ := (chainsOk.mem_out p).mp taken
  obtain rfl := separated.eq_of_mem_nodes wf member member' (chainsOk.subset b member free) inNodes
  exact notFree free

/-- The chain of another block does not hold an object of block `blk`. -/
theorem Chains.ne_of_mem (chainsOk : c.Chains layout out chains) (wf : layout.Wf)
    (separated : c.Separated layout) {blk b p x : ℕ} (member : blk ∈ c.blocks)
    (member' : b ∈ c.blocks) (different : b ≠ blk) (inNodes : p ∈ layout.nodes blk)
    (free : x ∈ chains b) : x ≠ p := fun same =>
  different (separated.eq_of_mem_nodes wf member' member (chainsOk.subset b member' free)
    (same ▸ inNodes))

/-- Taking the first object `ret` off block `blk`'s chain hands it out. -/
theorem Chains.take (chainsOk : c.Chains layout out chains) (wf : layout.Wf)
    (separated : c.Separated layout) {blk ret : ℕ} {rest : List ℕ} (member : blk ∈ c.blocks)
    (taken : chains blk = ret :: rest) :
    Chains layout { c with
      head := Function.update c.head blk (c.node ret)
      node := Function.update c.node ret none
      size := Function.update c.size blk (usizeWrap (c.size blk + 1)) }
      (ret :: out) (Function.update chains blk rest) := by
  have nodup := chainsOk.nodup blk member
  rw [taken, List.nodup_cons] at nodup
  have retNode : ret ∈ layout.nodes blk := chainsOk.subset blk member (by simp [taken])
  have length := chainsOk.length blk member
  rw [taken, List.length_cons] at length
  have small : c.size blk + 1 < 2 ^ 64 := by have := wf.cap_lt; omega
  refine ⟨fun b member' => ?_, fun b member' => ?_, fun b member' => ?_, fun b member' => ?_,
    List.nodup_cons.mpr ⟨chainsOk.not_mem_out wf separated member (by simp [taken]),
      chainsOk.out_nodup⟩, fun p => ?_⟩
  case refine_1 =>
    by_cases same : b = blk
    · subst same
      have chain := chainsOk.chain b member
      rw [taken] at chain
      simpa using chain.pop nodup.1
    · simp only [Function.update_of_ne same]
      exact (chainsOk.chain b member').congr fun x free => Function.update_of_ne
        (chainsOk.ne_of_mem wf separated member member' same retNode free) _ _
  case refine_2 =>
    by_cases same : b = blk
    · subst same; simpa using nodup.2
    · simpa [same] using chainsOk.nodup b member'
  case refine_3 =>
    by_cases same : b = blk
    · subst same
      simpa using List.Subset.trans (List.subset_cons_self ret rest)
        (taken ▸ chainsOk.subset b member)
    · simpa [same] using chainsOk.subset b member'
  case refine_4 =>
    by_cases same : b = blk
    · subst same
      simp only [Function.update_self, usizeWrap_of_lt small]
      omega
    · simpa [same] using chainsOk.length b member'
  simp only [List.mem_cons, chainsOk.mem_out]
  constructor
  · rintro (rfl | ⟨b, member', inNodes, notFree⟩)
    · exact ⟨blk, member, retNode, by simpa using nodup.1⟩
    · refine ⟨b, member', inNodes, ?_⟩
      by_cases same : b = blk
      · subst same; simp_all
      · simpa [same] using notFree
  · rintro ⟨b, member', inNodes, notFree⟩
    by_cases same : b = blk
    · subst same
      by_cases first : p = ret
      · exact .inl first
      · exact .inr ⟨b, member', inNodes, by simp_all⟩
    · exact .inr ⟨b, member', inNodes, by simpa [same] using notFree⟩

/-- A handed-out object of block `blk` makes the chain of `blk` shorter than the block. -/
theorem Chains.size_pos (chainsOk : c.Chains layout out chains) (wf : layout.Wf)
    (separated : c.Separated layout) {blk p : ℕ} (member : blk ∈ c.blocks)
    (inNodes : p ∈ layout.nodes blk) (taken : p ∈ out) : 0 < c.size blk := by
  have notFree : p ∉ chains blk := fun free => chainsOk.not_mem_out wf separated member free taken
  have within : (p :: chains blk).length ≤ layout.cap := by
    have subperm := (List.nodup_cons.mpr ⟨notFree, chainsOk.nodup blk member⟩).subperm
      (List.cons_subset.mpr ⟨inNodes, chainsOk.subset blk member⟩)
    simpa using subperm.length_le
  have := chainsOk.length blk member
  simp only [List.length_cons] at within
  omega

/-- Returning a handed-out object `p` of block `blk` puts it first on the block's chain. -/
theorem Chains.give (chainsOk : c.Chains layout out chains) (wf : layout.Wf)
    (separated : c.Separated layout) {blk p : ℕ} (member : blk ∈ c.blocks)
    (inNodes : p ∈ layout.nodes blk) (taken : p ∈ out) :
    Chains layout { c with
      node := Function.update c.node p (c.head blk)
      head := Function.update c.head blk (some p)
      size := Function.update c.size blk (usizeSub (c.size blk) 1) }
      (out.erase p) (Function.update chains blk (p :: chains blk)) := by
  have notFree : p ∉ chains blk := fun free => chainsOk.not_mem_out wf separated member free taken
  have positive := chainsOk.size_pos wf separated member inNodes taken
  have length := chainsOk.length blk member
  have small : c.size blk < 2 ^ 64 := by have := wf.cap_lt; omega
  refine ⟨fun b member' => ?_, fun b member' => ?_, fun b member' => ?_, fun b member' => ?_,
    chainsOk.out_nodup.erase p, fun q => ?_⟩
  case refine_1 =>
    by_cases same : b = blk
    · subst same
      simpa using (chainsOk.chain b member).push notFree
    · simp only [Function.update_of_ne same]
      exact (chainsOk.chain b member').congr fun x free => Function.update_of_ne
        (chainsOk.ne_of_mem wf separated member member' same inNodes free) _ _
  case refine_2 =>
    by_cases same : b = blk
    · subst same; simpa using ⟨notFree, chainsOk.nodup b member⟩
    · simpa [same] using chainsOk.nodup b member'
  case refine_3 =>
    by_cases same : b = blk
    · subst same; simpa using ⟨inNodes, chainsOk.subset b member⟩
    · simpa [same] using chainsOk.subset b member'
  case refine_4 =>
    by_cases same : b = blk
    · subst same
      simp only [Function.update_self, List.length_cons, usizeSub_one positive small]
      omega
    · simpa [same] using chainsOk.length b member'
  rw [chainsOk.out_nodup.mem_erase_iff, chainsOk.mem_out]
  constructor
  · rintro ⟨other, b, member', inNodes', notFree'⟩
    refine ⟨b, member', inNodes', ?_⟩
    by_cases same : b = blk
    · subst same; simp_all
    · simpa [same] using notFree'
  · rintro ⟨b, member', inNodes', notFree'⟩
    by_cases same : b = blk
    · subst same
      simp only [Function.update_self, List.mem_cons, not_or] at notFree'
      exact ⟨notFree'.1, b, member', inNodes', notFree'.2⟩
    · have free' : q ∉ chains b := by simpa [same] using notFree'
      refine ⟨fun first => same ?_, b, member', inNodes', free'⟩
      exact separated.eq_of_mem_nodes wf member' member inNodes' (first ▸ inNodes)

/-- A new block at page `ppn`, its objects threaded from `first`, has them all on its chain. -/
theorem Chains.newBlock (chainsOk : c.Chains layout out chains) (wf : layout.Wf)
    (separated : c.Separated layout) {ppn : ℕ} {frames : List ℕ} (next : c.frames = ppn :: frames)
    {first : ℕ} {rest : List ℕ} (threaded : layout.nodes ppn = first :: rest) :
    Chains layout { c with
      blocks := ppn :: c.blocks
      frames := frames
      size := Function.update c.size ppn 0
      head := Function.update c.head ppn (some first)
      node := linkNodes c.node first rest }
      out (Function.update chains ppn (layout.nodes ppn)) := by
  have apart : ∀ b ∈ c.blocks, layout.Apart ppn b := by
    unfold Separated at separated
    rw [next, List.cons_append, List.pairwise_cons] at separated
    exact fun b member => separated.1 b (List.mem_append_right _ member)
  have fresh : ppn ∉ c.blocks := fun member => wf.ne_of_apart (apart ppn member) rfl
  have other : ∀ b ∈ c.blocks, b ≠ ppn := fun b member same => fresh (same ▸ member)
  refine ⟨fun b member => ?_, fun b member => ?_, fun b member => ?_, fun b member => ?_,
    chainsOk.out_nodup, fun q => ?_⟩
  case refine_1 =>
    rcases List.mem_cons.mp member with rfl | member
    · simpa [threaded] using chain_linkNodes (threaded ▸ wf.nodes_nodup b)
    · simp only [Function.update_of_ne (other b member)]
      refine (chainsOk.chain b member).congr fun x free => linkNodes_of_not_mem ?_
      rw [← threaded]
      exact wf.not_mem_nodes_of_apart (apart b member).symm (chainsOk.subset b member free)
  case refine_2 =>
    rcases List.mem_cons.mp member with rfl | member
    · simpa using wf.nodes_nodup b
    · simpa [other b member] using chainsOk.nodup b member
  case refine_3 =>
    rcases List.mem_cons.mp member with rfl | member
    · simp
    · simpa [other b member] using chainsOk.subset b member
  case refine_4 =>
    rcases List.mem_cons.mp member with rfl | member
    · simp
    · simpa [other b member] using chainsOk.length b member
  rw [chainsOk.mem_out]
  constructor
  · rintro ⟨b, member, inNodes, notFree⟩
    exact ⟨b, List.mem_cons_of_mem _ member, inNodes, by simpa [other b member] using notFree⟩
  · rintro ⟨b, member, inNodes, notFree⟩
    rcases List.mem_cons.mp member with rfl | member
    · simp at notFree; exact absurd inNodes notFree
    · exact ⟨b, member, inNodes, by simpa [other b member] using notFree⟩

/-- A rearrangement of the block lists has each block once. -/
theorem Stacks.nodup_of_perm (lists : c.Stacks E F U) (wf : layout.Wf)
    (separated : c.Separated layout) {blocks : List ℕ} (perm : blocks.Perm (E ++ F ++ U)) :
    blocks.Nodup :=
  perm.nodup_iff.mpr (lists.nodup wf separated)

/-- Each list holds its blocks once, and no block is on two lists. -/
theorem Stacks.lists_nodup (lists : c.Stacks E F U) (wf : layout.Wf)
    (separated : c.Separated layout) :
    E.Nodup ∧ F.Nodup ∧ U.Nodup ∧ (∀ b ∈ E, b ∉ F) ∧ (∀ b ∈ E, b ∉ U) ∧ ∀ b ∈ F, b ∉ U := by
  have nodup := lists.nodup wf separated
  simp only [List.nodup_append, List.mem_append] at nodup
  obtain ⟨⟨nodupE, nodupF, apartEF⟩, nodupU, apartU⟩ := nodup
  exact ⟨nodupE, nodupF, nodupU, fun b member member' => apartEF b member b member' rfl,
    fun b member member' => apartU b (.inl member) b member' rfl,
    fun b member member' => apartU b (.inr member) b member' rfl⟩

theorem Sized.mono (sized : c.Sized layout E F U) {E' F' U' : List ℕ} (inE : E' ⊆ E)
    (inF : F' ⊆ F) (inU : U' ⊆ U) : c.Sized layout E' F' U' :=
  ⟨fun b member => sized.empty b (inE member), fun b member => sized.free b (inF member),
    fun b member => sized.full b (inU member)⟩

/-- A new count for a block on none of the lists keeps the lists' rule. -/
theorem Sized.of_update (sized : c.Sized layout E F U) {c' : SlabState} {blk count : ℕ}
    (size : c'.size = Function.update c.size blk count) (outside : blk ∉ E ++ F ++ U) :
    c'.Sized layout E F U := by
  have same : ∀ b ∈ E ++ F ++ U, c'.size b = c.size b := fun b member => by
    rw [size, Function.update_of_ne fun (same : b = blk) => outside (same ▸ member)]
  refine ⟨fun b member => ?_, fun b member => ?_, fun b member => ?_⟩
  · rw [same b (by simp [member])]; exact sized.empty b member
  · rw [same b (by simp [member])]; exact sized.free b member
  · rw [same b (by simp [member])]; exact sized.full b member

theorem Sized.cons_empty (sized : c.Sized layout E F U) {blk : ℕ} (zero : c.size blk = 0) :
    c.Sized layout (blk :: E) F U :=
  ⟨List.forall_mem_cons.mpr ⟨zero, sized.empty⟩, sized.free, sized.full⟩

theorem Sized.cons_free (sized : c.Sized layout E F U) {blk : ℕ}
    (bounds : 0 < c.size blk ∧ c.size blk < layout.cap) : c.Sized layout E (blk :: F) U :=
  ⟨sized.empty, List.forall_mem_cons.mpr ⟨bounds, sized.free⟩, sized.full⟩

theorem Sized.cons_full (sized : c.Sized layout E F U) {blk : ℕ} (full : c.size blk = layout.cap) :
    c.Sized layout E F (blk :: U) :=
  ⟨sized.empty, sized.free, List.forall_mem_cons.mpr ⟨full, sized.full⟩⟩

/-- `takeFree` on a cache whose free list starts with block `blk`, the one block there that may
have nothing handed out (`refill` has just put it there), hands out an object that was
not handed out, and keeps the bookkeeping. -/
theorem takeFree_spec (wf : layout.Wf) {blk : ℕ} (lists : c.Stacks E (blk :: F) U)
    (sized : c.Sized layout E F U) (room : c.size blk < layout.cap)
    (chainsOk : c.Chains layout out chains) (separated : c.Separated layout) :
    ∃ ret next, c.takeFree = some (some ret, next) ∧ ret ∉ out ∧
      next.Bookkeeping layout (ret :: out) := by
  have member : blk ∈ c.blocks := lists.mem.mpr (.inr (.inl List.mem_cons_self))
  have length := chainsOk.length blk member
  obtain ⟨ret, rest, taken⟩ : ∃ ret rest, chains blk = ret :: rest :=
    List.exists_cons_of_length_pos (by omega)
  have chain := chainsOk.chain blk member
  rw [taken, chain_cons] at chain
  have retOut : ret ∉ out := chainsOk.not_mem_out wf separated member (by simp [taken])
  have chainsOk' := chainsOk.take wf separated member taken
  have top : c.freeBlkList = some blk := lists.free.head_eq
  rw [taken, List.length_cons] at length
  have small : c.size blk + 1 < 2 ^ 64 := by have := wf.cap_lt; omega
  obtain ⟨-, nodupF, -, apartEF, -, apartFU⟩ := lists.lists_nodup wf separated
  have outside : blk ∉ E ++ F ++ U := by
    simp only [List.mem_append, not_or]
    exact ⟨⟨fun inE => apartEF blk inE List.mem_cons_self, (List.nodup_cons.mp nodupF).1⟩,
      apartFU blk List.mem_cons_self⟩
  by_cases last : rest = []
  · -- that was the block's last free object: the block moves from the free list to the full one
    subst last
    rw [chain_nil] at chain
    obtain ⟨links₁, head₁, popped, holds₁, frame₁⟩ := lists.free.pop
    rw [top] at popped
    obtain ⟨links₂, pushed, freeHolds, fullHolds, emptyHolds⟩ :=
      lists.full.move lists.empty (lists.nodup_of_perm wf separated
        (List.perm_iff_count.mpr fun a => by simp only [List.count_append]; omega))
        List.mem_cons_self (by simpa using holds₁) frame₁
    refine ⟨ret, { c with
        head := Function.update c.head blk (c.node ret)
        node := Function.update c.node ret none
        size := Function.update c.size blk (usizeWrap (c.size blk + 1))
        links := links₂, freeBlkList := head₁, fullBlkList := some blk }, ?_, retOut,
      E, F, blk :: U, Function.update chains blk [],
      ⟨emptyHolds, by simpa using freeHolds, fullHolds, ?_⟩,
      (sized.of_update rfl outside).cons_full ?_, chainsOk'.of_eq rfl rfl rfl rfl, separated⟩
    · simp [takeFree, top, chain.1, chain.2, popped, pushed]
    · exact (List.perm_iff_count.mpr fun a => by
        simp only [List.count_append, List.count_cons]; omega).trans lists.perm
    · simp only [Function.update_self, usizeWrap_of_lt small, List.length_nil] at length ⊢
      omega
  · -- the block keeps free objects and stays on top of the free list
    have more : c.node ret ≠ none := fun none => last ((chain.2.head_eq_none_iff).mp none)
    refine ⟨ret, { c with
        head := Function.update c.head blk (c.node ret)
        node := Function.update c.node ret none
        size := Function.update c.size blk (usizeWrap (c.size blk + 1)) }, ?_, retOut,
      E, blk :: F, U, Function.update chains blk rest, ⟨lists.empty, lists.free, lists.full,
        lists.perm⟩, (sized.of_update rfl outside).cons_free ?_, chainsOk', separated⟩
    · simp [takeFree, top, chain.1, more]
    · have : rest.length ≠ 0 := by simpa using last
      simp only [Function.update_self, usizeWrap_of_lt small]
      omega

/-- `alloc` hands out an object that was not handed out, or nothing once the frames have run
out, and keeps the bookkeeping. -/
theorem Bookkeeping.alloc {insertBlock : SlabState → ℕ → Option (List ℕ)} (wf : layout.Wf)
    (inserts : ∀ c ppn, (∀ b ∈ c.blocks, layout.Apart ppn b) →
      insertBlock c ppn = some (ppn :: c.blocks))
    (book : c.Bookkeeping layout out) :
    ∃ result next, c.alloc layout insertBlock = some (result, next) ∧
      (∀ ret, result = some ret → ret ∉ out) ∧ next.Bookkeeping layout (result.toList ++ out) := by
  obtain ⟨E, F, U, chains, lists, sized, chainsOk, separated⟩ := book
  have capPos : 0 < layout.cap := by have := wf.two_le_cap; omega
  cases F with
  | cons blk F =>
    -- the free list is not empty
    obtain ⟨ret, next, took, retOut, book'⟩ := takeFree_spec wf lists
      ⟨sized.empty, fun b member => sized.free b (.tail _ member), sized.full⟩
      (sized.free blk List.mem_cons_self).2 chainsOk separated
    refine ⟨some ret, next, ?_, by simpa using retOut, book'⟩
    simp [SlabState.alloc, refill, lists.free.head_eq, took]
  | nil =>
    have noFree : c.freeBlkList = none := lists.free.head_eq
    cases E with
    | cons t E =>
      -- a block of the empty list moves to the free one
      obtain ⟨links₁, head₁, popped, holds₁, frame₁⟩ := lists.empty.pop
      obtain ⟨links₂, pushed, emptyHolds, freeHolds, fullHolds⟩ :=
        lists.free.move lists.full (lists.nodup wf separated) List.mem_cons_self
          (by simpa using holds₁) frame₁
      rw [noFree] at pushed
      have lists₁ : Stacks { c with links := links₂, emptyBlkList := head₁, freeBlkList := some t }
          E [t] U :=
        ⟨by simpa using emptyHolds, freeHolds, fullHolds, (List.perm_iff_count.mpr fun a => by
          simp only [List.count_append, List.count_cons, List.count_nil]; omega).trans lists.perm⟩
      obtain ⟨ret, next, took, retOut, book'⟩ := takeFree_spec wf lists₁
        ⟨fun b member => sized.empty b (.tail _ member), by simp, sized.full⟩
        (by simpa [sized.empty t List.mem_cons_self] using capPos)
        (chainsOk.of_eq rfl rfl rfl rfl) separated
      refine ⟨some ret, next, ?_, by simpa using retOut, book'⟩
      simp [SlabState.alloc, refill, noFree, popped, pushed, took]
    | nil =>
      cases frames : c.frames with
      | nil =>
        -- the frame allocator has run out
        refine ⟨none, c, ?_, by simp, [], [], U, chains, lists, sized, chainsOk, separated⟩
        simp [SlabState.alloc, refill, noFree, lists.empty.pop_nil, frames]
      | cons ppn frames' =>
        -- a new block at the next frame
        have apart : ∀ b ∈ c.blocks, layout.Apart ppn b := by
          unfold Separated at separated
          rw [frames, List.cons_append, List.pairwise_cons] at separated
          exact fun b member => separated.1 b (List.mem_append_right _ member)
        have fresh : ∀ b ∈ c.blocks, b ≠ ppn := fun b member same =>
          wf.ne_of_apart (apart b member) same.symm
        obtain ⟨first, rest, threaded⟩ : ∃ first rest, layout.nodes ppn = first :: rest :=
          List.exists_cons_of_length_pos (by simpa using capPos)
        obtain ⟨links₂, pushed, freeHolds, frame₂⟩ := lists.free.push (List.not_mem_nil : ppn ∉ [])
        rw [noFree] at pushed
        have outside : ∀ b ∈ U, links₂ b = c.links b := fun b member => frame₂ b (by
          simpa using fresh b (lists.mem.mpr (.inr (.inr member))))
        let c₂ : SlabState := { c with
          blocks := ppn :: c.blocks
          frames := frames'
          size := Function.update c.size ppn 0
          head := Function.update c.head ppn (some first)
          node := linkNodes c.node first rest
          links := links₂
          freeBlkList := some ppn }
        have lists₂ : c₂.Stacks [] [ppn] U :=
          ⟨lists.empty.congr (by simp), freeHolds, lists.full.congr outside,
            List.Perm.cons ppn (by simpa using lists.perm)⟩
        have sized₂ : c₂.Sized layout [] [] U := sized.of_update rfl (by
          simpa using fun inU => fresh ppn (lists.mem.mpr (.inr (.inr inU))) rfl)
        have separated₂ : c₂.Separated layout := by
          unfold Separated at separated ⊢
          rw [frames] at separated
          exact separated.perm List.perm_middle.symm SlabLayout.Apart.symm
        obtain ⟨ret, next, took, retOut, book'⟩ := takeFree_spec wf lists₂ sized₂
          (by simpa [c₂] using capPos)
          ((chainsOk.newBlock wf separated frames threaded).of_eq rfl rfl rfl rfl) separated₂
        refine ⟨some ret, next, ?_, by simpa using retOut, book'⟩
        simp [SlabState.alloc, refill, noFree, lists.empty.pop_nil, frames, inserts c ppn apart,
          newBlock, threaded, pushed]
        exact took

/-- `dealloc` of a handed-out object takes it back and keeps the bookkeeping. -/
theorem Bookkeeping.dealloc {blockOf : SlabState → ℕ → Option ℕ} (wf : layout.Wf)
    (finds : ∀ c b p, c.blocks.Pairwise layout.Apart → b ∈ c.blocks → p ∈ layout.nodes b →
      blockOf c (p / PAGE_SIZE) = some b)
    (book : c.Bookkeeping layout out) {ptr : ℕ} (taken : ptr ∈ out) :
    ∃ next, c.dealloc layout blockOf ptr = some next ∧ next.Bookkeeping layout (out.erase ptr) := by
  obtain ⟨E, F, U, chains, lists, sized, chainsOk, separated⟩ := book
  obtain ⟨blk, member, inNodes, -⟩ := (chainsOk.mem_out ptr).mp taken
  have found := finds c blk ptr separated.blocks member inNodes
  have chainsOk' := chainsOk.give wf separated member inNodes taken
  have positive := chainsOk.size_pos wf separated member inNodes taken
  have small : c.size blk < 2 ^ 64 := by
    have := chainsOk.length blk member; have := wf.cap_lt; omega
  have twoLe := wf.two_le_cap
  obtain ⟨nodupE, nodupF, nodupU, apartEF, apartEU, apartFU⟩ := lists.lists_nodup wf separated
  have lowered : Function.update c.size blk (usizeSub (c.size blk) 1) blk = c.size blk - 1 := by
    rw [Function.update_self, usizeSub_one positive small]
  rcases lists.mem.mp member with inE | inF | inU
  · exact absurd (sized.empty blk inE) (by omega)
  · have bounds := sized.free blk inF
    have notFull : c.size blk ≠ layout.cap := by omega
    by_cases last : c.size blk = 1
    · -- its last object comes back: the block moves from the free list to the empty one
      obtain ⟨links₁, head₁, removed, holds₁, frame₁⟩ := lists.free.remove inF
      obtain ⟨links₂, pushed, freeHolds, emptyHolds, fullHolds⟩ :=
        lists.empty.move lists.full (lists.nodup_of_perm wf separated
          (List.perm_iff_count.mpr fun a => by simp only [List.count_append]; omega))
          inF holds₁ frame₁
      refine ⟨{ c with
          node := Function.update c.node ptr (c.head blk)
          head := Function.update c.head blk (some ptr)
          links := links₂, freeBlkList := head₁, emptyBlkList := some blk
          size := Function.update c.size blk (usizeSub (c.size blk) 1) }, ?_,
        blk :: E, F.erase blk, U, Function.update chains blk (ptr :: chains blk),
        ⟨emptyHolds, freeHolds, fullHolds, ?_⟩,
        ((sized.mono (List.Subset.refl E) List.erase_subset (List.Subset.refl U)).of_update rfl
          ?_).cons_empty ?_, chainsOk'.of_eq rfl rfl rfl rfl, separated⟩
      · have oneNe : 1 ≠ layout.cap := by omega
        simp [SlabState.dealloc, found, oneNe, last, removed, pushed]
      · refine List.Perm.trans ?_ lists.perm
        refine (List.perm_iff_count.mpr fun a => ?_).trans
          (((List.perm_cons_erase inF).symm.append_left E).append_right U)
        simp only [List.count_append, List.count_cons]; omega
      · simp only [List.mem_append, not_or]
        exact ⟨⟨fun inE => apartEF blk inE inF, nodupF.not_mem_erase⟩, apartFU blk inF⟩
      · simp only [lowered]; omega
    · -- the block stays on the free list
      have others : ∀ b ≠ blk,
          Function.update c.size blk (usizeSub (c.size blk) 1) b = c.size b :=
        fun b ne => Function.update_of_ne ne _ _
      refine ⟨{ c with
          node := Function.update c.node ptr (c.head blk)
          head := Function.update c.head blk (some ptr)
          size := Function.update c.size blk (usizeSub (c.size blk) 1) }, ?_,
        E, F, U, Function.update chains blk (ptr :: chains blk),
        ⟨lists.empty, lists.free, lists.full, lists.perm⟩, ⟨fun b member' => ?_,
          fun b member' => ?_, fun b member' => ?_⟩, chainsOk', separated⟩
      · simp [SlabState.dealloc, found, notFull, last]
      · exact (others b fun same => apartEF b member' (same ▸ inF)).trans (sized.empty b member')
      · by_cases same : b = blk
        · subst same; simp only [lowered]; omega
        · dsimp only
          rw [others b same]
          exact sized.free b member'
      · exact (others b fun same => apartFU blk inF (same ▸ member')).trans (sized.full b member')
  · -- a full block: it moves from the full list to the free one
    have full := sized.full blk inU
    obtain ⟨links₁, head₁, removed, holds₁, frame₁⟩ := lists.full.remove inU
    obtain ⟨links₂, pushed, fullHolds, freeHolds, emptyHolds⟩ :=
      lists.free.move lists.empty (lists.nodup_of_perm wf separated
        (List.perm_iff_count.mpr fun a => by simp only [List.count_append]; omega))
        inU holds₁ frame₁
    refine ⟨{ c with
        node := Function.update c.node ptr (c.head blk)
        head := Function.update c.head blk (some ptr)
        links := links₂, fullBlkList := head₁, freeBlkList := some blk
        size := Function.update c.size blk (usizeSub (c.size blk) 1) }, ?_,
      E, blk :: F, U.erase blk, Function.update chains blk (ptr :: chains blk),
      ⟨emptyHolds, freeHolds, fullHolds, ?_⟩,
      ((sized.mono (List.Subset.refl E) (List.Subset.refl F) List.erase_subset).of_update rfl
        ?_).cons_free ?_, chainsOk'.of_eq rfl rfl rfl rfl, separated⟩
    · simp [SlabState.dealloc, found, full, removed, pushed]
    · refine List.Perm.trans ?_ lists.perm
      refine (List.perm_iff_count.mpr fun a => ?_).trans
        ((List.perm_cons_erase inU).symm.append_left (E ++ F))
      simp only [List.count_append, List.count_cons]; omega
    · simp only [List.mem_append, not_or]
      exact ⟨⟨fun inE => apartEU blk inE inU, fun inF => apartFU blk inF inU⟩,
        nodupU.not_mem_erase⟩
    · simp only [lowered]; omega

/-- A new cache, its frames still to come apart, keeps the books with nothing handed out. -/
theorem Bookkeeping.new {links : ℕ → Links ℕ} {size : ℕ → ℕ} {head node : ℕ → Option ℕ}
    {frames : List ℕ} (apart : frames.Pairwise layout.Apart) :
    (SlabState.new links size head node frames).Bookkeeping layout [] :=
  ⟨[], [], [], fun _ => [], ⟨by simp [Holds, SlabState.new], by simp [Holds, SlabState.new],
    by simp [Holds, SlabState.new], by simp [SlabState.new]⟩, ⟨by simp, by simp, by simp⟩,
    ⟨by simp [SlabState.new], by simp [SlabState.new], by simp [SlabState.new],
      by simp [SlabState.new], List.nodup_nil, by simp [SlabState.new]⟩,
    by simpa [Separated, SlabState.new] using apart⟩

/-- `takeFree` hands out an object whenever it returns. -/
theorem takeFree_hands_out {result : Option ℕ} {next : SlabState}
    (took : c.takeFree = some (result, next)) : result.isSome := by
  unfold takeFree at took
  split at took
  · split at took
    · cases took
    · dsimp only at took
      split_ifs at took <;>
      · cases took
        rfl
  · cases took

/-- `refill` reports a frame allocator that has run out only when the free and empty lists are
empty and no frame is left. -/
theorem refill_eq_some_none {insertBlock : SlabState → ℕ → Option (List ℕ)}
    (refilled : c.refill layout insertBlock = some none) :
    c.freeBlkList = none ∧ c.emptyBlkList = none ∧ c.frames = [] := by
  unfold refill at refilled
  split_ifs at refilled with noFree
  · split at refilled
    · cases refilled
    · rename_i popped
      have noEmpty : c.emptyBlkList = none := by
        cases empty : c.emptyBlkList with
        | none => rfl
        | some t => simp [pop, empty] at popped
      split at refilled
      · exact ⟨noFree, noEmpty, by assumption⟩
      · simp only [Option.bind_eq_bind, Option.bind_eq_some_iff] at refilled
        obtain ⟨blocks, -, c', -, pushed⟩ := refilled
        cases pushed
  · cases refilled

/-- `alloc` hands out no object only when the free and empty lists are empty and the frame
allocator has run out. -/
theorem frames_of_alloc_none {insertBlock : SlabState → ℕ → Option (List ℕ)} {next : SlabState}
    (allocated : c.alloc layout insertBlock = some (none, next)) :
    c.freeBlkList = none ∧ c.emptyBlkList = none ∧ c.frames = [] := by
  unfold alloc at allocated
  cases refilled : c.refill layout insertBlock with
  | none => simp [refilled] at allocated
  | some result =>
    cases result with
    | none => exact refill_eq_some_none refilled
    | some refilledState =>
      simp only [refilled, Option.bind_eq_bind, Option.bind_some] at allocated
      cases takeFree_hands_out allocated

end SlabState

/-- `find?` returns the one element of the list that passes the test. -/
theorem find?_eq_some_of_unique {α : Type*} {test : α → Bool} {l : List α} {b : α} (member : b ∈ l)
    (passes : test b) (unique : ∀ x ∈ l, test x → x = b) : l.find? test = some b := by
  induction l with
  | nil => simp at member
  | cons x l ih =>
    by_cases first : test x
    · rw [List.find?_cons_of_pos first, unique x List.mem_cons_self first]
    · rw [List.find?_cons_of_neg first]
      have other : b ≠ x := fun same => first (same ▸ passes)
      exact ih ((List.mem_cons.mp member).resolve_left other)
        fun y inL => unique y (List.mem_cons_of_mem x inL)

namespace SlabCache

/-- A new block apart from all others goes in. -/
theorem insertBlock_of_apart (S : ℕ) {c : SlabState} {ppn : ℕ}
    (apart : ∀ b ∈ c.blocks, (layout S).Apart ppn b) : insertBlock S c ppn = some (ppn :: c.blocks) := by
  have fits : c.blocks.all (fun block => block + SlabBlock.pageCnt S ≤ ppn ∨
      ppn + SlabBlock.pageCnt S ≤ block) := by
    simp only [List.all_eq_true, decide_eq_true_eq]
    intro b member
    have := apart b member
    simp only [SlabLayout.Apart, layout] at this
    omega
  rw [insertBlock, if_pos fits]

/-- The page of an object is in the range of its own block only. -/
theorem blockOf_of_mem_nodes (S : ℕ) (wf : (layout S).Wf) {c : SlabState} {b p : ℕ}
    (apart : c.blocks.Pairwise (layout S).Apart) (member : b ∈ c.blocks)
    (inNodes : p ∈ (layout S).nodes b) : blockOf S c (p / PAGE_SIZE) = some b := by
  have within := wf.page_of_mem_nodes inNodes
  refine find?_eq_some_of_unique member (by simpa [layout] using within) fun x member' inX => ?_
  by_contra different
  have := apart.forall member' member different
  simp only [decide_eq_true_eq] at inX
  simp only [SlabLayout.Apart, layout] at this within
  omega

end SlabCache

namespace SmallSlabCache

/-- The header at an object's page is its block's, since a small block is one page. -/
theorem blockOf_of_mem_nodes (S : ℕ) (wf : (layout S).Wf) (onePage : (layout S).pageCnt = 1)
    {c : SlabState} {b p : ℕ} (member : b ∈ c.blocks) (inNodes : p ∈ (layout S).nodes b) :
    blockOf c (p / PAGE_SIZE) = some b := by
  have within := wf.page_of_mem_nodes inNodes
  rw [onePage] at within
  have page : p / PAGE_SIZE = b := by omega
  simp [blockOf, page, member]

end SmallSlabCache

namespace SlabCacheKind

/-- The blocks of a small cache are one page each: `dealloc` finds the header at the page of the
object. -/
def OnePage : SlabCacheKind → Prop
  | small S => (SmallSlabCache.layout S).pageCnt = 1
  | big _ => True

instance : DecidablePred OnePage
  | small S => inferInstanceAs (Decidable ((SmallSlabCache.layout S).pageCnt = 1))
  | big _ => inferInstanceAs (Decidable True)

end SlabCacheKind

/-- The blocks of the caches of `SlabAllocatorInner` are well formed, and the small ones are one
page each. -/
theorem SlabAllocatorInner.caches_wf :
    ∀ kind ∈ SlabAllocatorInner.caches, kind.layout.Wf ∧ kind.OnePage := by
  decide

/-- A request to a cache: `alloc()` or `dealloc(ptr)`. -/
inductive SlabOp
  | alloc
  | dealloc (ptr : ℕ)
deriving DecidableEq, Repr

/-- The contract of `dealloc`: an object that `alloc` returned and that is not freed yet. -/
def SlabOp.Allowed : SlabState × List ℕ → SlabOp → Prop
  | _, .alloc => True
  | (_, out), .dealloc ptr => ptr ∈ out

instance SlabOp.decidableAllowed : ∀ state op, Decidable (SlabOp.Allowed state op)
  | _, .alloc => isTrue trivial
  | (_, out), .dealloc ptr => inferInstanceAs (Decidable (ptr ∈ out))

namespace SlabCacheKind

/-- One request to a cache, with the objects it has handed out: `alloc` adds the object it
returns, `dealloc ptr` takes `ptr` back. -/
def step (kind : SlabCacheKind) : SlabState × List ℕ → SlabOp → Option (SlabState × List ℕ)
  | (c, out), .alloc => (kind.alloc c).map fun (result, next) => (next, result.toList ++ out)
  | (c, out), .dealloc ptr => (kind.dealloc c ptr).map fun next => (next, out.erase ptr)

variable {kind : SlabCacheKind} {c : SlabState} {out : List ℕ}

theorem alloc_spec (wf : kind.layout.Wf) (book : c.Bookkeeping kind.layout out) :
    ∃ result next, kind.alloc c = some (result, next) ∧ (∀ ret, result = some ret → ret ∉ out) ∧
      next.Bookkeeping kind.layout (result.toList ++ out) := by
  cases kind with
  | small S => exact book.alloc wf fun _ _ _ => rfl
  | big S => exact book.alloc wf fun _ _ apart => SlabCache.insertBlock_of_apart S apart

theorem dealloc_spec (wf : kind.layout.Wf)
    (onePage : kind.OnePage)
    (book : c.Bookkeeping kind.layout out) {ptr : ℕ} (taken : ptr ∈ out) :
    ∃ next, kind.dealloc c ptr = some next ∧ next.Bookkeeping kind.layout (out.erase ptr) := by
  cases kind with
  | small S =>
    exact book.dealloc wf (fun _ _ _ _ member inNodes =>
      SmallSlabCache.blockOf_of_mem_nodes S wf onePage member inNodes) taken
  | big S =>
    exact book.dealloc wf (fun _ _ _ apart member inNodes =>
      SlabCache.blockOf_of_mem_nodes S wf apart member inNodes) taken

/-- Every allowed request keeps the books. -/
theorem step_bookkeeping (wf : kind.layout.Wf)
    (onePage : kind.OnePage)
    {state next : SlabState × List ℕ} {op : SlabOp} (book : state.1.Bookkeeping kind.layout state.2)
    (allowed : SlabOp.Allowed state op) (stepped : kind.step state op = some next) :
    next.1.Bookkeeping kind.layout next.2 := by
  obtain ⟨c, out⟩ := state
  cases op with
  | alloc =>
    obtain ⟨result, c', allocated, -, book'⟩ := alloc_spec wf book
    simp only [step, allocated, Option.map_some, Option.some.injEq] at stepped
    exact stepped ▸ book'
  | dealloc ptr =>
    obtain ⟨c', deallocated, book'⟩ := dealloc_spec wf onePage book allowed
    simp only [step, deallocated, Option.map_some, Option.some.injEq] at stepped
    exact stepped ▸ book'

/-- The books hold on every state reached from `new()` over frames that share no page. -/
theorem bookkeeping_of_reachable (instantiated : kind ∈ SlabAllocatorInner.caches)
    {links : ℕ → LinkedStack.Links ℕ} {size : ℕ → ℕ} {head node : ℕ → Option ℕ}
    {frames : List ℕ} (apart : frames.Pairwise kind.layout.Apart)
    (reached : Reachable kind.step SlabOp.Allowed (SlabState.new links size head node frames, [])
      (c, out)) :
    c.Bookkeeping kind.layout out := by
  obtain ⟨wf, onePage⟩ := SlabAllocatorInner.caches_wf kind instantiated
  exact reached.invariant (fun state => state.1.Bookkeeping kind.layout state.2)
    (SlabState.Bookkeeping.new apart)
    (fun _ _ _ book allowed stepped => step_bookkeeping wf onePage book allowed stepped)

end SlabCacheKind

theorem slabCache_bookkeeping {kind : SlabCacheKind}
    (instantiated : kind ∈ SlabAllocatorInner.caches) {links : ℕ → LinkedStack.Links ℕ}
    {size : ℕ → ℕ} {head node : ℕ → Option ℕ} {frames : List ℕ}
    (apart : frames.Pairwise kind.layout.Apart) {c : SlabState} {out : List ℕ}
    (reached : Reachable kind.step SlabOp.Allowed (SlabState.new links size head node frames, [])
      (c, out)) :
    c.Bookkeeping kind.layout out ∧
      (∃ result next, kind.alloc c = some (result, next) ∧ ∀ ptr, result = some ptr → ptr ∉ out) ∧
      ∀ ptr ∈ out, ∃ next, kind.dealloc c ptr = some next := by
  obtain ⟨wf, onePage⟩ := SlabAllocatorInner.caches_wf kind instantiated
  have book := SlabCacheKind.bookkeeping_of_reachable instantiated apart reached
  refine ⟨book, ?_, fun ptr taken => ?_⟩
  · obtain ⟨result, next, allocated, fresh, -⟩ := SlabCacheKind.alloc_spec wf book
    exact ⟨result, next, allocated, fresh⟩
  · obtain ⟨next, deallocated, -⟩ := SlabCacheKind.dealloc_spec wf onePage book taken
    exact ⟨next, deallocated⟩

/-- A cache of 512-byte objects over frames at pages 1000 and 1001, before any request. -/
def sampleStart : SlabState :=
  SlabState.new (fun _ => ⟨none, none⟩) (fun _ => 0) (fun _ => none) (fun _ => none) [1000, 1001]

theorem sampleStart_apart : [1000, 1001].Pairwise (SlabCacheKind.big 512).layout.Apart := by
  simp [SlabCacheKind.layout, SlabCache.layout, SlabLayout.Apart]
  decide

/-- Nine `alloc`s, which fill the block at page 1000 and open one at page 1001; then the first
object handed out is freed and allocated again. -/
def sampleOps : List SlabOp := List.replicate 9 .alloc ++ [.dealloc 4096000, .alloc]

theorem slabCache_bookkeeping_sample :
    SlabCacheKind.big 512 ∈ SlabAllocatorInner.caches ∧
      [1000, 1001].Pairwise (SlabCacheKind.big 512).layout.Apart ∧
      ∃ state, sampleOps.foldlM (SlabCacheKind.big 512).step (sampleStart, []) = some state ∧
        Reachable (SlabCacheKind.big 512).step SlabOp.Allowed (sampleStart, []) state ∧
        state.1.blocks = [1001, 1000] ∧ state.1.frames = [] ∧ state.2.length = 9 ∧
        state.2.head? = some 4096000 ∧
        state.1.Bookkeeping (SlabCacheKind.big 512).layout state.2 ∧
        (∃ result next, (SlabCacheKind.big 512).alloc state.1 = some (result, next) ∧
          ∀ ptr, result = some ptr → ptr ∉ state.2) ∧
        ∀ ptr ∈ state.2, ∃ next, (SlabCacheKind.big 512).dealloc state.1 ptr = some next := by
  obtain ⟨state, ran⟩ : ∃ state, sampleOps.foldlM (fun state op =>
      if decide (SlabOp.Allowed state op) then (SlabCacheKind.big 512).step state op else none)
        (sampleStart, []) = some state :=
    Option.isSome_iff_exists.mp (by decide +kernel)
  have run := Run.of_checked (fun _ _ allowed => of_decide_eq_true allowed) ran
  have summary : (sampleOps.foldlM (fun state op =>
      if decide (SlabOp.Allowed state op) then (SlabCacheKind.big 512).step state op else none)
        (sampleStart, [])).map
          (fun state => (state.1.blocks, state.1.frames, state.2.length, state.2.head?)) =
      some ([1001, 1000], [], 9, some 4096000) := by decide +kernel
  rw [ran, Option.map_some, Option.some_inj] at summary
  simp only [Prod.mk.injEq] at summary
  obtain ⟨blocks, frames, handedOut, reused⟩ := summary
  have reached := run.reachable .start
  exact ⟨by decide, sampleStart_apart, state, run.foldlM, reached, blocks, frames, handedOut,
    reused, slabCache_bookkeeping (by decide) sampleStart_apart reached⟩

/-- Eight `alloc`s, which hand out every object of the block at page 1000 and leave page 1001. -/
def fillFirst : List SlabOp := List.replicate 8 .alloc

end Chronix
