import Chronix.Model.Addr
import Chronix.ToMathlib.LinkedStack

/-! # Slab caches

`SlabCache<S>` and `SmallSlabCache<S>` (`os/src/mm/allocator/slab_allocator.rs`) hand out
objects of `S` bytes from blocks of whole pages. A block's header holds `last`, `next` (its
place in one of three intrusive stacks of blocks: empty, partly used and full), `size` (the
objects handed out) and `head`, the first node of the block's free chain; a free object is a
`FreeNode` whose first word is the next free one.

Both caches run the same `alloc` and `dealloc`, and differ in three places, which are the
parameters of `SlabState.alloc` and `SlabState.dealloc`: where a block keeps its objects (a
small block keeps its header in its first bytes), how a new block is recorded (a big cache
inserts its range into the `RangeMap` `blocks`, whose `unwrap` fails on an overlap; a small
block writes itself as the `owner` of its header) and how `dealloc` finds the block of an object
(the range holding its page; or the header of its page, whose `owner` must be this cache).

Memory is a field per map: the header fields of the block at each first page (for a big cache
the header is a box of another cache, named here by its block's first page), and the `next`
word at each address. The `RangeMap` of a big cache is the list of its ranges' first pages,
every range being `page_cnt()` pages long; the frame allocator is the list of the first pages
of the ranges it hands out next, `None` once it is empty. Addresses are physical: the kernel's
direct-map offset, which `floor` masks off, is left out. A panic is `none`.
-/

namespace Chronix

open Constant LinkedStack

/-- `next_power_of_two`, for 64-bit `usize`. -/
def nextPowerOfTwo (x : ℕ) : ℕ :=
  if x = 0 then 1
  else
    let x := x - 1
    let x := x ||| x >>> 1
    let x := x ||| x >>> 2
    let x := x ||| x >>> 4
    let x := x ||| x >>> 8
    let x := x ||| x >>> 16
    let x := x ||| x >>> 32
    usizeWrap (x + 1)

/-- The blocks of one cache: the object size `S`, the pages of a block, the offset of its first
object and the number of objects in it. -/
structure SlabLayout where
  objectSize : ℕ
  pageCnt : ℕ
  firstNode : ℕ
  cap : ℕ
deriving DecidableEq, Repr

namespace SlabLayout

/-- The address of object `k` of the block at page `ppn`. -/
def nodeAddr (layout : SlabLayout) (ppn k : ℕ) : ℕ :=
  ppn * PAGE_SIZE + layout.firstNode + k * layout.objectSize

/-- The objects of the block at page `ppn`, in address order: `free_nodes`. -/
def nodes (layout : SlabLayout) (ppn : ℕ) : List ℕ :=
  (List.range layout.cap).map (layout.nodeAddr ppn)

end SlabLayout

/-- `SlabBlock::<S>::page_cnt()`: `S << 3` drops the bits past a `usize`. -/
def SlabBlock.pageCnt (S : ℕ) : ℕ := nextPowerOfTwo (usizeWrap (S <<< 3) >>> PAGE_SIZE_BITS)

/-- `SlabBlock::<S>::cap()`: the shift drops the bits past a `usize`. -/
def SlabBlock.cap (S : ℕ) : ℕ := usizeWrap (SlabBlock.pageCnt S <<< PAGE_SIZE_BITS) / S

/-- `size_of::<SmallSlabBlock<S>>()`: `owner`, `last`, `next`, `size` and `head`. -/
def SmallSlabBlock.headerSize : ℕ := 40

/-- The offset of the first object of a small block, after its header:
`next_power_of_two(size_of::<SmallSlabBlock<S>>().max(S))`. -/
def SmallSlabBlock.firstNode (S : ℕ) : ℕ := nextPowerOfTwo (max SmallSlabBlock.headerSize S)

/-- `SmallSlabBlock::<S>::cap()`: the subtraction wraps as a `usize`. -/
def SmallSlabBlock.cap (S : ℕ) : ℕ := usizeSub PAGE_SIZE (SmallSlabBlock.firstNode S) / S

/-- The state of a slab cache and of the memory its blocks live in. -/
structure SlabState where
  blocks : List ℕ
  links : ℕ → Links ℕ
  size : ℕ → ℕ
  head : ℕ → Option ℕ
  node : ℕ → Option ℕ
  emptyBlkList : Option ℕ
  freeBlkList : Option ℕ
  fullBlkList : Option ℕ
  frames : List ℕ

/-- The loop that threads a new block's objects: each one's `next` is the one after it, and the
last one's is null. `last` is the object the loop holds. -/
def linkNodes (node : ℕ → Option ℕ) (last : ℕ) : List ℕ → ℕ → Option ℕ
  | [] => Function.update node last none
  | next :: rest => linkNodes (Function.update node last (some next)) next rest

namespace SlabState

/-- `new()`, over memory that holds anything. -/
def new (links : ℕ → Links ℕ) (size : ℕ → ℕ) (head : ℕ → Option ℕ) (node : ℕ → Option ℕ)
    (frames : List ℕ) : SlabState :=
  ⟨[], links, size, head, node, none, none, none, frames⟩

/-- A new block at page `ppn`: `size` zero, `head` its first object, the objects threaded. The
slice `free_nodes[1..]` panics on a block with no object. -/
def newBlock (layout : SlabLayout) (c : SlabState) (ppn : ℕ) : Option SlabState :=
  match layout.nodes ppn with
  | [] => none
  | first :: rest =>
    some { c with
      size := Function.update c.size ppn 0
      head := Function.update c.head ppn (some first)
      node := linkNodes c.node first rest }

/-- The first half of `alloc()`: an empty free list is refilled with a block from the empty
list or with a new block. `some none` is the `None` of a frame allocator that has run out. -/
def refill (layout : SlabLayout) (insertBlock : SlabState → ℕ → Option (List ℕ))
    (c : SlabState) : Option (Option SlabState) :=
  if c.freeBlkList = none then
    match pop c.links c.emptyBlkList with
    | (some t, links, emptyHead) =>
      let (links, freeHead) := push links c.freeBlkList t
      some (some { c with links, emptyBlkList := emptyHead, freeBlkList := freeHead })
    | (none, _, _) =>
      match c.frames with
      | [] => some none
      | ppn :: frames => do
        let blocks ← insertBlock c ppn
        let c ← newBlock layout { c with blocks, frames } ppn
        let (links, freeHead) := push c.links c.freeBlkList ppn
        pure (some { c with links, freeBlkList := freeHead })
  else some (some c)

/-- The second half of `alloc()`: the first free object of the block on top of the free list,
which goes to the full list when that was its last. `NonNull::new(ret)` is `Some`: the objects
lie in frames of the frame allocator, none of which is at address 0. -/
def takeFree (c : SlabState) : Option (Option ℕ × SlabState) := do
  let some blk := c.freeBlkList | none
  match c.head blk with
  | none => none
  | some ret =>
    let c := { c with
      head := Function.update c.head blk (c.node ret)
      node := Function.update c.node ret none
      size := Function.update c.size blk (usizeWrap (c.size blk + 1)) }
    if c.head blk = none then
      let (_, links, freeHead) := pop c.links c.freeBlkList
      let (links, fullHead) := push links c.fullBlkList blk
      pure (some ret, { c with links, freeBlkList := freeHead, fullBlkList := fullHead })
    else pure (some ret, c)

/-- `alloc()`. -/
def alloc (layout : SlabLayout) (insertBlock : SlabState → ℕ → Option (List ℕ))
    (c : SlabState) : Option (Option ℕ × SlabState) := do
  match ← refill layout insertBlock c with
  | none => pure (none, c)
  | some c => takeFree c

/-- `dealloc(ptr)`: put the object back on its block's free chain, moving the block from the
full list to the free one when it was full, and from the free list to the empty one when this
was its last object. -/
def dealloc (layout : SlabLayout) (blockOf : SlabState → ℕ → Option ℕ) (c : SlabState)
    (ptr : ℕ) : Option SlabState := do
  let blk ← blockOf c (ptr / PAGE_SIZE)
  let c := { c with
    node := Function.update c.node ptr (c.head blk)
    head := Function.update c.head blk (some ptr) }
  let c ← if c.size blk = layout.cap then
      let (links, fullHead) ← remove c.links c.fullBlkList blk
      let (links, freeHead) := push links c.freeBlkList blk
      pure { c with links, fullBlkList := fullHead, freeBlkList := freeHead }
    else if c.size blk = 1 then
      let (links, freeHead) ← remove c.links c.freeBlkList blk
      let (links, emptyHead) := push links c.emptyBlkList blk
      pure { c with links, freeBlkList := freeHead, emptyBlkList := emptyHead }
    else pure c
  pure { c with size := Function.update c.size blk (usizeSub (c.size blk) 1) }

end SlabState

namespace SlabCache

/-- The blocks of `SlabCache<S>`: `page_cnt()` pages, objects from the first byte. -/
def layout (S : ℕ) : SlabLayout := ⟨S, SlabBlock.pageCnt S, 0, SlabBlock.cap S⟩

/-- `blocks.try_insert(frames, blk).unwrap()`: panics when the range overlaps a block's. -/
def insertBlock (S : ℕ) (c : SlabState) (ppn : ℕ) : Option (List ℕ) :=
  if c.blocks.all fun block => block + SlabBlock.pageCnt S ≤ ppn ∨ ppn + SlabBlock.pageCnt S ≤ block
  then some (ppn :: c.blocks) else none

/-- `blocks.get_mut(ppn).unwrap()`: the block whose range holds page `ppn`. -/
def blockOf (S : ℕ) (c : SlabState) (ppn : ℕ) : Option ℕ :=
  c.blocks.find? fun block => block ≤ ppn ∧ ppn < block + SlabBlock.pageCnt S

/-- `SlabCache::<S>::alloc`. -/
def alloc (S : ℕ) (c : SlabState) : Option (Option ℕ × SlabState) :=
  c.alloc (layout S) (insertBlock S)

/-- `SlabCache::<S>::dealloc`. -/
def dealloc (S : ℕ) (c : SlabState) (ptr : ℕ) : Option SlabState :=
  c.dealloc (layout S) (blockOf S) ptr

end SlabCache

namespace SmallSlabCache

/-- The blocks of `SmallSlabCache<S>`: `SlabBlock::<S>::page_cnt()` pages from the frame
allocator, the header first, then `SmallSlabBlock::<S>::cap()` objects. -/
def layout (S : ℕ) : SlabLayout :=
  ⟨S, SlabBlock.pageCnt S, SmallSlabBlock.firstNode S, SmallSlabBlock.cap S⟩

/-- `blk.owner = self`: the page's header now names this cache. -/
def insertBlock (c : SlabState) (ppn : ℕ) : Option (List ℕ) := some (ppn :: c.blocks)

/-- The header at page `ppn`, which panics unless its `owner` is this cache. -/
def blockOf (c : SlabState) (ppn : ℕ) : Option ℕ := if ppn ∈ c.blocks then some ppn else none

/-- `SmallSlabCache::<S>::alloc`. -/
def alloc (S : ℕ) (c : SlabState) : Option (Option ℕ × SlabState) :=
  c.alloc (layout S) insertBlock

/-- `SmallSlabCache::<S>::dealloc`. -/
def dealloc (S : ℕ) (c : SlabState) (ptr : ℕ) : Option SlabState :=
  c.dealloc (layout S) blockOf ptr

end SmallSlabCache

/-- `size_of::<SlabBlock<0>>()`: `last`, `next`, `size` and `head`. -/
def CACHE_SIZE : ℕ := 32

/-- A cache of `SlabAllocatorInner`: `SmallSlabCache<S>` or `SlabCache<S>`. -/
inductive SlabCacheKind
  | small (S : ℕ)
  | big (S : ℕ)
deriving DecidableEq, Repr

namespace SlabCacheKind

def layout : SlabCacheKind → SlabLayout
  | small S => SmallSlabCache.layout S
  | big S => SlabCache.layout S

def alloc : SlabCacheKind → SlabState → Option (Option ℕ × SlabState)
  | small S => SmallSlabCache.alloc S
  | big S => SlabCache.alloc S

def dealloc : SlabCacheKind → SlabState → ℕ → Option SlabState
  | small S => SmallSlabCache.dealloc S
  | big S => SlabCache.dealloc S

end SlabCacheKind

/-- The caches of `SlabAllocatorInner`, `cache8` to `cache8192`, and `SLAB_BLOCK_SLAB_CACHE`. -/
def SlabAllocatorInner.caches : List SlabCacheKind :=
  [.small 8, .small 16, .small 32, .small 64, .small 96, .small 128, .big 192, .big 256, .big 512,
    .big 1024, .big 2048, .big 4096, .big 8192, .small CACHE_SIZE]

end Chronix
