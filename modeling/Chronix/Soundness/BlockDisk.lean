import Mathlib
import Chronix.Model.BlockDisk
import Chronix.ToMathlib.Blocks
import Chronix.ToMathlib.Reachable

/-! # ext4's disk is a file of bytes

What a block device holds at a block is the cache's copy where the cache has loaded one, and the
driver's block otherwise (`BlockDev.view`). While the cache holds only blocks the driver has
(`BlockDev.CacheOk`), `read_block` returns that and changes none of it, and `write_block` changes
exactly its block, each panicking exactly past the last block: the cache is invisible, and the
device behaves as its driver would with no cache (`buffer_cache_refines_driver`). It is also
never written back: through a cache the driver's blocks only ever keep their bytes or are zeroed
(`buffer_cache_never_writes_back`).

Over that, `Disk` is a cursor in the flat sequence of the device's bytes (`Blocks.flat`), and
`ByteDisk` says what it is for: a file of `size` bytes with a position. lwext4's `read` of `len`
bytes returns the `len` bytes from the position and moves it on, and `write` puts its bytes
there, whatever mix of partial and whole blocks they take; each panics exactly where the
request runs past the end of the device (`read_refines`, `write_refines`).
-/

namespace Chronix

open Blocks

/-! ## The cache -/

namespace BlockPage

/-- The copy of block `o` of the page, if it is loaded. -/
def cachedAt (page : BlockPage) (o : Fin BLOCKS_PER_PAGE) : Option Block :=
  if page.is_loaded o then some (page.frame o) else none

theorem cachedAt_load (page : BlockPage) (o o' : Fin BLOCKS_PER_PAGE) (data : Block) :
    (page.load o data).cachedAt o' = if o' = o then some data else page.cachedAt o' := by
  by_cases same : o' = o
  · simp [cachedAt, load, same]
  · simp [cachedAt, load, same]

theorem cachedAt_write_block_one {page : BlockPage} {o : Fin BLOCKS_PER_PAGE}
    (loaded : page.is_loaded o = true) (o' : Fin BLOCKS_PER_PAGE) (buf : List UInt8) :
    (page.write_block_one o buf).cachedAt o' =
      if o' = o then some (Block.ofBuf buf) else page.cachedAt o' := by
  by_cases same : o' = o
  · simp [cachedAt, write_block_one, same, loaded]
  · simp [cachedAt, write_block_one, same]

theorem cachedAt_new (o : Fin BLOCKS_PER_PAGE) : BlockPage.new.cachedAt o = none := rfl

end BlockPage

namespace BlockDev

/-- The copy of block `block_id` that the cache has loaded, if any. -/
def cached (d : BlockDev) (block_id : ℕ) : Option Block :=
  (d.buffer_cache.bind fun c => c.get_block_page (block_id / BLOCKS_PER_PAGE)).bind
    fun page => page.cachedAt (inPageOffset block_id)

/-- What the device holds at block `block_id`: the cache's copy, or the driver's block. -/
def view (d : BlockDev) (block_id : ℕ) : Block := (d.cached block_id).getD (d.blocks block_id)

/-- The cache holds copies of the driver's blocks only. -/
def CacheOk (d : BlockDev) : Prop := ∀ block_id, (d.cached block_id).isSome → block_id < d.capacity

theorem cacheOk_of_none {d : BlockDev} (uncached : d.buffer_cache = none) : d.CacheOk := by
  intro block_id found
  simp [cached, uncached] at found

theorem cacheOk_new_cache (capacity : ℕ) (blocks : ℕ → Block) :
    (BlockDev.mk capacity blocks (some BufferCache.new)).CacheOk := by
  intro block_id found
  simp [cached, BufferCache.new, BufferCache.get_block_page] at found

theorem view_of_none {d : BlockDev} (uncached : d.buffer_cache = none) : d.view = d.blocks := by
  funext block_id
  simp [view, cached, uncached]

/-- A block is the only one of its page at its place. -/
theorem eq_of_inPageOffset_eq {x b : ℕ} (samePage : x / BLOCKS_PER_PAGE = b / BLOCKS_PER_PAGE)
    (samePlace : inPageOffset x = inPageOffset b) : x = b := by
  have place : x % BLOCKS_PER_PAGE = b % BLOCKS_PER_PAGE := congrArg Fin.val samePlace
  rw [← Nat.div_add_mod x BLOCKS_PER_PAGE, ← Nat.div_add_mod b BLOCKS_PER_PAGE, samePage, place]

/-- After the page of block `b` is replaced by `page`, on a device whose driver blocks differ
at most at `b`: when `page` keeps the other places of the page as they were and holds `v` at
`b`, the device holds what it held with `v` at `b`, and the cache still holds the driver's
blocks only. -/
theorem view_of_insert {d e : BlockDev} {c : BufferCache} {b : ℕ} {page : BlockPage} {v : Block}
    (cache : d.buffer_cache = some c)
    (inserted : e.buffer_cache = some (c.insert_block_page (b / BLOCKS_PER_PAGE) page))
    (driver : ∀ x, x ≠ b → e.blocks x = d.blocks x)
    (others : ∀ o, o ≠ inPageOffset b →
      page.cachedAt o = (c.get_block_page (b / BLOCKS_PER_PAGE)).bind fun old => old.cachedAt o)
    (atBlock : page.cachedAt (inPageOffset b) = some v) :
    e.view = Function.update d.view b v ∧
      (d.CacheOk → b < d.capacity → e.capacity = d.capacity → e.CacheOk) := by
  -- the cache after it, block by block: `b` itself, or what it held
  have found : ∀ x, e.cached x = if x = b then some v else d.cached x := by
    intro x
    by_cases samePage : x / BLOCKS_PER_PAGE = b / BLOCKS_PER_PAGE
    · by_cases same : x = b
      · subst same
        simp [cached, inserted, BufferCache.insert_block_page, BufferCache.get_block_page, atBlock]
      · have otherPlace : inPageOffset x ≠ inPageOffset b :=
          fun samePlace => same (eq_of_inPageOffset_eq samePage samePlace)
        simp [cached, inserted, cache, BufferCache.insert_block_page, BufferCache.get_block_page,
          samePage, same, others _ otherPlace]
    · have same : x ≠ b := fun same => samePage (congrArg (· / BLOCKS_PER_PAGE) same)
      simp [cached, inserted, cache, BufferCache.insert_block_page, BufferCache.get_block_page,
        samePage, same]
  constructor
  · funext x
    by_cases same : x = b
    · simp [view, found, same]
    · simp [view, found, same, driver x same]
  · intro ok inRange sameCapacity x present
    rw [found] at present
    by_cases same : x = b
    · rw [same, sameCapacity]
      exact inRange
    · rw [if_neg same] at present
      rw [sameCapacity]
      exact ok x present

/-- `read_block` of a block the driver has returns what the device holds there and changes
nothing the device holds. -/
theorem read_block_of_lt {d : BlockDev} (ok : d.CacheOk) {b : ℕ} (inRange : b < d.capacity) :
    ∃ d', d.read_block b = some (d.view b, d') ∧ d'.view = d.view ∧ d'.capacity = d.capacity ∧
      d'.CacheOk := by
  have direct : d.direct_read_block b = some (d.blocks b) := if_pos inRange
  cases cache : d.buffer_cache with
  | none =>
    refine ⟨d, ?_, rfl, rfl, ok⟩
    simp [read_block, cache, direct, view_of_none cache]
  | some c =>
    -- the page is replaced by one that holds the block where it held it, or now loads it
    have keeps : ∀ page : BlockPage, page.cachedAt (inPageOffset b) = some (d.view b) →
        (∀ o, o ≠ inPageOffset b → page.cachedAt o =
          (c.get_block_page (b / BLOCKS_PER_PAGE)).bind fun old => old.cachedAt o) →
        (d.withCache (c.insert_block_page (b / BLOCKS_PER_PAGE) page)).view = d.view ∧
          (d.withCache (c.insert_block_page (b / BLOCKS_PER_PAGE) page)).CacheOk := by
      intro page atBlock others
      obtain ⟨viewed, kept⟩ := view_of_insert
        (e := d.withCache (c.insert_block_page (b / BLOCKS_PER_PAGE) page)) cache rfl
        (fun _ _ => rfl) others atBlock
      exact ⟨by rw [viewed, Function.update_eq_self], kept ok inRange rfl⟩
    cases paged : c.get_block_page (b / BLOCKS_PER_PAGE) with
    | none =>
      have atBlock : d.view b = d.blocks b := by simp [view, cached, cache, paged]
      obtain ⟨viewed, kept⟩ := keeps (BlockPage.new.load (inPageOffset b) (d.blocks b))
        (by rw [BlockPage.cachedAt_load, if_pos rfl, atBlock])
        (fun o other => by rw [BlockPage.cachedAt_load, if_neg other, paged]; rfl)
      refine ⟨_, ?_, viewed, rfl, kept⟩
      simp [read_block, cache, paged, direct, atBlock, BlockPage.read_block_one, BlockPage.load]
    | some page =>
      by_cases loaded : page.is_loaded (inPageOffset b)
      · have atBlock : d.view b = page.frame (inPageOffset b) := by
          simp [view, cached, cache, paged, BlockPage.cachedAt, loaded]
        obtain ⟨viewed, kept⟩ := keeps page
          (by simp [BlockPage.cachedAt, loaded, atBlock])
          (fun o _ => by rw [paged]; rfl)
        refine ⟨_, ?_, viewed, rfl, kept⟩
        simp [read_block, cache, paged, loaded, atBlock, BlockPage.read_block_one]
      · have atBlock : d.view b = d.blocks b := by
          simp [view, cached, cache, paged, BlockPage.cachedAt, loaded]
        obtain ⟨viewed, kept⟩ := keeps (page.load (inPageOffset b) (d.blocks b))
          (by rw [BlockPage.cachedAt_load, if_pos rfl, atBlock])
          (fun o other => by rw [BlockPage.cachedAt_load, if_neg other, paged]; rfl)
        refine ⟨_, ?_, viewed, rfl, kept⟩
        simp [read_block, cache, paged, loaded, direct, atBlock, BlockPage.read_block_one,
          BlockPage.load]

/-- `read_block` past the driver's last block panics, cached or not. -/
theorem read_block_of_le {d : BlockDev} (ok : d.CacheOk) {b : ℕ} (past : d.capacity ≤ b) :
    d.read_block b = none := by
  have direct : d.direct_read_block b = none := if_neg (by omega)
  -- the cache holds no copy of `b`
  have absent : d.cached b = none := by
    by_contra present
    exact absurd (ok b (Option.ne_none_iff_isSome.mp present)) (by omega)
  cases cache : d.buffer_cache with
  | none => simp [read_block, cache, direct]
  | some c =>
    cases paged : c.get_block_page (b / BLOCKS_PER_PAGE) with
    | none => simp [read_block, cache, paged, direct]
    | some page =>
      have unloaded : page.is_loaded (inPageOffset b) = false := by
        simpa [cached, cache, paged, BlockPage.cachedAt] using absent
      simp [read_block, cache, paged, unloaded, direct]

/-- `write_block` of a block the driver has changes what the device holds at that block, and
only there. -/
theorem write_block_of_lt {d : BlockDev} (ok : d.CacheOk) {b : ℕ} (inRange : b < d.capacity)
    (buf : List UInt8) :
    ∃ d', d.write_block b buf = some d' ∧ d'.view = Function.update d.view b (Block.ofBuf buf) ∧
      d'.capacity = d.capacity ∧ d'.CacheOk := by
  have direct : d.direct_read_block b = some (d.blocks b) := if_pos inRange
  cases cache : d.buffer_cache with
  | none =>
    let written : BlockDev := { d with blocks := Function.update d.blocks b (Block.ofBuf buf) }
    have uncached : written.buffer_cache = none := cache
    refine ⟨written, by simp [write_block, cache, direct_write_block, inRange, written], ?_, rfl,
      cacheOk_of_none uncached⟩
    rw [view_of_none uncached, view_of_none cache]
  | some c =>
    cases paged : c.get_block_page (b / BLOCKS_PER_PAGE) with
    | none =>
      -- the driver's block is zeroed, but the page holds `buf` over it
      let zeroed : BlockDev :=
        { d with blocks := Function.update d.blocks b (Block.ofBuf (BlockPage.new.frame (inPageOffset b)).toList) }
      let page : BlockPage :=
        { BlockPage.new with is_loaded := Function.update BlockPage.new.is_loaded (inPageOffset b) true }
      have loaded : page.is_loaded (inPageOffset b) = true := by simp [page]
      obtain ⟨viewed, kept⟩ := view_of_insert (e := zeroed.withCache
          (c.insert_block_page (b / BLOCKS_PER_PAGE) (page.write_block_one (inPageOffset b) buf)))
        cache rfl (fun x other => by simp [zeroed, withCache, Function.update_of_ne other])
        (fun o other => by
          rw [BlockPage.cachedAt_write_block_one loaded, if_neg other, paged]
          simp [page, BlockPage.cachedAt, BlockPage.new, Function.update_of_ne other])
        (by rw [BlockPage.cachedAt_write_block_one loaded, if_pos rfl])
      refine ⟨_, ?_, viewed, rfl, kept ok inRange rfl⟩
      simp [write_block, cache, paged, direct_write_block, inRange, zeroed, page]
    | some page =>
      -- the block is loaded first if it is not, then overwritten in the page
      have step : ∀ loadedPage : BlockPage, loadedPage.is_loaded (inPageOffset b) = true →
          (∀ o, o ≠ inPageOffset b → loadedPage.cachedAt o = page.cachedAt o) →
          (d.withCache (c.insert_block_page (b / BLOCKS_PER_PAGE)
            (loadedPage.write_block_one (inPageOffset b) buf))).view =
              Function.update d.view b (Block.ofBuf buf) ∧
          (d.withCache (c.insert_block_page (b / BLOCKS_PER_PAGE)
            (loadedPage.write_block_one (inPageOffset b) buf))).CacheOk := by
        intro loadedPage loaded others
        obtain ⟨viewed, kept⟩ := view_of_insert (e := d.withCache (c.insert_block_page
            (b / BLOCKS_PER_PAGE) (loadedPage.write_block_one (inPageOffset b) buf))) cache rfl
          (fun _ _ => rfl)
          (fun o other => by
            rw [BlockPage.cachedAt_write_block_one loaded, if_neg other, others o other, paged]
            rfl)
          (by rw [BlockPage.cachedAt_write_block_one loaded, if_pos rfl])
        exact ⟨viewed, kept ok inRange rfl⟩
      by_cases loaded : page.is_loaded (inPageOffset b)
      · obtain ⟨viewed, kept⟩ := step page loaded (fun _ _ => rfl)
        exact ⟨_, by simp [write_block, cache, paged, loaded], viewed, rfl, kept⟩
      · obtain ⟨viewed, kept⟩ := step (page.load (inPageOffset b) (d.blocks b))
          (by simp [BlockPage.load])
          (fun o other => by rw [BlockPage.cachedAt_load, if_neg other])
        exact ⟨_, by simp [write_block, cache, paged, loaded, direct], viewed, rfl, kept⟩

/-- `write_block` past the driver's last block panics, cached or not. -/
theorem write_block_of_le {d : BlockDev} (ok : d.CacheOk) {b : ℕ} (past : d.capacity ≤ b)
    (buf : List UInt8) : d.write_block b buf = none := by
  have direct : d.direct_read_block b = none := if_neg (by omega)
  have directWrite : ∀ data, d.direct_write_block b data = none := fun _ => if_neg (by omega)
  have absent : d.cached b = none := by
    by_contra present
    exact absurd (ok b (Option.ne_none_iff_isSome.mp present)) (by omega)
  cases cache : d.buffer_cache with
  | none => simp [write_block, cache, directWrite]
  | some c =>
    cases paged : c.get_block_page (b / BLOCKS_PER_PAGE) with
    | none => simp [write_block, cache, paged, directWrite]
    | some page =>
      have unloaded : page.is_loaded (inPageOffset b) = false := by
        simpa [cached, cache, paged, BlockPage.cachedAt] using absent
      simp [write_block, cache, paged, unloaded, direct]

/-- The device without its cache, its driver holding what the device holds. -/
def uncached (d : BlockDev) : BlockDev := ⟨d.capacity, d.view, none⟩

/-- The buffer cache is invisible: every `read_block` and `write_block` through it returns and
leaves what the same request returns and leaves on the device without a cache, whose driver
holds what the device holds, panicking exactly where that one does; and the cache still holds
only the driver's blocks after it. -/
theorem buffer_cache_refines_driver {d : BlockDev} (ok : d.CacheOk) :
    (∀ b, (d.read_block b).map (fun r => (r.1, r.2.uncached)) = d.uncached.read_block b ∧
      ∀ r ∈ d.read_block b, r.2.CacheOk) ∧
    (∀ b buf, (d.write_block b buf).map uncached = d.uncached.write_block b buf ∧
      ∀ e ∈ d.write_block b buf, e.CacheOk) := by
  have plainRead : ∀ b, d.uncached.read_block b =
      if b < d.capacity then some (d.view b, d.uncached) else none := by
    intro b
    by_cases inRange : b < d.capacity <;> simp [read_block, uncached, direct_read_block, inRange]
  have plainWrite : ∀ b buf, d.uncached.write_block b buf = if b < d.capacity then
      some ⟨d.capacity, Function.update d.view b (Block.ofBuf buf), none⟩ else none := by
    intro b buf
    by_cases inRange : b < d.capacity <;> simp [write_block, uncached, direct_write_block, inRange]
  constructor
  · intro b
    rw [plainRead]
    by_cases inRange : b < d.capacity
    · obtain ⟨e, ran, viewed, sized, readOk⟩ := read_block_of_lt ok inRange
      rw [ran, if_pos inRange]
      exact ⟨by simp [uncached, viewed, sized], by simpa using readOk⟩
    · rw [read_block_of_le ok (by omega), if_neg inRange]
      exact ⟨rfl, by simp⟩
  · intro b buf
    rw [plainWrite]
    by_cases inRange : b < d.capacity
    · obtain ⟨e, wrote, viewed, sized, writeOk⟩ := write_block_of_lt ok inRange buf
      rw [wrote, if_pos inRange]
      exact ⟨by simp [uncached, viewed, sized], by simpa using writeOk⟩
    · rw [write_block_of_le ok (by omega), if_neg inRange]
      exact ⟨rfl, by simp⟩

/-- Four blocks, block `b` filled with the byte `b`, behind an empty buffer cache. -/
def sampleDev : BlockDev := ⟨4, fun b => Vector.replicate BLOCK_SIZE (UInt8.ofNat b), some BufferCache.new⟩

/-- `sampleDev` after `read_block(1)`: block 1 loaded in page 0 of its cache. -/
def loadedDev : BlockDev :=
  sampleDev.withCache (BufferCache.new.insert_block_page 0
    (BlockPage.new.load (inPageOffset 1) (sampleDev.blocks 1)))

/-- With block 1 loaded in page 0 by a first `read_block(1)`: a second `read_block(1)` is a page
hit, `read_block(2)` loads a second block into the same page, and `write_block(1)` goes into the
loaded block, each as the driver alone serves it. -/
theorem loaded_cache_refines_driver :
    sampleDev.read_block 1 = some (sampleDev.blocks 1, loadedDev) ∧
      loadedDev.cached 1 = some (sampleDev.blocks 1) ∧ loadedDev.CacheOk ∧
      (∀ b, (loadedDev.read_block b).map (fun r => (r.1, r.2.uncached)) =
          loadedDev.uncached.read_block b ∧ ∀ r ∈ loadedDev.read_block b, r.2.CacheOk) ∧
      (∀ b buf, (loadedDev.write_block b buf).map uncached = loadedDev.uncached.write_block b buf ∧
        ∀ e ∈ loadedDev.write_block b buf, e.CacheOk) := by
  have ran : sampleDev.read_block 1 = some (sampleDev.blocks 1, loadedDev) := by
    simp only [read_block, sampleDev, loadedDev, BufferCache.new, BufferCache.get_block_page]
    rfl
  have page : 1 / BLOCKS_PER_PAGE = 0 := by decide
  have hit : loadedDev.cached 1 = some (sampleDev.blocks 1) := by
    simp [cached, loadedDev, withCache, BufferCache.insert_block_page, BufferCache.get_block_page,
      page, BlockPage.cachedAt_load]
  -- the first read keeps the empty cache of `sampleDev` right, so the refinement holds again
  have fresh : sampleDev.CacheOk := cacheOk_new_cache _ _
  have ok : loadedDev.CacheOk :=
    ((buffer_cache_refines_driver fresh).1 1).2 _ (by rw [ran]; rfl)
  exact ⟨ran, hit, ok, buffer_cache_refines_driver ok⟩

/-- A request on a block device: `read_block` or `write_block`. -/
inductive BlockOp
  | read (block_id : ℕ)
  | write (block_id : ℕ) (buf : List UInt8)

/-- A request served, the block read aside. -/
def apply (d : BlockDev) : BlockOp → Option BlockDev
  | .read b => (d.read_block b).map Prod.snd
  | .write b buf => d.write_block b buf

/-- The zeroed block of a new `BlockPage`. -/
theorem ofBuf_zeroed (o : Fin BLOCKS_PER_PAGE) :
    Block.ofBuf (BlockPage.new.frame o).toList = Vector.replicate BLOCK_SIZE 0 := by
  ext j inBlock
  simp [Block.ofBuf, BlockPage.new, List.getD_eq_getElem?_getD]

/-- Through a cache, `read_block` changes the cache only. -/
theorem read_block_withCache {d e : BlockDev} {c : BufferCache} (cache : d.buffer_cache = some c)
    {b : ℕ} {block : Block} (ran : d.read_block b = some (block, e)) : ∃ c', e = d.withCache c' := by
  simp only [read_block, cache] at ran
  split at ran
  · split at ran
    · simp only [Option.bind_eq_bind, Option.bind_some, Option.some.injEq,
        Prod.mk.injEq] at ran
      exact ⟨_, ran.2.symm⟩
    · simp only [Option.bind_eq_bind, Option.bind_eq_some_iff, Option.some.injEq,
        Prod.mk.injEq] at ran
      obtain ⟨_, -, -, rfl⟩ := ran
      exact ⟨_, rfl⟩
  · simp only [Option.bind_eq_bind, Option.bind_eq_some_iff, Option.some.injEq,
      Prod.mk.injEq] at ran
    obtain ⟨_, -, -, rfl⟩ := ran
    exact ⟨_, rfl⟩

/-- Through a cache, `write_block` changes the cache, and the driver's block only for a page not
cached yet, which it zeroes. -/
theorem write_block_withCache {d e : BlockDev} {c : BufferCache} (cache : d.buffer_cache = some c)
    {b : ℕ} {buf : List UInt8} (wrote : d.write_block b buf = some e) :
    ∃ c', e = d.withCache c' ∨
      e = { d with blocks := Function.update d.blocks b (Vector.replicate BLOCK_SIZE 0) }.withCache c' := by
  simp only [write_block, cache] at wrote
  split at wrote
  · split at wrote
    · simp only [Option.bind_eq_bind, Option.bind_some, Option.some.injEq] at wrote
      exact ⟨_, .inl wrote.symm⟩
    · simp only [Option.bind_eq_bind, Option.bind_eq_some_iff,
        Option.some.injEq] at wrote
      obtain ⟨_, -, rfl⟩ := wrote
      exact ⟨_, .inl rfl⟩
  · -- the driver's block is replaced by the new page's zeroed one
    simp only [Option.bind_eq_bind, Option.bind_eq_some_iff,
      Option.some.injEq] at wrote
    obtain ⟨zeroed, direct, rfl⟩ := wrote
    unfold direct_write_block at direct
    split_ifs at direct
    cases direct
    exact ⟨_, .inr (by rw [ofBuf_zeroed])⟩

/-- Through a cache, a request leaves the driver's blocks as they were, but for a write into a
page not cached yet, which zeroes the driver's copy of its block. -/
theorem apply_blocks_of_cached {d e : BlockDev} (cached : d.buffer_cache.isSome) {op : BlockOp}
    (applied : d.apply op = some e) :
    e.buffer_cache.isSome ∧ ∀ x, e.blocks x = d.blocks x ∨ e.blocks x = Vector.replicate BLOCK_SIZE 0 := by
  obtain ⟨c, cache⟩ := Option.isSome_iff_exists.mp cached
  cases op with
  | read b =>
    obtain ⟨⟨block, read⟩, ran, rfl⟩ := Option.map_eq_some_iff.mp applied
    obtain ⟨c', rfl⟩ := read_block_withCache cache ran
    exact ⟨rfl, fun _ => .inl rfl⟩
  | write b buf =>
    obtain ⟨c', rfl | rfl⟩ := write_block_withCache cache applied
    · exact ⟨rfl, fun _ => .inl rfl⟩
    · refine ⟨rfl, fun x => ?_⟩
      by_cases same : x = b
      · subst same
        exact .inr (by simp [withCache])
      · exact .inl (by simp [withCache, Function.update_of_ne same])

/-- With a buffer cache, no request ever hands the caller's bytes to the driver: in every run of
`read_block` and `write_block`, each of the driver's blocks stays as it was or is zeroed, by a
write into a page not cached yet. Nothing ever writes the cache back. -/
theorem buffer_cache_never_writes_back {d e : BlockDev} (cached : d.buffer_cache.isSome)
    (reached : Reachable apply (fun _ _ => True) d e) (x : ℕ) :
    e.blocks x = d.blocks x ∨ e.blocks x = Vector.replicate BLOCK_SIZE 0 := by
  have kept := reached.invariant
    (fun s => s.buffer_cache.isSome ∧ ∀ x, s.blocks x = d.blocks x ∨ s.blocks x = Vector.replicate BLOCK_SIZE 0)
    ⟨cached, fun _ => .inl rfl⟩
    (by
      intro s op next ⟨cachedNow, driver⟩ _ applied
      obtain ⟨cachedNext, changed⟩ := apply_blocks_of_cached cachedNow applied
      refine ⟨cachedNext, fun x => ?_⟩
      rcases changed x with same | zeroed
      · rw [same]
        exact driver x
      · exact .inr zeroed)
  exact kept.2 x

/-- A write into a page the cache does not hold yet zeroes the driver's block. -/
theorem write_block_zeroes_driver {d e : BlockDev} {c : BufferCache} (cache : d.buffer_cache = some c)
    {b : ℕ} (noPage : c.get_block_page (b / BLOCKS_PER_PAGE) = none) {buf : List UInt8}
    (wrote : d.write_block b buf = some e) : e.blocks b = Vector.replicate BLOCK_SIZE 0 := by
  simp only [write_block, cache, noPage, Option.bind_eq_bind, Option.bind_eq_some_iff,
    Option.some.injEq] at wrote
  obtain ⟨zeroed, direct, rfl⟩ := wrote
  unfold direct_write_block at direct
  split_ifs at direct
  cases direct
  simp [withCache, ofBuf_zeroed]

/-- A write of sevens to block `3` of `sampleDev`: the driver's block is zeroed, and the sevens
are in the cache only. -/
theorem sample_write_zeroes_driver :
    ∃ e, sampleDev.write_block 3 (List.replicate BLOCK_SIZE 7) = some e ∧
      (e.blocks 3 = sampleDev.blocks 3 ∨ e.blocks 3 = Vector.replicate BLOCK_SIZE 0) ∧
      e.blocks 3 = Vector.replicate BLOCK_SIZE 0 ∧
      e.view 3 = Block.ofBuf (List.replicate BLOCK_SIZE 7) := by
  obtain ⟨e, wrote, viewed, -, -⟩ :=
    write_block_of_lt (d := sampleDev) (cacheOk_new_cache _ _) (show 3 < sampleDev.capacity by decide)
      (List.replicate BLOCK_SIZE 7)
  have ran : [BlockOp.write 3 (List.replicate BLOCK_SIZE 7)].foldlM apply sampleDev = some e := by
    rw [List.foldlM_cons, apply, wrote]
    rfl
  exact ⟨e, wrote, buffer_cache_never_writes_back rfl (Reachable.of_foldlM ran) 3,
    write_block_zeroes_driver rfl rfl wrote, by rw [viewed, Function.update_self]⟩

end BlockDev

/-! ## The disk -/

/-- The block a write copies out of `data`, when `data` is `old` with `src` copied in from
`start`. -/
theorem get_ofBuf_of_copy {old : Block} {start : ℕ} {src data : List UInt8}
    (copied : old.toList.copyFromSlice? start (start + src.length) src = some data)
    (j : Fin BLOCK_SIZE) :
    (Block.ofBuf data).get j = if start ≤ j then src[j - start]?.getD (old.get j) else old.get j := by
  obtain ⟨_, pointwise⟩ := List.getD_of_copyFromSlice? copied 0
  have atOld : old.toList.getD j 0 = old.get j := by
    simp [List.getD_eq_getElem?_getD, Vector.getElem_toList]
    rfl
  simp only [Block.ofBuf, Vector.get_ofFn, pointwise, atOld]
  by_cases after : start ≤ (j : ℕ)
  · by_cases inside : (j : ℕ) < start + src.length
    · simp [after, inside, List.getD_eq_getElem?_getD, List.getElem?_eq_getElem (show (j : ℕ) - start < src.length by omega)]
    · simp [after, inside, List.getElem?_eq_none (show src.length ≤ (j : ℕ) - start by omega)]
  · simp [after]

/-- What a disk with a cursor is for: `size` bytes and a position among them. -/
structure ByteDisk where
  image : ℕ → UInt8
  size : ℕ
  position : ℕ

namespace ByteDisk

/-- Reading `len` bytes: those from the position, which moves past them; nothing past the end. -/
def read (f : ByteDisk) (len : ℕ) : Option (List UInt8 × ByteDisk) :=
  if len = 0 ∨ f.position + len ≤ f.size then
    some (window f.image f.position len, { f with position := f.position + len })
  else none

/-- Writing `buf` at the position, which moves past it; nothing past the end. -/
def write (f : ByteDisk) (buf : List UInt8) : Option (ℕ × ByteDisk) :=
  if buf = [] ∨ f.position + buf.length ≤ f.size then
    some (buf.length, ⟨overwrite f.image f.position buf, f.size, f.position + buf.length⟩)
  else none

end ByteDisk

namespace Disk

/-- The file of bytes a disk is: what its device holds, byte by byte, its size and the cursor. -/
def abs (d : Disk) : ByteDisk := ⟨flat d.dev.view, d.size, d.position⟩

theorem position_advance (d : Disk) (dev : BlockDev) (count : ℕ) (within : d.offset + count ≤ BLOCK_SIZE) :
    (d.advance dev count within).position = d.position + count := by
  simp only [advance]
  split
  · simp only [position, Nat.add_mul, Nat.one_mul]
    omega
  · simp only [position]
    omega

theorem dev_advance (d : Disk) (dev : BlockDev) (count : ℕ) (within : d.offset + count ≤ BLOCK_SIZE) :
    (d.advance dev count within).dev = dev := by
  simp only [advance]
  split <;> rfl

theorem position_set_position (d : Disk) (pos : ℕ) : (d.set_position pos).position = pos :=
  Nat.div_add_mod' pos BLOCK_SIZE

/-- `seek` puts the cursor at the position it returns, as a `u64`, and leaves the device. -/
theorem seek_position {d e : Disk} {off whence p : ℤ} (sought : d.seek off whence = .ok (p, e)) :
    e.position = usizeOfIsize p ∧ e.dev = d.dev := by
  simp only [seek] at sought
  split at sought
  · cases sought
  · cases sought
    exact ⟨position_set_position _ _, rfl⟩

theorem block_id_lt_of_position_lt {d : Disk} (inside : d.position < d.size) :
    d.block_id < d.dev.capacity := by
  unfold position size BlockDev.size at inside
  have := d.offset_lt
  simp only [BLOCK_SIZE] at *
  omega

/-- The end of the cursor's block is at most the end of the device. -/
theorem position_add_le_size {d : Disk} (inRange : d.block_id < d.dev.capacity) (len : ℕ) :
    d.position + min len (BLOCK_SIZE - d.offset) ≤ d.size := by
  unfold position size BlockDev.size
  have := d.offset_lt
  have : d.block_id + 1 ≤ d.dev.capacity := inRange
  simp only [BLOCK_SIZE] at *
  omega

/-- `read_one` in a block the device has reads what it holds from the cursor to the end of the
block or of the buffer, and changes none of it. -/
theorem read_one_of_lt {d : Disk} (ok : d.dev.CacheOk) (len : ℕ)
    (inRange : d.block_id < d.dev.capacity) :
    ∃ e, d.read_one len = some (window (flat d.dev.view) d.position (min len (BLOCK_SIZE - d.offset)), e) ∧
      e.position = d.position + min len (BLOCK_SIZE - d.offset) ∧ e.dev.view = d.dev.view ∧
      e.dev.capacity = d.dev.capacity ∧ e.dev.CacheOk := by
  obtain ⟨dev, readBlock, viewed, sized, ok'⟩ := BlockDev.read_block_of_lt ok inRange
  have fits : d.offset + min len (BLOCK_SIZE - d.offset) ≤ BLOCK_SIZE := by
    have := d.offset_lt
    omega
  have slice := window_flat_of_le d.dev.view d.block_id fits
  unfold read_one
  split_ifs with whole
  · -- a whole block
    obtain ⟨start, long⟩ := whole
    have counted : min len (BLOCK_SIZE - d.offset) = BLOCK_SIZE := by omega
    have entire : window (flat d.dev.view) d.position (min len (BLOCK_SIZE - d.offset)) =
        (d.dev.view d.block_id).toList := by
      rw [position, slice, start, Nat.sub_zero, Nat.min_eq_right long, List.drop_zero]
      exact List.take_of_length_le (by simp)
    refine ⟨⟨d.block_id + 1, d.offset, dev, d.offset_lt⟩, ?_, ?_, viewed, sized, ok'⟩
    · simp [readBlock, entire]
    · simp only [position, counted, Nat.add_mul, Nat.one_mul]
      omega
  · refine ⟨d.advance dev _ fits, ?_, position_advance _ _ _ _, by rw [dev_advance, viewed],
      by rw [dev_advance, sized], by rw [dev_advance]; exact ok'⟩
    have sliced := List.slice?_of_le (l := (d.dev.view d.block_id).toList)
      (Nat.le_add_right d.offset (min len (BLOCK_SIZE - d.offset))) (by simpa using fits)
    simp [readBlock, sliced, position, slice]

theorem read_one_of_le {d : Disk} (ok : d.dev.CacheOk) (len : ℕ)
    (past : d.dev.capacity ≤ d.block_id) : d.read_one len = none := by
  unfold read_one
  split_ifs <;> simp [BlockDev.read_block_of_le ok past]

/-- A block written back with `src` copied into it from `start` writes `src` into the bytes the
device holds. -/
theorem flat_update_ofBuf {view : ℕ → Block} {b start : ℕ} {src data : List UInt8}
    (copied : (view b).toList.copyFromSlice? start (start + src.length) src = some data) :
    flat (Function.update view b (Block.ofBuf data)) = overwrite (flat view) (b * BLOCK_SIZE + start) src := by
  have fits : start + src.length ≤ BLOCK_SIZE := by
    unfold List.copyFromSlice? at copied
    split_ifs at copied with inBounds
    simpa using inBounds.2.1
  exact flat_update_of_get fits (get_ofBuf_of_copy copied)

/-- `write_one` in a block the device has writes the part of `buf` that reaches the end of the
block, from the cursor. -/
theorem write_one_of_lt {d : Disk} (ok : d.dev.CacheOk) (buf : List UInt8)
    (inRange : d.block_id < d.dev.capacity) :
    ∃ e, d.write_one buf = some (min buf.length (BLOCK_SIZE - d.offset), e) ∧
      e.position = d.position + min buf.length (BLOCK_SIZE - d.offset) ∧
      flat e.dev.view = overwrite (flat d.dev.view) d.position
        (buf.take (min buf.length (BLOCK_SIZE - d.offset))) ∧
      e.dev.capacity = d.dev.capacity ∧ e.dev.CacheOk := by
  have fits : d.offset + min buf.length (BLOCK_SIZE - d.offset) ≤ BLOCK_SIZE := by
    have := d.offset_lt
    omega
  have blockLength : (d.dev.view d.block_id).toList.length = BLOCK_SIZE := by simp
  unfold write_one
  split_ifs with whole
  · -- a whole block, straight from `buf`
    obtain ⟨start, long⟩ := whole
    have counted : min buf.length (BLOCK_SIZE - d.offset) = BLOCK_SIZE := by omega
    have sliced : buf.slice? 0 BLOCK_SIZE = some (buf.take BLOCK_SIZE) := by
      rw [List.slice?_of_le (Nat.zero_le _) long, List.drop_zero, Nat.sub_zero]
    have copied : (d.dev.view d.block_id).toList.copyFromSlice? 0 (0 + (buf.take BLOCK_SIZE).length)
        (buf.take BLOCK_SIZE) = some (buf.take BLOCK_SIZE) := by
      rw [List.copyFromSlice?_of_le (Nat.zero_le _) (by simp [blockLength]) (by simp)]
      simp [List.length_take, Nat.min_eq_left long, blockLength]
    obtain ⟨dev, wrote, viewed, sized, ok'⟩ := BlockDev.write_block_of_lt ok inRange (buf.take BLOCK_SIZE)
    refine ⟨⟨d.block_id + 1, d.offset, dev, d.offset_lt⟩, by simp [sliced, wrote, counted], ?_, ?_,
      sized, ok'⟩
    · simp only [position, counted, Nat.add_mul, Nat.one_mul]
      omega
    · rw [viewed, flat_update_ofBuf copied, counted, position, start]
  · -- part of a block: read it, copy the part in, write it back
    obtain ⟨read, readBlock, readViewed, readSized, readOk⟩ := BlockDev.read_block_of_lt ok inRange
    have sliced : buf.slice? 0 (min buf.length (BLOCK_SIZE - d.offset)) =
        some (buf.take (min buf.length (BLOCK_SIZE - d.offset))) := by
      rw [List.slice?_of_le (Nat.zero_le _) (by omega), List.drop_zero, Nat.sub_zero]
    have srcLength : (buf.take (min buf.length (BLOCK_SIZE - d.offset))).length =
        min buf.length (BLOCK_SIZE - d.offset) := by simp
    obtain ⟨data, copied⟩ : ∃ data, (d.dev.view d.block_id).toList.copyFromSlice? d.offset
        (d.offset + min buf.length (BLOCK_SIZE - d.offset))
        (buf.take (min buf.length (BLOCK_SIZE - d.offset))) = some data :=
      ⟨_, List.copyFromSlice?_of_le (by omega) (by rw [blockLength]; exact fits) (by omega)⟩
    have copiedAt : (d.dev.view d.block_id).toList.copyFromSlice? d.offset
        (d.offset + (buf.take (min buf.length (BLOCK_SIZE - d.offset))).length)
        (buf.take (min buf.length (BLOCK_SIZE - d.offset))) = some data := by
      rw [srcLength]
      exact copied
    obtain ⟨dev, wrote, viewed, sized, ok'⟩ :=
      BlockDev.write_block_of_lt readOk (by rw [readSized]; exact inRange) data
    refine ⟨d.advance dev _ fits, ?_, position_advance _ _ _ _, ?_,
      by rw [dev_advance, sized, readSized], by rw [dev_advance]; exact ok'⟩
    · simp [readBlock, sliced, copied, wrote]
    · rw [dev_advance, viewed, readViewed, flat_update_ofBuf copiedAt, position]

theorem write_one_of_le {d : Disk} (ok : d.dev.CacheOk) (buf : List UInt8)
    (past : d.dev.capacity ≤ d.block_id) : d.write_one buf = none := by
  unfold write_one
  split_ifs with whole
  · have sliced : buf.slice? 0 BLOCK_SIZE = some (buf.take BLOCK_SIZE) := by
      rw [List.slice?_of_le (Nat.zero_le _) whole.2, List.drop_zero, Nat.sub_zero]
    simp [sliced, BlockDev.write_block_of_le ok past]
  · simp [BlockDev.read_block_of_le ok past]

theorem read_zero (d : Disk) : d.read 0 = some ([], d) := by
  rw [read, dif_pos rfl]

theorem write_nil (d : Disk) : d.write [] = some (0, d) := by
  rw [write, dif_pos List.length_nil]

/-- lwext4's `read` of bytes the device has reads what it holds from the cursor, one piece of a
block after the other, and moves the cursor past them. -/
theorem read_of_le {d : Disk} (ok : d.dev.CacheOk) {len : ℕ} (fits : d.position + len ≤ d.size) :
    ∃ e, d.read len = some (window (flat d.dev.view) d.position len, e) ∧
      e.position = d.position + len ∧ e.dev.view = d.dev.view ∧
      e.dev.capacity = d.dev.capacity ∧ e.dev.CacheOk := by
  -- by induction on the bytes left, as `read` recurses
  induction len using Nat.strong_induction_on generalizing d with
  | _ len ih =>
    rcases Nat.eq_zero_or_pos len with rfl | positive
    · exact ⟨d, by rw [read_zero, window_zero], (Nat.add_zero _).symm, rfl, rfl, ok⟩
    · have inRange := block_id_lt_of_position_lt (show d.position < d.size by omega)
      have room := d.offset_lt
      obtain ⟨e, readOne, moved, viewed, sized, readOk⟩ := read_one_of_lt ok len inRange
      have restFits : e.position + (len - min len (BLOCK_SIZE - d.offset)) ≤ e.size := by
        unfold size BlockDev.size at fits ⊢
        rw [moved, sized]
        omega
      obtain ⟨f, rest, moved', viewed', sized', ok'⟩ :=
        ih (len - min len (BLOCK_SIZE - d.offset)) (by omega) readOk restFits
      refine ⟨f, ?_, by rw [moved', moved]; omega, by rw [viewed', viewed], by rw [sized', sized], ok'⟩
      -- the first piece, then the rest from where it ends
      have pieces : window (flat d.dev.view) d.position len =
          window (flat d.dev.view) d.position (min len (BLOCK_SIZE - d.offset)) ++
            window (flat d.dev.view) (d.position + min len (BLOCK_SIZE - d.offset))
              (len - min len (BLOCK_SIZE - d.offset)) := by
        rw [← window_add, Nat.add_sub_cancel' (Nat.min_le_left _ _)]
      rw [read, dif_neg (by omega), readOne]
      dsimp only
      rw [dif_neg (by simp; omega), if_neg (by simp), length_window, rest, viewed, moved, pieces]
      rfl

/-- lwext4's `read` of a byte past the end of the device panics. -/
theorem read_of_lt {d : Disk} (ok : d.dev.CacheOk) {len : ℕ} (positive : 0 < len)
    (past : d.size < d.position + len) : d.read len = none := by
  induction len using Nat.strong_induction_on generalizing d with
  | _ len ih =>
    by_cases inRange : d.block_id < d.dev.capacity
    · have room := d.offset_lt
      -- the cursor's block ends within the device, so the rest runs past its end
      have blockEnd := position_add_le_size inRange len
      obtain ⟨e, readOne, moved, -, sized, readOk⟩ := read_one_of_lt ok len inRange
      have restPast : e.size < e.position + (len - min len (BLOCK_SIZE - d.offset)) := by
        unfold size BlockDev.size at past blockEnd ⊢
        rw [moved, sized]
        omega
      have rest := ih (len - min len (BLOCK_SIZE - d.offset)) (by omega) readOk (by omega) restPast
      rw [read, dif_neg (by omega), readOne]
      dsimp only
      rw [dif_neg (by simp; omega), if_neg (by simp), length_window, rest]
      rfl
    · rw [read, dif_neg (by omega), read_one_of_le ok len (by omega)]

/-- lwext4's `write` of bytes the device has writes them from the cursor, one piece of a block
after the other, and moves the cursor past them. -/
theorem write_of_le {d : Disk} (ok : d.dev.CacheOk) {buf : List UInt8}
    (fits : d.position + buf.length ≤ d.size) :
    ∃ e, d.write buf = some (buf.length, e) ∧ e.position = d.position + buf.length ∧
      flat e.dev.view = overwrite (flat d.dev.view) d.position buf ∧
      e.dev.capacity = d.dev.capacity ∧ e.dev.CacheOk := by
  -- by induction on the bytes left, as `write` recurses
  obtain ⟨len, counted⟩ : ∃ len, buf.length = len := ⟨_, rfl⟩
  induction len using Nat.strong_induction_on generalizing d buf with
  | _ len ih =>
    rcases Nat.eq_zero_or_pos len with rfl | positive
    · obtain rfl : buf = [] := List.length_eq_zero_iff.mp counted
      exact ⟨d, write_nil d, (Nat.add_zero _).symm, by rw [overwrite_nil], rfl, ok⟩
    · have inRange := block_id_lt_of_position_lt (show d.position < d.size by omega)
      have room := d.offset_lt
      obtain ⟨e, writeOne, moved, written, sized, writeOk⟩ := write_one_of_lt ok buf inRange
      have sliced : buf.slice? (min buf.length (BLOCK_SIZE - d.offset)) buf.length =
          some (buf.drop (min buf.length (BLOCK_SIZE - d.offset))) := by
        rw [List.slice?_of_le (Nat.min_le_left _ _) le_rfl, List.take_of_length_le (by simp)]
      have restFits : e.position + (buf.drop (min buf.length (BLOCK_SIZE - d.offset))).length ≤
          e.size := by
        unfold size BlockDev.size at fits ⊢
        rw [moved, sized, List.length_drop]
        omega
      obtain ⟨f, rest, moved', written', sized', ok'⟩ :=
        ih (len - min buf.length (BLOCK_SIZE - d.offset)) (by omega) writeOk restFits
          (by rw [List.length_drop]; omega)
      refine ⟨f, ?_, by rw [moved', moved, List.length_drop]; omega, ?_, by rw [sized', sized], ok'⟩
      · rw [write, dif_neg (by omega), writeOne]
        dsimp only
        rw [dif_neg (by omega)]
        split
        · rename_i noRest
          rw [sliced] at noRest
          cases noRest
        · rename_i restBuf restSliced
          rw [sliced, Option.some.injEq] at restSliced
          subst restSliced
          rw [rest, Option.map_some, List.length_drop, Nat.add_sub_cancel' (Nat.min_le_left _ _)]
      · -- the first piece, then the rest from where it ends
        rw [written', written, moved]
        conv_rhs => rw [← List.take_append_drop (min buf.length (BLOCK_SIZE - d.offset)) buf]
        rw [overwrite_append, List.length_take_of_le (Nat.min_le_left _ _)]

/-- lwext4's `write` of a byte past the end of the device panics. -/
theorem write_of_lt {d : Disk} (ok : d.dev.CacheOk) {buf : List UInt8} (nonempty : buf ≠ [])
    (past : d.size < d.position + buf.length) : d.write buf = none := by
  obtain ⟨len, counted⟩ : ∃ len, buf.length = len := ⟨_, rfl⟩
  induction len using Nat.strong_induction_on generalizing d buf with
  | _ len ih =>
    have positive : 0 < buf.length := List.length_pos_iff.mpr nonempty
    by_cases inRange : d.block_id < d.dev.capacity
    · have room := d.offset_lt
      -- the cursor's block ends within the device, so the rest runs past its end
      have blockEnd := position_add_le_size inRange buf.length
      obtain ⟨e, writeOne, moved, -, sized, writeOk⟩ := write_one_of_lt ok buf inRange
      have sliced : buf.slice? (min buf.length (BLOCK_SIZE - d.offset)) buf.length =
          some (buf.drop (min buf.length (BLOCK_SIZE - d.offset))) := by
        rw [List.slice?_of_le (Nat.min_le_left _ _) le_rfl, List.take_of_length_le (by simp)]
      have restPast : e.size < e.position + (buf.drop (min buf.length (BLOCK_SIZE - d.offset))).length := by
        unfold size BlockDev.size at past blockEnd ⊢
        rw [moved, sized, List.length_drop]
        omega
      have rest := ih (len - min buf.length (BLOCK_SIZE - d.offset)) (by omega) writeOk
        (List.ne_nil_of_length_pos (by rw [List.length_drop]; omega)) restPast
        (by rw [List.length_drop]; omega)
      rw [write, dif_neg (by omega), writeOne]
      dsimp only
      rw [dif_neg (by omega)]
      split
      · rfl
      · rename_i restBuf restSliced
        rw [sliced, Option.some.injEq] at restSliced
        subst restSliced
        rw [rest]
        rfl
    · rw [write, dif_neg (by omega), write_one_of_le ok buf (by omega)]

/-- lwext4's `read` is a read of the file of bytes the disk is, whatever blocks and cache lie
under it: the same bytes and the same file after it, with the cache still holding only the
device's blocks, and a panic exactly where the file's read runs past its end. -/
theorem read_refines {d : Disk} (ok : d.dev.CacheOk) (len : ℕ) :
    (d.read len).map (fun r => (r.1, r.2.abs)) = d.abs.read len ∧
      ∀ r ∈ d.read len, r.2.dev.CacheOk := by
  rcases Nat.eq_zero_or_pos len with rfl | positive
  · rw [read_zero, ByteDisk.read, if_pos (.inl rfl)]
    exact ⟨by simp [abs], by simpa using ok⟩
  · by_cases fits : d.position + len ≤ d.size
    · obtain ⟨e, ran, moved, viewed, sized, readOk⟩ := read_of_le ok fits
      rw [ran, ByteDisk.read, if_pos (.inr fits)]
      exact ⟨by simp [abs, moved, viewed, size, BlockDev.size, sized], by simpa using readOk⟩
    · rw [read_of_lt ok positive (by omega), ByteDisk.read, if_neg (by simp only [abs]; omega)]
      exact ⟨rfl, by simp⟩

/-- A read of `100` bytes from byte `500` of `sampleDev`, across its first two blocks. -/
theorem read_across_blocks :
    (((Disk.new BlockDev.sampleDev).set_position 500).read 100).map (fun r => (r.1, r.2.abs)) =
        ((Disk.new BlockDev.sampleDev).set_position 500).abs.read 100 ∧
      ∀ r ∈ ((Disk.new BlockDev.sampleDev).set_position 500).read 100, r.2.dev.CacheOk :=
  read_refines (BlockDev.cacheOk_new_cache _ _) 100

/-- lwext4's `write` is a write of the file of bytes the disk is, whatever blocks and cache lie
under it: every byte written lands at its place from the position, no other byte changes, the
position moves past them and the cache still holds only the device's blocks; it panics exactly
where the file's write runs past its end. -/
theorem write_refines {d : Disk} (ok : d.dev.CacheOk) (buf : List UInt8) :
    (d.write buf).map (fun r => (r.1, r.2.abs)) = d.abs.write buf ∧
      ∀ r ∈ d.write buf, r.2.dev.CacheOk := by
  by_cases empty : buf = []
  · subst empty
    rw [write_nil, ByteDisk.write, if_pos (.inl rfl)]
    exact ⟨by simp [abs], by simpa using ok⟩
  · by_cases fits : d.position + buf.length ≤ d.size
    · obtain ⟨e, ran, moved, written, sized, writeOk⟩ := write_of_le ok fits
      rw [ran, ByteDisk.write, if_pos (.inr fits)]
      exact ⟨by simp [abs, moved, written, size, BlockDev.size, sized], by simpa using writeOk⟩
    · rw [write_of_lt ok empty (by omega), ByteDisk.write,
        if_neg (by simp only [abs, empty, false_or]; omega)]
      exact ⟨rfl, by simp⟩

/-- A write of `600` bytes from byte `300` of `sampleDev`: a part, a whole block and a part. -/
theorem write_across_blocks :
    (((Disk.new BlockDev.sampleDev).set_position 300).write (List.replicate 600 9)).map
        (fun r => (r.1, r.2.abs)) =
        ((Disk.new BlockDev.sampleDev).set_position 300).abs.write (List.replicate 600 9) ∧
      ∀ r ∈ ((Disk.new BlockDev.sampleDev).set_position 300).write (List.replicate 600 9),
        r.2.dev.CacheOk :=
  write_refines (BlockDev.cacheOk_new_cache _ _) (List.replicate 600 9)

end Disk

end Chronix
