import Mathlib
import Chronix.Model.Ext4Inode
import Chronix.ToMathlib.Slice

/-! # What the page cache of an ext4 inode shows

A read through the cache sees, at each position, the byte of the cached page that holds it, or
the file's byte where no page does, up to the inode's `size` (`viewByte`, `view`). This is the
abstraction of the cache: `cacheReadAt_spec` says that `cache_read_at` reads `view` as a byte
array and leaves it alone, and `cacheWriteAt_spec` that `cache_write_at` writes into it as into a
byte array. An inode `Shows` a byte array when `view` is that array and every byte past it is
zero. Reads, writes and truncates that do not cut the file keep it so, and so every such run
from a fresh inode reads what the byte array reads (`Shows.run`, `run_new_of_coherent`).

Two operations break it. `truncate` cuts the file on disk and leaves `end`, so the size stays at
`end` and the cached bytes past the new size are still read; `flush` writes every dirty page
whole, so the file on disk grows to the end of its last dirty page
(`truncate_and_flush_diverge`).
-/

namespace Chronix

open Constant

/-- The page that holds `p + j`, for a page-aligned `p` and `j` inside the page. -/
theorem pageOf_add {p j : ℕ} (aligned : p % PAGE_SIZE = 0) (inPage : j < PAGE_SIZE) :
    (p + j) / PAGE_SIZE * PAGE_SIZE = p ∧ (p + j) % PAGE_SIZE = j := by
  unfold PAGE_SIZE at *
  omega

/-- A position inside the page at `p` belongs to that page. -/
theorem pageOf_eq {p i : ℕ} (aligned : p % PAGE_SIZE = 0) (above : p ≤ i) (below : i < p + PAGE_SIZE) :
    i / PAGE_SIZE * PAGE_SIZE = p := by
  have inPage := (pageOf_add aligned (show i - p < PAGE_SIZE by omega)).1
  rwa [Nat.add_sub_cancel' above] at inPage

namespace Page

theorem readAt_of_lt (page : Page) {offset : ℕ} (part : List UInt8) (inPage : offset < PAGE_SIZE) :
    page.readAt offset part = some (min (PAGE_SIZE - offset) part.length,
      (List.range (min (PAGE_SIZE - offset) part.length)).map (fun i => page.data (offset + i)) ++
        part.drop (min (PAGE_SIZE - offset) part.length)) :=
  if_pos inPage

/-- `Page::write_at` inside the page: the bytes written and the page with them in place. -/
theorem writeAt_of_lt (page : Page) {offset : ℕ} (buf : List UInt8) (inPage : offset < PAGE_SIZE) :
    ∃ written, page.writeAt offset buf = some (min (PAGE_SIZE - offset) buf.length, written) ∧
      written.is_dirty = page.is_dirty ∧
      ∀ i, written.data i = if offset ≤ i ∧ i < offset + min (PAGE_SIZE - offset) buf.length then
        buf.getD (i - offset) 0 else page.data i :=
  ⟨_, if_pos inPage, rfl, fun _ => rfl⟩

@[simp] theorem length_get_slice (page : Page) : page.get_slice.length = PAGE_SIZE := by
  simp [get_slice]

/-- A new page read from a byte array holds the array's bytes from `offset` on, and zeros past
its end. -/
theorem readFrom_new (file : List UInt8) {offset : ℕ} (aligned : offset % PAGE_SIZE = 0) :
    ∃ page, Page.new.readFrom (ByteFile.read file) offset =
        some (min PAGE_SIZE (file.length - offset), page) ∧
      ∀ j < PAGE_SIZE, page.data j = file.getD (offset + j) 0 := by
  have zero : ∀ j, Page.new.get_slice.getD j 0 = 0 := by
    intro j
    simp [get_slice, new, List.getD_eq_getElem?_getD]
  have counted : (ByteFile.read file offset Page.new.get_slice).1 =
      min PAGE_SIZE (file.length - offset) := by
    simp [ByteFile.read]
  refine ⟨{ data := fun i => if i < PAGE_SIZE then
      (ByteFile.read file offset Page.new.get_slice).2.getD i 0 else 0, is_dirty := false },
    ?_, fun j inPage => ?_⟩
  · rw [readFrom, if_pos aligned, ← counted]
    rfl
  simp only [inPage, if_true, ByteFile.getD_read, zero]
  split_ifs with read
  · rfl
  · -- past the bytes read the page keeps its zero, and the array has ended there
    rw [List.getD_eq_default]
    simp only [ByteFile.read, length_get_slice] at read
    omega

end Page

namespace PageCache

theorem getPage_of_aligned (cache : PageCache) {offset : ℕ} (aligned : offset % PAGE_SIZE = 0) :
    cache.getPage offset = some (cache.pages.get? offset) :=
  if_pos aligned

theorem insertPage_of_aligned (cache : PageCache) {offset : ℕ} (page : Page)
    (aligned : offset % PAGE_SIZE = 0) :
    cache.insertPage offset page = some { cache with pages := cache.pages.insert offset page } :=
  if_pos aligned

/-- A flush through a `write_at` that writes its buffer whole, padding as a byte array does,
leaves the file at least as long as the end of every dirty page. -/
theorem le_length_flush {σ : Type*} (write_at : σ → ℕ → List UInt8 → σ) (length : σ → ℕ)
    (grows : ∀ inode offset buf,
      length (write_at inode offset buf) = max (length inode) (offset + buf.length))
    (cache : PageCache) (inode : σ) {offset : ℕ} {page : Page}
    (member : (offset, page) ∈ cache.pages.entries) (dirty : page.is_dirty = true) :
    offset + PAGE_SIZE ≤ length (cache.flush write_at inode) := by
  unfold flush
  -- no write of the fold shortens the file
  have longer : ∀ (entries : List (ℕ × Page)) (inode : σ), length inode ≤
      length (entries.foldl (fun inode entry => if entry.2.is_dirty = false then inode
        else write_at inode entry.1 entry.2.get_slice) inode) := by
    intro entries
    induction entries with
    | nil => exact fun _ => le_rfl
    | cons entry rest ih =>
      intro inode
      rw [List.foldl_cons]
      refine le_trans ?_ (ih _)
      split_ifs
      · exact le_rfl
      · rw [grows]
        exact le_max_left _ _
  -- and the write of the dirty page makes it long enough
  generalize cache.pages.entries = entries at member
  induction entries generalizing inode with
  | nil => exact absurd member List.not_mem_nil
  | cons entry rest ih =>
    rw [List.foldl_cons]
    rcases List.mem_cons.mp member with rfl | later
    · refine le_trans ?_ (longer rest _)
      rw [if_neg (by simp [dirty]), grows, Page.length_get_slice]
      exact le_max_right _ _
    · exact ih _ later

end PageCache

namespace Ext4Inode

/-! ## The view of the cache -/

/-- The byte at `i` as the cache shows it: from the cached page that holds it, or from the file
where no page does. -/
def viewByte (inode : Ext4Inode) (i : ℕ) : UInt8 :=
  match inode.cache.pages.get? (i / PAGE_SIZE * PAGE_SIZE) with
  | some page => page.data (i % PAGE_SIZE)
  | none => inode.file.getD i 0

/-- What a read through the cache sees: the bytes below the size. -/
def view (inode : Ext4Inode) : List UInt8 := (List.range inode.size).map inode.viewByte

@[simp] theorem length_view (inode : Ext4Inode) : inode.view.length = inode.size := by
  simp [view]

theorem getD_view (inode : Ext4Inode) (i : ℕ) :
    inode.view.getD i 0 = if i < inode.size then inode.viewByte i else 0 := by
  simp only [view, List.getD_eq_getElem?_getD, List.getElem?_map]
  split_ifs with inside
  · rw [List.getElem?_range inside]
    rfl
  · rw [List.getElem?_eq_none (by simpa using inside)]
    rfl

/-- Two inodes whose caches show the same bytes up to the same size have the same view. -/
theorem view_congr {inode inode' : Ext4Inode} (sameBytes : inode'.viewByte = inode.viewByte)
    (sameSize : inode'.size = inode.size) : inode'.view = inode.view := by
  rw [view, view, sameBytes, sameSize]

/-- Inside a cached page the view is the page's bytes. -/
theorem viewByte_of_cached (inode : Ext4Inode) {p : ℕ} {page : Page} (aligned : p % PAGE_SIZE = 0)
    (cached : inode.cache.pages.get? p = some page) {j : ℕ} (inPage : j < PAGE_SIZE) :
    inode.viewByte (p + j) = page.data j := by
  obtain ⟨base, offset⟩ := pageOf_add aligned inPage
  simp [viewByte, base, offset, cached]

/-- Inside a page that is not cached the view is the file's bytes. -/
theorem viewByte_of_uncached (inode : Ext4Inode) {p : ℕ} (aligned : p % PAGE_SIZE = 0)
    (uncached : inode.cache.pages.get? p = none) {j : ℕ} (inPage : j < PAGE_SIZE) :
    inode.viewByte (p + j) = inode.file.getD (p + j) 0 := by
  simp [viewByte, (pageOf_add aligned inPage).1, uncached]

/-- A page put into the cache at `p` changes the view inside that page only, where it shows the
page's bytes. -/
theorem viewByte_of_insert (inode : Ext4Inode) {inode' : Ext4Inode} (p : ℕ) (page : Page)
    (sameFile : inode'.file = inode.file)
    (pages : ∀ q, inode'.cache.pages.get? q = if q = p then some page else inode.cache.pages.get? q)
    (i : ℕ) :
    inode'.viewByte i =
      if i / PAGE_SIZE * PAGE_SIZE = p then page.data (i % PAGE_SIZE) else inode.viewByte i := by
  simp only [viewByte, pages, sameFile]
  split_ifs <;> rfl

/-- The page `cache_read_at` gets at a page-aligned offset holds the bytes of the view there;
getting it changes no byte of the view, and no size past the offset. -/
theorem pageOrRead_spec (inode : Ext4Inode) {p : ℕ} (aligned : p % PAGE_SIZE = 0) :
    ∃ page inode', inode.pageOrRead p = some (page, inode') ∧ inode'.file = inode.file ∧
      inode'.viewByte = inode.viewByte ∧ (p < inode.size → inode'.size = inode.size) ∧
      ∀ j < PAGE_SIZE, page.data j = inode.viewByte (p + j) := by
  cases cached : inode.cache.pages.get? p with
  | some page =>
    refine ⟨page, inode, ?_, rfl, rfl, fun _ => rfl,
      fun j inPage => (inode.viewByte_of_cached aligned cached inPage).symm⟩
    simp [pageOrRead, PageCache.getPage_of_aligned _ aligned, cached]
  | none =>
    -- a miss: the page read from the file holds the file's bytes, which the view showed there
    have readAt_eq : inode.readAt = ByteFile.read inode.file := rfl
    obtain ⟨page, read, data⟩ := Page.readFrom_new inode.file aligned
    have shown : ∀ j < PAGE_SIZE, page.data j = inode.viewByte (p + j) := fun j inPage => by
      rw [data j inPage, inode.viewByte_of_uncached aligned cached inPage]
    refine ⟨page, { inode with cache := (PageCache.updateEnd
      { inode.cache with pages := inode.cache.pages.insert p page }
      (p + min PAGE_SIZE (inode.file.length - p))) }, ?_, rfl, ?_, ?_, shown⟩
    · simp [pageOrRead, PageCache.getPage_of_aligned _ aligned, cached, readAt_eq, read,
        PageCache.insertPage_of_aligned _ _ aligned]
    · funext i
      refine (viewByte_of_insert inode p page ?_ ?_ i).trans ?_
      · rfl
      · exact fun q => SortedMap.get?_insert _ _ _ q
      split_ifs with same
      · rw [shown _ (Nat.mod_lt i (by decide)), ← same, Nat.div_add_mod']
      · rfl
    · intro inside
      simp only [size, PageCache.updateEnd] at inside ⊢
      omega

/-! ## Reading through the cache -/

/-- The loop of `cache_read_at` returns as it is once the buffer is full or the offset has
reached the size. -/
theorem cacheReadAt.loop_of_done {fileSize fuel : ℕ} {inode : Ext4Inode} {total cur bo : ℕ}
    {buf : List UInt8} (sized : inode.file.length = fileSize)
    (done : buf.length ≤ bo ∨ inode.size ≤ cur) :
    cacheReadAt.loop fileSize fuel inode total cur bo buf = some (total, buf, inode) := by
  have maxEnd : inode.size = max inode.cache.end_ fileSize := by rw [size, sized]
  rw [cacheReadAt.loop]
  dsimp only
  split_ifs with left past
  · rfl
  · omega
  · rfl

/-- One turn of the loop of `cache_read_at`, inside the buffer and before the end: the bytes of
the page that holds `cur`, from `cur` up to the page's end, the end or the buffer's end, go into
the buffer at `bo`. -/
theorem cacheReadAt.loop_succ {fileSize : ℕ} (fuel : ℕ) {inode inode1 : Ext4Inode} {page : Page}
    (total : ℕ) {cur bo : ℕ} {buf : List UInt8} (left : bo < buf.length)
    (before : cur < max inode.cache.end_ fileSize)
    (got : inode.pageOrRead (cur / PAGE_SIZE * PAGE_SIZE) = some (page, inode1)) :
    ∃ m buf1, cacheReadAt.loop fileSize (fuel + 1) inode total cur bo buf =
        cacheReadAt.loop fileSize fuel inode1 (total + m) (cur + m) (bo + m) buf1 ∧
      m = min (PAGE_SIZE - cur % PAGE_SIZE) (min (max inode.cache.end_ fileSize - cur)
        (buf.length - bo)) ∧
      buf1.length = buf.length ∧
      ∀ j, buf1.getD j 0 = if bo ≤ j ∧ j < bo + m then page.data (cur % PAGE_SIZE + (j - bo))
        else buf.getD j 0 := by
  have inPage : cur % PAGE_SIZE < PAGE_SIZE := Nat.mod_lt _ (by decide)
  obtain ⟨part, sliced⟩ : ∃ part, buf.slice? bo
      (bo + min (max inode.cache.end_ fileSize - cur) (buf.length - bo)) = some part :=
    ⟨_, List.slice?_of_le (by omega) (by omega)⟩
  have partLength := List.length_of_slice? sliced
  obtain ⟨buf1, copied⟩ : ∃ buf1, buf.copyFromSlice? bo
      (bo + min (max inode.cache.end_ fileSize - cur) (buf.length - bo))
      ((List.range (min (PAGE_SIZE - cur % PAGE_SIZE) part.length)).map
          (fun i => page.data (cur % PAGE_SIZE + i)) ++
        part.drop (min (PAGE_SIZE - cur % PAGE_SIZE) part.length)) = some buf1 :=
    ⟨_, List.copyFromSlice?_of_le (by omega) (by omega) (by simp; omega)⟩
  obtain ⟨sameLength, copiedBytes⟩ := List.getD_of_copyFromSlice? copied 0
  refine ⟨min (PAGE_SIZE - cur % PAGE_SIZE) part.length, buf1, ?_, by rw [partLength]; omega,
    sameLength, fun j => ?_⟩
  · rw [cacheReadAt.loop, if_pos left]
    dsimp only
    rw [if_neg (by omega)]
    simp only [got, sliced, Page.readAt_of_lt page part inPage, copied, Option.bind_eq_bind,
      Option.bind_some]
  · have front := List.getD_append_drop ((List.range (min (PAGE_SIZE - cur % PAGE_SIZE)
      part.length)).map (fun i => page.data (cur % PAGE_SIZE + i))) part 0 (j - bo)
    simp only [List.length_map, List.length_range] at front
    rw [copiedBytes, front, List.getD_of_slice? sliced]
    by_cases fromPage : bo ≤ j ∧ j < bo + min (PAGE_SIZE - cur % PAGE_SIZE) part.length
    · -- a byte of the page
      rw [if_pos (by omega), if_pos (by omega), if_pos fromPage, List.getD_eq_getElem?_getD,
        List.getElem?_map, List.getElem?_range (by omega)]
      rfl
    · -- the rest of the slice is the buffer's, and so is everything outside it
      rw [if_neg fromPage]
      split_ifs <;> first | omega | rfl | (congr 1; omega)

/-- What the loop of `cache_read_at` does where nothing is left to read. -/
theorem cacheReadAt.loop_spec_of_done {fileSize fuel : ℕ} {inode : Ext4Inode} {total cur bo : ℕ}
    {buf : List UInt8} (sized : inode.file.length = fileSize)
    (done : buf.length ≤ bo ∨ inode.size ≤ cur) :
    ∃ buf' inode', cacheReadAt.loop fileSize fuel inode total cur bo buf =
        some (total + min (buf.length - bo) (inode.size - cur), buf', inode') ∧
      buf'.length = buf.length ∧
      (∀ j, buf'.getD j 0 = if bo ≤ j ∧ j < bo + min (buf.length - bo) (inode.size - cur) then
        inode.viewByte (cur + (j - bo)) else buf.getD j 0) ∧
      inode'.file = inode.file ∧ inode'.viewByte = inode.viewByte ∧ inode'.size = inode.size := by
  have nothing : min (buf.length - bo) (inode.size - cur) = 0 := by omega
  refine ⟨buf, inode, ?_, rfl, fun j => ?_, rfl, rfl, rfl⟩
  · rw [cacheReadAt.loop_of_done sized done, nothing, Nat.add_zero]
  · rw [nothing, if_neg (by omega)]

/-- Given fuel for every byte left in the buffer, the loop of `cache_read_at` copies the view from
`cur` into the buffer from `bo` on, up to the buffer's end or the size, and leaves the view and
the size as they were. -/
theorem cacheReadAt.loop_spec {fileSize : ℕ} (fuel : ℕ) (inode : Ext4Inode) (total cur bo : ℕ)
    (buf : List UInt8) (sized : inode.file.length = fileSize) (enough : buf.length - bo ≤ fuel) :
    ∃ buf' inode', cacheReadAt.loop fileSize fuel inode total cur bo buf =
        some (total + min (buf.length - bo) (inode.size - cur), buf', inode') ∧
      buf'.length = buf.length ∧
      (∀ j, buf'.getD j 0 = if bo ≤ j ∧ j < bo + min (buf.length - bo) (inode.size - cur) then
        inode.viewByte (cur + (j - bo)) else buf.getD j 0) ∧
      inode'.file = inode.file ∧ inode'.viewByte = inode.viewByte ∧ inode'.size = inode.size := by
  -- induction on the fuel: a turn copies at least one byte, and the rest of the loop the others
  induction fuel generalizing inode total cur bo buf with
  | zero => exact cacheReadAt.loop_spec_of_done sized (.inl (by omega))
  | succ fuel ih =>
    by_cases done : buf.length ≤ bo ∨ inode.size ≤ cur
    · exact cacheReadAt.loop_spec_of_done sized done
    obtain ⟨left, before⟩ : bo < buf.length ∧ cur < inode.size := by omega
    have maxEnd : inode.size = max inode.cache.end_ fileSize := by rw [size, sized]
    have aligned : cur / PAGE_SIZE * PAGE_SIZE % PAGE_SIZE = 0 := Nat.mul_mod_left _ _
    have split := Nat.div_add_mod' cur PAGE_SIZE
    have inPage : cur % PAGE_SIZE < PAGE_SIZE := Nat.mod_lt _ (by decide)
    obtain ⟨page, inode1, got, file1, bytes1, size1, data⟩ := inode.pageOrRead_spec aligned
    have sameSize := size1 (by omega)
    obtain ⟨m, buf1, turn, counted, length1, bytes⟩ :=
      cacheReadAt.loop_succ fuel total left (show cur < max inode.cache.end_ fileSize by omega) got
    -- the turn copies at least one byte, inside the page, the buffer and the view
    have bounds : 0 < m ∧ m ≤ buf.length - bo ∧ m ≤ inode.size - cur ∧
        cur % PAGE_SIZE + m ≤ PAGE_SIZE := by
      rw [counted, ← maxEnd]
      omega
    clear counted maxEnd done
    obtain ⟨buf', inode', ran, length', bytes', file', sameBytes', size'⟩ :=
      ih inode1 (total + m) (cur + m) (bo + m) buf1 (by rw [file1]; exact sized) (by omega)
    refine ⟨buf', inode', ?_, by rw [length', length1], fun j => ?_, by rw [file', file1],
      by rw [sameBytes', bytes1], by rw [size', sameSize]⟩
    · rw [turn, ran, sameSize, Option.some.injEq, Prod.mk.injEq]
      exact ⟨by omega, rfl⟩
    · rw [bytes', bytes j, bytes1, sameSize, length1]
      by_cases fromPage : bo ≤ j ∧ j < bo + m
      · -- copied in this turn, from the page that holds `cur`
        rw [if_neg (by omega), if_pos fromPage, if_pos (by omega), data _ (by omega)]
        congr 1
        omega
      · -- copied by a later turn, or left as it was
        rw [if_neg fromPage]
        by_cases later : bo + m ≤ j ∧ j < bo + m + min (buf.length - (bo + m)) (inode.size - (cur + m))
        · rw [if_pos later, if_pos (by omega), show cur + m + (j - (bo + m)) = cur + (j - bo) by omega]
        · rw [if_neg later, if_neg (by omega)]

/-- `cache_read_at` reads the view as a byte array and leaves the view and the size as they
were. -/
theorem cacheReadAt_spec (inode : Ext4Inode) (offset : ℕ) (buf : List UInt8) :
    ∃ inode', inode.cacheReadAt offset buf = some ((ByteFile.read inode.view offset buf).1,
        (ByteFile.read inode.view offset buf).2, inode') ∧
      inode'.file = inode.file ∧ inode'.viewByte = inode.viewByte ∧ inode'.size = inode.size := by
  obtain ⟨buf', inode', ran, sameLength, bytes, file', sameBytes', size'⟩ :=
    cacheReadAt.loop_spec buf.length inode 0 offset 0 buf rfl (by omega)
  have read : buf' = (ByteFile.read inode.view offset buf).2 := by
    refine List.ext_getD 0 (by rw [sameLength, ByteFile.length_read]) fun j => ?_
    rw [bytes, ByteFile.getD_read, getD_view]
    simp only [ByteFile.read, length_view, zero_le, true_and, Nat.zero_add, Nat.sub_zero]
    by_cases within : j < min buf.length (inode.size - offset)
    · rw [if_pos within, if_pos within, if_pos (by omega)]
    · rw [if_neg within, if_neg within]
  refine ⟨inode', ?_, file', sameBytes', size'⟩
  rw [cacheReadAt, ran, read, Nat.zero_add, Nat.sub_zero]
  simp [ByteFile.read]

/-- `read_page_at` at a page-aligned offset below the size returns the page of the view there and
changes no byte of the view. -/
theorem readPageAt_spec (inode : Ext4Inode) {offset : ℕ} (aligned : offset % PAGE_SIZE = 0)
    (inside : offset < inode.size) :
    ∃ page inode', inode.readPageAt offset = some (some page, inode') ∧
      inode'.viewByte = inode.viewByte ∧ inode'.size = inode.size ∧
      ∀ j < PAGE_SIZE, page.data j = inode.viewByte (offset + j) := by
  obtain ⟨page, inode', got, -, sameBytes, sameSize, data⟩ := inode.pageOrRead_spec aligned
  refine ⟨page, inode', ?_, sameBytes, sameSize inside, data⟩
  rw [readPageAt, if_neg (by omega), got]
  rfl

/-! ## Writing through the cache -/

/-- The page `cache_write_at` gets at a page-aligned offset holds the bytes of the view there,
whether it was cached, read from the file, or new past the file's end; the cache keeps its end
and every other page. -/
theorem pageForWrite_spec (inode : Ext4Inode) {p : ℕ} (aligned : p % PAGE_SIZE = 0) :
    ∃ page cache, inode.pageForWrite inode.file.length p = some (page, cache) ∧
      cache.end_ = inode.cache.end_ ∧ (∀ q ≠ p, cache.pages.get? q = inode.cache.pages.get? q) ∧
      ∀ j < PAGE_SIZE, page.data j = inode.viewByte (p + j) := by
  cases cached : inode.cache.pages.get? p with
  | some page =>
    refine ⟨page, inode.cache, ?_, rfl, fun _ _ => rfl,
      fun j inPage => (inode.viewByte_of_cached aligned cached inPage).symm⟩
    simp [pageForWrite, PageCache.getPage_of_aligned _ aligned, cached]
  | none =>
    -- a miss: the page is read from the file below its end and left zero past it, which is
    -- what the view shows where no page is
    have readAt_eq : inode.readAt = ByteFile.read inode.file := rfl
    have uncached := fun j (inPage : j < PAGE_SIZE) => inode.viewByte_of_uncached aligned cached inPage
    by_cases inFile : p < inode.file.length
    · obtain ⟨page, read, data⟩ := Page.readFrom_new inode.file aligned
      refine ⟨page, { inode.cache with pages := inode.cache.pages.insert p page }, ?_, rfl,
        fun q other => by simp [SortedMap.get?_insert, other], fun j inPage => ?_⟩
      · simp [pageForWrite, PageCache.getPage_of_aligned _ aligned, cached, inFile, readAt_eq,
          read, PageCache.insertPage_of_aligned _ _ aligned]
      · rw [data j inPage, uncached j inPage]
    · refine ⟨Page.new, { inode.cache with pages := inode.cache.pages.insert p Page.new }, ?_, rfl,
        fun q other => by simp [SortedMap.get?_insert, other], fun j inPage => ?_⟩
      · simp [pageForWrite, PageCache.getPage_of_aligned _ aligned, cached, inFile,
          PageCache.insertPage_of_aligned _ _ aligned]
      · rw [uncached j inPage, List.getD_eq_default _ _ (by omega)]
        rfl

/-- One turn of the loop of `cache_write_at` inside the buffer: the bytes of the buffer from `bo`,
up to the end of the page that holds `cur`, go into that page, which goes back dirty, and the end
moves past them. -/
theorem cacheWriteAt.loop_succ {fileSize : ℕ} (fuel : ℕ) {inode : Ext4Inode} {page : Page}
    {cache : PageCache} (total : ℕ) {cur bo : ℕ} {buf : List UInt8} (left : bo < buf.length)
    (got : inode.pageForWrite fileSize (cur / PAGE_SIZE * PAGE_SIZE) = some (page, cache)) :
    ∃ w written inode1, cacheWriteAt.loop fileSize (fuel + 1) inode total cur bo buf =
        cacheWriteAt.loop fileSize fuel inode1 (total + w) (cur + w) (bo + w) buf ∧
      inode1.file = inode.file ∧
      inode1.cache.pages = cache.pages.insert (cur / PAGE_SIZE * PAGE_SIZE) written ∧
      inode1.cache.end_ = max cache.end_ (cur + w) ∧
      w = min (PAGE_SIZE - cur % PAGE_SIZE) (buf.length - bo) ∧
      ∀ j, written.data j = if cur % PAGE_SIZE ≤ j ∧ j < cur % PAGE_SIZE + w then
        buf.getD (bo + (j - cur % PAGE_SIZE)) 0 else page.data j := by
  have inPage : cur % PAGE_SIZE < PAGE_SIZE := Nat.mod_lt _ (by decide)
  have split := Nat.div_add_mod' cur PAGE_SIZE
  have sliced := List.slice?_of_le (le_of_lt left) (le_refl buf.length)
  obtain ⟨written, wrote, -, data⟩ := page.writeAt_of_lt ((buf.drop bo).take (buf.length - bo)) inPage
  have rest : ((buf.drop bo).take (buf.length - bo)).length = buf.length - bo := by simp
  rw [rest] at wrote data
  refine ⟨_, written.set_dirty, { inode with cache := (PageCache.updateEnd
    { cache with pages := cache.pages.insert (cur / PAGE_SIZE * PAGE_SIZE) written.set_dirty }
    (cur / PAGE_SIZE * PAGE_SIZE + min (PAGE_SIZE - cur % PAGE_SIZE) (buf.length - bo) +
      cur % PAGE_SIZE)) }, ?_, rfl, rfl, ?_, rfl, fun j => ?_⟩
  · rw [cacheWriteAt.loop, if_pos left]
    simp only [got, sliced, wrote, Option.bind_eq_bind, Option.bind_some]
  · simp only [PageCache.updateEnd]
    omega
  · rw [Page.set_dirty, data j]
    simp only [List.getD_eq_getElem?_getD, List.getElem?_take, List.getElem?_drop]
    split_ifs <;> first | rfl | omega

/-- What the loop of `cache_write_at` does once the whole buffer is written. -/
theorem cacheWriteAt.loop_spec_of_full {fileSize fuel : ℕ} {inode : Ext4Inode} {total cur bo : ℕ}
    {buf : List UInt8} (full : buf.length ≤ bo) :
    ∃ inode', cacheWriteAt.loop fileSize fuel inode total cur bo buf =
        some (total + (buf.length - bo), inode') ∧ inode'.file = inode.file ∧
      (∀ i, inode'.viewByte i = if cur ≤ i ∧ i < cur + (buf.length - bo) then
        buf.getD (bo + (i - cur)) 0 else inode.viewByte i) ∧
      inode'.cache.end_ = if bo < buf.length then max inode.cache.end_ (cur + (buf.length - bo))
        else inode.cache.end_ := by
  refine ⟨inode, ?_, rfl, fun i => ?_, ?_⟩
  · rw [cacheWriteAt.loop.eq_def]
    dsimp only
    rw [if_neg (by omega), show buf.length - bo = 0 by omega, Nat.add_zero]
  · rw [if_neg (by omega)]
  · rw [if_neg (by omega)]

/-- Given fuel for every byte left in the buffer, the loop of `cache_write_at` writes the rest of
the buffer into the view from `cur` on, and moves the end past it. -/
theorem cacheWriteAt.loop_spec {fileSize : ℕ} (fuel : ℕ) (inode : Ext4Inode) (total cur bo : ℕ)
    (buf : List UInt8) (sized : inode.file.length = fileSize) (enough : buf.length - bo ≤ fuel) :
    ∃ inode', cacheWriteAt.loop fileSize fuel inode total cur bo buf =
        some (total + (buf.length - bo), inode') ∧ inode'.file = inode.file ∧
      (∀ i, inode'.viewByte i = if cur ≤ i ∧ i < cur + (buf.length - bo) then
        buf.getD (bo + (i - cur)) 0 else inode.viewByte i) ∧
      inode'.cache.end_ = if bo < buf.length then max inode.cache.end_ (cur + (buf.length - bo))
        else inode.cache.end_ := by
  -- induction on the fuel: a turn writes at least one byte, and the rest of the loop the others
  induction fuel generalizing inode total cur bo buf with
  | zero => exact cacheWriteAt.loop_spec_of_full (by omega)
  | succ fuel ih =>
    by_cases full : buf.length ≤ bo
    · exact cacheWriteAt.loop_spec_of_full full
    have left : bo < buf.length := by omega
    have aligned : cur / PAGE_SIZE * PAGE_SIZE % PAGE_SIZE = 0 := Nat.mul_mod_left _ _
    have split := Nat.div_add_mod' cur PAGE_SIZE
    have inPage : cur % PAGE_SIZE < PAGE_SIZE := Nat.mod_lt _ (by decide)
    obtain ⟨page, cache, got, sameEnd, others, data⟩ := inode.pageForWrite_spec aligned
    rw [sized] at got
    obtain ⟨w, written, inode1, turn, file1, pages1, end1, counted, wroteBytes⟩ :=
      cacheWriteAt.loop_succ fuel total left got
    -- the turn changes the view at the bytes it writes, all in the page that holds `cur`
    have bytes1 : ∀ i, inode1.viewByte i = if cur ≤ i ∧ i < cur + w then
        buf.getD (bo + (i - cur)) 0 else inode.viewByte i := by
      intro i
      have pages : ∀ q, inode1.cache.pages.get? q =
          if q = cur / PAGE_SIZE * PAGE_SIZE then some written else inode.cache.pages.get? q := by
        intro q
        rw [pages1, SortedMap.get?_insert]
        split_ifs with same
        · rfl
        · exact others q same
      rw [viewByte_of_insert inode _ written file1 pages]
      by_cases samePage : i / PAGE_SIZE * PAGE_SIZE = cur / PAGE_SIZE * PAGE_SIZE
      · have iSplit := Nat.div_add_mod' i PAGE_SIZE
        have iInPage : i % PAGE_SIZE < PAGE_SIZE := Nat.mod_lt _ (by decide)
        have old := data (i % PAGE_SIZE) iInPage
        rw [← samePage, iSplit] at old
        rw [if_pos samePage, wroteBytes, old]
        by_cases inside : cur ≤ i ∧ i < cur + w
        · rw [if_pos (by omega), if_pos inside, show i % PAGE_SIZE - cur % PAGE_SIZE = i - cur by omega]
        · rw [if_neg (by omega), if_neg inside]
      · have outside : ¬ (cur ≤ i ∧ i < cur + w) := fun ⟨above, below⟩ =>
          samePage (pageOf_eq aligned (by omega) (by omega))
        rw [if_neg samePage, if_neg outside]
    obtain ⟨inode', ran, file', bytes', end'⟩ :=
      ih inode1 (total + w) (cur + w) (bo + w) buf (by rw [file1]; exact sized) (by omega)
    refine ⟨inode', ?_, by rw [file', file1], fun i => ?_, ?_⟩
    · rw [turn, ran, show total + w + (buf.length - (bo + w)) = total + (buf.length - bo) by omega]
    · rw [bytes', bytes1]
      by_cases thisTurn : cur ≤ i ∧ i < cur + w
      · rw [if_neg (by omega), if_pos thisTurn, if_pos (by omega)]
      · rw [if_neg thisTurn]
        by_cases later : cur + w ≤ i ∧ i < cur + w + (buf.length - (bo + w))
        · rw [if_pos later, if_pos (by omega), show bo + w + (i - (cur + w)) = bo + (i - cur) by omega]
        · rw [if_neg later, if_neg (by omega)]
    · rw [end', end1, sameEnd, if_pos left]
      split_ifs <;> omega

/-- `cache_write_at` writes the whole buffer into the view at `offset` and moves the end past
it. -/
theorem cacheWriteAt_spec (inode : Ext4Inode) (offset : ℕ) (buf : List UInt8) :
    ∃ inode', inode.cacheWriteAt offset buf = some (buf.length, inode') ∧
      inode'.file = inode.file ∧
      (∀ i, inode'.viewByte i = if offset ≤ i ∧ i < offset + buf.length then
        buf.getD (i - offset) 0 else inode.viewByte i) ∧
      inode'.cache.end_ = if 0 < buf.length then max inode.cache.end_ (offset + buf.length)
        else inode.cache.end_ := by
  obtain ⟨inode', ran, file', bytes', end'⟩ :=
    cacheWriteAt.loop_spec buf.length inode 0 offset 0 buf rfl (by omega)
  simp only [Nat.zero_add, Nat.sub_zero] at ran bytes' end'
  exact ⟨inode', ran, file', bytes', end'⟩

/-! ## Coherence with a byte array -/

/-- The cache of `inode` shows the byte array `ref`: the size is `ref`'s length, and every byte is
`ref`'s, zero past its end. -/
structure Shows (inode : Ext4Inode) (ref : List UInt8) : Prop where
  size_eq : inode.size = ref.length
  viewByte_eq : ∀ i, inode.viewByte i = ref.getD i 0

variable {inode : Ext4Inode} {ref : List UInt8}

theorem Shows.view_eq (shows : inode.Shows ref) : inode.view = ref := by
  refine List.ext_getD 0 (by rw [length_view, shows.size_eq]) fun i => ?_
  rw [getD_view, shows.viewByte_eq, shows.size_eq]
  split_ifs with inside
  · rfl
  · rw [List.getD_eq_default _ _ (by omega)]

/-- A new inode shows its file. -/
theorem shows_new (file : List UInt8) : (Ext4Inode.new file).Shows file where
  size_eq := by simp [size, new, PageCache.new]
  viewByte_eq i := by simp [viewByte, new, PageCache.new]

/-- An inode that shows `ref` reads as the byte array `ref` reads, and still shows it. -/
theorem Shows.cacheReadAt (shows : inode.Shows ref) (offset : ℕ) (buf : List UInt8) :
    ∃ inode', inode.cacheReadAt offset buf =
        some ((ByteFile.read ref offset buf).1, (ByteFile.read ref offset buf).2, inode') ∧
      inode'.Shows ref := by
  obtain ⟨inode', read, -, sameBytes, sameSize⟩ := cacheReadAt_spec inode offset buf
  rw [shows.view_eq] at read
  exact ⟨inode', read, ⟨by rw [sameSize, shows.size_eq], fun i => by rw [sameBytes, shows.viewByte_eq]⟩⟩

/-- Writing at least one byte into an inode that shows `ref` leaves it showing `ref` written. -/
theorem Shows.cacheWriteAt (shows : inode.Shows ref) (offset : ℕ) {buf : List UInt8}
    (nonempty : buf ≠ []) :
    ∃ inode', inode.cacheWriteAt offset buf = some (buf.length, inode') ∧
      inode'.Shows (ByteFile.write ref offset buf) := by
  obtain ⟨inode', wrote, sameFile, bytes, moved⟩ := cacheWriteAt_spec inode offset buf
  have written : 0 < buf.length := List.length_pos_iff.mpr nonempty
  refine ⟨inode', wrote, ⟨?_, fun i => ?_⟩⟩
  · have before := shows.size_eq
    simp only [size, sameFile, moved, if_pos written, ByteFile.length_write] at before ⊢
    omega
  · rw [bytes, ByteFile.getD_write, shows.viewByte_eq]

@[simp] theorem size_truncate (inode : Ext4Inode) (n : ℕ) :
    (inode.truncate n).size = max inode.cache.end_ n := by
  simp [size, truncate]

/-- A truncate changes the view only where no page is cached: there it is zero from the new size
on. -/
theorem viewByte_truncate (inode : Ext4Inode) (n i : ℕ) :
    (inode.truncate n).viewByte i =
      if inode.cache.pages.get? (i / PAGE_SIZE * PAGE_SIZE) = none ∧ n ≤ i then 0
      else inode.viewByte i := by
  simp only [viewByte, truncate]
  cases inode.cache.pages.get? (i / PAGE_SIZE * PAGE_SIZE) with
  | some page => simp
  | none =>
    rw [ByteFile.getD_truncate]
    by_cases past : n ≤ i
    · simp [past]
    · simp [past, Nat.lt_of_not_le past]

/-- A truncate that does not cut the file keeps an inode showing the byte array truncated. -/
theorem Shows.truncate (shows : inode.Shows ref) {n : ℕ} (grows : ref.length ≤ n) :
    (inode.truncate n).Shows (ByteFile.truncate ref n) where
  size_eq := by
    have before := shows.size_eq
    simp only [size] at before
    rw [size_truncate, ByteFile.length_truncate]
    omega
  viewByte_eq i := by
    rw [viewByte_truncate, ByteFile.getD_truncate, ← shows.viewByte_eq]
    by_cases below : i < n
    · rw [if_neg (by omega), if_pos below]
    · rw [if_neg below]
      split_ifs
      · rfl
      · -- a cached byte past the old end, which the cache showed as zero
        rw [shows.viewByte_eq, List.getD_eq_default _ _ (by omega)]

/-- The requests the cache answers as the byte array does, from the array `file`: no flush, no
empty write, and no truncate that cuts the file. -/
def Coherent : List UInt8 → List FileOp → Prop
  | _, [] => True
  | file, .read _ _ :: ops => Coherent file ops
  | file, .write offset buf :: ops => buf ≠ [] ∧ Coherent (ByteFile.write file offset buf) ops
  | file, .truncate size :: ops => file.length ≤ size ∧ Coherent (ByteFile.truncate file size) ops
  | _, .flush :: _ => False

/-- The run lemma: an inode that shows `ref` answers every coherent run as the byte array does,
and ends showing the array the run leaves. -/
theorem Shows.run (shows : inode.Shows ref) (ops : List FileOp) (coherent : Coherent ref ops) :
    ∃ inode', inode.run ops = some ((ByteFile.run ref ops).1, inode') ∧
      inode'.Shows (ByteFile.run ref ops).2 := by
  induction ops generalizing inode ref with
  | nil => exact ⟨inode, rfl, shows⟩
  | cons op ops ih =>
    cases op with
    | read offset buf =>
      obtain ⟨inode1, read, shows1⟩ := shows.cacheReadAt offset buf
      obtain ⟨inode', ran, shows'⟩ := ih shows1 coherent
      exact ⟨inode', by simp [run, read, ran, ByteFile.run], shows'⟩
    | write offset buf =>
      obtain ⟨nonempty, coherent⟩ := coherent
      obtain ⟨inode1, wrote, shows1⟩ := shows.cacheWriteAt offset nonempty
      obtain ⟨inode', ran, shows'⟩ := ih shows1 coherent
      exact ⟨inode', by simp [run, wrote, ran, ByteFile.run], shows'⟩
    | truncate size =>
      obtain ⟨grows, coherent⟩ := coherent
      exact ih (shows.truncate grows) coherent
    | flush => exact coherent.elim

/-- From a fresh inode on any file, every coherent run reads what the byte array reads. -/
theorem run_new_of_coherent (file : List UInt8) (ops : List FileOp) (coherent : Coherent file ops) :
    ∃ inode', (Ext4Inode.new file).run ops = some ((ByteFile.run file ops).1, inode') := by
  obtain ⟨inode', ran, -⟩ := (shows_new file).run ops coherent
  exact ⟨inode', ran⟩

/-! ## Where the cache and the byte array part -/

/-- A flush leaves the file on disk at least as long as the end of every dirty page. -/
theorem le_flush_length (inode : Ext4Inode) {offset : ℕ} {page : Page}
    (cached : inode.cache.pages.get? offset = some page) (dirty : page.is_dirty = true) :
    offset + PAGE_SIZE ≤ inode.flush.file.length :=
  PageCache.le_length_flush (fun inode offset buf => (inode.writeAt offset buf).2)
    (fun inode => inode.file.length) (fun _ _ _ => ByteFile.length_write _ _ _) inode.cache inode
    ((inode.cache.pages.get?_eq_some_iff offset page).mp cached) dirty

/-- Truncating below the end leaves the size at the end, so a read past the new size still
returns bytes, where the byte array truncated returns none; and a flush writes every dirty page
whole, so the file on disk reaches at least to the end of each. -/
theorem truncate_and_flush_diverge (inode : Ext4Inode) :
    (∀ size offset buf, size ≤ offset → offset < inode.cache.end_ →
      ∃ buf' inode', (inode.truncate size).cacheReadAt offset buf =
          some (min buf.length (inode.cache.end_ - offset), buf', inode') ∧
        ∀ ref, (ByteFile.read (ByteFile.truncate ref size) offset buf).1 = 0) ∧
    ∀ offset page, inode.cache.pages.get? offset = some page → page.is_dirty = true →
      offset + PAGE_SIZE ≤ inode.flush.file.length := by
  refine ⟨fun size offset buf below cached => ?_,
    fun offset page stored dirty => le_flush_length inode stored dirty⟩
  obtain ⟨inode', read, -⟩ := cacheReadAt_spec (inode.truncate size) offset buf
  have sizeAtEnd : (inode.truncate size).view.length = inode.cache.end_ := by
    rw [length_view, size_truncate]
    omega
  refine ⟨(ByteFile.read (inode.truncate size).view offset buf).2, inode', ?_, fun ref => ?_⟩
  · rw [read]
    simp only [ByteFile.read, sizeAtEnd]
  · simp only [ByteFile.read, ByteFile.length_truncate]
    omega

/-- One byte written to an empty file: truncated to nothing, the cache still reads the byte, where
the byte array reads nothing; flushed, the file on disk is a whole page long, where the byte
array is one byte long. -/
theorem truncate_and_flush_diverge_oneByte :
    ∃ inode, (Ext4Inode.new []).cacheWriteAt 0 [1] = some (1, inode) ∧
      ((inode.truncate 0).cacheReadAt 0 [9]).map (fun read => read.1) = some 1 ∧
      (ByteFile.read (ByteFile.truncate (ByteFile.write [] 0 [1]) 0) 0 [9]).1 = 0 ∧
      PAGE_SIZE ≤ inode.flush.file.length ∧ (ByteFile.write [] 0 [1]).length = 1 := by
  have written : ((Ext4Inode.new []).cacheWriteAt 0 [1]).map (fun wrote =>
      (wrote.1, wrote.2.cache.end_, (wrote.2.cache.pages.get? 0).map Page.is_dirty)) =
      some (1, 1, some true) := by
    decide +kernel
  obtain ⟨⟨n, inode⟩, wrote, facts⟩ := Option.map_eq_some_iff.mp written
  simp only [Prod.mk.injEq] at facts
  obtain ⟨rfl, ended, dirty⟩ := facts
  obtain ⟨page, cached, isDirty⟩ := Option.map_eq_some_iff.mp dirty
  obtain ⟨truncated, flushed⟩ := truncate_and_flush_diverge inode
  obtain ⟨buf', inode', read, reference⟩ := truncated 0 0 [9] le_rfl (by omega)
  refine ⟨inode, wrote, by rw [read, ended]; rfl, reference _, flushed 0 page cached isDirty,
    by decide⟩

end Ext4Inode

end Chronix
