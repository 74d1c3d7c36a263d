import Mathlib
import Chronix.Model.Addr
import Chronix.ToMathlib.SortedMap

/-! # Pages and the page cache

`fs/page/page.rs` and `fs/page/cache.rs`. A page owns a frame of `PAGE_SIZE` bytes and a dirty
flag; its bytes are a function of the offset in the page, zero when the page is new. A page cache
maps page-aligned file offsets to pages in a `BTreeMap`, here a map sorted by offset, and keeps
`end`, the position of EOF, apart from any size its inode keeps. `Page::write_at` through the
`Arc` the cache shares is the page replaced at its offset.

A page reads and writes its file through the `Arc<dyn Inode>` it is given: the model takes that
inode's `read_at` or `write_at` as a function. The asserts of `Page` and `PageCache` return
`none`.
-/

namespace Chronix

open Constant

/-- A page of the page cache. -/
structure Page where
  data : ℕ → UInt8
  is_dirty : Bool

namespace Page

/-- `Page::new`: a frame filled with zeros, clean. -/
def new : Page := ⟨fun _ => 0, false⟩

/-- `Page::get_slice`: the `PAGE_SIZE` bytes of the frame. -/
def get_slice (page : Page) : List UInt8 := (List.range PAGE_SIZE).map page.data

/-- `Page::set_dirty`. -/
def set_dirty (page : Page) : Page := { page with is_dirty := true }

/-- `Page::write_at`: the bytes written, `min(PAGE_SIZE - offset, buf.len())`, and the page. -/
def writeAt (page : Page) (offset : ℕ) (buf : List UInt8) : Option (ℕ × Page) :=
  if offset < PAGE_SIZE then
    let writeSize := min (PAGE_SIZE - offset) buf.length
    some (writeSize, { page with data := fun i =>
      if offset ≤ i ∧ i < offset + writeSize then buf.getD (i - offset) 0 else page.data i })
  else none

/-- `Page::read_at`: the bytes read, `min(PAGE_SIZE - offset, buf.len())`, and the caller's
buffer with them at its front. -/
def readAt (page : Page) (offset : ℕ) (buf : List UInt8) : Option (ℕ × List UInt8) :=
  if offset < PAGE_SIZE then
    let readSize := min (PAGE_SIZE - offset) buf.length
    some (readSize, (List.range readSize).map (fun i => page.data (offset + i)) ++ buf.drop readSize)
  else none

/-- `Page::read_from`: the frame filled from the page-aligned `offset` of the inode by the inode's
`read_at`, which returns the bytes read and the buffer; the bytes read are returned. -/
def readFrom (page : Page) (read_at : ℕ → List UInt8 → ℕ × List UInt8) (offset : ℕ) :
    Option (ℕ × Page) :=
  if offset % PAGE_SIZE = 0 then
    let (readSize, slice) := read_at offset page.get_slice
    some (readSize, { page with data := fun i => if i < PAGE_SIZE then slice.getD i 0 else page.data i })
  else none

end Page

/-- `PageCache`: the pages by file offset, and `end`, the position of EOF. -/
structure PageCache where
  pages : SortedMap ℕ Page
  end_ : ℕ

namespace PageCache

/-- `PageCache::new`. -/
def new : PageCache := ⟨.empty, 0⟩

/-- `PageCache::get_page`, which asserts a page-aligned offset. -/
def getPage (cache : PageCache) (offset : ℕ) : Option (Option Page) :=
  if offset % PAGE_SIZE = 0 then some (cache.pages.get? offset) else none

/-- `PageCache::insert_page`, which asserts a page-aligned offset. -/
def insertPage (cache : PageCache) (offset : ℕ) (page : Page) : Option PageCache :=
  if offset % PAGE_SIZE = 0 then some { cache with pages := cache.pages.insert offset page }
  else none

/-- `PageCache::update_end`. -/
def updateEnd (cache : PageCache) (offset : ℕ) : PageCache := { cache with end_ := max cache.end_ offset }

/-- The page at a page-aligned offset, a fresh zero page inserted where there is none: the
lookup both loops of `TmpInode` make. -/
def pageOrInsert (cache : PageCache) (pageOffset : ℕ) : Option (Page × PageCache) := do
  match ← cache.getPage pageOffset with
  | some page => pure (page, cache)
  | none =>
    let cache ← cache.insertPage pageOffset Page.new
    pure (Page.new, cache)

/-- `PageCache::flush`: every dirty page, in the order of its offset, written whole at its offset
by the inode's `write_at`. The pages stay dirty. -/
def flush {σ : Type*} (cache : PageCache) (write_at : σ → ℕ → List UInt8 → σ) (inode : σ) : σ :=
  cache.pages.entries.foldl
    (fun inode entry => if entry.2.is_dirty = false then inode else write_at inode entry.1 entry.2.get_slice)
    inode

end PageCache

end Chronix
