import Mathlib
import Chronix.Model.PageCache
import Chronix.ToMathlib.Slice

/-! # The tmpfs inode and its page cache

`fs/tmpfs/inode.rs` keeps a file's bytes only in its page cache (`PageCache`), whose `end` the
cache tracks apart from the inode's `size`. A write marks the pages it writes dirty; nothing
flushes them, as there is no file under them.

The read and write loops advance by at least one byte per turn while bytes remain, so the
number of bytes of the caller's buffer bounds their turns; they take it as fuel. The asserts of
`Page` and `PageCache` and the slice range checks return `none`.
-/

namespace Chronix

open Constant

/-- `TmpInode`: the inode's `size` and its page cache. -/
structure TmpInode where
  size : ℕ
  cache : PageCache

namespace TmpInode

/-- `TmpInode::new`: size zero and an empty cache. -/
def new : TmpInode := ⟨0, PageCache.new⟩

/-- The loop of `cache_read_at`: bytes read so far, the file offset, the offset in `buf`. -/
def cacheReadAt.loop : ℕ → PageCache → ℕ → ℕ → ℕ → List UInt8 →
    Option (ℕ × List UInt8 × PageCache)
  | fuel, cache, totalReadSize, currentOffset, bufOffset, buf =>
    if bufOffset < buf.length then
      if currentOffset ≥ cache.end_ then some (totalReadSize, buf, cache)
      else match fuel with
        | 0 => none
        | fuel + 1 => do
          let pageOffset := currentOffset / PAGE_SIZE * PAGE_SIZE
          let inPageOffset := currentOffset % PAGE_SIZE
          let (page, cache) ← cache.pageOrInsert pageOffset
          let bufReadSize := min (cache.end_ - currentOffset) (buf.length - bufOffset)
          let part ← buf.slice? bufOffset (bufOffset + bufReadSize)
          let (pageReadSize, part) ← page.readAt inPageOffset part
          let buf ← buf.copyFromSlice? bufOffset (bufOffset + bufReadSize) part
          loop fuel cache (totalReadSize + pageReadSize) (currentOffset + pageReadSize)
            (bufOffset + pageReadSize) buf
    else some (totalReadSize, buf, cache)

/-- `TmpInode::cache_read_at`: the bytes read, the caller's buffer, and the inode after (holes
read get a zero page in the cache). -/
def cacheReadAt (inode : TmpInode) (offset : ℕ) (buf : List UInt8) :
    Option (ℕ × List UInt8 × TmpInode) := do
  let (totalReadSize, buf, cache) ← cacheReadAt.loop buf.length inode.cache 0 offset 0 buf
  pure (totalReadSize, buf, { inode with cache })

/-- The loop of `cache_write_at`: bytes written so far, the file offset, the offset in `buf`. -/
def cacheWriteAt.loop : ℕ → TmpInode → ℕ → ℕ → ℕ → List UInt8 → Option (ℕ × TmpInode)
  | fuel, inode, totalWriteSize, currentOffset, bufOffset, buf =>
    if bufOffset < buf.length then
      match fuel with
      | 0 => none
      | fuel + 1 => do
        let pageOffset := currentOffset / PAGE_SIZE * PAGE_SIZE
        let inPageOffset := currentOffset % PAGE_SIZE
        let (page, cache) ← inode.cache.pageOrInsert pageOffset
        let rest ← buf.slice? bufOffset buf.length
        let (pageWriteSize, page) ← page.writeAt inPageOffset rest
        let cache := { cache with pages := cache.pages.insert pageOffset page.set_dirty }
        let cache := cache.updateEnd (pageOffset + pageWriteSize + inPageOffset)
        loop fuel { inode with cache, size := cache.end_ } (totalWriteSize + pageWriteSize)
          (currentOffset + pageWriteSize) (bufOffset + pageWriteSize) buf
    else some (totalWriteSize, inode)

/-- `TmpInode::cache_write_at`: the bytes written and the inode after. -/
def cacheWriteAt (inode : TmpInode) (offset : ℕ) (buf : List UInt8) : Option (ℕ × TmpInode) :=
  cacheWriteAt.loop buf.length inode 0 offset 0 buf

/-- `TmpInode::truncate`: growing inserts a fresh zero page at every page from the one holding
the old size up to the new size; shrinking only sets the size. -/
def truncate (inode : TmpInode) (size : ℕ) : Option (ℕ × TmpInode) :=
  let oldSize := inode.size
  if size > oldSize then do
    let offsetAlignedStart := oldSize / PAGE_SIZE * PAGE_SIZE
    let cache ← (List.rangeStepBy offsetAlignedStart size PAGE_SIZE).foldlM
      (fun cache offsetAligned => cache.insertPage offsetAligned Page.new) inode.cache
    pure (size, { inode with cache, size })
  else if oldSize = size then some (size, inode)
  else some (size, { inode with size })

end TmpInode

end Chronix
