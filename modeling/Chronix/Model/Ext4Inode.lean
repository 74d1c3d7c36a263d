import Mathlib
import Chronix.Model.ByteFile
import Chronix.Model.PageCache
import Chronix.ToMathlib.Slice

/-! # The ext4 inode and its page cache

An `Ext4Inode` (`fs/ext4/inode.rs`) reads and writes through lwext4's `Ext4File` and keeps a
page cache. lwext4's file is a `ByteFile` here: `file_size` is its length, `file_read` reads the
bytes before the end, `file_write` pads with zeros up to where it writes, `file_truncate` cuts or
pads, and opening, seeking and closing succeed.

`cache_read_at` reads through the cache up to `max(cache.end(), file_size)`, the size `getattr`
reports. A page missing from the cache is read from the file, and where it ends goes into `end`.
`cache_write_at` writes into cached pages and marks them dirty. A missing page is read from the
file first only when it starts below the file's size. `truncate` goes to lwext4 and leaves the
cache alone; `PageCache::flush` writes every dirty page back whole.

The loops take the buffer's length as fuel, as `TmpInode`'s do; each turn moves on by at least one
byte. The `Page` and `PageCache` asserts and the slice range checks return `none`.
-/

namespace Chronix

open Constant

/-- `Ext4Inode`: lwext4's file, as a byte array, and the page cache. -/
structure Ext4Inode where
  file : List UInt8
  cache : PageCache

namespace Ext4Inode

/-- `Ext4Inode::new` on a file that holds `file`: an empty cache. -/
def new (file : List UInt8) : Ext4Inode := ⟨file, PageCache.new⟩

/-- `Ext4Inode::read_at`: `file_read` from `offset` into `buf`. -/
def readAt (inode : Ext4Inode) (offset : ℕ) (buf : List UInt8) : ℕ × List UInt8 :=
  ByteFile.read inode.file offset buf

/-- `Ext4Inode::write_at`: `file_write` of all of `buf` at `offset`. -/
def writeAt (inode : Ext4Inode) (offset : ℕ) (buf : List UInt8) : ℕ × Ext4Inode :=
  (buf.length, { inode with file := ByteFile.write inode.file offset buf })

/-- The `st_size` of `getattr` for a regular file: the larger of the cache's `end` and the
file's size. -/
def size (inode : Ext4Inode) : ℕ := max inode.cache.end_ inode.file.length

/-- The page at a page-aligned offset as `cache_read_at` and `read_page_at` get it: from the cache,
or read from the file into a new page, which goes into the cache with its end in `end`. -/
def pageOrRead (inode : Ext4Inode) (pageOffset : ℕ) : Option (Page × Ext4Inode) := do
  match ← inode.cache.getPage pageOffset with
  | some page => pure (page, inode)
  | none =>
    let (readSize, page) ← Page.new.readFrom inode.readAt pageOffset
    let cache ← inode.cache.insertPage pageOffset page
    pure (page, { inode with cache := cache.updateEnd (pageOffset + readSize) })

/-- `Ext4Inode::read_page_at`: no page at or past the size. -/
def readPageAt (inode : Ext4Inode) (offset : ℕ) : Option (Option Page × Ext4Inode) :=
  if offset ≥ inode.size then some (none, inode)
  else (inode.pageOrRead offset).map fun (page, inode) => (some page, inode)

/-- The loop of `cache_read_at`: bytes read so far, the file offset, the offset in `buf`.
`fileSize` is the file's size when the call began. -/
def cacheReadAt.loop (fileSize : ℕ) : ℕ → Ext4Inode → ℕ → ℕ → ℕ → List UInt8 →
    Option (ℕ × List UInt8 × Ext4Inode)
  | fuel, inode, totalReadSize, currentOffset, bufOffset, buf =>
    if bufOffset < buf.length then
      let maxEnd := max inode.cache.end_ fileSize
      if currentOffset ≥ maxEnd then some (totalReadSize, buf, inode)
      else match fuel with
        | 0 => none
        | fuel + 1 => do
          let pageOffset := currentOffset / PAGE_SIZE * PAGE_SIZE
          let inPageOffset := currentOffset % PAGE_SIZE
          let (page, inode) ← inode.pageOrRead pageOffset
          let bufReadSize := min (maxEnd - currentOffset) (buf.length - bufOffset)
          let part ← buf.slice? bufOffset (bufOffset + bufReadSize)
          let (pageReadSize, part) ← page.readAt inPageOffset part
          let buf ← buf.copyFromSlice? bufOffset (bufOffset + bufReadSize) part
          loop fileSize fuel inode (totalReadSize + pageReadSize) (currentOffset + pageReadSize)
            (bufOffset + pageReadSize) buf
    else some (totalReadSize, buf, inode)

/-- `Ext4Inode::cache_read_at`: the bytes read, the caller's buffer, and the inode after (pages
read from the file stay in the cache). -/
def cacheReadAt (inode : Ext4Inode) (offset : ℕ) (buf : List UInt8) :
    Option (ℕ × List UInt8 × Ext4Inode) :=
  cacheReadAt.loop inode.file.length buf.length inode 0 offset 0 buf

/-- The page at a page-aligned offset as `cache_write_at` gets it: from the cache, or a new page,
read from the file only when it starts below `fileSize`, which goes into the cache. -/
def pageForWrite (inode : Ext4Inode) (fileSize pageOffset : ℕ) : Option (Page × PageCache) := do
  match ← inode.cache.getPage pageOffset with
  | some page => pure (page, inode.cache)
  | none =>
    let page ← if pageOffset < fileSize then
        (Page.new.readFrom inode.readAt pageOffset).map Prod.snd
      else some Page.new
    let cache ← inode.cache.insertPage pageOffset page
    pure (page, cache)

/-- The loop of `cache_write_at`: bytes written so far, the file offset, the offset in `buf`.
`fileSize` is the file's size when the call began. -/
def cacheWriteAt.loop (fileSize : ℕ) : ℕ → Ext4Inode → ℕ → ℕ → ℕ → List UInt8 →
    Option (ℕ × Ext4Inode)
  | fuel, inode, totalWriteSize, currentOffset, bufOffset, buf =>
    if bufOffset < buf.length then
      match fuel with
      | 0 => none
      | fuel + 1 => do
        let pageOffset := currentOffset / PAGE_SIZE * PAGE_SIZE
        let inPageOffset := currentOffset % PAGE_SIZE
        let (page, cache) ← inode.pageForWrite fileSize pageOffset
        let rest ← buf.slice? bufOffset buf.length
        let (pageWriteSize, page) ← page.writeAt inPageOffset rest
        let cache := { cache with pages := cache.pages.insert pageOffset page.set_dirty }
        let cache := cache.updateEnd (pageOffset + pageWriteSize + inPageOffset)
        loop fileSize fuel { inode with cache } (totalWriteSize + pageWriteSize)
          (currentOffset + pageWriteSize) (bufOffset + pageWriteSize) buf
    else some (totalWriteSize, inode)

/-- `Ext4Inode::cache_write_at`: the bytes written and the inode after. -/
def cacheWriteAt (inode : Ext4Inode) (offset : ℕ) (buf : List UInt8) : Option (ℕ × Ext4Inode) :=
  cacheWriteAt.loop inode.file.length buf.length inode 0 offset 0 buf

/-- `Ext4Inode::truncate`: `file_truncate` on lwext4's file; the cache is left as it is. -/
def truncate (inode : Ext4Inode) (size : ℕ) : Ext4Inode :=
  { inode with file := ByteFile.truncate inode.file size }

/-- `PageCache::flush` of the inode's cache through `Ext4Inode::write_at`. -/
def flush (inode : Ext4Inode) : Ext4Inode :=
  inode.cache.flush (fun inode offset buf => (inode.writeAt offset buf).2) inode

/-- The inode answering a list of requests: what each read returned, and the inode after. -/
def run : Ext4Inode → List FileOp → Option (List (ℕ × List UInt8) × Ext4Inode)
  | inode, [] => some ([], inode)
  | inode, .read offset buf :: ops => do
    let (n, buf, inode) ← inode.cacheReadAt offset buf
    let (reads, inode) ← run inode ops
    pure ((n, buf) :: reads, inode)
  | inode, .write offset buf :: ops => do
    let (_, inode) ← inode.cacheWriteAt offset buf
    run inode ops
  | inode, .truncate size :: ops => run (inode.truncate size) ops
  | inode, .flush :: ops => run inode.flush ops

end Ext4Inode

end Chronix
