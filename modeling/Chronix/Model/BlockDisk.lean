import Mathlib
import Chronix.ToMathlib.Slice
import Chronix.Model.Addr
import Chronix.Model.FileSeek

/-! # Block devices, the buffer cache and ext4's disk

ext4 reads and writes its disk as a stream of bytes through `Disk` (`fs/ext4/disk.rs`): a cursor
at byte `offset` of block `block_id`. `read_one` and `write_one` move it through one block, whole
or in part, and a partial write reads the block, changes its part and writes the block back;
lwext4's `read` and `write` repeat them until the buffer is done, and `seek` places the cursor.
Every block goes through `read_block` and `write_block` of `dyn BlockDevice`
(`devices/buffer_cache.rs`): straight to the driver, or, for a device that has a `BufferCache`,
through pages of `PAGE_SIZE / BLOCK_SIZE` blocks, each read from the driver the first time it is
touched.

The driver is its blocks and how many there are: a request past the last block fails, and its
`expect` panics. A panic, there or in a slice out of range, is `none`. Every caller passes
a buffer of one block, the one length modelled.
-/

namespace Chronix

/-- `config::BLOCK_SIZE`, and the `BLOCK_SIZE` of `fs/ext4/disk.rs`. -/
def BLOCK_SIZE : ℕ := 512

instance : NeZero BLOCK_SIZE := ⟨by decide⟩

/-- The blocks of a page of the buffer cache. -/
def BLOCKS_PER_PAGE : ℕ := Constant.PAGE_SIZE / BLOCK_SIZE

/-- The bytes of one block. -/
abbrev Block := Vector UInt8 BLOCK_SIZE

/-- The block a copy takes from `buf`, its first `BLOCK_SIZE` bytes. -/
def Block.ofBuf (buf : List UInt8) : Block := Vector.ofFn fun j => buf.getD j 0

/-- `BlockPage`: its frame, block by block, and which of the blocks are loaded. -/
structure BlockPage where
  frame : Fin BLOCKS_PER_PAGE → Block
  is_loaded : Fin BLOCKS_PER_PAGE → Bool

namespace BlockPage

/-- `BlockPage::new`: a zeroed frame with no block loaded. -/
def new : BlockPage := ⟨fun _ => Vector.replicate BLOCK_SIZE 0, fun _ => false⟩

/-- A miss: `data`, read from the device, fills block `in_page_offset` of the frame, which is
loaded from then on. -/
def load (page : BlockPage) (in_page_offset : Fin BLOCKS_PER_PAGE) (data : Block) : BlockPage :=
  ⟨Function.update page.frame in_page_offset data,
    Function.update page.is_loaded in_page_offset true⟩

/-- `BlockPage::read_block_one`. -/
def read_block_one (page : BlockPage) (in_page_offset : Fin BLOCKS_PER_PAGE) : Block :=
  page.frame in_page_offset

/-- `BlockPage::write_block_one`. -/
def write_block_one (page : BlockPage) (in_page_offset : Fin BLOCKS_PER_PAGE) (buf : List UInt8) :
    BlockPage :=
  { page with frame := Function.update page.frame in_page_offset (Block.ofBuf buf) }

end BlockPage

/-- `BufferCache`: its pages by page index. -/
structure BufferCache where
  buffer_cache : ℕ → Option BlockPage

namespace BufferCache

/-- `BufferCache::new`. -/
def new : BufferCache := ⟨fun _ => none⟩

/-- `BufferCache::get_block_page`. -/
def get_block_page (c : BufferCache) (page_index : ℕ) : Option BlockPage := c.buffer_cache page_index

/-- `BufferCache::insert_block_page`. -/
def insert_block_page (c : BufferCache) (page_index : ℕ) (page : BlockPage) : BufferCache :=
  ⟨Function.update c.buffer_cache page_index (some page)⟩

end BufferCache

/-- A block device as `read_block` and `write_block` reach it: the driver's blocks and their
number, and the `BufferCache` that `buffer_cache()` returns, if any. -/
structure BlockDev where
  capacity : ℕ
  blocks : ℕ → Block
  buffer_cache : Option BufferCache

namespace BlockDev

/-- `BlockDevice::size` of the virtio drivers, in bytes. -/
def size (d : BlockDev) : ℕ := d.capacity * BLOCK_SIZE

/-- `direct_read_block` of one block. -/
def direct_read_block (d : BlockDev) (block_id : ℕ) : Option Block :=
  if block_id < d.capacity then some (d.blocks block_id) else none

/-- `direct_write_block` of one block. -/
def direct_write_block (d : BlockDev) (block_id : ℕ) (buf : List UInt8) : Option BlockDev :=
  if block_id < d.capacity then
    some { d with blocks := Function.update d.blocks block_id (Block.ofBuf buf) }
  else none

/-- `block_id % (PAGE_SIZE / BLOCK_SIZE)`, the place of a block in its page. -/
def inPageOffset (block_id : ℕ) : Fin BLOCKS_PER_PAGE :=
  ⟨block_id % BLOCKS_PER_PAGE, Nat.mod_lt _ (by decide)⟩

/-- The device with `cache` as its buffer cache. -/
def withCache (d : BlockDev) (cache : BufferCache) : BlockDev := { d with buffer_cache := some cache }

/-- `read_block` of `dyn BlockDevice`: the block, and the device after it. A page the cache
holds is changed in place, behind its `Arc`, which is an insert of the changed page. -/
def read_block (d : BlockDev) (block_id : ℕ) : Option (Block × BlockDev) :=
  match d.buffer_cache with
  | none => (d.direct_read_block block_id).map fun block => (block, d)
  | some buffer_cache =>
    let page_index := block_id / BLOCKS_PER_PAGE
    let in_page_offset := inPageOffset block_id
    match buffer_cache.get_block_page page_index with
    | some page => do
      let page ← if page.is_loaded in_page_offset then some page
        else (d.direct_read_block block_id).map (page.load in_page_offset)
      some (page.read_block_one in_page_offset,
        d.withCache (buffer_cache.insert_block_page page_index page))
    | none => do
      let data ← d.direct_read_block block_id
      let page := BlockPage.new.load in_page_offset data
      some (page.read_block_one in_page_offset,
        d.withCache (buffer_cache.insert_block_page page_index page))

/-- `write_block` of `dyn BlockDevice`: the device after it. -/
def write_block (d : BlockDev) (block_id : ℕ) (buf : List UInt8) : Option BlockDev :=
  match d.buffer_cache with
  | none => d.direct_write_block block_id buf
  | some buffer_cache =>
    let page_index := block_id / BLOCKS_PER_PAGE
    let in_page_offset := inPageOffset block_id
    match buffer_cache.get_block_page page_index with
    | some page => do
      let page ← if page.is_loaded in_page_offset then some page
        else (d.direct_read_block block_id).map (page.load in_page_offset)
      some (d.withCache
        (buffer_cache.insert_block_page page_index (page.write_block_one in_page_offset buf)))
    | none => do
      -- the new page's zeroed block is what goes to the driver, and `buf` only to the page
      let page := BlockPage.new
      let d ← d.direct_write_block block_id (page.frame in_page_offset).toList
      let page := { page with is_loaded := Function.update page.is_loaded in_page_offset true }
      some (d.withCache
        (buffer_cache.insert_block_page page_index (page.write_block_one in_page_offset buf)))

end BlockDev

/-- `Disk`: the cursor, at byte `offset` of block `block_id`, over the device. -/
structure Disk where
  block_id : ℕ
  offset : ℕ
  dev : BlockDev
  offset_lt : offset < BLOCK_SIZE

namespace Disk

/-- `Disk::new`. -/
def new (dev : BlockDev) : Disk := ⟨0, 0, dev, by decide⟩

/-- `Disk::size`. -/
def size (d : Disk) : ℕ := d.dev.size

/-- `Disk::position`. -/
def position (d : Disk) : ℕ := d.block_id * BLOCK_SIZE + d.offset

/-- `Disk::set_position`. -/
def set_position (d : Disk) (pos : ℕ) : Disk :=
  ⟨pos / BLOCK_SIZE, pos % BLOCK_SIZE, d.dev, Nat.mod_lt _ (by decide)⟩

/-- The end of a partial `read_one` or `write_one`: `offset += count`, and on to the next block
where that reaches its end. -/
def advance (d : Disk) (dev : BlockDev) (count : ℕ) (within : d.offset + count ≤ BLOCK_SIZE) :
    Disk :=
  let offset := d.offset + count
  if full : offset ≥ BLOCK_SIZE then
    ⟨d.block_id + 1, offset - BLOCK_SIZE, dev, by have := d.offset_lt; omega⟩
  else ⟨d.block_id, offset, dev, by omega⟩

/-- `Disk::read_one` into a buffer of `len` bytes: the bytes read into it, and the disk. -/
def read_one (d : Disk) (len : ℕ) : Option (List UInt8 × Disk) :=
  if d.offset = 0 ∧ len ≥ BLOCK_SIZE then do
    let (block, dev) ← d.dev.read_block d.block_id
    some (block.toList, ⟨d.block_id + 1, d.offset, dev, d.offset_lt⟩)
  else do
    let start := d.offset
    let count := min len (BLOCK_SIZE - d.offset)
    let (data, dev) ← d.dev.read_block d.block_id
    let read ← data.toList.slice? start (start + count)
    some (read, d.advance dev count (by have := d.offset_lt; omega))

/-- `Disk::write_one` of `buf`: how many bytes it wrote, and the disk. -/
def write_one (d : Disk) (buf : List UInt8) : Option (ℕ × Disk) :=
  if d.offset = 0 ∧ buf.length ≥ BLOCK_SIZE then do
    let block ← buf.slice? 0 BLOCK_SIZE
    let dev ← d.dev.write_block d.block_id block
    some (BLOCK_SIZE, ⟨d.block_id + 1, d.offset, dev, d.offset_lt⟩)
  else do
    -- part of a block: the block is read, its part changed and the block written back
    let start := d.offset
    let count := min buf.length (BLOCK_SIZE - d.offset)
    let (data, dev) ← d.dev.read_block d.block_id
    let src ← buf.slice? 0 count
    let data ← data.toList.copyFromSlice? start (start + count) src
    let dev ← dev.write_block d.block_id data
    some (count, d.advance dev count (by have := d.offset_lt; omega))

/-- lwext4's `read` into a buffer of `len` bytes: `read_one` until the buffer is full. The bytes
read, as many as `read_len`, and the disk. -/
def read (d : Disk) (len : ℕ) : Option (List UInt8 × Disk) :=
  if empty : len = 0 then some ([], d)
  else
    match d.read_one len with
    | none => none
    | some (bytes, d) =>
      if stop : bytes.length = 0 then some ([], d)
      -- `&mut tmp[n..]`
      else if len < bytes.length then none
      else (d.read (len - bytes.length)).map fun (rest, d) => (bytes ++ rest, d)
termination_by len
decreasing_by exact Nat.sub_lt (Nat.pos_of_ne_zero empty) (Nat.pos_of_ne_zero stop)

/-- lwext4's `write` of `buf`: `write_one` until it is all written. `write_len`, and the disk. -/
def write (d : Disk) (buf : List UInt8) : Option (ℕ × Disk) :=
  if empty : buf.length = 0 then some (0, d)
  else
    match d.write_one buf with
    | none => none
    | some (n, d) =>
      if stop : n = 0 then some (0, d)
      else
        match sliced : buf.slice? n buf.length with
        | none => none
        | some rest => (d.write rest).map fun (write_len, d) => (n + write_len, d)
termination_by buf.length
decreasing_by
  rw [List.length_of_slice? sliced]
  exact Nat.sub_lt (Nat.pos_of_ne_zero empty) (Nat.pos_of_ne_zero stop)

/-- lwext4's `SEEK_SET`, `SEEK_CUR` and `SEEK_END`. -/
def SEEK_SET : ℕ := 0
def SEEK_CUR : ℕ := 1
def SEEK_END : ℕ := 2

/-- `u64::checked_add_signed`. -/
def checkedAddSigned (value : ℕ) (off : ℤ) : Option ℕ :=
  if 0 ≤ (value : ℤ) + off ∧ (value : ℤ) + off < 2 ^ 64 then some ((value : ℤ) + off).toNat
  else none

/-- lwext4's `seek`: the new position, as an `i64`, and the disk; `Err(-1)` where the position
overflows. A `whence` it does not know is logged and taken as `SEEK_SET`. -/
def seek (d : Disk) (off : ℤ) (whence : ℤ) : Except ℤ (ℤ × Disk) :=
  let size := d.size
  let whence := (whence % 2 ^ 32).toNat
  let new_pos : Option ℤ :=
    if whence = SEEK_SET then some off
    else if whence = SEEK_CUR then (checkedAddSigned d.position off).map fun v => i64Wrap v
    else if whence = SEEK_END then (checkedAddSigned size off).map fun v => i64Wrap v
    else some off
  match new_pos with
  | none => .error (-1)
  | some new_pos => .ok (new_pos, d.set_position (usizeOfIsize new_pos))

end Disk

end Chronix
