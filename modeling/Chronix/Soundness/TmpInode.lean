import Mathlib
import Chronix.Model.TmpInode
import Chronix.Model.ByteFile

/-! # The tmpfs inode is not a byte array

The reference a `TmpInode` should implement is the byte array of `ByteFile`. The code tracks
the end of the file twice, as the inode's `size` and as the page cache's `end`; the read loop
stops at `end`, and `truncate` only sets `size`. Growing a file with `truncate` also puts a fresh zero page over the
page that holds the old end, so bytes written before are lost.

`truncate_end` and `cacheReadAt_le_end` say this for every inode: after any truncate, a read
returns no more than the bytes below the old `end`. `tmpInode_truncate_diverges` runs both
sides on a three-byte file.
-/

namespace Chronix

/-! ## The end of the page cache -/

namespace PageCache

theorem end_of_insertPage {cache next : PageCache} {offset : ℕ} {page : Page}
    (inserted : cache.insertPage offset page = some next) : next.end_ = cache.end_ := by
  unfold insertPage at inserted
  split_ifs at inserted
  cases inserted
  rfl

theorem end_of_pageOrInsert {cache next : PageCache} {offset : ℕ} {page : Page}
    (found : cache.pageOrInsert offset = some (page, next)) : next.end_ = cache.end_ := by
  simp only [pageOrInsert, Option.bind_eq_bind, Option.bind_eq_some_iff] at found
  obtain ⟨slot, -, found⟩ := found
  cases slot with
  | some => cases found; rfl
  | none =>
    obtain ⟨inserted, insert, found⟩ := Option.bind_eq_some_iff.mp found
    cases found
    exact end_of_insertPage insert

/-- The run lemma for the loop of `truncate`: inserting pages never moves `end`. -/
theorem end_of_foldlM_insertPage {offsets : List ℕ} {cache next : PageCache}
    (inserted : offsets.foldlM (fun cache offset => cache.insertPage offset Page.new) cache =
      some next) : next.end_ = cache.end_ := by
  induction offsets generalizing cache with
  | nil => cases inserted; rfl
  | cons offset offsets ih =>
    obtain ⟨middle, first, rest⟩ := Option.bind_eq_some_iff.mp inserted
    rw [ih rest, end_of_insertPage first]

end PageCache

theorem Page.fst_le_of_readAt {page : Page} {offset : ℕ} {buf buf' : List UInt8} {n : ℕ}
    (read : page.readAt offset buf = some (n, buf')) : n ≤ buf.length := by
  unfold Page.readAt at read
  split_ifs at read
  cases read
  omega

namespace TmpInode

/-- The run lemma of the read loop: the bytes it counts never reach past the cache's `end`. -/
theorem cacheReadAt.loop_le_end {fuel : ℕ} {cache : PageCache} {total current bufOffset : ℕ}
    {buf : List UInt8} {result : ℕ × List UInt8 × PageCache}
    (ran : cacheReadAt.loop fuel cache total current bufOffset buf = some result) :
    result.1 ≤ total + (cache.end_ - current) := by
  induction fuel generalizing cache total current bufOffset buf with
  | zero =>
    unfold cacheReadAt.loop at ran
    split_ifs at ran <;> cases ran <;> simp
  | succ fuel ih =>
    unfold cacheReadAt.loop at ran
    split_ifs at ran with guard beyond
    · cases ran; simp
    · -- one page's worth: the cache keeps its end, and the bytes read fit below it
      obtain ⟨⟨page, cache'⟩, found, ran⟩ := Option.bind_eq_some_iff.mp ran
      obtain ⟨part, sliced, ran⟩ := Option.bind_eq_some_iff.mp ran
      obtain ⟨⟨n, part'⟩, read, ran⟩ := Option.bind_eq_some_iff.mp ran
      obtain ⟨buf', copied, ran⟩ := Option.bind_eq_some_iff.mp ran
      have sameEnd := PageCache.end_of_pageOrInsert found
      have fits := Page.fst_le_of_readAt read
      rw [List.length_of_slice? sliced] at fits
      have := ih ran
      omega
    · cases ran; simp

theorem cacheReadAt_le_end {inode next : TmpInode} {offset n : ℕ} {buf buf' : List UInt8}
    (read : inode.cacheReadAt offset buf = some (n, buf', next)) :
    n ≤ inode.cache.end_ - offset := by
  obtain ⟨⟨total, bufOut, cache⟩, ran, read⟩ := Option.bind_eq_some_iff.mp read
  cases read
  simpa using cacheReadAt.loop_le_end ran

/-- `truncate` never moves the cache's `end`. -/
theorem truncate_end {inode next : TmpInode} {size result : ℕ}
    (truncated : inode.truncate size = some (result, next)) : next.cache.end_ = inode.cache.end_ := by
  unfold truncate at truncated
  dsimp only at truncated
  split_ifs at truncated
  · obtain ⟨cache, inserted, truncated⟩ := Option.bind_eq_some_iff.mp truncated
    cases truncated
    exact PageCache.end_of_foldlM_insertPage inserted
  · cases truncated; rfl
  · cases truncated; rfl

/-- Whatever size a truncate sets, a read after it returns no more than the bytes below the
cache's `end` from before. -/
theorem cacheReadAt_le_end_of_truncate {inode truncated next : TmpInode} {size result offset n : ℕ}
    {buf buf' : List UInt8} (truncate : inode.truncate size = some (result, truncated))
    (read : truncated.cacheReadAt offset buf = some (n, buf', next)) :
    n ≤ inode.cache.end_ - offset := by
  rw [← truncate_end truncate]
  exact cacheReadAt_le_end read

end TmpInode

/-- A three-byte file grown to five bytes reads back three zero bytes, where the byte array
reads back its five bytes; cut to one byte, it still reads back three. -/
theorem tmpInode_truncate_diverges :
    (((TmpInode.new.cacheWriteAt 0 [1, 2, 3]).bind fun written => written.2.truncate 5).bind
      fun truncated => truncated.2.cacheReadAt 0 [9, 9, 9, 9, 9]).map
        (fun read => (read.1, read.2.1)) = some (3, [0, 0, 0, 9, 9]) ∧
    ByteFile.read (ByteFile.truncate (ByteFile.write [] 0 [1, 2, 3]) 5) 0 [9, 9, 9, 9, 9] =
      (5, [1, 2, 3, 0, 0]) ∧
    (((TmpInode.new.cacheWriteAt 0 [1, 2, 3]).bind fun written => written.2.truncate 1).bind
      fun truncated => truncated.2.cacheReadAt 0 [9, 9, 9, 9, 9]).map
        (fun read => (read.1, read.2.1)) = some (3, [1, 2, 3, 9, 9]) ∧
    ByteFile.read (ByteFile.truncate (ByteFile.write [] 0 [1, 2, 3]) 1) 0 [9, 9, 9, 9, 9] =
      (1, [1, 9, 9, 9, 9]) := by
  decide

end Chronix
