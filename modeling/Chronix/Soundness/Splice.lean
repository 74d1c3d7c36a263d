import Mathlib
import Chronix.Model.Splice
import Chronix.Soundness.RingBuffer
import Chronix.Soundness.FileSeek

/-! # What `splice` and `sendfile` move

Each end of the two calls has one spec. A pipe's writing end with its reader there and room in
the ring pushes what the queue takes (`PipeMeta.write_spec`); a reading end with bytes in the ring
pops them (`PipeMeta.read_spec`); both go through the queue the ring buffer refines, so no proof
here reopens the ring's arithmetic. A regular file reads `ByteFile.read` at its position and
moves the position past what it read (`RegularFile.read_eq`).

`sys_splice` and `sys_sendfile` are then computed from these for each pair of files they accept.
Two of the pairs show where the calls report another count than the bytes they move: from a
regular file into a pipe, `splice` writes the whole buffer of `size` bytes, with the zeros past a
short read; and `sendfile` moves the input offset past every byte it read, also past those the
output did not take.
-/

namespace Chronix

/-! ## The two ends of a pipe -/

namespace PipeMeta

variable {p : PipeMeta}

/-- The writing end, with the reader there and room in the ring, pushes what the queue takes. -/
theorem write_spec (wf : p.ring_buffer.Wf) (readerOpen : p.is_read_closed = false)
    (roomy : p.ring_buffer.contents.length < p.ring_buffer.arr.length) (buf : List UInt8) :
    ∃ next, p.write buf =
        some (.ok ((p.ring_buffer.toFifo.push buf).1, { p with ring_buffer := next })) ∧
      next.Wf ∧ next.toFifo = (p.ring_buffer.toFifo.push buf).2 := by
  obtain ⟨next, wrote, wfNext, pushed⟩ := wf.write_spec buf
  have notFull : p.ring_buffer.isFull = false := by
    rw [wf.isFull_eq, decide_eq_false_iff_not]
    exact roomy.ne
  refine ⟨next, ?_, wfNext, pushed⟩
  simp only [write, readerOpen, notFull, wrote, Bool.not_false, Bool.false_eq_true, if_false,
    if_true, Option.map_some]

/-- The reading end, with bytes in the ring, pops as many as the buffer holds. -/
theorem read_spec (wf : p.ring_buffer.Wf) (holding : p.ring_buffer.contents ≠ [])
    (buf : List UInt8) :
    ∃ next, p.read buf =
        some ((p.ring_buffer.toFifo.pop buf.length).1.length,
          (p.ring_buffer.toFifo.pop buf.length).1 ++
            buf.drop (p.ring_buffer.toFifo.pop buf.length).1.length,
          { p with ring_buffer := next }) ∧
      next.Wf ∧ next.toFifo = (p.ring_buffer.toFifo.pop buf.length).2 := by
  obtain ⟨next, got, wfNext, popped⟩ := wf.read_spec buf
  have notEmpty : p.ring_buffer.isEmpty = false := by
    rw [wf.isEmpty_eq, List.isEmpty_eq_false_iff]
    exact holding
  refine ⟨next, ?_, wfNext, popped⟩
  simp only [read, notEmpty, got, Bool.not_false, if_true, Option.map_some]

end PipeMeta

/-! ## A regular file -/

theorem ByteFile.read_fst (file : List UInt8) (off : ℕ) (buf : List UInt8) :
    (ByteFile.read file off buf).1 = min buf.length (file.length - off) := rfl

namespace RegularFile

variable {f : RegularFile}

/-- A read at a position and a size that fit in an `isize` returns `ByteFile.read` there and
moves the position past the bytes read. -/
theorem read_eq (small : f.pos < 2 ^ 63) (short : f.bytes.length < 2 ^ 63) (buf : List UInt8) :
    f.read buf = some ((ByteFile.read f.bytes f.pos buf).1, (ByteFile.read f.bytes f.pos buf).2,
      { f with pos := f.pos + (ByteFile.read f.bytes f.pos buf).1 }) := by
  have within : (ByteFile.read f.bytes f.pos buf).1 ≤ f.bytes.length - f.pos := by
    rw [ByteFile.read_fst]
    exact min_le_right _ _
  have moved : usizeOfIsize ((f.pos : ℤ) + ((ByteFile.read f.bytes f.pos buf).1 : ℤ)) =
      f.pos + (ByteFile.read f.bytes f.pos buf).1 := by
    unfold usizeOfIsize
    omega
  have fits : (ByteFile.read f.bytes f.pos buf).1 < 2 ^ 63 := by omega
  -- the position moves by a non-negative `i64` that does not wrap
  rw [read, isizeOfUsize_of_lt fits, SeekFile.seek_current small (by omega) (by omega),
    if_neg (by omega), moved]
  rfl

end RegularFile

/-- A read into the zero buffer of `sys_splice` and `sys_sendfile`: the bytes at `off`, then
zeros up to the buffer's length. -/
theorem ByteFile.read_replicate (file : List UInt8) (off size : ℕ) :
    (ByteFile.read file off (List.replicate size 0)).2 =
      (file.drop off).take size ++ List.replicate (size - (file.length - off)) 0 := by
  have front : (file.drop off).take (min size (file.length - off)) = (file.drop off).take size := by
    rw [← List.length_drop, ← List.take_take, List.take_length]
  have padded : size - min size (file.length - off) = size - (file.length - off) := by omega
  rw [ByteFile.read, List.length_replicate, front, List.drop_replicate, padded]

/-! ## The halves of the calls -/

section Halves

variable {f : RegularFile} {p : PipeMeta}

/-- The read half of `splice` from a regular file at its position. -/
theorem spliceIn_regular_null (small : f.pos < 2 ^ 63) (short : f.bytes.length < 2 ^ 63)
    (buf : List UInt8) :
    spliceIn (.regular f) .null buf =
      some (.ok ((ByteFile.read f.bytes f.pos buf).1, (ByteFile.read f.bytes f.pos buf).2,
        .regular { f with pos := f.pos + (ByteFile.read f.bytes f.pos buf).1 }, .null)) := by
  simp only [spliceIn, SpliceFile.isPipe, SpliceFile.read, RegularFile.read_eq small short,
    Bool.false_eq_true, if_false, Option.map_some]

/-- The read half of `sendfile` from a regular file at the offset its pointer holds, which moves
past the bytes read. -/
theorem sendfileIn_regular_points {off : ℕ} (small : off < 2 ^ 63) (short : f.bytes.length < 2 ^ 63)
    (buf : List UInt8) :
    sendfileIn (.regular f) (.points off) buf =
      some (.ok ((ByteFile.read f.bytes off buf).1, (ByteFile.read f.bytes off buf).2,
        .regular f, .points (off + (ByteFile.read f.bytes off buf).1))) := by
  have within : (ByteFile.read f.bytes off buf).1 ≤ f.bytes.length - off := by
    rw [ByteFile.read_fst]
    exact min_le_right _ _
  have kept : usizeWrap (off + (ByteFile.read f.bytes off buf).1) =
      off + (ByteFile.read f.bytes off buf).1 := by
    unfold usizeWrap
    omega
  rw [sendfileIn, isizeOfUsize_of_lt small, if_neg (by omega)]
  simp only [SpliceFile.read_at, Except.map, kept]

/-- The writing end of a pipe, with the reader there and room, as `File::write`. -/
theorem SpliceFile.write_pipe (wf : p.ring_buffer.Wf) (readerOpen : p.is_read_closed = false)
    (roomy : p.ring_buffer.contents.length < p.ring_buffer.arr.length) (buf : List UInt8) :
    ∃ next, (SpliceFile.pipe false p).write buf =
        some (.ok ((p.ring_buffer.toFifo.push buf).1, .pipe false { p with ring_buffer := next })) ∧
      next.Wf ∧ next.toFifo = (p.ring_buffer.toFifo.push buf).2 := by
  obtain ⟨next, wrote, wfNext, pushed⟩ := PipeMeta.write_spec wf readerOpen roomy buf
  refine ⟨next, ?_, wfNext, pushed⟩
  simp only [SpliceFile.write, wrote, Bool.not_false, if_true, Option.map_some, Except.map]

/-- The write half of `splice` into a pipe: the whole buffer is offered, whatever was read. -/
theorem spliceOut_pipe (wf : p.ring_buffer.Wf) (readerOpen : p.is_read_closed = false)
    (roomy : p.ring_buffer.contents.length < p.ring_buffer.arr.length) (buf : List UInt8)
    (read_size : ℕ) :
    ∃ next, spliceOut (.pipe false p) .null buf read_size =
        some (.pipe false { p with ring_buffer := next }, .null,
          .ok (p.ring_buffer.toFifo.push buf).1) ∧
      next.Wf ∧ next.toFifo = (p.ring_buffer.toFifo.push buf).2 := by
  obtain ⟨next, wrote, wfNext, pushed⟩ := SpliceFile.write_pipe wf readerOpen roomy buf
  refine ⟨next, ?_, wfNext, pushed⟩
  simp only [spliceOut, SpliceFile.isPipe, SpliceFile.writable, wrote, Bool.not_false,
    Bool.not_true, Bool.false_eq_true, if_true, if_false, ne_eq, not_true_eq_false, Option.map_some]

/-- The prefix of the zero buffer that `sendfile` writes, `&buf[..len]`, is the bytes read. -/
theorem slice?_read_replicate (file : List UInt8) (off count : ℕ) :
    (ByteFile.read file off (List.replicate count 0)).2.slice? 0
        (ByteFile.read file off (List.replicate count 0)).1 =
      some ((file.drop off).take count) := by
  have readLength : ((file.drop off).take count).length =
      (ByteFile.read file off (List.replicate count 0)).1 := by
    simp only [List.length_take, List.length_drop, ByteFile.read_fst, List.length_replicate]
  have inBuffer : (ByteFile.read file off (List.replicate count 0)).1 ≤
      (ByteFile.read file off (List.replicate count 0)).2.length := by
    rw [ByteFile.length_read, ByteFile.read_fst, List.length_replicate]
    exact min_le_left _ _
  rw [List.slice?_of_le (Nat.zero_le _) inBuffer, List.drop_zero, Nat.sub_zero,
    ByteFile.read_replicate, List.take_left' readLength]

end Halves

/-! ## Regular file to pipe -/

section RegularToPipe

variable {f : RegularFile} {p : PipeMeta}

/-- `splice` from a regular file at its position into a pipe with room: the pipe is offered the
whole zero buffer, with the bytes read at its front, and the result is what it took. -/
theorem sys_splice_regular_to_pipe (small : f.pos < 2 ^ 63) (short : f.bytes.length < 2 ^ 63)
    (wf : p.ring_buffer.Wf) (readerOpen : p.is_read_closed = false)
    (roomy : p.ring_buffer.contents.length < p.ring_buffer.arr.length) (size : ℕ) :
    ∃ next, sys_splice (.regular f) .null (.pipe false p) .null size =
        some (.regular { f with pos := f.pos + min size (f.bytes.length - f.pos) }, .null,
          .pipe false { p with ring_buffer := next }, .null,
          .ok (min size (p.ring_buffer.arr.length - p.ring_buffer.contents.length))) ∧
      next.Wf ∧ next.contents = p.ring_buffer.contents ++
        ((f.bytes.drop f.pos).take size ++ List.replicate (size - (f.bytes.length - f.pos)) 0).take
          (p.ring_buffer.arr.length - p.ring_buffer.contents.length) := by
  obtain ⟨next, wrote, wfNext, pushed⟩ :=
    spliceOut_pipe wf readerOpen roomy (ByteFile.read f.bytes f.pos (List.replicate size 0)).2
      (ByteFile.read f.bytes f.pos (List.replicate size 0)).1
  refine ⟨next, ?_, wfNext, ?_⟩
  · rw [sys_splice, if_neg (by simp [SpliceFile.isPipe]), spliceIn_regular_null small short]
    dsimp only
    rw [wrote, Option.map_some]
    simp only [BoundedFifo.push_fst, ByteFile.length_read, List.length_replicate, BoundedFifo.room,
      RingBuffer.capacity_toFifo, RingBuffer.items_toFifo, ByteFile.read_fst]
  · rw [← RingBuffer.items_toFifo, pushed, ← ByteFile.read_replicate]
    rfl

/-- `sendfile` from a regular file at the offset its pointer holds into a pipe with room: the
pipe takes what it has room for of the bytes read, and the offset moves past all of them. -/
theorem sys_sendfile_regular_to_pipe {off : ℕ} (small : off < 2 ^ 63)
    (short : f.bytes.length < 2 ^ 63) (wf : p.ring_buffer.Wf)
    (readerOpen : p.is_read_closed = false)
    (roomy : p.ring_buffer.contents.length < p.ring_buffer.arr.length) (count : ℕ) :
    ∃ next, sys_sendfile (.pipe false p) (.regular f) (.points off) count =
        some (.pipe false { p with ring_buffer := next }, .regular f,
          .points (off + min count (f.bytes.length - off)),
          .ok (min (min count (f.bytes.length - off))
            (p.ring_buffer.arr.length - p.ring_buffer.contents.length))) ∧
      next.Wf ∧ next.contents = p.ring_buffer.contents ++
        (f.bytes.drop off).take (min count (p.ring_buffer.arr.length - p.ring_buffer.contents.length)) := by
  obtain ⟨next, wrote, wfNext, pushed⟩ :=
    SpliceFile.write_pipe wf readerOpen roomy ((f.bytes.drop off).take count)
  refine ⟨next, ?_, wfNext, ?_⟩
  · rw [sys_sendfile, sendfileIn_regular_points small short]
    dsimp only
    rw [slice?_read_replicate, Option.bind_some, wrote, Option.map_some]
    simp only [BoundedFifo.push_fst, List.length_take, List.length_drop, BoundedFifo.room,
      RingBuffer.capacity_toFifo, RingBuffer.items_toFifo, ByteFile.read_fst, List.length_replicate]
  · -- the pipe takes the front of the bytes read, as far as its room goes
    rw [← RingBuffer.items_toFifo, pushed]
    show p.ring_buffer.contents ++ ((f.bytes.drop off).take count).take
      (p.ring_buffer.arr.length - p.ring_buffer.contents.length) = _
    rw [List.take_take, min_comm]

end RegularToPipe

/-! ## Pipe to regular file -/

section PipeToRegular

variable {p : PipeMeta} {g : RegularFile}

/-- The read half of `splice` from a pipe's reading end that holds bytes: the front of the ring,
as much as the buffer holds, then the rest of the buffer. -/
theorem spliceIn_pipe (wf : p.ring_buffer.Wf) (holding : p.ring_buffer.contents ≠ [])
    (buf : List UInt8) :
    ∃ next, spliceIn (.pipe true p) .null buf =
        some (.ok ((p.ring_buffer.toFifo.pop buf.length).1.length,
          (p.ring_buffer.toFifo.pop buf.length).1 ++
            buf.drop (p.ring_buffer.toFifo.pop buf.length).1.length,
          .pipe true { p with ring_buffer := next }, .null)) ∧
      next.Wf ∧ next.toFifo = (p.ring_buffer.toFifo.pop buf.length).2 := by
  obtain ⟨next, got, wfNext, popped⟩ := PipeMeta.read_spec wf holding buf
  refine ⟨next, ?_, wfNext, popped⟩
  simp only [spliceIn, SpliceFile.isPipe, SpliceFile.readable, SpliceFile.read, got,
    Bool.not_true, Bool.false_eq_true, if_true, if_false, ne_eq, not_true_eq_false, Option.map_some]

/-- The write half of `splice` into a regular file at its position writes `&buf[..read_size]`. -/
theorem spliceOut_regular_null (front rest : List UInt8) :
    spliceOut (.regular g) .null (front ++ rest) front.length =
      some (.regular (g.write front).2, .null, .ok front.length) := by
  simp only [spliceOut, SpliceFile.isPipe, SpliceFile.write, List.slice?_append_length,
    Bool.false_eq_true, if_false, Option.bind_some, Option.map_some, RegularFile.write]

/-- The write half of `splice` into a regular file at the offset its pointer holds writes
`&buf[..read_size]` there and moves the offset past it. -/
theorem spliceOut_regular_points {off : ℕ} (small : off < 2 ^ 63) (front rest : List UInt8) :
    spliceOut (.regular g) (.points off) (front ++ rest) front.length =
      some (.regular { g with bytes := ByteFile.write g.bytes off front },
        .points (usizeWrap (off + front.length)), .ok front.length) := by
  rw [spliceOut, if_neg (by simp [SpliceFile.isPipe]), List.slice?_append_length, Option.bind_some]
  dsimp only
  rw [isizeOfUsize_of_lt small, if_neg (by omega)]
  rfl

/-- `splice` from a pipe holding bytes into a regular file moves the first bytes of the pipe,
as many as `size` asks for, into the file: at its position, or at the offset the pointer holds,
which moves past them. The pipe keeps the rest, and the call returns the number moved. -/
theorem sys_splice_pipe_to_regular_moves_front (wf : p.ring_buffer.Wf)
    (holding : p.ring_buffer.contents ≠ []) (size : ℕ) :
    (∃ next, sys_splice (.pipe true p) .null (.regular g) .null size =
        some (.pipe true { p with ring_buffer := next }, .null,
          .regular (g.write (p.ring_buffer.contents.take size)).2, .null,
          .ok (min size p.ring_buffer.contents.length)) ∧
      next.Wf ∧ p.ring_buffer.contents.take size ++ next.contents = p.ring_buffer.contents) ∧
    ∀ off < 2 ^ 63, ∃ next, sys_splice (.pipe true p) .null (.regular g) (.points off) size =
        some (.pipe true { p with ring_buffer := next }, .null,
          .regular { g with bytes := ByteFile.write g.bytes off (p.ring_buffer.contents.take size) },
          .points (usizeWrap (off + min size p.ring_buffer.contents.length)),
          .ok (min size p.ring_buffer.contents.length)) ∧
      next.Wf ∧ p.ring_buffer.contents.take size ++ next.contents = p.ring_buffer.contents := by
  obtain ⟨next, got, wfNext, popped⟩ := spliceIn_pipe wf holding (List.replicate size 0)
  rw [List.length_replicate] at got popped
  -- what the pipe hands out, and what it keeps
  have front : (p.ring_buffer.toFifo.pop size).1 = p.ring_buffer.contents.take size := by
    rw [BoundedFifo.pop_fst, RingBuffer.items_toFifo]
  have moved : (p.ring_buffer.contents.take size).length = min size p.ring_buffer.contents.length :=
    List.length_take
  have kept : p.ring_buffer.contents.take size ++ next.contents = p.ring_buffer.contents := by
    rw [← RingBuffer.items_toFifo next, popped, ← front, BoundedFifo.pop_append,
      RingBuffer.items_toFifo]
  rw [front] at got
  refine ⟨⟨next, ?_, wfNext, kept⟩, fun off small => ⟨next, ?_, wfNext, kept⟩⟩
  · rw [sys_splice, if_neg (by simp [SpliceFile.isPipe]), got]
    dsimp only
    rw [spliceOut_regular_null, Option.map_some, moved]
  · rw [sys_splice, if_neg (by simp [SpliceFile.isPipe]), got]
    dsimp only
    rw [spliceOut_regular_points small, Option.map_some, moved]

theorem splice_moves_two_of_three_wrapped_bytes :
    ∃ next, sys_splice (.pipe true ⟨⟨[9, 0, 7, 8], 2, 1, .NORMAL⟩, false, false⟩) .null
        (.regular ⟨[1, 1, 1, 1], 1, false⟩) .null 2 =
        some (.pipe true ⟨next, false, false⟩, .null, .regular ⟨[1, 7, 8, 1], 3, false⟩, .null,
          .ok 2) ∧
      next.contents = [9] := by
  have held : RingBuffer.contents ⟨[9, 0, 7, 8], 2, 1, .NORMAL⟩ = [7, 8, 9] := by decide
  obtain ⟨⟨next, spliced, -, kept⟩, -⟩ := sys_splice_pipe_to_regular_moves_front
    (p := ⟨⟨[9, 0, 7, 8], 2, 1, .NORMAL⟩, false, false⟩) (g := ⟨[1, 1, 1, 1], 1, false⟩)
    ⟨by decide, by decide, by decide⟩ (by decide) 2
  rw [held] at spliced kept
  exact ⟨next, spliced, by simpa using kept⟩

end PipeToRegular

/-! ## What the calls report -/

/-- From a regular file into a pipe with room for `size` bytes, `splice` reports `size` and the
pipe gets the bytes read followed by zeros; from a regular file at an offset pointer into a pipe,
`sendfile` reports what the pipe took and moves the offset past every byte read. -/
theorem splice_and_sendfile_move_other_than_reported :
    (∀ (f : RegularFile) (p : PipeMeta) (size : ℕ), f.pos < 2 ^ 63 → f.bytes.length < 2 ^ 63 →
      p.ring_buffer.Wf → p.is_read_closed = false → 0 < size →
      size ≤ p.ring_buffer.arr.length - p.ring_buffer.contents.length →
      ∃ next, sys_splice (.regular f) .null (.pipe false p) .null size =
          some (.regular { f with pos := f.pos + min size (f.bytes.length - f.pos) }, .null,
            .pipe false { p with ring_buffer := next }, .null, .ok size) ∧
        next.contents = p.ring_buffer.contents ++ (f.bytes.drop f.pos).take size ++
          List.replicate (size - (f.bytes.length - f.pos)) 0) ∧
    (∀ (f : RegularFile) (p : PipeMeta) (off count : ℕ), off < 2 ^ 63 →
      f.bytes.length < 2 ^ 63 → p.ring_buffer.Wf → p.is_read_closed = false →
      p.ring_buffer.contents.length < p.ring_buffer.arr.length →
      ∃ next, sys_sendfile (.pipe false p) (.regular f) (.points off) count =
          some (.pipe false { p with ring_buffer := next }, .regular f,
            .points (off + min count (f.bytes.length - off)),
            .ok (min (min count (f.bytes.length - off))
              (p.ring_buffer.arr.length - p.ring_buffer.contents.length))) ∧
        next.contents = p.ring_buffer.contents ++
          (f.bytes.drop off).take (min count (p.ring_buffer.arr.length - p.ring_buffer.contents.length))) := by
  refine ⟨?splice, ?sendfile⟩
  case splice =>
    intro f p size small short wf readerOpen positive room
    obtain ⟨next, spliced, -, contents⟩ :=
      sys_splice_regular_to_pipe small short wf readerOpen (by omega) size
    -- the pipe has room for the whole buffer, zeros included
    have took : min size (p.ring_buffer.arr.length - p.ring_buffer.contents.length) = size :=
      min_eq_left room
    have whole : ((f.bytes.drop f.pos).take size ++
        List.replicate (size - (f.bytes.length - f.pos)) 0).take
          (p.ring_buffer.arr.length - p.ring_buffer.contents.length) =
        (f.bytes.drop f.pos).take size ++ List.replicate (size - (f.bytes.length - f.pos)) 0 := by
      apply List.take_of_length_le
      simp only [List.length_append, List.length_take, List.length_drop, List.length_replicate]
      omega
    exact ⟨next, by rw [spliced, took], by rw [contents, whole, List.append_assoc]⟩
  case sendfile =>
    intro f p off count small short wf readerOpen roomy
    obtain ⟨next, sent, -, contents⟩ :=
      sys_sendfile_regular_to_pipe small short wf readerOpen roomy count
    exact ⟨next, sent, contents⟩

theorem splice_pads_and_sendfile_skips_at_small_pipes :
    (∃ next, sys_splice (.regular ⟨[1, 2, 3], 0, false⟩) .null
        (.pipe false ⟨RingBuffer.new 16, false, false⟩) .null 8 =
        some (.regular ⟨[1, 2, 3], 3, false⟩, .null, .pipe false ⟨next, false, false⟩, .null, .ok 8) ∧
      next.contents = [1, 2, 3, 0, 0, 0, 0, 0]) ∧
    (∃ next, sys_sendfile (.pipe false ⟨RingBuffer.new 4, false, false⟩)
        (.regular ⟨[1, 2, 3, 4, 5, 6], 0, false⟩) (.points 0) 8 =
        some (.pipe false ⟨next, false, false⟩, .regular ⟨[1, 2, 3, 4, 5, 6], 0, false⟩,
          .points 6, .ok 4) ∧
      next.contents = [1, 2, 3, 4]) := by
  obtain ⟨padded, spliced, paddedContents⟩ := splice_and_sendfile_move_other_than_reported.1
    ⟨[1, 2, 3], 0, false⟩ ⟨RingBuffer.new 16, false, false⟩ 8 (by decide) (by decide)
    (RingBuffer.wf_new (by decide)) rfl (by decide) (by decide)
  obtain ⟨skipped, sent, skippedContents⟩ := splice_and_sendfile_move_other_than_reported.2
    ⟨[1, 2, 3, 4, 5, 6], 0, false⟩ ⟨RingBuffer.new 4, false, false⟩ 0 8 (by decide) (by decide)
    (RingBuffer.wf_new (by decide)) rfl (by decide)
  refine ⟨⟨padded, by rw [spliced]; rfl, by rw [paddedContents]; rfl⟩,
    ⟨skipped, by rw [sent]; rfl, by rw [skippedContents]; rfl⟩⟩

end Chronix
