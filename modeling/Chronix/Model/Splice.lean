import Mathlib
import Chronix.Model.RingBuffer
import Chronix.Model.ByteFile
import Chronix.Model.FileSeek
import Chronix.Model.SysError

/-! # `splice` and `sendfile`

`sys_splice` and `sys_sendfile` (`syscall/fs.rs`) read up to `size` (`count`) bytes from one open
file into a kernel buffer of `size` zero bytes and write them to another. An open file here is
one of the two kinds the calls tell apart: an end of a pipe of `fs/pipefs.rs`, whose inode is a
FIFO, or a tmpfs regular file (`TmpFile`), taken as the byte array it stands for
(`ByteFile`), with its position and its `O_APPEND` flag.

A pipe end reads or writes once its future is ready. `PipeReadFuture` is ready when the ring
buffer holds bytes or the writer is gone (`HUP`, and the read returns 0); `PipeWriteFuture` is
ready when the ring buffer has room or the reader is gone (`ERR`, and the write fails with
`EPIPE`). A future that is not ready waits for another task; the model has no other task, so the
call does not return, which is `none`, as a panic is (`assert!` on the wrong end, `expect`, a
slice out of range). An offset pointer argument is null, a pointer `ensure_write` refuses, or one
to the `usize` the call reads and updates.
-/

namespace Chronix

/-- `PipeMeta`: the ring buffer and the two close flags; the wakers are left out, as no other
task waits here. -/
structure PipeMeta where
  ring_buffer : RingBuffer
  is_write_closed : Bool
  is_read_closed : Bool
deriving DecidableEq, Repr

namespace PipeMeta

/-- `PipeFile::read` once `PipeReadFuture` is ready: the bytes the ring buffer holds, or 0 after
`HUP`; with an empty ring and the writer there the future waits. -/
def read (p : PipeMeta) (buf : List UInt8) : Option (ℕ × List UInt8 × PipeMeta) :=
  if !p.ring_buffer.isEmpty then
    (p.ring_buffer.read buf).map fun r => (r.1, r.2.1, { p with ring_buffer := r.2.2 })
  else if p.is_write_closed then some (0, buf, p)
  else none

/-- `PipeFile::write` once `PipeWriteFuture` is ready: `EPIPE` after `ERR`, else what the ring
buffer takes; with a full ring and the reader there the future waits. -/
def write (p : PipeMeta) (buf : List UInt8) : Option (Except SysError (ℕ × PipeMeta)) :=
  if p.is_read_closed then some (.error .EPIPE)
  else if !p.ring_buffer.isFull then
    (p.ring_buffer.write buf).map fun r => .ok (r.1, { p with ring_buffer := r.2 })
  else none

end PipeMeta

/-- A tmpfs regular file: its bytes, its position and whether it was opened with `O_APPEND`. -/
structure RegularFile where
  bytes : List UInt8
  pos : ℕ
  append : Bool
deriving DecidableEq, Repr

namespace RegularFile

/-- `TmpFile::read`: `read_at` the position, then `seek(SeekFrom::Current(size as i64))`, whose
error the `expect` turns into a panic. -/
def read (f : RegularFile) (buf : List UInt8) : Option (ℕ × List UInt8 × RegularFile) :=
  ((SeekFile.mk f.pos f.bytes.length).seek
      (.Current (isizeOfUsize (ByteFile.read f.bytes f.pos buf).1))).toOption.map fun sought =>
    ((ByteFile.read f.bytes f.pos buf).1, (ByteFile.read f.bytes f.pos buf).2,
      { f with pos := sought.1 })

/-- `TmpFile::write`: with `O_APPEND` the position moves to the end first; the whole buffer is
written at the position, which then moves past it. -/
def write (f : RegularFile) (buf : List UInt8) : ℕ × RegularFile :=
  let pos := if f.append then f.bytes.length else f.pos
  (buf.length, { f with bytes := ByteFile.write f.bytes pos buf, pos := usizeWrap (pos + buf.length) })

end RegularFile

/-- An open file as `sys_splice` and `sys_sendfile` see it: the reading (`operate`) or writing end
of a pipe, or a regular file. -/
inductive SpliceFile
  | pipe (operate : Bool) (pipe_meta : PipeMeta)
  | regular (file : RegularFile)
deriving DecidableEq, Repr

namespace SpliceFile

/-- `inode_type() == InodeMode::FIFO`. -/
def isPipe : SpliceFile → Bool
  | .pipe .. => true
  | .regular _ => false

/-- `File::readable`: a pipe's reading end; a `TmpFile` always. -/
def readable : SpliceFile → Bool
  | .pipe operate _ => operate
  | .regular _ => true

/-- `File::writable`: a pipe's writing end; a `TmpFile` always. -/
def writable : SpliceFile → Bool
  | .pipe operate _ => !operate
  | .regular _ => true

/-- `File::read`; `PipeFile::read` asserts that it is the reading end. -/
def read (file : SpliceFile) (buf : List UInt8) : Option (ℕ × List UInt8 × SpliceFile) :=
  match file with
  | .pipe operate p =>
    if operate then (p.read buf).map fun r => (r.1, r.2.1, .pipe operate r.2.2) else none
  | .regular f => (f.read buf).map fun r => (r.1, r.2.1, .regular r.2.2)

/-- `File::write`; `PipeFile::write` asserts that it is the writing end. -/
def write (file : SpliceFile) (buf : List UInt8) : Option (Except SysError (ℕ × SpliceFile)) :=
  match file with
  | .pipe operate p =>
    if !operate then (p.write buf).map fun r => r.map fun w => (w.1, .pipe operate w.2) else none
  | .regular f => some (.ok ((f.write buf).1, .regular (f.write buf).2))

/-- `File::read_at`: `ESPIPE` on a pipe; on a `TmpFile` a read of the bytes at `offset`. -/
def read_at (file : SpliceFile) (offset : ℕ) (buf : List UInt8) : Except SysError (ℕ × List UInt8) :=
  match file with
  | .pipe .. => .error .ESPIPE
  | .regular f => .ok (ByteFile.read f.bytes offset buf)

/-- `File::write_at`: `ESPIPE` on a pipe; on a `TmpFile` the whole buffer written at `offset`. -/
def write_at (file : SpliceFile) (offset : ℕ) (buf : List UInt8) : Except SysError (ℕ × SpliceFile) :=
  match file with
  | .pipe .. => .error .ESPIPE
  | .regular f => .ok (buf.length, .regular { f with bytes := ByteFile.write f.bytes offset buf })

end SpliceFile

/-- An offset pointer argument: null, a pointer `ensure_write` refuses, or a pointer to a `usize`
holding `value`. -/
inductive OffPtr
  | null
  | bad
  | points (value : ℕ)
deriving DecidableEq, Repr

/-- The read half of `sys_splice`: the bytes read, the buffer, and the input file and the value at
`in_off_ptr` after. -/
def spliceIn (in_file : SpliceFile) (in_off : OffPtr) (buf : List UInt8) :
    Option (Except SysError (ℕ × List UInt8 × SpliceFile × OffPtr)) :=
  if in_file.isPipe then
    if !in_file.readable then some (.error .EBADF)
    else if in_off ≠ .null then some (.error .ESPIPE)
    else (in_file.read buf).map fun r => .ok (r.1, r.2.1, r.2.2, in_off)
  else
    match in_off with
    | .null => (in_file.read buf).map fun r => .ok (r.1, r.2.1, r.2.2, in_off)
    | .bad => some (.error .EFAULT)
    | .points in_off =>
      if isizeOfUsize in_off < 0 then some (.error .EINVAL)
      else some ((in_file.read_at in_off buf).map fun r =>
        (r.1, r.2, in_file, .points (usizeWrap (in_off + r.1))))

/-- The write half of `sys_splice`: the output file and the value at `out_off_ptr` after, and the
result. A pipe gets the whole buffer; a regular file gets `&buf[..read_size]`. -/
def spliceOut (out_file : SpliceFile) (out_off : OffPtr) (buf : List UInt8) (read_size : ℕ) :
    Option (SpliceFile × OffPtr × Except SysError ℕ) :=
  if out_file.isPipe then
    if !out_file.writable then some (out_file, out_off, .error .EBADF)
    else if out_off ≠ .null then some (out_file, out_off, .error .ESPIPE)
    else (out_file.write buf).map fun
      | .ok w => (w.2, out_off, .ok w.1)
      | .error e => (out_file, out_off, .error e)
  else
    (buf.slice? 0 read_size).bind fun written =>
      match out_off with
      | .null => (out_file.write written).map fun
        | .ok w => (w.2, out_off, .ok w.1)
        | .error e => (out_file, out_off, .error e)
      | .bad => some (out_file, out_off, .error .EFAULT)
      | .points out_off =>
        if isizeOfUsize out_off < 0 then some (out_file, .points out_off, .error .EINVAL)
        else some (match out_file.write_at out_off written with
          | .ok w => (w.2, .points (usizeWrap (out_off + w.1)), .ok w.1)
          | .error e => (out_file, .points out_off, .error e))

/-- `sys_splice` on two open files and their offset pointers: the two files and the two values
at the pointers after, and the result. -/
def sys_splice (in_file : SpliceFile) (in_off : OffPtr) (out_file : SpliceFile) (out_off : OffPtr)
    (size : ℕ) : Option (SpliceFile × OffPtr × SpliceFile × OffPtr × Except SysError ℕ) :=
  if !in_file.isPipe && !out_file.isPipe then
    some (in_file, in_off, out_file, out_off, .error .EINVAL)
  else
    match spliceIn in_file in_off (List.replicate size 0) with
    | none => none
    | some (.error e) => some (in_file, in_off, out_file, out_off, .error e)
    | some (.ok (read_size, buf, in_file, in_off)) =>
      (spliceOut out_file out_off buf read_size).map fun w => (in_file, in_off, w.1, w.2.1, w.2.2)

/-- The read half of `sys_sendfile`: at the file position when `offset` is null, else at the
value it points to, which moves past the bytes read. -/
def sendfileIn (in_file : SpliceFile) (offset : OffPtr) (buf : List UInt8) :
    Option (Except SysError (ℕ × List UInt8 × SpliceFile × OffPtr)) :=
  match offset with
  | .null => (in_file.read buf).map fun r => .ok (r.1, r.2.1, r.2.2, offset)
  | .bad => some (.error .EFAULT)
  | .points off =>
    if isizeOfUsize off < 0 then some (.error .EINVAL)
    else some ((in_file.read_at off buf).map fun r =>
      (r.1, r.2, in_file, .points (usizeWrap (off + r.1))))

/-- `sys_sendfile` on the output and input files and the offset pointer: the two files and the
value at the pointer after, and the result. -/
def sys_sendfile (out_file in_file : SpliceFile) (offset : OffPtr) (count : ℕ) :
    Option (SpliceFile × SpliceFile × OffPtr × Except SysError ℕ) :=
  match sendfileIn in_file offset (List.replicate count 0) with
  | none => none
  | some (.error e) => some (out_file, in_file, offset, .error e)
  | some (.ok (len, buf, in_file, offset)) =>
    (buf.slice? 0 len).bind fun written =>
      (out_file.write written).map fun
        | .ok w => (w.2, in_file, offset, .ok w.1)
        | .error e => (out_file, in_file, offset, .error e)

end Chronix
