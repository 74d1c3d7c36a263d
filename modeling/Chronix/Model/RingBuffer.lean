import Mathlib
import Chronix.Model.Addr
import Chronix.ToMathlib.Slice

/-! # The byte ring buffer

`utils/ring_buffer.rs`: a backing `Vec<u8>` of fixed length, a head and a tail index and a
state that says whether `head == tail` means empty or full. `read` copies into the caller's
buffer, which the model takes and returns; `write` copies from it. A slice range that does not
fit, a `copy_from_slice` of the wrong length, an index past the end and a remainder by zero
panic, and the model returns `none` there.

The index arithmetic is in ℕ. On every state that `new` and the four operations reach, head and
tail stay below the length of the array and every subtraction below has its larger operand
first, so no `usize` operation of the code wraps (the soundness module proves this of every
run).
-/

namespace Chronix

/-- `RingBufferState`. -/
inductive RingBufferState
  | EMPTY
  | FULL
  | NORMAL
deriving DecidableEq, Repr

/-- `RingBuffer`. -/
structure RingBuffer where
  arr : List UInt8
  head : ℕ
  tail : ℕ
  state : RingBufferState
deriving DecidableEq, Repr

namespace RingBuffer

/-- `RingBuffer::new`: `len` zero bytes, empty. -/
def new (len : ℕ) : RingBuffer where
  arr := List.replicate len 0
  head := 0
  tail := 0
  state := .EMPTY

def isEmpty (rb : RingBuffer) : Bool := rb.state = .EMPTY

def isFull (rb : RingBuffer) : Bool := rb.state = .FULL

/-- The copy of `read` when the bytes to read do not wrap: `buf[..ret_len]` gets
`arr[head..head + ret_len]`. -/
def readStraight (rb : RingBuffer) (buf : List UInt8) (retLen : ℕ) : Option (List UInt8) := do
  let src ← rb.arr.slice? rb.head (rb.head + retLen)
  buf.copyFromSlice? 0 retLen src

/-- `RingBuffer::read`: the number of bytes read, the caller's buffer with them at its front,
and the buffer after the read. -/
def read (rb : RingBuffer) (buf : List UInt8) : Option (ℕ × List UInt8 × RingBuffer) :=
  if rb.state = .EMPTY ∨ buf = [] then some (0, buf, rb) else do
  let n := rb.arr.length
  let (retLen, buf) ← if rb.head < rb.tail then do
      let retLen := min (rb.tail - rb.head) buf.length
      let buf ← rb.readStraight buf retLen
      pure (retLen, buf)
    else do
      -- also handles full
      let retLen := min (n - rb.head + rb.tail) buf.length
      if retLen ≤ n - rb.head then do
        let buf ← rb.readStraight buf retLen
        pure (retLen, buf)
      else do
        let rightLen := n - rb.head
        let right ← rb.arr.slice? rb.head n
        let buf ← buf.copyFromSlice? 0 rightLen right
        let left ← rb.arr.slice? 0 (retLen - rightLen)
        let buf ← buf.copyFromSlice? rightLen retLen left
        pure (retLen, buf)
  let head ← usizeRem? (rb.head + retLen) n
  pure (retLen, buf, { rb with head, state := if head = rb.tail then .EMPTY else .NORMAL })

/-- The copy of `write` when the bytes to write do not wrap: `arr[tail..tail + ret_len]` gets
`buf[..ret_len]`. -/
def writeStraight (rb : RingBuffer) (buf : List UInt8) (retLen : ℕ) : Option (List UInt8) := do
  let src ← buf.slice? 0 retLen
  rb.arr.copyFromSlice? rb.tail (rb.tail + retLen) src

/-- `RingBuffer::write`: the number of bytes written and the buffer after the write. -/
def write (rb : RingBuffer) (buf : List UInt8) : Option (ℕ × RingBuffer) :=
  if rb.state = .FULL ∨ buf = [] then some (0, rb) else do
  let n := rb.arr.length
  let (retLen, arr) ← if rb.head ≤ rb.tail then do
      -- also handles empty
      let retLen := min (n - (rb.tail - rb.head)) buf.length
      if retLen ≤ n - rb.tail then do
        let arr ← rb.writeStraight buf retLen
        pure (retLen, arr)
      else do
        let right ← buf.slice? 0 (n - rb.tail)
        let arr ← rb.arr.copyFromSlice? rb.tail n right
        let left ← buf.slice? (n - rb.tail) retLen
        let arr ← arr.copyFromSlice? 0 (retLen - (n - rb.tail)) left
        pure (retLen, arr)
    else do
      let retLen := min (rb.head - rb.tail) buf.length
      let arr ← rb.writeStraight buf retLen
      pure (retLen, arr)
  let tail ← usizeRem? (rb.tail + retLen) n
  pure (retLen, { rb with arr, tail, state := if rb.head = tail then .FULL else .NORMAL })

/-- `RingBuffer::dequeue`: the front byte, `none` when empty. -/
def dequeue (rb : RingBuffer) : Option (Option UInt8 × RingBuffer) :=
  if rb.isEmpty then some (none, rb) else do
  let n := rb.arr.length
  let c ← rb.arr[rb.head]?
  let head ← usizeRem? (rb.head + 1) n
  pure (some c, { rb with head, state := if head = rb.tail then .EMPTY else .NORMAL })

/-- `RingBuffer::enqueue`: `Some(())` once the byte is stored, `None` when full. -/
def enqueue (rb : RingBuffer) (byte : UInt8) : Option (Option Unit × RingBuffer) :=
  if rb.isFull then some (none, rb) else do
  let n := rb.arr.length
  let arr ← rb.arr.set? rb.tail byte
  let tail ← usizeRem? (rb.tail + 1) n
  pure (some (), { rb with arr, tail, state := if rb.head = tail then .FULL else .NORMAL })

end RingBuffer

end Chronix
