import Chronix.ToMathlib.SortedMap
import Chronix.ToMathlib.Slice
import Chronix.ToMathlib.BoundedFifo
import Chronix.ToMathlib.Reachable
import Chronix.ToMathlib.Deque
import Chronix.ToMathlib.LinkedStack
import Chronix.ToMathlib.Str
import Chronix.ToMathlib.Bits
import Chronix.ToMathlib.Duration
import Chronix.ToMathlib.Bytes
import Chronix.ToMathlib.Blocks
import Chronix.Model.SysError
import Chronix.Model.RangeMap
import Chronix.Model.SegmentTree
import Chronix.Model.Futex
import Chronix.Model.Addr
import Chronix.Model.UserStack
import Chronix.Model.PageTable
import Chronix.Model.UserVmArea
import Chronix.Model.UserVmSpace
import Chronix.Model.UserPtr
import Chronix.Model.SysFutex
import Chronix.Model.Time
import Chronix.Model.FutexOps
import Chronix.Model.Mm
import Chronix.Model.Shm
import Chronix.Model.Crypto
import Chronix.Model.SlabAllocator
import Chronix.Model.RingBuffer
import Chronix.Model.ByteFile
import Chronix.Model.PageCache
import Chronix.Model.TmpInode
import Chronix.Model.Ext4Inode
import Chronix.Model.FileSeek
import Chronix.Model.FdTable
import Chronix.Model.Signal
import Chronix.Model.Task
import Chronix.Model.Process
import Chronix.Model.SigMask
import Chronix.Model.Select
import Chronix.Model.Pipe
import Chronix.Model.Dentry
import Chronix.Model.SpinRwMutex
import Chronix.Model.SpinMutex
import Chronix.Model.SigFrame
import Chronix.Model.BlockDisk
import Chronix.Model.SocketPair
import Chronix.Model.Schedule
import Chronix.Model.TimeRecorder
import Chronix.Model.TimeSyscalls
import Chronix.Model.Getdents
import Chronix.Model.Splice
import Chronix.Model.PipeFs
import Chronix.Model.Timer
import Chronix.Soundness.RangeMap
import Chronix.Soundness.RangeMapQueries
import Chronix.Soundness.SegmentTree
import Chronix.Soundness.Futex
import Chronix.Soundness.UserStack
import Chronix.Soundness.UserVmSpace
import Chronix.Soundness.UserVmArea
import Chronix.Soundness.PageTable
import Chronix.Soundness.PageTableEntry
import Chronix.Soundness.SlabAllocator
import Chronix.Soundness.SlabSizing
import Chronix.Soundness.RingBuffer
import Chronix.Soundness.TmpInode
import Chronix.Soundness.Ext4Inode
import Chronix.Soundness.FileSeek
import Chronix.Soundness.FdTable
import Chronix.Soundness.Signal
import Chronix.Soundness.Process
import Chronix.Soundness.Tid
import Chronix.Soundness.TaskView
import Chronix.Soundness.Pipe
import Chronix.Soundness.Dentry
import Chronix.Soundness.SpinRwMutex
import Chronix.Soundness.SpinMutex
import Chronix.Soundness.Mm
import Chronix.Soundness.Protection
import Chronix.Soundness.UserPtr
import Chronix.Soundness.SysFutex
import Chronix.Soundness.FutexOps
import Chronix.Soundness.SigMask
import Chronix.Soundness.Select
import Chronix.Soundness.Shm
import Chronix.Soundness.Crypto
import Chronix.Soundness.Schedule
import Chronix.Soundness.TimeRecorder
import Chronix.Soundness.TimeSyscalls
import Chronix.Soundness.Getdents
import Chronix.Soundness.Splice
import Chronix.Soundness.PipeFs
import Chronix.Soundness.Timer
import Chronix.Soundness.SigFrame
import Chronix.Soundness.BlockDisk
import Chronix.Soundness.SocketPair
import Chronix.Model.Serial
import Chronix.Soundness.Serial
