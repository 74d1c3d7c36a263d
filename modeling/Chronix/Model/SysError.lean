import Mathlib

/-! # System call errors

`SysError` (`os/src/syscall/sys_error.rs`) lists the Linux error numbers. The model keeps the
variants that the modelled system calls return; a `SysResult` is `Except SysError`, with the
count or address of a success as a natural number.
-/

namespace Chronix

/-- `SysError`, restricted to the variants the modelled code returns. -/
inductive SysError
  /-- Invalid argument -/
  | EINVAL
  /-- Out of memory -/
  | ENOMEM
  /-- Bad address -/
  | EFAULT
  /-- Bad file number -/
  | EBADF
  /-- No such file or directory -/
  | ENOENT
  /-- Exec format error -/
  | ENOEXEC
  /-- Too many open files -/
  | EMFILE
  /-- No such process -/
  | ESRCH
  /-- No child processes -/
  | ECHILD
  /-- Interrupted system call -/
  | EINTR
  /-- Try again -/
  | EAGAIN
  /-- Connection timed out -/
  | ETIMEOUT
  /-- File exists -/
  | EEXIST
  /-- Not a directory -/
  | ENOTDIR
  /-- Unsupported -/
  | EOPNOTSUPP
  /-- Illegal seek -/
  | ESPIPE
  /-- Broken pipe -/
  | EPIPE
deriving DecidableEq, Repr

end Chronix
