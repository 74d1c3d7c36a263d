import Mathlib
import Chronix.Model.SigMask
import Chronix.Model.SpinMutex

/-! # Signal frames: delivery to a user handler and `rt_sigreturn`

`run_tasks` (`task/schedule.rs`) loops over a task: it returns to user mode, and when the user
code traps it notes `a0`, handles the trap (`user_trap_handler`, `trap/mod.rs`: a system call
steps `sepc` past its `ecall`, runs and writes its result to `a0`) and runs
`check_and_handle` (`task/signal.rs`). That loop takes one pending signal a round. A kernel
handler runs and the loop goes on; for a user handler it saves the interrupted user context in a
`UContext` below `sp` (`UContext::save_current_context`, `hal/src/component/signal/riscv64`: the
registers, with `sepc` in the slot of `x0`, and the mask blocked before the handler's), records
the frame's address in the task's `sig_ucontext_ptr`, puts the signal number in `a0` (and with
`SA_SIGINFO` a `LinuxSigInfo` below the frame, its address in `a1` and the frame's in `a2`), and
enters the handler with `ra` at the trampoline that calls `rt_sigreturn`. `sys_rt_sigreturn`
(`syscall/signal.rs`) reads the frame at `sig_ucontext_ptr`, puts its mask back and restores the
registers; its result, written to `a0` on the way out, is the restored `a0`. `SA_RESTART` moves
`sepc` back onto the `ecall` of a system call a signal interrupted.

The model is one task on the riscv64 build, with a register as a `BitVec 64` (the release build
wraps). Where the frames are kept is a parameter of the task, a `FrameStore`: Chronix keeps them
in user memory, with `sig_ucontext_ptr` (`userFrames`); the soundness modules compare it with
other stores. A user run is an event: the registers at its trap, the ranges of memory it wrote,
and the result of a system call other than `rt_sigreturn`. Another task's signal arrives between
any two steps. A write of user memory that `ensure_write` refuses panics (`unwrap`); where it
succeeds is a predicate of the task. Left out: the floating-point state (`fx_encounter_signal`,
`fpstate`), `uc_stack`, what the kernel handlers and the other system calls do to the task, and
memory the kernel never wrote a frame to, which `rt_sigreturn` would read as it finds it.
-/

namespace Chronix

namespace Constant

/-- The end of `KERNEL_ADDR_SPACE`. -/
def KERNEL_ADDR_SPACE_END : ℕ := 0xffff_ffff_ffff_ffff
def KERNEL_STACK_SIZE : ℕ := 16 * 4096
def KERNEL_STACK_TOP : ℕ := KERNEL_ADDR_SPACE_END - PAGE_SIZE + 1
def KERNEL_STACK_BOTTOM : ℕ := KERNEL_STACK_TOP - KERNEL_STACK_SIZE * SpinMutex.MAX_PROCESSORS
def SIGRET_TRAMPOLINE_SIZE : ℕ := PAGE_SIZE
def SIGRET_TRAMPOLINE_TOP : ℕ := KERNEL_STACK_BOTTOM - PAGE_SIZE
def SIGRET_TRAMPOLINE_BOTTOM : ℕ := SIGRET_TRAMPOLINE_TOP - SIGRET_TRAMPOLINE_SIZE

end Constant

/-- `sigreturn_trampoline_addr()`. -/
def sigreturn_trampoline_addr : BitVec 64 := BitVec.ofNat 64 Constant.SIGRET_TRAMPOLINE_BOTTOM

/-- `size_of::<UContext>()` on riscv64: `uc_flags`, `uc_link`, the 24 bytes of `uc_stack`,
`uc_sigmask`, the 16 words of `uc_sig`, and the 32 registers and 66 words of `fpstate` of
`uc_mcontext`. -/
def UCONTEXT_SIZE : ℕ := 960

/-- `size_of::<LinuxSigInfo>()`: 32 `i32`s. -/
def LINUX_SIGINFO_SIZE : ℕ := 128

/-- `SigActionFlag::SA_SIGINFO`. -/
def SA_SIGINFO : ℕ := 4

/-- `SigActionFlag::SA_RESTART`. -/
def SA_RESTART : ℕ := 0x10000000

/-- `SYSCALL_RT_SIGRETURN`. -/
def SYSCALL_RT_SIGRETURN : BitVec 64 := 139

/-- `SYSCALL_GETPRIORITY`. -/
def SYSCALL_GETPRIORITY : BitVec 64 := 141

/-- `-(SysError::EINTR as isize)`, the result of an interrupted system call, as `a0` holds it. -/
def EINTR_RESULT : BitVec 64 := -4

/-- The user registers of the riscv64 `TrapContext`: `x[0..32]` and `sepc`. -/
structure TrapContext where
  x : Fin 32 → BitVec 64
  sepc : BitVec 64

namespace TrapContext

/-- `ra()`. -/
def RA : Fin 32 := 1
/-- `sp()`. -/
def SP : Fin 32 := 2
/-- `tp()`. -/
def TP : Fin 32 := 4
/-- `x[10]`: `arg_nth(0)` and `ret_nth(0)`. -/
def A0 : Fin 32 := 10
/-- `x[11]`: `arg_nth(1)`. -/
def A1 : Fin 32 := 11
/-- `x[12]`: `arg_nth(2)`. -/
def A2 : Fin 32 := 12
/-- `x[17]`: `syscall_id()`. -/
def A7 : Fin 32 := 17

/-- Register `i` set to `value`. -/
def setX (cx : TrapContext) (i : Fin 32) (value : BitVec 64) : TrapContext :=
  { cx with x := Function.update cx.x i value }

end TrapContext

open TrapContext

/-- The fields of `UContext` that `save_current_context` does not set to zero: `uc_sigmask` and
the registers `uc_mcontext.user_x`. -/
structure UContext where
  uc_sigmask : SigSet
  user_x : Fin 32 → BitVec 64

namespace UContext

/-- `UContext::save_current_context`: `sepc` goes in the slot of `x0`. -/
def save_current_context (old_blocked_sigs : SigSet) (cx : TrapContext) : UContext :=
  ⟨old_blocked_sigs, Function.update cx.x 0 cx.sepc⟩

/-- `UContext::restore_old_context`. -/
def restore_old_context (ucontext : UContext) (cx : TrapContext) : TrapContext :=
  { cx with sepc := ucontext.user_x 0, x := ucontext.user_x }

end UContext

/-- Where a task keeps the frames of its signal handlers: `push` writes a frame at an address
below the stack and records it, `write` is a write of `len` bytes of user memory, `read` is the
frame `rt_sigreturn` restores and `afterReturn` what it leaves. -/
structure FrameStore (σ : Type) where
  push : σ → BitVec 64 → UContext → σ
  write : σ → BitVec 64 → ℕ → σ
  read : σ → Option UContext
  afterReturn : σ → σ

/-- Whether `len` bytes at `addr` overlap the frame at `frame`. -/
def overlapsFrame (frame addr : BitVec 64) (len : ℕ) : Bool :=
  decide (addr.toNat < frame.toNat + UCONTEXT_SIZE ∧ frame.toNat < addr.toNat + len)

/-- The frames in a task's user memory, by address, and its `sig_ucontext_ptr`. -/
structure UserFrames where
  memory : BitVec 64 → Option UContext
  sig_ucontext_ptr : BitVec 64

namespace UserFrames

/-- `len` bytes written at `addr`: the frames they overlap are gone. -/
def write (s : UserFrames) (addr : BitVec 64) (len : ℕ) : UserFrames :=
  { s with memory := fun frame => if overlapsFrame frame addr len then none else s.memory frame }

/-- `dst.write(ucontext)` at `new_sp`, then `set_sig_ucontext_ptr(new_sp)`. -/
def push (s : UserFrames) (new_sp : BitVec 64) (ucontext : UContext) : UserFrames :=
  ⟨Function.update (s.write new_sp UCONTEXT_SIZE).memory new_sp (some ucontext), new_sp⟩

end UserFrames

/-- Chronix's frames: in user memory, and `rt_sigreturn` reads the one at `sig_ucontext_ptr`
and leaves the pointer where it is. -/
def userFrames : FrameStore UserFrames where
  push := UserFrames.push
  write := UserFrames.write
  read s := s.memory s.sig_ucontext_ptr
  afterReturn s := s

/-- Where the task is in `run_tasks`' loop: in user mode, or in the kernel with
`check_and_handle` to run, after a trap that did or did not interrupt a system call, with `a0`
as the trap found it. -/
inductive TaskPhase
  | user
  | kernel (is_intr : Bool) (old_a0 : BitVec 64)
deriving DecidableEq, Repr

/-- What ends a run of user code: a system call, with its result unless it is `rt_sigreturn`,
or another trap. -/
inductive TrapCause
  | syscall (result : BitVec 64)
  | other
deriving DecidableEq, Repr

/-- What happens next to the task. -/
inductive SigEvent
  /-- Another task sends it a signal. -/
  | recv (sig : SigInfo)
  /-- It runs user code, which writes the ranges `writes` of its memory and traps with the
  registers `cx`. -/
  | trap (cx : TrapContext) (writes : List (BitVec 64 × ℕ)) (cause : TrapCause)
  /-- One round of `check_and_handle`'s loop. -/
  | handle

/-- A task as its signal frames see it, with its frames kept in a store of type `σ`. -/
structure SigTask (σ : Type) where
  trap_cx : TrapContext
  sig_manager : SigManager
  phase : TaskPhase
  frames : σ
  /-- Where `ensure_write` accepts `len` bytes at `addr`. -/
  writable : BitVec 64 → ℕ → Bool

namespace SigTask

variable {σ : Type} (store : FrameStore σ)

/-- `sys_rt_sigreturn`: the task after it, and its result. -/
def sys_rt_sigreturn (t : SigTask σ) : Option (SigTask σ × BitVec 64) :=
  (store.read t.frames).map fun ucontext =>
    let cx := ucontext.restore_old_context t.trap_cx
    ({ t with
        sig_manager := { t.sig_manager with blocked_sigs := ucontext.uc_sigmask }
        trap_cx := cx
        frames := store.afterReturn t.frames }, cx.x A0)

/-- `user_trap_handler` for a trap with the registers `cx`, then into `check_and_handle`. -/
def user_trap_handler (t : SigTask σ) (cx : TrapContext) : TrapCause → Option (SigTask σ)
  | .other => some { t with trap_cx := cx, phase := .kernel false (cx.x A0) }
  | .syscall result =>
    let syscall_id := cx.x A7
    let t := { t with trap_cx := { cx with sepc := cx.sepc + 4 } }
    let returned := if syscall_id = SYSCALL_RT_SIGRETURN then t.sys_rt_sigreturn store
      else some (t, result)
    returned.map fun (t, result) =>
      { t with
        trap_cx := t.trap_cx.setX A0 result
        phase := .kernel (result == EINTR_RESULT && syscall_id != SYSCALL_GETPRIORITY) (cx.x A0) }

/-- `SA_RESTART` on a system call the signal interrupted: `sepc` back on its `ecall` and `a0` as
the trap found it. -/
def restart (sig_action : KSigAction) (cx : TrapContext) (is_intr : Bool) (old_a0 : BitVec 64) :
    TrapContext × Bool :=
  if sig_action.sa.sa_flags &&& SA_RESTART ≠ 0 ∧ is_intr = true then
    ({ cx with sepc := cx.sepc - 4 }.setX A0 old_a0, false)
  else (cx, is_intr)

/-- With `SA_SIGINFO`: `a2` at the frame, and a `LinuxSigInfo` below it, its address in `a1`.
The frames, the registers and the stack pointer after it. -/
def pushSigInfo (t : SigTask σ) (frames : σ) (cx : TrapContext) (new_sp : BitVec 64) :
    Option (σ × TrapContext × BitVec 64) :=
  let cx := cx.setX A2 new_sp
  let new_sp := new_sp - BitVec.ofNat 64 LINUX_SIGINFO_SIZE
  if t.writable new_sp LINUX_SIGINFO_SIZE then
    some (store.write frames new_sp LINUX_SIGINFO_SIZE, cx.setX A1 new_sp, new_sp)
  else none

/-- The user branch of `check_and_handle` for `sig`, whose handler is at `entry`, from the
registers `cx`: the frame below `sp`, then the handler's registers. -/
def pushFrame (t : SigTask σ) (sig : SigInfo) (sig_action : KSigAction) (entry : BitVec 64)
    (old_blocked_sigs : SigSet) (cx : TrapContext) : Option (SigTask σ) :=
  let new_sp := cx.x SP - BitVec.ofNat 64 UCONTEXT_SIZE
  let ucontext := UContext.save_current_context old_blocked_sigs cx
  if t.writable new_sp UCONTEXT_SIZE then
    let frames := store.push t.frames new_sp ucontext
    let cx := cx.setX A0 (BitVec.ofNat 64 sig.si_signo)
    let placed := if sig_action.sa.sa_flags &&& SA_SIGINFO ≠ 0 then t.pushSigInfo store frames cx new_sp
      else some (frames, cx, new_sp)
    placed.map fun (frames, cx, new_sp) =>
      { t with
        trap_cx := ((({ cx with sepc := entry }.setX SP new_sp).setX RA
          sigreturn_trampoline_addr).setX TP (ucontext.user_x TP))
        frames
        phase := .user }
  else none

/-- One round of `check_and_handle`'s loop. The mask side is `SigManager.handleRound`; a kernel
handler runs and the loop goes on, a user handler gets its frame and the task returns to it. Only
`sys_rt_sigaction` makes an action a user one, and with a user handler. -/
def check_and_handle_round (t : SigTask σ) (is_intr : Bool) (old_a0 : BitVec 64) :
    Option (SigTask σ) := do
  let (round, m) ← t.sig_manager.handleRound
  let t := { t with sig_manager := m }
  match round with
  | .done => some { t with phase := .user }
  | .kernel sig =>
    let sig_action ← m.sig_handler[sig.si_signo]?
    let (cx, is_intr) := restart sig_action t.trap_cx is_intr old_a0
    some { t with trap_cx := cx, phase := .kernel is_intr old_a0 }
  | .frame sig old_blocked_sigs =>
    let sig_action ← m.sig_handler[sig.si_signo]?
    match sig_action.sa.sa_handler with
    | .user entry =>
      t.pushFrame store sig sig_action (BitVec.ofNat 64 entry) old_blocked_sigs
        (restart sig_action t.trap_cx is_intr old_a0).1
    | _ => none

/-- The writes of a run of user code, in order. -/
def writeAll (frames : σ) (writes : List (BitVec 64 × ℕ)) : σ :=
  writes.foldl (fun frames w => store.write frames w.1 w.2) frames

/-- One step of the task. An event the task is in no position for changes nothing. -/
def step (t : SigTask σ) : SigEvent → Option (SigTask σ)
  | .recv sig => (t.sig_manager.receive sig).map fun m => { t with sig_manager := m }
  | .trap cx writes cause =>
    match t.phase with
    | .user => { t with frames := writeAll store t.frames writes }.user_trap_handler store cx cause
    | .kernel .. => some t
  | .handle =>
    match t.phase with
    | .kernel is_intr old_a0 => t.check_and_handle_round store is_intr old_a0
    | .user => some t

/-- A run of events, in order. -/
def run (t : SigTask σ) (events : List SigEvent) : Option (SigTask σ) :=
  events.foldlM (step store) t

end SigTask

end Chronix
