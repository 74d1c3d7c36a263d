import Mathlib
import Chronix.Model.Addr
import Chronix.ToMathlib.SortedMap

/-! # Signals and the signal manager

`signal/mod.rs`, `signal/action.rs`, `signal/handler.rs` and `signal/manager.rs`: the signal
numbers, the `SigSet` bit set over a `usize`, a signal's action, and a task's `SigManager`. The
manager keeps the pending standard signals in a queue with a bitmap that keeps the queue free of
duplicates, the pending real-time signals in one queue per number in a `BTreeMap`, the blocked
mask, the action of every signal and the signals that wake the task.

`SigSet::add_sig`, `contain_sig` and `remove_sig` compute `1 << (signo - 1)` on a `usize`. The
kernel is built in release mode, where `signo - 1` wraps and the shift amount keeps its low six
bits, so signal 0 has bit 63, the bit of signal 64. All 64 bits are named flags, so
`SigSet::from_bits` accepts that word and its `unwrap` never fails. An `assert!` that fails is
`none`.

An action's `sa_handler` is a `usize` that is either the address of one of the kernel's five
default handlers or a user address; the model keeps the two kinds apart. `sa_restorer` is read
by no modelled function and is left out.
-/

namespace Chronix

def SIGHUP : ℕ := 1
def SIGINT : ℕ := 2
def SIGQUIT : ℕ := 3
def SIGILL : ℕ := 4
def SIGTRAP : ℕ := 5
def SIGABRT : ℕ := 6
def SIGBUS : ℕ := 7
def SIGFPE : ℕ := 8
def SIGKILL : ℕ := 9
def SIGUSR1 : ℕ := 10
def SIGSEGV : ℕ := 11
def SIGUSR2 : ℕ := 12
def SIGPIPE : ℕ := 13
def SIGALRM : ℕ := 14
def SIGTERM : ℕ := 15
def SIGSTKFLT : ℕ := 16
def SIGCHLD : ℕ := 17
def SIGCONT : ℕ := 18
def SIGSTOP : ℕ := 19
def SIGTSTP : ℕ := 20
def SIGTTIN : ℕ := 21
def SIGTTOU : ℕ := 22
def SIGURG : ℕ := 23
def SIGXCPU : ℕ := 24
def SIGXFSZ : ℕ := 25
def SIGVTALRM : ℕ := 26
def SIGPROF : ℕ := 27
def SIGWINCH : ℕ := 28
def SIGIO : ℕ := 29
def SIGPWR : ℕ := 30
def SIGSYS : ℕ := 31
def SIGRTMIN : ℕ := 32
def SIGRTMAX : ℕ := 64

/-- `SigSet`: bit `signo - 1` stands for signal `signo`. -/
structure SigSet where
  bits : BitVec 64
deriving DecidableEq, Repr

namespace SigSet

def empty : SigSet := ⟨0⟩

/-- `1 << (signo - 1)` as the release build computes it. -/
def sigBit (signo : ℕ) : BitVec 64 := 1#64 <<< (usizeSub signo 1 % 64)

def add_sig (s : SigSet) (signo : ℕ) : SigSet := ⟨s.bits ||| sigBit signo⟩

def contain_sig (s : SigSet) (signo : ℕ) : Bool := s.bits &&& sigBit signo == sigBit signo

def remove_sig (s : SigSet) (signo : ℕ) : SigSet := ⟨s.bits &&& ~~~sigBit signo⟩

def is_empty (s : SigSet) : Bool := s.bits == 0

/-- `SigSet::remove`: the bits of `other` cleared. -/
def remove (s other : SigSet) : SigSet := ⟨s.bits &&& ~~~other.bits⟩

instance : AndOp SigSet := ⟨fun s t => ⟨s.bits &&& t.bits⟩⟩

instance : OrOp SigSet := ⟨fun s t => ⟨s.bits ||| t.bits⟩⟩

instance : Complement SigSet := ⟨fun s => ⟨~~~s.bits⟩⟩

/-- The flag `SigSet::SIGCHLD`. -/
def SIGCHLD : SigSet := ⟨sigBit Chronix.SIGCHLD⟩

end SigSet

/-- `SigInfo`. -/
structure SigInfo where
  si_signo : ℕ
  si_code : ℤ
  si_pid : Option ℕ
deriving DecidableEq, Repr

namespace SigInfo

def USER : ℤ := 0
def KERNEL : ℤ := 0x80
def TKILL : ℤ := -6
def CLD_EXITED : ℤ := 1

end SigInfo

/-- What `sa_handler` points at: one of the kernel's default handlers or a user handler. -/
inductive SaHandler
  | term
  | ign
  | core
  | stop
  | cont
  | user (addr : ℕ)
deriving DecidableEq, Repr

/-- `get_default_handler`, its arms grouped by the handler they return; its `assert!` on the
number holds at every call, which passes a number at most `SIGRTMAX`. -/
def get_default_handler (signo : ℕ) : SaHandler :=
  if signo ∈ [SIGQUIT, SIGILL, SIGTRAP, SIGABRT, SIGBUS, SIGFPE, SIGSEGV, SIGXCPU, SIGXFSZ,
      SIGSYS] then .core
  else if signo ∈ [SIGCHLD, SIGURG, SIGWINCH] then .ign
  else if signo = SIGCONT then .cont
  else if signo ∈ [SIGSTOP, SIGTSTP, SIGTTIN, SIGTTOU] then .stop
  else .term

/-- `SigAction`, without `sa_restorer`. -/
structure SigAction where
  sa_handler : SaHandler
  sa_flags : ℕ
  sa_mask : SigSet
deriving DecidableEq, Repr

/-- `KSigAction`. -/
structure KSigAction where
  sa : SigAction
  is_user : Bool
deriving DecidableEq, Repr

/-- `KSigAction::new`: the default handler, no flags and an empty mask. -/
def KSigAction.new (signo : ℕ) (is_user_defined : Bool) : KSigAction where
  sa := ⟨get_default_handler signo, 0, SigSet.empty⟩
  is_user := is_user_defined

/-- `SigManager`. -/
structure SigManager where
  pending_sigs : List SigInfo
  pending_rt_sigs : SortedMap ℕ (List SigInfo)
  bitmap : SigSet
  blocked_sigs : SigSet
  sig_handler : Vector KSigAction (SIGRTMAX + 1)
  wake_sigs : SigSet

namespace SigManager

/-- `SigManager::new`: nothing pending or blocked, every action the default. -/
def new : SigManager where
  pending_sigs := []
  pending_rt_sigs := .empty
  bitmap := .empty
  blocked_sigs := .empty
  sig_handler := .ofFn fun signo => KSigAction.new signo false
  wake_sigs := .empty

/-- `SigManager::from_another`: the actions of `other`, nothing pending or blocked. -/
def from_another (other : SigManager) : SigManager :=
  { new with sig_handler := other.sig_handler }

/-- `SigManager::receive`: a standard signal is queued unless its bit is already set; a
real-time signal is queued behind the others of its number. -/
def receive (m : SigManager) (signo_info : SigInfo) : Option SigManager :=
  let signo := signo_info.si_signo
  if signo < SIGRTMIN then
    if !m.bitmap.contain_sig signo then
      some { m with
        bitmap := m.bitmap.add_sig signo
        pending_sigs := m.pending_sigs ++ [signo_info] }
    else some m
  else if signo ≤ SIGRTMAX then
    some { m with
      pending_rt_sigs := m.pending_rt_sigs.insert signo
        ((m.pending_rt_sigs.get? signo).getD [] ++ [signo_info]) }
  else none

/-- The first real-time queue that is expected and not empty, in the order of the numbers. -/
def expectedRealTime (m : SigManager) (expected : SigSet) : Option (ℕ × List SigInfo) :=
  m.pending_rt_sigs.entries.find? fun entry => expected.contain_sig entry.1 && !entry.2.isEmpty

/-- `SigManager::check_pending`: the first expected pending signal, left in place. -/
def check_pending (m : SigManager) (expected : SigSet) : Option SigInfo :=
  let x := m.bitmap &&& expected
  if x.is_empty then (m.expectedRealTime expected).bind fun entry => entry.2.head?
  else m.pending_sigs.find? fun sig => x.contain_sig sig.si_signo

/-- `SigManager::check_pending_flag`. -/
def check_pending_flag (m : SigManager) (expected : SigSet) : Bool :=
  let x := m.bitmap &&& expected
  if x.is_empty then (m.expectedRealTime expected).isSome else true

/-- `SigManager::set_sigaction`: the actions of `SIGKILL` and `SIGSTOP` stay as they are. -/
def set_sigaction (m : SigManager) (signo : ℕ) (sigaction : KSigAction) : SigManager :=
  if signo = SIGSTOP ∨ signo = SIGKILL then m
  else if bound : signo ≤ SIGRTMAX then
    { m with sig_handler := m.sig_handler.set signo sigaction (by omega) }
  else m

/-- Stage one of `dequeue_one`: pop each of the `fuel` queued standard signals in turn and push
a blocked one back, until one comes out that is not blocked or is `SIGKILL` or `SIGSTOP`. The
loop runs as many rounds as the queue is long and a round keeps its length, so the empty queue
is never popped. -/
def dequeueStandard (blocked : SigSet) : ℕ → List SigInfo → Option SigInfo × List SigInfo
  | 0, queue => (none, queue)
  | _ + 1, [] => (none, [])
  | fuel + 1, sig :: rest =>
    if sig.si_signo ≠ SIGKILL ∧ sig.si_signo ≠ SIGSTOP ∧ blocked.contain_sig sig.si_signo then
      dequeueStandard blocked fuel (rest ++ [sig])
    else (some sig, rest)

/-- Stage two of `dequeue_one`: the number and front of the first real-time queue, by number,
that is not blocked and not empty; `none` where the range `assert!` on a number fails. -/
def dequeueRealTime (blocked : SigSet) : List (ℕ × List SigInfo) → Option (Option (ℕ × SigInfo))
  | [] => some none
  | (signo, queue) :: rest =>
    if SIGRTMIN ≤ signo ∧ signo ≤ SIGRTMAX then
      if blocked.contain_sig signo then dequeueRealTime blocked rest
      else match queue with
        | sig :: _ => some (some (signo, sig))
        | [] => dequeueRealTime blocked rest
    else none

/-- `SigManager::dequeue_one`: the signal to handle next, standard signals first. -/
def dequeue_one (m : SigManager) : Option (Option SigInfo × SigManager) :=
  match dequeueStandard m.blocked_sigs m.pending_sigs.length m.pending_sigs with
  | (some sig, pending) =>
    some (some sig, { m with pending_sigs := pending, bitmap := m.bitmap.remove_sig sig.si_signo })
  | (none, pending) =>
    (dequeueRealTime m.blocked_sigs m.pending_rt_sigs.entries).map fun
      | some (signo, sig) =>
        (some sig, { m with
          pending_sigs := pending
          pending_rt_sigs := m.pending_rt_sigs.modify signo List.tail })
      | none => (none, { m with pending_sigs := pending })

/-- `SigManager::dequeue_expected_one`: the first expected pending signal, taken out. Removing
the entry at the index of the first match is `eraseP` of the match. -/
def dequeue_expected_one (m : SigManager) (expected : SigSet) : Option SigInfo × SigManager :=
  let x := m.bitmap &&& expected
  if x.is_empty then
    match m.expectedRealTime expected with
    | some (signo, queue) =>
      (queue.head?, { m with pending_rt_sigs := m.pending_rt_sigs.modify signo List.tail })
    | none => (none, m)
  else
    match m.pending_sigs.find? fun sig => x.contain_sig sig.si_signo with
    | some sig =>
      (some sig, { m with
        bitmap := m.bitmap.remove_sig sig.si_signo
        pending_sigs := m.pending_sigs.eraseP fun sig => x.contain_sig sig.si_signo })
    | none => (none, m)

/-- `SigManager::reset_on_exec`: the actions of signals `1..SIGRTMAX` that do not ignore go back
to the default. -/
def reset_on_exec (m : SigManager) : SigManager :=
  { m with sig_handler := m.sig_handler.mapIdx fun signo action =>
      if 1 ≤ signo ∧ signo < SIGRTMAX ∧ action.sa.sa_handler ≠ .ign then KSigAction.new signo false
      else action }

end SigManager

end Chronix
