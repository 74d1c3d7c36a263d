import Mathlib
import Chronix.Model.SigFrame
import Chronix.ToMathlib.Reachable

/-! # What `rt_sigreturn` restores

POSIX nests signal handlers: a handler interrupted by another signal resumes when the inner one
returns, and its own `rt_sigreturn` returns to what it interrupted. `frameStack` is that store:
a stack of frames that user code leaves alone, and `rt_sigreturn` returns from the newest one and
drops it. Chronix finds the frame through `sig_ucontext_ptr`, which only a delivery sets: its
store behaves as `newestFrame`, which holds the frame pushed last for as long as user code does
not write over it, and which `rt_sigreturn` leaves in place.

The task's step is the same code over any store, so two stores are compared once, operation by
operation (`FrameStore.Follows`), and the comparison carries over to every run of the task
(`Follows.step`, then `Run.simulate`). Chronix's store follows `newestFrame` with no condition
(`userFrames_follows_newestFrame`): every `rt_sigreturn` restores the last frame delivered,
whatever returned since (`sigreturn_restores_newest_frame`). It follows `frameStack` while at
most one frame is outstanding at each `rt_sigreturn` and user code does not write over the
newest frame (`userFrames_follows_frameStack`): on such runs Chronix does what POSIX does
(`sigreturn_agrees_with_frame_stack`). With two handlers nested the inner frame is restored twice
and what the outer handler interrupted never is (`nested_handlers_return_twice_to_inner`).
-/

namespace Chronix

open TrapContext

/-! ## Two stores of frames -/

/-- The frame pushed last, with its address, gone once user code writes over it.
`rt_sigreturn` restores it and leaves it. -/
def newestFrame : FrameStore (Option (BitVec 64 × UContext)) where
  push _ addr ucontext := some (addr, ucontext)
  write s addr len := s.filter fun frame => !overlapsFrame frame.1 addr len
  read s := s.map Prod.snd
  afterReturn s := s

/-- The frames of the handlers as they nest, newest first, with their addresses; user code
leaves them alone, and `rt_sigreturn` returns from the newest and drops it. -/
def frameStack : FrameStore (List (BitVec 64 × UContext)) where
  push s addr ucontext := (addr, ucontext) :: s
  write s _ _ := s
  read s := s.head?.map Prod.snd
  afterReturn s := s.tail

/-- The frame `sig_ucontext_ptr` names, with its address, while user memory still holds it. -/
def UserFrames.newest (s : UserFrames) : Option (BitVec 64 × UContext) :=
  (s.memory s.sig_ucontext_ptr).map fun ucontext => (s.sig_ucontext_ptr, ucontext)

/-! ## Comparing two stores -/

section Follows

variable {σ τ : Type}

/-- Store `T` follows store `S` through `R` on their frames: every push, every write `writeOk`
allows and every return `returnOk` allows keeps `R`, `T` restores what `S` restores, and the
`LinuxSigInfo` below a new frame is a write `writeOk` allows. -/
structure FrameStore.Follows (S : FrameStore σ) (T : FrameStore τ) (R : σ → τ → Prop)
    (writeOk : σ → BitVec 64 → ℕ → Prop) (returnOk : σ → Prop) : Prop where
  push : ∀ {s t} addr ucontext, R s t → R (S.push s addr ucontext) (T.push t addr ucontext)
  write : ∀ {s t addr len}, R s t → writeOk s addr len → R (S.write s addr len) (T.write t addr len)
  read : ∀ {s t ucontext}, R s t → S.read s = some ucontext → T.read t = some ucontext
  afterReturn : ∀ {s t}, R s t → returnOk s → R (S.afterReturn s) (T.afterReturn t)
  sigInfo : ∀ s addr ucontext, writeOk (S.push s addr ucontext)
    (addr - BitVec.ofNat 64 LINUX_SIGINFO_SIZE) LINUX_SIGINFO_SIZE

namespace SigTask

/-- Two tasks that agree but for their frames, which `R` relates. -/
structure Agree (R : σ → τ → Prop) (a : SigTask σ) (b : SigTask τ) : Prop where
  trap_cx : a.trap_cx = b.trap_cx
  sig_manager : a.sig_manager = b.sig_manager
  phase : a.phase = b.phase
  writable : a.writable = b.writable
  frames : R a.frames b.frames

/-- The writes of a run of user code, each allowed where it is made. -/
def WritesOk (S : FrameStore σ) (writeOk : σ → BitVec 64 → ℕ → Prop) :
    σ → List (BitVec 64 × ℕ) → Prop
  | _, [] => True
  | s, w :: writes => writeOk s w.1 w.2 ∧ WritesOk S writeOk (S.write s w.1 w.2) writes

/-- An event whose writes of user memory `writeOk` allows, and whose `rt_sigreturn`, if it
makes one, `returnOk` allows. -/
def StepOk (S : FrameStore σ) (writeOk : σ → BitVec 64 → ℕ → Prop) (returnOk : σ → Prop)
    (t : SigTask σ) : SigEvent → Prop
  | .trap cx writes cause => t.phase = .user → WritesOk S writeOk t.frames writes ∧
      (cause ≠ .other → cx.x A7 = SYSCALL_RT_SIGRETURN → returnOk (writeAll S t.frames writes))
  | _ => True

end SigTask

namespace FrameStore.Follows

open SigTask

variable {S : FrameStore σ} {T : FrameStore τ} {R : σ → τ → Prop}
  {writeOk : σ → BitVec 64 → ℕ → Prop} {returnOk : σ → Prop}
  (follows : S.Follows T R writeOk returnOk) {a : SigTask σ} {b : SigTask τ}

include follows

theorem writeAll {s : σ} {t : τ} (related : R s t) {writes : List (BitVec 64 × ℕ)}
    (ok : WritesOk S writeOk s writes) : R (writeAll S s writes) (writeAll T t writes) := by
  induction writes generalizing s t with
  | nil => exact related
  | cons w writes ih => exact ih (follows.write related ok.1) ok.2

theorem sys_rt_sigreturn (agree : Agree R a b) (ok : returnOk a.frames) {a' : SigTask σ}
    {result : BitVec 64} (returned : a.sys_rt_sigreturn S = some (a', result)) :
    ∃ b', b.sys_rt_sigreturn T = some (b', result) ∧ Agree R a' b' := by
  obtain ⟨ucontext, read, restored⟩ := Option.map_eq_some_iff.mp returned
  simp only [Prod.mk.injEq] at restored
  obtain ⟨rfl, rfl⟩ := restored
  refine ⟨_, by rw [SigTask.sys_rt_sigreturn, follows.read agree.frames read]; rfl, ?_⟩
  exact ⟨by rw [agree.trap_cx], by rw [agree.sig_manager], agree.phase, agree.writable,
    follows.afterReturn agree.frames ok⟩

theorem user_trap_handler (agree : Agree R a b) {cx : TrapContext} {cause : TrapCause}
    (ok : cause ≠ .other → cx.x A7 = SYSCALL_RT_SIGRETURN → returnOk a.frames)
    {a' : SigTask σ} (handled : a.user_trap_handler S cx cause = some a') :
    ∃ b', b.user_trap_handler T cx cause = some b' ∧ Agree R a' b' := by
  cases cause with
  | other =>
    cases handled
    exact ⟨_, rfl, rfl, agree.sig_manager, rfl, agree.writable, agree.frames⟩
  | syscall result =>
    -- the `ecall` is stepped past before the call runs
    have stepped : Agree R { a with trap_cx := { cx with sepc := cx.sepc + 4 } }
        { b with trap_cx := { cx with sepc := cx.sepc + 4 } } :=
      ⟨rfl, agree.sig_manager, agree.phase, agree.writable, agree.frames⟩
    simp only [SigTask.user_trap_handler] at handled ⊢
    split_ifs at handled ⊢ with sigreturn
    · obtain ⟨⟨returned, value⟩, ran, rfl⟩ := Option.map_eq_some_iff.mp handled
      obtain ⟨b', ranOther, agree'⟩ := follows.sys_rt_sigreturn stepped (ok nofun sigreturn) ran
      rw [ranOther]
      exact ⟨_, rfl, by rw [agree'.trap_cx], agree'.sig_manager, rfl, agree'.writable,
        agree'.frames⟩
    · cases handled
      exact ⟨_, rfl, rfl, agree.sig_manager, rfl, agree.writable, agree.frames⟩

theorem pushFrame (agree : Agree R a b) {sig : SigInfo} {sig_action : KSigAction}
    {entry : BitVec 64} {old_blocked_sigs : SigSet} {cx : TrapContext} {a' : SigTask σ}
    (pushed : a.pushFrame S sig sig_action entry old_blocked_sigs cx = some a') :
    ∃ b', b.pushFrame T sig sig_action entry old_blocked_sigs cx = some b' ∧ Agree R a' b' := by
  have framed := follows.push (cx.x SP - BitVec.ofNat 64 UCONTEXT_SIZE)
    (UContext.save_current_context old_blocked_sigs cx) agree.frames
  simp only [SigTask.pushFrame, SigTask.pushSigInfo, ← agree.writable] at pushed ⊢
  split_ifs at pushed ⊢ with room info infoRoom
  · -- `SA_SIGINFO`: the `LinuxSigInfo` is written below the new frame
    cases pushed
    exact ⟨_, rfl, rfl, agree.sig_manager, rfl, rfl, follows.write framed (follows.sigInfo _ _ _)⟩
  · cases pushed
  · cases pushed
    exact ⟨_, rfl, rfl, agree.sig_manager, rfl, rfl, framed⟩

theorem check_and_handle_round (agree : Agree R a b) {is_intr : Bool} {old_a0 : BitVec 64}
    {a' : SigTask σ} (handled : a.check_and_handle_round S is_intr old_a0 = some a') :
    ∃ b', b.check_and_handle_round T is_intr old_a0 = some b' ∧ Agree R a' b' := by
  simp only [SigTask.check_and_handle_round, ← agree.sig_manager, ← agree.trap_cx,
    Option.bind_eq_bind] at handled ⊢
  obtain ⟨⟨round, m⟩, rounded, handled⟩ := Option.bind_eq_some_iff.mp handled
  simp only [rounded, Option.bind_some]
  -- the manager after the round is the same for both
  have agreed : Agree R { a with sig_manager := m } { b with sig_manager := m } :=
    ⟨agree.trap_cx, rfl, agree.phase, agree.writable, agree.frames⟩
  cases round with
  | done =>
    cases handled
    exact ⟨_, rfl, rfl, rfl, rfl, agree.writable, agree.frames⟩
  | kernel sig =>
    obtain ⟨sig_action, found, handled⟩ := Option.bind_eq_some_iff.mp handled
    cases handled
    -- the kernel handler runs, after `SA_RESTART` on the registers both share
    let restarted := restart sig_action a.trap_cx is_intr old_a0
    exact ⟨{ b with trap_cx := restarted.1, sig_manager := m, phase := .kernel restarted.2 old_a0 },
      by simp [found, restarted], rfl, rfl, rfl, agree.writable, agree.frames⟩
  | frame sig old_blocked_sigs =>
    obtain ⟨sig_action, found, handled⟩ := Option.bind_eq_some_iff.mp handled
    simp only [found, Option.bind_some]
    split at handled
    · exact follows.pushFrame agreed handled
    · cases handled

theorem step (agree : Agree R a b) {event : SigEvent} (ok : StepOk S writeOk returnOk a event)
    {a' : SigTask σ} (stepped : a.step S event = some a') :
    ∃ b', b.step T event = some b' ∧ Agree R a' b' := by
  cases event with
  | recv sig =>
    obtain ⟨m, received, rfl⟩ := Option.map_eq_some_iff.mp stepped
    refine ⟨{ b with sig_manager := m }, ?_, agree.trap_cx, rfl, agree.phase, agree.writable,
      agree.frames⟩
    simp [SigTask.step, ← agree.sig_manager, received]
  | trap cx writes cause =>
    have other : b.phase = a.phase := agree.phase.symm
    cases phase : a.phase with
    | user =>
      simp only [SigTask.step, phase, other] at stepped ⊢
      obtain ⟨written, returning⟩ := ok phase
      -- the writes of the user run, then the trap
      have agreed : Agree R { a with frames := SigTask.writeAll S a.frames writes, phase := .user }
          { b with frames := SigTask.writeAll T b.frames writes, phase := .user } :=
        ⟨agree.trap_cx, agree.sig_manager, rfl, agree.writable,
          follows.writeAll agree.frames written⟩
      exact follows.user_trap_handler agreed returning stepped
    | kernel is_intr old_a0 =>
      simp only [SigTask.step, phase, other, Option.some.injEq] at stepped ⊢
      exact ⟨_, rfl, stepped ▸ agree⟩
  | handle =>
    have other : b.phase = a.phase := agree.phase.symm
    cases phase : a.phase with
    | user =>
      simp only [SigTask.step, phase, other, Option.some.injEq] at stepped ⊢
      exact ⟨_, rfl, stepped ▸ agree⟩
    | kernel is_intr old_a0 =>
      simp only [SigTask.step, phase, other] at stepped ⊢
      exact follows.check_and_handle_round agree stepped

/-- The comparison carries over to every run whose events it allows. -/
theorem run {events : List SigEvent} {a' : SigTask σ}
    (ran : Run (SigTask.step S) (StepOk S writeOk returnOk) a events a') (agree : Agree R a b) :
    ∃ b', b.run T events = some b' ∧ Agree R a' b' := by
  unfold SigTask.run
  refine Run.simulate ?_ ran agree
  intro _ _ _ _ agreed ok stepped
  exact follows.step agreed ok stepped

end FrameStore.Follows

namespace SigTask

/-- The task with its frames mapped by `f`. -/
def mapFrames (f : σ → τ) (t : SigTask σ) : SigTask τ :=
  ⟨t.trap_cx, t.sig_manager, t.phase, f t.frames, t.writable⟩

/-- Two tasks agree through the graph of `f` exactly when one is the other mapped by `f`. -/
theorem agree_graph_iff {f : σ → τ} {a : SigTask σ} {b : SigTask τ} :
    Agree (fun s t => t = f s) a b ↔ b = a.mapFrames f := by
  constructor
  · rintro ⟨trap_cx, sig_manager, phase, writable, frames⟩
    rw [mapFrames, trap_cx, sig_manager, phase, writable, ← frames]
  · rintro rfl
    exact ⟨rfl, rfl, rfl, rfl, rfl⟩

/-- With no condition on writes and returns, every event is allowed. -/
theorem stepOk_trivial (S : FrameStore σ) (t : SigTask σ) (event : SigEvent) :
    StepOk S (fun _ _ _ => True) (fun _ => True) t event := by
  have written : ∀ (s : σ) writes, WritesOk S (fun _ _ _ => True) s writes := by
    intro s writes
    induction writes generalizing s with
    | nil => trivial
    | cons w writes ih => exact ⟨trivial, ih _⟩
  cases event with
  | trap cx writes cause => exact fun _ => ⟨written _ writes, fun _ _ => trivial⟩
  | recv sig => trivial
  | handle => trivial

end SigTask

end Follows

/-! ## Chronix's frames -/

namespace UserFrames

theorem newest_push (s : UserFrames) (addr : BitVec 64) (ucontext : UContext) :
    (s.push addr ucontext).newest = some (addr, ucontext) := by
  simp [newest, push]

theorem newest_write (s : UserFrames) (addr : BitVec 64) (len : ℕ) :
    (s.write addr len).newest = s.newest.filter fun frame => !overlapsFrame frame.1 addr len := by
  unfold newest write
  cases found : s.memory s.sig_ucontext_ptr with
  | none => simp [found]
  | some ucontext =>
    -- the frame survives exactly the writes that miss it
    by_cases overlapping : overlapsFrame s.sig_ucontext_ptr addr len
    · simp [overlapping, Option.filter_some]
    · simp [found, overlapping, Option.filter_some]

theorem read_eq_of_newest {s : UserFrames} {addr : BitVec 64} {ucontext : UContext}
    (newest : s.newest = some (addr, ucontext)) : userFrames.read s = some ucontext := by
  unfold UserFrames.newest at newest
  cases found : s.memory s.sig_ucontext_ptr with
  | none => simp [found] at newest
  | some restored =>
    simp only [found, Option.map_some, Option.some.injEq, Prod.mk.injEq] at newest
    rw [← newest.2]
    exact found

end UserFrames

/-- The `LinuxSigInfo` below a frame does not overlap it. -/
theorem overlapsFrame_below (frame : BitVec 64) :
    overlapsFrame frame (frame - BitVec.ofNat 64 LINUX_SIGINFO_SIZE) LINUX_SIGINFO_SIZE = false := by
  have bound := frame.isLt
  simp only [overlapsFrame, decide_eq_false_iff_not, BitVec.toNat_sub, LINUX_SIGINFO_SIZE,
    UCONTEXT_SIZE, BitVec.toNat_ofNat]
  omega

/-- Chronix's frames follow the newest frame with no condition: a push is the newest frame, a
write over it drops it, and `rt_sigreturn` reads it and leaves it. -/
theorem userFrames_follows_newestFrame :
    userFrames.Follows newestFrame (fun s t => t = s.newest) (fun _ _ _ => True) (fun _ => True) where
  push addr ucontext related := by
    rw [related]
    exact (UserFrames.newest_push _ addr ucontext).symm
  write related _ := by
    rw [related]
    exact (UserFrames.newest_write _ _ _).symm
  read related read := by
    rw [related]
    simpa [newestFrame, userFrames, UserFrames.newest] using read
  afterReturn related _ := related
  sigInfo _ _ _ := trivial

/-- Every run of Chronix's task is a run of the newest-frame store from the same task, with the
frame `sig_ucontext_ptr` names in place of the memory: whatever handlers returned since, an
`rt_sigreturn` restores the frame delivered last, unless user code wrote over it. -/
theorem sigreturn_restores_newest_frame {c c' : SigTask UserFrames} {events : List SigEvent}
    (ran : c.run userFrames events = some c') :
    (c.mapFrames UserFrames.newest).run newestFrame events = some (c'.mapFrames UserFrames.newest) := by
  have allowed := Run.of_foldlM (SigTask.stepOk_trivial userFrames) ran
  obtain ⟨n', ranNewest, agree⟩ :=
    userFrames_follows_newestFrame.run allowed (SigTask.agree_graph_iff.mpr rfl)
  rw [ranNewest, SigTask.agree_graph_iff.mp agree]

/-- A user handler at `entry`, with no flags and an empty mask, as `sys_rt_sigaction` sets it. -/
def handlerAt (entry : ℕ) : KSigAction := ⟨⟨.user entry, 0, .empty⟩, true⟩

/-- A task in user code at `0x1000` with its stack at `0x8000`, `SIGUSR1` handled at `0x2000`,
`SIGUSR2` at `0x3000`, and all of user memory writable. -/
def handlerTask {σ : Type} (frames : σ) : SigTask σ where
  trap_cx := ⟨Function.update 0 SP 0x8000, 0x1000⟩
  sig_manager := (SigManager.new.set_sigaction SIGUSR1 (handlerAt 0x2000)).set_sigaction SIGUSR2
    (handlerAt 0x3000)
  phase := .user
  frames
  writable _ _ := true

/-- A handler returns through the trampoline's `ecall` of `rt_sigreturn`. -/
def returnTrap : SigEvent :=
  .trap ⟨Function.update 0 A7 SYSCALL_RT_SIGRETURN, sigreturn_trampoline_addr⟩ [] (.syscall 0)

/-- `SIGUSR1` is delivered at `0x1000`; its handler is interrupted at `0x2004` by `SIGUSR2`; then
both handlers return. -/
def nestedRun : List SigEvent :=
  [.recv ⟨SIGUSR1, SigInfo.USER, none⟩, .trap ⟨Function.update 0 SP 0x8000, 0x1000⟩ [] .other,
    .handle, .recv ⟨SIGUSR2, SigInfo.USER, none⟩,
    .trap ⟨Function.update 0 SP 0x7c40, 0x2004⟩ [] .other, .handle, returnTrap, .handle,
    returnTrap, .handle]

/-- With two handlers nested, the outer handler's `rt_sigreturn` restores the inner frame
again: the task resumes in the outer handler at `0x2004`, not at `0x1000` where the main
program was interrupted. -/
theorem nested_handlers_return_twice_to_inner :
    ∃ c', (handlerTask (⟨fun _ => none, 0⟩ : UserFrames)).run userFrames nestedRun = some c' ∧
      c'.trap_cx.sepc = 0x2004 ∧
      ((handlerTask (⟨fun _ => none, 0⟩ : UserFrames)).mapFrames UserFrames.newest).run
        newestFrame nestedRun = some (c'.mapFrames UserFrames.newest) := by
  have ran : ((handlerTask (⟨fun _ => none, 0⟩ : UserFrames)).run userFrames nestedRun).map
      (fun t => t.trap_cx.sepc) = some 0x2004 := by decide +kernel
  obtain ⟨c', ran, sepc⟩ := Option.map_eq_some_iff.mp ran
  exact ⟨c', ran, sepc, sigreturn_restores_newest_frame ran⟩

/-! ## Against POSIX -/

/-- A write of `len` bytes at `addr` misses the newest frame of the stack. -/
def headIntact (s : List (BitVec 64 × UContext)) (addr : BitVec 64) (len : ℕ) : Prop :=
  ∀ frame ∈ s.head?, overlapsFrame frame.1 addr len = false

/-- At most one frame is outstanding. -/
def atMostOne (s : List (BitVec 64 × UContext)) : Prop := s.length ≤ 1

/-- Chronix's frames track the stack: the newest frame of a stack that has one is the frame
`sig_ucontext_ptr` names. -/
def stackTracks (s : List (BitVec 64 × UContext)) (t : UserFrames) : Prop :=
  s = [] ∨ s.head? = t.newest

/-- Chronix's frames follow the POSIX stack while user code leaves its newest frame alone and
`rt_sigreturn` returns from the only frame outstanding: both then hold no frame, and the next
push starts them over. -/
theorem userFrames_follows_frameStack :
    frameStack.Follows userFrames stackTracks headIntact atMostOne where
  push addr ucontext _ := .inr (UserFrames.newest_push _ addr ucontext).symm
  write {s t addr len} related intact := by
    rcases related with rfl | tracked
    · exact .inl rfl
    · show s = [] ∨ s.head? = (t.write addr len).newest
      right
      rw [UserFrames.newest_write, ← tracked]
      -- the write misses the newest frame, so Chronix keeps it
      cases head : s.head? with
      | none => rfl
      | some frame => simp [intact frame (by simp [head]), Option.filter_some]
  read {s t ucontext} related read := by
    rcases related with rfl | tracked
    · cases read
    · obtain ⟨frame, head, rfl⟩ := Option.map_eq_some_iff.mp read
      exact UserFrames.read_eq_of_newest (tracked ▸ head)
  afterReturn {s t} _ single := by
    left
    match s, single with
    | [], _ => rfl
    | [_], _ => rfl
  sigInfo s addr ucontext frame head := by
    simp only [frameStack, List.head?_cons, Option.mem_def, Option.some.injEq] at head
    rw [← head]
    exact overlapsFrame_below addr

/-- From tasks that agree, every run of the POSIX stack in which user code leaves the newest
frame alone and each `rt_sigreturn` returns from the only frame outstanding is a run of Chronix's
task: the same registers, signal state and phase after every event. -/
theorem sigreturn_agrees_with_frame_stack {a a' : SigTask (List (BitVec 64 × UContext))}
    {c : SigTask UserFrames} {events : List SigEvent}
    (ran : Run (SigTask.step frameStack) (SigTask.StepOk frameStack headIntact atMostOne) a events a')
    (agree : SigTask.Agree stackTracks a c) :
    ∃ c', c.run userFrames events = some c' ∧ SigTask.Agree stackTracks a' c' :=
  userFrames_follows_frameStack.run ran agree

/-- Enough for `StepOk frameStack headIntact atMostOne`: user code writes nothing, and traps with
at most one frame outstanding. -/
def quietAndShallow (t : SigTask (List (BitVec 64 × UContext))) : SigEvent → Bool
  | .trap _ writes _ => writes.isEmpty && decide (t.frames.length ≤ 1)
  | _ => true

theorem stepOk_of_quietAndShallow (t : SigTask (List (BitVec 64 × UContext))) (event : SigEvent)
    (checked : quietAndShallow t event = true) :
    SigTask.StepOk frameStack headIntact atMostOne t event := by
  cases event with
  | trap cx writes cause =>
    simp only [quietAndShallow, Bool.and_eq_true, List.isEmpty_iff, decide_eq_true_eq] at checked
    obtain ⟨rfl, shallow⟩ := checked
    exact fun _ => ⟨trivial, fun _ _ => shallow⟩
  | recv sig => trivial
  | handle => trivial

/-- `SIGUSR1` is delivered at `0x1000` and its handler returns. -/
def singleRun : List SigEvent :=
  [.recv ⟨SIGUSR1, SigInfo.USER, none⟩, .trap ⟨Function.update 0 SP 0x8000, 0x1000⟩ [] .other,
    .handle, returnTrap, .handle]

theorem single_handler_returns_as_posix :
    ∃ a', Run (SigTask.step frameStack) (SigTask.StepOk frameStack headIntact atMostOne)
        (handlerTask []) singleRun a' ∧ a'.trap_cx.sepc = 0x1000 ∧
      ∃ c', (handlerTask (⟨fun _ => none, 0⟩ : UserFrames)).run userFrames singleRun = some c' ∧
        SigTask.Agree stackTracks a' c' := by
  have checked : (singleRun.foldlM (fun t event => if quietAndShallow t event then
      t.step frameStack event else none) (handlerTask [])).map (fun t => t.trap_cx.sepc) =
      some 0x1000 := by decide +kernel
  obtain ⟨a', ran, sepc⟩ := Option.map_eq_some_iff.mp checked
  have run := Run.of_checked stepOk_of_quietAndShallow ran
  have agree : SigTask.Agree stackTracks (handlerTask [])
      (handlerTask (⟨fun _ => none, 0⟩ : UserFrames)) := ⟨rfl, rfl, rfl, rfl, .inl rfl⟩
  exact ⟨a', run, sepc, sigreturn_agrees_with_frame_stack run agree⟩

end Chronix
