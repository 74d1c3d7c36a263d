import Chronix.Model.UserStack

/-! # Where `user_stack_init` puts things

The stack pointer after each push is the one before less the size pushed; from that, the final
`sp` is the 16-byte boundary below the strings less the vectors (`userStackInit_sp`). The
vectors take `16 * (len auxv + 2) + 8 * (argc + envc + 3)` bytes, so the final `sp` is a multiple
of 16 exactly when `argc + envc` is odd (`userStackInit_aligned_iff`). The `AT_EXECFN` entry
carries the pointer the size estimate computed, `sp - argv bytes`, but the argument strings are
pushed below the environment strings, so the two agree only without environment strings
(`programNamePtr_eq_argvZero_iff`).
-/

namespace Chronix

namespace UserStack

variable (stack : UserStack)

@[simp] theorem pushStr_sp (s : List UInt8) : (stack.pushStr s).sp = stack.sp - (s.length + 1) :=
  rfl

@[simp] theorem pushAux_sp (aux : AuxHeader) : (stack.pushAux aux).sp = stack.sp - 16 := rfl

@[simp] theorem pushUsize_sp (value : ℕ) : (stack.pushUsize value).sp = stack.sp - 8 := rfl

@[simp] theorem align16_sp : stack.align16.sp = (stack.sp - 1) / 16 * 16 := rfl

/-- The strings take their bytes and a NUL each. -/
theorem pushStrs_sp (strs : List (List UInt8)) :
    (stack.pushStrs strs).1.sp = stack.sp - (strs.map fun s => s.length + 1).sum := by
  induction strs generalizing stack with
  | nil => rfl
  | cons s rest ih =>
    simp only [pushStrs, ih, pushStr_sp, List.map_cons, List.sum_cons, Nat.sub_sub]

/-- The last string pushed is the lowest: its copy starts at the final stack pointer. -/
theorem pushStrs_getLast? (strs : List (List UInt8)) (nonempty : strs ≠ []) :
    (stack.pushStrs strs).2.getLast? = some (stack.pushStrs strs).1.sp := by
  induction strs generalizing stack with
  | nil => exact absurd rfl nonempty
  | cons s rest ih =>
    cases rest with
    | nil => rfl
    | cons next rest =>
      simp only [pushStrs] at ih ⊢
      rw [List.getLast?_cons_cons]
      exact ih _ (List.cons_ne_nil _ _)

theorem pushStrs_length (strs : List (List UInt8)) :
    (stack.pushStrs strs).2.length = strs.length := by
  induction strs generalizing stack with
  | nil => rfl
  | cons s rest ih => simp [pushStrs, ih]

theorem foldl_pushAux_sp (auxv : List AuxHeader) :
    (auxv.foldl pushAux stack).sp = stack.sp - 16 * auxv.length := by
  induction auxv generalizing stack with
  | nil => rfl
  | cons aux rest ih =>
    rw [List.foldl_cons, ih, pushAux_sp, List.length_cons, Nat.sub_sub]
    omega

theorem foldl_pushUsize_sp (values : List ℕ) :
    (values.foldl pushUsize stack).sp = stack.sp - 8 * values.length := by
  induction values generalizing stack with
  | nil => rfl
  | cons value rest ih =>
    rw [List.foldl_cons, ih, pushUsize_sp, List.length_cons, Nat.sub_sub]
    omega

end UserStack

/-- The bytes of a list of strings with their NULs. -/
def stringBytes (strs : List (List UInt8)) : ℕ := (strs.map fun s => s.length + 1).sum

theorem stringBytes_reverse (strs : List (List UInt8)) :
    stringBytes strs.reverse = stringBytes strs := by
  simp [stringBytes, List.map_reverse, List.sum_reverse]

/-- The 16-byte boundary below the strings, where the auxiliary vector starts. -/
def auxvTop (sp : ℕ) (argv envp : List (List UInt8)) : ℕ :=
  (sp - stringBytes envp - stringBytes argv - (platformBytes.length + 1) -
    (randBytes.length + 1) - 1) / 16 * 16

/-- The final stack pointer: the auxiliary vector with its two added entries, the two pointer
vectors with their terminating zeros, and `argc`, below `auxvTop`. -/
theorem userStackInit_sp (sp : ℕ) (argv envp : List (List UInt8)) (auxv : List AuxHeader) :
    (userStackInit sp argv envp auxv).1.1 =
      auxvTop sp argv envp - 16 * (auxv.length + 2) - 8 * (envp.length + 1) -
        8 * (argv.length + 1) - 8 := by
  simp only [userStackInit, UserStack.pushUsize_sp, UserStack.foldl_pushUsize_sp,
    UserStack.foldl_pushAux_sp, UserStack.pushAux_sp, UserStack.align16_sp,
    UserStack.pushStr_sp, UserStack.pushStrs_sp, UserStack.pushStrs_length, List.length_reverse]
  simp only [auxvTop, stringBytes, List.map_reverse, List.sum_reverse]
  omega

/-- When everything fits below `auxvTop`, the final stack pointer is 16-byte aligned exactly when
`argc + envc` is odd. -/
theorem userStackInit_aligned_iff (sp : ℕ) (argv envp : List (List UInt8))
    (auxv : List AuxHeader)
    (fits : 16 * (auxv.length + 2) + 8 * (envp.length + argv.length + 3) ≤ auxvTop sp argv envp) :
    (userStackInit sp argv envp auxv).1.1 % 16 = 0 ↔ (argv.length + envp.length) % 2 = 1 := by
  have aligned : auxvTop sp argv envp % 16 = 0 := by simp [auxvTop]
  rw [userStackInit_sp]
  omega

/-- The pointer the `AT_EXECFN` entry carries. -/
def programNamePtr (sp : ℕ) (argv envp : List (List UInt8)) (auxLen : ℕ) : ℕ :=
  (userStackEstimate sp argv envp auxLen).2

/-- The address of the copy of `argv[0]`: the last argument string pushed. -/
def argvZeroPtr (sp : ℕ) (argv envp : List (List UInt8)) : Option ℕ :=
  ((((⟨sp, fun _ => none⟩ : UserStack).pushStrs envp.reverse).1).pushStrs argv.reverse).2.getLast?

/-- The copy of `argv[0]` lies below all the strings, while `AT_EXECFN` points at
`sp - argv bytes`: the two agree exactly when there are no environment strings. -/
theorem programNamePtr_eq_argvZero_iff (sp : ℕ) (argv envp : List (List UInt8)) (auxLen : ℕ)
    (nonempty : argv ≠ []) (fits : stringBytes envp + stringBytes argv ≤ sp) :
    argvZeroPtr sp argv envp = some (programNamePtr sp argv envp auxLen) ↔ envp = [] := by
  have lowest := UserStack.pushStrs_getLast?
    ((⟨sp, fun _ => none⟩ : UserStack).pushStrs envp.reverse).1 argv.reverse
    (List.reverse_ne_nil_iff.mpr nonempty)
  rw [argvZeroPtr, lowest, UserStack.pushStrs_sp, UserStack.pushStrs_sp, Option.some.injEq]
  simp only [programNamePtr, userStackEstimate, List.map_reverse, List.sum_reverse]
  simp only [stringBytes] at fits
  -- every string takes at least its NUL, so the environment strings take no bytes only when
  -- there are none
  have empty_iff : (envp.map fun s => s.length + 1).sum = 0 ↔ envp = [] := by
    cases envp with
    | nil => simp
    | cons s rest => simp
  rw [← empty_iff]
  omega

/-- One argument `"a"` and one environment string `"B=1"`, with the auxiliary vector `from_elf`
builds for a static ELF with four program headers of 56 bytes, entry `0x10000` and program
headers at `0x10040`: the returned `sp` is 8 modulo 16, and the `AT_EXECFN` entry, the pair
just below `AT_NULL`, holds `USER_STACK_TOP - 2`, which is inside `"B=1"`, while the argument
vector's first pointer, to the copy of `"a"`, is `USER_STACK_TOP - 6`. -/
theorem userStackInit_misaligned_execfn :
    let auxv : List AuxHeader := [⟨4, 56⟩, ⟨5, 4⟩, ⟨6, 4096⟩, ⟨9, 0x10000⟩, ⟨7, 0⟩, ⟨8, 0⟩,
      ⟨11, 0⟩, ⟨12, 0⟩, ⟨13, 0⟩, ⟨14, 0⟩, ⟨15, 0⟩, ⟨16, 0⟩, ⟨17, 100⟩, ⟨23, 0⟩, ⟨10, 0x112d⟩,
      ⟨25, 0x10040⟩, ⟨3, 0x10040⟩]
    let result := userStackInit Constant.USER_STACK_TOP [[97]] [[66, 61, 49]] auxv
    result.1.1 % 16 = 8 ∧
      readUsize result.2.1.memory (auxvTop Constant.USER_STACK_TOP [[97]] [[66, 61, 49]] - 32) =
        some AT_EXECFN ∧
      readUsize result.2.1.memory (auxvTop Constant.USER_STACK_TOP [[97]] [[66, 61, 49]] - 24) =
        some (Constant.USER_STACK_TOP - 2) ∧
      readUsize result.2.1.memory result.1.2.2.1 = some (Constant.USER_STACK_TOP - 6) := by
  decide

end Chronix
