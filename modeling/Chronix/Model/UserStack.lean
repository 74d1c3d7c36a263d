import Chronix.Model.Addr

/-! # The initial user stack

`user_stack_init` (`os/src/task/utils.rs`) first estimates how far the stack will grow and
faults in that many pages below `sp`, then pushes, from the top down: the environment strings,
the argument strings, the platform string, sixteen "random" bytes, padding to 16 bytes, the
auxiliary vector (`AT_NULL` first, then `AT_EXECFN`, then `auxv` from its last entry), the
environment pointers, the argument pointers and `argc`.

A string is the list of its bytes. The stack is the bytes written so far (`none` where nothing
was written). Addresses are natural numbers: the stack top is far above the sizes pushed, so no
subtraction of the code wraps.
-/

namespace Chronix

/-- `AuxHeader`: a type and a value, two machine words. -/
structure AuxHeader where
  auxType : ℕ
  value : ℕ
deriving DecidableEq, Repr

/-- `AT_NULL`: the end of the auxiliary vector. -/
def AT_NULL : ℕ := 0
def AT_PHDR : ℕ := 3
def AT_PHENT : ℕ := 4
def AT_PHNUM : ℕ := 5
def AT_PAGESZ : ℕ := 6
def AT_BASE : ℕ := 7
def AT_FLAGS : ℕ := 8
def AT_ENTRY : ℕ := 9
def AT_NOTELF : ℕ := 10
def AT_UID : ℕ := 11
def AT_EUID : ℕ := 12
def AT_GID : ℕ := 13
def AT_EGID : ℕ := 14
def AT_PLATFORM : ℕ := 15
def AT_HWCAP : ℕ := 16
def AT_CLKTCK : ℕ := 17
def AT_SECURE : ℕ := 23
def AT_RANDOM : ℕ := 25
/-- `AT_EXECFN`: the file name of the program. -/
def AT_EXECFN : ℕ := 31

/-- The little-endian bytes of a machine word. -/
def usizeBytes (value : ℕ) : List UInt8 :=
  (List.range 8).map fun i => UInt8.ofNat (value / 256 ^ i)

/-- The word stored little-endian in the eight bytes from `address`, when all were written. -/
def readUsize (memory : ℕ → Option UInt8) (address : ℕ) : Option ℕ :=
  ((List.range 8).mapM fun i => memory (address + i)).map fun bytes =>
    (List.range 8).foldr (fun i value => value * 256 + (bytes.getD i 0).toNat) 0

/-- Bytes written so far on the user stack, and the stack pointer. -/
structure UserStack where
  sp : ℕ
  memory : ℕ → Option UInt8

namespace UserStack

/-- Write `bytes` from `address` on. -/
def write (memory : ℕ → Option UInt8) (address : ℕ) (bytes : List UInt8) : ℕ → Option UInt8 :=
  fun at_ => if address ≤ at_ then bytes[at_ - address]?.or (memory at_) else memory at_

/-- `push_str`: the bytes and a NUL below `sp`; the new `sp` points at the copy. -/
def pushStr (stack : UserStack) (s : List UInt8) : UserStack :=
  let sp := stack.sp - (s.length + 1)
  ⟨sp, write stack.memory sp (s ++ [0])⟩

/-- `push_aux`: a type and a value below `sp`. -/
def pushAux (stack : UserStack) (aux : AuxHeader) : UserStack :=
  let sp := stack.sp - 16
  ⟨sp, write stack.memory sp (usizeBytes aux.auxType ++ usizeBytes aux.value)⟩

/-- `push_usize`. -/
def pushUsize (stack : UserStack) (value : ℕ) : UserStack :=
  let sp := stack.sp - 8
  ⟨sp, write stack.memory sp (usizeBytes value)⟩

/-- `align16`: `(sp - 1) & !0xf`, the multiple of 16 below `sp`. -/
def align16 (stack : UserStack) : UserStack := { stack with sp := (stack.sp - 1) / 16 * 16 }

/-- `push_str` over a list of strings in order, collecting the pointers it returns. -/
def pushStrs (stack : UserStack) : List (List UInt8) → UserStack × List ℕ
  | [] => (stack, [])
  | s :: rest =>
    let stack := stack.pushStr s
    let (stack', ptrs) := stack.pushStrs rest
    (stack', stack.sp :: ptrs)

end UserStack

/-- The platform string `"RISC-V64"`. -/
def platformBytes : List UInt8 := [82, 73, 83, 67, 45, 86, 54, 52]

/-- The string `"Chronix Is Here"`, pushed with its NUL as the sixteen "random" bytes. -/
def randBytes : List UInt8 := [67, 104, 114, 111, 110, 105, 120, 32, 73, 115, 32, 72, 101, 114, 101]

/-- The size estimate of `user_stack_init`: the `sp` it expects the pushes to reach, and the
`program_name_ptr` it passes in the `AT_EXECFN` entry. -/
def userStackEstimate (sp : ℕ) (argv envp : List (List UInt8)) (auxLen : ℕ) : ℕ × ℕ :=
  let programNamePtr := sp - (argv.map fun s => s.length + 1).sum
  let newSp := programNamePtr - (envp.map fun s => s.length + 1).sum
  let newSp := newSp - (platformBytes.length + 1) - (randBytes.length + 1)
  let newSp := (newSp - 1) / 16 * 16
  let newSp := newSp - (auxLen + 1) * 16 - (envp.length + 1) * 8 - (envp.length + 1) * 8 - 8
  (newSp, programNamePtr)

/-- `user_stack_init`: the `(sp, argc, argv, envp)` it returns, the stack it wrote, and the
addresses it faults in before writing. -/
def userStackInit (sp : ℕ) (argv envp : List (List UInt8)) (auxv : List AuxHeader) :
    (ℕ × ℕ × ℕ × ℕ) × UserStack × List ℕ :=
  let (estimate, programNamePtr) := userStackEstimate sp argv envp auxv.length
  let framesNum := (sp - estimate + Constant.PAGE_SIZE - 1) / Constant.PAGE_SIZE
  let faulted := (List.range framesNum).map fun i => sp - Constant.PAGE_SIZE * (i + 1)
  let stack : UserStack := ⟨sp, fun _ => none⟩
  let (stack, envPtrs) := stack.pushStrs envp.reverse
  let (stack, argPtrs) := stack.pushStrs argv.reverse
  let stack := ((stack.pushStr platformBytes).pushStr randBytes).align16
  let stack := (stack.pushAux ⟨AT_NULL, 0⟩).pushAux ⟨AT_EXECFN, programNamePtr⟩
  let stack := auxv.reverse.foldl UserStack.pushAux stack
  let stack := envPtrs.foldl UserStack.pushUsize (stack.pushUsize 0)
  let envPtr := stack.sp
  let stack := argPtrs.foldl UserStack.pushUsize (stack.pushUsize 0)
  let argPtr := stack.sp
  let stack := stack.pushUsize argv.length
  ((stack.sp, argv.length, argPtr, envPtr), stack, faulted)

end Chronix
