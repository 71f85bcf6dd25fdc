/-
  Kernel/Types.lean --- errno values, 64-bit words and page arithmetic.

  Sources: `include/uapi/errno.h`, `include/kernel/bitops.h`,
  `arch/riscv/include/arch/page.h`, `arch/riscv/include/asm/page.h`.

  Addresses and sizes (`uintptr_t`, `size_t`, `uint64_t`) are natural numbers.
  Where the C code relies on wrap-around the reduction modulo `2 ^ 64` is
  written out; everywhere else the operands are below `TASK_SIZE` and the
  natural-number operation is the machine operation.
-/
import Mathlib.Algebra.Ring.Nat
import Mathlib.Data.List.FinRange

set_option autoImplicit false

namespace CuteOS

/-- The negative errno values that the modelled functions return. -/
inductive Errno where
  | eperm
  | enoent
  | esrch
  | eintr
  | eio
  | e2big
  | enoexec
  | ebadf
  | echild
  | eagain
  | enomem
  | eacces
  | efault
  | eexist
  | enotdir
  | eisdir
  | einval
  | efbig
  | enospc
  | epipe
  | enametoolong
  | enosys
  | enotempty
  | enodata
  | eopnotsupp
  | ebusy
  | enodev
  | exdev
  | emfile
  | eloop
  | enxio
  | espipe
  | etimedout
  deriving DecidableEq, Repr, Inhabited

/-- A file name, without the terminating zero. -/
abbrev Name := List UInt8

/-- `2 ^ 64`, the modulus of `uintptr_t`, `size_t` and `uint64_t`. -/
def wordModulus : Nat := 2 ^ 64

/-- `PAGE_SIZE`. -/
def pageSize : Nat := 4096

/-- `TASK_SIZE`, one past the highest user address. -/
def taskSize : Nat := 0x80000000

/-- `USER_STACK_SIZE`. -/
def userStackSize : Nat := 64 * 1024

/-- `USER_STACK_TOP`. -/
def userStackTop : Nat := taskSize

/-- `USER_STACK_BASE`. -/
def userStackBase : Nat := userStackTop - userStackSize

/-- `USER_STACK_GUARD_BASE`. -/
def userStackGuardBase : Nat := userStackBase - pageSize

/-- `SIGNAL_TRAMPOLINE_ADDR`. -/
def signalTrampolineAddr : Nat := userStackGuardBase - pageSize

end CuteOS
