/-
  Fs/FileIo.lean --- file reads on behalf of user space.

  Sources: `syscall/sys_file_io.c`, `fs/vfs/read_write.c`, `mm/uaccess.c`.

  A file is known through its operations: a device state, and functions that read
  and write it at a position.  A call that sleeps for ever has no result (`none`).
  User memory is a byte array with the set of addresses that `fault_in_user_range`
  can make accessible; the mapping does not change during a call.
-/
import CuteOS.Kernel.Types

set_option autoImplicit false

namespace CuteOS.Fs

/-! ## User memory -/

structure UserMem where
  byte : Nat → UInt8
  readable : Nat → Bool
  writable : Nat → Bool

/-- `access_ok`. -/
def accessOk (addr size : Nat) : Bool :=
  if size = 0 then true
  else if (addr + size) % wordModulus < addr then false
  else if (addr + size) % wordModulus > taskSize then false
  else true

/-- `user_range_probe`; `access` is the set of addresses open to the access. -/
def userRangeProbe (access : Nat → Bool) (addr size : Nat) : Bool :=
  size == 0 || (accessOk addr size && (List.range size).all fun i => access (addr + i))

/-- The `memcpy` of `copy_to_user`. -/
def UserMem.store (m : UserMem) (dst : Nat) (bytes : List UInt8) : UserMem :=
  { m with
    byte := fun a => if dst ≤ a then bytes.getD (a - dst) (m.byte a) else m.byte a }

/-- `copy_to_user`: the number of bytes left, which is all or none. -/
def copyToUser (m : UserMem) (dst : Nat) (bytes : List UInt8) : Nat × UserMem :=
  if userRangeProbe m.writable dst bytes.length then (0, m.store dst bytes)
  else (bytes.length, m)

/-! ## Files -/

/-- The result of a call on a state `σ`: a value or an errno, or no return. -/
abbrev Call (α σ : Type) := Option (Except Errno α × σ)

/-- `struct file_operations` of a device with state `σ`; both functions take the
position `f_pos`. -/
structure FileOps (σ : Type) where
  read : σ → (fPos count : Nat) → Call (List UInt8) σ
  write : σ → (fPos : Nat) → List UInt8 → Call Nat σ

/-- `struct file`. -/
structure File (σ : Type) where
  dev : σ
  fPos : Nat := 0
  fmodeRead : Bool := false
  fmodeWrite : Bool := false

/-- User memory and one open file. -/
structure IoState (σ : Type) where
  mem : UserMem
  file : File σ

variable {σ : Type}

/-- `vfs_read`. -/
def vfsRead (ops : FileOps σ) (file : File σ) (count : Nat) : Call (List UInt8) (File σ) :=
  if !file.fmodeRead then some (.error .ebadf, file)
  else
    match ops.read file.dev file.fPos count with
    | none => none
    | some (.error e, dev) => some (.error e, { file with dev := dev })
    | some (.ok bytes, dev) =>
      some (.ok bytes, { file with dev := dev, fPos := file.fPos + bytes.length })

/-- `vfs_rewind_pos`. -/
def vfsRewindPos (file : File σ) (count : Nat) : File σ :=
  { file with fPos := file.fPos - count }

/-! ## `read` -/

/-- `SYS_FILE_BUF_SIZE`. -/
def sysFileBufSize : Nat := 256

/-- The loop of `read_user_buffer_pos` with `pos == NULL`.  Every round but the last
transfers a byte, so `len` rounds are enough. -/
def readUserLoop (ops : FileOps σ) (buf len : Nat) : Nat → Nat → IoState σ → Call Nat (IoState σ)
  | 0, done, s => some (.ok done, s)
  | fuel + 1, done, s =>
    if done < len then
      let chunk := if len - done > sysFileBufSize then sysFileBufSize else len - done
      match vfsRead ops s.file chunk with
      | none => none
      | some (.error e, file) => some (.error e, { s with file := file })
      | some (.ok bytes, file) =>
        if bytes = [] then some (.ok done, { s with file := file })
        else
          let (left, mem) := copyToUser s.mem (buf + done) bytes
          if left ≠ 0 then
            let done := done + (bytes.length - left)
            some (if done ≠ 0 then .ok done else .error .efault,
              { mem := mem, file := vfsRewindPos file left })
          else if bytes.length < chunk then
            some (.ok (done + bytes.length), { mem := mem, file := file })
          else
            readUserLoop ops buf len fuel (done + bytes.length) { mem := mem, file := file }
    else some (.ok done, s)

/-- `read_user_buffer_pos` with `pos == NULL`. -/
def readUserBuffer (ops : FileOps σ) (s : IoState σ) (buf len : Nat) : Call Nat (IoState σ) :=
  if !accessOk buf len then some (.error .efault, s)
  else readUserLoop ops buf len len 0 s

/-- `sys_read` on an open descriptor. -/
def sysRead (ops : FileOps σ) (s : IoState σ) (buf len : Nat) : Call Nat (IoState σ) :=
  if !s.file.fmodeRead then some (.error .ebadf, s)
  else readUserBuffer ops s buf len

end CuteOS.Fs
