/-
  Lib/ByteFile.lean --- a file as one growing array of bytes.

  A file has a size and a byte at every position; behind the size all bytes are zero,
  so that growing a file never brings old bytes back.
-/
import Mathlib.Data.List.Basic
import Mathlib.Order.Lattice

set_option autoImplicit false

namespace CuteOS.Lib

/-- An array of bytes that can grow. -/
@[ext] structure ByteFile where
  size : Nat
  byte : Nat → UInt8
  blank : ∀ pos, size ≤ pos → byte pos = 0

namespace ByteFile

/-- The file without bytes. -/
def empty : ByteFile := ⟨0, fun _ => 0, fun _ _ => rfl⟩

/-- `n` bytes of `buf` at `pos`; a gap before them is filled with zeros. -/
def write (f : ByteFile) (buf : Nat → UInt8) (n pos : Nat) : ByteFile where
  size := max f.size (pos + n)
  byte p := if pos ≤ p ∧ p < pos + n then buf (p - pos) else f.byte p
  blank p hp := by
    rw [if_neg (by omega)]
    exact f.blank p (by omega)

/-- At most `count` bytes from `pos` on. -/
def read (f : ByteFile) (count pos : Nat) : List UInt8 :=
  (List.range (min count (f.size - pos))).map fun i => f.byte (pos + i)

/-- The size becomes `size`; new bytes are zero. -/
def resize (f : ByteFile) (size : Nat) : ByteFile where
  size := size
  byte p := if p < size then f.byte p else 0
  blank p hp := if_neg (by omega)

/-- The size becomes at least `size`. -/
def reserve (f : ByteFile) (size : Nat) : ByteFile where
  size := max f.size size
  byte := f.byte
  blank p hp := f.blank p (by omega)

/-- What a shrinking cuts off does not come back. -/
theorem resize_resize_byte (f : ByteFile) {small large pos : Nat} (hcut : small ≤ pos) :
    ((f.resize small).resize large).byte pos = 0 := by
  change (if pos < large then (if pos < small then f.byte pos else 0) else 0) = 0
  rw [if_neg (by omega : ¬ pos < small)]
  split_ifs <;> rfl

end ByteFile

end CuteOS.Lib
