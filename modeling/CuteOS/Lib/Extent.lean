/-
  Lib/Extent.lean --- runs of cells in an array, and blocks of one size packed into a run.
-/
import Mathlib.Data.List.Basic
import Mathlib.Tactic.Ring

set_option autoImplicit false

namespace CuteOS.Lib.Extent

variable {β : Type} {f buf : Nat → β} {start len size : Nat}

/-- The first `len` cells of `buf` are stored from `start` on. -/
def writeAt (f : Nat → β) (start len : Nat) (buf : Nat → β) : Nat → β :=
  fun a => if start ≤ a ∧ a < start + len then buf (a - start) else f a

theorem writeAt_in {i : Nat} (hi : i < len) : writeAt f start len buf (start + i) = buf i := by
  rw [writeAt, if_pos (by omega), Nat.add_sub_cancel_left]

theorem writeAt_out {a : Nat} (ha : a < start ∨ start + len ≤ a) :
    writeAt f start len buf a = f a :=
  if_neg (by omega)

/-- The blocks `pieces`, one after the other from block `i` on. -/
def pack (size : Nat) : List (Nat → β) → Nat → (Nat → β) → Nat → β
  | [], _, buf => buf
  | piece :: rest, i, buf => pack size rest (i + 1) (writeAt buf (i * size) size piece)

theorem pack_before (pieces : List (Nat → β)) (i : Nat) (buf : Nat → β) {a : Nat}
    (ha : a < i * size) : pack size pieces i buf a = buf a := by
  induction pieces generalizing i buf with
  | nil => rfl
  | cons piece rest ih =>
    rw [pack, ih (i + 1) _ (by rw [Nat.succ_mul]; omega)]
    exact writeAt_out (.inl ha)

theorem pack_at (pieces : List (Nat → β)) (i : Nat) (buf : Nat → β) {k a : Nat} {piece : Nat → β}
    (hk : pieces[k]? = some piece) (ha : a < size) :
    pack size pieces i buf ((i + k) * size + a) = piece a := by
  induction pieces generalizing i buf k with
  | nil => cases hk
  | cons first rest ih =>
    rw [pack]
    cases k with
    | zero =>
      obtain rfl : first = piece := Option.some.inj hk
      rw [pack_before _ _ _ (by rw [Nat.succ_mul, Nat.add_zero]; omega), Nat.add_zero]
      exact writeAt_in ha
    | succ k =>
      rw [show i + (k + 1) = i + 1 + k by omega]
      exact ih (i + 1) _ hk

end CuteOS.Lib.Extent
