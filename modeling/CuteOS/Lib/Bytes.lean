/-
  Lib/Bytes.lean --- parts of a block of memory, and numbers stored in it.
-/
import Mathlib.Data.List.Basic
import Mathlib.Tactic.Ring

set_option autoImplicit false

namespace CuteOS.Lib

/-- A block of memory, as far as it is used. -/
abbrev Bytes := Nat → UInt8

namespace Bytes

variable {p q : Bytes} {o n : Nat}

/-- The `n` bytes from `o` on. -/
def slice (p : Bytes) (o n : Nat) : List UInt8 := (List.range n).map fun i => p (o + i)

/-- Store the bytes of `l` from `o` on. -/
def put (p : Bytes) (o : Nat) (l : List UInt8) : Bytes :=
  fun x => if o ≤ x ∧ x < o + l.length then l.getD (x - o) 0 else p x

theorem put_out {l : List UInt8} {x : Nat} (h : x < o ∨ o + l.length ≤ x) : put p o l x = p x :=
  if_neg (by omega)

theorem put_in {l : List UInt8} {i : Nat} (hi : i < l.length) : put p o l (o + i) = l[i] := by
  rw [put, if_pos (by omega), Nat.add_sub_cancel_left, List.getD_eq_getElem?_getD,
    List.getElem?_eq_getElem hi, Option.getD_some]

theorem slice_congr (h : ∀ x, o ≤ x → x < o + n → q x = p x) : slice q o n = slice p o n := by
  apply List.map_congr_left
  intro i hi
  rw [List.mem_range] at hi
  exact h (o + i) (by omega) (by omega)

@[simp] theorem length_slice (p : Bytes) (o n : Nat) : (slice p o n).length = n := by
  rw [slice, List.length_map, List.length_range]

theorem slice_put_out {l : List UInt8} {k : Nat} (h : k + n ≤ o ∨ o + l.length ≤ k) :
    slice (put p o l) k n = slice p k n :=
  slice_congr fun _ _ _ => put_out (by omega)

/-- Reading a part of what was stored. -/
theorem slice_put (p : Bytes) (o : Nat) (a l b : List UInt8) :
    slice (put p o (a ++ l ++ b)) (o + a.length) l.length = l := by
  apply List.ext_getElem
  · rw [length_slice]
  · intro i hi hl
    rw [length_slice] at hi
    have hlt : a.length + i < (a ++ l ++ b).length := by
      rw [List.length_append, List.length_append]
      omega
    simp only [slice, List.getElem_map, List.getElem_range, Nat.add_assoc]
    rw [put_in hlt]
    simp [hi]

/-! ## Numbers, the lowest byte first -/

def ofLe : List UInt8 → Nat
  | [] => 0
  | b :: l => b.toNat + 256 * ofLe l

def toLe : Nat → Nat → List UInt8
  | 0, _ => []
  | n + 1, v => UInt8.ofNat v :: toLe n (v / 256)

@[simp] theorem length_toLe (n v : Nat) : (toLe n v).length = n := by
  induction n generalizing v with
  | zero => rfl
  | succ n ih => rw [toLe, List.length_cons, ih]

theorem ofLe_toLe {n v : Nat} (hv : v < 256 ^ n) : ofLe (toLe n v) = v := by
  induction n generalizing v with
  | zero =>
    rw [toLe, ofLe]
    omega
  | succ n ih =>
    have hdiv : v / 256 < 256 ^ n := by
      omega
    rw [toLe, ofLe, ih hdiv, UInt8.toNat_ofNat']
    omega

theorem ofLe_slice_put {v : Nat} (hv : v < 256 ^ n) : ofLe (slice (put p o (toLe n v)) o n) = v := by
  have h := slice_put p o [] (toLe n v) []
  rw [List.nil_append, List.append_nil, length_toLe] at h
  exact (congrArg ofLe h).trans (ofLe_toLe hv)

theorem ofLe_lt (l : List UInt8) : ofLe l < 256 ^ l.length := by
  induction l with
  | nil => exact Nat.one_pos
  | cons b l ih =>
    have hb := b.toNat_lt
    rw [ofLe, List.length_cons]
    omega

end Bytes

end CuteOS.Lib
