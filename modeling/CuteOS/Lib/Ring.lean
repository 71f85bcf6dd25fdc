/-
  Lib/Ring.lean --- ring buffers and the queue they implement.

  A ring of `size` cells keeps `used` elements from cell `tail` on, wrapping at
  the end.  Elements leave and enter in pieces that do not wrap; `contents` is the
  queue, oldest element first.
-/
import Mathlib.Data.List.GetD
import Mathlib.Order.Nat
import Mathlib.Tactic.Common

set_option autoImplicit false

namespace CuteOS.Lib

/-- A ring buffer; the bounds are part of the value. -/
structure Ring (α : Type) (size : Nat) where
  data : Nat → α
  head : Nat
  tail : Nat
  used : Nat
  tail_lt : tail < size
  used_le : used ≤ size
  head_eq : head = (tail + used) % size

namespace Ring

variable {α : Type} {size : Nat}

/-- The queued elements, oldest first. -/
def contents (r : Ring α size) : List α :=
  (List.range r.used).map fun i => r.data ((r.tail + i) % size)

@[simp] theorem length_contents (r : Ring α size) : r.contents.length = r.used := by
  simp [contents]

/-! ## Taking elements out -/

/-- How many elements can be copied from `tail` without wrapping. -/
def linearTail (r : Ring α size) : Nat :=
  if r.used < size - r.tail then r.used else size - r.tail

/-- The `count` cells from `tail` on. -/
def window (r : Ring α size) (count : Nat) : List α :=
  (List.range count).map fun i => r.data (r.tail + i)

/-- Drop the `count` oldest elements. -/
def commitRead (r : Ring α size) (count : Nat) (hcount : count ≤ r.used) : Ring α size where
  data := r.data
  head := r.head
  tail := (r.tail + count) % size
  used := r.used - count
  tail_lt := Nat.mod_lt _ (Nat.zero_lt_of_lt r.tail_lt)
  used_le := le_trans (Nat.sub_le _ _) r.used_le
  head_eq := by
    rw [Nat.mod_add_mod, r.head_eq]
    congr 1
    omega

section

variable (r : Ring α size)
include r

theorem linearTail_le_used : r.linearTail ≤ r.used := by
  unfold linearTail
  split_ifs <;> omega

theorem linearTail_pos (hused : 0 < r.used) : 0 < r.linearTail := by
  have := r.tail_lt
  unfold linearTail
  split_ifs <;> omega

@[simp] theorem length_window (count : Nat) : (r.window count).length = count := by
  simp [window]

/-- A piece that does not wrap is the front of the queue. -/
theorem window_append_contents {count : Nat} (hcount : count ≤ r.linearTail)
    (hused : count ≤ r.used) :
    r.window count ++ (r.commitRead count hused).contents = r.contents := by
  have hle : r.linearTail ≤ size - r.tail := by
    unfold linearTail
    split_ifs <;> omega
  unfold contents window commitRead
  have hsplit : List.range r.used =
      List.range count ++ (List.range (r.used - count)).map (count + ·) := by
    rw [← List.range_add]
    congr 1
    omega
  rw [hsplit, List.map_append, List.map_map]
  congr 1
  · apply List.map_congr_left
    intro i hi
    rw [List.mem_range] at hi
    rw [Nat.mod_eq_of_lt (by omega)]
  · apply List.map_congr_left
    intro i _
    simp only [Function.comp_apply, Nat.mod_add_mod, Nat.add_assoc]

end

/-! ## Putting elements in -/

/-- How many elements can be copied to `head` without wrapping. -/
def linearHeadSpace (r : Ring α size) : Nat :=
  if size - r.used < size - r.head then size - r.used else size - r.head

/-- Copy a piece to `head`. -/
def commitWrite (r : Ring α size) (piece : List α) (hspace : piece.length ≤ size - r.used) :
    Ring α size where
  data i := if r.head ≤ i then piece.getD (i - r.head) (r.data i) else r.data i
  head := (r.head + piece.length) % size
  tail := r.tail
  used := r.used + piece.length
  tail_lt := r.tail_lt
  used_le := by
    have := r.used_le
    omega
  head_eq := by
    rw [r.head_eq, Nat.mod_add_mod, Nat.add_assoc]

theorem linearHeadSpace_le_space (r : Ring α size) : r.linearHeadSpace ≤ size - r.used := by
  unfold linearHeadSpace
  split_ifs <;> omega

theorem head_lt (r : Ring α size) : r.head < size := by
  rw [r.head_eq]
  exact Nat.mod_lt _ (Nat.zero_lt_of_lt r.tail_lt)

theorem linearHeadSpace_pos (r : Ring α size) (hspace : 0 < size - r.used) :
    0 < r.linearHeadSpace := by
  have := r.head_lt
  unfold linearHeadSpace
  split_ifs <;> omega

/-- A sum that passes the end at most once wraps by one subtraction. -/
theorem mod_eq_wrap {a n : Nat} (ha : a < 2 * n) : a % n = if a < n then a else a - n := by
  split_ifs with hlt
  · exact Nat.mod_eq_of_lt hlt
  · rw [Nat.mod_eq_sub_mod (by omega), Nat.mod_eq_of_lt (by omega)]

/-- A piece that does not wrap becomes the back of the queue. -/
theorem contents_commitWrite (r : Ring α size) {piece : List α}
    (hlinear : piece.length ≤ r.linearHeadSpace) (hspace : piece.length ≤ size - r.used) :
    (r.commitWrite piece hspace).contents = r.contents ++ piece := by
  have htail := r.tail_lt
  have hused := r.used_le
  have hhead := r.head_eq
  rw [mod_eq_wrap (by omega)] at hhead
  have hend : piece.length ≤ size - r.head := by
    unfold linearHeadSpace at hlinear
    split_ifs at hlinear <;> omega
  have hlen : (r.commitWrite piece hspace).contents.length = (r.contents ++ piece).length := by
    simp [commitWrite]
  apply List.ext_getElem hlen
  intro j hj hj'
  have hjlt : j < r.used + piece.length := by simpa using hj'
  have hindex := mod_eq_wrap (show r.tail + j < 2 * size by omega)
  simp only [contents, commitWrite, List.getElem_map, List.getElem_range, hindex]
  by_cases hold : j < r.used
  · -- an old element: its cell lies outside the piece
    rw [List.getElem_append_left (by simpa using hold)]
    simp only [List.getElem_map, List.getElem_range, hindex]
    split_ifs at hhead ⊢ with h1 h2 h3 <;>
      first
      | rfl
      | rw [List.getD_eq_default _ _ (by omega)]
  · rw [List.getElem_append_right (by simpa using not_lt.mp hold)]
    have hcell : (if r.tail + j < size then r.tail + j else r.tail + j - size) =
        r.head + (j - r.used) := by
      split_ifs at hhead ⊢ <;> omega
    rw [hcell, if_pos (by omega), Nat.add_sub_cancel_left, List.getD_eq_getElem _ _ (by omega)]
    simp

/-- Put a list in, in pieces that do not wrap; `fuel` bounds their number. -/
def push : Nat → Ring α size → List α → Ring α size
  | 0, r, _ => r
  | fuel + 1, r, elems =>
    if elems.length > 0 then
      push fuel
        (r.commitWrite (elems.take r.linearHeadSpace)
          (le_trans (List.length_take_le _ _) r.linearHeadSpace_le_space))
        (elems.drop r.linearHeadSpace)
    else r

/-- With space for all of it, the list becomes the back of the queue. -/
theorem contents_push (r : Ring α size) {elems : List α} {fuel : Nat}
    (hfuel : elems.length ≤ fuel) (hspace : elems.length ≤ size - r.used) :
    (push fuel r elems).contents = r.contents ++ elems := by
  induction fuel generalizing r elems with
  | zero =>
    have hnil : elems = [] := List.eq_nil_of_length_eq_zero (by omega)
    rw [push, hnil, List.append_nil]
  | succ fuel ih =>
    rw [push]
    split_ifs with hpos
    · have hlinear := r.linearHeadSpace_pos (by omega)
      have hlen : (elems.drop r.linearHeadSpace).length =
          elems.length - r.linearHeadSpace := List.length_drop
      rw [ih, contents_commitWrite _ (List.length_take_le _ _), List.append_assoc, List.take_append_drop]
      · omega
      · simp only [commitWrite, List.length_take]
        omega
    · rw [List.eq_nil_of_length_eq_zero (by omega : elems.length = 0), List.append_nil]

end Ring

end CuteOS.Lib
