/-
  Lib/Fifo.lean --- histories of a first-in first-out queue with several users.

  Elements enter and leave in pieces.  A history keeps the pieces in the order in which
  they were moved, each with the user who moved it.
-/
import Mathlib.Data.List.Basic

set_option autoImplicit false

namespace CuteOS.Lib.Fifo

variable {κ α : Type}

/-- The pieces that were moved, oldest first. -/
abbrev History (κ α : Type) := List (κ × List α)

/-- All elements that were moved, in order. -/
def elems (h : History κ α) : List α := h.flatMap Prod.snd

/-- A piece is recorded unless there is nothing in it. -/
def record (h : History κ α) (k : κ) (piece : List α) : History κ α :=
  if piece = [] then h else h ++ [(k, piece)]

@[simp] theorem record_nil (h : History κ α) (k : κ) : record h k [] = h := if_pos rfl

@[simp] theorem elems_record (h : History κ α) (k : κ) (piece : List α) :
    elems (record h k piece) = elems h ++ piece := by
  unfold record elems
  split_ifs with hnil
  · rw [hnil, List.append_nil]
  · rw [List.flatMap_append, List.flatMap_singleton]

/-! ## The pieces of one user -/

variable [DecidableEq κ]

/-- The pieces that one user moved. -/
def piecesOf (h : History κ α) (k : κ) : List (List α) :=
  (h.filter fun entry => entry.1 = k).map Prod.snd

theorem piecesOf_record_self (h : History κ α) (k : κ) {piece : List α} (hne : piece ≠ []) :
    piecesOf (record h k piece) k = piecesOf h k ++ [piece] := by
  simp [record, hne, piecesOf]

@[simp] theorem flatten_piecesOf_record_self (h : History κ α) (k : κ) (piece : List α) :
    (piecesOf (record h k piece) k).flatten = (piecesOf h k).flatten ++ piece := by
  by_cases hne : piece = []
  · rw [hne, record_nil, List.append_nil]
  · rw [piecesOf_record_self h k hne, List.flatten_append, List.flatten_singleton]

theorem piecesOf_record_of_ne (h : History κ α) {k k' : κ} (hne : k' ≠ k) (piece : List α) :
    piecesOf (record h k piece) k' = piecesOf h k' := by
  unfold record piecesOf
  split_ifs with hnil
  · rfl
  · rw [List.filter_append, List.filter_cons_of_neg (by simpa using hne.symm), List.filter_nil,
      List.append_nil]

/-- A single piece stands in one place among the elements. -/
theorem elems_of_piecesOf {h : History κ α} {k : κ} {piece : List α}
    (hone : piecesOf h k = [piece]) : ∃ front back, elems h = front ++ piece ++ back := by
  have hmem : (k, piece) ∈ h := by
    obtain ⟨entry, hentry, hsnd⟩ := List.mem_map.mp (hone ▸ List.mem_singleton_self piece)
    obtain ⟨hin, hfst⟩ := List.mem_filter.mp hentry
    rwa [← of_decide_eq_true hfst, ← hsnd]
  obtain ⟨before, after, rfl⟩ := List.append_of_mem hmem
  refine ⟨elems before, elems after, ?_⟩
  simp [elems]

/-! ## First in, first out -/

/-- What was taken and what is held are together what was put. -/
def Ordered (puts takes : History κ α) (held : List α) : Prop := elems takes ++ held = elems puts

omit [DecidableEq κ]

theorem Ordered.put {puts takes : History κ α} {held : List α} (h : Ordered puts takes held)
    (k : κ) (piece : List α) : Ordered (record puts k piece) takes (held ++ piece) := by
  rw [Ordered, elems_record, ← List.append_assoc, h]

theorem Ordered.take {puts takes : History κ α} {held held' piece : List α}
    (h : Ordered puts takes held) (k : κ) (hfront : piece ++ held' = held) :
    Ordered puts (record takes k piece) held' := by
  rw [Ordered, elems_record, List.append_assoc, hfront, h]

theorem Ordered.taken_is_front {puts takes : History κ α} {held : List α}
    (h : Ordered puts takes held) : elems takes <+: elems puts := ⟨held, h⟩

end CuteOS.Lib.Fifo
