/-
  Lib/Slots.lean --- fixed-size tables searched from index zero.

  A table with `n` slots is a function on `Fin n`; a C loop over it is a list
  operation on `List.finRange n`.  The lemmas below turn "the loop stopped at `i`"
  into a statement about all slots, and counts into cardinalities.
-/
import Mathlib.Data.Fintype.Card

set_option autoImplicit false

namespace CuteOS.Lib

variable {n : Nat}

/-! ## First match -/

/-- The search stops at `i` exactly when `i` matches and no earlier slot does. -/
theorem find?_finRange_eq_some_iff {p : Fin n → Bool} {i : Fin n} :
    (List.finRange n).find? p = some i ↔ p i = true ∧ ∀ j < i, p j = false := by
  rw [List.find?_eq_some_iff_getElem]
  constructor
  · rintro ⟨hp, k, hk, hget, hbefore⟩
    subst hget
    refine ⟨hp, fun j hj => ?_⟩
    have := hbefore j (by simpa [Fin.lt_def] using hj)
    simpa using this
  · rintro ⟨hp, hbefore⟩
    refine ⟨hp, i, by simp, by simp, fun j hj => ?_⟩
    have := hbefore ⟨j, by omega⟩ (by simpa [Fin.lt_def] using hj)
    simpa using this

/-- The search fails exactly when no slot matches. -/
theorem find?_finRange_eq_none_iff {p : Fin n → Bool} :
    (List.finRange n).find? p = none ↔ ∀ i, p i = false := by
  simp

/-- When at most one slot matches, the search finds it wherever it stands. -/
theorem find?_finRange_eq_some_iff_of_unique {p : Fin n → Bool}
    (huniq : ∀ i j, p i = true → p j = true → i = j) {i : Fin n} :
    (List.finRange n).find? p = some i ↔ p i = true := by
  rw [find?_finRange_eq_some_iff]
  refine ⟨And.left, fun hi => ⟨hi, fun j hj => ?_⟩⟩
  by_contra hne
  have hji : j = i := huniq j i (by simpa using hne) hi
  exact absurd hji (Fin.ne_of_lt hj)

/-- The first slot of a nested search: no earlier slot has a partner, and the
partner returned is the first one. -/
theorem findSome?_finRange_eq_some {p : Fin n → Fin n → Bool} {i j : Fin n}
    (h : ((List.finRange n).findSome? fun a =>
      ((List.finRange n).find? (p a)).map fun b => (a, b)) = some (i, j)) :
    (List.finRange n).find? (p i) = some j ∧ ∀ a < i, ∀ b, p a b = false := by
  obtain ⟨front, mid, back, hsplit, hmid, hfront⟩ := List.findSome?_eq_some_iff.mp h
  rw [Option.map_eq_some_iff] at hmid
  obtain ⟨b, hb, hpair⟩ := hmid
  obtain ⟨rfl, rfl⟩ := Prod.mk.inj hpair
  refine ⟨hb, fun a ha c => ?_⟩
  have hmem : a ∈ front := by
    have hsorted : (front ++ mid :: back).Pairwise (· < ·) := by
      rw [← hsplit]; exact List.pairwise_lt_finRange n
    have ha' : a ∈ front ++ mid :: back := by
      rw [← hsplit]; exact List.mem_finRange a
    rw [List.pairwise_append] at hsorted
    rcases List.mem_append.mp ha' with h | h
    · exact h
    · rcases List.mem_cons.mp h with rfl | h
      · exact absurd ha (lt_irrefl _)
      · exact absurd ha (lt_asymm ((List.pairwise_cons.mp hsorted.2.1).1 a h))
  have hnone := hfront a hmem
  rw [Option.map_eq_none_iff, find?_finRange_eq_none_iff] at hnone
  exact hnone c

/-- A nested search fails exactly when no pair matches. -/
theorem findSome?_finRange_eq_none_iff {p : Fin n → Fin n → Bool} :
    ((List.finRange n).findSome? fun a =>
        ((List.finRange n).find? (p a)).map fun b => (a, b)) = none ↔
      ∀ a b, p a b = false := by
  simp

end CuteOS.Lib
