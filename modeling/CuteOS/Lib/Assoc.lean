/-
  Lib/Assoc.lean --- lists of pairs with unique keys as finite maps.
-/
import Mathlib.Data.List.Nodup
import Mathlib.Data.List.Perm.Basic

set_option autoImplicit false

namespace CuteOS.Lib

open Function (update update_idem update_self update_of_ne)

variable {κ ν : Type} {l l' rest : List (κ × ν)} {k : κ} {v v' : ν}

/-- No key occurs twice. -/
def UniqueKeys (l : List (κ × ν)) : Prop := (l.map Prod.fst).Nodup

theorem UniqueKeys.perm (h : UniqueKeys l) (hperm : l.Perm l') : UniqueKeys l' :=
  (hperm.map Prod.fst).nodup_iff.mp h

theorem uniqueKeys_cons : UniqueKeys ((k, v) :: l) ↔ k ∉ l.map Prod.fst ∧ UniqueKeys l :=
  List.nodup_cons

variable [BEq κ] [LawfulBEq κ]

theorem lookup_cons_self : List.lookup k ((k, v) :: l) = some v := by
  simp only [List.lookup_cons, beq_self_eq_true]

theorem lookup_cons_ne {j : κ} (hne : j ≠ k) : List.lookup j ((k, v) :: l) = List.lookup j l := by
  simp only [List.lookup_cons, beq_false_of_ne hne]

theorem lookup_eq_none_of_not_mem (hnot : k ∉ l.map Prod.fst) : l.lookup k = none := by
  induction l with
  | nil => rfl
  | cons pair l ih =>
    rw [List.map_cons, List.mem_cons, not_or] at hnot
    rw [lookup_cons_ne hnot.1]
    exact ih hnot.2

theorem lookup_eq_some_iff (h : UniqueKeys l) : l.lookup k = some v ↔ (k, v) ∈ l := by
  induction l with
  | nil => simp
  | cons pair l ih =>
    obtain ⟨j, w⟩ := pair
    obtain ⟨hnot, hrest⟩ := uniqueKeys_cons.mp h
    by_cases hkey : k = j
    · subst hkey
      rw [lookup_cons_self, List.mem_cons, Prod.mk.injEq, Option.some.injEq]
      constructor
      · rintro rfl
        exact .inl ⟨rfl, rfl⟩
      · rintro (⟨-, rfl⟩ | hmem)
        · rfl
        · exact absurd (List.mem_map_of_mem hmem) hnot
    · rw [lookup_cons_ne hkey, ih hrest, List.mem_cons, Prod.mk.injEq]
      exact ⟨.inr, fun hor => hor.resolve_left fun heq => hkey heq.1⟩

theorem lookup_perm (h : UniqueKeys l) (hperm : l.Perm l') (k : κ) : l'.lookup k = l.lookup k := by
  apply Option.ext
  intro v
  rw [lookup_eq_some_iff (h.perm hperm), lookup_eq_some_iff h, hperm.mem_iff]

variable [DecidableEq κ]

theorem lookup_cons_eq_update (l : List (κ × ν)) (k : κ) (v : ν) :
    (fun j => List.lookup j ((k, v) :: l)) = update (fun j => l.lookup j) k (some v) := by
  funext j
  by_cases hkey : j = k
  · subst hkey
    rw [lookup_cons_self, update_self]
  · rw [lookup_cons_ne hkey, update_of_ne hkey]

theorem lookup_insert (h : UniqueKeys l') (hperm : l'.Perm ((k, v) :: l)) :
    (fun j => l'.lookup j) = update (fun j => l.lookup j) k (some v) := by
  rw [← lookup_cons_eq_update]
  funext j
  exact (lookup_perm h hperm j).symm

theorem lookup_erase (h : UniqueKeys l) (hperm : l.Perm ((k, v) :: l')) :
    (fun j => l'.lookup j) = update (fun j => l.lookup j) k none := by
  rw [lookup_insert h hperm, update_idem]
  funext j
  by_cases hkey : j = k
  · subst hkey
    rw [update_self]
    exact lookup_eq_none_of_not_mem (uniqueKeys_cons.mp (h.perm hperm)).1
  · rw [update_of_ne hkey]

theorem lookup_replace (h : UniqueKeys l) (hperm : l.Perm ((k, v) :: rest))
    (hperm' : l'.Perm ((k, v') :: rest)) :
    UniqueKeys l' ∧ (fun j => l'.lookup j) = update (fun j => l.lookup j) k (some v') := by
  have hrest := uniqueKeys_cons.mp (h.perm hperm)
  have hunique : UniqueKeys l' :=
    UniqueKeys.perm (uniqueKeys_cons.mpr ⟨hrest.1, hrest.2⟩) hperm'.symm
  refine ⟨hunique, ?_⟩
  rw [lookup_insert hunique hperm', lookup_insert h hperm, update_idem]

end CuteOS.Lib
