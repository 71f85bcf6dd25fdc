/-
  Lib/RefTable.lean --- reference-counted objects and the pointers to them.

  A table of objects with a count each.  `Counted table held` says that the count of
  every object is the number of pointers to it in `held`, so that an object is freed
  by `put` exactly when the last pointer goes.  Pointers that may be NULL are
  `Option Nat`; a NULL pointer counts for nothing.
-/
import Mathlib.Data.List.Count
import Mathlib.Data.List.Perm.Basic

set_option autoImplicit false

namespace CuteOS.Lib

open Function (update update_self update_of_ne update_eq_self)

/-- An object and its reference count. -/
structure Cell (α : Type) where
  refs : Nat
  val : α

/-- Objects by number; `next` is the number of the next allocation. -/
structure RefTable (α : Type) where
  cell : Nat → Option (Cell α)
  next : Nat

namespace RefTable

variable {α : Type}

def empty : RefTable α := ⟨fun _ => none, 0⟩

/-- A new object with one reference. -/
def alloc (table : RefTable α) (v : α) : RefTable α :=
  ⟨update table.cell table.next (some ⟨1, v⟩), table.next + 1⟩

/-- Take a reference. -/
def get (table : RefTable α) : Option Nat → RefTable α
  | none => table
  | some i =>
    { table with
      cell := update table.cell i
        ((table.cell i).map fun c => ⟨c.refs + 1, c.val⟩) }

/-- Drop a reference; the object goes with the last one. -/
def put (table : RefTable α) : Option Nat → RefTable α
  | none => table
  | some i =>
    { table with
      cell := update table.cell i
        ((table.cell i).bind fun c =>
          if c.refs = 1 then none else some ⟨c.refs - 1, c.val⟩) }

/-- Change an object in place. -/
def modify (table : RefTable α) (p : Option Nat) (f : α → α) : RefTable α :=
  match p with
  | none => table
  | some i =>
    { table with
      cell := update table.cell i
        ((table.cell i).map fun c => ⟨c.refs, f c.val⟩) }

/-- The object behind a pointer. -/
def val? (table : RefTable α) (p : Option Nat) : Option α :=
  p.bind fun i => (table.cell i).map Cell.val

/-- The count of the object behind a pointer. -/
def refs (table : RefTable α) (p : Option Nat) : Nat :=
  match p.bind table.cell with
  | none => 0
  | some c => c.refs

theorem val?_modify_self (table : RefTable α) (p : Option Nat) (f : α → α) :
    (table.modify p f).val? p = (table.val? p).map f := by
  cases p with
  | none => rfl
  | some i =>
    simp only [modify, val?, Option.bind_some, update_self, Option.map_map]
    rfl

theorem val?_modify_of_ne (table : RefTable α) {p q : Option Nat} (f : α → α) (hne : p ≠ q) :
    (table.modify p f).val? q = table.val? q := by
  cases p with
  | none => rfl
  | some i =>
    cases q with
    | none => rfl
    | some j =>
      have hij : j ≠ i := fun h => hne (by rw [h])
      simp only [modify, val?, Option.bind_some, update_of_ne hij]

/-! ## Counts -/

/-- The pointers in `held` are all there are: each count is the number of pointers to
the object, no object without pointers is left, and no number is used in advance. -/
structure Counted (table : RefTable α) (held : List (Option Nat)) : Prop where
  refs : ∀ i c, table.cell i = some c → c.refs = held.count (some i)
  live : ∀ i, some i ∈ held ↔ (table.cell i).isSome = true
  fresh : ∀ i, table.next ≤ i → table.cell i = none

namespace Counted

variable {table : RefTable α} {held held' : List (Option Nat)} {p q : Option Nat}

theorem empty : Counted (RefTable.empty : RefTable α) [] := by
  refine ⟨?_, ?_, fun _ _ => rfl⟩
  · intro i c hcell
    cases hcell
  · simp [RefTable.empty]

theorem perm (h : Counted table held) (hperm : held.Perm held') : Counted table held' := by
  refine ⟨?_, ?_, h.fresh⟩
  · intro i c hcell
    rw [← hperm.count_eq]
    exact h.refs i c hcell
  · intro i
    rw [← hperm.mem_iff]
    exact h.live i

/-- A NULL pointer counts for nothing. -/
theorem cons_none (h : Counted table held) : Counted table (none :: held) := by
  refine ⟨?_, ?_, h.fresh⟩
  · intro i c hcell
    rw [h.refs i c hcell, List.count_cons_of_ne (by simp)]
  · intro i
    rw [← h.live i]
    simp

theorem of_cons_none (h : Counted table (none :: held)) : Counted table held := by
  refine ⟨?_, ?_, h.fresh⟩
  · intro i c hcell
    rw [h.refs i c hcell, List.count_cons_of_ne (by simp)]
  · intro i
    rw [← h.live i]
    simp

section

variable (h : Counted table held)
include h

theorem exists_cell {i : Nat} (hi : some i ∈ held) :
    ∃ c, table.cell i = some c ∧ c.refs = held.count (some i) := by
  have hsome := (h.live i).mp hi
  obtain ⟨c, hc⟩ := Option.isSome_iff_exists.mp hsome
  exact ⟨c, hc, h.refs i c hc⟩

theorem next_not_mem : some table.next ∉ held := by
  intro hmem
  have hsome := (h.live _).mp hmem
  rw [h.fresh _ (Nat.le_refl _)] at hsome
  cases hsome

theorem lt_next {i : Nat} {c : Cell α} (hc : table.cell i = some c) :
    i < table.next := by
  apply Nat.lt_of_not_le
  intro hle
  rw [h.fresh i hle] at hc
  cases hc

/-- One object changes, and with it the number of pointers to it. -/
theorem of_update {table' : RefTable α} {j : Nat}
    {o : Option (Cell α)} (hcell : table'.cell = update table.cell j o)
    (hnext : table.next ≤ table'.next) (hj : j < table'.next)
    (hother : ∀ i, i ≠ j → held'.count (some i) = held.count (some i))
    (hrefs : ∀ c, o = some c → c.refs = held'.count (some j))
    (hlive : some j ∈ held' ↔ o.isSome = true) : Counted table' held' := by
  refine ⟨?_, ?_, ?_⟩
  · intro i c hc
    rw [hcell] at hc
    by_cases hi : i = j
    · subst hi
      rw [update_self] at hc
      exact hrefs c hc
    · rw [update_of_ne hi] at hc
      rw [hother i hi]
      exact h.refs i c hc
  · intro i
    rw [hcell]
    by_cases hi : i = j
    · subst hi
      rw [update_self]
      exact hlive
    · rw [update_of_ne hi, ← h.live i, ← List.count_pos_iff, hother i hi, List.count_pos_iff]
  · intro i hle
    have hi : i ≠ j := by omega
    rw [hcell, update_of_ne hi]
    exact h.fresh i (by omega)

end

theorem count_cons_some_of_ne {i j : Nat} (hi : i ≠ j) (held : List (Option Nat)) :
    (some j :: held).count (some i) = held.count (some i) := by
  apply List.count_cons_of_ne
  intro heq
  exact hi (Option.some.inj heq).symm

theorem alloc (h : Counted table held) (v : α) :
    Counted (table.alloc v) (some table.next :: held) := by
  apply h.of_update rfl (Nat.le_succ _) (Nat.lt_succ_self _)
  · intro i hi
    exact count_cons_some_of_ne hi held
  · intro c hc
    cases hc
    rw [List.count_cons_self, List.count_eq_zero_of_not_mem h.next_not_mem]
  · simp

theorem get (h : Counted table held) (hp : p ∈ held) : Counted (table.get p) (p :: held) := by
  cases p with
  | none => exact h.cons_none
  | some j =>
    obtain ⟨d, hd, hcount⟩ := h.exists_cell hp
    have hcell : (table.get (some j)).cell =
        update table.cell j (some ⟨d.refs + 1, d.val⟩) := by
      rw [RefTable.get, hd]
      rfl
    apply h.of_update hcell (Nat.le_refl _) (h.lt_next hd)
    · intro i hi
      exact count_cons_some_of_ne hi held
    · intro c hc
      cases hc
      rw [List.count_cons_self, ← hcount]
    · simp

theorem put (h : Counted table (p :: held)) : Counted (table.put p) held := by
  cases p with
  | none => exact h.of_cons_none
  | some j =>
    obtain ⟨d, hd, hcount⟩ := h.exists_cell (List.mem_cons_self)
    rw [List.count_cons_self] at hcount
    have hcell : (table.put (some j)).cell = update table.cell j
        (if d.refs = 1 then none else some ⟨d.refs - 1, d.val⟩) := by
      rw [RefTable.put, hd]
      rfl
    apply h.of_update hcell (Nat.le_refl _) (h.lt_next hd)
    · intro i hi
      exact (count_cons_some_of_ne hi held).symm
    · intro c hc
      by_cases hone : d.refs = 1
      · rw [if_pos hone] at hc
        cases hc
      · rw [if_neg hone] at hc
        cases hc
        simp [hcount]
    · rw [← List.count_pos_iff]
      by_cases hone : d.refs = 1
      · have hzero : held.count (some j) = 0 := by omega
        simp [hone, hzero]
      · have hpos : 0 < held.count (some j) := by omega
        simp [hone, hpos]

theorem modify (h : Counted table held) (p : Option Nat) (f : α → α) :
    Counted (table.modify p f) held := by
  cases p with
  | none => exact h
  | some j =>
    cases hd : table.cell j with
    | none =>
      have hsame : table.modify (some j) f = table := by
        rw [RefTable.modify, hd, Option.map_none, ← hd, update_eq_self]
      rw [hsame]
      exact h
    | some d =>
      have hcell : (table.modify (some j) f).cell =
          update table.cell j (some ⟨d.refs, f d.val⟩) := by
        rw [RefTable.modify, hd]
        rfl
      apply h.of_update hcell (Nat.le_refl _) (h.lt_next hd)
      · intro i _
        rfl
      · intro c hc
        cases hc
        exact h.refs j d hd
      · rw [h.live j, hd]
        rfl

/-! ## What the other holders see -/

theorem val?_alloc (h : Counted table held) (v : α) (hq : q ∈ held) :
    (table.alloc v).val? q = table.val? q := by
  cases q with
  | none => rfl
  | some j =>
    have hj : j ≠ table.next := by
      intro heq
      subst heq
      exact h.next_not_mem hq
    simp only [val?, RefTable.alloc, Option.bind_some, update_of_ne hj]

/-- Dropping one pointer does not change the object for those who keep theirs. -/
theorem val?_put (h : Counted table (p :: held)) (hq : q ∈ held) :
    (table.put p).val? q = table.val? q := by
  cases p with
  | none => rfl
  | some i =>
    cases q with
    | none => rfl
    | some j =>
      by_cases hij : j = i
      · subst hij
        obtain ⟨d, hd, hcount⟩ := h.exists_cell (List.mem_cons_self)
        rw [List.count_cons_self] at hcount
        have hpos : 0 < held.count (some j) := List.count_pos_iff.mpr hq
        have hone : d.refs ≠ 1 := by omega
        simp only [RefTable.put, val?, Option.bind_some, update_self, hd,
          if_neg hone, Option.map_some]
      · simp only [RefTable.put, val?, Option.bind_some, update_of_ne hij]

/-- A count of one means that nobody else holds the pointer. -/
theorem not_mem_of_refs_eq_one (h : Counted table (p :: held)) (hone : table.refs p = 1) :
    p ∉ held := by
  intro hmem
  cases p with
  | none => simp [RefTable.refs] at hone
  | some i =>
    obtain ⟨d, hd, hcount⟩ := h.exists_cell (List.mem_cons_self)
    rw [List.count_cons_self] at hcount
    have hpos : 0 < held.count (some i) := List.count_pos_iff.mpr hmem
    simp only [RefTable.refs, Option.bind_some, hd] at hone
    omega

end Counted

end RefTable

/-! ## Pointers by owner -/

/-- The pointers of the owners in a list, one owner's brought to the front. -/
theorem map_perm_cons_erase {β : Type} (f : Nat → β) {owners : List Nat} {t : Nat}
    (ht : t ∈ owners) : (owners.map f).Perm (f t :: (owners.erase t).map f) :=
  (List.perm_cons_erase ht).map f

end CuteOS.Lib
