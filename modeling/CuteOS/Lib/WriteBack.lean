/-
  Lib/WriteBack.lean --- a cache that writes back, as a plain store.

  Every key has a value on the disk, and some keys have a line in the cache.  The store
  is what a reader should see: the last update, or what the disk held at the beginning.
-/
import Mathlib.Logic.Function.Basic
import Mathlib.Logic.Relation

set_option autoImplicit false

namespace CuteOS.Lib.WriteBack

open Function (update update_self update_of_ne)

variable {κ β : Type}

/-- A line of the cache.  `pending` says that the line has been updated and that somebody has
still to mark or to write it. -/
structure Line (β : Type) where
  data : β
  uptodate : Bool
  dirty : Bool
  pending : Bool

structure Cache (κ β : Type) where
  line : κ → Option (Line β)
  disk : κ → β
  store : κ → β

/-- What the cache does with one line. -/
inductive Step [DecidableEq κ] (c : Cache κ β) : Cache κ β → Prop
  /-- A new line, with data that mean nothing. -/
  | insert {k : κ} (data : β) (hnew : c.line k = none) :
      Step c { c with line := update c.line k (some ⟨data, false, false, false⟩) }
  /-- A clean line goes. -/
  | drop {k : κ} {l : Line β} (hline : c.line k = some l) (hclean : l.dirty = false)
      (hfree : l.pending = false) : Step c { c with line := update c.line k none }
  /-- A line is read. -/
  | fill {k : κ} {l : Line β} (hline : c.line k = some l) (hstale : l.uptodate = false)
      (hfree : l.pending = false) :
      Step c { c with
        line := update c.line k (some { l with data := c.disk k, uptodate := true }) }
  /-- Reading a line fails on the way. -/
  | spoil {k : κ} {l : Line β} (data : β) (hline : c.line k = some l) (hstale : l.uptodate = false)
      (hfree : l.pending = false) :
      Step c { c with line := update c.line k (some { l with data := data }) }
  /-- An update. -/
  | update {k : κ} {l : Line β} (v : β) (hline : c.line k = some l) :
      Step c { c with
        line := update c.line k (some { l with data := v, pending := true })
        store := update c.store k v }
  /-- The line is marked dirty. -/
  | mark {k : κ} {l : Line β} (pending : Bool) (hline : c.line k = some l)
      (hknown : l.uptodate = true ∨ l.pending = true) :
      Step c { c with
        line := update c.line k
          (some { l with uptodate := true, dirty := true, pending := pending }) }
  /-- Something is written, maybe not all of it. -/
  | write {k : κ} {l : Line β} (v : β) (hline : c.line k = some l)
      (hneeded : l.dirty = true ∨ l.pending = true) :
      Step c { c with disk := update c.disk k v }
  /-- The line is on the disk. -/
  | clean {k : κ} {l : Line β} (pending : Bool) (hline : c.line k = some l)
      (hdisk : c.disk k = l.data) (hneeded : l.dirty = true ∨ l.pending = true)
      (hpending : pending = true → l.pending = true) :
      Step c { c with
        line := update c.line k (some { l with dirty := false, pending := pending }) }

/-- A line whose value on the disk is `disk` and in the store `store`. -/
structure Line.Ok (l : Line β) (disk store : β) : Prop where
  known : l.uptodate = true ∨ l.pending = true → l.data = store
  valid : l.dirty = true → l.uptodate = true
  settled : l.dirty = false → l.pending = false → disk = store

/-- The cache and the disk together hold the store. -/
structure Coherent (c : Cache κ β) : Prop where
  cached : ∀ k l, c.line k = some l → l.Ok (c.disk k) (c.store k)
  absent : ∀ k, c.line k = none → c.disk k = c.store k

section Steps

variable [DecidableEq κ] {c c' : Cache κ β}

theorem Coherent.setLine (h : Coherent c) {k : κ} {l : Line β} (store : κ → β)
    (hok : l.Ok (c.disk k) (store k)) (hstore : ∀ k', k' ≠ k → store k' = c.store k') :
    Coherent ⟨update c.line k (some l), c.disk, store⟩ := by
  constructor
  · intro k' l' hline
    by_cases hk : k' = k
    · subst hk
      dsimp only at hline
      rw [update_self] at hline
      cases hline
      exact hok
    · dsimp only at hline ⊢
      rw [update_of_ne hk] at hline
      rw [hstore k' hk]
      exact h.cached k' l' hline
  · intro k' hline
    by_cases hk : k' = k
    · subst hk
      dsimp only at hline
      rw [update_self] at hline
      cases hline
    · dsimp only at hline ⊢
      rw [update_of_ne hk] at hline
      rw [hstore k' hk]
      exact h.absent k' hline

theorem Coherent.step (h : Coherent c) (hstep : Step c c') : Coherent c' := by
  cases hstep with
  | insert data hnew =>
    refine h.setLine c.store ⟨?_, ?_, fun _ _ => h.absent _ hnew⟩ fun _ _ => rfl
    · rintro (hfalse | hfalse) <;> cases hfalse
    · intro hfalse
      cases hfalse
  | @drop k l hline hclean hfree =>
    have hdisk := (h.cached k l hline).settled hclean hfree
    constructor
    · intro k' l' hline'
      by_cases hk : k' = k
      · subst hk
        dsimp only at hline'
        rw [update_self] at hline'
        cases hline'
      · dsimp only at hline'
        rw [update_of_ne hk] at hline'
        exact h.cached k' l' hline'
    · intro k' hline'
      by_cases hk : k' = k
      · subst hk
        exact hdisk
      · dsimp only at hline'
        rw [update_of_ne hk] at hline'
        exact h.absent k' hline'
  | @fill k l hline hstale hfree =>
    have hok := h.cached k l hline
    have hclean : l.dirty = false := by
      rw [← Bool.not_eq_true]
      intro hdirty
      rw [hok.valid hdirty] at hstale
      cases hstale
    have hdisk := hok.settled hclean hfree
    exact h.setLine c.store ⟨fun _ => hdisk, fun _ => rfl, fun _ _ => hdisk⟩ fun _ _ => rfl
  | @spoil k l data hline hstale hfree =>
    have hok := h.cached k l hline
    refine h.setLine c.store ⟨?_, hok.valid, hok.settled⟩ fun _ _ => rfl
    rw [hstale, hfree]
    rintro (hfalse | hfalse) <;> cases hfalse
  | @update k l v hline =>
    have hok := h.cached k l hline
    refine h.setLine _ ⟨?_, hok.valid, ?_⟩ fun k' hk => update_of_ne hk ..
    · intro _
      rw [update_self]
    · intro _ hfalse
      cases hfalse
  | @mark k l pending hline hknown =>
    have hok := h.cached k l hline
    refine h.setLine c.store ⟨fun _ => hok.known hknown, fun _ => rfl, ?_⟩ fun _ _ => rfl
    intro hfalse
    cases hfalse
  | @write k l v hline hneeded =>
    constructor
    · intro k' l' hline'
      have hok := h.cached k' l' hline'
      refine ⟨hok.known, hok.valid, fun hclean hfree => ?_⟩
      by_cases hk : k' = k
      · subst hk
        rw [hline] at hline'
        cases hline'
        rw [hclean, hfree] at hneeded
        rcases hneeded with hfalse | hfalse <;> cases hfalse
      · dsimp only
        rw [update_of_ne hk]
        exact hok.settled hclean hfree
    · intro k' hline'
      by_cases hk : k' = k
      · subst hk
        rw [hline] at hline'
        cases hline'
      · dsimp only
        rw [update_of_ne hk]
        exact h.absent k' hline'
  | @clean k l pending hline hdisk hneeded hpending =>
    have hok := h.cached k l hline
    have hdata : l.data = c.store k := hok.known (hneeded.imp_left hok.valid)
    refine h.setLine c.store ⟨fun _ => hdata, ?_, fun _ _ => hdisk.trans hdata⟩ fun _ _ => rfl
    intro hfalse
    cases hfalse

/-- Steps, one after the other. -/
abbrev Reaches : Cache κ β → Cache κ β → Prop := Relation.ReflTransGen Step

theorem Coherent.reaches (h : Coherent c) (hreach : Reaches c c') : Coherent c' := by
  induction hreach with
  | refl => exact h
  | tail _ hstep ih => exact ih.step hstep

/-- The lines `ks` are written, each of them with something. -/
theorem reaches_writes (ks : List κ) (disk : κ → β)
    (hneeded : ∀ k ∈ ks, ∃ l, c.line k = some l ∧ (l.dirty = true ∨ l.pending = true))
    (hother : ∀ k, k ∉ ks → disk k = c.disk k) : Reaches c { c with disk := disk } := by
  induction ks generalizing c with
  | nil =>
    obtain rfl : disk = c.disk := funext fun k => hother k List.not_mem_nil
    exact .refl
  | cons k ks ih =>
    obtain ⟨l, hline, hl⟩ := hneeded k List.mem_cons_self
    refine .head (.write (disk k) hline hl) (@ih { c with disk := update c.disk k (disk k) }
        (fun k' hk' => hneeded k' (List.mem_cons_of_mem _ hk')) fun k' hk' => ?_)
    dsimp only
    by_cases hsame : k' = k
    · rw [hsame, update_self]
    · rw [update_of_ne hsame]
      exact hother k' fun hmem => (List.mem_cons.mp hmem).elim hsame hk'

end Steps

end CuteOS.Lib.WriteBack
