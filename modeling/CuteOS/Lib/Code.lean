/-
  Lib/Code.lean --- straight-line code that can be stopped between two statements.

  The code that a processor has still to run is a list of statements.  Running one
  statement changes the state and gives the statements that take its place: none, the
  branch that was chosen, or the body of the function it calls.  `Leaves code s P` says
  that the rest of the code, run from `s` without interruption, ends in `P`; it is what
  one states about a state in the middle of a function.
-/
import Mathlib.Logic.Basic

set_option autoImplicit false

namespace CuteOS.Lib.Code

variable {σ ι : Type} (exec : ι → σ → Option (σ × List ι))

/-- `code`, run from `s` to its end, leaves `s'`; `exec` returns `none` where a statement
stops the machine. -/
inductive Finishes : List ι → σ → σ → Prop
  | done (s : σ) : Finishes [] s s
  | step {i : ι} {rest more : List ι} {s s₁ s' : σ} (hexec : exec i s = some (s₁, more))
      (hrest : Finishes (more ++ rest) s₁ s') : Finishes (i :: rest) s s'

/-- Whatever `code` leaves when it is run from `s` satisfies `P`. -/
def Leaves (code : List ι) (s : σ) (P : σ → Prop) : Prop := ∀ s', Finishes exec code s s' → P s'

variable {exec} {P : σ → Prop} {s s' : σ} {c d : List ι} {i : ι}

theorem Finishes.split (h : Finishes exec (c ++ d) s s') :
    ∃ mid, Finishes exec c s mid ∧ Finishes exec d mid s' := by
  generalize hcode : c ++ d = code at h
  -- along the run; what a statement of `c` expands to is again in front of `d`
  induction h generalizing c with
  | done s =>
    obtain ⟨rfl, rfl⟩ := List.append_eq_nil_iff.mp hcode
    exact ⟨s, .done s, .done s⟩
  | @step i rest more s s₁ s' hexec hrest ih =>
    cases c with
    | nil =>
      subst hcode
      exact ⟨s, .done s, .step hexec hrest⟩
    | cons j c =>
      obtain ⟨rfl, rfl⟩ := List.cons_eq_cons.mp hcode
      obtain ⟨mid, hmid, hd⟩ := ih (c := more ++ c) (List.append_assoc more c d)
      exact ⟨mid, .step hexec hmid, hd⟩

theorem Finishes.append {mid : σ} (hc : Finishes exec c s mid) (hd : Finishes exec d mid s') :
    Finishes exec (c ++ d) s s' := by
  induction hc with
  | done s => exact hd
  | step hexec _ ih =>
    have hrest := ih hd
    rw [List.append_assoc] at hrest
    exact .step hexec hrest

@[simp] theorem leaves_nil : Leaves exec [] s P ↔ P s := by
  constructor
  · intro h
    exact h s (.done s)
  · intro h s' hfin
    cases hfin
    exact h

theorem leaves_cons : Leaves exec (i :: c) s P ↔
    ∀ s₁ more, exec i s = some (s₁, more) → Leaves exec (more ++ c) s₁ P := by
  constructor
  · intro h s₁ more hexec s' hrest
    exact h s' (.step hexec hrest)
  · intro h s' hfin
    cases hfin with
    | step hexec hrest => exact h _ _ hexec s' hrest

theorem leaves_append :
    Leaves exec (c ++ d) s P ↔ Leaves exec c s fun mid => Leaves exec d mid P := by
  constructor
  · intro h mid hc s' hd
    exact h s' (hc.append hd)
  · intro h s' hfin
    obtain ⟨mid, hc, hd⟩ := hfin.split
    exact h mid hc s' hd

/-- A statement that goes on with `more`. -/
theorem leaves_cons_of_eq {s₁ : σ} {more : List ι} (hexec : exec i s = some (s₁, more)) :
    Leaves exec (i :: c) s P ↔ Leaves exec (more ++ c) s₁ P := by
  rw [leaves_cons]
  constructor
  · intro h
    exact h s₁ more hexec
  · intro h s₂ more' hexec'
    obtain ⟨rfl, rfl⟩ := Prod.mk.inj (Option.some.inj (hexec.symm.trans hexec'))
    exact h

/-- A statement that stops the machine. -/
theorem leaves_cons_of_none (hexec : exec i s = none) : Leaves exec (i :: c) s P := by
  rw [leaves_cons]
  intro s₁ more h
  cases hexec.symm.trans h

end CuteOS.Lib.Code
