/-
  Lib/Runs.lean --- runs of a labelled system whose steps all meet a condition.
-/
import Mathlib.Logic.Relation

set_option autoImplicit false

namespace CuteOS.Lib

variable {σ α : Type}

/-- A run each of whose steps meets `cond` in the state before it. -/
def Runs (step : σ → α → σ → Prop) (cond : σ → α → Prop) : σ → σ → Prop :=
  Relation.ReflTransGen fun s s' => ∃ a, cond s a ∧ step s a s'

/-- The state after a list of actions, or `none` when one of them is not possible or does not
pass `ok`. -/
def runAll (next : σ → α → Option σ) (ok : σ → α → Bool) : List α → σ → Option σ
  | [], s => some s
  | a :: rest, s => if ok s a then (next s a).bind (runAll next ok rest) else none

variable {step : σ → α → σ → Prop} {cond : σ → α → Prop} {s s' : σ}

/-- What every step keeps under a condition holds in every state of such a run. -/
theorem Runs.induct {inv : σ → Prop} (hrun : Runs step cond s s') (hstart : inv s)
    (hstep : ∀ s a s', inv s → cond s a → step s a s' → inv s') : inv s' := by
  induction hrun with
  | refl => exact hstart
  | tail _ hlast ih =>
    obtain ⟨a, hcond, hlast⟩ := hlast
    exact hstep _ a _ ih hcond hlast

/-- A list of actions that are possible and pass the check is a run. -/
theorem Runs.of_runAll {next : σ → α → Option σ} {ok : σ → α → Bool} {actions : List α}
    (hnext : ∀ s a s', next s a = some s' → step s a s') (hok : ∀ s a, ok s a = true → cond s a)
    (heq : runAll next ok actions s = some s') : Runs step cond s s' := by
  induction actions generalizing s with
  | nil =>
    obtain rfl := Option.some.inj heq
    exact .refl
  | cons a rest ih =>
    unfold runAll at heq
    split at heq
    · rename_i hpass
      obtain ⟨s1, hfirst, hrest⟩ := Option.bind_eq_some_iff.mp heq
      exact .head ⟨a, hok s a hpass, hnext s a s1 hfirst⟩ (ih hrest)
    · cases heq

end CuteOS.Lib
