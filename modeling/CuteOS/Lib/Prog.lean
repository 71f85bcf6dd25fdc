/-
  Lib/Prog.lean --- computations that fail and keep their state.

  A C function that returns an errno leaves its effects behind when it fails.
  `Prog` is the corresponding monad: a state transformer whose result is a value
  or an error, with the final state in both cases.  `Triple` is its Hoare logic,
  with one postcondition for a return and one for a failure.
-/
import Mathlib.Logic.Basic

set_option autoImplicit false

namespace CuteOS.Lib

/-- A computation on states `σ` that returns an `α` or fails with an `ε`. -/
def Prog (ε σ α : Type) : Type := σ → Except ε α × σ

namespace Prog

variable {ε σ α β ι : Type}

def ret (a : α) : Prog ε σ α := fun s => (.ok a, s)

def fail (e : ε) : Prog ε σ α := fun s => (.error e, s)

def andThen (m : Prog ε σ α) (k : α → Prog ε σ β) : Prog ε σ β := fun s =>
  match m s with
  | (.ok a, s') => k a s'
  | (.error e, s') => (.error e, s')

instance : Monad (Prog ε σ) where
  pure := ret
  bind := andThen

/-- The current state. -/
def read : Prog ε σ σ := fun s => (.ok s, s)

/-- A step that cannot fail. -/
def update (f : σ → σ) : Prog ε σ Unit := fun s => (.ok (), f s)

/-- Fail with `e` unless `c` holds. -/
def require (c : Bool) (e : ε) : Prog ε σ Unit := if c then ret () else fail e

/-- The outcome of a function that does not touch the state. -/
def lift (x : Except ε α) : Prog ε σ α := fun s => (x, s)

/-- Run `cleanup` when `m` fails, and fail with the error of `m`. -/
def onError (m : Prog ε σ α) (cleanup : σ → σ) : Prog ε σ α := fun s =>
  match m s with
  | (.ok a, s') => (.ok a, s')
  | (.error e, s') => (.error e, cleanup s')

/-! ## Runs -/

@[simp] theorem lift_apply (x : Except ε α) (s : σ) : (lift x : Prog ε σ α) s = (x, s) := rfl

theorem bind_of_ok {m : Prog ε σ α} {k : α → Prog ε σ β} {s s' : σ} {a : α}
    (h : m s = (.ok a, s')) : (m >>= k) s = k a s' := by
  change andThen m k s = k a s'
  rw [andThen, h]

theorem bind_of_error {m : Prog ε σ α} {k : α → Prog ε σ β} {s s' : σ} {e : ε}
    (h : m s = (.error e, s')) : (m >>= k) s = (.error e, s') := by
  change andThen m k s = (.error e, s')
  rw [andThen, h]

@[simp] theorem read_bind (k : σ → Prog ε σ β) (s : σ) :
    ((read : Prog ε σ σ) >>= k) s = k s s := rfl

theorem require_bind_of_true {c : Bool} {e : ε} {k : Unit → Prog ε σ β} {s : σ}
    (h : c = true) : ((require c e : Prog ε σ Unit) >>= k) s = k () s := by
  rw [require, if_pos h]
  rfl

/-! ## Pre- and postconditions -/

/-- From a state in `P`, `m` returns in `Q` or fails in `E`. -/
def Triple (P : σ → Prop) (m : Prog ε σ α) (Q : α → σ → Prop) (E : ε → σ → Prop) : Prop :=
  ∀ s, P s → match m s with
    | (.ok a, s') => Q a s'
    | (.error e, s') => E e s'

namespace Triple

variable {P P' : σ → Prop} {Q Q' : α → σ → Prop} {R : β → σ → Prop} {E E' : ε → σ → Prop}
variable {m : Prog ε σ α}

/-- What holds after every outcome holds of the final state. -/
theorem final {I : σ → Prop} (h : Triple P m (fun _ => I) (fun _ => I)) {s : σ} (hp : P s) :
    I (m s).2 := by
  have := h s hp
  revert this
  rcases m s with ⟨_ | _, s'⟩ <;> exact id

theorem weaken (h : Triple P m Q E) (hpre : ∀ s, P' s → P s)
    (hpost : ∀ a s, Q a s → Q' a s) (herr : ∀ e s, E e s → E' e s) : Triple P' m Q' E' := by
  intro s hs
  have := h s (hpre s hs)
  revert this
  rcases m s with ⟨e | a, s'⟩
  · exact herr e s'
  · exact hpost a s'

theorem bind {k : α → Prog ε σ β} (hm : Triple P m Q E) (hk : ∀ a, Triple (Q a) (k a) R E) :
    Triple P (m >>= k) R E := by
  intro s hs
  have hfirst := hm s hs
  change match andThen m k s with
    | (.ok a, s') => R a s'
    | (.error e, s') => E e s'
  rw [andThen]
  revert hfirst
  rcases m s with ⟨e | a, s'⟩
  · exact id
  · exact hk a s'

theorem pure (a : α) (h : ∀ s, P s → Q a s) : Triple P (Pure.pure a) Q E := h

theorem read_bind {k : σ → Prog ε σ β} (h : ∀ s, P s → Triple (· = s) (k s) R E) :
    Triple P (read >>= k) R E :=
  fun s hs => h s hs s rfl

theorem update (f : σ → σ) {Q : Unit → σ → Prop} (h : ∀ s, P s → Q () (f s)) :
    Triple P (Prog.update f) Q E := h

theorem require {c : Bool} {e : ε} {Q : Unit → σ → Prop}
    (hok : ∀ s, P s → c = true → Q () s) (herr : ∀ s, P s → ¬c = true → E e s) :
    Triple P (Prog.require c e) Q E := by
  by_cases hc : c = true
  · rw [Prog.require, if_pos hc]
    exact fun s hs => hok s hs hc
  · rw [Prog.require, if_neg hc]
    exact fun s hs => herr s hs hc

theorem lift {x : Except ε α} (hok : ∀ a s, P s → x = .ok a → Q a s)
    (herr : ∀ e s, P s → x = .error e → E e s) : Triple P (Prog.lift x) Q E := by
  intro s hs
  cases x with
  | ok a => exact hok a s hs rfl
  | error e => exact herr e s hs rfl

theorem onError {cleanup : σ → σ} (hm : Triple P m Q E') (h : ∀ e s, E' e s → E e (cleanup s)) :
    Triple P (Prog.onError m cleanup) Q E := by
  intro s hs
  have := hm s hs
  revert this
  rw [Prog.onError]
  rcases m s with ⟨e | a, s'⟩
  · exact h e s'
  · exact id

end Triple

end Prog

end CuteOS.Lib
