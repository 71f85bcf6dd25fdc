/-
  Kernel/Fatal.lean --- fatal signals and the return to user mode.

  `trap_user_return` runs `do_signal` first and may then call `schedule()`; nothing looks
  at the pending signals between that point and `sret`.  And `do_signal` returns as soon as
  it has set up a handler, or when nothing is left that the deferred mask of
  `rt_sigsuspend` does not block, and only then restores the mask.
-/
import CuteOS.Kernel.UserMode

set_option autoImplicit false

namespace CuteOS.Kernel

open CuteOS.Lib

variable {u : TaskId}

namespace System

/-! ## Fatal signals -/

/-- The action ends or stops the task. -/
def SignalAction.fatal : SignalAction → Bool
  | .terminate | .stop => true
  | .ignore | .handle => false

/-- Signal `sig`, if it were pending for `t`, would end or stop it. -/
def Fatal (s : System) (t : TaskId) (sig : Nat) : Prop :=
  hasSignal (s.effectiveBlocked t) sig = false ∧
    (s.signalAction t sig (hasSignal (s.task t).sigctx.forcedPending sig)).fatal = true

/-- A signal is pending that is not blocked and ends or stops the task; `SIGKILL` and
`SIGSTOP` are never blocked. -/
def FatalPending (s : System) (t : TaskId) : Prop :=
  ∃ sig, ValidSignal sig ∧ s.IsPending t sig ∧ s.Fatal t sig

variable {s' : System} {t : TaskId} {sig : Nat}

variable {s : System}

/-- The action depends on the role of the task and on the handler. -/
theorem signalAction_congr (hinit : s'.initProcessIsTask t = s.initProcessIsTask t)
    (haction : s'.sigaction t sig = s.sigaction t sig) (forced : Bool) :
    s'.signalAction t sig forced = s.signalAction t sig forced := by
  unfold signalAction signalInitDefaultIgnored signalHandlerForTask
  rw [hinit, haction]

/-- An unforced signal is fatal only if a forced one is. -/
theorem fatal_of_unforced (h : (s.signalAction t sig false).fatal = true) :
    (s.signalAction t sig true).fatal = true := by
  unfold signalAction at h ⊢
  dsimp only at h ⊢
  split at h
  · cases h
  · simpa using h

/-- `SIGCHLD` is ignored or caught. -/
theorem sigchld_not_fatal (s : System) (t : TaskId) : ¬s.Fatal t sigchld := by
  rintro ⟨-, hfatal⟩
  revert hfatal
  unfold signalAction
  have hstops : signalStopsDefault sigchld (s.sigaction t sigchld).saHandler = false := by
    unfold signalStopsDefault
    have h1 : (sigchld == sigstop) = false := by decide
    have h2 : signalIsStopSignal sigchld = false := by decide
    rw [h1, h2, Bool.and_false, Bool.or_false]
  have hkill : (sigchld == sigkill) = false := by decide
  have hdefault : signalIsFatalDefault sigchld = false := by decide
  dsimp only
  repeat' split
  all_goals simp_all [SignalAction.fatal]

/-- A step that neither unblocks a signal nor forces it nor changes its action. -/
theorem Fatal.of_kept {x : Nat} (hblocked : hasSignal (s'.effectiveBlocked u) x = false →
      hasSignal (s.effectiveBlocked u) x = false)
    (hforced : hasSignal (s'.task u).sigctx.forcedPending x = true →
      hasSignal (s.task u).sigctx.forcedPending x = true)
    (haction : ∀ forced, s'.signalAction u x forced = s.signalAction u x forced)
    (h : s'.Fatal u x) : s.Fatal u x := by
  obtain ⟨hb, hfatal⟩ := h
  refine ⟨hblocked hb, ?_⟩
  rw [haction] at hfatal
  cases hf' : hasSignal (s'.task u).sigctx.forcedPending x with
  | true =>
    rw [hforced hf']
    rw [hf'] at hfatal
    exact hfatal
  | false =>
    rw [hf'] at hfatal
    cases hasSignal (s.task u).sigctx.forcedPending x with
    | false => exact hfatal
    | true => exact fatal_of_unforced hfatal

theorem SameSignals.fatalPending (h : SameSignals s s' u)
    (hfatal : s'.FatalPending u) : s.FatalPending u := by
  obtain ⟨x, hx, hp, hfatalx⟩ := hfatal
  refine ⟨x, hx, (h.pending x).mp hp, hfatalx.of_kept ?_ ?_ ?_⟩
  · rw [h.blocked]
    exact id
  · rw [h.forced]
    exact id
  · exact signalAction_congr h.init (h.actions x)

/-! ## What the parts of `do_signal` do to the others -/

/-- Nobody gains a signal, nobody unblocks one, and all actions stay. -/
structure Shrinks (s s' : System) : Prop where
  pending : ∀ u x, ValidSignal x → s'.IsPending u x → s.IsPending u x
  forced : ∀ u x, ValidSignal x → hasSignal (s'.task u).sigctx.forcedPending x = true →
    hasSignal (s.task u).sigctx.forcedPending x = true
  blocked : ∀ u x, ValidSignal x → hasSignal (s'.effectiveBlocked u) x = false →
    hasSignal (s.effectiveBlocked u) x = false
  actions : ∀ u x, s'.sigaction u x = s.sigaction u x
  init : ∀ u, s'.initProcessIsTask u = s.initProcessIsTask u

namespace Shrinks

variable {s1 s2 : System}

theorem refl (s : System) : Shrinks s s :=
  ⟨fun _ _ _ h => h, fun _ _ _ h => h, fun _ _ _ h => h, fun _ _ => rfl, fun _ => rfl⟩

theorem trans (h1 : Shrinks s s1) (h2 : Shrinks s1 s2) : Shrinks s s2 where
  pending := fun u x hx h => h1.pending u x hx (h2.pending u x hx h)
  forced := fun u x hx h => h1.forced u x hx (h2.forced u x hx h)
  blocked := fun u x hx h => h1.blocked u x hx (h2.blocked u x hx h)
  actions := fun u x => (h2.actions u x).trans (h1.actions u x)
  init := fun u => (h2.init u).trans (h1.init u)

theorem fatalPending (h : Shrinks s s1) (hfatal : s1.FatalPending u) : s.FatalPending u := by
  obtain ⟨x, hx, hp, hfatalx⟩ := hfatal
  exact ⟨x, hx, h.pending u x hx hp, hfatalx.of_kept (h.blocked u x hx) (h.forced u x hx)
    (signalAction_congr (h.init u) (h.actions u x))⟩

end Shrinks

/-- A write to one task that leaves its pending signals and its place alone and blocks no
less. -/
theorem shrinks_setTask (s : System) (t : TaskId) {f : Task → Task}
    (hres : (f (s.task t)).resources = (s.task t).resources)
    (hleader : (f (s.task t)).groupLeader = (s.task t).groupLeader)
    (hpending : (f (s.task t)).sigctx.pending = (s.task t).sigctx.pending)
    (hforced : (f (s.task t)).sigctx.forcedPending = (s.task t).sigctx.forcedPending)
    (hblocked : ∀ x, hasSignal (s.task t).sigctx.blocked x = true →
      hasSignal (~~~unblockableMask) x = true →
        hasSignal (f (s.task t)).sigctx.blocked x = true) : Shrinks s (s.setTask t f) := by
  have hposted : Posted (fun _ _ => False) (fun _ _ => False) s (s.setTask t f) :=
    posted_setTask hres hpending hforced
  constructor
  · exact fun u x hx h => (hposted.upper u x hx h).resolve_right id
  · exact hposted.forced
  · intro u x _ hfree
    rw [effectiveBlocked, hasSignal_and, Bool.and_eq_false_iff] at hfree ⊢
    rw [setTask_task] at hfree
    split_ifs at hfree with hu
    · subst hu
      by_contra hboth
      simp only [not_or, Bool.not_eq_false] at hboth
      have hstill := hblocked x hboth.1 hboth.2
      rw [hstill, hboth.2] at hfree
      simp at hfree
    · exact hfree
  · exact fun u x => sigaction_setTask s t u hres x
  · exact fun u => initProcessIsTask_setTask s t u hleader

theorem posted_takeSignal (s : System) (t : TaskId) (sig : Nat) (shared : Bool) :
    Posted (fun _ _ => False) (fun _ _ => True) s (s.takeSignal t sig shared) := by
  unfold takeSignal
  split
  · apply posted_setSharedPending
    · exact fun _ set x _ hx hp => .inl ((hasSignal_clear hx).mp hp).1
    · exact fun _ _ _ _ _ _ hloss => absurd trivial hloss
  · exact posted_signalClearPending fun _ _ => trivial

/-- Taking a signal writes only what sending writes. -/
theorem signalled_takeSignal (s : System) (t : TaskId) (sig : Nat) (shared : Bool) :
    Signalled s (s.takeSignal t sig shared) := by
  unfold takeSignal
  split
  · exact .setSharedPending s t _
  · exact signalled_signalClearPending s t _

theorem shrinks_takeSignal (s : System) (t : TaskId) (sig : Nat) (shared : Bool) :
    Shrinks s (s.takeSignal t sig shared) := by
  have hposted := posted_takeSignal s t sig shared
  have hsignalled := signalled_takeSignal s t sig shared
  constructor
  · exact fun u x hx h => (hposted.upper u x hx h).resolve_right id
  · exact hposted.forced
  · intro u x _ hfree
    rwa [effectiveBlocked, (hsignalled.task u).same] at hfree
  · exact hsignalled.sigaction
  · exact hsignalled.initProcessIsTask

theorem shrinks_restartForSignal (s : System) (t : TaskId) (saRestart : Bool) :
    Shrinks s (s.restartForSignal t saRestart) := by
  unfold restartForSignal restartClear
  dsimp only
  split
  · exact .refl s
  split
  · exact shrinks_setTask s t rfl rfl rfl rfl fun _ h _ => h
  · exact shrinks_setTask s t rfl rfl rfl rfl fun _ h _ => h

theorem shrinks_dequeueSignal (s : System) (t : TaskId) (sig : Nat) (shared : Bool) :
    Shrinks s (s.dequeueSignal t sig shared) := by
  unfold dequeueSignal
  dsimp only
  split
  · exact (shrinks_takeSignal s t sig shared).trans (shrinks_restartForSignal _ t false)
  · exact shrinks_takeSignal s t sig shared

/-- Sending makes a fatal signal pending only if the signal itself is fatal. -/
theorem fatalPending_of_posted {gain loss : TaskId → Nat → Prop}
    (hsignalled : Signalled s s') (hposted : Posted gain loss s s')
    (hgain : ∀ x, gain u x → ¬s.Fatal u x) (hfatal : s'.FatalPending u) : s.FatalPending u := by
  obtain ⟨x, hx, hp, hfatalx⟩ := hfatal
  have hold : s.Fatal u x := by
    refine hfatalx.of_kept ?_ (hposted.forced u x hx)
      (signalAction_congr (hsignalled.initProcessIsTask u) (hsignalled.sigaction u x))
    rw [effectiveBlocked, (hsignalled.task u).same]
    exact id
  cases hposted.upper u x hx hp with
  | inl hbefore => exact ⟨x, hx, hbefore, hold⟩
  | inr hnew => exact absurd hold (hgain x hnew)

/-! ## Entering a handler -/

/-- Resetting an action matters to nobody for whom the signal is not pending. -/
theorem fatalPending_resetSignalAction (hnot : s.SameHandlers t u → ¬s.IsPending u sig)
    (hfatal : (s.resetSignalAction t sig).FatalPending u) : s.FatalPending u := by
  obtain ⟨x, hx, hp, hfatalx⟩ := hfatal
  rw [resetSignalAction, isPending_modifyObject_sighand] at hp
  have haction : (s.resetSignalAction t sig).sigaction u x = s.sigaction u x := by
    refine sigaction_modifyObject s t u _ x ?_
    intro hshare actions
    have hne : x ≠ sig := by
      intro heq
      exact hnot hshare (heq ▸ hp)
    exact Function.update_of_ne hne _ _
  have hdecision : ∀ forced, (s.resetSignalAction t sig).signalAction u x forced =
      s.signalAction u x forced := signalAction_congr rfl haction
  refine ⟨x, hx, hp, Fatal.of_kept ?_ ?_ hdecision hfatalx⟩
  · exact fun h => h
  · exact fun h => h

/-- Nothing that was blocked is unblocked while a handler runs. -/
theorem hasSignal_handlerMask {blocked : SigSet} {x : Nat} (action : SigAction)
    (hx : hasSignal blocked x = true) (hfree : hasSignal (~~~unblockableMask) x = true) :
    hasSignal (handlerMask blocked sig action) x = true := by
  unfold handlerMask
  split <;> simp [hx, hfree]

theorem shrinks_enterHandler (s : System) (t : TaskId) (sig : Nat) (action : SigAction) (sp : Nat)
    (altstack : Bool) : Shrinks s (s.setTask t (enterHandler sig action sp altstack)) :=
  shrinks_setTask s t rfl rfl rfl rfl fun _ hx hfree => hasSignal_handlerMask action hx hfree

/-- A handler is entered: the only signal that can become fatal is the one whose action is
reset. -/
theorem fatalPending_deliverHandler {action : SigAction}
    {env : DeliverEnv} (hdelivery : (s.deliverHandler t sig action env).1 = .handler)
    (hreset : action.hasFlag saResethand = true → s.SameHandlers t u → ¬s.IsPending u sig)
    (hfatal : (s.deliverHandler t sig action env).2.FatalPending u) : s.FatalPending u := by
  have hfirst : (if action.hasFlag saResethand then s.resetSignalAction t sig
      else s).FatalPending u → s.FatalPending u := by
    split
    · rename_i hflag
      exact fatalPending_resetSignalAction (hreset hflag)
    · exact id
  obtain ⟨pc, sp, altstack, heq⟩ := deliverHandler_handler hdelivery
  rw [heq] at hfatal
  generalize (if action.hasFlag saResethand then s.resetSignalAction t sig else s) = s1 at *
  have hpc : Shrinks s1 (s1.setTask t fun task =>
      { task with tf := { task.tf with sepc := pc.getD task.tf.sepc } }) :=
    shrinks_setTask s1 t rfl rfl rfl rfl fun _ h _ => h
  have hrestart := hpc.trans (shrinks_restartForSignal _ t (action.hasFlag saRestart))
  have henter := hrestart.trans (shrinks_enterHandler _ t sig action sp altstack)
  exact hfirst (henter.fatalPending hfatal)

/-- A copy of `sig` is left for `u` after `t` has taken one. -/
def PendingTwice (s : System) (t u : TaskId) (sig : Nat) (shared : Bool) : Prop :=
  ((shared = true ∨ u ≠ t) ∧ hasSignal (s.task u).sigctx.pending sig = true) ∨
    (¬(shared = true ∧ s.SharesSignal t u) ∧ hasSignal (s.sharedPending u) sig = true)

theorem isPending_takeSignal {shared : Bool}
    (hsig : ValidSignal sig) (h : (s.takeSignal t sig shared).IsPending u sig) :
    s.PendingTwice t u sig shared := by
  have hself : ∀ set : SigSet, hasSignal (set &&& ~~~signalMask sig) sig = false := by
    intro set
    rw [Bool.eq_false_iff, Ne, hasSignal_clear hsig, hasSignal_signalMask hsig hsig.1]
    simp
  rw [isPending_iff] at h
  cases shared with
  | true =>
    rw [takeSignal_shared] at h
    cases h with
    | inl hown => exact .inl ⟨.inl rfl, hown⟩
    | inr hsh =>
      by_cases hu : s.SharesSignal t u
      · rw [sharedPending_setSharedPending_self hu] at hsh
        split_ifs at hsh
        · rw [hself] at hsh
          cases hsh
        · simp at hsh
      · rw [sharedPending_setSharedPending_of_ne hu] at hsh
        exact .inr ⟨fun hboth => hu hboth.2, hsh⟩
  | false =>
    have hshared : (s.signalClearPending t (signalMask sig)).sharedPending u =
        s.sharedPending u := by
      unfold signalClearPending setSigctx
      exact sharedPending_setTask s t u rfl
    rw [takeSignal_own, hshared] at h
    cases h with
    | inr hsh => exact .inr ⟨fun hboth => Bool.noConfusion hboth.1, hsh⟩
    | inl hown =>
      rw [signalClearPending, setSigctx, setTask_task] at hown
      split_ifs at hown with hu
      · rw [hself] at hown
        cases hown
      · exact .inl ⟨.inr hu, hown⟩

theorem isPending_dequeueSignal {shared : Bool}
    (hsig : ValidSignal sig) (h : (s.dequeueSignal t sig shared).IsPending u sig) :
    s.PendingTwice t u sig shared := by
  apply isPending_takeSignal hsig
  unfold dequeueSignal at h
  dsimp only at h
  split at h
  · exact (shrinks_restartForSignal _ t false).pending u sig hsig h
  · exact h

/-! ## The other ways into user mode -/

theorem shrinks_restartFinish (s : System) (t : TaskId) (eintr : Bool) :
    Shrinks s (s.restartFinish t eintr) := by
  unfold restartFinish restartClear
  split
  · exact shrinks_setTask s t rfl rfl rfl rfl fun _ h _ => h
  · exact .refl s

/-- A write to one task gives nobody else a fatal signal. -/
theorem fatalPending_setTask_of_ne {f : Task → Task} (hu : u ≠ t)
    (hres : (f (s.task t)).resources = (s.task t).resources)
    (hleader : (f (s.task t)).groupLeader = (s.task t).groupLeader)
    (hfatal : (s.setTask t f).FatalPending u) : s.FatalPending u := by
  obtain ⟨x, hx, hp, hfatalx⟩ := hfatal
  have htask : (s.setTask t f).task u = s.task u := setTask_task_of_ne _ _ hu
  refine ⟨x, hx, ?_, hfatalx.of_kept ?_ ?_ ?_⟩
  · rw [isPending_iff, sharedPending_setTask s t u hres, htask] at hp
    rw [isPending_iff]
    exact hp
  · rw [effectiveBlocked, htask]
    exact id
  · rw [htask]
    exact id
  · exact signalAction_congr (initProcessIsTask_setTask s t u hleader)
      (sigaction_setTask s t u hres x)

theorem resources_dequeueSignal (s : System) (t u : TaskId) (sig : Nat) (shared : Bool) :
    ((s.dequeueSignal t sig shared).task u).resources = (s.task u).resources := by
  have htake := (signalled_takeSignal s t sig shared).resources u
  unfold dequeueSignal
  dsimp only
  split
  · unfold restartForSignal restartClear
    dsimp only
    split
    · exact htake
    split
    · exact (setTask_same (·.resources) (by rfl) u).trans htake
    · exact (setTask_same (·.resources) (by rfl) u).trans htake
  · exact htake

/-- A task that changes its blocked mask only. -/
theorem fatalPending_setSigctx_self {f : SignalContext → SignalContext}
    (hpending : (f (s.task t).sigctx).pending = (s.task t).sigctx.pending)
    (hforced : (f (s.task t).sigctx).forcedPending = (s.task t).sigctx.forcedPending)
    (hfatal : (s.setSigctx t f).FatalPending t) :
    ∃ x, ValidSignal x ∧ s.IsPending t x ∧
      hasSignal ((f (s.task t).sigctx).blocked &&& ~~~unblockableMask) x = false ∧
      (s.signalAction t x (hasSignal (s.task t).sigctx.forcedPending x)).fatal = true := by
  obtain ⟨x, hx, hp, hfree, haction⟩ := hfatal
  have htask : ((s.setSigctx t f).task t).sigctx = f (s.task t).sigctx := by
    rw [setSigctx, setTask_task_self]
  have hshared : (s.setSigctx t f).sharedPending t = s.sharedPending t := by
    exact sharedPending_setTask s t t rfl
  have hdecision : ∀ forced, (s.setSigctx t f).signalAction t x forced =
      s.signalAction t x forced := by
    exact signalAction_congr (initProcessIsTask_setTask s t t rfl) (sigaction_setTask s t t rfl x)
  rw [isPending_iff, hshared, htask, hpending] at hp
  rw [effectiveBlocked, htask] at hfree
  rw [hdecision, htask, hforced] at haction
  exact ⟨x, hx, (isPending_iff s t x).mpr hp, hfree, haction⟩

/-- `do_signal` ends without a signal: only the deferred mask matters. -/
theorem fatalPending_signalRestoreDeferredMask (hnone : s.nextSignal t = none)
    (hmask : ∀ mask, (s.task t).sigctx.restoreMask = some mask →
      ∀ x, ValidSignal x → s.IsPending t x → hasSignal (mask &&& ~~~unblockableMask) x = true ∨
          (s.signalAction t x (hasSignal (s.task t).sigctx.forcedPending x)).fatal = false)
    (hfatal : (s.signalRestoreDeferredMask t).FatalPending u) : u ≠ t ∧ s.FatalPending u := by
  rw [nextSignal_eq_none_iff] at hnone
  unfold signalRestoreDeferredMask at hfatal
  cases hrestore : (s.task t).sigctx.restoreMask with
  | none =>
    rw [hrestore] at hfatal
    refine ⟨?_, hfatal⟩
    rintro rfl
    obtain ⟨x, hx, hp, hfree, -⟩ := hfatal
    rw [hnone x hx hp] at hfree
    cases hfree
  | some mask =>
    rw [hrestore] at hfatal
    dsimp only at hfatal
    rw [signalSetBlockedMask, setSigctx_setSigctx] at hfatal
    by_cases hu : u = t
    · subst hu
      obtain ⟨x, hx, hp, hfree, haction⟩ := fatalPending_setSigctx_self rfl rfl hfatal
      cases hmask mask hrestore x hx hp with
      | inl hblocked =>
        rw [hasSignal_and, hblocked, Bool.true_and] at hfree
        rw [hasSignal_and, hfree, Bool.and_false] at hblocked
        cases hblocked
      | inr hharmless =>
        rw [hharmless] at haction
        cases haction
    · exact ⟨hu, fatalPending_setTask_of_ne hu rfl rfl hfatal⟩

/-- A new thread has no fatal signal if the group has none that its creator does not
block. -/
theorem not_fatalPending_of_cloned {parent child : TaskId} {thread : Bool}
    (h : Cloned s s' parent child thread)
    (hsafe : thread = true → ∀ x, hasSignal (s.sharedPending parent) x = true →
      hasSignal (s.effectiveBlocked parent) x = true ∨
        (s.signalAction parent x false).fatal = false) : ¬s'.FatalPending child := by
  rintro ⟨x, -, hp, hfree, haction⟩
  obtain ⟨hthread, hshared⟩ := h.pending x hp
  rw [h.blocked] at hfree
  have hinit : s'.initProcessIsTask child = s.initProcessIsTask parent := by
    rw [h.init, hthread, Bool.true_and]
  have hdecision : s'.signalAction child x false = s.signalAction parent x false := by
    unfold signalAction signalInitDefaultIgnored signalHandlerForTask
    rw [hinit, h.actions]
  have hforced : hasSignal (s'.task child).sigctx.forcedPending x = false := by
    rw [h.forced]
    exact hasSignal_zero x
  rw [hforced, hdecision] at haction
  cases hsafe hthread x hshared with
  | inl hblocked =>
    rw [hblocked] at hfree
    cases hfree
  | inr hharmless =>
    rw [hharmless] at haction
    cases haction

end System

/-! ## The condition -/

namespace Machine

open CuteOS.Kernel.System

/-- `do_signal` of the running task may end here: a handler is entered while no fatal
signal is pending and no second copy of a signal whose action is reset, and a deferred
mask unblocks no fatal signal. -/
def ReturnSafe (m : Machine) : Prop :=
  let t := m.sys.current
  match m.sys.nextSignal t with
  | none => ∀ mask, (m.sys.task t).sigctx.restoreMask = some mask →
      ∀ x, ValidSignal x → m.sys.IsPending t x →
        hasSignal (mask &&& ~~~unblockableMask) x = true ∨
          (m.sys.signalAction t x (hasSignal (m.sys.task t).sigctx.forcedPending x)).fatal = false
  | some (sig, shared) =>
    m.sys.signalAction t sig (m.sys.signalForced t sig shared) = .handle →
      ¬m.sys.FatalPending t ∧
        ((m.sys.sigaction t sig).hasFlag saResethand = true →
          ∀ u, u = t ∨ m.mode u = .leaving → m.sys.SameHandlers t u →
            ¬m.sys.PendingTwice t u sig shared)

/-- No fatal signal reaches a task between its `do_signal` and its `sret`. -/
def FatalHandled (m : Machine) : Act → Prop
  | .send sig target => m.mode target = .leaving → ¬m.sys.Fatal target sig
  | .groupSend sig leader =>
    ∀ u, m.sys.SharesSignal leader u → m.mode u = .leaving → ¬m.sys.Fatal u sig
  | .sigaction f =>
    ∀ u, m.mode u = .leaving → ¬(m.sys.modifyObject m.sys.current .sighand f).FatalPending u
  | .deliver _ => m.ReturnSafe
  | .clone _ thread _ => thread = true →
      ∀ x, hasSignal (m.sys.sharedPending m.sys.current) x = true →
        hasSignal (m.sys.effectiveBlocked m.sys.current) x = true ∨
          (m.sys.signalAction m.sys.current x false).fatal = false
  | _ => True

/-- The next instruction of the running task may be `sret`, and no fatal signal is
pending for it. -/
def SretSafe (m : Machine) : Prop :=
  m.mode m.sys.current = .leaving → ¬m.sys.FatalPending m.sys.current

/-- The invariant: nobody on the way out has a fatal signal. -/
def CleanLeaving (m : Machine) : Prop := ∀ u, m.mode u = .leaving → ¬m.sys.FatalPending u

variable {m : Machine}

theorem setMode_leaving {mode : Mode} (h : (m.setMode mode).mode u = .leaving) :
    (u = m.sys.current ∧ mode = .leaving) ∨ (u ≠ m.sys.current ∧ m.mode u = .leaving) := by
  unfold setMode at h
  dsimp only at h
  by_cases hu : u = m.sys.current
  · subst hu
    rw [Function.update_self] at h
    exact .inl ⟨rfl, h⟩
  · rw [Function.update_of_ne hu] at h
    exact .inr ⟨hu, h⟩

/-- A step that moves the running task to a mode other than `leaving`, and gives nobody
else a fatal signal. -/
theorem CleanLeaving.setMode {mode : Mode} {sys : System} (h : m.CleanLeaving)
    (hmode : mode ≠ .leaving)
    (hsys : ∀ u, u ≠ m.sys.current → sys.FatalPending u → m.sys.FatalPending u) :
    CleanLeaving { m.setMode mode with sys := sys } := by
  intro u hu hfatal
  cases setMode_leaving hu with
  | inl hcurrent => exact hmode hcurrent.2
  | inr hother => exact h u hother.2 (hsys u hother.1 hfatal)

/-- A step after which nobody has a fatal signal who had none. -/
theorem CleanLeaving.sys {sys : System} (h : m.CleanLeaving)
    (hsys : ∀ u, m.mode u = .leaving → sys.FatalPending u → m.sys.FatalPending u) :
    CleanLeaving { m with sys := sys } :=
  fun u hu hfatal => h u hu (hsys u hu hfatal)

/-- A turn of `do_signal` gives nobody else a fatal signal, and lets the task out without
one. -/
theorem fatalPending_doSignalOnce {env : DeliverEnv} (hsafe : m.ReturnSafe)
    (hexit : (m.sys.doSignalOnce env).1 ≠ .exited)
    (hu : (u = m.sys.current ∧ ((m.sys.doSignalOnce env).1 = .none ∨
        (m.sys.doSignalOnce env).1 = .handler)) ∨
      (u ≠ m.sys.current ∧ m.mode u = .leaving))
    (hfatal : (m.sys.doSignalOnce env).2.FatalPending u) :
    u ≠ m.sys.current ∧ m.sys.FatalPending u := by
  unfold ReturnSafe at hsafe
  dsimp only at hsafe
  unfold doSignalOnce at hexit hu hfatal
  dsimp only at hexit hu hfatal
  cases hnext : m.sys.nextSignal m.sys.current with
  | none =>
    rw [hnext] at hsafe hfatal
    exact fatalPending_signalRestoreDeferredMask hnext hsafe hfatal
  | some chosen =>
    obtain ⟨sig, shared⟩ := chosen
    have hsig : ValidSignal sig := nextSignal_valid hnext
    have hshrinks := shrinks_dequeueSignal m.sys m.sys.current sig shared
    rw [hnext] at hsafe hexit hu hfatal
    dsimp only at hsafe hexit hu hfatal
    cases haction : m.sys.signalAction m.sys.current sig
        (m.sys.signalForced m.sys.current sig shared) with
    | ignore =>
      rw [haction] at hu hfatal
      have hne := (hu.resolve_left (by rintro ⟨-, h | h⟩ <;> cases h)).1
      exact ⟨hne, hshrinks.fatalPending hfatal⟩
    | stop =>
      rw [haction] at hu hfatal
      have hne := (hu.resolve_left (by rintro ⟨-, h | h⟩ <;> cases h)).1
      refine ⟨hne, hshrinks.fatalPending ?_⟩
      have hpublish := fatalPending_of_posted (signalled_taskChildPublishStop _ _ sig)
        (posted_taskChildPublishStop _ _ sig)
        (fun x hx => hx ▸ sigchld_not_fatal _ u) hfatal
      exact fatalPending_setTask_of_ne hne (by rfl) (by rfl) hpublish
    | terminate =>
      rw [haction] at hexit
      exact absurd rfl hexit
    | handle =>
      rw [haction] at hsafe hexit hu hfatal
      obtain ⟨hclean, hreset⟩ := hsafe rfl
      have hdelivery := deliverHandler_delivery (m.sys.dequeueSignal m.sys.current sig shared)
        m.sys.current sig (m.sys.sigaction m.sys.current sig) env
      have hentered := hdelivery.resolve_right hexit
      have hbefore : m.sys.FatalPending u := by
        refine hshrinks.fatalPending (fatalPending_deliverHandler hentered ?_ hfatal)
        intro hflag hshare hpending
        rw [SameHandlers, resources_dequeueSignal, resources_dequeueSignal] at hshare
        refine hreset hflag u ?_ hshare (isPending_dequeueSignal hsig hpending)
        exact hu.imp And.left And.right
      refine ⟨?_, hbefore⟩
      rintro rfl
      exact hclean hbefore

/-- One step that meets the condition keeps the invariant. -/
theorem CleanLeaving.step {m' : Machine} {a : Act} (h : m.CleanLeaving) (hdoes : Does m a m')
    (hcond : m.FatalHandled a) : m'.CleanLeaving := by
  cases hdoes with
  | trap | interrupt | sret => exact h.setMode (by simp) fun _ _ hf => hf
  | ecall nr hmode =>
    refine h.setMode (by simp) fun u hu hf => ?_
    exact fatalPending_setTask_of_ne hu (by rfl) (by rfl) hf
  | own f syscall hmode hres hleader hrestart =>
    refine h.sys fun u hu hf => fatalPending_setTask_of_ne ?_ hres hleader hf
    rintro rfl
    rw [hmode] at hu
    cases hu
  | take sig syscall hmode hsig =>
    exact h.sys fun u _ hf => (shrinks_takeSignal _ _ _ _).fatalPending hf
  | sigaction f syscall hmode hstop => exact fun u hu => hcond u hu
  | send sig target hmode =>
    refine h.sys fun u hu hf => ?_
    refine fatalPending_of_posted (signalled_sendSignalInfo m.sys target sig)
      (posted_sendSignalInfo m.sys target sig) ?_ hf
    rintro x (⟨rfl, rfl⟩ | rfl)
    · exact hcond hu
    · exact sigchld_not_fatal _ u
  | groupSend sig leader hmode =>
    refine h.sys fun u hu hf => ?_
    refine fatalPending_of_posted (signalled_sendGroupSignalInfo m.sys leader sig)
      (posted_sendGroupSignalInfo m.sys leader sig) ?_ hf
    rintro x (⟨hshare, rfl⟩ | rfl)
    · exact hcond u hshare hu
    · exact sigchld_not_fatal _ u
  | finish syscall hmode =>
    refine h.setMode (by simp) fun u _ hf => ?_
    split at hf
    · exact (shrinks_restartFinish _ _ _).fatalPending hf
    · exact hf
  | finishInterrupted eintr hmode =>
    exact h.setMode (by simp) fun u _ hf => (shrinks_restartFinish _ _ _).fatalPending hf
  | deliver env syscall hmode hexit =>
    intro u hu hf
    have hcases := setMode_leaving hu
    have hwho : (u = m.sys.current ∧ ((m.sys.doSignalOnce env).1 = .none ∨
        (m.sys.doSignalOnce env).1 = .handler)) ∨ (u ≠ m.sys.current ∧ m.mode u = .leaving) := by
      refine hcases.imp_left fun hout => ⟨hout.1, ?_⟩
      have hleaving := hout.2
      cases hdelivery : (m.sys.doSignalOnce env).1 with
      | none => exact .inl rfl
      | handler => exact .inr rfl
      | again | stopped | exited =>
        rw [hdelivery] at hleaving
        cases hleaving
    obtain ⟨hne, hbefore⟩ := fatalPending_doSignalOnce hcond hexit hwho hf
    exact h u (hcases.resolve_left fun hcurrent => hne hcurrent.1).2 hbefore
  | switch next hmode hrun => exact h.sys fun _ _ hf => hf
  | clone child thread after hmode hchild hnew hsame hcurrent =>
    intro u hu hf
    by_cases heq : u = child
    · subst heq
      exact not_fatalPending_of_cloned hnew hcond hf
    · dsimp only at hu hf
      rw [Function.update_of_ne heq] at hu
      exact h u hu ((hsame u heq (by simp [hu])).fatalPending hf)
  | exit dead after hmode hsame hcurrent =>
    intro u hu hf
    dsimp only at hu hf
    split_ifs at hu with hdead
    exact h u hu ((hsame u hdead (by simp [hu])).fatalPending hf)
  | other after hsame hcurrent =>
    exact h.sys fun u hu hf => (hsame u (by simp [hu])).fatalPending hf

/-- In every run in which no fatal signal reaches a task between its `do_signal` and its
`sret`, every `sret` finds no fatal signal pending. -/
theorem sretSafe_of_fatalHandled {m m' : Machine} (hstart : m.CleanLeaving)
    (hrun : Runs FatalHandled m m') : m'.SretSafe := by
  have hclean : m'.CleanLeaving := hrun.induct hstart fun _ _ _ h hdoes hcond => h.step hdoes hcond
  exact hclean m'.sys.current

/-! ## A signal for a process on its way out -/

/-- Process 2, which blocks `SIGTERM`, runs in user mode; init is in a system call. -/
def running : Machine where
  sys := forked.signalBlockMask 2 (signalMask 15)
  mode := fun u => if u = 2 then .user else if u = 1 then .kernel true else .gone

/-- A timer interrupt takes process 2 into the kernel. -/
def trapped : Machine := running.setMode (.kernel false)

/-- It comes to `do_signal`. -/
def inDoSignal : Machine := { trapped.setMode (.returning false) with sys := trapped.sys }

/-- `do_signal` finds nothing, and `schedule()` is next because the interrupt asked for it. -/
def signalsDone : Machine :=
  { inDoSignal.setMode (afterDelivery false (inDoSignal.sys.doSignalOnce {}).1) with
    sys := (inDoSignal.sys.doSignalOnce {}).2 }

/-- Init runs. -/
def initRuns : Machine := { signalsDone with sys := { signalsDone.sys with current := 1 } }

/-- It sends process 2 a signal. -/
def signalledWhileOut (sig : Nat) : Machine :=
  { initRuns with sys := (initRuns.sys.sendSignalInfo sig 2).2 }

/-- Process 2 runs again. -/
def backAgain (sig : Nat) : Machine :=
  { signalledWhileOut sig with sys := { (signalledWhileOut sig).sys with current := 2 } }

theorem cleanLeaving_running : running.CleanLeaving := by
  intro u hu
  unfold running at hu
  dsimp only at hu
  split_ifs at hu

theorem runs_backAgain {cond : Machine → Act → Prop} {sig : Nat} (hsig : sig = sigkill ∨ sig = 15)
    (htrap : cond running .trap) (hfinish : cond trapped .finish)
    (hdeliver : cond inDoSignal (.deliver {})) (hswitch : ∀ m u, cond m (.switch u))
    (hsend : cond initRuns (.send sig 2)) : Runs cond running (backAgain sig) := by
  have htrapped : Does running .trap trapped := .trap running (by decide +kernel)
  have hinDoSignal : Does trapped .finish inDoSignal := .finish trapped false (by decide +kernel)
  have hdone : Does inDoSignal (.deliver {}) signalsDone :=
    .deliver inDoSignal {} false (by decide +kernel) (by decide +kernel)
  have hinit : Does signalsDone (.switch 1) initRuns :=
    .switch signalsDone 1 (by decide +kernel) (by decide +kernel)
  have hback : Does (signalledWhileOut sig) (.switch 2) (backAgain sig) := by
    refine .switch (signalledWhileOut sig) 2 ?_ ?_
    all_goals rcases hsig with rfl | rfl <;> decide +kernel
  exact .head ⟨_, htrapped, htrap⟩ (.head ⟨_, hinDoSignal, hfinish⟩
    (.head ⟨_, hdone, hdeliver⟩ (.head ⟨_, hinit, hswitch _ _⟩
      (.head ⟨_, .send initRuns sig 2 (by decide +kernel), hsend⟩
        (.single ⟨_, hback, hswitch _ _⟩)))))

/-- `SIGKILL` arrives while process 2 waits in the `schedule()` of `trap_user_return`, and
the next instruction of process 2 is the `sret`. -/
theorem sret_with_sigkill_pending : Reachable running.sys ∧ running.CleanLeaving ∧
      Runs (fun _ _ => True) running (backAgain sigkill) ∧
      (backAgain sigkill).mode (backAgain sigkill).sys.current = .leaving ∧
      (backAgain sigkill).sys.FatalPending (backAgain sigkill).sys.current ∧
      Does (backAgain sigkill) .sret ((backAgain sigkill).setMode .user) := by
  have hleaving : (backAgain sigkill).mode (backAgain sigkill).sys.current = .leaving := by
    decide +kernel
  have hblocks (s : System) : System.Step s (s.signalBlockMask 2 (signalMask 15)) := by
    unfold signalBlockMask setSigctx
    exact .own s 2 _ rfl rfl fun _ h => h
  refine ⟨.step reachable_forked (hblocks forked), cleanLeaving_running, ?_, hleaving, ?_,
    .sret _ hleaving⟩
  · exact runs_backAgain (.inl rfl) trivial trivial trivial (fun _ _ => trivial) trivial
  · refine ⟨sigkill, ⟨by decide, by decide⟩, ?_, ?_, ?_⟩
    · unfold IsPending
      decide +kernel
    · decide +kernel
    · decide +kernel

/-- The same way out with `SIGTERM`, which stays pending and blocked. -/
theorem sretSafe_backAgain : Runs FatalHandled running (backAgain 15) ∧
      (backAgain 15).sys.IsPending 2 15 ∧ (backAgain 15).mode 2 = .leaving ∧
      ¬(backAgain 15).sys.FatalPending 2 := by
  have hsafe : inDoSignal.FatalHandled (.deliver {}) := by
    intro mask heq
    cases heq
  have hblocked : ¬initRuns.sys.Fatal 2 15 := by
    unfold Fatal
    decide +kernel
  have hrun : Runs FatalHandled running (backAgain 15) :=
    runs_backAgain (.inr rfl) trivial trivial hsafe (fun _ _ => trivial) fun _ => hblocked
  have hleaving : (backAgain 15).mode 2 = .leaving := by decide +kernel
  refine ⟨hrun, ?_, hleaving, sretSafe_of_fatalHandled cleanLeaving_running hrun hleaving⟩
  unfold IsPending
  decide +kernel

end Machine

end CuteOS.Kernel
