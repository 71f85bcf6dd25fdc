/-
  Kernel/Restart.lean --- restart contexts and the return to user mode.

  `do_syscall` leaves a valid restart context behind when it returns `-EINTR`, and counts
  on `do_signal` to use or to clear it.  `do_signal` does so for every signal it takes, but
  not when it finds none: the signal that ended the wait may have been taken by another
  thread, or cancelled by `SIGCONT` or by a stop signal, in the meantime.
-/
import CuteOS.Kernel.Fatal

set_option autoImplicit false

namespace CuteOS.Kernel

open CuteOS.Lib
open Function (update update_self update_of_ne)

variable {s' : System} {u : TaskId} {sig : Nat} {env : DeliverEnv}

variable {s : System} {t : TaskId}

namespace System

/-- A signal is pending that `next_signal` will find. -/
def Deliverable (s : System) (t : TaskId) : Prop :=
  ∃ x, ValidSignal x ∧ s.IsPending t x ∧ hasSignal (s.effectiveBlocked t) x = false

theorem Deliverable.nextSignal (h : s.Deliverable t) : s.nextSignal t ≠ none := by
  rw [Ne, nextSignal_eq_none_iff]
  intro hall
  obtain ⟨x, hx, hp, hfree⟩ := h
  rw [hall x hx hp] at hfree
  cases hfree

/-- `signal_pending`, for masks of signals that exist. -/
theorem deliverable_of_signalPending (hvalid : s.OnlyValid t)
    (hpending : s.signalPending t = true) : s.Deliverable t := by
  have hne : s.signalPendingMask t &&& ~~~s.effectiveBlocked t ≠ 0#64 := by
    simpa [signalPending] using hpending
  have hbit : ∃ i, (s.signalPendingMask t &&& ~~~s.effectiveBlocked t).getLsbD i = true := by
    by_contra hnone
    apply hne
    apply BitVec.eq_of_getLsbD_eq
    intro i _
    rw [BitVec.getLsbD_zero]
    exact Bool.eq_false_iff.mpr fun h => hnone ⟨i, h⟩
  obtain ⟨i, hi⟩ := hbit
  have hlt : i < 64 := BitVec.lt_of_getLsbD hi
  rw [BitVec.getLsbD_and, BitVec.getLsbD_not, Bool.and_eq_true, Bool.and_eq_true] at hi
  obtain ⟨hp, -, hfree⟩ := hi
  -- the signal is one of those that exist
  have hlow : (1#64 <<< (nsig - 1) - 1).getLsbD i = true := by
    have hzero := congrArg (fun set : SigSet => set.getLsbD i) hvalid
    simp only [BitVec.getLsbD_and, BitVec.getLsbD_not, hp, hlt, decide_true, Bool.true_and] at hzero
    simpa using hzero
  have hsmall : i < 31 := by
    have hmask : 1#64 <<< (nsig - 1) - 1 = BitVec.ofNat 64 (2 ^ 31 - 1) := by decide
    rw [hmask, BitVec.getLsbD_ofNat, Nat.testBit_two_pow_sub_one] at hlow
    simp only [Bool.and_eq_true, decide_eq_true_eq] at hlow
    exact hlow.2
  refine ⟨i + 1, ⟨by omega, by omega⟩, ?_, ?_⟩
  · rw [IsPending, hasSignal_eq]
    exact hp
  · rw [hasSignal_eq]
    simpa using hfree

/-! ## What `do_signal` does to restart contexts -/

theorem restartForSignal_valid (s : System) (t : TaskId) (saRestart : Bool) :
    ((s.restartForSignal t saRestart).task t).restart.valid = false := by
  unfold restartForSignal restartClear
  dsimp only
  split
  · rename_i hinvalid
    simpa using hinvalid
  split
  · rw [setTask_task_self]
  · rw [setTask_task_self]

theorem takeSignal_restart (s : System) (t u : TaskId) (sig : Nat) (shared : Bool) :
    ((s.takeSignal t sig shared).task u).restart = (s.task u).restart := by
  rw [((signalled_takeSignal s t sig shared).task u).same]

/-- A signal that no handler will see clears the context. -/
theorem dequeueSignal_valid (shared : Bool)
    (hhandler : (s.sigaction t sig).saHandler = sigIgn ∨ (s.sigaction t sig).saHandler = sigDfl) :
    ((s.dequeueSignal t sig shared).task t).restart.valid = false := by
  unfold dequeueSignal
  have hcond : ((s.sigaction t sig).saHandler == sigIgn ||
      (s.sigaction t sig).saHandler == sigDfl) = true := by
    simpa using hhandler
  rw [if_pos hcond]
  exact restartForSignal_valid _ t false

/-- A signal that is ignored, or that stops and is not `SIGSTOP`, has no handler. -/
theorem handler_of_uncaught {forced : Bool}
    (haction : s.signalAction t sig forced = .ignore ∨ s.signalAction t sig forced = .stop)
    (hstop : (s.sigaction t sigstop).saHandler = sigDfl) :
    (s.sigaction t sig).saHandler = sigIgn ∨ (s.sigaction t sig).saHandler = sigDfl := by
  by_contra hcaught
  rw [not_or] at hcaught
  obtain ⟨hign, hdfl⟩ := hcaught
  have hne : sig ≠ sigstop := by
    rintro rfl
    exact hdfl hstop
  have hhandle : s.signalAction t sig forced = .handle ∨
      s.signalAction t sig forced = .terminate := by
    unfold signalAction signalStopsDefault
    have h1 : ((s.sigaction t sig).saHandler == sigDfl) = false := by simpa using hdfl
    have h2 : ((s.sigaction t sig).saHandler == sigIgn) = false := by simpa using hign
    have h3 : (sig == sigstop) = false := by simpa using hne
    dsimp only
    rw [h1, h2, h3]
    simp only [Bool.and_false, Bool.false_and, Bool.or_false, Bool.false_eq_true, if_false]
    split
    · exact .inr rfl
    · exact .inl rfl
  rcases haction with h | h <;> rw [h] at hhandle <;> simp at hhandle

theorem deliverHandler_restart {action : SigAction}
    (hdelivery : (s.deliverHandler t sig action env).1 = .handler) :
    ((s.deliverHandler t sig action env).2.task t).restart.valid = false := by
  obtain ⟨pc, sp, altstack, heq⟩ := deliverHandler_handler hdelivery
  rw [heq, setTask_task_self]
  exact restartForSignal_valid _ t (action.hasFlag saRestart)

/-! ## What a step leaves alone -/

/-- `SIGSTOP` has its default action. -/
def StopDefault (s : System) (u : TaskId) : Prop := (s.sigaction u sigstop).saHandler = sigDfl

/-- Task `t` does something to itself and to its handlers. -/
structure OthersKept (t : TaskId) (s s' : System) : Prop where
  task : ∀ u, u ≠ t → s'.task u = s.task u
  shared : ∀ u, s'.sharedPending u = s.sharedPending u
  stop : ∀ u, s.StopDefault u → s'.StopDefault u

namespace OthersKept

variable {s1 s2 : System}

theorem refl (t : TaskId) (s : System) : OthersKept t s s :=
  ⟨fun _ _ => rfl, fun _ => rfl, fun _ h => h⟩

theorem trans (h1 : OthersKept t s s1) (h2 : OthersKept t s1 s2) : OthersKept t s s2 where
  task := fun u hu => (h2.task u hu).trans (h1.task u hu)
  shared := fun u => (h2.shared u).trans (h1.shared u)
  stop := fun u h => h2.stop u (h1.stop u h)

theorem setTask (s : System) (t : TaskId) {f : Task → Task}
    (hres : (f (s.task t)).resources = (s.task t).resources) : OthersKept t s (s.setTask t f) where
  task := fun _ hu => setTask_task_of_ne _ _ hu
  shared := fun u => sharedPending_setTask s t u hres
  stop := by
    intro u h
    rw [StopDefault, sigaction_setTask s t u hres]
    exact h

theorem setSigctx (s : System) (t : TaskId) (f : SignalContext → SignalContext) :
    OthersKept t s (s.setSigctx t f) := by
  exact .setTask s t rfl

/-- The action of `SIGSTOP` is not changed, or set to the default. -/
theorem modifyActions (s : System) (t : TaskId) {f : SigActions → SigActions}
    (hf : ∀ actions, (actions sigstop).saHandler = sigDfl → (f actions sigstop).saHandler = sigDfl) :
    OthersKept t s (s.modifyObject t .sighand f) where
  task := fun _ _ => rfl
  shared := by
    intro u
    have hobject : (s.modifyObject t .sighand f).object u .signal = s.object u .signal := by
      rfl
    rw [sharedPending, sharedPending, hobject]
  stop := by
    intro u h
    by_cases hshare : s.SameHandlers t u
    · rw [StopDefault, sigaction] at h ⊢
      rw [hshare.object]
      cases hold : s.object u .sighand with
      | none => rfl
      | some actions =>
        rw [hold] at h
        exact hf actions h
    · rw [StopDefault, sigaction_modifyObject s t u f sigstop fun h => absurd h hshare]
      exact h

variable (h : OthersKept t s s1) (hu : u ≠ t)
include h hu

theorem isPending (x : Nat) : s1.IsPending u x ↔ s.IsPending u x := by
  rw [isPending_iff, isPending_iff, h.task u hu, h.shared u]

theorem effectiveBlocked : s1.effectiveBlocked u = s.effectiveBlocked u := by
  rw [System.effectiveBlocked, System.effectiveBlocked, h.task u hu]

theorem deliverable (hd : s.Deliverable u) : s1.Deliverable u := by
  obtain ⟨x, hx, hp, hfree⟩ := hd
  exact ⟨x, hx, (h.isPending hu x).mpr hp, by rw [h.effectiveBlocked hu]; exact hfree⟩

end OthersKept

section

variable (s) (t)

theorem othersKept_restartForSignal (saRestart : Bool) :
    OthersKept t s (s.restartForSignal t saRestart) := by
  unfold restartForSignal restartClear
  dsimp only
  split
  · exact .refl t s
  split
  · exact .setTask s t rfl
  · exact .setTask s t rfl

theorem othersKept_resetSignalAction (sig : Nat) :
    OthersKept t s (s.resetSignalAction t sig) := by
  apply OthersKept.modifyActions
  intro actions h
  by_cases heq : sigstop = sig
  · subst heq
    rfl
  · rw [update_of_ne heq]
    exact h

theorem othersKept_signalRestoreDeferredMask :
    OthersKept t s (s.signalRestoreDeferredMask t) := by
  unfold signalRestoreDeferredMask
  split
  · exact .refl t s
  · rw [signalSetBlockedMask, setSigctx_setSigctx]
    exact .setSigctx s t _

end

theorem othersKept_deliverHandler {action : SigAction}
    (hdelivery : (s.deliverHandler t sig action env).1 = .handler) :
    OthersKept t s (s.deliverHandler t sig action env).2 := by
  obtain ⟨pc, sp, altstack, heq⟩ := deliverHandler_handler hdelivery
  rw [heq]
  have hfirst : OthersKept t s
      (if action.hasFlag saResethand then s.resetSignalAction t sig else s) := by
    split
    · exact othersKept_resetSignalAction s t sig
    · exact .refl t s
  have hpc := hfirst.trans (.setTask _ t
    (f := fun task => { task with tf := { task.tf with sepc := pc.getD task.tf.sepc } }) rfl)
  have hrestart := hpc.trans (othersKept_restartForSignal _ t (action.hasFlag saRestart))
  exact hrestart.trans (.setTask _ t rfl)

/-- What stays pending for the others when `t` takes a signal. -/
theorem isPending_of_takeSignal {x : Nat} {shared : Bool}
    (hsig : ValidSignal sig) (hx : ValidSignal x) (hu : u ≠ t) (hp : s.IsPending u x)
    (hother : shared = true → s.SharesSignal t u →
      x ≠ sig ∨ hasSignal (s.task u).sigctx.pending x = true) :
    (s.takeSignal t sig shared).IsPending u x := by
  rw [isPending_iff] at hp
  cases shared with
  | false =>
    have hkept : OthersKept t s (s.takeSignal t sig false) := by
      rw [takeSignal_own]
      exact .setSigctx s t _
    exact (hkept.isPending hu x).mpr ((isPending_iff s u x).mpr hp)
  | true =>
    have hposted : Posted (fun _ _ => False)
        (fun v y => s.SharesSignal t v ∧ y = sig) s (s.takeSignal t sig true) := by
      rw [takeSignal_shared]
      apply posted_setSharedPending
      · exact fun _ set y _ hy h => .inl ((hasSignal_clear hy).mp h).1
      · intro v set y hv hy h hne
        rw [hasSignal_clear hy, hasSignal_signalMask hsig hy.1, beq_iff_eq]
        exact ⟨h, fun heq => hne ⟨hv, heq.symm⟩⟩
    by_cases hshare : s.SharesSignal t u
    · cases hother rfl hshare with
      | inl hne =>
        exact hposted.lower u x hx ((isPending_iff s u x).mpr hp) fun hloss => hne hloss.2
      | inr hown => exact (isPending_iff _ u x).mpr (.inl hown)
    · exact hposted.lower u x hx ((isPending_iff s u x).mpr hp) fun hloss => hshare hloss.1

theorem Signalled.stopDefault (h : Signalled s s')
    (hstop : s.StopDefault u) : s'.StopDefault u := by
  rw [StopDefault, h.sigaction]
  exact hstop

theorem takeSignal_stop (s : System) (t u : TaskId) (sig : Nat) (shared : Bool)
    (h : s.StopDefault u) : (s.takeSignal t sig shared).StopDefault u :=
  (signalled_takeSignal s t sig shared).stopDefault h

end System

/-! ## The invariant -/

namespace Machine

open CuteOS.Kernel.System

/-- A restart context is valid only on the way back from the system call that recorded
it, and then a signal is there that `do_signal` will take. -/
def RestartOk (s : System) (u : TaskId) : Mode → Prop
  | .gone => True
  | .kernel true => s.StopDefault u
  | .interrupted => s.Deliverable u ∧ s.StopDefault u
  | .returning true => ((s.task u).restart.valid = true → s.Deliverable u) ∧ s.StopDefault u
  | .user | .kernel false | .returning false | .leaving =>
    (s.task u).restart.valid = false ∧ s.StopDefault u

/-- The task counts on a signal: the wait of its system call has been interrupted, or the
call has returned `-EINTR` with a valid context. -/
def Owed (m : Machine) (u : TaskId) : Prop :=
  m.mode u = .interrupted ∨
    (m.mode u = .returning true ∧ (m.sys.task u).restart.valid = true)

/-- Some signal of `u` that is not blocked has property `P`. -/
def HasSignalWith (m : Machine) (u : TaskId) (P : Nat → Prop) : Prop :=
  ∃ x, ValidSignal x ∧ m.sys.IsPending u x ∧ hasSignal (m.sys.effectiveBlocked u) x = false ∧ P x

/-- Whoever counts on a signal keeps one: it is neither cancelled nor taken by another
thread. -/
def SignalStays (m : Machine) : Act → Prop
  | .send sig target => ∀ u, m.Owed u →
      m.HasSignalWith u fun x => ¬(m.sys.SharesSignal target u ∧ Cancels sig x)
  | .groupSend sig leader => ∀ u, m.Owed u →
      m.HasSignalWith u fun x => ¬(m.sys.InGroup leader u ∧ Cancels sig x)
  | .take sig => ∀ u, m.Owed u → m.HasSignalWith u fun x =>
    m.sys.SharesSignal m.sys.current u → x ≠ sig ∨ hasSignal (m.sys.task u).sigctx.pending x = true
  | .deliver _ =>
    match m.sys.nextSignal m.sys.current with
    | none => True
    | some (sig, shared) => ∀ u, u ≠ m.sys.current → m.Owed u → m.HasSignalWith u fun x =>
      shared = true → m.sys.SharesSignal m.sys.current u →
        x ≠ sig ∨ hasSignal (m.sys.task u).sigctx.pending x = true
  | _ => True

/-- Whenever a task executes user instructions, or returns from a trap that is no system
call, its restart context is invalid. -/
def RestartLocal (m : Machine) : Prop :=
  ∀ u, (m.sys.task u).restart.valid = true →
    m.mode u = .kernel true ∨ m.mode u = .interrupted ∨ m.mode u = .returning true ∨
      m.mode u = .gone

def RestartInv (m : Machine) : Prop := ∀ u, RestartOk m.sys u (m.mode u)

variable {m : Machine}

variable {mode : Mode}

/-- The modes in which a context may be valid. -/
theorem restartOk_iff : RestartOk s u mode ↔ (mode ≠ .gone → s.StopDefault u) ∧
    (mode = .interrupted → s.Deliverable u) ∧
      ((s.task u).restart.valid = true → mode = .kernel true ∨ mode = .interrupted ∨
        mode = .gone ∨ (mode = .returning true ∧ s.Deliverable u)) := by
  cases mode with
  | gone => simp [RestartOk]
  | interrupted | user | leaving => simp [RestartOk, and_comm]
  | kernel syscall | returning syscall => cases syscall <;> simp [RestartOk, and_comm]

theorem RestartInv.local (h : m.RestartInv) : m.RestartLocal := by
  intro u hvalid
  obtain ⟨-, -, hmodes⟩ := restartOk_iff.mp (h u)
  rcases hmodes hvalid with hmode | hmode | hmode | ⟨hmode, -⟩ <;> simp [hmode]

/-- A step that leaves the context of `u`, its action for `SIGSTOP` and, if it counts on
one, a signal alone. -/
theorem RestartOk.of_kept (h : RestartOk s u mode)
    (hrestart : (s'.task u).restart = (s.task u).restart)
    (hstop : s.StopDefault u → s'.StopDefault u)
    (hsignal : mode = .interrupted ∨ (mode = .returning true ∧ (s.task u).restart.valid = true) →
      s.Deliverable u → s'.Deliverable u) : RestartOk s' u mode := by
  obtain ⟨hdefault, hinterrupted, hmodes⟩ := restartOk_iff.mp h
  refine restartOk_iff.mpr ⟨fun hmode => hstop (hdefault hmode),
    fun hmode => hsignal (.inl hmode) (hinterrupted hmode), fun hvalid => ?_⟩
  rw [hrestart] at hvalid
  rcases hmodes hvalid with hmode | hmode | hmode | ⟨hmode, hd⟩
  · simp [hmode]
  · simp [hmode]
  · simp [hmode]
  · simp [hmode, hsignal (.inr ⟨hmode, hvalid⟩) hd]

theorem RestartOk.stop (h : RestartOk s u mode) (hmode : mode ≠ .gone) : s.StopDefault u :=
  (restartOk_iff.mp h).1 hmode

/-- An invalid context is good in every mode that does not count on a signal. -/
theorem RestartOk.of_invalid (hinvalid : (s.task u).restart.valid = false) (hstop : s.StopDefault u)
    (hmode : mode ≠ .interrupted) : RestartOk s u mode :=
  restartOk_iff.mpr ⟨fun _ => hstop, fun heq => absurd heq hmode, by simp [hinvalid]⟩

section

variable (h : RestartOk s u mode)
include h

theorem RestartOk.othersKept (hkept : OthersKept t s s') (hu : u ≠ t) : RestartOk s' u mode :=
  h.of_kept (by rw [hkept.task u hu]) (hkept.stop u) fun _ hd => hkept.deliverable hu hd

theorem RestartOk.sameSignals (hsame : mode ≠ .gone → SameSignals s s' u) :
    RestartOk s' u mode := by
  by_cases hgone : mode = .gone
  · rw [hgone]
    trivial
  have hsame := hsame hgone
  refine h.of_kept hsame.restart ?_ ?_
  · intro hstop
    rw [StopDefault, hsame.actions]
    exact hstop
  · rintro - ⟨x, hx, hp, hfree⟩
    exact ⟨x, hx, (hsame.pending x).mpr hp, by rw [hsame.blocked]; exact hfree⟩

/-- Signals come and go, and a signal with property `P` stays. -/
theorem RestartOk.signalled {P : Nat → Prop} (hsignalled : Signalled s s')
    (hkept : ∀ x, ValidSignal x → s.IsPending u x → P x → s'.IsPending u x)
    (hsignal : mode = .interrupted ∨ (mode = .returning true ∧ (s.task u).restart.valid = true) →
      ∃ x, ValidSignal x ∧ s.IsPending u x ∧ hasSignal (s.effectiveBlocked u) x = false ∧ P x) :
    RestartOk s' u mode := by
  refine h.of_kept ?_ hsignalled.stopDefault fun howed _ => ?_
  · rw [(hsignalled.task u).same]
  · obtain ⟨x, hx, hp, hfree, hP⟩ := hsignal howed
    refine ⟨x, hx, hkept x hx hp hP, ?_⟩
    rw [effectiveBlocked, (hsignalled.task u).same]
    exact hfree

end

/-- The running task goes to another mode. -/
theorem RestartInv.setMode {sys : System} (hcurrent : RestartOk sys m.sys.current mode)
    (hothers : ∀ u, u ≠ m.sys.current → RestartOk sys u (m.mode u)) :
    RestartInv { m.setMode mode with sys := sys } := by
  intro u
  unfold Machine.setMode
  dsimp only
  by_cases hu : u = m.sys.current
  · subst hu
    rw [update_self]
    exact hcurrent
  · rw [update_of_ne hu]
    exact hothers u hu

section TakeSignal

variable {shared : Bool} (h : RestartOk s u mode) (hsig : ValidSignal sig)
  (hu : u ≠ t)
  (hsignal : mode = .interrupted ∨ (mode = .returning true ∧ (s.task u).restart.valid = true) →
    ∃ x, ValidSignal x ∧ s.IsPending u x ∧ hasSignal (s.effectiveBlocked u) x = false ∧
      (shared = true → s.SharesSignal t u →
        x ≠ sig ∨ hasSignal (s.task u).sigctx.pending x = true))

include h hsig hu hsignal

theorem RestartOk.takeSignal : RestartOk (s.takeSignal t sig shared) u mode :=
  h.signalled (signalled_takeSignal s t sig shared)
    (fun _ hx hp hkept => isPending_of_takeSignal hsig hx hu hp hkept) hsignal

theorem RestartOk.dequeueSignal : RestartOk (s.dequeueSignal t sig shared) u mode := by
  have htake := h.takeSignal hsig hu hsignal
  unfold System.dequeueSignal
  dsimp only
  split
  · exact htake.othersKept (othersKept_restartForSignal _ t false) hu
  · exact htake

end TakeSignal

theorem dequeueSignal_stop (s : System) (t u : TaskId) (sig : Nat) (shared : Bool)
    (h : s.StopDefault u) : (s.dequeueSignal t sig shared).StopDefault u := by
  rw [StopDefault, (shrinks_dequeueSignal s t sig shared).actions]
  exact h

/-- A turn of `do_signal` does not touch the contexts of the other tasks. -/
theorem RestartOk.doSignalOnce (h : RestartOk m.sys u (m.mode u)) (hu : u ≠ m.sys.current)
    (hcond : m.SignalStays (.deliver env)) (hexit : (m.sys.doSignalOnce env).1 ≠ .exited) :
    RestartOk (m.sys.doSignalOnce env).2 u (m.mode u) := by
  unfold SignalStays at hcond
  unfold System.doSignalOnce at hexit ⊢
  dsimp only at hcond hexit ⊢
  cases hnext : m.sys.nextSignal m.sys.current with
  | none => exact h.othersKept (othersKept_signalRestoreDeferredMask _ _) hu
  | some chosen =>
    obtain ⟨sig, shared⟩ := chosen
    rw [hnext] at hcond hexit
    dsimp only at hcond hexit ⊢
    have htaken : RestartOk (m.sys.dequeueSignal m.sys.current sig shared) u (m.mode u) :=
      h.dequeueSignal (nextSignal_valid hnext) hu fun howed => hcond u hu howed
    cases haction : m.sys.signalAction m.sys.current sig
        (m.sys.signalForced m.sys.current sig shared) with
    | ignore => exact htaken
    | stop =>
      have hstate : RestartOk ((m.sys.dequeueSignal m.sys.current sig shared).setState
          m.sys.current .stopped) u (m.mode u) :=
        htaken.othersKept (.setTask _ _ rfl) hu
      refine hstate.signalled (signalled_taskChildPublishStop _ _ sig)
        ((posted_taskChildPublishStop _ _ sig).lower u) fun howed => ?_
      obtain ⟨x, hx, hp, hfree⟩ : Deliverable _ u := by
        rcases howed with hmode | ⟨hmode, hvalid⟩
        · rw [hmode] at hstate
          exact hstate.1
        · rw [hmode] at hstate
          exact hstate.1 hvalid
      exact ⟨x, hx, hp, hfree, id⟩
    | terminate =>
      rw [haction] at hexit
      exact absurd rfl hexit
    | handle =>
      rw [haction] at hexit
      have hentered := (deliverHandler_delivery _ _ _ _ _).resolve_right hexit
      exact htaken.othersKept (othersKept_deliverHandler hentered) hu

/-- The task itself comes out of a turn of `do_signal` with an invalid context. -/
theorem doSignalOnce_restart {syscall : Bool}
    (h : RestartOk m.sys m.sys.current (.returning syscall))
    (hexit : (m.sys.doSignalOnce env).1 ≠ .exited) :
    (((m.sys.doSignalOnce env).2).task m.sys.current).restart.valid = false ∧
      (m.sys.doSignalOnce env).2.StopDefault m.sys.current := by
  have hstop : m.sys.StopDefault m.sys.current := h.stop (by simp)
  unfold System.doSignalOnce at hexit ⊢
  dsimp only at hexit ⊢
  cases hnext : m.sys.nextSignal m.sys.current with
  | none =>
    dsimp only
    have hkept := othersKept_signalRestoreDeferredMask m.sys m.sys.current
    refine ⟨?_, hkept.stop _ hstop⟩
    have hinvalid : (m.sys.task m.sys.current).restart.valid = false := by
      cases syscall with
      | false => exact h.1
      | true =>
        rw [Bool.eq_false_iff]
        exact fun hvalid => (h.1 hvalid).nextSignal hnext
    unfold signalRestoreDeferredMask
    split
    · exact hinvalid
    · rw [signalSetBlockedMask, setSigctx_setSigctx, setSigctx, setTask_task_self]
      exact hinvalid
  | some chosen =>
    obtain ⟨sig, shared⟩ := chosen
    rw [hnext] at hexit
    dsimp only at hexit ⊢
    have hstop1 := dequeueSignal_stop m.sys m.sys.current m.sys.current sig shared hstop
    cases haction : m.sys.signalAction m.sys.current sig
        (m.sys.signalForced m.sys.current sig shared) with
    | ignore => exact ⟨dequeueSignal_valid shared (handler_of_uncaught (.inl haction) hstop), hstop1⟩
    | stop =>
      have hinvalid := dequeueSignal_valid shared (handler_of_uncaught (.inr haction) hstop)
      generalize m.sys.dequeueSignal m.sys.current sig shared = s1 at *
      have hsignalled : Signalled (s1.setState m.sys.current .stopped)
          (s1.stopCurrent m.sys.current sig) := signalled_taskChildPublishStop _ _ sig
      have hstate : OthersKept m.sys.current s1 (s1.setState m.sys.current .stopped) :=
        .setTask s1 m.sys.current rfl
      refine ⟨?_, hsignalled.stopDefault (hstate.stop _ hstop1)⟩
      rw [(hsignalled.task m.sys.current).same, setState, setTask_task_self]
      exact hinvalid
    | terminate =>
      rw [haction] at hexit
      exact absurd rfl hexit
    | handle =>
      rw [haction] at hexit
      have hentered := (deliverHandler_delivery _ _ _ _ _).resolve_right hexit
      refine ⟨?_, (othersKept_deliverHandler hentered).stop _ hstop1⟩
      exact deliverHandler_restart hentered

theorem restartFinish_others (s : System) (t : TaskId) (eintr : Bool) :
    OthersKept t s (s.restartFinish t eintr) := by
  unfold restartFinish restartClear
  split
  · exact .setTask s t rfl
  · exact .refl t s

/-- One step in which whoever counts on a signal keeps one. -/
theorem RestartInv.step {m' : Machine} {a : Act} (h : m.RestartInv) (hdoes : Does m a m')
    (hcond : m.SignalStays a) : m'.RestartInv := by
  have hcurrent := h m.sys.current
  cases hdoes with
  | trap hmode | sret hmode =>
    rw [hmode] at hcurrent
    exact .setMode hcurrent fun u _ => h u
  | ecall nr hmode =>
    rw [hmode] at hcurrent
    have hkept : OthersKept m.sys.current m.sys (m.sys.enterSyscall m.sys.current nr) :=
      .setTask _ _ (by rfl)
    exact .setMode (hkept.stop _ hcurrent.2) fun u hu => (h u).othersKept hkept hu
  | own f syscall hmode hres hleader hrestart =>
    have hkept : OthersKept m.sys.current m.sys (m.sys.setTask m.sys.current f) :=
      .setTask _ _ hres
    intro u
    by_cases hu : u = m.sys.current
    · subst hu
      have hstop := hkept.stop _ (hcurrent.stop (by rw [hmode]; simp))
      rw [hmode] at hcurrent ⊢
      cases syscall with
      | true => exact hstop
      | false =>
        refine ⟨?_, hstop⟩
        rw [setTask_task_self]
        rcases hrestart with heq | hinvalid
        · rw [heq]
          exact hcurrent.1
        · exact hinvalid
    · exact (h u).othersKept hkept hu
  | take sig syscall hmode hsig =>
    intro u
    by_cases hu : u = m.sys.current
    · subst hu
      refine hcurrent.of_kept (takeSignal_restart _ _ _ sig true)
        (takeSignal_stop _ _ _ sig true) fun howed _ => ?_
      rw [hmode] at howed
      simp at howed
    · have htake : RestartOk (m.sys.takeSignal m.sys.current sig true) u (m.mode u) := by
        refine (h u).takeSignal hsig hu fun howed => ?_
        obtain ⟨x, hx, hp, hfree, hother⟩ := hcond u howed
        exact ⟨x, hx, hp, hfree, fun _ => hother⟩
      exact htake
  | sigaction f syscall hmode hstop =>
    have hkept : OthersKept m.sys.current m.sys (m.sys.modifyObject m.sys.current .sighand f) :=
      .modifyActions _ _ fun actions hdefault => by rw [hstop]; exact hdefault
    intro u
    by_cases hu : u = m.sys.current
    · subst hu
      refine hcurrent.of_kept rfl (hkept.stop _) fun howed _ => ?_
      rw [hmode] at howed
      simp at howed
    · exact (h u).othersKept hkept hu
  | send sig target hmode =>
    exact fun u => (h u).signalled (signalled_sendSignalInfo m.sys target sig)
      ((posted_sendSignalInfo m.sys target sig).lower u) (hcond u)
  | groupSend sig leader hmode =>
    exact fun u => (h u).signalled (signalled_sendGroupSignalInfo m.sys leader sig)
      ((posted_sendGroupSignalInfo m.sys leader sig).lower u) (hcond u)
  | interrupt hmode hvalid hpending =>
    rw [hmode] at hcurrent
    exact .setMode ⟨deliverable_of_signalPending hvalid hpending, hcurrent⟩ fun u _ => h u
  | finish syscall hmode =>
    rw [hmode] at hcurrent
    cases syscall with
    | false => exact .setMode hcurrent fun u _ => h u
    | true =>
      have hkept := restartFinish_others m.sys m.sys.current false
      refine .setMode (.of_invalid ?_ (hkept.stop _ hcurrent) (by simp))
        fun u hu => (h u).othersKept hkept hu
      simp [restartFinish, restartClear]
  | finishInterrupted eintr hmode =>
    rw [hmode] at hcurrent
    have hkept := restartFinish_others m.sys m.sys.current eintr
    refine .setMode ?_ fun u hu => (h u).othersKept hkept hu
    refine ⟨fun hvalid => ?_, hkept.stop _ hcurrent.2⟩
    -- the context is kept, and so is everything else
    unfold restartFinish at hvalid ⊢
    split
    · rename_i hclear
      rw [if_pos hclear, restartClear, setTask_task_self] at hvalid
      cases hvalid
    · exact hcurrent.1
  | deliver env syscall hmode hexit =>
    rw [hmode] at hcurrent
    obtain ⟨hinvalid, hstop⟩ := doSignalOnce_restart hcurrent hexit
    refine .setMode (.of_invalid hinvalid hstop ?_) fun u hu => (h u).doSignalOnce hu hcond hexit
    cases (m.sys.doSignalOnce env).1 <;> simp [afterDelivery]
  | switch next hmode hrun => exact fun u => h u
  | clone child thread after hmode hchild hnew hsame hcur =>
    intro u
    dsimp only
    by_cases hu : u = child
    · subst hu
      rw [update_self]
      refine ⟨hnew.restart, ?_⟩
      rw [StopDefault, hnew.actions]
      exact hcurrent.stop (by rw [hmode]; simp)
    · rw [update_of_ne hu]
      exact (h u).sameSignals (hsame u hu)
  | exit dead after hmode hsame hcur =>
    intro u
    dsimp only
    split_ifs with hdead
    · trivial
    · exact (h u).sameSignals (hsame u hdead)
  | other after hsame hcur => exact fun u => (h u).sameSignals (hsame u)

/-- In every run in which whoever counts on a signal keeps one, restart contexts stay with
the system calls that recorded them. -/
theorem restartLocal_of_signalStays {m m' : Machine} (hstart : m.RestartInv)
    (hrun : Runs SignalStays m m') : m'.RestartLocal := by
  have hinv : m'.RestartInv := hrun.induct hstart fun _ _ _ h hdoes hcond => h.step hdoes hcond
  exact hinv.local

/-! ## A cancelled stop signal -/

/-- `SIGUSR1`. -/
def sigusr1 : Nat := 10

/-- `SIGUSR1` is caught with `SA_RESTART`. -/
def catchUsr1 (actions : SigActions) : SigActions :=
  update actions sigusr1 { saHandler := 0x5000, saFlags := saRestart }

/-- `SIGCONT` is blocked, and the next instruction is the `ecall` of a `read` at 0x1000. -/
def aboutToRead (task : Task) : Task :=
  { task with
    sigctx := { task.sigctx with blocked := signalMask sigcont }
    tf := { task.tf with sepc := 0x1000 } }

/-- Process 2 in front of its `read`. -/
def reader : System :=
  (forked.modifyObject forked.current .sighand catchUsr1).setTask 2 aboutToRead

theorem reachable_reader : Reachable reader := by
  have hcatch : Reachable (forked.modifyObject forked.current .sighand catchUsr1) :=
    .step reachable_forked (.write forked .sighand catchUsr1)
  have hres : ∀ task, (aboutToRead task).resources = task.resources := fun _ => rfl
  have hleader : ∀ task, (aboutToRead task).groupLeader = task.groupLeader := fun _ => rfl
  have hgroup : ∀ task, (aboutToRead task).threadGroup ⊆ task.threadGroup :=
    fun task => List.Subset.refl task.threadGroup
  exact .step hcatch (.own _ 2 aboutToRead (hres _) (hleader _) (hgroup _))

def readerModes (mode : Mode) (u : TaskId) : Mode :=
  if u = 2 then mode else if u = 1 then .kernel true else .gone

/-- The process in user mode, and the system call with the stop signal that ends its wait. -/
def reading : Machine := ⟨reader, readerModes .user⟩

def inRead : Machine :=
  { reading.setMode (.kernel true) with sys := reader.enterSyscall reader.current sysRead }

def stopPending : Machine := { inRead with sys := (inRead.sys.sendSignalInfo sigtstp 2).2 }

def readInterrupted : Machine := stopPending.setMode .interrupted

/-- A timer of the process fires and sends `SIGCONT`. -/
def stopCancelled : Machine :=
  { readInterrupted with sys := (readInterrupted.sys.sendSignalInfo sigcont 2).2 }

def readReturning : Machine :=
  { stopCancelled.setMode (.returning true) with
    sys := stopCancelled.sys.restartFinish stopCancelled.sys.current true }

def readLeaving : Machine :=
  { readReturning.setMode (afterDelivery true (readReturning.sys.doSignalOnce {}).1) with
    sys := (readReturning.sys.doSignalOnce {}).2 }

def staleUser : Machine := readLeaving.setMode .user

/-- User code goes on to 0x2000. -/
def runOn (task : Task) : Task := { task with tf := { task.tf with sepc := 0x2000 } }

def elsewhere : Machine := { staleUser with sys := staleUser.sys.setTask 2 runOn }

/-- A timer interrupt takes it into the kernel, and `SIGUSR1` is sent. -/
def laterTrap : Machine := elsewhere.setMode (.kernel false)

def laterSignal : Machine := { laterTrap with sys := (laterTrap.sys.sendSignalInfo sigusr1 2).2 }

def laterReturning : Machine :=
  { laterSignal.setMode (.returning false) with sys := laterSignal.sys }

theorem sameSignals_runOn (s : System) (t u : TaskId) : SameSignals s (s.setTask t runOn) u := by
  have hres : (runOn (s.task t)).resources = (s.task t).resources := rfl
  have hsigctx : ((s.setTask t runOn).task u).sigctx = (s.task u).sigctx :=
    setTask_same (·.sigctx) rfl u
  constructor
  · intro x
    rw [isPending_iff, isPending_iff, sharedPending_setTask s t u hres, hsigctx]
  · rw [hsigctx]
  · rw [effectiveBlocked, effectiveBlocked, hsigctx]
  · exact fun x => sigaction_setTask s t u hres x
  · exact initProcessIsTask_setTask s t u rfl
  · exact setTask_same (·.restart) rfl u

theorem restartInv_reading : reading.RestartInv := by
  intro u
  by_cases h2 : u = 2
  · subst h2
    exact ⟨by decide +kernel, by unfold StopDefault; decide +kernel⟩
  · by_cases h1 : u = 1
    · subst h1
      show reading.sys.StopDefault 1
      unfold StopDefault
      decide +kernel
    · have hmode : reading.mode u = .gone := by simp [reading, readerModes, h1, h2]
      rw [hmode]
      trivial

theorem runs_readInterrupted : Runs SignalStays reading readInterrupted := by
  have hcall : Does reading (.ecall sysRead) inRead := .ecall reading sysRead (by decide +kernel)
  have hstop : Does inRead (.send sigtstp 2) stopPending := .send inRead sigtstp 2 (by decide +kernel)
  have hwake : Does stopPending .interrupt readInterrupted :=
    .interrupt stopPending (by decide +kernel) (by unfold OnlyValid; decide +kernel)
      (by decide +kernel)
  -- nobody counts on a signal when the stop signal arrives
  have hnobody : ∀ u, ¬inRead.Owed u := by
    have hmode : ∀ u, inRead.mode u = .kernel true ∨ inRead.mode u = .gone := by
      intro u
      have hcurrent : reading.sys.current = 2 := by decide +kernel
      unfold inRead Machine.setMode
      rw [hcurrent]
      by_cases h2 : u = 2
      · subst h2
        exact .inl rfl
      · by_cases h1 : u = 1
        · subst h1
          exact .inl rfl
        · exact .inr (by simp [reading, readerModes, h1, h2])
    intro u howed
    rcases hmode u with h | h <;> simp [Owed, h] at howed
  exact .head ⟨_, hcall, trivial⟩ (.head ⟨_, hstop, fun u howed => absurd howed (hnobody u)⟩
    (.single ⟨_, hwake, trivial⟩))

theorem runs_staleUser : Runs (fun _ _ => True) reading staleUser := by
  have hcancel : Does readInterrupted (.send sigcont 2) stopCancelled :=
    .send readInterrupted sigcont 2 (by decide +kernel)
  have hreturn : Does stopCancelled (.finishInterrupted true) readReturning :=
    .finishInterrupted stopCancelled true (by decide +kernel)
  have hdeliver : Does readReturning (.deliver {}) readLeaving :=
    .deliver readReturning {} true (by decide +kernel) (by decide +kernel)
  have hsret : Does readLeaving .sret staleUser := .sret readLeaving (by decide +kernel)
  have hread : Runs (fun _ _ => True) reading readInterrupted :=
    Relation.ReflTransGen.mono (fun _ _ ⟨a, hdoes, _⟩ => ⟨a, hdoes, trivial⟩) _ _
      runs_readInterrupted
  exact hread.trans (.head ⟨_, hcancel, trivial⟩ (.head ⟨_, hreturn, trivial⟩
    (.head ⟨_, hdeliver, trivial⟩ (.single ⟨_, hsret, trivial⟩))))

theorem runs_laterReturning : Runs (fun _ _ => True) staleUser laterReturning := by
  have hrunOn : Does staleUser (.other elsewhere.sys) elsewhere :=
    .other staleUser elsewhere.sys (fun u _ => sameSignals_runOn staleUser.sys 2 u) rfl
  have htrap : Does elsewhere .trap laterTrap := .trap elsewhere (by decide +kernel)
  have hsend : Does laterTrap (.send sigusr1 2) laterSignal :=
    .send laterTrap sigusr1 2 (by decide +kernel)
  have hfinish : Does laterSignal .finish laterReturning :=
    .finish laterSignal false (by decide +kernel)
  exact .head ⟨_, hrunOn, trivial⟩ (.head ⟨_, htrap, trivial⟩ (.head ⟨_, hsend, trivial⟩
    (.single ⟨_, hfinish, trivial⟩)))

/-- The `read` at 0x1000 returns `-EINTR` because of a stop signal; `SIGCONT`, which the
process blocks, cancels the stop signal before `do_signal`; user code runs with a valid
context.  A later timer interrupt at 0x2000 finds a signal with `SA_RESTART`, and
`do_signal` sends the process back to the `read`. -/
theorem stale_restart_in_user_mode :
    Reachable reader ∧ reading.RestartInv ∧ Runs (fun _ _ => True) reading staleUser ∧
      staleUser.mode 2 = .user ∧ (staleUser.sys.task 2).restart.valid = true ∧
      ¬staleUser.RestartLocal ∧
      Runs (fun _ _ => True) staleUser laterReturning ∧
      laterReturning.mode 2 = .returning false ∧
      laterReturning.sys.nextSignal 2 = some (sigusr1, false) ∧
      (laterReturning.sys.sigaction 2 sigusr1).hasFlag saRestart = true ∧
      (laterReturning.sys.task 2).tf.sepc = 0x2000 ∧
      ((laterReturning.sys.restartForSignal 2 true).task 2).tf.sepc = 0x1000 := by
  have hmode : staleUser.mode 2 = .user := by decide +kernel
  have hvalid : (staleUser.sys.task 2).restart.valid = true := by decide +kernel
  refine ⟨reachable_reader, restartInv_reading, runs_staleUser, hmode, hvalid, ?_,
    runs_laterReturning, by decide +kernel, by decide +kernel, by decide +kernel,
    by decide +kernel, by decide +kernel⟩
  intro hlocal
  have hcases := hlocal 2 hvalid
  rw [hmode] at hcases
  simp at hcases

/-- Without the cancellation the stop signal is still there for `do_signal`. -/
theorem restartLocal_readInterrupted :
    Runs SignalStays reading readInterrupted ∧ readInterrupted.RestartLocal := by
  exact ⟨runs_readInterrupted, restartLocal_of_signalStays restartInv_reading runs_readInterrupted⟩

end Machine

end CuteOS.Kernel
