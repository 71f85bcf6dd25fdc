/-
  Kernel/Pending.lean --- what sending a signal does to everybody's pending signals.

  `Posted gain loss s s'` bounds the pending signals of every task from both sides: a
  task gains no signal outside of `gain` and loses none outside of `loss`.
-/
import CuteOS.Kernel.Deliver

set_option autoImplicit false

namespace CuteOS.Kernel

open CuteOS.Lib

namespace System

/-- The number of a signal that can be sent. -/
def ValidSignal (sig : Nat) : Prop := 0 < sig ∧ sig < 32

/-- The signal is pending for the task, or for its thread group. -/
def IsPending (s : System) (t : TaskId) (sig : Nat) : Prop :=
  hasSignal (s.signalPendingMask t) sig = true

/-- Bounds on what a function does to the pending signals. -/
structure Posted (gain loss : TaskId → Nat → Prop) (s s' : System) : Prop where
  upper : ∀ u x, ValidSignal x → s'.IsPending u x → s.IsPending u x ∨ gain u x
  lower : ∀ u x, ValidSignal x → s.IsPending u x → ¬loss u x → s'.IsPending u x
  forced : ∀ u x, ValidSignal x → hasSignal (s'.task u).sigctx.forcedPending x = true →
    hasSignal (s.task u).sigctx.forcedPending x = true

theorem isPending_iff (s : System) (t : TaskId) (sig : Nat) : s.IsPending t sig ↔
      hasSignal (s.task t).sigctx.pending sig = true ∨ hasSignal (s.sharedPending t) sig = true := by
  rw [IsPending, signalPendingMask, hasSignal_or, Bool.or_eq_true]

/-- `next_signal` finds nothing exactly when everything pending is blocked. -/
theorem nextSignal_eq_none_iff (s : System) (t : TaskId) : s.nextSignal t = none ↔
      ∀ x, ValidSignal x → s.IsPending t x → hasSignal (s.effectiveBlocked t) x = true := by
  have hlow : ∀ x ∈ allSignals, hasSignal (1#64 <<< (nsig - 1) - 1) x = true := by decide
  have hmask : ∀ x, ValidSignal x →
      (hasSignal (((s.task t).sigctx.pending ||| s.sharedPending t) &&&
        (1#64 <<< (nsig - 1) - 1) &&& ~~~s.effectiveBlocked t) x = true ↔
          s.IsPending t x ∧ hasSignal (s.effectiveBlocked t) x = false) := by
    intro x hx
    rw [hasSignal_and, hasSignal_and, hasSignal_not _ hx.2, hlow x ((mem_allSignals x).mpr hx),
      Bool.and_true, Bool.and_eq_true, Bool.not_eq_true']
    rfl
  unfold nextSignal
  dsimp only
  cases hfind : allSignals.find? fun sig => hasSignal
      (((s.task t).sigctx.pending ||| s.sharedPending t) &&& (1#64 <<< (nsig - 1) - 1) &&&
        ~~~s.effectiveBlocked t) sig with
  | none =>
    refine ⟨fun _ x hx hp => ?_, fun _ => rfl⟩
    have hnot := List.find?_eq_none.mp hfind x ((mem_allSignals x).mpr hx)
    rw [hmask x hx, not_and, Bool.not_eq_false] at hnot
    exact hnot hp
  | some sig =>
    refine ⟨fun h => absurd h (Option.some_ne_none _), fun h => ?_⟩
    have hsig : ValidSignal sig := (mem_allSignals sig).mp (List.mem_of_find?_eq_some hfind)
    have hfound := (hmask sig hsig).mp (List.find?_some hfind)
    have hblocked := h sig hsig hfound.1
    rw [hfound.2] at hblocked
    cases hblocked

namespace Posted

variable {s s1 s2 : System} {gain loss : TaskId → Nat → Prop}

theorem trans (h1 : Posted gain loss s s1) (h2 : Posted gain loss s1 s2) :
    Posted gain loss s s2 where
  upper := by
    intro u x hx hp
    cases h2.upper u x hx hp with
    | inl hmid => exact h1.upper u x hx hmid
    | inr hgain => exact .inr hgain
  lower := fun u x hx hp hloss => h2.lower u x hx (h1.lower u x hx hp hloss) hloss
  forced := fun u x hx hf => h1.forced u x hx (h2.forced u x hx hf)

/-- Nothing pending changes. -/
theorem of_eq (hpending : ∀ u, s1.signalPendingMask u = s.signalPendingMask u)
    (hforced : ∀ u, (s1.task u).sigctx.forcedPending = (s.task u).sigctx.forcedPending) :
    Posted gain loss s s1 where
  upper := by
    intro u x _ hp
    rw [IsPending, hpending] at hp
    exact .inl hp
  lower := by
    intro u x _ hp _
    rw [IsPending, hpending]
    exact hp
  forced := by
    intro u x _ hf
    rw [hforced] at hf
    exact hf

theorem refl (s : System) : Posted gain loss s s := .of_eq (fun _ => rfl) fun _ => rfl

end Posted

/-! ## The parts of sending -/

variable {s : System} {t : TaskId} {f : Task → Task} {gain loss : TaskId → Nat → Prop}

theorem sharedPending_setTask (s : System) (t u : TaskId)
    (hf : (f (s.task t)).resources = (s.task t).resources) :
    (s.setTask t f).sharedPending u = s.sharedPending u := by
  rw [sharedPending, object, setTask_same (·.resources) hf]
  rfl

/-- A write that leaves the pending masks alone. -/
theorem posted_setTask (hres : (f (s.task t)).resources = (s.task t).resources)
    (hpending : (f (s.task t)).sigctx.pending = (s.task t).sigctx.pending)
    (hforced : (f (s.task t)).sigctx.forcedPending = (s.task t).sigctx.forcedPending) :
    Posted gain loss s (s.setTask t f) := by
  apply Posted.of_eq
  · intro u
    rw [signalPendingMask, signalPendingMask, sharedPending_setTask s t u hres,
      setTask_same (·.sigctx.pending) hpending]
  · exact setTask_same (·.sigctx.forcedPending) hforced

/-- Changes of the private masks of one task. -/
theorem posted_setSigctx {f : SignalContext → SignalContext}
    (hupper : ∀ x, ValidSignal x → hasSignal (f (s.task t).sigctx).pending x = true →
      hasSignal (s.task t).sigctx.pending x = true ∨ gain t x)
    (hlower : ∀ x, ValidSignal x → hasSignal (s.task t).sigctx.pending x = true → ¬loss t x →
      hasSignal (f (s.task t).sigctx).pending x = true)
    (hforced : ∀ x, ValidSignal x → hasSignal (f (s.task t).sigctx).forcedPending x = true →
      hasSignal (s.task t).sigctx.forcedPending x = true) :
    Posted gain loss s (s.setSigctx t f) := by
  have hshared : ∀ u, (s.setSigctx t f).sharedPending u = s.sharedPending u :=
    fun u => sharedPending_setTask s t u rfl
  have htask : ∀ u, ((s.setSigctx t f).task u).sigctx =
      if u = t then f (s.task t).sigctx else (s.task u).sigctx := by
    intro u
    rw [setSigctx, setTask_task]
    split_ifs <;> rfl
  constructor
  · intro u x hx hp
    rw [isPending_iff, hshared, htask] at hp
    rw [isPending_iff]
    split_ifs at hp with hu
    · subst hu
      cases hp with
      | inl hown => exact (hupper x hx hown).imp_left Or.inl
      | inr hsh => exact .inl (.inr hsh)
    · exact .inl hp
  · intro u x hx hp hloss
    rw [isPending_iff] at hp
    rw [isPending_iff, hshared, htask]
    split_ifs with hu
    · subst hu
      exact hp.imp_left fun hown => hlower x hx hown hloss
    · exact hp
  · intro u x hx hf
    rw [htask] at hf
    split_ifs at hf with hu
    · subst hu
      exact hforced x hx hf
    · exact hf

/-- Two tasks of one thread group, by their signal state. -/
def SharesSignal (s : System) (t u : TaskId) : Prop :=
  (s.task u).resources .signal = (s.task t).resources .signal

variable {u : TaskId}

theorem sharedPending_setSharedPending_self (h : s.SharesSignal t u) (f : SigSet → SigSet) :
    (s.setSharedPending t f).sharedPending u =
      if (s.object u .signal).isSome then f (s.sharedPending u) else 0 := by
  have hobject : (s.setSharedPending t f).object u .signal = (s.object u .signal).map fun signal =>
        { signal with sharedPending := f signal.sharedPending } := by
    rw [setSharedPending, object, object, modifyObject_objects_self, modifyObject_task, h]
    exact RefTable.val?_modify_self _ _ _
  rw [sharedPending, hobject, sharedPending]
  cases s.object u .signal <;> rfl

theorem sharedPending_setSharedPending_of_ne (h : ¬s.SharesSignal t u) (f : SigSet → SigSet) :
    (s.setSharedPending t f).sharedPending u = s.sharedPending u := by
  have hobject : (s.setSharedPending t f).object u .signal = s.object u .signal := by
    rw [setSharedPending, object, modifyObject_objects_self]
    exact RefTable.val?_modify_of_ne _ _ fun heq => h heq.symm
  rw [sharedPending, hobject, sharedPending]

/-- Changes of the shared mask of one thread group. -/
theorem posted_setSharedPending {f : SigSet → SigSet}
    (hupper : ∀ u set x, s.SharesSignal t u → ValidSignal x → hasSignal (f set) x = true →
      hasSignal set x = true ∨ gain u x)
    (hlower : ∀ u set x, s.SharesSignal t u → ValidSignal x → hasSignal set x = true →
      ¬loss u x → hasSignal (f set) x = true) :
    Posted gain loss s (s.setSharedPending t f) := by
  constructor
  · intro u x hx hp
    rw [isPending_iff] at hp ⊢
    cases hp with
    | inl hown => exact .inl (.inl hown)
    | inr hsh =>
      by_cases hu : s.SharesSignal t u
      · rw [sharedPending_setSharedPending_self hu] at hsh
        split_ifs at hsh with hsome
        · exact (hupper u _ x hu hx hsh).imp_left Or.inr
        · simp at hsh
      · rw [sharedPending_setSharedPending_of_ne hu] at hsh
        exact .inl (.inr hsh)
  · intro u x hx hp hloss
    rw [isPending_iff] at hp ⊢
    cases hp with
    | inl hown => exact .inl hown
    | inr hsh =>
      right
      by_cases hu : s.SharesSignal t u
      · rw [sharedPending_setSharedPending_self hu]
        have hsome : (s.object u .signal).isSome = true := by
          cases hobject : s.object u .signal with
          | some signal => rfl
          | none =>
            rw [sharedPending, hobject] at hsh
            simp at hsh
        rw [if_pos hsome]
        exact hlower u _ x hu hx hsh hloss
      · rw [sharedPending_setSharedPending_of_ne hu]
        exact hsh
  · intro u x _ hf
    exact hf

/-! ## Sending -/

/-- The signals that `sig` cancels. -/
def Cancels (sig x : Nat) : Prop := hasSignal (oppositeMask sig) x = true

theorem hasSignal_clear {set mask : SigSet} {x : Nat} (hx : ValidSignal x) :
    hasSignal (set &&& ~~~mask) x = true ↔ hasSignal set x = true ∧ ¬hasSignal mask x = true := by
  rw [hasSignal_and, hasSignal_not _ hx.2]
  simp

variable {sig : Nat}

theorem hasSignal_add {set : SigSet} {x : Nat} (hsig : ValidSignal sig) (hx : ValidSignal x) :
    hasSignal (set ||| signalMask sig) x = true ↔ hasSignal set x = true ∨ x = sig := by
  rw [hasSignal_or, hasSignal_signalMask hsig hx.1, Bool.or_eq_true, beq_iff_eq]
  exact or_congr_right eq_comm

theorem posted_signalClearPending {mask : SigSet}
    (hloss : ∀ x, hasSignal mask x = true → loss t x) :
    Posted gain loss s (s.signalClearPending t mask) := by
  apply posted_setSigctx
  · intro x hx hp
    exact .inl ((hasSignal_clear hx).mp hp).1
  · intro x hx hp hkept
    exact (hasSignal_clear hx).mpr ⟨hp, fun hmask => hkept (hloss x hmask)⟩
  · intro x hx hf
    exact ((hasSignal_clear hx).mp hf).1

theorem posted_signalClearOppositePending (hloss : ∀ x, Cancels sig x → loss t x) :
    Posted gain loss s (s.signalClearOppositePending t sig) := by
  unfold signalClearOppositePending
  split
  · exact posted_signalClearPending hloss
  · exact .refl s

theorem posted_addPending (hsig : ValidSignal sig) (hgain : gain t sig) : Posted gain loss s
      (s.setSigctx t fun c =>
        { c with
          pending := c.pending ||| signalMask sig
          forcedPending := if false then c.forcedPending ||| signalMask sig
            else c.forcedPending }) := by
  apply posted_setSigctx
  · intro x hx hp
    rcases (hasSignal_add hsig hx).mp hp with hold | rfl
    · exact .inl hold
    · exact .inr hgain
  · intro x hx hp _
    exact (hasSignal_add hsig hx).mpr (.inl hp)
  · intro x _ hf
    exact hf

section Publish

variable {publish : System → TaskId → System} (hpublish : ∀ s t, Posted gain loss s (publish s t))

include hpublish

theorem posted_wakeSignalTarget (s : System) (t : TaskId) (sig : Nat) :
    Posted gain loss s (s.wakeSignalTarget publish t sig) := by
  have hrunning : ∀ s : System, Posted gain loss s (s.schedWakeTask t) := by
    intro s
    unfold schedWakeTask setState
    exact posted_setTask rfl rfl rfl
  unfold wakeSignalTarget
  dsimp only
  split
  · exact hrunning s
  split
  · exact hrunning s
  split
  · exact (hpublish s t).trans (hrunning _)
  split
  · exact hrunning s
  · exact .refl s

/-- Posting to one task: the target gains the signal, and its group loses what it
cancels. -/
theorem posted_postSignal (hsig : ValidSignal sig) (hgain : gain t sig)
    (hloss : ∀ u x, s.SharesSignal t u → Cancels sig x → loss u x) :
    Posted gain loss s (s.postSignal publish sig t false) := by
  have hown : Posted gain loss s (s.signalClearOppositePending t sig) :=
    posted_signalClearOppositePending (hloss t · rfl)
  have hres := (sends_signalClearOppositePending s t sig).signalled.resources
  have hshared : Posted gain loss (s.signalClearOppositePending t sig)
      ((s.signalClearOppositePending t sig).signalClearTaskSharedOppositePending t sig) := by
    apply posted_setSharedPending
    · intro u set x _ hx hp
      exact .inl ((hasSignal_clear hx).mp hp).1
    · intro u set x hu hx hp hkept
      rw [SharesSignal, hres, hres] at hu
      exact (hasSignal_clear hx).mpr ⟨hp, fun hc => hkept (hloss u x hu hc)⟩
  exact ((hown.trans hshared).trans (posted_addPending hsig hgain)).trans
    (posted_wakeSignalTarget hpublish _ t sig)

theorem posted_sendSignalInfoInternal (hgain : gain t sig)
    (hloss : ∀ u x, s.SharesSignal t u → Cancels sig x → loss u x) :
    Posted gain loss s (s.sendSignalInfoInternal publish sig t false).2 := by
  unfold sendSignalInfoInternal
  split
  · exact .refl s
  split
  · exact .refl s
  · rename_i hvalid _
    have hsig : ValidSignal sig := by simpa [ValidSignal] using hvalid
    exact posted_postSignal hpublish hsig hgain hloss

end Publish

section Sigchld

variable (hgain : ∀ u, gain u sigchld)

include hgain

theorem posted_notifyParent (s : System) (t : TaskId) : Posted gain loss s (s.notifyParent t) := by
  have hcancels : ∀ x, ¬Cancels sigchld x := by
    intro x h
    have hzero : oppositeMask sigchld = 0#64 := by decide
    rw [Cancels, hzero, hasSignal_zero] at h
    cases h
  unfold notifyParent
  split
  · exact .refl s
  split
  · exact posted_sendSignalInfoInternal (fun s _ => .refl s) (hgain _)
      fun _ x _ hc => absurd hc (hcancels x)
  · exact .refl s

theorem posted_taskChildEventPublish (s : System) (t : TaskId) (event : ChildEvent) :
    Posted gain loss s (s.taskChildEventPublish t event) := by
  have hrecord : Posted gain loss s (s.recordChildEvent t event) := posted_setTask rfl rfl rfl
  exact hrecord.trans (posted_notifyParent hgain _ t)

theorem posted_taskChildPublishContinue (s : System) (t : TaskId) :
    Posted gain loss s (s.taskChildPublishContinue t) := by
  unfold taskChildPublishContinue
  split
  · exact posted_taskChildEventPublish hgain s t _
  · exact .refl s

theorem posted_wakeGroupMember (s : System) (hloss : ∀ x, Cancels sig x → loss t x) :
    Posted gain loss s (s.wakeGroupMember sig t) :=
  (posted_signalClearOppositePending hloss).trans
    (posted_wakeSignalTarget (posted_taskChildPublishContinue hgain) _ t sig)

theorem posted_foldl (s : System) {threads : List TaskId}
    (hloss : ∀ u ∈ threads, ∀ x, Cancels sig x → loss u x) :
    Posted gain loss s (threads.foldl (fun s thread => s.wakeGroupMember sig thread) s) := by
  induction threads generalizing s with
  | nil => exact .refl s
  | cons thread rest ih =>
    exact (posted_wakeGroupMember hgain s (hloss thread List.mem_cons_self)).trans
      (ih _ fun u hu => hloss u (List.mem_cons_of_mem _ hu))

end Sigchld

theorem posted_taskChildPublishStop (s : System) (t : TaskId) (sig : Nat) :
    Posted (fun _ x => x = sigchld) (fun _ _ => False) s (s.taskChildPublishStop t sig) := by
  unfold taskChildPublishStop
  split
  · exact posted_taskChildEventPublish (fun _ => by rfl) s t _
  · exact .refl s

theorem posted_sendSignalInfo (s : System) (t : TaskId) (sig : Nat) :
    Posted (fun u x => (u = t ∧ x = sig) ∨ x = sigchld)
      (fun u x => s.SharesSignal t u ∧ Cancels sig x) s (s.sendSignalInfo sig t).2 :=
  posted_sendSignalInfoInternal (posted_taskChildPublishContinue fun _ => .inr rfl)
    (.inl ⟨rfl, rfl⟩) fun _ _ hu hc => ⟨hu, hc⟩

/-- The tasks that a signal for the group of `t` reaches. -/
def InGroup (s : System) (t u : TaskId) : Prop :=
  s.SharesSignal t u ∨ u ∈ (s.task t).threadGroup

/-- `send_group_signal_info`: the tasks that share the target's signal state gain the
signal, or the target alone if it has none. -/
theorem posted_sendGroupSignalInfo (s : System) (t : TaskId) (sig : Nat) :
    Posted (fun u x => (s.SharesSignal t u ∧ x = sig) ∨ x = sigchld)
      (fun u x => s.InGroup t u ∧ Cancels sig x) s (s.sendGroupSignalInfo sig t).2 := by
  unfold sendGroupSignalInfo
  split
  · exact .refl s
  split
  · exact .refl s
  have hchld : ∀ u, (s.SharesSignal t u ∧ sigchld = sig) ∨ sigchld = sigchld := fun _ => .inr rfl
  split
  · exact posted_sendSignalInfoInternal (posted_taskChildPublishContinue hchld)
      (.inl ⟨rfl, rfl⟩) fun _ _ hu hc => ⟨.inl hu, hc⟩
  · rename_i hvalid _ _
    have hsig : ValidSignal sig := by simpa [ValidSignal] using hvalid
    have hpost : Posted (fun u x => (s.SharesSignal t u ∧ x = sig) ∨ x = sigchld)
        (fun u x => s.InGroup t u ∧ Cancels sig x) s
        (s.setSharedPending t fun shared =>
          (shared &&& ~~~oppositeMask sig) ||| signalMask sig) := by
      apply posted_setSharedPending
      · intro u set x hu hx hp
        rw [hasSignal_add hsig hx, hasSignal_clear hx] at hp
        exact hp.imp And.left fun heq => .inl ⟨hu, heq⟩
      · intro u set x hu hx hp hkept
        rw [hasSignal_add hsig hx, hasSignal_clear hx]
        exact .inl ⟨hp, fun hc => hkept ⟨.inl hu, hc⟩⟩
    have hleader := hpost.trans (posted_wakeGroupMember hchld _ fun _ hc => ⟨.inl rfl, hc⟩)
    dsimp only
    split
    · refine hleader.trans (posted_foldl hchld _ fun u hu _ hc => ⟨.inr ?_, hc⟩)
      rwa [((sends_wakeGroupMember _ t sig).signalled.task t).same] at hu
    · exact hleader

/-! ## Dispositions -/

theorem sigaction_setTask (s : System) (t u : TaskId)
    (hf : (f (s.task t)).resources = (s.task t).resources) (x : Nat) :
    (s.setTask t f).sigaction u x = s.sigaction u x := by
  rw [sigaction, object, setTask_same (·.resources) hf]
  rfl

theorem initProcessIsTask_setTask (s : System) (t u : TaskId)
    (hf : (f (s.task t)).groupLeader = (s.task t).groupLeader) :
    (s.setTask t f).initProcessIsTask u = s.initProcessIsTask u := by
  unfold initProcessIsTask
  rw [setTask_initTask]
  simp only [setTask_same (·.groupLeader) hf]

theorem Signalled.sigaction {s' : System} (h : Signalled s s') (u : TaskId) (x : Nat) :
    s'.sigaction u x = s.sigaction u x := by
  rw [System.sigaction, System.sigaction, object, object, h.resources,
    h.objects .sighand (by decide)]

theorem Signalled.initProcessIsTask {s' : System} (h : Signalled s s') (u : TaskId) :
    s'.initProcessIsTask u = s.initProcessIsTask u := by
  unfold System.initProcessIsTask
  rw [h.initTask]
  simp only [h.groupLeader]

/-- Two tasks use one table of handlers, or have none. -/
def SameHandlers (s : System) (t u : TaskId) : Prop :=
  (s.task u).resources .sighand = (s.task t).resources .sighand

theorem SameHandlers.object {s : System} {t u : TaskId} (h : s.SameHandlers t u)
    (f : SigActions → SigActions) :
    (s.modifyObject t .sighand f).object u .sighand = (s.object u .sighand).map f := by
  rw [System.object, System.object, modifyObject_task, h]
  exact RefTable.val?_modify_self _ _ _

theorem sigaction_modifyObject (s : System) (t u : TaskId) (f : SigActions → SigActions) (x : Nat)
    (hkept : s.SameHandlers t u → ∀ actions, f actions x = actions x) :
    (s.modifyObject t .sighand f).sigaction u x = s.sigaction u x := by
  by_cases hshare : s.SameHandlers t u
  · rw [sigaction, hshare.object, sigaction]
    cases s.object u .sighand with
    | none => rfl
    | some actions => exact hkept hshare actions
  · have hobject : (s.modifyObject t .sighand f).object u .sighand = s.object u .sighand := by
      exact RefTable.val?_modify_of_ne _ _ fun heq => hshare heq.symm
    rw [sigaction, hobject, sigaction]

theorem isPending_modifyObject_sighand (s : System) (t u : TaskId) (f : SigActions → SigActions)
    (x : Nat) : (s.modifyObject t .sighand f).IsPending u x ↔ s.IsPending u x := by
  rfl

end System

end CuteOS.Kernel
