/-
  Kernel/JobSignals.lean --- `SIGCONT` and the stop signals cancel each other.

  Source: `kernel/signal.c` (`send_signal_info_internal`, `send_group_signal_info`,
  `do_kill`, `do_tkill`).

  Sending clears the opposite signals in two ways: for one task its own mask and the mask
  of its group, for a group the shared mask and the masks of all its threads.
-/
import CuteOS.Kernel.Fatal
import CuteOS.Lib.Runs

set_option autoImplicit false

namespace CuteOS.Kernel.System

open CuteOS.Lib

/-- What happens to pending signals. -/
inductive PendingAct where
  /-- `do_tkill`. -/
  | tkill (t : TaskId) (sig : Nat)
  /-- `do_kill` with a positive pid. -/
  | kill (t : TaskId) (sig : Nat)
  /-- A task takes a signal, from its own set or from that of its group. -/
  | take (t : TaskId) (sig : Nat) (shared : Bool)

/-- One step; `do_kill` finds group leaders only. -/
def pendingStep (s : System) : PendingAct → System
  | .tkill t sig => (s.sendSignalInfo sig t).2
  | .kill t sig => if s.isGroupLeader t then (s.sendGroupSignalInfo sig t).2 else s
  | .take t sig shared => s.takeSignal t sig shared

/-- The tasks with the signal state of a leader are the leader and the threads in its list. -/
def Grouped (s : System) : Prop :=
  ∀ leader u, s.isGroupLeader leader = true → ((s.task leader).resources .signal).isSome = true →
    s.SharesSignal leader u → u ∈ leader :: (s.task leader).threadGroup

/-- `SIGCONT` is not pending together with a stop signal. -/
def Exclusive (s : System) : Prop :=
  ∀ u, ∀ stop ∈ [sigstop, sigtstp, sigttin, sigttou],
    ¬(s.IsPending u sigcont ∧ s.IsPending u stop)

/-- What sending `sig` does: the tasks it is sent to gain it and lose what it cancels. -/
structure Sent (sig : Nat) (hit : TaskId → Prop) (s s' : System) : Prop where
  upper : ∀ u x, ValidSignal x → s'.IsPending u x →
    s.IsPending u x ∨ x = sigchld ∨ (hit u ∧ x = sig)
  cleared : ∀ u x, ValidSignal x → hit u → x ≠ sigchld → Cancels sig x → ¬s'.IsPending u x

variable {s s' : System} {t u : TaskId} {sig x : Nat}

theorem Exclusive.sent {hit : TaskId → Prop} (h : s.Exclusive) (hsent : Sent sig hit s s') :
    s'.Exclusive := by
  have hstops : ∀ stop ∈ [sigstop, sigtstp, sigttin, sigttou],
      (0 < stop ∧ stop < 32) ∧ stop ≠ sigchld ∧ hasSignal (oppositeMask sigcont) stop = true ∧
        hasSignal (oppositeMask stop) sigcont = true := by decide
  have hcont : (0 < sigcont ∧ sigcont < 32) ∧ sigcont ≠ sigchld := by decide
  rintro u stop hmem ⟨hp, hq⟩
  obtain ⟨hvalid, hne, hforth, hback⟩ := hstops stop hmem
  rcases hsent.upper u sigcont hcont.1 hp with hp' | hp' | ⟨hu, rfl⟩
  · rcases hsent.upper u stop hvalid hq with hq' | hq' | ⟨hu, rfl⟩
    · exact h u stop hmem ⟨hp', hq'⟩
    · exact hne hq'
    · exact hsent.cleared u sigcont hcont.1 hu hcont.2 hback hp
  · exact hcont.2 hp'
  · exact hsent.cleared u stop hvalid hu hne hforth hq

theorem sent_refl (sig : Nat) (s : System) : ∃ hit, Sent sig hit s s :=
  ⟨fun _ => False, fun _ _ _ h => .inl h, fun _ _ _ h => h.elim⟩

/-! ## Sending to one task -/

theorem not_cancels_self (hx : ValidSignal x) : ¬Cancels x x := by
  have hall : ∀ x ∈ allSignals, ¬hasSignal (oppositeMask x) x = true := by decide
  exact hall x ((mem_allSignals x).mpr hx)

theorem not_own_clear (hx : ValidSignal x) (hc : Cancels sig x) :
    ¬hasSignal ((s.signalClearOppositePending t sig).task t).sigctx.pending x = true := by
  unfold signalClearOppositePending
  split
  · unfold signalClearPending setSigctx
    rw [setTask_task_self, hasSignal_clear hx]
    exact fun h => h.2 hc
  · rename_i hnone
    simp only [Bool.or_eq_true, not_or] at hnone
    simp [Cancels, oppositeMask, hnone] at hc

theorem sent_postSignal (hsig : ValidSignal sig) :
    Sent sig (· = t) s (s.postSignal taskChildPublishContinue sig t false) := by
  -- the first step is to the state after both masks have been cleared
  have hafter : Posted (fun u x => (u = t ∧ x = sig) ∨ x = sigchld) (fun _ _ => True)
      ((s.signalClearOppositePending t sig).signalClearTaskSharedOppositePending t sig)
      (s.postSignal taskChildPublishContinue sig t false) :=
    (posted_addPending hsig (.inl ⟨rfl, rfl⟩)).trans
      (posted_wakeSignalTarget (posted_taskChildPublishContinue fun _ => .inr rfl) _ t sig)
  have hposted : Posted (fun u x => (u = t ∧ x = sig) ∨ x = sigchld) (fun _ _ => True) s
      (s.postSignal taskChildPublishContinue sig t false) :=
    posted_postSignal (posted_taskChildPublishContinue fun _ => .inr rfl) hsig
      (.inl ⟨rfl, rfl⟩) fun _ _ _ _ => trivial
  constructor
  · intro u x hx hp
    exact (hposted.upper u x hx hp).imp_right Or.symm
  · rintro u x hx rfl hne hc hp
    rcases hafter.upper u x hx hp with h | ⟨-, rfl⟩ | h
    · rcases (isPending_iff _ u x).mp h with h | h
      · exact not_own_clear hx hc h
      · rw [signalClearTaskSharedOppositePending, sharedPending_setSharedPending_self rfl] at h
        split_ifs at h
        · exact ((hasSignal_clear hx).mp h).2 hc
        · simp at h
    · exact not_cancels_self hx hc
    · exact hne h

theorem sent_sendSignalInfo (s : System) (t : TaskId) (sig : Nat) :
    ∃ hit, Sent sig hit s (s.sendSignalInfo sig t).2 := by
  unfold sendSignalInfo sendSignalInfoInternal
  split_ifs with hvalid hdead
  · exact sent_refl sig s
  · exact sent_refl sig s
  · have hsig : ValidSignal sig := by simpa [ValidSignal] using hvalid
    exact ⟨(· = t), sent_postSignal hsig⟩

/-! ## Sending to a group

Waking a thread may send `SIGCHLD` to a parent, which leaves all shared masks alone. -/

theorem sharedPending_wakeSignalTarget {publish : System → TaskId → System}
    (hpublish : ∀ s t, (publish s t).sharedPending u = s.sharedPending u) (s : System) :
    (s.wakeSignalTarget publish t sig).sharedPending u = s.sharedPending u := by
  have hwake : ∀ s : System, (s.schedWakeTask t).sharedPending u = s.sharedPending u := by
    intro s
    unfold schedWakeTask setState
    exact sharedPending_setTask s t u rfl
  unfold wakeSignalTarget
  dsimp only
  split_ifs
  · exact hwake s
  · exact hwake s
  · exact (hwake _).trans (hpublish s t)
  · exact hwake s
  · rfl

section

variable (s) (t)

theorem sharedPending_notifyParent : (s.notifyParent t).sharedPending u = s.sharedPending u := by
  have hzero : ∀ set : SigSet, set &&& ~~~oppositeMask sigchld = set := by
    intro set
    rw [show oppositeMask sigchld = 0#64 by decide, BitVec.not_zero, BitVec.and_allOnes]
  have hclear : ∀ parent, (s.signalClearTaskSharedOppositePending parent sigchld).sharedPending u =
      s.sharedPending u := by
    intro parent
    by_cases hu : s.SharesSignal parent u
    · rw [signalClearTaskSharedOppositePending, sharedPending_setSharedPending_self hu, hzero]
      cases hobject : s.object u .signal <;> simp [sharedPending, hobject]
    · exact sharedPending_setSharedPending_of_ne hu _
  unfold notifyParent sendSignalInfoInternal
  split
  · rfl
  split_ifs
  · rfl
  · rfl
  · refine (sharedPending_wakeSignalTarget (fun _ _ => rfl) _).trans ?_
    exact (sharedPending_setTask _ _ u rfl).trans (hclear _)
  · rfl

theorem sharedPending_signalClearOppositePending (sig : Nat) :
    (s.signalClearOppositePending t sig).sharedPending u = s.sharedPending u := by
  unfold signalClearOppositePending signalClearPending setSigctx
  split
  · exact sharedPending_setTask s t u rfl
  · rfl

theorem sharedPending_wakeGroupMember (sig : Nat) :
    (s.wakeGroupMember sig t).sharedPending u = s.sharedPending u := by
  refine (sharedPending_wakeSignalTarget (fun s t => ?_) _).trans
    (sharedPending_signalClearOppositePending s t sig)
  unfold taskChildPublishContinue
  split
  · exact (sharedPending_notifyParent _ t).trans (sharedPending_setTask s t u rfl)
  · rfl

end

/-- A signal that is not in the shared mask is pending for none of the threads that have
been visited. -/
theorem not_isPending_foldl (hx : ValidSignal x) (hne : x ≠ sigchld) (hc : Cancels sig x)
    {threads : List TaskId} (hshared : ¬hasSignal (s.sharedPending u) x = true)
    (hu : u ∈ threads ∨ ¬s.IsPending u x) :
    ¬(threads.foldl (fun s thread => s.wakeGroupMember sig thread) s).IsPending u x := by
  induction threads generalizing s with
  | nil => exact hu.resolve_left List.not_mem_nil
  | cons thread rest ih =>
    apply ih
    · rw [sharedPending_wakeGroupMember]
      exact hshared
    · rcases hu with hu | hu
      · rcases List.mem_cons.mp hu with rfl | hu
        · right
          intro hp
          have hwake : Posted (fun _ x => x = sigchld) (fun _ _ => False)
              (s.signalClearOppositePending u sig) (s.wakeGroupMember sig u) :=
            posted_wakeSignalTarget (posted_taskChildPublishContinue fun _ => by rfl) _ u sig
          rcases hwake.upper u x hx hp with h | h
          · rcases (isPending_iff _ u x).mp h with h | h
            · exact not_own_clear hx hc h
            · rw [sharedPending_signalClearOppositePending] at h
              exact hshared h
          · exact hne h
        · exact .inl hu
      · right
        intro hp
        have hwake : Posted (fun _ x => x = sigchld) (fun _ _ => True) s
            (s.wakeGroupMember sig thread) :=
          posted_wakeGroupMember (fun _ => by rfl) s fun _ _ => by trivial
        exact (hwake.upper u x hx hp).elim hu hne

theorem Signalled.threadGroup (h : Signalled s s') (u : TaskId) :
    (s'.task u).threadGroup = (s.task u).threadGroup := by
  rw [(h.task u).same]

theorem sent_sendGroupSignalInfo (hgroups : s.Grouped) (hleader : s.isGroupLeader t = true) :
    ∃ hit, Sent sig hit s (s.sendGroupSignalInfo sig t).2 := by
  have hposted := posted_sendGroupSignalInfo s t sig
  unfold sendGroupSignalInfo at hposted ⊢
  split_ifs at hposted ⊢ with hvalid hdead hnone
  · exact sent_refl sig s
  · exact sent_refl sig s
  · exact sent_sendSignalInfo s t sig
  · refine ⟨s.SharesSignal t, fun u x hx hp => ?_, fun u x hx hu hne hc => ?_⟩
    · exact (hposted.upper u x hx hp).imp_right Or.symm
    · have hsig : ValidSignal sig := by simpa [ValidSignal] using hvalid
      have hsome : ((s.task t).resources .signal).isSome = true := by
        simpa [Option.isSome_iff_ne_none] using hnone
      have hshared : ¬hasSignal ((s.setSharedPending t fun shared =>
          (shared &&& ~~~oppositeMask sig) ||| signalMask sig).sharedPending u) x = true := by
        rw [sharedPending_setSharedPending_self hu]
        split_ifs
        · rw [hasSignal_add hsig hx, hasSignal_clear hx]
          rintro (h | rfl)
          · exact h.2 hc
          · exact not_cancels_self hx hc
        · simp
      have hwoken := (sends_wakeGroupMember (s.setSharedPending t fun shared =>
        (shared &&& ~~~oppositeMask sig) ||| signalMask sig) t sig).signalled
      have hlead : System.isGroupLeader _ t = true :=
        (congrArg (· == t) (hwoken.groupLeader t)).trans hleader
      dsimp only
      rw [if_pos hlead, hwoken.threadGroup]
      have hall := not_isPending_foldl hx hne hc hshared (.inl (hgroups t u hleader hsome hu))
      exact hall

/-! ## Runs -/

theorem Grouped.signalled (h : s.Grouped) (hsig : Signalled s s') : s'.Grouped := by
  intro leader u hleader hsome hshares
  rw [SharesSignal, hsig.resources, hsig.resources] at hshares
  rw [isGroupLeader, hsig.groupLeader] at hleader
  rw [hsig.resources] at hsome
  rw [hsig.threadGroup]
  exact h leader u hleader hsome hshares

/-- What a step can do. -/
theorem pendingStep_sent (hgroups : s.Grouped) (a : PendingAct) :
    Signalled s (s.pendingStep a) ∧ ∃ sig hit, Sent sig hit s (s.pendingStep a) := by
  cases a with
  | tkill t sig => exact ⟨signalled_sendSignalInfo s t sig, sig, sent_sendSignalInfo s t sig⟩
  | kill t sig =>
    rw [pendingStep]
    split
    · rename_i hleader
      exact ⟨signalled_sendGroupSignalInfo s t sig, sig, sent_sendGroupSignalInfo hgroups hleader⟩
    · exact ⟨.refl s, sig, sent_refl sig s⟩
  | take t sig shared =>
    refine ⟨signalled_takeSignal s t sig shared, sig, fun _ => False, fun u x hx hp => ?_,
      fun _ _ _ h => h.elim⟩
    exact ((posted_takeSignal s t sig shared).upper u x hx hp).imp_right False.elim

/-- In every run of sends and deliveries `SIGCONT` and the stop signals exclude each other. -/
theorem cont_and_stop_exclusive {s s' : System} (hgroups : s.Grouped) (hstart : s.Exclusive)
    (hrun : Runs (fun s a s' => s' = s.pendingStep a) (fun _ _ => True) s s') : s'.Exclusive := by
  have hkept : ∀ (s : System) (a : PendingAct) (s' : System), s.Grouped ∧ s.Exclusive → True →
      s' = s.pendingStep a → s'.Grouped ∧ s'.Exclusive := by
    rintro s a - ⟨hg, he⟩ - rfl
    obtain ⟨hsig, sig, hit, hsent⟩ := pendingStep_sent hg a
    exact ⟨hg.signalled hsig, he.sent hsent⟩
  exact (hrun.induct ⟨hgroups, hstart⟩ hkept).2

/-- A leader and one thread. -/
def groupPair : System where
  task t := if t = 1 then { groupLeader := 1, threadGroup := [2], resources := fun _ => some 0 }
    else if t = 2 then { groupLeader := 1, resources := fun _ => some 0 }
    else { groupLeader := t }
  tasks := [1, 2]
  nextTask := 3
  current := 1
  initTask := none
  objects
    | .signal => RefTable.empty.alloc {}
    | _ => RefTable.empty

theorem groupPair_grouped : groupPair.Grouped := by
  intro leader u hleader hsome hshares
  by_cases hone : leader = 1
  · subst hone
    by_cases hu : u = 1 ∨ u = 2
    · exact hu.elim (fun h => by simp [h]) fun h => by simp [h, groupPair]
    · rw [not_or] at hu
      simp [SharesSignal, groupPair, hu] at hshares
  · by_cases htwo : leader = 2
    · subst htwo
      exact absurd hleader (by decide)
    · simp [groupPair, hone, htwo] at hsome

/-- The group is stopped, then its second thread is continued. -/
theorem cont_and_stop_exclusive_pair :
    ((groupPair.pendingStep (.kill 1 sigstop)).pendingStep (.tkill 2 sigcont)).Exclusive := by
  have hstart : groupPair.Exclusive := by
    rintro u stop - ⟨hp, -⟩
    by_cases hu : u = 1 ∨ u = 2
    · rcases hu with rfl | rfl <;> exact absurd hp (by unfold IsPending; decide)
    · rw [not_or] at hu
      simp [isPending_iff, sharedPending, object, RefTable.val?, groupPair, hu] at hp
  exact cont_and_stop_exclusive groupPair_grouped hstart
    ((Relation.ReflTransGen.single ⟨_, trivial, rfl⟩).tail ⟨_, trivial, rfl⟩)

end CuteOS.Kernel.System
