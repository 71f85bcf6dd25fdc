/-
  Kernel/Signal.lean --- pending signals, dispositions and sending.

  Sources: `kernel/signal.c`, `kernel/init_process.c`, and of `kernel/task.c` the
  publication of child events.

  The locks of `signal_struct` and `sighand_struct` are not taken here: each of these
  functions is one step of the task that calls it.
-/
import CuteOS.Kernel.Task

set_option autoImplicit false

namespace CuteOS.Kernel

/-! ## Signal numbers and masks -/

/-- `NSIG`. -/
def nsig : Nat := 32

def sigkill : Nat := 9
def sigsegv : Nat := 11
def sigchld : Nat := 17
def sigcont : Nat := 18
def sigstop : Nat := 19
def sigtstp : Nat := 20
def sigttin : Nat := 21
def sigttou : Nat := 22

/-- `for (int sig = 1; sig < NSIG; sig++)`. -/
def allSignals : List Nat := List.range' 1 (nsig - 1)

/-- `signal_is_valid`. -/
def signalIsValid (sig : Nat) : Bool := decide (0 < sig) && decide (sig < nsig)

/-- `signal_mask`. -/
def signalMask (sig : Nat) : SigSet := 1#64 <<< (sig - 1)

/-- The test `set & signal_mask(sig)`. -/
def hasSignal (set : SigSet) (sig : Nat) : Bool := (set &&& signalMask sig) != 0

/-- `signal_is_stop_signal`. -/
def signalIsStopSignal (sig : Nat) : Bool :=
  sig == sigstop || sig == sigtstp || sig == sigttin || sig == sigttou

/-- `signal_stop_mask`. -/
def signalStopMask : SigSet :=
  signalMask sigstop ||| signalMask sigtstp ||| signalMask sigttin ||| signalMask sigttou

/-- `signal_is_fatal_default`. -/
def signalIsFatalDefault (sig : Nat) : Bool :=
  !(sig == sigchld || sig == sigcont || sig == sigtstp || sig == sigttin || sig == sigttou)

/-- `signal_stops_default`. -/
def signalStopsDefault (sig handler : Nat) : Bool :=
  sig == sigstop || (handler == sigDfl && signalIsStopSignal sig)

/-- `signal_is_catchable`. -/
def signalIsCatchable (sig : Nat) : Bool := sig != sigkill && sig != sigstop

/-- `unblockable_mask`. -/
def unblockableMask : SigSet := signalMask sigkill ||| signalMask sigstop

@[simp] theorem signalIsValid_iff (sig : Nat) :
    signalIsValid sig = true ↔ 0 < sig ∧ sig < 32 := by
  rw [signalIsValid, Bool.and_eq_true, decide_eq_true_iff, decide_eq_true_iff]
  rfl

theorem mem_allSignals (sig : Nat) : sig ∈ allSignals ↔ 0 < sig ∧ sig < 32 := by
  simp only [allSignals, nsig, List.mem_range'_1]
  omega

theorem hasSignal_eq (set : SigSet) (sig : Nat) : hasSignal set sig = set.getLsbD (sig - 1) := by
  have hmask : signalMask sig = BitVec.twoPow 64 (sig - 1) := by
    rw [signalMask, BitVec.twoPow]
  rw [hasSignal, hmask, BitVec.and_twoPow]
  cases hbit : set.getLsbD (sig - 1) with
  | false => simp
  | true =>
    have hlt : sig - 1 < 64 := BitVec.lt_of_getLsbD hbit
    have hne : BitVec.twoPow 64 (sig - 1) ≠ 0#64 := by
      intro hzero
      have hget := congrArg (fun v => BitVec.getLsbD v (sig - 1)) hzero
      simp [hlt] at hget
    simp [hne]

@[simp] theorem hasSignal_zero (sig : Nat) : hasSignal 0#64 sig = false := by
  simp [hasSignal_eq]

@[simp] theorem hasSignal_or (x y : SigSet) (sig : Nat) :
    hasSignal (x ||| y) sig = (hasSignal x sig || hasSignal y sig) := by
  simp [hasSignal_eq]

@[simp] theorem hasSignal_and (x y : SigSet) (sig : Nat) :
    hasSignal (x &&& y) sig = (hasSignal x sig && hasSignal y sig) := by
  simp [hasSignal_eq]

variable {sig : Nat}

theorem hasSignal_not (x : SigSet) (hlt : sig < 32) :
    hasSignal (~~~x) sig = !hasSignal x sig := by
  have hbit : sig - 1 < 64 := by omega
  simp [hasSignal_eq, hbit]

theorem hasSignal_signalMask {other : Nat} (hsig : 0 < sig ∧ sig < 32) (hother : 0 < other) :
    hasSignal (signalMask sig) other = (sig == other) := by
  have hmask : signalMask sig = BitVec.twoPow 64 (sig - 1) := by
    rw [signalMask, BitVec.twoPow]
  rw [hasSignal_eq, hmask]
  have hbit : sig - 1 < 64 := by omega
  by_cases heq : sig = other
  · subst heq
    simp [hbit]
  · have hne : sig - 1 ≠ other - 1 := by omega
    simp [hne, heq]

/-! ## What is pending -/

namespace System

/-- `init_process_is_task`. -/
def initProcessIsTask (s : System) (t : TaskId) : Bool :=
  match s.initTask with
  | none => false
  | some i => (s.task t).groupLeader == (s.task i).groupLeader

/-- `signal_handler_for_task`. -/
def signalHandlerForTask (s : System) (t : TaskId) (sig : Nat) : Nat := (s.sigaction t sig).saHandler

/-- `signal_init_default_ignored`. -/
def signalInitDefaultIgnored (s : System) (t : TaskId) (sig : Nat) : Bool :=
  s.initProcessIsTask t && sig != sigstop &&
    ((signalIsFatalDefault sig || sig == sigtstp) && s.signalHandlerForTask t sig == sigDfl)

/-- `signal_pending_mask`. -/
def signalPendingMask (s : System) (t : TaskId) : SigSet :=
  (s.task t).sigctx.pending ||| s.sharedPending t

/-- The blocked signals without those that cannot be blocked. -/
def effectiveBlocked (s : System) (t : TaskId) : SigSet :=
  (s.task t).sigctx.blocked &&& ~~~unblockableMask

/-- `signal_pending`. -/
def signalPending (s : System) (t : TaskId) : Bool :=
  s.signalPendingMask t &&& ~~~s.effectiveBlocked t != 0

/-- `signal_fatal_pending`. -/
def signalFatalPending (s : System) (t : TaskId) : Bool :=
  hasSignal (s.signalPendingMask t) sigkill &&
    (hasSignal (s.task t).sigctx.forcedPending sigkill || !s.signalInitDefaultIgnored t sigkill)

/-- `task_signal_target_dead`. -/
def signalTargetDead (s : System) (t : TaskId) : Bool :=
  (s.task t).state == .dead || (s.task t).state == .zombie

/-- `next_signal`: the lowest deliverable signal with the flag `shared`, or none. -/
def nextSignal (s : System) (t : TaskId) : Option (Nat × Bool) :=
  let pending := (s.task t).sigctx.pending ||| s.sharedPending t
  let deliverable := pending &&& (1#64 <<< (nsig - 1) - 1) &&& ~~~s.effectiveBlocked t
  match allSignals.find? fun sig => hasSignal deliverable sig with
  | none => none
  | some sig =>
    some (sig, !hasSignal (s.task t).sigctx.pending sig && hasSignal (s.sharedPending t) sig)

variable {s s' : System}

theorem nextSignal_valid {t : TaskId} {shared : Bool} (h : s.nextSignal t = some (sig, shared)) :
    0 < sig ∧ sig < 32 := by
  unfold nextSignal at h
  dsimp only at h
  split at h
  · cases h
  · rename_i found hfind
    simp only [Option.some.injEq, Prod.mk.injEq] at h
    rw [← h.1]
    exact (mem_allSignals found).mp (List.mem_of_find?_eq_some hfind)

/-! ## Masks of one task -/

/-- `signal_block_mask`. -/
def signalBlockMask (s : System) (t : TaskId) (mask : SigSet) : System :=
  s.setSigctx t fun c => { c with blocked := (c.blocked ||| mask) &&& ~~~unblockableMask }

/-- `signal_set_blocked_mask`. -/
def signalSetBlockedMask (s : System) (t : TaskId) (mask : SigSet) : System :=
  s.setSigctx t fun c => { c with blocked := mask &&& ~~~unblockableMask }

/-- `signal_clear_pending`. -/
def signalClearPending (s : System) (t : TaskId) (mask : SigSet) : System :=
  s.setSigctx t fun c =>
    { c with pending := c.pending &&& ~~~mask, forcedPending := c.forcedPending &&& ~~~mask }

/-- `signal_restore_deferred_mask`. -/
def signalRestoreDeferredMask (s : System) (t : TaskId) : System :=
  match (s.task t).sigctx.restoreMask with
  | none => s
  | some mask =>
    (s.setSigctx t fun c => { c with restoreMask := none }).signalSetBlockedMask t mask

/-- What a signal cancels: `SIGCONT` the stop signals, a stop signal `SIGCONT`. -/
def oppositeMask (sig : Nat) : SigSet :=
  if sig == sigcont then signalStopMask
  else if signalIsStopSignal sig then signalMask sigcont
  else 0

/-- `signal_clear_opposite_pending`. -/
def signalClearOppositePending (s : System) (t : TaskId) (sig : Nat) : System :=
  if sig == sigcont || signalIsStopSignal sig then s.signalClearPending t (oppositeMask sig) else s

/-- Write to `shared_pending` of the task's `signal_struct`. -/
def setSharedPending (s : System) (t : TaskId) (f : SigSet → SigSet) : System :=
  s.modifyObject t .signal fun signal =>
    { signal with sharedPending := f signal.sharedPending }

/-- `signal_clear_task_shared_opposite_pending`. -/
def signalClearTaskSharedOppositePending (s : System) (t : TaskId) (sig : Nat) : System :=
  s.setSharedPending t fun shared => shared &&& ~~~oppositeMask sig

/-! ## Waking and sending

A continued or exiting child sends `SIGCHLD` to its parent, and waking a stopped target
publishes a continue event.  The second use is for `SIGCONT` only, so `SIGCHLD` is sent
by an instance of the same function in which nothing is published. -/

/-- `sched_wake_task`, without the run queue. -/
def schedWakeTask (s : System) (t : TaskId) : System := s.setState t .running

/-- `wake_signal_target`. -/
def wakeSignalTarget (publishContinue : System → TaskId → System) (s : System) (t : TaskId)
    (sig : Nat) : System :=
  let state := (s.task t).state
  if state == .interruptible &&
      (signalMask sig &&& ~~~(s.task t).sigctx.blocked != 0 || !signalIsCatchable sig) then
    s.schedWakeTask t
  else if state == .killable && s.signalFatalPending t then
    s.schedWakeTask t
  else if sig == sigcont && state == .stopped then
    (publishContinue s t).schedWakeTask t
  else if sig == sigkill && (state == .stopped || state == .uninterruptible) then
    s.schedWakeTask t
  else
    s

/-- The effect of `send_signal_info_internal` once the arguments have been checked. -/
def postSignal (publishContinue : System → TaskId → System) (s : System) (sig : Nat)
    (t : TaskId) (force : Bool) : System :=
  let s := s.signalClearOppositePending t sig
  let s := s.signalClearTaskSharedOppositePending t sig
  let s := s.setSigctx t fun c =>
    { c with
      pending := c.pending ||| signalMask sig
      forcedPending := if force then c.forcedPending ||| signalMask sig else c.forcedPending }
  s.wakeSignalTarget publishContinue t sig

/-- `send_signal_info_internal`. -/
def sendSignalInfoInternal (publishContinue : System → TaskId → System) (s : System)
    (sig : Nat) (t : TaskId) (force : Bool) : Except Errno Unit × System :=
  if !signalIsValid sig then (.error .einval, s)
  else if s.signalTargetDead t then (.error .esrch, s)
  else (.ok (), s.postSignal publishContinue sig t force)

/-- `list_add_tail(&event->node, &child->lifecycle.child_events)`. -/
def recordChildEvent (s : System) (t : TaskId) (event : ChildEvent) : System :=
  s.setTask t fun task => { task with childEvents := task.childEvents ++ [event] }

/-- `task_child_event_send_notification`: tell the parent. -/
def notifyParent (s : System) (t : TaskId) : System :=
  match (s.task t).parent with
  | none => s
  | some parent =>
    if (s.task t).exitSignal == sigchld && (s.task parent).published then
      (s.sendSignalInfoInternal (fun s _ => s) sigchld parent false).2
    else
      s

/-- `task_child_event_publish_locked` and the notification after it. -/
def taskChildEventPublish (s : System) (t : TaskId) (event : ChildEvent) : System :=
  (s.recordChildEvent t event).notifyParent t

/-- `task_child_publish_stop`. -/
def taskChildPublishStop (s : System) (t : TaskId) (sig : Nat) : System :=
  if s.isGroupLeader t then s.taskChildEventPublish t ⟨.stop, sig * 256 + 0x7f, none⟩ else s

/-- `task_child_publish_continue`. -/
def taskChildPublishContinue (s : System) (t : TaskId) : System :=
  if s.isGroupLeader t then s.taskChildEventPublish t ⟨.continue, 0xffff, none⟩ else s

/-- `send_signal_info`. -/
def sendSignalInfo (s : System) (sig : Nat) (t : TaskId) : Except Errno Unit × System :=
  s.sendSignalInfoInternal taskChildPublishContinue sig t false

/-- One target of `send_group_signal_info`. -/
def wakeGroupMember (s : System) (sig : Nat) (t : TaskId) : System :=
  (s.signalClearOppositePending t sig).wakeSignalTarget taskChildPublishContinue t sig

/-- `send_group_signal_info`. -/
def sendGroupSignalInfo (s : System) (sig : Nat) (leader : TaskId) : Except Errno Unit × System :=
  if !signalIsValid sig then (.error .einval, s)
  else if s.signalTargetDead leader then (.error .esrch, s)
  else if ((s.task leader).resources .signal).isNone then s.sendSignalInfo sig leader
  else
    let s := s.setSharedPending leader fun shared =>
      (shared &&& ~~~oppositeMask sig) ||| signalMask sig
    let s := s.wakeGroupMember sig leader
    let s := if s.isGroupLeader leader then
        (s.task leader).threadGroup.foldl (fun s thread => s.wakeGroupMember sig thread) s
      else s
    (.ok (), s)

/-! ## What sending a signal can do

Posting and waking write to pending masks, to the run state of tasks that are not dead,
to the list of child events and to `shared_pending`, and to nothing else. -/

/-- What sending does to one task. -/
structure TaskSignalled (a b : Task) : Prop where
  same : b = { a with
    sigctx := { a.sigctx with
      pending := b.sigctx.pending
      forcedPending := b.sigctx.forcedPending }
    state := b.state
    childEvents := b.childEvents }
  state : b.state = a.state ∨ (a.state ≠ .zombie ∧ a.state ≠ .dead ∧ b.state = .running)
  events : ∃ more, b.childEvents = a.childEvents ++ more ∧ ∀ event ∈ more, event.type ≠ .exit

/-- What sending does to the system. -/
structure Signalled (s s' : System) : Prop where
  tasks : s'.tasks = s.tasks
  nextTask : s'.nextTask = s.nextTask
  current : s'.current = s.current
  initTask : s'.initTask = s.initTask
  exitedThreads : s'.exitedThreads = s.exitedThreads
  objects : ∀ r, r ≠ .signal → s'.objects r = s.objects r
  counted : ∀ held, (s.objects .signal).Counted held → (s'.objects .signal).Counted held
  task : ∀ u, TaskSignalled (s.task u) (s'.task u)

theorem TaskSignalled.setPending (a : Task) (pending forced : SigSet) : TaskSignalled a { a with
      sigctx := { a.sigctx with pending := pending, forcedPending := forced } } :=
  ⟨rfl, .inl rfl, [], (List.append_nil _).symm, by simp⟩

theorem TaskSignalled.refl (a : Task) : TaskSignalled a a := .setPending a _ _

theorem TaskSignalled.trans {a b c : Task} (h1 : TaskSignalled a b) (h2 : TaskSignalled b c) :
    TaskSignalled a c := by
  constructor
  · have hsame := h2.same
    rw [h1.same] at hsame
    exact hsame
  · cases h2.state with
    | inl heq =>
      rw [heq]
      exact h1.state
    | inr hwoken =>
      obtain ⟨hz, hd, hrun⟩ := hwoken
      cases h1.state with
      | inl heq =>
        rw [heq] at hz hd
        exact .inr ⟨hz, hd, hrun⟩
      | inr hfirst => exact .inr ⟨hfirst.1, hfirst.2.1, hrun⟩
  · obtain ⟨more1, heq1, hmore1⟩ := h1.events
    obtain ⟨more2, heq2, hmore2⟩ := h2.events
    refine ⟨more1 ++ more2, by rw [heq2, heq1, List.append_assoc], ?_⟩
    intro event hevent
    cases List.mem_append.mp hevent with
    | inl h => exact hmore1 event h
    | inr h => exact hmore2 event h

namespace Signalled

variable {s1 s2 : System}

theorem refl (s : System) : Signalled s s :=
  ⟨rfl, rfl, rfl, rfl, rfl, fun _ _ => rfl, fun _ h => h, fun u => .refl (s.task u)⟩

theorem trans (h1 : Signalled s s1) (h2 : Signalled s1 s2) : Signalled s s2 where
  tasks := h2.tasks.trans h1.tasks
  nextTask := h2.nextTask.trans h1.nextTask
  current := h2.current.trans h1.current
  initTask := h2.initTask.trans h1.initTask
  exitedThreads := h2.exitedThreads.trans h1.exitedThreads
  objects := fun r hr => (h2.objects r hr).trans (h1.objects r hr)
  counted := fun held h => h2.counted held (h1.counted held h)
  task := fun u => (h1.task u).trans (h2.task u)

theorem setTask (s : System) (t : TaskId) {f : Task → Task}
    (hf : TaskSignalled (s.task t) (f (s.task t))) : Signalled s (s.setTask t f) where
  tasks := rfl
  nextTask := rfl
  current := rfl
  initTask := rfl
  exitedThreads := rfl
  objects := fun _ _ => rfl
  counted := fun _ h => h
  task := by
    intro u
    by_cases hu : u = t
    · subst hu
      rw [setTask_task_self]
      exact hf
    · rw [setTask_task_of_ne _ _ hu]
      exact .refl _

theorem setSharedPending (s : System) (t : TaskId) (f : SigSet → SigSet) :
    Signalled s (s.setSharedPending t f) where
  tasks := rfl
  nextTask := rfl
  current := rfl
  initTask := rfl
  exitedThreads := rfl
  objects := fun _ hr => modifyObject_objects_of_ne _ _ _ hr
  counted := by
    intro held h
    rw [System.setSharedPending, modifyObject_objects_self]
    exact h.modify _ _
  task := fun u => .refl (s.task u)

variable (h : Signalled s s1) (u : TaskId)
include h u

/-- The resources and the group of a task stay. -/
theorem resources : (s1.task u).resources = (s.task u).resources := by
  rw [(h.task u).same]

theorem groupLeader : (s1.task u).groupLeader = (s.task u).groupLeader := by
  rw [(h.task u).same]

end Signalled

/-! ### The writes of a send -/

/-- One write of a function that sends `sig`.  A stopped task wakes for `SIGCONT` and
`SIGKILL` only. -/
inductive SendStep (sig : Nat) (s : System) : System → Prop
  | masks (t : TaskId) (pending forced : SigSet) : SendStep sig s
      (s.setSigctx t fun c => { c with pending := pending, forcedPending := forced })
  | shared (t : TaskId) (f : SigSet → SigSet) : SendStep sig s (s.setSharedPending t f)
  | record (t : TaskId) {event : ChildEvent} (hevent : event.type ≠ .exit) :
      SendStep sig s (s.recordChildEvent t event)
  | wake (t : TaskId) (hzombie : (s.task t).state ≠ .zombie) (hdead : (s.task t).state ≠ .dead)
      (hstopped : (s.task t).state = .stopped → sig = sigcont ∨ sig = sigkill) :
      SendStep sig s (s.schedWakeTask t)

abbrev Sends (sig : Nat) : System → System → Prop := Relation.ReflTransGen (SendStep sig)

theorem SendStep.signalled (h : SendStep sig s s') :
    Signalled s s' := by
  cases h with
  | masks t pending forced => exact .setTask s t (.setPending _ _ _)
  | shared t f => exact .setSharedPending s t f
  | @record t event hevent => exact .setTask s t ⟨rfl, .inl rfl, [event], rfl, by simpa using hevent⟩
  | wake t hzombie hdead hstopped =>
    unfold schedWakeTask setState
    apply Signalled.setTask
    exact ⟨rfl, .inr ⟨hzombie, hdead, rfl⟩, [], (List.append_nil _).symm, by simp⟩

theorem Sends.signalled (h : Sends sig s s') : Signalled s s' := by
  induction h with
  | refl => exact .refl s
  | tail _ hstep ih => exact ih.trans hstep.signalled

/-- The notification of a parent is part of what is sent. -/
theorem Sends.of_sigchld (h : Sends sigchld s s') (sig : Nat) : Sends sig s s' := by
  refine Relation.ReflTransGen.mono ?_ _ _ h
  intro s s' hstep
  cases hstep with
  | masks t pending forced => exact .masks t pending forced
  | shared t f => exact .shared t f
  | record t hevent => exact .record t hevent
  | wake t hzombie hdead hstopped =>
    exact .wake t hzombie hdead fun hstate => absurd (hstopped hstate) (by decide)

section Effects

variable (s : System) (t : TaskId) (sig : Nat)

theorem sends_signalClearOppositePending : Sends sig s (s.signalClearOppositePending t sig) := by
  unfold signalClearOppositePending
  split
  · exact .single (.masks t _ _)
  · exact .refl

variable {publish : System → TaskId → System} (hpublish : ∀ s t, Sends sig s (publish s t))

include hpublish

theorem sends_wakeSignalTarget : Sends sig s (s.wakeSignalTarget publish t sig) := by
  unfold wakeSignalTarget
  dsimp only
  split_ifs with hinterruptible hkillable hcont hkill
  · rw [Bool.and_eq_true, beq_iff_eq] at hinterruptible
    exact .single (.wake t (by simp [hinterruptible]) (by simp [hinterruptible])
      (by simp [hinterruptible]))
  · rw [Bool.and_eq_true, beq_iff_eq] at hkillable
    exact .single (.wake t (by simp [hkillable]) (by simp [hkillable]) (by simp [hkillable]))
  · -- the notification may have woken the target already
    rw [Bool.and_eq_true, beq_iff_eq, beq_iff_eq] at hcont
    have hstate := ((hpublish s t).signalled.task t).state
    rw [hcont.2] at hstate
    refine (hpublish s t).tail (.wake t ?_ ?_ fun _ => .inl hcont.1) <;>
      rcases hstate with heq | ⟨-, -, heq⟩ <;> simp [heq]
  · simp only [Bool.and_eq_true, Bool.or_eq_true, beq_iff_eq] at hkill
    refine .single (.wake t ?_ ?_ fun _ => .inr hkill.1) <;>
      rcases hkill.2 with heq | heq <;> simp [heq]
  · exact .refl

theorem sends_sendSignalInfoInternal (force : Bool) :
    Sends sig s (s.sendSignalInfoInternal publish sig t force).2 := by
  unfold sendSignalInfoInternal
  split_ifs
  · exact .refl
  · exact .refl
  · refine .trans ?_ (sends_wakeSignalTarget _ t sig hpublish)
    exact ((sends_signalClearOppositePending s t sig).tail (.shared t _)).tail (.masks t _ _)

omit hpublish

theorem sends_notifyParent : Sends sigchld s (s.notifyParent t) := by
  unfold notifyParent
  split
  · exact .refl
  split
  · exact sends_sendSignalInfoInternal _ _ _ (fun _ _ => .refl) _
  · exact .refl

theorem sends_taskChildPublishStop : Sends sigchld s (s.taskChildPublishStop t sig) := by
  unfold taskChildPublishStop
  split
  · exact .head (.record t (by simp)) (sends_notifyParent _ t)
  · exact .refl

theorem sends_taskChildPublishContinue : Sends sig s (s.taskChildPublishContinue t) := by
  unfold taskChildPublishContinue
  split
  · exact .head (.record t (by simp)) ((sends_notifyParent _ t).of_sigchld sig)
  · exact .refl

theorem sends_sendSignalInfo : Sends sig s (s.sendSignalInfo sig t).2 :=
  sends_sendSignalInfoInternal s t sig (fun s t => sends_taskChildPublishContinue s t sig) false

theorem sends_wakeGroupMember : Sends sig s (s.wakeGroupMember sig t) :=
  (sends_signalClearOppositePending s t sig).trans
    (sends_wakeSignalTarget _ t sig fun s t => sends_taskChildPublishContinue s t sig)

theorem sends_foldl (threads : List TaskId) :
    Sends sig s (threads.foldl (fun s thread => s.wakeGroupMember sig thread) s) := by
  induction threads generalizing s with
  | nil => exact .refl
  | cons thread rest ih => exact (sends_wakeGroupMember s thread sig).trans (ih _)

theorem sends_sendGroupSignalInfo : Sends sig s (s.sendGroupSignalInfo sig t).2 := by
  unfold sendGroupSignalInfo
  split_ifs
  · exact .refl
  · exact .refl
  · exact sends_sendSignalInfo s t sig
  · dsimp only
    split
    · exact .head (.shared t _) (.trans (sends_wakeGroupMember _ t sig) (sends_foldl _ sig _))
    · exact .head (.shared t _) (sends_wakeGroupMember _ t sig)

theorem signalled_signalClearPending (mask : SigSet) : Signalled s (s.signalClearPending t mask) :=
  (@SendStep.masks 0 s t _ _).signalled

theorem signalled_sendSignalInfo : Signalled s (s.sendSignalInfo sig t).2 :=
  (sends_sendSignalInfo s t sig).signalled

theorem signalled_sendGroupSignalInfo : Signalled s (s.sendGroupSignalInfo sig t).2 :=
  (sends_sendGroupSignalInfo s t sig).signalled

theorem signalled_taskChildPublishStop : Signalled s (s.taskChildPublishStop t sig) :=
  (sends_taskChildPublishStop s t sig).signalled

end Effects

end System

end CuteOS.Kernel
