/-
  Kernel/WaitQueue.lean --- wait channels, wait sessions and wait timers.

  Source: `kernel/waitqueue.c`.

  A thread that waits has one session, `task->active_wait`, with an array of registrations.
  A registration keeps the channel that it was made for when a wake-up takes its entry out of
  the list, so that the next check puts the same entry back.  The entries and the timer of a
  session lie on the kernel stack of the thread (or in one `kmalloc` block), and `wait_for` and
  `wait_cancel_task` are the two places that take them out of the lists.

  A list of entries is modelled by the threads of the entries.  A session has at most one entry
  for a channel, so the thread names the entry.
-/
import CuteOS.Kernel.Task

set_option autoImplicit false

namespace CuteOS.Kernel

open Function (update update_self update_of_ne update_eq_self)

/-- `struct wait_watch` in use: its channel, and whether its entry is in the list of the
channel. -/
structure WaitWatch (C : Type) where
  channel : C
  queued : Bool
  deriving DecidableEq, Repr

/-- `struct wait_session` with its `struct wait_watch_set`. -/
structure WaitSession (C : Type) where
  entries : List (WaitWatch C)
  capacity : Nat
  timerActive : Bool

/-- The lists of the wait channels, the queue of wait timers, and for each thread its session
and whether its state is one of `TASK_ANY_SLEEP`. -/
structure WaitQueues (C : Type) where
  waiters : C → List TaskId
  timers : List TaskId
  activeWait : TaskId → Option (WaitSession C)
  sleeping : TaskId → Bool

namespace WaitQueues

section

variable {C : Type} {q q' : WaitQueues C} {t : TaskId} {session session' : WaitSession C}

def setSession (q : WaitQueues C) (t : TaskId) (session : Option (WaitSession C)) :
    WaitQueues C :=
  { q with activeWait := update q.activeWait t session }

/-- `task_set_state` to a sleeping state, or `sched_wake_task`. -/
def setSleeping (q : WaitQueues C) (t : TaskId) (sleeping : Bool) : WaitQueues C :=
  { q with sleeping := update q.sleeping t sleeping }

/-- `wait_timer_start`, unless the timer of the session is active already. -/
def waitTimerStart (q : WaitQueues C) (t : TaskId) (session : WaitSession C) : WaitQueues C :=
  if session.timerActive then q
  else
    { q.setSession t (some { session with timerActive := true }) with
      timers := q.timers ++ [t] }

/-- `wait_timer_cancel` -/
def waitTimerCancel (q : WaitQueues C) (t : TaskId) : WaitQueues C :=
  { q with timers := q.timers.filter fun t' => t' ≠ t }

/-- `ktimer_run_expired` for a wait timer, with `wait_timer_fire`. -/
def waitTimerFire (q : WaitQueues C) (t : TaskId) : WaitQueues C :=
  (q.waitTimerCancel t).setSleeping t false

/-! ## Every entry and every timer belongs to a session -/

/-- A queued entry and a queued timer are known to the session of their thread. -/
structure Registered (q : WaitQueues C) : Prop where
  waiters : ∀ t ch, t ∈ q.waiters ch →
    ∃ session, q.activeWait t = some session ∧ ⟨ch, true⟩ ∈ session.entries
  timers : ∀ t, t ∈ q.timers →
    ∃ session, q.activeWait t = some session ∧ session.timerActive = true

/-- No list of a channel and no timer refers to the thread. -/
def Forgets (q : WaitQueues C) (t : TaskId) : Prop :=
  (∀ ch, t ∉ q.waiters ch) ∧ t ∉ q.timers

theorem Registered.forgets (hq : q.Registered) (hnone : q.activeWait t = none) : q.Forgets t := by
  constructor
  · intro ch hmem
    obtain ⟨session, hsession, -⟩ := hq.waiters t ch hmem
    simp [hnone] at hsession
  · intro hmem
    obtain ⟨session, hsession, -⟩ := hq.timers t hmem
    simp [hnone] at hsession

/-- The lists forget thread `t`, and have nothing new of the others. -/
theorem Registered.of_forgets (hq : q.Registered) (hforgets : q'.Forgets t)
    (hwaiters : ∀ u ch, u ∈ q'.waiters ch → u ∈ q.waiters ch)
    (htimers : ∀ u, u ∈ q'.timers → u ∈ q.timers)
    (hsession : ∀ u ≠ t, q'.activeWait u = q.activeWait u) : q'.Registered := by
  constructor
  · intro u ch hmem
    rw [hsession u fun hu => hforgets.1 ch (hu ▸ hmem)]
    exact hq.waiters u ch (hwaiters u ch hmem)
  · intro u hmem
    rw [hsession u fun hu => hforgets.2 (hu ▸ hmem)]
    exact hq.timers u (htimers u hmem)

/-- Every entry and timer still belongs to a session, and no session begins or ends. -/
structure Keeps (q q' : WaitQueues C) : Prop where
  registered : q.Registered → q'.Registered
  session : ∀ u, (q'.activeWait u).isSome = (q.activeWait u).isSome

theorem Keeps.refl (q : WaitQueues C) : Keeps q q := ⟨id, fun _ => rfl⟩

theorem Keeps.trans {q1 : WaitQueues C} (hfirst : Keeps q q1) (hrest : Keeps q1 q') : Keeps q q' :=
  ⟨fun hq => hrest.registered (hfirst.registered hq),
    fun u => (hrest.session u).trans (hfirst.session u)⟩

theorem keeps_setSleeping (sleeping : Bool) : Keeps q (q.setSleeping t sleeping) :=
  ⟨fun hq => ⟨hq.waiters, hq.timers⟩, fun _ => rfl⟩

/-- A session can be replaced by one that knows at least the same entries and the timer. -/
theorem keeps_setSession (hold : q.activeWait t = some session)
    (hentries : ∀ ch, ⟨ch, true⟩ ∈ session.entries → ⟨ch, true⟩ ∈ session'.entries)
    (htimer : session.timerActive = true → session'.timerActive = true) :
    Keeps q (q.setSession t (some session')) := by
  refine ⟨fun hq => ⟨fun u ch hmem => ?_, fun u hmem => ?_⟩, fun u => ?_⟩
  · obtain ⟨known, hknown, hentry⟩ := hq.waiters u ch hmem
    by_cases hu : u = t
    · subst hu
      obtain rfl := Option.some.inj (hold.symm.trans hknown)
      exact ⟨session', update_self .., hentries ch hentry⟩
    · exact ⟨known, (update_of_ne hu ..).trans hknown, hentry⟩
  · obtain ⟨known, hknown, hactive⟩ := hq.timers u hmem
    by_cases hu : u = t
    · subst hu
      obtain rfl := Option.some.inj (hold.symm.trans hknown)
      exact ⟨session', update_self .., htimer hactive⟩
    · exact ⟨known, (update_of_ne hu ..).trans hknown, hactive⟩
  · by_cases hu : u = t
    · subst hu
      simp [setSession, hold]
    · simp [setSession, update_of_ne hu]

theorem keeps_waitTimerStart (hsession : q.activeWait t = some session) :
    Keeps q (q.waitTimerStart t session) := by
  unfold waitTimerStart
  split
  · exact .refl q
  · have hset : Keeps q (q.setSession t (some { session with timerActive := true })) :=
      keeps_setSession hsession (fun _ => id) (fun _ => rfl)
    refine ⟨fun hq => ⟨(hset.registered hq).waiters, fun u hmem => ?_⟩, hset.session⟩
    rcases List.mem_append.mp hmem with hmem | hmem
    · exact (hset.registered hq).timers u hmem
    · obtain rfl := List.mem_singleton.mp hmem
      exact ⟨_, update_self .., rfl⟩

theorem keeps_waitTimerFire : Keeps q (q.waitTimerFire t) :=
  ⟨fun hq => ⟨hq.waiters, fun u hmem => hq.timers u (List.mem_of_mem_filter hmem)⟩, fun _ => rfl⟩

end

end WaitQueues

section

variable {C : Type} [DecidableEq C]

/-- The registrations for one channel, marked as queued or not. -/
def WaitSession.setQueued (session : WaitSession C) (ch : C) (queued : Bool) : WaitSession C :=
  { session with
    entries := session.entries.map fun w => if w.channel = ch then { w with queued } else w }

namespace WaitQueues

/-! ## Registrations -/

/-- `prepare_wait_entry` -/
def prepareWaitEntry (q : WaitQueues C) (t : TaskId) (ch : C) : WaitQueues C :=
  { q with waiters := update q.waiters ch (q.waiters ch ++ [t]) }

/-- `wait_session_watch`; `none` is `-E2BIG`. -/
def waitSessionWatch (q : WaitQueues C) (t : TaskId) (ch : C) : Option (WaitQueues C) :=
  match q.activeWait t with
  | none => none
  | some session =>
    match session.entries.find? fun w => w.channel = ch with
    | some w =>
      if w.queued then some q
      else some ((q.setSession t (some (session.setQueued ch true))).prepareWaitEntry t ch)
    | none =>
      if session.entries.length < session.capacity then
        let session := { session with entries := session.entries ++ [⟨ch, true⟩] }
        some ((q.setSession t (some session)).prepareWaitEntry t ch)
      else none

/-- The registrations that the check of a request makes. -/
def watchAll (q : WaitQueues C) (t : TaskId) : List C → Option (WaitQueues C)
  | [] => some q
  | ch :: rest => (q.waitSessionWatch t ch).bind fun q => q.watchAll t rest

/-- `finish_wait_entry`, on the lists of the channels. -/
def finishWaitEntry (t : TaskId) (waiters : C → List TaskId) (w : WaitWatch C) :
    C → List TaskId :=
  if w.queued then
    update waiters w.channel ((waiters w.channel).filter fun t' => t' ≠ t)
  else waiters

/-- `wait_session_cleanup` -/
def waitSessionCleanup (q : WaitQueues C) (t : TaskId) (session : WaitSession C) :
    WaitQueues C :=
  { q with waiters := session.entries.foldl (finishWaitEntry t) q.waiters }

/-- `wait_cancel_task` -/
def waitCancelTask (q : WaitQueues C) (t : TaskId) : WaitQueues C :=
  match q.activeWait t with
  | none => q
  | some session =>
    let q := q.setSession t none
    let q := if session.timerActive then q.waitTimerCancel t else q
    q.waitSessionCleanup t session

/-! ## `wait_for` -/

/-- One pass of the loop of `wait_for` that finds nothing and goes to sleep. -/
def waitForPass (q : WaitQueues C) (t : TaskId) (channels : List C) (timed : Bool) :
    Option (WaitQueues C) :=
  (q.watchAll t channels).bind fun q =>
    (q.activeWait t).map fun session =>
      (if timed then q.waitTimerStart t session else q).setSleeping t true

/-- `wait_for` up to the first time the thread sleeps. -/
def waitForBlock (q : WaitQueues C) (t : TaskId) (channels : List C) (limit : Nat)
    (timed : Bool) : Option (WaitQueues C) :=
  if (q.activeWait t).isSome then none
  else (q.setSession t (some ⟨[], limit, false⟩)).waitForPass t channels timed

/-- The end of `wait_for`, which undoes a session as `wait_cancel_task` does. -/
def waitForReturn (q : WaitQueues C) (t : TaskId) : WaitQueues C :=
  (q.waitCancelTask t).setSleeping t false

/-! ## Wake-ups -/

/-- `wait_channel_wake_one` -/
def waitChannelWakeOne (q : WaitQueues C) (ch : C) : WaitQueues C :=
  match (q.waiters ch).find? q.sleeping with
  | none => q
  | some t =>
    { waiters := update q.waiters ch ((q.waiters ch).filter fun t' => t' ≠ t)
      timers := q.timers
      activeWait := update q.activeWait t
        ((q.activeWait t).map fun session => session.setQueued ch false)
      sleeping := update q.sleeping t false }

/-- `wait_channel_wake_all`: every wake-up takes one entry out of the list. -/
def waitChannelWakeAll (q : WaitQueues C) (ch : C) : WaitQueues C :=
  (fun q => waitChannelWakeOne q ch)^[(q.waiters ch).length] q

/-! ## Every function keeps the entries and timers in their sessions -/

variable {q q' : WaitQueues C} {t u : TaskId} {ch : C} {session : WaitSession C}

/-- A session that knows the entry gets its thread into the list of the channel. -/
theorem Keeps.prepareWaitEntry (hkeeps : Keeps q q') (hsession : q'.activeWait t = some session)
    (hentry : ⟨ch, true⟩ ∈ session.entries) : Keeps q (q'.prepareWaitEntry t ch) := by
  refine ⟨fun hq => ⟨fun u ch' hmem => ?_, (hkeeps.registered hq).timers⟩, hkeeps.session⟩
  change u ∈ update q'.waiters ch (q'.waiters ch ++ [t]) ch' at hmem
  by_cases hch : ch' = ch
  · subst hch
    rw [update_self] at hmem
    rcases List.mem_append.mp hmem with hmem | hmem
    · exact (hkeeps.registered hq).waiters u ch' hmem
    · obtain rfl := List.mem_singleton.mp hmem
      exact ⟨session, hsession, hentry⟩
  · rw [update_of_ne hch] at hmem
    exact (hkeeps.registered hq).waiters u ch' hmem

/-- Marking the entries for a channel as queued forgets no queued entry. -/
theorem mem_setQueued_true {ch' : C} (hentry : ⟨ch', true⟩ ∈ session.entries) :
    ⟨ch', true⟩ ∈ (session.setQueued ch true).entries := by
  refine List.mem_map.mpr ⟨⟨ch', true⟩, hentry, ?_⟩
  split <;> rfl

theorem keeps_waitSessionWatch (heq : q.waitSessionWatch t ch = some q') : Keeps q q' := by
  unfold waitSessionWatch at heq
  split at heq
  · cases heq
  · rename_i session hsession
    split at heq
    · rename_i w hfind
      split at heq
      · cases heq
        exact .refl q
      · cases heq
        -- the entry for the channel goes back into the list
        refine (keeps_setSession hsession (fun _ => mem_setQueued_true) id).prepareWaitEntry
          (update_self ..) ?_
        have hchannel : w.channel = ch := by simpa using List.find?_some hfind
        refine List.mem_map.mpr ⟨w, List.mem_of_find?_eq_some hfind, ?_⟩
        rw [if_pos hchannel, hchannel]
    · obtain ⟨-, rfl⟩ := Option.ite_some_none_eq_some.mp heq
      -- the first free registration is taken
      refine Keeps.prepareWaitEntry
        (keeps_setSession hsession (fun _ hmem => List.mem_append_left _ hmem) id)
        (update_self ..) ?_
      exact List.mem_append_right _ (List.mem_singleton_self _)

theorem keeps_watchAll {channels : List C} (heq : q.watchAll t channels = some q') :
    Keeps q q' := by
  induction channels generalizing q with
  | nil =>
    cases heq
    exact .refl _
  | cons ch rest ih =>
    obtain ⟨q1, hfirst, hrest⟩ := Option.bind_eq_some_iff.mp heq
    exact (keeps_waitSessionWatch hfirst).trans (ih hrest)

theorem keeps_waitForPass {channels : List C} {timed : Bool}
    (heq : q.waitForPass t channels timed = some q') : Keeps q q' := by
  obtain ⟨q1, hwatch, hmap⟩ := Option.bind_eq_some_iff.mp heq
  obtain ⟨session, hsession, rfl⟩ := Option.map_eq_some_iff.mp hmap
  refine ((keeps_watchAll hwatch).trans ?_).trans (keeps_setSleeping true)
  cases timed with
  | false => exact .refl q1
  | true => exact keeps_waitTimerStart hsession

/-- `wait_for` opens the session of the thread, and keeps those of the others. -/
theorem Registered.waitForBlock {channels : List C} {limit : Nat} {timed : Bool}
    (hq : q.Registered) (heq : q.waitForBlock t channels limit timed = some q') :
    q'.Registered ∧ ∀ u ≠ t, (q'.activeWait u).isSome = (q.activeWait u).isSome := by
  obtain ⟨hnone, hpass⟩ := Option.ite_none_left_eq_some.mp heq
  have hforgets := hq.forgets (Option.not_isSome_iff_eq_none.mp hnone)
  have hkeeps := keeps_waitForPass hpass
  refine ⟨hkeeps.registered ?_, fun u hu => (hkeeps.session u).trans ?_⟩
  · exact hq.of_forgets hforgets (fun _ _ => id) (fun _ => id) fun u hu => update_of_ne hu ..
  · simp [setSession, update_of_ne hu]

/-! ## A session undone -/

/-- Cleaning up takes the thread out of the lists of its queued entries, and nothing else. -/
theorem mem_foldl_finishWaitEntry (entries : List (WaitWatch C)) (waiters : C → List TaskId) :
    u ∈ entries.foldl (finishWaitEntry t) waiters ch ↔
      u ∈ waiters ch ∧ (u = t → ⟨ch, true⟩ ∉ entries) := by
  induction entries generalizing waiters with
  | nil => simp
  | cons w rest ih =>
    obtain ⟨channel, queued⟩ := w
    rw [List.foldl_cons, ih]
    unfold finishWaitEntry
    cases queued with
    | false => simp
    | true =>
      by_cases hch : ch = channel
      · grind
      · simp only [if_true, update_of_ne hch, List.mem_cons, WaitWatch.mk.injEq,
          hch, false_and, false_or]

theorem waitCancelTask_of_some (hsession : q.activeWait t = some session) : q.waitCancelTask t =
      { waiters := session.entries.foldl (finishWaitEntry t) q.waiters
        timers := if session.timerActive then q.timers.filter fun t' => t' ≠ t else q.timers
        activeWait := update q.activeWait t none
        sleeping := q.sleeping } := by
  unfold waitCancelTask
  simp only [hsession]
  cases session.timerActive <;> rfl

/-- After the session of a thread is undone, no list refers to the thread. -/
theorem Registered.forgets_waitCancelTask (hq : q.Registered) : (q.waitCancelTask t).Forgets t := by
  cases hsession : q.activeWait t with
  | none =>
    have hsame : q.waitCancelTask t = q := by simp only [waitCancelTask, hsession]
    rw [hsame]
    exact hq.forgets hsession
  | some session =>
    rw [waitCancelTask_of_some hsession]
    constructor
    · intro ch hmem
      obtain ⟨hmem, hentry⟩ := (mem_foldl_finishWaitEntry session.entries _).mp hmem
      obtain ⟨known, hknown, hqueued⟩ := hq.waiters t ch hmem
      obtain rfl := Option.some.inj (hsession.symm.trans hknown)
      exact hentry rfl hqueued
    · intro hmem
      cases hactive : session.timerActive with
      | true => simp [hactive] at hmem
      | false =>
        simp only [hactive] at hmem
        obtain ⟨known, hknown, htimer⟩ := hq.timers t hmem
        obtain rfl := Option.some.inj (hsession.symm.trans hknown)
        simp [hactive] at htimer

theorem mem_waiters_of_waitCancelTask (hmem : u ∈ (q.waitCancelTask t).waiters ch) :
    u ∈ q.waiters ch := by
  cases hsession : q.activeWait t with
  | none => simpa only [waitCancelTask, hsession] using hmem
  | some session =>
    rw [waitCancelTask_of_some hsession] at hmem
    exact ((mem_foldl_finishWaitEntry session.entries _).mp hmem).1

theorem mem_timers_of_waitCancelTask (hmem : u ∈ (q.waitCancelTask t).timers) :
    u ∈ q.timers := by
  cases hsession : q.activeWait t with
  | none => simpa only [waitCancelTask, hsession] using hmem
  | some session =>
    rw [waitCancelTask_of_some hsession] at hmem
    split at hmem
    · exact List.mem_of_mem_filter hmem
    · exact hmem

@[simp] theorem activeWait_waitCancelTask :
    (q.waitCancelTask t).activeWait = update q.activeWait t none := by
  cases hsession : q.activeWait t with
  | none =>
    simp only [waitCancelTask, hsession]
    rw [← hsession, update_eq_self]
  | some session => rw [waitCancelTask_of_some hsession]

theorem Registered.waitCancelTask (hq : q.Registered) : (q.waitCancelTask t).Registered := by
  refine hq.of_forgets hq.forgets_waitCancelTask (fun _ _ => mem_waiters_of_waitCancelTask)
    (fun _ => mem_timers_of_waitCancelTask) fun u hu => ?_
  rw [activeWait_waitCancelTask, update_of_ne hu]

/-! ## Wake-ups -/

/-- Marking the entries for a channel as taken out leaves the others queued. -/
theorem mem_setQueued_false {ch' : C} (hch : ch' ≠ ch) (hentry : ⟨ch', true⟩ ∈ session.entries) :
    ⟨ch', true⟩ ∈ (session.setQueued ch false).entries :=
  List.mem_map.mpr ⟨⟨ch', true⟩, hentry, if_neg hch⟩

theorem keeps_waitChannelWakeOne (q : WaitQueues C) (ch : C) :
    Keeps q (q.waitChannelWakeOne ch) := by
  unfold waitChannelWakeOne
  split
  · exact .refl q
  · rename_i t hfind
    refine ⟨fun hq => ⟨fun u ch' hmem => ?_, fun u hmem => ?_⟩, fun u => ?_⟩
    · dsimp only at hmem ⊢
      by_cases hch : ch' = ch
      · subst hch
        rw [update_self] at hmem
        obtain ⟨hmem, hu⟩ := List.mem_filter.mp hmem
        rw [update_of_ne (of_decide_eq_true hu)]
        exact hq.waiters u ch' hmem
      · rw [update_of_ne hch] at hmem
        obtain ⟨session, hsession, hentry⟩ := hq.waiters u ch' hmem
        by_cases hu : u = t
        · subst hu
          rw [update_self, hsession]
          exact ⟨_, rfl, mem_setQueued_false hch hentry⟩
        · rw [update_of_ne hu]
          exact ⟨session, hsession, hentry⟩
    · obtain ⟨session, hsession, hactive⟩ := hq.timers u hmem
      dsimp only
      by_cases hu : u = t
      · subst hu
        rw [update_self, hsession]
        exact ⟨_, rfl, hactive⟩
      · rw [update_of_ne hu]
        exact ⟨session, hsession, hactive⟩
    · by_cases hu : u = t
      · subst hu
        simp
      · simp [update_of_ne hu]

theorem keeps_waitChannelWakeAll (q : WaitQueues C) (ch : C) :
    Keeps q (q.waitChannelWakeAll ch) := by
  unfold waitChannelWakeAll
  generalize (q.waiters ch).length = n
  induction n with
  | zero => exact .refl q
  | succ n ih =>
    rw [Function.iterate_succ_apply']
    exact ih.trans (keeps_waitChannelWakeOne _ ch)

end WaitQueues

end

end CuteOS.Kernel
