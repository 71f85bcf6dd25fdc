/-
  Kernel/Group.lean --- default actions and the thread group.

  A process-directed signal is taken by one thread, and that thread alone carries the
  default action out: `do_exit_signal` ends the other threads only when the leader runs
  it, and `stop_current` stops nobody but its caller.

  Sources: `kernel/signal.c` (`do_signal`, `send_group_signal_info`), `kernel/exit.c`
  (`do_exit_signal`, `kernel_wait4`), `kernel/task.c` (`task_child_event_observe_locked`).
-/
import CuteOS.Kernel.Deliver
import CuteOS.Kernel.Sharing

set_option autoImplicit false

namespace CuteOS.Kernel

variable {l p : TaskId}

variable {s : System}

namespace System

/-! ## The parent's view -/

/-- `task_child_event_observe_locked`; `pid` is none for `(pid_t)-1`. -/
def taskChildEventObserve (s : System) (parent : TaskId) (pid : Option TaskId)
    (mask : ChildEventType → Bool) : Option (TaskId × ChildEvent) :=
  (s.task parent).children.findSome? fun child =>
    if pid.isNone || pid == some child then
      ((s.task child).childEvents.find? fun event => event.claimer.isNone && mask event.type).map
        fun event => (child, event)
    else
      none

/-- `wait4_event_mask` without `WUNTRACED` and `WCONTINUED`. -/
def exitMask (type : ChildEventType) : Bool := type == .exit

/-- The task has exited. -/
def Exited (s : System) (t : TaskId) : Prop :=
  (s.task t).state = .zombie ∨ (s.task t).state = .dead

theorem signalTargetDead_iff {t : TaskId} : s.signalTargetDead t = true ↔ Exited s t := by
  simp [signalTargetDead, Exited, or_comm]

/-- The leader `l` has not exited yet, and is a child of `p`. -/
structure Waitable (s : System) (p l : TaskId) : Prop where
  parent : (s.task l).parent = some p
  child : l ∈ (s.task p).children
  notSelf : l ∉ (s.task l).children
  events : ∀ event ∈ (s.task l).childEvents, event.type ≠ .exit

/-- What a parent finds once the exit event of the child stands behind others. -/
theorem taskChildEventObserve_exit {before after : List ChildEvent}
    {status : Nat} (hchild : l ∈ (s.task p).children)
    (hevents : (s.task l).childEvents = before ++ ⟨.exit, status, none⟩ :: after)
    (hbefore : ∀ event ∈ before, event.type ≠ .exit) :
    s.taskChildEventObserve p (some l) exitMask = some (l, ⟨.exit, status, none⟩) := by
  have hfind : (s.task l).childEvents.find?
      (fun event => event.claimer.isNone && exitMask event.type) =
        some ⟨.exit, status, none⟩ := by
    rw [hevents, List.find?_append, List.find?_eq_none.mpr]
    · rfl
    · intro event hevent
      simp [exitMask, hbefore event hevent]
  -- the children before the first entry of `l` are not asked for
  obtain ⟨first, rest, hsplit, hnot⟩ := List.eq_append_cons_of_mem hchild
  have hskip : ∀ child ∈ first, l ≠ child := fun child hmem heq => hnot (heq ▸ hmem)
  rw [taskChildEventObserve, hsplit, List.findSome?_append, List.findSome?_eq_none_iff.mpr]
  · simp [hfind]
  · intro child hmem
    simp [hskip child hmem]

/-! ## What the exit of one task does to the others -/

/-- The fields that relate a task to the others. -/
structure TaskLinks where
  groupLeader : TaskId
  parent : Option TaskId
  children : List TaskId
  threadGroup : List TaskId
  state : TaskState
  childEvents : List ChildEvent

end System

/-- The links of a task. -/
def Task.links (task : Task) : System.TaskLinks :=
  ⟨task.groupLeader, task.parent, task.children, task.threadGroup, task.state, task.childEvents⟩

namespace System

/-- Nobody's links change. -/
structure SameLinks (s s' : System) : Prop where
  links : ∀ u, (s'.task u).links = (s.task u).links
  current : s'.current = s.current

namespace SameLinks

variable {s1 s2 : System}

theorem refl (s : System) : SameLinks s s := ⟨fun _ => rfl, rfl⟩

theorem trans (h1 : SameLinks s s1) (h2 : SameLinks s1 s2) : SameLinks s s2 :=
  ⟨fun u => (h2.links u).trans (h1.links u), h2.current.trans h1.current⟩

section

variable (s) (t : TaskId)
include t

theorem setTask {f : Task → Task}
    (hf : ∀ task, (f task).links = task.links) : SameLinks s (s.setTask t f) :=
  ⟨setTask_same (·.links) (hf _), rfl⟩

theorem setSigctx (f : SignalContext → SignalContext) :
    SameLinks s (s.setSigctx t f) := by
  exact .setTask s t fun _ => rfl

theorem modifyObject (r : Resource) (f : r.Object → r.Object) :
    SameLinks s (s.modifyObject t r f) :=
  ⟨fun _ => rfl, rfl⟩

theorem dropObject (r : Resource) : SameLinks s (s.dropObject t r) := by
  refine ⟨fun u => ?_, rfl⟩
  rw [System.dropObject, replaceObject_task]
  split_ifs with hu
  · rw [hu]
    rfl
  · rfl

end

variable (h : SameLinks s s1) (u : TaskId)

include h

theorem groupLeader : (s1.task u).groupLeader = (s.task u).groupLeader :=
  congrArg TaskLinks.groupLeader (h.links u)

theorem parent : (s1.task u).parent = (s.task u).parent :=
  congrArg TaskLinks.parent (h.links u)

theorem children : (s1.task u).children = (s.task u).children :=
  congrArg TaskLinks.children (h.links u)

theorem threadGroup : (s1.task u).threadGroup = (s.task u).threadGroup :=
  congrArg TaskLinks.threadGroup (h.links u)

theorem state : (s1.task u).state = (s.task u).state :=
  congrArg TaskLinks.state (h.links u)

theorem childEvents : (s1.task u).childEvents = (s.task u).childEvents :=
  congrArg TaskLinks.childEvents (h.links u)

end SameLinks

/-- The tasks in `dead` exit and nobody else; every other leader stays waitable. -/
structure Ends (dead : List TaskId) (s s' : System) : Prop where
  exited : ∀ u, Exited s' u ↔ Exited s u ∨ u ∈ dead
  groupLeader : ∀ u, (s'.task u).groupLeader = (s.task u).groupLeader
  waitable : ∀ p l, l ∉ dead → Waitable s p l → Waitable s' p l
  current : s'.current = s.current

namespace Ends

variable {s1 s2 : System} {dead dead' : List TaskId}

theorem trans (h1 : Ends dead s s1) (h2 : Ends dead' s1 s2) : Ends (dead ++ dead') s s2 where
  exited := by
    intro u
    rw [h2.exited, h1.exited, List.mem_append, or_assoc]
  groupLeader := fun u => (h2.groupLeader u).trans (h1.groupLeader u)
  waitable := by
    intro p l hl hw
    rw [List.mem_append, not_or] at hl
    exact h2.waitable p l hl.2 (h1.waitable p l hl.1 hw)
  current := h2.current.trans h1.current

/-- A task that has exited may be counted once more or once less. -/
theorem congr (h : Ends dead s s1) (hmem : ∀ u, u ∈ dead ↔ u ∈ dead') : Ends dead' s s1 where
  exited := fun u => by rw [h.exited, hmem]
  groupLeader := h.groupLeader
  waitable := fun p l hl => h.waitable p l (fun hd => hl ((hmem l).mp hd))
  current := h.current

theorem of_sameLinks (h : SameLinks s s1) : Ends [] s s1 where
  exited := fun u => by simp [Exited, h.state u]
  groupLeader := h.groupLeader
  waitable := by
    intro p l _ hw
    constructor
    · rw [h.parent]
      exact hw.parent
    · rw [h.children]
      exact hw.child
    · rw [h.children]
      exact hw.notSelf
    · rw [h.childEvents]
      exact hw.events
  current := h.current

theorem of_signalled (h : Signalled s s1) : Ends [] s s1 where
  exited := by
    intro u
    have hstate := (h.task u).state
    simp only [Exited, List.not_mem_nil, or_false]
    cases hstate with
    | inl heq => rw [heq]
    | inr hwoken =>
      obtain ⟨hz, hd, hrun⟩ := hwoken
      simp [hz, hd, hrun]
  groupLeader := h.groupLeader
  waitable := by
    intro p l _ hw
    obtain ⟨more, heq, hmore⟩ := (h.task l).events
    constructor
    · rw [(h.task l).same]
      exact hw.parent
    · rw [(h.task p).same]
      exact hw.child
    · rw [(h.task l).same]
      exact hw.notSelf
    · intro event hevent
      rw [heq] at hevent
      cases List.mem_append.mp hevent with
      | inl hold => exact hw.events event hold
      | inr hnew => exact hmore event hnew
  current := h.current

theorem refl (s : System) : Ends [] s s := .of_sameLinks (.refl s)

/-- A step that ends nobody does not count. -/
theorem then_nil (h1 : Ends dead s s1) (h2 : Ends [] s1 s2) : Ends dead s s2 :=
  (h1.trans h2).congr fun u => by simp

end Ends

variable {s1 : System}

section Exit

variable (s : System) (t : TaskId) (status : Nat) (env : ExitEnv)

theorem sameLinks_signalsRelease : SameLinks s (s.signalsRelease t) := by
  unfold signalsRelease
  have hsighand := SameLinks.dropObject s t .sighand
  have hsignal := hsighand.trans (.dropObject _ t .signal)
  exact hsignal.trans (.setTask _ t fun _ => rfl)

theorem sameLinks_completeVfork : SameLinks s (s.completeVfork t) := by
  unfold completeVfork
  split
  · exact .setTask s t fun _ => rfl
  · exact .refl s

theorem ends_sessionProcessExit : Ends [] s (s.sessionProcessExit t env) := by
  unfold sessionProcessExit
  split
  · clear * -
    induction env.hangup generalizing s with
    | nil => exact .refl s
    | cons leader rest ih =>
      have hhup := Ends.of_signalled (signalled_sendGroupSignalInfo s leader sighup)
      have hcont := hhup.then_nil (.of_signalled (signalled_sendGroupSignalInfo _ leader sigcont))
      exact hcont.then_nil (ih (s.hangupGroup leader))
  · exact .refl s

theorem ends_releaseResources : Ends [] s (s.releaseResources t env) := by
  have hwrites := SameLinks.modifyObject s s.current .mm env.userWrites
  have htid := hwrites.trans (.setSigctx _ t fun c => { c with clearChildTid := 0 })
  have hfiles := htid.trans (.dropObject _ t .files)
  have hfs := hfiles.trans (.dropObject _ t .fs)
  have hsession := (Ends.of_sameLinks hfs).then_nil (ends_sessionProcessExit _ t env)
  have hsignals := hsession.then_nil (.of_sameLinks (sameLinks_signalsRelease _ t))
  have hmm := hsignals.then_nil (.of_sameLinks (.dropObject _ t .mm))
  exact hmm.then_nil (.of_sameLinks (sameLinks_completeVfork _ t))

/-- `finish_task_exit` up to the point where leaders and other threads part. -/
theorem ends_beforeExit :
    Ends [] s (((s.restartClear t).setExitCode t status).releaseResources t env) := by
  have hrestart : SameLinks s (s.restartClear t) := .setTask s t fun _ => rfl
  have hcode : SameLinks s ((s.restartClear t).setExitCode t status) :=
    hrestart.trans (.setTask _ t fun _ => rfl)
  exact (Ends.of_sameLinks hcode).then_nil (ends_releaseResources _ t env)

/-- Task `t` is taken off lists of children or of threads. -/
structure Detached (t : TaskId) (s s' : System) : Prop where
  task : ∀ u, ∃ children threads,
    s'.task u = { s.task u with children := children, threadGroup := threads } ∧
      children ⊆ (s.task u).children ∧ ∀ v ∈ (s.task u).children, v ≠ t → v ∈ children
  current : s'.current = s.current

theorem detached_leaveThreadGroup : Detached t s (s.leaveThreadGroup t) := by
  refine ⟨fun u => ?_, rfl⟩
  rw [leaveThreadGroup, setTask_task]
  split_ifs with hu
  · subst hu
    exact ⟨_, _, rfl, List.Subset.refl _, fun v hv _ => hv⟩
  · exact ⟨_, _, rfl, List.Subset.refl _, fun v hv _ => hv⟩

theorem detached_unlinkChild : Detached t s (s.unlinkChild t) := by
  unfold unlinkChild
  split
  · exact ⟨fun u => ⟨_, _, rfl, List.Subset.refl _, fun v hv _ => hv⟩, rfl⟩
  · refine ⟨fun u => ?_, rfl⟩
    rw [setTask_task]
    split_ifs with hu
    · subst hu
      exact ⟨_, _, rfl, List.erase_subset, fun v hv hne => (List.mem_erase_of_ne hne).mpr hv⟩
    · exact ⟨_, _, rfl, List.Subset.refl _, fun v hv _ => hv⟩

/-- A detached task becomes `zombie` or `dead`. -/
theorem Detached.ends {s : System} {t : TaskId} (h : Detached t s s1) {f : Task → Task}
    (hexit : (f (s1.task t)).state = .zombie ∨ (f (s1.task t)).state = .dead)
    (hleader : (f (s1.task t)).groupLeader = (s1.task t).groupLeader)
    (hchildren : (f (s1.task t)).children = (s1.task t).children) :
    Ends [t] s (s1.setTask t f) where
  exited := by
    intro u
    obtain ⟨children, threads, htask, -, -⟩ := h.task u
    rw [Exited, setTask_task]
    split_ifs with hu
    · simp [hexit, hu]
    · simp [Exited, hu, htask]
  groupLeader := by
    intro u
    obtain ⟨children, threads, htask, -, -⟩ := h.task u
    have hkept : (s1.task u).groupLeader = (s.task u).groupLeader := by rw [htask]
    rw [setTask_task]
    split_ifs with hu
    · subst hu
      rw [hleader, hkept]
    · exact hkept
  waitable := by
    intro p l hl hw
    have hne : l ≠ t := fun heq => hl (by simp [heq])
    obtain ⟨children, threads, htask, hsub, -⟩ := h.task l
    obtain ⟨children', threads', htask', -, hkept⟩ := h.task p
    have hchild : l ∈ (s1.task p).children := by
      rw [htask']
      exact hkept l hw.child hne
    constructor
    · rw [setTask_task_of_ne _ _ hne, htask]
      exact hw.parent
    · rw [setTask_task]
      split_ifs with hp
      · rw [hchildren, ← hp]
        exact hchild
      · exact hchild
    · rw [setTask_task_of_ne _ _ hne, htask]
      exact fun hin => hw.notSelf (hsub hin)
    · rw [setTask_task_of_ne _ _ hne, htask]
      exact hw.events
  current := h.current

theorem ends_threadExit : Ends [t] s (s.threadExit t) := by
  have hzombie : Ends [t] s ((s.leaveThreadGroup t).setState t .zombie) :=
    (detached_leaveThreadGroup s t).ends (.inl rfl) rfl rfl
  unfold threadExit
  dsimp only
  split
  · exact hzombie.then_nil (.of_sameLinks ⟨fun _ => rfl, rfl⟩)
  · exact hzombie

theorem ends_releaseTask : Ends [t] s (s.releaseTask t) := by
  have hdead := (detached_unlinkChild s t).ends (f := fun task =>
      { task with parent := none, state := .dead, childEvents := [], published := false })
    (.inr rfl) rfl rfl
  exact hdead.then_nil (.of_sameLinks ⟨fun _ => rfl, rfl⟩)

/-- The exit of a thread that is no leader ends this thread. -/
theorem ends_finishTaskExit_thread (hthread : (s.task t).groupLeader ≠ t) :
    Ends [t] s (s.finishTaskExit t status env) := by
  unfold finishTaskExit
  split
  · rename_i hdead
    refine ⟨fun u => ?_, fun _ => rfl, fun _ _ _ hw => hw, rfl⟩
    rw [List.mem_singleton, or_iff_left_of_imp]
    rintro rfl
    exact signalTargetDead_iff.mp hdead
  · have hbefore := ends_beforeExit s t status env
    have hleader : (((s.restartClear t).setExitCode t status).releaseResources t
        env).isGroupLeader t = false := by
      rw [isGroupLeader, hbefore.groupLeader]
      simpa using hthread
    dsimp only
    rw [hleader]
    exact (hbefore.trans (ends_threadExit _ t)).congr fun u => by simp

/-- `reap_other_threads` ends the threads it is given. -/
theorem ends_reapThreads (threads : List TaskId) (hcurrent : s.current ∉ threads)
    (hthreads : ∀ u ∈ threads, (s.task u).groupLeader ≠ u) :
    Ends threads s (threads.foldl (reapThread status env) s) := by
  induction threads generalizing s with
  | nil => exact .refl s
  | cons thread rest ih =>
    rw [List.mem_cons, not_or] at hcurrent
    have hthread := hthreads thread List.mem_cons_self
    have hstep : Ends [thread] s (reapThread status env s thread) := by
      rw [reapThread, if_neg fun heq => hcurrent.1 heq.symm]
      have hfinish := ends_finishTaskExit_thread s thread status env hthread
      exact (hfinish.trans (ends_releaseTask _ thread)).congr fun u => by simp
    refine hstep.trans (ih _ ?_ ?_)
    · rw [hstep.current]
      exact hcurrent.2
    · intro u hu
      rw [hstep.groupLeader]
      exact hthreads u (List.mem_cons_of_mem _ hu)

/-! ## The exit of a leader -/

/-- The tasks in `moved` get another parent, whose list of children grows. -/
structure Reparented (moved : List TaskId) (s s' : System) : Prop where
  task : ∀ u, ∃ parent events more,
    s'.task u = { s.task u with
      parent := parent, childEvents := events, children := (s.task u).children ++ more } ∧
      more ⊆ moved ∧
      (u ∉ moved → parent = (s.task u).parent ∧ events = (s.task u).childEvents)
  current : s'.current = s.current

theorem reparented_reparentChild (reaper child : TaskId) :
    Reparented [child] s (reparentChild reaper s child) := by
  refine ⟨fun u => ?_, rfl⟩
  rw [reparentChild]
  rw [setTask_task]
  split_ifs with hreaper
  · subst hreaper
    rw [setTask_task]
    split_ifs with hchild
    · subst hchild
      exact ⟨_, _, [u], rfl, by simp, by simp⟩
    · exact ⟨_, _, [child], rfl, by simp, fun _ => ⟨rfl, rfl⟩⟩
  · rw [setTask_task]
    split_ifs with hchild
    · subst hchild
      exact ⟨_, _, [], by rw [List.append_nil], by simp, by simp⟩
    · exact ⟨_, _, [], by rw [List.append_nil], by simp, fun _ => ⟨rfl, rfl⟩⟩

theorem Reparented.cons {s s2 : System} {child : TaskId} {rest : List TaskId}
    (h1 : Reparented [child] s s1) (h2 : Reparented rest s1 s2) :
    Reparented (child :: rest) s s2 := by
  refine ⟨fun u => ?_, h2.current.trans h1.current⟩
  obtain ⟨parent1, events1, more1, htask1, hmore1, hkept1⟩ := h1.task u
  obtain ⟨parent2, events2, more2, htask2, hmore2, hkept2⟩ := h2.task u
  rw [htask1] at htask2 hkept2
  refine ⟨parent2, events2, more1 ++ more2, ?_, ?_, ?_⟩
  · rw [htask2, List.append_assoc]
  · intro v hv
    cases List.mem_append.mp hv with
    | inl h => exact List.mem_cons.mpr (.inl (List.mem_singleton.mp (hmore1 h)))
    | inr h => exact List.mem_cons_of_mem _ (hmore2 h)
  · intro hu
    rw [List.mem_cons, not_or] at hu
    obtain ⟨hparent1, hevents1⟩ := hkept1 (by simpa using hu.1)
    obtain ⟨hparent2, hevents2⟩ := hkept2 hu.2
    exact ⟨hparent2.trans hparent1, hevents2.trans hevents1⟩

theorem reparented_foldl (reaper : TaskId) (moved : List TaskId) :
    Reparented moved s (moved.foldl (reparentChild reaper) s) := by
  induction moved generalizing s with
  | nil =>
    refine ⟨fun u => ⟨_, _, [], ?_, List.Subset.refl _, fun _ => ⟨rfl, rfl⟩⟩, rfl⟩
    rw [List.append_nil]
    rfl
  | cons child rest ih => exact (reparented_reparentChild s reaper child).cons (ih _)

/-- The other tasks after `task_reparent_children_locked`. -/
theorem reparentChildren_links (u : TaskId) :
    ((s.reparentChildren t).task u).state = (s.task u).state ∧
      ((s.reparentChildren t).task u).groupLeader = (s.task u).groupLeader := by
  obtain ⟨parent, events, more, htask, -, -⟩ :=
    (reparented_foldl (s.setTask t fun task => { task with children := [] })
      (s.initTask.getD 0) (s.task t).children).task u
  have hfold : (s.reparentChildren t).task u = _ := htask
  rw [hfold]
  exact ⟨setTask_same (·.state) (by rfl) u, setTask_same (·.groupLeader) (by rfl) u⟩

variable {s : System} (hw : Waitable s p l)
include hw

theorem Waitable.ne : p ≠ l := fun heq => hw.notSelf (heq ▸ hw.child)

/-- A leader that gives its children away can still be waited for. -/
theorem Waitable.reparentChildren :
    Waitable (s.reparentChildren l) p l := by
  have hmoved := reparented_foldl (s.setTask l fun task => { task with children := [] })
    (s.initTask.getD 0) (s.task l).children
  obtain ⟨parent, events, more, htask, hmore, hkept⟩ := hmoved.task l
  obtain ⟨parent', events', more', htask', -, -⟩ := hmoved.task p
  obtain ⟨hparent, hevents⟩ := hkept hw.notSelf
  rw [setTask_task_self] at htask hparent hevents
  rw [setTask_task_of_ne _ _ hw.ne] at htask'
  have hl : (s.reparentChildren l).task l = _ := htask
  have hp : (s.reparentChildren l).task p = _ := htask'
  constructor
  · rw [hl, hparent]
    exact hw.parent
  · rw [hp]
    exact List.mem_append_left _ hw.child
  · rw [hl]
    exact fun hin => hw.notSelf (hmore hin)
  · rw [hl, hevents]
    exact hw.events

/-- `task_child_publish_exit`: the leader is gone, those that were gone stay so, and the
parent finds the status. -/
theorem taskChildPublishExit_exits (status : Nat) :
    (∀ u, Exited (s.taskChildPublishExit l status) u ↔ Exited s u ∨ u = l) ∧
      (s.taskChildPublishExit l status).taskChildEventObserve p (some l) exitMask =
        some (l, ⟨.exit, status, none⟩) := by
  have hgone := hw.reparentChildren
  have hlinks := reparentChildren_links s l
  generalize hs1 : s.reparentChildren l = s1 at hgone hlinks
  -- the leader's record as the notification finds it
  have hrecord : ∀ u, ((s1.setState l .zombie).recordChildEvent l ⟨.exit, status, none⟩).task u =
      if u = l then { s1.task l with
        state := .zombie
        childEvents := (s1.task l).childEvents ++ [⟨.exit, status, none⟩] }
      else s1.task u := by
    intro u
    rw [recordChildEvent, setState, setTask_task, setTask_task_self]
    split_ifs with hu
    · rfl
    · rw [setTask_task_of_ne _ _ hu]
  have hsignalled : Signalled ((s1.setState l .zombie).recordChildEvent l ⟨.exit, status, none⟩)
      (s.taskChildPublishExit l status) := by
    rw [taskChildPublishExit, hs1]
    exact (sends_notifyParent _ l).signalled
  constructor
  · intro u
    have hiff := (Ends.of_signalled hsignalled).exited u
    rw [hiff, Exited, hrecord]
    split_ifs with hu
    · simp [hu]
    · simp [Exited, hu, (hlinks u).1]
  · obtain ⟨more, hevents, -⟩ := (hsignalled.task l).events
    rw [hrecord, if_pos rfl] at hevents
    have hchild : l ∈ ((s.taskChildPublishExit l status).task p).children := by
      rw [(hsignalled.task p).same, hrecord, if_neg hw.ne]
      exact hgone.child
    rw [List.append_assoc] at hevents
    exact taskChildEventObserve_exit hchild hevents hgone.events

/-- The exit of a leader that is alive. -/
theorem finishTaskExit_leader
    (hleader : (s.task l).groupLeader = l) (halive : ¬Exited s l) (status : Nat)
    (env : ExitEnv) :
    (∀ u, Exited (s.finishTaskExit l status env) u ↔ Exited s u ∨ u = l) ∧
      (s.finishTaskExit l status env).taskChildEventObserve p (some l) exitMask =
        some (l, ⟨.exit, status, none⟩) := by
  have hdead : s.signalTargetDead l = false := by
    rwa [Bool.eq_false_iff, Ne, signalTargetDead_iff]
  have hbefore := ends_beforeExit s l status env
  have hexits := taskChildPublishExit_exits (hbefore.waitable p l (List.not_mem_nil) hw) status
  have hisLeader : (((s.restartClear l).setExitCode l status).releaseResources l
      env).isGroupLeader l = true := by
    rw [isGroupLeader, hbefore.groupLeader]
    simpa using hleader
  unfold finishTaskExit
  rw [hdead]
  dsimp only
  rw [hisLeader]
  simp only [Bool.false_eq_true, if_false, if_true]
  refine ⟨fun u => ?_, hexits.2⟩
  rw [hexits.1, hbefore.exited]
  simp

end Exit

/-! ## While nobody sends `SIGCONT` -/

/-- What can happen while nobody sends `SIGCONT` or `SIGKILL`: other signals, ends of
waits, whatever running tasks do to themselves and tasks outside of `group` do to each
other, and writes that leave the run state alone. -/
inductive QuietStep (group : List TaskId) : System → System → Prop
  | signal (s : System) (sig : Nat) (t : TaskId) (hcont : sig ≠ sigcont)
      (hkill : sig ≠ sigkill) : QuietStep group s (s.sendSignalInfo sig t).2
  | groupSignal (s : System) (sig : Nat) (t : TaskId) (hcont : sig ≠ sigcont)
      (hkill : sig ≠ sigkill) : QuietStep group s (s.sendGroupSignalInfo sig t).2
  /-- A wait queue or a timer ends a wait. -/
  | wake (s : System) (t : TaskId) (hsleep : (s.task t).state.anySleep = true) :
      QuietStep group s (s.schedWakeTask t)
  /-- A running task blocks, stops, exits or goes on. -/
  | own (s : System) (t : TaskId) (f : Task → Task) (hrun : (s.task t).state = .running) :
      QuietStep group s (s.setTask t f)
  /-- Tasks outside of the group come, change and go. -/
  | outside (s : System) (t : TaskId) (f : Task → Task) (hout : t ∉ group) :
      QuietStep group s (s.setTask t f)
  /-- Links and signal contexts of any task. -/
  | write (s : System) (t : TaskId) (f : Task → Task)
      (hstate : (f (s.task t)).state = (s.task t).state) : QuietStep group s (s.setTask t f)
  /-- Shared objects, `schedule()`, the lists of tasks. -/
  | global (s s' : System) (htask : s'.task = s.task) : QuietStep group s s'

/-- No thread of the group executes user instructions before a `SIGCONT`. -/
def Halted (group : List TaskId) (s : System) : Prop :=
  ∀ s', Relation.ReflTransGen (QuietStep group) s s' →
    ∀ u ∈ group, (s'.task u).state ≠ .running

/-- Neither running nor waiting for something to happen. -/
def Parked (s : System) (u : TaskId) : Prop := (s.task u).state = .stopped ∨ Exited s u

variable {u : TaskId}

theorem Parked.not_running (h : Parked s u) :
    (s.task u).state ≠ .running ∧ (s.task u).state.anySleep = false := by
  obtain hs | hs | hs := h <;> simp [hs, TaskState.anySleep]

variable {sig : Nat}

variable {s' : System}

theorem Parked.of_state (h : Parked s u)
    (hstate : (s'.task u).state = (s.task u).state) : Parked s' u := by
  simpa [Parked, Exited, hstate] using h

variable {t : TaskId}

theorem Parked.wake (h : Parked s u) (hnot : ¬Parked s t) : Parked (s.schedWakeTask t) u := by
  have hne : u ≠ t := fun heq => hnot (heq ▸ h)
  exact h.of_state (by rw [schedWakeTask, setState, setTask_task_of_ne _ _ hne])

/-- Only `SIGCONT` and `SIGKILL` wake a parked task. -/
theorem Parked.sends (h : Parked s u) (hsends : Sends sig s s') (hcont : sig ≠ sigcont)
    (hkill : sig ≠ sigkill) : Parked s' u := by
  induction hsends with
  | refl => exact h
  | tail _ hstep ih =>
    cases hstep with
    | masks | record => exact ih.of_state (setTask_same (·.state) (by rfl) u)
    | shared t f => exact ih
    | wake t hzombie hdead hstopped =>
      refine ih.wake ?_
      rintro (hstate | hstate | hstate)
      · exact (hstopped hstate).elim hcont hkill
      · exact hzombie hstate
      · exact hdead hstate

/-- A parked thread of the group stays parked. -/
theorem Parked.step {group : List TaskId} (hu : u ∈ group)
    (h : Parked s u) (hstep : QuietStep group s s') : Parked s' u := by
  cases hstep with
  | signal sig t hcont hkill => exact h.sends (sends_sendSignalInfo s t sig) hcont hkill
  | groupSignal sig t hcont hkill => exact h.sends (sends_sendGroupSignalInfo s t sig) hcont hkill
  | wake t hsleep => exact h.wake fun hparked => by simp [hparked.not_running.2] at hsleep
  | own t f hrun =>
    have hne : u ≠ t := fun heq => h.not_running.1 (heq ▸ hrun)
    exact h.of_state (by rw [setTask_task_of_ne _ _ hne])
  | outside t f hout =>
    have hne : u ≠ t := fun heq => hout (heq ▸ hu)
    exact h.of_state (by rw [setTask_task_of_ne _ _ hne])
  | write t f hstate => exact h.of_state (setTask_same (·.state) hstate u)
  | global s' htask => exact h.of_state (by rw [htask])

/-- A group is halted exactly when each of its threads is parked. -/
theorem halted_iff (group : List TaskId) (s : System) :
    Halted group s ↔ ∀ u ∈ group, Parked s u := by
  constructor
  · intro h u hu
    cases hstate : (s.task u).state with
    | running => exact absurd hstate (h s .refl u hu)
    | stopped => exact .inl hstate
    | zombie => exact .inr (.inl hstate)
    | dead => exact .inr (.inr hstate)
    | uninterruptible | interruptible | killable =>
      -- the wait ends, and the thread runs
      have hsleep : (s.task u).state.anySleep = true := by rw [hstate]; rfl
      have hrun := h _ (.single (.wake s u hsleep)) u hu
      simp [schedWakeTask, setState] at hrun
  · intro h s' hrun u hu
    have hparked : Parked s' u := by
      induction hrun with
      | refl => exact h u hu
      | tail _ hstep ih => exact ih.step hu hstep
    exact hparked.not_running.1

/-! ## `SIGCONT` -/

/-- A stopped task that gets `SIGCONT` runs. -/
theorem wakeGroupMember_sigcont (hstopped : (s.task t).state = .stopped) :
    ((s.wakeGroupMember sigcont t).task t).state = .running := by
  have hstate : ((s.signalClearOppositePending t sigcont).task t).state = .stopped := by
    simpa [signalClearOppositePending, signalClearPending, setSigctx] using hstopped
  rw [wakeGroupMember, wakeSignalTarget, hstate]
  simp [schedWakeTask, setState]

/-- Signals do not take a task from `TASK_RUNNING`, and a stopped one goes nowhere else. -/
theorem Signalled.stopped_or_running (h : Signalled s s')
    (hu : (s.task u).state = .stopped ∨ (s.task u).state = .running) :
    ((s'.task u).state = .stopped ∧ (s.task u).state = .stopped) ∨
      (s'.task u).state = .running := by
  cases (h.task u).state with
  | inl heq =>
    rw [heq]
    cases hu with
    | inl hs => exact .inl ⟨hs, hs⟩
    | inr hr => exact .inr hr
  | inr hwoken => exact .inr hwoken.2.2

theorem foldl_wakeGroupMember_sigcont (threads : List TaskId) (s : System)
    (hu : (s.task u).state = .stopped ∨ (s.task u).state = .running)
    (hmem : u ∈ threads ∨ (s.task u).state = .running) :
    ((threads.foldl (fun s thread => s.wakeGroupMember sigcont thread) s).task u).state =
      .running := by
  induction threads generalizing s with
  | nil => exact hmem.resolve_left List.not_mem_nil
  | cons thread rest ih =>
    have hstep := (sends_wakeGroupMember s thread sigcont).signalled.stopped_or_running hu
    cases hstep with
    | inr hrun => exact ih _ (.inr hrun) (.inr hrun)
    | inl hstopped =>
      refine ih _ (.inl hstopped.1) (.inl ?_)
      have hne : u ≠ thread := by
        intro heq
        subst heq
        have hrun := wakeGroupMember_sigcont hstopped.2
        rw [hstopped.1] at hrun
        cases hrun
      have hnot : (s.task u).state ≠ .running := by
        rw [hstopped.2]
        exact fun h => TaskState.noConfusion h
      exact (List.mem_cons.mp (hmem.resolve_right hnot)).resolve_left hne

/-- The threads of the group of leader `l`. -/
def groupThreads (s : System) (l : TaskId) : List TaskId := l :: (s.task l).threadGroup

/-- A `SIGCONT` for the group makes every stopped thread runnable. -/
theorem sendGroupSignalInfo_sigcont (hleader : (s.task l).groupLeader = l) (halive : ¬Exited s l)
    (hsignal : ((s.task l).resources .signal).isSome = true) (hu : u ∈ s.groupThreads l)
    (hstopped : (s.task u).state = .stopped) :
    (((s.sendGroupSignalInfo sigcont l).2).task u).state = .running := by
  have hdead : s.signalTargetDead l = false := by
    rwa [Bool.eq_false_iff, Ne, signalTargetDead_iff]
  have hvalid : signalIsValid sigcont = true := by rfl
  have hnone : ((s.task l).resources .signal).isNone = false := by
    rw [Option.isNone_eq_false_iff]
    exact hsignal
  unfold sendGroupSignalInfo
  rw [hvalid, hdead, hnone]
  simp only [Bool.not_true]
  generalize hs1 : (s.setSharedPending l fun shared =>
    (shared &&& ~~~oppositeMask sigcont) ||| signalMask sigcont) = s1
  have htask : s1.task = s.task := by rw [← hs1]; rfl
  have hwoken := (sends_wakeGroupMember s1 l sigcont).signalled
  have hisLeader : (s1.wakeGroupMember sigcont l).isGroupLeader l = true := by
    rw [isGroupLeader, hwoken.groupLeader, htask]
    simpa using hleader
  have hgroup : ((s1.wakeGroupMember sigcont l).task l).threadGroup = (s.task l).threadGroup := by
    rw [(hwoken.task l).same, htask]
  rw [hisLeader, hgroup]
  rw [← htask] at hstopped
  have hafter := hwoken.stopped_or_running (.inl hstopped)
  cases List.mem_cons.mp hu with
  | inl heq =>
    subst heq
    have hrun := wakeGroupMember_sigcont hstopped
    exact foldl_wakeGroupMember_sigcont _ _ (.inr hrun) (.inr hrun)
  | inr hthread =>
    refine foldl_wakeGroupMember_sigcont _ _ ?_ (.inl hthread)
    exact hafter.imp And.left id

/-! ## The action of a process-directed signal -/

section

variable (s) (t)

theorem sameLinks_takeSignal (sig : Nat) (shared : Bool) :
    SameLinks s (s.takeSignal t sig shared) := by
  unfold takeSignal
  split
  · exact .modifyObject s t .signal _
  · exact .setSigctx s t _

theorem sameLinks_restartForSignal (saRestart : Bool) :
    SameLinks s (s.restartForSignal t saRestart) := by
  unfold restartForSignal
  dsimp only
  split
  · exact .refl s
  split
  · exact .setTask s t fun _ => rfl
  · exact .setTask s t fun _ => rfl

theorem sameLinks_dequeueSignal (sig : Nat) (shared : Bool) :
    SameLinks s (s.dequeueSignal t sig shared) := by
  have htake := sameLinks_takeSignal s t sig shared
  unfold dequeueSignal
  dsimp only
  split
  · exact htake.trans (sameLinks_restartForSignal _ t false)
  · exact htake

end

/-- One turn of `do_signal` with a signal that is not caught. -/
theorem doSignalOnce_state {shared : Bool}
    (hnext : s.nextSignal s.current = some (sig, shared)) (env : DeliverEnv) :
    (s.signalAction s.current sig (s.signalForced s.current sig shared) = .terminate →
        (s.doSignalOnce env).2 = (s.dequeueSignal s.current sig shared).doExitSignal sig env.exit) ∧
      (s.signalAction s.current sig (s.signalForced s.current sig shared) = .stop →
        (s.doSignalOnce env).2 =
          (s.dequeueSignal s.current sig shared).stopCurrent s.current sig) := by
  unfold doSignalOnce
  dsimp only
  rw [hnext]
  dsimp only
  constructor <;>
    · intro haction
      rw [haction]

/-- A thread group as the functions that create and end threads keep it: its leader `l`
is a child of `p`, and nobody in it has exited. -/
structure GroupOk (s : System) (p l : TaskId) : Prop where
  leader : (s.task l).groupLeader = l
  threads : ∀ u ∈ (s.task l).threadGroup, (s.task u).groupLeader = l ∧ u ≠ l
  alive : ∀ u ∈ s.groupThreads l, ¬Exited s u
  waitable : Waitable s p l

/-- The default action of signal `sig`, taken in state `s` by the current thread, reaches
the whole group of leader `l`. -/
structure ActsOnGroup (s : System) (env : DeliverEnv) (p l : TaskId) (sig : Nat)
    (action : SignalAction) : Prop where
  terminated : action = .terminate →
    (∀ u ∈ s.groupThreads l, Exited (s.doSignalOnce env).2 u) ∧
      (s.doSignalOnce env).2.taskChildEventObserve p (some l) exitMask =
        some (l, ⟨.exit, sig, none⟩)
  stopped : action = .stop → Halted (s.groupThreads l) (s.doSignalOnce env).2
  continued : ∀ u ∈ s.groupThreads l, (s.task u).state = .stopped →
    ((s.sendGroupSignalInfo sigcont l).2.task u).state = .running

/-- When it does: a fatal signal is taken by the leader, a stop signal by the last thread
that still runs. -/
def ActionComplete (s : System) (l : TaskId) (action : SignalAction) : Prop :=
  (action = .terminate → s.current = l) ∧
    (action = .stop → ∀ u ∈ s.groupThreads l, u ≠ s.current → (s.task u).state = .stopped)

theorem GroupOk.current_not_leader (h : GroupOk s p l)
    (hmem : s.current ∈ s.groupThreads l) (hne : s.current ≠ l) :
    (s.task s.current).groupLeader ≠ s.current := by
  have hthread := h.threads _ ((List.mem_cons.mp hmem).resolve_left hne)
  rw [hthread.1]
  exact fun heq => hne heq.symm

/-- The leader ends the group. -/
theorem doExitStatus_leader (h : GroupOk s p s.current) (status : Nat) (env : ExitEnv) :
    (∀ u ∈ s.groupThreads s.current, Exited (s.doExitStatus status env) u) ∧
      (s.doExitStatus status env).taskChildEventObserve p (some s.current) exitMask =
        some (s.current, ⟨.exit, status, none⟩) := by
  have hnot : s.current ∉ (s.task s.current).threadGroup := fun hin => (h.threads _ hin).2 rfl
  have hreap : Ends (s.task s.current).threadGroup s (s.reapOtherThreads s.current status env) := by
    apply ends_reapThreads
    · exact hnot
    · intro u hu
      obtain ⟨hleader, hne⟩ := h.threads u hu
      rw [hleader]
      exact fun heq => hne heq.symm
  have halive : ¬Exited (s.reapOtherThreads s.current status env) s.current := by
    rw [hreap.exited]
    rintro (hexited | hin)
    · exact h.alive _ List.mem_cons_self hexited
    · exact hnot hin
  have hfinish := finishTaskExit_leader (hreap.waitable p _ hnot h.waitable)
    ((hreap.groupLeader _).trans h.leader) halive status env
  have hisLeader : s.isGroupLeader s.current = true := by
    rw [isGroupLeader, h.leader]
    exact beq_self_eq_true _
  unfold doExitStatus
  rw [if_pos hisLeader]
  refine ⟨fun u hu => ?_, hfinish.2⟩
  rw [hfinish.1, hreap.exited]
  cases List.mem_cons.mp hu with
  | inl heq => exact .inr heq
  | inr hthread => exact .inl (.inr hthread)

/-- Another thread ends itself only. -/
theorem doExitStatus_thread (h : GroupOk s p l)
    (hmem : s.current ∈ s.groupThreads l) (hne : s.current ≠ l) (status : Nat) (env : ExitEnv) :
    ¬Exited (s.doExitStatus status env) l := by
  have hthread := h.current_not_leader hmem hne
  have hisLeader : s.isGroupLeader s.current = false := by
    rw [isGroupLeader, beq_eq_false_iff_ne]
    exact hthread
  unfold doExitStatus
  rw [hisLeader]
  simp only [Bool.false_eq_true, if_false]
  rw [(ends_finishTaskExit_thread s s.current status env hthread).exited]
  rintro (hexited | hin)
  · exact h.alive l List.mem_cons_self hexited
  · exact hne (List.mem_singleton.mp hin).symm

theorem GroupOk.sameLinks (h : GroupOk s p l) (hsame : SameLinks s s1) : GroupOk s1 p l := by
  have hends := Ends.of_sameLinks hsame
  constructor
  · rw [hsame.groupLeader]
    exact h.leader
  · intro u hu
    rw [hsame.threadGroup] at hu
    rw [hsame.groupLeader]
    exact h.threads u hu
  · intro u hu
    rw [groupThreads, hsame.threadGroup] at hu
    rw [hends.exited]
    simpa using h.alive u hu
  · exact hends.waitable p l List.not_mem_nil h.waitable

/-- `stop_current` parks its caller, and nobody else. -/
theorem parked_stopCurrent (sig : Nat) :
    Parked (s.stopCurrent t sig) u ↔ u = t ∨ Parked s u := by
  have hsignalled : Signalled (s.setState t .stopped) (s.stopCurrent t sig) :=
    signalled_taskChildPublishStop _ t sig
  constructor
  · intro hparked
    by_cases hu : u = t
    · exact .inl hu
    · right
      have hstate : (s.setState t .stopped).task u = s.task u := by
        rw [setState, setTask_task_of_ne _ _ hu]
      cases (hsignalled.task u).state with
      | inl heq =>
        rw [hstate] at heq
        exact hparked.of_state heq.symm
      | inr hwoken => exact absurd hwoken.2.2 hparked.not_running.1
  · intro hu
    have hbefore : Parked (s.setState t .stopped) u := by
      by_cases heq : u = t
      · subst heq
        exact .inl (by simp [setState])
      · apply (hu.resolve_left heq).of_state
        rw [setState, setTask_task_of_ne _ _ heq]
    exact hbefore.sends (sends_taskChildPublishStop _ t sig) (by decide) (by decide)

/-- The default action of a process-directed signal reaches the whole thread group exactly
when the leader takes a fatal signal and the last running thread takes a stop signal. -/
theorem doSignalOnce_actsOnGroup_iff {s : System} {p l : TaskId} (env : DeliverEnv) {sig : Nat}
    (hgroup : GroupOk s p l) (hsignal : ((s.task l).resources .signal).isSome = true)
    (hmem : s.current ∈ s.groupThreads l)
    (hnext : s.nextSignal s.current = some (sig, true)) :
    ActsOnGroup s env p l sig (s.signalAction s.current sig false) ↔
      ActionComplete s l (s.signalAction s.current sig false) := by
  obtain ⟨hterminate, hstop⟩ := doSignalOnce_state hnext env
  have hsame := sameLinks_dequeueSignal s s.current sig true
  have hgroup1 := hgroup.sameLinks hsame
  have hthreads : (s.dequeueSignal s.current sig true).groupThreads l = s.groupThreads l := by
    rw [groupThreads, groupThreads, hsame.threadGroup]
  have hlt : sig % 128 = sig := Nat.mod_eq_of_lt (by have := nextSignal_valid hnext; omega)
  generalize hs1 : s.dequeueSignal s.current sig true = s1 at *
  constructor
  · intro hacts
    constructor
    · intro haction
      by_contra hne
      have hexited := (hacts.terminated haction).1 l List.mem_cons_self
      rw [hterminate haction] at hexited
      rw [← hsame.current] at hne hmem
      rw [← hthreads] at hmem
      exact doExitStatus_thread hgroup1 hmem hne _ _ hexited
    · intro haction u hu hne
      have hparked := (halted_iff _ _).mp (hacts.stopped haction) u hu
      rw [hstop haction, parked_stopCurrent] at hparked
      cases hparked.resolve_left hne with
      | inl hstopped =>
        rw [hsame.state] at hstopped
        exact hstopped
      | inr hexited =>
        rw [(Ends.of_sameLinks hsame).exited] at hexited
        exact absurd (hexited.resolve_right List.not_mem_nil) (hgroup.alive u hu)
  · intro hcomplete
    constructor
    · intro haction
      have hl : s1.current = l := hsame.current.trans (hcomplete.1 haction)
      subst hl
      rw [hterminate haction, doExitSignal, hlt, ← hthreads]
      exact doExitStatus_leader hgroup1 sig env.exit
    · intro haction
      rw [hstop haction, halted_iff]
      intro u hu
      rw [parked_stopCurrent]
      by_cases heq : u = s.current
      · exact .inl heq
      · right
        left
        rw [hsame.state]
        exact hcomplete.2 haction u hu heq
    · intro u hu hstopped
      exact sendGroupSignalInfo_sigcont hgroup.leader (hgroup.alive l List.mem_cons_self)
        hsignal hu hstopped

/-! ## A process of two threads -/

/-- `SIGTERM`. -/
def sigterm : Nat := 15

/-- Process 2 has created thread 3, and somebody has sent `SIGTERM` to the process. -/
def twoThreads : System :=
  ((sysClone { flags := cloneVm ||| cloneSighand ||| cloneThread, childStack := 4096 } {}
    forked).2.sendGroupSignalInfo sigterm 2).2

theorem reachable_twoThreads : Reachable twoThreads :=
  .step (.step reachable_forked (.clone forked _ {})) (.groupSignal _ sigterm 2)

theorem groupOk_twoThreads : GroupOk twoThreads 1 2 := by
  constructor
  · decide +kernel
  · decide +kernel
  · unfold Exited
    decide +kernel
  · constructor <;> decide +kernel

/-- Thread 3 takes the signal, exits alone, and the leader lives on. -/
theorem doSignalOnce_thread_leaves_leader :
    Reachable { twoThreads with current := 3 } ∧
      { twoThreads with current := 3 }.nextSignal 3 = some (sigterm, true) ∧
      { twoThreads with current := 3 }.signalAction 3 sigterm false = .terminate ∧
      ({ twoThreads with current := 3 }.doSignalOnce {}).1 = .exited ∧
      ((({ twoThreads with current := 3 }.doSignalOnce {}).2).task 3).state = .zombie ∧
      ((({ twoThreads with current := 3 }.doSignalOnce {}).2).task 2).state = .running ∧
      ¬ActsOnGroup { twoThreads with current := 3 } {} 1 2 sigterm .terminate := by
  have hleader : ((({ twoThreads with current := 3 }.doSignalOnce {}).2).task 2).state =
      .running := by decide +kernel
  refine ⟨.step reachable_twoThreads (.switch _ 3 (by decide +kernel)), by decide +kernel,
    by decide +kernel, by decide +kernel, by decide +kernel, hleader, ?_⟩
  intro hacts
  have hexited := (hacts.terminated rfl).1 2 List.mem_cons_self
  rw [Exited, hleader] at hexited
  cases hexited with
  | inl h | inr h => cases h

/-- The leader takes it, and the process ends. -/
theorem doSignalOnce_leader_ends_group :
    twoThreads.current = 2 ∧ twoThreads.nextSignal twoThreads.current = some (sigterm, true) ∧
      ActsOnGroup twoThreads {} 1 2 sigterm
        (twoThreads.signalAction twoThreads.current sigterm false) := by
  have hcurrent : twoThreads.current = 2 := by decide +kernel
  have hnext : twoThreads.nextSignal twoThreads.current = some (sigterm, true) := by
    decide +kernel
  have hmem : twoThreads.current ∈ twoThreads.groupThreads 2 := by
    rw [hcurrent]
    exact List.mem_cons_self
  have haction : twoThreads.signalAction twoThreads.current sigterm false = .terminate := by
    decide +kernel
  have hcomplete : ActionComplete twoThreads 2
      (twoThreads.signalAction twoThreads.current sigterm false) := by
    rw [haction]
    exact ⟨fun _ => hcurrent, fun h => SignalAction.noConfusion h⟩
  exact ⟨hcurrent, hnext, (doSignalOnce_actsOnGroup_iff {} groupOk_twoThreads
    (by decide +kernel) hmem hnext).mpr hcomplete⟩

end System

end CuteOS.Kernel
