/-
  Kernel/Exit.lean --- the exit of a task and of a thread group.

  Sources: `kernel/exit.c`, and of `kernel/task.c` the publication of an exit and the
  release of a zombie.

  Run queues and wait queues are not part of this state, and neither are sessions and
  terminals: `hangup` lists the group leaders that `session_process_exit` sends `SIGHUP`
  and `SIGCONT` to.  `userWrites` is what the robust list and `clear_child_tid` of the
  exiting task write into user memory.
-/
import CuteOS.Kernel.Resources

set_option autoImplicit false

namespace CuteOS.Kernel

open CuteOS.Lib

/-- `SIGHUP`. -/
def sighup : Nat := 1

/-- What the exit of a task finds outside of the modelled state. -/
structure ExitEnv where
  userWrites : UserMemory → UserMemory := id
  hangup : List TaskId := []

namespace System

/-- `restart_clear`. -/
def restartClear (s : System) (t : TaskId) : System :=
  s.setTask t fun task => { task with restart := {} }

/-- `kernel_clone_complete_vfork`. -/
def completeVfork (s : System) (t : TaskId) : System :=
  if (s.task t).vforkActive then s.setTask t fun task => { task with vforkCompleted := true }
  else s

/-- One foreground group hears that its session ends. -/
def hangupGroup (s : System) (leader : TaskId) : System :=
  ((s.sendGroupSignalInfo sighup leader).2.sendGroupSignalInfo sigcont leader).2

/-- `session_process_exit`, for a group leader only. -/
def sessionProcessExit (s : System) (t : TaskId) (env : ExitEnv) : System :=
  if s.isGroupLeader t then env.hangup.foldl hangupGroup s else s

/-- One turn of `task_reparent_children_locked`. -/
def reparentChild (reaper : TaskId) (s : System) (child : TaskId) : System :=
  let s := s.setTask child fun task =>
    { task with
      parent := some reaper
      childEvents := task.childEvents.map fun event => { event with claimer := none } }
  s.setTask reaper fun task => { task with children := task.children ++ [child] }

/-- `task_reparent_children_locked`: the children of a dead task go to init, or to the
idle task, which is task 0.  This is the loop of the source for every other task
(`Kernel/Reparent`). -/
def reparentChildren (s : System) (dead : TaskId) : System :=
  let children := (s.task dead).children
  let s := s.setTask dead fun task => { task with children := [] }
  children.foldl (reparentChild (s.initTask.getD 0)) s

/-- `task_child_publish_exit`. -/
def taskChildPublishExit (s : System) (t : TaskId) (status : Nat) : System :=
  ((s.reparentChildren t).setState t .zombie).taskChildEventPublish t ⟨.exit, status, none⟩

/-- The part of `finish_task_exit` that gives the resources back. -/
def releaseResources (s : System) (t : TaskId) (env : ExitEnv) : System :=
  let s := s.modifyObject s.current .mm env.userWrites
  let s := s.setSigctx t fun c => { c with clearChildTid := 0 }
  let s := s.closeFiles t
  let s := s.exitFs t
  let s := s.sessionProcessExit t env
  let s := s.signalsRelease t
  let s := s.releaseTaskMm t
  s.completeVfork t

/-- `task_set_exit_code`. -/
def setExitCode (s : System) (t : TaskId) (status : Nat) : System :=
  s.setTask t fun task => { task with exitCode := status }

/-- `list_del_init(&task->links.thread_node)` for a thread of a group. -/
def leaveThreadGroup (s : System) (t : TaskId) : System :=
  s.setTask (s.task t).groupLeader fun leader =>
    { leader with threadGroup := leader.threadGroup.erase t }

/-- The end of `finish_task_exit` for a thread that is no leader. -/
def threadExit (s : System) (t : TaskId) : System :=
  let s := (s.leaveThreadGroup t).setState t .zombie
  if t = s.current then { s with exitedThreads := s.exitedThreads ++ [t] } else s

/-- `finish_task_exit`. -/
def finishTaskExit (s : System) (t : TaskId) (status : Nat) (env : ExitEnv) : System :=
  if s.signalTargetDead t then s
  else
    let s := ((s.restartClear t).setExitCode t status).releaseResources t env
    if s.isGroupLeader t then s.taskChildPublishExit t status else s.threadExit t

/-- `list_del_init(&task->links.sibling)`. -/
def unlinkChild (s : System) (t : TaskId) : System :=
  match (s.task t).parent with
  | none => s
  | some parent => s.setTask parent fun task => { task with children := task.children.erase t }

/-- `release_task`, with `task_child_release_zombie`. -/
def releaseTask (s : System) (t : TaskId) : System :=
  let s := (s.unlinkChild t).setTask t fun task =>
    { task with parent := none, state := .dead, childEvents := [], published := false }
  { s with exitedThreads := s.exitedThreads.erase t }

/-- One turn of `reap_other_threads`. -/
def reapThread (status : Nat) (env : ExitEnv) (s : System) (thread : TaskId) : System :=
  if thread = s.current then s else (s.finishTaskExit thread status env).releaseTask thread

/-- `reap_other_threads`. -/
def reapOtherThreads (s : System) (leader : TaskId) (status : Nat) (env : ExitEnv) : System :=
  (s.task leader).threadGroup.foldl (reapThread status env) s

/-- `do_exit_status` of the current task, up to the final `schedule()`. -/
def doExitStatus (s : System) (status : Nat) (env : ExitEnv) : System :=
  if s.isGroupLeader s.current then
    (s.reapOtherThreads s.current status env).finishTaskExit s.current status env
  else
    s.finishTaskExit s.current status env

/-- `do_exit_signal`. -/
def doExitSignal (s : System) (sig : Nat) (env : ExitEnv) : System := s.doExitStatus (sig % 128) env

/-- `do_exit_group` of the current task. -/
def doExitGroup (s : System) (status : Nat) (env : ExitEnv) : System :=
  let leader := (s.task s.current).groupLeader
  let s := if leader = s.current then s else s.finishTaskExit leader status env
  (s.reapOtherThreads leader status env).finishTaskExit s.current status env

/-! ## The objects stay accounted for -/

theorem Accounted.signalled {s s' : System} (h : s.Accounted) (hsig : Signalled s s') :
    s'.Accounted where
  nodup := by
    rw [hsig.tasks]
    exact h.nodup
  bound := by
    rw [hsig.tasks, hsig.nextTask]
    exact h.bound
  current := by
    rw [hsig.tasks, hsig.current]
    exact h.current
  leaders := by
    intro u hu
    rw [hsig.tasks] at hu ⊢
    rw [hsig.groupLeader]
    exact h.leaders u hu
  groups := by
    intro u hu
    rw [hsig.tasks] at hu ⊢
    rw [(hsig.task u).same]
    exact h.groups u hu
  counted := by
    intro r
    have hheld : s'.held r = s.held r := by
      rw [held, hsig.tasks]
      apply List.map_congr_left
      intro u _
      rw [hsig.resources]
    rw [hheld]
    by_cases hr : r = .signal
    · subst hr
      exact hsig.counted _ (h.counted _)
    · rw [hsig.objects r hr]
      exact h.counted r

/-- The steps of an exit keep the list of tasks and the running task. -/
structure KeepsTasks (s s' : System) : Prop where
  accounted : s.Accounted → s'.Accounted
  tasks : s'.tasks = s.tasks
  current : s'.current = s.current

namespace KeepsTasks

variable {s s1 s2 : System}

theorem refl (s : System) : KeepsTasks s s := ⟨id, rfl, rfl⟩

theorem trans (h1 : KeepsTasks s s1) (h2 : KeepsTasks s1 s2) : KeepsTasks s s2 :=
  ⟨fun h => h2.accounted (h1.accounted h), h2.tasks.trans h1.tasks, h2.current.trans h1.current⟩

theorem of_signalled (h : Signalled s s1) : KeepsTasks s s1 :=
  ⟨fun hs => hs.signalled h, h.tasks, h.current⟩

theorem setTask (s : System) (t : TaskId) {f : Task → Task}
    (hres : (f (s.task t)).resources = (s.task t).resources := by rfl)
    (hleader : (f (s.task t)).groupLeader = (s.task t).groupLeader := by rfl)
    (hgroup : (f (s.task t)).threadGroup ⊆ (s.task t).threadGroup :=
      by exact List.Subset.refl _) :
    KeepsTasks s (s.setTask t f) :=
  ⟨fun h => h.setTask t hres hleader hgroup, rfl, rfl⟩

theorem dropObject (s : System) {t : TaskId} (ht : t ∈ s.tasks) (r : Resource) :
    KeepsTasks s (s.dropObject t r) :=
  ⟨fun h => h.dropObject ht r, rfl, rfl⟩

theorem modifyObject (s : System) (t : TaskId) (r : Resource) (f : r.Object → r.Object) :
    KeepsTasks s (s.modifyObject t r f) :=
  ⟨fun h => h.modifyObject t r f, rfl, rfl⟩

theorem foldl {f : System → TaskId → System} (hf : ∀ s t, KeepsTasks s (f s t)) (s : System)
    (ts : List TaskId) : KeepsTasks s (ts.foldl f s) := by
  induction ts generalizing s with
  | nil => exact .refl s
  | cons t rest ih => exact (hf s t).trans (ih (f s t))

/-- The list of exited threads is bookkeeping. -/
theorem exitedThreads (h : KeepsTasks s s1) (ts : List TaskId) :
    KeepsTasks s { s1 with exitedThreads := ts } :=
  ⟨fun hs =>
    let h1 := h.accounted hs
    ⟨h1.nodup, h1.bound, h1.current, h1.leaders, h1.groups, h1.counted⟩, h.tasks, h.current⟩

end KeepsTasks

section Keeps

variable (s : System) (t : TaskId) (status : Nat) (env : ExitEnv)

theorem keepsTasks_sessionProcessExit : KeepsTasks s (s.sessionProcessExit t env) := by
  unfold sessionProcessExit
  split
  · apply KeepsTasks.foldl
    intro s leader
    exact (KeepsTasks.of_signalled (signalled_sendGroupSignalInfo s leader sighup)).trans
      (.of_signalled (signalled_sendGroupSignalInfo _ leader sigcont))
  · exact .refl s

theorem keepsTasks_reparentChildren : KeepsTasks s (s.reparentChildren t) := by
  refine KeepsTasks.trans (.setTask s t) (.foldl (fun s child => ?_) _ _)
  unfold reparentChild
  exact KeepsTasks.trans (.setTask s child) (.setTask _ _)

theorem keepsTasks_taskChildPublishExit : KeepsTasks s (s.taskChildPublishExit t status) := by
  have hzombie : KeepsTasks s ((s.reparentChildren t).setState t .zombie) :=
    (keepsTasks_reparentChildren s t).trans (.setTask _ t)
  have hrecord := hzombie.trans (KeepsTasks.setTask _ t
    (f := fun task => { task with childEvents := task.childEvents ++ [⟨.exit, status, none⟩] })
   )
  exact hrecord.trans (.of_signalled (sends_notifyParent _ t).signalled)

theorem keepsTasks_completeVfork : KeepsTasks s (s.completeVfork t) := by
  unfold completeVfork
  split
  · exact .setTask s t
  · exact .refl s

variable {t}

theorem keepsTasks_signalsRelease (ht : t ∈ s.tasks) : KeepsTasks s (s.signalsRelease t) := by
  unfold signalsRelease
  have hsighand := KeepsTasks.dropObject s ht .sighand
  have hsignal := KeepsTasks.dropObject (s.dropObject t .sighand) ht .signal
  exact (hsighand.trans hsignal).trans (.setTask _ t)

theorem keepsTasks_releaseResources (ht : t ∈ s.tasks) :
    KeepsTasks s (s.releaseResources t env) := by
  have hwrites := KeepsTasks.modifyObject s s.current .mm env.userWrites
  have htid := hwrites.trans (KeepsTasks.setTask _ t
    (f := fun task => { task with sigctx := { task.sigctx with clearChildTid := 0 } }))
  have hfiles := htid.trans (.dropObject _ (htid.tasks ▸ ht) .files)
  have hfs := hfiles.trans (.dropObject _ (hfiles.tasks ▸ ht) .fs)
  have hsession := hfs.trans (keepsTasks_sessionProcessExit _ t env)
  have hsignals := hsession.trans (keepsTasks_signalsRelease _ (hsession.tasks ▸ ht))
  have hmm := hsignals.trans (.dropObject _ (hsignals.tasks ▸ ht) .mm)
  exact hmm.trans (keepsTasks_completeVfork _ t)

theorem keepsTasks_threadExit (t : TaskId) : KeepsTasks s (s.threadExit t) := by
  have hleave : KeepsTasks s (s.leaveThreadGroup t) := .setTask s _ rfl rfl List.erase_subset
  have hzombie : KeepsTasks s ((s.leaveThreadGroup t).setState t .zombie) :=
    hleave.trans (.setTask _ t)
  unfold threadExit
  dsimp only
  split
  · exact hzombie.exitedThreads _
  · exact hzombie

theorem keepsTasks_finishTaskExit (ht : t ∈ s.tasks) :
    KeepsTasks s (s.finishTaskExit t status env) := by
  unfold finishTaskExit
  split
  · exact .refl s
  · have hrestart : KeepsTasks s (s.restartClear t) := .setTask s t
    have hcode : KeepsTasks s ((s.restartClear t).setExitCode t status) :=
      hrestart.trans (.setTask _ t)
    have hres := hcode.trans (keepsTasks_releaseResources _ env (hcode.tasks ▸ ht))
    dsimp only
    split
    · exact hres.trans (keepsTasks_taskChildPublishExit _ t status)
    · exact hres.trans (keepsTasks_threadExit _ t)

theorem keepsTasks_releaseTask (t : TaskId) : KeepsTasks s (s.releaseTask t) := by
  have hunlink : KeepsTasks s (s.unlinkChild t) := by
    unfold unlinkChild
    split
    · exact .refl s
    · exact .setTask s _
  apply KeepsTasks.exitedThreads
  exact hunlink.trans (.setTask _ t)

/-- The tasks of a group are known. -/
theorem keepsTasks_reapOtherThreads {leader : TaskId}
    (hgroup : ∀ u ∈ (s.task leader).threadGroup, u ∈ s.tasks) :
    KeepsTasks s (s.reapOtherThreads leader status env) := by
  have hfold : ∀ (ts : List TaskId) (s : System), (∀ u ∈ ts, u ∈ s.tasks) →
      KeepsTasks s (ts.foldl (reapThread status env) s) := by
    intro ts
    induction ts with
    | nil =>
      intro s _
      exact .refl s
    | cons thread rest ih =>
      intro s hts
      have hstep : KeepsTasks s (reapThread status env s thread) := by
        unfold reapThread
        split
        · exact .refl s
        · exact (keepsTasks_finishTaskExit s status env (hts thread List.mem_cons_self)).trans
            (keepsTasks_releaseTask _ thread)
      refine hstep.trans (ih _ ?_)
      intro u hu
      rw [hstep.tasks]
      exact hts u (List.mem_cons_of_mem _ hu)
  exact hfold _ s hgroup

end Keeps

end System

end CuteOS.Kernel
