/-
  Kernel/Sharing.lean --- what one process sees of the execve of another.

  Processes created by `clone` may share an address space, a descriptor table, a
  file-system context and the signal handlers without being threads of one group.  In
  every state the system can reach, the first three are private to the caller of
  `execve` by the time they change.  The handlers are not: `signals_execve` resets the
  table in place, for everybody who shares it.
-/
import CuteOS.Kernel.Exec

set_option autoImplicit false

namespace CuteOS.Kernel

open CuteOS.Lib

namespace System

/-! ## Runs -/

/-- `task_init_resources`. -/
def taskInitResources (t : TaskId) (console root : Nat) (s : System) : System :=
  let s := s.newObject t .files ⟨fun n => if n.val < 3 then some (console + n.val) else none, 0⟩
  let s := s.newObject t .fs ⟨root, root, 0o022⟩
  let s := s.newObject t .sighand fun _ => {}
  s.newObject t .signal {}

/-- `kernel_thread`. -/
def kernelThread (console root : Nat) (s : System) : System :=
  ((s.taskAlloc.taskInitResources s.nextTask console root).taskLinkChild s.current
    s.nextTask).taskPublish s.nextTask

/-- The idle task before it has resources. -/
def bareIdle : System where
  task := fun _ => { groupLeader := 0, published := true }
  tasks := [0]
  nextTask := 1
  current := 0
  initTask := none
  objects := fun _ => RefTable.empty

/-- `task_init`, and the thread that becomes the init process. -/
def bootThread : System := (bareIdle.taskInitResources 0 0 0).kernelThread 0 0

/-- The init thread runs for the first time. -/
def startInit (s : System) (t : TaskId) : System := { s with initTask := some t, current := t }

/-- The system after booting. -/
def boot : System := bootThread.startInit 1

/-- One step of the system, whoever runs. -/
inductive Step : System → System → Prop
  | clone (s : System) (args : CloneArgs) (env : CloneEnv) : Step s (sysClone args env s).2
  | execve (s : System) (env : ExecEnv) : Step s (kernelExecve env s).2
  | kernelThread (s : System) (console root : Nat) : Step s (s.kernelThread console root)
  | exit (s : System) (status : Nat) (env : ExitEnv) : Step s (s.doExitStatus status env)
  | exitGroup (s : System) (status : Nat) (env : ExitEnv) : Step s (s.doExitGroup status env)
  /-- `wait4` reaps a child. -/
  | reap (s : System) (t : TaskId) : Step s (s.releaseTask t)
  | signal (s : System) (sig : Nat) (t : TaskId) : Step s (s.sendSignalInfo sig t).2
  | groupSignal (s : System) (sig : Nat) (t : TaskId) : Step s (s.sendGroupSignalInfo sig t).2
  /-- `schedule()`. -/
  | switch (s : System) (t : TaskId) (ht : t ∈ s.tasks) : Step s { s with current := t }
  /-- User code and the system calls that change a shared object: stores, `mmap`, `open`,
  `close`, `chdir`, `sigaction`. -/
  | write (s : System) (r : Resource) (f : r.Object → r.Object) :
      Step s (s.modifyObject s.current r f)
  /-- Everything that writes to the private part of a task. -/
  | own (s : System) (t : TaskId) (f : Task → Task)
      (hres : (f (s.task t)).resources = (s.task t).resources)
      (hleader : (f (s.task t)).groupLeader = (s.task t).groupLeader)
      (hgroup : (f (s.task t)).threadGroup ⊆ (s.task t).threadGroup) : Step s (s.setTask t f)

/-- The states the system can reach. -/
inductive Reachable : System → Prop
  | boot : Reachable boot
  | step {s s' : System} : Reachable s → Step s s' → Reachable s'

variable {s : System} {t : TaskId}

theorem building_taskInitResources (h : Building t s)
    (console root : Nat) : Building t (s.taskInitResources t console root) :=
  (((h.newObject .files _).newObject .fs _).newObject .sighand _).newObject .signal _

theorem Accounted.kernelThread (h : s.Accounted) (console root : Nat) :
    (s.kernelThread console root).Accounted := by
  have hchild := building_taskInitResources (building_taskAlloc h) console root
  exact (hchild.taskLinkChild s.current).taskPublish.1

theorem accounted_bareIdle : bareIdle.Accounted := by
  refine ⟨List.nodup_singleton 0, ?_, List.mem_singleton.mpr rfl, ?_, ?_, ?_⟩
  · intro t ht
    rw [List.mem_singleton.mp ht]
    exact Nat.zero_lt_one
  · intro t _
    exact List.mem_singleton.mpr rfl
  · intro t _ u hu
    cases hu
  · intro r
    exact RefTable.Counted.empty.cons_none

theorem Accounted.switch (h : s.Accounted) (ht : t ∈ s.tasks) : { s with current := t }.Accounted :=
  ⟨h.nodup, h.bound, ht, h.leaders, h.groups, h.counted⟩

theorem Accounted.startInit (h : s.Accounted) (ht : t ∈ s.tasks) : (s.startInit t).Accounted :=
  ⟨h.nodup, h.bound, ht, h.leaders, h.groups, h.counted⟩

theorem accounted_boot : boot.Accounted := by
  have hidle := (building_taskInitResources
    (⟨accounted_bareIdle, List.mem_singleton.mpr rfl⟩ : Building 0 bareIdle) 0 0).1
  have hthread : bootThread.Accounted := hidle.kernelThread 0 0
  exact hthread.startInit List.mem_cons_self

section

variable (h : s.Accounted)
include h

theorem Accounted.unshareFiles : s.unshareFiles.Accounted := by
  unfold System.unshareFiles
  split
  · exact h.newObject h.current .files _
  · exact h

theorem Accounted.commitExec (image : ExecImage)
    (ht : t ∈ s.tasks) : (s.commitExec image t).Accounted := by
  have hinstall : (s.installExecMm image t).Accounted :=
    (h.newObject ht .mm _).setTask t
  have hobjects : ((s.installExecMm image t).resetObjects t).Accounted :=
    ((hinstall.modifyObject t .files _).modifyObject t .sighand _).modifyObject t .signal _
  exact (keepsTasks_completeVfork _ t).accounted (hobjects.setTask t)

theorem Accounted.kernelExecve (env : ExecEnv) : (kernelExecve env s).2.Accounted := by
  cases kernelExecve_cases s env with
  | inl hok =>
    obtain ⟨image, -, heq⟩ := hok
    rw [heq]
    have htasks : s.current ∈ s.unshareFiles.tasks := by
      have hcurrent := h.unshareFiles.current
      rw [unshareFiles_current] at hcurrent
      exact hcurrent
    exact h.unshareFiles.commitExec image htasks
  | inr herr =>
    obtain ⟨-, e, heq⟩ := herr
    rw [heq]
    exact h

theorem Accounted.doExitStatus (status : Nat) (env : ExitEnv) :
    (s.doExitStatus status env).Accounted := by
  unfold System.doExitStatus
  split
  · have hreap := keepsTasks_reapOtherThreads s status env (h.groups _ h.current)
    exact (hreap.trans (keepsTasks_finishTaskExit _ status env
      (hreap.tasks ▸ h.current))).accounted h
  · exact (keepsTasks_finishTaskExit s status env h.current).accounted h

theorem Accounted.doExitGroup (status : Nat) (env : ExitEnv) :
    (s.doExitGroup status env).Accounted := by
  have hleader := h.leaders _ h.current
  -- the leader goes first, unless it is the caller
  have hfirst : KeepsTasks s (if (s.task s.current).groupLeader = s.current then s
      else s.finishTaskExit (s.task s.current).groupLeader status env) := by
    split
    · exact .refl s
    · exact keepsTasks_finishTaskExit s status env hleader
  have haccounted := hfirst.accounted h
  have hreap := keepsTasks_reapOtherThreads _ status env
    (haccounted.groups _ (hfirst.tasks ▸ hleader))
  exact (hreap.trans (keepsTasks_finishTaskExit _ status env
    (hreap.tasks ▸ haccounted.current))).accounted haccounted

/-- One step keeps every object accounted for. -/
theorem Accounted.step {s' : System} (hstep : Step s s') : s'.Accounted := by
  cases hstep with
  | clone args env => exact h.sysClone args env
  | execve env => exact h.kernelExecve env
  | kernelThread console root => exact h.kernelThread console root
  | exit status env => exact h.doExitStatus status env
  | exitGroup status env => exact h.doExitGroup status env
  | reap t => exact (keepsTasks_releaseTask s t).accounted h
  | signal sig t => exact h.signalled (signalled_sendSignalInfo s t sig)
  | groupSignal sig t => exact h.signalled (signalled_sendGroupSignalInfo s t sig)
  | switch t ht => exact h.switch ht
  | write r f => exact h.modifyObject s.current r f
  | own t f hres hleader hgroup => exact h.setTask t hres hleader hgroup

end

/-- In every state the system can reach, every object is accounted for. -/
theorem Reachable.accounted (h : Reachable s) : s.Accounted := by
  induction h with
  | boot => exact accounted_boot
  | step _ hstep ih => exact ih.step hstep

/-- Init has forked process 2, which runs. -/
def forked : System := { (sysClone { flags := 17 } {} boot).2 with current := 2 }

theorem reachable_forked : Reachable forked :=
  .step (.step .boot (.clone boot { flags := 17 } {})) (.switch _ 2 (by decide +kernel))

/-! ## What the others see -/

/-- Task `u` sees the same memory, descriptors, working directory and dispositions. -/
structure SameView (s s' : System) (u : TaskId) : Prop where
  memory : s'.object u .mm = s.object u .mm
  files : s'.object u .files = s.object u .files
  cwd : (s'.object u .fs).map FsStruct.cwd = (s.object u .fs).map FsStruct.cwd
  dispositions : ∀ sig, s'.sigaction u sig = s.sigaction u sig

/-- The tasks of the other thread groups see no difference. -/
def Isolated (s s' : System) (t : TaskId) : Prop :=
  ∀ u ∈ s.tasks, (s.task u).groupLeader ≠ (s.task t).groupLeader → SameView s s' u

/-- Two tasks use one table of signal handlers. -/
def SharesHandlers (s : System) (t u : TaskId) : Prop :=
  ((s.task t).resources .sighand).isSome = true ∧
    (s.task u).resources .sighand = (s.task t).resources .sighand

/-- `signals_execve` has something to reset: some action neither ignores its signal nor is
all zero. -/
def HasActions (s : System) (t : TaskId) : Prop :=
  ∃ sig, signalIsValid sig = true ∧ (s.sigaction t sig).saHandler ≠ sigIgn ∧
    s.sigaction t sig ≠ {}

section Others

variable {image : ExecImage} {u : TaskId}

section

variable (h : s.Accounted) (hu : u ∈ s.tasks) (hne : u ≠ s.current)
include h hu hne

/-- After the copy nobody else points to the caller's descriptor table. -/
theorem unshareFiles_private {i : Nat}
    (hi : (s.unshareFiles.task s.current).resources .files = some i) :
    (s.task u).resources .files ≠ some i := by
  have hcounted := (h.counted .files).perm (held_perm h.current .files)
  have hmem := mem_heldByOthers hu hne .files
  unfold unshareFiles at hi
  by_cases hshared : s.filesShared s.current = true
  · rw [if_pos hshared, newObject, replaceObject_pointer_self] at hi
    intro heq
    rw [heq, ← hi] at hmem
    exact hcounted.next_not_mem (List.mem_cons_of_mem _ hmem)
  · rw [if_neg hshared] at hi
    have hone : (s.objects .files).refs ((s.task s.current).resources .files) = 1 := by
      simpa [filesShared, hi] using hshared
    intro heq
    rw [heq, ← hi] at hmem
    exact hcounted.not_mem_of_refs_eq_one hone hmem

theorem files_unshareFiles : s.unshareFiles.object u .files = s.object u .files := by
  have hcounted := (h.counted .files).perm (held_perm h.current .files)
  have hmem := mem_heldByOthers hu hne .files
  rw [object, object, unshareFiles_task_of_ne _ hne]
  unfold unshareFiles
  split
  · rw [newObject, replaceObject_objects_self]
    have halloc := (hcounted.alloc (filesDup (s.object s.current .files))).perm
      (List.Perm.swap _ _ _)
    rw [halloc.val?_put (List.mem_cons_of_mem _ hmem),
      hcounted.val?_alloc _ (List.mem_cons_of_mem _ hmem)]
  · rfl

/-- The memory, the descriptors and the file-system context of another task survive. -/
theorem object_commitExec (image : ExecImage) :
    (s.unshareFiles.commitExec image s.current).object u .mm = s.object u .mm ∧
      (s.unshareFiles.commitExec image s.current).object u .files = s.object u .files ∧
      (s.unshareFiles.commitExec image s.current).object u .fs = s.object u .fs := by
  refine ⟨?_, ?_, ?_⟩
  · have hcounted := (h.counted .mm).perm (held_perm h.current .mm)
    have hmem := mem_heldByOthers hu hne .mm
    rw [object, object, commitExec_task_of_ne _ _ hne, unshareFiles_task_of_ne _ hne,
      commitExec_objects_mm, unshareFiles_objects _ (by decide),
      unshareFiles_pointer _ (by decide)]
    have halloc := (hcounted.alloc image.memory).perm (List.Perm.swap _ _ _)
    rw [halloc.val?_put (List.mem_cons_of_mem _ hmem),
      hcounted.val?_alloc _ (List.mem_cons_of_mem _ hmem)]
  · rw [← files_unshareFiles h hu hne, object, commitExec_task_of_ne _ _ hne,
      commitExec_objects_files]
    cases hp : (s.unshareFiles.task s.current).resources .files with
    | none => rfl
    | some i =>
      apply RefTable.val?_modify_of_ne
      rw [unshareFiles_task_of_ne _ hne]
      exact (unshareFiles_private h hu hne hp).symm
  · rw [object, object, commitExec_task_of_ne _ _ hne, unshareFiles_task_of_ne _ hne,
      commitExec_objects_fs, unshareFiles_objects _ (by decide)]

end

/-- The handlers of another task after the call: reset if the table is the caller's. -/
theorem sigaction_commitExec_of_shared (hne : u ≠ s.current) (image : ExecImage)
    (hshares : s.SharesHandlers s.current u) (sig : Nat) :
    (s.unshareFiles.commitExec image s.current).sigaction u sig =
      if signalIsValid sig && (s.sigaction s.current sig).saHandler != sigIgn then {}
      else s.sigaction s.current sig := by
  rw [sigaction, object, commitExec_task_of_ne _ _ hne, unshareFiles_task_of_ne _ hne,
    commitExec_objects_sighand, unshareFiles_objects _ (by decide),
    unshareFiles_pointer _ (by decide), hshares.2, RefTable.val?_modify_self, sigaction, object]
  cases (s.objects .sighand).val? ((s.task s.current).resources .sighand) with
  | none =>
    dsimp only [Option.map_none]
    split <;> rfl
  | some actions => rfl

theorem sigaction_commitExec_of_not_shared (hne : u ≠ s.current) (image : ExecImage)
    (hshares : ¬s.SharesHandlers s.current u) (sig : Nat) :
    (s.unshareFiles.commitExec image s.current).sigaction u sig = s.sigaction u sig := by
  rw [sigaction, object, commitExec_task_of_ne _ _ hne, unshareFiles_task_of_ne _ hne,
    commitExec_objects_sighand, unshareFiles_objects _ (by decide),
    unshareFiles_pointer _ (by decide), sigaction, object]
  cases hp : (s.task s.current).resources .sighand with
  | none => rfl
  | some i =>
    rw [RefTable.val?_modify_of_ne]
    intro heq
    exact hshares ⟨by rw [hp]; rfl, by rw [hp, heq]⟩

theorem sigaction_eq_of_shared (hshares : s.SharesHandlers t u) (sig : Nat) :
    s.sigaction u sig = s.sigaction t sig := by
  rw [sigaction, sigaction, object, object, hshares.2]

/-- For a task that shares the handlers the call is visible exactly when there is something
to reset. -/
theorem dispositions_commitExec_iff (hne : u ≠ s.current) (image : ExecImage)
    (hshares : s.SharesHandlers s.current u) :
    (∀ sig, (s.unshareFiles.commitExec image s.current).sigaction u sig = s.sigaction u sig) ↔
      ¬s.HasActions s.current := by
  constructor
  · intro hsame hactions
    obtain ⟨sig, hvalid, hhandler, haction⟩ := hactions
    have hreset := hsame sig
    rw [sigaction_commitExec_of_shared hne image hshares, sigaction_eq_of_shared hshares, hvalid,
      Bool.true_and, if_pos (bne_iff_ne.mpr hhandler)] at hreset
    exact haction hreset.symm
  · intro hnone sig
    rw [sigaction_commitExec_of_shared hne image hshares, sigaction_eq_of_shared hshares]
    split
    · rename_i hreset
      rw [Bool.and_eq_true, bne_iff_ne] at hreset
      by_contra hne'
      exact hnone ⟨sig, hreset.1, hreset.2, fun heq => hne' heq.symm⟩
    · rfl

end Others

/-- The `execve` of one process is invisible to the others if and only if it fails, or no
task of another group shares the caller's signal handlers, or there is no action to reset. -/
theorem kernelExecve_isolated_iff (s : System) (env : ExecEnv) (hreach : Reachable s) :
    s.Isolated (kernelExecve env s).2 s.current ↔ (¬∃ image, s.ExecSucceeds env image) ∨
        (∀ u ∈ s.tasks, (s.task u).groupLeader ≠ (s.task s.current).groupLeader →
          ¬s.SharesHandlers s.current u) ∨
        ¬s.HasActions s.current := by
  have haccounted := hreach.accounted
  cases kernelExecve_cases s env with
  | inr herr =>
    obtain ⟨hfails, e, heq⟩ := herr
    rw [heq]
    constructor
    · intro _
      exact .inl fun hsucceeds => hsucceeds.elim hfails
    · intro _ u _ _
      exact ⟨rfl, rfl, rfl, fun _ => rfl⟩
  | inl hok =>
    obtain ⟨image, hsucceeds, heq⟩ := hok
    rw [heq]
    constructor
    · intro hisolated
      by_cases hactions : s.HasActions s.current
      · refine .inr (.inl fun u hu hgroup hshares => ?_)
        have hne : u ≠ s.current := fun h => hgroup (by rw [h])
        exact (dispositions_commitExec_iff hne image hshares).mp
          (hisolated u hu hgroup).dispositions hactions
      · exact .inr (.inr hactions)
    · intro hcond u hu hgroup
      have hne : u ≠ s.current := fun h => hgroup (by rw [h])
      obtain ⟨hmm, hfiles, hfs⟩ := object_commitExec haccounted hu hne image
      refine ⟨hmm, hfiles, by rw [hfs], ?_⟩
      by_cases hshares : s.SharesHandlers s.current u
      · apply (dispositions_commitExec_iff hne image hshares).mpr
        rcases hcond with hfails | hnone | hnone
        · exact absurd ⟨image, hsucceeds⟩ hfails
        · exact absurd hshares (hnone u hu hgroup)
        · exact hnone
      · exact sigaction_commitExec_of_not_shared hne image hshares

/-- The init process runs its image, creates a process that shares its memory and its
handlers (`CLONE_VM | CLONE_SIGHAND | SIGCHLD`), and catches signal 10; then the child runs. -/
def sharedHandlers : System :=
  let s := (kernelExecve plainImage boot).2
  let s := (sysClone { flags := cloneVm ||| cloneSighand ||| 17, childStack := 0x8000 } {} s).2
  let s := s.modifyObject s.current .sighand fun actions =>
    Function.update actions 10 { saHandler := 0x1000 }
  { s with current := 2 }

theorem reachable_sharedHandlers : Reachable sharedHandlers :=
  .step (.step (.step (.step .boot (.execve _ plainImage)) (.clone _ _ _)) (.write _ .sighand _))
    (.switch _ 2 (by decide +kernel))

/-- The child's `execve` takes the handler of signal 10 from the init process. -/
theorem kernelExecve_sharedHandlers_not_isolated : Reachable sharedHandlers ∧
      ¬sharedHandlers.Isolated (kernelExecve plainImage sharedHandlers).2 2 := by
  refine ⟨reachable_sharedHandlers, fun hisolated => ?_⟩
  have hview := hisolated 1 (by decide +kernel) (by decide +kernel)
  exact absurd (hview.dispositions 10) (by decide +kernel)

/-- The init process runs its image, catches signal 10, and creates a process that shares its
memory, descriptors and working directory; then the child runs. -/
def sharedFiles : System :=
  let s := (kernelExecve plainImage boot).2
  let s := s.modifyObject s.current .sighand fun actions =>
    Function.update actions 10 { saHandler := 0x1000 }
  let flags := cloneVm ||| cloneVfork ||| cloneFiles ||| cloneFs ||| 17
  { (sysClone { flags := flags, childStack := 0x8000 } {} s).2 with current := 2 }

theorem kernelExecve_isolated_sharedFiles :
    (sharedFiles.task 2).resources .files = (sharedFiles.task 1).resources .files ∧
      (sharedFiles.task 2).resources .mm = (sharedFiles.task 1).resources .mm ∧
      (sharedFiles.sigaction 2 10).saHandler = 0x1000 ∧
      sharedFiles.Isolated (kernelExecve plainImage sharedFiles).2 2 := by
  have hreach : Reachable sharedFiles :=
    .step (.step (.step (.step .boot (.execve _ plainImage)) (.write _ .sighand _))
      (.clone _ _ _)) (.switch _ 2 (by decide +kernel))
  refine ⟨by decide +kernel, by decide +kernel, by decide +kernel,
    (kernelExecve_isolated_iff sharedFiles plainImage hreach).mpr (.inr (.inl ?_))⟩
  unfold SharesHandlers
  decide +kernel

/-! ## Lifetimes -/

/-- In every state the system can reach, an object is there exactly while a task points to it,
and its count is the number of these tasks: nothing is freed early, nothing is left over. -/
theorem objects_live_while_held (hreach : Reachable s) (r : Resource) (i : Nat) :
    (s.objects r).refs (some i) = s.tasks.countP (fun t => (s.task t).resources r == some i) ∧
      (((s.objects r).val? (some i)).isSome ↔
        ∃ t ∈ s.tasks, (s.task t).resources r = some i) := by
  have hcounted := hreach.accounted.counted r
  have hcount : s.tasks.countP (fun t => (s.task t).resources r == some i) =
      (s.held r).count (some i) := by
    rw [held, List.count, List.countP_map]
    rfl
  rw [hcount, ← List.mem_map, ← held, hcounted.live]
  cases hcell : (s.objects r).cell i with
  | none =>
    -- nobody points to a number without an object
    have hnone : some i ∉ s.held r := by simp [hcounted.live, hcell]
    simp [RefTable.refs, RefTable.val?, hcell, List.count_eq_zero.mpr hnone]
  | some c => simp [RefTable.refs, RefTable.val?, hcell, hcounted.refs i c hcell]

theorem objects_live_while_held_sighand : (sharedHandlers.objects .sighand).refs (some 1) = 2 :=
  (objects_live_while_held reachable_sharedHandlers .sighand 1).1.trans (by decide +kernel)

end System

end CuteOS.Kernel
