/-
  Kernel/Clone.lean --- creating processes and threads.

  Sources: `kernel/fork.c`, `include/uapi/sched.h`, of `kernel/rseq.c` `rseq_clone`, of
  `syscall/sys_task.c` `sys_clone`.
-/
import CuteOS.Kernel.Exit

set_option autoImplicit false

namespace CuteOS.Kernel

open CuteOS.Lib
open Prog (read update require lift onError Triple)

/-! ## Flags -/

/-- The `flags` argument of `clone`. -/
abbrev CloneFlags := BitVec 64

def cloneNewtime : CloneFlags := 0x00000080
def cloneVm : CloneFlags := 0x00000100
def cloneFs : CloneFlags := 0x00000200
def cloneFiles : CloneFlags := 0x00000400
def cloneSighand : CloneFlags := 0x00000800
def clonePidfd : CloneFlags := 0x00001000
def clonePtrace : CloneFlags := 0x00002000
def cloneVfork : CloneFlags := 0x00004000
def cloneParent : CloneFlags := 0x00008000
def cloneThread : CloneFlags := 0x00010000
def cloneNewns : CloneFlags := 0x00020000
def cloneSysvsem : CloneFlags := 0x00040000
def cloneSettls : CloneFlags := 0x00080000
def cloneParentSettid : CloneFlags := 0x00100000
def cloneChildCleartid : CloneFlags := 0x00200000
def cloneDetached : CloneFlags := 0x00400000
def cloneUntraced : CloneFlags := 0x00800000
def cloneChildSettid : CloneFlags := 0x01000000
def cloneNewcgroup : CloneFlags := 0x02000000
def cloneNewuts : CloneFlags := 0x04000000
def cloneNewipc : CloneFlags := 0x08000000
def cloneNewuser : CloneFlags := 0x10000000
def cloneNewpid : CloneFlags := 0x20000000
def cloneNewnet : CloneFlags := 0x40000000
def cloneIo : CloneFlags := 0x80000000
def cloneClearSighand : CloneFlags := 0x100000000
def cloneIntoCgroup : CloneFlags := 0x200000000

/-- `CLONE_EXIT_SIGNAL_MASK`. -/
def cloneExitSignalMask : CloneFlags := 0xff

/-- `KNOWN_CLONE_FLAGS`. -/
def knownCloneFlags : CloneFlags :=
  cloneExitSignalMask ||| cloneVm ||| cloneFs ||| cloneFiles ||| cloneSighand ||| clonePidfd |||
    clonePtrace ||| cloneVfork ||| cloneParent ||| cloneThread ||| cloneNewns |||
    cloneSysvsem ||| cloneSettls ||| cloneParentSettid ||| cloneChildCleartid |||
    cloneDetached ||| cloneUntraced ||| cloneChildSettid ||| cloneNewcgroup |||
    cloneNewuts ||| cloneNewipc ||| cloneNewuser ||| cloneNewpid ||| cloneNewnet |||
    cloneIo ||| cloneClearSighand ||| cloneIntoCgroup

/-- `UNSUPPORTED_CLONE_FLAGS`. -/
def unsupportedCloneFlags : CloneFlags :=
  cloneNewtime ||| clonePidfd ||| clonePtrace ||| cloneParent ||| cloneNewns |||
    cloneNewcgroup ||| cloneNewuts ||| cloneNewipc ||| cloneNewuser ||| cloneNewpid |||
    cloneNewnet ||| cloneIo ||| cloneClearSighand ||| cloneIntoCgroup

/-- `THREAD_ONLY_CLONE_FLAGS`. -/
def threadOnlyCloneFlags : CloneFlags := cloneChildSettid ||| cloneChildCleartid ||| cloneSettls

/-- `flags & mask`, as a condition. -/
def hasFlag (flags mask : CloneFlags) : Bool := flags &&& mask != 0

/-- `clone_wants_thread`. -/
def cloneWantsThread (flags : CloneFlags) : Bool := hasFlag flags cloneThread

/-- `validate_clone_flags`; `leader` is `task_is_group_leader(current_task())`. -/
def validateCloneFlags (flags : CloneFlags) (childStack : Nat) (leader : Bool) :
    Except Errno Unit :=
  let exitSignal := flags &&& cloneExitSignalMask
  if hasFlag flags (~~~knownCloneFlags) then .error .einval
  else if hasFlag flags unsupportedCloneFlags then .error .einval
  else if hasFlag flags cloneSighand && !hasFlag flags cloneVm then .error .einval
  else if hasFlag flags cloneVfork && hasFlag flags cloneThread then .error .einval
  else if hasFlag flags cloneVm && childStack == 0 then .error .einval
  else if hasFlag flags cloneVm && !hasFlag flags cloneSighand && !hasFlag flags cloneVfork then
    .error .einval
  else if hasFlag flags cloneThread && !hasFlag flags cloneVm then .error .einval
  else if hasFlag flags cloneThread && !hasFlag flags cloneSighand then .error .einval
  else if !cloneWantsThread flags && !leader then .error .einval
  else if !cloneWantsThread flags && hasFlag flags threadOnlyCloneFlags then .error .einval
  else if !cloneWantsThread flags && exitSignal != 0 && exitSignal != 17 then .error .einval
  else .ok ()

/-! ## The new task -/

/-- The arguments of `clone`. -/
structure CloneArgs where
  flags : CloneFlags
  childStack : Nat := 0
  childTid : Nat := 0

/-- What `clone` finds outside of the modelled state: the allocator, the console and root
objects, the session code and the two user words. -/
structure CloneEnv where
  mem : System.CloneMemory := {}
  console : Nat := 0
  root : Nat := 0
  session : Except Errno Unit := .ok ()
  parentTid : Bool := true
  childTid : Bool := true

namespace System

/-- `task_alloc` and `task_inherit_process_role`. -/
def taskAlloc (s : System) : System :=
  { s with
    task := Function.update s.task s.nextTask
      { groupLeader := s.nextTask, userProcess := (s.task s.current).userProcess }
    tasks := s.nextTask :: s.tasks
    nextTask := s.nextTask + 1 }

/-- `child_cleanup`; the freed task stays as a dead one. -/
def childCleanup (child : TaskId) (s : System) : System :=
  let s := s.closeFiles child
  let s := s.exitFs child
  let s := s.signalsRelease child
  let s := s.releaseTaskMm child
  s.setState child .dead

/-- `clone_setup_mm`. -/
def cloneSetupMm (child : TaskId) (flags : CloneFlags) (mem : CloneMemory) :
    Prog Errno System Unit := do
  let s ← read
  let mm := (s.task s.current).resources .mm
  if hasFlag flags cloneVm then
    update fun s => s.shareWithCurrent child .mm
  else if mm.isNone then
    Prog.ret ()
  else
    require mem.mm.isSome .enomem
    update fun s => s.newObject child .mm (mem.mm.getD fun _ => 0)

/-- `task_setup_clone_frame`: the child returns 0 from the same system call. -/
def setupCloneFrame (child : TaskId) (childStack : Nat) (s : System) : System :=
  let tf := (s.task s.current).tf
  s.setTask child fun task =>
    { task with
      tf := { tf with
        a := Function.update tf.a 0 0
        sp := if childStack == 0 then tf.sp else childStack } }

/-- `clone_copy_resources`. -/
def cloneCopyResources (child : TaskId) (flags : CloneFlags) (env : CloneEnv) :
    Prog Errno System Unit := do
  copyFiles child (hasFlag flags cloneFiles) env.mem.files env.console
  copyFs child (hasFlag flags cloneFs) env.mem.fs env.root
  signalsClone child (hasFlag flags cloneSighand) (cloneWantsThread flags)
    (hasFlag flags cloneVm && !hasFlag flags cloneVfork) env.mem

/-- `rseq_clone`. -/
def rseqClone (child : TaskId) (flags : CloneFlags) (s : System) : System :=
  let rseq := (s.task s.current).rseq
  s.setTask child fun task => { task with rseq := if hasFlag flags cloneVm then {} else rseq }

/-- `task_set_clear_child_tid` for `CLONE_CHILD_CLEARTID`. -/
def setChildClearTid (child : TaskId) (args : CloneArgs) (s : System) : System :=
  if hasFlag args.flags cloneChildCleartid then
    s.setSigctx child fun c => { c with clearChildTid := args.childTid }
  else s

/-- `clone_setup_task_links`. -/
def cloneSetupTaskLinks (child : TaskId) (flags : CloneFlags) (s : System) : System :=
  let leader := (s.task s.current).groupLeader
  s.setTask child fun task =>
    if cloneWantsThread flags then
      { task with groupLeader := leader, exitSignal := 0, parent := some leader }
    else
      { task with exitSignal := (flags &&& cloneExitSignalMask).toNat, groupLeader := child }

/-- `clone_setup_vfork`. -/
def cloneSetupVfork (child : TaskId) (flags : CloneFlags) (s : System) : System :=
  if hasFlag flags cloneVfork then
    s.setTask child fun task => { task with vforkActive := true, vforkCompleted := false }
  else s

/-- The first part of `kernel_clone_prepare`: the checks and the empty task. -/
def cloneAlloc (args : CloneArgs) (env : CloneEnv) : Prog Errno System TaskId := do
  let s ← read
  lift (validateCloneFlags args.flags args.childStack (s.isGroupLeader s.current))
  require env.mem.task .enomem
  update taskAlloc
  pure s.nextTask

/-- The second part: the new task is filled. -/
def cloneFill (child : TaskId) (args : CloneArgs) (env : CloneEnv) : Prog Errno System Unit := do
  onError (cloneSetupMm child args.flags env.mem) (childCleanup child)
  update (setupCloneFrame child args.childStack)
  onError (cloneCopyResources child args.flags env) (childCleanup child)
  update (setChildClearTid child args)
  update (rseqClone child args.flags)
  update (cloneSetupTaskLinks child args.flags)
  onError (lift env.session) (childCleanup child)
  update (cloneSetupVfork child args.flags)

/-- `kernel_clone_prepare`: the new task, not yet visible to anybody. -/
def kernelClonePrepare (args : CloneArgs) (env : CloneEnv) : Prog Errno System TaskId := do
  let child ← cloneAlloc args env
  cloneFill child args env
  pure child

/-- `task_link_child`. -/
def taskLinkChild (parent child : TaskId) (s : System) : System :=
  (s.setTask child fun task => { task with parent := some parent }).setTask parent fun task =>
    { task with children := task.children ++ [child] }

/-- `clone_link_task`. -/
def cloneLinkTask (child : TaskId) (flags : CloneFlags) (s : System) : System :=
  if cloneWantsThread flags then
    s.setTask (s.task s.current).groupLeader fun leader =>
      { leader with threadGroup := leader.threadGroup ++ [child] }
  else
    s.taskLinkChild s.current child

/-- `task_publish`. -/
def taskPublish (child : TaskId) (s : System) : System :=
  s.setTask child fun task => { task with published := true }

/-- The end of `sys_clone`: the two user words, then `kernel_clone_commit` or
`kernel_clone_abort`.  The wait of a `vfork` parent is not part of it. -/
def cloneCommit (child : TaskId) (args : CloneArgs) (env : CloneEnv) :
    Prog Errno System TaskId := do
  onError (require (!hasFlag args.flags cloneParentSettid || env.parentTid) .efault)
    (childCleanup child)
  onError (require (!hasFlag args.flags cloneChildSettid || env.childTid) .efault)
    (childCleanup child)
  update fun s => taskPublish child (cloneLinkTask child args.flags s)
  pure child

/-- `sys_clone`. -/
def sysClone (args : CloneArgs) (env : CloneEnv) : Prog Errno System TaskId := do
  let child ← kernelClonePrepare args env
  cloneCommit child args env

/-! ## The objects stay accounted for -/

/-- The objects are accounted for, `child` among the tasks. -/
def Building (child : TaskId) (s : System) : Prop := s.Accounted ∧ child ∈ s.tasks

/-- A program that keeps the objects accounted for, whatever its outcome. -/
def Builds {α : Type} (child : TaskId) (m : Prog Errno System α) : Prop :=
  Triple (Building child) m (fun _ => Building child) fun _ => Building child

namespace Builds

variable {α β : Type} {child : TaskId}

theorem bind {m : Prog Errno System α} {k : α → Prog Errno System β} (hm : Builds child m)
    (hk : ∀ a, Builds child (k a)) : Builds child (m >>= k) :=
  Triple.bind hm hk

theorem pure (a : α) : Builds child (Pure.pure a) := Triple.pure a fun _ h => h

theorem read_bind {k : System → Prog Errno System β} (hk : ∀ s, Builds child (k s)) :
    Builds child (read >>= k) :=
  Triple.read_bind fun s hs => (hk s).weaken (fun _ h => h ▸ hs) (fun _ _ h => h) fun _ _ h => h

theorem require (c : Bool) (e : Errno) : Builds child (require c e) :=
  Triple.require (fun _ h _ => h) fun _ h _ => h

theorem lift (x : Except Errno α) : Builds child (lift x) :=
  Triple.lift (fun _ _ h _ => h) fun _ _ h _ => h

theorem update {f : System → System} (hf : ∀ s, Building child s → Building child (f s)) :
    Builds child (update f) :=
  Triple.update f hf

theorem ite {c : Prop} [Decidable c] {m m' : Prog Errno System α} (hm : Builds child m)
    (hm' : Builds child m') : Builds child (if c then m else m') := by
  split
  · exact hm
  · exact hm'

theorem onError {m : Prog Errno System α} {f : System → System} (hm : Builds child m)
    (hf : ∀ s, Building child s → Building child (f s)) : Builds child (onError m f) :=
  Triple.onError hm fun _ s h => hf s h

end Builds

namespace Building

variable {child : TaskId} {s : System} (h : Building child s)
include h

theorem of_keepsTasks {s' : System} (hk : KeepsTasks s s') : Building child s' :=
  ⟨hk.accounted h.1, hk.tasks ▸ h.2⟩

theorem newObject (r : Resource) (v : r.Object) : Building child (s.newObject child r v) :=
  ⟨h.1.newObject h.2 r v, h.2⟩

theorem shareWithCurrent (r : Resource) : Building child (s.shareWithCurrent child r) :=
  ⟨h.1.shareWithCurrent h.2 r, h.2⟩

theorem setTask (t : TaskId) {f : Task → Task}
    (hres : (f (s.task t)).resources = (s.task t).resources := by rfl)
    (hleader : (f (s.task t)).groupLeader = (s.task t).groupLeader := by rfl)
    (hgroup : (f (s.task t)).threadGroup ⊆ (s.task t).threadGroup :=
      by exact List.Subset.refl _) :
    Building child (s.setTask t f) :=
  ⟨h.1.setTask t hres hleader hgroup, h.2⟩

theorem setSigctx (t : TaskId) (f : SignalContext → SignalContext) :
    Building child (s.setSigctx t f) :=
  h.setTask t

theorem childCleanup : Building child (s.childCleanup child) := by
  have hfiles : KeepsTasks s (s.closeFiles child) := .dropObject s h.2 .files
  have hfs := hfiles.trans (.dropObject _ (hfiles.tasks ▸ h.2) .fs)
  have hsignals := hfs.trans (keepsTasks_signalsRelease _ (hfs.tasks ▸ h.2))
  have hmm := hsignals.trans (.dropObject _ (hsignals.tasks ▸ h.2) .mm)
  unfold System.childCleanup setState
  exact (h.of_keepsTasks hmm).setTask child

theorem setChildClearTid (args : CloneArgs) :
    Building child (s.setChildClearTid child args) := by
  unfold System.setChildClearTid
  split
  · exact h.setSigctx child _
  · exact h

theorem setupCloneFrame (childStack : Nat) :
    Building child (s.setupCloneFrame child childStack) := by
  unfold System.setupCloneFrame
  exact h.setTask child

theorem rseqClone (flags : CloneFlags) :
    Building child (s.rseqClone child flags) := by
  unfold System.rseqClone
  exact h.setTask child

theorem cloneSetupVfork (flags : CloneFlags) :
    Building child (s.cloneSetupVfork child flags) := by
  unfold System.cloneSetupVfork
  split
  · exact h.setTask child
  · exact h

/-- A thread joins the group of the caller, a process starts its own. -/
theorem cloneSetupTaskLinks (flags : CloneFlags) :
    Building child (s.cloneSetupTaskLinks child flags) := by
  unfold System.cloneSetupTaskLinks
  refine ⟨h.1.relink child ?_ ?_ ?_, h.2⟩
  · split <;> rfl
  · intro _
    split
    · exact h.1.leaders _ h.1.current
    · exact h.2
  · intro hmem u hu
    apply h.1.groups child hmem u
    split at hu <;> exact hu

theorem taskLinkChild (parent : TaskId) :
    Building child (s.taskLinkChild parent child) := by
  have hparent : Building child (s.setTask child fun task => { task with parent := some parent }) :=
    h.setTask child
  exact hparent.setTask parent

theorem cloneLinkTask (flags : CloneFlags) :
    Building child (s.cloneLinkTask child flags) := by
  unfold System.cloneLinkTask
  split
  · refine ⟨h.1.relink _ rfl (fun hmem => h.1.leaders _ hmem) ?_, h.2⟩
    intro hmem u hu
    cases List.mem_append.mp hu with
    | inl hold => exact h.1.groups _ hmem u hold
    | inr hnew =>
      rw [List.mem_singleton.mp hnew]
      exact h.2
  · exact h.taskLinkChild s.current

theorem taskPublish : Building child (s.taskPublish child) :=
  h.setTask child

end Building

variable {s : System}

section Copies

variable (child : TaskId)

theorem builds_cloneSetupMm (flags : CloneFlags) (mem : CloneMemory) :
    Builds child (cloneSetupMm child flags mem) := by
  intro s
  apply Builds.ite
  · exact .update fun s h => h.shareWithCurrent .mm
  · apply Builds.ite
    · exact .pure ()
    · exact .bind (.require _ _) fun _ => .update fun s h => h.newObject .mm _

theorem builds_copyFiles (share mem : Bool) (console : Nat) :
    Builds child (copyFiles child share mem console) := by
  intro s
  apply Builds.ite
  · apply Builds.ite
    · exact .bind (.require _ _) fun _ => .update fun s h => h.newObject .files _
    · exact .update fun s h => h.shareWithCurrent .files
  · exact .bind (.require _ _) fun _ => .update fun s h => h.newObject .files _

theorem builds_copyFs (share mem : Bool) (root : Nat) :
    Builds child (copyFs child share mem root) := by
  intro s
  apply Builds.ite
  · apply Builds.ite
    · exact .bind (.require _ _) fun _ => .update fun s h => h.newObject .fs _
    · exact .update fun s h => h.shareWithCurrent .fs
  · exact .bind (.require _ _) fun _ => .update fun s h => h.newObject .fs _

theorem builds_signalsClone (shareSighand shareSignal disable : Bool) (mem : CloneMemory) :
    Builds child (signalsClone child shareSighand shareSignal disable mem) := by
  apply Builds.read_bind
  intro s
  refine .bind (.require _ _) fun _ => .bind (.require _ _) fun _ => .bind (.require _ _) fun _ =>
    .bind (.require _ _) fun _ => .bind (.update ?_) fun _ => .bind (.update ?_) fun _ =>
      .bind (.update ?_) fun _ => .bind (.require _ _) fun _ => .update ?_
  · intro s h
    split
    · exact h.shareWithCurrent .sighand
    · exact h.newObject .sighand _
  · intro s h
    split
    · exact h.shareWithCurrent .signal
    · exact h.newObject .signal _
  · intro s h
    exact h.setSigctx child _
  · intro s h
    exact h.setSigctx child _

theorem builds_cloneCopyResources (flags : CloneFlags) (env : CloneEnv) :
    Builds child (cloneCopyResources child flags env) :=
  .bind (builds_copyFiles child _ _ _) fun _ => .bind (builds_copyFs child _ _ _) fun _ =>
    builds_signalsClone child _ _ _ _

theorem building_taskAlloc (h : s.Accounted) : Building s.nextTask s.taskAlloc := by
  have hnew : s.nextTask ∉ s.tasks := fun hmem => Nat.lt_irrefl _ (h.bound _ hmem)
  have hold : ∀ u ∈ s.tasks, s.taskAlloc.task u = s.task u := by
    intro u hu
    apply Function.update_of_ne
    intro heq
    subst heq
    exact hnew hu
  have hself : s.taskAlloc.task s.nextTask =
      { groupLeader := s.nextTask, userProcess := (s.task s.current).userProcess } :=
    Function.update_self ..
  refine ⟨⟨List.nodup_cons.mpr ⟨hnew, h.nodup⟩, ?_, List.mem_cons_of_mem _ h.current, ?_, ?_, ?_⟩,
    List.mem_cons_self⟩
  · exact List.forall_mem_cons.mpr
      ⟨Nat.lt_succ_self _, fun u hu => Nat.lt_succ_of_lt (h.bound u hu)⟩
  · refine List.forall_mem_cons.mpr ⟨?_, fun u hu => ?_⟩
    · rw [hself]
      exact List.mem_cons_self
    · rw [hold u hu]
      exact List.mem_cons_of_mem _ (h.leaders u hu)
  · refine List.forall_mem_cons.mpr ⟨?_, fun u hu => ?_⟩
    · rw [hself]
      exact List.forall_mem_nil _
    · rw [hold u hu]
      exact fun v hv => List.mem_cons_of_mem _ (h.groups u hu v hv)
  · intro r
    have hheld : s.taskAlloc.held r = none :: s.held r := by
      change (s.taskAlloc.task s.nextTask).resources r ::
        (s.tasks.map fun u => (s.taskAlloc.task u).resources r) = none :: s.held r
      rw [hself]
      congr 1
      apply List.map_congr_left
      intro u hu
      rw [hold u hu]
    rw [hheld]
    exact (h.counted r).cons_none

end Copies

theorem builds_cloneFill (child : TaskId) (args : CloneArgs) (env : CloneEnv) :
    Builds child (cloneFill child args env) := by
  have hcleanup : ∀ s, Building child s → Building child (s.childCleanup child) :=
    fun _ h => h.childCleanup
  refine .bind (.onError (builds_cloneSetupMm child _ _) hcleanup) fun _ => ?_
  refine .bind (.update fun s h => h.setupCloneFrame _) fun _ => ?_
  refine .bind (.onError (builds_cloneCopyResources child _ _) hcleanup) fun _ => ?_
  refine .bind (.update fun s h => h.setChildClearTid args) fun _ => ?_
  refine .bind (.update fun s h => h.rseqClone _) fun _ => ?_
  refine .bind (.update fun s h => h.cloneSetupTaskLinks _) fun _ => ?_
  refine .bind (.onError (.lift _) hcleanup) fun _ => ?_
  exact .update fun s h => h.cloneSetupVfork _

theorem builds_cloneCommit (child : TaskId) (args : CloneArgs) (env : CloneEnv) :
    Builds child (cloneCommit child args env) := by
  have hcleanup : ∀ s, Building child s → Building child (s.childCleanup child) :=
    fun _ h => h.childCleanup
  refine .bind (.onError (.require _ _) hcleanup) fun _ => ?_
  refine .bind (.onError (.require _ _) hcleanup) fun _ => ?_
  refine .bind (.update fun s h => ?_) fun _ => .pure child
  exact (h.cloneLinkTask _).taskPublish

theorem cloneAlloc_spec (args : CloneArgs) (env : CloneEnv) :
    Triple Accounted (cloneAlloc args env) Building fun _ => Accounted := by
  refine Triple.read_bind fun s hs => ?_
  have hsame : ∀ s' : System, s' = s → s'.Accounted := fun s' heq => heq ▸ hs
  refine Triple.bind (Q := fun _ s' => s' = s)
    (.lift (fun _ _ heq _ => heq) fun _ s' heq _ => hsame s' heq) fun _ => ?_
  refine Triple.bind (Q := fun _ s' => s' = s)
    (.require (fun _ heq _ => heq) fun s' heq _ => hsame s' heq) fun _ => ?_
  refine Triple.bind (Q := fun _ => Building s.nextTask) (.update _ fun s' heq => ?_) fun _ =>
    .pure _ fun _ h => h
  rw [heq]
  exact building_taskAlloc hs

/-- Every outcome of `clone` leaves the objects accounted for. -/
theorem Accounted.sysClone (h : s.Accounted) (args : CloneArgs) (env : CloneEnv) :
    (sysClone args env s).2.Accounted := by
  have hspec : Triple Accounted (System.sysClone args env) (fun _ => Accounted)
      fun _ => Accounted := by
    refine Triple.bind (Q := Building) ?_ fun child => ?_
    · refine Triple.bind (cloneAlloc_spec args env) fun child => ?_
      refine Triple.bind (Q := fun _ => Building child) ?_ fun _ => .pure _ fun _ h => h
      exact (builds_cloneFill child args env).weaken (fun _ h => h) (fun _ _ h => h)
        fun _ _ h => h.1
    · exact (builds_cloneCommit child args env).weaken (fun _ h => h) (fun _ _ h => h.1)
        fun _ _ h => h.1
  exact hspec.final h

end System

end CuteOS.Kernel
