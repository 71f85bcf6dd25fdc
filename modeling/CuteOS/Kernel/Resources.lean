/-
  Kernel/Resources.lean --- the shared objects of a task: taking, copying, dropping.

  Sources: `fs/vfs/fdtable.c`, `fs/vfs/fs_struct.c`, of `kernel/signal.c` the functions
  `signals_init`, `signals_release` and `signals_clone`, of `kernel/exit.c`
  `release_task_mm`, and of `mm/mmap.c` the reference count of an address space.

  `Accounted` says that every object's count is the number of tasks that point to it;
  each of these functions keeps it.
-/
import CuteOS.Kernel.Signal
import CuteOS.Lib.Prog

set_option autoImplicit false

namespace CuteOS.Kernel

open CuteOS.Lib
open Prog (require update read)
open Function (update update_self update_of_ne)

namespace System

/-! ## The pointers of one task -/

/-- Point task `t` to `p` in `table` and drop the object it pointed to. -/
def replaceObject (s : System) (t : TaskId) (r : Resource) (p : Option Nat)
    (table : RefTable r.Object) : System :=
  { s.setTask t fun task => { task with resources := update task.resources r p } with
    objects := update s.objects r (table.put ((s.task t).resources r)) }

/-- A pointer is exchanged, nothing else of any task. -/
theorem replaceObject_task (s : System) (t : TaskId) (r : Resource) (p : Option Nat)
    (table : RefTable r.Object) (u : TaskId) :
    (s.replaceObject t r p table).task u =
      if u = t then { s.task t with resources := update (s.task t).resources r p }
      else s.task u := by
  by_cases hu : u = t
  · subst hu
    simp [replaceObject]
  · simp [replaceObject, hu]

/-- What does not depend on the pointers. -/
theorem replaceObject_same {α : Type} (g : Task → α)
    (hg : ∀ task resources, g { task with resources := resources } = g task) (s : System)
    (t : TaskId) (r : Resource) (p : Option Nat) (table : RefTable r.Object) (u : TaskId) :
    g ((s.replaceObject t r p table).task u) = g (s.task u) := by
  rw [replaceObject_task]
  split_ifs with hu
  · rw [hg, hu]
  · rfl

theorem replaceObject_task_of_ne (s : System) {t u : TaskId} (r : Resource) (p : Option Nat)
    (table : RefTable r.Object) (hu : u ≠ t) :
    (s.replaceObject t r p table).task u = s.task u := by
  rw [replaceObject_task, if_neg hu]

section

variable (s : System) (t : TaskId)
include s t

theorem replaceObject_pointer_self (r : Resource) (p : Option Nat)
    (table : RefTable r.Object) : ((s.replaceObject t r p table).task t).resources r = p := by
  rw [replaceObject_task, if_pos rfl]
  exact update_self ..

theorem replaceObject_pointer_of_ne {r q : Resource} (p : Option Nat)
    (table : RefTable r.Object) (hq : q ≠ r) :
    ((s.replaceObject t r p table).task t).resources q = (s.task t).resources q := by
  rw [replaceObject_task, if_pos rfl]
  exact update_of_ne hq ..

theorem replaceObject_objects_self (r : Resource) (p : Option Nat) (table : RefTable r.Object) :
    (s.replaceObject t r p table).objects r = table.put ((s.task t).resources r) :=
  update_self r _ _

theorem replaceObject_objects_of_ne {r q : Resource} (p : Option Nat)
    (table : RefTable r.Object) (hq : q ≠ r) :
    (s.replaceObject t r p table).objects q = s.objects q :=
  update_of_ne hq _ _

end

/-- Point task `t` to a new object. -/
def newObject (s : System) (t : TaskId) (r : Resource) (v : r.Object) : System :=
  s.replaceObject t r (some (s.objects r).next) ((s.objects r).alloc v)

/-- Point task `t` to the object of the current task. -/
def shareWithCurrent (s : System) (t : TaskId) (r : Resource) : System :=
  let p := (s.task s.current).resources r
  s.replaceObject t r p ((s.objects r).get p)

/-- Drop the object of a task. -/
def dropObject (s : System) (t : TaskId) (r : Resource) : System :=
  s.replaceObject t r none (s.objects r)

/-! ## Descriptor tables and file-system contexts -/

/-- `files_alloc`. -/
def filesAlloc : FilesStruct := ⟨fun _ => none, 0⟩

/-- `files_dup`. -/
def filesDup (old : Option FilesStruct) : FilesStruct :=
  match old with
  | none => filesAlloc
  | some files => files

/-- `close_files`. -/
def closeFiles (s : System) (t : TaskId) : System := s.dropObject t .files

/-- `files_close_on_exec`. -/
def filesCloseOnExec (files : FilesStruct) : FilesStruct where
  fd := fun n => if files.closeOnExec.getLsbD n then none else files.fd n
  closeOnExec := 0

/-- `exit_fs`. -/
def exitFs (s : System) (t : TaskId) : System := s.dropObject t .fs

/-- `reset_task_altstack`. -/
def resetAltstack (c : SignalContext) : SignalContext :=
  { c with sas := { ssSp := 0, ssOnstack := false, ssDisable := true, ssSize := 0 } }

/-- The signal context that `signals_init`, `signals_release` and `signals_clone` leave,
apart from the blocked mask, the frames and the alternate stack. -/
def clearSigctx (c : SignalContext) : SignalContext :=
  { c with
    blocked := 0
    pending := 0
    forcedPending := 0
    signalFrames := []
    restoreMask := none }

/-- `signals_release`. -/
def signalsRelease (s : System) (t : TaskId) : System :=
  let s := s.dropObject t .sighand
  let s := s.dropObject t .signal
  s.setSigctx t fun c => resetAltstack (clearSigctx c)

/-- `release_task_mm`. -/
def releaseTaskMm (s : System) (t : TaskId) : System := s.dropObject t .mm

/-! ## Copies for a new task

Allocations may fail: each function takes what the allocator answers. -/

/-- `init_files`: the three standard descriptors of the console. -/
def initFiles (child : TaskId) (mem : Bool) (console : Nat) : Prog Errno System Unit := do
  require mem .enomem
  update fun s =>
    s.newObject child .files ⟨fun n => if n.val < 3 then some (console + n.val) else none, 0⟩

/-- `init_fs`. -/
def initFs (child : TaskId) (mem : Bool) (root : Nat) : Prog Errno System Unit := do
  require mem .enomem
  update fun s => s.newObject child .fs ⟨root, root, 0o022⟩

/-- `copy_files`. -/
def copyFiles (child : TaskId) (share mem : Bool) (console : Nat) : Prog Errno System Unit := do
  let s ← read
  let files := (s.task s.current).resources .files
  if share then
    if files.isNone then initFiles child mem console
    else update fun s => s.shareWithCurrent child .files
  else
    require mem .enomem
    update fun s => s.newObject child .files (filesDup (s.object s.current .files))

/-- `copy_fs`. -/
def copyFs (child : TaskId) (share mem : Bool) (root : Nat) : Prog Errno System Unit := do
  let s ← read
  let fs := (s.task s.current).resources .fs
  if share then
    if fs.isNone then initFs child mem root
    else update fun s => s.shareWithCurrent child .fs
  else
    require mem .enomem
    update fun s =>
      s.newObject child .fs ((s.object s.current .fs).getD ⟨root, root, 0o022⟩)

/-- What the allocator answers while a task is created. -/
structure CloneMemory where
  task : Bool := true
  mm : Option UserMemory := none
  files : Bool := true
  fs : Bool := true
  sighand : Bool := true
  signal : Bool := true
  frames : Bool := true

/-- The signal state of a new process: the limits of the old one, nothing pending. -/
def signalCopyProcessState (old : Option SignalStruct) : SignalStruct :=
  match old with
  | none => {}
  | some signal => { rlimits := signal.rlimits }

/-- `signals_clone`: both objects are there before the child is touched. -/
def signalsClone (child : TaskId) (shareSighand shareSignal disableAltstack : Bool)
    (mem : CloneMemory) : Prog Errno System Unit := do
  let s ← read
  let parent := s.task s.current
  let sighand := parent.resources .sighand
  let signal := parent.resources .signal
  require (!shareSighand || sighand.isSome) .einval
  require (shareSighand || mem.sighand) .enomem
  require (!shareSignal || signal.isSome) .einval
  require (shareSignal || mem.signal) .enomem
  update fun s =>
    if shareSighand then s.shareWithCurrent child .sighand
    else s.newObject child .sighand ((s.object s.current .sighand).getD fun _ => {})
  update fun s =>
    if shareSignal then s.shareWithCurrent child .signal
    else s.newObject child .signal (signalCopyProcessState (s.object s.current .signal))
  update fun s =>
    s.setSigctx child fun c =>
      { clearSigctx c with blocked := parent.sigctx.blocked &&& ~~~unblockableMask }
  require (shareSignal || mem.frames || parent.sigctx.signalFrames.isEmpty) .enomem
  update fun s =>
    s.setSigctx child fun c =>
      { (if disableAltstack then resetAltstack c
         else { c with sas := { parent.sigctx.sas with ssOnstack := false } }) with
        signalFrames := if shareSignal then [] else parent.sigctx.signalFrames }

/-! ## Every object is accounted for -/

/-- The pointers of the tasks to the objects of one kind. -/
def held (s : System) (r : Resource) : List (Option Nat) :=
  s.tasks.map fun t => (s.task t).resources r

/-- The links of the tasks lead to tasks, and every count is the number of tasks that
point to the object. -/
structure Accounted (s : System) : Prop where
  nodup : s.tasks.Nodup
  bound : ∀ t ∈ s.tasks, t < s.nextTask
  current : s.current ∈ s.tasks
  leaders : ∀ t ∈ s.tasks, (s.task t).groupLeader ∈ s.tasks
  groups : ∀ t ∈ s.tasks, ∀ u ∈ (s.task t).threadGroup, u ∈ s.tasks
  counted : ∀ r, (s.objects r).Counted (s.held r)

theorem held_setTask (s : System) (t : TaskId) (f : Task → Task) (r : Resource)
    (hptr : (f (s.task t)).resources r = (s.task t).resources r) :
    (s.setTask t f).held r = s.held r := by
  apply List.map_congr_left
  intro u _
  by_cases hu : u = t
  · subst hu
    simpa using hptr
  · simp [hu]

theorem mem_held {s : System} {t : TaskId} (ht : t ∈ s.tasks) (r : Resource) :
    (s.task t).resources r ∈ s.held r :=
  List.mem_map_of_mem ht

/-- The pointers of the other tasks. -/
def heldByOthers (s : System) (t : TaskId) (r : Resource) : List (Option Nat) :=
  (s.tasks.erase t).map fun u => (s.task u).resources r

theorem held_perm {s : System} {t : TaskId} (ht : t ∈ s.tasks) (r : Resource) :
    (s.held r).Perm ((s.task t).resources r :: s.heldByOthers t r) :=
  map_perm_cons_erase (fun u => (s.task u).resources r) ht

theorem mem_heldByOthers {s : System} {t u : TaskId} (hu : u ∈ s.tasks) (hne : u ≠ t)
    (r : Resource) : (s.task u).resources r ∈ s.heldByOthers t r :=
  List.mem_map_of_mem (f := fun u => (s.task u).resources r) ((List.mem_erase_of_ne hne).mpr hu)

theorem heldByOthers_setTask {s : System} (hnodup : s.tasks.Nodup) (t : TaskId)
    (f : Task → Task) (r : Resource) :
    (s.setTask t f).heldByOthers t r = s.heldByOthers t r := by
  apply List.map_congr_left
  intro u hu
  have hne : u ≠ t := by
    intro heq
    subst heq
    exact hnodup.not_mem_erase hu
  simp [hne]

namespace Accounted

variable {s : System} {t : TaskId} {p : Option Nat}

section

variable (h : s.Accounted) (t)
include h

/-- A write to a task that leaves its pointers alone; its links lead to tasks. -/
theorem relink {f : Task → Task} (hres : (f (s.task t)).resources = (s.task t).resources)
    (hleader : t ∈ s.tasks → (f (s.task t)).groupLeader ∈ s.tasks)
    (hgroup : t ∈ s.tasks → ∀ u ∈ (f (s.task t)).threadGroup, u ∈ s.tasks) :
    (s.setTask t f).Accounted where
  nodup := h.nodup
  bound := h.bound
  current := h.current
  leaders := by
    intro u hu
    by_cases hut : u = t
    · subst hut
      rw [setTask_task_self]
      exact hleader hu
    · rw [setTask_task_of_ne _ _ hut]
      exact h.leaders u hu
  groups := by
    intro u hu v hv
    by_cases hut : u = t
    · subst hut
      rw [setTask_task_self] at hv
      exact hgroup hu v hv
    · rw [setTask_task_of_ne _ _ hut] at hv
      exact h.groups u hu v hv
  counted := by
    intro r
    rw [held_setTask s t f r (by rw [hres])]
    exact h.counted r

/-- A write to a task that leaves its pointers alone and links no thread to it. -/
theorem setTask {f : Task → Task} (hres : (f (s.task t)).resources = (s.task t).resources := by rfl)
    (hleader : (f (s.task t)).groupLeader = (s.task t).groupLeader := by rfl)
    (hgroup : (f (s.task t)).threadGroup ⊆ (s.task t).threadGroup :=
      by exact List.Subset.refl _) :
    (s.setTask t f).Accounted :=
  h.relink t hres (fun ht => hleader ▸ h.leaders t ht) fun ht u hu => h.groups t ht u (hgroup hu)

theorem modifyObject (r : Resource) (f : r.Object → r.Object) :
    (s.modifyObject t r f).Accounted where
  nodup := h.nodup
  bound := h.bound
  current := h.current
  leaders := h.leaders
  groups := h.groups
  counted := by
    intro q
    by_cases hq : q = r
    · subst hq
      rw [modifyObject_objects_self]
      exact (h.counted q).modify _ f
    · rw [modifyObject_objects_of_ne _ _ _ hq]
      exact h.counted q

end

section

variable (h : s.Accounted) (ht : t ∈ s.tasks)
include h ht

/-- A task's pointer is exchanged: the new one has been counted, the old one is dropped. -/
theorem replaceObject {r : Resource} {table : RefTable r.Object}
    (hcounted : table.Counted (p :: s.held r)) : (s.replaceObject t r p table).Accounted where
  nodup := h.nodup
  bound := h.bound
  current := h.current
  leaders := by
    intro u hu
    rw [replaceObject_same (·.groupLeader) fun _ _ => rfl]
    exact h.leaders u hu
  groups := by
    intro u hu
    rw [replaceObject_same (·.threadGroup) fun _ _ => rfl]
    exact h.groups u hu
  counted := by
    intro q
    let f : Task → Task := fun task =>
      { task with resources := update task.resources r p }
    change (update s.objects r (table.put ((s.task t).resources r)) q).Counted
      ((s.setTask t f).held q)
    by_cases hq : q = r
    · subst hq
      have hnew := held_perm (s := s.setTask t f) (t := t) ht q
      rw [heldByOthers_setTask h.nodup, setTask_task_self] at hnew
      simp only [f, update_self] at hnew
      have hswap : (p :: s.held q).Perm ((s.task t).resources q :: p :: s.heldByOthers t q) :=
        ((held_perm ht q).cons p).trans (List.Perm.swap _ _ _)
      rw [update_self]
      exact (hcounted.perm hswap).put.perm hnew.symm
    · rw [update_of_ne hq, held_setTask s t f q (update_of_ne hq _ _)]
      exact h.counted q

theorem newObject (r : Resource) (v : r.Object) : (s.newObject t r v).Accounted :=
  h.replaceObject ht ((h.counted r).alloc v)

theorem shareWithCurrent (r : Resource) : (s.shareWithCurrent t r).Accounted :=
  h.replaceObject ht ((h.counted r).get (mem_held h.current r))

theorem dropObject (r : Resource) : (s.dropObject t r).Accounted :=
  h.replaceObject ht (h.counted r).cons_none

end

end Accounted

end System

end CuteOS.Kernel
