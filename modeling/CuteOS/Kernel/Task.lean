/-
  Kernel/Task.lean --- tasks, the objects they share, and the state of the system.

  Sources: `include/kernel/task.h`, `include/kernel/signal.h`, `include/uapi/signal.h`,
  `include/kernel/fdtable.h`, `include/kernel/rseq_types.h`.

  A `task_struct` is known by a number.  The five objects a task points to (address
  space, descriptor table, file-system context, signal handlers, thread-group signal
  state) live in tables of reference-counted objects; what the functions modelled here
  do not read (identities for job control, accounting, `siginfo_t` payloads, the
  contents of kernel stacks) is left out.
-/
import CuteOS.Kernel.Types
import CuteOS.Lib.RefTable

set_option autoImplicit false

namespace CuteOS.Kernel

open CuteOS.Lib

/-- A `struct task_struct *`. -/
abbrev TaskId := Nat

/-- `TASK_*`. -/
inductive TaskState where
  | running
  | uninterruptible
  | interruptible
  | killable
  | zombie
  | dead
  | stopped
  deriving DecidableEq, Repr, Inhabited

/-- `state & TASK_ANY_SLEEP`. -/
def TaskState.anySleep : TaskState → Bool
  | .uninterruptible | .interruptible | .killable => true
  | _ => false

/-- `uint64_t` signal masks; bit `n` stands for signal `n + 1`. -/
abbrev SigSet := BitVec 64

/-- `struct sigaction`; a handler is `SIG_DFL`, `SIG_IGN` or a user address. -/
structure SigAction where
  saHandler : Nat := 0
  saFlags : BitVec 64 := 0
  saRestorer : Nat := 0
  saMask : SigSet := 0
  deriving DecidableEq, Repr, Inhabited

/-- `SIG_DFL`. -/
def sigDfl : Nat := 0

/-- `SIG_IGN`. -/
def sigIgn : Nat := 1

/-- `struct stack_t` with its two flags `SS_ONSTACK` and `SS_DISABLE`. -/
structure AltStack where
  ssSp : Nat := 0
  ssOnstack : Bool := false
  ssDisable : Bool := false
  ssSize : Nat := 0
  deriving DecidableEq, Repr, Inhabited

/-- `struct signal_frame_state` without its link: the frames are a list. -/
structure SignalFrame where
  sp : Nat
  sig : Nat
  deriving DecidableEq, Repr

/-- `struct task_signal_context`; `restore_mask` and `restore_mask_pending` are one
option, user pointers are addresses with 0 for NULL. -/
structure SignalContext where
  blocked : SigSet := 0
  pending : SigSet := 0
  forcedPending : SigSet := 0
  signalFrames : List SignalFrame := []
  restoreMask : Option SigSet := none
  sas : AltStack := { ssDisable := true }
  clearChildTid : Nat := 0
  robustList : Nat := 0
  robustListLen : Nat := 0
  deriving DecidableEq, Repr, Inhabited

/-- `struct restart_context`. -/
structure RestartContext where
  pc : Nat := 0
  args : Fin 6 → Nat := fun _ => 0
  nr : Nat := 0
  valid : Bool := false
  restartable : Bool := false
  deriving Inhabited

/-- `struct rseq_task_context`. -/
structure RseqContext where
  area : Nat := 0
  len : Nat := 0
  sig : Nat := 0
  needUpdate : Bool := false
  deriving DecidableEq, Repr, Inhabited

/-- The five kinds of objects that `struct task_resources` points to. -/
inductive Resource where
  | mm
  | files
  | fs
  | sighand
  | signal
  deriving DecidableEq, Repr

/-- The pointers of `struct task_resources`. -/
abbrev TaskResources := Resource → Option Nat

/-- There are eight argument registers. -/
instance neZeroArgs : NeZero 8 := ⟨by decide⟩

/-- The user registers of a `struct trap_frame` that the modelled functions use. -/
structure TrapFrame where
  sepc : Nat := 0
  ra : Nat := 0
  sp : Nat := 0
  a : Fin 8 → Nat := fun _ => 0
  deriving Inhabited

/-- `enum task_child_event_type`. -/
inductive ChildEventType where
  | exit
  | stop
  | continue
  deriving DecidableEq, Repr

/-- `struct task_child_event_record`. -/
structure ChildEvent where
  type : ChildEventType
  status : Nat
  claimer : Option TaskId := none
  deriving DecidableEq, Repr

/-- `struct task_struct`, as `task_alloc` fills it. -/
structure Task where
  groupLeader : TaskId
  parent : Option TaskId := none
  children : List TaskId := []
  threadGroup : List TaskId := []
  state : TaskState := .running
  published : Bool := false
  exitCode : Nat := 0
  exitSignal : Nat := 17
  childEvents : List ChildEvent := []
  userProcess : Bool := false
  vforkActive : Bool := false
  vforkCompleted : Bool := false
  resources : TaskResources := fun _ => none
  sigctx : SignalContext := {}
  restart : RestartContext := {}
  rseq : RseqContext := {}
  tf : TrapFrame := {}
  deriving Inhabited

/-- `struct files_struct`: open files by descriptor, and `close_on_exec`. -/
structure FilesStruct where
  fd : Fin 32 → Option Nat
  closeOnExec : BitVec 64

/-- `struct fs_struct`; a path is known by a number. -/
structure FsStruct where
  root : Nat
  cwd : Nat
  umask : Nat

/-- `struct sighand_struct`. -/
abbrev SigActions := Nat → SigAction

/-- `struct signal_struct`: the process-directed pending signals, the number of armed
POSIX timers and the resource limits. -/
structure SignalStruct where
  sharedPending : SigSet := 0
  posixTimers : Nat := 0
  rlimits : Fin 16 → Nat := fun _ => 0

/-- What user code sees in an address space. -/
abbrev UserMemory := Nat → UInt8

/-- The objects of each kind. -/
abbrev Resource.Object : Resource → Type
  | .mm => UserMemory
  | .files => FilesStruct
  | .fs => FsStruct
  | .sighand => SigActions
  | .signal => SignalStruct

/-- The tasks that have been allocated, the objects they share and `current_task()`.
A task that has been freed stays in the list as `TASK_DEAD`. -/
structure System where
  task : TaskId → Task
  tasks : List TaskId
  nextTask : TaskId
  current : TaskId
  initTask : Option TaskId
  exitedThreads : List TaskId := []
  objects : (r : Resource) → RefTable r.Object

namespace System

/-- Write to one `task_struct`. -/
def setTask (s : System) (t : TaskId) (f : Task → Task) : System :=
  { s with task := Function.update s.task t (f (s.task t)) }

/-- Write to the signal context of a task. -/
def setSigctx (s : System) (t : TaskId) (f : SignalContext → SignalContext) : System :=
  s.setTask t fun task => { task with sigctx := f task.sigctx }

/-- `task_set_state`. -/
def setState (s : System) (t : TaskId) (state : TaskState) : System :=
  s.setTask t fun task => { task with state := state }

section SetTask

variable (s : System) (t u : TaskId) (f : Task → Task)

@[simp] theorem setTask_task_self : (s.setTask t f).task t = f (s.task t) := by
  simp [setTask]

@[simp] theorem setTask_task_of_ne {t u : TaskId} (h : u ≠ t) :
    (s.setTask t f).task u = s.task u := by
  simp [setTask, h]

theorem setTask_task : (s.setTask t f).task u = if u = t then f (s.task t) else s.task u := by
  by_cases h : u = t
  · subst h
    simp
  · simp [h]

variable {s t f} in
/-- A projection that the write leaves alone. -/
theorem setTask_same {β : Type} (g : Task → β) (hg : g (f (s.task t)) = g (s.task t))
    (u : TaskId) : g ((s.setTask t f).task u) = g (s.task u) := by
  rw [setTask_task]
  split_ifs with hu
  · rw [hg, hu]
  · rfl

@[simp] theorem setTask_initTask : (s.setTask t f).initTask = s.initTask := rfl

@[simp] theorem setTask_objects : (s.setTask t f).objects = s.objects := rfl

theorem setSigctx_setSigctx (s : System) (t : TaskId) (f g : SignalContext → SignalContext) :
    (s.setSigctx t f).setSigctx t g = s.setSigctx t fun c => g (f c) := by
  unfold setSigctx setTask
  simp

end SetTask

/-- `task_group_has_other_threads`. -/
def groupHasOtherThreads (s : System) (t : TaskId) : Bool :=
  !(s.task (s.task t).groupLeader).threadGroup.isEmpty

/-- `task_is_group_leader`. -/
def isGroupLeader (s : System) (t : TaskId) : Bool := (s.task t).groupLeader == t

/-- The object a task points to. -/
def object (s : System) (t : TaskId) (r : Resource) : Option r.Object :=
  (s.objects r).val? ((s.task t).resources r)

/-- Change the object a task points to. -/
def modifyObject (s : System) (t : TaskId) (r : Resource) (f : r.Object → r.Object) : System :=
  { s with
    objects := Function.update s.objects r ((s.objects r).modify ((s.task t).resources r) f) }

section

variable (s : System) (t : TaskId) (r : Resource) (f : r.Object → r.Object)
include s t r f

@[simp] theorem modifyObject_task : (s.modifyObject t r f).task = s.task := rfl

theorem modifyObject_objects_self :
    (s.modifyObject t r f).objects r = (s.objects r).modify ((s.task t).resources r) f := by
  simp [modifyObject]

end

theorem modifyObject_objects_of_ne (s : System) (t : TaskId) {r q : Resource}
    (f : r.Object → r.Object) (h : q ≠ r) :
    (s.modifyObject t r f).objects q = s.objects q := by
  simp [modifyObject, h]

/-- `sigaction` of a task, all zero without a handler table. -/
def sigaction (s : System) (t : TaskId) (sig : Nat) : SigAction :=
  match s.object t .sighand with
  | none => {}
  | some actions => actions sig

/-- `signal->shared_pending` of a task. -/
def sharedPending (s : System) (t : TaskId) : SigSet :=
  match s.object t .signal with
  | none => 0
  | some signal => signal.sharedPending

end System

end CuteOS.Kernel
