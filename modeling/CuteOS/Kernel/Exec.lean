/-
  Kernel/Exec.lean --- replacing the image of a process.

  Sources: `kernel/exec.c` (`kernel_execve`), of `kernel/signal.c` `signals_execve` and
  `signal_clear_frames`, of `kernel/rseq.c` `rseq_execve`, of `fs/vfs/fdtable.c`
  `files_unshare_for_exec` and `files_close_on_exec`.

  Opening and loading the image are known by their outcome.
-/
import CuteOS.Kernel.Clone

set_option autoImplicit false

namespace CuteOS.Kernel

open CuteOS.Lib

/-- What `load_elf_file` builds. -/
structure ExecImage where
  memory : UserMemory
  entry : Nat
  sp : Nat

/-- The outcomes of `open_exec_image` and `load_elf_file`, and whether `files_dup` finds
memory. -/
structure ExecEnv where
  openImage : Except Errno Unit := .ok ()
  load : Except Errno ExecImage
  mem : Bool := true

namespace System

/-- `signals_execve`: every action that does not ignore its signal is zeroed. -/
def signalsExecve (actions : SigActions) : SigActions := fun sig =>
  if signalIsValid sig && (actions sig).saHandler != sigIgn then {} else actions sig

/-- The test of `files_unshare_for_exec`: somebody else uses the descriptor table. -/
def filesShared (s : System) (t : TaskId) : Bool :=
  let p := (s.task t).resources .files
  p.isSome && (s.objects .files).refs p != 1

/-- `files_unshare_for_exec`. -/
def filesUnshareForExec (mem : Bool) : Prog Errno System Unit := do
  let s ← Prog.read
  if s.filesShared s.current then
    Prog.require mem .enomem
    Prog.update fun s => s.newObject s.current .files (filesDup (s.object s.current .files))
  else
    Prog.ret ()

/-- `install_exec_mm` and `task_mark_user_process`.  The new address space has been
counted by `load_elf_file`; the old one is dropped. -/
def installExecMm (image : ExecImage) (t : TaskId) (s : System) : System :=
  (s.newObject t .mm image.memory).setTask t fun task =>
    { task with tf := { sepc := image.entry, sp := image.sp }, userProcess := true }

/-- The private state of the task that `kernel_execve` resets: the signal frames, the
restart context and the rseq registration. -/
def resetTask (task : Task) : Task :=
  { task with
    sigctx := { task.sigctx with signalFrames := [] }
    restart := {}
    rseq := {} }

/-- The shared objects of the task that `kernel_execve` changes in place: descriptors marked
close-on-exec, signal actions and POSIX timers. -/
def resetObjects (t : TaskId) (s : System) : System :=
  ((s.modifyObject t .files filesCloseOnExec).modifyObject t .sighand signalsExecve).modifyObject
    t .signal fun signal => { signal with posixTimers := 0 }

/-- What `kernel_execve` does once nothing can fail any more. -/
def commitExec (image : ExecImage) (t : TaskId) (s : System) : System :=
  (((s.installExecMm image t).resetObjects t).setTask t resetTask).completeVfork t

/-- `kernel_execve`.  If the descriptor table cannot be copied the new address space is
dropped again, so it is entered in the table only afterwards. -/
def kernelExecve (env : ExecEnv) : Prog Errno System Unit := do
  let s ← Prog.read
  Prog.require (!s.groupHasOtherThreads s.current) .einval
  Prog.lift env.openImage
  let image ← Prog.lift env.load
  filesUnshareForExec env.mem
  Prog.update (commitExec image s.current)

/-- The system after `files_unshare_for_exec` has succeeded. -/
def unshareFiles (s : System) : System :=
  if s.filesShared s.current then
    s.newObject s.current .files (filesDup (s.object s.current .files))
  else s

/-- `kernel_execve` succeeds: the caller has its group for itself, the image loads, and
the descriptor table is private or can be copied. -/
structure ExecSucceeds (s : System) (env : ExecEnv) (image : ExecImage) : Prop where
  alone : s.groupHasOtherThreads s.current = false
  opened : env.openImage = .ok ()
  loaded : env.load = .ok image
  files : s.filesShared s.current = true → env.mem = true

theorem filesUnshareForExec_spec (s : System) (mem : Bool) :
    (filesUnshareForExec mem s = (.ok (), s.unshareFiles) ∧
        (s.filesShared s.current = true → mem = true)) ∨
      (filesUnshareForExec mem s = (.error .enomem, s) ∧ s.filesShared s.current = true ∧
        mem = false) := by
  unfold filesUnshareForExec unshareFiles
  rw [Prog.read_bind]
  cases hshared : s.filesShared s.current with
  | false => exact .inl ⟨rfl, fun h => by cases h⟩
  | true =>
    cases mem with
    | false => exact .inr ⟨rfl, rfl, rfl⟩
    | true => exact .inl ⟨rfl, fun _ => rfl⟩

/-- Either everything happens or nothing. -/
theorem kernelExecve_cases (s : System) (env : ExecEnv) : (∃ image, ExecSucceeds s env image ∧
        kernelExecve env s = (.ok (), s.unshareFiles.commitExec image s.current)) ∨
      ((∀ image, ¬ExecSucceeds s env image) ∧ ∃ e, kernelExecve env s = (.error e, s)) := by
  unfold kernelExecve
  rw [Prog.read_bind]
  cases halone : s.groupHasOtherThreads s.current with
  | true =>
    refine .inr ⟨fun image h => ?_, .einval, rfl⟩
    rw [h.alone] at halone
    cases halone
  | false =>
    rw [Prog.require_bind_of_true (by rfl)]
    cases hopen : env.openImage with
    | error e =>
      refine .inr ⟨fun image h => ?_, e, rfl⟩
      rw [h.opened] at hopen
      cases hopen
    | ok u =>
      cases hload : env.load with
      | error e =>
        refine .inr ⟨fun image h => ?_, e, rfl⟩
        rw [h.loaded] at hload
        cases hload
      | ok image =>
        rw [Prog.bind_of_ok (Prog.lift_apply _ _), Prog.bind_of_ok (Prog.lift_apply _ _)]
        cases filesUnshareForExec_spec s env.mem with
        | inl hok =>
          refine .inl ⟨image, ⟨halone, hopen, hload, hok.2⟩, ?_⟩
          rw [Prog.bind_of_ok hok.1]
          rfl
        | inr herr =>
          obtain ⟨hrun, hshared, hmem⟩ := herr
          refine .inr ⟨fun image' h => ?_, .enomem, ?_⟩
          · rw [h.files hshared] at hmem
            cases hmem
          · rw [Prog.bind_of_error hrun]

/-! ## The task and its objects afterwards -/

section Commit

variable (s : System) (image : ExecImage)

@[simp] theorem unshareFiles_current : s.unshareFiles.current = s.current := by
  unfold unshareFiles
  split <;> rfl

variable {u : TaskId}

theorem unshareFiles_task_of_ne (hu : u ≠ s.current) : s.unshareFiles.task u = s.task u := by
  unfold unshareFiles
  split
  · exact replaceObject_task_of_ne s _ _ _ hu
  · rfl

/-- Copying the descriptor table touches no other field of the task. -/
theorem unshareFiles_task_current : s.unshareFiles.task s.current = { s.task s.current with
      resources := (s.unshareFiles.task s.current).resources } := by
  unfold unshareFiles
  split
  · rw [newObject, replaceObject_task, if_pos rfl]
  · rfl

variable {r : Resource}

theorem unshareFiles_pointer (hr : r ≠ .files) :
    (s.unshareFiles.task s.current).resources r = (s.task s.current).resources r := by
  unfold unshareFiles
  split
  · exact replaceObject_pointer_of_ne s _ _ _ hr
  · rfl

theorem unshareFiles_objects (hr : r ≠ .files) : s.unshareFiles.objects r = s.objects r := by
  unfold unshareFiles
  split
  · exact replaceObject_objects_of_ne s _ _ _ hr
  · rfl

variable {t : TaskId}

theorem completeVfork_task_of_ne (hu : u ≠ t) : (s.completeVfork t).task u = s.task u := by
  unfold completeVfork
  split
  · exact setTask_task_of_ne s _ hu
  · rfl

theorem completeVfork_task_self (t : TaskId) : (s.completeVfork t).task t =
      { s.task t with vforkCompleted := ((s.completeVfork t).task t).vforkCompleted } := by
  unfold completeVfork
  split
  · rw [setTask_task_self]
  · rfl

theorem completeVfork_objects (t : TaskId) : (s.completeVfork t).objects = s.objects := by
  unfold completeVfork
  split <;> rfl

theorem resetObjects_task (t : TaskId) : (s.resetObjects t).task = s.task := rfl

theorem commitExec_task_of_ne (hu : u ≠ t) : (s.commitExec image t).task u = s.task u := by
  rw [commitExec, completeVfork_task_of_ne _ hu, setTask_task_of_ne _ _ hu, resetObjects_task,
    installExecMm, setTask_task_of_ne _ _ hu]
  exact replaceObject_task_of_ne s _ _ _ hu

/-- The private state after the call: the frames, the restart context and the rseq
registration are gone, the rest of the signal context stays. -/
theorem commitExec_task_self (t : TaskId) :
    ((s.commitExec image t).task t).sigctx = { (s.task t).sigctx with signalFrames := [] } ∧
      ((s.commitExec image t).task t).restart = {} ∧
      ((s.commitExec image t).task t).rseq = {} := by
  rw [commitExec, completeVfork_task_self, setTask_task_self, resetObjects_task, installExecMm,
    setTask_task_self, newObject, replaceObject_task, if_pos rfl]
  exact ⟨rfl, rfl, rfl⟩

theorem commitExec_pointer (hr : r ≠ .mm) :
    ((s.commitExec image t).task t).resources r = (s.task t).resources r := by
  rw [commitExec, completeVfork_task_self, setTask_task_self, resetObjects_task, installExecMm,
    setTask_task_self]
  exact replaceObject_pointer_of_ne s t _ _ hr

theorem commitExec_objects (t : TaskId) :
    (s.commitExec image t).objects = ((s.installExecMm image t).resetObjects t).objects :=
  completeVfork_objects _ t

theorem resetObjects_objects_sighand (t : TaskId) : (s.resetObjects t).objects .sighand =
      (s.objects .sighand).modify ((s.task t).resources .sighand) signalsExecve := by
  rw [resetObjects, modifyObject_objects_of_ne _ _ _ (by decide), modifyObject_objects_self,
    modifyObject_objects_of_ne _ _ _ (by decide), modifyObject_task]

theorem installExecMm_objects (hr : r ≠ .mm) :
    (s.installExecMm image t).objects r = s.objects r := by
  rw [installExecMm, setTask_objects]
  exact replaceObject_objects_of_ne s t _ _ hr

theorem installExecMm_pointer (hr : r ≠ .mm) :
    ((s.installExecMm image t).task t).resources r = (s.task t).resources r := by
  rw [installExecMm, setTask_task_self]
  exact replaceObject_pointer_of_ne s t _ _ hr

variable (t)

theorem commitExec_objects_sighand : (s.commitExec image t).objects .sighand =
      (s.objects .sighand).modify ((s.task t).resources .sighand) signalsExecve := by
  rw [commitExec_objects, resetObjects_objects_sighand, installExecMm_objects _ _ (by decide),
    installExecMm_pointer _ _ (by decide)]

theorem commitExec_objects_files : (s.commitExec image t).objects .files =
      (s.objects .files).modify ((s.task t).resources .files) filesCloseOnExec := by
  rw [commitExec_objects, resetObjects, modifyObject_objects_of_ne _ _ _ (by decide),
    modifyObject_objects_of_ne _ _ _ (by decide), modifyObject_objects_self,
    installExecMm_objects _ _ (by decide), installExecMm_pointer _ _ (by decide)]

theorem commitExec_objects_fs : (s.commitExec image t).objects .fs = s.objects .fs := by
  rw [commitExec_objects, resetObjects, modifyObject_objects_of_ne _ _ _ (by decide),
    modifyObject_objects_of_ne _ _ _ (by decide), modifyObject_objects_of_ne _ _ _ (by decide),
    installExecMm_objects _ _ (by decide)]

theorem commitExec_objects_mm : (s.commitExec image t).objects .mm =
      ((s.objects .mm).alloc image.memory).put ((s.task t).resources .mm) := by
  rw [commitExec_objects, resetObjects, modifyObject_objects_of_ne _ _ _ (by decide),
    modifyObject_objects_of_ne _ _ _ (by decide), modifyObject_objects_of_ne _ _ _ (by decide),
    installExecMm, setTask_objects]
  exact replaceObject_objects_self s t _ _ _

end Commit

/-! ## What the task keeps of the old image -/

/-- No user address of the old image is left in the kernel state of a task: no alternate
stack, no robust list, no word to clear at exit, no rseq area, no signal frame, no restart
context and no handler. -/
structure ForgetsImage (s : System) (t : TaskId) : Prop where
  altstack : (s.task t).sigctx.sas.ssDisable = true
  robustList : (s.task t).sigctx.robustList = 0
  clearChildTid : (s.task t).sigctx.clearChildTid = 0
  rseq : (s.task t).rseq.area = 0
  frames : (s.task t).sigctx.signalFrames = []
  restart : (s.task t).restart.valid = false
  handlers : ∀ sig, signalIsValid sig = true →
    s.sigaction t sig = {} ∨ (s.sigaction t sig).saHandler = sigIgn

theorem signalsExecve_forgets (actions : SigActions) {sig : Nat}
    (hvalid : signalIsValid sig = true) :
    signalsExecve actions sig = {} ∨ (signalsExecve actions sig).saHandler = sigIgn := by
  unfold signalsExecve
  split
  · exact .inl rfl
  · rename_i hkeep
    rw [hvalid, Bool.true_and, bne_iff_ne, Decidable.not_not] at hkeep
    exact .inr hkeep

/-- The dispositions of the caller after a successful call. -/
theorem sigaction_commitExec (s : System) (image : ExecImage) (t : TaskId) {sig : Nat}
    (hvalid : signalIsValid sig = true) :
    (s.commitExec image t).sigaction t sig = {} ∨
      ((s.commitExec image t).sigaction t sig).saHandler = sigIgn := by
  rw [sigaction, object, commitExec_objects_sighand, commitExec_pointer _ _ (by decide),
    RefTable.val?_modify_self]
  cases (s.objects .sighand).val? ((s.task t).resources .sighand) with
  | none => exact .inl rfl
  | some actions => exact signalsExecve_forgets actions hvalid

/-- A successful `execve` forgets the old image if and only if the caller had no alternate
stack, no robust list and no `clear_child_tid` to begin with: these three are not reset. -/
theorem kernelExecve_forgets_iff (s s' : System) (env : ExecEnv)
    (hrun : kernelExecve env s = (.ok (), s')) :
    s'.ForgetsImage s.current ↔ (s.task s.current).sigctx.sas.ssDisable = true ∧
        (s.task s.current).sigctx.robustList = 0 ∧
        (s.task s.current).sigctx.clearChildTid = 0 := by
  have hs' : ∃ image, s' = s.unshareFiles.commitExec image s.current := by
    cases kernelExecve_cases s env with
    | inl hok =>
      obtain ⟨image, -, heq⟩ := hok
      rw [hrun] at heq
      exact ⟨image, (Prod.mk.inj heq).2⟩
    | inr herr =>
      obtain ⟨-, e, heq⟩ := herr
      rw [hrun] at heq
      cases (Prod.mk.inj heq).1
  obtain ⟨image, rfl⟩ := hs'
  obtain ⟨hsigctx, hrestart, hrseq⟩ := commitExec_task_self s.unshareFiles image s.current
  have hold : (s.unshareFiles.task s.current).sigctx = (s.task s.current).sigctx := by
    rw [unshareFiles_task_current]
  rw [hold] at hsigctx
  constructor
  · intro h
    have haltstack := h.altstack
    have hrobust := h.robustList
    have htid := h.clearChildTid
    rw [hsigctx] at haltstack hrobust htid
    exact ⟨haltstack, hrobust, htid⟩
  · intro h
    refine ⟨?_, ?_, ?_, ?_, ?_, ?_, ?_⟩
    · rw [hsigctx]
      exact h.1
    · rw [hsigctx]
      exact h.2.1
    · rw [hsigctx]
      exact h.2.2
    · rw [hrseq]
    · rw [hsigctx]
    · rw [hrestart]
    · intro sig hvalid
      exact sigaction_commitExec s.unshareFiles image s.current hvalid

/-- A process alone in its group, with the given signal context. -/
def soloSystem (c : SignalContext) : System where
  task := fun t => { groupLeader := t, sigctx := c }
  tasks := [1, 0]
  nextTask := 2
  current := 1
  initTask := some 1
  objects := fun _ => RefTable.empty

/-- An image that loads. -/
def plainImage : ExecEnv where
  load := .ok ⟨fun _ => 0, 0x10000, 0x7fff0000⟩

/-- A process that has registered a robust list keeps its address in the new image. -/
theorem kernelExecve_keeps_robustList :
    (kernelExecve plainImage (soloSystem { robustList := 0x20000, robustListLen := 24 })).1 =
        .ok () ∧
      ¬(kernelExecve plainImage
          (soloSystem { robustList := 0x20000, robustListLen := 24 })).2.ForgetsImage 1 := by
  refine ⟨rfl, ?_⟩
  intro h
  exact absurd h.robustList (by decide)

/-- The process in a handler of signal 10, with an rseq area and a system call that may be
restarted. -/
def inHandler : System :=
  ((soloSystem { signalFrames := [⟨0x7fff0000, 10⟩] }).newObject 1 .sighand fun _ =>
    { saHandler := 0x30000 }).setTask 1 fun task =>
      { task with restart := { valid := true }, rseq := { area := 0x40000 } }

theorem kernelExecve_forgets_inHandler : (inHandler.sigaction 1 10).saHandler = 0x30000 ∧
      ((inHandler.task 1).sigctx.signalFrames.length, (inHandler.task 1).rseq.area,
        (inHandler.task 1).restart.valid) = (1, 0x40000, true) ∧
      (kernelExecve plainImage inHandler).2.ForgetsImage 1 :=
  ⟨rfl, rfl, (kernelExecve_forgets_iff inHandler _ plainImage rfl).mpr ⟨rfl, rfl, rfl⟩⟩

end System

end CuteOS.Kernel
