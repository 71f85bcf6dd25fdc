/-
  Kernel/Sigreturn.lean --- returning from signal handlers.

  Source: `kernel/signal.c` (`setup_signal_frame`, `do_sigreturn`).

  `do_sigreturn` checks the frame that it reads back.  Some of the checks are about what
  only the user can have changed; the others refuse contexts that `setup_signal_frame`
  itself has saved: a stack pointer that is not aligned to 16, an alternate stack that is
  in use.
-/
import CuteOS.Fs.FileIo
import CuteOS.Kernel.Deliver

set_option autoImplicit false

namespace CuteOS.Kernel

open CuteOS.Fs (accessOk)

/-- A task in a trap.  `rest` are the registers `gp`, `tp`, `t0`-`t6` and `s0`-`s11`, which
the kernel does not touch. -/
structure UserTask where
  task : Task
  rest : Fin 21 → Nat

/-- `struct rt_sigframe`. -/
structure RtSigframe where
  siSigno : Nat
  ucFlags : Nat := 0
  ucLink : Nat := 0
  ucStack : AltStack
  ucSigmask : SigSet
  scRegs : TrapFrame
  scRest : Fin 21 → Nat
  scFpregs : Nat → Nat := fun _ => 0

/-- `MINSIGSTKSZ`. -/
def minsigstksz : Nat := 2048

/-- `sizeof(union riscv_fp_state)`. -/
def fpStateSize : Nat := 528

/-- The checks of `do_sigreturn` on the frame alone. -/
def RtSigframe.Acceptable (f : RtSigframe) : Prop :=
  f.ucFlags = 0 ∧ f.ucLink = 0 ∧
    (f.scRegs.sepc % 2 = 0 ∧ accessOk f.scRegs.sepc 1 = true) ∧
    (f.scRegs.sp % 16 = 0 ∧ f.scRegs.sp ≠ 0 ∧ accessOk (f.scRegs.sp - 1) 1 = true) ∧
    f.ucStack.ssOnstack = false ∧
    (f.ucStack.ssDisable = true ∨
      minsigstksz ≤ f.ucStack.ssSize ∧ accessOk f.ucStack.ssSp f.ucStack.ssSize = true) ∧
    ∀ index < fpStateSize, f.scFpregs index = 0

instance (f : RtSigframe) : Decidable f.Acceptable := by
  unfold RtSigframe.Acceptable
  infer_instance

namespace UserTask

/-- The mask that a frame saves. -/
def savedMask (t : UserTask) : SigSet := t.task.sigctx.restoreMask.getD t.task.sigctx.blocked

/-- The frame that `setup_signal_frame` fills. -/
def sigframe (t : UserTask) (sig : Nat) : RtSigframe where
  siSigno := sig
  ucStack := t.task.sigctx.sas
  ucSigmask := t.savedMask
  scRegs := t.task.tf
  scRest := t.rest

/-- `setup_signal_frame`: the frame and the task; `writable` says whether the frame can be
allocated and written. -/
def setupSignalFrame (t : UserTask) (sig : Nat) (action : SigAction) (writable : Bool) :
    Option (RtSigframe × UserTask) :=
  match System.chooseFrame t.task action with
  | none => none
  | some (sp, altstack) =>
    if accessOk sp System.sigframeSize && writable then
      some (t.sigframe sig, { t with task := System.enterHandler sig action sp altstack t.task })
    else none

/-- `do_sigreturn` with what it reads at the stack pointer; `none` is the exit with
`SIGSEGV`. -/
def doSigreturn (t : UserTask) (frame : Option RtSigframe) : Option UserTask :=
  match t.task.sigctx.signalFrames, frame with
  | state :: states, some f =>
    if state.sp = t.task.tf.sp ∧ f.siSigno = state.sig ∧ f.Acceptable then
      some {
        task := { t.task with
          tf := f.scRegs
          sigctx := { t.task.sigctx with
            blocked := f.ucSigmask &&& ~~~unblockableMask
            signalFrames := states
            sas := f.ucStack } }
        rest := f.scRest }
    else none
  | _, _ => none

/-- What a handler can do until it returns: anything but to leave signal frames behind, with
any handlers nested in it. -/
inductive Handled : UserTask → UserTask → Prop
  | refl (t : UserTask) : Handled t t
  | own {t t' u : UserTask} (h : Handled t t')
      (hframes : u.task.sigctx.signalFrames = t'.task.sigctx.signalFrames) : Handled t u
  | nested {t t' t₁ t₂ u : UserTask} {sig : Nat} {action : SigAction} {writable : Bool}
      {frame : RtSigframe} {read : Option RtSigframe} (h : Handled t t')
      (hsetup : t'.setupSignalFrame sig action writable = some (frame, t₁))
      (hinner : Handled t₁ t₂) (hreturn : t₂.doSigreturn read = some u) : Handled t u

/-- The registers, the mask and the alternate stack are those of the frame. -/
structure Restored (t t' : UserTask) : Prop where
  tf : t'.task.tf = t.task.tf
  rest : t'.rest = t.rest
  blocked : t'.task.sigctx.blocked = t.savedMask
  sas : t'.task.sigctx.sas = t.task.sigctx.sas

/-- The condition on the task that is interrupted: the pc is even and in user space, the
stack pointer is aligned and in user space, the task is not on its alternate stack, which is
disabled or large enough and in user space, and the mask leaves out what cannot be blocked. -/
structure Returnable (t : UserTask) : Prop where
  pc : t.task.tf.sepc % 2 = 0 ∧ accessOk t.task.tf.sepc 1 = true
  sp : t.task.tf.sp % 16 = 0 ∧ t.task.tf.sp ≠ 0 ∧ accessOk (t.task.tf.sp - 1) 1 = true
  notOnstack : t.task.sigctx.sas.ssOnstack = false
  stack : t.task.sigctx.sas.ssDisable = true ∨ minsigstksz ≤ t.task.sigctx.sas.ssSize ∧
    accessOk t.task.sigctx.sas.ssSp t.task.sigctx.sas.ssSize = true
  mask : t.savedMask &&& ~~~unblockableMask = t.savedMask

variable {t t' t₁ t₂ : UserTask} {sig : Nat} {action : SigAction} {writable : Bool}
  {frame : RtSigframe}

theorem setupSignalFrame_eq_some (h : t.setupSignalFrame sig action writable = some (frame, t₁)) :
    frame = t.sigframe sig ∧
      t₁.task.sigctx.signalFrames = ⟨t₁.task.tf.sp, sig⟩ :: t.task.sigctx.signalFrames := by
  unfold setupSignalFrame at h
  split at h
  · cases h
  split_ifs at h
  cases h
  exact ⟨rfl, rfl⟩

/-- `System.setupSignalFrame` does this to the task, when its frame can be written. -/
theorem setupSignalFrame_system {s : System} {id : TaskId} (htask : s.task id = t.task)
    (h : t.setupSignalFrame sig action writable = some (frame, t₁)) :
    s.setupSignalFrame id sig action true = some (s.setTask id fun _ => t₁.task) := by
  unfold setupSignalFrame at h
  rw [System.setupSignalFrame, htask]
  split at h
  · cases h
  split_ifs at h
  cases h
  simp [System.setTask, *]

theorem doSigreturn_eq_some {read : Option RtSigframe} (h : t.doSigreturn read = some t') :
    ∃ state, t.task.sigctx.signalFrames = state :: t'.task.sigctx.signalFrames := by
  unfold doSigreturn at h
  split at h
  · rename_i state states f hframes
    split_ifs at h
    cases h
    exact ⟨state, hframes⟩
  · cases h

/-- A handler leaves the frames of the task as it found them. -/
theorem Handled.signalFrames (h : Handled t t') :
    t'.task.sigctx.signalFrames = t.task.sigctx.signalFrames := by
  induction h with
  | refl t => rfl
  | own _ hframes ih => rw [hframes, ih]
  | nested _ hsetup _ hreturn ih ihinner =>
    obtain ⟨-, hpush⟩ := setupSignalFrame_eq_some hsetup
    obtain ⟨state, hpop⟩ := doSigreturn_eq_some hreturn
    rw [ihinner, hpush] at hpop
    rw [← ih, (List.cons_eq_cons.mp hpop).2]

/-- A handler that returns through the trampoline with its frame as it was restores the
context, whatever was nested in it, just when the task could be interrupted so. -/
theorem sigreturn_restores_iff (hsetup : t.setupSignalFrame sig action writable = some (frame, t₁))
    (hhandled : Handled t₁ t₂) (hsp : t₂.task.tf.sp = t₁.task.tf.sp) :
    (∃ t', t₂.doSigreturn (some frame) = some t' ∧ Restored t t') ↔ t.Returnable := by
  obtain ⟨rfl, hpush⟩ := setupSignalFrame_eq_some hsetup
  have htop : t₂.task.sigctx.signalFrames = ⟨t₂.task.tf.sp, sig⟩ :: t.task.sigctx.signalFrames := by
    rw [hhandled.signalFrames, hpush, hsp]
  unfold doSigreturn
  constructor
  · rintro ⟨t', hreturn, hrestored⟩
    rw [htop] at hreturn
    dsimp only at hreturn
    split_ifs at hreturn with hok
    obtain ⟨-, -, -, -, hpc, hsp, hnot, hstack, -⟩ := hok
    cases hreturn
    exact ⟨hpc, hsp, hnot, hstack, hrestored.blocked⟩
  · intro h
    have hok : (t.sigframe sig).Acceptable :=
      ⟨rfl, rfl, h.pc, h.sp, h.notOnstack, h.stack, fun _ _ => rfl⟩
    rw [htop]
    dsimp only
    rw [if_pos ⟨rfl, rfl, hok⟩]
    exact ⟨_, rfl, rfl, rfl, h.mask, rfl⟩

/-! ## A stack pointer that is not aligned -/

/-- A handler for `SIGUSR1`. -/
def usr1Action : SigAction := { saHandler := 0x2000 }

/-- A task interrupted at `0x1000` with this stack pointer. -/
def interruptedWith (sp : Nat) : UserTask where
  task := { groupLeader := 1, tf := { sepc := 0x1000, sp := sp } }
  rest := fun _ => 0

theorem sigreturn_restores_aligned : ∃ frame t₁ t',
    (interruptedWith 0x10000).setupSignalFrame 10 usr1Action true = some (frame, t₁) ∧
      t₁.doSigreturn (some frame) = some t' ∧ Restored (interruptedWith 0x10000) t' := by
  have hreturnable : (interruptedWith 0x10000).Returnable := by
    refine ⟨by decide, by decide, rfl, .inl rfl, by decide⟩
  have hsetup : ((interruptedWith 0x10000).setupSignalFrame 10 usr1Action true).isSome := by decide
  obtain ⟨⟨frame, t₁⟩, hsetup⟩ := Option.isSome_iff_exists.mp hsetup
  obtain ⟨t', hreturn⟩ := (sigreturn_restores_iff hsetup (.refl t₁) rfl).mpr hreturnable
  exact ⟨frame, t₁, t', hsetup, hreturn⟩

/-- The stack pointer is a multiple of 8 only: the handler is entered, and its return kills
the task. -/
theorem sigreturn_kills_unaligned : ∃ frame t₁,
    (interruptedWith 0x10008).setupSignalFrame 10 usr1Action true = some (frame, t₁) ∧
      t₁.doSigreturn (some frame) = none := by
  have hsetup : ((interruptedWith 0x10008).setupSignalFrame 10 usr1Action true).any (fun r =>
      (r.2.doSigreturn (some r.1)).isNone) = true := by decide
  obtain ⟨⟨frame, t₁⟩, hsetup, hkilled⟩ := (Option.any_eq_true _ _).mp hsetup
  exact ⟨frame, t₁, hsetup, Option.isNone_iff_eq_none.mp hkilled⟩

end UserTask

end CuteOS.Kernel
