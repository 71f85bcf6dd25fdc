/-
  Kernel/Deliver.lean --- delivering signals on the way back to user mode.

  Sources: `kernel/signal.c` (`do_signal`, `setup_signal_frame`, `stop_current`), the
  restart context of `syscall/syscall.c`, `kernel/user_return.c`.

  One turn of the loop in `do_signal` is one step of the current task.  The contents of
  user memory are not modelled: whether the rseq area and the signal frame can be
  accessed is an input.
-/
import CuteOS.Kernel.Exit

set_option autoImplicit false

namespace CuteOS.Kernel

open CuteOS.Lib

/-! ## Restart contexts -/

/-- `SYS_read` and the other numbers of `uapi/syscall.h`. -/
def sysRead : Nat := 63
def sysWrite : Nat := 64
def sysPpoll : Nat := 73
def sysFutex : Nat := 98
def sysNanosleep : Nat := 101
def sysRtSigsuspend : Nat := 133
def sysWait4 : Nat := 260

/-- `FUTEX_WAIT` after `FUTEX_PRIVATE_FLAG` (128) and `FUTEX_CLOCK_REALTIME` (256) have been
masked out of a 64-bit argument. -/
def isFutexWait (op : Nat) : Bool := BitVec.ofNat 64 op &&& ~~~(128#64 ||| 256#64) == 0

/-- `is_restartable`. -/
def isRestartable (tf : TrapFrame) (nr : Nat) : Bool :=
  nr == sysRead || nr == sysWrite || nr == sysWait4 ||
    (nr == sysFutex && (isFutexWait (tf.a 1) && tf.a 3 == 0))

/-- `restart_save`; the trap handler has moved the pc past the `ecall`. -/
def restartSave (tf : TrapFrame) (nr : Nat) : RestartContext where
  pc := tf.sepc - 4
  args := fun i => tf.a ⟨i.val, by omega⟩
  nr := nr
  valid := true
  restartable := isRestartable tf nr

/-- The frame that executes the system call again. -/
def restartFrame (context : RestartContext) (tf : TrapFrame) : TrapFrame :=
  { tf with
    sepc := context.pc
    a := fun i =>
      if h : i.val < 6 then context.args ⟨i.val, h⟩
      else if i.val = 7 then context.nr
      else tf.a i }

/-- `SA_*`, where `do_signal` looks at them. -/
def saOnstack : BitVec 64 := 0x08000000
def saRestart : BitVec 64 := 0x10000000
def saNodefer : BitVec 64 := 0x40000000
def saResethand : BitVec 64 := 0x80000000

/-- `action.sa_flags & flag`. -/
def SigAction.hasFlag (action : SigAction) (flag : BitVec 64) : Bool := action.saFlags &&& flag != 0

/-- Whether user memory can be accessed while a handler is prepared: the rseq area (with
the abort address that `rseq_signal_deliver` may put in the pc) and the signal frame. -/
structure DeliverEnv where
  rseq : Except Errno (Option Nat) := .ok none
  frame : Bool := true
  exit : ExitEnv := {}

/-- How one turn of `do_signal` ends. -/
inductive Delivery where
  /-- `return` without a signal. -/
  | none
  /-- `continue`. -/
  | again
  /-- The task has stopped itself and continues when it is woken. -/
  | stopped
  /-- `return` with a handler frame. -/
  | handler
  /-- The task has exited. -/
  | exited
  deriving DecidableEq, Repr

namespace System

/-- `restart_for_signal`. -/
def restartForSignal (s : System) (t : TaskId) (saRestart : Bool) : System :=
  let context := (s.task t).restart
  if !context.valid then s
  else if !saRestart || !context.restartable then s.restartClear t
  else
    s.setTask t fun task =>
      { task with tf := restartFrame task.restart task.tf, restart := {} }

/-- Take the signal that `next_signal` has chosen. -/
def takeSignal (s : System) (t : TaskId) (sig : Nat) (shared : Bool) : System :=
  if shared then s.setSharedPending t fun pending => pending &&& ~~~signalMask sig
  else s.signalClearPending t (signalMask sig)

theorem takeSignal_shared (s : System) (t : TaskId) (sig : Nat) :
    s.takeSignal t sig true = s.setSharedPending t fun pending => pending &&& ~~~signalMask sig :=
  rfl

theorem takeSignal_own (s : System) (t : TaskId) (sig : Nat) :
    s.takeSignal t sig false = s.signalClearPending t (signalMask sig) := rfl

/-- Take the signal, and drop the restart context when no handler will run. -/
def dequeueSignal (s : System) (t : TaskId) (sig : Nat) (shared : Bool) : System :=
  let handler := (s.sigaction t sig).saHandler
  let s := s.takeSignal t sig shared
  if handler == sigIgn || handler == sigDfl then s.restartForSignal t false else s

/-- `reset_signal_action`. -/
def resetSignalAction (s : System) (t : TaskId) (sig : Nat) : System :=
  s.modifyObject t .sighand fun actions => Function.update actions sig {}

/-- `stop_current`, up to its `schedule()`. -/
def stopCurrent (s : System) (t : TaskId) (sig : Nat) : System :=
  (s.setState t .stopped).taskChildPublishStop t sig

/-- `sizeof(struct rt_sigframe)`. -/
def sigframeSize : Nat := 1088

/-- `signal_frame_sp`: room for a frame below `top`, aligned, not below `floor`. -/
def signalFrameSp (top floor : Nat) : Option Nat :=
  if top < sigframeSize then none
  else
    let sp := (top - sigframeSize) / 16 * 16
    if sp < floor then none else some sp

/-- The stack pointer of the new frame, and whether it is on the alternate stack. -/
def chooseFrame (task : Task) (action : SigAction) : Option (Nat × Bool) :=
  let sas := task.sigctx.sas
  if action.hasFlag saOnstack && !(sas.ssDisable || sas.ssOnstack) then
    if wordModulus ≤ sas.ssSp + sas.ssSize then none
    else (signalFrameSp (sas.ssSp + sas.ssSize) sas.ssSp).map fun sp => (sp, true)
  else
    (signalFrameSp task.tf.sp 0).map fun sp => (sp, false)

/-- The blocked mask while a handler runs. -/
def handlerMask (blocked : SigSet) (sig : Nat) (action : SigAction) : SigSet :=
  let blocked := if action.hasFlag saNodefer then blocked
    else (blocked ||| signalMask sig) &&& ~~~unblockableMask
  (blocked ||| action.saMask) &&& ~~~unblockableMask

/-- What a successful `setup_signal_frame` leaves in the task. -/
def enterHandler (sig : Nat) (action : SigAction) (sp : Nat) (altstack : Bool) (task : Task) :
    Task :=
  { task with
    sigctx := { task.sigctx with
      restoreMask := none
      blocked := handlerMask task.sigctx.blocked sig action
      signalFrames := ⟨sp, sig⟩ :: task.sigctx.signalFrames
      sas := if altstack then { task.sigctx.sas with ssOnstack := true } else task.sigctx.sas }
    tf := { task.tf with
      sepc := action.saHandler
      ra := signalTrampolineAddr
      sp := sp
      a := Function.update (Function.update (Function.update task.tf.a 0 sig) 1 sp) 2 (sp + 128) } }

/-- `setup_signal_frame`. -/
def setupSignalFrame (s : System) (t : TaskId) (sig : Nat) (action : SigAction) (frame : Bool) :
    Option System :=
  match chooseFrame (s.task t) action with
  | none => none
  | some (sp, altstack) =>
    if frame then some (s.setTask t (enterHandler sig action sp altstack)) else none

/-- The end of the loop body of `do_signal`, for a signal that is caught. -/
def deliverHandler (s : System) (t : TaskId) (sig : Nat) (action : SigAction)
    (env : DeliverEnv) : Delivery × System :=
  let s := if action.hasFlag saResethand then s.resetSignalAction t sig else s
  match env.rseq with
  | .error _ => (.exited, s.doExitSignal sigsegv env.exit)
  | .ok pc =>
    let s := s.setTask t fun task => { task with tf := { task.tf with sepc := pc.getD task.tf.sepc } }
    let s := s.restartForSignal t (action.hasFlag saRestart)
    match s.setupSignalFrame t sig action env.frame with
    | none => (.exited, s.doExitSignal sigsegv env.exit)
    | some s => (.handler, s)

/-- Preparing a handler ends with the handler or with the exit of the task. -/
theorem deliverHandler_delivery (s : System) (t : TaskId) (sig : Nat) (action : SigAction)
    (env : DeliverEnv) :
    (s.deliverHandler t sig action env).1 = .handler ∨
      (s.deliverHandler t sig action env).1 = .exited := by
  unfold deliverHandler
  dsimp only
  split
  · exact .inr rfl
  split
  · exact .inr rfl
  · exact .inl rfl

/-- The steps of a handler that was entered. -/
theorem deliverHandler_handler {s : System} {t : TaskId} {sig : Nat} {action : SigAction}
    {env : DeliverEnv} (hdelivery : (s.deliverHandler t sig action env).1 = .handler) :
    ∃ (pc : Option Nat) (sp : Nat) (altstack : Bool), (s.deliverHandler t sig action env).2 =
      (((if action.hasFlag saResethand then s.resetSignalAction t sig else s).setTask t fun task =>
        { task with tf := { task.tf with sepc := pc.getD task.tf.sepc } }).restartForSignal t
          (action.hasFlag saRestart)).setTask t (enterHandler sig action sp altstack) := by
  unfold deliverHandler at hdelivery ⊢
  cases hrseq : env.rseq with
  | error e =>
    rw [hrseq] at hdelivery
    cases hdelivery
  | ok pc =>
    rw [hrseq] at hdelivery
    dsimp only at hdelivery ⊢
    refine ⟨pc, ?_⟩
    unfold setupSignalFrame at hdelivery ⊢
    split at hdelivery
    · cases hdelivery
    · rename_i s2 hsetup
      split at hsetup
      · cases hsetup
      · split at hsetup
        · cases hsetup
          exact ⟨_, _, rfl⟩
        · cases hsetup

/-- What a signal does that is not caught: the rest of the loop body of `do_signal`. -/
inductive SignalAction where
  | ignore
  | stop
  | terminate
  | handle
  deriving DecidableEq, Repr

/-- The decision of `do_signal` for a signal that has been taken. -/
def signalAction (s : System) (t : TaskId) (sig : Nat) (forced : Bool) : SignalAction :=
  let handler := (s.sigaction t sig).saHandler
  if !forced && handler == sigDfl && s.signalInitDefaultIgnored t sig then .ignore
  else if sig == sigcont && (handler == sigDfl || handler == sigIgn) then .ignore
  else if signalStopsDefault sig handler then .stop
  else if sig == sigkill then .terminate
  else if handler == sigIgn then .ignore
  else if handler == sigDfl then if signalIsFatalDefault sig then .terminate else .ignore
  else .handle

/-- `forced` of `do_signal`. -/
def signalForced (s : System) (t : TaskId) (sig : Nat) (shared : Bool) : Bool :=
  !shared && hasSignal (s.task t).sigctx.forcedPending sig

/-- One turn of the loop in `do_signal` of the current task. -/
def doSignalOnce (s : System) (env : DeliverEnv) : Delivery × System :=
  let t := s.current
  match s.nextSignal t with
  | none => (.none, s.signalRestoreDeferredMask t)
  | some (sig, shared) =>
    let action := s.sigaction t sig
    match s.signalAction t sig (s.signalForced t sig shared) with
    | .ignore => (.again, s.dequeueSignal t sig shared)
    | .stop => (.stopped, (s.dequeueSignal t sig shared).stopCurrent t sig)
    | .terminate => (.exited, (s.dequeueSignal t sig shared).doExitSignal sig env.exit)
    | .handle => (s.dequeueSignal t sig shared).deliverHandler t sig action env

end System

end CuteOS.Kernel
