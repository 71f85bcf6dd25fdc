/-
  Kernel/UserMode.lean --- traps, the return to user mode, and what can happen in between.

  Sources: `arch/riscv/trap.c` (`trap_handler`, `trap_user_return`), `kernel/user_return.c`,
  `syscall/syscall.c` (`do_syscall`), `kernel/signal.c` (`do_signal`), `sched/sched.c`.

  Each task is in user mode, in the kernel, in `do_signal`, or between `do_signal` and
  `sret`; one task runs at a time.  A task in the kernel can be switched out at any
  point, and signals can be sent at any point outside of user mode, by the running task or
  by a timer interrupt.  Creating and ending tasks, and everything that has nothing to do
  with signals, is given by what it leaves alone.
-/
import CuteOS.Kernel.Pending
import CuteOS.Kernel.Sharing

set_option autoImplicit false

namespace CuteOS.Kernel

open CuteOS.Lib

/-- Where a task is; `syscall` says whether it entered the kernel by `ecall`. -/
inductive Mode where
  | user
  | kernel (syscall : Bool)
  /-- The wait of its system call has ended because of a signal. -/
  | interrupted
  /-- In the loop of `do_signal`. -/
  | returning (syscall : Bool)
  /-- `do_signal` has returned; `trap_user_return` may still call `schedule()`. -/
  | leaving
  /-- Not created yet, or exited. -/
  | gone
  deriving DecidableEq, Repr

/-- The system and the modes of its tasks. -/
structure Machine where
  sys : System
  mode : TaskId → Mode

/-- What the running task, or a timer interrupt, does next. -/
inductive Act where
  | trap
  | ecall (nr : Nat)
  /-- Changes of the task's own record: `rt_sigprocmask`, `rt_sigreturn`, `execve`, the
  forced signal of an exception. -/
  | own (f : Task → Task)
  /-- `rt_sigtimedwait` takes a process-directed signal. -/
  | take (sig : Nat)
  /-- `rt_sigaction`, `force_signal_info` and `signals_execve`. -/
  | sigaction (f : SigActions → SigActions)
  | send (sig : Nat) (target : TaskId)
  | groupSend (sig : Nat) (leader : TaskId)
  /-- `wait_arbitrate` finds a signal. -/
  | interrupt
  /-- The trap handler is done, with any result but `-EINTR`. -/
  | finish
  /-- The system call returns `-EINTR`, or something else after all. -/
  | finishInterrupted (eintr : Bool)
  | deliver (env : DeliverEnv)
  | sret
  | switch (next : TaskId)
  | clone (child : TaskId) (thread : Bool) (after : System)
  | exit (dead : List TaskId) (after : System)
  | other (after : System)

namespace System

/-- A function leaves everything alone that signal delivery to `u` looks at. -/
structure SameSignals (s s' : System) (u : TaskId) : Prop where
  pending : ∀ x, s'.IsPending u x ↔ s.IsPending u x
  forced : (s'.task u).sigctx.forcedPending = (s.task u).sigctx.forcedPending
  blocked : s'.effectiveBlocked u = s.effectiveBlocked u
  actions : ∀ x, s'.sigaction u x = s.sigaction u x
  init : s'.initProcessIsTask u = s.initProcessIsTask u
  restart : (s'.task u).restart = (s.task u).restart

/-- What a new task starts with. -/
structure Cloned (s s' : System) (parent child : TaskId) (thread : Bool) : Prop where
  pending : ∀ x, s'.IsPending child x → thread = true ∧ hasSignal (s.sharedPending parent) x = true
  forced : (s'.task child).sigctx.forcedPending = 0
  blocked : s'.effectiveBlocked child = s.effectiveBlocked parent
  actions : ∀ x, s'.sigaction child x = s.sigaction parent x
  init : s'.initProcessIsTask child = (thread && s.initProcessIsTask parent)
  restart : (s'.task child).restart.valid = false

/-- `trap_advance_pc` and `restart_save`. -/
def enterSyscall (s : System) (t : TaskId) (nr : Nat) : System :=
  s.setTask t fun task =>
    let tf := { task.tf with sepc := task.tf.sepc + 4 }
    { task with tf := tf, restart := restartSave tf nr }

/-- `restart_finish`. -/
def restartFinish (s : System) (t : TaskId) (eintr : Bool) : System :=
  if !eintr || !(s.task t).restart.restartable then s.restartClear t else s

/-- Only signals that exist are pending. -/
def OnlyValid (s : System) (t : TaskId) : Prop :=
  s.signalPendingMask t &&& ~~~(1#64 <<< (nsig - 1) - 1) = 0

end System

namespace Machine

open CuteOS.Kernel.System

/-- Where a turn of `do_signal` leaves a task that has not exited. -/
def afterDelivery (syscall : Bool) : Delivery → Mode
  | .again | .stopped => .returning syscall
  | .none | .handler => .leaving
  | .exited => .gone

/-- The running task changes its mode. -/
def setMode (m : Machine) (mode : Mode) : Machine :=
  { m with mode := Function.update m.mode m.sys.current mode }

/-- One step. -/
inductive Does : Machine → Act → Machine → Prop
  | trap (m : Machine) (hmode : m.mode m.sys.current = .user) :
      Does m .trap (m.setMode (.kernel false))
  | ecall (m : Machine) (nr : Nat) (hmode : m.mode m.sys.current = .user) :
      Does m (.ecall nr)
        { m.setMode (.kernel true) with sys := m.sys.enterSyscall m.sys.current nr }
  | own (m : Machine) (f : Task → Task) (syscall : Bool)
      (hmode : m.mode m.sys.current = .kernel syscall)
      (hres : (f (m.sys.task m.sys.current)).resources = (m.sys.task m.sys.current).resources)
      (hleader : (f (m.sys.task m.sys.current)).groupLeader =
        (m.sys.task m.sys.current).groupLeader)
      (hrestart : (f (m.sys.task m.sys.current)).restart = (m.sys.task m.sys.current).restart ∨
        (f (m.sys.task m.sys.current)).restart.valid = false) :
      Does m (.own f) { m with sys := m.sys.setTask m.sys.current f }
  | take (m : Machine) (sig : Nat) (syscall : Bool)
      (hmode : m.mode m.sys.current = .kernel syscall) (hsig : ValidSignal sig) :
      Does m (.take sig) { m with sys := m.sys.takeSignal m.sys.current sig true }
  -- the action of `SIGSTOP` cannot be changed
  | sigaction (m : Machine) (f : SigActions → SigActions) (syscall : Bool)
      (hmode : m.mode m.sys.current = .kernel syscall)
      (hstop : ∀ actions, (f actions sigstop).saHandler = (actions sigstop).saHandler) :
      Does m (.sigaction f) { m with sys := m.sys.modifyObject m.sys.current .sighand f }
  | send (m : Machine) (sig : Nat) (target : TaskId) (hmode : m.mode m.sys.current ≠ .user) :
      Does m (.send sig target) { m with sys := (m.sys.sendSignalInfo sig target).2 }
  | groupSend (m : Machine) (sig : Nat) (leader : TaskId)
      (hmode : m.mode m.sys.current ≠ .user) :
      Does m (.groupSend sig leader) { m with sys := (m.sys.sendGroupSignalInfo sig leader).2 }
  -- `send_signal_info` refuses the numbers that `hvalid` rules out
  | interrupt (m : Machine) (hmode : m.mode m.sys.current = .kernel true)
      (hvalid : m.sys.OnlyValid m.sys.current)
      (hpending : m.sys.signalPending m.sys.current = true) :
      Does m .interrupt (m.setMode .interrupted)
  | finish (m : Machine) (syscall : Bool) (hmode : m.mode m.sys.current = .kernel syscall) :
      Does m .finish
        { m.setMode (.returning syscall) with
          sys := if syscall then m.sys.restartFinish m.sys.current false else m.sys }
  | finishInterrupted (m : Machine) (eintr : Bool)
      (hmode : m.mode m.sys.current = .interrupted) :
      Does m (.finishInterrupted eintr)
        { m.setMode (.returning true) with sys := m.sys.restartFinish m.sys.current eintr }
  -- a turn that ends the process does not return: it is an `exit` step
  | deliver (m : Machine) (env : DeliverEnv) (syscall : Bool)
      (hmode : m.mode m.sys.current = .returning syscall)
      (hexit : (m.sys.doSignalOnce env).1 ≠ .exited) :
      Does m (.deliver env)
        { m.setMode (afterDelivery syscall (m.sys.doSignalOnce env).1) with
          sys := (m.sys.doSignalOnce env).2 }
  | sret (m : Machine) (hmode : m.mode m.sys.current = .leaving) :
      Does m .sret (m.setMode .user)
  | switch (m : Machine) (next : TaskId) (hmode : m.mode m.sys.current ≠ .user)
      (hrun : (m.sys.task next).state = .running) :
      Does m (.switch next) { m with sys := { m.sys with current := next } }
  | clone (m : Machine) (child : TaskId) (thread : Bool) (after : System)
      (hmode : m.mode m.sys.current = .kernel true) (hchild : m.mode child = .gone)
      (hnew : Cloned m.sys after m.sys.current child thread)
      (hsame : ∀ u, u ≠ child → m.mode u ≠ .gone → SameSignals m.sys after u)
      (hcurrent : after.current = m.sys.current) :
      Does m (.clone child thread after)
        { sys := after, mode := Function.update m.mode child .leaving }
  | exit (m : Machine) (dead : List TaskId) (after : System)
      (hmode : m.mode m.sys.current ≠ .user)
      (hsame : ∀ u, u ∉ dead → m.mode u ≠ .gone → SameSignals m.sys after u)
      (hcurrent : after.current = m.sys.current) :
      Does m (.exit dead after)
        { sys := after, mode := fun u => if u ∈ dead then .gone else m.mode u }
  | other (m : Machine) (after : System)
      (hsame : ∀ u, m.mode u ≠ .gone → SameSignals m.sys after u)
      (hcurrent : after.current = m.sys.current) :
      Does m (.other after) { m with sys := after }

/-- A run whose steps all meet a condition on the state before the step. -/
def Runs (cond : Machine → Act → Prop) : Machine → Machine → Prop :=
  Relation.ReflTransGen fun m m' => ∃ a, Does m a m' ∧ cond m a

/-- What every step keeps under a condition holds in every state of such a run. -/
theorem Runs.induct {cond : Machine → Act → Prop} {inv : Machine → Prop} {m m' : Machine}
    (hrun : Runs cond m m') (hstart : inv m)
    (hstep : ∀ m a m', inv m → Does m a m' → cond m a → inv m') : inv m' := by
  induction hrun with
  | refl => exact hstart
  | tail _ hlast ih =>
    obtain ⟨a, hdoes, hcond⟩ := hlast
    exact hstep _ a _ ih hdoes hcond

end Machine

end CuteOS.Kernel
