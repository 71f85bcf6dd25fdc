/-
  Kernel/Wait.lean --- interruptible waits and ignored signals.

  Sources: `kernel/waitqueue.c` (`wait_for`, `wait_arbitrate`, `wait_block_current`),
  `include/kernel/wait.h`, `syscall/syscall.c` (`do_syscall`).

  One system call that waits is a small machine: the loop of `wait_for`, the return
  through `do_syscall`, and the turns of `do_signal`.  Between any two of its steps
  others may send signals and wake the task.  What the check of the wait finds and what
  the clock says is an input of each step; watches and timers only decide when the task is
  woken, and any wake-up is allowed here.

  `signal_pending` looks at masks alone.  An ignored signal is thrown away by
  `do_signal` only, after the wait has ended because of it.
-/
import CuteOS.Kernel.Group

set_option autoImplicit false

namespace CuteOS.Kernel

/-- `wait_outcome_t`. -/
inductive WaitOutcome where
  | event
  | signal
  | timeout
  deriving DecidableEq, Repr

/-- `wait_flags_t`. -/
structure WaitFlags where
  interruptible : Bool := true
  killable : Bool := false
  deriving DecidableEq, Repr

/-- `struct wait_deadline`. -/
structure WaitDeadline where
  active : Bool := false
  expires : Nat := 0
  deriving DecidableEq, Repr

/-- The state a task sleeps in. -/
def WaitFlags.sleepState (flags : WaitFlags) : TaskState :=
  if flags.killable then .killable
  else if flags.interruptible then .interruptible
  else .uninterruptible

/-- A system call that waits: whether `wait_for` gets a request with a check, its flags
and deadline, and what the call makes of the result.  Only a signal makes it return
`-EINTR`, unless the check itself failed so. -/
structure WaitCall where
  request : Bool
  flags : WaitFlags := {}
  deadline : WaitDeadline := {}
  nr : Nat
  result : Except Errno WaitOutcome → Except Errno Nat
  interrupted : ∀ r, r ≠ .ok .signal → r ≠ .error .eintr → result r ≠ .error .eintr

/-! ## The calls -/

/-- A call that answers `event`, `signal` and `timeout` to the three outcomes, and passes
an error of its check on. -/
def WaitCall.of (request : Bool) (nr : Nat) (event : Except Errno Nat)
    (signal : Except Errno Nat := .error .eintr) (deadline : WaitDeadline := {})
    (timeout : Except Errno Nat := .error .einval) (hevent : event ≠ .error .eintr := by simp)
    (htimeout : timeout ≠ .error .eintr := by simp) : WaitCall where
  request := request
  deadline := deadline
  nr := nr
  result
    | .ok .event => event
    | .ok .signal => signal
    | .ok .timeout => timeout
    | .error e => .error e
  interrupted
    | .ok .event, _, _ => hevent
    | .ok .signal, hsignal, _ => absurd rfl hsignal
    | .ok .timeout, _, _ => htimeout
    | .error _, _, herror => by simpa using herror

/-- `kernel_wait4`. -/
def wait4 (pid : Nat) : WaitCall := .of true sysWait4 (.ok pid)

/-- `futex_wait`. -/
def futexWait (deadline : WaitDeadline) : WaitCall :=
  .of true sysFutex (.ok 0) (.error .eintr) deadline (.error .etimedout)

/-- `poll_wait`. -/
def pollWait (deadline : WaitDeadline) (ready : Nat) : WaitCall :=
  .of true sysPpoll (.ok ready) (.error .eintr) deadline (.ok 0)

/-- `sys_nanosleep`. -/
def nanosleep (expires : Nat) : WaitCall :=
  .of false sysNanosleep (.error .einval) (.error .eintr) ⟨true, expires⟩ (.ok 0)

/-- `signal_sigsuspend`, once the mask is set; there is no event and no deadline. -/
def sigsuspend : WaitCall := .of false sysRtSigsuspend (.error .einval)

/-- `console_read`, which in raw mode returns the `pending` bytes after a signal. -/
def consoleRead (count pending : Nat) : WaitCall :=
  .of true sysRead (.ok count) (if pending = 0 then .error .eintr else .ok pending)

namespace System

/-- `wait_arbitrate`. -/
def waitArbitrate (s : System) (t : TaskId) (ready : Bool) (flags : WaitFlags)
    (deadline : WaitDeadline) (now : Nat) : Option WaitOutcome :=
  if ready then some .event
  else if flags.interruptible && s.signalPending t then some .signal
  else if flags.killable && s.signalFatalPending t then some .signal
  else if deadline.active && decide (deadline.expires ≤ now) then some .timeout
  else none

/-- `wait_finish_current_state`. -/
def waitFinishCurrentState (s : System) (t : TaskId) : System :=
  if (s.task t).state.anySleep then s.setState t .running else s

/-- `restart_save` at the entry of `do_syscall` and `restart_finish` at its end. -/
def finishSyscall (s : System) (t : TaskId) (nr : Nat) (ret : Except Errno Nat) : System :=
  s.setTask t fun task =>
    let context := restartSave task.tf nr
    { task with
      restart := if ret = .error .eintr ∧ context.restartable = true then context else {} }

/-! ## The machine -/

/-- Where the call is. -/
inductive WaitPhase where
  /-- Before the first (`false`) or the second check of a turn. -/
  | checking (again : Bool)
  /-- In `wait_block_current`. -/
  | blocked
  /-- `wait_for` has returned. -/
  | finished (r : Except Errno WaitOutcome)
  /-- `do_syscall` has returned this value, `do_signal` runs. -/
  | returning (ret : Except Errno Nat)
  /-- User mode, with the value of the call, or none if the call is executed again. -/
  | user (ret : Option (Except Errno Nat))
  | exited
  deriving DecidableEq

structure WaitConfig where
  sys : System
  phase : WaitPhase

/-- What others do while the call is under way. -/
inductive WaitEvent where
  | send (sig : Nat) (target : TaskId)
  | groupSend (sig : Nat) (leader : TaskId)
  /-- A wait channel or the timer of the wait. -/
  | wake

def WaitEvent.apply (e : WaitEvent) (t : TaskId) (s : System) : System :=
  match e with
  | .send sig target => (s.sendSignalInfo sig target).2
  | .groupSend sig leader => (s.sendGroupSignalInfo sig leader).2
  | .wake => if (s.task t).state.anySleep then s.schedWakeTask t else s

/-- The turn of `wait_for` after a check that did not fail. -/
def checkedTurn (call : WaitCall) (t : TaskId) (s : System) (again ready : Bool) (now : Nat) :
    WaitConfig :=
  match s.waitArbitrate t ready call.flags call.deadline now with
  | some outcome => ⟨s.waitFinishCurrentState t, .finished (.ok outcome)⟩
  | none =>
    if again then ⟨s, .blocked⟩ else ⟨s.setState t call.flags.sleepState, .checking true⟩

/-- The value that user code sees after a turn of `do_signal`: a handler with `SA_RESTART`
makes it execute the call again. -/
def seenReturn (s : System) (t : TaskId) (ret : Except Errno Nat) : Option (Except Errno Nat) :=
  match s.nextSignal t with
  | none => some ret
  | some (sig, _) =>
    if (s.task t).restart.valid && (s.task t).restart.restartable &&
        (s.sigaction t sig).hasFlag saRestart then none
    else some ret

/-- Where a turn of `do_signal` leaves the call. -/
def deliverPhase (s : System) (t : TaskId) (ret : Except Errno Nat) : Delivery → WaitPhase
  | .none => .user (some ret)
  | .again | .stopped => .returning ret
  | .handler => .user (s.seenReturn t ret)
  | .exited => .exited

/-- One step of the call of task `t`, or of the others. -/
inductive WaitStep (call : WaitCall) (t : TaskId) : WaitConfig → WaitConfig → Prop
  | event (s : System) (phase : WaitPhase) (e : WaitEvent) :
      WaitStep call t ⟨s, phase⟩ ⟨e.apply t s, phase⟩
  | checkFails (s : System) (again : Bool) (e : Errno) (hrequest : call.request = true)
      (he : e ≠ .eintr) :
      WaitStep call t ⟨s, .checking again⟩ ⟨s.waitFinishCurrentState t, .finished (.error e)⟩
  | check (s : System) (again ready : Bool) (now : Nat)
      (hready : ready = true → call.request = true) :
      WaitStep call t ⟨s, .checking again⟩ (checkedTurn call t s again ready now)
  /-- `schedule()` came back, or an interrupt ended `wfi`. -/
  | unblock (s : System) : WaitStep call t ⟨s, .blocked⟩ ⟨s.waitFinishCurrentState t, .checking false⟩
  /-- The event was not enough, and the call waits again. -/
  | waitAgain (s : System) : WaitStep call t ⟨s, .finished (.ok .event)⟩ ⟨s, .checking false⟩
  | return (s : System) (r : Except Errno WaitOutcome) :
      WaitStep call t ⟨s, .finished r⟩
        ⟨s.finishSyscall t call.nr (call.result r), .returning (call.result r)⟩
  | deliver (s : System) (ret : Except Errno Nat) (env : DeliverEnv) (hcurrent : s.current = t) :
      WaitStep call t ⟨s, .returning ret⟩
        ⟨(s.doSignalOnce env).2, s.deliverPhase t ret (s.doSignalOnce env).1⟩

/-- The wait has ended because of a signal, or user code sees `-EINTR`. -/
def WaitPhase.interrupted : WaitPhase → Bool
  | .finished (.ok .signal) => true
  | .user (some (.error .eintr)) => true
  | _ => false

/-- The signals that become pending for task `t`. -/
def newSignals (t : TaskId) (s s' : System) : SigSet :=
  s'.signalPendingMask t &&& ~~~s.signalPendingMask t

/-- A step in which every signal that becomes pending for `t` is blocked by `t`. -/
def BlockedStep (call : WaitCall) (t : TaskId) (c c' : WaitConfig) : Prop :=
  WaitStep call t c c' ∧ newSignals t c.sys c'.sys &&& ~~~c.sys.effectiveBlocked t = 0

/-- A step in which every signal that becomes pending for `t` is ignored by `t`. -/
def IgnoredStep (call : WaitCall) (t : TaskId) (c c' : WaitConfig) : Prop :=
  WaitStep call t c c' ∧
    ∀ sig ∈ allSignals, hasSignal (newSignals t c.sys c'.sys) sig = true →
      c.sys.signalAction t sig false = .ignore

/-! ## Blocked signals do not end a wait -/

theorem signalPending_eq_false_iff (s : System) (t : TaskId) :
    s.signalPending t = false ↔ s.signalPendingMask t &&& ~~~s.effectiveBlocked t = 0 := by
  simp [signalPending]

variable {s : System} {t : TaskId}

/-- Nothing that is not blocked becomes pending. -/
theorem signalPending_of_new {s' : System} (hpending : s.signalPending t = false)
    (hblocked : s'.effectiveBlocked t = s.effectiveBlocked t)
    (hnew : newSignals t s s' &&& ~~~s.effectiveBlocked t = 0) : s'.signalPending t = false := by
  rw [signalPending_eq_false_iff] at hpending ⊢
  rw [hblocked]
  have hsplit : s'.signalPendingMask t &&& ~~~s.effectiveBlocked t =
      (newSignals t s s' &&& ~~~s.effectiveBlocked t) |||
        (s'.signalPendingMask t &&& (s.signalPendingMask t &&& ~~~s.effectiveBlocked t)) := by
    unfold newSignals
    ext i hi
    simp only [BitVec.getElem_and, BitVec.getElem_not, BitVec.getElem_or]
    cases (s.signalPendingMask t)[i] <;> cases (s'.signalPendingMask t)[i] <;> simp
  rw [hsplit, hnew, hpending]
  simp

theorem nextSignal_eq_none (hpending : s.signalPending t = false) : s.nextSignal t = none := by
  rw [signalPending_eq_false_iff, signalPendingMask] at hpending
  unfold nextSignal
  have hnone : ((s.task t).sigctx.pending ||| s.sharedPending t) &&& (1#64 <<< (nsig - 1) - 1) &&&
      ~~~s.effectiveBlocked t = 0 := by
    rw [BitVec.and_assoc, BitVec.and_comm (1#64 <<< (nsig - 1) - 1), ← BitVec.and_assoc, hpending]
    exact BitVec.zero_and
  have hfind : (allSignals.find? fun sig => hasSignal
      (((s.task t).sigctx.pending ||| s.sharedPending t) &&& (1#64 <<< (nsig - 1) - 1) &&&
        ~~~s.effectiveBlocked t) sig) = none := by
    rw [hnone]
    simp
  dsimp only
  rw [hfind]

theorem effectiveBlocked_setTask {f : Task → Task}
    (hf : (f (s.task t)).sigctx.blocked = (s.task t).sigctx.blocked) (u : TaskId) :
    (s.setTask t f).effectiveBlocked u = s.effectiveBlocked u := by
  rw [effectiveBlocked, effectiveBlocked, setTask_task]
  split_ifs with hu
  · rw [hf, hu]
  · rfl

theorem effectiveBlocked_waitFinishCurrentState (s : System) (t u : TaskId) :
    (s.waitFinishCurrentState t).effectiveBlocked u = s.effectiveBlocked u := by
  unfold waitFinishCurrentState
  split
  · exact effectiveBlocked_setTask rfl u
  · rfl

theorem Signalled.effectiveBlocked {s' : System} (h : Signalled s s') (u : TaskId) :
    s'.effectiveBlocked u = s.effectiveBlocked u := by
  rw [System.effectiveBlocked, System.effectiveBlocked, (h.task u).same]

theorem effectiveBlocked_event (s : System) (t u : TaskId) (e : WaitEvent) :
    (e.apply t s).effectiveBlocked u = s.effectiveBlocked u := by
  cases e with
  | send sig target => exact (signalled_sendSignalInfo s target sig).effectiveBlocked u
  | groupSend sig leader => exact (signalled_sendGroupSignalInfo s leader sig).effectiveBlocked u
  | wake =>
    unfold WaitEvent.apply
    dsimp only
    split
    · unfold schedWakeTask setState
      exact effectiveBlocked_setTask rfl u
    · rfl

/-- `SIGKILL` is never blocked. -/
theorem signalFatalPending_eq_false
    (hpending : s.signalPending t = false) : s.signalFatalPending t = false := by
  rw [signalPending_eq_false_iff] at hpending
  have hkill : hasSignal (s.signalPendingMask t) sigkill = false := by
    have hand := congrArg (fun set => hasSignal set sigkill) hpending
    have hfree : hasSignal (s.effectiveBlocked t) sigkill = false := by
      rw [effectiveBlocked, hasSignal_and]
      have hmask : hasSignal (~~~unblockableMask) sigkill = false := by decide
      rw [hmask, Bool.and_false]
    rw [hasSignal_and, hasSignal_not _ (by decide), hfree] at hand
    simpa using hand
  rw [signalFatalPending, hkill, Bool.false_and]

/-- While nothing that is not blocked is pending, arbitration finds no signal. -/
theorem waitArbitrate_ne_signal (hpending : s.signalPending t = false)
    (ready : Bool) (flags : WaitFlags) (deadline : WaitDeadline) (now : Nat) :
    s.waitArbitrate t ready flags deadline now ≠ some .signal := by
  unfold waitArbitrate
  rw [hpending, signalFatalPending_eq_false hpending]
  split
  · simp
  · simp only [Bool.and_false, Bool.false_eq_true, if_false]
    split <;> simp

/-- The wait goes on or has ended for another reason; until the task is back in user mode,
nothing is pending that it does not block. -/
def Undisturbed (t : TaskId) (c : WaitConfig) : Prop :=
  match c.phase with
  | .checking _ | .blocked => c.sys.signalPending t = false
  | .finished r => r ≠ .ok .signal ∧ r ≠ .error .eintr ∧ c.sys.signalPending t = false
  | .returning ret => ret ≠ .error .eintr ∧ c.sys.signalPending t = false
  | .user ret => ret ≠ some (.error .eintr)
  | .exited => True

theorem Undisturbed.not_interrupted {c : WaitConfig} (h : Undisturbed t c) :
    c.phase.interrupted = false := by
  obtain ⟨s, phase⟩ := c
  rw [Bool.eq_false_iff]
  intro hint
  unfold WaitPhase.interrupted at hint
  split at hint
  · rename_i heq
    subst heq
    exact h.1 rfl
  · rename_i heq
    subst heq
    exact h rfl
  · cases hint

/-- What the task does to itself within the call leaves its blocked signals alone. -/
theorem effectiveBlocked_checkedTurn (call : WaitCall) (t : TaskId) (s : System)
    (again ready : Bool) (now : Nat) :
    (checkedTurn call t s again ready now).sys.effectiveBlocked t = s.effectiveBlocked t := by
  unfold checkedTurn
  split
  · exact effectiveBlocked_waitFinishCurrentState s t t
  cases again with
  | false =>
    have hset : (s.setState t call.flags.sleepState).effectiveBlocked t =
        s.effectiveBlocked t := effectiveBlocked_setTask rfl t
    exact hset
  | true => rfl

theorem effectiveBlocked_finishSyscall (s : System) (t : TaskId) (nr : Nat)
    (ret : Except Errno Nat) :
    (s.finishSyscall t nr ret).effectiveBlocked t = s.effectiveBlocked t := by
  exact effectiveBlocked_setTask rfl t

/-- One step in which only blocked signals become pending. -/
theorem Undisturbed.step {call : WaitCall} {c c' : WaitConfig}
    (h : Undisturbed t c) (hstep : BlockedStep call t c c') : Undisturbed t c' := by
  obtain ⟨hstep, hnew⟩ := hstep
  cases hstep with
  | event s phase e =>
    have hkeep : s.signalPending t = false → (e.apply t s).signalPending t = false :=
      fun hp => signalPending_of_new hp (effectiveBlocked_event s t t e) hnew
    cases phase with
    | checking | blocked => exact hkeep h
    | finished r => exact ⟨h.1, h.2.1, hkeep h.2.2⟩
    | returning ret => exact ⟨h.1, hkeep h.2⟩
    | user ret => exact h
    | exited => trivial
  | checkFails s again e hrequest he =>
    refine ⟨by simp, by simpa using he, ?_⟩
    exact signalPending_of_new h (effectiveBlocked_waitFinishCurrentState s t t) hnew
  | check s again ready now hready =>
    have hpending := signalPending_of_new h (effectiveBlocked_checkedTurn call t s again ready now)
      hnew
    have hsignal := waitArbitrate_ne_signal h ready call.flags call.deadline now
    unfold checkedTurn at hpending ⊢
    cases harb : s.waitArbitrate t ready call.flags call.deadline now with
    | some outcome =>
      rw [harb] at hpending hsignal
      refine ⟨?_, by simp, hpending⟩
      intro heq
      simp only [Except.ok.injEq] at heq
      exact hsignal (by rw [heq])
    | none =>
      rw [harb] at hpending
      cases again with
      | false | true => exact hpending
  | unblock s =>
    exact signalPending_of_new h (effectiveBlocked_waitFinishCurrentState s t t) hnew
  | waitAgain s => exact h.2.2
  | «return» s r =>
    refine ⟨call.interrupted r h.1 h.2.1, ?_⟩
    exact signalPending_of_new h.2.2
      (effectiveBlocked_finishSyscall s t call.nr (call.result r)) hnew
  | deliver s ret env hcurrent =>
    -- no signal is left to deliver
    have hnone : s.nextSignal s.current = none := by
      rw [hcurrent]
      exact nextSignal_eq_none h.2
    have hdelivery : (s.doSignalOnce env).1 = .none := by
      unfold doSignalOnce
      dsimp only
      rw [hnone]
    rw [hdelivery]
    intro heq
    exact h.1 (Option.some.inj heq)

/-- A call that waits with nothing pending but blocked signals is not interrupted in any
run in which only blocked signals become pending. -/
theorem wait_not_interrupted {call : WaitCall} {t : TaskId} {s : System} {c : WaitConfig}
    (hpending : s.signalPending t = false)
    (hrun : Relation.ReflTransGen (BlockedStep call t) ⟨s, .checking false⟩ c) :
    c.phase.interrupted = false := by
  have hundisturbed : Undisturbed t c := by
    induction hrun with
    | refl => exact hpending
    | tail _ hstep ih => exact ih.step hstep
  exact hundisturbed.not_interrupted

/-! ## An ignored signal ends a wait -/

/-- `read` on an empty pipe. -/
def pipeRead : WaitCall := .of true sysRead (.ok 1)

/-- A check without an event: it finds nothing, or what `outcome` says. -/
theorem WaitStep.check_idle {call : WaitCall} (again : Bool) (outcome : Option WaitOutcome)
    (h : s.waitArbitrate t false call.flags call.deadline 0 = outcome) :
    WaitStep call t ⟨s, .checking again⟩ (outcome.elim (if again then ⟨s, .blocked⟩
      else ⟨s.setState t call.flags.sleepState, .checking true⟩)
      fun outcome => ⟨s.waitFinishCurrentState t, .finished (.ok outcome)⟩) := by
  have hstep : WaitStep call t ⟨s, .checking again⟩ (checkedTurn call t s again false 0) :=
    .check s again false 0 fun hready => Bool.noConfusion hready
  unfold checkedTurn at hstep
  rw [h] at hstep
  cases outcome <;> exact hstep

/-- Process 2 sleeps in its read. -/
def readSleeping : System := forked.setState 2 .interruptible

/-- The default-ignored `SIGCHLD` arrives and wakes it. -/
def readSignalled : System := (readSleeping.sendSignalInfo sigchld 2).2

/-- The wait has ended. -/
def readWoken : System := (readSignalled.waitFinishCurrentState 2).waitFinishCurrentState 2

/-- The read has returned `-EINTR`, and `do_signal` throws the signal away. -/
def readReturned : System := readWoken.finishSyscall 2 sysRead (.error .eintr)

/-- `SIGCHLD` with its default disposition makes a blocked `read` return `-EINTR` to user
mode. -/
theorem read_interrupted_by_sigchld : Reachable forked ∧ forked.signalPending 2 = false ∧
      forked.signalAction 2 sigchld false = .ignore ∧
      ∃ s, Relation.ReflTransGen (IgnoredStep pipeRead 2) ⟨forked, .checking false⟩
        ⟨s, .user (some (.error .eintr))⟩ := by
  refine ⟨reachable_forked, by decide +kernel, by decide +kernel,
    ((readReturned.doSignalOnce {}).2.doSignalOnce {}).2, ?_⟩
  -- two checks find nothing, and the task sleeps
  have hcheck1 : WaitStep pipeRead 2 ⟨forked, .checking false⟩ ⟨readSleeping, .checking true⟩ :=
    .check_idle false none (by decide +kernel)
  have hcheck2 : WaitStep pipeRead 2 ⟨readSleeping, .checking true⟩ ⟨readSleeping, .blocked⟩ :=
    .check_idle true none (by decide +kernel)
  -- the signal ends the sleep, and the next check the wait
  have hsend : WaitStep pipeRead 2 ⟨readSleeping, .blocked⟩ ⟨readSignalled, .blocked⟩ :=
    .event readSleeping .blocked (.send sigchld 2)
  have hwake : WaitStep pipeRead 2 ⟨readSignalled, .blocked⟩
      ⟨readSignalled.waitFinishCurrentState 2, .checking false⟩ := .unblock readSignalled
  have hcheck3 : WaitStep pipeRead 2 ⟨readSignalled.waitFinishCurrentState 2, .checking false⟩
      ⟨readWoken, .finished (.ok .signal)⟩ := .check_idle false (some .signal) (by decide +kernel)
  have hreturn : WaitStep pipeRead 2 ⟨readWoken, .finished (.ok .signal)⟩
      ⟨readReturned, .returning (.error .eintr)⟩ := .return readWoken (.ok .signal)
  -- `do_signal` finds an ignored signal, then none
  have hdeliver1 : WaitStep pipeRead 2 ⟨readReturned, .returning (.error .eintr)⟩
      ⟨(readReturned.doSignalOnce {}).2, .returning (.error .eintr)⟩ := by
    have hstep : WaitStep pipeRead 2 _ _ :=
      .deliver readReturned (.error .eintr) {} (by decide +kernel)
    exact hstep
  have hdeliver2 : WaitStep pipeRead 2
      ⟨(readReturned.doSignalOnce {}).2, .returning (.error .eintr)⟩
      ⟨((readReturned.doSignalOnce {}).2.doSignalOnce {}).2, .user (some (.error .eintr))⟩ := by
    have hstep : WaitStep pipeRead 2 _ _ :=
      .deliver (readReturned.doSignalOnce {}).2 (.error .eintr) {} (by decide +kernel)
    exact hstep
  refine .head ⟨hcheck1, by decide +kernel⟩ (.head ⟨hcheck2, by decide +kernel⟩
    (.head ⟨hsend, by decide +kernel⟩ (.head ⟨hwake, by decide +kernel⟩
      (.head ⟨hcheck3, by decide +kernel⟩ (.head ⟨hreturn, by decide +kernel⟩
        (.head ⟨hdeliver1, by decide +kernel⟩ (.single ⟨hdeliver2, by decide +kernel⟩)))))))

/-- Process 2 reads with `SIGCHLD` blocked. -/
def readBlocking : System := forked.signalBlockMask 2 (signalMask sigchld)

/-- The same signal does nothing to a call that has it blocked. -/
theorem read_not_interrupted_when_blocked : readBlocking.signalPending 2 = false ∧
      hasSignal ((readBlocking.sendSignalInfo sigchld 2).2.signalPendingMask 2) sigchld = true ∧
      (WaitPhase.checking false).interrupted = false := by
  have hrun : Relation.ReflTransGen (BlockedStep pipeRead 2) ⟨readBlocking, .checking false⟩
      ⟨(readBlocking.sendSignalInfo sigchld 2).2, .checking false⟩ :=
    .single ⟨.event readBlocking (.checking false) (.send sigchld 2), by decide +kernel⟩
  have hpending : readBlocking.signalPending 2 = false := by decide +kernel
  exact ⟨hpending, by decide +kernel, wait_not_interrupted hpending hrun⟩

end System

end CuteOS.Kernel
