/-
  Kernel/TimerLocks.lean --- the mutexes that timer callbacks take in the interrupt handler.

  Sources: `kernel/time.c` (`ktimer_run_expired`, `itimer_real_fire`, `posix_timer_fire`),
  `kernel/signal.c`, `kernel/task.c` (`task_child_publish_continue`), `kernel/waitqueue.c`
  (`wait_timer_fire`, `wait_for`), `kernel/mutex.c`.

  A timer that sends a signal takes `signal->lock` of its target, and in some states of the
  target `sighand->lock`, or the locks of the target's parent.  In the interrupt handler a
  `mutex_lock` that finds its mutex taken stops the machine: it calls `wait_for`, which
  must not be called there.

  The two mutexes protect short sections of `kernel/signal.c` and of `prlimit64`, which
  copy or update the object and do nothing else: no call in them sleeps, switches or changes
  the interrupt flag, and no section is inside another.  So while one of these mutexes is
  held the processor does nothing but run the section, or take an interrupt in it.
-/
import CuteOS.Kernel.Sharing
import CuteOS.Sched.Cpu

set_option autoImplicit false

namespace CuteOS.Kernel

open CuteOS.Lib CuteOS.Sched

def sigalrm : Nat := 14

/-- `signal->lock` and `sighand->lock`, by the number of the object. -/
inductive Lock where
  | signal (id : Nat)
  | sighand (id : Nat)
  deriving DecidableEq, Repr

/-- A `struct ktimer` with its callback. -/
inductive TimerCallback where
  /-- `wait_timer_fire` -/
  | wait (t : TaskId)
  /-- `itimer_real_fire` -/
  | itimerReal (target : TaskId)
  /-- `posix_timer_fire` of a timer with `SIGEV_SIGNAL` -/
  | posix (target : TaskId) (signo : Nat)
  deriving DecidableEq, Repr

namespace System

/-! ## Mutexes by function -/

/-- `task_signal_state(task)->lock`, if there is one. -/
def signalLock (s : System) (t : TaskId) : List Lock :=
  ((s.task t).resources .signal).toList.map .signal

/-- `task_sighand(task)->lock`, if there is one. -/
def sighandLock (s : System) (t : TaskId) : List Lock :=
  ((s.task t).resources .sighand).toList.map .sighand

/-- The mutexes that `signal_fatal_pending` takes: the handlers are looked up for the init
process only. -/
def signalFatalPendingLocks (s : System) (t : TaskId) : List Lock :=
  s.signalLock t ++
    if hasSignal (s.signalPendingMask t) sigkill &&
        !hasSignal (s.task t).sigctx.forcedPending sigkill && s.initProcessIsTask t then
      s.sighandLock t
    else []

/-- The mutexes that `wake_signal_target` takes. -/
def wakeSignalTargetLocks (publishLocks : System → TaskId → List Lock) (s : System) (t : TaskId)
    (sig : Nat) : List Lock :=
  let state := (s.task t).state
  if state == .interruptible &&
      (signalMask sig &&& ~~~(s.task t).sigctx.blocked != 0 || !signalIsCatchable sig) then []
  else if state == .killable then s.signalFatalPendingLocks t
  else if sig == sigcont && state == .stopped then publishLocks s t
  else []

/-- `send_signal_info_internal` up to `wake_signal_target`. -/
def markPosted (s : System) (sig : Nat) (t : TaskId) : System :=
  ((s.signalClearOppositePending t sig).signalClearTaskSharedOppositePending t sig).setSigctx t
    fun c => { c with pending := c.pending ||| signalMask sig }

example (publish : System → TaskId → System) (s : System) (sig : Nat) (t : TaskId) :
    s.postSignal publish sig t false = (s.markPosted sig t).wakeSignalTarget publish t sig := rfl

/-- The mutexes that `send_signal_info_internal` takes. -/
def sendLocks (publishLocks : System → TaskId → List Lock) (s : System) (sig : Nat)
    (t : TaskId) : List Lock :=
  if !signalIsValid sig || s.signalTargetDead t then []
  else s.signalLock t ++ (s.markPosted sig t).wakeSignalTargetLocks publishLocks t sig

/-- The mutexes that `task_child_event_send_notification` takes. -/
def notifyParentLocks (s : System) (t : TaskId) : List Lock :=
  match (s.task t).parent with
  | none => []
  | some parent =>
    if (s.task t).exitSignal == sigchld && (s.task parent).published then
      s.sendLocks (fun _ _ => []) sigchld parent
    else []

/-- The mutexes that `task_child_publish_continue` takes. -/
def publishContinueLocks (s : System) (t : TaskId) : List Lock :=
  if s.isGroupLeader t then (s.recordChildEvent t ⟨.continue, 0xffff, none⟩).notifyParentLocks t
  else []

/-- The mutexes that `send_signal_info` takes. -/
def sendSignalInfoLocks (s : System) (sig : Nat) (t : TaskId) : List Lock :=
  s.sendLocks publishContinueLocks sig t

/-- The mutexes that a callback takes. -/
def callbackLocks (s : System) : TimerCallback → List Lock
  | .wait _ => []
  | .itimerReal target => s.sendSignalInfoLocks sigalrm target
  | .posix target signo =>
    if hasSignal (s.task target).sigctx.pending signo then []
    else s.sendSignalInfoLocks signo target

/-- What a callback does. -/
def fire (s : System) : TimerCallback → System
  | .wait t => if (s.task t).state.anySleep then s.schedWakeTask t else s
  | .itimerReal target => (s.sendSignalInfo sigalrm target).2
  | .posix target signo =>
    if hasSignal (s.task target).sigctx.pending signo then s else (s.sendSignalInfo signo target).2

/-- `ktimer_run_expired` in the interrupt handler, while the interrupted code holds a mutex;
`none` is the `BUG_ON(!wait_context_can_sleep())` of `wait_for`. -/
def ktimerRunExpired (held : Option Lock) (s : System) : List TimerCallback → Option System
  | [] => some s
  | callback :: rest =>
    if (s.callbackLocks callback).any fun lock => held == some lock then none
    else (s.fire callback).ktimerRunExpired held rest

/-- The locks of a task. -/
def taskLocks (s : System) (t : TaskId) : List Lock := s.signalLock t ++ s.sighandLock t

/-- The locks of a task and of its parent. -/
def familyLocks (s : System) (t : TaskId) : List Lock :=
  s.taskLocks t ++
    match (s.task t).parent with
    | none => []
    | some parent => s.taskLocks parent

/-- All the mutexes that a callback can take, whatever its target is doing. -/
def reachLocks (s : System) : TimerCallback → List Lock
  | .wait _ => []
  | .itimerReal target | .posix target _ => s.familyLocks target

/-! ## Callbacks take no other mutexes -/

section reach

variable {s s' : System} {t : TaskId} {lock : Lock}

theorem Signalled.parent (h : Signalled s s') (t : TaskId) :
    (s'.task t).parent = (s.task t).parent := by
  rw [(h.task t).same]

theorem Signalled.taskLocks (h : Signalled s s') (t : TaskId) : s'.taskLocks t = s.taskLocks t := by
  unfold System.taskLocks signalLock sighandLock
  rw [h.resources t]

theorem Signalled.reachLocks (h : Signalled s s') (callback : TimerCallback) :
    s'.reachLocks callback = s.reachLocks callback := by
  cases callback with
  | wait t => rfl
  | itimerReal target | posix target signo =>
    simp only [System.reachLocks, familyLocks, h.taskLocks, h.parent]

theorem signalled_markPosted (s : System) (sig : Nat) (t : TaskId) :
    Signalled s (s.markPosted sig t) := by
  have hshared : Signalled (s.signalClearOppositePending t sig)
      ((s.signalClearOppositePending t sig).signalClearTaskSharedOppositePending t sig) :=
    .setSharedPending _ t _
  unfold markPosted setSigctx
  refine ((sends_signalClearOppositePending s t sig).signalled.trans hshared).trans ?_
  exact .setTask _ t (.setPending _ _ _)

theorem signalLock_subset (s : System) (t : TaskId) : s.signalLock t ⊆ s.taskLocks t :=
  List.subset_append_left _ _

theorem signalFatalPendingLocks_subset (s : System) (t : TaskId) :
    s.signalFatalPendingLocks t ⊆ s.taskLocks t := by
  refine List.append_subset.mpr ⟨s.signalLock_subset t, ?_⟩
  split
  · exact List.subset_append_right _ _
  · exact List.nil_subset _

variable {locks : List Lock} {sig : Nat}

/-- Sending takes locks of the target, and those that publishing takes. -/
theorem sendLocks_subset {publishLocks : System → TaskId → List Lock}
    (htarget : s.taskLocks t ⊆ locks)
    (hpublish : ∀ s', Signalled s s' → publishLocks s' t ⊆ locks) :
    s.sendLocks publishLocks sig t ⊆ locks := by
  unfold sendLocks
  split
  · exact List.nil_subset _
  · refine List.append_subset.mpr ⟨List.Subset.trans (s.signalLock_subset t) htarget, ?_⟩
    have hposted := signalled_markPosted s sig t
    unfold wakeSignalTargetLocks
    simp only
    split
    · exact List.nil_subset _
    · split
      · refine List.Subset.trans (signalFatalPendingLocks_subset _ t) ?_
        rw [hposted.taskLocks]
        exact htarget
      · split
        · exact hpublish _ hposted
        · exact List.nil_subset _

theorem publishContinueLocks_subset
    (hparent : ∀ parent, (s.task t).parent = some parent → s.taskLocks parent ⊆ locks) :
    s.publishContinueLocks t ⊆ locks := by
  unfold publishContinueLocks
  split
  · have hrecord : Signalled s (s.recordChildEvent t ⟨.continue, 0xffff, none⟩) := by
      refine .setTask s t ⟨rfl, .inl rfl, [⟨.continue, 0xffff, none⟩], rfl, ?_⟩
      simp
    unfold notifyParentLocks
    rw [hrecord.parent]
    split
    · exact List.nil_subset _
    · rename_i parent hp
      split
      · refine sendLocks_subset ?_ fun _ _ => List.nil_subset _
        rw [hrecord.taskLocks]
        exact hparent parent hp
      · exact List.nil_subset _
  · exact List.nil_subset _

theorem sendSignalInfoLocks_subset (htarget : s.taskLocks t ⊆ locks)
    (hparent : ∀ parent, (s.task t).parent = some parent → s.taskLocks parent ⊆ locks) :
    s.sendSignalInfoLocks sig t ⊆ locks := by
  refine sendLocks_subset htarget fun s' hs' => publishContinueLocks_subset fun parent hp => ?_
  rw [hs'.parent] at hp
  rw [hs'.taskLocks]
  exact hparent parent hp

theorem callbackLocks_subset (s : System) (callback : TimerCallback) :
    s.callbackLocks callback ⊆ s.reachLocks callback := by
  have hsend : ∀ sig target, s.sendSignalInfoLocks sig target ⊆ s.familyLocks target := by
    intro sig target
    refine sendSignalInfoLocks_subset (List.subset_append_left _ _) fun parent hp => ?_
    unfold familyLocks
    rw [hp]
    exact List.subset_append_right _ _
  cases callback with
  | wait t => exact List.nil_subset _
  | itimerReal target => exact hsend sigalrm target
  | posix target signo =>
    simp only [callbackLocks]
    split
    · exact List.nil_subset _
    · exact hsend signo target

theorem signalled_fire (s : System) (callback : TimerCallback) : Signalled s (s.fire callback) := by
  cases callback with
  | wait t =>
    simp only [fire]
    split
    · rename_i hsleep
      refine (@SendStep.wake sigcont s t ?_ ?_ fun _ => .inl rfl).signalled <;>
        · intro hstate
          rw [hstate] at hsleep
          cases hsleep
    · exact .refl s
  | itimerReal target => exact signalled_sendSignalInfo s target sigalrm
  | posix target signo =>
    simp only [fire]
    split
    · exact .refl s
    · exact signalled_sendSignalInfo s target signo

variable {held : Option Lock} {expired : List TimerCallback}

/-- The callbacks run to their end when none of them can take the mutex that is held. -/
theorem ktimerRunExpired_isSome
    (hfree : ∀ callback ∈ expired, ∀ lock, held = some lock → lock ∉ s.reachLocks callback) :
    (s.ktimerRunExpired held expired).isSome = true := by
  induction expired generalizing s with
  | nil => rfl
  | cons callback rest ih =>
    unfold ktimerRunExpired
    rw [if_neg]
    · refine ih fun other hother lock hlock => ?_
      rw [(signalled_fire s callback).reachLocks]
      exact hfree other (List.mem_cons_of_mem callback hother) lock hlock
    · intro hany
      obtain ⟨lock, hmem, hlock⟩ := List.any_eq_true.mp hany
      exact hfree callback List.mem_cons_self lock (beq_iff_eq.mp hlock)
        (callbackLocks_subset s callback hmem)

theorem signalled_ktimerRunExpired (heq : s.ktimerRunExpired held expired = some s') :
    Signalled s s' := by
  induction expired generalizing s with
  | nil =>
    obtain rfl := Option.some.inj heq
    exact .refl s
  | cons callback rest ih =>
    unfold ktimerRunExpired at heq
    split at heq
    · cases heq
    · exact (signalled_fire s callback).trans (ih heq)

end reach

end System

/-! ## The processor, the timers and the mutexes -/

/-- The state that the interrupt handler finds. -/
structure TimerState where
  cpu : Cpu
  sys : System
  /-- `ktimer_queue`. -/
  armed : List TimerCallback
  /-- The mutex that the code on the processor holds. -/
  held : Option Lock

/-- What happens next. -/
inductive TimerEvent where
  /-- A step of the scheduler, of a trap or of a wait. -/
  | cpu (e : Event)
  /-- Anything the kernel does to the tasks. -/
  | kernel
  /-- `mutex_lock(&signal->lock)` or `mutex_lock(&sighand->lock)`. -/
  | lock (lock : Lock)
  /-- `mutex_unlock`, after what the section does to the object. -/
  | unlock
  /-- Timers are armed and cancelled. -/
  | settime
  /-- A timer interrupt in the kernel, with the timers that have expired. -/
  | irq (expired : List TimerCallback)
  /-- A timer interrupt in user mode. -/
  | userIrq (expired : List TimerCallback)

namespace TimerState

/-- One step. -/
inductive Does : TimerState → TimerEvent → TimerState → Prop
  | cpu (m : TimerState) (e : Event) (cpu : Cpu) (hheld : m.held = none)
      (hirq : ∀ woken, e ≠ .timer woken ∧ e ≠ .userTimer woken) (hnext : m.cpu.next e = some cpu) :
      Does m (.cpu e) { m with cpu := cpu }
  | kernel (m : TimerState) (sys : System) (hheld : m.held = none)
      (hstep : System.Step m.sys sys) : Does m .kernel { m with sys := sys }
  | lock (m : TimerState) (lock : Lock) (hheld : m.held = none) (hkernel : m.cpu.inKernel = true) :
      Does m (.lock lock) { m with held := some lock }
  | unlock (m : TimerState) (lock : Lock) (sys : System) (hheld : m.held = some lock)
      (hsection : sys = m.sys ∨ System.Step m.sys sys) :
      Does m .unlock { m with held := none, sys := sys }
  | settime (m : TimerState) (armed : List TimerCallback) (hheld : m.held = none)
      (hkernel : m.cpu.inKernel = true) : Does m .settime { m with armed := armed }
  -- a timer that is not periodic is gone after it has fired
  | irq (m : TimerState) (expired armed : List TimerCallback) (woken : List TaskId) (cpu : Cpu)
      (sys : System) (hexpired : expired ⊆ m.armed) (harmed : armed ⊆ m.armed)
      (hnext : m.cpu.next (.timer woken) = some cpu)
      (hrun : m.sys.ktimerRunExpired m.held expired = some sys) :
      Does m (.irq expired) { m with cpu := cpu, sys := sys, armed := armed }
  | userIrq (m : TimerState) (expired armed : List TimerCallback) (woken : List TaskId)
      (cpu : Cpu) (sys : System) (hheld : m.held = none) (hexpired : expired ⊆ m.armed)
      (harmed : armed ⊆ m.armed) (hnext : m.cpu.next (.userTimer woken) = some cpu)
      (hrun : m.sys.ktimerRunExpired none expired = some sys) :
      Does m (.userIrq expired) { m with cpu := cpu, sys := sys, armed := armed }

/-- The machine after booting. -/
def boot : TimerState := ⟨Cpu.boot, System.boot, [], none⟩

/-- Where a timer interrupt can be taken, no callback finds its mutex taken. -/
def CallbacksRun (m : TimerState) : Prop :=
  m.cpu.sie = true → ∀ expired, expired ⊆ m.armed →
    (m.sys.ktimerRunExpired m.held expired).isSome = true

/-- The condition on a step: a section is entered with interrupts disabled, or on a mutex that
no armed timer can ask for. -/
def SectionsMasked (m : TimerState) (e : TimerEvent) : Prop :=
  ∀ lock, e = .lock lock →
    m.cpu.sie = false ∨ ∀ callback ∈ m.armed, lock ∉ m.sys.reachLocks callback

/-- A mutex that is held is out of reach of the interrupt handler. -/
def HeldSafely (m : TimerState) : Prop :=
  ∀ lock, m.held = some lock →
    m.cpu.sie = false ∨ ∀ callback ∈ m.armed, lock ∉ m.sys.reachLocks callback

variable {cpu cpu' : Cpu}

theorem sie_of_timer {woken : List TaskId} (hnext : cpu.next (.timer woken) = some cpu') :
    cpu.sie = true := by
  simp only [Cpu.next] at hnext
  split_ifs at hnext with hguard
  exact hguard.1

theorem HeldSafely.does {m m' : TimerState} {e : TimerEvent} (h : m.HeldSafely)
    (hcond : m.SectionsMasked e) (hdoes : Does m e m') : m'.HeldSafely := by
  intro lock hlock
  cases hdoes with
  | cpu _ _ hheld | kernel _ hheld | settime _ hheld | userIrq _ _ _ _ _ hheld =>
    rw [hheld] at hlock
    cases hlock
  | unlock => cases hlock
  | lock taken hheld hkernel =>
    obtain rfl := Option.some.inj hlock
    exact hcond taken rfl
  | irq expired armed woken cpu sys hexpired harmed hnext hrun =>
    rcases h lock hlock with hmasked | hfree
    · rw [sie_of_timer hnext] at hmasked
      cases hmasked
    · refine .inr fun callback hmem => ?_
      rw [(System.signalled_ktimerRunExpired hrun).reachLocks]
      exact hfree callback (harmed hmem)

/-- In every run in which the sections are entered with interrupts disabled, or on mutexes out
of reach of the armed timers, the interrupt handler never waits for a mutex. -/
theorem callbacksRun_of_sectionsMasked {m : TimerState}
    (hrun : Runs Does SectionsMasked boot m) : m.CallbacksRun := by
  have hstart : boot.HeldSafely := by
    intro lock hlock
    cases hlock
  have hsafe := hrun.induct hstart fun _ _ _ h hcond hdoes => h.does hcond hdoes
  intro henabled expired hexpired
  refine System.ktimerRunExpired_isSome fun callback hmem lock hlock => ?_
  rcases hsafe lock hlock with hmasked | hfree
  · rw [henabled] at hmasked
    cases hmasked
  · exact hfree callback (hexpired hmem)

/-! ## A signal from the console -/

variable {cond : TimerState → TimerEvent → Prop}

/-- Steps of the scheduler and of traps, while no mutex is held. -/
theorem runs_cpu (hcond : ∀ m e, cond m (.cpu e)) (sys : System) (armed : List TimerCallback)
    (hrun : Runs Cpu.Does (fun _ e => ∀ woken, e ≠ .timer woken ∧ e ≠ .userTimer woken) cpu cpu') :
    Runs Does cond ⟨cpu, sys, armed, none⟩ ⟨cpu', sys, armed, none⟩ := by
  induction hrun with
  | refl => exact .refl
  | tail _ hlast ih =>
    obtain ⟨e, hirq, hnext⟩ := hlast
    exact ih.tail ⟨.cpu e, hcond _ e, .cpu _ e _ rfl hirq hnext⟩

/-- Any event but an interrupt. -/
def noIrq (_ : Cpu) : Event → Bool
  | .timer _ | .userTimer _ => false
  | _ => true

theorem runs_of_runAll (hcond : ∀ m e, cond m (.cpu e)) {events : List Event} (sys : System)
    (armed : List TimerCallback) (hrun : runAll Cpu.next noIrq events cpu = some cpu') :
    Runs Does cond ⟨cpu, sys, armed, none⟩ ⟨cpu', sys, armed, none⟩ := by
  refine runs_cpu hcond sys armed (Runs.of_runAll (fun _ _ _ heq => heq) (fun cpu e hok => ?_) hrun)
  intro woken
  constructor
  · rintro rfl
    cases hok
  · rintro rfl
    cases hok

/-- The init process and the console thread have been created; init has gone to user mode and
is in a system call. -/
def initInSyscall : List Event :=
  .spawn 1 [.fresh true, .thread] :: List.replicate 5 .stmt ++
    .spawn 2 [.fresh true, .thread] :: List.replicate 5 .stmt ++
    .schedule :: List.replicate 11 .stmt ++ [.execUser, .trap]

/-- The switch from init to the console thread, in the trap of the interrupt that ends its
time slice. -/
def toConsoleThread : List Event := .schedule :: List.replicate 17 .stmt

/-- Init arms `ITIMER_REAL`; later the console thread, which runs with interrupts enabled,
sends a signal to init and holds its `signal->lock` when the timer can expire. -/
theorem callback_finds_signal_lock_taken :
    ∃ m, Runs Does (fun _ _ => True) boot m ∧ ¬m.CallbacksRun := by
  have hcpu : ((runAll Cpu.next noIrq initInSyscall Cpu.boot).bind fun cpu1 =>
      if cpu1.inKernel then
        (runAll Cpu.next noIrq [.sret] cpu1).bind fun cpu2 =>
          (cpu2.next (.userTimer [])).bind (runAll Cpu.next noIrq toConsoleThread)
      else none).any (fun cpu => cpu.sie && cpu.inKernel) = true := by
    decide +kernel
  obtain ⟨cpu, hrun, hstate⟩ := (Option.any_eq_true _ _).mp hcpu
  obtain ⟨hsie, hkernel⟩ := Bool.and_eq_true_iff.mp hstate
  obtain ⟨cpu1, hinit, hrun⟩ := Option.bind_eq_some_iff.mp hrun
  split_ifs at hrun with hsyscall
  obtain ⟨cpu2, hsret, hrun⟩ := Option.bind_eq_some_iff.mp hrun
  obtain ⟨cpu3, hirq, hconsole⟩ := Option.bind_eq_some_iff.mp hrun
  have harm : Runs Does (fun _ _ => True) boot ⟨cpu1, System.boot, [.itimerReal 1], none⟩ :=
    (runs_of_runAll (fun _ _ => trivial) _ _ hinit).tail
      ⟨.settime, trivial, .settime _ [.itimerReal 1] rfl hsyscall⟩
  have htick : Runs Does (fun _ _ => True) boot ⟨cpu3, System.boot, [.itimerReal 1], none⟩ :=
    (harm.trans (runs_of_runAll (fun _ _ => trivial) _ _ hsret)).tail
      ⟨.userIrq [], trivial, .userIrq _ [] _ [] cpu3 _ rfl (List.nil_subset _)
        (List.Subset.refl _) hirq rfl⟩
  have hlock : Runs Does (fun _ _ => True) boot
      ⟨cpu, System.boot, [.itimerReal 1], some (.signal 1)⟩ :=
    (htick.trans (runs_of_runAll (fun _ _ => trivial) _ _ hconsole)).tail
      ⟨.lock (.signal 1), trivial, .lock _ (.signal 1) rfl hkernel⟩
  refine ⟨_, hlock, fun hcallbacks => ?_⟩
  have hsome := hcallbacks hsie [.itimerReal 1] (List.Subset.refl _)
  cases hsome

/-- Init takes its own `signal->lock` in the system call, with interrupts disabled; when it is
back in user mode the timer can expire. -/
theorem callbacksRun_after_masked_section :
    ∃ m, Runs Does SectionsMasked boot m ∧ m.cpu.sie = true ∧ m.armed = [.itimerReal 1] ∧
      m.CallbacksRun := by
  have hcpu : ((runAll Cpu.next noIrq initInSyscall Cpu.boot).bind fun cpu1 =>
      if cpu1.inKernel = true ∧ cpu1.sie = false then runAll Cpu.next noIrq [.sret] cpu1
      else none).any (fun cpu => cpu.sie) = true := by
    decide +kernel
  obtain ⟨cpu, hrun, hsie⟩ := (Option.any_eq_true _ _).mp hcpu
  obtain ⟨cpu1, hinit, hrun⟩ := Option.bind_eq_some_iff.mp hrun
  split_ifs at hrun with hsyscall
  obtain ⟨hkernel, hmasked⟩ := hsyscall
  have hother : ∀ m e, SectionsMasked m (.cpu e) := by
    intro m e lock heq
    cases heq
  have harm : Runs Does SectionsMasked boot ⟨cpu1, System.boot, [.itimerReal 1], none⟩ := by
    refine (runs_of_runAll hother _ _ hinit).tail ⟨.settime, ?_, .settime _ _ rfl hkernel⟩
    intro lock heq
    cases heq
  have hlock : Runs Does SectionsMasked boot
      ⟨cpu1, System.boot, [.itimerReal 1], some (.signal 1)⟩ :=
    harm.tail ⟨.lock (.signal 1), fun _ _ => .inl hmasked, .lock _ _ rfl hkernel⟩
  have hunlock : Runs Does SectionsMasked boot ⟨cpu1, System.boot, [.itimerReal 1], none⟩ := by
    refine hlock.tail ⟨.unlock, ?_, .unlock _ (.signal 1) _ rfl (.inl rfl)⟩
    intro lock heq
    cases heq
  have huser := hunlock.trans (runs_of_runAll hother _ _ hrun)
  exact ⟨_, huser, hsie, rfl, callbacksRun_of_sectionsMasked huser⟩

end TimerState

end CuteOS.Kernel
