/-
  Sched/Cpu.lean --- one processor, its interrupt flag, and the tasks' kernel stacks.

  Sources: `sched/sched.c`, `sched/mlfq.c`, `kernel/waitqueue.c` (`wait_for`,
  `wait_block_current`), `arch/riscv/switch.S`, `arch/riscv/entry.S`, `arch/riscv/trap.c`,
  `arch/riscv/task.c`, `include/kernel/spinlock.h`, `init/main.c`.

  The functions of the scheduler run statement by statement, and a timer interrupt may be
  taken before each statement when `sstatus.SIE` is set; the handler itself runs with the
  flag clear and is one step.  A kernel stack is the list of the calls and traps in
  progress on it, with the value of the flag that each of them saw.  `switch_to` saves and
  loads `ra`, `sp` and `s0` to `s11` only: the flag is the processor's.

  Everything else that a task does in the kernel is given by what it calls: it wakes,
  creates and ends tasks, takes spinlocks, takes an exception, waits.  There is no exception
  in a spinlock section: kernel code copies from and to user memory outside of them, apart from
  `futex_wait_check`, whose word `user_range_probe` has made present.
-/
import CuteOS.Lib.Code
import CuteOS.Lib.Runs
import CuteOS.Sched.Mlfq

set_option autoImplicit false

namespace CuteOS.Sched

open CuteOS.Kernel CuteOS.Lib.Code

/-! ## The scheduler, statement by statement -/

/-- A statement of the scheduler, with the local variables it reads. -/
inductive Stmt where
  /-- `task_set_need_resched(prev, 0)` -/
  | clearNeedResched (prev : TaskId)
  /-- `if (mlfq_empty())` -/
  | ifEmpty (prev : TaskId)
  /-- `if (prev == &idle_task || prev->lifecycle.state == TASK_RUNNING) return` -/
  | ifStays (prev : TaskId)
  /-- `next = mlfq_pick_next()` -/
  | pickNext (prev : TaskId)
  /-- `if (next == prev) return` -/
  | ifSame (prev next : TaskId)
  /-- `if (prev != &idle_task && ... TASK_RUNNING && list_empty(...)) mlfq_enqueue(prev)` -/
  | ifRequeue (prev next : TaskId)
  | setCurrent (next : TaskId)
  | taskSwitch (next : TaskId)
  /-- The `BUG_ON`s of `mlfq_enqueue`. -/
  | bugIfLinked (t : TaskId)
  | listAddTail (t : TaskId)
  | stamp (t : TaskId)
  | markNonempty (t : TaskId)
  /-- `runnable_count++` -/
  | countUp
  /-- `if (list_empty(&task->sched.run_list)) return; level = task->sched.sched_level` -/
  | ifLinked (t : TaskId)
  | listDelInit (t : TaskId)
  /-- `if (list_empty(&queues[level]))` -/
  | ifQueueEmpty (level : Level)
  | clearMark (level : Level)
  /-- `runnable_count--` -/
  | countDown
  /-- The `BUG_ON`s of `mlfq_wakeup`. -/
  | bugIfIdle (t : TaskId)
  | resetBudget (t : TaskId)
  /-- `if (list_empty(&task->sched.run_list)) mlfq_enqueue(task)` -/
  | ifUnlinked (t : TaskId)
  /-- `task_set_state(task, TASK_RUNNING)` -/
  | setRunning (t : TaskId)
  /-- `if (task != current_task()) sched_wakeup(task)` -/
  | ifNotCurrent (t : TaskId)
  deriving DecidableEq, Repr

/-- `mlfq_enqueue`. -/
def enqueueCode (t : TaskId) : List Stmt :=
  [.bugIfLinked t, .listAddTail t, .stamp t, .markNonempty t, .countUp]

/-- `mlfq_dequeue`. -/
def dequeueCode (t : TaskId) : List Stmt := [.ifLinked t]

/-- `mlfq_wakeup`. -/
def wakeupCode (t : TaskId) : List Stmt := [.bugIfIdle t, .resetBudget t, .ifUnlinked t]

/-- `sched_wake_task`. -/
def wakeTaskCode (t : TaskId) : List Stmt := [.setRunning t, .ifNotCurrent t]

/-- `schedule()`, called by `prev`. -/
def scheduleCode (prev : TaskId) : List Stmt := [.clearNeedResched prev, .ifEmpty prev]

/-- The last statements of `schedule()`. -/
def switchCode (next : TaskId) : List Stmt := [.setCurrent next, .taskSwitch next]

/-- One statement: the queues it leaves and the statements it goes on with.  What
`taskSwitch` does to the stacks is in `Cpu.switchTo`. -/
def exec : Stmt → RunQueue → Option (RunQueue × List Stmt)
  | .clearNeedResched prev, s => some (s.setNeedResched prev false, [])
  | .ifEmpty prev, s => some (s, if s.mlfqEmpty then [.ifStays prev] else [.pickNext prev])
  | .ifStays prev, s =>
    some (s, if prev = idleTask ∨ (s.task prev).state = .running then [] else switchCode idleTask)
  | .pickNext prev, s =>
    match s.mlfqPeekNext with
    | none => none
    | some next => some (s, dequeueCode next ++ [.ifSame prev next])
  | .ifSame prev next, s => some (s, if next = prev then [] else [.ifRequeue prev next])
  | .ifRequeue prev next, s =>
    some (s, if prev ≠ idleTask ∧ (s.task prev).state = .running ∧ s.linked prev = false then
      enqueueCode prev ++ switchCode next else switchCode next)
  | .setCurrent next, s => some (s.setCurrent next, [])
  | .taskSwitch _, s => some (s, [])
  | .bugIfLinked t, s => if t = idleTask ∨ s.linked t = true then none else some (s, [])
  | .listAddTail t, s => some (s.listAddTail t (s.task t).schedLevel, [])
  | .stamp t, s => some (s.stamp t, [])
  | .markNonempty t, s => some (s.markNonempty (s.task t).schedLevel, [])
  | .countUp, s => some (s.setCount (s.runnableCount + 1), [])
  | .ifLinked t, s =>
    some (s, if s.linked t = false then []
      else [.listDelInit t, .ifQueueEmpty (s.task t).schedLevel, .countDown])
  | .listDelInit t, s => some (s.listDelInit t, [])
  | .ifQueueEmpty l, s => some (s, if (s.queues l).isEmpty then [.clearMark l] else [])
  | .clearMark l, s => some (s.clearMark l, [])
  | .countDown, s =>
    if s.runnableCount = 0 then none else some (s.setCount (s.runnableCount - 1), [])
  | .bugIfIdle t, s => if t = idleTask then none else some (s, [])
  | .resetBudget t, s => some (s.resetBudget t, [])
  | .ifUnlinked t, s => some (s, if s.linked t then [] else enqueueCode t)
  | .setRunning t, s => some (s.setState t .running, [])
  | .ifNotCurrent t, s => some (s, if t ≠ s.current then wakeupCode t else [])

/-! ## Without interrupts, the statements compute the functions -/

section functions

variable {s : RunQueue} {t prev next : TaskId} {P : RunQueue → Prop}

theorem leaves_enqueueCode :
    Leaves exec (enqueueCode t) s P ↔ ∀ s', s.mlfqEnqueue t = some s' → P s' := by
  unfold enqueueCode RunQueue.mlfqEnqueue
  by_cases hbug : t = idleTask ∨ s.linked t = true
  · rw [if_pos hbug]
    refine iff_of_true (leaves_cons_of_none (if_pos hbug)) ?_
    intro s' heq
    cases heq
  · rw [if_neg hbug, leaves_cons_of_eq (if_neg hbug)]
    simp [leaves_cons, exec]

theorem leaves_refreshEmptyMark {l : Level} {rest : List Stmt} :
    Leaves exec (.ifQueueEmpty l :: rest) s P ↔ Leaves exec rest (s.refreshEmptyMark l) P := by
  unfold RunQueue.refreshEmptyMark
  by_cases hempty : (s.queues l).isEmpty = true
  · simp [leaves_cons, exec, hempty]
  · simp [leaves_cons, exec, hempty]

theorem leaves_dequeueCode :
    Leaves exec (dequeueCode t) s P ↔ ∀ s', s.mlfqDequeue t = some s' → P s' := by
  unfold dequeueCode RunQueue.mlfqDequeue
  by_cases hlinked : s.linked t = false
  · simp [leaves_cons, exec, hlinked]
  · rw [if_neg hlinked]
    have hfirst : exec (.ifLinked t) s =
        some (s, [.listDelInit t, .ifQueueEmpty (s.task t).schedLevel, .countDown]) := by
      simp [exec, hlinked]
    have hdel : exec (.listDelInit t) s = some (s.listDelInit t, []) := rfl
    rw [leaves_cons_of_eq hfirst, List.append_nil, leaves_cons_of_eq hdel, List.nil_append,
      leaves_refreshEmptyMark]
    simp only
    generalize (s.listDelInit t).refreshEmptyMark (s.task t).schedLevel = s1
    by_cases hzero : s1.runnableCount = 0
    · simp [leaves_cons, exec, hzero]
    · simp [leaves_cons, exec, hzero]

theorem leaves_wakeupCode :
    Leaves exec (wakeupCode t) s P ↔ ∀ s', s.mlfqWakeup t = some s' → P s' := by
  unfold wakeupCode RunQueue.mlfqWakeup
  by_cases hidle : t = idleTask
  · rw [if_pos hidle]
    refine iff_of_true (leaves_cons_of_none (if_pos hidle)) ?_
    intro s' heq
    cases heq
  · have hreset : exec (.resetBudget t) s = some (s.resetBudget t, []) := rfl
    rw [if_neg hidle, leaves_cons_of_eq (if_neg hidle), List.nil_append, leaves_cons_of_eq hreset,
      List.nil_append]
    by_cases hlinked : (s.resetBudget t).linked t = true
    · simp [leaves_cons, exec, hlinked]
    · have htest : exec (.ifUnlinked t) (s.resetBudget t) =
          some (s.resetBudget t, enqueueCode t) := by
        simp [exec, hlinked]
      rw [leaves_cons_of_eq htest, List.append_nil, leaves_enqueueCode]
      simp [hlinked]

theorem leaves_wakeTaskCode :
    Leaves exec (wakeTaskCode t) s P ↔ ∀ s', s.schedWakeTask t = some s' → P s' := by
  unfold wakeTaskCode RunQueue.schedWakeTask
  have hset : exec (.setRunning t) s = some (s.setState t .running, []) := rfl
  rw [leaves_cons_of_eq hset, List.nil_append]
  by_cases hcurrent : t = (s.setState t .running).current
  · simp [leaves_cons, exec, ← hcurrent]
  · have htest : exec (.ifNotCurrent t) (s.setState t .running) =
        some (s.setState t .running, wakeupCode t) := by
      simp [exec, hcurrent]
    rw [leaves_cons_of_eq htest, List.append_nil, leaves_wakeupCode]
    simp [hcurrent]

theorem leaves_switchCode :
    Leaves exec (switchCode next) s P ↔ P (s.setCurrent next) := by
  unfold switchCode
  simp [leaves_cons, exec]

theorem leaves_ifRequeue : Leaves exec [.ifRequeue prev next] s P ↔
      ∀ s', s.requeue prev = some s' → P (s'.setCurrent next) := by
  unfold RunQueue.requeue
  by_cases hrequeue : prev ≠ idleTask ∧ (s.task prev).state = .running ∧ s.linked prev = false
  · have htest : exec (.ifRequeue prev next) s =
        some (s, enqueueCode prev ++ switchCode next) := by
      simp only [exec, if_pos hrequeue]
    rw [leaves_cons_of_eq htest, List.append_nil, leaves_append, leaves_enqueueCode,
      if_pos hrequeue]
    simp only [leaves_switchCode]
  · have htest : exec (.ifRequeue prev next) s = some (s, switchCode next) := by
      simp only [exec, if_neg hrequeue]
    rw [leaves_cons_of_eq htest, List.append_nil, leaves_switchCode, if_neg hrequeue]
    simp

theorem leaves_pickNext : Leaves exec [.pickNext prev] s P ↔
      ∀ next s1, s.mlfqPickNext = some (next, s1) →
        Leaves exec [.ifSame prev next] s1 P := by
  unfold RunQueue.mlfqPickNext
  cases hpeek : s.mlfqPeekNext with
  | none =>
    refine iff_of_true (leaves_cons_of_none (by simp [exec, hpeek])) ?_
    intro next s1 heq
    cases heq
  | some next =>
    have htest : exec (.pickNext prev) s = some (s, dequeueCode next ++ [.ifSame prev next]) := by
      simp [exec, hpeek]
    rw [leaves_cons_of_eq htest, List.append_nil, leaves_append, leaves_dequeueCode]
    constructor
    · intro h next' s1 heq
      obtain ⟨s2, hdeq, heq⟩ := Option.map_eq_some_iff.mp heq
      obtain ⟨rfl, rfl⟩ := Prod.mk.inj heq
      exact h s2 hdeq
    · intro h s1 hdeq
      exact h next s1 (Option.map_eq_some_iff.mpr ⟨s1, hdeq, rfl⟩)

/-- `schedule()` up to the switch. -/
theorem leaves_scheduleCode : Leaves exec (scheduleCode s.current) s P ↔
      ∀ next s', s.schedule = some (next, s') → P s' := by
  unfold scheduleCode RunQueue.schedule
  have hclear : exec (.clearNeedResched s.current) s =
      some (s.setNeedResched s.current false, []) := rfl
  rw [leaves_cons_of_eq hclear, List.nil_append]
  simp only
  generalize s.setNeedResched s.current false = s1
  generalize s.current = prev
  by_cases hempty : s1.mlfqEmpty = true
  · by_cases hstays : prev = idleTask ∨ (s1.task prev).state = .running
    · simp [leaves_cons, exec, hempty, hstays]
    · simp [leaves_cons, exec, hempty, hstays, switchCode]
  · have htest : exec (.ifEmpty prev) s1 = some (s1, [.pickNext prev]) := by
      simp [exec, hempty]
    rw [if_neg hempty, leaves_cons_of_eq htest, List.append_nil, leaves_pickNext]
    cases hpick : s1.mlfqPickNext with
    | none => simp
    | some picked =>
      obtain ⟨next, s2⟩ := picked
      have hone : (∀ next' s', some (next, s2) = some (next', s') →
          Leaves exec [.ifSame prev next'] s' P) ↔ Leaves exec [.ifSame prev next] s2 P := by
        constructor
        · intro h
          exact h next s2 rfl
        · intro h next' s' heq
          cases heq
          exact h
      rw [hone]
      by_cases hsame : next = prev
      · simp [leaves_cons, exec, hsame]
      · have hother : exec (.ifSame prev next) s2 = some (s2, [.ifRequeue prev next]) := by
          simp [exec, hsame]
        rw [leaves_cons_of_eq hother, List.append_nil, leaves_ifRequeue]
        simp only [if_neg hsame, Option.map_eq_some_iff, Prod.mk.injEq]
        constructor
        · rintro h next' s' ⟨s3, hrequeue, -, rfl⟩
          exact h s3 hrequeue
        · intro h s3 hrequeue
          exact h (some next) _ ⟨s3, hrequeue, rfl, rfl⟩

end functions

/-! ## Stacks -/

/-- Where a call of `wait_for` is. -/
inductive WaitPc where
  /-- The first `wait_check` and `wait_arbitrate` of a turn. -/
  | probe
  /-- The second, after `task_set_state(current_task(), sleep_state)`. -/
  | armed (sleepState : TaskState)
  /-- `wait_for_interrupt()` in `wait_block_current`, with `enabled_irq_for_sleep`. -/
  | halted (enabled : Bool)
  /-- After `wait_block_current`. -/
  | woken
  /-- After the loop, about to return. -/
  | done
  deriving DecidableEq, Repr

/-- A call or a trap in progress on a kernel stack. -/
inductive Frame where
  /-- A task that has not run yet: `__trapret` with the frame of `task_setup_kthread` or
  `task_setup_clone_frame`. -/
  | fresh (spie : Bool)
  /-- The function of a kernel thread, or the idle loop. -/
  | thread
  /-- A trap, with the `SPIE` bit that `__trapret` restores `SIE` from. -/
  | trap (spie : Bool)
  /-- A call of `schedule()` made with this value of `SIE`. -/
  | schedule (sie : Bool)
  /-- A call of `wait_for` made with this value of `SIE`. -/
  | waitFor (sie : Bool) (pc : WaitPc)
  deriving DecidableEq, Repr

/-- The processor. -/
structure Cpu where
  rq : RunQueue
  /-- The statements of the scheduler that the processor is in the middle of. -/
  code : List Stmt
  /-- The tasks that the scheduler is responsible for. -/
  live : TaskId → Bool
  /-- The task on whose kernel stack the processor runs. -/
  running : TaskId
  /-- The kernel stacks, the innermost frame first; empty in user mode. -/
  stack : TaskId → List Frame
  /-- `sstatus.SIE`. -/
  sie : Bool
  /-- `lock_depth` and `lock_irq_flags` of `struct cpu`. -/
  lockDepth : Nat
  lockIrqFlags : Bool

/-- What happens next. -/
inductive Event where
  /-- The next statement of the scheduler. -/
  | stmt
  /-- A timer interrupt in the kernel; the tasks are those the expired timers would wake. -/
  | timer (expired : List TaskId)
  /-- A timer interrupt in user mode. -/
  | userTimer (expired : List TaskId)
  /-- An exception, in user mode or in the kernel. -/
  | trap
  | sret
  /-- `trapret_to_user` of `exec_user_path`. -/
  | execUser
  /-- `local_irq_enable()` in the idle loop. -/
  | irqEnable
  | spinLock
  | spinUnlock
  /-- `sched_wake_task`. -/
  | wake (t : TaskId)
  /-- `kernel_thread`, or with a copy of the caller's trap frame `kernel_clone`. -/
  | spawn (t : TaskId) (frames : List Frame)
  /-- `sched_dequeue` in `finish_task_exit` and `release_task`. -/
  | dequeue (t : TaskId)
  /-- A task is stopped, or becomes a zombie or dead. -/
  | setState (t : TaskId) (state : TaskState)
  | schedule
  /-- `schedule()` returns to its caller. -/
  | ret
  /-- A call of `wait_for`, with arguments it accepts or not. -/
  | waitFor (valid : Bool)
  /-- The first check found nothing: the state is set. -/
  | waitArm (sleepState : TaskState)
  /-- A check ended the wait. -/
  | waitDone
  /-- `wait_block_current` returns at once, or through `schedule()`, or after
  `wait_for_interrupt()`. -/
  | waitSkip
  | waitSchedule
  | waitHalt
  | waitResume
  /-- The next turn of the loop. -/
  | waitAgain
  | waitReturn
  deriving DecidableEq, Repr

namespace Cpu

/-- The frames of the task that runs. -/
def frames (m : Cpu) : List Frame := m.stack m.running

def setFrames (m : Cpu) (frames : List Frame) : Cpu :=
  { m with stack := Function.update m.stack m.running frames }

def push (m : Cpu) (frame : Frame) : Cpu := m.setFrames (frame :: m.frames)

/-- Kernel code that is not part of `schedule()` or of `wait_for` itself. -/
def inKernel (m : Cpu) : Bool :=
  m.code.isEmpty &&
    match m.frames with
    | .thread :: _ | .trap _ :: _ | .waitFor _ .probe :: _ | .waitFor _ (.armed _) :: _ => true
    | _ => false

/-- `task->active_wait`. -/
def activeWait (m : Cpu) : Bool :=
  m.frames.any fun
    | .waitFor _ _ => true
    | _ => false

/-- The entry of a trap: the hardware clears `SIE` and keeps it in `SPIE`. -/
def enterTrap (m : Cpu) : Cpu := { m.push (.trap m.sie) with sie := false }

/-- A call of `schedule()`. -/
def callSchedule (m : Cpu) : Cpu :=
  { m.push (.schedule m.sie) with code := scheduleCode m.rq.current }

/-- `switch_to(&prev->arch.ctx, &next->arch.ctx)`: a task that was switched out goes on in
`schedule()`, a new one starts with `__trapret`. -/
def switchTo (m : Cpu) (next : TaskId) : Option Cpu :=
  match m.stack next with
  | .schedule _ :: _ => some { m with running := next }
  | .fresh spie :: rest =>
    some { m with running := next, stack := Function.update m.stack next rest, sie := spie }
  | _ => none

/-- The next statement of the scheduler. -/
def runStmt (m : Cpu) : Option Cpu :=
  match m.code with
  | [] => none
  | stmt :: rest =>
    match exec stmt m.rq with
    | none => none
    | some (rq, more) =>
      let m := { m with rq := rq, code := more ++ rest }
      match stmt with
      | .taskSwitch next => m.switchTo next
      | _ => some m

/-- `spin_lock_irqsave`. -/
def spinLockIrqsave (m : Cpu) : Cpu :=
  { m with
    sie := false
    lockIrqFlags := if m.lockDepth = 0 then m.sie else m.lockIrqFlags
    lockDepth := m.lockDepth + 1 }

/-- `spin_unlock_irqrestore`. -/
def spinUnlockIrqrestore (m : Cpu) : Cpu :=
  { m with
    sie := if m.lockDepth - 1 = 0 then m.lockIrqFlags else m.sie
    lockDepth := m.lockDepth - 1 }

/-- `wait_finish_current_state`. -/
def waitFinishCurrentState (m : Cpu) : Cpu :=
  if (m.rq.task m.rq.current).state.anySleep then
    { m with rq := m.rq.setState m.rq.current .running }
  else m

/-- The step that an event is, if it can happen. -/
def next (m : Cpu) : Event → Option Cpu
  | .stmt => m.runStmt
  | .timer expired =>
    if m.sie = true ∧ m.frames ≠ [] then
      (m.rq.handleTimerIrq expired).map fun rq => { m with rq := rq }
    else none
  | .userTimer expired =>
    if m.code = [] ∧ m.frames = [] then
      (m.rq.handleTimerIrq expired).map fun rq => { m with rq := rq }.enterTrap
    else none
  | .trap =>
    if m.lockDepth = 0 ∧ (m.inKernel = true ∨ m.code = [] ∧ m.frames = []) then some m.enterTrap
    else none
  | .sret =>
    match m.frames with
    | .trap spie :: rest =>
      if m.code = [] ∧ m.lockDepth = 0 then some { m.setFrames rest with sie := spie } else none
    | _ => none
  | .execUser =>
    if m.code = [] ∧ m.lockDepth = 0 ∧ m.frames = [.thread] then
      some { m.setFrames [] with sie := true }
    else none
  | .irqEnable =>
    if m.code = [] ∧ m.lockDepth = 0 ∧ m.frames = [.thread] ∧ m.running = idleTask then
      some { m with sie := true }
    else none
  | .spinLock => if m.inKernel then some m.spinLockIrqsave else none
  | .spinUnlock => if m.inKernel = true ∧ 0 < m.lockDepth then some m.spinUnlockIrqrestore else none
  | .wake t => if m.inKernel then some { m with code := wakeTaskCode t } else none
  | .spawn t frames =>
    if m.inKernel = true ∧ t ≠ m.rq.current ∧ t ≠ m.running ∧ m.rq.linked t = false ∧
        (frames = [.fresh true, .thread] ∨ ∃ spie, frames = [.fresh spie]) then
      some { m with
        rq := m.rq.setTask t fun _ => {}
        code := enqueueCode t
        live := Function.update m.live t true
        stack := Function.update m.stack t frames }
    else none
  | .dequeue t =>
    if m.inKernel = true ∧ t ≠ m.rq.current then
      some { m with code := dequeueCode t, live := Function.update m.live t false }
    else none
  | .setState t state =>
    if m.inKernel = true ∧ (state = .stopped ∨ state = .zombie ∨ state = .dead) then
      some { m with rq := m.rq.setState t state }
    else none
  | .schedule => if m.inKernel = true ∧ m.lockDepth = 0 then some m.callSchedule else none
  | .ret =>
    match m.frames with
    | .schedule _ :: rest => if m.code = [] then some (m.setFrames rest) else none
    | _ => none
  | .waitFor valid =>
    if m.inKernel = true ∧ m.lockDepth = 0 ∧ (valid = true → m.activeWait = false) then
      some (m.push (.waitFor m.sie (if valid then .probe else .done)))
    else none
  | .waitArm sleepState =>
    match m.frames with
    | .waitFor sie .probe :: rest =>
      if m.code = [] ∧ m.lockDepth = 0 ∧ sleepState.anySleep = true then
        some { m.setFrames (.waitFor sie (.armed sleepState) :: rest) with
          rq := m.rq.setState m.rq.current sleepState }
      else none
    | _ => none
  | .waitDone =>
    match m.frames with
    | .waitFor sie .probe :: rest | .waitFor sie (.armed _) :: rest =>
      if m.code = [] ∧ m.lockDepth = 0 then some (m.setFrames (.waitFor sie .done :: rest))
      else none
    | _ => none
  | .waitSkip =>
    match m.frames with
    | .waitFor sie (.armed sleepState) :: rest =>
      if m.code = [] ∧ m.lockDepth = 0 ∧ (m.rq.task m.rq.current).state ≠ sleepState then
        some (m.setFrames (.waitFor sie .woken :: rest))
      else none
    | _ => none
  | .waitSchedule =>
    match m.frames with
    | .waitFor sie (.armed sleepState) :: rest =>
      if m.code = [] ∧ m.lockDepth = 0 ∧ (m.rq.task m.rq.current).state = sleepState ∧
          m.rq.mlfqEmpty = false then
        some (m.setFrames (.waitFor sie .woken :: rest)).callSchedule
      else none
    | _ => none
  | .waitHalt =>
    match m.frames with
    | .waitFor sie (.armed sleepState) :: rest =>
      if m.code = [] ∧ m.lockDepth = 0 ∧ (m.rq.task m.rq.current).state = sleepState ∧
          m.rq.mlfqEmpty = true then
        some { m.setFrames (.waitFor sie (.halted !m.sie) :: rest) with sie := true }
      else none
    | _ => none
  | .waitResume =>
    match m.frames with
    | .waitFor sie (.halted enabled) :: rest =>
      if m.code = [] then
        some { m.setFrames (.waitFor sie .woken :: rest) with sie := !enabled && m.sie }
      else none
    | _ => none
  | .waitAgain =>
    match m.frames with
    | .waitFor sie .woken :: rest =>
      if m.code = [] then
        some (m.waitFinishCurrentState.setFrames (.waitFor sie .probe :: rest))
      else none
    | _ => none
  | .waitReturn =>
    match m.frames with
    | .waitFor _ .done :: rest =>
      if m.code = [] then some (m.waitFinishCurrentState.setFrames rest) else none
    | _ => none

/-- `next` as a relation. -/
def Does (m : Cpu) (e : Event) (m' : Cpu) : Prop := m.next e = some m'

theorem code_of_inKernel {m : Cpu} (h : m.inKernel = true) : m.code = [] := by
  exact List.isEmpty_iff.mp (Bool.and_eq_true_iff.mp h).1

theorem switchTo_cases {m m' : Cpu} {next : TaskId} (heq : m.switchTo next = some m') :
    (∃ sie rest, m.stack next = .schedule sie :: rest ∧ m' = { m with running := next }) ∨
      ∃ spie rest, m.stack next = .fresh spie :: rest ∧
        m' = { m with running := next, stack := Function.update m.stack next rest, sie := spie } := by
  unfold switchTo at heq
  split at heq
  · rename_i sie rest hstack
    exact .inl ⟨sie, rest, hstack, (Option.some.inj heq).symm⟩
  · rename_i spie rest hstack
    exact .inr ⟨spie, rest, hstack, (Option.some.inj heq).symm⟩
  · cases heq

theorem runStmt_cases {m m' : Cpu} (heq : m.runStmt = some m') :
    ∃ stmt rest rq more, m.code = stmt :: rest ∧ exec stmt m.rq = some (rq, more) ∧
      ((∃ next, stmt = .taskSwitch next ∧
          { m with rq := rq, code := more ++ rest }.switchTo next = some m') ∨
        m' = { m with rq := rq, code := more ++ rest }) := by
  unfold runStmt at heq
  split at heq
  · cases heq
  · rename_i stmt rest hcode
    split at heq
    · cases heq
    · rename_i rq more hexec
      refine ⟨stmt, rest, rq, more, hcode, hexec, ?_⟩
      split at heq
      · rename_i next
        exact .inl ⟨next, rfl, heq⟩
      · exact .inr (Option.some.inj heq).symm

/-- The processor at the end of `start_kernel`: the idle task runs, with interrupts enabled
by `trap_init`. -/
def boot : Cpu where
  rq :=
    { queues := fun _ => []
      nonemptyLevels := fun _ => false
      runnableCount := 0
      task := fun _ => {}
      current := idleTask
      jiffies := 0 }
  code := []
  live := fun _ => false
  running := idleTask
  stack := fun t => if t = idleTask then [.thread] else []
  sie := true
  lockDepth := 0
  lockIrqFlags := false

end Cpu

end CuteOS.Sched
