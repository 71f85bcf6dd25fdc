/-
  Sched/Interrupts.lean --- the run queues under timer interrupts.

  The run queues are sound whenever the processor is not in the middle of a function of the
  scheduler, provided that no timer interrupt was taken in the middle of one.  `schedule()`
  is called with interrupts enabled, so such an interrupt can be taken: one that wakes the
  task that `schedule()` has just found asleep finds it to be the current task, does not put
  it on a queue, and the task is lost.
-/
import CuteOS.Sched.Cpu
import CuteOS.Sched.Ownership

set_option autoImplicit false

namespace CuteOS.Sched.Cpu

open CuteOS.Kernel CuteOS.Lib CuteOS.Lib.Code

/-- Every runnable task is the current one, or stands once in the queue of its level and in
no other queue; the marks and the count are those of the queues. -/
structure Owned (m : Cpu) : Prop where
  placed : ∀ t, m.live t = true → t ≠ idleTask → (m.rq.task t).state = .running →
    t = m.rq.current ∨ (m.rq.queues (m.rq.task t).schedLevel).count t = 1 ∧
      ∀ l, l ≠ (m.rq.task t).schedLevel → t ∉ m.rq.queues l
  marked : ∀ l, m.rq.nonemptyLevels l = true ↔ m.rq.queues l ≠ []
  counted : m.rq.runnableCount = ∑ l, (m.rq.queues l).length

/-- No timer interrupt is taken between two statements of a function of the scheduler. -/
def OutsideScheduler (m : Cpu) (e : Event) : Prop := ∀ expired, e = .timer expired → m.code = []

/-- What the rest of the function that the processor is in leaves is sound. -/
def EndsSound (m : Cpu) : Prop := Leaves exec m.code m.rq (RunQueue.Sound m.live)

variable {m m' : Cpu}

theorem owned_of_sound (h : RunQueue.Sound m.live m.rq) : m.Owned where
  placed t hlive hidle hrun := by
    by_cases hcurrent : t = m.rq.current
    · exact .inl hcurrent
    · have hmem := h.mem_of_linked (h.owned t hlive hidle hrun hcurrent)
      refine .inr ⟨List.count_eq_one_of_mem (h.nodup _) hmem, ?_⟩
      intro l hl hother
      exact hl (h.level hother).symm
  marked := h.marked
  counted := h.counted

theorem EndsSound.sound (h : m.EndsSound) (hcode : m.code = []) : RunQueue.Sound m.live m.rq := by
  unfold EndsSound at h
  rw [hcode, leaves_nil] at h
  exact h

theorem endsSound_of_sound (hcode : m.code = []) (h : RunQueue.Sound m.live m.rq) :
    m.EndsSound := by
  unfold EndsSound
  rw [hcode, leaves_nil]
  exact h

/-- A statement leaves what the rest of the function leaves. -/
theorem EndsSound.runStmt (h : m.EndsSound) (heq : m.runStmt = some m') : m'.EndsSound := by
  obtain ⟨stmt, rest, rq, more, hcode, hexec, hcases⟩ := runStmt_cases heq
  unfold EndsSound at h
  rw [hcode, leaves_cons_of_eq hexec] at h
  rcases hcases with ⟨next, -, hswitch⟩ | rfl
  · rcases switchTo_cases hswitch with ⟨_, _, _, rfl⟩ | ⟨_, _, _, rfl⟩
    · exact h
    · exact h
  · exact h

theorem EndsSound.waitFinishCurrentState (h : m.EndsSound) (hcode : m.code = []) :
    m.waitFinishCurrentState.EndsSound := by
  unfold Cpu.waitFinishCurrentState
  split
  · exact endsSound_of_sound hcode ((h.sound hcode).setState (.inl rfl))
  · exact h

/-- Each step keeps the queues sound, as far as the function that is in progress will have
restored them. -/
theorem EndsSound.next {e : Event} (h : m.EndsSound) (hcond : m.OutsideScheduler e)
    (heq : m.next e = some m') : m'.EndsSound := by
  cases e
  case stmt => exact h.runStmt heq
  all_goals simp only [Cpu.next] at heq
  case timer expired =>
    have hcode := hcond expired rfl
    split_ifs at heq
    obtain ⟨rq, hirq, rfl⟩ := Option.map_eq_some_iff.mp heq
    exact endsSound_of_sound hcode ((h.sound hcode).handleTimerIrq hirq)
  case userTimer expired =>
    split_ifs at heq with hguard
    obtain ⟨rq, hirq, rfl⟩ := Option.map_eq_some_iff.mp heq
    exact endsSound_of_sound hguard.1 ((h.sound hguard.1).handleTimerIrq hirq)
  case trap | execUser | irqEnable | spinLock | spinUnlock | waitFor =>
    split at heq <;> try cases heq
    exact h
  case sret | ret | waitDone | waitSkip | waitHalt | waitResume =>
    split at heq <;> try cases heq
    all_goals
      split_ifs at heq
      cases heq
      exact h
  case waitArm sleepState =>
    split at heq <;> try cases heq
    split_ifs at heq with hguard
    cases heq
    exact endsSound_of_sound hguard.1 ((h.sound hguard.1).setState (.inl rfl))
  case waitSchedule =>
    split at heq <;> try cases heq
    split_ifs at heq with hguard
    cases heq
    have hsound := h.sound hguard.1
    exact leaves_scheduleCode.mpr fun next s' hsched => hsound.schedule hsched
  case waitAgain | waitReturn =>
    split at heq <;> try cases heq
    split_ifs at heq with hcode
    cases heq
    exact h.waitFinishCurrentState hcode
  -- the other steps are taken under a guard
  all_goals split at heq <;> cases heq
  case wake t hkernel =>
    have hsound := h.sound (code_of_inKernel hkernel)
    exact leaves_wakeTaskCode.mpr fun s' hwake => hsound.schedWakeTask hwake
  case spawn t frames hguard =>
    obtain ⟨hkernel, hcurrent, -, hlinked, -⟩ := hguard
    have hsound := h.sound (code_of_inKernel hkernel)
    exact leaves_enqueueCode.mpr fun s' henq => hsound.enqueueNew hcurrent hlinked henq
  case dequeue t hguard =>
    have hsound := h.sound (code_of_inKernel hguard.1)
    exact leaves_dequeueCode.mpr fun s' hdeq => hsound.dequeue hdeq
  case setState t state hguard =>
    obtain ⟨hkernel, hstate⟩ := hguard
    have hcode := code_of_inKernel hkernel
    refine endsSound_of_sound hcode ((h.sound hcode).setState (.inr ?_))
    rintro rfl
    simp at hstate
  case schedule hguard =>
    have hsound := h.sound (code_of_inKernel hguard.1)
    exact leaves_scheduleCode.mpr fun next s' hsched => hsound.schedule hsched

theorem endsSound_boot : boot.EndsSound := by
  refine endsSound_of_sound rfl ⟨⟨⟨?_, ?_, ?_, rfl⟩, rfl⟩, rfl, ?_⟩
  · intro t l ht
    cases ht
  · intro l
    exact List.nodup_nil
  · simp [boot]
  · intro t hlive
    cases hlive

/-- In every run in which no timer interrupt is taken inside a function of the scheduler,
the queues own every runnable task whenever no such function is in progress. -/
theorem owned_of_outsideScheduler {m : Cpu} (hrun : Runs Cpu.Does OutsideScheduler boot m)
    (hcode : m.code = []) : m.Owned := by
  have hsound := hrun.induct endsSound_boot fun _ _ _ h hcond heq => h.next hcond heq
  exact owned_of_sound (hsound.sound hcode)

/-! ## A lost wake-up -/

/-- Two kernel threads; the first waits with a deadline, calls `schedule()` because the second
can run, and its deadline expires after `schedule()` has seen that it sleeps. -/
def lostWakeup : List Event :=
  .spawn 1 [.fresh true, .thread] :: List.replicate 5 .stmt ++
    .spawn 2 [.fresh true, .thread] :: List.replicate 5 .stmt ++
    .schedule :: List.replicate 11 .stmt ++
    [.waitFor true, .waitArm .interruptible, .waitSchedule] ++ List.replicate 10 .stmt ++
    [.timer [1], .stmt, .stmt]

/-- `schedule()` has switched to the second thread.  The first is runnable, is not the current
task, and stands in no queue. -/
theorem not_owned_after_lost_wakeup :
    ∃ m, Runs Cpu.Does (fun _ _ => True) boot m ∧ m.code = [] ∧ ¬m.Owned := by
  have hlost : (runAll Cpu.next (fun _ _ => true) lostWakeup boot).any (fun m =>
      m.code.isEmpty && m.live 1 && decide ((m.rq.task 1).state = .running) &&
        decide (m.rq.current = 2) && decide (1 ∉ m.rq.queues (m.rq.task 1).schedLevel)) = true := by
    decide +kernel
  obtain ⟨m, hrun, hstate⟩ := (Option.any_eq_true _ _).mp hlost
  simp only [Bool.and_eq_true, decide_eq_true_eq, List.isEmpty_iff] at hstate
  obtain ⟨⟨⟨⟨hcode, hlive⟩, hrunning⟩, hcurrent⟩, hqueue⟩ := hstate
  refine ⟨m, Runs.of_runAll (fun _ _ _ heq => heq) (fun _ _ _ => trivial) hrun, hcode, ?_⟩
  intro howned
  rcases howned.placed 1 hlive (by decide) hrunning with hself | ⟨hcount, -⟩
  · rw [hcurrent] at hself
    cases hself
  · rw [List.count_eq_zero_of_not_mem hqueue] at hcount
    cases hcount

/-- The same two threads, interrupted where no function of the scheduler is in progress. -/
def quietSwitch : List Event :=
  .spawn 1 [.fresh true, .thread] :: List.replicate 5 .stmt ++
    [.timer []] ++ .spawn 2 [.fresh true, .thread] :: List.replicate 5 .stmt ++
    .schedule :: List.replicate 11 .stmt ++
    [.waitFor true, .waitArm .interruptible, .timer [1], .waitSkip, .waitAgain]

theorem owned_after_quiet_switch :
    ∃ m, Runs Cpu.Does OutsideScheduler boot m ∧ m.rq.current = 1 ∧ m.code = [] ∧ m.Owned := by
  have hquiet : (runAll Cpu.next (fun m e => match e with
      | .timer _ => m.code.isEmpty
      | _ => true) quietSwitch boot).any (fun m =>
        decide (m.rq.current = 1) && m.code.isEmpty) = true := by
    decide +kernel
  obtain ⟨m, hrun, hstate⟩ := (Option.any_eq_true _ _).mp hquiet
  simp only [Bool.and_eq_true, decide_eq_true_eq, List.isEmpty_iff] at hstate
  have hruns : Runs Cpu.Does OutsideScheduler boot m := by
    refine Runs.of_runAll (fun _ _ _ heq => heq) (fun m e hok expired heq => ?_) hrun
    subst heq
    exact List.isEmpty_iff.mp hok
  exact ⟨m, hruns, hstate.1, hstate.2, owned_of_outsideScheduler hruns hstate.2⟩

end CuteOS.Sched.Cpu
