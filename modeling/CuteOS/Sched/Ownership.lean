/-
  Sched/Ownership.lean --- each runnable task is the current one or on a queue.

  Sources: `sched/sched.c`, `sched/mlfq.c`.

  The scheduler is responsible for a task from the `sched_enqueue` of `kernel_thread` or
  `kernel_clone` on, until `finish_task_exit` or `release_task` takes it away; `live` says for
  which tasks it is.  Every function of the scheduler, run to its end, keeps `Sound`.
-/
import CuteOS.Sched.Mlfq

set_option autoImplicit false

namespace CuteOS.Sched.RunQueue

open CuteOS.Kernel

variable {live : TaskId → Bool} {s s' : RunQueue} {t : TaskId}

/-- The queues are well formed, the current task is on none of them, and every other task
that can run is on one. -/
structure Sound (live : TaskId → Bool) (s : RunQueue) : Prop extends Core s where
  current : s.linked s.current = false
  owned : ∀ t, live t = true → t ≠ idleTask → (s.task t).state = .running → t ≠ s.current →
    s.linked t = true

section

variable (h : Sound live s)
include h

theorem Sound.keeps (hkeeps : Keeps s s') : Sound live s' where
  toCore := hkeeps.core
  current := by
    rw [hkeeps.current]
    exact hkeeps.unlinked h.current
  owned u hlive hidle hstate hne := by
    rw [hkeeps.state u] at hstate
    rw [hkeeps.current] at hne
    exact (hkeeps.linked u).mpr (h.owned u hlive hidle hstate hne)

/-- A task stops running, or the current task changes its own state. -/
theorem Sound.setState {state : TaskState}
    (hstate : t = s.current ∨ state ≠ .running) : Sound live (s.setState t state) where
  toCore := h.toCore.setTask fun _ => rfl
  current := h.current
  owned u hlive hidle hrun hne := by
    unfold RunQueue.setState at hrun
    rw [task_setTask] at hrun
    split at hrun
    · rename_i heq
      subst heq
      rcases hstate with hcurrent | hstops
      · exact absurd hcurrent hne
      · exact absurd hrun hstops
    · exact h.owned u hlive hidle hrun hne

theorem Sound.schedWakeTask (heq : s.schedWakeTask t = some s') :
    Sound live s' := by
  unfold RunQueue.schedWakeTask at heq
  simp only at heq
  split at heq
  · rename_i hne
    have hcore : (s.setState t .running).Core := h.toCore.setTask fun _ => rfl
    have hwake := hcore.mlfqWakeup heq
    refine ⟨hwake.core, ?_, ?_⟩
    · rw [hwake.current, Bool.eq_false_iff, ne_eq, hwake.linked]
      rintro (hlinked | hself)
      · exact absurd hlinked (Bool.eq_false_iff.mp h.current)
      · exact hne hself.symm
    · intro u hlive hidle hrun hother
      rw [hwake.linked u]
      by_cases hu : u = t
      · exact .inr hu
      · rw [hwake.state u, RunQueue.setState, task_setTask, if_neg hu] at hrun
        rw [hwake.current] at hother
        exact .inl (h.owned u hlive hidle hrun hother)
  · rename_i hself
    rw [not_not] at hself
    cases heq
    exact h.setState (.inl hself)

theorem Sound.ktimerRunExpired {expired : List TaskId}
    (heq : s.ktimerRunExpired expired = some s') : Sound live s' := by
  induction expired generalizing s with
  | nil =>
    cases heq
    exact h
  | cons t rest ih =>
    unfold RunQueue.ktimerRunExpired at heq
    split at heq
    · cases heq
    · rename_i s1 hfire
      refine ih ?_ heq
      unfold RunQueue.timerFire at hfire
      split at hfire
      · exact h.schedWakeTask hfire
      · cases hfire
        exact h

/-- The interrupt handler keeps the queues sound when it finds them so. -/
theorem Sound.handleTimerIrq {expired : List TaskId}
    (heq : s.handleTimerIrq expired = some s') : Sound live s' := by
  obtain ⟨s1, hexpired, rfl⟩ := Option.map_eq_some_iff.mp heq
  have hjiffies : Sound live { s with jiffies := s.jiffies + 1 } :=
    ⟨⟨⟨h.level, h.nodup, h.marked, h.idle⟩, h.counted⟩, h.current, h.owned⟩
  have hfired := hjiffies.ktimerRunExpired hexpired
  exact hfired.keeps (hfired.toCore.schedTick hfired.current)

end

theorem Core.requeue (h : s.Core) {prev : TaskId} (heq : s.requeue prev = some s') :
    Places s s' fun u => s.linked u = true ∨
      (u = prev ∧ prev ≠ idleTask ∧ (s.task prev).state = .running) := by
  unfold RunQueue.requeue at heq
  split at heq
  · rename_i hguard
    refine (h.mlfqEnqueue heq).congr fun u => or_congr Iff.rfl ?_
    exact ⟨fun hu => ⟨hu, hguard.1, hguard.2.1⟩, And.left⟩
  · rename_i hguard
    cases heq
    refine Places.congr (Keeps.refl h) fun u => ⟨Or.inl, ?_⟩
    rintro (hu | ⟨rfl, hidle, hrun⟩)
    · exact hu
    · exact Bool.not_eq_false _ ▸ fun hout => hguard ⟨hidle, hrun, hout⟩

variable (h : Sound live s)
include h

/-- `schedule()` hands the processor over: the task it leaves is queued if it can run, the
task it takes is on no queue. -/
theorem Sound.schedule {next : Option TaskId}
    (heq : s.schedule = some (next, s')) : Sound live s' := by
  unfold RunQueue.schedule at heq
  have hresched := h.keeps (h.toCore.keeps_setNeedResched s.current false)
  simp only at heq
  generalize hs1 : s.setNeedResched s.current false = s1 at heq hresched
  have hprev : s1.current = s.current := by
    rw [← hs1]
    rfl
  rw [← hprev] at heq
  split at heq
  · split at heq
    · cases heq
      exact hresched
    · rename_i hstays
      rw [not_or] at hstays
      cases heq
      refine ⟨⟨⟨hresched.level, hresched.nodup, hresched.marked, hresched.idle⟩,
        hresched.counted⟩, hresched.idle, ?_⟩
      intro u hlive hidle hrun _
      refine hresched.owned u hlive hidle hrun ?_
      rintro rfl
      exact hstays.2 hrun
  · split at heq
    · cases heq
    · rename_i picked s2 hpick
      have hpicked := hresched.toCore.mlfqPickNext hpick
      split at heq
      · rename_i hself
        cases heq
        refine ⟨hpicked.core, ?_, ?_⟩
        · rw [hpicked.current, Bool.eq_false_iff, ne_eq, hpicked.linked]
          exact fun hand => hand.2 hself.symm
        · intro u hlive hidle hrun hother
          rw [hpicked.state] at hrun
          rw [hpicked.current] at hother
          rw [hpicked.linked]
          exact ⟨hresched.owned u hlive hidle hrun hother, fun hu => hother (hu.trans hself)⟩
      · rename_i hother
        obtain ⟨s3, hrequeue, heq⟩ := Option.map_eq_some_iff.mp heq
        obtain ⟨-, rfl⟩ := Prod.mk.inj heq
        have hplaced := hpicked.core.requeue hrequeue
        refine ⟨⟨⟨hplaced.core.level, hplaced.core.nodup, hplaced.core.marked,
          hplaced.core.idle⟩, hplaced.core.counted⟩, ?_, ?_⟩
        · change s3.linked picked = false
          rw [Bool.eq_false_iff, ne_eq, hplaced.linked, hpicked.linked]
          rintro (⟨-, hne⟩ | ⟨hself, -⟩)
          · exact hne rfl
          · exact hother hself
        · intro u hlive hidle hrun hne
          change s3.linked u = true
          change (s3.task u).state = .running at hrun
          rw [hplaced.linked, hpicked.linked]
          rw [hplaced.state] at hrun
          by_cases hu : u = s1.current
          · exact .inr ⟨hu, hu ▸ hidle, hu ▸ hrun⟩
          · rw [hpicked.state] at hrun
            exact .inl ⟨hresched.owned u hlive hidle hrun hu, hne⟩

/-- A new task, as `task_alloc` leaves it, comes under the care of the scheduler. -/
theorem Sound.enqueueNew (hcurrent : t ≠ s.current) (hlinked : s.linked t = false)
    (heq : (s.setTask t fun _ => {}).mlfqEnqueue t = some s') :
    Sound (Function.update live t true) s' := by
  have hcore : (s.setTask t fun _ => {}).Core := by
    refine h.toCore.setTask fun hin => ?_
    rw [hlinked] at hin
    cases hin
  have hplaced := hcore.mlfqEnqueue heq
  refine ⟨hplaced.core, ?_, ?_⟩
  · rw [hplaced.current, Bool.eq_false_iff, ne_eq, hplaced.linked]
    rintro (hin | hself)
    · exact absurd hin (Bool.eq_false_iff.mp h.current)
    · exact hcurrent hself.symm
  · intro u hlive hidle hrun hother
    rw [hplaced.linked]
    by_cases hu : u = t
    · exact .inr hu
    · rw [Function.update_of_ne hu] at hlive
      rw [hplaced.state, task_setTask, if_neg hu] at hrun
      rw [hplaced.current] at hother
      exact .inl (h.owned u hlive hidle hrun hother)

/-- A task leaves the care of the scheduler. -/
theorem Sound.dequeue (heq : s.mlfqDequeue t = some s') :
    Sound (Function.update live t false) s' := by
  have hplaced := h.toCore.mlfqDequeue heq
  refine ⟨hplaced.core, ?_, ?_⟩
  · rw [hplaced.current, Bool.eq_false_iff, ne_eq, hplaced.linked]
    exact fun hand => absurd hand.1 (Bool.eq_false_iff.mp h.current)
  · intro u hlive hidle hrun hother
    have hne : u ≠ t := by
      rintro rfl
      rw [Function.update_self] at hlive
      cases hlive
    rw [Function.update_of_ne hne] at hlive
    rw [hplaced.state] at hrun
    rw [hplaced.current] at hother
    rw [hplaced.linked]
    exact ⟨h.owned u hlive hidle hrun hother, hne⟩

end CuteOS.Sched.RunQueue
