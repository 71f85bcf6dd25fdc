/-
  Sched/Mlfq.lean --- the multi-level feedback queue and `schedule()`.

  Sources: `sched/mlfq.c`, `sched/sched.c`, `sched/internal.h`, `arch/riscv/trap.c`
  (`handle_timer_irq`).

  A function returns `none` where a `BUG_ON` stops the machine.  `run_list` is an
  intrusive list node: a task is `linked` when it stands in some queue, and
  `list_del_init` takes it out of the queue it stands in, whatever its level says.
-/
import CuteOS.Kernel.Task
import Mathlib.Algebra.BigOperators.Fin

set_option autoImplicit false

namespace CuteOS.Sched

open CuteOS.Kernel
open Function (update update_self update_apply update_of_ne update_eq_self update_comm update_idem)

/-- `SCHED_MLFQ_LEVELS`. -/
abbrev schedMlfqLevels : Nat := 4

instance neZeroLevels : NeZero schedMlfqLevels := ⟨by decide⟩

/-- `sched_level`, which every function requires to be below `SCHED_MLFQ_LEVELS`. -/
abbrev Level := Fin schedMlfqLevels

/-- `HZ`. -/
def hz : Nat := 100

/-- `idle_task`. -/
def idleTask : TaskId := 0

/-- The scheduler's part of `struct task_struct`, and the state of the task. -/
structure Entity where
  state : TaskState := .running
  schedLevel : Level := 0
  timeSlice : Nat := 1
  schedTicks : Nat := 0
  needResched : Bool := false
  enqueueJiffies : Nat := 0
  deriving DecidableEq, Repr

/-- The run queues, the scheduling data of the tasks, and `current_task()`. -/
structure RunQueue where
  queues : Level → List TaskId
  nonemptyLevels : Level → Bool
  runnableCount : Nat
  task : TaskId → Entity
  current : TaskId
  jiffies : Nat

/-- `mlfq_level_slice`. -/
def mlfqLevelSlice (level : Level) : Nat := 2 ^ level.val

namespace RunQueue

/-- `!list_empty(&task->sched.run_list)`. -/
def linked (s : RunQueue) (t : TaskId) : Bool :=
  (List.finRange schedMlfqLevels).any fun l => decide (t ∈ s.queues l)

def setTask (s : RunQueue) (t : TaskId) (f : Entity → Entity) : RunQueue :=
  { s with task := update s.task t (f (s.task t)) }

/-- `task_set_state`. -/
def setState (s : RunQueue) (t : TaskId) (state : TaskState) : RunQueue :=
  s.setTask t fun e => { e with state := state }

/-- `task_set_need_resched`. -/
def setNeedResched (s : RunQueue) (t : TaskId) (need : Bool) : RunQueue :=
  s.setTask t fun e => { e with needResched := need }

/-- `set_current_task`. -/
def setCurrent (s : RunQueue) (t : TaskId) : RunQueue := { s with current := t }

def setQueue (s : RunQueue) (level : Level) (queue : List TaskId) : RunQueue :=
  { s with queues := update s.queues level queue }

/-- `list_add_tail(&task->sched.run_list, &queues[level])`. -/
def listAddTail (s : RunQueue) (t : TaskId) (level : Level) : RunQueue :=
  s.setQueue level (s.queues level ++ [t])

/-- `list_del_init(&task->sched.run_list)`. -/
def listDelInit (s : RunQueue) (t : TaskId) : RunQueue :=
  { s with queues := fun l => (s.queues l).erase t }

/-- `mark_nonempty`. -/
def markNonempty (s : RunQueue) (level : Level) : RunQueue :=
  { s with nonemptyLevels := update s.nonemptyLevels level true }

/-- `bitmap_clear(&nonempty_levels, level)`. -/
def clearMark (s : RunQueue) (level : Level) : RunQueue :=
  { s with nonemptyLevels := update s.nonemptyLevels level false }

/-- `refresh_empty_mark`. -/
def refreshEmptyMark (s : RunQueue) (level : Level) : RunQueue :=
  if (s.queues level).isEmpty then s.clearMark level else s

/-- `task->sched.enqueue_jiffies = jiffies`. -/
def stamp (s : RunQueue) (t : TaskId) : RunQueue :=
  s.setTask t fun e => { e with enqueueJiffies := s.jiffies }

/-- `runnable_count = count`. -/
def setCount (s : RunQueue) (count : Nat) : RunQueue := { s with runnableCount := count }

/-- `reset_budget`. -/
def resetBudget (s : RunQueue) (t : TaskId) : RunQueue :=
  s.setTask t fun e => { e with timeSlice := mlfqLevelSlice e.schedLevel, schedTicks := 0 }

/-- `boost_task`. -/
def boostTask (s : RunQueue) (t : TaskId) : RunQueue :=
  (s.setTask t fun e => { e with schedLevel := 0 }).resetBudget t

/-- `mlfq_enqueue`. -/
def mlfqEnqueue (s : RunQueue) (t : TaskId) : Option RunQueue :=
  if t = idleTask ∨ s.linked t = true then none
  else
    let s := (s.listAddTail t (s.task t).schedLevel).stamp t
    let s := s.markNonempty (s.task t).schedLevel
    some (s.setCount (s.runnableCount + 1))

/-- `mlfq_dequeue`. -/
def mlfqDequeue (s : RunQueue) (t : TaskId) : Option RunQueue :=
  if s.linked t = false then some s
  else
    let level := (s.task t).schedLevel
    let s := (s.listDelInit t).refreshEmptyMark level
    if s.runnableCount = 0 then none else some (s.setCount (s.runnableCount - 1))

/-- `mlfq_wakeup`. -/
def mlfqWakeup (s : RunQueue) (t : TaskId) : Option RunQueue :=
  if t = idleTask then none
  else
    let s := s.resetBudget t
    if s.linked t then some s else s.mlfqEnqueue t

/-- `mlfq_empty`. -/
def mlfqEmpty (s : RunQueue) : Bool :=
  (List.finRange schedMlfqLevels).all fun l => !s.nonemptyLevels l

/-- `mlfq_peek_next`; `none` also where it returns `NULL`, which its caller does not accept. -/
def mlfqPeekNext (s : RunQueue) : Option TaskId :=
  match (List.finRange schedMlfqLevels).find? s.nonemptyLevels with
  | none => none
  | some level => (s.queues level).head?

/-- `mlfq_pick_next`. -/
def mlfqPickNext (s : RunQueue) : Option (TaskId × RunQueue) :=
  match s.mlfqPeekNext with
  | none => none
  | some next => (s.mlfqDequeue next).map fun s => (next, s)

/-- One turn of the inner loop of `mlfq_boost`. -/
def boostQueued (s : RunQueue) (level : Level) (t : TaskId) : RunQueue :=
  if level ≠ 0 then
    ((((s.listDelInit t).refreshEmptyMark level).boostTask t).listAddTail t 0
      |>.markNonempty 0).stamp t
  else (s.boostTask t).stamp t

/-- The inner loop of `mlfq_boost`: `list_for_each_safe` over the queue as it is found. -/
def boostLevel (s : RunQueue) (level : Level) : RunQueue :=
  (s.queues level).foldl (fun s t => s.boostQueued level t) s

/-- `mlfq_boost`. -/
def mlfqBoost (s : RunQueue) : RunQueue :=
  let s := (List.finRange schedMlfqLevels).foldl boostLevel s
  if s.current ≠ idleTask ∧ (s.task s.current).state = .running then s.boostTask s.current else s

/-- `task->sched.time_slice--; task->sched.sched_ticks++`. -/
def chargeTick (s : RunQueue) (t : TaskId) : RunQueue :=
  s.setTask t fun e =>
    { e with timeSlice := e.timeSlice - 1, schedTicks := (e.schedTicks + 1) % 256 }

/-- `if (sched_level + 1 < SCHED_MLFQ_LEVELS) sched_level++`. -/
def demote (s : RunQueue) (t : TaskId) : RunQueue :=
  s.setTask t fun e =>
    if h : e.schedLevel.val + 1 < schedMlfqLevels then
      { e with schedLevel := ⟨e.schedLevel.val + 1, h⟩ }
    else e

/-- The accounting of `mlfq_tick`, with its result. -/
def tickCurrent (s : RunQueue) : Bool × RunQueue :=
  let t := s.current
  if t ≠ idleTask ∧ (s.task t).state = .running then
    let s := s.chargeTick t
    if (s.task t).timeSlice = 0 then (true, (s.demote t).resetBudget t) else (false, s)
  else (false, s)

/-- `mlfq_tick`. -/
def mlfqTick (s : RunQueue) : Bool × RunQueue :=
  let (need, s) := s.tickCurrent
  (need, if s.jiffies ≠ 0 ∧ s.jiffies % hz = 0 then s.mlfqBoost else s)

/-- `sched_request`. -/
def schedRequest (s : RunQueue) : RunQueue :=
  if s.current = idleTask then s else s.setNeedResched s.current true

/-- `sched_tick`, without the accounting of the times of the task. -/
def schedTick (s : RunQueue) : RunQueue :=
  let (need, s) := s.mlfqTick
  if need then s.schedRequest else s

/-- `sched_wake_task`. -/
def schedWakeTask (s : RunQueue) (t : TaskId) : Option RunQueue :=
  let s := s.setState t .running
  if t ≠ s.current then s.mlfqWakeup t else some s

/-- The callback of an expired timer that would wake `t`: `wait_timer_fire`, or the
`wake_signal_target` of a timer's signal.  Neither touches a task that runs or has exited. -/
def timerFire (s : RunQueue) (t : TaskId) : Option RunQueue :=
  if (s.task t).state.anySleep ∨ (s.task t).state = .stopped then s.schedWakeTask t else some s

/-- `ktimer_run_expired`, by the tasks that the callbacks would wake. -/
def ktimerRunExpired (s : RunQueue) : List TaskId → Option RunQueue
  | [] => some s
  | t :: rest =>
    match s.timerFire t with
    | none => none
    | some s => ktimerRunExpired s rest

/-- `handle_timer_irq`. -/
def handleTimerIrq (s : RunQueue) (expired : List TaskId) : Option RunQueue :=
  ({ s with jiffies := s.jiffies + 1 }.ktimerRunExpired expired).map schedTick

/-- The step of `schedule()` that puts the task it switches away from back. -/
def requeue (s : RunQueue) (prev : TaskId) : Option RunQueue :=
  if prev ≠ idleTask ∧ (s.task prev).state = .running ∧ s.linked prev = false then
    s.mlfqEnqueue prev
  else some s

/-- `schedule()` up to the switch, with the task that it switches to. -/
def schedule (s : RunQueue) : Option (Option TaskId × RunQueue) :=
  let prev := s.current
  let s := s.setNeedResched prev false
  if s.mlfqEmpty then
    if prev = idleTask ∨ (s.task prev).state = .running then some (none, s)
    else some (some idleTask, s.setCurrent idleTask)
  else
    match s.mlfqPickNext with
    | none => none
    | some (next, s) =>
      if next = prev then some (none, s)
      else (s.requeue prev).map fun s => (some next, s.setCurrent next)

/-! ## What the updates of single fields do -/

section fields

variable (s : RunQueue) (t u : TaskId) (f : Entity → Entity) (l : Level)

theorem linked_iff : s.linked t = true ↔ ∃ l, t ∈ s.queues l := by
  simp [linked]

theorem linked_eq_false_iff : s.linked t = false ↔ ∀ l, t ∉ s.queues l := by
  simp [linked]

theorem task_setTask : (s.setTask t f).task u = if u = t then f (s.task t) else s.task u := by
  simp only [setTask, update_apply]

@[simp] theorem task_setTask_self : (s.setTask t f).task t = f (s.task t) := by
  simp [setTask]

theorem state_setTask (hf : (f (s.task t)).state = (s.task t).state) :
    ((s.setTask t f).task u).state = (s.task u).state := by
  rw [task_setTask]
  split
  · rename_i heq
    rw [heq, hf]
  · rfl

@[simp] theorem schedLevel_boostTask : ((s.boostTask t).task t).schedLevel = 0 := by
  rw [boostTask, resetBudget, task_setTask_self, task_setTask_self]

@[simp] theorem state_boostTask : ((s.boostTask t).task u).state = (s.task u).state := by
  unfold boostTask resetBudget
  rw [state_setTask _ t u _ rfl, state_setTask s t u _ rfl]

@[simp] theorem linked_boostTask : (s.boostTask t).linked u = s.linked u := rfl

@[simp] theorem state_stamp : ((s.stamp t).task u).state = (s.task u).state :=
  state_setTask s t u _ rfl

theorem queues_setQueue_of_ne {k l : Level} (hne : k ≠ l) (queue : List TaskId) :
    (s.setQueue l queue).queues k = s.queues k := by
  exact update_of_ne hne queue s.queues

@[simp] theorem task_listAddTail : (s.listAddTail t l).task = s.task := rfl

@[simp] theorem task_listDelInit : (s.listDelInit t).task = s.task := rfl

@[simp] theorem task_markNonempty : (s.markNonempty l).task = s.task := rfl

@[simp] theorem linked_markNonempty : (s.markNonempty l).linked u = s.linked u := rfl

@[simp] theorem linked_setCount (n : Nat) : (s.setCount n).linked u = s.linked u := rfl

@[simp] theorem task_refreshEmptyMark : (s.refreshEmptyMark l).task = s.task := by
  unfold refreshEmptyMark
  split <;> rfl

@[simp] theorem queues_refreshEmptyMark : (s.refreshEmptyMark l).queues = s.queues := by
  unfold refreshEmptyMark
  split <;> rfl

@[simp] theorem current_refreshEmptyMark : (s.refreshEmptyMark l).current = s.current := by
  unfold refreshEmptyMark
  split <;> rfl

@[simp] theorem runnableCount_refreshEmptyMark :
    (s.refreshEmptyMark l).runnableCount = s.runnableCount := by
  unfold refreshEmptyMark
  split <;> rfl

@[simp] theorem linked_refreshEmptyMark : (s.refreshEmptyMark l).linked u = s.linked u := by
  simp only [linked, queues_refreshEmptyMark]

end fields

/-! ## Well-formed queues -/

/-- Each queued task stands once, in the queue of its level; the marks say which queues are
empty. -/
structure QueuesOk (s : RunQueue) : Prop where
  level : ∀ {t : TaskId} {l : Level}, t ∈ s.queues l → (s.task t).schedLevel = l
  nodup : ∀ l, (s.queues l).Nodup
  marked : ∀ l, s.nonemptyLevels l = true ↔ s.queues l ≠ []
  idle : s.linked idleTask = false

/-- The queued tasks, by level and then by their place in the queue. -/
def order (s : RunQueue) : List TaskId := (List.finRange schedMlfqLevels).flatMap s.queues

/-- The total length of the queues. -/
def total (s : RunQueue) : Nat := ∑ l, (s.queues l).length

variable {s : RunQueue}

theorem QueuesOk.mem_of_linked {t : TaskId} (h : s.QueuesOk) (hlinked : s.linked t = true) :
    t ∈ s.queues (s.task t).schedLevel := by
  obtain ⟨l, hl⟩ := (linked_iff s t).mp hlinked
  rw [h.level hl]
  exact hl

variable {t : TaskId} {f : Entity → Entity}

/-- Data of a task that is on no queue, or anything but its level, may change. -/
theorem QueuesOk.setTask (h : s.QueuesOk)
    (hlevel : s.linked t = true → (f (s.task t)).schedLevel = (s.task t).schedLevel) :
    (s.setTask t f).QueuesOk where
  level {u l} hu := by
    rw [task_setTask]
    split
    · rename_i heq
      subst heq
      rw [hlevel ((linked_iff s u).mpr ⟨l, hu⟩)]
      exact h.level hu
    · exact h.level hu
  nodup := h.nodup
  marked := h.marked
  idle := h.idle

theorem total_setQueue (s : RunQueue) (l : Level) (xs : List TaskId) :
    (s.setQueue l xs).total + (s.queues l).length = s.total + xs.length := by
  unfold total setQueue
  rw [← Finset.add_sum_erase _ _ (Finset.mem_univ l),
    ← Finset.add_sum_erase (Finset.univ : Finset Level) (fun l => (s.queues l).length)
      (Finset.mem_univ l)]
  have hrest : ∀ k ∈ Finset.univ.erase l,
      (update s.queues l xs k).length = (s.queues k).length := by
    intro k hk
    rw [update_of_ne (Finset.ne_of_mem_erase hk)]
  have hself : (update s.queues l xs l).length = xs.length := by
    rw [update_self]
  rw [Finset.sum_congr rfl hrest, hself]
  omega

theorem total_listAddTail (s : RunQueue) (t : TaskId) (l : Level) :
    (s.listAddTail t l).total = s.total + 1 := by
  have h := s.total_setQueue l (s.queues l ++ [t])
  rw [List.length_append, List.length_singleton] at h
  unfold listAddTail
  omega

theorem linked_listAddTail (s : RunQueue) (t u : TaskId) (l : Level) :
    (s.listAddTail t l).linked u = true ↔ s.linked u = true ∨ u = t := by
  rw [linked_iff, linked_iff]
  simp only [listAddTail, setQueue, update_apply]
  constructor
  · rintro ⟨k, hk⟩
    split at hk
    · rcases List.mem_append.mp hk with hmem | hmem
      · exact .inl ⟨l, hmem⟩
      · exact .inr (List.mem_singleton.mp hmem)
    · exact .inl ⟨k, hk⟩
  · rintro (⟨k, hk⟩ | rfl)
    · refine ⟨k, ?_⟩
      split
      · rename_i heq
        subst heq
        exact List.mem_append_left _ hk
      · exact hk
    · exact ⟨l, by simp⟩

section

variable (h : s.QueuesOk)
include h

/-- A task may be added to the queue of its level. -/
theorem QueuesOk.insert {l : Level} (hidle : t ≠ idleTask) (hlinked : s.linked t = false)
    (hlevel : (s.task t).schedLevel = l) : ((s.listAddTail t l).markNonempty l).QueuesOk where
  level {u k} hu := by
    have hmem : u ∈ (s.listAddTail t l).queues k := hu
    simp only [listAddTail, setQueue, update_apply] at hmem
    split at hmem
    · rename_i heq
      subst heq
      rcases List.mem_append.mp hmem with hold | hnew
      · exact h.level hold
      · rw [List.mem_singleton.mp hnew]
        exact hlevel
    · exact h.level hmem
  nodup k := by
    change ((s.listAddTail t l).queues k).Nodup
    simp only [listAddTail, setQueue, update_apply]
    split
    · have hnot := (linked_eq_false_iff s t).mp hlinked l
      exact (h.nodup l).append (List.nodup_singleton t) (by simpa using hnot)
    · exact h.nodup k
  marked k := by
    change update s.nonemptyLevels l true k = true ↔ update s.queues l (s.queues l ++ [t]) k ≠ []
    simp only [update_apply]
    split
    · simp
    · exact h.marked k
  idle := by
    rw [linked_markNonempty, Bool.eq_false_iff, ne_eq, linked_listAddTail]
    rintro (hold | hnew)
    · rw [h.idle] at hold
      cases hold
    · exact hidle hnew.symm

theorem QueuesOk.listDelInit_eq (t : TaskId) : s.listDelInit t =
      s.setQueue (s.task t).schedLevel ((s.queues (s.task t).schedLevel).erase t) := by
  unfold listDelInit setQueue
  congr 1
  funext k
  rw [update_apply]
  split
  · rename_i heq
    rw [heq]
  · rename_i hne
    refine List.erase_of_not_mem fun hmem => hne ?_
    rw [h.level hmem]

theorem QueuesOk.total_listDelInit
    (hlinked : s.linked t = true) : (s.listDelInit t).total + 1 = s.total := by
  have hmem := h.mem_of_linked hlinked
  have hsum := s.total_setQueue (s.task t).schedLevel ((s.queues (s.task t).schedLevel).erase t)
  have hpos := List.length_pos_of_mem hmem
  rw [List.length_erase_of_mem hmem] at hsum
  rw [h.listDelInit_eq]
  omega

theorem QueuesOk.linked_listDelInit (t u : TaskId) :
    (s.listDelInit t).linked u = true ↔ s.linked u = true ∧ u ≠ t := by
  rw [linked_iff, linked_iff]
  have hmem : ∀ l, u ∈ (s.listDelInit t).queues l ↔ u ∈ s.queues l ∧ u ≠ t := by
    intro l
    change u ∈ (s.queues l).erase t ↔ _
    rw [(h.nodup l).mem_erase_iff, and_comm]
  simp only [hmem, exists_and_right]

/-- A task may be taken out of its queue. -/
theorem QueuesOk.remove (t : TaskId) :
    ((s.listDelInit t).refreshEmptyMark (s.task t).schedLevel).QueuesOk where
  level {u l} hu := by
    rw [queues_refreshEmptyMark] at hu
    rw [task_refreshEmptyMark]
    exact h.level (List.mem_of_mem_erase hu)
  nodup l := by
    rw [queues_refreshEmptyMark]
    exact (h.nodup l).erase t
  marked l := by
    rw [queues_refreshEmptyMark, refreshEmptyMark]
    by_cases hl : l = (s.task t).schedLevel
    · subst hl
      split
      · rename_i hempty
        simp [clearMark, List.isEmpty_iff.mp hempty]
      · rename_i hne
        rw [List.isEmpty_iff] at hne
        have hsome : s.queues (s.task t).schedLevel ≠ [] := by
          intro hnil
          apply hne
          simp [listDelInit, hnil]
        exact iff_of_true ((h.marked _).mpr hsome) hne
    · have hsame : (s.listDelInit t).queues l = s.queues l := by
        rw [h.listDelInit_eq, queues_setQueue_of_ne _ hl]
      rw [hsame, ← h.marked l]
      split
      · simp [clearMark, update_of_ne hl, listDelInit]
      · rfl
  idle := by
    rw [linked_refreshEmptyMark, Bool.eq_false_iff, ne_eq, h.linked_listDelInit]
    rintro ⟨hlinked, -⟩
    rw [h.idle] at hlinked
    cases hlinked

theorem QueuesOk.setCount (n : Nat) : (s.setCount n).QueuesOk :=
  ⟨h.level, h.nodup, h.marked, h.idle⟩

theorem QueuesOk.boostTask
    (hlevel : s.linked t = true → (s.task t).schedLevel = 0) : (s.boostTask t).QueuesOk := by
  unfold RunQueue.boostTask resetBudget
  exact (h.setTask fun hlinked => (hlevel hlinked).symm).setTask fun _ => rfl

end

/-- The queues are well formed, and `runnable_count` is their total length. -/
structure Core (s : RunQueue) : Prop extends QueuesOk s where
  counted : s.runnableCount = s.total

theorem Core.setTask (h : s.Core)
    (hlevel : s.linked t = true → (f (s.task t)).schedLevel = (s.task t).schedLevel) :
    (s.setTask t f).Core where
  toQueuesOk := h.toQueuesOk.setTask hlevel
  counted := h.counted

/-! ## What each function does -/

/-- A function of the scheduler keeps the queues well formed, changes no task's state, and
leaves on the queues the tasks in `link`. -/
structure Places (s s' : RunQueue) (link : TaskId → Prop) : Prop where
  core : s'.Core
  state : ∀ u, (s'.task u).state = (s.task u).state
  current : s'.current = s.current
  linked : ∀ u, s'.linked u = true ↔ link u

/-- A function that moves no task on or off the queues. -/
def Keeps (s s' : RunQueue) : Prop := Places s s' fun u => s.linked u = true

variable {s' s'' : RunQueue} {link link' : TaskId → Prop}

theorem Places.trans (h : Places s s' link) (h' : Places s' s'' link') : Places s s'' link' where
  core := h'.core
  state u := (h'.state u).trans (h.state u)
  current := h'.current.trans h.current
  linked := h'.linked

theorem Places.congr (h : Places s s' link) (hlink : ∀ u, link u ↔ link' u) :
    Places s s' link' where
  core := h.core
  state := h.state
  current := h.current
  linked u := (h.linked u).trans (hlink u)

theorem Keeps.refl (h : s.Core) : Keeps s s where
  core := h
  state _ := rfl
  current := rfl
  linked _ := Iff.rfl

theorem Keeps.trans (h : Keeps s s') (h' : Keeps s' s'') : Keeps s s'' :=
  (Places.trans h h').congr h.linked

theorem Keeps.unlinked (h : Keeps s s') {u : TaskId} (hu : s.linked u = false) :
    s'.linked u = false := by
  rw [Bool.eq_false_iff] at hu ⊢
  exact fun hlinked => hu ((h.linked u).mp hlinked)

section

variable (h : s.Core)
include h

/-- Scheduling data other than the state, and the level only of a task on no queue. -/
theorem Core.keeps_setTask
    (hlevel : s.linked t = true → (f (s.task t)).schedLevel = (s.task t).schedLevel)
    (hstate : (f (s.task t)).state = (s.task t).state) : Keeps s (s.setTask t f) where
  core := h.setTask hlevel
  state u := state_setTask s t u _ hstate
  current := rfl
  linked _ := Iff.rfl

theorem Core.keeps_resetBudget (t : TaskId) : Keeps s (s.resetBudget t) :=
  h.keeps_setTask (fun _ => rfl) rfl

theorem Core.keeps_setNeedResched (t : TaskId) (need : Bool) : Keeps s (s.setNeedResched t need) :=
  h.keeps_setTask (fun _ => rfl) rfl

theorem Core.keeps_boostTask
    (hlevel : s.linked t = true → (s.task t).schedLevel = 0) : Keeps s (s.boostTask t) := by
  refine ⟨⟨h.toQueuesOk.boostTask hlevel, h.counted⟩, fun u => ?_, rfl, fun _ => Iff.rfl⟩
  exact state_boostTask s t u

theorem Core.mlfqEnqueue (heq : s.mlfqEnqueue t = some s') :
    Places s s' fun u => s.linked u = true ∨ u = t := by
  unfold RunQueue.mlfqEnqueue at heq
  split at heq
  · cases heq
  · rename_i hguard
    rw [not_or, Bool.not_eq_true] at hguard
    obtain ⟨hidle, hunlinked⟩ := hguard
    have hlevel : ((s.listAddTail t (s.task t).schedLevel).stamp t |>.task t).schedLevel =
        (s.task t).schedLevel := by
      rw [stamp, task_setTask_self]
      rfl
    simp only [hlevel] at heq
    cases heq
    have hinsert := h.toQueuesOk.insert hidle hunlinked rfl
    have hstamp : ((s.listAddTail t (s.task t).schedLevel).markNonempty
        (s.task t).schedLevel |>.stamp t).QueuesOk :=
      hinsert.setTask fun _ => rfl
    refine ⟨⟨hstamp.setCount _, ?_⟩, ?_, rfl, ?_⟩
    · change s.runnableCount + 1 = (s.listAddTail t (s.task t).schedLevel).total
      rw [total_listAddTail, h.counted]
    · intro u
      exact state_stamp _ t u
    · intro u
      exact linked_listAddTail s t u _

theorem Core.mlfqDequeue (heq : s.mlfqDequeue t = some s') :
    Places s s' fun u => s.linked u = true ∧ u ≠ t := by
  unfold RunQueue.mlfqDequeue at heq
  split at heq
  · rename_i hunlinked
    cases heq
    refine (Keeps.refl h).congr fun u => ⟨fun hu => ⟨hu, ?_⟩, And.left⟩
    rintro rfl
    rw [hunlinked] at hu
    cases hu
  · rename_i hlinked
    rw [Bool.not_eq_false] at hlinked
    simp only [runnableCount_refreshEmptyMark] at heq
    split at heq
    · cases heq
    · cases heq
      have htotal := h.toQueuesOk.total_listDelInit hlinked
      refine ⟨⟨(h.toQueuesOk.remove t).setCount _, ?_⟩, ?_, ?_, ?_⟩
      · have hsame : ((s.listDelInit t).refreshEmptyMark (s.task t).schedLevel).total =
            (s.listDelInit t).total := by
          unfold total
          rw [queues_refreshEmptyMark]
        change s.runnableCount - 1 =
          ((s.listDelInit t).refreshEmptyMark (s.task t).schedLevel).total
        rw [h.counted]
        omega
      · intro u
        change (((s.listDelInit t).refreshEmptyMark _).task u).state = _
        rw [task_refreshEmptyMark, task_listDelInit]
      · change ((s.listDelInit t).refreshEmptyMark _).current = _
        rw [current_refreshEmptyMark]
        rfl
      · intro u
        rw [linked_setCount, linked_refreshEmptyMark, h.toQueuesOk.linked_listDelInit]

theorem Core.mlfqWakeup (heq : s.mlfqWakeup t = some s') :
    Places s s' fun u => s.linked u = true ∨ u = t := by
  unfold RunQueue.mlfqWakeup at heq
  have hreset := h.keeps_resetBudget t
  split at heq
  · cases heq
  · simp only at heq
    split at heq
    · rename_i hlinked
      cases heq
      refine hreset.congr fun u => ⟨Or.inl, ?_⟩
      rintro (hu | rfl)
      · exact hu
      · exact hlinked
    · exact Places.trans hreset (hreset.core.mlfqEnqueue heq)

theorem Core.mlfqPickNext {next : TaskId} (heq : s.mlfqPickNext = some (next, s')) :
    Places s s' fun u => s.linked u = true ∧ u ≠ next := by
  unfold RunQueue.mlfqPickNext at heq
  split at heq
  · cases heq
  · obtain ⟨s1, hdeq, heq⟩ := Option.map_eq_some_iff.mp heq
    obtain ⟨rfl, rfl⟩ := Prod.mk.inj heq
    exact h.mlfqDequeue hdeq

/-! ## The boost -/

theorem Core.boostQueued {l : Level} (hmem : t ∈ s.queues l) : Keeps s (s.boostQueued l t) := by
  have hlinked : s.linked t = true := (linked_iff s t).mpr ⟨l, hmem⟩
  have hlevel : (s.task t).schedLevel = l := h.level hmem
  unfold RunQueue.boostQueued
  split
  · rename_i hl
    have hremove := h.toQueuesOk.remove t
    rw [hlevel] at hremove
    have hlinks : ∀ u, ((s.listDelInit t).refreshEmptyMark l).linked u = true ↔
        s.linked u = true ∧ u ≠ t := by
      intro u
      rw [linked_refreshEmptyMark, h.toQueuesOk.linked_listDelInit]
    have hout : ((s.listDelInit t).refreshEmptyMark l).linked t = false := by
      rw [Bool.eq_false_iff, ne_eq, hlinks]
      exact fun hand => hand.2 rfl
    have hidle : t ≠ idleTask := by
      rintro rfl
      rw [h.idle] at hlinked
      cases hlinked
    have hboost := hremove.boostTask fun hin => absurd hin (by rw [hout]; exact Bool.false_ne_true)
    have hinsert := hboost.insert hidle hout (schedLevel_boostTask _ t)
    refine ⟨⟨hinsert.setTask fun _ => rfl, ?_⟩, ?_, ?_, ?_⟩
    · change ((s.listDelInit t).refreshEmptyMark l).runnableCount =
        (((s.listDelInit t).refreshEmptyMark l).boostTask t |>.listAddTail t 0).total
      have hsame : (((s.listDelInit t).refreshEmptyMark l).boostTask t).total =
          (s.listDelInit t).total := by
        change ((s.listDelInit t).refreshEmptyMark l).total = _
        unfold total
        rw [queues_refreshEmptyMark]
      rw [total_listAddTail, hsame, h.toQueuesOk.total_listDelInit hlinked,
        runnableCount_refreshEmptyMark, ← h.counted]
      rfl
    · intro u
      rw [state_stamp, task_markNonempty, task_listAddTail, state_boostTask,
        task_refreshEmptyMark, task_listDelInit]
    · exact current_refreshEmptyMark _ l
    · intro u
      change ((((s.listDelInit t).refreshEmptyMark l).boostTask t).listAddTail t 0).linked u =
        true ↔ _
      rw [linked_listAddTail, linked_boostTask, hlinks]
      constructor
      · rintro (⟨hu, -⟩ | rfl)
        · exact hu
        · exact hlinked
      · intro hu
        by_cases heq : u = t
        · exact .inr heq
        · exact .inl ⟨hu, heq⟩
  · rename_i hl
    rw [not_not] at hl
    subst hl
    have hboost := h.keeps_boostTask fun _ => hlevel
    exact hboost.trans (hboost.core.keeps_setTask (fun _ => rfl) rfl)

/-- It goes from the head of its queue to the end of the first queue. -/
theorem Core.queues_boostQueued {l : Level} {rest : List TaskId} (hl : l ≠ 0)
    (hqueue : s.queues l = t :: rest) :
    (s.boostQueued l t).queues = update (update s.queues l rest) 0 (s.queues 0 ++ [t]) := by
  have hlevel : (s.task t).schedLevel = l := h.level (hqueue ▸ List.mem_cons_self)
  have hdel : (s.listDelInit t).queues = update s.queues l rest := by
    rw [h.toQueuesOk.listDelInit_eq, hlevel, hqueue, List.erase_cons_head]
    rfl
  rw [RunQueue.boostQueued, if_pos hl]
  change update ((s.listDelInit t).refreshEmptyMark l).queues 0
    (((s.listDelInit t).refreshEmptyMark l).queues 0 ++ [t]) = _
  rw [queues_refreshEmptyMark, hdel, update_of_ne hl.symm]

theorem Core.boostLevel_zero : Keeps s (s.boostLevel 0) ∧ (s.boostLevel 0).queues = s.queues := by
  have hloop : ∀ (ts : List TaskId) (s : RunQueue), s.Core → (∀ t ∈ ts, t ∈ s.queues 0) →
      Keeps s (ts.foldl (fun s t => s.boostQueued 0 t) s) ∧
        (ts.foldl (fun s t => s.boostQueued 0 t) s).queues = s.queues := by
    intro ts
    induction ts with
    | nil => exact fun s h _ => ⟨.refl h, rfl⟩
    | cons t ts ih =>
      intro s h hmem
      have hkeeps := h.boostQueued (hmem t List.mem_cons_self)
      obtain ⟨hrest, hqueues⟩ := ih (s.boostQueued 0 t) hkeeps.core
        fun u hu => hmem u (List.mem_cons_of_mem t hu)
      exact ⟨hkeeps.trans hrest, hqueues⟩
  exact hloop (s.queues 0) s h fun _ ht => ht

theorem Core.boostLevel {l : Level} (hl : l ≠ 0) : Keeps s (s.boostLevel l) ∧
    (s.boostLevel l).queues = update (update s.queues l []) 0 (s.queues 0 ++ s.queues l) := by
  unfold RunQueue.boostLevel
  -- what is left of the queue as the loop found it is the queue
  generalize hqueue : s.queues l = ts
  induction ts generalizing s with
  | nil =>
    refine ⟨.refl h, ?_⟩
    rw [← hqueue, update_eq_self, hqueue, List.append_nil, update_eq_self]
    rfl
  | cons t ts ih =>
    have hkeeps := h.boostQueued (hqueue ▸ List.mem_cons_self)
    have hturn := h.queues_boostQueued hl hqueue
    obtain ⟨hrest, hqueues⟩ := ih hkeeps.core (by rw [hturn, update_of_ne hl, update_self])
    refine ⟨hkeeps.trans hrest, hqueues.trans ?_⟩
    rw [hturn, update_self, update_comm hl, update_idem, update_comm hl.symm, update_idem,
      List.append_assoc]
    rfl

/-- After a boost the first queue holds all queued tasks, in their order. -/
theorem Core.mlfqBoost : Keeps s s.mlfqBoost ∧
    ∀ l, s.mlfqBoost.queues l = if l = 0 then s.order else [] := by
  obtain ⟨hkeeps0, hqueues0⟩ := h.boostLevel_zero
  obtain ⟨hkeeps1, hqueues1⟩ := hkeeps0.core.boostLevel (l := 1) (by decide)
  obtain ⟨hkeeps2, hqueues2⟩ := hkeeps1.core.boostLevel (l := 2) (by decide)
  obtain ⟨hkeeps3, hqueues3⟩ := hkeeps2.core.boostLevel (l := 3) (by decide)
  have hloops := hkeeps0.trans (hkeeps1.trans (hkeeps2.trans hkeeps3))
  have hqueues : ∀ l, ((((s.boostLevel 0).boostLevel 1).boostLevel 2).boostLevel 3).queues l =
      if l = 0 then s.order else [] := by
    intro l
    have horder : s.order = s.queues 0 ++ (s.queues 1 ++ (s.queues 2 ++ (s.queues 3 ++ []))) := rfl
    have hall : ∀ l : Level, l = 0 ∨ l = 1 ∨ l = 2 ∨ l = 3 := by decide
    rw [hqueues3, hqueues2, hqueues1, hqueues0, horder]
    obtain rfl | rfl | rfl | rfl := hall l <;> simp [update_of_ne]
  unfold RunQueue.mlfqBoost
  dsimp only
  split_ifs
  · refine ⟨hloops.trans (hloops.core.keeps_boostTask fun hlinked => ?_), hqueues⟩
    have hmem := hloops.core.mem_of_linked hlinked
    rw [hqueues] at hmem
    split_ifs at hmem with hzero
    · exact hzero
    · cases hmem
  · exact ⟨hloops, hqueues⟩

/-! ## The timer tick -/

theorem Core.tickCurrent (hcurrent : s.linked s.current = false) : Keeps s s.tickCurrent.2 := by
  have hnever : ∀ {P : Prop}, s.linked s.current = true → P := by
    intro P hlinked
    rw [hcurrent] at hlinked
    cases hlinked
  have hcharge : Keeps s (s.chargeTick s.current) := h.keeps_setTask (fun _ => rfl) rfl
  unfold RunQueue.tickCurrent
  simp only
  split
  · split
    · have hdemote : Keeps (s.chargeTick s.current) ((s.chargeTick s.current).demote s.current) :=
        hcharge.core.keeps_setTask hnever (by split <;> rfl)
      exact (hcharge.trans hdemote).trans (hdemote.core.keeps_resetBudget _)
    · exact hcharge
  · exact Keeps.refl h

theorem Core.schedTick (hcurrent : s.linked s.current = false) : Keeps s s.schedTick := by
  have htick := h.tickCurrent hcurrent
  have hboost : Keeps s s.mlfqTick.2 := by
    unfold RunQueue.mlfqTick
    simp only
    split
    · exact htick.trans htick.core.mlfqBoost.1
    · exact htick
  unfold RunQueue.schedTick RunQueue.schedRequest
  simp only
  split
  · split
    · exact hboost
    · exact hboost.trans (hboost.core.keeps_setNeedResched _ _)
  · exact hboost

end

end RunQueue

end CuteOS.Sched
