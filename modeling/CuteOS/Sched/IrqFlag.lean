/-
  Sched/IrqFlag.lean --- the interrupt flag across `schedule()` and `wait_for()`.

  `schedule()` does not touch `sstatus.SIE`, and the switch does not save it, so a task that
  is switched in finds the flag as the task before it had it.  A call returns with the flag
  it was made with when every call of `schedule()` is made with the flag that all the calls
  still suspended were made with.  Traps clear the flag and kernel threads run with it set, so
  the calls of the kernel do not agree.
-/
import CuteOS.Sched.Cpu

set_option autoImplicit false

namespace CuteOS.Sched

open CuteOS.Kernel CuteOS.Lib
open Function (update update_self update_apply update_of_ne)

/-- A statement after which nothing of `schedule()` is left to run. -/
def Stmt.last : Stmt → Bool
  | .ifEmpty _ | .ifStays _ | .pickNext _ | .ifSame _ _ | .ifRequeue _ _ | .taskSwitch _ => true
  | _ => false

/-- The code in which a spinlock may be held. -/
def Frame.mayLock : Frame → Bool
  | .thread | .trap _ | .waitFor _ .probe | .waitFor _ (.armed _) => true
  | _ => false

/-- A stack that is unwound with the flag `b` gives each of its calls the flag it was made
with. -/
def Restores : Bool → List Frame → Prop
  | _, [] => True
  | b, .schedule sie :: rest => b = sie ∧ Restores sie rest
  | b, .waitFor sie (.halted enabled) :: rest => b = true ∧ sie = !enabled ∧ Restores sie rest
  | b, .waitFor sie _ :: rest => b = sie ∧ Restores sie rest
  | _, .trap spie :: rest => Restores spie rest
  | _, .fresh spie :: rest => Restores spie rest
  | _, .thread :: _ => True

/-- The stack of a task that is switched out. -/
def Suspended : List Frame → Prop
  | .schedule sie :: rest => Restores sie rest
  | .fresh spie :: rest => Restores spie rest
  | _ => True

namespace Cpu

/-- A call that returns finds `SIE` as it was when the call was made. -/
def FlagKept (m : Cpu) : Prop :=
  m.code = [] → ∀ sie rest,
    m.frames = .schedule sie :: rest ∨ m.frames = .waitFor sie .done :: rest → m.sie = sie

/-- Every call of `schedule()` that is still suspended was made with the flag of now. -/
def SameFlag (m : Cpu) : Prop :=
  ∀ t sie rest, t ≠ m.running → m.stack t = .schedule sie :: rest → sie = m.sie

/-- The condition on a step: `schedule()` is called with the flag of the calls still
suspended. -/
def CallsAgree (m : Cpu) (e : Event) : Prop := e = .schedule ∨ e = .waitSchedule → m.SameFlag

/-- The flag that is in force once the spinlocks are released. -/
def flag (m : Cpu) : Bool := if m.lockDepth = 0 then m.sie else m.lockIrqFlags

/-- The stacks unwind with the flags of their calls. -/
structure FlagOk (m : Cpu) : Prop where
  inner : Restores m.flag m.frames
  outer : ∀ t, t ≠ m.running → Suspended (m.stack t)
  unlocked : ∀ frame rest, m.frames = frame :: rest → frame.mayLock = false → m.lockDepth = 0
  last : ∀ stmt ∈ m.code.dropLast, stmt.last = false
  calls : ∀ stmt ∈ m.code, stmt.last = true →
    m.SameFlag ∧ ∃ sie rest, m.frames = .schedule sie :: rest

variable {m m' : Cpu}

@[simp] theorem frames_setFrames (frames : List Frame) : (m.setFrames frames).frames = frames := by
  simp [setFrames, Cpu.frames]

theorem stack_setFrames_of_ne {t : TaskId} (hne : t ≠ m.running) (frames : List Frame) :
    (m.setFrames frames).stack t = m.stack t := by
  exact update_of_ne hne frames m.stack

theorem frames_callSchedule : m.callSchedule.frames = .schedule m.sie :: m.frames := by
  change (m.setFrames (.schedule m.sie :: m.frames)).frames = _
  exact frames_setFrames _

theorem stack_callSchedule_of_ne {t : TaskId} (hne : t ≠ m.running) :
    m.callSchedule.stack t = m.stack t := by
  exact stack_setFrames_of_ne hne _

theorem flag_of_unlocked (hdepth : m.lockDepth = 0) : m.flag = m.sie := by
  rw [flag, if_pos hdepth]

theorem forall_code (hcode : m.code = []) {P : Stmt → Prop} : ∀ stmt ∈ m.code, P stmt := by
  rw [hcode]
  exact List.forall_mem_nil P

/-- The frames of a task that holds no spinlock are unwound with the flag itself. -/
theorem FlagOk.restores (h : m.FlagOk) (hdepth : m.lockDepth = 0) : Restores m.sie m.frames := by
  rw [← flag_of_unlocked hdepth]
  exact h.inner

theorem FlagOk.top (h : m.FlagOk) {frame : Frame} {rest : List Frame}
    (hframes : m.frames = frame :: rest) (hlock : frame.mayLock = false) :
    m.lockDepth = 0 ∧ Restores m.sie (frame :: rest) := by
  have hdepth := h.unlocked frame rest hframes hlock
  rw [← hframes]
  exact ⟨hdepth, h.restores hdepth⟩

/-! ## The statements of the scheduler -/

variable {stmt : Stmt} {s s' : RunQueue} {more : List Stmt}

/-- What a statement goes on with: nothing of `schedule()` follows a statement that can lead
to the switch, and such a statement is followed by others of its kind only. -/
theorem exec_last (hexec : exec stmt s = some (s', more)) :
    (∀ x ∈ more.dropLast, x.last = false) ∧ (stmt.last = false → ∀ x ∈ more, x.last = false) := by
  cases stmt with
  | ifEmpty prev | ifStays prev | ifSame prev next | ifRequeue prev next =>
    cases hexec
    split <;> simp [Stmt.last, switchCode, enqueueCode]
  | pickNext prev =>
    simp only [exec] at hexec
    split at hexec
    · cases hexec
    · cases hexec
      simp [Stmt.last, dequeueCode]
  | ifLinked t | ifQueueEmpty l | ifUnlinked t | ifNotCurrent t =>
    cases hexec
    split <;> simp [Stmt.last, enqueueCode, wakeupCode]
  | bugIfLinked t | countDown | bugIfIdle t =>
    simp only [exec] at hexec
    split at hexec
    · cases hexec
    · cases hexec
      simp
  | _ =>
    cases hexec
    simp

section

variable {rest : List Stmt} (hlast : ∀ x ∈ (stmt :: rest).dropLast, x.last = false)
include hlast

theorem rest_eq_nil (hstmt : stmt.last = true) :
    rest = [] := by
  cases rest with
  | nil => rfl
  | cons next rest =>
    have hfalse := hlast stmt (by simp)
    rw [hstmt] at hfalse
    cases hfalse

theorem last_append
    (hexec : exec stmt s = some (s', more)) : ∀ x ∈ (more ++ rest).dropLast, x.last = false := by
  obtain ⟨hmore, hother⟩ := exec_last hexec
  cases rest with
  | nil =>
    rw [List.append_nil]
    exact hmore
  | cons next rest =>
    have hstmt : stmt.last = false := hlast stmt (by simp)
    rw [List.dropLast_append_of_ne_nil (List.cons_ne_nil next rest)]
    intro x hx
    rcases List.mem_append.mp hx with hx | hx
    · exact hother hstmt x hx
    · exact hlast x (by simp [hx])

end

/-- Only `schedule()` goes on with statements of `schedule()`. -/
theorem exists_last {x : Stmt} {rest : List Stmt}
    (hexec : exec stmt s = some (s', more)) (hmem : x ∈ more ++ rest) (hx : x.last = true) :
    ∃ y ∈ stmt :: rest, y.last = true := by
  rcases List.mem_append.mp hmem with hmore | hrest
  · refine ⟨stmt, List.mem_cons_self, ?_⟩
    by_contra hstmt
    rw [Bool.not_eq_true] at hstmt
    rw [(exec_last hexec).2 hstmt x hmore] at hx
    cases hx
  · exact ⟨x, List.mem_cons_of_mem stmt hrest, hx⟩

variable {rest : List Frame} {sie : Bool}

/-- The switch itself: the flag that the next task finds is the one it had. -/
theorem FlagOk.switchTo (h : m.FlagOk) {next : TaskId} (hsame : m.SameFlag) (hcode : m.code = [])
    (hframes : m.frames = .schedule sie :: rest)
    (heq : m.switchTo next = some m') : m'.FlagOk := by
  obtain ⟨hdepth, hsie, hrest⟩ := h.top hframes rfl
  -- the task that is left is suspended in this call
  have houter : ∀ t, Suspended (m.stack t) := by
    intro t
    by_cases ht : t = m.running
    · have hstack : m.stack t = .schedule sie :: rest := ht ▸ hframes
      rw [hstack]
      exact hrest
    · exact h.outer t ht
  have hlast : ∀ stmt ∈ m.code.dropLast, stmt.last = false := by
    rw [hcode]
    exact List.forall_mem_nil _
  rcases switchTo_cases heq with ⟨sie', rest', hstack, rfl⟩ | ⟨spie, rest', hstack, rfl⟩
  · have hflag : m.sie = sie' := by
      by_cases hself : next = m.running
      · rw [hself] at hstack
        obtain ⟨htop, -⟩ := List.cons_eq_cons.mp (hframes.symm.trans hstack)
        rw [hsie, Frame.schedule.inj htop]
      · exact (hsame next sie' rest' hself hstack).symm
    refine ⟨?_, fun t _ => houter t, fun _ _ _ _ => hdepth, hlast, forall_code hcode⟩
    have hsuspended := houter next
    change Restores m.flag (m.stack next)
    rw [hstack] at hsuspended ⊢
    rw [flag_of_unlocked hdepth]
    exact ⟨hflag, hsuspended⟩
  · refine ⟨?_, ?_, fun _ _ _ _ => hdepth, hlast, forall_code hcode⟩
    · have hsuspended := houter next
      rw [hstack] at hsuspended
      change Restores (flag _) (update m.stack next rest' next)
      rw [update_self, flag_of_unlocked (m := { m with
        running := next, stack := update m.stack next rest', sie := spie }) hdepth]
      exact hsuspended
    · intro t ht
      change Suspended (update m.stack next rest' t)
      rw [update_of_ne ht]
      exact houter t

theorem FlagOk.runStmt (h : m.FlagOk) (heq : m.runStmt = some m') : m'.FlagOk := by
  obtain ⟨stmt, rest, rq, more, hcode, hexec, hcases⟩ := runStmt_cases heq
  have hlast := h.last
  have hcalls := h.calls
  rw [hcode] at hlast hcalls
  have hstep : FlagOk { m with rq := rq, code := more ++ rest } := by
    refine ⟨h.inner, h.outer, h.unlocked, last_append hlast hexec, ?_⟩
    intro x hmem hx
    obtain ⟨y, hy, hylast⟩ := exists_last hexec hmem hx
    exact hcalls y hy hylast
  rcases hcases with ⟨next, rfl, hswitch⟩ | rfl
  · obtain ⟨hsame, sie, frames, hframes⟩ := hcalls _ List.mem_cons_self rfl
    obtain rfl := rest_eq_nil hlast rfl
    cases hexec
    exact hstep.switchTo hsame rfl hframes hswitch
  · exact hstep

/-! ## The other steps -/

/-- A step that changes the frames of the running task only, and calls no `schedule()`. -/
theorem FlagOk.of_frames (h : m.FlagOk) (hrunning : m'.running = m.running)
    (hstack : ∀ t, t ≠ m.running → m'.stack t = m.stack t)
    (hcode : ∀ stmt ∈ m'.code, stmt.last = false) (hinner : Restores m'.flag m'.frames)
    (hunlocked : ∀ frame rest, m'.frames = frame :: rest → frame.mayLock = false →
      m'.lockDepth = 0) : m'.FlagOk where
  inner := hinner
  outer t ht := by
    rw [hrunning] at ht
    rw [hstack t ht]
    exact h.outer t ht
  unlocked := hunlocked
  last stmt hmem := hcode stmt (List.mem_of_mem_dropLast hmem)
  calls stmt hmem hlast := by
    rw [hcode stmt hmem] at hlast
    cases hlast

section

variable (h : m.FlagOk) (hcode : m.code = []) (hdepth : m.lockDepth = 0)
include h hcode hdepth

/-- The same with no spinlock held and no code of the scheduler pending: the new frames, and
the flag they are unwound with. -/
theorem FlagOk.withFrames {frames : List Frame} (hinner : Restores sie frames) :
    FlagOk { m.setFrames frames with sie := sie } := by
  refine h.of_frames rfl (fun t ht => stack_setFrames_of_ne ht frames) (forall_code hcode) ?_
    (fun _ _ _ _ => hdepth)
  have hflag : flag { m.setFrames frames with sie := sie } = sie := flag_of_unlocked hdepth
  rw [hflag]
  exact (frames_setFrames (m := m) frames).symm ▸ hinner

theorem FlagOk.setFrames
    {frames : List Frame} (hinner : Restores m.sie frames) : (m.setFrames frames).FlagOk :=
  h.withFrames hcode hdepth hinner

end

theorem FlagOk.callSchedule (h : m.FlagOk) (hdepth : m.lockDepth = 0) (hsame : m.SameFlag) :
    m.callSchedule.FlagOk where
  inner := by
    have hflag : m.callSchedule.flag = m.sie := flag_of_unlocked hdepth
    rw [hflag, frames_callSchedule]
    exact ⟨rfl, h.restores hdepth⟩
  outer t ht := by
    rw [stack_callSchedule_of_ne (m := m) ht]
    exact h.outer t ht
  unlocked _ _ _ _ := hdepth
  last stmt hmem := by
    have hfirst : stmt ∈ [Stmt.clearNeedResched m.rq.current] := hmem
    rw [List.mem_singleton.mp hfirst]
    rfl
  calls stmt _ _ := by
    refine ⟨?_, m.sie, m.frames, frames_callSchedule⟩
    intro t sie rest ht hstack
    exact hsame t sie rest ht ((stack_callSchedule_of_ne (m := m) ht).symm.trans hstack)

theorem restores_waitFor {b : Bool} {pc : WaitPc} (hpc : ∀ enabled, pc ≠ .halted enabled) :
    Restores b (.waitFor sie pc :: rest) ↔ b = sie ∧ Restores sie rest := by
  cases pc with
  | halted enabled => exact absurd rfl (hpc enabled)
  | _ => exact Iff.rfl

theorem FlagOk.setRq (h : m.FlagOk) (rq : RunQueue) : FlagOk { m with rq := rq } :=
  ⟨h.inner, h.outer, h.unlocked, h.last, h.calls⟩

/-- A call of `wait_for` goes on to another of its statements. -/
theorem FlagOk.setPc (h : m.FlagOk) (hcode : m.code = []) (hdepth : m.lockDepth = 0)
    {pc pc' : WaitPc} (hframes : m.frames = .waitFor sie pc :: rest)
    (hpc : ∀ enabled, pc ≠ .halted enabled) (hpc' : ∀ enabled, pc' ≠ .halted enabled) :
    (m.setFrames (.waitFor sie pc' :: rest)).FlagOk := by
  have hrestores := h.restores hdepth
  rw [hframes, restores_waitFor hpc] at hrestores
  exact h.setFrames hcode hdepth ((restores_waitFor hpc').mpr hrestores)

theorem waitFinishCurrentState_eq (m : Cpu) :
    ∃ rq, m.waitFinishCurrentState = { m with rq := rq } := by
  unfold waitFinishCurrentState
  split
  · exact ⟨_, rfl⟩
  · exact ⟨m.rq, rfl⟩

/-- Taking or releasing a spinlock does not change the flag that will be in force. -/
theorem flag_spinLockIrqsave (m : Cpu) : m.spinLockIrqsave.flag = m.flag := by
  simp [flag, spinLockIrqsave]

theorem flag_spinUnlockIrqrestore (hdepth : 0 < m.lockDepth) :
    m.spinUnlockIrqrestore.flag = m.flag := by
  unfold flag spinUnlockIrqrestore
  simp only [if_neg (Nat.ne_of_gt hdepth)]
  split
  · rfl
  · rfl

theorem frames_of_inKernel (h : m.inKernel = true) :
    ∀ frame rest, m.frames = frame :: rest → frame.mayLock = true := by
  intro frame rest hframes
  unfold inKernel at h
  rw [hframes] at h
  have htop := (Bool.and_eq_true_iff.mp h).2
  split at htop <;> try cases htop
  all_goals
    rename_i heq
    rw [(List.cons_eq_cons.mp heq).1]
    rfl

/-- A spinlock operation of kernel code. -/
theorem FlagOk.spin (h : m.FlagOk) (hkernel : m.inKernel = true) (hrunning : m'.running = m.running)
    (hstack : m'.stack = m.stack) (hcode : m'.code = m.code) (hflag : m'.flag = m.flag) :
    m'.FlagOk := by
  have hframes : m'.frames = m.frames := by
    unfold Cpu.frames
    rw [hrunning, hstack]
  refine h.of_frames hrunning (fun t _ => congrFun hstack t)
    (forall_code (hcode.trans (code_of_inKernel hkernel))) ?_ ?_
  · rw [hflag, hframes]
    exact h.inner
  · intro frame rest heq hmay
    rw [hframes] at heq
    rw [frames_of_inKernel hkernel frame rest heq] at hmay
    cases hmay

/-- Each step keeps the stacks so that they unwind with the flags of their calls. -/
theorem FlagOk.next {e : Event} (h : m.FlagOk) (hcond : m.CallsAgree e)
    (heq : m.next e = some m') : m'.FlagOk := by
  cases e
  case stmt => exact h.runStmt heq
  all_goals simp only [Cpu.next] at heq
  case timer expired =>
    split_ifs at heq
    obtain ⟨rq, -, rfl⟩ := Option.map_eq_some_iff.mp heq
    exact ⟨h.inner, h.outer, h.unlocked, h.last, h.calls⟩
  case userTimer expired =>
    split_ifs at heq with hguard
    obtain ⟨rq, -, rfl⟩ := Option.map_eq_some_iff.mp heq
    obtain ⟨hcode, hframes⟩ := hguard
    refine h.of_frames rfl (fun t ht => stack_setFrames_of_ne (m := m) ht _) (forall_code hcode)
      ?_ ?_
    · change Restores _ (m.setFrames (.trap m.sie :: m.frames)).frames
      rw [frames_setFrames, hframes]
      trivial
    · intro frame rest heq hmay
      have htop : (m.setFrames (.trap m.sie :: m.frames)).frames = frame :: rest := heq
      rw [frames_setFrames] at htop
      rw [← (List.cons_eq_cons.mp htop).1] at hmay
      cases hmay
  case sret =>
    split at heq <;> try cases heq
    rename_i spie rest hframes
    split_ifs at heq with hguard
    cases heq
    have hrestores := h.restores hguard.2
    rw [hframes] at hrestores
    exact h.withFrames hguard.1 hguard.2 hrestores
  case ret =>
    split at heq <;> try cases heq
    rename_i sie rest hframes
    split_ifs at heq with hcode
    cases heq
    obtain ⟨hdepth, hsie, hrest⟩ := h.top hframes rfl
    exact h.setFrames hcode hdepth (hsie ▸ hrest)
  case waitFor valid =>
    split at heq <;> try cases heq
    rename_i hguard
    refine h.setFrames (code_of_inKernel hguard.1) hguard.2.1 ?_
    have hrestores := h.restores hguard.2.1
    cases valid with
    | false | true => exact ⟨rfl, hrestores⟩
  case waitArm sleepState =>
    split at heq <;> try cases heq
    rename_i sie rest hframes
    split_ifs at heq with hguard
    cases heq
    exact (h.setPc hguard.1 hguard.2.1 hframes (by simp) (by simp)).setRq _
  case waitDone =>
    split at heq <;> try cases heq
    all_goals
      rename_i hframes
      split_ifs at heq with hguard
      cases heq
      exact h.setPc hguard.1 hguard.2 hframes (by simp) (by simp)
  case waitSkip =>
    split at heq <;> try cases heq
    rename_i hframes
    split_ifs at heq with hguard
    cases heq
    exact h.setPc hguard.1 hguard.2.1 hframes (by simp) (by simp)
  case waitSchedule =>
    split at heq <;> try cases heq
    rename_i hframes
    split_ifs at heq with hguard
    cases heq
    have hwoken : (m.setFrames (.waitFor _ .woken :: _)).FlagOk :=
      h.setPc hguard.1 hguard.2.1 hframes (by simp) (by simp)
    refine hwoken.callSchedule hguard.2.1 ?_
    intro t sie rest ht hstack
    exact hcond (.inr rfl) t sie rest ht ((stack_setFrames_of_ne (m := m) ht _).symm.trans hstack)
  case waitHalt =>
    split at heq <;> try cases heq
    rename_i sie sleepState rest hframes
    split_ifs at heq with hguard
    cases heq
    have hrestores := h.restores hguard.2.1
    rw [hframes] at hrestores
    refine h.withFrames hguard.1 hguard.2.1 ⟨rfl, ?_, hrestores.2⟩
    rw [Bool.not_not]
    exact hrestores.1.symm
  case waitResume =>
    split at heq <;> try cases heq
    rename_i sie enabled rest hframes
    split_ifs at heq with hcode
    cases heq
    obtain ⟨hdepth, hset, hsie, hrest⟩ := h.top hframes rfl
    refine h.withFrames hcode hdepth ⟨?_, hrest⟩
    rw [hset, hsie, Bool.and_true]
  case waitAgain =>
    split at heq <;> try cases heq
    rename_i hframes
    split_ifs at heq with hcode
    cases heq
    obtain ⟨rq, hfinish⟩ := waitFinishCurrentState_eq m
    rw [hfinish]
    exact (h.setRq rq).setPc hcode (h.unlocked _ _ hframes rfl) hframes (by simp) (by simp)
  case waitReturn =>
    split at heq <;> try cases heq
    rename_i sie rest hframes
    split_ifs at heq with hcode
    cases heq
    obtain ⟨rq, hfinish⟩ := waitFinishCurrentState_eq m
    rw [hfinish]
    obtain ⟨hdepth, hsie, hrest⟩ := h.top hframes rfl
    exact (h.setRq rq).setFrames hcode hdepth (hsie ▸ hrest)
  -- the other steps are taken under a guard
  all_goals split at heq <;> cases heq
  case trap hguard =>
    have hcode : m.code = [] := by
      rcases hguard.2 with hkernel | huser
      · exact code_of_inKernel hkernel
      · exact huser.1
    exact h.withFrames hcode hguard.1 (h.restores hguard.1)
  case execUser hguard =>
    exact h.withFrames hguard.1 hguard.2.1 trivial
  case irqEnable hguard =>
    obtain ⟨hcode, hdepth, hframes, -⟩ := hguard
    refine h.of_frames rfl (fun _ _ => rfl) (forall_code hcode) ?_ (fun _ _ _ _ => hdepth)
    change Restores _ m.frames
    rw [hframes]
    trivial
  case spinLock hkernel =>
    exact h.spin hkernel rfl rfl rfl (flag_spinLockIrqsave m)
  case spinUnlock hguard =>
    exact h.spin hguard.1 rfl rfl rfl (flag_spinUnlockIrqrestore hguard.2)
  case wake t hkernel =>
    refine h.of_frames rfl (fun _ _ => rfl) ?_ h.inner h.unlocked
    simp [wakeTaskCode, Stmt.last]
  case spawn t frames hguard =>
    obtain ⟨-, -, hrunning, -, hfresh⟩ := hguard
    have hself : update m.stack t frames m.running = m.frames :=
      update_of_ne hrunning.symm frames m.stack
    have hcode : ∀ stmt ∈ enqueueCode t, stmt.last = false := by
      simp [enqueueCode, Stmt.last]
    refine ⟨?_, ?_, ?_, ?_, ?_⟩
    · change Restores m.flag (update m.stack t frames m.running)
      rw [hself]
      exact h.inner
    · intro u hu
      change Suspended (update m.stack t frames u)
      rw [update_apply]
      split
      · rcases hfresh with rfl | ⟨spie, rfl⟩
        · trivial
        · trivial
      · exact h.outer u hu
    · intro frame rest hframes
      exact h.unlocked frame rest (hself.symm.trans hframes)
    · intro stmt hmem
      exact hcode stmt (List.mem_of_mem_dropLast hmem)
    · intro stmt hmem hlast
      rw [hcode stmt hmem] at hlast
      cases hlast
  case dequeue t hkernel =>
    refine h.of_frames rfl (fun _ _ => rfl) ?_ h.inner h.unlocked
    simp [dequeueCode, Stmt.last]
  case setState t state _ =>
    exact ⟨h.inner, h.outer, h.unlocked, h.last, h.calls⟩
  case schedule hguard =>
    exact h.callSchedule hguard.2 (hcond (.inl rfl))

theorem flagOk_boot : boot.FlagOk := by
  refine ⟨trivial, ?_, fun _ _ _ _ => rfl, List.forall_mem_nil _, forall_code rfl⟩
  intro t ht
  have hstack : boot.stack t = [] := if_neg ht
  rw [hstack]
  trivial

/-- In every run in which the calls of `schedule()` agree, each call of `schedule()` and of
`wait_for()` returns with the flag it was made with. -/
theorem flagKept_of_callsAgree {m : Cpu} (hrun : Runs Cpu.Does CallsAgree boot m) : m.FlagKept := by
  have hok := hrun.induct flagOk_boot fun _ _ _ h hcond heq => h.next hcond heq
  rintro - sie rest (hframes | hframes)
  · exact (hok.top hframes rfl).2.1
  · exact (hok.top hframes rfl).2.1

/-! ## A switch from a kernel thread into a trap -/

/-- `init` is preempted in user mode while it uses up its time slice, and calls `schedule()`
in the trap; the writeback thread starts, waits, and calls `schedule()` in turn. -/
def flagLost : List Event :=
  .spawn 1 [.fresh true, .thread] :: List.replicate 5 .stmt ++
    .spawn 2 [.fresh true, .thread] :: List.replicate 5 .stmt ++
    .schedule :: List.replicate 11 .stmt ++
    [.execUser, .userTimer [], .schedule] ++ List.replicate 17 .stmt ++
    [.waitFor true, .waitArm .interruptible, .waitSchedule] ++ List.replicate 12 .stmt

/-- The `schedule()` of the trap was called with interrupts disabled and returns with
interrupts enabled. -/
theorem schedule_returns_with_other_flag :
    ∃ m, Runs Cpu.Does (fun _ _ => True) boot m ∧ ¬m.FlagKept := by
  have hlost : (runAll Cpu.next (fun _ _ => true) flagLost boot).any (fun m =>
      m.code.isEmpty && decide (m.frames = [.schedule false, .trap true]) && m.sie) = true := by
    decide +kernel
  obtain ⟨m, hrun, hstate⟩ := (Option.any_eq_true _ _).mp hlost
  simp only [Bool.and_eq_true, decide_eq_true_eq, List.isEmpty_iff] at hstate
  obtain ⟨⟨hcode, hframes⟩, hsie⟩ := hstate
  refine ⟨m, Runs.of_runAll (fun _ _ _ heq => heq) (fun _ _ _ => trivial) hrun, ?_⟩
  intro hkept
  have hflag := hkept hcode false _ (.inl hframes)
  rw [hsie] at hflag
  cases hflag

/-- Events without a call of `schedule()`. -/
def calmly (events : List Event) : Cpu → Option Cpu :=
  runAll next (fun _ e => e != .schedule && e != .waitSchedule) events

theorem runs_calmly {m : Cpu} {events : List Event} (hsome : (calmly events m).isSome = true) :
    Runs Cpu.Does CallsAgree m ((calmly events m).get hsome) := by
  refine Runs.of_runAll (fun _ _ _ heq => heq) (fun m e hok hcall => ?_)
    (Option.some_get hsome).symm
  rcases hcall with rfl | rfl <;> cases hok

/-- The idle task has started a thread. -/
def spawned : Cpu :=
  (calmly (.spawn 1 [.fresh true, .thread] :: .replicate 5 .stmt) boot).get (by decide +kernel)

/-- It has called `schedule()`, and the thread has run and ended. -/
def threadEnded : Cpu :=
  (calmly (.replicate 12 .stmt ++ [.setState 1 .zombie]) spawned.callSchedule).get
    (by decide +kernel)

/-- The thread has called `schedule()` too, and the call of the idle task returns. -/
def idleAgain : Cpu :=
  (calmly (.replicate 5 .stmt) threadEnded.callSchedule).get (by decide +kernel)

theorem flagKept_idleAgain : Runs Cpu.Does CallsAgree boot idleAgain ∧ idleAgain.code = [] ∧
      idleAgain.frames = [.schedule true, .thread] ∧ idleAgain.FlagKept := by
  have hfirst : spawned.SameFlag := by
    intro t sie rest ht hstack
    change update boot.stack 1 [.fresh true, .thread] t = _ at hstack
    unfold update boot at hstack
    grind
  have hsecond : threadEnded.SameFlag := by
    intro t sie rest ht hstack
    have hrunning : threadEnded.running = 1 := rfl
    have hsie : threadEnded.sie = true := rfl
    change update (update (update boot.stack 1 [.fresh true, .thread]) 0
      [.schedule true, .thread]) 1 [.thread] t = _ at hstack
    unfold update boot at hstack
    grind
  have hruns : Runs Cpu.Does CallsAgree boot idleAgain :=
    (runs_calmly _).trans (.head ⟨.schedule, fun _ => hfirst, rfl⟩
      ((runs_calmly _).trans (.head ⟨.schedule, fun _ => hsecond, rfl⟩ (runs_calmly _))))
  exact ⟨hruns, rfl, rfl, flagKept_of_callsAgree hruns⟩

end Cpu

end CuteOS.Sched
