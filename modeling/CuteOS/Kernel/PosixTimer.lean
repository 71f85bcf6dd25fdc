/-
  Kernel/PosixTimer.lean --- the expirations of a periodic POSIX timer.

  Source: `kernel/time.c` (`ktimer_next_interval_deadline`, `posix_timer_fire`,
  `ktimer_run_expired`, `mtime_deadline_after`).

  One armed timer with `SIGEV_SIGNAL` and a nonzero interval, and the task that it signals.
  Times are ticks of `mtime`.  Other timers in the queue do not touch this state.
-/
import CuteOS.Lib.Runs
import Mathlib.Tactic.Linarith

set_option autoImplicit false

namespace CuteOS.Kernel

/-- `UINT64_MAX`. -/
def uint64Max : Nat := 2 ^ 64 - 1

/-- `INT32_MAX`. -/
def int32Max : Nat := 2 ^ 31 - 1

/-- `mtime_deadline_after`. -/
def mtimeDeadlineAfter (now delta : Nat) : Nat :=
  if uint64Max - now < delta then uint64Max else now + delta

/-- The loop of `ktimer_next_interval_deadline`. -/
def intervalLoop (interval now : Nat) : Nat → Nat → Nat
  | 0, next => next
  | fuel + 1, next =>
    if next ≤ now ∧ next ≠ uint64Max then
      intervalLoop interval now fuel (mtimeDeadlineAfter next interval)
    else next

/-- `ktimer_next_interval_deadline`; each turn adds at least one. -/
def ktimerNextIntervalDeadline (expires interval now : Nat) : Nat :=
  intervalLoop interval now (now + 1) (mtimeDeadlineAfter expires interval)

/-- A `struct posix_timer` with its `struct ktimer`, and of the target whether it is dead and
has the signal pending.  `first`, `last` and `queued` are not in the code: the first
expiration, the last timer interrupt since the timer was armed and the number of signals
that the timer has sent. -/
structure PosixTimer where
  expires : Nat
  interval : Nat
  overrun : Nat := 0
  pending : Bool := false
  targetDead : Bool := false
  first : Nat
  last : Option Nat := none
  queued : Nat := 0
  periodic : 0 < interval

namespace PosixTimer

/-- `posix_timer_settime` with a relative or an absolute time. -/
def arm (first interval : Nat) (hinterval : 0 < interval) : PosixTimer where
  expires := first
  interval := interval
  first := first
  periodic := hinterval

/-- `posix_timer_fire`. -/
def fire (t : PosixTimer) : PosixTimer :=
  if t.pending then
    if t.overrun < int32Max then { t with overrun := t.overrun + 1 } else t
  else if t.targetDead then t
  else { t with pending := true, queued := t.queued + 1 }

/-- The new deadline of an expired timer. -/
def rearm (t : PosixTimer) (now : Nat) : PosixTimer :=
  { t with expires := ktimerNextIntervalDeadline t.expires t.interval now }

/-- `ktimer_run_expired`; the timer stays in the queue. -/
def ktimerRunExpired (now : Nat) : Nat → PosixTimer → Option PosixTimer
  | 0, _ => none
  | fuel + 1, t =>
    if now < t.expires then some t
    else ktimerRunExpired now fuel (t.rearm now).fire

inductive Act where
  /-- A timer interrupt at a time. -/
  | interrupt (now : Nat)
  /-- The target takes the signal. -/
  | deliver
  /-- Somebody else sends the same signal. -/
  | send
  /-- The target exits. -/
  | exit

/-- One step; time does not go back. -/
def next (t : PosixTimer) : Act → Option PosixTimer
  | .interrupt now =>
    if t.last.getD 0 ≤ now then
      (ktimerRunExpired now 2 t).map fun t => { t with last := some now }
    else none
  | .deliver => some { t with pending := false }
  | .send => some { t with pending := t.pending || !t.targetDead }
  | .exit => some { t with targetDead := true }

/-- How many of `first`, `first + interval`, ... have come at the last interrupt. -/
def expirations (first interval : Nat) : Option Nat → Nat
  | none => 0
  | some now => if now < first then 0 else (now - first) / interval + 1

/-- The expirations up to the last interrupt. -/
def elapsed (t : PosixTimer) : Nat := expirations t.first t.interval t.last

/-- Every expiration is a signal or an overrun. -/
def Accounted (t : PosixTimer) : Prop :=
  t.queued ≤ t.elapsed ∧ t.overrun = min (t.elapsed - t.queued) int32Max

/-- An interrupt finds at most one expiration due, and the target alive. -/
def Prompt (t : PosixTimer) : Act → Prop
  | .interrupt now =>
    t.expires ≤ now → now < t.expires + t.interval ∧ now < uint64Max ∧ t.targetDead = false
  | _ => True

/-- What holds between interrupts. -/
structure Inv (t : PosixTimer) : Prop where
  expires : t.expires = min (t.first + t.elapsed * t.interval) uint64Max
  accounted : t.Accounted

variable {t t' : PosixTimer}

theorem mtimeDeadlineAfter_eq {now : Nat} (hnow : now ≤ uint64Max) (delta : Nat) :
    mtimeDeadlineAfter now delta = min (now + delta) uint64Max := by
  unfold mtimeDeadlineAfter
  split_ifs <;> omega

/-- When one expiration is due the loop does not turn. -/
theorem ktimerNextIntervalDeadline_eq {expires interval now : Nat} (hdue : expires ≤ now)
    (honce : now < expires + interval) (hmax : now < uint64Max) :
    ktimerNextIntervalDeadline expires interval now = min (expires + interval) uint64Max := by
  rw [ktimerNextIntervalDeadline, mtimeDeadlineAfter_eq (by omega), intervalLoop, if_neg]
  omega

/-! ## Expirations -/

section Expirations

variable {first interval e now : Nat} {last : Option Nat}

theorem expirations_due (hdue : first + e * interval ≤ now)
    (honce : now < first + e * interval + interval) :
    expirations first interval (some now) = e + 1 := by
  have hdiv : (now - first) / interval = e :=
    Nat.div_eq_of_lt_le (by omega) (by rw [Nat.succ_mul]; omega)
  rw [expirations, if_neg (by omega), hdiv]

theorem expirations_early (hlast : last.getD 0 ≤ now)
    (hearly : now < first + expirations first interval last * interval) :
    expirations first interval (some now) = expirations first interval last := by
  cases last with
  | none =>
    rw [expirations, Nat.zero_mul, Nat.add_zero] at hearly
    simp [expirations, hearly]
  | some last =>
    have hle : last ≤ now := hlast
    rw [expirations] at hearly ⊢
    rw [expirations]
    split_ifs at hearly ⊢ with hbefore hnow
    · rfl
    · omega
    · omega
    · have hmono : (last - first) / interval ≤ (now - first) / interval :=
        Nat.div_le_div_right (by omega)
      have hlt : (now - first) / interval < (last - first) / interval + 1 :=
        Nat.div_lt_of_lt_mul (by rw [Nat.mul_comm]; omega)
      omega

end Expirations

/-! ## Interrupts -/

/-- Firing accounts for one more expiration. -/
theorem accounted_fire {e : Nat} (halive : t.targetDead = false) (hle : t.queued ≤ e)
    (hover : t.overrun = min (e - t.queued) int32Max) :
    t.fire.queued ≤ e + 1 ∧ t.fire.overrun = min (e + 1 - t.fire.queued) int32Max := by
  unfold fire
  split_ifs with hpending hroom hdead
  · exact ⟨Nat.le_succ_of_le hle, by change t.overrun + 1 = min (e + 1 - t.queued) _; omega⟩
  · exact ⟨Nat.le_succ_of_le hle, by omega⟩
  · cases halive.symm.trans hdead
  · exact ⟨Nat.succ_le_succ hle, by change t.overrun = min (e + 1 - (t.queued + 1)) _; omega⟩

/-- Firing leaves the schedule alone. -/
theorem fire_schedule (t : PosixTimer) : t.fire.expires = t.expires ∧
    t.fire.interval = t.interval ∧ t.fire.first = t.first := by
  unfold fire
  split_ifs <;> exact ⟨rfl, rfl, rfl⟩

theorem Inv.interrupt (h : t.Inv) {now : Nat} (hprompt : t.Prompt (.interrupt now))
    (hnext : t.next (.interrupt now) = some t') : t'.Inv := by
  rw [next] at hnext
  split_ifs at hnext with hlast
  by_cases hdue : t.expires ≤ now
  · obtain ⟨honce, hmax, halive⟩ := hprompt hdue
    have hexpires : t.expires = t.first + t.elapsed * t.interval := by
      have := h.expires
      omega
    have hrearm : (t.rearm now).expires = min (t.expires + t.interval) uint64Max :=
      ktimerNextIntervalDeadline_eq hdue honce hmax
    obtain ⟨hexp, hint, hfirst⟩ := fire_schedule (t.rearm now)
    have hfired : ktimerRunExpired now 2 t = some (t.rearm now).fire := by
      rw [ktimerRunExpired, if_neg (Nat.not_lt.mpr hdue), ktimerRunExpired, if_pos]
      omega
    rw [hfired] at hnext
    cases hnext
    have helapsed : elapsed { (t.rearm now).fire with last := some now } = t.elapsed + 1 := by
      change expirations (t.rearm now).fire.first (t.rearm now).fire.interval (some now) = _
      rw [hfirst, hint]
      exact expirations_due (hexpires ▸ hdue) (hexpires ▸ honce)
    refine ⟨?_, ?_⟩
    · rw [helapsed]
      rw [hexp, hfirst, hint, hrearm, hexpires, Nat.succ_mul, Nat.add_assoc]
      rfl
    · rw [Accounted, helapsed]
      exact accounted_fire halive h.accounted.1 h.accounted.2
  · have hsame : ktimerRunExpired now 2 t = some t := if_pos (Nat.lt_of_not_le hdue)
    rw [hsame] at hnext
    cases hnext
    have hearly : now < t.first + t.elapsed * t.interval := by
      have := h.expires
      omega
    have helapsed : elapsed { t with last := some now } = t.elapsed :=
      expirations_early hlast hearly
    exact ⟨by rw [helapsed]; exact h.expires, by rw [Accounted, helapsed]; exact h.accounted⟩

theorem Inv.next (h : t.Inv) {a : Act} (hprompt : t.Prompt a) (hnext : t.next a = some t') :
    t'.Inv := by
  cases a with
  | interrupt now => exact h.interrupt hprompt hnext
  | deliver | send | exit =>
    cases hnext
    exact ⟨h.expires, h.accounted⟩

/-- When no interrupt finds two expirations due, every expiration is accounted for. -/
theorem expirations_accounted {first interval : Nat} (hinterval : 0 < interval)
    (hfirst : first ≤ uint64Max) {t : PosixTimer}
    (hrun : Lib.Runs (fun t a t' => t.next a = some t') Prompt (arm first interval hinterval) t) :
    t.Accounted := by
  have hinv : t.Inv := by
    refine hrun.induct ⟨?_, Nat.le_refl 0, rfl⟩ fun _ _ _ h hprompt hnext => h.next hprompt hnext
    change first = min (first + 0 * interval) uint64Max
    omega
  exact hinv.accounted

/-- One expiration sends the signal, the next one is an overrun. -/
theorem expirations_accounted_overrun :
    ∃ t t', (arm 10 10 (Nat.succ_pos 9)).next (.interrupt 10) = some t ∧
      t.next (.interrupt 20) = some t' ∧ t'.queued = 1 ∧ t'.overrun = 1 ∧ t'.Accounted := by
  have hfirst : (arm 10 10 (Nat.succ_pos 9)).next (.interrupt 10) =
      some ⟨20, 10, 0, true, false, 10, some 10, 1, Nat.succ_pos 9⟩ := rfl
  have hsecond : next ⟨20, 10, 0, true, false, 10, some 10, 1, Nat.succ_pos 9⟩ (.interrupt 20) =
      some ⟨30, 10, 1, true, false, 10, some 20, 1, Nat.succ_pos 9⟩ := rfl
  have hmax : 10 ≤ uint64Max := by decide
  refine ⟨_, _, hfirst, hsecond, rfl, rfl, expirations_accounted (Nat.succ_pos 9) hmax ?_⟩
  have hstart : Lib.Runs (fun t a t' => t.next a = some t') Prompt (arm 10 10 (Nat.succ_pos 9)) _ :=
    .single ⟨.interrupt 10, fun _ => by decide, hfirst⟩
  exact hstart.tail ⟨.interrupt 20, fun _ => by decide, hsecond⟩

/-- An interrupt at 35 merges the expirations at 10, 20 and 30. -/
theorem expirations_lost :
    ∃ t, (arm 10 10 (Nat.succ_pos 9)).next (.interrupt 35) = some t ∧ t.elapsed = 3 ∧
      t.queued = 1 ∧ t.overrun = 0 ∧ ¬t.Accounted := by
  unfold Accounted
  decide

end PosixTimer

end CuteOS.Kernel
