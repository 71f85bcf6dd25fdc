/-
  Kernel/Timeouts.lean --- the deadlines of timeouts.

  Source: `kernel/time.c`.  Times are ticks of `mtime`; a requested duration is a rational
  number of ticks.  Values of type `int64_t` are integers here, and of the products and sums
  only those that the code guards can leave 64 bits.
-/
import CuteOS.Kernel.PosixTimer
import CuteOS.Kernel.Types
import Mathlib.Data.Rat.Floor
import Mathlib.Tactic.Positivity

set_option autoImplicit false

namespace CuteOS.Kernel

open PosixTimer (mtimeDeadlineAfter_eq)

/-- `MTIME_FREQ`. -/
def mtimeFreq : Nat := 10000000

/-- `USEC_PER_SEC`. -/
def usecPerSec : Nat := 1000000

/-- `NSEC_PER_SEC`. -/
def nsecPerSec : Nat := 1000000000

structure Timespec where
  tvSec : Int
  tvNsec : Int

structure Timeval where
  tvSec : Int
  tvUsec : Int

/-- What `timespec_to_mtime_delta` and `timeval_to_mtime_delta` have in common; a second has
`unit` fractions. -/
def toMtimeDelta (unit : Nat) (sec frac : Int) : Except Errno Nat :=
  if sec < 0 ∨ frac < 0 ∨ unit ≤ frac then .error .einval
  else
    let secTicks :=
      if uint64Max / mtimeFreq < sec.toNat then uint64Max else sec.toNat * mtimeFreq
    let fracTicks := (frac.toNat * mtimeFreq + (unit - 1)) / unit
    .ok (if uint64Max - secTicks < fracTicks then uint64Max else secTicks + fracTicks)

/-- `timespec_to_mtime_delta`. -/
def timespecToMtimeDelta (ts : Timespec) : Except Errno Nat :=
  toMtimeDelta nsecPerSec ts.tvSec ts.tvNsec

/-- `timeval_to_mtime_delta`. -/
def timevalToMtimeDelta (tv : Timeval) : Except Errno Nat :=
  toMtimeDelta usecPerSec tv.tvSec tv.tvUsec

/-- `mtime_to_timespec`. -/
def mtimeToTimespec (ticks : Nat) : Timespec where
  tvSec := (ticks / mtimeFreq : Nat)
  tvNsec := (ticks % mtimeFreq * nsecPerSec / mtimeFreq : Nat)

/-- `mtime_to_timeval`. -/
def mtimeToTimeval (ticks : Nat) : Timeval :=
  let sec := ticks / mtimeFreq
  let usec := (ticks % mtimeFreq * usecPerSec + (mtimeFreq - 1)) / mtimeFreq
  if usecPerSec ≤ usec then ⟨(sec + 1 : Nat), (usec - usecPerSec : Nat)⟩ else ⟨sec, usec⟩

/-- `mtime_deadline_from_timespec` at time `now`; no deadline is `none`. -/
def mtimeDeadlineFromTimespec (now : Nat) : Option Timespec → Except Errno (Option Nat)
  | none => .ok none
  | some ts => (timespecToMtimeDelta ts).map fun delta => some (mtimeDeadlineAfter now delta)

/-- `mtime_deadline_from_ms`. -/
def mtimeDeadlineFromMs (now : Nat) (timeoutMs : Int) : Except Errno (Option Nat) :=
  if timeoutMs < 0 then .ok none
  else if timeoutMs = 0 then .ok (some now)
  else
    let delta :=
      if (uint64Max - 999) / mtimeFreq < timeoutMs.toNat then uint64Max
      else (timeoutMs.toNat * mtimeFreq + 999) / 1000
    .ok (some (mtimeDeadlineAfter now delta))

/-! ## Durations -/

/-- The ticks of a duration in seconds and fractions of a second. -/
def durationTicks (unit : Nat) (sec frac : Int) : ℚ := (sec + frac / unit) * mtimeFreq

def FractionValid (unit : Nat) (sec frac : Int) : Prop := 0 ≤ sec ∧ 0 ≤ frac ∧ frac < unit

/-- The deadlines of the valid requests: they exist, none is before `now` plus the duration
as far as 64 bits go, each is less than a tick late unless it is `UINT64_MAX`, and a longer
duration has no earlier deadline. -/
structure NeverEarly {α : Type} (now : Nat) (valid : α → Prop) (ticks : α → ℚ)
    (deadline : α → Except Errno (Option Nat)) : Prop where
  rounds : ∀ a, valid a → ∃ t : Nat, deadline a = .ok (some t) ∧
    min (now + ticks a) uint64Max ≤ t ∧ (t = uint64Max ∨ t < now + ticks a + 1)
  mono : ∀ a b t u, valid a → valid b → ticks a ≤ ticks b → deadline a = .ok (some t) →
    deadline b = .ok (some u) → t ≤ u

/-- Deadlines whose distance is the duration rounded up, or saturates. -/
theorem NeverEarly.of_ceil {α : Type} {now : Nat} {valid : α → Prop} {ticks : α → ℚ}
    {deadline : α → Except Errno (Option Nat)} (hnow : now ≤ uint64Max) (delta : α → Nat)
    (hnonneg : ∀ a, valid a → 0 ≤ ticks a)
    (hceil : ∀ a, valid a → delta a = ⌈ticks a⌉₊ ∨ delta a = uint64Max)
    (hmono : ∀ a b, valid a → valid b → ticks a ≤ ticks b → delta a ≤ delta b)
    (hdeadline : ∀ a, valid a → deadline a = .ok (some (mtimeDeadlineAfter now (delta a)))) :
    NeverEarly now valid ticks deadline where
  rounds a ha := by
    refine ⟨_, hdeadline a ha, ?_⟩
    rw [mtimeDeadlineAfter_eq hnow]
    rcases hceil a ha with hdelta | hdelta
    · rw [hdelta, Nat.cast_min, Nat.cast_add]
      refine ⟨min_le_min_right _ (add_le_add_right (Nat.le_ceil _) _), ?_⟩
      rcases Nat.le_total uint64Max (now + ⌈ticks a⌉₊) with hsat | hfits
      · exact .inl (Nat.min_eq_right hsat)
      · refine .inr ((min_le_left _ _).trans_lt ?_)
        rw [add_assoc]
        exact add_lt_add_right (Nat.ceil_lt_add_one (hnonneg a ha)) _
    · rw [hdelta, Nat.min_eq_right (Nat.le_add_left ..)]
      exact ⟨min_le_right _ _, .inl rfl⟩
  mono a b t u ha hb hle ht hu := by
    rw [hdeadline a ha, mtimeDeadlineAfter_eq hnow] at ht
    rw [hdeadline b hb, mtimeDeadlineAfter_eq hnow] at hu
    cases ht
    cases hu
    exact min_le_min_right _ (Nat.add_le_add_left (hmono a b ha hb hle) now)

theorem div_up_eq_ceil (a : Nat) {n : Nat} (hn : 0 < n) : (a + (n - 1)) / n = ⌈(a / n : ℚ)⌉₊ := by
  have hpos : (0 : ℚ) < n := Nat.cast_pos.mpr hn
  apply le_antisymm
  · have hle : a ≤ ⌈(a / n : ℚ)⌉₊ * n := by
      have hceil := Nat.le_ceil (a / n : ℚ)
      rw [div_le_iff₀ hpos] at hceil
      exact_mod_cast hceil
    rw [← Nat.lt_succ_iff, Nat.div_lt_iff_lt_mul hn, Nat.succ_mul]
    omega
  · rw [Nat.ceil_le, div_le_iff₀ hpos]
    have hmod := Nat.mod_lt (a + (n - 1)) hn
    have hdiv := Nat.div_add_mod' (a + (n - 1)) n
    have hle : a ≤ (a + (n - 1)) / n * n := by omega
    exact_mod_cast hle

theorem mtimeFreq_eq : mtimeFreq = 10000000 := rfl

theorem uint64Max_eq : uint64Max = 18446744073709551615 := rfl

variable {now unit ticks : Nat} {sec frac : Int}

theorem durationTicks_nonneg (h : FractionValid unit sec frac) : 0 ≤ durationTicks unit sec frac := by
  have hsec : (0 : ℚ) ≤ sec := Int.cast_nonneg h.1
  have hfrac : (0 : ℚ) ≤ frac := Int.cast_nonneg h.2.1
  unfold durationTicks
  positivity

/-- The conversion rounds up and saturates. -/
theorem toMtimeDelta_natCast {sec frac : Nat} (hfrac : frac < unit) : toMtimeDelta unit sec frac =
      .ok (min (sec * mtimeFreq + (frac * mtimeFreq + (unit - 1)) / unit) uint64Max) := by
  rw [toMtimeDelta, if_neg (by omega), Int.toNat_natCast, Int.toNat_natCast]
  generalize (frac * mtimeFreq + (unit - 1)) / unit = fracTicks
  rw [mtimeFreq_eq, uint64Max_eq]
  refine congrArg Except.ok ?_
  split_ifs <;> omega

theorem toMtimeDelta_eq (h : FractionValid unit sec frac) :
    toMtimeDelta unit sec frac = .ok (min ⌈durationTicks unit sec frac⌉₊ uint64Max) := by
  obtain ⟨hsec, hfrac, hlt⟩ := h
  lift sec to Nat using hsec
  lift frac to Nat using hfrac
  have hticks : durationTicks unit sec frac =
      (frac * mtimeFreq : Nat) / (unit : ℚ) + (sec * mtimeFreq : Nat) := by
    simp only [durationTicks]
    push_cast
    ring
  rw [toMtimeDelta_natCast (by omega), hticks, Nat.ceil_add_natCast (by positivity),
    ← div_up_eq_ceil _ (by omega), Nat.add_comm]

/-- Durations in seconds and fractions. -/
theorem neverEarly_fractions (hnow : now ≤ uint64Max) (unit : Nat) {α : Type} (sec frac : α → Int) :
    NeverEarly now (fun a => FractionValid unit (sec a) (frac a))
      (fun a => durationTicks unit (sec a) (frac a))
      fun a => (toMtimeDelta unit (sec a) (frac a)).map fun delta =>
        some (mtimeDeadlineAfter now delta) := by
  refine .of_ceil hnow _ (fun _ ha => durationTicks_nonneg ha) (fun _ _ => min_choice _ _)
    (fun _ _ _ _ hle => min_le_min_right _ (Nat.ceil_mono hle)) fun a ha => ?_
  rw [toMtimeDelta_eq ha]
  rfl

/-- Durations in milliseconds; the guard of the product takes some that would fit. -/
theorem neverEarly_ms (hnow : now ≤ uint64Max) :
    NeverEarly now (0 ≤ ·) (fun ms : Int => (ms * mtimeFreq / 1000 : ℚ))
      (mtimeDeadlineFromMs now) := by
  refine .of_ceil hnow (fun ms => if (uint64Max - 999) / mtimeFreq < ms.toNat then uint64Max
    else (ms.toNat * mtimeFreq + 999) / 1000) (fun ms hms => ?_) (fun ms hms => ?_)
    (fun a b ha hb hle => ?_) fun ms hms => ?_
  · have hcast : (0 : ℚ) ≤ ms := Int.cast_nonneg hms
    positivity
  · lift ms to Nat using hms
    split_ifs
    · exact .inr rfl
    · rw [div_up_eq_ceil _ (n := 1000) (by decide), Int.toNat_natCast, Int.cast_natCast,
        Nat.cast_mul, Nat.cast_ofNat]
      exact .inl rfl
  · have hpos : (0 : ℚ) < mtimeFreq := by simp [mtimeFreq]
    have hmul : (a * mtimeFreq : ℚ) ≤ b * mtimeFreq := by linarith
    have hab : a ≤ b := by exact_mod_cast le_of_mul_le_mul_right hmul hpos
    rw [mtimeFreq_eq, uint64Max_eq]
    split_ifs <;> omega
  · rw [mtimeDeadlineFromMs, if_neg (not_lt.mpr hms)]
    split_ifs with hzero hlong
    · rw [hzero] at hlong
      exact absurd hlong (Nat.not_lt_zero _)
    · simp [hzero, mtimeDeadlineAfter]
    · rfl
    · rfl

/-- A time that is converted to a `struct timespec` and back is the same. -/
theorem timespec_roundTrip (hticks : ticks ≤ uint64Max) :
    timespecToMtimeDelta (mtimeToTimespec ticks) = .ok ticks := by
  rw [timespecToMtimeDelta, mtimeToTimespec, toMtimeDelta_natCast]
  · congr 1
    simp only [mtimeFreq, nsecPerSec] at hticks ⊢
    omega
  · simp only [mtimeFreq, nsecPerSec]
    omega

/-- A time that is converted to a `struct timeval` and back does not get smaller. -/
theorem timeval_roundTrip (hticks : ticks ≤ uint64Max) :
    ∃ ticks', timevalToMtimeDelta (mtimeToTimeval ticks) = .ok ticks' ∧ ticks ≤ ticks' := by
  simp only [timevalToMtimeDelta, mtimeToTimeval, apply_ite Timeval.tvSec, apply_ite Timeval.tvUsec]
  split_ifs with hcarry
  · refine ⟨_, toMtimeDelta_natCast ?_, ?_⟩ <;> simp only [mtimeFreq, usecPerSec] at * <;> omega
  · refine ⟨_, toMtimeDelta_natCast ?_, ?_⟩ <;> simp only [mtimeFreq, usecPerSec] at * <;> omega

/-! ## Timeouts -/

/-- Deadlines are rounded up and saturate, whatever the duration is given in, and times survive
the way to a `struct timespec` or a `struct timeval` and back. -/
theorem timeouts_never_early (hnow : now ≤ uint64Max) :
    NeverEarly now (fun ts => FractionValid nsecPerSec ts.tvSec ts.tvNsec)
        (fun ts => durationTicks nsecPerSec ts.tvSec ts.tvNsec)
        (fun ts => mtimeDeadlineFromTimespec now (some ts)) ∧
      NeverEarly now (fun tv => FractionValid usecPerSec tv.tvSec tv.tvUsec)
        (fun tv => durationTicks usecPerSec tv.tvSec tv.tvUsec)
        (fun tv => (timevalToMtimeDelta tv).map fun delta => some (mtimeDeadlineAfter now delta)) ∧
      NeverEarly now (0 ≤ ·) (fun ms : Int => (ms * mtimeFreq / 1000 : ℚ))
        (mtimeDeadlineFromMs now) ∧
      ∀ ticks ≤ uint64Max, timespecToMtimeDelta (mtimeToTimespec ticks) = .ok ticks ∧
        ∃ ticks', timevalToMtimeDelta (mtimeToTimeval ticks) = .ok ticks' ∧ ticks ≤ ticks' :=
  ⟨neverEarly_fractions hnow _ Timespec.tvSec Timespec.tvNsec,
    neverEarly_fractions hnow _ Timeval.tvSec Timeval.tvUsec, neverEarly_ms hnow,
    fun _ hticks => ⟨timespec_roundTrip hticks, timeval_roundTrip hticks⟩⟩

theorem timeouts_never_early_second :
    ∃ t : Nat, mtimeDeadlineFromTimespec 5 (some ⟨1, 0⟩) = .ok (some t) ∧
      min (5 + durationTicks nsecPerSec 1 0) uint64Max ≤ t ∧
      (t = uint64Max ∨ t < 5 + durationTicks nsecPerSec 1 0 + 1) :=
  (timeouts_never_early (by decide)).1.rounds ⟨1, 0⟩ ⟨by decide, by decide, by decide⟩

/-- A duration that 64 bits do not hold ends at `UINT64_MAX`, before its time. -/
theorem saturated_timeout_early : FractionValid nsecPerSec (2 ^ 62) 0 ∧
      mtimeDeadlineFromTimespec 0 (some ⟨2 ^ 62, 0⟩) = .ok (some uint64Max) ∧
      (uint64Max : ℚ) < (0 : Nat) + durationTicks nsecPerSec (2 ^ 62) 0 := by
  refine ⟨⟨by decide, by decide, by decide⟩, rfl, ?_⟩
  simp only [uint64Max, durationTicks, nsecPerSec, mtimeFreq]
  norm_num

end CuteOS.Kernel
