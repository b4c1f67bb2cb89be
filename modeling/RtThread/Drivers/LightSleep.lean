import Mathlib.Algebra.Order.Ring.Abs
import RtThread.Drivers.Tickless

/-!
# The ticks of a light sleep

What `pm_enter_sleep` asks `tryLightSleep` for, and what `_pm_change_sleep_mode` then adds to the
tick, at any rate that divides a second into whole milliseconds.
-/

namespace RtThread.LightSleep

open Timer (halfRange)

/-- `RT_TICK_PER_SECOND` -/
structure Config where
  tickPerSecond : Nat
  dvd : tickPerSecond ∣ 1000

def Config.millisecondPerTick (cfg : Config) : Nat := 1000 / cfg.tickPerSecond

variable (cfg : Config)

/-- `reload_time` in `pm_enter_sleep`, once `pm_timer_start` has stored `timeout`. -/
def reloadTime (timeout : BitVec 32) : BitVec 32 :=
  (timeout - 1) * .ofNat 32 (1000 / cfg.tickPerSecond)

/-- `rt_tick_from_millisecond`, whose argument is a `rt_int32_t`. -/
def rtTickFromMillisecond (ms : BitVec 32) : BitVec 32 :=
  if ms.toInt < 0 then 0xffffffff
  else .ofNat 32 (cfg.tickPerSecond * (ms.toNat / 1000) +
    (cfg.tickPerSecond * (ms.toNat % 1000) + 999) / 1000)

def pmTimerGetTick (timeout : BitVec 32) : BitVec 32 := rtTickFromMillisecond cfg timeout + 8

/-- "wake up from lower power state": the tick behind a sleep, in which it stood still. -/
def wokenTick (tick timeout : BitVec 32) : BitVec 32 :=
  if pmTimerGetTick cfg timeout ≠ 0 then tick + pmTimerGetTick cfg timeout else tick

/-- What a sleep of `slept` milliseconds should do that `pm_timer_start` is told to keep shorter
than `timeout`. -/
structure Accounted (tick timeout : BitVec 32) (slept : Nat) : Prop where
  unwrapped : (reloadTime cfg timeout).toNat = (timeout.toNat - 1) * cfg.millisecondPerTick
  short : (reloadTime cfg timeout).toNat ≤ timeout.toNat * cfg.millisecondPerTick
  near : |((wokenTick cfg tick timeout - tick).toNat * cfg.millisecondPerTick : Int) - slept| ≤
    cfg.millisecondPerTick
  /-- A timer that far ahead does not expire in `rt_timer_check`. -/
  notDue : timeout < halfRange → ¬ wokenTick cfg tick timeout - (tick + timeout) < halfRange

/-- The ticks that are added: a tick for so many milliseconds as the timeout has ticks, and
eight ticks. -/
def added (timeout : BitVec 32) : Nat :=
  if timeout.toNat < 2 ^ 31 then
    (timeout.toNat + (cfg.millisecondPerTick - 1)) / cfg.millisecondPerTick + 8
  else 7

variable {cfg} {tick timeout : BitVec 32} {slept : Nat}

theorem Config.mul_millisecond (cfg : Config) :
    cfg.tickPerSecond * cfg.millisecondPerTick = 1000 := Nat.mul_div_cancel' cfg.dvd

theorem Config.pos (cfg : Config) : 0 < cfg.tickPerSecond ∧ 0 < cfg.millisecondPerTick := by
  have whole := cfg.mul_millisecond
  constructor <;> refine Nat.pos_of_ne_zero fun zero => ?_ <;> simp [zero] at whole

theorem tick_from_millisecond (cfg : Config) (n : Nat) :
    cfg.tickPerSecond * (n / 1000) + (cfg.tickPerSecond * (n % 1000) + 999) / 1000 =
      (n + (cfg.millisecondPerTick - 1)) / cfg.millisecondPerTick := by
  have whole := cfg.mul_millisecond
  obtain ⟨perSecond, perTick⟩ := cfg.pos
  generalize cfg.tickPerSecond = t at *
  generalize cfg.millisecondPerTick = d at *
  have rest : (t * (n % 1000) + 999) / 1000 = (n % 1000 + (d - 1)) / d := by
    have bound : t * (n % 1000) + 999 = t * (n % 1000 + (d - 1)) + (t - 1) := by
      rw [Nat.mul_add, Nat.mul_sub_one, whole]
      have : t ≤ 1000 := whole ▸ Nat.le_mul_of_pos_right t perTick
      omega
    rw [bound, ← whole, ← Nat.div_div_eq_div_mul, Nat.mul_add_div perSecond,
      Nat.div_eq_of_lt (Nat.sub_one_lt perSecond.ne'), Nat.add_zero]
  have split : n + (d - 1) = d * (t * (n / 1000)) + (n % 1000 + (d - 1)) := by
    rw [← Nat.mul_assoc, Nat.mul_comm d, whole, ← Nat.add_assoc, Nat.div_add_mod]
  rw [rest, split, Nat.mul_add_div perTick]

theorem added_bounds (cfg : Config) (timeout : BitVec 32) :
    7 ≤ added cfg timeout ∧ added cfg timeout < 2 ^ 32 := by
  have pos := cfg.pos.2
  unfold added
  split
  · have le : (timeout.toNat + (cfg.millisecondPerTick - 1)) / cfg.millisecondPerTick ≤
        timeout.toNat := by
      refine Nat.lt_succ_iff.mp (Nat.div_lt_of_lt_mul ?_)
      have := Nat.le_mul_of_pos_left timeout.toNat pos
      rw [Nat.mul_succ]
      omega
    exact ⟨Nat.le_add_left_of_le (by decide), by omega⟩
  · omega

theorem toNat_pmTimerGetTick : (pmTimerGetTick cfg timeout).toNat = added cfg timeout := by
  have bounds := added_bounds cfg timeout
  have sign : timeout.toInt < 0 ↔ ¬ timeout.toNat < 2 ^ 31 := by
    rw [BitVec.toInt_neg_iff]
    omega
  unfold pmTimerGetTick rtTickFromMillisecond
  rw [tick_from_millisecond]
  unfold added at bounds ⊢
  split
  · rename_i negative
    rw [if_neg (sign.mp negative)]
    rfl
  · rename_i nonneg
    rw [if_pos (not_not.mp (mt sign.mpr nonneg))] at bounds ⊢
    rw [BitVec.toNat_add, BitVec.toNat_ofNat, show (8 : BitVec 32).toNat = 8 from rfl]
    omega

theorem toNat_advance (cfg : Config) (tick timeout : BitVec 32) :
    (wokenTick cfg tick timeout - tick).toNat = added cfg timeout := by
  have advance : wokenTick cfg tick timeout - tick = pmTimerGetTick cfg timeout := by
    unfold wokenTick
    split
    · bv_omega
    · rename_i zero
      rw [not_not.mp zero]
      bv_omega
  rw [advance, toNat_pmTimerGetTick]

theorem toNat_reloadTime (cfg : Config) (atLeast : 2 ≤ timeout.toNat) :
    (reloadTime cfg timeout).toNat = (timeout.toNat - 1) * cfg.millisecondPerTick % 2 ^ 32 := by
  have less : (timeout - 1).toNat = timeout.toNat - 1 := by bv_omega
  rw [reloadTime, BitVec.toNat_mul, BitVec.toNat_ofNat, less, Nat.mul_mod_mod]
  rfl

theorem toNat_overdue (cfg : Config) (tick timeout : BitVec 32) :
    (wokenTick cfg tick timeout - (tick + timeout)).toNat =
      (2 ^ 32 - timeout.toNat + added cfg timeout) % 2 ^ 32 := by
  rw [← toNat_advance cfg tick]
  bv_omega

/-- A sleep is accounted for exactly if what it asks for does not wrap, and it has taken as long
as eight ticks and one for every millisecond that it had ticks. -/
theorem accounted_iff (atLeast : 2 ≤ timeout.toNat)
    (slept_le : slept ≤ (reloadTime cfg timeout).toNat) : Accounted cfg tick timeout slept ↔
      (timeout.toNat - 1) * cfg.millisecondPerTick < 2 ^ 32 ∧
      (added cfg timeout - 1) * cfg.millisecondPerTick ≤ slept ∧
      slept ≤ (added cfg timeout + 1) * cfg.millisecondPerTick ∧
      (timeout < halfRange → added cfg timeout ≠ timeout.toNat) := by
  have pos := cfg.pos.2
  obtain ⟨added_ge, added_lt⟩ := added_bounds cfg timeout
  have near :
      |((wokenTick cfg tick timeout - tick).toNat * cfg.millisecondPerTick : Int) - slept| ≤
        cfg.millisecondPerTick ↔ (added cfg timeout - 1) * cfg.millisecondPerTick ≤ slept ∧
          slept ≤ (added cfg timeout + 1) * cfg.millisecondPerTick := by
    rw [toNat_advance, abs_le, Nat.sub_one_mul, Nat.add_one_mul, ← Int.natCast_mul]
    have : cfg.millisecondPerTick ≤ added cfg timeout * cfg.millisecondPerTick :=
      Nat.le_mul_of_pos_left _ (by omega)
    omega
  have wrapped := toNat_reloadTime cfg atLeast
  have overdue := toNat_overdue cfg tick timeout
  have small := timeout.isLt
  constructor
  · rintro ⟨unwrapped, short, isNear, notDue⟩
    obtain ⟨low, high⟩ := near.mp isNear
    refine ⟨?_, low, high, fun ahead same => notDue ahead ?_⟩
    · rw [← unwrapped, wrapped]
      exact Nat.mod_lt _ (by decide)
    · show (_ : Nat) < 2147483647
      rw [overdue, same]
      omega
  · rintro ⟨fits, low, high, other⟩
    have unwrapped := wrapped.trans (Nat.mod_eq_of_lt fits)
    refine ⟨unwrapped, ?_, near.mpr ⟨low, high⟩, fun ahead due => ?_⟩
    · exact unwrapped ▸ Nat.mul_le_mul_right _ (Nat.sub_le ..)
    · have soon : timeout.toNat < 2147483647 := ahead
      have isDue : (wokenTick cfg tick timeout - (tick + timeout)).toNat < 2147483647 := due
      have := Nat.le_of_mul_le_mul_right (low.trans (slept_le.trans_eq unwrapped)) pos
      have := other ahead
      omega

theorem forty_ticks_accounted : Accounted ⟨100, by decide⟩ 7 40 120 :=
  (accounted_iff (by decide) (by decide)).mpr (by decide)

/-- An interrupt ends the sleep at once, and twelve ticks are added all the same. -/
theorem early_wake_not_accounted : ¬ ∀ cfg tick timeout slept, 2 ≤ timeout.toNat →
    slept ≤ (reloadTime cfg timeout).toNat → Accounted cfg tick timeout slept := by
  intro claim
  have near := (claim ⟨100, by decide⟩ 7 40 0 (by decide) (Nat.zero_le _)).near
  exact absurd near (by decide +kernel)

end RtThread.LightSleep
