import Mathlib.Algebra.Order.Ring.Abs
import Mathlib.Tactic.Linarith
import Mathlib.Tactic.LinearCombination
import Mathlib.Tactic.Ring
import RtThread.Library.TransitionSystem

/-!
# The POSIX clock

`CLOCK_REALTIME` in ticks and in nanoseconds; seconds are counted without a bound.
-/

open TransitionSystem

namespace RtThread.ClockTime

/-- `RT_TICK_PER_SECOND`, which divides a second into whole microseconds. -/
structure Config where
  tickPerSecond : Nat
  dvd : tickPerSecond ∣ 1000000

def Config.microsecondPerTick (cfg : Config) : Nat := 1000000 / cfg.tickPerSecond

def Config.nanosecondPerTick (cfg : Config) : Nat := cfg.microsecondPerTick * 1000

structure Timespec where
  sec : Int
  nsec : Int

def Timespec.Valid (t : Timespec) : Prop := 0 ≤ t.nsec ∧ t.nsec < 1000000000

instance (t : Timespec) : Decidable t.Valid := instDecidableAnd

def Timespec.value (t : Timespec) : Int := t.sec * 1000000000 + t.nsec

/-- `_timevalue`, the real-time clock if there is one, and all ticks so far. `settings` and
`origin` tell what the clock was set to last, and the tick at which that or the initialization
was. -/
structure Clock where
  tvSec : Int
  tvUsec : Int
  rtc : Option Int
  ticks : Nat
  setting : Option Timespec
  origin : Nat

def toInt (word : Int) : Int := word.bmod (2 ^ 32)

def Clock.rtTickGet (s : Clock) : Nat := s.ticks % 2 ^ 32

variable (cfg : Config)

def clockTimeSystemInit (rtc : Option Int) (ticks : Nat) : Clock :=
  let tick := ticks % 2 ^ 32
  { tvSec := rtc.getD 0 - (tick / cfg.tickPerSecond : Nat) - 1
    tvUsec := (tick % cfg.tickPerSecond * cfg.microsecondPerTick : Nat)
    rtc := rtc, ticks := ticks, setting := none, origin := ticks }

/-- The product of the ticks and of microseconds is an unsigned one. -/
def clockGettime (s : Clock) : Timespec :=
  let tick := toInt s.rtTickGet
  ⟨s.tvSec + tick.tdiv cfg.tickPerSecond,
    toInt ((s.tvUsec + tick.tmod cfg.tickPerSecond * cfg.microsecondPerTick) * 1000)⟩

def clockSettime (s : Clock) (tp : Timespec) : Clock × Int :=
  let tick := s.rtTickGet
  ({ s with
      tvUsec := 1000000 - (tick % cfg.tickPerSecond * cfg.microsecondPerTick : Nat)
      tvSec := tp.sec - (tick / cfg.tickPerSecond : Nat) - 1
      rtc := s.rtc.map fun _ => tp.sec
      setting := some tp
      origin := s.ticks }, if s.rtc.isSome then 0 else -1)

/-- The sum of the seconds and of the nanoseconds in ticks is unsigned until it is stored. -/
def clockTimeToTick (s : Clock) (time : Timespec) : Int :=
  let tp := clockGettime cfg s
  let (nsecond, second) :=
    if time.nsec - tp.nsec < 0 then
      (1000000000 - (tp.nsec - time.nsec), time.sec - tp.sec - 1)
    else (time.nsec - tp.nsec, time.sec - tp.sec)
  let tick := toInt (second * cfg.tickPerSecond +
    nsecond * cfg.tickPerSecond % 2 ^ 32 / 1000000000)
  if tick < 0 then 0 else tick

inductive Event where
  | tick
  | settime (tp : Timespec)

def Clock.tick (s : Clock) (n : Nat) : Clock := { s with ticks := s.ticks + n }

inductive Step : Clock → Event → Clock → Prop
  | tick (s : Clock) : Step s .tick (s.tick 1)
  | settime (s : Clock) {tp : Timespec} : tp.Valid → Step s (.settime tp) (clockSettime cfg s tp).1

def system : TransitionSystem Clock Event where
  initial s := ∃ rtc ticks, s = clockTimeSystemInit cfg rtc ticks
  step := Step cfg

/-- The clock tells a whole time, which is within a tick of the time set and the ticks since. -/
structure Right (s : Clock) : Prop where
  nonneg : 0 ≤ (clockGettime cfg s).nsec
  small : (clockGettime cfg s).nsec < 1000000000
  follows : ∀ tp ∈ s.setting,
    |(clockGettime cfg s).value -
      (tp.value + (s.ticks - s.origin : Nat) * cfg.nanosecondPerTick)| ≤ cfg.nanosecondPerTick

/-- What remains until `time`, in nanoseconds. -/
def remaining (s : Clock) (time : Timespec) : Int := time.value - (clockGettime cfg s).value

/-- The remaining time has a number of ticks, and one of the whole seconds in it, in an `int`. -/
def FitsInt (s : Clock) (time : Timespec) : Prop :=
  -2 ^ 31 ≤ remaining cfg s time / 1000000000 * cfg.tickPerSecond ∧
    remaining cfg s time * cfg.tickPerSecond / 1000000000 < 2 ^ 31

instance (s : Clock) (time : Timespec) : Decidable (FitsInt cfg s time) := instDecidableAnd

/-- The claim about one state, the ticks that follow it, and one time. -/
def Meets (s : Clock) (n : Nat) (time : Timespec) : Prop :=
  Right cfg s ∧ (clockGettime cfg s).value ≤ (clockGettime cfg (s.tick n)).value ∧
    clockTimeToTick cfg s time = max 0 (remaining cfg s time * cfg.tickPerSecond / 1000000000)

/-- Where in a second the clock is told, against where it was set or initialized. -/
def Timely (s : Clock) : Prop :=
  match s.setting with
  | none =>
    0 ≤ ((s.origin % 2 ^ 32 % cfg.tickPerSecond : Nat) : Int) +
        (toInt s.rtTickGet).tmod cfg.tickPerSecond ∧
      ((s.origin % 2 ^ 32 % cfg.tickPerSecond : Nat) : Int) +
        (toInt s.rtTickGet).tmod cfg.tickPerSecond < cfg.tickPerSecond
  | some tp => s.ticks / 2 ^ 32 = s.origin / 2 ^ 32 ∧ s.rtTickGet < 2 ^ 31 ∧
      tp.nsec ≤ cfg.nanosecondPerTick ∧
      s.rtTickGet % cfg.tickPerSecond < s.origin % 2 ^ 32 % cfg.tickPerSecond

/-- `_timevalue` is what the initialization or the last setting left. -/
structure Sound (s : Clock) : Prop where
  origin_le : s.origin ≤ s.ticks
  usec : s.tvUsec = match s.setting with
    | none => ((s.origin % 2 ^ 32 % cfg.tickPerSecond * cfg.microsecondPerTick : Nat) : Int)
    | some _ => 1000000 - (s.origin % 2 ^ 32 % cfg.tickPerSecond * cfg.microsecondPerTick : Nat)
  set : ∀ tp ∈ s.setting, tp.Valid ∧
    s.tvSec = tp.sec - (s.origin % 2 ^ 32 / cfg.tickPerSecond : Nat) - 1

variable {cfg} {s : Clock}

theorem sound (reachable : (system cfg).Reachable s) : Sound cfg s := by
  refine reachable.invariant ?_ fun s e after sound ran => ?_
  · rintro _ ⟨rtc, ticks, rfl⟩
    exact ⟨Nat.le_refl _, rfl, by simp [clockTimeSystemInit]⟩
  · cases ran with
    | tick => exact ⟨Nat.le_succ_of_le sound.origin_le, sound.usec, sound.set⟩
    | settime valid =>
      refine ⟨Nat.le_refl _, rfl, ?_⟩
      rintro _ ⟨⟩
      exact ⟨valid, rfl⟩

theorem Config.pos (cfg : Config) : 0 < cfg.tickPerSecond :=
  Nat.pos_of_dvd_of_pos cfg.dvd (by decide)

theorem Config.mul_microsecond (cfg : Config) :
    (cfg.tickPerSecond : Int) * cfg.microsecondPerTick = 1000000 :=
  mod_cast Nat.mul_div_cancel' cfg.dvd

theorem Config.microsecond_pos (cfg : Config) : 0 < cfg.microsecondPerTick :=
  Nat.div_pos (Nat.le_of_dvd (by decide) cfg.dvd) cfg.pos

theorem Config.mul_nanosecond (cfg : Config) :
    (cfg.tickPerSecond : Int) * cfg.nanosecondPerTick = 1000000000 := by
  have := cfg.mul_microsecond
  push_cast [Config.nanosecondPerTick]
  linarith

theorem Config.nanosecond_pos (cfg : Config) : 0 < (cfg.nanosecondPerTick : Int) :=
  mod_cast Nat.mul_pos cfg.microsecond_pos (by decide)

theorem toInt_eq {a : Int} (low : -2 ^ 31 ≤ a) (high : a < 2 ^ 31) : toInt a = a :=
  Int.bmod_eq_of_le (by omega) (by omega)

theorem Sound.usec_bounds (sound : Sound cfg s) : 0 ≤ s.tvUsec ∧ s.tvUsec ≤ 1000000 := by
  have phase : s.origin % 2 ^ 32 % cfg.tickPerSecond * cfg.microsecondPerTick ≤ 1000000 :=
    (Nat.mul_le_mul_right _ (Nat.mod_lt _ cfg.pos).le).trans_eq (Nat.mul_div_cancel' cfg.dvd)
  rw [sound.usec]
  split <;> omega

theorem phase_bounds (cfg : Config) (tick : Int) :
    -1000000 < tick.tmod cfg.tickPerSecond * cfg.microsecondPerTick ∧
      tick.tmod cfg.tickPerSecond * cfg.microsecondPerTick < 1000000 := by
  have pos : (0 : Int) < cfg.microsecondPerTick := mod_cast cfg.microsecond_pos
  have upper := Int.tmod_lt_of_pos tick (show (0 : Int) < cfg.tickPerSecond from mod_cast cfg.pos)
  have lower := Int.lt_tmod_of_pos tick (show (0 : Int) < cfg.tickPerSecond from mod_cast cfg.pos)
  rw [← cfg.mul_microsecond, ← neg_mul]
  exact ⟨Int.mul_lt_mul_of_pos_right lower pos, Int.mul_lt_mul_of_pos_right upper pos⟩

section

variable (sound : Sound cfg s)

include sound

theorem Sound.nsec_eq : (clockGettime cfg s).nsec =
    s.tvUsec * 1000 + (toInt s.rtTickGet).tmod cfg.tickPerSecond * cfg.nanosecondPerTick := by
  obtain ⟨low, high⟩ := sound.usec_bounds
  obtain ⟨above, below⟩ := phase_bounds cfg (toInt s.rtTickGet)
  unfold clockGettime
  generalize toInt s.rtTickGet = tick at *
  dsimp only
  rw [toInt_eq (by omega) (by omega), Config.nanosecondPerTick]
  push_cast
  ring

theorem Sound.value_eq : (clockGettime cfg s).value =
    s.tvSec * 1000000000 + s.tvUsec * 1000 + toInt s.rtTickGet * cfg.nanosecondPerTick := by
  have whole := Int.mul_tdiv_add_tmod (toInt s.rtTickGet) cfg.tickPerSecond
  rw [Timespec.value, sound.nsec_eq, ← cfg.mul_nanosecond, clockGettime]
  linear_combination (cfg.nanosecondPerTick : Int) * whole

theorem Sound.later (n : Nat) : Sound cfg (s.tick n) :=
  ⟨sound.origin_le.trans (Nat.le_add_right ..), sound.usec, sound.set⟩

theorem Sound.le_later_iff (n : Nat) :
    (clockGettime cfg s).value ≤ (clockGettime cfg (s.tick n)).value ↔
      toInt s.rtTickGet ≤ toInt (s.tick n).rtTickGet := by
  rw [sound.value_eq, (sound.later n).value_eq]
  exact (Int.add_le_add_iff_left _).trans (Int.mul_le_mul_right cfg.nanosecond_pos)

end

theorem nsec_bounds_iff (cfg : Config) (phase : Int) :
    (0 ≤ phase * cfg.nanosecondPerTick ∧ phase * cfg.nanosecondPerTick < 1000000000) ↔
      0 ≤ phase ∧ phase < cfg.tickPerSecond := by
  rw [← cfg.mul_nanosecond, Int.mul_lt_mul_right cfg.nanosecond_pos]
  exact and_congr_left fun _ => mul_nonneg_iff_of_pos_right cfg.nanosecond_pos

theorem toInt_rtTickGet (s : Clock) :
    toInt s.rtTickGet = s.rtTickGet - (if s.rtTickGet < 2 ^ 31 then 0 else 2 ^ 32) := by
  have word : s.rtTickGet < 2 ^ 32 := Nat.mod_lt _ (by decide)
  unfold toInt Int.bmod
  dsimp only
  split <;> split <;> omega

theorem Sound.value_of_set (sound : Sound cfg s) {tp : Timespec} (isSet : s.setting = some tp) :
    (clockGettime cfg s).value = tp.sec * 1000000000 +
      (toInt s.rtTickGet - (s.origin % 2 ^ 32 : Nat)) * cfg.nanosecondPerTick := by
  have usec := sound.usec
  rw [sound.value_eq, (sound.set tp isSet).2, usec, isSet]
  generalize s.origin % 2 ^ 32 = k
  have whole := congrArg (Nat.cast (R := Int)) (Nat.div_add_mod k cfg.tickPerSecond)
  have nano := cfg.mul_nanosecond
  simp only [Config.nanosecondPerTick] at nano ⊢
  push_cast at whole nano ⊢
  linear_combination (-(cfg.microsecondPerTick : Int) * 1000) * whole +
    (k : Int) / cfg.tickPerSecond * nano

theorem Sound.follows_iff (sound : Sound cfg s) {tp : Timespec} (isSet : s.setting = some tp) :
    |(clockGettime cfg s).value -
        (tp.value + (s.ticks - s.origin : Nat) * cfg.nanosecondPerTick)| ≤
        cfg.nanosecondPerTick ↔
      s.ticks / 2 ^ 32 = s.origin / 2 ^ 32 ∧ s.rtTickGet < 2 ^ 31 ∧
        tp.nsec ≤ cfg.nanosecondPerTick := by
  have pos := cfg.nanosecond_pos
  have le := sound.origin_le
  have nonneg := (sound.set tp isSet).1.1
  have lost : toInt s.rtTickGet - (s.origin % 2 ^ 32 : Nat) - (s.ticks - s.origin : Nat) =
      -(2 ^ 32 * (s.ticks / 2 ^ 32 - s.origin / 2 ^ 32 + (if s.rtTickGet < 2 ^ 31 then 0 else 1) :
        Nat) : Int) := by
    rw [toInt_rtTickGet, Clock.rtTickGet]
    split <;> omega
  generalize rounds_eq : s.ticks / 2 ^ 32 - s.origin / 2 ^ 32 +
    (if s.rtTickGet < 2 ^ 31 then 0 else 1) = rounds at lost
  have off : (clockGettime cfg s).value -
      (tp.value + (s.ticks - s.origin : Nat) * cfg.nanosecondPerTick) =
        -(tp.nsec + 2 ^ 32 * rounds * cfg.nanosecondPerTick) := by
    rw [sound.value_of_set isSet, Timespec.value]
    linear_combination (cfg.nanosecondPerTick : Int) * lost
  have none_lost : rounds = 0 ↔ s.ticks / 2 ^ 32 = s.origin / 2 ^ 32 ∧ s.rtTickGet < 2 ^ 31 := by
    rw [← rounds_eq]
    split <;> omega
  rw [off, abs_neg, abs_of_nonneg (add_nonneg nonneg (Int.mul_nonneg (by omega) pos.le)),
    ← and_assoc, ← none_lost]
  constructor
  · intro within
    have zero : rounds = 0 := by
      by_contra lostSome
      have : 1 * (cfg.nanosecondPerTick : Int) ≤ rounds * cfg.nanosecondPerTick :=
        Int.mul_le_mul_of_nonneg_right (by omega) pos.le
      linarith
    subst zero
    exact ⟨rfl, by simpa using within⟩
  · rintro ⟨rfl, small⟩
    simpa using small

theorem right_iff (sound : Sound cfg s) : Right cfg s ↔ Timely cfg s := by
  have parts : Right cfg s ↔
      (0 ≤ (clockGettime cfg s).nsec ∧ (clockGettime cfg s).nsec < 1000000000) ∧
        ∀ tp ∈ s.setting, _ :=
    ⟨fun right => ⟨⟨right.nonneg, right.small⟩, right.follows⟩,
      fun ⟨⟨nonneg, small⟩, follows⟩ => ⟨nonneg, small, follows⟩⟩
  have usec := sound.usec
  have micro := cfg.mul_microsecond
  rw [parts, sound.nsec_eq, usec, Timely]
  cases isSet : s.setting with
  | none =>
    rw [← nsec_bounds_iff, Int.add_mul]
    simp only [Nat.cast_mul, Int.mul_assoc]
    exact and_iff_left (by simp)
  | some tp =>
    have phase : (1000000 - ((s.origin % 2 ^ 32 % cfg.tickPerSecond * cfg.microsecondPerTick :
          Nat) : Int)) * 1000 + (toInt s.rtTickGet).tmod cfg.tickPerSecond * cfg.nanosecondPerTick =
        (cfg.tickPerSecond - (s.origin % 2 ^ 32 % cfg.tickPerSecond : Nat) +
          (toInt s.rtTickGet).tmod cfg.tickPerSecond) * cfg.nanosecondPerTick := by
      simp only [Config.nanosecondPerTick, Nat.cast_mul]
      linear_combination -1000 * micro
    simp only [Option.mem_def, Option.some.injEq, forall_eq', sound.follows_iff isSet, phase,
      nsec_bounds_iff]
    have inside := Nat.mod_lt (s.origin % 2 ^ 32) cfg.pos
    rw [and_comm]
    simp only [and_assoc, and_congr_right_iff]
    intro _ early _
    rw [toInt_rtTickGet, if_pos early, Int.sub_zero, ← Int.ofNat_tmod]
    omega

theorem Right.clockTimeToTick_eq (right : Right cfg s) {time : Timespec} (valid : time.Valid) :
    clockTimeToTick cfg s time = max 0 (toInt
      (remaining cfg s time / 1000000000 * cfg.tickPerSecond +
        remaining cfg s time % 1000000000 * cfg.tickPerSecond % 2 ^ 32 / 1000000000)) := by
  obtain ⟨low, high⟩ := valid
  have nonneg := right.nonneg
  have small := right.small
  have quotient : remaining cfg s time / 1000000000 =
      if time.nsec - (clockGettime cfg s).nsec < 0 then time.sec - (clockGettime cfg s).sec - 1
      else time.sec - (clockGettime cfg s).sec := by
    unfold remaining Timespec.value
    split <;> omega
  have rest : remaining cfg s time % 1000000000 =
      if time.nsec - (clockGettime cfg s).nsec < 0 then
        1000000000 - ((clockGettime cfg s).nsec - time.nsec)
      else time.nsec - (clockGettime cfg s).nsec := by
    unfold remaining Timespec.value
    split <;> omega
  unfold clockTimeToTick
  rw [quotient, rest]
  by_cases borrow : time.nsec - (clockGettime cfg s).nsec < 0
  · simp only [borrow, if_true]
    split <;> omega
  · simp only [borrow, if_false]
    split <;> omega

theorem Right.toTick_iff (right : Right cfg s) {time : Timespec} (valid : time.Valid)
    (fits : FitsInt cfg s time) : clockTimeToTick cfg s time =
        max 0 (remaining cfg s time * cfg.tickPerSecond / 1000000000) ↔ remaining cfg s time < 0 ∨
        remaining cfg s time % 1000000000 * cfg.tickPerSecond < 2 ^ 32 := by
  obtain ⟨low, high⟩ := fits
  have pos : (0 : Int) < cfg.tickPerSecond := mod_cast cfg.pos
  rw [right.clockTimeToTick_eq valid]
  generalize remaining cfg s time = rem at *
  have parts : rem * cfg.tickPerSecond = rem % 1000000000 * cfg.tickPerSecond +
      1000000000 * (rem / 1000000000 * cfg.tickPerSecond) := by
    linear_combination -(cfg.tickPerSecond : Int) * Int.emod_add_mul_ediv rem 1000000000
  have rest_nonneg := Int.mul_nonneg (Int.emod_nonneg rem (show 1000000000 ≠ 0 by decide)) pos.le
  have rest_lt := Int.mul_lt_mul_of_pos_right
    (Int.emod_lt_of_pos rem (show 0 < 1000000000 by decide)) pos
  have past : rem < 0 → rem / 1000000000 * cfg.tickPerSecond ≤ -1 * cfg.tickPerSecond :=
    fun negative => Int.mul_le_mul_of_nonneg_right (by omega) pos.le
  have future : 0 ≤ rem → 0 ≤ rem / 1000000000 * cfg.tickPerSecond :=
    fun nonneg => Int.mul_nonneg (by omega) pos.le
  rw [parts] at high ⊢
  generalize rem % 1000000000 * cfg.tickPerSecond = rest at *
  generalize rem / 1000000000 * cfg.tickPerSecond = whole at *
  rw [toInt_eq (by omega) (by omega)]
  omega

/-- The three properties, at any tick of a run, hold exactly under these conditions. -/
theorem clock_meets_iff (reachable : (system cfg).Reachable s) (n : Nat) {time : Timespec}
    (valid : time.Valid) (fits : FitsInt cfg s time) : Meets cfg s n time ↔
      Timely cfg s ∧ toInt s.rtTickGet ≤ toInt (s.tick n).rtTickGet ∧ (remaining cfg s time < 0 ∨
          remaining cfg s time % 1000000000 * cfg.tickPerSecond < 2 ^ 32) := by
  have sound := sound reachable
  rw [Meets, sound.le_later_iff n, ← right_iff sound]
  exact and_congr_right fun right => and_congr_right fun _ => right.toTick_iff valid fits

theorem next_second_meets :
    let cfg : Config := ⟨2, by decide⟩
    Meets cfg ((clockSettime cfg (clockTimeSystemInit cfg none 1) ⟨1000, 0⟩).1.tick 1) 1
      ⟨1001, 500000000⟩ :=
  (@clock_meets_iff ⟨2, by decide⟩ _
    ⟨_, .next (.next (.start ⟨none, 1, rfl⟩) (.settime _ (by decide))) (.tick _)⟩ 1 _
    (by decide) (by decide)).mpr
    ⟨by exact And.intro (by decide) <| And.intro (by decide) <| And.intro (by decide) (by decide),
      by decide, .inr (by decide)⟩

/-- Told in the tick in which it was set, the clock has 1000000000 nanoseconds. -/
theorem just_set_misses : ¬ ∀ cfg s, (system cfg).Reachable s → ∀ n time, time.Valid →
    FitsInt cfg s time → Meets cfg s n time := by
  intro claim
  have run : (system ⟨100, by decide⟩).Run _ _ := .next (.start ⟨none, 0, rfl⟩)
    (.settime _ (show Timespec.Valid ⟨1000, 0⟩ by decide))
  have meets := claim _ _ run.reachable 0 ⟨1000, 0⟩ (by decide) (by decide)
  exact absurd meets.1.small (by decide)

end RtThread.ClockTime
