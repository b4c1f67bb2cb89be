import RtThread.Drivers.PmPass
import RtThread.Timer.Standing

/-!
# Sleeping until the next timer

The wake-up timer that a pass of the power manager programs, and the idle time that
`sys_tickless_hook` passes on, against the first of the hard timers.
-/

namespace RtThread.PmPass

open Timer (Timers Ordered TimerList halfRange)
open Pm (RtPm pmSleepModeNone pmSelectSleepMode)

universe u

def configExpectedIdleTimeBeforeSleep : BitVec 32 := 2

def Call.started : Call → Option (BitVec 32)
  | .timerStart timeout => some timeout
  | _ => none

/-- `sys_tickless_hook`: what is passed to `tickless_handler`.  The idle time is computed a second
time with the scheduler locked; `firstIdleTime` is the first one. -/
def sysTicklessHook (systemIsReady : Bool) (firstIdleTime timeoutTick tick : BitVec 32) :
    Option (BitVec 32) :=
  if systemIsReady ∧ ¬ firstIdleTime < configExpectedIdleTimeBeforeSleep ∧
      ¬ timeoutTick - tick < configExpectedIdleTimeBeforeSleep then some (timeoutTick - tick)
  else none

/-- The ticks until a timeout, by the test of `rt_timer_check`. -/
def ticksLeft (tick timeoutTick : BitVec 32) : Nat :=
  if tick - timeoutTick < halfRange then 0 else (timeoutTick - tick).toNat

variable {Tmr : Type u} (cfg : Timer.Config) (s : Timers Tmr)
  (rows : TimerList × Nat → List Tmr)

def hardRow : List Tmr := rows (.hard, cfg.level - 1)

/-- A sleep ends no later than the earliest of the hard timers is due. -/
def InTime (sleep : BitVec 32) : Prop :=
  ∀ t ∈ hardRow cfg rows, (∀ u ∈ hardRow cfg rows,
    (s.timer u).timeoutTick - (s.timer t).timeoutTick < halfRange) →
      sleep.toNat ≤ ticksLeft s.tick (s.timer t).timeoutTick

def nextTimeout : BitVec 32 := s.rtTimerListNextTimeout cfg .hard

def Overdue : Prop :=
  nextTimeout cfg s ≠ s.tick ∧ s.tick - nextTimeout cfg s < halfRange

/-- There is a timer, and its timeout is `RT_TICK_MAX` or overdue, as the pass enters a mode that
has a wake-up timer. -/
def PmOversleeps (pm : RtPm) (env : Surroundings) : Prop :=
  hardRow cfg rows ≠ [] ∧ pm.initFlag = true ∧ (pmSelectSleepMode pm).2 ≠ pmSleepModeNone ∧
    (∀ device ∈ env.devices, device.suspend ≠ some false) ∧
    HasTimer pm (pmSelectSleepMode pm).2 ∧
    (nextTimeout cfg s = rtTickMax ∧ env.hasTimerStart = true ∨
      nextTimeout cfg s ≠ rtTickMax ∧ Overdue cfg s)

/-- There is a timer, and it is overdue, as the hook gets to its second test. -/
def HookOversleeps (systemIsReady : Bool) (firstIdleTime : BitVec 32) : Prop :=
  hardRow cfg rows ≠ [] ∧ systemIsReady = true ∧
    ¬ firstIdleTime < configExpectedIdleTimeBeforeSleep ∧ Overdue cfg s

def atTimers (env : Surroundings) : Surroundings :=
  { env with timeoutTick := nextTimeout cfg s, tick := s.tick }

variable {cfg s rows} {pm : RtPm} {env : Surroundings} {sleep : BitVec 32}

theorem mem_started_tickless {mode : Nat} :
    sleep ∈ (tickless pm mode env).1.filterMap Call.started ↔ HasTimer pm mode ∧
      (env.timeoutTick = rtTickMax ∧ env.hasTimerStart = true ∧ sleep = rtTickMax ∨
        env.timeoutTick ≠ rtTickMax ∧ ¬ env.timeoutTick - env.tick < rtPmTicklessThresh ∧
          sleep = env.timeoutTick - env.tick) := by
  unfold tickless
  by_cases timer : HasTimer pm mode
  · by_cases never : env.timeoutTick = rtTickMax
    · cases starts : env.hasTimerStart <;> simp [timer, never, Call.started]
    · by_cases short : env.timeoutTick - env.tick < rtPmTicklessThresh
      · simp [timer, never, short]
      · simp [timer, never, short, Call.started]
  · simp [timer]

theorem mem_started_pass : sleep ∈ (rtSystemPowerManager pm env).filterMap Call.started ↔
    pm.initFlag = true ∧ (pmSelectSleepMode pm).2 ≠ pmSleepModeNone ∧
      (∀ device ∈ env.devices, device.suspend ≠ some false) ∧
      sleep ∈ (tickless pm (pmSelectSleepMode pm).2 env).1.filterMap Call.started := by
  rw [rtSystemPowerManager]
  cases initialized : pm.initFlag with
  | false => simp
  | true =>
    by_cases none : (pmSelectSleepMode pm).2 = pmSleepModeNone
    · simp [pmChangeSleepMode, none, Call.started]
    · have started := @filterMap_pass (pmSelectSleepMode pm).1 (pmSelectSleepMode pm).2 env
        none rfl _ Call.started (fun _ => rfl) rfl (fun _ => rfl) rfl
      rw [filterMap_suspend fun _ _ _ => rfl, filterMap_resume fun _ _ => rfl] at started
      simp only [Call.started, Option.toList_none, ite_self, List.append_nil]
        at started
      rw [if_neg (by simp)]
      simp only [started, true_and, ne_eq, none, not_false_eq_true]
      rw [← @pmDeviceSuspend_ok (pmSelectSleepMode pm).2 0]
      split
      · next ok => exact (and_iff_right ok).symm
      · next fails => simp [fails]

theorem eq_of_sub_lt {a b : BitVec 32} (ab : a - b < halfRange) (ba : b - a < halfRange) :
    a = b := by
  unfold halfRange at ab ba
  bv_omega

theorem inTime_iff (ordered : Ordered cfg s rows) (some : hardRow cfg rows ≠ []) :
    InTime cfg s rows sleep ↔ sleep.toNat ≤ ticksLeft s.tick (nextTimeout cfg s) := by
  obtain ⟨a, isRow, isNext, earliest⟩ := ordered.earliest .hard some
  rw [nextTimeout, isNext]
  constructor
  · intro inTime
    exact inTime a isRow earliest
  · intro short t isTimer isEarliest
    have same : (s.timer t).timeoutTick = (s.timer a).timeoutTick :=
      eq_of_sub_lt (earliest t isTimer) (isEarliest a isRow)
    rwa [same]

theorem inTime_of_empty (none : hardRow cfg rows = []) : InTime cfg s rows sleep := by
  intro t isTimer
  rw [none] at isTimer
  exact absurd isTimer List.not_mem_nil

theorem overdue_too_long {tick timeoutTick : BitVec 32} (due : tick - timeoutTick < halfRange) :
    (timeoutTick - tick).toNat ≤ ticksLeft tick timeoutTick ↔ timeoutTick = tick := by
  rw [ticksLeft, if_pos due]
  bv_omega

theorem overdue_not_short {tick timeoutTick : BitVec 32} (due : tick - timeoutTick < halfRange)
    (ne : timeoutTick ≠ tick) : ¬ timeoutTick - tick < 2 := by
  bv_omega

theorem never_too_long (tick : BitVec 32) : ¬ rtTickMax.toNat ≤ ticksLeft tick rtTickMax := by
  unfold ticksLeft halfRange rtTickMax
  split
  · decide
  · next notDue => bv_omega

theorem ticksLeft_of_not_overdue (ends : ¬ Overdue cfg s) :
    (nextTimeout cfg s - s.tick).toNat ≤ ticksLeft s.tick (nextTimeout cfg s) := by
  by_cases due : s.tick - nextTimeout cfg s < halfRange
  · exact (overdue_too_long due).mpr (not_not.mp fun ne => ends ⟨ne, due⟩)
  · rw [ticksLeft, if_neg due]

/-- Neither the wake-up timer of a pass nor the idle time of the hook exceeds the time to the
earliest hard timer, just when none of them meets the bad cases. -/
theorem sleeps_in_time_iff (ordered : Ordered cfg s rows) (pm : RtPm)
    (env : Surroundings) (systemIsReady : Bool) (firstIdleTime : BitVec 32) :
    ((∀ sleep ∈ (rtSystemPowerManager pm (atTimers cfg s env)).filterMap
        Call.started, InTime cfg s rows sleep) ↔ ¬ PmOversleeps cfg s rows pm env) ∧
    ((∀ sleep ∈ sysTicklessHook systemIsReady firstIdleTime (nextTimeout cfg s) s.tick,
        InTime cfg s rows sleep) ↔ ¬ HookOversleeps cfg s rows systemIsReady firstIdleTime) := by
  simp only [mem_started_pass, mem_started_tickless]
  by_cases none : hardRow cfg rows = []
  · exact ⟨iff_of_true (fun _ _ => inTime_of_empty none) fun late => late.1 none,
      iff_of_true (fun _ _ => inTime_of_empty none) fun late => late.1 none⟩
  · simp only [inTime_iff ordered none]
    refine ⟨⟨?_, ?_⟩, ⟨?_, ?_⟩⟩
    · rintro inTime ⟨-, initialized, entered, suspends, timer, ⟨isMax, starts⟩ | ⟨notMax, ne, due⟩⟩
      · have short := inTime rtTickMax
          ⟨initialized, entered, suspends, timer, .inl ⟨isMax, starts, rfl⟩⟩
        rw [isMax] at short
        exact never_too_long _ short
      · exact ne ((overdue_too_long due).mp (inTime _ ⟨initialized, entered, suspends, timer,
          .inr ⟨notMax, overdue_not_short due ne, rfl⟩⟩))
    · rintro notOver sleep ⟨initialized, entered, suspends, timer,
        ⟨isMax, starts, -⟩ | ⟨notMax, long, rfl⟩⟩
      · exact absurd ⟨none, initialized, entered, suspends, timer, .inl ⟨isMax, starts⟩⟩ notOver
      · refine ticksLeft_of_not_overdue fun overdue => notOver
          ⟨none, initialized, entered, suspends, timer, .inr ⟨notMax, overdue⟩⟩
    · rintro inTime ⟨-, ready, a, ne, due⟩
      have long := overdue_not_short due ne
      exact ne ((overdue_too_long due).mp (inTime _ (if_pos ⟨ready, a, long⟩)))
    · intro notOver sleep passed
      rw [sysTicklessHook] at passed
      split at passed
      · rename_i tested
        cases passed
        exact ticksLeft_of_not_overdue fun overdue => notOver
          ⟨none, tested.1, tested.2.1, overdue⟩
      · exact absurd passed (Option.not_mem_none sleep)

def oneRow : Timer.Config := ⟨1, 0, by decide⟩

def noTimer : Timer.State Unit := Timer.fresh (fun _ => 10) (fun _ => 0) 0

theorem noTimer_start : (noTimer.timers.rtTimerStart oneRow ()).isSome := by decide +kernel

def startedTimer : Timers Unit := (noTimer.timers.rtTimerStart oneRow ()).get noTimer_start

def overdueTimer : Timers Unit := { startedTimer with tick := 11 }

theorem overdueTimer_ordered :
    ∃ rows, Ordered oneRow overdueTimer rows ∧ hardRow oneRow rows ≠ [] := by
  have near : (startedTimer.timer ()).timeoutTick - 10 < halfRange := by decide +kernel
  have isActive : startedTimer.active () = true ∧ (startedTimer.timer ()).timerList = .hard := by
    decide +kernel
  have close : ∀ list, startedTimer.Close list := fun _ => ⟨10, fun _ _ _ => near⟩
  have started : noTimer.timers.rtTimerStart oneRow () = some startedTimer :=
    (Option.some_get noTimer_start).symm
  obtain ⟨rows, sorted⟩ := Timer.start_sorted started close
    ⟨_, (Timer.fresh_initial (fun _ => 10) (fun _ => 0) 0).sorted⟩
  obtain ⟨linked, once, active, ordered, sublist, earliest⟩ := sorted.ordered
  exact ⟨rows, ⟨linked, once, active, ordered, sublist, earliest⟩,
    List.ne_nil_of_mem ((active .hard ()).mpr isActive)⟩

def lightPm : RtPm := { idlePm with modes := Function.update (fun _ => 0) 2 1 }

theorem overdue_timer_oversleeps : ¬ ∀ (s : Timers Unit) (rows : TimerList × Nat → List Unit)
    (pm : RtPm) (env : Surroundings), Ordered oneRow s rows →
      ∀ sleep ∈ (rtSystemPowerManager pm (atTimers oneRow s env)).filterMap
        Call.started, InTime oneRow s rows sleep := by
  intro claim
  obtain ⟨rows, ordered, some⟩ := overdueTimer_ordered
  have timeout : nextTimeout oneRow overdueTimer = 10 := by decide +kernel
  have inTime := claim overdueTimer rows lightPm ⟨[], false, true, 0, 0, 0⟩ ordered 0xffffffff
    (by decide +kernel)
  rw [inTime_iff ordered some, timeout] at inTime
  exact absurd inTime (by decide +kernel)

theorem overdueTimer_sleeps_iff : ∃ rows, Ordered oneRow overdueTimer rows ∧
    ((∀ sleep ∈ (rtSystemPowerManager lightPm (atTimers oneRow overdueTimer
        ⟨[], false, true, 0, 0, 0⟩)).filterMap Call.started,
      InTime oneRow overdueTimer rows sleep) ↔
      ¬ PmOversleeps oneRow overdueTimer rows lightPm ⟨[], false, true, 0, 0, 0⟩) := by
  obtain ⟨rows, ordered, _⟩ := overdueTimer_ordered
  exact ⟨rows, ordered, (sleeps_in_time_iff ordered lightPm _ true 0).1⟩

end RtThread.PmPass
