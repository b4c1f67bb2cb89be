import RtThread.Drivers.Pm

/-!
# Entering a sleep mode

A pass of `rt_system_power_manager` with the operations of the MT2625 driver: the interrupt
level that each function saves and restores, the calls of the HAL, and the sleep time that one
pass leaves for the next.  The HAL itself is not part of the sources; its calls are recorded,
and are taken to leave the interrupts as they find them.
-/

open TransitionSystem

namespace RtThread.SleepEntry

open Pm

def rtTickPerSecond : Nat := 100

def rtWaitingForever : Nat := 0xffffffff

inductive HalSleepMode where
  | none
  | idle
  | lightSleep
  | deepSleep
  | deeperSleep
  | other (mode : Nat)
deriving DecidableEq

/-- The calls that a pass makes while it enters a sleep mode and leaves it. -/
inductive Call where
  | enterSleepMode (mode : HalSleepMode)
  | tryDeepSleep
  | tryLightSleep (trySleepMs : Nat)
  | osGpt0Pause
  | osGpt0Resume
  | halWdtDisable
  | halWdtEnable
  | rtTickSet (tick : Nat)
  | rtTimerCheck
deriving DecidableEq

structure Hal where
  effect : Call → Bool → Bool
  restores : ∀ call enabled, effect call enabled = enabled

structure Cpu where
  enabled : Bool
  calls : List Call

/-- What the driver meets in a pass: the sleep locks of the HAL, and what an uninitialized
variable of it holds. -/
structure Surroundings extends Pm.Surroundings where
  lockStatus : Nat
  deepLocked : Bool
  uninitialized : HalSleepMode

/-- `rt_hw_interrupt_enable`; the level of `rt_hw_interrupt_disable` is the state before it. -/
def rtHwInterruptEnable (cpu : Cpu) (level : Bool) : Cpu := { cpu with enabled := level }

def rtHwInterruptDisable (cpu : Cpu) : Cpu := { cpu with enabled := false }

def Cpu.call (hal : Hal) (cpu : Cpu) (call : Call) : Cpu :=
  { enabled := hal.effect call cpu.enabled, calls := cpu.calls ++ [call] }

def pmGetMode (mode : Nat) (uninitialized : HalSleepMode) : HalSleepMode :=
  match mode with
  | 0 => .idle
  | 1 => .idle
  | 2 => .lightSleep
  | 3 => .deepSleep
  | 4 => .deeperSleep
  | _ => uninitialized

/-- The calls in front of a sleep deeper than idle.  `hangCheck` says that
`MTK_SYSTEM_HANG_CHECK_ENABLE` is defined. -/
def pauseClock (hal : Hal) (hangCheck : Bool) (cpu : Cpu) (mode : HalSleepMode) : Cpu :=
  if mode ≠ .idle then
    let cpu := cpu.call hal .osGpt0Pause
    if hangCheck then cpu.call hal .halWdtDisable else cpu
  else cpu

def resumeClock (hal : Hal) (hangCheck : Bool) (cpu : Cpu) (mode : HalSleepMode) : Cpu :=
  if mode ≠ .idle then
    let cpu := cpu.call hal .osGpt0Resume
    if hangCheck then cpu.call hal .halWdtEnable else cpu
  else cpu

def sleepIn (hal : Hal) (globeSleepTime : Nat) (env : Surroundings) (cpu : Cpu)
    (mode : HalSleepMode) : Cpu :=
  if mode = .deepSleep ∨ mode = .deeperSleep then
    if env.deepLocked then cpu else cpu.call hal .tryDeepSleep
  else if mode = .lightSleep then
    cpu.call hal (.tryLightSleep ((globeSleepTime - 1) * (1000 / rtTickPerSecond)))
  else cpu.call hal (.enterSleepMode .idle)

def pmEnterSleep (hal : Hal) (hangCheck : Bool) (globeSleepTime : Nat)
    (env : Surroundings) (cpu : Cpu) (mode : Nat) : Cpu :=
  if env.lockStatus = 1 then cpu.call hal (.enterSleepMode .idle)
  else
    let level := cpu.enabled
    let cpu := rtHwInterruptDisable cpu
    let mode := pmGetMode mode env.uninitialized
    if mode = .none ∨ globeSleepTime < 2 then cpu
    else
      let cpu := pauseClock hal hangCheck cpu mode
      let cpu := sleepIn hal globeSleepTime env cpu mode
      let cpu := resumeClock hal hangCheck cpu mode
      rtHwInterruptEnable cpu level

def rtTickFromMillisecond (ms : Nat) : Nat :=
  if 2 ^ 31 ≤ ms then rtWaitingForever
  else rtTickPerSecond * (ms / 1000) + (rtTickPerSecond * (ms % 1000) + 999) / 1000

def pmTimerGetTick (globeSleepTime : Nat) : Nat :=
  Word32.add (rtTickFromMillisecond globeSleepTime) 8

/-- The power manager, the driver's `globe_sleep_time`, and the processor. -/
structure Sleeper where
  pm : RtPm
  globeSleepTime : Nat
  cpu : Cpu

/-- The tickless part in front of the sleep: the mode, and `globe_sleep_time` as
`pm_timer_start` leaves it. -/
def tickless (sleeper : Sleeper) (mode : Nat) (env : Surroundings) : Nat × Nat :=
  if sleeper.pm.timerMask &&& (0x01 <<< mode) ≠ 0 then
    if env.timeoutTick = rtTickMax then (mode, rtTickMax)
    else
      let timeoutTick := Word32.sub env.timeoutTick env.tick
      if timeoutTick < rtPmTicklessThresh then (pmSleepModeIdle, sleeper.globeSleepTime)
      else (mode, timeoutTick)
  else (mode, sleeper.globeSleepTime)

/-- The part behind the sleep: the tick is set and the timers are checked. -/
def wakeUp (hal : Hal) (timerMask mode globeSleepTime : Nat) (env : Surroundings)
    (cpu : Cpu) : Cpu :=
  if timerMask &&& (0x01 <<< mode) ≠ 0 then
    let deltaTick := pmTimerGetTick globeSleepTime
    if deltaTick ≠ 0 then
      (cpu.call hal (.rtTickSet (Word32.add env.tick deltaTick))).call hal .rtTimerCheck
    else cpu
  else cpu

def pmChangeSleepMode (hal : Hal) (hangCheck : Bool) (sleeper : Sleeper) (mode : Nat)
    (env : Surroundings) : Sleeper :=
  if mode = pmSleepModeNone then
    { sleeper with
      pm := { sleeper.pm with sleepMode := mode }
      cpu := pmEnterSleep hal hangCheck sleeper.globeSleepTime env sleeper.cpu
        pmSleepModeNone }
  else
    -- `rt_pm_enter_critical` and `rt_pm_exit_critical`
    let level := sleeper.cpu.enabled
    let cpu := rtHwInterruptDisable sleeper.cpu
    if env.suspended = false then { sleeper with cpu := rtHwInterruptEnable cpu level }
    else
      let (mode, globeSleepTime) := tickless sleeper mode env
      let cpu := pmEnterSleep hal hangCheck globeSleepTime env cpu mode
      let cpu := wakeUp hal sleeper.pm.timerMask mode globeSleepTime env cpu
      { sleeper with
        globeSleepTime := globeSleepTime
        cpu := rtHwInterruptEnable cpu level }

/-- `rt_system_power_manager`.  `_pm_frequency_scaling` masks the interrupts and restores them. -/
def rtSystemPowerManager (hal : Hal) (hangCheck : Bool) (sleeper : Sleeper)
    (env : Surroundings) : Sleeper :=
  if sleeper.pm.initFlag = false then sleeper
  else
    let (pm, mode) := pmSelectSleepMode sleeper.pm
    pmChangeSleepMode hal hangCheck { sleeper with pm := pm } mode env

inductive Event where
  | request (mode : Nat)
  | release (mode : Nat)
  | defaultSet (sleepMode : Nat)
  | setInterrupts (enabled : Bool)
  | pass (env : Surroundings)

/-- One call.  Between two passes the interrupts may be switched; a pass starts a new record of
calls. -/
def step (hal : Hal) (hangCheck : Bool) (sleeper : Sleeper) : Event → Option Sleeper
  | .request mode => some { sleeper with pm := rtPmRequest sleeper.pm mode }
  | .release mode => some { sleeper with pm := rtPmRelease sleeper.pm mode }
  | .defaultSet sleepMode => some { sleeper with pm := rtPmDefaultSet sleeper.pm sleepMode }
  | .setInterrupts enabled => some { sleeper with cpu := { sleeper.cpu with enabled := enabled } }
  | .pass env =>
    some (rtSystemPowerManager hal hangCheck
      { sleeper with cpu := { sleeper.cpu with calls := [] } } env)

/-- `drv_pm_hw_init` gives light sleep a timer; nothing is remembered of an earlier pass. -/
def Initial (sleeper : Sleeper) : Prop :=
  ∃ pm, sleeper.pm = rtSystemPmInit pm (1 <<< 2) ∧ sleeper.globeSleepTime = 0

def system (hal : Hal) (hangCheck : Bool) : TransitionSystem Sleeper Event :=
  ofFunction Initial (step hal hangCheck)

/-- The `opening` and `closing` calls alternate: each `opening` is followed by exactly one
`closing` before the next one and before the end, and each `closing` follows an `opening`. -/
def Matched (opening closing : Call) (calls : List Call) : Prop :=
  ∃ count, calls.filter (fun call => call = opening ∨ call = closing) =
    (List.replicate count [opening, closing]).flatten

structure Balanced (before after : Sleeper) : Prop where
  interrupts : after.cpu.enabled = before.cpu.enabled
  clock : Matched .osGpt0Pause .osGpt0Resume after.cpu.calls
  watchdog : Matched .halWdtDisable .halWdtEnable after.cpu.calls

def Correct (taken : Taken Sleeper Event) : Prop :=
  match taken.event with
  | .pass _ => Balanced taken.before taken.after
  | _ => True

/-- The pass does not leave `pm_enter_sleep` early behind its own masking, outside any other
critical section. -/
def Leaves (sleeper : Sleeper) : Event → Prop
  | .pass env =>
    ¬ (sleeper.pm.initFlag = true ∧ (pmSelectSleepMode sleeper.pm).2 = pmSleepModeNone ∧
      env.lockStatus ≠ 1 ∧ sleeper.globeSleepTime < 2 ∧ sleeper.cpu.enabled = true)
  | _ => True

instance (sleeper : Sleeper) : (e : Event) → Decidable (Leaves sleeper e)
  | .pass _ => instDecidableNot
  | .request _ => .isTrue trivial
  | .release _ => .isTrue trivial
  | .defaultSet _ => .isTrue trivial
  | .setInterrupts _ => .isTrue trivial

variable {hal : Hal} {hangCheck : Bool}

@[simp] theorem call_calls (cpu : Cpu) (call : Call) :
    (cpu.call hal call).calls = cpu.calls ++ [call] := rfl

def Call.Paired (call : Call) : Prop :=
  call = .osGpt0Pause ∨ call = .osGpt0Resume ∨ call = .halWdtDisable ∨ call = .halWdtEnable

theorem matched_of_quiet {calls : List Call} (quiet : ∀ call ∈ calls, ¬ call.Paired) :
    Matched .osGpt0Pause .osGpt0Resume calls ∧ Matched .halWdtDisable .halWdtEnable calls := by
  refine ⟨⟨0, ?_⟩, ⟨0, ?_⟩⟩ <;>
    · refine List.filter_eq_nil_iff.mpr fun call mem => ?_
      simp_all [Call.Paired]

theorem Matched.append {opening closing : Call} {a second : List Call}
    (matched : Matched opening closing a) (matched' : Matched opening closing second) :
    Matched opening closing (a ++ second) := by
  obtain ⟨n, isFirst⟩ := matched
  obtain ⟨count', isSecond⟩ := matched'
  refine ⟨n + count', ?_⟩
  rw [List.filter_append, isFirst, isSecond, List.replicate_add, List.flatten_append]

theorem sleepIn_spec (globeSleepTime : Nat) (env : Surroundings) (cpu : Cpu) (mode : HalSleepMode) :
    ∃ slept, sleepIn hal globeSleepTime env cpu mode =
        { enabled := cpu.enabled, calls := cpu.calls ++ slept } ∧
        ∀ call ∈ slept, ¬ call.Paired := by
  unfold sleepIn
  split
  · split
    · exact ⟨[], by simp, by simp⟩
    · exact ⟨[.tryDeepSleep], by simp [Cpu.call, hal.restores], by simp [Call.Paired]⟩
  · split
    · exact ⟨[.tryLightSleep ((globeSleepTime - 1) * (1000 / rtTickPerSecond))],
        by simp [Cpu.call, hal.restores], by simp [Call.Paired]⟩
    · exact ⟨[.enterSleepMode .idle], by simp [Cpu.call, hal.restores], by simp [Call.Paired]⟩

theorem enclosed_matched {slept : List Call} (quiet : ∀ call ∈ slept, ¬ call.Paired)
    (hangCheck : Bool) (cpu : Cpu) (mode : HalSleepMode) :
    ∃ added, (resumeClock hal hangCheck
        { pauseClock hal hangCheck cpu mode with
          calls := (pauseClock hal hangCheck cpu mode).calls ++ slept } mode) =
        { enabled := cpu.enabled, calls := cpu.calls ++ added } ∧
      Matched .osGpt0Pause .osGpt0Resume added ∧ Matched .halWdtDisable .halWdtEnable added := by
  have noClock : ∀ call ∈ slept, ¬ call = .osGpt0Pause ∧ ¬ call = .osGpt0Resume :=
    fun call mem => by
      simp_all [Call.Paired]
  have noWatchdog : ∀ call ∈ slept, ¬ call = .halWdtDisable ∧ ¬ call = .halWdtEnable :=
    fun call mem => by
      simp_all [Call.Paired]
  by_cases idle : mode = .idle
  · exact ⟨slept, by simp [resumeClock, pauseClock, idle], matched_of_quiet quiet⟩
  · cases hangCheck with
    | false =>
      refine ⟨.osGpt0Pause :: slept ++ [.osGpt0Resume], ?_, ⟨1, ?_⟩, ⟨0, ?_⟩⟩
      · simp [resumeClock, pauseClock, idle, Cpu.call, hal.restores]
      · simpa using noClock
      · simpa using noWatchdog
    | true =>
      refine ⟨.osGpt0Pause :: .halWdtDisable :: slept ++ [.osGpt0Resume, .halWdtEnable], ?_,
        ⟨1, ?_⟩, ⟨1, ?_⟩⟩
      · simp [resumeClock, pauseClock, idle, Cpu.call, hal.restores]
      · simpa using noClock
      · simpa using noWatchdog

theorem pmEnterSleep_spec (hangCheck : Bool) (globeSleepTime : Nat) (env : Surroundings)
    (cpu : Cpu) (mode : Nat) :
    ∃ added enabled, pmEnterSleep hal hangCheck globeSleepTime env cpu mode =
        { enabled := enabled, calls := cpu.calls ++ added } ∧
      Matched .osGpt0Pause .osGpt0Resume added ∧ Matched .halWdtDisable .halWdtEnable added ∧
      enabled = if env.lockStatus ≠ 1 ∧
          (pmGetMode mode env.uninitialized = .none ∨ globeSleepTime < 2) then false
        else cpu.enabled := by
  unfold pmEnterSleep
  split
  · rename_i locked
    refine ⟨[.enterSleepMode .idle], cpu.enabled, by simp [Cpu.call, hal.restores], ⟨0, rfl⟩,
      ⟨0, rfl⟩, by simp [locked]⟩
  · rename_i unlocked
    simp only
    split
    · rename_i early
      exact ⟨[], false, by simp [rtHwInterruptDisable], ⟨0, rfl⟩, ⟨0, rfl⟩,
        (if_pos ⟨unlocked, early⟩).symm⟩
    · rename_i late
      generalize pmGetMode mode env.uninitialized = mode at late ⊢
      obtain ⟨slept, isSlept, quiet⟩ := @sleepIn_spec hal globeSleepTime env
        (pauseClock hal hangCheck (rtHwInterruptDisable cpu) mode) mode
      obtain ⟨added, isAdded, clock, watchdog⟩ :=
        @enclosed_matched hal slept quiet hangCheck (rtHwInterruptDisable cpu) mode
      refine ⟨added, cpu.enabled, ?_, clock, watchdog, (if_neg fun early => late early.2).symm⟩
      rw [isSlept, isAdded]
      rfl

theorem wakeUp_spec (timerMask mode globeSleepTime : Nat) (env : Surroundings) (cpu : Cpu) :
    ∃ added, (wakeUp hal timerMask mode globeSleepTime env cpu).calls = cpu.calls ++ added ∧
      ∀ call ∈ added, ¬ call.Paired := by
  unfold wakeUp
  dsimp only
  split
  · split
    · exact ⟨[.rtTickSet (Word32.add env.tick (pmTimerGetTick globeSleepTime)),
        .rtTimerCheck], by simp, by simp [Call.Paired]⟩
    · exact ⟨[], by simp, by simp⟩
  · exact ⟨[], by simp, by simp⟩

theorem balanced_iff {before s' : Sleeper} {added : List Call}
    (isAdded : s'.cpu.calls = added) (clock : Matched .osGpt0Pause .osGpt0Resume added)
    (watchdog : Matched .halWdtDisable .halWdtEnable added) :
    Balanced before s' ↔ s'.cpu.enabled = before.cpu.enabled := by
  subst isAdded
  exact ⟨Balanced.interrupts, fun interrupts => ⟨interrupts, clock, watchdog⟩⟩

theorem balanced_pass_iff (sleeper : Sleeper) (env : Surroundings) :
    Balanced sleeper (rtSystemPowerManager hal hangCheck
        { sleeper with cpu := { sleeper.cpu with calls := [] } } env) ↔
      Leaves sleeper (.pass env) := by
  unfold rtSystemPowerManager Leaves
  cases initialized : sleeper.pm.initFlag with
  | false =>
    rw [balanced_iff rfl ⟨0, rfl⟩ ⟨0, rfl⟩]
    simp
  | true =>
    simp only [Bool.true_eq_false, ↓reduceIte, pmChangeSleepMode, true_and]
    by_cases isNone : (pmSelectSleepMode sleeper.pm).2 = pmSleepModeNone
    · obtain ⟨added, enabled, isEntered, clock, watchdog, isEnabled⟩ :=
        @pmEnterSleep_spec hal hangCheck sleeper.globeSleepTime env
          { sleeper.cpu with calls := [] } pmSleepModeNone
      simp only [isNone, ↓reduceIte, isEntered, List.nil_append]
      rw [balanced_iff rfl clock watchdog, isEnabled]
      have idle : pmGetMode pmSleepModeNone env.uninitialized ≠ .none := by
        simp [pmGetMode, pmSleepModeNone]
      cases sleeper.cpu.enabled <;> simp [idle, or_iff_not_imp_left]
    · simp only [isNone, ↓reduceIte, false_and, not_false_eq_true, iff_true]
      split
      · exact ⟨rfl, ⟨0, rfl⟩, ⟨0, rfl⟩⟩
      · obtain ⟨added, enabled, isEntered, clock, watchdog, -⟩ :=
          @pmEnterSleep_spec hal hangCheck
            (tickless { sleeper with
              pm := (pmSelectSleepMode sleeper.pm).1
              cpu := { sleeper.cpu with calls := [] } } (pmSelectSleepMode sleeper.pm).2
              env).2
            env (rtHwInterruptDisable { sleeper.cpu with calls := [] })
            (tickless { sleeper with
              pm := (pmSelectSleepMode sleeper.pm).1
              cpu := { sleeper.cpu with calls := [] } } (pmSelectSleepMode sleeper.pm).2
              env).1
        obtain ⟨woken, isWoken, quiet⟩ := @wakeUp_spec hal
          (pmSelectSleepMode sleeper.pm).1.timerMask _ _ env
          { enabled := enabled, calls := added }
        obtain ⟨clock', watchdog'⟩ := matched_of_quiet quiet
        refine (balanced_iff ?_ (clock.append clock') (watchdog.append watchdog')).mpr rfl
        rw [isEntered]
        exact isWoken

/-- In every run, each pass is balanced exactly if none leaves early. -/
theorem balanced_iff_leaves {taken : List (Taken Sleeper Event)} {last : Sleeper}
    (run : (system hal hangCheck).Run taken last) :
    (∀ step ∈ taken, Correct step) ↔ EveryStep Leaves taken := by
  refine @Run.everyTaken_iff_everyStep _ _ _ (fun _ => True) _ _
    (fun _ _ => trivial) (fun _ _ _ _ _ _ => trivial) ?_ _ _ run
  intro sleeper e s' _ ran
  cases e with
  | pass env =>
    cases ran
    exact balanced_pass_iff sleeper env
  | request mode | release mode | defaultSet sleepMode | setInterrupts enabled => exact Iff.rfl

def plainHal : Hal := ⟨fun _ enabled => enabled, fun _ _ => rfl⟩

/-- The power manager as `drv_pm_hw_init` leaves it, with the interrupts enabled. -/
def fresh : Sleeper where
  pm := rtSystemPmInit
    { modes := fun _ => 0, sleepMode := 0, timerMask := 0, defaultSleep := 1, initFlag := false }
    (1 <<< 2)
  globeSleepTime := 0
  cpu := ⟨true, []⟩

theorem fresh_initial : Initial fresh := ⟨_, rfl, rfl⟩

def quiet : Surroundings where
  suspended := true
  timeoutTick := 150
  tick := 100
  lockStatus := 0
  deepLocked := false
  uninitialized := .none

theorem light_sleep_balanced :
    let events : List Event := [.request 2, .pass quiet, .release 2, .request 0, .pass quiet]
    ∀ pass ∈ record (step plainHal false) [] fresh events, Correct pass :=
  (balanced_iff_leaves (Run.execute (.start fresh_initial)
    (Option.some_get rfl).symm)).mpr (by decide +kernel)

/-- No sleep at all in the first pass: the interrupts stay masked. -/
theorem first_pass_not_balanced : ¬ ∀ (taken : List (Taken Sleeper Event)) (last : Sleeper),
      (system plainHal false).Run taken last → ∀ step ∈ taken, Correct step := by
  intro claim
  have run : (system plainHal false).Run
      (record (step plainHal false) [] fresh [.request 0, .pass quiet])
      ((execute (step plainHal false) fresh [.request 0, .pass quiet]).get rfl) :=
    Run.executed _ _ fresh_initial _
  have restored := (claim _ _ run _ List.mem_cons_self).interrupts
  exact absurd restored (by decide +kernel)

end RtThread.SleepEntry
