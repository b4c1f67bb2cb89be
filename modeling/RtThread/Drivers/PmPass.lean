import Mathlib.Data.BitVec
import RtThread.Drivers.Pm

/-!
# A pass of the power manager

`_pm_change_sleep_mode` with the registered devices and the notification of the application.
-/

namespace RtThread.PmPass

open Pm (RtPm pmSleepModeNone pmSleepModeIdle pmSelectSleepMode)

def rtTickMax : BitVec 32 := 0xffffffff
def rtPmTicklessThresh : BitVec 32 := 2

/-- The operations of a device: whether its `suspend`, if it has one, returns `RT_EOK` in this
pass, and whether it has a `resume`. -/
structure DevicePm where
  suspend : Option Bool
  resume : Bool

/-- The calls of a pass; devices are named by their place in the list. -/
inductive Call where
  | notifyEnter (mode : Nat)
  | notifyExit (mode : Nat)
  | suspend (device mode : Nat) (ok : Bool)
  | resume (device mode : Nat)
  | timerStart (timeout : BitVec 32)
  | sleep (mode : Nat)
  | timerStop
  | tickSet (tick : BitVec 32)
  | timerCheck

/-- What a pass meets: the devices, whether there is a `notify` and an `ops->timer_start`, the next
timeout, the tick, and what `ops->timer_get_tick` returns. -/
structure Surroundings where
  devices : List DevicePm
  notify : Bool
  hasTimerStart : Bool
  timeoutTick : BitVec 32
  tick : BitVec 32
  deltaTick : BitVec 32

/-- `_pm_device_suspend` from a device on, and whether it returns `RT_EOK`. -/
def pmDeviceSuspend (mode : Nat) : Nat → List DevicePm → List Call × Bool
  | _, [] => ([], true)
  | i, device :: devices =>
    match device.suspend with
    | none => pmDeviceSuspend mode (i + 1) devices
    | some true =>
      (.suspend i mode true :: (pmDeviceSuspend mode (i + 1) devices).1,
        (pmDeviceSuspend mode (i + 1) devices).2)
    | some false => ([.suspend i mode false], false)

def pmDeviceResume (mode : Nat) : Nat → List DevicePm → List Call
  | _, [] => []
  | i, device :: devices =>
    (if device.resume then [.resume i mode] else []) ++ pmDeviceResume mode (i + 1) devices

def HasTimer (pm : RtPm) (mode : Nat) : Prop := pm.timerMask &&& (0x01 <<< mode) ≠ 0

instance (pm : RtPm) (mode : Nat) : Decidable (HasTimer pm mode) := instDecidableNot

variable (pm : RtPm) (mode : Nat) (env : Surroundings)

def notifyApp (call : Call) : List Call := if env.notify then [call] else []

/-- "Tickless": the calls, and the mode to sleep in.  Only the first call is guarded. -/
def tickless : List Call × Nat :=
  if HasTimer pm mode then
    if env.timeoutTick = rtTickMax then
      (if env.hasTimerStart then [.timerStart rtTickMax] else [], mode)
    else if env.timeoutTick - env.tick < rtPmTicklessThresh then
      ([], pmSleepModeIdle)
    else ([.timerStart (env.timeoutTick - env.tick)], mode)
  else ([], mode)

def wakeUp : List Call :=
  if HasTimer pm mode then
    .timerStop :: (if env.deltaTick ≠ 0 then
      [.tickSet (env.tick + env.deltaTick), .timerCheck] else [])
  else []

def sleeping : List Call :=
  let (started, mode) := tickless pm mode env
  started ++ .sleep mode :: wakeUp pm mode env ++
    pmDeviceResume pm.sleepMode 0 env.devices ++ notifyApp env (.notifyExit mode)

def pmChangeSleepMode : List Call :=
  if mode = pmSleepModeNone then [.sleep pmSleepModeNone]
  else
    let (suspended, ok) := pmDeviceSuspend mode 0 env.devices
    notifyApp env (.notifyEnter mode) ++ suspended ++ if ok then sleeping pm mode env
      else
        pmDeviceResume mode 0 env.devices ++ notifyApp env (.notifyExit mode)

/-- `rt_system_power_manager` without the frequency scaling. -/
def rtSystemPowerManager : List Call :=
  if pm.initFlag = false then []
  else
    let (pm, mode) := pmSelectSleepMode pm
    pmChangeSleepMode pm mode env

def Call.entered : Call → Option Nat
  | .notifyEnter mode => some mode
  | _ => none

def Call.exited : Call → Option Nat
  | .notifyExit mode => some mode
  | _ => none

/-- A device with the mode that its `suspend` has returned `RT_EOK` for. -/
def Call.suspended : Call → Option (Nat × Nat)
  | .suspend device mode true => some (device, mode)
  | _ => none

def Call.resumed : Call → Option (Nat × Nat)
  | .resume device mode => some (device, mode)
  | _ => none

/-- The devices that are resumed are those that were suspended, in the same mode, and every
notification of the entry is matched. -/
structure Balanced (calls : List Call) : Prop where
  devices : ∀ p, p ∈ calls.filterMap Call.resumed ↔
    p ∈ calls.filterMap Call.suspended
  notices : calls.filterMap Call.entered = calls.filterMap Call.exited

/-- The `suspend` of a device is called, and returns `RT_EOK`. -/
def Suspends (devices : List DevicePm) (i : Nat) : Prop :=
  (devices[i]?.bind DevicePm.suspend) = some true ∧
    ∀ earlier < i, (devices[earlier]?.bind DevicePm.suspend) ≠ some false

def Rewritten : Prop :=
  mode ≠ pmSleepModeIdle ∧ HasTimer pm mode ∧ env.timeoutTick ≠ rtTickMax ∧
    env.timeoutTick - env.tick < rtPmTicklessThresh

/-- No mode is entered; or the devices with a `resume` are those that get suspended, and the
application is not told of a mode that is rewritten. -/
def Paired : Prop :=
  mode = pmSleepModeNone ∨
    ((∀ i, (env.devices[i]?.map DevicePm.resume) = some true ↔
      Suspends env.devices i) ∧
    (env.notify = false ∨ (∃ device ∈ env.devices, device.suspend = some false) ∨
      ¬ Rewritten pm mode env))

variable {pm mode env} {i : Nat} {devices : List DevicePm}

variable {β : Type} {f : Call → Option β}

theorem filterMap_suspend (quiet : ∀ device mode ok, f (.suspend device mode ok) = none) :
    (pmDeviceSuspend mode i devices).1.filterMap f = [] := by
  induction devices generalizing i with
  | nil => rfl
  | cons device devices ih =>
    rw [pmDeviceSuspend]
    split
    · exact ih
    · rw [List.filterMap_cons_none (quiet _ _ _), ih]
    · rw [List.filterMap_cons_none (quiet _ _ _), List.filterMap_nil]

theorem filterMap_resume (quiet : ∀ device mode, f (.resume device mode) = none) :
    (pmDeviceResume mode i devices).filterMap f = [] := by
  induction devices generalizing i with
  | nil => rfl
  | cons device devices ih =>
    rw [pmDeviceResume, List.filterMap_append, ih]
    split
    · rw [List.filterMap_cons_none (quiet _ _)]
      rfl
    · rfl

theorem suspends_zero {device : DevicePm} :
    Suspends (device :: devices) 0 ↔ device.suspend = some true := by
  simp [Suspends]

theorem suspends_succ {device : DevicePm} {step : Nat} : Suspends (device :: devices) (step + 1) ↔
      device.suspend ≠ some false ∧ Suspends devices step := by
  constructor
  · rintro ⟨here, before⟩
    refine ⟨by simpa using before 0 (Nat.succ_pos step), by simpa using here, ?_⟩
    intro earlier inFront
    simpa using before (earlier + 1) (Nat.succ_lt_succ inFront)
  · rintro ⟨a, here, before⟩
    refine ⟨by simpa using here, fun earlier inFront => ?_⟩
    cases earlier with
    | zero => simpa using a
    | succ earlier => simpa using before earlier (Nat.lt_of_succ_lt_succ inFront)

theorem exists_step_iff {p : Nat} {property : Nat → Prop} : (∃ step, p = i + step ∧ property step) ↔
      (p = i ∧ property 0) ∨ ∃ step, p = i + 1 + step ∧ property (step + 1) := by
  constructor
  · rintro ⟨step, rfl, holds⟩
    cases step with
    | zero => exact .inl ⟨rfl, holds⟩
    | succ step => exact .inr ⟨step, by omega, holds⟩
  · rintro (⟨rfl, holds⟩ | ⟨step, rfl, holds⟩)
    · exact ⟨0, rfl, holds⟩
    · exact ⟨step + 1, by omega, holds⟩

theorem mem_suspended {p : Nat × Nat} :
    p ∈ (pmDeviceSuspend mode i devices).1.filterMap Call.suspended ↔
      p.2 = mode ∧ ∃ step, p.1 = i + step ∧ Suspends devices step := by
  induction devices generalizing i with
  | nil => simp [pmDeviceSuspend, Suspends]
  | cons device devices ih =>
    rw [pmDeviceSuspend, exists_step_iff, suspends_zero]
    simp only [suspends_succ]
    split
    · next absent => simp [ih, absent]
    · rename_i ok
      simp only [List.filterMap_cons, Call.suspended, List.mem_cons, ih, ok, ne_eq,
        Option.some.injEq, Bool.true_eq_false, Prod.ext_iff]
      tauto
    · next fails => simp [fails, Call.suspended]

theorem mem_resumed {p : Nat × Nat} : p ∈ (pmDeviceResume mode i devices).filterMap Call.resumed ↔
      p.2 = mode ∧ ∃ step, p.1 = i + step ∧ (devices[step]?.map DevicePm.resume) = some true := by
  induction devices generalizing i with
  | nil => simp [pmDeviceResume]
  | cons device devices ih =>
    rw [pmDeviceResume, List.filterMap_append, List.mem_append, exists_step_iff, ih]
    cases resumes : device.resume with
    | false => simp [resumes]
    | true =>
      simp only [if_true, List.filterMap_cons, Call.resumed, List.filterMap_nil,
        List.mem_singleton, List.getElem?_cons_zero, Option.map_some, Prod.ext_iff]
      tauto

theorem pmDeviceSuspend_ok : (pmDeviceSuspend mode i devices).2 = true ↔
    ∀ device ∈ devices, device.suspend ≠ some false := by
  induction devices generalizing i with
  | nil => simp [pmDeviceSuspend]
  | cons device devices ih =>
    rw [pmDeviceSuspend, List.forall_mem_cons]
    split
    · next absent => rw [ih, absent]; simp
    · next ok => rw [ih, ok]; simp
    · next fails => simp [fails]

theorem filterMap_tickless (quiet : ∀ timeout, f (.timerStart timeout) = none) :
    (tickless pm mode env).1.filterMap f = [] := by
  unfold tickless
  split_ifs <;> simp [quiet]

theorem filterMap_wakeUp (stop : f .timerStop = none) (set : ∀ tick, f (.tickSet tick) = none)
    (check : f .timerCheck = none) : (wakeUp pm mode env).filterMap f = [] := by
  unfold wakeUp
  split_ifs <;> simp [stop, set, check]

theorem rewritten_iff : Rewritten pm mode env ↔ (tickless pm mode env).2 ≠ mode := by
  unfold Rewritten tickless
  by_cases timer : HasTimer pm mode
  · by_cases never : env.timeoutTick = rtTickMax
    · simp [timer, never]
    · by_cases short : env.timeoutTick - env.tick < rtPmTicklessThresh
      · simp [timer, never, short, eq_comm]
      · simp [timer, never, short]
  · simp [timer]

theorem filterMap_notifyApp {call : Call} :
    (notifyApp env call).filterMap f = if env.notify then (f call).toList else [] := by
  unfold notifyApp
  split
  · cases result : f call <;> simp [result]
  · rfl

def exitMode (pm : RtPm) (mode : Nat) (env : Surroundings) : Nat :=
  if (pmDeviceSuspend mode 0 env.devices).2 then (tickless pm mode env).2
  else mode

section

variable (entered : mode ≠ pmSleepModeNone) (stored : pm.sleepMode = mode)

include entered stored

theorem filterMap_pass {β : Type} {f : Call → Option β} (sleep : ∀ mode, f (.sleep mode) = none)
    (stop : f .timerStop = none) (set : ∀ tick, f (.tickSet tick) = none)
    (check : f .timerCheck = none) : (pmChangeSleepMode pm mode env).filterMap f =
      (if env.notify then (f (.notifyEnter mode)).toList else []) ++
        (pmDeviceSuspend mode 0 env.devices).1.filterMap f ++
        (if (pmDeviceSuspend mode 0 env.devices).2 then
          (tickless pm mode env).1.filterMap f else []) ++
        (pmDeviceResume mode 0 env.devices).filterMap f ++
        if env.notify then (f (.notifyExit (exitMode pm mode env))).toList else [] := by
  rw [pmChangeSleepMode, if_neg entered, exitMode]
  cases ok : (pmDeviceSuspend mode 0 env.devices).2 with
  | false =>
    simp only [ok, Bool.false_eq_true, if_false, List.filterMap_append, filterMap_notifyApp,
      List.append_assoc, List.nil_append]
  | true =>
    simp only [ok, if_true, sleeping, stored, List.filterMap_append, filterMap_notifyApp,
      List.filterMap_cons, sleep, filterMap_wakeUp stop set check, List.append_assoc,
      List.nil_append]

theorem pass_effects : let calls := pmChangeSleepMode pm mode env
    calls.filterMap Call.suspended =
        (pmDeviceSuspend mode 0 env.devices).1.filterMap Call.suspended ∧
      calls.filterMap Call.resumed = (pmDeviceResume mode 0 env.devices).filterMap Call.resumed ∧
      calls.filterMap Call.entered = (if env.notify then [mode] else []) ∧
      calls.filterMap Call.exited = if env.notify then [exitMode pm mode env] else [] := by
  refine ⟨?_, ?_, ?_, ?_⟩
  all_goals
    rw [filterMap_pass entered stored (fun _ => rfl) rfl (fun _ => rfl) rfl,
      filterMap_tickless fun _ => rfl, ite_self]
  · rw [filterMap_resume fun _ _ => rfl]
    simp [Call.suspended]
  · rw [filterMap_suspend fun _ _ _ => rfl]
    simp [Call.resumed]
  · rw [filterMap_suspend fun _ _ _ => rfl, filterMap_resume fun _ _ => rfl]
    simp [Call.entered]
  · rw [filterMap_suspend fun _ _ _ => rfl, filterMap_resume fun _ _ => rfl]
    simp [Call.exited]

theorem balanced_iff : Balanced (pmChangeSleepMode pm mode env) ↔ Paired pm mode env := by
  obtain ⟨suspended, resumed, enters, exits⟩ := @pass_effects _ _ env entered stored
  have devices : (∀ p, p ∈ (pmChangeSleepMode pm mode env).filterMap Call.resumed ↔
      p ∈ (pmChangeSleepMode pm mode env).filterMap Call.suspended) ↔
      ∀ i, (env.devices[i]?.map DevicePm.resume) = some true ↔
        Suspends env.devices i := by
    simp only [suspended, resumed, mem_suspended, mem_resumed]
    constructor
    · intro same i
      simpa using same (i, mode)
    · intro same p
      simp only [same]
  have notices : (pmChangeSleepMode pm mode env).filterMap Call.entered =
      (pmChangeSleepMode pm mode env).filterMap Call.exited ↔
      (env.notify = false ∨
        (∃ device ∈ env.devices, device.suspend = some false) ∨
        ¬ Rewritten pm mode env) := by
    rw [enters, exits, rewritten_iff]
    cases told : env.notify with
    | false => simp
    | true =>
      have failing : (∃ device ∈ env.devices, device.suspend = some false) ↔
          (pmDeviceSuspend mode 0 env.devices).2 ≠ true := by
        rw [ne_eq, pmDeviceSuspend_ok]
        push Not
        rfl
      rw [failing, exitMode]
      cases (pmDeviceSuspend mode 0 env.devices).2 <;> simp [eq_comm]
  constructor
  · exact fun balanced => .inr ⟨devices.mp balanced.devices, notices.mp balanced.notices⟩
  · rintro (none | ⟨pairs, told⟩)
    · exact absurd none entered
    · exact ⟨devices.mpr pairs, notices.mpr told⟩

end

/-- A pass balances the devices and the notifications just when no mode is entered, or the
`resume` functions stand beside the `suspend` functions that succeed and the mode that the
application has been told of is kept. -/
theorem pass_balanced_iff (pm : RtPm) (env : Surroundings) :
    Balanced (rtSystemPowerManager pm env) ↔
      (pm.initFlag = true → Paired pm (pmSelectSleepMode pm).2 env) := by
  cases initialized : pm.initFlag with
  | false =>
    rw [rtSystemPowerManager, if_pos initialized]
    exact iff_of_true ⟨fun _ => Iff.rfl, rfl⟩ (fun impossible => absurd impossible (by decide))
  | true =>
    rw [rtSystemPowerManager, if_neg (by simp [initialized])]
    simp only [true_implies]
    by_cases none : (pmSelectSleepMode pm).2 = pmSleepModeNone
    · rw [pmChangeSleepMode, if_pos none]
      exact iff_of_true ⟨fun _ => Iff.rfl, rfl⟩ (.inl none)
    · exact balanced_iff none rfl

def idlePm : RtPm := ⟨fun _ => 0, 0, 0xfc, pmSleepModeIdle, true⟩

/-- The only device refuses to be suspended, and is resumed. -/
theorem refused_suspend_not_balanced : ¬ ∀ pm env, Balanced (rtSystemPowerManager pm env) := by
  intro claim
  have balanced := claim idlePm ⟨[⟨some false, true⟩], false, true, 0, 0, 0⟩
  exact absurd ((balanced.devices (0, 1)).mp (by decide)) (by decide)

end RtThread.PmPass
