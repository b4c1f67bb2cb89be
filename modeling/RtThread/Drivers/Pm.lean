import RtThread.Library.TransitionSystem
import RtThread.Library.Words

/-!
# Sleep modes of the power manager

`rt_pm_request`, `rt_pm_release` and the selection of the sleep mode.  A user holds a mode
from its request to its release.  The counters of the code saturate at 255; as long as no
mode is requested while 255 requests of it are outstanding, the mode selected is the
shallowest one that is still requested.
-/

open Function (update update_self)
open TransitionSystem

namespace RtThread.Pm

def pmSleepModeNone : Nat := 0

def pmSleepModeIdle : Nat := 1

def pmSleepModeMax : Nat := 6

def rtTickMax : Nat := 0xffffffff

def rtPmTicklessThresh : Nat := 2

/-- `struct rt_pm`, with `_pm_default_sleep` and `_pm_init_flag`. -/
structure RtPm where
  modes : Nat → Nat
  sleepMode : Nat
  timerMask : Nat
  defaultSleep : Nat
  initFlag : Bool

def rtSystemPmInit (pm : RtPm) (timerMask : Nat) : RtPm :=
  { pm with
    modes := fun _ => 0
    sleepMode := pm.defaultSleep
    timerMask := timerMask
    initFlag := true }

def rtPmDefaultSet (pm : RtPm) (sleepMode : Nat) : RtPm := { pm with defaultSleep := sleepMode }

def rtPmRequest (pm : RtPm) (mode : Nat) : RtPm :=
  if pm.initFlag = false then pm
  else if pmSleepModeMax - 1 < mode then pm
  else if pm.modes mode < 255 then
    { pm with modes := update pm.modes mode (pm.modes mode + 1) }
  else pm

def rtPmRelease (pm : RtPm) (mode : Nat) : RtPm :=
  if pm.initFlag = false then pm
  else if pmSleepModeMax - 1 < mode then pm
  else if 0 < pm.modes mode then
    { pm with modes := update pm.modes mode (pm.modes mode - 1) }
  else pm

/-- The loop of `_pm_select_sleep_mode`, with the number of modes left. -/
def firstRequested (modes : Nat → Nat) : Nat → Nat → Option Nat
  | 0, _ => none
  | left + 1, index =>
    if modes index ≠ 0 then some index else firstRequested modes left (index + 1)

def pmSelectSleepMode (pm : RtPm) : RtPm × Nat :=
  let index := firstRequested pm.modes (pmSleepModeMax - pmSleepModeNone) pmSleepModeNone
  let mode := index.getD pm.defaultSleep
  ({ pm with sleepMode := mode }, mode)

/-- What `_pm_change_sleep_mode` meets: whether the devices can be suspended, the timeout of
the next timer, and the tick. -/
structure Surroundings where
  suspended : Bool
  timeoutTick : Nat
  tick : Nat

/-- `_pm_change_sleep_mode`: the mode that is handed to `ops->sleep`, if any. -/
def pmChangeSleepMode (pm : RtPm) (mode : Nat) (env : Surroundings) :
    RtPm × Option Nat :=
  if mode = pmSleepModeNone then ({ pm with sleepMode := mode }, some pmSleepModeNone)
  else if env.suspended = false then (pm, none)
  else if pm.timerMask &&& (0x01 <<< mode) ≠ 0 ∧ env.timeoutTick ≠ rtTickMax ∧
      Word32.sub env.timeoutTick env.tick < rtPmTicklessThresh then
    (pm, some pmSleepModeIdle)
  else (pm, some mode)

def rtSystemPowerManager (pm : RtPm) (env : Surroundings) : RtPm × Option Nat :=
  if pm.initFlag = false then (pm, none)
  else
    let (pm, mode) := pmSelectSleepMode pm
    pmChangeSleepMode pm mode env

variable {User : Type}

/-- The power manager with the users that hold each mode, the numbers of requests and
releases so far, and the mode that the last step has entered. -/
structure State (User : Type) where
  pm : RtPm
  holders : Nat → List User
  requests : Nat → Nat
  releases : Nat → Nat
  entered : Option Nat

inductive Event (User : Type) where
  | request (user : User) (mode : Nat)
  | release (user : User) (mode : Nat)
  | defaultSet (sleepMode : Nat)
  | idle (env : Surroundings)

variable [DecidableEq User]

/-- One call.  A user releases a mode at most as often as it has requested it. -/
def step (s : State User) : Event User → Option (State User)
  | .request user mode =>
    some
      { s with
        pm := rtPmRequest s.pm mode
        holders := update s.holders mode (user :: s.holders mode)
        requests := update s.requests mode (s.requests mode + 1)
        entered := none }
  | .release user mode =>
    if user ∈ s.holders mode then
      some
        { s with
          pm := rtPmRelease s.pm mode
          holders := update s.holders mode ((s.holders mode).erase user)
          releases := update s.releases mode (s.releases mode + 1)
          entered := none }
    else none
  | .defaultSet sleepMode =>
    some { s with pm := rtPmDefaultSet s.pm sleepMode, entered := none }
  | .idle env =>
    let (pm, entered) := rtSystemPowerManager s.pm env
    some { s with pm := pm, entered := entered }

def Initial (s : State User) : Prop :=
  ∃ pm timerMask, s =
    { pm := rtSystemPmInit pm timerMask
      holders := fun _ => []
      requests := fun _ => 0
      releases := fun _ => 0
      entered := none }

def system : TransitionSystem (State User) (Event User) :=
  ofFunction Initial step

def State.Requested (s : State User) (mode : Nat) : Prop :=
  mode < pmSleepModeMax ∧ s.releases mode < s.requests mode

omit [DecidableEq User] in
instance (s : State User) (mode : Nat) : Decidable (s.Requested mode) := instDecidableAnd

/-- The selection yields the shallowest requested mode, or the default, and no mode that is
deeper than a requested one has been entered. -/
structure Stalls (s : State User) : Prop where
  shallowest : ∀ mode, s.Requested mode → (∀ u < mode, ¬s.Requested u) →
    (pmSelectSleepMode s.pm).2 = mode
  default : (∀ mode, ¬s.Requested mode) →
    (pmSelectSleepMode s.pm).2 = s.pm.defaultSleep
  notDeeper : ∀ entered ∈ s.entered, ∀ mode, s.Requested mode → entered ≤ mode

def Counts (s : State User) : Event User → Prop
  | .request _ mode => mode < pmSleepModeMax → s.requests mode < s.releases mode + 255
  | _ => True

omit [DecidableEq User] in
instance (s : State User) : (e : Event User) → Decidable (Counts s e)
  | .request .. => instDecidableForall
  | .release _ _ => .isTrue trivial
  | .defaultSet _ => .isTrue trivial
  | .idle _ => .isTrue trivial

/-- Each counter is the number of outstanding requests. -/
structure Accounted (s : State User) : Prop where
  initialized : s.pm.initFlag = true
  outstanding : ∀ mode, s.requests mode = s.releases mode + (s.holders mode).length
  counters : ∀ mode < pmSleepModeMax, s.pm.modes mode = (s.holders mode).length

variable {s after : State User} {e : Event User}

omit [DecidableEq User] in
theorem initial_accounted (init : Initial s) : Accounted s := by
  obtain ⟨pm, timerMask, rfl⟩ := init
  exact ⟨rfl, fun _ => rfl, fun _ _ => rfl⟩

omit [DecidableEq User] in
theorem Accounted.requested_iff (acc : Accounted s) (mode : Nat) :
    s.Requested mode ↔ mode < pmSleepModeMax ∧ s.pm.modes mode ≠ 0 := by
  have outstanding := acc.outstanding mode
  constructor
  · rintro ⟨valid, more⟩
    have counter := acc.counters mode valid
    exact ⟨valid, by omega⟩
  · rintro ⟨valid, nonzero⟩
    have counter := acc.counters mode valid
    exact ⟨valid, by omega⟩

variable {mode : Nat}

theorem rtPmRequest_modes {pm : RtPm} (initialized : pm.initFlag = true)
    (valid : mode < pmSleepModeMax) (small : pm.modes mode < 255) :
    rtPmRequest pm mode = { pm with modes := update pm.modes mode (pm.modes mode + 1) } := by
  have notLarge : ¬pmSleepModeMax - 1 < mode := by omega
  simp [rtPmRequest, initialized, notLarge, small]

theorem rtPmRequest_invalid (pm : RtPm) (invalid : ¬mode < pmSleepModeMax) :
    rtPmRequest pm mode = pm := by
  have large : pmSleepModeMax - 1 < mode := by
    unfold pmSleepModeMax at invalid ⊢
    omega
  simp [rtPmRequest, large]

theorem rtPmRelease_modes {pm : RtPm} (initialized : pm.initFlag = true)
    (valid : mode < pmSleepModeMax) (pos : 0 < pm.modes mode) :
    rtPmRelease pm mode = { pm with modes := update pm.modes mode (pm.modes mode - 1) } := by
  have notLarge : ¬pmSleepModeMax - 1 < mode := by omega
  simp [rtPmRelease, initialized, notLarge, pos]

theorem rtPmRelease_invalid (pm : RtPm) (invalid : ¬mode < pmSleepModeMax) :
    rtPmRelease pm mode = pm := by
  have large : pmSleepModeMax - 1 < mode := by
    unfold pmSleepModeMax at invalid ⊢
    omega
  simp [rtPmRelease, large]

theorem rtSystemPowerManager_kept (pm : RtPm) (env : Surroundings) :
    (rtSystemPowerManager pm env).1.modes = pm.modes ∧
      (rtSystemPowerManager pm env).1.initFlag = pm.initFlag := by
  unfold rtSystemPowerManager
  split
  · exact ⟨rfl, rfl⟩
  · simp only [pmChangeSleepMode]
    split
    · exact ⟨rfl, rfl⟩
    · split
      · exact ⟨rfl, rfl⟩
      · split <;> exact ⟨rfl, rfl⟩

theorem step_accounted (acc : Accounted s) (counts : Counts s e)
    (ran : step s e = some after) : Accounted after := by
  obtain ⟨initialized, outstanding, counters⟩ := acc
  cases e with
  | request user mode =>
    cases ran
    have others : ∀ u, update s.requests mode (s.requests mode + 1) u = s.releases u +
          (update s.holders mode (user :: s.holders mode) u).length := by
      intro u
      by_cases same : u = mode
      · subst same
        have := outstanding u
        simp only [update_self, List.length_cons]
        omega
      · simpa [same] using outstanding u
    by_cases valid : mode < pmSleepModeMax
    · have small : s.pm.modes mode < 255 := by
        have := counts valid
        have := outstanding mode
        have := counters mode valid
        omega
      have requested := rtPmRequest_modes initialized valid small
      refine ⟨by simpa [requested] using initialized, others, fun u inRange => ?_⟩
      by_cases same : u = mode
      · subst same
        simp [requested, counters u inRange]
      · simpa [requested, same] using counters u inRange
    · have ignored := rtPmRequest_invalid s.pm valid
      refine ⟨by simpa [ignored] using initialized, others, fun u inRange => ?_⟩
      have ne : u ≠ mode := by omega
      simpa [ignored, ne] using counters u inRange
  | release user mode =>
    obtain ⟨holds, ⟨⟩⟩ := Option.ite_none_right_eq_some.mp ran
    have erased := List.length_erase_of_mem holds
    have pos := List.length_pos_of_mem holds
    have others : ∀ u, s.requests u = update s.releases mode (s.releases mode + 1) u +
          (update s.holders mode ((s.holders mode).erase user) u).length := by
      intro u
      by_cases same : u = mode
      · subst same
        have := outstanding u
        simp only [update_self]
        omega
      · simpa [same] using outstanding u
    by_cases valid : mode < pmSleepModeMax
    · have counter := counters mode valid
      have released := rtPmRelease_modes initialized valid (by omega)
      refine ⟨by simpa [released] using initialized, others, fun u inRange => ?_⟩
      by_cases same : u = mode
      · subst same
        simp only [released, update_self]
        omega
      · simpa [released, same] using counters u inRange
    · have ignored := rtPmRelease_invalid s.pm valid
      refine ⟨by simpa [ignored] using initialized, others, fun u inRange => ?_⟩
      have ne : u ≠ mode := by omega
      simpa [ignored, ne] using counters u inRange
  | defaultSet sleepMode =>
    cases ran
    exact ⟨initialized, outstanding, counters⟩
  | idle env =>
    cases ran
    obtain ⟨modes, initFlag⟩ := rtSystemPowerManager_kept s.pm env
    refine ⟨initFlag.trans initialized, outstanding, fun mode valid => ?_⟩
    exact (congrFun modes mode).trans (counters mode valid)

theorem firstRequested_spec (modes : Nat → Nat) (left i : Nat) :
    (firstRequested modes left i = none ∧ ∀ mode, i ≤ mode → mode < i + left → modes mode = 0) ∨
    ∃ found, firstRequested modes left i = some found ∧ found < i + left ∧
      modes found ≠ 0 ∧ ∀ mode, i ≤ mode → mode < found → modes mode = 0 := by
  induction left generalizing i with
  | zero => exact .inl ⟨rfl, fun mode above below => by omega⟩
  | succ left ih =>
    by_cases pos : modes i ≠ 0
    · exact .inr ⟨i, by simp [firstRequested, pos], by omega, pos, fun mode above below => by omega⟩
    · have zero : modes i = 0 := by simpa using pos
      have next : firstRequested modes (left + 1) i = firstRequested modes left (i + 1) := by
        simp [firstRequested, zero]
      rw [next]
      rcases ih (i + 1) with ⟨none, zeros⟩ | ⟨found, some, below, isFound, zeros⟩
      · refine .inl ⟨none, fun mode above below => ?_⟩
        rcases Nat.eq_or_lt_of_le above with rfl | above
        · exact zero
        · exact zeros mode above (by omega)
      · refine .inr ⟨found, some, by omega, isFound, fun mode above below => ?_⟩
        rcases Nat.eq_or_lt_of_le above with rfl | above
        · exact zero
        · exact zeros mode above below

theorem pmSelectSleepMode_cases (pm : RtPm) :
    ((∀ mode < pmSleepModeMax, pm.modes mode = 0) ∧ (pmSelectSleepMode pm).2 = pm.defaultSleep) ∨
      ((pmSelectSleepMode pm).2 < pmSleepModeMax ∧ pm.modes (pmSelectSleepMode pm).2 ≠ 0 ∧
        ∀ mode < (pmSelectSleepMode pm).2, pm.modes mode = 0) := by
  rcases firstRequested_spec pm.modes (pmSleepModeMax - pmSleepModeNone) pmSleepModeNone with
    ⟨none, zeros⟩ | ⟨found, some, below, pos, zeros⟩
  · left
    refine ⟨fun mode valid => zeros mode (Nat.zero_le mode)
      (by simpa [pmSleepModeNone] using valid), ?_⟩
    simp [pmSelectSleepMode, none]
  · right
    have selected : (pmSelectSleepMode pm).2 = found := by simp [pmSelectSleepMode, some]
    rw [selected]
    exact ⟨by simpa [pmSleepModeNone] using below, pos, fun mode => zeros mode (Nat.zero_le mode)⟩

omit [DecidableEq User] in
theorem Accounted.select_le (acc : Accounted s)
    (requested : s.Requested mode) : (pmSelectSleepMode s.pm).2 ≤ mode := by
  obtain ⟨valid, pos⟩ := (acc.requested_iff mode).mp requested
  rcases pmSelectSleepMode_cases s.pm with ⟨zeros, -⟩ | ⟨-, -, zeros⟩
  · exact absurd (zeros mode valid) pos
  · by_contra deeper
    exact pos (zeros mode (by omega))

theorem rtSystemPowerManager_entered {pm : RtPm} {env : Surroundings} {entered : Nat}
    (enters : (rtSystemPowerManager pm env).2 = some entered) :
    entered ≤ (pmSelectSleepMode pm).2 := by
  unfold rtSystemPowerManager at enters
  split at enters
  · simp at enters
  · simp only [pmChangeSleepMode] at enters
    split at enters
    · rename_i isNone
      cases enters
      exact Nat.zero_le _
    · rename_i notNone
      split at enters
      · simp at enters
      · split at enters
        · cases enters
          exact Nat.one_le_iff_ne_zero.mpr notNone
        · cases enters
          exact Nat.le_refl _

def NotDeeper (s : State User) : Prop :=
  ∀ entered ∈ s.entered, ∀ mode, s.Requested mode → entered ≤ mode

theorem step_notDeeper (acc : Accounted s) (ran : step s e = some after) : NotDeeper after := by
  cases e with
  | request user mode | defaultSet sleepMode =>
    cases ran
    simp [NotDeeper]
  | release user mode =>
    obtain ⟨-, ⟨⟩⟩ := Option.ite_none_right_eq_some.mp ran
    simp [NotDeeper]
  | idle env =>
    cases ran
    intro entered enters mode requested
    exact (rtSystemPowerManager_entered enters).trans (acc.select_le requested)

omit [DecidableEq User] in
theorem Accounted.stalls (acc : Accounted s) (notDeeper : NotDeeper s) : Stalls s where
  shallowest := by
    intro mode requested others
    apply Nat.le_antisymm (acc.select_le requested)
    by_contra shallower
    rcases pmSelectSleepMode_cases s.pm with ⟨zeros, -⟩ | ⟨valid, pos, -⟩
    · obtain ⟨valid, pos⟩ := (acc.requested_iff mode).mp requested
      exact pos (zeros mode valid)
    · exact others _ (by omega) ((acc.requested_iff _).mpr ⟨valid, pos⟩)
  default := by
    intro none
    rcases pmSelectSleepMode_cases s.pm with ⟨-, isDefault⟩ | ⟨valid, pos, -⟩
    · exact isDefault
    · exact absurd ((acc.requested_iff _).mpr ⟨valid, pos⟩) (none _)
  notDeeper := notDeeper

/-- The mode selected is the shallowest that is still requested, as long as no counter is
at its end when its mode is requested. -/
theorem stalls_throughout {taken : List (Taken (State User) (Event User))}
    {last : State User} (run : (system : TransitionSystem (State User) (Event User)).Run taken last)
    (every : EveryStep Counts taken) : Throughout Stalls taken last := by
  have base : ∀ s : State User, Initial s → Accounted s ∧ NotDeeper s := by
    intro s init
    refine ⟨initial_accounted init, ?_⟩
    obtain ⟨pm, timerMask, rfl⟩ := init
    simp [NotDeeper]
  have holds := run.throughout_of_everyStep base
    (fun _ _ _ inv counts ran =>
      ⟨step_accounted inv.1 counts ran, step_notDeeper inv.1 ran⟩) every
  exact holds.imp fun _ inv => inv.1.stalls inv.2

def fresh : State Bool where
  pm := rtSystemPmInit
    { modes := fun _ => 0, sleepMode := 0, timerMask := 0, defaultSleep := 1, initFlag := false } 0
  holders := fun _ => []
  requests := fun _ => 0
  releases := fun _ => 0
  entered := none

theorem fresh_initial : Initial fresh := ⟨_, 0, rfl⟩

theorem two_users_stall :
    let events : List (Event Bool) := [.request true 2, .request false 2, .release true 2,
      .idle ⟨true, 0, 0⟩]
    Throughout Stalls (record step [] fresh events)
      ((execute step fresh events).get (by decide +kernel)) :=
  stalls_throughout (Run.executed _ _ fresh_initial _)
    (by decide +kernel)

/-- One user requests light sleep 256 times, and releases it 255 times: the default is
selected, though one request is outstanding. -/
theorem saturated_counter_not_stalls :
    ¬ ∀ (taken : List (Taken (State Bool) (Event Bool))) (last : State Bool),
      (system : TransitionSystem (State Bool) (Event Bool)).Run taken last →
        Throughout Stalls taken last := by
  intro claim
  let events : List (Event Bool) :=
    List.replicate 256 (.request true 2) ++ List.replicate 255 (.release true 2)
  have run : (system : TransitionSystem (State Bool) (Event Bool)).Run _ _ :=
    .executed fresh events fresh_initial (by decide +kernel)
  have selected := (claim _ _ run).1.shallowest 2 ⟨by decide, by decide +kernel⟩ (by decide +kernel)
  exact absurd selected (by decide +kernel)

end RtThread.Pm
