import RtThread.Timer.Standing

/-!
# The activation flag

Outside the checks a timer is activated exactly if it is linked, unless some timeout
function returned with its own timer linked and not periodic: the check then clears the
flag of a running timer, and `rt_timer_stop` refuses to stop it.
-/

open Function (update_of_ne update_self)
open TransitionSystem

namespace RtThread.Timer

universe u

variable {Tmr : Type u} [DecidableEq Tmr]

def State.InCallback (s : State Tmr) (t : Tmr) : Prop :=
  s.hard.callback = some t ∨ s.soft.callback = some t

instance (s : State Tmr) (t : Tmr) : Decidable (s.InCallback t) := instDecidableOr

def FlagsLinked (cfg : Config) (s : State Tmr) : Prop :=
  s.hard = .idle → s.soft = .idle → ∀ t, (s.timers.timer t).isTimer →
    ((s.timers.timer t).Activated ↔ s.timers.Linked cfg t)

def FlagsSettled (cfg : Config) (s : State Tmr) : Prop :=
  ∀ t, ¬ s.InCallback t → (s.timers.timer t).isTimer →
    ((s.timers.timer t).Activated ↔ s.timers.Linked cfg t)

/-- A timer that is linked when its timeout function returns is periodic. -/
def ReturnsPeriodic (cfg : Config) (s : State Tmr) : Event Tmr → Prop
  | .hardCheck => ∀ t ∈ s.hard.callback, s.timers.Linked cfg t →
      (s.timers.timer t).Periodic
  | .softCheck => ∀ t ∈ s.soft.callback, s.timers.Linked cfg t →
      (s.timers.timer t).Periodic
  | _ => True

instance (cfg : Config) (s : State Tmr) :
    (e : Event Tmr) → Decidable (ReturnsPeriodic cfg s e)
  | .hardCheck => inferInstanceAs (Decidable (∀ t ∈ s.hard.callback, _ → _))
  | .softCheck => inferInstanceAs (Decidable (∀ t ∈ s.soft.callback, _ → _))
  | .call _ | .tick => .isTrue trivial

omit [DecidableEq Tmr] in
variable {cfg : Config}

theorem FlagsSettled.flagsLinked {s : State Tmr} (settled : FlagsSettled cfg s) :
    FlagsLinked cfg s := by
  intro hardIdle softIdle t
  apply settled
  rintro (inHard | inSoft)
  · simp [hardIdle, HardCheck.callback] at inHard
  · simp [softIdle, SoftCheck.callback] at inSoft

namespace Timers

variable (s : Timers Tmr)

def Agrees (t : Tmr) : Prop :=
  (s.timer t).isTimer → ((s.timer t).Activated ↔ s.active t = true)

def Covered (t : Tmr) : Prop :=
  s.active t = true → (s.timer t).isTimer ∧ (s.timer t).Activated

end Timers

section Operations

variable {cfg : Config} {s after : Timers Tmr} {t : Tmr}

def Elsewhere (s after : Timers Tmr) (t : Tmr) : Prop :=
  ∀ u, u ≠ t → after.timer u = s.timer u ∧ after.active u = s.active u

omit [DecidableEq Tmr] in
theorem Elsewhere.agrees (elsewhere : Elsewhere s after t) {u : Tmr} (ne : u ≠ t) :
    after.Agrees u ↔ s.Agrees u := by
  rw [Timers.Agrees, (elsewhere u ne).1, (elsewhere u ne).2]
  rfl

omit [DecidableEq Tmr] in
theorem Elsewhere.covered (elsewhere : Elsewhere s after t) {u : Tmr} (ne : u ≠ t) :
    after.Covered u ↔ s.Covered u := by
  rw [Timers.Covered, (elsewhere u ne).1, (elsewhere u ne).2]
  rfl

theorem rtTimerStart_agrees (result : s.rtTimerStart cfg t = some after) :
    Elsewhere s after t ∧ after.Agrees t ∧ after.Covered t := by
  have asserted := asserted_of_rtTimerStart result
  obtain ⟨timerEq, -, activeEq, -, -⟩ := rtTimerStart_fields result
  have isActivated := RtTimer.activated_activate (s.timer t).deactivate
  refine ⟨fun u ne => ?_, ?_, ?_⟩
  · rw [timerEq, activeEq, update_of_ne ne, update_of_ne ne]
    exact ⟨rfl, rfl⟩
  · rw [Timers.Agrees, timerEq, activeEq, update_self, update_self]
    exact fun _ => iff_of_true isActivated rfl
  · rw [Timers.Covered, timerEq, activeEq, update_self, update_self]
    exact fun _ => ⟨asserted.1, isActivated⟩

theorem elsewhere_setTimer (s : Timers Tmr) (t : Tmr) (timer : RtTimer) :
    Elsewhere s (s.setTimer t timer) t := by
  intro u ne
  simp [ne]

theorem elsewhere_remove_setTimer (s : Timers Tmr) (t : Tmr) (timer : RtTimer) :
    Elsewhere s ((s.remove cfg t).setTimer t timer) t := by
  intro u ne
  simp [ne]

theorem setTimer_agrees {timer : RtTimer} (isTimer : timer.isTimer = (s.timer t).isTimer)
    (activated : timer.Activated ↔ (s.timer t).Activated) : Elsewhere s (s.setTimer t timer) t ∧
      (s.Agrees t → (s.setTimer t timer).Agrees t) ∧
      (s.Covered t → (s.setTimer t timer).Covered t) := by
  refine ⟨elsewhere_setTimer s t timer, fun agrees => ?_, fun covered => ?_⟩
  · simpa [Timers.Agrees, isTimer, activated] using agrees
  · simpa [Timers.Covered, isTimer, activated] using covered

theorem Performed.agrees {op : Operation Tmr} (performed : Performed cfg s op after) :
    after = s ∨ ∃ t, Elsewhere s after t ∧ (s.Agrees t → after.Agrees t) ∧
      (s.Covered t → after.Covered t) := by
  cases performed with
  | started r =>
    obtain ⟨elsewhere, agrees, covered⟩ := rtTimerStart_agrees r
    exact .inr ⟨_, elsewhere, fun _ => agrees, fun _ => covered⟩
  | @removed _ t timer _ _ _ cleared =>
    refine .inr ⟨t, elsewhere_remove_setTimer s t timer, fun _ => ?_, fun _ => ?_⟩
    · simpa [Timers.Agrees] using cleared
    · simp [Timers.Covered]
  | updated _ _ isTimer activated => exact .inr ⟨_, setTimer_agrees isTimer activated⟩
  | unchanged => exact .inl rfl

theorem afterTimeout_agrees (covered : s.Covered t) (result : s.afterTimeout cfg t = some after) :
    Elsewhere s after t ∧ (after.Agrees t ↔ (s.active t = true → (s.timer t).Periodic)) ∧
      (after.Agrees t → after.Covered t) := by
  rw [Timers.afterTimeout] at result
  split_ifs at result with again
  · obtain ⟨elsewhere, agrees, coveredAfter⟩ := rtTimerStart_agrees result
    refine ⟨fun u ne => ?_, iff_of_true agrees fun _ => again.1, fun _ => coveredAfter⟩
    rw [(elsewhere u ne).1, (elsewhere u ne).2]
    exact elsewhere_setTimer s t _ u ne
  · cases result
    have cleared := RtTimer.not_activated_deactivate (s.timer t)
    have isTimerKept : (s.timer t).deactivate.isTimer = (s.timer t).isTimer := rfl
    refine ⟨elsewhere_setTimer s t _, ?_, ?_⟩
    · constructor
      · intro agrees isActive
        have := (agrees (by simpa [isTimerKept] using (covered isActive).1)).mpr
          (by simpa using isActive)
        exact absurd (by simpa using this) cleared
      · intro periodic
        have notActive : ¬ s.active t = true := fun isActive =>
          again ⟨periodic isActive, (covered isActive).2⟩
        simp [Timers.Agrees, cleared, notActive]
    · intro agrees isActive
      have isTimer := (covered (by simpa using isActive)).1
      exact ⟨by simpa [isTimerKept] using isTimer,
        (agrees (by simpa [isTimerKept] using isTimer)).mpr isActive⟩

end Operations

section Exactness

variable {cfg : Config} {s after : State Tmr}

omit [DecidableEq Tmr] in
theorem Standing.flagsSettled_iff (standing : Standing cfg s) :
    FlagsSettled cfg s ↔ ∀ t, ¬ s.InCallback t → s.timers.Agrees t := by
  obtain ⟨rows, holds⟩ := standing.rows
  refine forall_congr' fun t => imp_congr_right fun _ => imp_congr_right fun _ => ?_
  rw [holds.linked_iff]

def KeepsFlags (after : State Tmr) (condition : Prop) : Prop :=
  ((∀ t, ¬ after.InCallback t → after.timers.Agrees t) ↔ condition) ∧
    (condition → ∀ t, after.timers.Covered t)

section

variable (covered : ∀ u, s.timers.Covered u) (settled : ∀ u, ¬ s.InCallback u → s.timers.Agrees u)

include covered settled

omit [DecidableEq Tmr] in
theorem keepsFlags_of_elsewhere {t : Tmr} (elsewhere : Elsewhere s.timers after.timers t)
    (callback : ∀ u, u ≠ t → (after.InCallback u ↔ s.InCallback u))
    (agrees : ¬ after.InCallback t → after.timers.Agrees t) (coveredT : after.timers.Covered t) :
    KeepsFlags after True := by
  refine ⟨iff_of_true (fun u outside => ?_) trivial, fun _ u => ?_⟩
  · by_cases same : u = t
    · exact same ▸ agrees (same ▸ outside)
    · rw [elsewhere.agrees same]
      exact settled u (mt (callback u same).mpr outside)
  · by_cases same : u = t
    · exact same ▸ coveredT
    · exact (elsewhere.covered same).mpr (covered u)

theorem keepsFlags_of_afterTimeout {t : Tmr}
    (result : s.timers.afterTimeout cfg t = some after.timers)
    (callback : ∀ u, u ≠ t → (after.InCallback u ↔ s.InCallback u)) (ret : ¬ after.InCallback t) :
    KeepsFlags after (s.timers.active t = true → (s.timers.timer t).Periodic) := by
  obtain ⟨elsewhere, agreesIff, coveredT⟩ := afterTimeout_agrees (covered t) result
  refine ⟨?_, fun periodic u => ?_⟩
  · rw [← agreesIff]
    refine ⟨fun settledAfter => settledAfter t ret, fun agrees u outside => ?_⟩
    by_cases same : u = t
    · exact same ▸ agrees
    · rw [elsewhere.agrees same]
      exact settled u (mt (callback u same).mpr outside)
  · by_cases same : u = t
    · exact same ▸ coveredT (agreesIff.mpr periodic)
    · exact (elsewhere.covered same).mpr (covered u)

theorem keepsFlags_of_remove {t : Tmr} (removed : after.timers = s.timers.remove cfg t)
    (callback : ∀ u, u ≠ t → (after.InCallback u ↔ s.InCallback u)) (called : after.InCallback t) :
    KeepsFlags after True := by
  have elsewhere : Elsewhere s.timers after.timers t := fun u ne => by
    simp [removed, ne]
  refine keepsFlags_of_elsewhere covered settled elsewhere callback (absurd called) ?_
  simp [Timers.Covered, removed]

end

theorem HardStep.keepsFlags (step : HardStep cfg s after) (standing : Standing cfg s)
    (covered : ∀ u, s.timers.Covered u) (settled : ∀ u, ¬ s.InCallback u → s.timers.Agrees u) :
    KeepsFlags after (ReturnsPeriodic cfg s .hardCheck) := by
  obtain ⟨rows, holds⟩ := standing.rows
  have noCallback : s.hard.callback = none →
      (ReturnsPeriodic cfg s .hardCheck ↔ True) := fun none => by
    simp [ReturnsPeriodic, none]
  cases step with
  | @moved hard before behind =>
    rw [noCallback before]
    refine ⟨iff_of_true (fun u outside => settled u fun inCallback => outside ?_) trivial,
      fun _ => covered⟩
    rcases inCallback with inHard | inSoft
    · simp [before] at inHard
    · exact .inr inSoft
  | @invoked _ t stands _ _ =>
    have before : s.hard.callback = none := by rw [stands]; rfl
    rw [noCallback before]
    refine keepsFlags_of_remove covered settled rfl (fun u ne => ?_) (.inl rfl)
    simp [State.InCallback, HardCheck.callback, stands, ne.symm]
  | @returned t timers stands returned =>
    have isCallback : s.hard.callback = some t := by rw [stands]; rfl
    have cond : ReturnsPeriodic cfg s .hardCheck ↔
        (s.timers.active t = true → (s.timers.timer t).Periodic) := by
      simp [ReturnsPeriodic, isCallback, holds.linked_iff]
    rw [cond]
    refine keepsFlags_of_afterTimeout covered settled returned (fun u ne => ?_) ?_
    · simp [State.InCallback, HardCheck.callback, stands, ne.symm]
    · rintro (inHard | inSoft)
      · cases inHard
      · have ne := (standing.hardList t isCallback).symm.trans (standing.softList t inSoft)
        cases ne

theorem SoftStep.keepsFlags (step : SoftStep cfg s after)
    (standing : Standing cfg s) (hardIdle : s.hard = .idle) (covered : ∀ u, s.timers.Covered u)
    (settled : ∀ u, ¬ s.InCallback u → s.timers.Agrees u) :
    KeepsFlags after (ReturnsPeriodic cfg s .softCheck) := by
  obtain ⟨rows, holds⟩ := standing.rows
  have noCallback : s.soft.callback = none →
      (ReturnsPeriodic cfg s .softCheck ↔ True) := fun none => by
    simp [ReturnsPeriodic, none]
  have unchanged : ∀ soft : SoftCheck Tmr, s.soft.callback = none → soft.callback = none →
      KeepsFlags { s with soft } (ReturnsPeriodic cfg s .softCheck) := by
    intro soft before behind
    rw [noCallback before]
    refine ⟨iff_of_true (fun u outside => settled u fun inCallback => outside ?_) trivial,
      fun _ => covered⟩
    rcases inCallback with inHard | inSoft
    · exact .inl inHard
    · simp [before] at inSoft
  cases step with
  | entered stands | began stands | left stands _ => exact unchanged _ (by rw [stands]; rfl) rfl
  | @invoked _ _ t stands _ _ =>
    have before : s.soft.callback = none := by rw [stands]; rfl
    rw [noCallback before]
    refine keepsFlags_of_remove covered settled rfl (fun u ne => ?_) (.inr rfl)
    simp [State.InCallback, SoftCheck.callback, stands, ne.symm]
  | @returned t node timers stands returned =>
    have isCallback : s.soft.callback = some t := by rw [stands]; rfl
    have cond : ReturnsPeriodic cfg s .softCheck ↔
        (s.timers.active t = true → (s.timers.timer t).Periodic) := by
      simp [ReturnsPeriodic, isCallback, holds.linked_iff]
    rw [cond]
    refine keepsFlags_of_afterTimeout covered settled returned (fun u ne => ?_) ?_
    · simp [State.InCallback, SoftCheck.callback, stands, ne.symm]
    · rintro (inHard | inSoft)
      · simp [hardIdle, HardCheck.callback] at inHard
      · cases inSoft

theorem Step.keepsFlags {e : Event Tmr} (step : Step cfg s e after) (standing : Standing cfg s)
    (covered : ∀ u, s.timers.Covered u) (settled : ∀ u, ¬ s.InCallback u → s.timers.Agrees u) :
    KeepsFlags after (ReturnsPeriodic cfg s e) := by
  cases step with
  | called _ performed =>
    rcases performed.agrees with rfl | ⟨t, elsewhere, agrees, coveredT⟩
    · exact ⟨iff_of_true settled trivial, fun _ => covered⟩
    · exact keepsFlags_of_elsewhere covered settled elsewhere (fun _ _ => Iff.rfl)
        (fun outside => agrees (settled t outside)) (coveredT (covered t))
  | ticked => exact ⟨iff_of_true settled trivial, fun _ => covered⟩
  | hard step => exact step.keepsFlags standing covered settled
  | soft hardIdle step => exact step.keepsFlags standing hardIdle covered settled

end Exactness

omit [DecidableEq Tmr] in
theorem State.Initial.flagsSettled {s : State Tmr} (init : s.Initial) :
    (Standing cfg s ∧ ∀ u, s.timers.Covered u) ∧ FlagsSettled cfg s := by
  have standing : Standing cfg s := init.standing
  refine ⟨⟨standing, fun u isActive => ?_⟩, standing.flagsSettled_iff.mpr fun u _ _ => ?_⟩
  · simp [init.inactive] at isActive
  · simp [init.inactive, init.deactivated]

theorem flagsSettled_throughout_iff {taken : List (Taken (State Tmr) (Event Tmr))}
    {last : State Tmr} (run : (system cfg).Run taken last) :
    Throughout (FlagsSettled cfg) taken last ↔ EveryStep (ReturnsPeriodic cfg) taken := by
  have base : ∀ s : State Tmr, s.Initial →
      (Standing cfg s ∧ ∀ u, s.timers.Covered u) ∧ FlagsSettled cfg s :=
    fun _ init => init.flagsSettled
  refine run.throughout_iff_everyStep_while base ?_ ?_
  · rintro s e after ⟨standing, covered⟩ settled periodic step
    have keeps := (step_cases step).keepsFlags standing covered
      (standing.flagsSettled_iff.mp settled)
    exact ⟨standing.step step, keeps.2 periodic⟩
  · rintro s e after ⟨standing, covered⟩ settled step
    have keeps := (step_cases step).keepsFlags standing covered
      (standing.flagsSettled_iff.mp settled)
    rw [(standing.step step).flagsSettled_iff, keeps.1]

/-- In every run in which a timer that is linked when its timeout function returns is
periodic, a timer is activated exactly if it is linked, in every state outside the checks. -/
theorem flagsLinked_throughout {cfg : Config}
    {taken : List (Taken (State Tmr) (Event Tmr))} {last : State Tmr}
    (run : (system cfg).Run taken last) (periodic : EveryStep (ReturnsPeriodic cfg) taken) :
    Throughout (FlagsLinked cfg) taken last :=
  ((flagsSettled_throughout_iff run).mpr periodic).imp fun _ settled => settled.flagsLinked

/-- A periodic timer stops and restarts itself, and a one-shot soft timer restarts it. -/
def restartPeriodic : List (Event Bool) :=
  [.call (.start false), .call (.start true), .tick, .hardCheck, .hardCheck,
    .call (.stop false), .call (.start false), .hardCheck, .hardCheck, .tick, .softCheck,
    .softCheck, .softCheck, .call (.start false), .softCheck, .softCheck]

theorem restarted_periodic_flagsLinked : Throughout (FlagsLinked rtConfig)
      (record (State.step rtConfig) []
        (fresh (cond · 2 1) (cond · softFlag periodicFlag) 0) restartPeriodic)
      ((execute (State.step rtConfig)
        (fresh (cond · 2 1) (cond · softFlag periodicFlag) 0) restartPeriodic).get
          (by decide +kernel)) :=
  flagsLinked_throughout (Run.executed _ _ (fresh_initial _ _ _) _) (by decide +kernel)

theorem rtTimerStop_of_not_activated {s : Timers Tmr} {t : Tmr} (isTimer : (s.timer t).isTimer)
    (notActivated : ¬ (s.timer t).Activated) : s.rtTimerStop cfg t = some (.error, s) := by
  rw [Timers.rtTimerStop, if_pos isTimer, if_neg notActivated]

def restartOneshot : List (Event Unit) :=
  [.call (.start ()), .tick, .hardCheck, .hardCheck, .call (.start ()), .hardCheck, .hardCheck]

def restartedOneshot : State Unit :=
  (execute (State.step rtConfig) (fresh (fun _ => 1) (fun _ => 0) 0)
    restartOneshot).get (by decide +kernel)

/-- A one-shot timer that its timeout function starts again is linked behind the check and
not activated, and `rt_timer_stop` leaves it there. -/
theorem restarted_oneshot_not_flagsLinked :
    ∃ (taken : List (Taken (State Unit) (Event Unit))) (last : State Unit),
      (system rtConfig).Run taken last ∧ ¬ Throughout (FlagsLinked rtConfig) taken last ∧
        last.timers.Linked rtConfig () ∧
        last.timers.rtTimerStop rtConfig () = some (.error, last.timers) := by
  have run : (system rtConfig).Run _ restartedOneshot := Run.executed _ _ (fresh_initial _ _ _) _
  have isLinked : restartedOneshot.timers.Linked rtConfig () := by decide +kernel
  have isTimer : (restartedOneshot.timers.timer ()).isTimer := by decide +kernel
  have notActivated : ¬ (restartedOneshot.timers.timer ()).Activated := by decide +kernel
  refine ⟨_, _, run, ?_, isLinked, rtTimerStop_of_not_activated isTimer notActivated⟩
  rintro ⟨flags, -⟩
  exact notActivated ((flags (by decide +kernel) (by decide +kernel) () isTimer).mpr isLinked)

end RtThread.Timer
