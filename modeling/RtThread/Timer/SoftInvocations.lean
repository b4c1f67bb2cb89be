import RtThread.Timer.Standing

/-!
# What `rt_soft_timer_check` invokes

The check goes on with a node that it read before it ran a timeout function.
-/

open TransitionSystem

namespace RtThread.Timer

universe u

variable {Tmr : Type u}

def InvokedLive (s : State Tmr) : Prop :=
  (∀ invocation ∈ s.invoked, invocation.live = true) ∧
    (s.invoked.map fun invocation => (invocation.timer, invocation.startedAt)).Nodup

/-- Whether the timer that the loop goes on with is linked, if it is due. -/
def SoftCheck.MeetsLinked (cfg : Config) (timers : Timers Tmr) : SoftCheck Tmr → Prop
  | .looping currentTick node =>
    ∀ t ∈ Timers.entryOf node, timers.Due currentTick t → timers.Linked cfg t
  | _ => True

def MeetsLinked (cfg : Config) (s : State Tmr) : Event Tmr → Prop
  | .softCheck => s.soft.MeetsLinked cfg s.timers
  | _ => True

structure Recorded (s : State Tmr) : Prop where
  startedAt : ∀ t, s.timers.startedAt t ≤ s.timers.starts
  invokedAt : ∀ invocation ∈ s.invoked, invocation.startedAt ≤ s.timers.starts
  ended : ∀ t, s.timers.active t = true → ∀ invocation ∈ s.invoked,
    (invocation.timer, invocation.startedAt) ≠ (t, s.timers.startedAt t)

theorem State.Initial.recorded {s : State Tmr} (init : s.Initial) : Recorded s where
  startedAt t := (init.startedAt t).trans_le (Nat.zero_le _)
  invokedAt := by simp [init.invoked]
  ended := by simp [init.invoked]

theorem State.Initial.invokedLive {s : State Tmr} (init : s.Initial) : InvokedLive s := by
  simp [InvokedLive, init.invoked]

variable [DecidableEq Tmr] {cfg : Config}

structure StartsGrow (s after : Timers Tmr) : Prop where
  starts : s.starts ≤ after.starts
  startedAt : ∀ t, after.startedAt t = s.startedAt t ∨ after.startedAt t ≤ after.starts
  active : ∀ t, after.active t = true →
    s.active t = true ∧ after.startedAt t = s.startedAt t ∨
      s.starts < after.startedAt t

theorem Change.startsGrow {s s' : Timers Tmr} (change : Change cfg s s') :
    s'.starts = s.starts ∧ s'.startedAt = s.startedAt ∧
      ∀ t, s'.active t = true → s.active t = true := by
  cases change with
  | tick | update => exact ⟨rfl, rfl, fun _ => id⟩
  | remove t =>
    refine ⟨rfl, rfl, fun u isActive => ?_⟩
    by_cases same : u = t
    · simp [same] at isActive
    · simpa [same] using isActive

theorem Effect.startsGrow {s s' : Timers Tmr} (effect : Effect cfg s s') : StartsGrow s s' := by
  obtain ⟨middle, changes, outcome⟩ := effect
  have atMiddle : middle.starts = s.starts ∧ middle.startedAt = s.startedAt ∧
      ∀ t, middle.active t = true → s.active t = true := by
    clear outcome
    induction changes with
    | refl => exact ⟨rfl, rfl, fun _ => id⟩
    | tail _ change ih =>
      obtain ⟨starts, startedAt, active⟩ := change.startsGrow
      obtain ⟨starts', startedAt', active'⟩ := ih
      exact ⟨starts.trans starts', startedAt.trans startedAt', fun t isActive =>
        active' t (active t isActive)⟩
  obtain ⟨starts, startedAt, active⟩ := atMiddle
  rcases outcome with rfl | ⟨u, started⟩
  · exact ⟨starts.ge, fun t => .inl (congrFun startedAt t), fun t isActive =>
      .inl ⟨active t isActive, congrFun startedAt t⟩⟩
  · obtain ⟨-, -, activeEq, startedAtEq, startsEq⟩ := rtTimerStart_fields started
    rw [starts] at startedAtEq startsEq
    refine ⟨startsEq ▸ Nat.le_succ _, fun t => ?_, fun t isActive => ?_⟩
    · rw [startedAtEq, startsEq, startedAt]
      by_cases same : t = u
      · rw [same, Function.update_self]
        exact .inr (Nat.le_refl _)
      · rw [Function.update_of_ne same]
        exact .inl rfl
    · rw [startedAtEq, startedAt]
      by_cases same : t = u
      · rw [same, Function.update_self]
        exact .inr (Nat.lt_succ_self _)
      · rw [activeEq, Function.update_of_ne same] at isActive
        rw [Function.update_of_ne same]
        exact .inl ⟨active t isActive, rfl⟩

theorem Recorded.of_effect {s s' : State Tmr} (recorded : Recorded s)
    (effect : Effect cfg s.timers s'.timers) (same : s'.invoked = s.invoked) : Recorded s' := by
  obtain ⟨starts, startedAt, active⟩ := effect.startsGrow
  refine ⟨fun t => ?_, ?_, fun t isActive => ?_⟩
  · rcases startedAt t with kept | bounded
    · rw [kept]
      exact (recorded.startedAt t).trans starts
    · exact bounded
  · rw [same]
    exact fun invocation mem => (recorded.invokedAt invocation mem).trans starts
  · rw [same]
    intro invocation mem
    rcases active t isActive with ⟨wasActive, kept⟩ | later
    · rw [kept]
      exact recorded.ended t wasActive invocation mem
    · intro equal
      have startedThen := recorded.invokedAt invocation mem
      rw [(Prod.mk.inj equal).2] at startedThen
      exact absurd later (Nat.not_lt.mpr startedThen)

theorem SoftStep.invokedLive_iff {s s' : State Tmr} (step : SoftStep cfg s s')
    (standing : Standing cfg s) (recorded : Recorded s) (live : InvokedLive s) :
    Recorded s' ∧ (InvokedLive s' ↔ s.soft.MeetsLinked cfg s.timers) := by
  obtain ⟨rows, holds⟩ := standing.rows
  have effect := step.effect
  cases step with
  | entered stands | began stands | returned stands _ =>
    exact ⟨recorded.of_effect effect rfl, iff_of_true live (by rw [stands]; trivial)⟩
  | left stands notDue =>
    refine ⟨recorded.of_effect effect rfl, iff_of_true live ?_⟩
    rw [stands]
    exact fun t isEntry due => absurd due (notDue t isEntry)
  | @invoked currentTick node t stands entry due =>
    have cond : s.soft.MeetsLinked cfg s.timers ↔
        s.timers.active t = true := by
      rw [stands, SoftCheck.MeetsLinked, entry]
      simp [due, holds.linked_iff]
    rw [cond]
    obtain ⟨startedAt, invokedAt, ended⟩ := recorded
    refine ⟨⟨startedAt, ?_, ?_⟩, ?_, ?_⟩
    · exact List.forall_mem_cons.mpr ⟨startedAt t, invokedAt⟩
    · intro u isActive
      have ne : u ≠ t := fun same => by simp [same] at isActive
      have wasActive : s.timers.active u = true := by simpa [ne] using isActive
      refine List.forall_mem_cons.mpr ⟨?_, ended u wasActive⟩
      exact fun equal => ne (Prod.mk.inj equal).1.symm
    · exact fun liveAfter => liveAfter.1 _ List.mem_cons_self
    · intro isActive
      refine ⟨List.forall_mem_cons.mpr ⟨isActive, live.1⟩, ?_⟩
      rw [List.map_cons, List.nodup_cons]
      refine ⟨?_, live.2⟩
      rintro mem
      obtain ⟨invocation, earlier, equal⟩ := List.mem_map.mp mem
      exact ended t isActive invocation earlier equal

theorem Step.invokedLive_iff {s s' : State Tmr} {e : Event Tmr} (step : Step cfg s e s')
    (standing : Standing cfg s) (recorded : Recorded s) (live : InvokedLive s) :
    Recorded s' ∧ (InvokedLive s' ↔ MeetsLinked cfg s e) := by
  have effect := step.effect
  cases step with
  | called | ticked => exact ⟨recorded.of_effect effect rfl, iff_of_true live trivial⟩
  | hard step =>
    have same : s'.invoked = s.invoked := by cases step <;> rfl
    refine ⟨recorded.of_effect effect same, iff_of_true ?_ trivial⟩
    rwa [InvokedLive, same]
  | soft _ step => exact step.invokedLive_iff standing recorded live

/-- Over any run only started timers are invoked, each start at most once, exactly if the
check never finds a node that was unlinked and is due. -/
theorem invokedLive_throughout_iff {taken : List (Taken (State Tmr) (Event Tmr))} {last : State Tmr}
    (run : (system cfg).Run taken last) : Throughout InvokedLive taken last ↔
      EveryStep (MeetsLinked cfg) taken := by
  have base : ∀ s : State Tmr, s.Initial →
      (Standing cfg s ∧ Recorded s) ∧ InvokedLive s :=
    fun _ init => ⟨⟨init.standing, init.recorded⟩, init.invokedLive⟩
  refine run.throughout_iff_everyStep_while base ?_ ?_
  · rintro s e s' ⟨standing, recorded⟩ live _ step
    exact ⟨standing.step step, ((step_cases step).invokedLive_iff standing recorded live).1⟩
  · rintro s e s' ⟨standing, recorded⟩ live step
    exact ((step_cases step).invokedLive_iff standing recorded live).2

instance (cfg : Config) (timers : Timers Tmr) :
    (soft : SoftCheck Tmr) → Decidable (soft.MeetsLinked cfg timers)
  | .looping currentTick node =>
    inferInstanceAs (Decidable (∀ t ∈ Timers.entryOf node, timers.Due currentTick t → _))
  | .idle | .entered _ | .calling .. => .isTrue trivial

instance (cfg : Config) (s : State Tmr) :
    (e : Event Tmr) → Decidable (MeetsLinked cfg s e)
  | .softCheck => inferInstanceAs (Decidable (s.soft.MeetsLinked cfg s.timers))
  | .call _ | .tick | .hardCheck => .isTrue trivial

/-- Two soft timers: the first stops the second, whose node is the next one, and starts it
again. -/
def restartNext : List (Event Bool) :=
  [.call (.start false), .call (.start true), .tick, .softCheck, .softCheck, .softCheck,
    .call (.stop true), .call (.start true), .softCheck, .softCheck]

theorem restartNext_invokedLive : Throughout InvokedLive (record (State.step rtConfig) []
        (fresh (fun _ => 1) (fun _ => softFlag) 0) restartNext) ((execute (State.step rtConfig)
        (fresh (fun _ => 1) (fun _ => softFlag) 0) restartNext).get (by decide +kernel)) :=
  (invokedLive_throughout_iff (Run.executed _ _ (fresh_initial _ _ _) _)).mpr (by decide +kernel)

def stopNext : List (Event Bool) :=
  [.call (.start false), .call (.start true), .tick, .softCheck, .softCheck, .softCheck,
    .call (.stop true), .softCheck, .softCheck]

def stoppedNext : State Bool :=
  (execute (State.step rtConfig) (fresh (fun _ => 1) (fun _ => softFlag) 0)
    stopNext).get (by decide +kernel)

/-- A timer that another timer's timeout function has stopped is invoked, and its node
leads to itself: the check goes on with it. -/
theorem stoppedNext_not_invokedLive :
    ∃ (taken : List (Taken (State Bool) (Event Bool))) (last : State Bool),
      (system rtConfig).Run taken last ∧ ¬ Throughout InvokedLive taken last ∧
        last.soft = .calling true (.entry ⟨true, 0⟩) ∧ last.timers.active true = false := by
  have run : (system rtConfig).Run _ stoppedNext := Run.executed _ _ (fresh_initial _ _ _) _
  refine ⟨_, _, run, ?_, by decide +kernel, by decide +kernel⟩
  rintro ⟨live, -⟩
  have isLive := live.1 ⟨true, 2, false⟩ (by decide +kernel)
  cases isLive

end RtThread.Timer
