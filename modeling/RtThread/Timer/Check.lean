import RtThread.Library.TransitionSystem
import RtThread.Timer.Insertion

/-!
# The checks of the timers

`rt_timer_check`, which the tick interrupt calls, and `rt_soft_timer_check`, which the
timer thread calls, among callers that start, stop, detach and control timers.  A
timeout function may make any of these calls, between the step that invokes it and the
step that it returns in.

`rt_timer_check` runs with interrupts disabled, so nothing else happens unless it is in a
timeout function.  `rt_soft_timer_check` only locks the scheduler: interrupt handlers run
between its steps.
-/

namespace RtThread.Timer

universe u

inductive HardCheck (Tmr : Type u) where
  | idle
  | looping (currentTick : BitVec 32)
  /-- In `timeout_func` of the timer. -/
  | calling (t : Tmr)
  deriving DecidableEq

def HardCheck.Open {Tmr : Type u} : HardCheck Tmr → Prop
  | .looping _ => False
  | _ => True

instance {Tmr : Type u} : (hard : HardCheck Tmr) → Decidable hard.Open
  | .idle => .isTrue trivial
  | .looping _ => .isFalse id
  | .calling _ => .isTrue trivial

/-- Where `rt_soft_timer_check` stands; `node` is its variable `n`. -/
inductive SoftCheck (Tmr : Type u) where
  | idle
  | entered (currentTick : BitVec 32)
  | looping (currentTick : BitVec 32) (node : Node Tmr)
  | calling (t : Tmr) (node : Node Tmr)
  deriving DecidableEq

/-- An invocation of a soft timer's `timeout_func`: which start of the timer it belongs
to, and whether that start was neither stopped, detached nor expired. -/
structure Invocation (Tmr : Type u) where
  timer : Tmr
  startedAt : Nat
  live : Bool
  deriving DecidableEq

structure State (Tmr : Type u) where
  timers : Timers Tmr
  hard : HardCheck Tmr
  soft : SoftCheck Tmr
  invoked : List (Invocation Tmr)

inductive Operation (Tmr : Type u) where
  | start (t : Tmr)
  | stop (t : Tmr)
  | detach (t : Tmr)
  | control (t : Tmr) (cmd : ControlCmd)

/-- A call by anyone, the tick, or a step of one of the checks. -/
inductive Event (Tmr : Type u) where
  | call (operation : Operation Tmr)
  | tick
  | hardCheck
  | softCheck

variable {Tmr : Type u} [DecidableEq Tmr]

namespace Timers

variable (s : Timers Tmr)

/-- What a check does to a timer behind `timeout_func`. -/
def afterTimeout (cfg : Config) (t : Tmr) : Option (Timers Tmr) :=
  let timer := s.timer t
  let s := s.setTimer t timer.deactivate
  if timer.Periodic ∧ timer.Activated then s.rtTimerStart cfg t else some s

def perform (cfg : Config) : Operation Tmr → Option (Timers Tmr)
  | .start t => s.rtTimerStart cfg t
  | .stop t => (s.rtTimerStop cfg t).map Prod.snd
  | .detach t => s.rtTimerDetach cfg t
  | .control t cmd => s.rtTimerControl t cmd

end Timers

namespace State

def rtTimerCheck (cfg : Config) (s : State Tmr) : Option (State Tmr) :=
  match s.hard with
  | .idle => some { s with hard := .looping s.timers.tick }
  | .looping currentTick =>
    match Timers.entryOf (s.timers.links.next (.head (.hard, cfg.level - 1))) with
    | none => some { s with hard := .idle }
    | some t =>
      if s.timers.Due currentTick t then
        some { s with timers := s.timers.remove cfg t, hard := .calling t }
      else some { s with hard := .idle }
  | .calling t => do
      let timers ← s.timers.afterTimeout cfg t
      some { s with timers, hard := .looping s.timers.tick }

def rtSoftTimerCheck (cfg : Config) (s : State Tmr) : Option (State Tmr) :=
  match s.soft with
  | .idle => some { s with soft := .entered s.timers.tick }
  | .entered currentTick =>
    let node := s.timers.links.next (.head (.soft, cfg.level - 1))
    some { s with soft := .looping currentTick node }
  | .looping currentTick node =>
    match Timers.entryOf node with
    | none => some { s with soft := .idle }
    | some t =>
      if s.timers.Due currentTick t then
        some
          { s with
            timers := s.timers.remove cfg t
            soft := .calling t (s.timers.links.next node)
            invoked := ⟨t, s.timers.startedAt t, s.timers.active t⟩ :: s.invoked }
      else some { s with soft := .idle }
  | .calling t node => do
      let timers ← s.timers.afterTimeout cfg t
      some { s with timers, soft := .looping s.timers.tick node }

def step (cfg : Config) (s : State Tmr) : Event Tmr → Option (State Tmr)
  | .call operation =>
    if s.hard.Open then
      (s.timers.perform cfg operation).map fun timers => { s with timers }
    else none
  | .tick =>
    if s.hard.Open then
      some { s with timers := { s.timers with tick := s.timers.tick + 1 } }
    else none
  | .hardCheck => s.rtTimerCheck cfg
  | .softCheck => if s.hard = .idle then s.rtSoftTimerCheck cfg else none

structure Initial (s : State Tmr) : Prop where
  links : s.timers.links = Links.selfLinked
  deactivated : ∀ t, ¬ (s.timers.timer t).Activated
  inactive : ∀ t, s.timers.active t = false
  startedAt : ∀ t, s.timers.startedAt t = 0
  hard : s.hard = .idle
  soft : s.soft = .idle
  invoked : s.invoked = []

end State

def system (cfg : Config) : TransitionSystem (State Tmr) (Event Tmr) :=
  TransitionSystem.ofFunction State.Initial (State.step cfg)

def rtConfig : Config := ⟨1, 0x3, Nat.one_pos⟩

def fresh (time : Tmr → BitVec 32) (flag : Tmr → BitVec 8) (tick : BitVec 32) : State Tmr where
  timers :=
    { links := Links.selfLinked
      timer := fun t => RtTimer.init (time t) (flag t)
      tick
      randomNr := 0
      active := fun _ => false
      startedAt := fun _ => 0
      starts := 0 }
  hard := .idle
  soft := .idle
  invoked := []

omit [DecidableEq Tmr] in
theorem fresh_initial (time : Tmr → BitVec 32) (flag : Tmr → BitVec 8) (tick : BitVec 32) :
    (fresh time flag tick).Initial where
  links := rfl
  deactivated t := RtTimer.not_activated_init (time t) (flag t)
  inactive _ := rfl
  startedAt _ := rfl
  hard := rfl
  soft := rfl
  invoked := rfl

section Steps

variable {cfg : Config}

/-- What the operations do.  `rt_timer_stop` and `rt_timer_detach` leave no timer activated
that is a timer still. -/
inductive Performed (cfg : Config) (s : Timers Tmr) :
    Operation Tmr → Timers Tmr → Prop where
  | started {t : Tmr} {after : Timers Tmr} : s.rtTimerStart cfg t = some after →
      Performed cfg s (.start t) after
  | removed {operation : Operation Tmr} {t : Tmr} {timer : RtTimer} :
      operation = .stop t ∨ operation = .detach t →
      timer.timerList = (s.timer t).timerList →
      timer.timeoutTick = (s.timer t).timeoutTick →
      (timer.isTimer → ¬ timer.Activated) →
      Performed cfg s operation ((s.remove cfg t).setTimer t timer)
  | updated {operation : Operation Tmr} {t : Tmr} {timer : RtTimer} :
      timer.timerList = (s.timer t).timerList →
      timer.timeoutTick = (s.timer t).timeoutTick →
      timer.isTimer = (s.timer t).isTimer →
      (timer.Activated ↔ (s.timer t).Activated) →
      Performed cfg s operation (s.setTimer t timer)
  | unchanged (operation : Operation Tmr) : Performed cfg s operation s

def HardCheck.callback : HardCheck Tmr → Option Tmr
  | .calling t => some t
  | _ => none

def SoftCheck.callback : SoftCheck Tmr → Option Tmr
  | .calling t _ => some t
  | _ => none

inductive HardStep (cfg : Config) (s : State Tmr) : State Tmr → Prop where
  | moved {hard : HardCheck Tmr} : s.hard.callback = none → hard.callback = none →
      HardStep cfg s { s with hard }
  | invoked {currentTick : BitVec 32} {t : Tmr} : s.hard = .looping currentTick →
      Timers.entryOf (s.timers.links.next (.head (.hard, cfg.level - 1))) = some t →
      s.timers.Due currentTick t →
      HardStep cfg s
        { s with timers := s.timers.remove cfg t, hard := .calling t }
  | returned {t : Tmr} {timers : Timers Tmr} : s.hard = .calling t →
      s.timers.afterTimeout cfg t = some timers →
      HardStep cfg s { s with timers, hard := .looping s.timers.tick }

inductive SoftStep (cfg : Config) (s : State Tmr) : State Tmr → Prop where
  | entered : s.soft = .idle →
      SoftStep cfg s { s with soft := .entered s.timers.tick }
  | began {currentTick : BitVec 32} : s.soft = .entered currentTick →
      SoftStep cfg s
        { s with
          soft := .looping currentTick
            (s.timers.links.next (.head (.soft, cfg.level - 1))) }
  | left {currentTick : BitVec 32} {node : Node Tmr} : s.soft = .looping currentTick node →
      (∀ t, Timers.entryOf node = some t → ¬ s.timers.Due currentTick t) →
      SoftStep cfg s { s with soft := .idle }
  | invoked {currentTick : BitVec 32} {node : Node Tmr} {t : Tmr} :
      s.soft = .looping currentTick node → Timers.entryOf node = some t →
      s.timers.Due currentTick t →
      SoftStep cfg s
        { s with
          timers := s.timers.remove cfg t
          soft := .calling t (s.timers.links.next node)
          invoked := ⟨t, s.timers.startedAt t, s.timers.active t⟩ :: s.invoked }
  | returned {t : Tmr} {node : Node Tmr} {timers : Timers Tmr} : s.soft = .calling t node →
      s.timers.afterTimeout cfg t = some timers →
      SoftStep cfg s { s with timers, soft := .looping s.timers.tick node }

inductive Step (cfg : Config) (s : State Tmr) : Event Tmr → State Tmr → Prop where
  | called {operation : Operation Tmr} {timers : Timers Tmr} : s.hard.Open →
      Performed cfg s.timers operation timers →
      Step cfg s (.call operation) { s with timers }
  | ticked : s.hard.Open →
      Step cfg s .tick
        { s with timers := { s.timers with tick := s.timers.tick + 1 } }
  | hard {after : State Tmr} : HardStep cfg s after → Step cfg s .hardCheck after
  | soft {after : State Tmr} : s.hard = .idle → SoftStep cfg s after →
      Step cfg s .softCheck after

theorem performed_of_perform {s s' : Timers Tmr} {op : Operation Tmr}
    (result : s.perform cfg op = some s') : Performed cfg s op s' := by
  cases op with
  | start t => exact .started result
  | stop t =>
    simp only [Timers.perform, Timers.rtTimerStop] at result
    split_ifs at result
    · cases result
      exact .removed (.inl rfl) (RtTimer.timerList_deactivate _) rfl fun _ =>
        RtTimer.not_activated_deactivate _
    · cases result
      exact .unchanged _
    · cases result
  | detach t =>
    simp only [Timers.perform, Timers.rtTimerDetach] at result
    split_ifs at result
    cases result
    exact .removed (.inr rfl) rfl rfl nofun
  | control t cmd =>
    simp only [Timers.perform, Timers.rtTimerControl] at result
    split_ifs at result
    cases cmd with
    | getTime =>
      cases result
      exact .unchanged _
    | setTime time =>
      cases result
      exact .updated rfl rfl rfl Iff.rfl
    | setOneshot =>
      cases result
      exact .updated (RtTimer.timerList_oneshot _) rfl rfl (RtTimer.activated_oneshot _)
    | setPeriodic =>
      cases result
      exact .updated (RtTimer.timerList_periodic _) rfl rfl (RtTimer.activated_periodic _)

theorem hardStep_of_rtTimerCheck {s s' : State Tmr}
    (result : s.rtTimerCheck cfg = some s') : HardStep cfg s s' := by
  rw [State.rtTimerCheck] at result
  cases stands : s.hard with
  | idle =>
    rw [stands] at result
    cases result
    exact .moved (by rw [stands]; rfl) rfl
  | looping currentTick =>
    rw [stands] at result
    dsimp only at result
    have noCallback : s.hard.callback = none := by rw [stands]; rfl
    split at result
    · cases result
      exact .moved noCallback rfl
    · split_ifs at result with due
      · cases result
        exact .invoked stands ‹_› due
      · cases result
        exact .moved noCallback rfl
  | calling t =>
    rw [stands] at result
    obtain ⟨timers, ret, rest⟩ := Option.bind_eq_some_iff.mp result
    cases rest
    exact .returned stands ret

theorem softStep_of_rtSoftTimerCheck {s s' : State Tmr}
    (result : s.rtSoftTimerCheck cfg = some s') : SoftStep cfg s s' := by
  rw [State.rtSoftTimerCheck] at result
  cases stands : s.soft with
  | idle =>
    rw [stands] at result
    cases result
    exact .entered stands
  | entered currentTick =>
    rw [stands] at result
    cases result
    exact .began stands
  | looping currentTick n =>
    rw [stands] at result
    dsimp only at result
    cases entry : Timers.entryOf n with
    | none =>
      rw [entry] at result
      cases result
      exact .left stands (by simp [entry])
    | some t =>
      rw [entry] at result
      dsimp only at result
      split_ifs at result with due
      · cases result
        exact .invoked stands entry due
      · cases result
        exact .left stands fun other isOther => by
          obtain rfl := Option.some.inj (entry.symm.trans isOther)
          exact due
  | calling t n =>
    rw [stands] at result
    obtain ⟨timers, ret, rest⟩ := Option.bind_eq_some_iff.mp result
    cases rest
    exact .returned stands ret

theorem step_cases {s s' : State Tmr} {e : Event Tmr}
    (result : s.step cfg e = some s') : Step cfg s e s' := by
  cases e with
  | call op =>
    rw [State.step] at result
    split_ifs at result with isOpen
    obtain ⟨timers, performed, rfl⟩ := Option.map_eq_some_iff.mp result
    exact .called isOpen (performed_of_perform performed)
  | tick =>
    rw [State.step] at result
    split_ifs at result with isOpen
    cases result
    exact .ticked isOpen
  | hardCheck => exact .hard (hardStep_of_rtTimerCheck result)
  | softCheck =>
    rw [State.step] at result
    split_ifs at result with hardIdle
    exact .soft hardIdle (softStep_of_rtSoftTimerCheck result)

end Steps

end RtThread.Timer
