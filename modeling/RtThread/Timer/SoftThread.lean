import Mathlib.Data.BitVec
import RtThread.Timer.Check

/-!
# The timer thread

`rt_thread_timer_entry` among threads and interrupt handlers that start soft timers.  The
thread reads the next timeout in one step and suspends itself in a later one; a start
links its timer in one step and wakes the thread in a later one.  The thread's own timer
is a hard timer, which `rt_timer_check` serves: it is kept as the tick it expires at.
-/

open TransitionSystem

namespace RtThread.Timer.SoftThread

universe u

inductive Entry where
  /-- In front of `rt_timer_list_next_timeout`. -/
  | reading
  /-- `RT_TICK_MAX` was read; in front of `rt_thread_suspend`. -/
  | suspending
  /-- In front of `rt_tick_get`. -/
  | readingTick (nextTimeout : BitVec 32)
  /-- In front of `rt_thread_delay`. -/
  | delaying (nextTimeout : BitVec 32)
  /-- In `rt_schedule`, behind either suspension. -/
  | suspended
  /-- In `rt_soft_timer_check`, or in front of it. -/
  | checking
  deriving DecidableEq

/-- The timers, the timer thread, and how many starts have linked a soft timer and not
come to the test of the thread's `stat` yet. -/
structure State (Tmr : Type u) where
  base : Timer.State Tmr
  entry : Entry
  /-- `timeout_tick` of `timer_thread.thread_timer`, while that timer is activated. -/
  threadTimer : Option (BitVec 32)
  wakeups : Nat

/-- The thread makes a step, a soft timer is started, one of the starts comes to its end,
the thread's own timer expires, or a tick passes. -/
inductive Event (Tmr : Type u) where
  | thread
  | start (t : Tmr)
  | wakeup
  | threadTimeout
  | tick

variable {Tmr : Type u} [DecidableEq Tmr]

namespace State

variable (s : State Tmr)

def nextTimeout (cfg : Config) : BitVec 32 :=
  s.base.timers.rtTimerListNextTimeout cfg .soft

def Empty (cfg : Config) : Prop := s.base.timers.Empty cfg .soft

instance (cfg : Config) : Decidable (s.Empty cfg) :=
  inferInstanceAs (Decidable (Timers.Empty _ _ _))

def NotEarlier (cfg : Config) (tick : BitVec 32) : Prop :=
  s.Empty cfg ∨ s.nextTimeout cfg - tick < halfRange

instance (cfg : Config) (tick : BitVec 32) : Decidable (s.NotEarlier cfg tick) := instDecidableOr

def setTimers (timers : Timers Tmr) : State Tmr :=
  { s with base := { s.base with timers } }

end State

def resume (s : State Tmr) : State Tmr :=
  { s with entry := .checking, threadTimer := none }

def rtThreadTimerEntry (cfg : Config) (s : State Tmr) : Option (State Tmr) :=
  match s.entry with
  | .reading =>
    let nextTimeout := s.nextTimeout cfg
    if nextTimeout = rtTickMax then some { s with entry := .suspending }
    else some { s with entry := .readingTick nextTimeout }
  | .suspending => some { s with entry := .suspended, threadTimer := none }
  | .readingTick nextTimeout =>
    let currentTick := s.base.timers.tick
    if nextTimeout - currentTick < halfRange then
      some { s with entry := .delaying (nextTimeout - currentTick) }
    else some { s with entry := .checking }
  | .delaying nextTimeout =>
    some
      { s with
        entry := .suspended
        threadTimer := some (s.base.timers.tick + nextTimeout) }
  | .suspended => none
  | .checking => do
      let base ← s.base.rtSoftTimerCheck cfg
      some { s with base, entry := if base.soft = .idle then .reading else .checking }

/-- The first half of `rt_timer_start` on a soft timer. -/
def startSoft (cfg : Config) (s : State Tmr) (t : Tmr) : Option (State Tmr) :=
  if (s.base.timers.timer t).timerList = .soft then do
    let timers ← s.base.timers.rtTimerStart cfg t
    some { s.setTimers timers with wakeups := s.wakeups + 1 }
  else none

def wakeup (s : State Tmr) : Option (State Tmr) :=
  match s.wakeups with
  | 0 => none
  | wakeups + 1 =>
    let s := { s with wakeups }
    some (if s.entry = .suspended then resume s else s)

/-- `rt_thread_timeout`, when `rt_timer_check` finds the thread's timer due. -/
def threadTimeout (s : State Tmr) : Option (State Tmr) :=
  match s.threadTimer with
  | none => none
  | some timeoutTick =>
    if s.entry = .suspended ∧ s.base.timers.tick - timeoutTick < halfRange then
      some (resume s)
    else none

def step (cfg : Config) (s : State Tmr) : Event Tmr → Option (State Tmr)
  | .thread => rtThreadTimerEntry cfg s
  | .start t => startSoft cfg s t
  | .wakeup => wakeup s
  | .threadTimeout => threadTimeout s
  | .tick => some (s.setTimers { s.base.timers with tick := s.base.timers.tick + 1 })

structure Initial (s : State Tmr) : Prop where
  base : s.base.Initial
  entry : s.entry = .reading
  threadTimer : s.threadTimer = none
  wakeups : s.wakeups = 0

def system (cfg : Config) : TransitionSystem (State Tmr) (Event Tmr) :=
  ofFunction Initial (step cfg)

/-- While the thread is suspended and nobody is about to resume it, the soft list is empty
or the thread's own timer expires no later than the first soft timer. -/
def NoOversleep (cfg : Config) (s : State Tmr) : Prop :=
  s.entry = .suspended → s.wakeups = 0 →
    s.Empty cfg ∨ ∃ timeoutTick ∈ s.threadTimer, s.nextTimeout cfg - timeoutTick < halfRange

/-- Decided from what the timer is, not over all ticks. -/
instance (cfg : Config) (s : State Tmr) :
    Decidable (∃ timeoutTick ∈ s.threadTimer, s.nextTimeout cfg - timeoutTick < halfRange) :=
  Option.decidableExistsMem _

instance (cfg : Config) (s : State Tmr) : Decidable (NoOversleep cfg s) :=
  inferInstanceAs (Decidable (_ → _ → _ ∨ _))

def NotOverslept (cfg : Config) (s : State Tmr) : Entry → Prop
  | .suspending => s.Empty cfg
  | .readingTick nextTimeout => s.NotEarlier cfg nextTimeout
  | .delaying nextTimeout => s.NotEarlier cfg (s.base.timers.tick + nextTimeout)
  | .suspended => s.Empty cfg ∨ ∃ timeoutTick ∈ s.threadTimer,
      s.nextTimeout cfg - timeoutTick < halfRange
  | .reading | .checking => True

/-- What the thread is about to give to `rt_thread_delay`. -/
def Entry.delay : Entry → Option (BitVec 32)
  | .delaying nextTimeout => some nextTimeout
  | _ => none

def NoOversleepAhead (cfg : Config) (s : State Tmr) : Prop :=
  s.wakeups = 0 → NotOverslept cfg s s.entry

/-- The thread does not oversleep by this step:
- it does not read `RT_TICK_MAX` from a list that is not empty;
- the last start to test `stat` finds the thread suspended, or has changed nothing that
  the thread relies on;
- no tick passes in front of `rt_thread_delay` that makes it too long. -/
def StaysAwake (cfg : Config) (s : State Tmr) : Event Tmr → Prop
  | .thread => s.entry = .reading → s.wakeups = 0 →
      s.Empty cfg ∨ s.nextTimeout cfg ≠ rtTickMax
  | .wakeup => s.wakeups = 1 → s.entry ≠ .suspended →
      NotOverslept cfg s s.entry
  | .tick => s.wakeups = 0 → ∀ nextTimeout ∈ s.entry.delay,
      s.NotEarlier cfg (s.base.timers.tick + 1 + nextTimeout)
  | .start _ | .threadTimeout => True

variable {cfg : Config} {s after : State Tmr}

theorem thread_ahead_iff (ahead : NoOversleepAhead cfg s)
    (result : rtThreadTimerEntry cfg s = some after) :
    NoOversleepAhead cfg after ↔ StaysAwake cfg s .thread := by
  have elsewhere : s.entry ≠ .reading → StaysAwake cfg s .thread :=
    fun notReading reading => absurd reading notReading
  rw [rtThreadTimerEntry] at result
  cases stands : s.entry with
  | reading =>
    rw [stands] at result
    dsimp only at result
    split_ifs at result with isMax
    · cases result
      refine ⟨fun aheadAfter _ noWakeups => .inl (aheadAfter noWakeups), ?_⟩
      intro staysAwake noWakeups
      exact (staysAwake stands noWakeups).resolve_right fun notMax => notMax isMax
    · cases result
      refine iff_of_true (fun _ => .inr ?_) fun _ _ => .inr isMax
      change s.nextTimeout cfg - s.nextTimeout cfg < halfRange
      rw [sub_self]
      decide
  | suspending =>
    rw [stands] at result
    cases result
    rw [NoOversleepAhead, stands] at ahead
    exact iff_of_true (fun noWakeups => .inl (ahead noWakeups)) (elsewhere (by simp [stands]))
  | readingTick nextTimeout =>
    rw [stands] at result
    rw [NoOversleepAhead, stands] at ahead
    dsimp only at result
    split_ifs at result
    · cases result
      refine iff_of_true (fun noWakeups => ?_) (elsewhere (by simp [stands]))
      have notEarlier := ahead noWakeups
      rw [NotOverslept, ← add_sub_cancel s.base.timers.tick nextTimeout] at notEarlier
      exact notEarlier
    · cases result
      exact iff_of_true (fun _ => trivial) (elsewhere (by simp [stands]))
  | delaying nextTimeout =>
    rw [stands] at result
    cases result
    rw [NoOversleepAhead, stands] at ahead
    refine iff_of_true (fun noWakeups => ?_) (elsewhere (by simp [stands]))
    exact (ahead noWakeups).imp_right fun short => ⟨_, rfl, short⟩
  | suspended =>
    rw [stands] at result
    cases result
  | checking =>
    rw [stands] at result
    obtain ⟨base, -, rest⟩ := Option.bind_eq_some_iff.mp result
    cases rest
    refine iff_of_true (fun _ => ?_) (elsewhere (by simp [stands]))
    split_ifs <;> trivial

omit [DecidableEq Tmr] in
theorem wakeup_ahead_iff (result : wakeup s = some after) :
    NoOversleepAhead cfg after ↔ StaysAwake cfg s .wakeup := by
  cases pending : s.wakeups with
  | zero => simp [wakeup, pending] at result
  | succ wakeups =>
    rw [wakeup, pending] at result
    cases result
    by_cases isSuspended : s.entry = .suspended
    · rw [if_pos isSuspended]
      exact iff_of_true (fun _ => trivial) fun _ notSuspended => absurd isSuspended notSuspended
    · rw [if_neg isSuspended, StaysAwake, pending]
      have same : NotOverslept cfg { s with wakeups } s.entry ↔
          NotOverslept cfg s s.entry := by
        cases s.entry <;> rfl
      exact ⟨fun aheadAfter last _ => same.mp (aheadAfter (Nat.succ.inj last)),
        fun staysAwake last => same.mpr (staysAwake (congrArg Nat.succ last) isSuspended)⟩

theorem step_ahead_iff {e : Event Tmr} (ahead : NoOversleepAhead cfg s)
    (result : step cfg s e = some after) : NoOversleepAhead cfg after ↔ StaysAwake cfg s e := by
  cases e with
  | thread => exact thread_ahead_iff ahead result
  | wakeup => exact wakeup_ahead_iff result
  | start t =>
    simp only [step, startSoft] at result
    split_ifs at result
    obtain ⟨timers, -, rest⟩ := Option.bind_eq_some_iff.mp result
    cases rest
    exact iff_of_true (fun none => absurd none (Nat.succ_ne_zero _)) trivial
  | threadTimeout =>
    simp only [step, threadTimeout] at result
    split at result
    · cases result
    · split_ifs at result
      cases result
      exact iff_of_true (fun _ => trivial) trivial
  | tick =>
    cases result
    obtain ⟨base, entry, threadTimer, wakeups⟩ := s
    cases entry with
    | delaying nextTimeout =>
      refine ⟨fun aheadAfter noWakeups delay isDelay => ?_, fun staysAwake noWakeups => ?_⟩
      · cases isDelay
        exact aheadAfter noWakeups
      · exact staysAwake noWakeups nextTimeout rfl
    | reading | suspending | readingTick | suspended | checking =>
      exact iff_of_true ahead fun _ => nofun

theorem noOversleepAhead_throughout_iff {taken : List (Taken (State Tmr) (Event Tmr))}
    {last : State Tmr} (run : (system cfg).Run taken last) :
    Throughout (NoOversleepAhead cfg) taken last ↔ EveryStep (StaysAwake cfg) taken := by
  refine run.throughout_iff_everyStep (fun _ _ => trivial) (fun _ _ _ holds _ => holds) ?_ ?_
  · intro s init _
    rw [init.entry]
    trivial
  · intro s e after _ ahead step
    exact step_ahead_iff ahead step

/-- In every run whose steps leave what the thread relies on, a suspended timer thread that
nobody is about to resume sleeps no longer than to the first soft timer. -/
theorem noOversleep_throughout {taken : List (Taken (State Tmr) (Event Tmr))} {last : State Tmr}
    (run : (system cfg).Run taken last) (staysAwake : EveryStep (StaysAwake cfg) taken) :
    Throughout (NoOversleep cfg) taken last := by
  refine ((noOversleepAhead_throughout_iff run).mpr staysAwake).imp fun s ahead => ?_
  intro isSuspended noWakeups
  rw [NoOversleepAhead, isSuspended] at ahead
  exact ahead noWakeups

instance (cfg : Config) (s : State Tmr) :
    (entry : Entry) → Decidable (NotOverslept cfg s entry)
  | .suspending => inferInstanceAs (Decidable (s.Empty cfg))
  | .readingTick _ | .delaying _ => inferInstanceAs (Decidable (s.NotEarlier cfg _))
  | .suspended => instDecidableOr
  | .reading | .checking => .isTrue trivial

instance (cfg : Config) (s : State Tmr) :
    (e : Event Tmr) → Decidable (StaysAwake cfg s e)
  | .thread => inferInstanceAs (Decidable (_ → _ → _))
  | .wakeup => inferInstanceAs (Decidable (_ → _ → _))
  | .tick =>
    have : Decidable (∀ nextTimeout ∈ s.entry.delay,
        s.NotEarlier cfg (s.base.timers.tick + 1 + nextTimeout)) :=
      Option.decidableForallMem _
    instDecidableForall
  | .start _ | .threadTimeout => .isTrue trivial

/-- Soft timers just initialized, and the thread in front of its first step. -/
def fresh (time : Tmr → BitVec 32) (tick : BitVec 32) : State Tmr where
  base := Timer.fresh time (fun _ => softFlag) tick
  entry := .reading
  threadTimer := none
  wakeups := 0

omit [DecidableEq Tmr] in
theorem fresh_initial (time : Tmr → BitVec 32) (tick : BitVec 32) : Initial (fresh time tick) :=
  ⟨Timer.fresh_initial _ _ _, rfl, rfl, rfl⟩

/-- A start in front of `rt_thread_delay` resumes the thread behind it, and the thread sleeps
again, to the end. -/
def startBeforeDelay : List (Event Bool) :=
  [.thread, .thread, .start false, .wakeup, .thread, .thread, .thread, .thread, .thread,
    .start true, .thread, .wakeup, .thread, .thread, .thread, .thread, .thread, .thread, .tick,
    .tick, .threadTimeout, .thread, .thread, .thread]

theorem startBeforeDelay_noOversleep : Throughout (NoOversleep rtConfig)
      (record (step rtConfig) [] (fresh (cond · 2 5) 0xffffffff) startBeforeDelay)
      ((execute (step rtConfig) (fresh (cond · 2 5) 0xffffffff)
        startBeforeDelay).get (by decide +kernel)) :=
  noOversleep_throughout (Run.executed _ _ (fresh_initial _ _) _) (by decide +kernel)

/-- The thread suspends itself after a start that times out at tick `RT_TICK_MAX`. -/
def startAtTickMax : List (Event Unit) := [.start (), .wakeup, .thread, .thread]

def sleptAtTickMax : State Unit :=
  (execute (step rtConfig) (fresh (fun _ => 1) 0xfffffffe)
    startAtTickMax).get (by decide +kernel)

/-- `RT_TICK_MAX` is a timeout like any other, and the thread takes it for an empty list:
it sleeps without a timer of its own. -/
theorem sleptAtTickMax_not_noOversleep :
    ∃ (taken : List (Taken (State Unit) (Event Unit))) (last : State Unit),
      (system rtConfig).Run taken last ∧ ¬ Throughout (NoOversleep rtConfig) taken last ∧
        ¬ last.Empty rtConfig ∧ last.threadTimer = none := by
  have run : (system rtConfig).Run _ sleptAtTickMax := Run.executed _ _ (fresh_initial _ _) _
  have overslept : ¬ NoOversleep rtConfig sleptAtTickMax := by decide +kernel
  exact ⟨_, _, run, fun throughout => overslept throughout.1, by decide +kernel, by decide +kernel⟩

/-- A start between the read of the empty list and the suspension: its wake-up is lost. -/
example : ∀ s ∈ execute (step rtConfig) (fresh (fun _ : Unit => 1) 0)
    [.thread, .start (), .wakeup, .thread], ¬ NoOversleep rtConfig s := by
  decide +kernel

/-- A tick between the read of the tick and `rt_thread_delay`: the thread sleeps too long. -/
example : ∀ s ∈ execute (step rtConfig) (fresh (fun _ : Unit => 5) 0)
    [.start (), .wakeup, .thread, .thread, .tick, .thread], ¬ NoOversleep rtConfig s := by
  decide +kernel

end RtThread.Timer.SoftThread
