import RtThread.Kernel.Services
import RtThread.Library.TransitionSystem

/-!
# Completions

One completion, the one thread that waits for it, and any number of threads and interrupt
handlers that call `rt_completion_done`.  That function tests the flag before it disables
interrupts, so its test and the rest of it are two steps.

`owed` is set by a `rt_completion_done` and cleared by a wait that returns `RT_EOK`.  As
long as it is set the completion has to be somewhere: in the flag, or with a waiter that
was resumed and has not run yet.
-/

open TransitionSystem

namespace RtThread.Completion

universe u

inductive Flag where
  | uncompleted
  | completed
  deriving DecidableEq

/-- `struct rt_completion` and the threads and handlers that use it. -/
structure State (Tid : Type u) where
  kernel : Kernel Tid Unit
  flag : Flag
  /-- The waiting thread is inside `rt_completion_wait`, past its suspension. -/
  waiting : Bool
  /-- The thread is inside `rt_completion_done`, past its test of the flag. -/
  completing : Tid → Bool
  /-- How many handlers are inside `rt_completion_done`, past their test. -/
  handlers : Nat
  owed : Bool

/-- The waiting thread calls `rt_completion_wait` or goes on behind `rt_schedule`; a
thread, or an interrupt handler for `none`, tests the flag in `rt_completion_done` or
goes on from there; a timer expires. -/
inductive Event (Tid : Type u) where
  | wait (timeout : Int)
  | resumed
  | test (caller : Option Tid)
  | done (caller : Option Tid)
  | timeout (t : Tid)

variable {Tid : Type u} [DecidableEq Tid]

namespace State

def suspendedList (st : State Tid) : List Tid := st.kernel.queue (.wait ())

def MayRun (st : State Tid) (t : Tid) : Prop :=
  (st.kernel.thread t).stat = .ready ∧ st.handlers = 0

instance (st : State Tid) (t : Tid) : Decidable (st.MayRun t) := instDecidableAnd

def Running (st : State Tid) (waiter t : Tid) : Prop :=
  st.MayRun t ∧ st.completing t = false ∧ (t = waiter → st.waiting = false)

instance (st : State Tid) (waiter t : Tid) : Decidable (st.Running waiter t) :=
  inferInstanceAs (Decidable (_ ∧ _ ∧ (_ → _)))

def returned (st : State Tid) (code : RtErr) : State Tid :=
  if code = .eok then { st with owed := false } else st

end State

/-- `rt_completion_wait` up to its return, or up to `rt_schedule`.  `RT_ASSERT` stops a
second waiter. -/
def rtCompletionWait (st : State Tid) (thread : Tid) (timeout : Int) :
    Option (State Tid × Option RtErr) :=
  if st.flag ≠ .completed then
    if st.suspendedList ≠ [] then none
    else if timeout = 0 then some (st, some .etimeout)
    else some ({ st with kernel := st.kernel.blockOn () thread .fifo timeout }, none)
  else some ({ st with flag := .uncompleted }, some .eok)

def rtCompletionWaitResumed (st : State Tid) (thread : Tid) : State Tid × RtErr :=
  ({ st with flag := .uncompleted }, (st.kernel.thread thread).error)

/-- The part of `rt_completion_done` that runs with interrupts disabled. -/
def rtCompletionDone (st : State Tid) : State Tid :=
  let st := { st with flag := .completed }
  if st.suspendedList ≠ [] then { st with kernel := st.kernel.rtIpcListResume () }
  else st

/-- The thread returns from `rt_completion_wait`, or is suspended inside it. -/
def State.waitResult : State Tid × Option RtErr → State Tid
  | (after, some code) => after.returned code
  | (after, none) => { after with waiting := true }

def step (waiter : Tid) (st : State Tid) : Event Tid → Option (State Tid)
  | .wait timeout =>
    if st.Running waiter waiter then
      (rtCompletionWait st waiter timeout).map State.waitResult
    else none
  | .resumed =>
    if st.waiting ∧ st.MayRun waiter then
      let (after, code) := rtCompletionWaitResumed st waiter
      some ({ after with waiting := false }.returned code)
    else none
  | .test none =>
    if st.flag = .completed then some st
    else some { st with handlers := st.handlers + 1 }
  | .test (some t) =>
    if st.Running waiter t then
      if st.flag = .completed then some st
      else some { st with completing := Function.update st.completing t true }
    else none
  | .done none =>
    if st.handlers ≠ 0 then
      some { rtCompletionDone st with handlers := st.handlers - 1, owed := true }
    else none
  | .done (some t) =>
    if st.completing t ∧ st.MayRun t then
      some
        { rtCompletionDone st with
          completing := Function.update st.completing t false
          owed := true }
    else none
  | .timeout t =>
    if (st.kernel.thread t).stat = .suspend ∧ (st.kernel.thread t).timer then
      some { st with kernel := st.kernel.rtThreadTimeout t }
    else none

/-- After `rt_completion_init`: nobody is inside a call. -/
structure Initial (st : State Tid) : Prop where
  wellFormed : st.kernel.WellFormed
  suspendedList_eq : st.suspendedList = []
  flag_eq : st.flag = .uncompleted
  waiting_eq : st.waiting = false
  completing_eq : ∀ t, st.completing t = false
  handlers_eq : st.handlers = 0
  owed_eq : st.owed = false

def system (waiter : Tid) : TransitionSystem (State Tid) (Event Tid) :=
  ofFunction Initial (step waiter)

/-- The wait in progress returns `RT_EOK` as soon as its thread runs. -/
def State.Handed (waiter : Tid) (st : State Tid) : Prop :=
  st.waiting ∧ (st.kernel.thread waiter).stat = .ready ∧
    (st.kernel.thread waiter).error = .eok

instance (waiter : Tid) (st : State Tid) : Decidable (st.Handed waiter) :=
  inferInstanceAs (Decidable (_ ∧ _ ∧ _))

def Delivered (waiter : Tid) (st : State Tid) : Prop :=
  st.owed → st.flag = .completed ∨ st.Handed waiter

instance (waiter : Tid) (st : State Tid) : Decidable (Delivered waiter st) :=
  inferInstanceAs (Decidable (_ → _ ∨ _))

/-- A thread that goes on in `rt_completion_wait` with an error number finds nothing in
the flag, which it is about to clear. -/
def NothingToClear (waiter : Tid) (st : State Tid) (e : Event Tid) : Prop :=
  match e with
  | .resumed => (st.kernel.thread waiter).error ≠ .eok → st.flag = .uncompleted
  | _ => True

instance (waiter : Tid) (st : State Tid) :
    (e : Event Tid) → Decidable (NothingToClear waiter st e)
  | .resumed => instDecidableForall
  | .wait _ | .test _ | .done _ | .timeout _ => .isTrue trivial

theorem rtCompletionDone_eq (st : State Tid) : rtCompletionDone st =
      { st with flag := .completed, kernel := st.kernel.rtIpcListResume () } := by
  by_cases empty : st.suspendedList = []
  · have unchanged : st.kernel.rtIpcListResume () = st.kernel := by
      rw [State.suspendedList] at empty
      simp [Kernel.rtIpcListResume, empty]
    simp [rtCompletionDone, unchanged]
  · rw [State.suspendedList] at empty
    simp [rtCompletionDone, State.suspendedList, empty]

inductive Effect (waiter : Tid) (st : State Tid) : Event Tid → State Tid → Prop where
  | unchanged {e : Event Tid} (ordinary : e ≠ .resumed) : Effect waiter st e st
  | took {timeout : Int} (completed : st.flag = .completed) :
      Effect waiter st (.wait timeout) { st with flag := .uncompleted, owed := false }
  | blocked {timeout : Int} (running : st.Running waiter waiter)
      (uncompleted : st.flag = .uncompleted) (alone : st.suspendedList = []) :
      Effect waiter st (.wait timeout)
        { st with
          kernel := st.kernel.blockOn () waiter .fifo timeout
          waiting := true }
  | woken (waiting : st.waiting) (ready : (st.kernel.thread waiter).stat = .ready) :
      Effect waiter st .resumed
        { st with
          flag := .uncompleted
          waiting := false
          owed := st.owed && decide ((st.kernel.thread waiter).error ≠ .eok) }
  | tested {caller : Option Tid} (completing : Tid → Bool) (handlers : Nat) :
      Effect waiter st (.test caller) { st with completing, handlers }
  | completed {caller : Option Tid} (completing : Tid → Bool) (handlers : Nat) :
      Effect waiter st (.done caller)
        { st with
          flag := .completed
          kernel := st.kernel.rtIpcListResume ()
          completing, handlers
          owed := true }
  | expired {t : Tid} (suspended : (st.kernel.thread t).stat = .suspend) :
      Effect waiter st (.timeout t) { st with kernel := st.kernel.rtThreadTimeout t }

variable {s' st : State Tid} {waiter : Tid} {e : Event Tid}

theorem effect_wait {timeout : Int} (running : st.Running waiter waiter)
    (waits : (rtCompletionWait st waiter timeout).map State.waitResult = some s') :
    Effect waiter st (.wait timeout) s' := by
  cases flag : st.flag with
  | completed =>
    simp [rtCompletionWait, flag] at waits
    exact waits ▸ .took flag
  | uncompleted =>
    by_cases alone : st.suspendedList = []
    · by_cases noWait : timeout = 0
      · simp [rtCompletionWait, flag, alone, noWait] at waits
        exact waits ▸ .unchanged (by simp)
      · simp [rtCompletionWait, flag, alone, noWait, State.waitResult] at waits
        subst waits
        have effect : Effect waiter st (.wait timeout) _ := .blocked running flag alone
        simpa [flag] using effect
    · simp [rtCompletionWait, flag, alone] at waits

theorem step_effect (ran : step waiter st e = some s') : Effect waiter st e s' := by
  cases e with
  | wait timeout =>
    obtain ⟨running, ran⟩ := Option.ite_none_right_eq_some.mp ran
    exact effect_wait running ran
  | resumed =>
    obtain ⟨woken, ran⟩ := Option.ite_none_right_eq_some.mp ran
    have effect := Effect.woken woken.1 woken.2.1
    by_cases noError : (st.kernel.thread waiter).error = .eok
    all_goals
      simp [State.returned] at ran
      subst ran
      simpa [noError] using effect
  | test c =>
    cases c with
    | none =>
      simp only [step] at ran
      split at ran
      all_goals cases ran
      · exact .unchanged (by simp)
      · exact .tested st.completing _
    | some t =>
      obtain ⟨-, ran⟩ := Option.ite_none_right_eq_some.mp ran
      split at ran
      all_goals cases ran
      · exact .unchanged (by simp)
      · exact .tested _ st.handlers
  | done c =>
    cases c with
    | none =>
      obtain ⟨-, ⟨⟩⟩ := Option.ite_none_right_eq_some.mp ran
      rw [rtCompletionDone_eq]
      exact .completed st.completing _
    | some t =>
      obtain ⟨-, ⟨⟩⟩ := Option.ite_none_right_eq_some.mp ran
      rw [rtCompletionDone_eq]
      exact .completed _ st.handlers
  | timeout t =>
    obtain ⟨expiry, ⟨⟩⟩ := Option.ite_none_right_eq_some.mp ran
    exact .expired expiry.1

structure Inv (waiter : Tid) (st : State Tid) : Prop where
  wellFormed : st.kernel.WellFormed
  suspended : ∀ t ∈ st.suspendedList, t = waiter ∧ st.waiting
  owed : st.flag = .completed → st.owed

omit [DecidableEq Tid] in
theorem Initial.inv (init : Initial st) : Inv waiter st where
  wellFormed := init.wellFormed
  suspended := by simp [init.suspendedList_eq]
  owed := by simp [init.flag_eq]

theorem Effect.inv (effect : Effect waiter st e s') (inv : Inv waiter st) : Inv waiter s' := by
  cases effect with
  | unchanged => exact inv
  | took => exact ⟨inv.wellFormed, inv.suspended, by simp⟩
  | @blocked timeout running uncompleted alone =>
    refine ⟨inv.wellFormed.blockOn running.1.1 () _ timeout, ?_, inv.owed⟩
    intro t waits
    rw [State.suspendedList] at alone
    simpa [State.suspendedList, inv.wellFormed.blockOn_wait running.1.1, alone] using waits
  | woken waiting ready =>
    refine ⟨inv.wellFormed, ?_, by simp⟩
    intro t waits
    obtain ⟨rfl, -⟩ := inv.suspended t waits
    simp [inv.wellFormed.waiting t () waits] at ready
  | tested => exact ⟨inv.wellFormed, inv.suspended, inv.owed⟩
  | completed =>
    refine ⟨inv.wellFormed.rtIpcListResume (), ?_, fun _ => rfl⟩
    intro t waits
    simp only [State.suspendedList, inv.wellFormed.rtIpcListResume_wait] at waits
    exact inv.suspended t (List.mem_of_mem_tail waits)
  | @expired t suspended =>
    refine ⟨inv.wellFormed.rtThreadTimeout t, ?_, inv.owed⟩
    intro s waits
    exact inv.suspended s (List.mem_of_mem_erase waits)

theorem step_inv (inv : Inv waiter st) (ran : step waiter st e = some s') : Inv waiter s' :=
  (step_effect ran).inv inv

theorem Effect.delivered_iff (effect : Effect waiter st e s') (inv : Inv waiter st)
    (delivered : Delivered waiter st) : Delivered waiter s' ↔ NothingToClear waiter st e := by
  cases effect with
  | unchanged ordinary =>
    refine iff_of_true delivered ?_
    cases e <;> simp_all [NothingToClear]
  | took => exact iff_of_true (by simp [Delivered]) trivial
  | blocked running uncompleted alone =>
    refine iff_of_true (fun owed => ?_) trivial
    rcases delivered owed with completed | handed
    · exact .inl completed
    · have outside := running.2.2 rfl
      simp [State.Handed, outside] at handed
  | woken waiting ready =>
    by_cases noError : (st.kernel.thread waiter).error = .eok
    · simp [Delivered, NothingToClear, noError]
    · have owed_iff : st.owed ↔ st.flag = .completed := by
        refine ⟨fun owed => (delivered owed).resolve_right ?_, inv.owed⟩
        exact fun handed => noError handed.2.2
      have lost : Delivered waiter
          { st with
            flag := .uncompleted
            waiting := false
            owed := st.owed && decide ((st.kernel.thread waiter).error ≠ .eok) } ↔
          ¬ st.owed := by
        simp [Delivered, State.Handed, noError]
      rw [lost, owed_iff]
      cases flag : st.flag <;> simp [NothingToClear, noError, flag]
  | tested => exact iff_of_true delivered trivial
  | completed => exact iff_of_true (fun _ => .inl rfl) trivial
  | @expired t suspended =>
    refine iff_of_true (fun owed => ?_) trivial
    rcases delivered owed with completed | handed
    · exact .inl completed
    · have ne : waiter ≠ t := by
        rintro rfl
        simp [handed.2.1] at suspended
      exact .inr (by simpa [State.Handed, ne] using handed)

/-- Over any run no completion is lost exactly if no wait that ends with an error number
clears a flag that has been set behind its back. -/
theorem delivered_throughout_iff {waiter : Tid}
    {taken : List (Taken (State Tid) (Event Tid))} {last : State Tid}
    (run : (system waiter).Run taken last) : Throughout (Delivered waiter) taken last ↔
      EveryStep (NothingToClear waiter) taken := by
  have base : ∀ st, Initial st → Inv waiter st := fun _ init => init.inv
  refine run.throughout_iff_everyStep base (fun _ _ _ => step_inv) ?_ ?_
  · intro st init
    simp [Delivered, init.owed_eq]
  · intro st e s' inv delivered ran
    exact (step_effect ran).delivered_iff inv delivered

def fresh (n : Nat) : State (Fin n) where
  kernel := Kernel.started (List.finRange n) fun _ => 10
  flag := .uncompleted
  waiting := false
  completing _ := false
  handlers := 0
  owed := false

theorem fresh_initial {n : Nat} : Initial (fresh n) where
  wellFormed := Kernel.started_wellFormed (List.nodup_finRange n) _
  suspendedList_eq := rfl
  flag_eq := rfl
  waiting_eq := rfl
  completing_eq _ := rfl
  handlers_eq := rfl
  owed_eq := rfl

theorem resumed_delivered : Throughout (Delivered 0) (record (step 0) [] (fresh 2)
        [.wait 10, .test none, .done none, .resumed, .test (some 1), .done (some 1), .wait (-1)])
      ((execute (step 0) (fresh 2)
        [.wait 10, .test none, .done none, .resumed, .test (some 1), .done (some 1),
          .wait (-1)]).get (by decide)) :=
  (delivered_throughout_iff (Run.execute
    (.start fresh_initial) (Option.some_get _).symm)).mpr (by decide)

/-- The timer of the waiter expires, a handler completes, the waiter runs: the flag is
clear and the wait returns `-RT_ETIMEOUT`. -/
theorem done_behind_timeout_lost : ¬ ∀ (taken : List (Taken (State (Fin 1)) (Event (Fin 1))))
      (last : State (Fin 1)), (system 0).Run taken last → Throughout (Delivered 0) taken last := by
  intro claim
  have run := Run.execute
    (.start fresh_initial : (system 0).Run [] (fresh 1))
    (rfl : execute (step 0) (fresh 1)
      [.wait 10, .timeout 0, .test none, .done none, .resumed] = some _)
  have delivered := (claim _ _ run).1
  revert delivered
  decide

end RtThread.Completion
