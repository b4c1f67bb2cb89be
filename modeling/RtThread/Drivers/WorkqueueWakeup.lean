import Mathlib.Data.Fintype.Option
import RtThread.Drivers.WorkqueueExecution

/-!
# Lost wake-ups of the worker

A submission that finds no work current resumes the worker, which is without effect while
the worker is ready: also between its test of the list and its `rt_thread_suspend`.
-/

open TransitionSystem

namespace RtThread.Workqueue

universe u v

variable {Tid : Type u} {Work : Type v}

/-- A submitter is in front of `rt_thread_resume`. -/
def State.Resuming (s : State Tid Work) : Prop :=
  (∃ caller, s.call caller = .resuming) ∨ .resuming ∈ s.handlers

def State.ResumingOther (s : State Tid Work) : Option (Caller Tid) → Prop
  | none => (∃ caller, s.call caller = .resuming) ∨ .resuming ∈ s.handlers.tail
  | some caller =>
    (∃ other, other ≠ caller ∧ s.call other = .resuming) ∨ .resuming ∈ s.handlers

def NoLostWakeup (s : State Tid Work) : Prop :=
  s.worker = .suspended → ¬ s.Resuming → s.workCurrent = none → s.Empty

def NoLostWakeupAhead (s : State Tid Work) : Prop :=
  s.worker = .suspending ∨ s.worker = .suspended → ¬ s.Resuming → s.Empty

/-- No `rt_thread_resume` falls between the test of the list and `rt_thread_suspend`,
unless the list is empty again or another one is to come. -/
def WakesInTime (s : State Tid Work) : Event Tid Work → Prop
  | .proceed caller =>
    s.callOf caller = .resuming → s.worker = .suspending →
      s.Empty ∨ s.ResumingOther caller
  | _ => True

/-- `rt_workqueue_dowork` and `rt_workqueue_submit_work`. -/
def submits : Operation Work → Bool
  | .submit _ => true
  | _ => false

variable {c : Option (Caller Tid)} {call : Call Work} {op : Operation Work}

section resuming

variable [DecidableEq Tid] [DecidableEq Work]
variable {s after : State Tid Work} {e : Event Tid Work}

theorem mem_pushHandler {handlers : List (Call Work)} :
    .resuming ∈ pushHandler handlers call ↔ call = .resuming ∨ .resuming ∈ handlers := by
  unfold pushHandler
  split
  · next isIdle => simp [isIdle]
  · simp [eq_comm]

omit [DecidableEq Tid] in
theorem begin_calls {base : State Tid Work} (begun : begin s c op = some (base, call)) :
    base.call = s.call ∧ base.handlers = s.handlers := by
  cases op with
  | init work =>
    cases begun
    exact ⟨rfl, rfl⟩
  | submit work =>
    simp only [begin, workqueueSubmitWork] at begun
    split at begun
    · cases begun
      exact ⟨rfl, rfl⟩
    · split at begun <;> cases begun <;> exact ⟨rfl, rfl⟩
  | critical work =>
    simp only [begin, rtWorkqueueCriticalWork] at begun
    split at begun <;> cases begun <;> exact ⟨rfl, rfl⟩
  | cancel work =>
    simp only [begin, workqueueCancelWork] at begun
    split at begun <;> cases begun <;> exact ⟨rfl, rfl⟩
  | cancelSync work =>
    simp only [begin, rtWorkqueueCancelWorkSync] at begun
    split at begun
    · simp only [if_false] at begun
      obtain ⟨-, ⟨⟩⟩ := Option.ite_none_left_eq_some.mp begun
      exact ⟨rfl, rfl⟩
    · cases begun
      exact ⟨rfl, rfl⟩
  | cancelAll =>
    cases begun
    cases c <;> exact ⟨rfl, rfl⟩

omit [DecidableEq Work] in
theorem resumeWorker_call (c : Caller Tid) :
    s.resumeWorker.call c = .resuming ↔ s.call c = .resuming := by
  unfold State.resumeWorker
  split
  · rfl
  · rename_i waits _
    by_cases isWorker : c = .worker
    · subst isWorker
      simp_all
    · simp [isWorker]
  · rfl

theorem proceed_calls {base : State Tid Work}
    {call' : Call Work} (proceeded : proceed s c call = some (base, call')) :
    (∀ other, base.call other = .resuming ↔ s.call other = .resuming) ∧
      base.handlers = s.handlers ∧ call' ≠ .resuming := by
  cases call with
  | idle | waiting work => simp [proceed] at proceeded
  | resuming =>
    cases proceeded
    refine ⟨resumeWorker_call, ?_, by simp⟩
    unfold State.resumeWorker
    split <;> rfl
  | walking n =>
    cases n with
    | head _ =>
      cases proceeded
      refine ⟨fun _ => ?_, ?_, by simp⟩ <;> cases c <;> rfl
    | entry work =>
      cases proceeded
      exact ⟨fun _ => Iff.rfl, rfl, by simp⟩
  | removing work next | woken work =>
    cases proceeded
    exact ⟨fun _ => Iff.rfl, rfl, by simp⟩

theorem step_begin_resuming (ran : step s (.begin c op) = some after) :
    ∃ base call, begin s c op = some (base, call) ∧
      (after.Resuming ↔ s.Resuming ∨ call = .resuming) := by
  cases c with
  | none =>
    simp only [step, Option.map_eq_some_iff] at ran
    obtain ⟨⟨base, call⟩, begun, rfl⟩ := ran
    refine ⟨base, call, begun, ?_⟩
    simp only [State.Resuming, mem_pushHandler, (begin_calls begun).1]
    tauto
  | some c =>
    simp only [step, Option.ite_none_right_eq_some, Option.map_eq_some_iff] at ran
    obtain ⟨⟨-, isIdle⟩, ⟨base, call⟩, begun, rfl⟩ := ran
    refine ⟨base, call, begun, ?_⟩
    obtain ⟨calls, handlers⟩ := begin_calls begun
    have others : (∃ other, Function.update base.call c call other = .resuming) ↔
        (∃ other, s.call other = .resuming) ∨ call = .resuming := by
      rw [calls]
      constructor
      · rintro ⟨other, resumes⟩
        by_cases same : other = c
        · subst same
          exact .inr (by simpa using resumes)
        · exact .inl ⟨other, by simpa [same] using resumes⟩
      · rintro (⟨other, resumes⟩ | resumes)
        · have ne : other ≠ c := by
            rintro rfl
            simp [isIdle] at resumes
          exact ⟨other, by simpa [ne] using resumes⟩
        · exact ⟨c, by simpa using resumes⟩
    simp only [State.Resuming, handlers]
    tauto

theorem step_proceed_resuming (ran : step s (.proceed c) = some after) :
    after.Resuming ↔ s.ResumingOther c := by
  cases c with
  | none =>
    simp only [step] at ran
    split at ran
    · simp at ran
    · rename_i first rest isFirst
      simp only [Option.map_eq_some_iff] at ran
      obtain ⟨⟨base, call⟩, proceeded, rfl⟩ := ran
      obtain ⟨calls, -, notResuming⟩ := proceed_calls proceeded
      simp [State.Resuming, State.ResumingOther, mem_pushHandler, calls, notResuming, isFirst]
  | some c =>
    simp only [step, Option.ite_none_right_eq_some, Option.map_eq_some_iff] at ran
    obtain ⟨-, ⟨base, call⟩, proceeded, rfl⟩ := ran
    obtain ⟨calls, handlers, notResuming⟩ := proceed_calls proceeded
    refine or_congr (exists_congr fun other => ?_) (by rw [handlers])
    by_cases same : other = c
    · subst same
      simp [notResuming]
    · simp [same, calls]

omit [DecidableEq Tid] [DecidableEq Work] in
theorem resumingOther_iff (notResuming : s.callOf c ≠ .resuming) :
    s.ResumingOther c ↔ s.Resuming := by
  cases c with
  | none =>
    refine or_congr Iff.rfl ?_
    cases handlers : s.handlers with
    | nil => simp
    | cons a rest =>
      have ne : Call.resuming ≠ a := by simpa [State.callOf, handlers, eq_comm] using notResuming
      simp [ne]
  | some c =>
    refine or_congr (exists_congr fun other => ?_) Iff.rfl
    constructor
    · exact And.right
    · refine fun resumes => ⟨?_, resumes⟩
      rintro rfl
      exact notResuming resumes

omit [DecidableEq Tid] [DecidableEq Work] in
theorem workqueueWorkCompletion_call (c : Caller Tid) :
    (workqueueWorkCompletion s).call c = .resuming ↔ s.call c = .resuming := by
  simp only [workqueueWorkCompletion]
  split
  · next waits => simp [waits]
  · rfl

theorem step_worker_resuming (ran : step s .worker = some after) : after.Resuming ↔ s.Resuming := by
  simp only [step, Option.ite_none_right_eq_some] at ran
  obtain ⟨-, ran⟩ := ran
  unfold workqueueThreadEntry at ran
  split at ran
  · split at ran <;> cases ran <;> rfl
  · cases ran
    rfl
  · simp at ran
  · split at ran
    · simp at ran
    · cases ran
      rfl
  · obtain ⟨-, ⟨⟩⟩ := Option.ite_none_right_eq_some.mp ran
    rfl
  · cases ran
    exact or_congr (exists_congr workqueueWorkCompletion_call) Iff.rfl

end resuming

section exactness

variable [DecidableEq Tid] [DecidableEq Work]
variable {s after : State Tid Work} {e : Event Tid Work} {works : List Work}

omit [DecidableEq Tid] [DecidableEq Work] in
theorem Accepts.current_of_waiting (accepts : Accepts s works)
    (waits : s.worker = .suspending ∨ s.worker = .suspended) : s.workCurrent = none := by
  apply accepts.current
  rcases waits with isWorker | isWorker <;> simp [isWorker]

theorem submit_ahead {work : Work} (accepts : Accepts s works) (ahead : NoLostWakeupAhead s)
    (ran : step s (.begin c (.submit work)) = some after) : NoLostWakeupAhead after := by
  obtain ⟨base, effect, same⟩ := step_effect ran
  obtain ⟨begun, call, result, resuming⟩ := step_begin_resuming ran
  intro waits notResuming
  rw [resuming, not_or] at notResuming
  cases effect with
  | refused _ _ _ _ =>
    rw [same.worker] at waits
    have empty := ahead waits notResuming.1
    rwa [State.Empty, ← same.links] at empty
  | submitted _ _ notPending notCurrent =>
    rw [same.worker] at waits
    have none := accepts.current_of_waiting waits
    simp only [Workqueue.begin, workqueueSubmitWork, notPending, notCurrent,
      Option.some.injEq, Prod.mk.injEq] at result
    have resumes : call = .resuming := by
      rw [← result.2]
      exact if_pos none
    exact absurd resumes notResuming.2
  | cancelled _ _ _ isCancel _ => simp at isCancel

theorem worker_ahead (ahead : NoLostWakeupAhead s)
    (ran : step s .worker = some after) : NoLostWakeupAhead after := by
  obtain ⟨base, effect, same⟩ := step_effect ran
  intro waits notResuming
  rw [step_worker_resuming ran] at notResuming
  rw [same.worker] at waits
  cases effect with
  | tested isWorker =>
    rw [State.Empty, same.links]
    by_contra notEmpty
    have isTaking : (if s.Empty then Worker.suspending else .taking) = .taking :=
      if_neg notEmpty
    simp [isTaking] at waits
  | suspends isWorker =>
    rw [State.Empty, same.links]
    exact ahead (.inl isWorker) notResuming
  | took | finished | completed => simp at waits

theorem proceed_ahead_iff (accepts : Accepts s works)
    (ahead : NoLostWakeupAhead s) (ran : step s (.proceed c) = some after) :
    NoLostWakeupAhead after ↔ WakesInTime s (.proceed c) := by
  obtain ⟨base, effect, same⟩ := step_effect ran
  rw [NoLostWakeupAhead, step_proceed_resuming ran, State.Empty, same.worker, same.links]
  have kept : s.callOf c ≠ .resuming → WakesInTime s (.proceed c) :=
    fun notResuming resumes => absurd resumes notResuming
  cases effect with
  | resumed _ isCall =>
    rw [resumeWorker_worker, resumeWorker_links]
    simp only [WakesInTime]
    by_cases isWorker : s.worker = .suspending
    · simp only [isWorker]
      tauto
    · by_cases isSuspended : s.worker = .suspended <;> simp [isWorker, isSuspended]
  | walked _ n isCall | synced _ work isCall =>
    have notResuming : s.callOf c ≠ .resuming := by simp [isCall]
    rw [resumingOther_iff notResuming]
    exact iff_of_true ahead (kept notResuming)
  | removed _ work next isCall =>
    have notResuming : s.callOf c ≠ .resuming := by simp [isCall]
    rw [resumingOther_iff notResuming]
    refine iff_of_true ?_ (kept notResuming)
    intro waits notResuming'
    have nil := accepts.holds.empty_iff.mp (ahead waits notResuming')
    have emptied := (accepts.holds.unlink work).empty_iff.mpr (by simp [nil])
    exact emptied

end exactness

variable [DecidableEq Tid] [DecidableEq Work]

omit [DecidableEq Work] in
theorem submits_permitted (permitted : submits op = true) : ∃ work, op = .submit work := by
  cases op with
  | submit work => exact ⟨work, rfl⟩
  | init | critical | cancel | cancelSync | cancelAll => simp [submits] at permitted

theorem noLostWakeupAhead_throughout_iff {taken : List (Taken (State Tid Work) (Event Tid Work))}
    {last : State Tid Work} (run : (system submits).Run taken last) :
    Throughout NoLostWakeupAhead taken last ↔ EveryStep WakesInTime taken := by
  have invBase : ∀ s : State Tid Work, Initial s → ∃ works, Accepts s works :=
    fun _ init => ⟨[], init.accepts init.holds⟩
  refine run.throughout_iff_everyStep invBase ?_ ?_ ?_
  · rintro s e after ⟨works, accepts⟩ ran
    obtain ⟨ran, permitted⟩ := permittedStep_some ran
    obtain ⟨base, effect, same⟩ := step_effect ran
    have permitted' : ∀ c op, e = .begin c op →
        submitsOrCancels op = true := by
      intro c op isBegin
      obtain ⟨work, rfl⟩ := submits_permitted (permitted c op isBegin)
      rfl
    obtain ⟨works', accepts', -⟩ := effect.takesAccepted_iff permitted' accepts
    exact ⟨works', accepts'.congr same⟩
  · intro s init waits
    simp [init.worker_eq] at waits
  · rintro s e after ⟨works, accepts⟩ ahead ran
    obtain ⟨ran, permitted⟩ := permittedStep_some ran
    cases e with
    | worker => exact iff_of_true (worker_ahead ahead ran) trivial
    | begin c op =>
      obtain ⟨work, rfl⟩ := submits_permitted (permitted c op rfl)
      exact iff_of_true (submit_ahead accepts ahead ran) trivial
    | proceed c => exact proceed_ahead_iff accepts ahead ran

/-- As long as no `rt_thread_resume` is lost in front of `rt_thread_suspend`, a suspended
worker that nobody is about to resume has nothing to do. -/
theorem noLostWakeup_throughout {taken : List (Taken (State Tid Work) (Event Tid Work))}
    {last : State Tid Work} (run : (system submits).Run taken last)
    (inTime : EveryStep WakesInTime taken) : Throughout NoLostWakeup taken last := by
  have weaken : ∀ s : State Tid Work, NoLostWakeupAhead s → NoLostWakeup s :=
    fun _ ahead isSuspended notResuming _ => ahead (.inr isSuspended) notResuming
  obtain ⟨atLast, before⟩ := (noLostWakeupAhead_throughout_iff run).mpr inTime
  exact ⟨weaken _ atLast, fun step mem => weaken _ (before step mem)⟩

def callerEquiv : Option Tid ≃ Caller Tid where
  toFun
    | none => .worker
    | some t => .thread t
  invFun
    | .worker => none
    | .thread t => some t
  left_inv caller := by cases caller <;> rfl
  right_inv caller := by cases caller <;> rfl

instance [Fintype Tid] : Fintype (Caller Tid) := .ofEquiv (Option Tid) callerEquiv

instance [Fintype Tid] (s : State Tid Work) : Decidable s.Resuming := instDecidableOr

instance [Fintype Tid] (s : State Tid Work) :
    (caller : Option (Caller Tid)) → Decidable (s.ResumingOther caller)
  | none => instDecidableOr
  | some _ => instDecidableOr

instance [Fintype Tid] (s : State Tid Work) :
    (e : Event Tid Work) → Decidable (WakesInTime s e)
  | .proceed _ => inferInstanceAs (Decidable (_ → _ → _))
  | .worker | .begin .. => .isTrue trivial

theorem nested_submissions_noLostWakeup : Throughout NoLostWakeup
      (record (permittedStep submits) [] (fresh 1 2)
        [.worker, .begin (some (.thread 0)) (.submit 0), .begin none (.submit 1), .proceed none,
          .worker, .proceed (some (.thread 0)), .worker])
      ((execute (permittedStep submits) (fresh 1 2)
        [.worker, .begin (some (.thread 0)) (.submit 0), .begin none (.submit 1), .proceed none,
          .worker, .proceed (some (.thread 0)), .worker]).get (by decide)) :=
  noLostWakeup_throughout (Run.executed _ _ fresh_initial _) (by decide)

/-- A handler submits a work between the worker's test of the list and its
`rt_thread_suspend`: the worker sleeps with a work in the list. -/
theorem submission_in_window_not_noLostWakeup :
    ∃ (taken : List (Taken (State (Fin 1) (Fin 1)) (Event (Fin 1) (Fin 1))))
      (last : State (Fin 1) (Fin 1)), (system submits).Run taken last ∧
        ¬ Throughout NoLostWakeup taken last := by
  have run := Run.execute (.start fresh_initial)
    (rfl : execute (permittedStep submits) (fresh 1 1)
      [.worker, .begin none (.submit 0), .proceed none, .worker] = some _)
  refine ⟨_, _, run, ?_⟩
  rintro ⟨noLoss, -⟩
  have empty := noLoss rfl (by decide) rfl
  revert empty
  decide

end RtThread.Workqueue
