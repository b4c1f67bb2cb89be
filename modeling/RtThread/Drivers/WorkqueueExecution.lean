import RtThread.Drivers.Workqueue

/-!
# The pending flag of a work

The flag and the place in the list are changed by seven operations.
-/

open TransitionSystem

namespace RtThread.Workqueue

universe u v

variable {Tid : Type u} {Work : Type v}

def FlagsLinked (s : State Tid Work) : Prop :=
  ∀ work, s.Pending work ↔ s.Linked work

/-- A step of a call that unlinks a work or clears its flag meets no pending work. -/
def Call.KeepsFlag (s : State Tid Work) : Call Work → Prop
  | .removing work _ => ¬ s.Pending work
  | .woken work => ¬ s.Pending work
  | _ => True

/-- The step does not change one of flag and list only:
- `rt_work_init` is not called for a pending work;
- `rt_workqueue_critical_work` is called for a pending work, or refused;
- the walk of `rt_workqueue_cancel_all_work` does not meet a pending work;
- a work whose completion `rt_workqueue_cancel_work_sync` has awaited was not submitted
  again in between. -/
def KeepsFlag (s : State Tid Work) : Event Tid Work → Prop
  | .begin _ (.init work) => ¬ s.Pending work
  | .begin _ (.critical work) => s.workCurrent = some work ∨ s.Pending work
  | .proceed caller => (s.callOf caller).KeepsFlag s
  | _ => True

theorem pending_or (flags : BitVec 16) : (flags ||| pendingFlag) &&& pendingFlag ≠ 0 := by
  intro zero
  have bit := congrArg (fun bits => bits.getLsbD 0) zero
  simp [pendingFlag] at bit

theorem not_pending_and (flags : BitVec 16) : flags &&& ~~~pendingFlag &&& pendingFlag = 0 := by
  rw [BitVec.and_assoc]
  simp

section flags

variable [DecidableEq Work] (s : State Tid Work) (work other : Work)

theorem pending_setPending :
    (s.setPending work).Pending other ↔ other = work ∨ s.Pending other := by
  by_cases same : other = work
  · subst same
    simpa [State.Pending, State.setPending] using pending_or (s.flags other)
  · simp [State.Pending, State.setPending, same]

theorem pending_clearPending :
    (s.clearPending work).Pending other ↔ other ≠ work ∧ s.Pending other := by
  by_cases same : other = work
  · subst same
    simpa [State.Pending, State.clearPending] using not_pending_and (s.flags other)
  · simp [State.Pending, State.clearPending, same]

theorem pending_rtWorkInit :
    (rtWorkInit s work).Pending other ↔ other ≠ work ∧ s.Pending other := by
  by_cases same : other = work
  · subst same
    simp [State.Pending, rtWorkInit]
  · simp [State.Pending, rtWorkInit, same]

end flags

section exactness

variable {s after base : State Tid Work} {e : Event Tid Work} {works : List Work}

theorem SameQueue.flagsLinked_iff (same : SameQueue after base) :
    FlagsLinked after ↔ FlagsLinked base := by
  unfold FlagsLinked State.Pending State.Linked
  rw [same.links, same.flags]

theorem Holds.flagsLinked_iff (holds : Holds s works) :
    FlagsLinked s ↔ ∀ work, s.Pending work ↔ work ∈ works :=
  forall_congr' fun work => iff_congr Iff.rfl (holds.linked_iff work)

variable [DecidableEq Tid] [DecidableEq Work]

theorem Effect.flagsLinked_iff (effect : Effect s e base) (holds : Holds s works)
    (flags : FlagsLinked s) :
    (FlagsLinked base ↔ KeepsFlag s e) ∧ (KeepsFlag s e → ∃ works', Holds base works') := by
  have pending := holds.flagsLinked_iff.mp flags
  have erased : ∀ work other, other ∈ works.erase work ↔ other ≠ work ∧ other ∈ works :=
    fun work other => holds.nodup.mem_erase_iff
  cases effect with
  | initialised c work =>
    have unlinkedIff : ¬ s.Pending work ↔ work ∉ works := not_congr (pending work)
    refine ⟨⟨?_, ?_⟩, fun keeps => ⟨works, holds.rtWorkInit (unlinkedIff.mp keeps)⟩⟩
    · intro flags' isPending
      have linked := (flags' work).mpr (Linked.rtWorkInit ((flags work).mp isPending))
      exact ((pending_rtWorkInit s work work).mp linked).1 rfl
    · intro notPending
      have kept := holds.rtWorkInit (unlinkedIff.mp notPending)
      rw [kept.flagsLinked_iff]
      intro other
      rw [pending_rtWorkInit, pending]
      have := unlinkedIff.mp notPending
      grind
  | refused c op notInit busy =>
    have keeps : KeepsFlag s (.begin c op) := by
      cases op with
      | init work => exact absurd rfl (notInit work)
      | critical work => exact .inl (busy work (.inl rfl))
      | submit | cancel | cancelSync | cancelAll => trivial
    exact ⟨iff_of_true flags keeps, fun _ => ⟨works, holds⟩⟩
  | submitted c work notPending notCurrent =>
    have kept : Holds (((s.relink work).setPending work).setAccepted work true)
        (works.erase work ++ [work]) := holds.relink work
    refine ⟨iff_of_true (kept.flagsLinked_iff.mpr ?_) trivial, fun _ => ⟨_, kept⟩⟩
    intro other
    have pendingAfter := pending_setPending (s.relink work) work other
    exact pendingAfter.trans (by
      change other = work ∨ s.Pending other ↔ _
      grind)
  | moved c work notCurrent =>
    have kept : Holds ((s.relink work).setAccepted work true)
        (works.erase work ++ [work]) := holds.relink work
    refine ⟨?_, fun _ => ⟨_, kept⟩⟩
    rw [kept.flagsLinked_iff]
    change (∀ other, s.Pending other ↔ _) ↔ s.workCurrent = some work ∨ s.Pending work
    grind
  | cancelled c op work isCancel notCurrent =>
    have kept : Holds (((s.unlink work).clearPending work).setAccepted work false)
        (works.erase work) := holds.unlink work
    have keeps : KeepsFlag s (.begin c op) := by rcases isCancel with rfl | rfl <;> trivial
    refine ⟨iff_of_true (kept.flagsLinked_iff.mpr ?_) keeps, fun _ => ⟨_, kept⟩⟩
    intro other
    rw [erased, ← pending]
    exact pending_clearPending (s.unlink work) work other
  | resumed c isCall =>
    have keeps : KeepsFlag s (.proceed c) := by
      rw [KeepsFlag, isCall]
      trivial
    refine ⟨iff_of_true ?_ keeps, fun _ => ⟨works, ?_⟩⟩
    · intro work
      simpa [State.Pending, State.Linked] using flags work
    · rw [Holds, resumeWorker_links]
      exact holds
  | walked c n isCall =>
    have keeps : KeepsFlag s (.proceed c) := by
      rw [KeepsFlag, isCall]
      trivial
    exact ⟨iff_of_true flags keeps, fun _ => ⟨works, holds⟩⟩
  | removed c work next isCall =>
    have kept : Holds ((s.unlink work).setAccepted work false) (works.erase work) :=
      holds.unlink work
    refine ⟨?_, fun _ => ⟨_, kept⟩⟩
    rw [kept.flagsLinked_iff, KeepsFlag, isCall]
    change (∀ other, s.Pending other ↔ _) ↔ ¬ s.Pending work
    grind
  | synced c work isCall =>
    have kept : Holds (s.clearPending work) works := holds
    refine ⟨?_, fun _ => ⟨_, kept⟩⟩
    rw [kept.flagsLinked_iff, KeepsFlag, isCall]
    change _ ↔ ¬ s.Pending work
    simp only [pending_clearPending]
    grind
  | tested isWorker | suspends isWorker | finished isWorker | completed isWorker =>
    exact ⟨iff_of_true flags trivial, fun _ => ⟨works, holds⟩⟩
  | took isWorker work a =>
    have kept : Holds
        { ((s.unlink work).clearPending work).setAccepted work false with
          workCurrent := some work
          worker := .working } (works.erase work) := holds.unlink work
    refine ⟨iff_of_true (kept.flagsLinked_iff.mpr ?_) trivial, fun _ => ⟨_, kept⟩⟩
    intro other
    rw [erased, ← pending]
    exact pending_clearPending (s.unlink work) work other

end exactness

variable [DecidableEq Tid] [DecidableEq Work]

omit [DecidableEq Tid] [DecidableEq Work] in
theorem Initial.flagsLinked {s : State Tid Work} (init : Initial s)
    (holds : Holds s []) : FlagsLinked s := by
  rw [holds.flagsLinked_iff]
  intro work
  simp [State.Pending, init.flags_eq]

/-- Over any run of any calls a work is pending exactly if it is linked, in every state,
exactly if every step keeps flag and list together. -/
theorem flagsLinked_throughout_iff {taken : List (Taken (State Tid Work) (Event Tid Work))}
    {last : State Tid Work} (run : (system fun _ => true).Run taken last) :
    Throughout FlagsLinked taken last ↔ EveryStep KeepsFlag taken := by
  have base : ∀ s : State Tid Work, Initial s →
      (∃ works, Holds s works) ∧ FlagsLinked s :=
    fun _ init => ⟨⟨[], init.holds⟩, init.flagsLinked init.holds⟩
  refine run.throughout_iff_everyStep_while base ?_ ?_
  · rintro s e after ⟨works, holds⟩ flags keeps step
    obtain ⟨base, effect, same⟩ := step_effect (permittedStep_some step).1
    obtain ⟨works', holds'⟩ := (effect.flagsLinked_iff holds flags).2 keeps
    exact ⟨works', holds'.congr same⟩
  · rintro s e after ⟨works, holds⟩ flags step
    obtain ⟨base, effect, same⟩ := step_effect (permittedStep_some step).1
    rw [same.flagsLinked_iff]
    exact (effect.flagsLinked_iff holds flags).1

omit [DecidableEq Tid] [DecidableEq Work] in
instance (s : State Tid Work) : (call : Call Work) → Decidable (call.KeepsFlag s)
  | .removing .. | .woken _ => instDecidableNot
  | .idle | .resuming | .walking _ | .waiting _ => .isTrue trivial

omit [DecidableEq Tid] in
instance (s : State Tid Work) : (e : Event Tid Work) → Decidable (KeepsFlag s e)
  | .begin _ (.init _) => instDecidableNot
  | .begin _ (.critical _) => instDecidableOr
  | .proceed caller => inferInstanceAs (Decidable ((s.callOf caller).KeepsFlag s))
  | .worker | .begin _ (.submit _) | .begin _ (.cancel _) | .begin _ (.cancelSync _)
  | .begin _ .cancelAll => .isTrue trivial

theorem awaited_work_flagsLinked : Throughout FlagsLinked
      (record (permittedStep fun _ => true) [] (fresh 1 2)
        [.worker, .worker, .begin none (.submit 0), .proceed none, .worker,
          .begin (some (.thread 0)) (.cancelSync 0), .begin (some .worker) (.submit 1),
          .begin (some .worker) (.critical 1), .worker, .worker, .proceed (some (.thread 0))])
      ((execute (permittedStep fun _ => true) (fresh 1 2)
        [.worker, .worker, .begin none (.submit 0), .proceed none, .worker,
          .begin (some (.thread 0)) (.cancelSync 0), .begin (some .worker) (.submit 1),
          .begin (some .worker) (.critical 1), .worker, .worker,
          .proceed (some (.thread 0))]).get (by decide)) :=
  (flagsLinked_throughout_iff (Run.executed _ _ fresh_initial _)).mpr (by decide)

/-- `rt_workqueue_cancel_all_work` unlinks a work that stays pending, and the work cannot
be submitted any more. -/
theorem cancelAll_not_flagsLinked :
    ∃ (taken : List (Taken (State (Fin 1) (Fin 1)) (Event (Fin 1) (Fin 1))))
      (last : State (Fin 1) (Fin 1)), (system fun _ => true).Run taken last ∧
        ¬ Throughout FlagsLinked taken last ∧
        last.Empty ∧ workqueueSubmitWork last 0 = (last, .idle, .ebusy) := by
  have run := Run.execute (.start fresh_initial)
    (rfl : execute (permittedStep fun _ => true) (fresh 1 1)
      [.begin (some (.thread 0)) (.submit 0), .proceed (some (.thread 0)),
        .begin (some (.thread 0)) .cancelAll, .proceed (some (.thread 0)),
        .proceed (some (.thread 0)), .proceed (some (.thread 0))] = some _)
  refine ⟨_, _, run, ?_, by decide, rfl⟩
  rintro ⟨flags, -⟩
  obtain ⟨n, reached⟩ := (flags 0).mp (by decide)
  rw [Function.iterate_fixed (by decide)] at reached
  simp at reached

variable {Tid : Type u} {Work : Type v}

/-- What the worker is about to take is a work, and one that was submitted with `RT_EOK`
and neither cancelled nor executed since. -/
def TakesAccepted (s : State Tid Work) : Prop :=
  s.worker = .taking →
    ∃ work, s.links.next (.head ()) = .entry work ∧ s.accepted work = true

def OnlyLinked (s : State Tid Work) (work : Work) : Prop :=
  s.links.next (.head ()) = .entry work ∧ s.links.prev (.head ()) = .entry work

/-- The step of a call leaves a worker that takes something to take. -/
def Call.LeavesWork (s : State Tid Work) : Call Work → Prop
  | .resuming => s.worker = .suspended → ¬ s.Empty
  | .removing work _ => s.worker = .taking → ¬ OnlyLinked s work
  | _ => True

/-- While the worker is between its test, or its wake-up, and the lock, no cancellation
takes the last work out; and no submitter wakes it with the list empty. -/
def LeavesWork (s : State Tid Work) : Event Tid Work → Prop
  | .begin _ (.cancel work) => s.worker = .taking → ¬ OnlyLinked s work
  | .proceed caller => (s.callOf caller).LeavesWork s
  | _ => True

/-- `rt_workqueue_dowork`, `rt_workqueue_submit_work`, `rt_workqueue_cancel_work` and
`rt_workqueue_cancel_all_work`. -/
def submitsOrCancels : Operation Work → Bool
  | .submit _ | .cancel _ | .cancelAll => true
  | .init _ | .critical _ | .cancelSync _ => false

structure Accepts (s : State Tid Work) (works : List Work) : Prop where
  holds : Holds s works
  accepted : ∀ work ∈ works, s.accepted work = true
  current : s.worker ≠ .working → s.workCurrent = none

section list

variable {s after base : State Tid Work} {works : List Work}

theorem Holds.onlyLinked_iff (holds : Holds s works) (work : Work) :
    OnlyLinked s work ↔ works = [work] := by
  have last := (Links.Represents.ring holds ()).prev_eq_getLast.2
  rw [OnlyLinked, holds.next_head, last]
  cases works with
  | nil => simp
  | cons a rest =>
    have nodup := holds.nodup
    rcases List.eq_nil_or_concat rest with rfl | ⟨front, final, rfl⟩
    · simp
    · simp
      rintro rfl rfl
      simp at nodup

theorem Accepts.takesAccepted_iff (accepts : Accepts s works) :
    TakesAccepted s ↔ (s.worker = .taking → works ≠ []) := by
  refine forall_congr' fun _ => ?_
  constructor
  · rintro ⟨work, first, -⟩ rfl
    simp [accepts.holds.next_head] at first
  · intro notEmpty
    obtain ⟨work, rest, rfl⟩ := List.exists_cons_of_ne_nil notEmpty
    exact ⟨work, accepts.holds.next_head.mpr rfl, accepts.accepted work List.mem_cons_self⟩

theorem Accepts.congr (accepts : Accepts base works) (same : SameQueue after base) :
    Accepts after works where
  holds := accepts.holds.congr same
  accepted := same.accepted ▸ accepts.accepted
  current := same.worker ▸ same.workCurrent ▸ accepts.current

theorem SameQueue.takesAccepted_iff (same : SameQueue after base) :
    TakesAccepted after ↔ TakesAccepted base := by
  unfold TakesAccepted
  rw [same.links, same.worker, same.accepted]

theorem erase_eq_nil_iff [DecidableEq Work] {work : Work} (notEmpty : works ≠ []) :
    works.erase work = [] ↔ works = [work] := by
  simp [notEmpty]

end list

section exactness

variable [DecidableEq Tid] [DecidableEq Work]
variable {s after base : State Tid Work} {e : Event Tid Work} {works : List Work}

omit [DecidableEq Tid] in
theorem Accepts.erase_iff (accepts : Accepts s works) (takes : TakesAccepted s) (work : Work) :
    (s.worker = .taking → works.erase work ≠ []) ↔ (s.worker = .taking → ¬ OnlyLinked s work) := by
  refine forall_congr' fun isTaking => ?_
  rw [Ne, erase_eq_nil_iff (accepts.takesAccepted_iff.mp takes isTaking),
    accepts.holds.onlyLinked_iff]

omit [DecidableEq Tid] in
theorem Accepts.accepted_erase (accepts : Accepts s works) (work : Work) :
    ∀ other ∈ works.erase work, Function.update s.accepted work false other = true := by
  intro other mem
  obtain ⟨ne, inList⟩ := accepts.holds.nodup.mem_erase_iff.mp mem
  rw [Function.update_of_ne ne]
  exact accepts.accepted other inList

theorem Effect.takesAccepted_iff (effect : Effect s e base)
    (permitted : ∀ c op, e = .begin c op → submitsOrCancels op = true) (accepts : Accepts s works) :
    ∃ works', Accepts base works' ∧ (TakesAccepted s → (TakesAccepted base ↔ LeavesWork s e)) := by
  cases effect with
  | initialised c work | moved c work notCurrent => simp [submitsOrCancels] at permitted
  | refused c op notInit busy =>
    refine ⟨works, accepts, fun takes => iff_of_true takes ?_⟩
    cases op with
    | cancel work =>
      intro isTaking
      have none := accepts.current (by simp [isTaking])
      simp [busy work (.inr rfl)] at none
    | init | submit | critical | cancelSync | cancelAll => trivial
  | submitted c work notPending notCurrent =>
    have accepts' : Accepts (((s.relink work).setPending work).setAccepted work true)
        (works.erase work ++ [work]) := by
      refine ⟨accepts.holds.relink work, ?_, accepts.current⟩
      intro other mem
      by_cases same : other = work
      · subst same
        exact Function.update_self ..
      · have inList : other ∈ works := by simpa [same] using mem
        exact (Function.update_of_ne same ..).trans (accepts.accepted other inList)
    refine ⟨_, accepts', fun _ => iff_of_true (accepts'.takesAccepted_iff.mpr ?_) trivial⟩
    simp
  | cancelled c op work isCancel notCurrent =>
    have accepts' : Accepts (((s.unlink work).clearPending work).setAccepted work false)
        (works.erase work) :=
      ⟨accepts.holds.unlink work, accepts.accepted_erase work, accepts.current⟩
    refine ⟨_, accepts', fun takes => ?_⟩
    rw [accepts'.takesAccepted_iff]
    rcases isCancel with rfl | rfl
    · exact accepts.erase_iff takes work
    · simp [submitsOrCancels] at permitted
  | resumed c isCall =>
    have accepts' : Accepts s.resumeWorker works := by
      refine ⟨?_, ?_, ?_⟩
      · rw [Holds, resumeWorker_links]
        exact accepts.holds
      · rw [resumeWorker_accepted]
        exact accepts.accepted
      · rw [resumeWorker_worker, resumeWorker_workCurrent]
        split
        · next isSuspended => exact fun _ => accepts.current (by simp [isSuspended])
        · exact accepts.current
    refine ⟨_, accepts', fun takes => ?_⟩
    have before := accepts.takesAccepted_iff.mp takes
    rw [accepts'.takesAccepted_iff, LeavesWork, isCall, resumeWorker_worker]
    change _ ↔ (s.worker = .suspended → ¬ s.Empty)
    rw [accepts.holds.empty_iff]
    grind
  | walked c n isCall =>
    have leaves : LeavesWork s (.proceed c) := by
      rw [LeavesWork, isCall]
      trivial
    exact ⟨works, accepts, fun takes => iff_of_true takes leaves⟩
  | removed c work next isCall =>
    have accepts' : Accepts ((s.unlink work).setAccepted work false) (works.erase work) :=
      ⟨accepts.holds.unlink work, accepts.accepted_erase work, accepts.current⟩
    refine ⟨_, accepts', fun takes => ?_⟩
    rw [accepts'.takesAccepted_iff, LeavesWork, isCall]
    exact accepts.erase_iff takes work
  | synced c work isCall =>
    have leaves : LeavesWork s (.proceed c) := by
      rw [LeavesWork, isCall]
      trivial
    exact ⟨works, ⟨accepts.holds, accepts.accepted, accepts.current⟩,
      fun takes => iff_of_true takes leaves⟩
  | tested isWorker =>
    have accepts' : Accepts
        { s with worker := if s.Empty then .suspending else .taking } works :=
      ⟨accepts.holds, accepts.accepted, fun _ => accepts.current (by simp [isWorker])⟩
    refine ⟨works, accepts', fun _ => iff_of_true (accepts'.takesAccepted_iff.mpr ?_) trivial⟩
    intro isTaking nil
    simp [accepts.holds.empty_iff.mpr nil] at isTaking
  | suspends isWorker | completed isWorker =>
    refine ⟨works, ⟨accepts.holds, accepts.accepted, fun _ => ?_⟩, fun _ => ?_⟩
    · exact accepts.current (by simp [isWorker])
    · exact iff_of_true (by simp [TakesAccepted]) trivial
  | took isWorker work a =>
    refine ⟨works.erase work, ⟨accepts.holds.unlink work, accepts.accepted_erase work, ?_⟩, ?_⟩
    · simp
    · exact fun _ => iff_of_true (by simp [TakesAccepted]) trivial
  | finished isWorker =>
    refine ⟨works, ⟨accepts.holds, accepts.accepted, fun _ => rfl⟩, fun _ => ?_⟩
    exact iff_of_true (by simp [TakesAccepted]) trivial

end exactness

variable [DecidableEq Tid] [DecidableEq Work]

omit [DecidableEq Tid] [DecidableEq Work] in
theorem Initial.accepts {s : State Tid Work} (init : Initial s) (holds : Holds s []) :
    Accepts s [] where
  holds := holds
  accepted := by simp
  current _ := init.workCurrent_eq

/-- Over any run of submissions and cancellations what the worker is about to take is an
accepted work, in every state, exactly if every step leaves it one to take. -/
theorem takesAccepted_throughout_iff {taken : List (Taken (State Tid Work) (Event Tid Work))}
    {last : State Tid Work} (run : (system submitsOrCancels).Run taken last) :
    Throughout TakesAccepted taken last ↔ EveryStep LeavesWork taken := by
  have invBase : ∀ s : State Tid Work, Initial s → ∃ works, Accepts s works :=
    fun _ init => ⟨[], init.accepts init.holds⟩
  refine run.throughout_iff_everyStep invBase ?_ ?_ ?_
  · rintro s e after ⟨works, accepts⟩ step
    obtain ⟨step, permitted⟩ := permittedStep_some step
    obtain ⟨base, effect, same⟩ := step_effect step
    obtain ⟨works', accepts', -⟩ := effect.takesAccepted_iff permitted accepts
    exact ⟨works', accepts'.congr same⟩
  · intro s init isTaking
    simp [init.worker_eq] at isTaking
  · rintro s e after ⟨works, accepts⟩ takes step
    obtain ⟨step, permitted⟩ := permittedStep_some step
    obtain ⟨base, effect, same⟩ := step_effect step
    obtain ⟨-, -, exact⟩ := effect.takesAccepted_iff permitted accepts
    rw [same.takesAccepted_iff]
    exact exact takes

section

omit [DecidableEq Tid]

instance (s : State Tid Work) (work : Work) : Decidable (OnlyLinked s work) := instDecidableAnd

instance (s : State Tid Work) : (call : Call Work) → Decidable (call.LeavesWork s)
  | .resuming | .removing .. => instDecidableForall
  | .idle | .walking _ | .waiting _ | .woken _ => .isTrue trivial

instance (s : State Tid Work) : (e : Event Tid Work) → Decidable (LeavesWork s e)
  | .begin _ (.cancel _) => instDecidableForall
  | .proceed caller => inferInstanceAs (Decidable ((s.callOf caller).LeavesWork s))
  | .worker | .begin _ (.init _) | .begin _ (.submit _) | .begin _ (.critical _)
  | .begin _ (.cancelSync _) | .begin _ .cancelAll => .isTrue trivial

end

theorem other_work_takesAccepted : Throughout TakesAccepted
      (record (permittedStep submitsOrCancels) [] (fresh 1 2)
        [.worker, .worker, .begin (some (.thread 0)) (.submit 0), .proceed (some (.thread 0)),
          .begin none (.submit 1), .proceed none, .begin (some (.thread 0)) (.cancel 0), .worker])
      ((execute (permittedStep submitsOrCancels) (fresh 1 2)
        [.worker, .worker, .begin (some (.thread 0)) (.submit 0), .proceed (some (.thread 0)),
          .begin none (.submit 1), .proceed none, .begin (some (.thread 0)) (.cancel 0),
          .worker]).get (by decide)) :=
  (takesAccepted_throughout_iff (Run.executed _ _ fresh_initial _)).mpr (by decide)

/-- A thread submits a work, which wakes the worker, and cancels it before the worker
runs: the worker takes the head of the list itself for a work. -/
theorem cancelled_work_not_takesAccepted :
    ∃ (taken : List (Taken (State (Fin 1) (Fin 1)) (Event (Fin 1) (Fin 1))))
      (last : State (Fin 1) (Fin 1)), (system submitsOrCancels).Run taken last ∧
        ¬ Throughout TakesAccepted taken last ∧ last.worker = .taking ∧ last.Empty := by
  have run := Run.execute (.start fresh_initial)
    (rfl : execute (permittedStep submitsOrCancels) (fresh 1 1)
      [.worker, .worker, .begin (some (.thread 0)) (.submit 0), .proceed (some (.thread 0)),
        .begin (some (.thread 0)) (.cancel 0)] = some _)
  refine ⟨_, _, run, ?_, rfl, by decide⟩
  rintro ⟨takes, -⟩
  obtain ⟨work, a, -⟩ := takes rfl
  revert a
  revert work
  decide

end RtThread.Workqueue
