import RtThread.Library.TransitionSystem

/-!
# Delayed works

One delayed work, the queues that it is submitted to and its timer.  The calls that cancel
it dispatch on its type and its flags, and call each other.
-/

open Function (update)
open TransitionSystem

namespace RtThread.DelayedWork

universe u

def statePending : BitVec 16 := 0x0001

def stateSubmitting : BitVec 16 := 0x0002

def typeDelayed : BitVec 16 := 0x0001

/-- `struct rt_delayed_work`: `linked` is the queue whose `work_list` it is in, `current` tells
the queues whose `work_current` it is, and `waiting` counts those that wait for its end. -/
structure Work (Queue : Type u) where
  flags : BitVec 16
  type : BitVec 16
  workqueue : Option Queue
  timer : Bool
  linked : Option Queue
  current : Queue → Bool
  waiting : Nat

inductive Code where
  | eok
  | ebusy
  | einval
  deriving DecidableEq

variable {Queue : Type u}

namespace Work

def Pending (work : Work Queue) : Prop := work.flags &&& statePending ≠ 0

instance (work : Work Queue) : Decidable work.Pending := instDecidableNot

def clearPending (work : Work Queue) : Work Queue :=
  { work with flags := work.flags &&& ~~~statePending }

def stopTimer (work : Work Queue) : Work Queue :=
  { work with timer := false, flags := work.flags &&& ~~~stateSubmitting }

/-- The end of `_workqueue_cancel_delayed_work`. -/
def detach (work : Work Queue) : Work Queue := { work.clearPending with workqueue := none }

end Work

def workqueueSubmitWork (work : Work Queue) (q : Queue) : Work Queue × Code :=
  if work.Pending then (work, .ebusy)
  else if work.current q then (work, .ebusy)
  else ({ work with linked := some q, flags := work.flags ||| statePending }, .eok)

def workqueueCancelWork (work : Work Queue) (q : Queue) : Work Queue × Code :=
  if work.current q then (work, .ebusy)
  else ({ work.clearPending with linked := none }, .eok)

mutual

/-- The result, if the call returns with at most `depth` calls inside each other. -/
def rtWorkqueueCancelWork : Nat → Work Queue → Queue → Option (Work Queue × Code)
  | 0, _, _ => none
  | depth + 1, work, q =>
    if work.type &&& typeDelayed ≠ 0 then workqueueCancelDelayedWork depth work
    else some (workqueueCancelWork work q)

def workqueueCancelDelayedWork : Nat → Work Queue → Option (Work Queue × Code)
  | 0, _ => none
  | depth + 1, work =>
    match work.workqueue with
    | none => some (work, .einval)
    | some q =>
      if work.Pending then
        (rtWorkqueueCancelWork depth work q).map fun (work, code) =>
          if code = .eok then (work.detach, .eok) else (work, code)
      else if work.flags &&& stateSubmitting ≠ 0 then some (work.stopTimer.detach, .eok)
      else some (work.detach, .eok)

end

structure Sound (work : Work Queue) : Prop where
  typed : work.type = typeDelayed
  timed : work.timer = true → work.flags &&& stateSubmitting ≠ 0

variable {work after : Work Queue} {q : Queue} {code : Code} {depth : Nat}

theorem detach_not_pending : ¬work.detach.Pending := by
  have cleared : work.flags &&& ~~~statePending &&& statePending = 0 := by
    rw [BitVec.and_assoc]
    exact BitVec.and_zero
  exact not_not.mpr cleared

theorem or_and_ne_zero {flags added mask : BitVec 16} :
    (flags ||| added) &&& mask ≠ 0 ↔ flags &&& mask ≠ 0 ∨ added &&& mask ≠ 0 := by
  rw [BitVec.and_or_distrib_right]
  exact (not_congr BitVec.or_eq_zero_iff).trans not_and_or

theorem cancelDelayed_pending (typed : work.type = typeDelayed) (attached : work.workqueue = some q)
    (pending : work.Pending) (depth : Nat) : workqueueCancelDelayedWork depth work = none := by
  induction depth using Nat.strongRecOn with
  | ind depth ih =>
    match depth with
    | 0 => rfl
    | 1 => simp [workqueueCancelDelayedWork, rtWorkqueueCancelWork, attached, pending]
    | depth + 2 =>
      have again := ih depth (by omega)
      simp [workqueueCancelDelayedWork, rtWorkqueueCancelWork, attached, pending, typed,
        typeDelayed, again]

theorem cancelDelayed_cases (typed : work.type = typeDelayed)
    (returns : workqueueCancelDelayedWork depth work = some (after, code)) :
    (after = work ∧ code = .einval ∧ work.workqueue = none) ∨ (¬work.Pending ∧ code = .eok ∧
        (after = work.stopTimer.detach ∨
          work.flags &&& stateSubmitting = 0 ∧ after = work.detach)) := by
  cases depth with
  | zero => contradiction
  | succ depth =>
    cases attached : work.workqueue with
    | none =>
      obtain ⟨rfl, rfl⟩ : work = after ∧ Code.einval = code := by
        simpa [workqueueCancelDelayedWork, attached] using returns
      exact .inl ⟨rfl, rfl, rfl⟩
    | some q =>
      by_cases pending : work.Pending
      · rw [cancelDelayed_pending typed attached pending] at returns
        contradiction
      · simp only [workqueueCancelDelayedWork, attached, pending, if_false] at returns
        split at returns
        · cases returns
          exact .inr ⟨pending, rfl, .inl rfl⟩
        · rename_i idle
          cases returns
          exact .inr ⟨pending, rfl, .inr ⟨not_not.mp idle, rfl⟩⟩

/-- `_workqueue_submit_delayed_work`, from "Attach workqueue" on. -/
def attach (work : Work Queue) (q : Queue) (ticks : BitVec 32) : Work Queue :=
  let work := { work with workqueue := some q }
  if ticks = 0 then (workqueueSubmitWork work q).1
  else { work with flags := work.flags ||| stateSubmitting, timer := true }

section

variable (inv : Sound work)

include inv

theorem Sound.clearPending : Sound work.clearPending where
  typed := inv.typed
  timed := by
    intro runs
    rw [Work.clearPending, BitVec.and_assoc]
    exact inv.timed runs

theorem Sound.stopTimer : Sound work.stopTimer where
  typed := inv.typed
  timed := by simp [Work.stopTimer]

theorem Sound.detach : Sound work.detach := ⟨inv.typed, inv.clearPending.timed⟩

theorem Sound.submitWork (q : Queue) : Sound (workqueueSubmitWork work q).1 := by
  unfold workqueueSubmitWork
  split
  · exact inv
  split
  · exact inv
  · refine ⟨inv.typed, fun runs => ?_⟩
    exact or_and_ne_zero.mpr (.inl (inv.timed runs))

theorem Sound.cancelDelayed (returns : workqueueCancelDelayedWork depth work = some (after, code)) :
    Sound after := by
  rcases cancelDelayed_cases inv.typed returns with
    ⟨rfl, -⟩ | ⟨-, -, rfl | ⟨-, rfl⟩⟩
  · exact inv
  · exact inv.stopTimer.detach
  · exact inv.detach

theorem Sound.cancel (returns : rtWorkqueueCancelWork depth work q = some (after, code)) :
    Sound after := by
  cases depth with
  | zero => contradiction
  | succ depth =>
    have typed : work.type &&& typeDelayed ≠ 0 := by rw [inv.typed]; decide
    rw [rtWorkqueueCancelWork, if_pos typed] at returns
    exact inv.cancelDelayed returns

theorem Sound.attach (q : Queue) (ticks : BitVec 32) : Sound (attach work q ticks) := by
  have attached : Sound { work with workqueue := some q } := ⟨inv.typed, inv.timed⟩
  unfold DelayedWork.attach
  split
  · exact attached.submitWork q
  · refine ⟨inv.typed, fun _ => ?_⟩
    exact or_and_ne_zero.mpr (.inr (by decide))

end

variable [DecidableEq Queue]

def workqueueSubmitDelayedWork (depth : Nat) (work : Work Queue) (q : Queue)
    (ticks : BitVec 32) : Option (Work Queue × Code) :=
  if work.workqueue = none then some (attach work q ticks, .eok)
  else if work.workqueue = some q then
    (workqueueCancelDelayedWork depth work).map fun (work, code) =>
      if code = .eok then (attach work q ticks, .eok) else (work, code)
  else some (work, .einval)

inductive Event (Queue : Type u) where
  | submit (q : Queue) (ticks : BitVec 32) (depth : Nat)
  | dowork (q : Queue)
  | critical (q : Queue)
  | timeout
  | take (q : Queue)
  | finish (q : Queue)
  | cancel (q : Queue) (depth : Nat)
  | cancelSync (q : Queue)
  | synced
  | cancelAll (q : Queue)

/-- A call on the work from its beginning to its end, or a step of a worker.  The handler of the
timer has no queue to submit to when the work is detached. -/
def step (work : Work Queue) : Event Queue → Option (Work Queue)
  | .submit q ticks depth =>
    (workqueueSubmitDelayedWork depth work q ticks).map Prod.fst
  | .dowork q => some (workqueueSubmitWork work q).1
  | .critical q =>
    some (if work.current q then work else { work with linked := some q })
  | .timeout =>
    if work.timer then
      work.workqueue.map fun q => (workqueueSubmitWork work.stopTimer q).1
    else none
  | .take q =>
    if work.linked = some q ∧ work.current q = false then
      some { work.clearPending with linked := none, current := update work.current q true }
    else none
  | .finish q =>
    if work.current q then some { work with current := update work.current q false }
    else none
  | .cancel q depth => (rtWorkqueueCancelWork depth work q).map Prod.fst
  | .cancelSync q =>
    if work.current q then some { work with waiting := work.waiting + 1 }
    else some { work.clearPending with linked := none }
  | .synced =>
    if 0 < work.waiting then some { work.clearPending with waiting := work.waiting - 1 } else none
  | .cancelAll q =>
    if work.linked = some q then some { work with linked := none } else some work

structure Initial (work : Work Queue) : Prop where
  flags_eq : work.flags = 0
  type_eq : work.type = typeDelayed
  workqueue_eq : work.workqueue = none
  timer_eq : work.timer = false
  linked_eq : work.linked = none
  current_eq : ∀ q, work.current q = false
  waiting_eq : work.waiting = 0

def system : TransitionSystem (Work Queue) (Event Queue) := ofFunction Initial step

/-- The call returns, and a work that it has cancelled is neither pending nor has a timer that
runs. -/
def Cancels (work : Work Queue) (q : Queue) : Prop :=
  ∃ depth after code, rtWorkqueueCancelWork depth work q = some (after, code) ∧
    (code = .eok → ¬after.Pending ∧ after.linked = none ∧ after.timer = false)

theorem Sound.submitDelayed (inv : Sound work) {ticks : BitVec 32}
    (returns : workqueueSubmitDelayedWork depth work q ticks = some (after, code)) :
    Sound after := by
  unfold workqueueSubmitDelayedWork at returns
  split at returns
  · obtain ⟨rfl, -⟩ := Prod.mk.inj (Option.some.inj returns)
    exact inv.attach q ticks
  split at returns
  · obtain ⟨⟨cancelled, code'⟩, isCancelled, returns⟩ := Option.map_eq_some_iff.mp returns
    have kept := inv.cancelDelayed isCancelled
    dsimp only at returns
    split at returns
    · obtain ⟨rfl, -⟩ := Prod.mk.inj returns
      exact kept.attach q ticks
    · obtain ⟨rfl, -⟩ := Prod.mk.inj returns
      exact kept
  · obtain ⟨rfl, -⟩ := Prod.mk.inj (Option.some.inj returns)
    exact inv

theorem step_sound {e : Event Queue} (inv : Sound work)
    (ran : step work e = some after) : Sound after := by
  cases e with
  | submit q ticks depth =>
    obtain ⟨⟨r, code⟩, returns, rfl⟩ := Option.map_eq_some_iff.mp ran
    exact inv.submitDelayed returns
  | dowork q =>
    cases ran
    exact inv.submitWork q
  | critical q =>
    cases ran
    split
    · exact inv
    · exact ⟨inv.typed, inv.timed⟩
  | timeout =>
    obtain ⟨-, ran⟩ := Option.ite_none_right_eq_some.mp ran
    obtain ⟨q, -, rfl⟩ := Option.map_eq_some_iff.mp ran
    exact inv.stopTimer.submitWork q
  | take q =>
    obtain ⟨-, taken⟩ := Option.ite_none_right_eq_some.mp ran
    cases taken
    exact ⟨inv.typed, inv.clearPending.timed⟩
  | finish q =>
    obtain ⟨-, finished⟩ := Option.ite_none_right_eq_some.mp ran
    cases finished
    exact ⟨inv.typed, inv.timed⟩
  | cancel q depth =>
    obtain ⟨⟨r, code⟩, returns, rfl⟩ := Option.map_eq_some_iff.mp ran
    exact inv.cancel returns
  | cancelSync q =>
    simp only [step] at ran
    split at ran
    · cases ran
      exact ⟨inv.typed, inv.timed⟩
    · cases ran
      exact ⟨inv.typed, inv.clearPending.timed⟩
  | synced =>
    obtain ⟨-, synced⟩ := Option.ite_none_right_eq_some.mp ran
    cases synced
    exact ⟨inv.typed, inv.clearPending.timed⟩
  | cancelAll q =>
    simp only [step] at ran
    split at ran
    · cases ran
      exact ⟨inv.typed, inv.timed⟩
    · cases ran
      exact inv

/-- A call that cancels the work returns, and does so cleanly, just when the work is detached or
is not in a queue. -/
theorem cancels_iff (reachable : (system : TransitionSystem (Work Queue) _).Reachable
    work) (q : Queue) :
    Cancels work q ↔ (work.workqueue ≠ none → ¬work.Pending ∧ work.linked = none) := by
  have inv : Sound work := by
    refine reachable.invariant (fun s init => ?_) fun _ _ _ => step_sound
    exact ⟨init.type_eq, by simp [init.timer_eq]⟩
  have typed : work.type &&& typeDelayed ≠ 0 := by rw [inv.typed]; decide
  constructor
  · rintro ⟨depth, after, code, returns, clean⟩ attached
    cases depth with
    | zero => contradiction
    | succ depth =>
      rw [rtWorkqueueCancelWork, if_pos typed] at returns
      rcases cancelDelayed_cases inv.typed returns with
        ⟨-, -, detached⟩ | ⟨idle, rfl, rfl | ⟨-, rfl⟩⟩
      · exact absurd detached attached
      · exact ⟨idle, (clean rfl).2.1⟩
      · exact ⟨idle, (clean rfl).2.1⟩
  · intro idle
    refine ⟨2, ?_⟩
    cases attached : work.workqueue with
    | none =>
      refine ⟨work, .einval, ?_, fun isOk => absurd isOk (by decide)⟩
      rw [rtWorkqueueCancelWork, if_pos typed, workqueueCancelDelayedWork]
      simp [attached]
    | some queue' =>
      obtain ⟨notPending, unlinked⟩ := idle (by simp [attached])
      by_cases submitting : work.flags &&& stateSubmitting = 0
      · refine ⟨work.detach, .eok, ?_, fun _ => ⟨detach_not_pending, unlinked, ?_⟩⟩
        · rw [rtWorkqueueCancelWork, if_pos typed, workqueueCancelDelayedWork]
          simp [attached, notPending, submitting]
        · exact Bool.eq_false_iff.mpr fun runs => inv.timed runs submitting
      · refine ⟨work.stopTimer.detach, .eok, ?_, fun _ => ⟨detach_not_pending, unlinked, rfl⟩⟩
        rw [rtWorkqueueCancelWork, if_pos typed, workqueueCancelDelayedWork]
        simp only [attached, notPending, if_false, if_pos submitting, ne_eq]

def initialized : Work Bool := ⟨0, typeDelayed, none, false, none, fun _ => false, 0⟩

theorem initialized_initial : Initial initialized := ⟨rfl, rfl, rfl, rfl, rfl, fun _ => rfl, rfl⟩

theorem timed_cancels : Cancels ((execute step initialized [.submit true 10 0]).get (by decide))
      true :=
  (cancels_iff (Run.executed _ _ initialized_initial _).reachable true).mpr fun _ => by decide

/-- A work that has been submitted without a delay is pending: the call that cancels it does not
return. -/
theorem pending_not_cancels :
    ¬ ∀ (work : Work Bool), system.Reachable work → ∀ q, Cancels work q := by
  intro claim
  have reachable : system.Reachable
      ((execute step initialized [.submit true 0 0]).get (by decide)) :=
    (Run.executed _ _ initialized_initial _).reachable
  obtain ⟨depth, after, code, returns, -⟩ := claim _ reachable true
  cases depth with
  | zero => contradiction
  | succ depth =>
    have loops : workqueueCancelDelayedWork depth
        ((execute step initialized [.submit true 0 0]).get (by decide)) = none :=
      @cancelDelayed_pending _ _ true rfl rfl (by decide) depth
    rw [rtWorkqueueCancelWork, if_pos (by decide), loops] at returns
    contradiction

end RtThread.DelayedWork
