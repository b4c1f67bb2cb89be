import RtThread.Library.RingTable
import RtThread.Library.TransitionSystem

/-!
# Work queues

One work queue with its worker thread, works that are not delayed, and any number of
threads and interrupt handlers that submit and cancel.  The list of works is kept as
links, since `rt_work_init` and the walk of `rt_workqueue_cancel_all_work` see nodes,
not a list.

A step is a stretch of code that runs with interrupts disabled, one operation on the
list, one test, or one call of a thread service.  In particular a submission links the
work in one step and resumes the worker in another, and the worker tests the list in
one step and suspends itself in another.
-/

open Function (update)

namespace RtThread.Workqueue

universe u v

def pendingFlag : BitVec 16 := 0x0001

abbrev Node (Work : Type v) := RingNode Unit Work

inductive Worker where
  /-- In front of the test of `work_list`. -/
  | testing
  /-- The list was empty; in front of `rt_thread_suspend`. -/
  | suspending
  | suspended
  /-- Behind `rt_schedule`, or the list was not empty. -/
  | taking
  /-- In `work_func`. -/
  | working
  /-- `work_current` is `RT_NULL` again; in front of `_workqueue_work_completion`. -/
  | finished
  deriving DecidableEq

/-- A thread that calls the interface; the worker does so from `work_func`. -/
inductive Caller (Tid : Type u) where
  | thread (t : Tid)
  | worker
  deriving DecidableEq

inductive Operation (Work : Type v) where
  | init (work : Work)
  | submit (work : Work)
  | critical (work : Work)
  | cancel (work : Work)
  | cancelSync (work : Work)
  | cancelAll

/-- Where a call stands that is not over. -/
inductive Call (Work : Type v) where
  | idle
  /-- In front of `rt_thread_resume`. -/
  | resuming
  /-- In the loop of `rt_workqueue_cancel_all_work`, in front of its test. -/
  | walking (node : Node Work)
  /-- In that loop, in front of `rt_list_remove`. -/
  | removing (work : Work) (next : Node Work)
  /-- In `rt_sem_take`, for the completion of the work. -/
  | waiting (work : Work)
  /-- Behind `rt_sem_take`. -/
  | woken (work : Work)
  deriving DecidableEq

/-- `struct rt_workqueue`, its works, and the parties that use it.  `accepted` tells the
works that were submitted with `RT_EOK` and neither cancelled nor executed since. -/
structure State (Tid : Type u) (Work : Type v) where
  links : Links (Node Work)
  flags : Work → BitVec 16
  workCurrent : Option Work
  worker : Worker
  call : Caller Tid → Call Work
  handlers : List (Call Work)
  /-- The caller between `rt_enter_critical` and `rt_exit_critical`. -/
  lock : Option (Caller Tid)
  accepted : Work → Bool

inductive Code where
  | eok
  | ebusy
  deriving DecidableEq

/-- A party makes a step: the worker in `_workqueue_thread_entry`, or a caller (`none` for
an interrupt handler) that begins a call or goes on with it. -/
inductive Event (Tid : Type u) (Work : Type v) where
  | worker
  | begin (caller : Option (Caller Tid)) (operation : Operation Work)
  | proceed (caller : Option (Caller Tid))

variable {Tid : Type u} {Work : Type v} [DecidableEq Tid] [DecidableEq Work]

namespace State

def Pending (s : State Tid Work) (work : Work) : Prop :=
  s.flags work &&& pendingFlag ≠ 0

instance (s : State Tid Work) (work : Work) : Decidable (s.Pending work) := instDecidableNot

/-- A walk along `next` from the head of `work_list` comes to the work. -/
def Linked (s : State Tid Work) (work : Work) : Prop :=
  ∃ n, s.links.next^[n] (.head ()) = .entry work

def Empty (s : State Tid Work) : Prop := s.links.next (.head ()) = .head ()

instance (s : State Tid Work) : Decidable s.Empty := inferInstanceAs (Decidable (_ = _))

def setPending (s : State Tid Work) (work : Work) : State Tid Work :=
  { s with flags := update s.flags work (s.flags work ||| pendingFlag) }

def clearPending (s : State Tid Work) (work : Work) : State Tid Work :=
  { s with flags := update s.flags work (s.flags work &&& ~~~pendingFlag) }

def unlink (s : State Tid Work) (work : Work) : State Tid Work :=
  { s with links := s.links.remove (.entry work) }

/-- `rt_list_insert_after(queue->work_list.prev, &(work->list))`, behind a removal. -/
def relink (s : State Tid Work) (work : Work) : State Tid Work :=
  let links := s.links.remove (.entry work)
  { s with links := links.insertAfter (links.prev (.head ())) (.entry work) }

def setAccepted (s : State Tid Work) (work : Work) (accepted : Bool) : State Tid Work :=
  { s with accepted := update s.accepted work accepted }

/-- `rt_thread_resume(queue->work_thread)`: without effect on a worker that is ready. -/
def resumeWorker (s : State Tid Work) : State Tid Work :=
  match s.worker, s.call .worker with
  | .suspended, _ => { s with worker := .taking }
  | .working, .waiting work =>
    { s with call := update s.call .worker (.woken work) }
  | _, _ => s

end State

def rtWorkInit (s : State Tid Work) (work : Work) : State Tid Work :=
  { s with
    links := (s.links.setPrev (.entry work) (.entry work)).setNext (.entry work) (.entry work)
    flags := update s.flags work 0 }

/-- The locked part of `_workqueue_submit_work`, with what is left to do. -/
def workqueueSubmitWork (s : State Tid Work) (work : Work) :
    State Tid Work × Call Work × Code :=
  if s.Pending work then (s, .idle, .ebusy)
  else if s.workCurrent = some work then (s, .idle, .ebusy)
  else
    let s := (s.relink work).setPending work
    (s, if s.workCurrent = none then .resuming else .idle, .eok)

def rtWorkqueueCriticalWork (s : State Tid Work) (work : Work) :
    State Tid Work × Call Work × Code :=
  if s.workCurrent = some work then (s, .idle, .ebusy)
  else (s.relink work, if s.workCurrent = none then .resuming else .idle, .eok)

def workqueueCancelWork (s : State Tid Work) (work : Work) : State Tid Work × Code :=
  if s.workCurrent = some work then (s, .ebusy)
  else ((s.unlink work).clearPending work, .eok)

/-- The locked part of `rt_workqueue_cancel_work_sync`, up to its end or into
`rt_sem_take`.  The semaphore counts nothing: `_workqueue_work_completion` leaves its
value at zero. -/
def rtWorkqueueCancelWorkSync (s : State Tid Work) (work : Work) :
    State Tid Work × Call Work :=
  if s.workCurrent = some work then (s, .waiting work)
  else ((s.unlink work).clearPending work, .idle)

/-- The first step of a call.  `rt_sem_take` does not let a handler wait. -/
def begin (s : State Tid Work) (caller : Option (Caller Tid)) :
    Operation Work → Option (State Tid Work × Call Work)
  | .init work => some (rtWorkInit s work, .idle)
  | .submit work =>
    let (s, call, code) := workqueueSubmitWork s work
    some (if code = .eok then s.setAccepted work true else s, call)
  | .critical work =>
    let (s, call, code) := rtWorkqueueCriticalWork s work
    some (if code = .eok then s.setAccepted work true else s, call)
  | .cancel work =>
    let (s, code) := workqueueCancelWork s work
    some (if code = .eok then s.setAccepted work false else s, .idle)
  | .cancelSync work =>
    let (s, call) := rtWorkqueueCancelWorkSync s work
    if call = .idle then some (s.setAccepted work false, .idle)
    else if caller = none then none
    else some (s, call)
  | .cancelAll =>
    let s := match caller with
      | none => s
      | some caller => { s with lock := some caller }
    some (s, .walking (s.links.next (.head ())))

def unlock (s : State Tid Work) (caller : Option (Caller Tid)) : State Tid Work :=
  match caller with
  | none => s
  | some _ => { s with lock := none }

def proceed (s : State Tid Work) (caller : Option (Caller Tid)) :
    Call Work → Option (State Tid Work × Call Work)
  | .idle => none
  | .resuming => some (s.resumeWorker, .idle)
  | .walking node =>
    match node with
    | .head _ => some (unlock s caller, .idle)
    | .entry work => some (s, .removing work (s.links.next node))
  | .removing work next => some ((s.unlink work).setAccepted work false, .walking next)
  | .waiting _ => none
  | .woken work => some (s.clearPending work, .idle)

/-- `_workqueue_work_completion`: everyone in `rt_sem_take` goes on. -/
def workqueueWorkCompletion (s : State Tid Work) : State Tid Work :=
  { s with
    call := fun caller =>
      match s.call caller with
      | .waiting work => .woken work
      | call => call }

/-- A step of `_workqueue_thread_entry`.  There is no entry to take in an empty list. -/
def workqueueThreadEntry (s : State Tid Work) : Option (State Tid Work) :=
  match s.worker with
  | .testing =>
    if s.Empty then some { s with worker := .suspending }
    else some { s with worker := .taking }
  | .suspending => some { s with worker := .suspended }
  | .suspended => none
  | .taking =>
    match s.links.next (.head ()) with
    | .head _ => none
    | .entry work =>
      some
        { ((s.unlink work).clearPending work).setAccepted work false with
          workCurrent := some work
          worker := .working }
  | .working =>
    if s.call .worker = .idle then some { s with workCurrent := none, worker := .finished }
    else none
  | .finished => some { workqueueWorkCompletion s with worker := .testing }

def State.MayRun (s : State Tid Work) (caller : Caller Tid) : Prop :=
  s.handlers = [] ∧ (s.lock = none ∨ s.lock = some caller) ∧
    (caller = .worker → s.worker = .working)

instance (s : State Tid Work) (caller : Caller Tid) : Decidable (s.MayRun caller) :=
  inferInstanceAs (Decidable (_ ∧ _ ∧ (_ → _)))

def pushHandler (handlers : List (Call Work)) (call : Call Work) : List (Call Work) :=
  if call = .idle then handlers else call :: handlers

def step (s : State Tid Work) : Event Tid Work → Option (State Tid Work)
  | .worker =>
    if s.handlers = [] ∧ s.lock = none then workqueueThreadEntry s else none
  | .begin none operation =>
    (begin s none operation).map fun (after, call) =>
      { after with handlers := pushHandler s.handlers call }
  | .begin (some caller) operation =>
    if s.MayRun caller ∧ s.call caller = .idle then
      (begin s (some caller) operation).map fun (after, call) =>
        { after with call := update after.call caller call }
    else none
  | .proceed none =>
    match s.handlers with
    | [] => none
    | call :: rest =>
      (proceed s none call).map fun (after, call) =>
        { after with handlers := pushHandler rest call }
  | .proceed (some caller) =>
    if s.MayRun caller then
      (proceed s (some caller) (s.call caller)).map fun (after, call) =>
        { after with call := update after.call caller call }
    else none

/-- After `rt_workqueue_create`, with every work initialised. -/
structure Initial (s : State Tid Work) : Prop where
  links_eq : s.links = Links.selfLinked
  flags_eq : ∀ work, s.flags work = 0
  workCurrent_eq : s.workCurrent = none
  worker_eq : s.worker = .testing
  call_eq : ∀ caller, s.call caller = .idle
  handlers_eq : s.handlers = []
  lock_eq : s.lock = none
  accepted_eq : ∀ work, s.accepted work = false

/-- A step of a run in which only the `permitted` operations are called. -/
def permittedStep (permitted : Operation Work → Bool) (s : State Tid Work)
    (e : Event Tid Work) : Option (State Tid Work) :=
  match e with
  | .begin _ operation => if permitted operation then step s e else none
  | _ => step s e

def system (permitted : Operation Work → Bool) :
    TransitionSystem (State Tid Work) (Event Tid Work) :=
  TransitionSystem.ofFunction Initial (permittedStep permitted)

variable {Tid : Type u} {Work : Type v}

def Holds (s : State Tid Work) (works : List Work) : Prop :=
  s.links.Represents fun _ => works

def State.callOf (s : State Tid Work) : Option (Caller Tid) → Call Work
  | none => s.handlers.head?.getD .idle
  | some caller => s.call caller

structure SameQueue (s other : State Tid Work) : Prop where
  links : s.links = other.links
  flags : s.flags = other.flags
  workCurrent : s.workCurrent = other.workCurrent
  worker : s.worker = other.worker
  accepted : s.accepted = other.accepted

theorem SameQueue.refl (s : State Tid Work) : SameQueue s s := ⟨rfl, rfl, rfl, rfl, rfl⟩

theorem SameQueue.calls {s other : State Tid Work} (same : SameQueue s other)
    (call : Caller Tid → Call Work) (handlers : List (Call Work)) :
    SameQueue { s with call, handlers } other :=
  ⟨same.links, same.flags, same.workCurrent, same.worker, same.accepted⟩

section list

variable {s other : State Tid Work} {works : List Work}

theorem Holds.congr (holds : Holds other works) (same : SameQueue s other) : Holds s works := by
  rw [Holds, same.links]
  exact holds

section

variable (holds : Holds s works)

include holds

theorem Holds.nodup : works.Nodup := Links.Represents.nodup holds ()

theorem Holds.linked_iff (work : Work) :
    s.Linked work ↔ work ∈ works := Links.Represents.exists_iterate_iff holds () work

theorem Holds.empty_iff : s.Empty ↔ works = [] := Links.Represents.next_head_eq_iff holds ()

theorem Holds.next_head {work : Work} :
    s.links.next (.head ()) = .entry work ↔ works.head? = some work := by
  rw [Links.Represents.next_head holds]
  cases works <;> simp

end

variable [DecidableEq Tid] [DecidableEq Work]

section

omit [DecidableEq Tid]

theorem Holds.unlink (holds : Holds s works) (work : Work) :
    Holds (s.unlink work) (works.erase work) := Links.Represents.remove holds work

theorem Holds.relink (holds : Holds s works) (work : Work) :
    Holds (s.relink work) (works.erase work ++ [work]) := by
  have removed := Links.Represents.remove holds work
  have fresh : ∀ head : Unit, work ∉ (fun _ => works.erase work) head := by
    intro _ mem
    exact (holds.nodup.mem_erase_iff.mp mem).1 rfl
  exact removed.insertAfter_prev_head fresh

theorem Linked.rtWorkInit {work : Work} (linked : s.Linked work) :
    (rtWorkInit s work).Linked work := by
  apply Links.exists_iterate_congr _ linked
  intro n ne
  simp [Workqueue.rtWorkInit, ne]

theorem Holds.rtWorkInit (holds : Holds s works) {work : Work} (unlinked : work ∉ works) :
    Holds (rtWorkInit s work) works := by
  have alone := Links.Represents.alone holds work fun _ => unlinked
  have same : (Workqueue.rtWorkInit s work).links = s.links := by
    ext n
    · by_cases isWork : n = .entry work <;> simp [Workqueue.rtWorkInit, isWork, alone.1]
    · by_cases isWork : n = .entry work <;> simp [Workqueue.rtWorkInit, isWork, alone.2]
  rw [Holds, same]
  exact holds

end

end list

variable [DecidableEq Tid] [DecidableEq Work]

section resumeWorker

variable (s : State Tid Work)

omit [DecidableEq Work]

@[simp] theorem resumeWorker_links : s.resumeWorker.links = s.links := by
  unfold State.resumeWorker
  split <;> rfl

@[simp] theorem resumeWorker_flags : s.resumeWorker.flags = s.flags := by
  unfold State.resumeWorker
  split <;> rfl

@[simp] theorem resumeWorker_accepted : s.resumeWorker.accepted = s.accepted := by
  unfold State.resumeWorker
  split <;> rfl

@[simp] theorem resumeWorker_workCurrent : s.resumeWorker.workCurrent = s.workCurrent := by
  unfold State.resumeWorker
  split <;> rfl

@[simp] theorem resumeWorker_worker :
    s.resumeWorker.worker = if s.worker = .suspended then .taking else s.worker := by
  unfold State.resumeWorker
  split
  · next isWorker => simp [isWorker]
  · next isWorker _ => simp [isWorker]
  · next notSuspended _ => exact (if_neg notSuspended).symm

end resumeWorker

inductive Effect (s : State Tid Work) : Event Tid Work → State Tid Work → Prop where
  | initialised (caller : Option (Caller Tid)) (work : Work) :
      Effect s (.begin caller (.init work)) (rtWorkInit s work)
  | refused (caller : Option (Caller Tid)) (operation : Operation Work)
      (notInit : ∀ work, operation ≠ .init work)
      (busy : ∀ work, operation = .critical work ∨ operation = .cancel work →
        s.workCurrent = some work) :
      Effect s (.begin caller operation) s
  | submitted (caller : Option (Caller Tid)) (work : Work) (notPending : ¬ s.Pending work)
      (notCurrent : s.workCurrent ≠ some work) :
      Effect s (.begin caller (.submit work))
        (((s.relink work).setPending work).setAccepted work true)
  | moved (caller : Option (Caller Tid)) (work : Work)
      (notCurrent : s.workCurrent ≠ some work) :
      Effect s (.begin caller (.critical work)) ((s.relink work).setAccepted work true)
  | cancelled (caller : Option (Caller Tid)) (operation : Operation Work) (work : Work)
      (isCancel : operation = .cancel work ∨ operation = .cancelSync work)
      (notCurrent : s.workCurrent ≠ some work) :
      Effect s (.begin caller operation)
        (((s.unlink work).clearPending work).setAccepted work false)
  | resumed (caller : Option (Caller Tid)) (isCall : s.callOf caller = .resuming) :
      Effect s (.proceed caller) s.resumeWorker
  | walked (caller : Option (Caller Tid)) (node : Node Work)
      (isCall : s.callOf caller = .walking node) : Effect s (.proceed caller) s
  | removed (caller : Option (Caller Tid)) (work : Work) (next : Node Work)
      (isCall : s.callOf caller = .removing work next) :
      Effect s (.proceed caller) ((s.unlink work).setAccepted work false)
  | synced (caller : Option (Caller Tid)) (work : Work)
      (isCall : s.callOf caller = .woken work) :
      Effect s (.proceed caller) (s.clearPending work)
  | tested (isWorker : s.worker = .testing) :
      Effect s .worker
        { s with worker := if s.Empty then .suspending else .taking }
  | suspends (isWorker : s.worker = .suspending) :
      Effect s .worker { s with worker := .suspended }
  | took (isWorker : s.worker = .taking) (work : Work)
      (first : s.links.next (.head ()) = .entry work) :
      Effect s .worker
        { ((s.unlink work).clearPending work).setAccepted work false with
          workCurrent := some work
          worker := .working }
  | finished (isWorker : s.worker = .working) :
      Effect s .worker { s with workCurrent := none, worker := .finished }
  | completed (isWorker : s.worker = .finished) :
      Effect s .worker { s with worker := .testing }

variable {s s' : State Tid Work}

theorem begin_effect {c : Option (Caller Tid)} {op : Operation Work} {call : Call Work}
    (begun : begin s c op = some (s', call)) :
    ∃ base, Effect s (.begin c op) base ∧ SameQueue s' base := by
  cases op with
  | init work =>
    cases begun
    exact ⟨_, .initialised c work, .refl _⟩
  | submit work =>
    simp only [begin, workqueueSubmitWork] at begun
    split at begun
    · cases begun
      exact ⟨_, .refused c _ (by simp) (by simp), .refl _⟩
    · rename_i notPending
      split at begun
      · cases begun
        exact ⟨_, .refused c _ (by simp) (by simp), .refl _⟩
      · rename_i notCurrent
        cases begun
        exact ⟨_, .submitted c work notPending notCurrent, .refl _⟩
  | critical work =>
    simp only [begin, rtWorkqueueCriticalWork] at begun
    split at begun
    · rename_i isCurrent
      cases begun
      refine ⟨_, .refused c _ (by simp) ?_, .refl _⟩
      rintro _ (⟨⟨⟩⟩ | ⟨⟨⟩⟩)
      exact isCurrent
    · rename_i notCurrent
      cases begun
      exact ⟨_, .moved c work notCurrent, .refl _⟩
  | cancel work =>
    simp only [begin, workqueueCancelWork] at begun
    split at begun
    · rename_i isCurrent
      cases begun
      refine ⟨_, .refused c _ (by simp) ?_, .refl _⟩
      rintro _ (⟨⟨⟩⟩ | ⟨⟨⟩⟩)
      exact isCurrent
    · rename_i notCurrent
      cases begun
      exact ⟨_, .cancelled c _ work (.inl rfl) notCurrent, .refl _⟩
  | cancelSync work =>
    simp only [begin, rtWorkqueueCancelWorkSync] at begun
    split at begun
    · simp only [if_false] at begun
      obtain ⟨-, ⟨⟩⟩ := Option.ite_none_left_eq_some.mp begun
      exact ⟨_, .refused c _ (by simp) (by simp), .refl _⟩
    · rename_i notCurrent
      cases begun
      exact ⟨_, .cancelled c _ work (.inr rfl) notCurrent, .refl _⟩
  | cancelAll =>
    cases begun
    refine ⟨_, .refused c _ (by simp) (by simp), ?_⟩
    cases c <;> exact ⟨rfl, rfl, rfl, rfl, rfl⟩

theorem proceed_effect {c : Option (Caller Tid)} {call : Call Work}
    (proceeded : proceed s c (s.callOf c) = some (s', call)) :
    ∃ base, Effect s (.proceed c) base ∧ SameQueue s' base := by
  cases isCall : s.callOf c with
  | idle | waiting work => simp [proceed, isCall] at proceeded
  | resuming =>
    simp only [isCall] at proceeded
    obtain ⟨rfl, -⟩ := proceeded
    exact ⟨_, .resumed c isCall, .refl _⟩
  | walking n =>
    refine ⟨s, .walked c n isCall, ?_⟩
    cases n with
    | head _ =>
      simp only [isCall] at proceeded
      obtain ⟨rfl, -⟩ := proceeded
      cases c <;> exact ⟨rfl, rfl, rfl, rfl, rfl⟩
    | entry work =>
      simp only [isCall] at proceeded
      obtain ⟨rfl, -⟩ := proceeded
      exact .refl _
  | removing work next =>
    simp only [isCall] at proceeded
    obtain ⟨rfl, -⟩ := proceeded
    exact ⟨_, .removed c work next isCall, .refl _⟩
  | woken work =>
    simp only [isCall] at proceeded
    obtain ⟨rfl, -⟩ := proceeded
    exact ⟨_, .synced c work isCall, .refl _⟩

theorem workqueueThreadEntry_effect (ran : workqueueThreadEntry s = some s') :
    ∃ base, Effect s .worker base ∧ SameQueue s' base := by
  unfold workqueueThreadEntry at ran
  split at ran
  · rename_i isWorker
    refine ⟨_, .tested isWorker, ?_⟩
    split at ran
    · rename_i empty
      cases ran
      rw [if_pos empty]
      exact .refl _
    · rename_i notEmpty
      cases ran
      rw [if_neg notEmpty]
      exact .refl _
  · rename_i isWorker
    cases ran
    exact ⟨_, .suspends isWorker, .refl _⟩
  · simp at ran
  · rename_i isWorker
    split at ran
    · simp at ran
    · rename_i work a
      cases ran
      exact ⟨_, .took isWorker work a, .refl _⟩
  · rename_i isWorker
    obtain ⟨-, ⟨⟩⟩ := Option.ite_none_right_eq_some.mp ran
    exact ⟨_, .finished isWorker, .refl _⟩
  · rename_i isWorker
    cases ran
    exact ⟨_, .completed isWorker, ⟨rfl, rfl, rfl, rfl, rfl⟩⟩

theorem step_effect {e : Event Tid Work} (ran : step s e = some s') :
    ∃ base, Effect s e base ∧ SameQueue s' base := by
  cases e with
  | worker =>
    simp only [step, Option.ite_none_right_eq_some] at ran
    exact workqueueThreadEntry_effect ran.2
  | begin c op =>
    cases c with
    | none =>
      simp only [step, Option.map_eq_some_iff] at ran
      obtain ⟨⟨_, call⟩, begun, rfl⟩ := ran
      obtain ⟨base, effect, same⟩ := begin_effect begun
      exact ⟨base, effect, same.calls _ _⟩
    | some c =>
      simp only [step, Option.ite_none_right_eq_some, Option.map_eq_some_iff] at ran
      obtain ⟨-, ⟨_, call⟩, begun, rfl⟩ := ran
      obtain ⟨base, effect, same⟩ := begin_effect begun
      exact ⟨base, effect, same.calls _ _⟩
  | proceed c =>
    cases c with
    | none =>
      simp only [step] at ran
      split at ran
      · simp at ran
      · rename_i a rest isFirst
        simp only [Option.map_eq_some_iff] at ran
        obtain ⟨⟨_, call⟩, proceeded, rfl⟩ := ran
        have isCall : s.callOf none = a := by simp [State.callOf, isFirst]
        obtain ⟨base, effect, same⟩ := proceed_effect (isCall ▸ proceeded)
        exact ⟨base, effect, same.calls _ _⟩
    | some c =>
      simp only [step, Option.ite_none_right_eq_some, Option.map_eq_some_iff] at ran
      obtain ⟨-, ⟨_, call⟩, proceeded, rfl⟩ := ran
      obtain ⟨base, effect, same⟩ := proceed_effect proceeded
      exact ⟨base, effect, same.calls _ _⟩

theorem permittedStep_some {permitted : Operation Work → Bool} {e : Event Tid Work}
    (ran : permittedStep permitted s e = some s') :
    step s e = some s' ∧ ∀ c op, e = .begin c op → permitted op = true := by
  cases e with
  | worker | proceed c => exact ⟨ran, by simp⟩
  | begin c op =>
    simp only [permittedStep, Option.ite_none_right_eq_some] at ran
    refine ⟨ran.2, ?_⟩
    rintro _ _ ⟨⟩
    exact ran.1

def fresh (n m : Nat) : State (Fin n) (Fin m) where
  links := Links.selfLinked
  flags _ := 0
  workCurrent := none
  worker := .testing
  call _ := .idle
  handlers := []
  lock := none
  accepted _ := false

theorem fresh_initial {n m : Nat} : Initial (fresh n m) where
  links_eq := rfl
  flags_eq _ := rfl
  workCurrent_eq := rfl
  worker_eq := rfl
  call_eq _ := rfl
  handlers_eq := rfl
  lock_eq := rfl
  accepted_eq _ := rfl

omit [DecidableEq Tid] [DecidableEq Work] in
theorem Initial.holds {s : State Tid Work} (init : Initial s) : Holds s [] := by
  rw [Holds, init.links_eq]
  exact Links.represents_selfLinked

end RtThread.Workqueue
