import RtThread.Library.Words
import RtThread.Signal.Basic

/-!
# Delivering signals under a mask

The bits and the list agree as long as no signal is appended twice: then whatever node the loop
takes is of a pending signal.
-/

open TransitionSystem

namespace RtThread.Signal

open BitMask
open Option (ite_none_right_eq_some map_eq_some_iff)

universe u v

variable {Tid : Type u} {Obj : Type v} [DecidableEq Tid]

/-- Every handler was called for a signal that was pending and not masked when the loop
took its node. -/
def Delivered (s : State Tid Obj) : Prop :=
  ∀ invocation ∈ s.records.invoked, invocation.sigPending.getLsbD invocation.signo = true ∧
      invocation.sigMask.getLsbD invocation.signo = true

namespace SigThread

def handlerOf (thread : SigThread) (signo : Signo) : Option Handler :=
  thread.sigVectors.bind fun vectors => vectors signo

def HeadOpen (thread : SigThread) : Prop :=
  thread.Deliverable → ∀ signo ∈ thread.siList.head?,
    thread.sigMask.getLsbD signo = true ∨ thread.handlerOf signo = none

instance (thread : SigThread) : Decidable thread.HeadOpen :=
  have := fun signo : Signo => (inferInstance : Decidable
    (thread.sigMask.getLsbD signo = true ∨ thread.handlerOf signo = none))
  inferInstanceAs (Decidable (_ → ∀ _ ∈ _, _))

end SigThread

/-- No signal is appended that is pending already, and the loop finds no masked signal at
the head of the list. -/
def Undisturbed (s : State Tid Obj) : Event Tid → Prop
  | .act (.append _ tid sig) =>
    s.records.poolFree ≠ 0 → (s.records.thread tid).sigPending.getLsbD sig = false
  | .act (.enter t) =>
    (s.records.thread t).statSignalWait = false → (s.records.thread t).HeadOpen
  | .act (.back t) => (s.records.thread t).HeadOpen
  | _ => True

instance (s : State Tid Obj) : (e : Event Tid) → Decidable (Undisturbed s e)
  | .act action =>
    match action with
    | .append .. => instDecidableForall
    | .enter _ => inferInstanceAs (Decidable (_ → SigThread.HeadOpen _))
    | .back _ => inferInstanceAs (Decidable (SigThread.HeadOpen _))
    | .install .. | .mask .. | .unmask .. | .kill .. | .deliver .. | .switched _ | .wait ..
    | .waitResumed _ => .isTrue trivial
  | .suspend _ | .resume _ | .timeout _ => .isTrue trivial

def AppendsFresh (s : State Tid Obj) : Event Tid → Prop
  | .act (.append _ tid sig) =>
    s.records.poolFree ≠ 0 → (s.records.thread tid).sigPending.getLsbD sig = false
  | _ => True

omit [DecidableEq Tid] in
theorem Undisturbed.appendsFresh {s : State Tid Obj} {e : Event Tid}
    (undisturbed : Undisturbed s e) : AppendsFresh s e := by
  cases e with
  | act action =>
    cases action with
    | append => exact undisturbed
    | _ => trivial
  | _ => trivial

def SameQueue (after thread : SigThread) : Prop :=
  after.siList = thread.siList ∧ after.sigPending = thread.sigPending

def Removed (after thread : SigThread) (signo : Signo) : Prop :=
  after.siList = thread.siList.erase signo ∧
    after.sigPending = thread.sigPending &&& ~~~ sigMask signo

inductive Effect (s : State Tid Obj) (e : Event Tid) (after : State Tid Obj) : Prop where
  | kept (queues : ∀ t, SameQueue (after.records.thread t) (s.records.thread t))
      (invoked : after.records.invoked = s.records.invoked)
  | appended (tid : Tid) (sig : Signo)
      (fresh : AppendsFresh s e → (s.records.thread tid).sigPending.getLsbD sig = false)
      (queues : ∀ t, SameQueue (after.records.thread t)
        (Function.update s.records.thread tid ((s.records.thread tid).append sig) t))
      (invoked : after.records.invoked = s.records.invoked)
  | removed (t : Tid) (signo : Signo)
      (q : Removed (after.records.thread t) (s.records.thread t) signo)
      (others : ∀ u, u ≠ t → SameQueue (after.records.thread u) (s.records.thread u))
      (invoked : after.records.invoked = s.records.invoked)
  | invoked (t : Tid) (signo : Signo) (linked : signo ∈ (s.records.thread t).siList)
      (unmasked : Undisturbed s e →
        (s.records.thread t).sigMask.getLsbD signo = true)
      (q : Removed (after.records.thread t) (s.records.thread t) signo)
      (others : ∀ u, u ≠ t → SameQueue (after.records.thread u) (s.records.thread u))
      (invoked : after.records.invoked = s.records.invoked ++
        [⟨t, signo, (s.records.thread t).sigPending, (s.records.thread t).sigMask⟩])

variable {kernel : Kernel Tid Obj}

section effects

variable {s after : State Tid Obj} {e : Event Tid} {t : Tid}

variable {thread : SigThread}

theorem sameQueue_setThread (records : Records Tid) (same : SameQueue thread (records.thread t))
    (u : Tid) : SameQueue ((records.setThread t thread).thread u) (records.thread u) := by
  rw [Records.setThread_thread]
  split
  · rename_i isThread
    subst isThread
    exact same
  · exact ⟨rfl, rfl⟩

theorem Effect.ofSetThread (same : SameQueue thread (s.records.thread t)) :
    Effect s e ⟨kernel, s.records.setThread t thread⟩ :=
  .kept (sameQueue_setThread _ same) rfl

theorem handleTurn_effect {cleanState : Bool} {outer : List Frame}
    {outcome : SigThread × Option (Signo × Handler)}
    (turned : thread.handleTurn cleanState outer = some outcome) :
    (SameQueue outcome.1 thread ∧ outcome.2 = none) ∨
      ∃ signo, thread.Deliverable ∧ thread.siList.head? = some signo ∧
        Removed outcome.1 thread signo ∧
        outcome.2 = (thread.handlerOf signo).map fun handler => (signo, handler) := by
  unfold SigThread.handleTurn at turned
  split at turned
  · rename_i deliverable
    split at turned
    · cases turned
      exact .inl ⟨⟨rfl, rfl⟩, rfl⟩
    · rename_i signo rest list
      obtain ⟨vectors, isVectors, rfl⟩ := map_eq_some_iff.mp turned
      refine .inr ⟨signo, deliverable, by rw [list]; rfl, ⟨?_, rfl⟩, ?_⟩
      · rw [list, List.erase_cons_head]
      · rw [SigThread.handlerOf, isVectors]
        rfl
  · cases turned
    exact .inl ⟨⟨rfl, rfl⟩, rfl⟩

theorem afterTurn_effect {cleanState : Bool} {outer : List Frame}
    {outcome : SigThread × Option (Signo × Handler)} (poolFree : Nat)
    (turned : (s.records.thread t).handleTurn cleanState outer = some outcome)
    (headOpen : Undisturbed s e → (s.records.thread t).HeadOpen) :
    Effect s e ⟨kernel, Records.afterTurn { s.records with poolFree } t outcome⟩ := by
  have others : ∀ u, u ≠ t → SameQueue
      ((Records.afterTurn { s.records with poolFree } t outcome).thread u)
      (s.records.thread u) := by
    intro u other
    simp only [Records.afterTurn, Records.setThread_thread, if_neg other]
    exact ⟨rfl, rfl⟩
  have self : (Records.afterTurn { s.records with poolFree } t outcome).thread t =
      outcome.1 := Function.update_self ..
  rcases handleTurn_effect turned with ⟨same, noHandler⟩ |
    ⟨signo, deliverable, isHead, removed, isHandler⟩
  · refine .kept (fun u => ?_) (by simp only [Records.afterTurn, noHandler])
    rcases eq_or_ne u t with rfl | other
    · exact self ▸ same
    · exact others u other
  · cases handler : (s.records.thread t).handlerOf signo with
    | none =>
      refine .removed t signo (self ▸ removed) others ?_
      simp only [Records.afterTurn, isHandler, handler, Option.map_none]
    | some function =>
      refine .invoked t signo (List.mem_of_mem_head? isHead) ?_ (self ▸ removed) others ?_
      · intro undisturbed
        have isOpen := headOpen undisturbed deliverable signo isHead
        simpa [handler] using isOpen
      · simp only [Records.afterTurn, isHandler, handler, Option.map_some]

omit [DecidableEq Tid] in
theorem takeSignal_effect (thread : SigThread) (set : BitVec 32) :
    (thread.takeSignal set).1 = thread ∨
      ∃ signo, Removed (thread.takeSignal set).1 thread signo := by
  unfold SigThread.takeSignal
  split
  · exact .inl rfl
  · next signo _ => exact .inr ⟨signo, rfl, rfl⟩

theorem takeWaited_effect (same : SameQueue thread (s.records.thread t)) (set : BitVec 32) :
    Effect s e ⟨kernel, takeWaited s.records t thread set⟩ := by
  have self : (takeWaited s.records t thread set).thread t = (thread.takeSignal set).1 :=
    Function.update_self ..
  have others : ∀ u, u ≠ t →
      SameQueue ((takeWaited s.records t thread set).thread u) (s.records.thread u) := by
    intro u other
    simp only [takeWaited, Records.setThread_thread, if_neg other]
    exact ⟨rfl, rfl⟩
  rcases takeSignal_effect thread set with unchanged | ⟨signo, list, pending⟩
  · refine .kept (fun u => ?_) rfl
    rcases eq_or_ne u t with rfl | other
    · rw [self, unchanged]
      exact same
    · exact others u other
  · exact .removed t signo ⟨self ▸ same.1 ▸ list, self ▸ same.2 ▸ pending⟩ others rfl

variable [DecidableEq Obj]

theorem signalDeliver_effect (calls : List (Call Tid)) (c : Caller Tid) (tid : Tid) :
    Effect s e (signalDeliver { s with records := { s.records with calls } } c tid) := by
  unfold signalDeliver
  simp only
  split
  · exact .kept (fun _ => ⟨rfl, rfl⟩) rfl
  · split
    · exact .kept (sameQueue_setThread s.records ⟨rfl, rfl⟩) rfl
    · split
      · split <;> exact .kept (sameQueue_setThread s.records ⟨rfl, rfl⟩) rfl
      · split
        · exact .kept (sameQueue_setThread s.records ⟨rfl, rfl⟩) rfl
        · exact .kept (fun _ => ⟨rfl, rfl⟩) rfl

theorem act_effect {action : Action Tid} (acted : act s action = some after) :
    Effect s (.act action) after := by
  cases action with
  | install t signo handler =>
    obtain ⟨-, ⟨⟩⟩ := ite_none_right_eq_some.mp acted
    split
    · exact .ofSetThread ⟨rfl, rfl⟩
    · exact .kept (fun _ => ⟨rfl, rfl⟩) rfl
  | mask t signo =>
    simp only [act, ite_none_right_eq_some, map_eq_some_iff] at acted
    obtain ⟨-, signo, -, rfl⟩ := acted
    exact .ofSetThread ⟨rfl, rfl⟩
  | unmask t signo =>
    simp only [act, ite_none_right_eq_some, map_eq_some_iff] at acted
    obtain ⟨-, signo, -, rfl⟩ := acted
    unfold rtSignalUnmask
    simp only
    split <;> exact .kept (sameQueue_setThread s.records ⟨rfl, rfl⟩) rfl
  | kill c tid sig =>
    obtain ⟨-, ⟨⟩⟩ := ite_none_right_eq_some.mp acted
    split
    · unfold rtThreadKill
      simp only
      split <;> exact .kept (fun _ => ⟨rfl, rfl⟩) rfl
    · exact .kept (fun _ => ⟨rfl, rfl⟩) rfl
  | append c tid sig =>
    obtain ⟨-, ⟨⟩⟩ := ite_none_right_eq_some.mp acted
    unfold appendSignal
    split
    · exact .kept (fun _ => ⟨rfl, rfl⟩) rfl
    · next isFree => exact .appended tid sig (fun fresh => fresh isFree) (fun _ => ⟨rfl, rfl⟩) rfl
  | deliver c tid =>
    obtain ⟨-, ⟨⟩⟩ := ite_none_right_eq_some.mp acted
    exact signalDeliver_effect _ c tid
  | switched t =>
    obtain ⟨-, ⟨⟩⟩ := ite_none_right_eq_some.mp acted
    exact .ofSetThread ⟨rfl, rfl⟩
  | enter t =>
    simp only [act] at acted
    split at acted
    · rename_i cleanState outer frames
      simp only [ite_none_right_eq_some, map_eq_some_iff] at acted
      obtain ⟨-, outcome, handled, rfl⟩ := acted
      unfold SigThread.rtThreadHandleSig at handled
      split at handled
      · rename_i deliverable
        exact afterTurn_effect _ handled
          fun headOpen => headOpen deliverable.2
      · cases handled
        exact .kept (sameQueue_setThread s.records ⟨rfl, rfl⟩) rfl
    · simp at acted
  | back t =>
    simp only [act] at acted
    split at acted
    · rename_i cleanState signo outer frames
      simp only [ite_none_right_eq_some, map_eq_some_iff] at acted
      obtain ⟨-, outcome, turned, rfl⟩ := acted
      exact afterTurn_effect _ turned id
    · simp at acted
  | wait t set timeout =>
    obtain ⟨-, ⟨⟩⟩ := ite_none_right_eq_some.mp acted
    unfold rtSignalWait
    simp only
    split
    · exact .kept (fun _ => ⟨rfl, rfl⟩) rfl
    · split
      · exact takeWaited_effect ⟨rfl, rfl⟩ set
      · split
        · exact .kept (fun _ => ⟨rfl, rfl⟩) rfl
        · exact .ofSetThread ⟨rfl, rfl⟩
  | waitResumed t =>
    simp only [act] at acted
    split at acted
    · rename_i set isSet
      obtain ⟨-, ⟨⟩⟩ := ite_none_right_eq_some.mp acted
      unfold signalWaitResumed
      simp only
      split
      · exact .ofSetThread ⟨rfl, rfl⟩
      · have same : SameQueue
            { s.records.thread t with statSignalWait := false, waitSet := none }
            (s.records.thread t) := ⟨rfl, rfl⟩
        exact takeWaited_effect same set
    · simp at acted

theorem step_effect (ran : step s e = some after) : Effect s e after := by
  cases e with
  | act action => exact act_effect ran
  | suspend t | timeout t =>
    obtain ⟨-, ⟨⟩⟩ := ite_none_right_eq_some.mp ran
    exact .kept (fun _ => ⟨rfl, rfl⟩) rfl
  | resume t =>
    cases ran
    exact .kept (fun _ => ⟨rfl, rfl⟩) rfl

end effects

structure Queued (thread : SigThread) : Prop where
  nodup : thread.siList.Nodup
  pending : ∀ signo ∈ thread.siList, thread.sigPending.getLsbD signo = true

namespace Queued

variable {thread after : SigThread}

theorem congr (queued : Queued thread) (same : SameQueue after thread) : Queued after :=
  ⟨same.1 ▸ queued.nodup, same.1 ▸ same.2 ▸ queued.pending⟩

theorem append (queued : Queued thread) {sig : Signo}
    (fresh : thread.sigPending.getLsbD sig = false) : Queued (thread.append sig) := by
  have notIn : sig ∉ thread.siList := fun linked => by
    simp [queued.pending sig linked] at fresh
  constructor
  · refine List.nodup_append.mpr ⟨queued.nodup, List.nodup_singleton sig, ?_⟩
    intro signo linked last isLast
    rw [List.mem_singleton.mp isLast]
    exact fun same => notIn (same ▸ linked)
  · intro signo linked
    have inside : signo.val < 32 := signo.isLt
    simp only [SigThread.append, sigMask, getLsbD_or_one_shiftLeft _ inside]
    rcases List.mem_append.mp linked with earlier | last
    · rw [queued.pending signo earlier, Bool.true_or]
    · rw [List.mem_singleton.mp last, decide_eq_true rfl, Bool.or_true]

theorem removed (queued : Queued thread) {signo : Signo}
    (removed : Removed after thread signo) : Queued after := by
  obtain ⟨list, pending⟩ := removed
  constructor
  · rw [list]
    exact queued.nodup.erase signo
  · intro other linked
    obtain ⟨ne, linked⟩ := queued.nodup.mem_erase_iff.mp (list ▸ linked)
    rw [pending, sigMask, getLsbD_and_not_one_shiftLeft _ fun same => ne (Fin.ext same)]
    exact queued.pending other linked

end Queued

structure Inv (s : State Tid Obj) : Prop where
  queued : ∀ t, Queued (s.records.thread t)
  delivered : Delivered s

variable {s after : State Tid Obj} {e : Event Tid}

omit [DecidableEq Tid] in
theorem Inv.removed (inv : Inv s) {t : Tid} {signo : Signo}
    (q : Removed (after.records.thread t) (s.records.thread t) signo)
    (others : ∀ u, u ≠ t → SameQueue (after.records.thread u) (s.records.thread u)) (u : Tid) :
    Queued (after.records.thread u) := by
  classical
  rcases eq_or_ne u t with rfl | other
  · exact (inv.queued u).removed q
  · exact (inv.queued u).congr (others u other)

omit [DecidableEq Tid] in
theorem Delivered.congr (delivered : Delivered s)
    (invoked : after.records.invoked = s.records.invoked) : Delivered after := by
  intro invocation called
  exact delivered invocation (invoked ▸ called)

theorem Effect.inv (effect : Effect s e after) (inv : Inv s)
    (undisturbed : Undisturbed s e) : Inv after := by
  cases effect with
  | kept queues invoked =>
    exact ⟨fun t => (inv.queued t).congr (queues t), inv.delivered.congr invoked⟩
  | appended tid sig fresh queues invoked =>
    refine ⟨fun t => Queued.congr ?_ (queues t), inv.delivered.congr invoked⟩
    rw [Function.update_apply]
    split
    · exact (inv.queued tid).append (fresh undisturbed.appendsFresh)
    · exact inv.queued t
  | removed t signo q others invoked =>
    exact ⟨inv.removed q others, inv.delivered.congr invoked⟩
  | invoked t signo linked unmasked q others invoked =>
    refine ⟨inv.removed q others, ?_⟩
    intro invocation called
    rw [invoked] at called
    rcases List.mem_append.mp called with earlier | now
    · exact inv.delivered invocation earlier
    · rw [List.mem_singleton.mp now]
      exact ⟨(inv.queued t).pending signo linked, unmasked undisturbed⟩

omit [DecidableEq Tid] in
theorem Initial.inv (init : Initial s) : Inv s := by
  constructor
  · intro t
    rw [init.records_eq]
    exact ⟨List.nodup_nil, by simp [initRecords, initThread]⟩
  · intro invocation called
    rw [init.records_eq] at called
    simp [initRecords] at called

variable [DecidableEq Obj]

/-- In a run in which no signal is appended twice and no masked signal comes to the head of
the list while another is delivered, handlers are called for signals that are pending and
not masked. -/
theorem handlers_throughout
    {taken : List (Taken (State Tid Obj) (Event Tid))} {last : State Tid Obj}
    (run : system.Run taken last) (undisturbed : EveryStep Undisturbed taken) :
    Throughout Delivered taken last := by
  have base : ∀ s : State Tid Obj, Initial s → Inv s := fun _ init => init.inv
  refine Throughout.imp (fun _ => Inv.delivered)
    (run.throughout_of_everyStep base ?_ undisturbed)
  exact fun _ _ _ inv meets ran => (step_effect ran).inv inv meets

/-- `n` started threads of equal priority, with no IPC objects between them. -/
def fresh (n : Nat) : State (Fin n) Empty where
  kernel := Kernel.started (List.finRange n) fun _ => 10
  records := initRecords

theorem fresh_initial (n : Nat) : Initial (fresh n) where
  wellFormed := Kernel.started_wellFormed (List.nodup_finRange n) _
  records_eq := rfl

theorem unmasked_handlers : Throughout Delivered (record step [] (fresh 2)
        [.act (.install 1 5 (.function 7)), .act (.unmask 1 5), .act (.kill (.thread 0) 1 5),
          .act (.append (.thread 0) 1 5), .act (.deliver (.thread 0) 1), .act (.enter 1),
          .act (.back 1)]) ((execute step (fresh 2)
        [.act (.install 1 5 (.function 7)), .act (.unmask 1 5), .act (.kill (.thread 0) 1 5),
          .act (.append (.thread 0) 1 5), .act (.deliver (.thread 0) 1), .act (.enter 1),
          .act (.back 1)]).get (by decide +kernel)) :=
  handlers_throughout (Run.executed _ _ (fresh_initial 2) _) (by decide +kernel)

/-- Signal 5 is masked and comes first; the delivery of signal 6 takes its node. -/
theorem masked_head_not_delivered : ¬ ∀ (taken : List (Taken (State (Fin 2) Empty) (Event (Fin 2))))
      (last : State (Fin 2) Empty), system.Run taken last → Throughout Delivered taken last := by
  intro claim
  let events : List (Event (Fin 2)) :=
    [.act (.install 1 5 (.function 7)), .act (.unmask 1 6), .act (.kill (.thread 0) 1 5),
      .act (.append (.thread 0) 1 5), .act (.deliver (.thread 0) 1), .act (.kill (.thread 0) 1 6),
      .act (.append (.thread 0) 1 6), .act (.deliver (.thread 0) 1), .act (.enter 1)]
  have run : (@system (Fin 2) Empty _ _).Run _ _ :=
    .executed (fresh 2) events (fresh_initial 2) (by decide +kernel)
  have called := (claim _ _ run).1
  revert called
  unfold Delivered
  decide +kernel

end RtThread.Signal
