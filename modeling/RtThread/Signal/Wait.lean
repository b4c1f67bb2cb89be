import RtThread.Signal.Delivery

/-!
# Waiting for a signal

The thread is woken for any signal that is pending and not masked; what `rt_signal_wait` returns
is then looked for among those of its set.
-/

open TransitionSystem

namespace RtThread.Signal

open BitMask

universe u v

variable {Tid : Type u} {Obj : Type v}

/-- A return of `rt_signal_wait`; `*si` may have been cleared only. -/
structure Return (Tid : Type u) where
  thread : Tid
  set : BitVec 32
  ret : Option RtErr
  si : Option Signo

/-- The return that a step of the model makes; `-RT_EINVAL` is `none`. -/
def waitReturn (s : State Tid Obj) : Event Tid → Option (Return Tid)
  | .act (.wait t set timeout) =>
    let thread := s.records.thread t
    if set = 0 then some ⟨t, set, none, none⟩
    else if thread.sigPending &&& set ≠ 0 then
      some ⟨t, set, some .eok, (thread.takeSignal set).2⟩
    else if timeout = 0 then some ⟨t, set, some .etimeout, none⟩
    else none
  | .act (.waitResumed t) =>
    let thread := s.records.thread t
    thread.waitSet.map fun set =>
      if (s.kernel.thread t).error = .etimeout then ⟨t, set, some .etimeout, none⟩
      else ⟨t, set, some .eok, (thread.takeSignal set).2⟩
  | _ => none

/-- With `RT_EOK` comes a signal of the set that was pending and is so no longer. -/
def ReturnsSignal (step : Taken (State Tid Obj) (Event Tid)) : Prop :=
  ∀ r ∈ waitReturn step.before step.event, r.ret = some .eok →
    ∃ signo ∈ r.si, r.set.getLsbD signo = true ∧
      (step.before.records.thread r.thread).sigPending.getLsbD signo = true ∧
      (step.after.records.thread r.thread).sigPending.getLsbD signo = false ∧
      signo ∉ (step.after.records.thread r.thread).siList

/-- No signal is appended that is pending already, and a thread that is woken in
`rt_signal_wait` has timed out or finds a signal of its set pending. -/
def WokenInSet (s : State Tid Obj) : Event Tid → Prop
  | .act (.append c tid sig) => AppendsFresh s (.act (.append c tid sig))
  | .act (.waitResumed t) => (s.kernel.thread t).error = .etimeout ∨
      ∀ set ∈ (s.records.thread t).waitSet, (s.records.thread t).sigPending &&& set ≠ 0
  | _ => True

instance [DecidableEq Tid] (s : State Tid Obj) : (e : Event Tid) → Decidable (WokenInSet s e)
  | .act action =>
    match action with
    | .append .. => instDecidableForall
    | .waitResumed _ => instDecidableOr
    | .install .. | .mask .. | .unmask .. | .kill .. | .deliver .. | .switched _ | .enter _
    | .back _ | .wait .. => .isTrue trivial
  | .suspend _ | .resume _ | .timeout _ => .isTrue trivial

theorem WokenInSet.appendsFresh {s : State Tid Obj} {e : Event Tid}
    (woken : WokenInSet s e) : AppendsFresh s e := by
  cases e with
  | act action =>
    cases action with
    | append => exact woken
    | _ => trivial
  | _ => trivial

structure Matched (thread : SigThread) : Prop extends Queued thread where
  linked : ∀ signo : Signo, thread.sigPending.getLsbD signo = true → signo ∈ thread.siList

theorem getLsbD_sigMask (signo other : Signo) :
    (sigMask signo).getLsbD other = decide (other = signo) := by
  have inside : other.val < 32 := other.isLt
  rw [sigMask, getLsbD_one_shiftLeft inside]
  exact decide_eq_decide.mpr Fin.ext_iff.symm

theorem sigMask_and_ne_zero (signo : Signo) (set : BitVec 32) :
    sigMask signo &&& set ≠ 0 ↔ set.getLsbD signo = true := by
  constructor
  · intro common
    by_contra absent
    refine common (BitVec.eq_of_getLsbD_eq fun i inside => ?_)
    have bit := getLsbD_sigMask signo ⟨i, inside⟩
    by_cases same : signo = ⟨i, inside⟩
    · subst same
      simpa using fun _ => absent
    · simp [bit, Ne.symm same]
  · intro isSet zero
    have bit := congrArg (fun bits => bits.getLsbD signo) zero
    rw [BitVec.getLsbD_and, getLsbD_sigMask, isSet] at bit
    simp at bit

namespace Matched

variable {thread after : SigThread} {signo : Signo}

section

variable (matched : Matched thread)

include matched

theorem congr (same : SameQueue after thread) : Matched after :=
  ⟨matched.toQueued.congr same, same.1 ▸ same.2 ▸ matched.linked⟩

theorem append (fresh : thread.sigPending.getLsbD signo = false) :
    Matched (thread.append signo) := by
  refine ⟨matched.toQueued.append fresh, fun other pending => List.mem_append.mpr ?_⟩
  have bits : (thread.sigPending ||| sigMask signo).getLsbD other = true := pending
  rw [BitVec.getLsbD_or, getLsbD_sigMask, Bool.or_eq_true, decide_eq_true_eq] at bits
  exact bits.imp (matched.linked other) List.mem_singleton.mpr

theorem removed (removed : Removed after thread signo) : Matched after := by
  refine ⟨matched.toQueued.removed removed, fun other pending => ?_⟩
  rw [removed.2, BitVec.getLsbD_and, BitVec.getLsbD_not, getLsbD_sigMask] at pending
  simp only [Bool.and_eq_true, Bool.not_eq_true', decide_eq_false_iff_not] at pending
  exact removed.1 ▸ (List.mem_erase_of_ne pending.2.2).mpr (matched.linked other pending.1)

theorem takeSignal {set : BitVec 32} (pending : thread.sigPending &&& set ≠ 0) :
    ∃ signo ∈ (thread.takeSignal set).2, set.getLsbD signo = true ∧
      thread.sigPending.getLsbD signo = true ∧
      (thread.takeSignal set).1.sigPending.getLsbD signo = false ∧
      signo ∉ (thread.takeSignal set).1.siList := by
  obtain ⟨i, inside, both⟩ :
      ∃ i, ∃ inside : i < 32, (thread.sigPending &&& set).getLsbD i = true := by
    by_contra none
    push Not at none
    exact pending (BitVec.eq_of_getLsbD_eq fun i inside => by simpa using none i inside)
  rw [BitVec.getLsbD_and, Bool.and_eq_true] at both
  unfold SigThread.takeSignal
  split
  · rename_i notFound
    have absent := List.find?_eq_none.mp notFound ⟨i, inside⟩ (matched.linked _ both.1)
    rw [decide_eq_true_eq, sigMask_and_ne_zero] at absent
    exact absurd both.2 absent
  · rename_i signo found
    have linked := List.mem_of_find?_eq_some found
    have isSet := List.find?_some found
    rw [decide_eq_true_eq, sigMask_and_ne_zero] at isSet
    refine ⟨signo, rfl, isSet, matched.pending signo linked, ?_, matched.nodup.not_mem_erase⟩
    rw [BitVec.getLsbD_and, BitVec.getLsbD_not, getLsbD_sigMask]
    simp

end

end Matched

theorem Initial.matched {s : State Tid Obj} (init : Initial s) (t : Tid) :
    Matched (s.records.thread t) := by
  refine ⟨init.inv.queued t, ?_⟩
  rw [init.records_eq]
  simp [initRecords, initThread]

variable [DecidableEq Tid] {s after : State Tid Obj} {e : Event Tid}

theorem Effect.matched (effect : Effect s e after) (matched : ∀ t, Matched (s.records.thread t))
    (fresh : AppendsFresh s e) (t : Tid) : Matched (after.records.thread t) := by
  cases effect with
  | kept queues => exact (matched t).congr (queues t)
  | appended tid sig isFresh queues =>
    refine Matched.congr ?_ (queues t)
    rw [Function.update_apply]
    split
    · exact (matched tid).append (isFresh fresh)
    · exact matched t
  | removed u signo q others | invoked u signo _ _ q others =>
    rcases eq_or_ne t u with rfl | other
    · exact (matched t).removed q
    · exact (matched t).congr (others t other)

variable [DecidableEq Obj]

theorem returnsSignal (matched : ∀ t, Matched (s.records.thread t)) (woken : WokenInSet s e)
    (ran : step s e = some after) : ReturnsSignal ⟨s, e, after⟩ := by
  intro r returned isOk
  cases e with
  | act action =>
    cases action with
    | wait t set timeout =>
      obtain ⟨-, ⟨⟩⟩ := Option.ite_none_right_eq_some.mp ran
      simp only [waitReturn] at returned
      split_ifs at returned with empty pending expired
      · cases returned
        cases isOk
      · cases returned
        obtain ⟨signo, found, isSet, wasPending, cleared, unlinked⟩ :=
          (matched t).takeSignal pending
        have self : ((rtSignalWait s t set timeout).records.thread t) =
            ((s.records.thread t).takeSignal set).1 := by
          rw [rtSignalWait, if_neg empty, if_pos pending]
          exact Function.update_self ..
        exact ⟨signo, found, isSet, wasPending, self ▸ cleared, self ▸ unlinked⟩
      · cases returned
        cases isOk
      · cases returned
    | waitResumed t =>
      obtain ⟨set, isSet : (s.records.thread t).waitSet = some set, rfl⟩ :=
        Option.map_eq_some_iff.mp returned
      split at isOk
      · cases isOk
      · rename_i notExpired
        simp only [step, act, isSet] at ran
        obtain ⟨-, ⟨⟩⟩ := Option.ite_none_right_eq_some.mp ran
        have self : ((signalWaitResumed s t set).records.thread t) =
            (({ s.records.thread t with statSignalWait := false, waitSet := none } :
              SigThread).takeSignal set).1 := by
          rw [signalWaitResumed, if_neg notExpired]
          exact Function.update_self ..
        have idle : Matched { s.records.thread t with statSignalWait := false, waitSet := none } :=
          (matched t).congr ⟨rfl, rfl⟩
        obtain ⟨signo, found, inSet, wasPending, cleared, unlinked⟩ :=
          idle.takeSignal (woken.resolve_left notExpired set isSet)
        have same : (({ s.records.thread t with statSignalWait := false, waitSet := none } :
            SigThread).takeSignal set).2 = ((s.records.thread t).takeSignal set).2 := by
          simp only [SigThread.takeSignal]
          split <;> rfl
        simp only [if_neg notExpired]
        exact ⟨signo, same ▸ found, inSet, wasPending, self ▸ cleared, self ▸ unlinked⟩
    | _ => cases returned
  | _ => cases returned

/-- In a run whose waiting threads are woken for their set only, every `RT_EOK` comes with a
signal of the set. -/
theorem returns_signals {taken : List (Taken (State Tid Obj) (Event Tid))} {last : State Tid Obj}
    (run : system.Run taken last) (woken : EveryStep WokenInSet taken) :
    ∀ step ∈ taken, ReturnsSignal step := by
  have throughout : Throughout (fun s => ∀ t, Matched (s.records.thread t)) taken last :=
    run.throughout_of_everyStep (fun _ init => Initial.matched init)
      (fun _ _ _ matched meets ran => (step_effect ran).matched matched meets.appendsFresh) woken
  exact fun step mem =>
    returnsSignal (throughout.2 step mem) (woken step mem) (run.step_of_mem mem)

theorem pending_signal_returned :
    let events : List (Event (Fin 2)) :=
      [.act (.kill (.thread 0) 1 5), .act (.append (.thread 0) 1 5), .act (.wait 1 32 0)]
    ∀ taken ∈ record step [] (fresh 2) events, ReturnsSignal taken := by
  intro events
  exact returns_signals (.executed _ events (fresh_initial 2) (by decide +kernel))
    (by decide +kernel)

/-- Thread 1 waits for signal 5 and is woken for signal 6. -/
theorem other_signal_not_returned : ¬ ∀ (taken : List (Taken (State (Fin 2) Empty) (Event (Fin 2))))
      (last : State (Fin 2) Empty), system.Run taken last → ∀ step ∈ taken, ReturnsSignal step := by
  intro claim
  let events : List (Event (Fin 2)) :=
    [.act (.unmask 1 6), .act (.wait 1 32 (-1)), .act (.kill (.thread 0) 1 6),
      .act (.append (.thread 0) 1 6), .act (.deliver (.thread 0) 1), .act (.switched 1),
      .act (.enter 1), .act (.waitResumed 1)]
  have run : (@system (Fin 2) Empty _ _).Run _ _ :=
    .executed (fresh 2) events (fresh_initial 2) (by decide +kernel)
  obtain ⟨signo, found, -⟩ := claim _ _ run _ List.mem_cons_self _ rfl rfl
  cases found

end RtThread.Signal
