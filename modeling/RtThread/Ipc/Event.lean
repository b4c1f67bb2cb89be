import RtThread.Kernel.Services
import RtThread.Library.TransitionSystem

/-!
# Events

`rt_event_send`, `rt_event_recv` and `rt_event_control` on one event object.  A send
walks the suspend list once; a woken receiver may clear bits while the walk is still
under way, and one that waits for any of its bits has its mask overwritten by what it
received.  `rtEventSend` walks the list it finds: the next node is read before the
current thread is taken out, so a removal does not change the rest of the walk.
-/

namespace RtThread.EventObject

universe u

def eventFlagAnd : BitVec 8 := 0x01

def eventFlagOr : BitVec 8 := 0x02

def eventFlagClear : BitVec 8 := 0x04

/-- One event object, `struct rt_event`, with the threads that use it. -/
structure State (Tid : Type u) where
  kernel : Kernel Tid Unit
  set : BitVec 32
  flag : IpcFlag
  /-- The thread is inside `rt_event_recv`, past `rt_ipc_list_suspend`. -/
  receiving : Tid → Bool

/-- A send may come from a thread or from an interrupt handler. -/
inductive Event (Tid : Type u) where
  | send (set : BitVec 32)
  | recv (t : Tid) (set : BitVec 32) (option : BitVec 8) (timeout : Int)
  | resumed (t : Tid)
  | reset
  | timeout (t : Tid)

variable {Tid : Type u} [DecidableEq Tid]

namespace State

def waiters (st : State Tid) : List Tid := st.kernel.queue (.wait ())

def Running (st : State Tid) (t : Tid) : Prop :=
  (st.kernel.thread t).stat = .ready ∧ st.receiving t = false

instance (st : State Tid) (t : Tid) : Decidable (st.Running t) := instDecidableAnd

end State

/-- The test both functions make of a mask against the event set, with the bits the
receiver's mask is left with when it succeeds. -/
def received (option : BitVec 8) (mask set : BitVec 32) : Option (BitVec 32) :=
  if option &&& eventFlagAnd ≠ 0 then
    if mask &&& set = mask then some mask else none
  else if option &&& eventFlagOr ≠ 0 then
    if mask &&& set ≠ 0 then some (mask &&& set) else none
  else none

def clear (option : BitVec 8) (mask set : BitVec 32) : BitVec 32 :=
  if option &&& eventFlagClear ≠ 0 then set &&& ~~~mask else set

/-- The `while` loop of `rt_event_send` over the rest of the suspend list. -/
def sendWalk (kernel : Kernel Tid Unit) (set : BitVec 32) :
    List Tid → Kernel Tid Unit × BitVec 32
  | [] => (kernel, set)
  | t :: rest =>
    let thread := kernel.thread t
    match received thread.eventInfo thread.eventSet set with
    | none => sendWalk kernel set rest
    | some mask =>
      sendWalk ((kernel.setThread t { thread with eventSet := mask }).rtThreadResume t)
        (clear thread.eventInfo mask set) rest

def rtEventSend (st : State Tid) (set : BitVec 32) : State Tid × RtErr :=
  if set = 0 then (st, .error)
  else
    let (kernel, left) := sendWalk st.kernel (st.set ||| set) st.waiters
    ({ st with kernel := kernel, set := left }, .eok)

/-- What a call of `rt_event_recv` has come to: a return value and `*recved`, or
suspension inside the call. -/
inductive Outcome where
  | returned (code : RtErr) (recved : Option (BitVec 32))
  | blocked

/-- `rt_event_recv` up to its return, or up to `rt_schedule` when the caller suspends.
The caller has passed the assertion that `option` names `AND` or `OR`. -/
def rtEventRecv (st : State Tid) (t : Tid) (set : BitVec 32) (option : BitVec 8)
    (timeout : Int) : State Tid × Outcome :=
  if set = 0 then (st, .returned .error none)
  else
    let kernel := st.kernel.setError t .eok
    match received option set st.set with
    | some _ =>
      ({ st with kernel := kernel, set := clear option set st.set },
        .returned .eok (some (st.set &&& set)))
    | none =>
      if timeout = 0 then
        ({ st with kernel := kernel.setError t .etimeout }, .returned .etimeout none)
      else
        let thread := { kernel.thread t with eventSet := set, eventInfo := option }
        ({ st with kernel := (kernel.setThread t thread).blockOn () t st.flag timeout },
          .blocked)

/-- The end of `rt_event_recv`, for a caller that was suspended. -/
def rtEventRecvResumed (st : State Tid) (t : Tid) : Outcome :=
  let thread := st.kernel.thread t
  if thread.error ≠ .eok then .returned thread.error none
  else .returned thread.error (some thread.eventSet)

def rtEventReset (st : State Tid) : State Tid :=
  { st with kernel := st.kernel.rtIpcListResumeAll (), set := 0 }

def step (st : State Tid) : Event Tid → Option (State Tid)
  | .send set => some (rtEventSend st set).1
  | .recv t set option timeout =>
    if st.Running t ∧ (option &&& eventFlagAnd ≠ 0 ∨ option &&& eventFlagOr ≠ 0) then
      match rtEventRecv st t set option timeout with
      | (after, .returned _ _) => some after
      | (after, .blocked) =>
        some { after with receiving := Function.update after.receiving t true }
    else none
  | .resumed t =>
    if st.receiving t ∧ (st.kernel.thread t).stat = .ready then
      some { st with receiving := Function.update st.receiving t false }
    else none
  | .reset => some (rtEventReset st)
  | .timeout t =>
    if (st.kernel.thread t).stat = .suspend ∧ (st.kernel.thread t).timer then
      some { st with kernel := st.kernel.rtThreadTimeout t }
    else none

structure Initial (flag : IpcFlag) (st : State Tid) : Prop where
  wellFormed : st.kernel.WellFormed
  noWaiters : st.waiters = []
  noCalls : ∀ t, st.receiving t = false
  set_eq : st.set = 0
  flag_eq : st.flag = flag

def system (flag : IpcFlag) : TransitionSystem (State Tid) (Event Tid) :=
  TransitionSystem.ofFunction (Initial flag) step

/-- The wait condition of a thread: all its bits for `AND`, else one of them. -/
def WaitSatisfied (thread : Thread) (set : BitVec 32) : Prop :=
  if thread.eventInfo &&& eventFlagAnd ≠ 0 then thread.eventSet &&& set = thread.eventSet
  else thread.eventSet &&& set ≠ 0

def NoLostWakeup (st : State Tid) : Prop :=
  ∀ t ∈ st.waiters, ¬ WaitSatisfied (st.kernel.thread t) st.set

def ValidOption (option : BitVec 8) : Prop :=
  option &&& eventFlagAnd ≠ 0 ∨ option &&& eventFlagOr ≠ 0

structure Inv (st : State Tid) : Prop where
  wellFormed : st.kernel.WellFormed
  valid : ∀ t ∈ st.waiters, ValidOption (st.kernel.thread t).eventInfo
  unsatisfied : NoLostWakeup st

variable {set : BitVec 32} {kernel : Kernel Tid Unit} {t : Tid} {st : State Tid} {option : BitVec 8}

theorem WaitSatisfied.mono {thread : Thread} {larger : BitVec 32} (subset : set &&& larger = set)
    (satisfied : WaitSatisfied thread set) : WaitSatisfied thread larger := by
  unfold WaitSatisfied at satisfied ⊢
  split
  · rename_i isAnd
    rw [if_pos isAnd] at satisfied
    calc thread.eventSet &&& larger
        = thread.eventSet &&& set &&& larger := by rw [satisfied]
      _ = thread.eventSet := by rw [BitVec.and_assoc, subset, satisfied]
  · rename_i isOr
    rw [if_neg isOr] at satisfied
    intro empty
    refine satisfied ?_
    rw [← subset, BitVec.and_comm set, ← BitVec.and_assoc, empty]
    exact BitVec.zero_and

theorem clear_subset (option : BitVec 8) (mask set : BitVec 32) :
    clear option mask set &&& set = clear option mask set := by
  unfold clear
  split
  · rw [BitVec.and_assoc, BitVec.and_comm (~~~mask), ← BitVec.and_assoc, BitVec.and_self]
  · exact BitVec.and_self

theorem received_eq_none_iff {thread : Thread} (valid : ValidOption thread.eventInfo)
    (set : BitVec 32) :
    received thread.eventInfo thread.eventSet set = none ↔ ¬ WaitSatisfied thread set := by
  unfold received WaitSatisfied
  by_cases isAnd : thread.eventInfo &&& eventFlagAnd ≠ 0
  · rw [if_pos isAnd, if_pos isAnd]
    simp
  · have isOr := valid.resolve_left isAnd
    rw [if_neg isAnd, if_neg isAnd, if_pos isOr]
    simp

structure WalkInv (kernel : Kernel Tid Unit) (set : BitVec 32) (ahead : List Tid) : Prop where
  wellFormed : kernel.WellFormed
  linked : ∀ t ∈ ahead, t ∈ kernel.queue (.wait ())
  nodup : ahead.Nodup
  valid : ∀ t ∈ kernel.queue (.wait ()), ValidOption (kernel.thread t).eventInfo
  passed : ∀ t ∈ kernel.queue (.wait ()), t ∉ ahead → ¬ WaitSatisfied (kernel.thread t) set

theorem WalkInv.wake {rest : List Tid}
    (inv : WalkInv kernel set (t :: rest)) (mask left : BitVec 32) (subset : left &&& set = left) :
    WalkInv ((kernel.setThread t { kernel.thread t with eventSet := mask }).rtThreadResume t)
      left rest := by
  obtain ⟨fresh, nodup⟩ := List.nodup_cons.mp inv.nodup
  have suspended := inv.wellFormed.waiting t () (inv.linked t List.mem_cons_self)
  have suspended' : ((kernel.setThread t
      { kernel.thread t with eventSet := mask }).thread t).stat = .suspend := by
    simpa using suspended
  have wf : (kernel.setThread t { kernel.thread t with eventSet := mask }).WellFormed :=
    inv.wellFormed.setThread rfl fun _ => rfl
  have mem : ∀ s, s ∈ ((kernel.setThread t
      { kernel.thread t with eventSet := mask }).rtThreadResume t).queue (.wait ()) ↔
      s ≠ t ∧ s ∈ kernel.queue (.wait ()) := by
    intro s
    rw [Kernel.rtThreadResume_wait suspended']
    exact inv.wellFormed.mem_erase s _
  refine ⟨wf.rtThreadResume t, ?_, nodup, ?_, ?_⟩
  · intro s membership
    have ne : s ≠ t := fun equal => fresh (equal ▸ membership)
    exact (mem s).mpr ⟨ne, inv.linked s (List.mem_cons_of_mem _ membership)⟩
  · intro s waits
    obtain ⟨ne, waits⟩ := (mem s).mp waits
    simpa [Kernel.rtThreadResume_thread suspended', ne] using inv.valid s waits
  · intro s waits notAhead satisfied
    obtain ⟨ne, waits⟩ := (mem s).mp waits
    simp only [Kernel.rtThreadResume_thread suspended', ne,
      Kernel.setThread_thread] at satisfied
    exact inv.passed s waits (by simp [ne, notAhead]) (satisfied.mono subset)

theorem WalkInv.skip {rest : List Tid} (inv : WalkInv kernel set (t :: rest))
    (unsatisfied : ¬ WaitSatisfied (kernel.thread t) set) : WalkInv kernel set rest := by
  refine ⟨inv.wellFormed, fun s mem => inv.linked s (List.mem_cons_of_mem _ mem),
    (List.nodup_cons.mp inv.nodup).2, inv.valid, ?_⟩
  intro s waits notAhead
  by_cases same : s = t
  · exact same ▸ unsatisfied
  · exact inv.passed s waits (by simp [same, notAhead])

theorem sendWalk_inv {ahead : List Tid} (inv : WalkInv kernel set ahead) :
    WalkInv (sendWalk kernel set ahead).1 (sendWalk kernel set ahead).2 [] := by
  induction ahead generalizing kernel set with
  | nil => exact inv
  | cons t rest ih =>
    have valid := inv.valid t (inv.linked t List.mem_cons_self)
    cases result : received (kernel.thread t).eventInfo (kernel.thread t).eventSet set with
    | none =>
      simp only [sendWalk, result]
      exact ih (inv.skip ((received_eq_none_iff valid set).mp result))
    | some mask =>
      simp only [sendWalk, result]
      exact ih (inv.wake mask _ (clear_subset _ _ _))

omit [DecidableEq Tid] in
theorem Initial.inv {flag : IpcFlag} (init : Initial flag st) : Inv st where
  wellFormed := init.wellFormed
  valid := by simp [init.noWaiters]
  unsatisfied := by simp [NoLostWakeup, init.noWaiters]

section

variable (inv : Inv st)

include inv

theorem rtEventSend_inv (set : BitVec 32) : Inv (rtEventSend st set).1 := by
  by_cases zero : set = 0
  · simpa [rtEventSend, zero] using inv
  · have start : WalkInv st.kernel (st.set ||| set) st.waiters :=
      ⟨inv.wellFormed, fun _ mem => mem, inv.wellFormed.nodup _, inv.valid,
        fun _ waits notAhead => absurd waits notAhead⟩
    have finish := sendWalk_inv start
    simp only [rtEventSend, zero]
    exact ⟨finish.wellFormed, finish.valid, fun t waits => finish.passed t waits (by simp)⟩

omit [DecidableEq Tid] in
theorem Inv.shrink {s' : State Tid} (wf : s'.kernel.WellFormed)
    (fewer : ∀ t ∈ s'.waiters, t ∈ st.waiters ∧
      (s'.kernel.thread t).eventInfo = (st.kernel.thread t).eventInfo ∧
    (s'.kernel.thread t).eventSet = (st.kernel.thread t).eventSet)
    (subset : s'.set &&& st.set = s'.set) : Inv s' := by
  refine ⟨wf, ?_, ?_⟩
  · intro t waits
    obtain ⟨waits, info, -⟩ := fewer t waits
    exact info ▸ inv.valid t waits
  · intro t waits satisfied
    obtain ⟨waits, info, mask⟩ := fewer t waits
    refine inv.unsatisfied t waits (WaitSatisfied.mono subset ?_)
    simpa only [WaitSatisfied, info, mask] using satisfied

theorem blocked_inv (running : st.Running t) (valid : ValidOption option)
    (notReceived : received option set st.set = none) (timeout : Int) :
    let kernel := st.kernel.setError t .eok
    let thread := { kernel.thread t with eventSet := set, eventInfo := option }
    Inv { st with
      kernel := (kernel.setThread t thread).blockOn () t st.flag timeout
      receiving := Function.update st.receiving t true } := by
  intro kernel thread
  have wf : (kernel.setThread t thread).WellFormed :=
    (inv.wellFormed.setError t .eok).setThread rfl fun _ => rfl
  have ready : ((kernel.setThread t thread).thread t).stat = .ready := by
    simpa [kernel, thread] using running.1
  have blocks := Kernel.blockOn_thread ready () st.flag timeout
  have mem : ∀ s, s ∈ ((kernel.setThread t thread).blockOn () t st.flag timeout).queue
      (.wait ()) ↔ s = t ∨ s ∈ st.waiters := by
    intro s
    rw [wf.blockOn_wait ready, if_pos rfl, Kernel.mem_insertWaiter]
    rfl
  refine ⟨wf.blockOn ready () _ timeout, ?_, ?_⟩
  · intro s waits
    by_cases same : s = t
    · simpa [same, blocks] using valid
    · simpa [same, blocks, kernel] using inv.valid s (((mem s).mp waits).resolve_left same)
  · intro s waits
    by_cases same : s = t
    · subst same
      have valid' : ValidOption ((kernel.setThread s thread).thread s).eventInfo := by
        simpa using valid
      have unsatisfied := (received_eq_none_iff valid' st.set).mp
        (by simpa using notReceived)
      simpa [WaitSatisfied, blocks] using unsatisfied
    · simpa [same, blocks, kernel] using
        inv.unsatisfied s (((mem s).mp waits).resolve_left same)

theorem rtEventReset_inv : Inv (rtEventReset st) := by
  have noWaiters : (rtEventReset st).waiters = [] := inv.wellFormed.rtIpcListResumeAll_wait ()
  exact ⟨inv.wellFormed.resumeAll _, by simp [noWaiters], by simp [NoLostWakeup, noWaiters]⟩

omit [DecidableEq Tid] in
theorem Inv.setKernel (wf : kernel.WellFormed) (sameQueue : kernel.queue = st.kernel.queue)
    (sameWait : ∀ t, (kernel.thread t).eventInfo = (st.kernel.thread t).eventInfo ∧
      (kernel.thread t).eventSet = (st.kernel.thread t).eventSet)
    (subset : set &&& st.set = set) : Inv { st with kernel := kernel, set := set } := by
  refine inv.shrink wf (fun t waits => ⟨?_, sameWait t⟩) subset
  simpa only [State.waiters, sameQueue] using waits

end

theorem setError_sameWait (kernel : Kernel Tid Unit) (t s : Tid) (code : RtErr) :
    ((kernel.setError t code).thread s).eventInfo = (kernel.thread s).eventInfo ∧
      ((kernel.setError t code).thread s).eventSet = (kernel.thread s).eventSet := by
  by_cases same : s = t <;> simp [same]

theorem step_inv {s' : State Tid} {e : Event Tid} (inv : Inv st)
    (ran : step st e = some s') : Inv s' := by
  cases e with
  | send set =>
    cases ran
    exact rtEventSend_inv inv set
  | recv t set option timeout =>
    obtain ⟨admitted, ran⟩ := Option.ite_none_right_eq_some.mp ran
    obtain ⟨running, valid⟩ := admitted
    by_cases zero : set = 0
    · simp only [rtEventRecv, if_pos zero, Option.some.injEq] at ran
      exact ran ▸ inv
    · cases result : received option set st.set with
      | some mask =>
        simp only [rtEventRecv, if_neg zero, result, Option.some.injEq] at ran
        subst ran
        exact inv.setKernel (inv.wellFormed.setError t .eok) rfl
          (fun s => setError_sameWait _ t s _) (clear_subset _ _ _)
      | none =>
        by_cases noWait : timeout = 0
        · simp only [rtEventRecv, if_neg zero, result, if_pos noWait, Option.some.injEq] at ran
          subst ran
          refine inv.setKernel ((inv.wellFormed.setError t .eok).setError t .etimeout) rfl
            (fun s => ?_) BitVec.and_self
          obtain ⟨info, mask⟩ := setError_sameWait (st.kernel.setError t .eok) t s .etimeout
          obtain ⟨info', mask'⟩ := setError_sameWait st.kernel t s .eok
          exact ⟨info.trans info', mask.trans mask'⟩
        · simp only [rtEventRecv, if_neg zero, result, if_neg noWait, Option.some.injEq] at ran
          subst ran
          exact blocked_inv inv running valid result timeout
  | resumed t =>
    obtain ⟨-, ⟨⟩⟩ := Option.ite_none_right_eq_some.mp ran
    exact ⟨inv.wellFormed, inv.valid, inv.unsatisfied⟩
  | reset =>
    cases ran
    exact rtEventReset_inv inv
  | timeout t =>
    obtain ⟨-, ⟨⟩⟩ := Option.ite_none_right_eq_some.mp ran
    refine inv.shrink (inv.wellFormed.rtThreadTimeout t) ?_ BitVec.and_self
    intro s waits
    obtain ⟨ne, waits⟩ := (inv.wellFormed.mem_erase s _).mp waits
    simp [State.waiters, waits, ne]

/-- Between the sections that run with interrupts disabled, no thread suspended on the
event object has its wait condition satisfied. -/
theorem reachable_noLostWakeup {flag : IpcFlag} {st : State Tid}
    (reachable : (system flag).Reachable st) : NoLostWakeup st := by
  have base : ∀ st, Initial flag st → Inv (st : State Tid) := fun _ init => init.inv
  exact (reachable.invariant base fun _ _ _ => step_inv).unsatisfied

/-- An event object just initialised, with `n` started threads of equal priority. -/
def fresh (n : Nat) (flag : IpcFlag) : State (Fin n) where
  kernel := Kernel.started (List.finRange n) fun _ => 10
  set := 0
  flag := flag
  receiving _ := false

theorem fresh_initial (n : Nat) (flag : IpcFlag) : Initial flag (fresh n flag) where
  wellFormed := Kernel.started_wellFormed (List.nodup_finRange n) _
  noWaiters := rfl
  noCalls _ := rfl
  set_eq := rfl
  flag_eq := rfl

theorem send_noLostWakeup : NoLostWakeup ((TransitionSystem.execute step (fresh 2 .fifo)
      [.recv 0 3 eventFlagAnd (-1), .recv 1 3 (eventFlagOr ||| eventFlagClear) 5, .send 1]).get
        (by decide)) :=
  reachable_noLostWakeup (TransitionSystem.Run.execute
    (.start (fresh_initial 2 .fifo)) (Option.some_get _).symm).reachable

theorem received_spec {mask got : BitVec 32} (result : received option mask set = some got) :
    got = set &&& mask ∧ clear option got set = clear option mask set := by
  have isGot : got = set &&& mask := by
    unfold received at result
    split_ifs at result with isAnd all isOr some
    · rw [BitVec.and_comm, all, Option.some.inj result]
    · rw [BitVec.and_comm, Option.some.inj result]
  refine ⟨isGot, ?_⟩
  unfold clear
  split
  · rw [isGot]
    ext i
    simp only [BitVec.getElem_and, BitVec.getElem_not]
    cases set[i] <;> cases mask[i] <;> rfl
  · rfl

theorem rtEventRecv_blocked {blocked : State Tid}
    {timeout : Int}
    (blocks : rtEventRecv st t set option timeout = (blocked, .blocked)) :
    set ≠ 0 ∧ timeout ≠ 0 ∧ blocked = { st with
      kernel := ((st.kernel.setError t .eok).setThread t
        { (st.kernel.setError t .eok).thread t with
          eventSet := set, eventInfo := option }).blockOn () t st.flag timeout } := by
  unfold rtEventRecv at blocks
  split at blocks
  · simp at blocks
  next nonzero =>
    split at blocks
    · simp at blocks
    split at blocks
    · simp at blocks
    · next waits => exact ⟨nonzero, waits, (Prod.mk.inj blocks).1.symm⟩

/-- A thread that blocks receives from the next send what it would have received had it called
behind it, and leaves the same set, when no other thread waits. -/
theorem recv_deferred_agrees {st blocked : State Tid} (wf : st.kernel.WellFormed)
    (noWaiters : st.waiters = []) {t : Tid} (running : st.Running t) {set sent : BitVec 32}
    {option : BitVec 8} {timeout : Int} (nonzero : sent ≠ 0)
    (blocks : rtEventRecv st t set option timeout = (blocked, .blocked)) :
    (∀ recved, ((rtEventSend blocked sent).1.kernel.thread t).stat = .ready ∧
        rtEventRecvResumed (rtEventSend blocked sent).1 t = .returned .eok (some recved) ↔
      (rtEventRecv (rtEventSend st sent).1 t set option timeout).2 = .returned .eok (some recved)) ∧
    (((rtEventSend blocked sent).1.kernel.thread t).stat = .ready ↔
      (rtEventRecv (rtEventSend st sent).1 t set option timeout).2 ≠ .blocked) ∧
    (rtEventSend blocked sent).1.set =
      (rtEventRecv (rtEventSend st sent).1 t set option timeout).1.set := by
  obtain ⟨wanted, waits, rfl⟩ := rtEventRecv_blocked blocks
  generalize isKernel : (st.kernel.setError t .eok).setThread t
    { (st.kernel.setError t .eok).thread t with eventSet := set, eventInfo := option } = kernel
  have ready : (kernel.thread t).stat = .ready := by simpa [← isKernel] using running.1
  have wellFormed' : kernel.WellFormed := isKernel ▸ (wf.setError t .eok).setThread rfl fun _ => rfl
  have waiters : (kernel.blockOn () t st.flag timeout).queue (.wait ()) = [t] := by
    have empty : kernel.queue (.wait ()) = [] := by rw [← isKernel]; exact noWaiters
    rw [wellFormed'.blockOn_wait ready, if_pos rfl, empty]
    cases st.flag <;> rfl
  have waiter := Kernel.blockOn_thread ready () st.flag timeout t
  rw [if_pos rfl] at waiter
  have mask : (kernel.thread t).eventSet = set := by simp [← isKernel]
  have info : (kernel.thread t).eventInfo = option := by simp [← isKernel]
  have nobody : st.kernel.queue (.wait ()) = [] := noWaiters
  cases result : received option set (st.set ||| sent) with
  | none =>
    simp only [rtEventSend, if_neg nonzero, State.waiters, waiters, nobody, sendWalk, waiter, mask,
      info, result, rtEventRecv, if_neg wanted, if_neg waits]
    simp
  | some got =>
    obtain ⟨isGot, cleared⟩ := received_spec result
    have resumed (thread : Thread) (suspended : thread.stat = .suspend) :
        (((kernel.blockOn () t st.flag timeout).setThread t thread).rtThreadResume t).thread t =
          { thread with stat := .ready, timer := false } := by
      rw [Kernel.rtThreadResume_thread (by simpa using suspended), if_pos rfl]
      simp
    simp only [rtEventSend, if_neg nonzero, State.waiters, waiters, nobody, sendWalk, waiter, mask,
      info, result, rtEventRecv, if_neg wanted, rtEventRecvResumed, cleared, resumed]
    simp [isGot]

theorem recv_deferred_or :
    (rtEventSend (rtEventRecv (fresh 1 .fifo) 0 3 (eventFlagOr ||| eventFlagClear) (-1)).1
        1).1.set =
      (rtEventRecv (rtEventSend (fresh 1 .fifo) 1).1 0 3 (eventFlagOr ||| eventFlagClear)
        (-1)).1.set :=
  (recv_deferred_agrees (fresh_initial 1 .fifo).wellFormed rfl ⟨rfl, rfl⟩ (by decide) rfl).2.2

end RtThread.EventObject
