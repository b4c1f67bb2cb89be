import RtThread.Ipc.MutexInvariant
import RtThread.Signal.Basic

/-!
# Mutexes and signals

A signal takes a waiting thread out of the suspend list and leaves `-RT_EINTR` in its
`error` when the handlers are through; `rt_mutex_take` then tries again, behind its test of
the owner and without a reset of `error`.  Handlers run in the thread that was interrupted
and may use the mutexes themselves.
-/

open Function (update update_of_ne update_self update_eq_self)
open TransitionSystem

namespace RtThread.Mutex.Interrupted

open Signal (Records SigThread Action)
open Option (ite_none_right_eq_some map_eq_some_iff)

universe u v

/-- The mutexes and the signals.  While a thread runs handlers, `interrupted` holds the
`rt_mutex_take` that each of its interrupted executions is inside of. -/
structure State (Tid : Type u) (Mid : Type v) where
  mutex : Mutex.State Tid Mid
  records : Records Tid
  interrupted : Tid → List (Option (Mid × Int))

inductive Event (Tid : Type u) (Mid : Type v) where
  | mutex (e : Mutex.Event Tid Mid)
  | signal (action : Action Tid)

variable {Tid : Type u} {Mid : Type v} [DecidableEq Tid]

namespace State

def Executes (st : State Tid Mid) : Mutex.Event Tid Mid → Prop
  | .take t _ _ | .release t _ | .resumed t => (st.records.thread t).Executing
  | .timeout _ => True

instance (st : State Tid Mid) :
    (e : Mutex.Event Tid Mid) → Decidable (st.Executes e)
  | .take t .. | .release t _ | .resumed t =>
    inferInstanceAs (Decidable (st.records.thread t).Executing)
  | .timeout _ => .isTrue trivial

/-- A thread calls the signal functions, and returns from a handler, outside of
`rt_mutex_take`. -/
def Free (st : State Tid Mid) : Action Tid → Prop
  | .install t _ _ | .mask t _ | .unmask t _ | .kill (.thread t) _ _ | .wait t _ _ | .back t =>
    st.mutex.taking t = none
  | _ => True

instance [DecidableEq Mid] (st : State Tid Mid) :
    (action : Action Tid) → Decidable (st.Free action)
  | .install t _ _ | .mask t _ | .unmask t _ | .kill (.thread t) _ _ | .wait t _ _ | .back t =>
    inferInstanceAs (Decidable (st.mutex.taking t = none))
  | .kill (.interrupt _) _ _ | .append .. | .deliver .. | .switched _ | .enter _
  | .waitResumed _ => .isTrue trivial

def interruptedCall (st : State Tid Mid) (t : Tid) : Option (Mid × Int) :=
  (st.interrupted t).head?.join

def enterHandlers (st : State Tid Mid) (t : Tid) : State Tid Mid :=
  { st with
    mutex := { st.mutex with taking := update st.mutex.taking t none }
    interrupted := update st.interrupted t (st.mutex.taking t :: st.interrupted t) }

def leaveHandlers (st : State Tid Mid) (t : Tid) : State Tid Mid :=
  { st with
    mutex := { st.mutex with
      taking := update st.mutex.taking t (st.interruptedCall t) }
    interrupted := update st.interrupted t (st.interrupted t).tail }

end State

def afterAction (st : State Tid Mid) (after : Signal.State Tid Mid) :
    Action Tid → State Tid Mid
  | .enter t =>
    let next := { st with
      mutex := { st.mutex with kernel := after.kernel }
      records := after.records }
    if (after.records.thread t).frames.length = (st.records.thread t).frames.length then
      next.enterHandlers t
    else next
  | .back t =>
    let next := { st with
      mutex := { st.mutex with kernel := after.kernel }
      records := after.records }
    if (after.records.thread t).frames.length < (st.records.thread t).frames.length then
      next.leaveHandlers t
    else next
  | _ =>
    { st with
      mutex := { st.mutex with kernel := after.kernel }
      records := after.records }

variable [DecidableEq Mid]

def step (st : State Tid Mid) : Event Tid Mid → Option (State Tid Mid)
  | .mutex e =>
    if st.Executes e then
      (Mutex.step st.mutex e).map fun mutex => { st with mutex }
    else none
  | .signal action =>
    if st.Free action then
      (Signal.act ⟨st.mutex.kernel, st.records⟩ action).map fun after =>
        afterAction st after action
    else none

structure Initial (st : State Tid Mid) : Prop where
  mutex : Mutex.Initial st.mutex
  records_eq : st.records = Signal.initRecords
  interrupted_eq : ∀ t, st.interrupted t = []

def system : TransitionSystem (State Tid Mid) (Event Tid Mid) :=
  ofFunction Initial step

/-- What `rt_mutex_take` returns when a suspended caller runs again; nothing if it suspends
again. -/
def takeReturns (st : Mutex.State Tid Mid) (t : Tid) (m : Mid) (time : Int) : Option RtErr :=
  if (st.kernel.thread t).error = .eintr then (rtMutexTakeAgain st t m time).2
  else some (st.kernel.thread t).error

/-- A caller of `rt_mutex_take` that owns the mutex can go on and returns `RT_EOK`, and
nobody waits for a mutex of its own. -/
structure HandOver (st : State Tid Mid) : Prop where
  returns : ∀ t m time, st.mutex.taking t = some (m, time) →
    (st.mutex.mutex m).owner = some t → (st.mutex.kernel.thread t).stat = .ready ∧
      takeReturns st.mutex t m time = some .eok
  notQueued : ∀ t m, t ∈ st.mutex.waiters m → (st.mutex.mutex m).owner ≠ some t

/-- The loop of `rt_thread_handle_sig` ends at its next test. -/
def LastTurn (thread : SigThread) : Prop := ¬ thread.Deliverable ∨ thread.siList = []

instance (thread : SigThread) : Decidable (LastTurn thread) := instDecidableOr

/-- The final release of a mutex does not find the error of an earlier signal in the first
waiter, and the handlers of a thread do not end in a call of `rt_mutex_take` for a mutex
that the thread owns by then. -/
def Undisturbed (st : State Tid Mid) : Event Tid Mid → Prop
  | .mutex (.release t m) =>
    (st.mutex.mutex m).owner = some t → ((st.mutex.mutex m).hold + 0xff) % 0x100 = 0 →
      ∀ next ∈ (st.mutex.waiters m).head?, (st.mutex.kernel.thread next).error ≠ .eintr
  | .signal (.back t) =>
    LastTurn (st.records.thread t) →
      ∀ call ∈ st.interruptedCall t, (st.mutex.mutex call.1).owner ≠ some t
  | _ => True

instance (st : State Tid Mid) : (e : Event Tid Mid) → Decidable (Undisturbed st e)
  | .mutex e =>
    match e with
    | .release _ m =>
      have : Decidable (∀ next ∈ (st.mutex.waiters m).head?,
          (st.mutex.kernel.thread next).error ≠ .eintr) := Option.decidableForallMem _
      show Decidable (_ → _ → _) from inferInstance
    | .take .. | .resumed _ | .timeout _ => .isTrue trivial
  | .signal action =>
    match action with
    | .back t =>
      have : Decidable (∀ call ∈ st.interruptedCall t,
          (st.mutex.mutex call.1).owner ≠ some t) := Option.decidableForallMem _
      show Decidable (_ → _) from inferInstance
    | .install .. | .mask .. | .unmask .. | .kill .. | .append .. | .deliver .. | .switched _
    | .enter _ | .wait .. | .waitResumed _ => .isTrue trivial

structure Handing (st : Mutex.State Tid Mid) : Prop where
  wellFormed : st.kernel.WellFormed
  waiting : ∀ t m, t ∈ st.waiters m → (st.mutex m).owner ≠ some t ∧
    (∃ time, st.taking t = some (m, time)) ∧
      ((st.kernel.thread t).error = .eok ∨ (st.kernel.thread t).error = .eintr)
  handed : ∀ t m time, st.taking t = some (m, time) → (st.mutex m).owner = some t →
    (st.kernel.thread t).stat = .ready ∧ (st.kernel.thread t).error = .eok

namespace Handing

variable {mutex after : Mutex.State Tid Mid} {t : Tid}

section

variable (handing : Handing mutex)

include handing

omit [DecidableEq Tid] [DecidableEq Mid] in
theorem move (t : Tid) (wf : after.kernel.WellFormed)
    (waits : ∀ s n, s ≠ t → s ∈ after.waiters n → s ∈ mutex.waiters n)
    (owner : ∀ s n, s ≠ t → mutex.taking s ≠ none → (after.mutex n).owner = some s →
      (mutex.mutex n).owner = some s) (taking : ∀ s, s ≠ t → after.taking s = mutex.taking s)
    (thread : ∀ s, s ≠ t → mutex.taking s ≠ none →
      (after.kernel.thread s).stat = (mutex.kernel.thread s).stat ∧
    (after.kernel.thread s).error = (mutex.kernel.thread s).error)
    (selfWaits : ∀ m, t ∈ after.waiters m → (after.mutex m).owner ≠ some t ∧
      (∃ time, after.taking t = some (m, time)) ∧
    ((after.kernel.thread t).error = .eok ∨ (after.kernel.thread t).error = .eintr))
    (selfHanded : ∀ m time, after.taking t = some (m, time) → (after.mutex m).owner = some t →
      (after.kernel.thread t).stat = .ready ∧ (after.kernel.thread t).error = .eok) :
    Handing after := by
  refine ⟨wf, ?_, ?_⟩
  · intro s n inList
    rcases eq_or_ne s t with rfl | ne
    · exact selfWaits n inList
    · obtain ⟨notOwner, ⟨time, isTaking⟩, error⟩ := handing.waiting s n (waits s n ne inList)
      have inCall : mutex.taking s ≠ none := by simp [isTaking]
      refine ⟨mt (owner s n ne inCall) notOwner, ⟨time, ?_⟩, ?_⟩
      · rw [taking s ne, isTaking]
      · rwa [(thread s ne inCall).2]
  · intro s n time isTaking owns
    rcases eq_or_ne s t with rfl | ne
    · exact selfHanded n time isTaking owns
    · rw [taking s ne] at isTaking
      have inCall : mutex.taking s ≠ none := by simp [isTaking]
      obtain ⟨sameStat, sameError⟩ := thread s ne inCall
      rw [sameStat, sameError]
      exact handing.handed s n time isTaking (owner s n ne inCall owns)

omit [DecidableEq Tid] [DecidableEq Mid] in
theorem outside (wf : after.kernel.WellFormed) (ready : (after.kernel.thread t).stat = .ready)
    (waits : ∀ s n, s ∈ after.waiters n → s ∈ mutex.waiters n)
    (owner : ∀ s n, s ≠ t → mutex.taking s ≠ none → (after.mutex n).owner = some s →
      (mutex.mutex n).owner = some s) (taking : ∀ s, s ≠ t → after.taking s = mutex.taking s)
    (noCall : after.taking t = none)
    (thread : ∀ s, s ≠ t → mutex.taking s ≠ none →
      (after.kernel.thread s).stat = (mutex.kernel.thread s).stat ∧
    (after.kernel.thread s).error = (mutex.kernel.thread s).error) : Handing after := by
  refine handing.move t wf (fun s n _ => waits s n) owner taking thread ?_ ?_
  · intro m inList
    exact absurd inList (wf.not_waiting (by simp [ready]) m)
  · intro m time isTaking
    simp [noCall] at isTaking

section

variable (ready : (mutex.kernel.thread t).stat = .ready)

include ready

omit [DecidableEq Tid] [DecidableEq Mid] in
theorem notWaiting (m : Mid) : t ∉ mutex.waiters m :=
  handing.wellFormed.not_waiting (by simp [ready]) m

omit [DecidableEq Mid] in
theorem goOn (call : Option (Mid × Int))
    (notOwner : ∀ m time, call = some (m, time) → (mutex.mutex m).owner ≠ some t) :
    Handing { mutex with taking := update mutex.taking t call } := by
  refine handing.move t handing.wellFormed (fun _ _ _ => id) (fun _ _ _ _ => id) ?_
    (fun _ _ _ => ⟨rfl, rfl⟩) ?_ ?_
  · exact fun s ne => update_of_ne ne ..
  · exact fun m waits => absurd waits (handing.notWaiting ready m)
  · intro m time isTaking owns
    simp only [update_self] at isTaking
    exact absurd owns (notOwner m time isTaking)

theorem block
    (error : (mutex.kernel.thread t).error = .eok ∨ (mutex.kernel.thread t).error = .eintr)
    {m : Mid} (notOwner : (mutex.mutex m).owner ≠ some t) (time : Int) : Handing
      { mutex with
        kernel := waitFor mutex.kernel t m (mutex.mutex m) time
        taking := update mutex.taking t (some (m, time)) } := by
  have mem := mem_waitFor_wait ready m (mutex.mutex m) time handing.wellFormed
  have thread := fun s => waitFor_thread ready m (mutex.mutex m) time s notOwner
  refine handing.move t (waitFor_wellFormed ready m (mutex.mutex m) time handing.wellFormed)
    ?_ (fun _ _ _ _ => id) (fun s ne => update_of_ne ne ..) ?_ ?_ ?_
  · intro s n ne waits
    exact ((mem n s).mp waits).resolve_left fun self => ne self.1
  · intro s ne _
    simp only [thread, if_neg ne]
    split <;> exact ⟨rfl, rfl⟩
  · intro n waits
    rcases (mem n t).mp waits with ⟨-, rfl⟩ | waited
    · refine ⟨notOwner, ⟨time, update_self ..⟩, ?_⟩
      simpa only [thread, if_true] using error
    · exact absurd waited (handing.notWaiting ready n)
  · intro n time' isTaking owns
    simp only [update_self, Option.some.injEq, Prod.mk.injEq] at isTaking
    exact absurd (isTaking.1 ▸ owns) notOwner

theorem again {m : Mid} {time : Int} (inCall : mutex.taking t = some (m, time))
    (interrupted : (mutex.kernel.thread t).error = .eintr) :
    Handing (State.takeResult t m time (rtMutexTakeAgain mutex t m time)) := by
  have notOwner : (mutex.mutex m).owner ≠ some t := by
    intro owns
    simp [(handing.handed t m time inCall owns).2] at interrupted
  unfold rtMutexTakeAgain
  simp only
  split
  · refine handing.outside handing.wellFormed ready (fun _ _ => id) ?_
      (fun s ne => update_of_ne ne ..) (update_self ..)
      (fun _ _ _ => ⟨rfl, rfl⟩)
    intro s n ne _ owner
    by_cases same : n = m
    · simp [State.takeResult, same, Ne.symm ne] at owner
    · simpa [State.takeResult, same] using owner
  · split
    · refine handing.outside (handing.wellFormed.setError t .etimeout)
        (by simpa [State.takeResult] using ready) (fun _ _ => id) (fun _ _ _ _ => id)
        (fun s ne => update_of_ne ne ..)
        (update_self ..) ?_
      intro s ne _
      simp [State.takeResult, ne]
    · exact handing.block ready (.inr interrupted) notOwner time

end

omit [DecidableEq Mid] in
theorem woken {kernel : Kernel Tid Mid} (suspended : (mutex.kernel.thread t).stat = .suspend)
    (wf : kernel.WellFormed) (waits : ∀ n, kernel.queue (.wait n) = (mutex.waiters n).erase t)
    (others : ∀ s, s ≠ t → kernel.thread s = mutex.kernel.thread s) :
    Handing { mutex with kernel } := by
  have mem : ∀ s n, s ∈ kernel.queue (.wait n) ↔ s ≠ t ∧ s ∈ mutex.waiters n := by
    intro s n
    rw [waits]
    exact handing.wellFormed.mem_erase s (.wait n)
  refine handing.move t wf (fun s n _ inList => ((mem s n).mp inList).2)
    (fun _ _ _ _ => id) (fun _ _ => rfl) (fun s ne _ => ?_) ?_ ?_
  · exact ⟨congrArg _ (others s ne), congrArg _ (others s ne)⟩
  · exact fun m inList => absurd rfl ((mem t m).mp inList).1
  · intro m time isTaking owns
    have before := (handing.handed t m time isTaking owns).1
    simp [suspended] at before

omit [DecidableEq Mid] in
theorem setError (running : mutex.Running t) (code : RtErr) :
    Handing { mutex with kernel := mutex.kernel.setError t code } := by
  refine handing.outside (handing.wellFormed.setError t code) (by simpa using running.1)
    (fun _ _ => id) (fun _ _ _ _ => id) (fun _ _ => rfl) running.2 ?_
  intro s ne _
  simp [ne]

theorem handedOver {m : Mid} {next : Tid} {rest : List Tid} (running : mutex.Running t)
    (waiters : mutex.waiters m = next :: rest) (ne : next ≠ t)
    (noEarlier : (mutex.kernel.thread next).error ≠ .eintr) : Handing
      { ((mutex.setMutex m
          { mutex.mutex m with
            owner := some next
            originalPriority := mutex.priority next
            hold := 1 }).setCount t m (mutex.count t m - 1)).setCount next m
              (mutex.count next m + 1) with
        kernel := (restorePriority mutex.kernel t
          (mutex.mutex m).originalPriority).rtThreadResume next } := by
  have nextWaits : next ∈ mutex.waiters m := waiters ▸ List.mem_cons_self
  have wf := restorePriority_wellFormed handing.wellFormed t (mutex.mutex m).originalPriority
  have suspended : ((restorePriority mutex.kernel t
      (mutex.mutex m).originalPriority).thread next).stat = .suspend := by
    simpa [restorePriority_thread, ne] using handing.wellFormed.waiting next m nextWaits
  have mem : ∀ s n, s ∈ ((restorePriority mutex.kernel t
      (mutex.mutex m).originalPriority).rtThreadResume next).queue (.wait n) ↔
      s ≠ next ∧ s ∈ mutex.waiters n := by
    intro s n
    rw [Kernel.rtThreadResume_wait suspended, restorePriority_wait handing.wellFormed]
    exact handing.wellFormed.mem_erase s (.wait n)
  have thread := Kernel.rtThreadResume_thread suspended
  refine handing.move next (wf.rtThreadResume next)
    (fun s n _ inList => ((mem s n).mp inList).2) ?_ (fun _ _ => rfl) ?_ ?_ ?_
  · intro s n notNext _ owns
    by_cases same : n = m
    · simp [same, Ne.symm notNext] at owns
    · simpa [same] using owns
  · intro s notNext inCall
    have notCaller : s ≠ t := fun same => inCall (same ▸ running.2)
    simp [thread, notNext, restorePriority_thread, notCaller]
  · exact fun n inList => absurd rfl ((mem next n).mp inList).1
  · intro n time isTaking owns
    have error := (handing.waiting next m nextWaits).2.2.resolve_right noEarlier
    simp [thread, restorePriority_thread, ne, error]

end

end Handing

inductive KernelEffect (st : Signal.State Tid Mid) (action : Action Tid)
    (kernel : Kernel Tid Mid) : Prop where
  | kept (same : kernel = st.kernel)
  | resumed (t : Tid) (suspended : (st.kernel.thread t).stat = .suspend)
      (same : kernel = st.kernel.rtThreadResume t)
  | returned (t : Tid) (isBack : action = .back t)
      (ready : (st.kernel.thread t).stat = .ready)
      (same : kernel = st.kernel.setError t .eintr)
  | cleared (t : Tid) (ready : (st.kernel.thread t).stat = .ready)
      (same : kernel = st.kernel.setError t .eok)
  | waits (t : Tid) (set timeout : BitVec 32) (isWait : action = .wait t set timeout)
      (ready : (st.kernel.thread t).stat = .ready) (timer : Bool)
      (same : kernel = (st.kernel.rtThreadSuspend t).setThread t
        { (st.kernel.rtThreadSuspend t).thread t with timer })

variable {action : Action Tid} {signals : Signal.State Tid Mid}

section preserved

variable {st after : State Tid Mid}

theorem KernelEffect.handing {kernel : Kernel Tid Mid}
    (effect : KernelEffect ⟨st.mutex.kernel, st.records⟩ action kernel)
    (handing : Handing st.mutex) (free : st.Free action) : Handing { st.mutex with kernel } := by
  cases effect with
  | kept same =>
    subst same
    exact handing
  | resumed t suspended same =>
    subst same
    refine handing.woken suspended (handing.wellFormed.rtThreadResume t)
      (Kernel.rtThreadResume_wait suspended) ?_
    intro s ne
    rw [Kernel.rtThreadResume_thread suspended, if_neg ne]
  | returned t isBack ready same =>
    subst same isBack
    exact handing.setError ⟨ready, free⟩ .eintr
  | cleared t ready same =>
    subst same
    refine handing.move t (handing.wellFormed.setError t .eok) (fun _ _ _ => id)
      (fun _ _ _ _ => id) (fun _ _ => rfl) ?_ ?_ ?_
    · intro s ne _
      simp [ne]
    · exact fun m waits => absurd waits (handing.notWaiting ready m)
    · intro m time inCall owns
      simpa using ready
  | waits t set timeout isWait ready timer same =>
    subst same isWait
    have wf := handing.wellFormed.rtThreadSuspend t
    have lists := handing.wellFormed.rtThreadSuspend_wait ready
    have thread := Kernel.rtThreadSuspend_thread ready
    refine handing.move t (wf.setThread rfl fun _ => rfl) ?_ (fun _ _ _ _ => id)
      (fun _ _ => rfl) ?_ ?_ ?_
    · intro s n _ inList
      rwa [State.waiters, Kernel.setThread_queue, lists] at inList
    · intro s ne _
      simp [thread, ne]
    · intro m inList
      rw [State.waiters, Kernel.setThread_queue, lists] at inList
      exact absurd inList (handing.notWaiting ready m)
    · intro m time inCall
      exact absurd (inCall.symm.trans free) (by simp)

omit [DecidableEq Tid] [DecidableEq Mid] in
theorem Initial.handing (init : Initial st) : Handing st.mutex where
  wellFormed := init.mutex.wellFormed
  waiting := by simp [init.mutex.noWaiters]
  handed := by simp [init.mutex.noCalls]

theorem Handing.handOver (handing : Handing st.mutex) : HandOver st where
  returns t m time inCall owns := by
    obtain ⟨ready, noError⟩ := handing.handed t m time inCall owns
    refine ⟨ready, ?_⟩
    rw [takeReturns, if_neg (by simp [noError]), noError]
  notQueued t m waits := (handing.waiting t m waits).1

end preserved

/-- The mutexes and the threads of `Mutex.fresh`, without any signal so far. -/
def fresh (priorities : List Nat) (mutexes : Nat) :
    State (Fin priorities.length) (Fin mutexes) where
  mutex := Mutex.fresh priorities mutexes
  records := Signal.initRecords
  interrupted _ := []

theorem fresh_initial (priorities : List Nat) (mutexes : Nat) :
    Initial (fresh priorities mutexes) where
  mutex := Mutex.fresh_initial priorities mutexes
  records_eq := rfl
  interrupted_eq _ := rfl

end RtThread.Mutex.Interrupted
