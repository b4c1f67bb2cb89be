import RtThread.Kernel.Services
import RtThread.Library.TransitionSystem

/-!
# Mutexes

`rt_mutex_take` and `rt_mutex_release` on any set of mutexes, called by any set of
threads, with the timers of the waiting threads.  A thread that blocks raises the
owner to its own priority; the final release of a mutex restores the priority the
owner had when it acquired that mutex and hands the mutex to the first waiter.

`count` is not in the code: it counts the takes of a mutex by a thread that no release
has answered yet.  A hand-over counts as the take of the thread it wakes.
-/

open Function (update)

namespace RtThread.Mutex

universe u v

/-- `struct rt_mutex`; `value` is an `rt_uint16_t`, `originalPriority` and `hold` are
of type `rt_uint8_t`. -/
structure RtMutex (Tid : Type u) where
  value : Nat
  originalPriority : Nat
  hold : Nat
  owner : Option Tid
  flag : IpcFlag

structure State (Tid : Type u) (Mid : Type v) where
  kernel : Kernel Tid Mid
  mutex : Mid → RtMutex Tid
  /-- The mutex and the `time` of the `rt_mutex_take` the thread has suspended in. -/
  taking : Tid → Option (Mid × Int)
  count : Tid → Mid → Nat

/-- The mutex functions may only be called by threads. -/
inductive Event (Tid : Type u) (Mid : Type v) where
  | take (t : Tid) (m : Mid) (time : Int)
  | release (t : Tid) (m : Mid)
  | resumed (t : Tid)
  | timeout (t : Tid)

variable {Tid : Type u} {Mid : Type v} [DecidableEq Tid] [DecidableEq Mid]

namespace State

def waiters (st : State Tid Mid) (m : Mid) : List Tid := st.kernel.queue (.wait m)

def priority (st : State Tid Mid) (t : Tid) : Nat := (st.kernel.thread t).currentPriority

def Running (st : State Tid Mid) (t : Tid) : Prop :=
  (st.kernel.thread t).stat = .ready ∧ st.taking t = none

instance (st : State Tid Mid) (t : Tid) : Decidable (st.Running t) := instDecidableAnd

def setMutex (st : State Tid Mid) (m : Mid) (mutex : RtMutex Tid) : State Tid Mid :=
  { st with mutex := update st.mutex m mutex }

def setCount (st : State Tid Mid) (t : Tid) (m : Mid) (count : Nat) : State Tid Mid :=
  { st with
    count := fun s n => if s = t ∧ n = m then count else st.count s n }

end State

def raiseOwner (kernel : Kernel Tid Mid) (t : Tid) (owner : Option Tid) : Kernel Tid Mid :=
  match owner with
  | none => kernel
  | some o =>
    if (kernel.thread t).currentPriority < (kernel.thread o).currentPriority then
      kernel.changePriority o (kernel.thread t).currentPriority
    else kernel

/-- The branch of `rt_mutex_take` that suspends the caller. -/
def waitFor (kernel : Kernel Tid Mid) (t : Tid) (m : Mid) (mutex : RtMutex Tid) (time : Int) :
    Kernel Tid Mid :=
  ((raiseOwner kernel t mutex.owner).rtIpcListSuspend m t mutex.flag).startTimer t time

/-- `rt_mutex_take` from the label `__again`, up to its return or to `rt_schedule`. -/
def rtMutexTakeAgain (st : State Tid Mid) (t : Tid) (m : Mid) (time : Int) :
    State Tid Mid × Option RtErr :=
  let mutex := st.mutex m
  if 0 < mutex.value then
    let mutex :=
      { mutex with
        value := mutex.value - 1
        owner := some t
        originalPriority := (st.kernel.thread t).currentPriority
        hold := (mutex.hold + 1) % 0x100 }
    ((st.setMutex m mutex).setCount t m (st.count t m + 1), some .eok)
  else if time = 0 then
    ({ st with kernel := st.kernel.setError t .etimeout }, some .etimeout)
  else ({ st with kernel := waitFor st.kernel t m mutex time }, none)

def rtMutexTake (st : State Tid Mid) (t : Tid) (m : Mid) (time : Int) :
    State Tid Mid × Option RtErr :=
  let mutex := st.mutex m
  let st := { st with kernel := st.kernel.setError t .eok }
  if mutex.owner = some t then
    ((st.setMutex m { mutex with hold := (mutex.hold + 1) % 0x100 }).setCount t m
      (st.count t m + 1), some .eok)
  else rtMutexTakeAgain st t m time

/-- The end of `rt_mutex_release` when `hold` has come down to zero and the priority is
restored: the first waiter gets the mutex, or nobody. -/
def passOn (st : State Tid Mid) (m : Mid) : State Tid Mid :=
  let mutex := st.mutex m
  match st.waiters m with
  | next :: _ =>
    let mutex :=
      { mutex with
        owner := some next
        originalPriority := (st.kernel.thread next).currentPriority
        hold := (mutex.hold + 1) % 0x100 }
    { (st.setMutex m mutex).setCount next m (st.count next m + 1) with
      kernel := st.kernel.rtIpcListResume m }
  | [] =>
    st.setMutex m
      { mutex with
        value := (mutex.value + 1) % 0x10000
        owner := none
        originalPriority := 0xff }

def restorePriority (kernel : Kernel Tid Mid) (t : Tid) (priority : Nat) : Kernel Tid Mid :=
  if priority ≠ (kernel.thread t).currentPriority then kernel.changePriority t priority
  else kernel

def rtMutexRelease (st : State Tid Mid) (t : Tid) (m : Mid) : State Tid Mid × RtErr :=
  let mutex := st.mutex m
  if mutex.owner ≠ some t then
    ({ st with kernel := st.kernel.setError t .error }, .error)
  else
    let hold := (mutex.hold + 0xff) % 0x100
    let st := (st.setMutex m { mutex with hold := hold }).setCount t m (st.count t m - 1)
    if hold = 0 then
      (passOn { st with kernel := restorePriority st.kernel t mutex.originalPriority } m,
        .eok)
    else (st, .eok)

/-- The caller of `rt_mutex_take` goes on, or is suspended inside the call. -/
def State.takeResult (t : Tid) (m : Mid) (time : Int) :
    State Tid Mid × Option RtErr → State Tid Mid
  | (after, some _) => { after with taking := update after.taking t none }
  | (after, none) => { after with taking := update after.taking t (some (m, time)) }

def rtMutexTakeResumed (st : State Tid Mid) (t : Tid) (m : Mid) (time : Int) :
    State Tid Mid :=
  if (st.kernel.thread t).error = .eintr then
    State.takeResult t m time (rtMutexTakeAgain st t m time)
  else { st with taking := update st.taking t none }

def step (st : State Tid Mid) : Event Tid Mid → Option (State Tid Mid)
  | .take t m time =>
    if st.Running t then some (State.takeResult t m time (rtMutexTake st t m time))
    else none
  | .release t m => if st.Running t then some (rtMutexRelease st t m).1 else none
  | .resumed t =>
    match st.taking t with
    | some (m, time) =>
      if (st.kernel.thread t).stat = .ready then some (rtMutexTakeResumed st t m time)
      else none
    | none => none
  | .timeout t =>
    if (st.kernel.thread t).stat = .suspend ∧ (st.kernel.thread t).timer then
      some { st with kernel := st.kernel.rtThreadTimeout t }
    else none

/-- Every mutex as `rt_mutex_init` leaves it, every thread at the priority it was
started with, and nobody inside a call. -/
structure Initial (st : State Tid Mid) : Prop where
  wellFormed : st.kernel.WellFormed
  noWaiters : ∀ m, st.waiters m = []
  noCalls : ∀ t, st.taking t = none
  unboosted : ∀ t, st.priority t = (st.kernel.thread t).initPriority
  value_eq : ∀ m, (st.mutex m).value = 1
  originalPriority_eq : ∀ m, (st.mutex m).originalPriority = 0xff
  hold_eq : ∀ m, (st.mutex m).hold = 0
  owner_eq : ∀ m, (st.mutex m).owner = none
  count_eq : ∀ t m, st.count t m = 0

def system : TransitionSystem (State Tid Mid) (Event Tid Mid) :=
  TransitionSystem.ofFunction Initial step

/-- `mutexes` mutexes just initialised, and a started thread of each of the priorities. -/
def fresh (priorities : List Nat) (mutexes : Nat) :
    State (Fin priorities.length) (Fin mutexes) where
  kernel := Kernel.started (List.finRange _) priorities.get
  mutex _ :=
    { value := 1
      originalPriority := 0xff
      hold := 0
      owner := none
      flag := .prio }
  taking _ := none
  count _ _ := 0

theorem fresh_initial (priorities : List Nat) (mutexes : Nat) :
    Initial (fresh priorities mutexes) where
  wellFormed := Kernel.started_wellFormed (List.nodup_finRange _) _
  noWaiters _ := rfl
  noCalls _ := rfl
  unboosted _ := rfl
  value_eq _ := rfl
  originalPriority_eq _ := rfl
  hold_eq _ := rfl
  owner_eq _ := rfl
  count_eq _ _ := rfl

section

variable (st : State Tid Mid)

include st

section

omit [DecidableEq Tid]

@[simp] theorem State.setMutex_kernel (m : Mid) (mutex : RtMutex Tid) :
    (st.setMutex m mutex).kernel = st.kernel := rfl

@[simp] theorem State.setMutex_taking (m : Mid) (mutex : RtMutex Tid) :
    (st.setMutex m mutex).taking = st.taking := rfl

@[simp] theorem State.setMutex_count (m : Mid) (mutex : RtMutex Tid) :
    (st.setMutex m mutex).count = st.count := rfl

@[simp] theorem State.setMutex_mutex (m n : Mid) (mutex : RtMutex Tid) :
    (st.setMutex m mutex).mutex n = if n = m then mutex else st.mutex n := by
  simp [State.setMutex, Function.update_apply]

end

@[simp] theorem State.setCount_kernel (t : Tid) (m : Mid) (n : Nat) :
    (st.setCount t m n).kernel = st.kernel := rfl

@[simp] theorem State.setCount_taking (t : Tid) (m : Mid) (n : Nat) :
    (st.setCount t m n).taking = st.taking := rfl

@[simp] theorem State.setCount_mutex (t : Tid) (m : Mid) (n : Nat) :
    (st.setCount t m n).mutex = st.mutex := rfl

@[simp] theorem State.setCount_count (t s : Tid) (m n : Mid) (count : Nat) :
    (st.setCount t m count).count s n = if s = t ∧ n = m then count else st.count s n := rfl

end

theorem raiseOwner_thread (kernel : Kernel Tid Mid) (t s : Tid) (owner : Option Tid) :
    (raiseOwner kernel t owner).thread s =
      if owner = some s ∧ (kernel.thread t).currentPriority < (kernel.thread s).currentPriority then
        { kernel.thread s with currentPriority := (kernel.thread t).currentPriority }
      else kernel.thread s := by
  cases owner with
  | none => simp [raiseOwner]
  | some o =>
    by_cases lower : (kernel.thread t).currentPriority < (kernel.thread o).currentPriority
    · by_cases same : o = s
      · simp [raiseOwner, ← same, lower]
      · simp [raiseOwner, same, Ne.symm same, lower]
    · by_cases same : o = s
      · simp only [raiseOwner, ← same, lower, if_false, and_false]
      · simp [raiseOwner, same, lower]

variable {kernel : Kernel Tid Mid}

theorem raiseOwner_wellFormed (wf : kernel.WellFormed) (t : Tid) (owner : Option Tid) :
    (raiseOwner kernel t owner).WellFormed := by
  unfold raiseOwner
  split
  · exact wf
  · split
    · exact wf.changePriority _ _
    · exact wf

theorem raiseOwner_wait (wf : kernel.WellFormed) (t : Tid) (owner : Option Tid) (m : Mid) :
    (raiseOwner kernel t owner).queue (.wait m) = kernel.queue (.wait m) := by
  unfold raiseOwner
  split
  · rfl
  · split
    · exact wf.changePriority_wait _ _ m
    · rfl

theorem restorePriority_thread (kernel : Kernel Tid Mid) (t s : Tid) (p : Nat) :
    (restorePriority kernel t p).thread s =
      if s = t then { kernel.thread t with currentPriority := p } else kernel.thread s := by
  unfold restorePriority
  split
  · simp
  · rename_i already
    by_cases same : s = t
    · subst same
      simp [not_not.mp already]
    · simp [same]

theorem restorePriority_wellFormed (wf : kernel.WellFormed) (t : Tid) (p : Nat) :
    (restorePriority kernel t p).WellFormed := by
  unfold restorePriority
  split
  · exact wf.changePriority _ _
  · exact wf

theorem restorePriority_wait (wf : kernel.WellFormed) (t : Tid) (p : Nat) (m : Mid) :
    (restorePriority kernel t p).queue (.wait m) = kernel.queue (.wait m) := by
  unfold restorePriority
  split
  · exact wf.changePriority_wait _ _ m
  · rfl

section waitFor

variable {kernel : Kernel Tid Mid} {t : Tid} (ready : (kernel.thread t).stat = .ready)
  (m : Mid) (mutex : RtMutex Tid) (time : Int)

include ready in
theorem raiseOwner_ready (owner : Option Tid) :
    ((raiseOwner kernel t owner).thread t).stat = .ready := by
  rw [raiseOwner_thread]
  split <;> exact ready

include ready in
theorem waitFor_thread (s : Tid) (notOwner : mutex.owner ≠ some t) :
    (waitFor kernel t m mutex time).thread s =
      if s = t then { kernel.thread t with stat := .suspend, timer := decide (0 < time) }
      else if mutex.owner = some s ∧
          (kernel.thread t).currentPriority < (kernel.thread s).currentPriority then
        { kernel.thread s with currentPriority := (kernel.thread t).currentPriority }
      else kernel.thread s := by
  have ready' := raiseOwner_ready ready mutex.owner
  by_cases same : s = t
  · subst same
    by_cases positive : 0 < time <;>
      simp [waitFor, Kernel.rtIpcListSuspend_thread ready', raiseOwner_thread, positive]
  · simp [waitFor, Kernel.rtIpcListSuspend_thread ready', raiseOwner_thread, same]

include ready in
theorem waitFor_wellFormed (wellFormed : kernel.WellFormed) :
    (waitFor kernel t m mutex time).WellFormed :=
  ((raiseOwner_wellFormed wellFormed t _).rtIpcListSuspend
    (raiseOwner_ready ready _) m _).startTimer t time

include ready in
theorem mem_waitFor_wait (wellFormed : kernel.WellFormed) (n : Mid) (s : Tid) :
    s ∈ (waitFor kernel t m mutex time).queue (.wait n) ↔
      (s = t ∧ n = m) ∨ s ∈ kernel.queue (.wait n) := by
  have ready' := raiseOwner_ready ready mutex.owner
  rw [waitFor, Kernel.startTimer_queue,
    (raiseOwner_wellFormed wellFormed t _).rtIpcListSuspend_wait ready']
  by_cases same : n = m
  · subst same
    simp [raiseOwner_wait wellFormed]
  · simp [raiseOwner_wait wellFormed, same]

end waitFor

end RtThread.Mutex
