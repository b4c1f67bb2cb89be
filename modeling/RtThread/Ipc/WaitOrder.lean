import Mathlib.Data.Fintype.Sum
import RtThread.Ipc.MutexInvariant

/-!
# The order of the suspend lists

`rt_ipc_list_suspend` finds the place of a thread by the priorities of the moment.  Later
the priority of a suspended thread can change, by `rt_thread_control` or by the
inheritance of a mutex that it owns; a ready thread then changes its queue, a suspended
one stays where it is.

The mutexes are those of `rt_mutex_take` and `rt_mutex_release`.  Of every other object
there is only the list of its waiters: whether a call suspends its caller, and which
waiters an `rt_event_send` is enough for, is up to the caller and to data that the lists do
not depend on.
-/

open Function (update update_of_ne)
open TransitionSystem

namespace RtThread.WaitOrder

open Option (map_eq_some_iff ite_none_right_eq_some)

universe u v w

variable {Tid : Type u} {Obj : Type v}

section lists

variable (kernel : Kernel Tid Obj) (flag : Obj → IpcFlag)

def Sorted (list : Obj) : Prop :=
  (kernel.queue (.wait list)).Pairwise fun s s' =>
    (kernel.thread s).currentPriority ≤ (kernel.thread s').currentPriority

instance (list : Obj) : Decidable (Sorted kernel list) :=
  inferInstanceAs (Decidable (List.Pairwise _ _))

/-- Every list of an object created with `RT_IPC_FLAG_PRIO` is sorted. -/
def AllSorted : Prop := ∀ list, flag list = .prio → Sorted kernel list

/-- The first waiter of such an object, the one that `rt_ipc_list_resume` wakes, is a most
urgent one. -/
def FirstMostUrgent : Prop :=
  ∀ list, flag list = .prio → ∀ next ∈ (kernel.queue (.wait list)).head?,
    ∀ t ∈ kernel.queue (.wait list),
      (kernel.thread next).currentPriority ≤ (kernel.thread t).currentPriority

variable [DecidableEq Tid]

def ahead (t : Tid) (waiters : List Tid) : List Tid := waiters.takeWhile (· ≠ t)

def behind (t : Tid) (waiters : List Tid) : List Tid := (waiters.dropWhile (· ≠ t)).tail

def Suits (t : Tid) (priority : Nat) : Prop :=
  ∀ list, flag list = .prio → t ∈ kernel.queue (.wait list) →
    (∀ s ∈ ahead t (kernel.queue (.wait list)), (kernel.thread s).currentPriority ≤ priority) ∧
      ∀ s ∈ behind t (kernel.queue (.wait list)), priority ≤ (kernel.thread s).currentPriority

instance [Fintype Obj] (t : Tid) (priority : Nat) : Decidable (Suits kernel flag t priority) :=
  inferInstanceAs (Decidable (∀ _, _ → _ → _ ∧ _))

end lists

theorem AllSorted.firstMostUrgent {kernel : Kernel Tid Obj} {flag : Obj → IpcFlag}
    (sorted : AllSorted kernel flag) : FirstMostUrgent kernel flag := by
  intro list isPrio next isFirst t waits
  obtain ⟨rest, waiters⟩ := List.head?_eq_some_iff.mp isFirst
  have pairwise := sorted list isPrio
  rw [Sorted, waiters, List.pairwise_cons] at pairwise
  rw [waiters] at waits
  rcases List.mem_cons.mp waits with rfl | waits
  · exact Nat.le_refl _
  · exact pairwise.1 t waits

section changes

variable [DecidableEq Tid] {kernel after : Kernel Tid Obj} {flag : Obj → IpcFlag}

omit [DecidableEq Tid] in
theorem AllSorted.thinned (sorted : AllSorted kernel flag)
    (fewer : ∀ list, (after.queue (.wait list)).Sublist (kernel.queue (.wait list)))
    (priority : ∀ s, (after.thread s).currentPriority = (kernel.thread s).currentPriority) :
    AllSorted after flag := by
  intro list isPrio
  simp only [Sorted, priority]
  exact (sorted list isPrio).sublist (fewer list)

omit [DecidableEq Tid] in
theorem allSorted_congr (same : ∀ list, after.queue (.wait list) = kernel.queue (.wait list))
    (priority : ∀ s, (after.thread s).currentPriority = (kernel.thread s).currentPriority) :
    AllSorted after flag ↔ AllSorted kernel flag := by
  simp only [AllSorted, Sorted, same, priority]

variable {t : Tid}

variable {waiters : List Tid}

theorem eq_ahead_behind (waits : t ∈ waiters) :
    waiters = ahead t waiters ++ t :: behind t waiters := by
  induction waiters with
  | nil => exact absurd waits List.not_mem_nil
  | cons s rest ih =>
    by_cases isFirst : s = t
    · simp [ahead, behind, isFirst]
    · have inRest : t ∈ rest := by simpa [Ne.symm isFirst] using waits
      have step := ih inRest
      simpa [ahead, behind, isFirst] using step

theorem pairwise_update_iff {p : Tid → Nat} (nodup : waiters.Nodup)
    (sorted : waiters.Pairwise fun s s' => p s ≤ p s') (waits : t ∈ waiters) (level : Nat) :
    waiters.Pairwise (fun s s' => update p t level s ≤ update p t level s') ↔
      (∀ s ∈ ahead t waiters, p s ≤ level) ∧ ∀ s ∈ behind t waiters, level ≤ p s := by
  have split := eq_ahead_behind waits
  generalize ahead t waiters = front at split ⊢
  generalize behind t waiters = back at split ⊢
  subst split
  obtain ⟨-, nodupBack, apart⟩ := List.nodup_append.mp nodup
  have notFront : ∀ s ∈ front, s ≠ t := fun s inFront => apart s inFront t List.mem_cons_self
  have notBack : ∀ s ∈ back, s ≠ t := by
    rintro s inBack rfl
    exact (List.nodup_cons.mp nodupBack).1 inBack
  obtain ⟨sortedFront, sortedBack, across⟩ := List.pairwise_append.mp sorted
  have inner : ∀ part : List Tid, (∀ s ∈ part, s ≠ t) →
      part.Pairwise (fun s s' => p s ≤ p s') →
      part.Pairwise (fun s s' => update p t level s ≤ update p t level s') := by
    intro part notPart sortedPart
    refine sortedPart.imp_of_mem fun {s s'} inPart inPart' below => ?_
    rwa [update_of_ne (notPart s inPart), update_of_ne (notPart s' inPart')]
  rw [List.pairwise_append, List.pairwise_cons]
  constructor
  · rintro ⟨-, ⟨toBack, -⟩, fromFront⟩
    refine ⟨fun s inFront => ?_, fun s inBack => ?_⟩
    · simpa [notFront s inFront] using fromFront s inFront t List.mem_cons_self
    · simpa [notBack s inBack] using toBack s inBack
  · rintro ⟨fromFront, toBack⟩
    refine ⟨inner front notFront sortedFront, ⟨fun s inBack => ?_,
      inner back notBack (List.pairwise_cons.mp sortedBack).2⟩, fun s inFront s' inRest => ?_⟩
    · simpa [notBack s inBack] using toBack s inBack
    · rw [update_of_ne (notFront s inFront)]
      rcases List.mem_cons.mp inRest with rfl | inBack
      · simpa using fromFront s inFront
      · rw [update_of_ne (notBack s' inBack)]
        exact across s inFront s' inRest

theorem pairwise_insertByPriority_iff {p : Tid → Nat} :
    (Kernel.insertByPriority p t waiters).Pairwise (fun s s' => p s ≤ p s') ↔
      waiters.Pairwise fun s s' => p s ≤ p s' := by
  induction waiters with
  | nil => simp [Kernel.insertByPriority]
  | cons s rest ih =>
    unfold Kernel.insertByPriority
    split
    · rename_i before
      rw [List.pairwise_cons, and_iff_right_iff_imp]
      intro sorted other waits
      rcases List.mem_cons.mp waits with rfl | waits
      · exact Nat.le_of_lt before
      · exact (Nat.le_of_lt before).trans ((List.pairwise_cons.mp sorted).1 other waits)
    · rename_i notBefore
      rw [List.pairwise_cons, List.pairwise_cons, ih]
      refine and_congr_left fun _ => ?_
      simp only [Kernel.mem_insertByPriority, forall_eq_or_imp]
      exact and_iff_right (Nat.le_of_not_lt notBefore)

section services

variable [DecidableEq Obj]

omit [DecidableEq Obj] in
theorem currentPriority_setError (t : Tid) (code : RtErr) (s : Tid) :
    ((kernel.setError t code).thread s).currentPriority = (kernel.thread s).currentPriority := by
  rw [Kernel.setError_thread]
  split
  · next same => rw [same]
  · rfl

omit [DecidableEq Obj] in
theorem allSorted_setError (t : Tid) (code : RtErr) :
    AllSorted (kernel.setError t code) flag ↔ AllSorted kernel flag :=
  allSorted_congr (fun _ => rfl) (currentPriority_setError t code)

section

variable (wellFormed : kernel.WellFormed)

include wellFormed

theorem allSorted_changePriority (sorted : AllSorted kernel flag) (t : Tid) (p : Nat) :
    AllSorted (kernel.changePriority t p) flag ↔ Suits kernel flag t p := by
  have priorities : ∀ s, ((kernel.changePriority t p).thread s).currentPriority =
      update (fun s => (kernel.thread s).currentPriority) t p s := by
    intro s
    by_cases same : s = t <;> simp [same]
  refine forall_congr' fun list => forall_congr' fun isPrio => ?_
  simp only [Sorted, priorities, wellFormed.changePriority_wait]
  by_cases waits : t ∈ kernel.queue (.wait list)
  · rw [pairwise_update_iff (wellFormed.nodup _) (sorted list isPrio) waits]
    exact (imp_iff_right waits).symm
  · refine iff_of_true ((sorted list isPrio).imp_of_mem fun {s s'} inList inList' below => ?_)
      fun waits' => absurd waits' waits
    rw [update_of_ne (by rintro rfl; exact waits inList),
      update_of_ne (by rintro rfl; exact waits inList')]
    exact below

omit [DecidableEq Obj] in
theorem suits_of_ready (ready : (kernel.thread t).stat = .ready) (p : Nat) :
    Suits kernel flag t p :=
  fun list _ waits => absurd waits (wellFormed.not_waiting (by simp [ready]) list)

theorem allSorted_rtIpcListSuspend (ready : (kernel.thread t).stat = .ready) (list : Obj) :
    AllSorted (kernel.rtIpcListSuspend list t (flag list)) flag ↔ AllSorted kernel flag := by
  have priorities : ∀ s, ((kernel.rtIpcListSuspend list t (flag list)).thread s).currentPriority =
      (kernel.thread s).currentPriority := by
    intro s
    rw [Kernel.rtIpcListSuspend_thread ready]
    split
    · next same => rw [same]
    · rfl
  refine forall_congr' fun other => forall_congr' fun isPrio => ?_
  simp only [Sorted, priorities, wellFormed.rtIpcListSuspend_wait ready]
  by_cases same : other = list
  · subst same
    rw [if_pos rfl, isPrio, Kernel.insertWaiter]
    exact pairwise_insertByPriority_iff
  · rw [if_neg same]

end

omit [DecidableEq Obj] in
theorem allSorted_startTimer (t : Tid) (time : Int) :
    AllSorted (kernel.startTimer t time) flag ↔ AllSorted kernel flag := by
  refine allSorted_congr (fun _ => by rw [Kernel.startTimer_queue]) fun s => ?_
  rw [Kernel.startTimer_thread]
  split
  · next same => rw [same.1]
  · rfl

theorem allSorted_blockOn (wellFormed : kernel.WellFormed) (ready : (kernel.thread t).stat = .ready)
    (list : Obj) (time : Int) :
    AllSorted (kernel.blockOn list t (flag list) time) flag ↔ AllSorted kernel flag := by
  have ready' : ((kernel.setError t .eok).thread t).stat = .ready := by simpa using ready
  rw [Kernel.blockOn, allSorted_startTimer,
    allSorted_rtIpcListSuspend (wellFormed.setError t .eok) ready', allSorted_setError]

section

variable (sorted : AllSorted kernel flag)

include sorted

theorem AllSorted.rtThreadResume (t : Tid) : AllSorted (kernel.rtThreadResume t) flag := by
  by_cases suspended : (kernel.thread t).stat = .suspend
  · refine sorted.thinned (fun list => ?_) fun s => ?_
    · rw [Kernel.rtThreadResume_wait suspended]
      exact List.erase_sublist
    · rw [Kernel.rtThreadResume_thread suspended]
      split
      · next same => rw [same]
      · rfl
  · simpa [Kernel.rtThreadResume, suspended] using sorted

theorem AllSorted.rtThreadTimeout (t : Tid) : AllSorted (kernel.rtThreadTimeout t) flag := by
  refine sorted.thinned (fun list => ?_) fun s => ?_
  · rw [Kernel.rtThreadTimeout_wait]
    exact List.erase_sublist
  · rw [Kernel.rtThreadTimeout_thread]
    split
    · next same => rw [same]
    · rfl

theorem AllSorted.rtIpcListResume (list : Obj) : AllSorted (kernel.rtIpcListResume list) flag := by
  unfold Kernel.rtIpcListResume
  split
  · exact sorted
  · exact sorted.rtThreadResume _

theorem AllSorted.resumeAll (threads : List Tid) : AllSorted (kernel.resumeAll threads) flag := by
  induction threads generalizing kernel with
  | nil => exact sorted
  | cons t rest ih =>
    exact ih (((allSorted_setError t .error).mpr sorted).rtThreadResume t)

end

end services

end changes

/-- The suspend lists, `Lid` those of semaphores, events, mailboxes and message queues, with
the flags they were created with, the mutexes `Mid` and the threads. -/
structure State (Tid : Type u) (Lid : Type v) (Mid : Type w) where
  mutexes : Mutex.State Tid (Lid ⊕ Mid)
  flag : Lid → IpcFlag

/-- A call that suspends its caller, the ends of calls that wake waiters, and a change of a
priority. -/
inductive Event (Tid : Type u) (Lid : Type v) (Mid : Type w) where
  | block (t : Tid) (list : Lid) (time : Int)
  | resume (list : Lid)
  | send (list : Lid) (satisfied : Tid → Bool)
  | resumeAll (list : Lid)
  | take (t : Tid) (m : Mid) (time : Int)
  | takeResumed (t : Tid)
  | release (t : Tid) (m : Mid)
  | timeout (t : Tid)
  | control (t : Tid) (priority : Nat)

variable {Lid : Type v} {Mid : Type w}

namespace State

def kernel (st : State Tid Lid Mid) : Kernel Tid (Lid ⊕ Mid) := st.mutexes.kernel

def objectFlag (st : State Tid Lid Mid) : Lid ⊕ Mid → IpcFlag
  | .inl list => st.flag list
  | .inr m => (st.mutexes.mutex (.inr m)).flag

def setKernel (st : State Tid Lid Mid) (kernel : Kernel Tid (Lid ⊕ Mid)) :
    State Tid Lid Mid :=
  { st with mutexes := { st.mutexes with kernel } }

@[simp] theorem setKernel_kernel (st : State Tid Lid Mid)
    (kernel : Kernel Tid (Lid ⊕ Mid)) : (st.setKernel kernel).kernel = kernel := rfl

@[simp] theorem setKernel_objectFlag (st : State Tid Lid Mid) (kernel : Kernel Tid (Lid ⊕ Mid)) :
    (st.setKernel kernel).objectFlag = st.objectFlag := by
  funext obj
  cases obj <;> rfl

/-- The suspend lists of the objects with `RT_IPC_FLAG_PRIO` are sorted, and so the next
thread that is woken is a most urgent one. -/
def Ordered (st : State Tid Lid Mid) : Prop :=
  AllSorted st.kernel st.objectFlag ∧ FirstMostUrgent st.kernel st.objectFlag

theorem ordered_iff {st : State Tid Lid Mid} : st.Ordered ↔ AllSorted st.kernel st.objectFlag :=
  and_iff_left_of_imp AllSorted.firstMostUrgent

end State

variable [DecidableEq Tid] [DecidableEq Lid] [DecidableEq Mid]

/-- The walk of `rt_event_send` over the waiters, as far as the threads and the lists go. -/
def sendWalk (kernel : Kernel Tid (Lid ⊕ Mid)) (satisfied : Tid → Bool) :
    List Tid → Kernel Tid (Lid ⊕ Mid)
  | [] => kernel
  | t :: rest =>
    sendWalk (if satisfied t then kernel.rtThreadResume t else kernel) satisfied rest

def step (st : State Tid Lid Mid) : Event Tid Lid Mid → Option (State Tid Lid Mid)
  | .block t list time =>
    if st.mutexes.Running t ∧ time ≠ 0 then
      some (st.setKernel (st.kernel.blockOn (.inl list) t (st.flag list) time))
    else none
  | .resume list => some (st.setKernel (st.kernel.rtIpcListResume (.inl list)))
  | .send list satisfied =>
    some (st.setKernel
      (sendWalk st.kernel satisfied (st.kernel.queue (.wait (.inl list)))))
  | .resumeAll list => some (st.setKernel (st.kernel.rtIpcListResumeAll (.inl list)))
  | .take t m time =>
    (Mutex.step st.mutexes (.take t (.inr m) time)).map fun mutexes => { st with mutexes }
  | .takeResumed t =>
    (Mutex.step st.mutexes (.resumed t)).map fun mutexes => { st with mutexes }
  | .release t m =>
    (Mutex.step st.mutexes (.release t (.inr m))).map fun mutexes => { st with mutexes }
  | .timeout t =>
    (Mutex.step st.mutexes (.timeout t)).map fun mutexes => { st with mutexes }
  | .control t priority => some (st.setKernel (st.kernel.changePriority t priority))

/-- Every object as its `init` function leaves it, and nobody inside a call. -/
structure Initial (st : State Tid Lid Mid) : Prop where
  wellFormed : st.kernel.WellFormed
  noWaiters : ∀ obj, st.kernel.queue (.wait obj) = []
  noCalls : ∀ t, st.mutexes.taking t = none
  value_eq : ∀ m, (st.mutexes.mutex (.inr m)).value = 1
  hold_eq : ∀ m, (st.mutexes.mutex (.inr m)).hold = 0
  owner_eq : ∀ m, (st.mutexes.mutex (.inr m)).owner = none

def system : TransitionSystem (State Tid Lid Mid) (Event Tid Lid Mid) :=
  ofFunction Initial step

/-- The owner whose priority `rt_mutex_take` raises, and how far. -/
def raised (st : Mutex.State Tid Obj) (t : Tid) (m : Obj) (time : Int) :
    Option (Tid × Nat) :=
  if (st.mutex m).value = 0 ∧ time ≠ 0 then
    (st.mutex m).owner.bind fun owner =>
      if st.priority t < st.priority owner then some (owner, st.priority t) else none
  else none

def changed (st : State Tid Lid Mid) : Event Tid Lid Mid → Option (Tid × Nat)
  | .take t m time => raised st.mutexes t (.inr m) time
  | .takeResumed t =>
    if (st.kernel.thread t).error = .eintr then
      (st.mutexes.taking t).bind fun call => raised st.mutexes t call.1 call.2
    else none
  | .control t priority => some (t, priority)
  | _ => none

def KeepsOrder (st : State Tid Lid Mid) (e : Event Tid Lid Mid) : Prop :=
  ∀ change ∈ changed st e, Suits st.kernel st.objectFlag change.1 change.2

instance [Fintype Lid] [Fintype Mid] (st : State Tid Lid Mid) (e : Event Tid Lid Mid) :
    Decidable (KeepsOrder st e) := Option.decidableForallMem _

structure Changes (kernel : Kernel Tid Obj) (flag : Obj → IpcFlag) (condition : Prop)
    (after : Kernel Tid Obj) : Prop where
  wellFormed : after.WellFormed
  exact : AllSorted kernel flag → (AllSorted after flag ↔ condition)

omit [DecidableEq Tid] in
theorem Changes.always {cond : Prop} {kernel after : Kernel Tid Obj} {flag : Obj → IpcFlag}
    (wellFormed : after.WellFormed) (holds : cond)
    (sorted : AllSorted kernel flag → AllSorted after flag) : Changes kernel flag cond after :=
  ⟨wellFormed, fun before => iff_of_true (sorted before) holds⟩

section mutexes

variable [DecidableEq Obj] {mutexes : Mutex.State Tid Obj} {flag : Obj → IpcFlag} {t : Tid}
  (wellFormed : mutexes.kernel.WellFormed) (ready : (mutexes.kernel.thread t).stat = .ready)

include wellFormed in
theorem changes_raiseOwner (m : Obj) {time : Int} (unavailable : (mutexes.mutex m).value = 0)
    (waits : time ≠ 0) :
    Changes mutexes.kernel flag
      (∀ change ∈ raised mutexes t m time, Suits mutexes.kernel flag change.1 change.2)
      (Mutex.raiseOwner mutexes.kernel t (mutexes.mutex m).owner) := by
  simp only [raised, unavailable, waits, ne_eq, not_false_eq_true, and_self]
  cases (mutexes.mutex m).owner with
  | none => exact .always wellFormed (by simp) id
  | some owner =>
    by_cases lower : (mutexes.kernel.thread t).currentPriority <
        (mutexes.kernel.thread owner).currentPriority
    · rw [Mutex.raiseOwner, if_pos lower]
      have isRaised : mutexes.priority t < mutexes.priority owner := lower
      refine ⟨wellFormed.changePriority _ _, fun sorted => ?_⟩
      rw [allSorted_changePriority wellFormed sorted]
      simp only [Option.bind_some, isRaised, if_true, Option.mem_some_iff, forall_eq']
      exact Iff.rfl
    · rw [Mutex.raiseOwner, if_neg lower]
      have notRaised : ¬ mutexes.priority t < mutexes.priority owner := lower
      exact .always wellFormed (by simp [notRaised]) id

include wellFormed ready in
theorem changes_rtMutexTakeAgain (m : Obj) (isFlag : flag m = (mutexes.mutex m).flag) (time : Int) :
    Changes mutexes.kernel flag
      (∀ change ∈ raised mutexes t m time, Suits mutexes.kernel flag change.1 change.2)
      (Mutex.rtMutexTakeAgain mutexes t m time).1.kernel := by
  simp only [Mutex.rtMutexTakeAgain]
  split
  · rename_i available
    exact .always wellFormed (by simp [raised, Nat.ne_of_gt available]) id
  · rename_i unavailable
    split
    · rename_i noWait
      exact .always (wellFormed.setError t _) (by simp [raised, noWait])
        (allSorted_setError t _).mpr
    · rename_i waits
      have owner := @changes_raiseOwner _ _ _ _ _ flag t wellFormed m time
        (Nat.eq_zero_of_not_pos unavailable) waits
      have ready' := Mutex.raiseOwner_ready ready (mutexes.mutex m).owner
      refine ⟨Mutex.waitFor_wellFormed ready m _ time wellFormed, fun sorted => ?_⟩
      rw [Mutex.waitFor, ← isFlag, allSorted_startTimer,
        allSorted_rtIpcListSuspend owner.wellFormed ready']
      exact owner.exact sorted

omit [DecidableEq Obj] in
theorem suits_setError {kernel : Kernel Tid Obj} (code : RtErr) (s : Tid) (p : Nat) :
    Suits (kernel.setError t code) flag s p ↔ Suits kernel flag s p := by
  simp only [Suits, Kernel.setError_queue, currentPriority_setError]

omit [DecidableEq Obj] in
theorem raised_setError (code : RtErr) (m : Obj) (time : Int) :
    raised { mutexes with kernel := mutexes.kernel.setError t code } t m time =
      raised mutexes t m time := by
  have priorities : { mutexes with kernel := mutexes.kernel.setError t code }.priority =
      mutexes.priority := funext (currentPriority_setError t code)
  unfold raised
  rw [priorities]

include wellFormed ready in
theorem changes_rtMutexTake (m : Obj) (isFlag : flag m = (mutexes.mutex m).flag) (time : Int) :
    Changes mutexes.kernel flag
      (∀ change ∈ raised mutexes t m time, Suits mutexes.kernel flag change.1 change.2)
      (Mutex.rtMutexTake mutexes t m time).1.kernel := by
  simp only [Mutex.rtMutexTake]
  split
  · rename_i owns
    refine .always (wellFormed.setError t _) ?_ (allSorted_setError t _).mpr
    simp [raised, owns]
  · have again := @changes_rtMutexTakeAgain _ _ _ _
      { mutexes with kernel := mutexes.kernel.setError t .eok } flag t
      (wellFormed.setError t _) (by simpa using ready) m isFlag time
    simp only [raised_setError, suits_setError] at again
    exact ⟨again.wellFormed, fun sorted => again.exact ((allSorted_setError t _).mpr sorted)⟩

include wellFormed ready in
theorem changes_rtMutexRelease (m : Obj) :
    Changes mutexes.kernel flag True (Mutex.rtMutexRelease mutexes t m).1.kernel := by
  have restored : Changes mutexes.kernel flag True
      (Mutex.restorePriority mutexes.kernel t (mutexes.mutex m).originalPriority) := by
    unfold Mutex.restorePriority
    split
    · refine ⟨wellFormed.changePriority _ _, fun sorted => ?_⟩
      rw [allSorted_changePriority wellFormed sorted]
      exact iff_true_intro (suits_of_ready wellFormed ready _)
    · exact .always wellFormed trivial id
  simp only [Mutex.rtMutexRelease]
  split
  · exact .always (wellFormed.setError t _) trivial (allSorted_setError t _).mpr
  · split
    · simp only [Mutex.passOn]
      split
      · exact .always (restored.wellFormed.rtIpcListResume m) trivial
          fun sorted => ((restored.exact sorted).mpr trivial).rtIpcListResume m
      · exact restored
    · exact .always wellFormed trivial id

end mutexes

section runs

variable {st after : State Tid Lid Mid} {e : Event Tid Lid Mid}

theorem sendWalk_changes {kernel : Kernel Tid (Lid ⊕ Mid)} {flag : Lid ⊕ Mid → IpcFlag}
    (wellFormed : kernel.WellFormed) (satisfied : Tid → Bool) (waiters : List Tid) :
    Changes kernel flag True (sendWalk kernel satisfied waiters) := by
  induction waiters generalizing kernel with
  | nil => exact .always wellFormed trivial id
  | cons t rest ih =>
    rw [sendWalk]
    split
    · have walked := ih (wellFormed.rtThreadResume t)
      exact .always walked.wellFormed trivial
        fun sorted => (walked.exact (sorted.rtThreadResume t)).mpr trivial
    · exact ih wellFormed

omit [DecidableEq Lid] [DecidableEq Mid] in
theorem takeResult_kernel (t : Tid) (m : Lid ⊕ Mid) (time : Int)
    (r : Mutex.State Tid (Lid ⊕ Mid) × Option RtErr) :
    (Mutex.State.takeResult t m time r).kernel = r.1.kernel := by
  obtain ⟨mutexes, _ | code⟩ := r <;> rfl

omit [DecidableEq Lid] [DecidableEq Mid] in
theorem takeResult_mutex (t : Tid) (m : Lid ⊕ Mid) (time : Int)
    (r : Mutex.State Tid (Lid ⊕ Mid) × Option RtErr) :
    (Mutex.State.takeResult t m time r).mutex = r.1.mutex := by
  obtain ⟨mutexes, _ | code⟩ := r <;> rfl

theorem resumed_eq_some {mutexes after : Mutex.State Tid (Lid ⊕ Mid)} {t : Tid}
    (ran : Mutex.step mutexes (.resumed t) = some after) :
    ∃ m time, mutexes.taking t = some (m, time) ∧ (mutexes.kernel.thread t).stat = .ready ∧
      after = Mutex.rtMutexTakeResumed mutexes t m time := by
  simp only [Mutex.step] at ran
  split at ran
  · rename_i m time calls
    simp only [ite_none_right_eq_some, Option.some.injEq] at ran
    exact ⟨m, time, calls, ran.1, ran.2.symm⟩
  · simp at ran

/-- The flags, and that whoever is inside `rt_mutex_take` is so for a mutex. -/
structure Frame (st after : State Tid Lid Mid) : Prop where
  objectFlag : after.objectFlag = st.objectFlag
  taking : ∀ t call, after.mutexes.taking t = some call →
    st.mutexes.taking t = some call ∨ ∃ m, call.1 = .inr m

omit [DecidableEq Tid] [DecidableEq Lid] [DecidableEq Mid] in
theorem Frame.setKernel (kernel : Kernel Tid (Lid ⊕ Mid)) : Frame st (st.setKernel kernel) :=
  ⟨State.setKernel_objectFlag st kernel, fun _ _ => .inl⟩

omit [DecidableEq Tid] [DecidableEq Lid] [DecidableEq Mid] in
theorem frame_of_flags {mutexes : Mutex.State Tid (Lid ⊕ Mid)}
    (flags : ∀ obj, (mutexes.mutex obj).flag = (st.mutexes.mutex obj).flag)
    (taking : ∀ t call, mutexes.taking t = some call →
      st.mutexes.taking t = some call ∨ ∃ m, call.1 = .inr m) : Frame st { st with mutexes } := by
  refine ⟨?_, taking⟩
  funext obj
  cases obj with
  | inl list => rfl
  | inr m => exact flags (.inr m)

omit [DecidableEq Tid] in
theorem setMutex_flag (mutexes : Mutex.State Tid Obj) [DecidableEq Obj] (m obj : Obj)
    {mutex : Mutex.RtMutex Tid} (same : mutex.flag = (mutexes.mutex m).flag) :
    ((mutexes.setMutex m mutex).mutex obj).flag = (mutexes.mutex obj).flag := by
  rw [Mutex.State.setMutex_mutex]
  split
  · next isObj => rw [isObj, same]
  · rfl

theorem rtMutexTakeAgain_frame [DecidableEq Obj] (mutexes : Mutex.State Tid Obj) (t : Tid)
    (m : Obj) (time : Int) : (∀ obj, ((Mutex.rtMutexTakeAgain mutexes t m time).1.mutex obj).flag =
        (mutexes.mutex obj).flag) ∧
      (Mutex.rtMutexTakeAgain mutexes t m time).1.taking = mutexes.taking := by
  simp only [Mutex.rtMutexTakeAgain]
  split
  · exact ⟨fun obj => setMutex_flag mutexes m obj rfl, rfl⟩
  · split <;> exact ⟨fun _ => rfl, rfl⟩

theorem rtMutexTake_frame [DecidableEq Obj] (mutexes : Mutex.State Tid Obj) (t : Tid)
    (m : Obj) (time : Int) :
    (∀ obj, ((Mutex.rtMutexTake mutexes t m time).1.mutex obj).flag = (mutexes.mutex obj).flag) ∧
      (Mutex.rtMutexTake mutexes t m time).1.taking = mutexes.taking := by
  simp only [Mutex.rtMutexTake]
  split
  · exact ⟨fun obj => setMutex_flag _ m obj rfl, rfl⟩
  · exact rtMutexTakeAgain_frame _ t m time

theorem passOn_frame [DecidableEq Obj] (mutexes : Mutex.State Tid Obj) (m : Obj) :
    (∀ obj, ((Mutex.passOn mutexes m).mutex obj).flag = (mutexes.mutex obj).flag) ∧
      (Mutex.passOn mutexes m).taking = mutexes.taking := by
  simp only [Mutex.passOn]
  split <;> exact ⟨fun obj => setMutex_flag mutexes m obj rfl, rfl⟩

theorem rtMutexRelease_frame [DecidableEq Obj] (mutexes : Mutex.State Tid Obj) (t : Tid) (m : Obj) :
    (∀ obj, ((Mutex.rtMutexRelease mutexes t m).1.mutex obj).flag = (mutexes.mutex obj).flag) ∧
      (Mutex.rtMutexRelease mutexes t m).1.taking = mutexes.taking := by
  simp only [Mutex.rtMutexRelease]
  split
  · exact ⟨fun _ => rfl, rfl⟩
  · split
    · refine ⟨fun obj => ?_, (passOn_frame _ m).2⟩
      rw [(passOn_frame _ m).1 obj]
      exact setMutex_flag mutexes m obj rfl
    · exact ⟨fun obj => setMutex_flag mutexes m obj rfl, rfl⟩

theorem takeResult_taking {mutexes : Mutex.State Tid Obj} {t s : Tid} {m : Obj} {time : Int}
    {r : Mutex.State Tid Obj × Option RtErr} (same : r.1.taking = mutexes.taking) {call : Obj × Int}
    (calls : (Mutex.State.takeResult t m time r).taking s = some call) :
    mutexes.taking s = some call ∨ s = t ∧ call = (m, time) := by
  obtain ⟨after, _ | code⟩ := r
  · simp only [Mutex.State.takeResult, Function.update_apply] at calls
    split at calls
    · next isCaller => exact .inr ⟨isCaller, (Option.some.inj calls).symm⟩
    · exact .inl (same ▸ calls)
  · simp only [Mutex.State.takeResult, Function.update_apply] at calls
    split at calls
    · exact absurd calls (by simp)
    · exact .inl (same ▸ calls)

theorem step_frame (ran : step st e = some after) : Frame st after := by
  cases e with
  | block t list time =>
    obtain ⟨-, ⟨⟩⟩ := ite_none_right_eq_some.mp ran
    exact .setKernel _
  | resume list | send list satisfied | resumeAll list | control t p =>
    cases ran
    exact .setKernel _
  | take t m time =>
    simp only [step, map_eq_some_iff, Mutex.step, ite_none_right_eq_some,
      Option.some.injEq] at ran
    obtain ⟨mutexes, ⟨-, rfl⟩, rfl⟩ := ran
    obtain ⟨flags, taking⟩ := rtMutexTake_frame st.mutexes t (.inr m) time
    refine frame_of_flags (by simpa only [takeResult_mutex] using flags) fun s call calls => ?_
    exact (takeResult_taking taking calls).imp_right fun isCall => ⟨m, by rw [isCall.2]⟩
  | takeResumed t =>
    simp only [step, map_eq_some_iff] at ran
    obtain ⟨mutexes, ran, rfl⟩ := ran
    obtain ⟨m, time, called, -, rfl⟩ := resumed_eq_some ran
    unfold Mutex.rtMutexTakeResumed
    split
    · obtain ⟨flags, taking⟩ := rtMutexTakeAgain_frame st.mutexes t m time
      refine frame_of_flags (by simpa only [takeResult_mutex] using flags) fun s call calls => ?_
      rcases takeResult_taking taking calls with before | ⟨rfl, rfl⟩
      · exact .inl before
      · exact .inl called
    · refine frame_of_flags (fun _ => rfl) fun s call calls => .inl ?_
      simp only [Function.update_apply] at calls
      split at calls
      · exact absurd calls (by simp)
      · exact calls
  | release t m =>
    simp only [step, map_eq_some_iff, Mutex.step, ite_none_right_eq_some,
      Option.some.injEq] at ran
    obtain ⟨mutexes, ⟨-, rfl⟩, rfl⟩ := ran
    obtain ⟨flags, taking⟩ := rtMutexRelease_frame st.mutexes t (.inr m)
    exact frame_of_flags flags fun s call calls => .inl (taking ▸ calls)
  | timeout t =>
    simp only [step, map_eq_some_iff, Mutex.step, ite_none_right_eq_some,
      Option.some.injEq] at ran
    obtain ⟨mutexes, ⟨-, rfl⟩, rfl⟩ := ran
    exact frame_of_flags (fun _ => rfl) fun _ _ => .inl

structure Sound (st : State Tid Lid Mid) : Prop where
  wellFormed : st.kernel.WellFormed
  taking : ∀ t call, st.mutexes.taking t = some call → ∃ m, call.1 = .inr m

theorem step_changes (inv : Sound st) (ran : step st e = some after) :
    Changes st.kernel st.objectFlag (KeepsOrder st e) after.kernel := by
  have wellFormed := inv.wellFormed
  cases e with
  | block t list time =>
    simp only [step, ite_none_right_eq_some, Option.some.injEq] at ran
    obtain ⟨⟨running, -⟩, rfl⟩ := ran
    exact .always (wellFormed.blockOn running.1 _ _ _) (by simp [KeepsOrder, changed])
      (allSorted_blockOn wellFormed running.1 (.inl list) time).mpr
  | resume list =>
    cases ran
    exact .always (wellFormed.rtIpcListResume _) (by simp [KeepsOrder, changed])
      fun sorted => sorted.rtIpcListResume _
  | send list satisfied =>
    cases ran
    have walked := @sendWalk_changes _ _ _ _ _ _ _ st.objectFlag wellFormed satisfied
      (st.kernel.queue (.wait (.inl list)))
    exact .always walked.wellFormed (by simp [KeepsOrder, changed])
      fun sorted => (walked.exact sorted).mpr trivial
  | resumeAll list =>
    cases ran
    exact .always (wellFormed.resumeAll _) (by simp [KeepsOrder, changed])
      fun sorted => sorted.resumeAll _
  | take t m time =>
    simp only [step, map_eq_some_iff, Mutex.step, ite_none_right_eq_some,
      Option.some.injEq] at ran
    obtain ⟨mutexes, ⟨running, rfl⟩, rfl⟩ := ran
    simp only [State.kernel, takeResult_kernel]
    exact changes_rtMutexTake wellFormed running.1 (.inr m) rfl time
  | takeResumed t =>
    simp only [step, map_eq_some_iff] at ran
    obtain ⟨mutexes, ran, rfl⟩ := ran
    obtain ⟨m, time, calls, ready, rfl⟩ := resumed_eq_some ran
    obtain ⟨m, rfl⟩ : ∃ mutex, m = .inr mutex := inv.taking t _ calls
    simp only [KeepsOrder, changed, State.kernel, Mutex.rtMutexTakeResumed, calls]
    split
    · simp only [takeResult_kernel]
      exact changes_rtMutexTakeAgain wellFormed ready (.inr m) rfl time
    · exact .always wellFormed (by simp) id
  | release t m =>
    simp only [step, map_eq_some_iff, Mutex.step, ite_none_right_eq_some,
      Option.some.injEq] at ran
    obtain ⟨mutexes, ⟨running, rfl⟩, rfl⟩ := ran
    have released := @changes_rtMutexRelease _ _ _ _ _ st.objectFlag _ wellFormed running.1
      (.inr m)
    exact .always released.wellFormed (by simp [KeepsOrder, changed])
      fun sorted => (released.exact sorted).mpr trivial
  | timeout t =>
    simp only [step, map_eq_some_iff, Mutex.step, ite_none_right_eq_some,
      Option.some.injEq] at ran
    obtain ⟨mutexes, ⟨-, rfl⟩, rfl⟩ := ran
    exact .always (wellFormed.rtThreadTimeout t) (by simp [KeepsOrder, changed])
      fun sorted => sorted.rtThreadTimeout t
  | control t p =>
    cases ran
    refine ⟨wellFormed.changePriority _ _, fun sorted => ?_⟩
    rw [State.setKernel_kernel, allSorted_changePriority wellFormed sorted]
    simp [KeepsOrder, changed]

omit [DecidableEq Lid] [DecidableEq Mid] [DecidableEq Tid] in
theorem Initial.sound (init : Initial st) : Sound st :=
  ⟨init.wellFormed, fun t call calls => by simp [init.noCalls t] at calls⟩

theorem Sound.step (inv : Sound st) (ran : step st e = some after) : Sound after := by
  refine ⟨(step_changes inv ran).wellFormed, fun t call calls => ?_⟩
  rcases (step_frame ran).taking t call calls with before | isMutex
  · exact inv.taking t call before
  · exact isMutex

end runs

/-- The suspend lists stay in the order of the priorities exactly in the runs in which no
thread is given a priority that does not suit its place. -/
theorem ordered_throughout_iff {taken : List (Taken (State Tid Lid Mid)
    (Event Tid Lid Mid))} {last : State Tid Lid Mid} (run : system.Run taken last) :
    Throughout State.Ordered taken last ↔ EveryStep KeepsOrder taken := by
  refine run.throughout_iff_everyStep (fun _ init => Initial.sound init)
    (fun _ _ _ inv ran => Sound.step inv ran) (fun st init => ?_)
    fun st e after inv ordered ran => ?_
  · rw [State.ordered_iff]
    intro list _
    simp [Sorted, Initial.noWaiters init]
  · rw [State.ordered_iff] at ordered ⊢
    rw [(step_frame ran).objectFlag]
    exact (step_changes inv ran).exact ordered

/-- A semaphore and a mutex with `RT_IPC_FLAG_PRIO`, and threads of the priorities. -/
def fresh (priorities : List Nat) : State (Fin priorities.length) (Fin 1) (Fin 1) where
  mutexes :=
    { kernel := Kernel.started (List.finRange _) priorities.get
      mutex := fun _ =>
        { value := 1
          originalPriority := 0xff
          hold := 0
          owner := none
          flag := .prio }
      taking := fun _ => none
      count := fun _ _ => 0 }
  flag _ := .prio

theorem fresh_initial (priorities : List Nat) : Initial (fresh priorities) where
  wellFormed := Kernel.started_wellFormed (List.nodup_finRange _) _
  noWaiters _ := rfl
  noCalls _ := rfl
  value_eq _ := rfl
  hold_eq _ := rfl
  owner_eq _ := rfl

theorem raised_first_waiter_ordered :
    ∃ taken last, (@system (Fin 3) (Fin 1) (Fin 1) _ _ _).Run taken last ∧
      Throughout State.Ordered taken last := by
  let events : List (Event (Fin 3) (Fin 1) (Fin 1)) :=
    [.take 0 0 (-1), .block 0 0 (-1), .block 2 0 5, .take 1 0 (-1), .resume 0, .timeout 2,
      .release 0 0, .takeResumed 1]
  have run : system.Run _ _ :=
    .executed (fresh [20, 10, 30]) events (fresh_initial _) (by decide +kernel)
  exact ⟨_, _, run, (ordered_throughout_iff run).mpr (by decide +kernel)⟩

/-- The second waiter of a semaphore becomes the more urgent one, and is woken second. -/
theorem second_waiter_overtaken :
    ¬ ∀ taken last, (@system (Fin 2) (Fin 1) (Fin 1) _ _ _).Run taken last →
      Throughout State.Ordered taken last := by
  intro claim
  let events : List (Event (Fin 2) (Fin 1) (Fin 1)) :=
    [.block 0 0 (-1), .block 1 0 (-1), .control 1 5]
  have run : system.Run _ _ :=
    .executed (fresh [10, 15]) events (fresh_initial _) (by decide +kernel)
  have ordered := (claim _ _ run).1.2 (.inl 0) rfl 0 (by decide +kernel) 1 (by decide +kernel)
  exact absurd ordered (by decide +kernel)

end RtThread.WaitOrder
