import RtThread.Scheduler.Calls

/-!
# The ready queue

A thread is ready exactly when it is linked in the list of its priority, the bitmap names the
lists that are not empty, and `rt_schedule` selects the head of the lowest one.
-/

open TransitionSystem

namespace RtThread.Scheduler

universe u v

variable {cfg : Config} {Tid : Type u} {Obj : Type v} [DecidableEq Tid] [DecidableEq Obj]
  {s after : State Tid Obj} {k : Kernel Tid Obj}

/-- `queue` are the lists that the links hold, and the scheduler's variables fit them. -/
structure ReadyQueue (cfg : Config) (s : State Tid Obj)
    (queue : ListHead Obj → List Tid) : Prop where
  links : s.links.Represents queue
  linked : ∀ t, (s.thread t).maskedStat = threadReady →
    (s.thread t).currentPriority.toNat < cfg.priorityMax ∧
      t ∈ queue (.ready (s.thread t).currentPriority.toNat)
  onlyReady : ∀ t priority, t ∈ queue (.ready priority) →
    (s.thread t).maskedStat = threadReady ∧
      (s.thread t).currentPriority.toNat = priority
  bitmap : Bitmap cfg s.readyPriorityGroup s.readyTable queue
  selects : ∀ priority < cfg.priorityMax, queue (.ready priority) ≠ [] →
    (∀ other < priority, queue (.ready other) = []) →
      toThread cfg s = (queue (.ready priority)).head?

def Below (cfg : Config) (k : Kernel Tid Obj) : Prop :=
  ∀ t, (k.thread t).stat = .ready → (k.thread t).currentPriority < cfg.priorityMax

omit [DecidableEq Tid] [DecidableEq Obj] in
theorem Invariant.readyQueue_iff (inv : Invariant cfg s k) :
    (∃ queue, ReadyQueue cfg s queue) ↔ Below cfg k := by
  have agrees := inv.refines.thread
  have isReady := fun t => inv.refines.stat_iff t .ready
  constructor
  · rintro ⟨queue, readyQueue⟩ t ready
    rw [(agrees t).priority]
    exact (readyQueue.linked t ((isReady t).mpr ready)).1
  · intro below
    refine ⟨k.queue, inv.refines.links, ?_, ?_, inv.bitmap, ?_⟩
    · intro t ready
      have stat := (isReady t).mp ready
      rw [← (agrees t).priority]
      exact ⟨below t stat, (inv.wellFormed.ready t _).mpr ⟨stat, rfl⟩⟩
    · intro t p inList
      obtain ⟨stat, isPriority⟩ := (inv.wellFormed.ready t p).mp inList
      rw [← (agrees t).priority]
      exact ⟨(isReady t).mpr stat, isPriority⟩
    · intro p inTable linked lower
      exact toThread_eq inv.bitmap inv.refines.links inTable linked lower

/-- A thread that becomes ready, or changes its priority while it is, has a priority of
the table. -/
def KeepsReadyQueue (cfg : Config) (s : State Tid Obj) : Event Tid Obj → Prop
  | .resume t => (s.thread t).maskedStat = threadSuspend →
      (s.thread t).currentPriority.toNat < cfg.priorityMax
  | .timeout t => (s.thread t).currentPriority.toNat < cfg.priorityMax
  | .changePriority t priority => (s.thread t).maskedStat = threadReady →
      priority.toNat < cfg.priorityMax
  | _ => True

instance (cfg : Config) (s : State Tid Obj) :
    (e : Event Tid Obj) → Decidable (KeepsReadyQueue cfg s e)
  | .resume _ | .changePriority .. => instDecidableForall
  | .timeout _ => inferInstanceAs (Decidable (_ < _))
  | .startup _ | .suspend _ | .yield | .detach _ | .delete _ | .exit | .ipcSuspend .. |
    .timerStart _ | .schedule | .schedulerStart | .enterCritical | .exitCritical => .isTrue trivial

omit [DecidableEq Obj] in
theorem below_iff {kernel' : Kernel Tid Obj} {t : Tid} (below : Below cfg k)
    (others : ∀ other, other ≠ t → kernel'.thread other = k.thread other) :
    Below cfg kernel' ↔ ((kernel'.thread t).stat = .ready →
      (kernel'.thread t).currentPriority < cfg.priorityMax) := by
  constructor
  · exact fun below' => below' t
  · intro own other ready
    by_cases same : other = t
    · subst same
      exact own ready
    · rw [others other same] at ready ⊢
      exact below other ready

def initialKernel (s : State Tid Obj) : Kernel Tid Obj where
  thread t :=
    { stat := .init
      error := .eok
      currentPriority := (s.thread t).currentPriority.toNat
      initPriority := (s.thread t).initPriority.toNat
      timer := false
      eventSet := 0
      eventInfo := 0 }
  queue _ := []

omit [DecidableEq Tid] [DecidableEq Obj] in
theorem initial_invariant (init : Initial cfg s) :
    Invariant cfg s (initialKernel s) ∧ Below cfg (initialKernel s) := by
  refine ⟨{ refines := ⟨?_, ?_⟩, bitmap := ⟨?_, ?_, ?_⟩, sound := ?_,
            wellFormed := ⟨?_, ?_, ?_, ?_, ?_⟩ }, ?_⟩
  · rw [init.links]
    exact Links.represents_selfLinked
  · intro t
    have inited := init.thread t
    refine ⟨?_, rfl, rfl, inited.error.symm⟩
    rw [Tcb.maskedStat, inited.stat]
    rfl
  · simp [initialKernel, init.readyPriorityGroup]
  · simp [initialKernel, init.readyTable]
  · simp [init.readyTable, init.readyPriorityGroup]
  · intro t
    have inited := init.thread t
    refine ⟨.inr ⟨inited.numberMask, inited.highMask, .inl ?_⟩, inited.priority.1⟩
    rw [Tcb.maskedStat, inited.stat]
    rfl
  · simp [initialKernel]
  · simp [initialKernel]
  · simp [initialKernel]
  · simp [initialKernel]
  · simp [initialKernel]
  · intro t ready
    simp [initialKernel] at ready

theorem startup_thread (k : Kernel Tid Obj) (t other : Tid) :
    (Invariant.startup k t).thread other = if other = t then
        { k.thread t with
          stat := .ready
          currentPriority := (k.thread t).initPriority
          timer := false }
      else k.thread other := by
  rw [Invariant.startup, Kernel.rtThreadResume_thread (by simp)]
  by_cases same : other = t <;> simp [same]

omit [DecidableEq Obj] in
theorem Closes.below {t : Tid} (closes : Closes cfg k t after) :
    ∃ kernel', Invariant cfg after kernel' ∧ (Below cfg k → Below cfg kernel') := by
  obtain ⟨kernel', invariant', thread⟩ := closes
  refine ⟨kernel', invariant', fun below => (below_iff (t := t) below ?_).mpr ?_⟩
  · intro other apart
    rw [thread, Invariant.closed_thread, if_neg apart]
  · rw [thread, Invariant.closed_thread, if_pos rfl]
    simp

theorem step_invariant (inv : Invariant cfg s k) {e : Event Tid Obj}
    (ran : step cfg s e = some after) : ∃ kernel', Invariant cfg after kernel' ∧
      (Below cfg k → (Below cfg kernel' ↔ KeepsReadyQueue cfg s e)) := by
  have stat_iff := inv.refines.stat_iff
  have agrees := inv.refines.thread
  have unchanged : ∀ {e : Event Tid Obj}, KeepsReadyQueue cfg s e →
      Invariant cfg after k → ∃ kernel', Invariant cfg after kernel' ∧
        (Below cfg k → (Below cfg kernel' ↔ KeepsReadyQueue cfg s e)) :=
    fun keeps invariant' => ⟨k, invariant', fun below => iff_of_true below keeps⟩
  cases e with
  | startup t =>
    refine ⟨_, inv.rtThreadStartup ran, fun below => iff_of_true ?_ trivial⟩
    have started := startup_thread k t
    apply (below_iff (t := t) below ?_).mpr
    · rw [started, if_pos rfl]
      intro _
      have inTable := (inv.sound t).initPriority
      rwa [← (agrees t).initPriority] at inTable
    · intro other apart
      rw [started, if_neg apart]
  | suspend t =>
    simp only [step, Option.map_eq_some_iff] at ran
    obtain ⟨⟨suspended, r⟩, suspends, rfl⟩ := ran
    refine ⟨_, inv.rtThreadSuspend suspends, fun below => iff_of_true ?_ trivial⟩
    by_cases ready : (k.thread t).stat = .ready
    · have suspendedThread := Kernel.rtThreadSuspend_thread ready
      apply (below_iff (t := t) below ?_).mpr
      · simp [suspendedThread]
      · intro other apart
        simp [suspendedThread, apart]
    · simpa [Kernel.rtThreadSuspend, ready] using below
  | resume t =>
    simp only [step, Option.map_eq_some_iff] at ran
    obtain ⟨⟨resumed, r⟩, resumes, rfl⟩ := ran
    refine ⟨_, inv.rtThreadResume resumes, fun below => ?_⟩
    have isSuspended : (s.thread t).maskedStat = threadSuspend ↔ _ := stat_iff t .suspend
    rw [KeepsReadyQueue, isSuspended, ← (agrees t).priority]
    by_cases suspended : (k.thread t).stat = .suspend
    · have resumedThread := Kernel.rtThreadResume_thread suspended
      rw [below_iff (t := t) below fun other apart => by simp [resumedThread, apart]]
      simp [resumedThread, suspended]
    · simpa [Kernel.rtThreadResume, suspended] using below
  | yield =>
    obtain ⟨kernel', invariant', thread⟩ := inv.rtThreadYield ran
    refine ⟨kernel', invariant', fun below => iff_of_true ?_ trivial⟩
    intro t ready
    rw [thread] at ready ⊢
    exact below t ready
  | timeout t =>
    refine ⟨_, inv.rtThreadTimeout ran, fun below => ?_⟩
    rw [below_iff (t := t) below fun other apart => by simp [apart], KeepsReadyQueue,
      ← (agrees t).priority]
    simp
  | detach t =>
    obtain ⟨kernel', invariant', keeps⟩ := (inv.rtThreadDetach ran).below
    exact ⟨kernel', invariant', fun below => iff_of_true (keeps below) trivial⟩
  | delete t =>
    obtain ⟨kernel', invariant', keeps⟩ := (inv.rtThreadDelete ran).below
    exact ⟨kernel', invariant', fun below => iff_of_true (keeps below) trivial⟩
  | exit =>
    obtain ⟨t, closes⟩ := inv.rtThreadExit ran
    obtain ⟨kernel', invariant', keeps⟩ := closes.below
    exact ⟨kernel', invariant', fun below => iff_of_true (keeps below) trivial⟩
  | changePriority t p =>
    refine ⟨_, inv.changePriority ran, fun below => ?_⟩
    have isReady : (s.thread t).maskedStat = threadReady ↔ _ := stat_iff t .ready
    rw [below_iff (t := t) below fun other apart => by simp [apart], KeepsReadyQueue, isReady]
    simp
  | ipcSuspend list t =>
    obtain ⟨ready, ran⟩ := Option.ite_none_right_eq_some.mp ran
    have isReady := (stat_iff t .ready).mp ready
    have suspendedThread := Kernel.rtIpcListSuspend_thread isReady list .fifo
    refine ⟨_, inv.rtIpcListSuspend ready ran,
      fun below => iff_of_true ((below_iff (t := t) below ?_).mpr ?_) trivial⟩
    · intro other apart
      simp [suspendedThread, apart]
    · simp [suspendedThread]
  | timerStart t => exact unchanged trivial (inv.rtTimerStart ran)
  | schedule => exact unchanged trivial (inv.rtSchedule ran)
  | schedulerStart =>
    simp only [step, rtSystemSchedulerStart, Option.map_eq_some_iff] at ran
    obtain ⟨target, -, rfl⟩ := ran
    exact unchanged trivial (inv.congr rfl rfl rfl rfl)
  | enterCritical =>
    cases ran
    exact unchanged trivial (inv.congr rfl rfl rfl rfl)
  | exitCritical => exact unchanged trivial (inv.rtExitCritical ran)

/-- The ready queue is sound throughout a run exactly when every call meets the
condition. -/
theorem readyQueue_throughout_iff {taken : List (Taken (State Tid Obj) (Event Tid Obj))}
    {last : State Tid Obj} (run : (system cfg).Run taken last) :
    Throughout (fun s => ∃ queue, ReadyQueue cfg s queue) taken last ↔
      EveryStep (KeepsReadyQueue cfg) taken := by
  have invBase : ∀ s : State Tid Obj, Initial cfg s →
      ∃ k : Kernel Tid Obj, Invariant cfg s k := by
    intro s init
    exact ⟨_, (initial_invariant init).1⟩
  have invPreserved : ∀ (s : State Tid Obj) e after, (∃ k : Kernel Tid Obj, Invariant cfg s k) →
        (system cfg).step s e after →
          ∃ k : Kernel Tid Obj, Invariant cfg after k := by
    rintro s e after ⟨k, inv⟩ ran
    obtain ⟨kernel', invariant', -⟩ := step_invariant inv ran
    exact ⟨kernel', invariant'⟩
  apply run.throughout_iff_everyStep invBase invPreserved
  · intro s init
    obtain ⟨inv, below⟩ := initial_invariant init
    exact inv.readyQueue_iff.mpr below
  · rintro s e after ⟨k, inv⟩ readyQueue ran
    obtain ⟨kernel', invariant', exact⟩ := step_invariant inv ran
    rw [invariant'.readyQueue_iff]
    exact exact (inv.readyQueue_iff.mp readyQueue)

/-- `RT_THREAD_PRIORITY_MAX` of 256, with the bitmap of two levels. -/
def twoLevel : Config where
  priorityMax := 256
  priorityMax_pos := by decide
  priorityMax_le := by decide

/-- `RT_THREAD_PRIORITY_MAX` of 32, with the bitmap of one word. -/
def oneLevel : Config where
  priorityMax := 32
  priorityMax_pos := by decide
  priorityMax_le := by decide

def initedThread (priority : BitVec 8) : Tcb where
  type := objectClassThread ||| objectClassStatic
  error := .eok
  stat := threadInit
  currentPriority := priority
  initPriority := priority
  number := 0
  highMask := 0
  numberMask := 0
  timerType := objectClassTimer ||| objectClassStatic
  timerActivated := false
  cleanup := false

def twoThreads (first second : BitVec 8) : State (Fin 2) Unit where
  thread t := initedThread (if t = 0 then first else second)
  links := Links.selfLinked
  readyPriorityGroup := 0
  readyTable _ := 0
  currentThread := none
  currentPriority := 0
  schedulerLockNest := 0

theorem twoThreads_initial {a second : BitVec 8} (firstInTable : a.toNat < cfg.priorityMax)
    (secondInTable : second.toNat < cfg.priorityMax) : Initial cfg (twoThreads a second) where
  thread t := by
    have inTable : (if t = 0 then a else second).toNat < cfg.priorityMax := by
      split
      · exact firstInTable
      · exact secondInTable
    have isThread : rtObjectGetType (objectClassThread ||| objectClassStatic) =
        objectClassThread := by decide
    exact ⟨isThread, rfl, rfl, ⟨inTable, rfl⟩, rfl, rfl, rfl, rfl, rfl⟩
  links := rfl
  readyPriorityGroup := rfl
  readyTable _ := rfl
  currentThread := rfl
  schedulerLockNest := rfl

theorem detached_waiter_readyQueue : Throughout (fun s => ∃ queue, ReadyQueue twoLevel s queue)
      (record (step twoLevel) [] (twoThreads 200 31)
        [.startup 0, .startup 1, .schedulerStart, .changePriority 0 9, .schedule,
          .ipcSuspend () 0, .schedule, .detach 0]) ((execute (step twoLevel) (twoThreads 200 31)
        [.startup 0, .startup 1, .schedulerStart, .changePriority 0 9, .schedule,
          .ipcSuspend () 0, .schedule, .detach 0]).get (by decide +kernel)) :=
  (readyQueue_throughout_iff (Run.execute
    (.start (twoThreads_initial (by decide) (by decide))) (Option.some_get _).symm)).mpr
      (by decide +kernel)

/-- A ready thread is given a priority that the table does not have. -/
theorem priority_40_not_readyQueue :
    ¬ ∀ (taken : List (Taken (State (Fin 2) Unit) (Event (Fin 2) Unit)))
      (last : State (Fin 2) Unit), (system oneLevel).Run taken last →
        Throughout (fun s => ∃ queue, ReadyQueue oneLevel s queue) taken last := by
  intro claim
  have run := Run.execute
    (.start (twoThreads_initial (by decide) (by decide)) :
      (system oneLevel).Run [] (twoThreads 10 20))
    (Option.some_get (by decide : (execute (step oneLevel) (twoThreads 10 20)
      [.startup 0, .changePriority 0 40]).isSome)).symm
  obtain ⟨queue, readyQueue⟩ := (claim _ _ run).1
  have inTable := (readyQueue.linked 0 (by decide)).1
  revert inTable
  decide

end RtThread.Scheduler
