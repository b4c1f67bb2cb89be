import RtThread.Kernel.Basic

/-!
# Suspending and resuming threads

The thread services every IPC object is built from, on the lists of threads.
-/

namespace RtThread

universe u v

/-- "re-calculate timeout tick" of the receiving loops: unsigned differences, read as a
signed number. -/
def remaining (timeout tickDelta tick : BitVec 32) : BitVec 32 :=
  if 0 < timeout.toInt then
    let left := timeout - (tick - tickDelta)
    if left.toInt < 0 then 0 else left
  else timeout

namespace Kernel

variable {Tid : Type u} {Obj : Type v} [DecidableEq Tid] [DecidableEq Obj]

def rtScheduleInsertThread (kernel : Kernel Tid Obj) (t : Tid) : Kernel Tid Obj :=
  let thread := kernel.thread t
  let home := ListHead.ready thread.currentPriority
  (kernel.setThread t { thread with stat := .ready }).setQueue home (kernel.queue home ++ [t])

def rtThreadSuspend (kernel : Kernel Tid Obj) (t : Tid) : Kernel Tid Obj :=
  let thread := kernel.thread t
  if thread.stat ≠ .ready then kernel
  else (kernel.setThread t { thread with stat := .suspend, timer := false }).unlink t

def rtThreadResume (kernel : Kernel Tid Obj) (t : Tid) : Kernel Tid Obj :=
  let thread := kernel.thread t
  if thread.stat ≠ .suspend then kernel
  else ((kernel.setThread t { thread with timer := false }).unlink t).rtScheduleInsertThread t

/-- `rt_thread_timeout`, called by the expiry of the thread's timer; the timer is not
activated any more when the expiry is over. -/
def rtThreadTimeout (kernel : Kernel Tid Obj) (t : Tid) : Kernel Tid Obj :=
  let thread := kernel.thread t
  ((kernel.setThread t { thread with error := .etimeout, timer := false }).unlink
    t).rtScheduleInsertThread t

/-- `rt_thread_control` with `RT_THREAD_CTRL_CHANGE_PRIORITY`: a ready thread changes
its queue, any other only its priority. -/
def changePriority (kernel : Kernel Tid Obj) (t : Tid) (priority : Nat) : Kernel Tid Obj :=
  let thread := kernel.thread t
  if thread.stat = .ready then
    ((kernel.unlink t).setThread t
      { thread with currentPriority := priority }).rtScheduleInsertThread t
  else kernel.setThread t { thread with currentPriority := priority }

def startTimer (kernel : Kernel Tid Obj) (t : Tid) (time : Int) : Kernel Tid Obj :=
  if 0 < time then kernel.setThread t { kernel.thread t with timer := true } else kernel

def setError (kernel : Kernel Tid Obj) (t : Tid) (code : RtErr) : Kernel Tid Obj :=
  kernel.setThread t { kernel.thread t with error := code }

/-- The walk of `rt_ipc_list_suspend` for `RT_IPC_FLAG_PRIO`: in front of the first
thread of a strictly larger number, else at the end. -/
def insertByPriority (priority : Tid → Nat) (t : Tid) : List Tid → List Tid
  | [] => [t]
  | s :: rest =>
    if priority t < priority s then t :: s :: rest
    else s :: insertByPriority priority t rest

def insertWaiter (flag : IpcFlag) (priority : Tid → Nat) (t : Tid) (waiters : List Tid) :
    List Tid :=
  match flag with
  | .fifo => waiters ++ [t]
  | .prio => insertByPriority priority t waiters

def rtIpcListSuspend (kernel : Kernel Tid Obj) (list : Obj) (t : Tid) (flag : IpcFlag) :
    Kernel Tid Obj :=
  let kernel := kernel.rtThreadSuspend t
  kernel.setQueue (.wait list)
    (insertWaiter flag (fun s => (kernel.thread s).currentPriority) t (kernel.queue (.wait list)))

/-- What every blocking call does with its caller: reset `error`, suspend it on the
object's list and start its timer. -/
def blockOn (kernel : Kernel Tid Obj) (list : Obj) (t : Tid) (flag : IpcFlag) (time : Int) :
    Kernel Tid Obj :=
  ((kernel.setError t .eok).rtIpcListSuspend list t flag).startTimer t time

/-- `rt_ipc_list_resume`: the first waiter, which the caller knows to exist. -/
def rtIpcListResume (kernel : Kernel Tid Obj) (list : Obj) : Kernel Tid Obj :=
  match kernel.queue (.wait list) with
  | [] => kernel
  | t :: _ => kernel.rtThreadResume t

/-- The loop of `rt_ipc_list_resume_all`, one turn for each waiter it finds. -/
def resumeAll (kernel : Kernel Tid Obj) : List Tid → Kernel Tid Obj
  | [] => kernel
  | t :: rest => ((kernel.setError t .error).rtThreadResume t).resumeAll rest

def rtIpcListResumeAll (kernel : Kernel Tid Obj) (list : Obj) : Kernel Tid Obj :=
  kernel.resumeAll (kernel.queue (.wait list))

@[simp] theorem rtScheduleInsertThread_thread (kernel : Kernel Tid Obj) (t other : Tid) :
    (kernel.rtScheduleInsertThread t).thread other =
      if other = t then { kernel.thread t with stat := .ready } else kernel.thread other := by
  simp [rtScheduleInsertThread]

omit [DecidableEq Obj] in
theorem rtThreadSuspend_thread {kernel : Kernel Tid Obj} {t : Tid}
    (ready : (kernel.thread t).stat = .ready) (other : Tid) :
    (kernel.rtThreadSuspend t).thread other =
      if other = t then { kernel.thread t with stat := .suspend, timer := false }
      else kernel.thread other := by
  simp [rtThreadSuspend, ready]

theorem rtThreadResume_thread {kernel : Kernel Tid Obj} {t : Tid}
    (suspended : (kernel.thread t).stat = .suspend) (other : Tid) :
    (kernel.rtThreadResume t).thread other =
      if other = t then { kernel.thread t with stat := .ready, timer := false }
      else kernel.thread other := by
  simp only [rtThreadResume, suspended]
  by_cases same : other = t <;> simp [same]

section

variable (kernel : Kernel Tid Obj)

include kernel

@[simp] theorem rtThreadTimeout_thread (t other : Tid) : (kernel.rtThreadTimeout t).thread other =
      if other = t then { kernel.thread t with stat := .ready, error := .etimeout, timer := false }
      else kernel.thread other := by
  by_cases same : other = t <;> simp [rtThreadTimeout, same]

@[simp] theorem changePriority_thread (t other : Tid) (p : Nat) :
    (kernel.changePriority t p).thread other =
      if other = t then { kernel.thread t with currentPriority := p }
      else kernel.thread other := by
  by_cases ready : (kernel.thread t).stat = .ready <;> by_cases same : other = t <;>
    simp [changePriority, ready, same]

section

omit [DecidableEq Obj]

@[simp] theorem setError_thread (t other : Tid) (code : RtErr) :
    (kernel.setError t code).thread other =
      if other = t then { kernel.thread t with error := code } else kernel.thread other := by
  simp [setError]

@[simp] theorem setError_queue (t : Tid) (code : RtErr) :
    (kernel.setError t code).queue = kernel.queue := rfl

@[simp] theorem startTimer_thread (t other : Tid) (time : Int) :
    (kernel.startTimer t time).thread other =
      if other = t ∧ 0 < time then { kernel.thread t with timer := true }
      else kernel.thread other := by
  by_cases pos : 0 < time <;> simp [startTimer, pos]

@[simp] theorem startTimer_queue (t : Tid) (time : Int) :
    (kernel.startTimer t time).queue = kernel.queue := by
  unfold startTimer
  split <;> rfl

end

end

variable {waiters : List Tid}

theorem mem_insertByPriority {p : Tid → Nat} {t other : Tid} :
    other ∈ insertByPriority p t waiters ↔ other = t ∨ other ∈ waiters := by
  induction waiters with
  | nil => simp [insertByPriority]
  | cons s rest ih =>
    unfold insertByPriority
    split
    · simp
    · simp only [List.mem_cons]
      tauto

@[simp] theorem mem_insertWaiter {flag : IpcFlag} {p : Tid → Nat} {t other : Tid}
    {waiters : List Tid} : other ∈ insertWaiter flag p t waiters ↔ other = t ∨ other ∈ waiters := by
  cases flag with
  | fifo => simp [insertWaiter, or_comm]
  | prio => exact mem_insertByPriority

theorem nodup_insertByPriority {p : Tid → Nat} {t : Tid} (nodup : waiters.Nodup)
    (fresh : t ∉ waiters) : (insertByPriority p t waiters).Nodup := by
  induction waiters with
  | nil => simp [insertByPriority]
  | cons s rest ih =>
    unfold insertByPriority
    split
    · exact List.nodup_cons.mpr ⟨fresh, nodup⟩
    · obtain ⟨notMem, nodupRest⟩ := List.nodup_cons.mp nodup
      refine List.nodup_cons.mpr ⟨?_, ih nodupRest (List.not_mem_of_not_mem_cons fresh)⟩
      rw [mem_insertByPriority]
      rintro (rfl | inRest)
      · exact fresh List.mem_cons_self
      · exact notMem inRest

theorem nodup_insertWaiter {flag : IpcFlag} {p : Tid → Nat} {t : Tid} (nodup : waiters.Nodup)
    (fresh : t ∉ waiters) : (insertWaiter flag p t waiters).Nodup := by
  cases flag with
  | fifo => exact List.nodup_append.mpr ⟨nodup, List.nodup_singleton t, by
      intro s mem s' membership'
      rw [List.mem_singleton.mp membership']
      exact fun equal => fresh (equal ▸ mem)⟩
  | prio => exact nodup_insertByPriority nodup fresh

/-- The shape of the lists that every service keeps. -/
structure WellFormed (kernel : Kernel Tid Obj) : Prop where
  nodup : ∀ head, (kernel.queue head).Nodup
  disjoint : ∀ t head other, t ∈ kernel.queue head → t ∈ kernel.queue other → head = other
  ready : ∀ t priority, t ∈ kernel.queue (.ready priority) ↔
    (kernel.thread t).stat = .ready ∧ (kernel.thread t).currentPriority = priority
  waiting : ∀ t list, t ∈ kernel.queue (.wait list) → (kernel.thread t).stat = .suspend
  defunct : ∀ t, t ∈ kernel.queue .defunct → (kernel.thread t).stat = .close

def started (threads : List Tid) (priority : Tid → Nat) : Kernel Tid Obj where
  thread t :=
    { stat := if t ∈ threads then .ready else .init
      error := .eok
      currentPriority := priority t
      initPriority := priority t
      timer := false
      eventSet := 0
      eventInfo := 0 }
  queue
    | .ready level => threads.filter fun t => priority t = level
    | _ => []

omit [DecidableEq Obj] in
theorem started_wellFormed {threads : List Tid} (nodup : threads.Nodup) (p : Tid → Nat) :
    (started threads p : Kernel Tid Obj).WellFormed where
  nodup head := by cases head <;> simp [started, nodup.filter]
  disjoint t head other := by cases head <;> cases other <;> simp +contextual [started]
  ready t level := by simp [started]
  waiting t list := by simp [started]
  defunct t := by simp [started]

namespace WellFormed

variable {kernel other : Kernel Tid Obj} {t : Tid}

section

variable (wellFormed : kernel.WellFormed)

include wellFormed

omit [DecidableEq Obj] in
theorem move (t : Tid) (home : Option (ListHead Obj))
    (others : ∀ s, s ≠ t → other.thread s = kernel.thread s)
    (mem : ∀ s head, s ∈ other.queue head ↔ (s = t ∧ home = some head) ∨
      (s ≠ t ∧ s ∈ kernel.queue head)) (nodup : ∀ head, (other.queue head).Nodup)
    (ready : ∀ p, home = some (.ready p) ↔ (other.thread t).stat = .ready ∧
      (other.thread t).currentPriority = p)
    (waiting : ∀ list, home = some (.wait list) → (other.thread t).stat = .suspend)
    (defunct : home = some .defunct → (other.thread t).stat = .close) : other.WellFormed := by
  refine ⟨nodup, ?_, ?_, ?_, ?_⟩
  · intro s head head' inHead inHead'
    rw [mem] at inHead inHead'
    rcases inHead with ⟨rfl, place⟩ | ⟨ne, inHead⟩
    · rcases inHead' with ⟨-, place'⟩ | ⟨ne, -⟩
      · simpa [place] using place'
      · exact absurd rfl ne
    · rcases inHead' with ⟨equal, -⟩ | ⟨-, inHead'⟩
      · exact absurd equal ne
      · exact wellFormed.disjoint s head head' inHead inHead'
  · intro s p
    rw [mem]
    by_cases same : s = t
    · subst same
      simp [ready]
    · simp [same, others s same, wellFormed.ready]
  · intro s list membership
    rcases (mem _ _).mp membership with ⟨rfl, place⟩ | ⟨ne, inList⟩
    · exact waiting list place
    · rw [others s ne]
      exact wellFormed.waiting s list inList
  · intro s membership
    rcases (mem _ _).mp membership with ⟨rfl, place⟩ | ⟨ne, inList⟩
    · exact defunct place
    · rw [others s ne]
      exact wellFormed.defunct s inList

omit [DecidableEq Obj] in
theorem mem_erase (s : Tid) (head : ListHead Obj) :
    s ∈ (kernel.queue head).erase t ↔ s ≠ t ∧ s ∈ kernel.queue head :=
  (wellFormed.nodup head).mem_erase_iff

omit [DecidableEq Tid] [DecidableEq Obj] in
theorem not_waiting (running : (kernel.thread t).stat ≠ .suspend) (list : Obj) :
    t ∉ kernel.queue (.wait list) :=
  fun mem => running (wellFormed.waiting t list mem)

omit [DecidableEq Obj] in
theorem rtThreadSuspend (t : Tid) : (kernel.rtThreadSuspend t).WellFormed := by
  by_cases ready : (kernel.thread t).stat = .ready
  · refine wellFormed.move t none ?_ ?_ ?_ ?_ (by simp) (by simp)
    · intro s ne
      simp [rtThreadSuspend_thread ready, ne]
    · intro s head
      simp [Kernel.rtThreadSuspend, ready, wellFormed.mem_erase]
    · intro head
      simpa [Kernel.rtThreadSuspend, ready] using (wellFormed.nodup head).erase t
    · simp [rtThreadSuspend_thread ready]
  · simpa [Kernel.rtThreadSuspend, ready] using wellFormed

theorem insertReady {thread : Thread} :
    (((kernel.setThread t thread).unlink t).rtScheduleInsertThread t).WellFormed := by
  refine wellFormed.move t (some (.ready thread.currentPriority)) ?_ ?_ ?_ ?_ ?_ ?_
  · intro s ne
    simp [ne]
  · intro s head
    by_cases home : head = .ready thread.currentPriority
    · simp [rtScheduleInsertThread, home, wellFormed.mem_erase, or_comm]
    · simp [rtScheduleInsertThread, home, wellFormed.mem_erase, Ne.symm home]
  · intro head
    by_cases home : head = .ready thread.currentPriority
    · simp only [rtScheduleInsertThread, unlink_thread, setThread_thread, if_true, home,
        setQueue_queue]
      refine List.nodup_append.mpr ⟨(wellFormed.nodup _).erase t, List.nodup_singleton t, ?_⟩
      intro s mem s' membership'
      rw [List.mem_singleton.mp membership']
      exact ((wellFormed.mem_erase s _).mp mem).1
    · simpa [rtScheduleInsertThread, home] using (wellFormed.nodup head).erase t
  · simp
  · simp
  · simp

theorem rtThreadResume (t : Tid) : (kernel.rtThreadResume t).WellFormed := by
  by_cases suspended : (kernel.thread t).stat = .suspend
  · simpa only [Kernel.rtThreadResume, suspended, ne_eq, not_true_eq_false, if_false] using
      wellFormed.insertReady
  · simpa [Kernel.rtThreadResume, suspended] using wellFormed

theorem rtThreadTimeout (t : Tid) : (kernel.rtThreadTimeout t).WellFormed := wellFormed.insertReady

section

omit [DecidableEq Obj]

theorem setThread {thread : Thread} (stat : thread.stat = (kernel.thread t).stat)
    (priority : (kernel.thread t).stat = .ready → thread.currentPriority =
      (kernel.thread t).currentPriority) : (kernel.setThread t thread).WellFormed := by
  refine ⟨wellFormed.nodup, wellFormed.disjoint, ?_, ?_, ?_⟩
  · intro s level
    by_cases same : s = t
    · subst same
      simp only [setThread_queue, setThread_thread, if_true, wellFormed.ready, stat]
      exact and_congr_right fun ready => by rw [priority ready]
    · simp [wellFormed.ready, same]
  · intro s list mem
    have := wellFormed.waiting s list mem
    by_cases same : s = t <;> simp_all
  · intro s mem
    have := wellFormed.defunct s mem
    by_cases same : s = t <;> simp_all

theorem setError (t : Tid) (code : RtErr) :
    (kernel.setError t code).WellFormed := wellFormed.setThread rfl fun _ => rfl

theorem startTimer (t : Tid) (time : Int) : (kernel.startTimer t time).WellFormed := by
  unfold Kernel.startTimer
  split
  · exact wellFormed.setThread rfl fun _ => rfl
  · exact wellFormed

end

theorem changePriority (t : Tid) (p : Nat) : (kernel.changePriority t p).WellFormed := by
  by_cases ready : (kernel.thread t).stat = .ready
  · simp only [Kernel.changePriority, ready]
    exact wellFormed.insertReady
  · simp only [Kernel.changePriority, ready]
    exact wellFormed.setThread rfl fun isReady => absurd isReady ready

theorem link {t : Tid} (suspended : (kernel.thread t).stat = .suspend)
    (unlinked : ∀ head, t ∉ kernel.queue head) {list : Obj} (nodup : waiters.Nodup)
    (mem : ∀ s, s ∈ waiters ↔ s = t ∨ s ∈ kernel.queue (.wait list)) :
    (kernel.setQueue (.wait list) waiters).WellFormed := by
  refine wellFormed.move t (some (.wait list)) (fun _ _ => rfl) ?_ ?_ ?_ ?_ ?_
  · intro s head
    by_cases home : head = .wait list
    · subst home
      simp only [setQueue_queue]
      grind
    · have := unlinked head
      simp only [setQueue_queue]
      grind
  · intro head
    by_cases home : head = .wait list
    · simpa [home] using nodup
    · simpa [home] using wellFormed.nodup head
  · simp [suspended]
  · simp [suspended]
  · simp

omit [DecidableEq Obj] in
theorem rtThreadSuspend_unlinked {t : Tid} (ready : (kernel.thread t).stat = .ready)
    (head : ListHead Obj) : t ∉ (kernel.rtThreadSuspend t).queue head := by
  simp [Kernel.rtThreadSuspend, ready, wellFormed.mem_erase]

theorem rtIpcListSuspend {t : Tid} (ready : (kernel.thread t).stat = .ready) (list : Obj)
    (flag : IpcFlag) : (kernel.rtIpcListSuspend list t flag).WellFormed := by
  have suspended := wellFormed.rtThreadSuspend t
  have unlinked := wellFormed.rtThreadSuspend_unlinked ready
  apply suspended.link (by simp [rtThreadSuspend_thread ready]) unlinked
  · exact nodup_insertWaiter (suspended.nodup (.wait list)) (unlinked (.wait list))
  · intro s
    exact mem_insertWaiter

theorem rtIpcListResume (list : Obj) : (kernel.rtIpcListResume list).WellFormed := by
  unfold Kernel.rtIpcListResume
  split
  · exact wellFormed
  · exact wellFormed.rtThreadResume _

theorem resumeAll (threads : List Tid) : (kernel.resumeAll threads).WellFormed := by
  induction threads generalizing kernel with
  | nil => exact wellFormed
  | cons t rest ih =>
    exact ih ((wellFormed.setError t .error).rtThreadResume t)

end

section

variable (wellFormed : kernel.WellFormed)

include wellFormed

omit [DecidableEq Obj] in
theorem rtThreadSuspend_wait (ready : (kernel.thread t).stat = .ready) (list : Obj) :
    (kernel.rtThreadSuspend t).queue (.wait list) = kernel.queue (.wait list) := by
  have outside := wellFormed.not_waiting (by simp [ready] : (kernel.thread t).stat ≠ .suspend) list
  simp [Kernel.rtThreadSuspend, ready, List.erase_of_not_mem outside]

theorem changePriority_wait (t : Tid) (p : Nat) (list : Obj) :
    (kernel.changePriority t p).queue (.wait list) = kernel.queue (.wait list) := by
  by_cases ready : (kernel.thread t).stat = .ready
  · have outside := wellFormed.not_waiting
      (by simp [ready] : (kernel.thread t).stat ≠ .suspend) list
    simp [Kernel.changePriority, ready, rtScheduleInsertThread, List.erase_of_not_mem outside]
  · simp [Kernel.changePriority, ready]

theorem rtIpcListSuspend_wait (ready : (kernel.thread t).stat = .ready) (list other : Obj)
    (flag : IpcFlag) :
    (kernel.rtIpcListSuspend list t flag).queue (.wait other) = if other = list then
        insertWaiter flag (fun s => (kernel.thread s).currentPriority) t (kernel.queue (.wait list))
      else kernel.queue (.wait other) := by
  have priority : (fun s => ((kernel.rtThreadSuspend t).thread s).currentPriority) =
      fun s => (kernel.thread s).currentPriority := by
    funext s
    by_cases same : s = t <;> simp [rtThreadSuspend_thread ready, same]
  simp [Kernel.rtIpcListSuspend, wellFormed.rtThreadSuspend_wait ready, priority]

end

end WellFormed

variable {kernel : Kernel Tid Obj} {t : Tid}

theorem rtIpcListSuspend_thread (ready : (kernel.thread t).stat = .ready) (list : Obj)
    (flag : IpcFlag) (other : Tid) : (kernel.rtIpcListSuspend list t flag).thread other =
      if other = t then { kernel.thread t with stat := .suspend, timer := false }
      else kernel.thread other := by
  simp [rtIpcListSuspend, rtThreadSuspend_thread ready]

theorem blockOn_thread (ready : (kernel.thread t).stat = .ready) (list : Obj) (flag : IpcFlag)
    (time : Int) (other : Tid) : (kernel.blockOn list t flag time).thread other = if other = t then
        { kernel.thread t with stat := .suspend, error := .eok, timer := decide (0 < time) }
      else kernel.thread other := by
  have ready' : ((kernel.setError t .eok).thread t).stat = .ready := by simpa using ready
  by_cases same : other = t <;> by_cases pos : 0 < time <;>
    simp [blockOn, rtIpcListSuspend_thread ready', same, pos]

theorem WellFormed.blockOn (wellFormed : kernel.WellFormed)
    (ready : (kernel.thread t).stat = .ready) (list : Obj) (flag : IpcFlag) (time : Int) :
    (kernel.blockOn list t flag time).WellFormed := by
  have ready' : ((kernel.setError t .eok).thread t).stat = .ready := by simpa using ready
  exact ((wellFormed.setError t .eok).rtIpcListSuspend ready' list flag).startTimer t time

theorem WellFormed.blockOn_wait (wellFormed : kernel.WellFormed)
    (ready : (kernel.thread t).stat = .ready) (list other : Obj) (flag : IpcFlag) (time : Int) :
    (kernel.blockOn list t flag time).queue (.wait other) = if other = list then
        insertWaiter flag (fun s => (kernel.thread s).currentPriority) t (kernel.queue (.wait list))
      else kernel.queue (.wait other) := by
  have ready' : ((kernel.setError t .eok).thread t).stat = .ready := by simpa using ready
  have priority : (fun s => ((kernel.setError t .eok).thread s).currentPriority) =
      fun s => (kernel.thread s).currentPriority := by
    funext s
    by_cases same : s = t <;> simp [same]
  rw [Kernel.blockOn, startTimer_queue,
    (wellFormed.setError t .eok).rtIpcListSuspend_wait ready', priority]
  rfl

theorem rtThreadResume_wait (suspended : (kernel.thread t).stat = .suspend) (list : Obj) :
    (kernel.rtThreadResume t).queue (.wait list) = (kernel.queue (.wait list)).erase t := by
  simp [rtThreadResume, suspended, rtScheduleInsertThread]

@[simp] theorem rtThreadTimeout_wait (kernel : Kernel Tid Obj) (t : Tid) (list : Obj) :
    (kernel.rtThreadTimeout t).queue (.wait list) = (kernel.queue (.wait list)).erase t := by
  simp [rtThreadTimeout, rtScheduleInsertThread]

theorem resumeAll_wait {threads : List Tid} (nodup : threads.Nodup)
    (suspended : ∀ s ∈ threads, (kernel.thread s).stat = .suspend) (list : Obj) :
    (kernel.resumeAll threads).queue (.wait list) = (kernel.queue (.wait list)).diff threads := by
  induction threads generalizing kernel with
  | nil => simp [resumeAll]
  | cons s rest ih =>
    obtain ⟨fresh, nodupRest⟩ := List.nodup_cons.mp nodup
    have waiting : ((kernel.setError s .error).thread s).stat = .suspend := by
      simpa using suspended s List.mem_cons_self
    rw [resumeAll, ih nodupRest, rtThreadResume_wait waiting, List.diff_cons]
    · rfl
    · intro s' mem
      have ne : s' ≠ s := fun equal => fresh (equal ▸ mem)
      simpa [rtThreadResume_thread waiting, ne] using
        suspended s' (List.mem_cons_of_mem _ mem)

section rtIpcListResume

variable (wellFormed : kernel.WellFormed) (list : Obj)

include wellFormed in
theorem WellFormed.rtIpcListResume_thread (other : Tid) :
    (kernel.rtIpcListResume list).thread other =
      if (kernel.queue (.wait list)).head? = some other then
        { kernel.thread other with stat := .ready, timer := false }
      else kernel.thread other := by
  cases queue : kernel.queue (.wait list) with
  | nil => simp [Kernel.rtIpcListResume, queue]
  | cons first rest =>
    have suspended := wellFormed.waiting first list (queue ▸ List.mem_cons_self)
    rw [Kernel.rtIpcListResume, queue]
    by_cases same : other = first
    · simp [rtThreadResume_thread suspended, same]
    · simp [rtThreadResume_thread suspended, same, Ne.symm same]

include wellFormed in
theorem WellFormed.rtIpcListResume_wait (other : Obj) :
    (kernel.rtIpcListResume list).queue (.wait other) =
      if other = list then (kernel.queue (.wait list)).tail else kernel.queue (.wait other) := by
  cases queue : kernel.queue (.wait list) with
  | nil =>
    by_cases same : other = list
    · simp [Kernel.rtIpcListResume, queue, same]
    · simp [Kernel.rtIpcListResume, queue, same]
  | cons first rest =>
    have waits : first ∈ kernel.queue (.wait list) := queue ▸ List.mem_cons_self
    have suspended := wellFormed.waiting first list waits
    rw [Kernel.rtIpcListResume, queue]
    simp only [rtThreadResume_wait suspended]
    by_cases same : other = list
    · simp [same, queue]
    · have elsewhere : first ∉ kernel.queue (.wait other) := by
        intro waits'
        have := wellFormed.disjoint first _ _ waits' waits
        exact same (by simpa using this)
      simp [same, List.erase_of_not_mem elsewhere]

end rtIpcListResume

theorem WellFormed.rtIpcListResumeAll_wait (wellFormed : kernel.WellFormed) (list : Obj) :
    (kernel.rtIpcListResumeAll list).queue (.wait list) = [] := by
  have nodup := wellFormed.nodup (.wait list)
  rw [rtIpcListResumeAll, resumeAll_wait nodup fun s => wellFormed.waiting s list]
  refine List.eq_nil_iff_forall_not_mem.mpr fun s mem => ?_
  have := nodup.mem_sdiff_iff.mp mem
  exact this.2 this.1

end Kernel

end RtThread
