import RtThread.Kernel.Basic
import RtThread.Library.RingTable
import RtThread.Library.TransitionSystem
import RtThread.Library.Words
import RtThread.Scheduler.FirstBit

/-!
# The ready queue of the scheduler

Threads with their list nodes, the priority table, and the bitmap of priorities that are
ready: `rt_schedule` with its helpers, and the thread functions that move threads in and
out of the table.  Lists are the links of their nodes here.  A failed assertion, and a
pointer that is not the node of a thread, give no result.

An index from `RT_THREAD_PRIORITY_MAX` on names a place outside the table; the model
treats it as a list head that belongs to no priority.
-/

namespace RtThread.Scheduler

universe u v

/-- `RT_THREAD_PRIORITY_MAX`.  Up to 32 the bitmap is one word, above it has two levels. -/
structure Config where
  priorityMax : Nat
  priorityMax_pos : 0 < priorityMax
  priorityMax_le : priorityMax ≤ 256

def threadInit : BitVec 8 := 0x00

def threadReady : BitVec 8 := 0x01

def threadSuspend : BitVec 8 := 0x02

def threadClose : BitVec 8 := 0x04

def threadStatMask : BitVec 8 := 0x0f

def objectClassThread : BitVec 8 := 1

def objectClassTimer : BitVec 8 := 10

def objectClassStatic : BitVec 8 := 0x80

def rtObjectGetType (type : BitVec 8) : BitVec 8 := type &&& ~~~objectClassStatic

def rtObjectIsSystemobject (type : BitVec 8) : Prop := type &&& objectClassStatic ≠ 0

instance (type : BitVec 8) : Decidable (rtObjectIsSystemobject type) := instDecidableNot

/-- The fields of `struct rt_thread` that the functions below read or write; of
`thread_timer`, its object type and whether it is activated, and of `cleanup`, whether it
is set. -/
structure Tcb where
  type : BitVec 8
  error : RtErr
  stat : BitVec 8
  currentPriority : BitVec 8
  initPriority : BitVec 8
  number : BitVec 8
  highMask : BitVec 8
  numberMask : BitVec 32
  timerType : BitVec 8
  timerActivated : Bool
  cleanup : Bool

def Tcb.maskedStat (thread : Tcb) : BitVec 8 := thread.stat &&& threadStatMask

/-- The threads, the links of all list nodes, and the variables of the scheduler. -/
structure State (Tid : Type u) (Obj : Type v) where
  thread : Tid → Tcb
  links : Links (RingNode (ListHead Obj) Tid)
  readyPriorityGroup : BitVec 32
  readyTable : Nat → BitVec 8
  currentThread : Option Tid
  currentPriority : BitVec 8
  schedulerLockNest : BitVec 16

variable {Tid : Type u} {Obj : Type v} [DecidableEq Tid] [DecidableEq Obj]

namespace State

def setThread (s : State Tid Obj) (t : Tid) (thread : Tcb) : State Tid Obj :=
  { s with thread := Function.update s.thread t thread }

def setLinks (s : State Tid Obj) (links : Links (RingNode (ListHead Obj) Tid)) :
    State Tid Obj :=
  { s with links := links }

def IsEmpty (s : State Tid Obj) (head : ListHead Obj) : Prop :=
  s.links.next (.head head) = .head head

instance (s : State Tid Obj) (head : ListHead Obj) : Decidable (s.IsEmpty head) :=
  inferInstanceAs (Decidable (_ = _))

def unlink (s : State Tid Obj) (t : Tid) : State Tid Obj :=
  s.setLinks (s.links.remove (.entry t))

def insertBefore (s : State Tid Obj) (head : ListHead Obj) (t : Tid) : State Tid Obj :=
  s.setLinks (s.links.insertBefore (.head head) (.entry t))

def insertAfter (s : State Tid Obj) (head : ListHead Obj) (t : Tid) : State Tid Obj :=
  s.setLinks (s.links.insertAfter (.head head) (.entry t))

section Frames

variable (s : State Tid Obj) (t : Tid) (head : ListHead Obj)

omit [DecidableEq Obj] in
@[simp] theorem setThread_thread (other : Tid) (thread : Tcb) :
    (s.setThread t thread).thread other = if other = t then thread else s.thread other := by
  simp [setThread, Function.update_apply]

omit [DecidableEq Obj] in
@[simp] theorem setThread_links (thread : Tcb) : (s.setThread t thread).links = s.links := rfl

@[simp] theorem unlink_thread : (s.unlink t).thread = s.thread := rfl

@[simp] theorem unlink_readyTable : (s.unlink t).readyTable = s.readyTable := rfl

@[simp] theorem unlink_readyPriorityGroup :
    (s.unlink t).readyPriorityGroup = s.readyPriorityGroup := rfl

@[simp] theorem insertBefore_thread : (s.insertBefore head t).thread = s.thread := rfl

@[simp] theorem insertAfter_thread : (s.insertAfter head t).thread = s.thread := rfl

end Frames

end State

/-- The list of `rt_thread_priority_table` for a thread's priority. -/
def Tcb.home (thread : Tcb) : ListHead Obj := .ready thread.currentPriority.toNat

variable (cfg : Config)

def priorityAttribute (thread : Tcb) : Tcb :=
  if 32 < cfg.priorityMax then
    let number := thread.currentPriority >>> 3
    { thread with
      number := number
      numberMask := 1#32 <<< number.toNat
      highMask := 1#8 <<< (thread.currentPriority &&& 0x07).toNat }
  else { thread with numberMask := 1#32 <<< thread.currentPriority.toNat }

def rtScheduleInsertThread (s : State Tid Obj) (t : Tid) : State Tid Obj :=
  let thread := s.thread t
  let s := s.setThread t
    { thread with stat := threadReady ||| (thread.stat &&& ~~~threadStatMask) }
  let s := s.insertBefore thread.home t
  let s :=
    if 32 < cfg.priorityMax then
      { s with
        readyTable := Function.update s.readyTable thread.number.toNat
          (s.readyTable thread.number.toNat ||| thread.highMask) }
    else s
  { s with readyPriorityGroup := s.readyPriorityGroup ||| thread.numberMask }

def rtScheduleRemoveThread (s : State Tid Obj) (t : Tid) : State Tid Obj :=
  let thread := s.thread t
  let s := s.unlink t
  if s.IsEmpty thread.home then
    if 32 < cfg.priorityMax then
      let s :=
        { s with
          readyTable := Function.update s.readyTable thread.number.toNat
            (s.readyTable thread.number.toNat &&& ~~~thread.highMask) }
      if s.readyTable thread.number.toNat = 0 then
        { s with readyPriorityGroup := s.readyPriorityGroup &&& ~~~thread.numberMask }
      else s
    else { s with readyPriorityGroup := s.readyPriorityGroup &&& ~~~thread.numberMask }
  else s

def highestReadyPriority (s : State Tid Obj) : Nat :=
  if 32 < cfg.priorityMax then
    let number := Word32.sub (rtFfs s.readyPriorityGroup) 1
    Word32.sub
      (Word32.add (number * 2 ^ 3) (rtFfs ((s.readyTable number).setWidth 32))) 1
  else Word32.sub (rtFfs s.readyPriorityGroup) 1

def toThread (s : State Tid Obj) : Option Tid :=
  match s.links.next (.head (.ready (highestReadyPriority cfg s))) with
  | .entry t => some t
  | .head _ => none

def rtSchedule (s : State Tid Obj) : Option (State Tid Obj) :=
  if s.schedulerLockNest = 0 then
    (toThread cfg s).map fun target =>
      if s.currentThread ≠ some target then
        { s with
          currentPriority := BitVec.ofNat 8 (highestReadyPriority cfg s)
          currentThread := some target }
      else s
  else some s

def rtSystemSchedulerStart (s : State Tid Obj) : Option (State Tid Obj) :=
  (toThread cfg s).map fun target => { s with currentThread := some target }

def rtExitCritical (s : State Tid Obj) : Option (State Tid Obj) :=
  let nest := s.schedulerLockNest - 1
  if nest.toInt ≤ 0 then
    let s := { s with schedulerLockNest := 0 }
    if s.currentThread.isSome then rtSchedule cfg s else some s
  else some { s with schedulerLockNest := nest }

/-- `rt_timer_stop(&(thread->thread_timer))`, as far as the timer's flag goes. -/
def rtTimerStop (s : State Tid Obj) (t : Tid) : Option (State Tid Obj) :=
  let thread := s.thread t
  if rtObjectGetType thread.timerType = objectClassTimer then
    some (s.setThread t { thread with timerActivated := false })
  else none

/-- `rt_timer_start(&(thread->thread_timer))`, as far as the timer's flag goes. -/
def rtTimerStart (s : State Tid Obj) (t : Tid) : Option (State Tid Obj) :=
  let thread := s.thread t
  if rtObjectGetType thread.timerType = objectClassTimer then
    some (s.setThread t { thread with timerActivated := true })
  else none

def rtTimerDetach (s : State Tid Obj) (t : Tid) : Option (State Tid Obj) :=
  let thread := s.thread t
  if rtObjectGetType thread.timerType = objectClassTimer ∧
      rtObjectIsSystemobject thread.timerType then
    some (s.setThread t { thread with timerType := 0 })
  else none

/-- `RT_ASSERT(rt_object_get_type((rt_object_t)thread) == RT_Object_Class_Thread)`. -/
def IsThread (s : State Tid Obj) (t : Tid) : Prop :=
  rtObjectGetType (s.thread t).type = objectClassThread

instance (s : State Tid Obj) (t : Tid) : Decidable (IsThread s t) :=
  inferInstanceAs (Decidable (_ = _))

def rtThreadSuspend (s : State Tid Obj) (t : Tid) : Option (State Tid Obj × RtErr) :=
  if IsThread s t then
    let thread := s.thread t
    if thread.maskedStat ≠ threadReady then some (s, .error)
    else
      let s := s.setThread t
        { thread with stat := threadSuspend ||| (thread.stat &&& ~~~threadStatMask) }
      let s := rtScheduleRemoveThread cfg s t
      (rtTimerStop s t).map fun s => (s, .eok)
  else none

def rtThreadResume (s : State Tid Obj) (t : Tid) : Option (State Tid Obj × RtErr) :=
  if IsThread s t then
    if (s.thread t).maskedStat ≠ threadSuspend then some (s, .error)
    else
      (rtTimerStop (s.unlink t) t).map fun s =>
        (rtScheduleInsertThread cfg s t, .eok)
  else none

def rtThreadStartup (s : State Tid Obj) (t : Tid) : Option (State Tid Obj) :=
  let thread := s.thread t
  if thread.maskedStat = threadInit ∧ IsThread s t then
    let thread := priorityAttribute cfg { thread with currentPriority := thread.initPriority }
    let s := s.setThread t { thread with stat := threadSuspend }
    (rtThreadResume cfg s t).bind fun (s, _) =>
      if s.currentThread.isSome then rtSchedule cfg s else some s
  else none

def rtThreadYield (s : State Tid Obj) : Option (State Tid Obj) :=
  s.currentThread.bind fun t =>
    let thread := s.thread t
    if thread.maskedStat = threadReady ∧
        s.links.next (.entry t) ≠ s.links.prev (.entry t) then
      rtSchedule cfg ((s.unlink t).insertBefore thread.home t)
    else some s

def rtThreadTimeout (s : State Tid Obj) (t : Tid) : Option (State Tid Obj) :=
  let thread := s.thread t
  if thread.maskedStat = threadSuspend ∧ IsThread s t then
    let s := s.setThread t { thread with error := .etimeout }
    rtSchedule cfg (rtScheduleInsertThread cfg (s.unlink t) t)
  else none

/-- `rt_thread_control` with `RT_THREAD_CTRL_CHANGE_PRIORITY`; it returns `RT_EOK`. -/
def changePriority (s : State Tid Obj) (t : Tid) (priority : BitVec 8) :
    Option (State Tid Obj) :=
  if IsThread s t then
    let thread := s.thread t
    if thread.maskedStat = threadReady then
      let s := rtScheduleRemoveThread cfg s t
      let s := s.setThread t
        (priorityAttribute cfg { s.thread t with currentPriority := priority })
      some (rtScheduleInsertThread cfg s t)
    else
      some (s.setThread t
        (priorityAttribute cfg { thread with currentPriority := priority }))
  else none

/-- What `rt_thread_detach` and `rt_thread_exit` do with a closed thread: detach the
object of a static thread, or leave the thread to the idle thread. -/
def dispose (s : State Tid Obj) (t : Tid) : State Tid Obj :=
  let thread := s.thread t
  if rtObjectIsSystemobject thread.type ∧ thread.cleanup = false then
    s.setThread t { thread with type := 0 }
  else s.insertAfter .defunct t

/-- What `rt_thread_detach` and `rt_thread_delete` start with: out of the schedule, unless
the thread was never started, without its timer, and closed. -/
def close (s : State Tid Obj) (t : Tid) : Option (State Tid Obj) :=
  let s :=
    if (s.thread t).maskedStat ≠ threadInit then rtScheduleRemoveThread cfg s t
    else s
  (rtTimerDetach s t).map fun s =>
    s.setThread t { s.thread t with stat := threadClose }

def rtThreadDetach (s : State Tid Obj) (t : Tid) : Option (State Tid Obj) :=
  if IsThread s t ∧ rtObjectIsSystemobject (s.thread t).type then
    (close cfg s t).map fun s => dispose s t
  else none

def rtThreadDelete (s : State Tid Obj) (t : Tid) : Option (State Tid Obj) :=
  if IsThread s t ∧ ¬rtObjectIsSystemobject (s.thread t).type then
    (close cfg s t).map fun s => s.insertAfter .defunct t
  else none

def rtThreadExit (s : State Tid Obj) : Option (State Tid Obj) :=
  s.currentThread.bind fun t =>
    let s := rtScheduleRemoveThread cfg s t
    let s := s.setThread t { s.thread t with stat := threadClose }
    (rtTimerDetach s t).bind fun s => rtSchedule cfg (dispose s t)

/-- `rt_ipc_list_suspend` with `RT_IPC_FLAG_FIFO`. -/
def rtIpcListSuspend (s : State Tid Obj) (list : Obj) (t : Tid) : Option (State Tid Obj) :=
  (rtThreadSuspend cfg s t).map fun (s, _) => s.insertBefore (.wait list) t

/-- The calls.  The last six are those of the kernel around the thread functions: a
thread that blocks on an object, a timer that is started, and the scheduler's own. -/
inductive Event (Tid : Type u) (Obj : Type v) where
  | startup (t : Tid)
  | suspend (t : Tid)
  | resume (t : Tid)
  | yield
  | timeout (t : Tid)
  | detach (t : Tid)
  | delete (t : Tid)
  | exit
  | changePriority (t : Tid) (priority : BitVec 8)
  | ipcSuspend (list : Obj) (t : Tid)
  | timerStart (t : Tid)
  | schedule
  | schedulerStart
  | enterCritical
  | exitCritical

/-- One call that returns.  Only a thread that is ready blocks on an object. -/
def step (s : State Tid Obj) : Event Tid Obj → Option (State Tid Obj)
  | .startup t => rtThreadStartup cfg s t
  | .suspend t => (rtThreadSuspend cfg s t).map Prod.fst
  | .resume t => (rtThreadResume cfg s t).map Prod.fst
  | .yield => rtThreadYield cfg s
  | .timeout t => rtThreadTimeout cfg s t
  | .detach t => rtThreadDetach cfg s t
  | .delete t => rtThreadDelete cfg s t
  | .exit => rtThreadExit cfg s
  | .changePriority t priority => changePriority cfg s t priority
  | .ipcSuspend list t =>
    if (s.thread t).maskedStat = threadReady then rtIpcListSuspend cfg s list t
    else none
  | .timerStart t => rtTimerStart s t
  | .schedule => rtSchedule cfg s
  | .schedulerStart => rtSystemSchedulerStart cfg s
  | .enterCritical => some { s with schedulerLockNest := s.schedulerLockNest + 1 }
  | .exitCritical => rtExitCritical cfg s

/-- A thread after `rt_thread_init` or `rt_thread_create`. -/
structure Tcb.Inited (thread : Tcb) : Prop where
  isThread : rtObjectGetType thread.type = objectClassThread
  error : thread.error = .eok
  stat : thread.stat = threadInit
  priority : thread.initPriority.toNat < cfg.priorityMax ∧
    thread.currentPriority = thread.initPriority
  number : thread.number = 0
  highMask : thread.highMask = 0
  numberMask : thread.numberMask = 0
  timer : thread.timerType = objectClassTimer ||| objectClassStatic ∧
    thread.timerActivated = false

/-- The state after `rt_system_scheduler_init`, with threads that have been initialised. -/
structure Initial (s : State Tid Obj) : Prop where
  thread : ∀ t, (s.thread t).Inited cfg
  links : s.links = Links.selfLinked
  readyPriorityGroup : s.readyPriorityGroup = 0
  readyTable : ∀ number, s.readyTable number = 0
  currentThread : s.currentThread = none
  schedulerLockNest : s.schedulerLockNest = 0

def system : TransitionSystem (State Tid Obj) (Event Tid Obj) :=
  TransitionSystem.ofFunction (Initial cfg) (step cfg)

end RtThread.Scheduler
