import Mathlib.Data.List.Nodup

/-!
# Threads and their queues

The state the kernel services share: the part of every thread that scheduling and inter-process
communication read, and the lists a thread can be linked in through its `tlist` node.
-/

namespace RtThread

universe u v

/-- The error numbers a thread's `error` field takes. -/
inductive RtErr where
  | eok
  | error
  | etimeout
  | efull
  | eintr
  deriving DecidableEq

/-- `stat` under `RT_THREAD_STAT_MASK`. -/
inductive ThreadStat where
  | init
  | ready
  | suspend
  | close
  deriving DecidableEq

inductive IpcFlag where
  | fifo
  | prio
  deriving DecidableEq

/-- The heads a `tlist` node can be linked behind: the entries of
`rt_thread_priority_table`, the suspend lists of the IPC objects, and
`rt_thread_defunct`. -/
inductive ListHead (Obj : Type v) where
  | ready (priority : Nat)
  | wait (list : Obj)
  | defunct
  deriving DecidableEq

/-- The fields of `struct rt_thread` that the kernel services read and write. -/
structure Thread where
  stat : ThreadStat
  error : RtErr
  currentPriority : Nat
  initPriority : Nat
  /-- `thread_timer` is activated. -/
  timer : Bool
  eventSet : BitVec 32
  eventInfo : BitVec 8

structure Kernel (Tid : Type u) (Obj : Type v) where
  thread : Tid → Thread
  queue : ListHead Obj → List Tid

namespace Kernel

variable {Tid : Type u} {Obj : Type v} [DecidableEq Tid]

def setThread (k : Kernel Tid Obj) (t : Tid) (thread : Thread) : Kernel Tid Obj :=
  { k with thread := Function.update k.thread t thread }

@[simp] theorem setThread_queue (k : Kernel Tid Obj) (t : Tid) (thread : Thread) :
    (k.setThread t thread).queue = k.queue := rfl

@[simp] theorem setThread_thread (k : Kernel Tid Obj) (t other : Tid) (thread : Thread) :
    (k.setThread t thread).thread other = if other = t then thread else k.thread other := by
  simp [setThread, Function.update_apply]

/-- `rt_list_remove(&thread->tlist)`: out of whichever list the thread is in. -/
def unlink (k : Kernel Tid Obj) (t : Tid) : Kernel Tid Obj :=
  { k with queue := fun head => (k.queue head).erase t }

@[simp] theorem unlink_thread (k : Kernel Tid Obj) (t : Tid) : (k.unlink t).thread = k.thread := rfl

@[simp] theorem unlink_queue (k : Kernel Tid Obj) (t : Tid) (head : ListHead Obj) :
    (k.unlink t).queue head = (k.queue head).erase t := rfl

variable [DecidableEq Obj]

def setQueue (k : Kernel Tid Obj) (head : ListHead Obj) (threads : List Tid) :
    Kernel Tid Obj :=
  { k with queue := Function.update k.queue head threads }

omit [DecidableEq Tid] in
@[simp] theorem setQueue_thread (k : Kernel Tid Obj) (head : ListHead Obj)
    (threads : List Tid) : (k.setQueue head threads).thread = k.thread := rfl

omit [DecidableEq Tid] in
@[simp] theorem setQueue_queue (k : Kernel Tid Obj) (head other : ListHead Obj)
    (threads : List Tid) : (k.setQueue head threads).queue other =
      if other = head then threads else k.queue other := by
  simp [setQueue, Function.update_apply]

end Kernel

end RtThread
