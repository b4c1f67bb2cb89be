import RtThread.Kernel.Services
import RtThread.Library.TransitionSystem

/-!
# Data queues

`rt_data_queue_push` and `rt_data_queue_pop` on one data queue, called by any number of
threads and by interrupt handlers.  `put_index` and `get_index` count all pushes and pops
in 16 bits; their difference is taken as an `int`, and an item lies in the slot of its
index modulo `size`.  Each turn of a loop runs with interrupts disabled and is one step.
-/

namespace RtThread.DataQueue

universe u

/-- The two lists of a data queue: `suspended_push_list` and `suspended_pop_list`. -/
inductive Side where
  | push
  | pop
  deriving DecidableEq

structure RtDataItem where
  dataPtr : BitVec 32
  dataSize : BitVec 32
  deriving DecidableEq

inductive Call where
  | push (item : RtDataItem) (timeout : BitVec 32)
  | pop (timeout : BitVec 32)

def Call.isPush : Call → Bool
  | .push .. => true
  | .pop _ => false

/-- `struct rt_data_queue`, with the threads that use it.  `pushed` and `popped` are the
items of all successful calls of the run so far, in order. -/
structure State (Tid : Type u) where
  kernel : Kernel Tid Side
  size : BitVec 16
  lwm : BitVec 16
  getIndex : BitVec 16
  putIndex : BitVec 16
  queue : Nat → RtDataItem
  call : Tid → Option Call
  pushed : List RtDataItem
  popped : List RtDataItem

/-- The caller is a thread, or `none` for an interrupt handler. -/
inductive Event (Tid : Type u) where
  | push (caller : Option Tid) (item : RtDataItem) (timeout : BitVec 32)
  | pop (caller : Option Tid) (timeout : BitVec 32)
  | resumed (t : Tid)
  | timeout (t : Tid)

variable {Tid : Type u} [DecidableEq Tid]

namespace State

def waiters (s : State Tid) (side : Side) : List Tid := s.kernel.queue (.wait side)

def Running (s : State Tid) : Option Tid → Prop
  | none => True
  | some t => (s.kernel.thread t).stat = .ready ∧ (s.call t).isNone

instance (s : State Tid) : (caller : Option Tid) → Decidable (s.Running caller)
  | none => .isTrue trivial
  | some _ => instDecidableAnd

/-- `put_index - get_index`, after promotion to `int`. -/
def difference (s : State Tid) : Int := s.putIndex.toNat - s.getIndex.toNat

def Full (s : State Tid) : Prop := s.difference = s.size.toNat

instance (s : State Tid) : Decidable s.Full := inferInstanceAs (Decidable (_ = _))

def slot (s : State Tid) (i : BitVec 16) : Nat := i.toNat % s.size.toNat

def leave (s : State Tid) (caller : Option Tid) : State Tid :=
  match caller with
  | none => s
  | some t => { s with call := Function.update s.call t none }

/-- Reset `error`, suspend at the end of the list and start the timer. -/
def suspendIn (s : State Tid) (side : Side) (t : Tid) (call : Call) (timeout : BitVec 32) :
    State Tid :=
  { s with
    kernel := s.kernel.blockOn side t .fifo timeout.toInt
    call := Function.update s.call t (some call) }

def wake (s : State Tid) (side : Side) : State Tid :=
  if s.waiters side ≠ [] then { s with kernel := s.kernel.rtIpcListResume side }
  else s

end State

def putItem (s : State Tid) (item : RtDataItem) : State Tid :=
  State.wake
    { s with
      queue := Function.update s.queue (s.slot s.putIndex) item
      putIndex := s.putIndex + 1
      pushed := s.pushed ++ [item] } .pop

/-- Behind the loop of `rt_data_queue_pop`: above the low-water mark nobody is woken. -/
def getItem (s : State Tid) : State Tid :=
  let item := s.queue (s.slot s.getIndex)
  let s :=
    { s with
      getIndex := s.getIndex + 1
      popped := s.popped ++ [item] }
  if s.difference ≤ s.lwm.toNat then s.wake .push else s

/-- `rt_data_queue_push`, from its loop test to its return or to `rt_schedule`, with what
it returns.  `RT_DEBUG_NOT_IN_INTERRUPT` stops a handler that would block. -/
def rtDataQueuePush (s : State Tid) (caller : Option Tid) (item : RtDataItem)
    (timeout : BitVec 32) : Option (State Tid × Option RtErr) :=
  if s.Full then
    if timeout = 0 then some (s.leave caller, some .etimeout)
    else
      match caller with
      | none => none
      | some t => some (s.suspendIn .push t (.push item timeout) timeout, none)
  else some ((putItem s item).leave caller, some .eok)

def rtDataQueuePop (s : State Tid) (caller : Option Tid) (timeout : BitVec 32) :
    Option (State Tid × Option RtErr) :=
  if s.getIndex = s.putIndex then
    if timeout = 0 then some (s.leave caller, some .etimeout)
    else
      match caller with
      | none => none
      | some t => some (s.suspendIn .pop t (.pop timeout) timeout, none)
  else some ((getItem s).leave caller, some .eok)

/-- A suspended call goes on behind `rt_schedule`; it tests the queue again. -/
def callResumed (s : State Tid) (t : Tid) (call : Call) :
    Option (State Tid × Option RtErr) :=
  let result := (s.kernel.thread t).error
  if result ≠ .eok then some (s.leave (some t), some result)
  else
    match call with
    | .push item timeout => rtDataQueuePush s (some t) item timeout
    | .pop timeout => rtDataQueuePop s (some t) timeout

def step (s : State Tid) : Event Tid → Option (State Tid)
  | .push caller item timeout =>
    if s.Running caller then (rtDataQueuePush s caller item timeout).map Prod.fst
    else none
  | .pop caller timeout =>
    if s.Running caller then (rtDataQueuePop s caller timeout).map Prod.fst else none
  | .resumed t =>
    match s.call t with
    | some call =>
      if (s.kernel.thread t).stat = .ready then (callResumed s t call).map Prod.fst
      else none
    | none => none
  | .timeout t =>
    if (s.kernel.thread t).stat = .suspend ∧ (s.kernel.thread t).timer then
      some { s with kernel := s.kernel.rtThreadTimeout t }
    else none

/-- After `rt_data_queue_init` has returned `RT_EOK` for a positive size. -/
structure Initial (size lwm : BitVec 16) (s : State Tid) : Prop where
  wellFormed : s.kernel.WellFormed
  noWaiters : ∀ side, s.waiters side = []
  noCalls : ∀ t, s.call t = none
  size_eq : s.size = size
  size_pos : 0 < size.toNat
  lwm_eq : s.lwm = lwm
  getIndex_eq : s.getIndex = 0
  putIndex_eq : s.putIndex = 0
  pushed_eq : s.pushed = []
  popped_eq : s.popped = []

def system (size lwm : BitVec 16) : TransitionSystem (State Tid) (Event Tid) :=
  TransitionSystem.ofFunction (Initial size lwm) step

namespace State

def count (s : State Tid) : Nat := s.pushed.length - s.popped.length

/-- The slots from `get_index` on, one for each item that was pushed and not popped. -/
def slots (s : State Tid) : List Nat :=
  (List.range s.count).map fun i => s.slot (s.getIndex + BitVec.ofNat 16 i)

def stored (s : State Tid) : List RtDataItem := s.slots.map s.queue

end State

/-- The queue holds, in order, what was pushed and not popped, at most `size` items and
each in a slot of its own, and a push is refused exactly when it holds `size` items: it
blocks, or returns `-RT_ETIMEOUT`. -/
structure IsFifo (s : State Tid) : Prop where
  bounded : s.stored.length ≤ s.size.toNat
  inOrder : s.pushed = s.popped ++ s.stored
  apart : s.slots.Nodup
  refuses : ∀ caller item timeout after result,
    rtDataQueuePush s caller item timeout = some (after, result) →
      (result ≠ some .eok ↔ s.stored.length = s.size.toNat)

def Event.IsPush (s : State Tid) : Event Tid → Prop
  | .push .. => True
  | .resumed t =>
    (s.call t).any Call.isPush = true ∧ (s.kernel.thread t).error = .eok
  | _ => False

/-- The room that is left before the indices wrap: an item that fills the queue does not
let `put_index` wrap, and when `put_index` has wrapped before `get_index`, the slot of
the former is none of the slots from the latter to the end of the index range. -/
def Fits (s : State Tid) : Prop :=
  ((s.putIndex - s.getIndex).toNat + 1 = s.size.toNat →
      s.getIndex.toNat + s.size.toNat < 0x10000) ∧
    (s.putIndex.toNat < s.getIndex.toNat →
      0x10000 - s.getIndex.toNat ≤ (0xffff - s.putIndex.toNat) % s.size.toNat)

def PushFits (s : State Tid) (e : Event Tid) : Prop :=
  e.IsPush s → ¬ s.Full → Fits s

end RtThread.DataQueue
