import RtThread.MemPool.Basic
import RtThread.Scheduler.FirstBit

/-!
# The blocking priority queue

`rt_prio_queue_push` and `rt_prio_queue_pop` on a queue of `rt_prio_queue_create`.  The items
are blocks of a memory pool, linked into one list for each priority, and a bitmap has a bit for
each list that is not empty.  A popper that finds no item suspends itself; a pusher that finds
no block waits in the pool.
-/

open Function (update)

namespace RtThread.PrioQueue

open MemPool

universe u

def rtPrioQueuePrioMax : Nat := 32

def sizeofItem : Nat := 4

abbrev Bytes := List (BitVec 8)

/-- `struct rt_prio_queue`, with the `next` pointers of the items and the data behind them. -/
structure RtPrioQueue where
  bitmap : BitVec 32
  head : Nat → Option Nat
  tail : Nat → Option Nat
  itemSz : Nat
  pool : RtMempool
  next : Nat → Option Nat
  data : Nat → Nat → BitVec 8

/-- The lists a thread can wait in: that of the pool and `suspended_pop_list`. -/
inductive WaitList where
  | pool
  | pop
  deriving DecidableEq

structure Item where
  prio : Nat
  serial : Nat
  data : Bytes
  item : Nat

/-- What a call of `_do_pop` took, and from which items. -/
structure Pop where
  item : Option Item
  queued : List Item

/-- Where the call of a thread is; a popper's call remembers which item it took. -/
inductive Call where
  /-- In `rt_mp_alloc`, behind `rt_schedule`. -/
  | allocSuspended (prio : Nat) (data : Bytes) (time beforeSleep : BitVec 32)
  /-- In `rt_mp_alloc`, in front of the test of its loop. -/
  | allocRetrying (prio : Nat) (data : Bytes) (time : BitVec 32)
  /-- In front of `rt_memcpy` and of the store to `next`. -/
  | filling (prio : Nat) (data : Bytes) (item : Nat)
  /-- In front of `_do_push`. -/
  | linking (prio : Nat) (data : Bytes) (item : Nat)
  /-- In `rt_prio_queue_pop`, behind `rt_schedule`. -/
  | popSuspended (timeout : BitVec 32)
  /-- In front of the next `_do_pop`. -/
  | popRetrying (timeout : BitVec 32)
  /-- In front of the `rt_memcpy` of `rt_prio_queue_pop`. -/
  | copying (item : Nat) (popped : Option Item)
  /-- In front of `rt_mp_free`. -/
  | freeing (item : Nat)

inductive Result where
  | code (code : RtErr)
  | enomem

/-- The queue, the threads, and what has been pushed, popped and returned so far. -/
structure State (Tid : Type u) where
  kernel : Kernel Tid WaitList
  que : RtPrioQueue
  tick : BitVec 32
  call : Tid → Option Call
  result : Tid → Option Result
  pushes : Nat
  queued : List Item
  popped : List Pop
  returned : List (Option Item × Bytes)

inductive Event (Tid : Type u) where
  | push (t : Tid) (prio : Nat) (data : Bytes) (timeout : BitVec 32)
  | pop (t : Tid) (timeout : BitVec 32)
  | proceed (t : Tid)
  | timeout (t : Tid)
  | tick

namespace RtPrioQueue

/-- `_do_push`, up to its assertion. -/
def doPush (que : RtPrioQueue) (prio item : Nat) : Option RtPrioQueue :=
  match que.head prio with
  | none =>
    some
      { que with
        head := update que.head prio (some item)
        bitmap := que.bitmap ||| BitVec.ofNat 32 1 <<< prio
        tail := update que.tail prio (some item) }
  | some _ =>
    (que.tail prio).map fun last =>
      { que with
        next := update que.next last (some item)
        tail := update que.tail prio (some item) }

/-- `_do_pop`, up to its assertion: the queue and the item, if there is one. -/
def doPop (que : RtPrioQueue) : Option (RtPrioQueue × Option Nat) :=
  if rtFfs que.bitmap = 0 then some (que, none)
  else
    let ffs := rtFfs que.bitmap - 1
    (que.head ffs).map fun item =>
      ({ que with
          head := update que.head ffs (que.next item)
          bitmap :=
            if que.next item = none then que.bitmap &&& ~~~(BitVec.ofNat 32 1 <<< ffs)
            else que.bitmap }, some item)

def fill (que : RtPrioQueue) (item : Nat) (data : Bytes) : RtPrioQueue :=
  { que with
    data := update que.data item fun k => data.getD k (que.data item k)
    next := update que.next item none }

def bytes (que : RtPrioQueue) (item : Nat) : Bytes := (List.range que.itemSz).map (que.data item)

/-- Where the `error` of `struct rt_thread` lies for a list node at `suspend_thread` of the pool:
so far behind the end of the queue, where its first block begins. -/
def errorOffset : Nat := 16

def stride (que : RtPrioQueue) : Nat := Word32.add que.pool.blockSize pointerSize

def blockAt (que : RtPrioQueue) (offset : Nat) : Nat :=
  que.pool.startAddress + offset / que.stride * que.stride

def clearWord (que : RtPrioQueue) (offset : Nat) : RtPrioQueue :=
  let block := que.blockAt offset
  let item := block + pointerSize
  let within := offset % que.stride
  if que.pool.size < offset + 4 then que
  else if within = 0 then
    { que with pool :=
        { que.pool with header := update que.pool.header block (.next none) } }
  else if within = pointerSize then { que with next := update que.next item none }
  else
    { que with data := update que.data item fun k =>
        if within - pointerSize - sizeofItem ≤ k ∧ k < within - sizeofItem then 0
        else que.data item k }

/-- The low bits of the byte at `offset` behind the queue are those of a suspended thread; no
pointer ends in them. -/
def LooksSuspended (que : RtPrioQueue) (offset : Nat) : Prop :=
  pointerSize + sizeofItem ≤ offset % que.stride ∧
    que.data (que.blockAt offset + pointerSize)
      (offset % que.stride - pointerSize - sizeofItem) &&& 0x0f = 0x02

instance (que : RtPrioQueue) (offset : Nat) : Decidable (que.LooksSuspended offset) :=
  instDecidableAnd

/-- `rt_mp_free` takes the head of an empty list for the `tlist` of a thread: it stores `RT_EOK`
to its `error`, and `rt_thread_resume` looks at its `type` and `stat`.  With `RT_DEBUG` the
assertion on the type fails. -/
def resumeNobody (rtDebug : Bool) (que : RtPrioQueue) : Option RtPrioQueue :=
  if rtDebug then none
  else
    let que := que.clearWord errorOffset
    if que.LooksSuspended (errorOffset + 4) then none else some que

end RtPrioQueue

variable {Tid : Type u} [DecidableEq Tid]

namespace State

def waiters (s : State Tid) (list : WaitList) : List Tid := s.kernel.queue (.wait list)

def setCall (s : State Tid) (t : Tid) (call : Option Call) : State Tid :=
  { s with call := update s.call t call }

def leave (s : State Tid) (t : Tid) (result : Result) : State Tid :=
  { s.setCall t none with result := update s.result t (some result) }

def setPool (s : State Tid) (pool : RtMempool) : State Tid :=
  { s with que := { s.que with pool } }

end State

/-- How `rt_mp_alloc` suspends its caller: the newest waiter comes first. -/
def pendPool (kernel : Kernel Tid WaitList) (t : Tid) (time : BitVec 32) : Kernel Tid WaitList :=
  let kernel := (kernel.setError t .eok).rtThreadSuspend t
  (kernel.setQueue (.wait .pool) (t :: kernel.queue (.wait .pool))).startTimer t time.toInt

/-- The loop of `rt_mp_alloc`, entered with interrupts disabled, up to its end or to
`rt_schedule`. -/
def allocLoop (s : State Tid) (t : Tid) (prio : Nat) (data : Bytes) (time : BitVec 32) :
    Option (State Tid) :=
  let pool := s.que.pool
  if pool.blockFreeCount = 0 then
    if time = 0 then some (s.leave t .enomem)
    else
      let beforeSleep := if 0 < time.toInt then s.tick else 0
      some
        ({ s with kernel := pendPool s.kernel t time }.setPool
          { pool with suspendThreadCount := pool.suspendThreadCount + 1 }
          |>.setCall t (some (.allocSuspended prio data time beforeSleep)))
  else
    (takeBlock pool).map fun taken =>
      (s.setPool taken.1).setCall t (some (.filling prio data taken.2))

/-- Behind the `rt_schedule` of `rt_mp_alloc`. -/
def allocResumed (s : State Tid) (t : Tid) (prio : Nat) (data : Bytes)
    (time beforeSleep : BitVec 32) : State Tid :=
  if (s.kernel.thread t).error ≠ .eok then s.leave t .enomem
  else
    s.setCall t (some (.allocRetrying prio data (remaining time beforeSleep s.tick)))

/-- The end of `rt_prio_queue_push`: it wakes the first popper that is suspended. -/
def link (s : State Tid) (t : Tid) (prio : Nat) (data : Bytes) (item : Nat) :
    Option (State Tid) :=
  let pushed : Item := ⟨prio, s.pushes, data, item⟩
  (s.que.doPush prio item).map fun que =>
    { s with
      que
      kernel := s.kernel.rtIpcListResume .pop
      pushes := s.pushes + 1
      queued := s.queued ++ [pushed] }.leave t (.code .eok)

/-- The loop of `rt_prio_queue_pop`, entered with interrupts disabled, up to its end or to
`rt_schedule`. -/
def popLoop (s : State Tid) (t : Tid) (timeout : BitVec 32) : Option (State Tid) :=
  s.que.doPop.map fun found =>
    match found.2 with
    | some item =>
      let popped := s.queued.find? fun queued => queued.item = item
      let pop : Pop := ⟨popped, s.queued⟩
      { s with
        que := found.1
        queued := s.queued.filter fun queued => queued.item ≠ item
        popped := pop :: s.popped }.setCall t (some (.copying item popped))
    | none =>
      if timeout = 0 then { s with que := found.1 }.leave t (.code .etimeout)
      else
        { s with
          que := found.1
          kernel := s.kernel.blockOn .pop t .fifo timeout.toInt }.setCall t
            (some (.popSuspended timeout))

/-- Behind the `rt_schedule` of `rt_prio_queue_pop`. -/
def popResumed (s : State Tid) (t : Tid) (timeout : BitVec 32) : State Tid :=
  if (s.kernel.thread t).error ≠ .eok then
    s.leave t (.code (s.kernel.thread t).error)
  else s.setCall t (some (.popRetrying timeout))

def rtMpFree (rtDebug : Bool) (s : State Tid) (item : Nat) : Option (State Tid) :=
  let block := item - pointerSize
  let pool := s.que.pool
  if pool.header block ≠ .pool then none
  else
    let s := s.setPool
      { pool with
        blockFreeCount := pool.blockFreeCount + 1
        header := update pool.header block (.next pool.blockList)
        blockList := some block }
    if 0 < pool.suspendThreadCount then
      match s.waiters .pool with
      | t :: _ =>
        some ({ s with kernel := (s.kernel.setError t .eok).rtThreadResume t }.setPool
          { s.que.pool with suspendThreadCount := pool.suspendThreadCount - 1 })
      | [] =>
        (s.que.resumeNobody rtDebug).map fun que =>
          { s with que }.setPool
            { que.pool with suspendThreadCount := pool.suspendThreadCount - 1 }
    else some s

def proceed (rtDebug : Bool) (s : State Tid) (t : Tid) : Call → Option (State Tid)
  | .allocSuspended prio data time beforeSleep =>
    some (allocResumed s t prio data time beforeSleep)
  | .allocRetrying prio data time => allocLoop s t prio data time
  | .filling prio data item =>
    some ({ s with que := s.que.fill item data }.setCall t
      (some (.linking prio data item)))
  | .linking prio data item => link s t prio data item
  | .popSuspended timeout => some (popResumed s t timeout)
  | .popRetrying timeout => popLoop s t timeout
  | .copying item popped =>
    some ({ s with returned := (popped, s.que.bytes item) :: s.returned }.setCall t
      (some (.freeing item)))
  | .freeing item => (rtMpFree rtDebug s item).map fun s => s.leave t (.code .eok)

def step (rtDebug : Bool) (s : State Tid) : Event Tid → Option (State Tid)
  | .push t prio data timeout =>
    if (s.kernel.thread t).stat = .ready ∧ s.call t = none ∧
        data.length = s.que.itemSz then
      if rtPrioQueuePrioMax ≤ prio then some (s.leave t (.code .error))
      else allocLoop s t prio data timeout
    else none
  | .pop t timeout =>
    if (s.kernel.thread t).stat = .ready ∧ s.call t = none then popLoop s t timeout
    else none
  | .proceed t =>
    if (s.kernel.thread t).stat = .ready then
      (s.call t).bind fun call => proceed rtDebug s t call
    else none
  | .timeout t =>
    if (s.kernel.thread t).stat = .suspend ∧ (s.kernel.thread t).timer then
      some { s with kernel := s.kernel.rtThreadTimeout t }
    else none
  | .tick => some { s with tick := s.tick + 1 }

/-- `rt_prio_queue_init` with the buffer at `start`. -/
def rtPrioQueueInit (alignSize : Nat) (header : Nat → Header) (next : Nat → Option Nat)
    (data : Nat → Nat → BitVec 8) (start bufsz itemSz : Nat) : Option RtPrioQueue :=
  (rtMpInit alignSize header start bufsz (Word32.add sizeofItem itemSz)).map fun pool =>
    { bitmap := 0
      head := fun _ => none
      tail := fun _ => none
      itemSz
      pool
      next
      data }

/-- `rt_prio_queue_create`, when the heap gives the queue and its buffer, at `start`, in any
memory. -/
def rtPrioQueueCreate (alignSize : Nat) (header : Nat → Header) (next : Nat → Option Nat)
    (data : Nat → Nat → BitVec 8) (start itemNr itemSz : Nat) : Option RtPrioQueue :=
  rtPrioQueueInit alignSize header next data start
    (itemNr * (sizeofItem + itemSz + pointerSize) % 2 ^ 32) itemSz

structure Initial (alignSize start itemNr itemSz : Nat) (s : State Tid) : Prop where
  wellFormed : s.kernel.WellFormed
  noWaiters : ∀ list, s.waiters list = []
  noCalls : ∀ t, s.call t = none
  created : ∃ header next data,
    rtPrioQueueCreate alignSize header next data start itemNr itemSz = some s.que
  pushes : s.pushes = 0
  queued : s.queued = []
  popped : s.popped = []
  returned : s.returned = []

def system (rtDebug : Bool) (alignSize start itemNr itemSz : Nat) :
    TransitionSystem (State Tid) (Event Tid) :=
  TransitionSystem.ofFunction (Initial alignSize start itemNr itemSz) (step rtDebug)

end RtThread.PrioQueue
