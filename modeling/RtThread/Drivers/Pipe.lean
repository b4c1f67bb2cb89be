import RtThread.Drivers.RingBuffer

/-!
# Pipes

`pipe_fops_open`, `pipe_fops_close`, `pipe_fops_read` and `pipe_fops_write` on one pipe.
What a call does between taking and releasing the lock is one step: others touch the
wait queues only, or test one of the counters, and find it as before or as behind the
step.  A call that blocks leaves the lock, wakes the other side and waits, each in a step
of its own.
-/

open Function (update)

namespace RtThread.Pipe

open RingBuffer

universe u

/-- `flags & O_ACCMODE`. -/
inductive Mode where
  | rdonly
  | wronly
  | rdwr
  deriving DecidableEq

def Mode.Reads (mode : Mode) : Prop := mode ≠ .wronly

def Mode.Writes (mode : Mode) : Prop := mode ≠ .rdonly

instance (mode : Mode) : Decidable mode.Reads := instDecidableNot

instance (mode : Mode) : Decidable mode.Writes := instDecidableNot

/-- `struct rt_pipe_device`, with the `ref_count` of its device. -/
structure RtPipe where
  isNamed : Bool
  fifo : Option RtRingbuffer
  bufsz : BitVec 16
  readers : UInt8
  writers : UInt8
  refCount : UInt8

/-- `rt_wqueue_t`; `flag` is set for `RT_WQ_FLAG_WAKEUP`. -/
structure RtWqueue (Tid : Type u) where
  flag : Bool
  waitingList : List Tid

inductive Side where
  | reader
  | writer
  deriving DecidableEq

def Side.other : Side → Side
  | .reader => .writer
  | .writer => .reader

/-- The arguments of a read or write, with the variables `ret` and `wakeup` of a write. -/
inductive Job where
  | read (buf : Nat → UInt8) (count : Nat)
  | write (buf : Nat → UInt8) (count ret : Nat) (wakeup : Bool)

def Job.side : Job → Side
  | .read .. => .reader
  | .write .. => .writer

inductive Result where
  | length (value : Nat)
  | epipe
  | eagain
  deriving DecidableEq

inductive Phase where
  /-- In `rt_mutex_take`. -/
  | locking
  /-- In front of the `rt_wqueue_wakeup` of the other side. -/
  | waking
  /-- In front of `rt_wqueue_wait`. -/
  | waiting
  | suspended
  /-- In `rt_wqueue_wait`, behind `rt_schedule`. -/
  | woken
  /-- A write that is over, in front of its last `rt_wqueue_wakeup`. -/
  | ending (result : Result)
  deriving DecidableEq

structure Call where
  job : Job
  nonblock : Bool
  phase : Phase

/-- What the locked part of a call comes to. -/
inductive Outcome where
  | returns (result : Result)
  | blocks (job : Job)

/-- One pipe and its users.  `opened` are the descriptors that are open, `accepted` the
bytes that writes have stored and `returned` those that reads have fetched, in order;
`result` is what a read or write has returned, if it did so in the step before. -/
structure State (Tid : Type u) where
  pipe : RtPipe
  queue : Side → RtWqueue Tid
  call : Tid → Option Call
  opened : Mode → Nat
  accepted : List UInt8
  returned : List UInt8
  result : Option (Side × Result)

/-- `rt_ringbuffer_create`, when `rt_malloc` gives `pool`, or nothing. -/
def rtRingbufferCreate (alignSize : Nat) (pool : Option (Nat → UInt8)) (size : BitVec 16) :
    Option RtRingbuffer :=
  pool.bind fun pool =>
    rtRingbufferInit alignSize pool (.ofNat 16 (Word32.maskDown size.toNat alignSize))

/-- The locked part of `pipe_fops_open`. -/
def pipeFopsOpen (alignSize : Nat) (pipe : RtPipe) (mode : Mode)
    (pool : Option (Nat → UInt8)) : RtPipe :=
  { pipe with
    fifo :=
      if pipe.refCount = 0 then rtRingbufferCreate alignSize pool pipe.bufsz else pipe.fifo
    readers := if mode.Reads then pipe.readers + 1 else pipe.readers
    writers := if mode.Writes then pipe.writers + 1 else pipe.writers
    refCount := pipe.refCount + 1 }

/-- The locked part of `pipe_fops_close`, without the wake-ups. -/
def pipeFopsClose (pipe : RtPipe) (mode : Mode) : RtPipe :=
  { pipe with
    fifo := if pipe.refCount = 1 then none else pipe.fifo
    readers := if mode.Reads then pipe.readers - 1 else pipe.readers
    writers := if mode.Writes then pipe.writers - 1 else pipe.writers
    refCount := pipe.refCount - 1 }

/-- The locked part of `pipe_fops_read`, with the bytes that it has fetched.  The length
is cut to the 16 bits of `rt_ringbuffer_get`, which stops at a missing buffer. -/
def pipeFopsRead (pipe : RtPipe) (nonblock : Bool) (buf : Nat → UInt8) (count : Nat) :
    Option (RtPipe × Outcome × List UInt8) :=
  if pipe.writers = 0 then some (pipe, .returns (.length 0), [])
  else
    pipe.fifo.map fun fifo =>
      let (fifo, filled, len) := rtRingbufferGet fifo buf (.ofNat count)
      ({ pipe with fifo := some fifo },
        if 0 < len then .returns (.length len)
        else if nonblock then .returns .eagain
        else .blocks (.read buf count), (List.range len).map filled)

/-- The locked part of `pipe_fops_write`, with the bytes that it has stored. -/
def pipeFopsWrite (pipe : RtPipe) (nonblock : Bool) (buf : Nat → UInt8) (count ret : Nat) :
    Option (RtPipe × Outcome × List UInt8) :=
  if pipe.readers = 0 then
    some (pipe, .returns (if ret = 0 then .epipe else .length ret), [])
  else
    pipe.fifo.map fun fifo =>
      let (fifo, len) := rtRingbufferPut fifo (fun i => buf (ret + i)) (.ofNat (count - ret))
      ({ pipe with fifo := some fifo },
        if ret + len = count then .returns (.length count)
        else if nonblock then .returns (if ret + len = 0 then .eagain else .length (ret + len))
        else .blocks (.write buf count (ret + len) true),
        (List.range len).map fun i => buf (ret + i))

/-- A descriptor is opened or closed, a thread calls `read` or `write` or goes on in its
call. -/
inductive Event (Tid : Type u) where
  | openFd (mode : Mode) (pool : Option (Nat → UInt8))
  | closeFd (mode : Mode)
  | read (t : Tid) (nonblock : Bool) (buf : Nat → UInt8) (count : Nat)
  | write (t : Tid) (nonblock : Bool) (buf : Nat → UInt8) (count : Nat)
  | proceed (t : Tid)

variable {Tid : Type u} [DecidableEq Tid]

namespace State

def setCall (s : State Tid) (t : Tid) (call : Option Call) : State Tid :=
  { s with call := update s.call t call }

def setQueue (s : State Tid) (side : Side) (queue : RtWqueue Tid) : State Tid :=
  { s with queue := update s.queue side queue }

@[simp] theorem setCall_result (s : State Tid) (t : Tid) (call : Option Call) :
    (s.setCall t call).result = s.result := rfl

omit [DecidableEq Tid] in
@[simp] theorem setQueue_result (s : State Tid) (side : Side) (queue : RtWqueue Tid) :
    (s.setQueue side queue).result = s.result := rfl

/-- `rt_thread_resume` of a thread that waits in one of the queues. -/
def resume (s : State Tid) (t : Tid) : State Tid :=
  match s.call t with
  | some call =>
    if call.phase = .suspended then s.setCall t (some { call with phase := .woken })
    else s
  | none => s

def wakeup (s : State Tid) (side : Side) : State Tid :=
  match (s.queue side).waitingList with
  | [] => s.setQueue side { s.queue side with flag := true }
  | t :: rest => (s.setQueue side ⟨true, rest⟩).resume t

def openReaders (s : State Tid) : Nat := s.opened .rdonly + s.opened .rdwr

def openWriters (s : State Tid) : Nat := s.opened .wronly + s.opened .rdwr

end State

def closeStep (s : State Tid) (mode : Mode) : State Tid :=
  let s :=
    { s with
      pipe := pipeFopsClose s.pipe mode
      opened := update s.opened mode (s.opened mode - 1)
      result := none }
  let s := if s.pipe.writers = 0 then s.wakeup .reader else s
  if s.pipe.readers = 0 then s.wakeup .writer else s

def readStep (s : State Tid) (t : Tid) (nonblock : Bool) (buf : Nat → UInt8) (count : Nat) :
    State Tid :=
  if s.pipe.writers = 0 then { s with result := some (.reader, .length 0) }
  else { s.setCall t (some ⟨.read buf count, nonblock, .locking⟩) with result := none }

def writeStep (s : State Tid) (t : Tid) (nonblock : Bool) (buf : Nat → UInt8)
    (count : Nat) : State Tid :=
  if s.pipe.readers = 0 then { s with result := some (.writer, .epipe) }
  else if count = 0 then { s with result := some (.writer, .length 0) }
  else { s.setCall t (some ⟨.write buf count 0 false, nonblock, .locking⟩) with result := none }

/-- A call takes the lock.  A read that has fetched bytes wakes a writer before it
releases the lock, a write wakes a reader behind it if it has come to `rt_ringbuffer_put`
at all. -/
def lockedStep (s : State Tid) (t : Tid) (call : Call) : Option (State Tid) :=
  match call.job with
  | .read buf count =>
    (pipeFopsRead s.pipe call.nonblock buf count).map fun (pipe, outcome, bytes) =>
      let s := { s with pipe, returned := s.returned ++ bytes }
      match outcome with
      | .blocks job =>
        { s.setCall t (some { call with job, phase := .waking }) with result := none }
      | .returns result =>
        let s := { s.setCall t none with result := some (.reader, result) }
        if bytes = [] then s else s.wakeup .writer
  | .write buf count ret wakeup =>
    (pipeFopsWrite s.pipe call.nonblock buf count ret).map fun (pipe, outcome, bytes) =>
      let wakeup := wakeup ∨ s.pipe.readers ≠ 0
      let s := { s with pipe, accepted := s.accepted ++ bytes }
      match outcome with
      | .blocks job =>
        { s.setCall t (some { call with job, phase := .waking }) with result := none }
      | .returns result =>
        if wakeup then
          { s.setCall t (some { call with phase := .ending result }) with result := none }
        else { s.setCall t none with result := some (.writer, result) }

def proceedStep (s : State Tid) (t : Tid) (call : Call) : Option (State Tid) :=
  let own := call.job.side
  let quiet := { s with result := none }
  match call.phase with
  | .locking => lockedStep s t call
  | .waking => some ((quiet.setCall t (some { call with phase := .waiting })).wakeup own.other)
  | .waiting =>
    if (s.queue own).flag then
      some ((quiet.setQueue own { s.queue own with flag := false }).setCall t
        (some { call with phase := .locking }))
    else
      some ((quiet.setQueue own
        { s.queue own with waitingList := (s.queue own).waitingList ++ [t] }).setCall t
          (some { call with phase := .suspended }))
  | .suspended => none
  | .woken =>
    some ((quiet.setQueue own { s.queue own with flag := false }).setCall t
      (some { call with phase := .locking }))
  | .ending result =>
    some (({ s with result := some (.writer, result) }.setCall t none).wakeup .reader)

def step (alignSize : Nat) (s : State Tid) : Event Tid → Option (State Tid)
  | .openFd mode pool =>
    some
      { s with
        pipe := pipeFopsOpen alignSize s.pipe mode pool
        opened := update s.opened mode (s.opened mode + 1)
        result := none }
  | .closeFd mode =>
    let after := closeStep s mode
    if 0 < s.opened mode ∧ 0 < after.openReaders ∧
        (after.pipe.refCount = 0 → after.pipe.isNamed) then some after
    else none
  | .read t nonblock buf count =>
    if (s.call t).isNone then some (readStep s t nonblock buf count) else none
  | .write t nonblock buf count =>
    if (s.call t).isNone ∧ 0 < s.openWriters then
      some (writeStep s t nonblock buf count)
    else none
  | .proceed t => (s.call t).bind (proceedStep s t)

structure Initial (alignSize : Nat) (s : State Tid) : Prop where
  opens : ∃ bufsz isNamed mode pool, (mode : Mode).Reads ∧
    s.pipe = pipeFopsOpen alignSize ⟨isNamed, none, bufsz, 0, 0, 0⟩ mode pool ∧
    s.opened = update (fun _ => 0) mode 1
  created : s.pipe.fifo.isSome
  queue_eq : ∀ side, s.queue side = ⟨false, []⟩
  call_eq : ∀ t, s.call t = none
  accepted_eq : s.accepted = []
  returned_eq : s.returned = []
  result_eq : s.result = none

def system (alignSize : Nat) : TransitionSystem (State Tid) (Event Tid) :=
  TransitionSystem.ofFunction (Initial alignSize) (step alignSize)

def unread (fifo : RtRingbuffer) : List UInt8 :=
  CircularBuffer.contents fifo.bufferPtr fifo.bufferSize fifo.readIndex (rtRingbufferDataLen fifo)

/-- What has been accepted and not been returned is in the ring buffer, and a read that
returned 0 left nothing to return, nor a writer. -/
structure Delivered (s : State Tid) : Prop where
  conserved : ∃ fifo, s.pipe.fifo = some fifo ∧
    s.returned ++ unread fifo = s.accepted
  endOfFile : s.result = some (.reader, .length 0) →
    s.returned = s.accepted ∧ s.openWriters = 0

def Drained (s : State Tid) : Prop :=
  (∀ fifo ∈ s.pipe.fifo, rtRingbufferDataLen fifo = 0) ∧ s.openWriters = 0

/-- The call is a read in front of the locked test of `writers`. -/
def testsWriters : Option Call → Bool
  | some ⟨.read .., _, .locking⟩ => true
  | _ => false

/-- A read that finds the writers' counter at 0 finds the pipe drained; an open that finds
`ref_count` wrapped to 0 replaces an empty ring buffer, and no close finds it at 1. -/
def EndsDrained (s : State Tid) : Event Tid → Prop
  | .openFd _ pool => s.pipe.refCount = 0 →
      (∀ fifo ∈ s.pipe.fifo, rtRingbufferDataLen fifo = 0) ∧ pool.isSome
  | .closeFd _ => s.pipe.refCount ≠ 1
  | .read .. => s.pipe.writers = 0 → Drained s
  | .write .. => True
  | .proceed t => testsWriters (s.call t) → s.pipe.writers = 0 → Drained s

end RtThread.Pipe

/-!
## Blocked users of a pipe

Reads, writes, closes and polls of one pipe by any number of threads, interleaved at the
pipe's lock and at the sections with interrupts disabled: a wake-up and the queueing of a
waiter are steps of their own, also where the lock is held.  What a call does to the ring
buffer and the counters under the lock is one step, as in `RtThread.Drivers.Pipe`.
-/

namespace RtThread.PipeWaits

open RingBuffer Pipe

universe u

/-- What follows the `rt_mutex_release` of a read or write. -/
inductive Exit where
  | blocks
  /-- A write goes on to its last `rt_wqueue_wakeup`. -/
  | ends (result : Result)
  | returns (result : Result)
  deriving DecidableEq

inductive Stage where
  /-- In `rt_mutex_take`. -/
  | locking
  /-- A read that has fetched bytes, with the lock, in front of "wakeup writer". -/
  | passing (result : Result)
  /-- In front of `rt_mutex_release`. -/
  | unlocking (exit : Exit)
  /-- In front of the `rt_wqueue_wakeup` of the other side. -/
  | waking
  /-- In front of `rt_wqueue_wait`. -/
  | waiting
  | suspended
  /-- In `rt_wqueue_wait`, behind `rt_schedule`. -/
  | woken
  /-- A write that is over, in front of its last `rt_wqueue_wakeup`. -/
  | ending (result : Result)
  deriving DecidableEq

inductive CloseStage where
  | locking
  /-- With the lock, in front of the wake-ups of the queues in `sides`. -/
  | hangingUp (sides : List Side)
  /-- Behind `rt_mutex_release`, in front of the last test of `ref_count`. -/
  | leaving
  deriving DecidableEq

/-- `struct rt_poll_table`, whose nodes are numbered as they are added. -/
structure PollTable where
  triggered : Bool
  nodes : Nat
  suspended : Bool

inductive Task where
  | transfer (job : Job) (nonblock : Bool) (stage : Stage)
  | close (mode : Mode) (stage : CloseStage)
  | poll (table : PollTable)

/-- `struct rt_wqueue_node`: the `__wait` of a call, or a node of a poll table. -/
inductive Entry (Tid : Type u) where
  | wait (t : Tid)
  | node (t : Tid) (i : Nat) (key : UInt16)

/-- `rt_wqueue_t`; `flag` is set for `RT_WQ_FLAG_WAKEUP`. -/
structure Wqueue (Tid : Type u) where
  flag : Bool
  waitingList : List (Entry Tid)

/-- One pipe and its users; `opened` are the descriptors whose close has not come to the
lock, and `deleted` tells that `rt_pipe_delete` has been called. -/
structure State (Tid : Type u) where
  pipe : RtPipe
  lock : Option Tid
  queue : Side → Wqueue Tid
  task : Tid → Option Task
  opened : Mode → Nat
  deleted : Bool

def pollin : UInt16 := 0x01
def pollout : UInt16 := 0x02
def pollerr : UInt16 := 0x04
def pollhup : UInt16 := 0x08

def Side.key : Side → UInt16
  | .reader => pollin
  | .writer => pollout

/-- `entry->wakeup(entry, key) == 0`. -/
def Entry.accepts {Tid : Type u} (key : UInt16) : Entry Tid → Bool
  | .wait _ => true
  | .node _ _ own => key &&& own ≠ 0

variable {Tid : Type u} [DecidableEq Tid]

namespace State

def setTask (s : State Tid) (t : Tid) (task : Option Task) : State Tid :=
  { s with task := update s.task t task }

def setQueue (s : State Tid) (side : Side) (queue : Wqueue Tid) : State Tid :=
  { s with queue := update s.queue side queue }

def openReaders (s : State Tid) : Nat := s.opened .rdonly + s.opened .rdwr

def openWriters (s : State Tid) : Nat := s.opened .wronly + s.opened .rdwr

def dataLen (s : State Tid) : Nat := (s.pipe.fifo.map rtRingbufferDataLen).getD 0

def spaceLen (s : State Tid) : Nat := (s.pipe.fifo.map rtRingbufferSpaceLen).getD 0

/-- `rt_thread_resume` of the thread of an entry, behind the `triggered` of a poll. -/
def resume (s : State Tid) : Entry Tid → State Tid
  | .wait t =>
    match s.task t with
    | some (.transfer job nonblock .suspended) =>
      s.setTask t (some (.transfer job nonblock .woken))
    | _ => s
  | .node t _ _ =>
    match s.task t with
    | some (.poll table) =>
      s.setTask t (some (.poll { table with triggered := true, suspended := false }))
    | _ => s

/-- `rt_wqueue_wakeup`: the first entry that accepts the key. -/
def wakeup (s : State Tid) (side : Side) (key : UInt16) : State Tid :=
  let entries := (s.queue side).waitingList
  let woken := s.setQueue side ⟨true, entries.eraseP (Entry.accepts key)⟩
  match entries.find? (Entry.accepts key) with
  | some entry => woken.resume entry
  | none => woken

end State

def lockedStep (s : State Tid) (t : Tid) (job : Job) (nonblock : Bool) :
    Option (State Tid) :=
  match job with
  | .read buf count =>
    (pipeFopsRead s.pipe nonblock buf count).map fun (pipe, outcome, bytes) =>
      let stage :=
        match outcome with
        | .blocks _ => Stage.unlocking .blocks
        | .returns result =>
          if bytes = [] then .unlocking (.returns result) else .passing result
      { s with pipe, lock := some t }.setTask t (some (.transfer job nonblock stage))
  | .write buf count ret wakeup =>
    (pipeFopsWrite s.pipe nonblock buf count ret).map fun (pipe, outcome, _) =>
      let locked := { s with pipe, lock := some t }
      match outcome with
      | .blocks job => locked.setTask t (some (.transfer job nonblock (.unlocking .blocks)))
      | .returns result =>
        let exit := if wakeup ∨ s.pipe.readers ≠ 0 then .ends result else .returns result
        locked.setTask t (some (.transfer job nonblock (.unlocking exit)))

def transferStep (s : State Tid) (t : Tid) (job : Job) (nonblock : Bool) (stage : Stage) :
    Option (State Tid) :=
  let own := s.queue job.side
  let next (stage : Stage) := some (Task.transfer job nonblock stage)
  match stage with
  | .locking => if s.lock = none then lockedStep s t job nonblock else none
  | .passing result =>
    some ((s.setTask t (next (.unlocking (.returns result)))).wakeup .writer pollout)
  | .unlocking exit =>
    let released := { s with lock := none }
    some (released.setTask t
      (match exit with
      | .blocks => next .waking
      | .ends result => next (.ending result)
      | .returns _ => none))
  | .waking =>
    some ((s.setTask t (next .waiting)).wakeup job.side.other (Side.key job.side.other))
  | .waiting =>
    if own.flag then
      some ((s.setQueue job.side { own with flag := false }).setTask t (next .locking))
    else
      some ((s.setQueue job.side
        { own with waitingList := own.waitingList ++ [.wait t] }).setTask t (next .suspended))
  | .suspended => none
  | .woken => some ((s.setQueue job.side { own with flag := false }).setTask t (next .locking))
  | .ending _ => some ((s.setTask t none).wakeup .reader pollin)

/-- The wake-ups that `pipe_fops_close` makes.  Both counters are tested with the lock held. -/
def hangups (pipe : RtPipe) : List Side :=
  (if pipe.writers = 0 then [.reader] else []) ++ (if pipe.readers = 0 then [.writer] else [])

def closeStep (s : State Tid) (t : Tid) (mode : Mode) (stage : CloseStage) :
    Option (State Tid) :=
  match stage with
  | .locking =>
    if s.lock = none ∧ 0 < s.opened mode then
      let pipe := pipeFopsClose s.pipe mode
      let opened := update s.opened mode (s.opened mode - 1)
      some ({ s with pipe, opened, lock := some t }.setTask t
        (some (.close mode (.hangingUp (hangups pipe)))))
    else none
  | .hangingUp [] => some ({ s with lock := none }.setTask t (some (.close mode .leaving)))
  | .hangingUp (side :: sides) =>
    some ((s.setTask t (some (.close mode (.hangingUp sides)))).wakeup side
      (Side.key side ||| pollerr ||| pollhup))
  | .leaving =>
    some
      { s.setTask t none with
        deleted := decide (s.pipe.refCount = 0) && !s.pipe.isNamed }

/-- Descriptors are opened and closed, threads call `read`, `write` or `poll`, or go on. -/
inductive Event (Tid : Type u) where
  | openFd (mode : Mode) (pool : Option (Nat → UInt8))
  | closeFd (t : Tid) (mode : Mode)
  | read (t : Tid) (nonblock : Bool) (buf : Nat → UInt8) (count : Nat)
  | write (t : Tid) (nonblock : Bool) (buf : Nat → UInt8) (count : Nat)
  | proceed (t : Tid)
  | pollInit (t : Tid)
  | pollAdd (t : Tid) (side : Side) (key : UInt16)
  | pollWait (t : Tid)
  | pollTimeout (t : Tid)
  | pollTeardown (t : Tid)

def removeNode (s : State Tid) (t : Tid) (i : Nat) : State Tid :=
  { s with
    queue := fun side =>
      { s.queue side with
        waitingList := (s.queue side).waitingList.filter fun
          | .wait _ => true
          | .node owner number _ => !(owner = t ∧ number = i) } }

def pollStep (s : State Tid) (t : Tid) (table : PollTable) : Event Tid → Option (State Tid)
  | .pollAdd _ side key =>
    if table.suspended then none
    else
      let queue := s.queue side
      let entry := Entry.node t table.nodes key
      some ((s.setQueue side
        { queue with waitingList := queue.waitingList ++ [entry] }).setTask t
          (some (.poll { table with nodes := table.nodes + 1 })))
  | .pollWait _ =>
    if table.suspended ∨ table.triggered then none
    else some (s.setTask t (some (.poll { table with suspended := true })))
  | .pollTimeout _ =>
    if table.suspended then some (s.setTask t (some (.poll { table with suspended := false })))
    else none
  | .pollTeardown _ =>
    if table.suspended then none
    else if table.nodes = 0 then some (s.setTask t none)
    else
      some ((removeNode s t (table.nodes - 1)).setTask t
        (some (.poll { table with nodes := table.nodes - 1 })))
  | _ => none

def polled (s : State Tid) (t : Tid) (e : Event Tid) : Option (State Tid) :=
  match s.task t with
  | some (.poll table) => pollStep s t table e
  | _ => none

def proceedStep (s : State Tid) (t : Tid) : Option (State Tid) :=
  match s.task t with
  | some (.transfer job nonblock stage) => transferStep s t job nonblock stage
  | some (.close mode stage) => closeStep s t mode stage
  | _ => none

def begin (s : State Tid) (t : Tid) (task : Option Task) : Option (State Tid) :=
  match s.task t with
  | none => some (s.setTask t task)
  | some _ => none

/-- One step; there is none of a deleted pipe. -/
def step (alignSize : Nat) (s : State Tid) (e : Event Tid) : Option (State Tid) :=
  if s.deleted then none
  else
    match e with
    | .openFd mode pool =>
      if s.lock = none then
        some
          { s with
            pipe := pipeFopsOpen alignSize s.pipe mode pool
            opened := update s.opened mode (s.opened mode + 1) }
      else none
    | .closeFd t mode =>
      if 0 < s.opened mode then begin s t (some (.close mode .locking)) else none
    | .read t nonblock buf count =>
      begin s t
        (if s.pipe.writers = 0 then none
        else some (.transfer (.read buf count) nonblock .locking))
    | .write t nonblock buf count =>
      begin s t
        (if s.pipe.readers = 0 ∨ count = 0 then none
        else some (.transfer (.write buf count 0 false) nonblock .locking))
    | .proceed t => proceedStep s t
    | .pollInit t => begin s t (some (.poll ⟨false, 0, false⟩))
    | .pollAdd t .. | .pollWait t | .pollTimeout t | .pollTeardown t => polled s t e

structure Initial (s : State Tid) : Prop where
  pipe_eq : ∃ isNamed bufsz, s.pipe = ⟨isNamed, none, bufsz, 0, 0, 0⟩
  lock_eq : s.lock = none
  queue_eq : ∀ side, s.queue side = ⟨false, []⟩
  task_eq : ∀ t, s.task t = none
  opened_eq : ∀ mode, s.opened mode = 0
  deleted_eq : s.deleted = false

def system (alignSize : Nat) : TransitionSystem (State Tid) (Event Tid) :=
  .ofFunction Initial (step alignSize)

def Ready (s : State Tid) : Side → Prop
  | .reader => s.dataLen ≠ 0 ∨ s.openWriters = 0
  | .writer => s.spaceLen ≠ 0 ∨ s.openReaders = 0

def Resting (s : State Tid) : Option Task → Prop
  | none => True
  | some (.transfer _ _ stage) => stage = .suspended ∨ (stage = .locking ∧ s.lock ≠ none)
  | some (.close _ stage) => stage = .locking ∧ s.lock ≠ none
  | some (.poll table) => table.suspended

/-- The thread is a call of `side` that is blocked in `rt_wqueue_wait`. -/
def Blocked (s : State Tid) (t : Tid) (side : Side) : Prop :=
  ∃ job nonblock, s.task t = some (.transfer job nonblock .suspended) ∧ job.side = side

def NoLostWakeup (s : State Tid) : Prop :=
  (∀ t, Resting s (s.task t)) → ∀ t side, Blocked s t side → ¬ Ready s side

end RtThread.PipeWaits
