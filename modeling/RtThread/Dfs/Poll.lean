import RtThread.Library.TransitionSystem

/-!
# poll

Any number of threads in `poll`, the wait queues of the devices, and time.  A call goes on in
the sections that interrupts cannot enter: `rt_poll_add` of a device, the answer of a device,
the two locked parts of `poll_wait_timeout`, the removal of a node.  Whether a descriptor is
ready is for its device to say at each examination.  Behind the fields of the source each call
carries an account of its own, which no step reads.
-/

namespace RtThread.Dfs

universe u v

namespace Poll

def pollin : Int32 := 0x01
def pollout : Int32 := 0x02
def pollerr : Int32 := 0x04
def pollhup : Int32 := 0x08
def pollnval : Int32 := 0x10
def pollmaskDefault : Int32 := pollin ||| pollout

structure Pollfd where
  fd : Int32
  events : Int16
  revents : Int16

def Pollfd.wanted (pollfd : Pollfd) : Int32 := pollfd.events.toInt32 ||| pollerr ||| pollhup

/-- `req->_key`, a `short`, as `_poll_add` stores it in `wqn.key`. -/
def Pollfd.key (pollfd : Pollfd) : UInt32 := pollfd.wanted.toInt16.toInt32.toUInt32

/-- `do_pollfd`: `file` is what `fd_get` finds, with the mask of its `fops->poll`, if any. -/
def doPollfd (pollfd : Pollfd) (file : Option (Option Int32)) : Int32 :=
  if 0 ≤ pollfd.fd then
    match file with
    | none => pollnval
    | some mask => mask.getD pollmaskDefault &&& pollfd.wanted
  else 0

/-- `rt_tick_from_millisecond`, with `none` for `RT_WAITING_FOREVER`. -/
def rtTickFromMillisecond (tickPerSecond : Nat) (ms : Int32) : Option Nat :=
  if ms < 0 then none
  else
    let ms := ms.toInt.toNat
    some (tickPerSecond * (ms / 1000) + (tickPerSecond * (ms % 1000) + 999) / 1000)

/-- `struct rt_wqueue_node`: of a thread in `rt_wqueue_wait`, or of a poll table, whose nodes
are numbered as they are added. -/
inductive Entry (Tid : Type u) where
  | wait (number : Nat)
  | node (t : Tid) (i : Nat) (key : UInt32)
  deriving DecidableEq

/-- `entry->wakeup(entry, key) == 0`: `__wqueue_default_wake` or `__wqueue_pollwake`. -/
def Entry.accepts {Tid : Type u} (key : UInt32) : Entry Tid → Bool
  | .wait _ => true
  | .node _ _ own => key = 0 || key &&& own ≠ 0

inductive Phase where
  /-- In the loop of `poll_do`, with `num` descriptors ready among the first `n`. -/
  | examining (n num : Nat)
  /-- In front of the first locked part of `poll_wait_timeout`. -/
  | waiting
  | asleep (timer : Option Nat)
  /-- Behind `rt_schedule`, in front of the second locked part. -/
  | woken
  /-- In `poll_teardown`. -/
  | leaving (num : Nat)
  deriving DecidableEq

/-- A queue that a device has handed to `_poll_add`, with the node added, unless `rt_malloc`
has failed. -/
structure Offer (Tid : Type u) (Queue : Type v) where
  queue : Queue
  node : Option (Entry Tid)

structure Call (Tid : Type u) (Queue : Type v) where
  fds : List Pollfd
  timeout : Option Nat
  /-- `req._proc`, which is `_poll_add` or `RT_NULL` -/
  proc : Bool
  triggered : Bool
  nodes : Nat
  istimeout : Bool
  phase : Phase
  elapsed : Nat
  wakeups : Nat
  examinations : Nat
  fresh : Bool
  overdue : Bool
  offers : List (Offer Tid Queue)

structure State (Tid : Type u) (Queue : Type v) where
  queue : Queue → List (Entry Tid)
  call : Tid → Option (Call Tid Queue)

inductive Event (Tid : Type u) (Queue : Type v) where
  | poll (t : Tid) (fds : List Pollfd) (msec : Int32)
  /-- `rt_poll_add`, called by the device of the descriptor that is examined. -/
  | pollAdd (t : Tid) (queue : Queue) (allocated : Bool)
  | examined (t : Tid) (file : Option (Option Int32))
  | proceed (t : Tid)
  | wakeup (queue : Queue) (key : UInt32)
  | tick
  /-- Threads in `rt_wqueue_wait`. -/
  | waitAdd (queue : Queue) (number : Nat)
  | waitRemove (queue : Queue) (number : Nat)

namespace Call

variable {Tid : Type u} {Queue : Type v}

/-- `poll_table_init` and the beginning of `poll_do`. -/
def init (tickPerSecond : Nat) (fds : List Pollfd) (msec : Int32) : Call Tid Queue where
  fds
  timeout := rtTickFromMillisecond tickPerSecond msec
  proc := msec ≠ 0
  triggered := false
  nodes := 0
  istimeout := msec = 0
  phase := .examining 0 0
  elapsed := 0
  wakeups := 0
  examinations := 1
  fresh := false
  overdue := false
  offers := []

def Due (call : Call Tid Queue) : Prop := ∃ limit ∈ call.timeout, limit ≤ call.elapsed

instance (call : Call Tid Queue) : Decidable call.Due := inferInstanceAs (Decidable (∃ _, _))

/-- The end of `poll_wait_timeout`, and the loop of `poll_do` from its start. -/
def reexamine (call : Call Tid Queue) : Call Tid Queue :=
  { call with
    istimeout := call.istimeout || !call.triggered
    phase := .examining 0 0
    examinations := call.examinations + 1
    fresh := false
    overdue := call.Due }

def answered (call : Call Tid Queue) (n num : Nat) (pollfd : Pollfd) (mask : Int32) :
    Call Tid Queue :=
  { call with
    fds := call.fds.set n { pollfd with revents := mask.toInt16 }
    proc := call.proc && mask = 0
    phase := .examining (n + 1) (if mask = 0 then num else num + 1) }

def concluded (call : Call Tid Queue) (num : Nat) : Call Tid Queue :=
  { call with
    proc := false
    phase := if num ≠ 0 || call.istimeout then .leaving num else .waiting }

/-- The first locked part of `poll_wait_timeout`, and what follows if it does not suspend. -/
def waits (call : Call Tid Queue) : Call Tid Queue :=
  if call.timeout ≠ some 0 ∧ call.triggered = false then
    { call with phase := .asleep call.timeout }
  else call.reexamine

def wake (call : Call Tid Queue) : Call Tid Queue :=
  { call with
    triggered := true
    phase :=
      match call.phase with
      | .asleep _ => .woken
      | phase => phase
    wakeups := call.wakeups + 1
    fresh := true }

def tick (call : Call Tid Queue) : Call Tid Queue :=
  { call with
    phase :=
      match call.phase with
      | .asleep (some left) => if 1 < left then .asleep (some (left - 1)) else .woken
      | phase => phase
    elapsed := call.elapsed + 1 }

end Call

namespace State

variable {Tid : Type u} {Queue : Type v} [DecidableEq Tid] [DecidableEq Queue]

def setCall (s : State Tid Queue) (t : Tid) (call : Option (Call Tid Queue)) :
    State Tid Queue :=
  { s with call := Function.update s.call t call }

def setQueue (s : State Tid Queue) (queue : Queue) (waitingList : List (Entry Tid)) :
    State Tid Queue :=
  { s with queue := Function.update s.queue queue waitingList }

def pollAdd (s : State Tid Queue) (t : Tid) (call : Call Tid Queue) (pollfd : Pollfd)
    (queue : Queue) (allocated : Bool) : State Tid Queue :=
  if call.proc then
    let node := Entry.node t call.nodes pollfd.key
    if allocated then
      (s.setQueue queue (s.queue queue ++ [node])).setCall t
        (some { call with nodes := call.nodes + 1, offers := ⟨queue, some node⟩ :: call.offers })
    else s.setCall t (some { call with offers := ⟨queue, none⟩ :: call.offers })
  else s

/-- `poll_teardown` for the node added last. -/
def removeNode (s : State Tid Queue) (t : Tid) (i : Nat) : State Tid Queue :=
  { s with
    queue := fun queue => (s.queue queue).filter fun
      | .wait _ => true
      | .node owner number _ => !(owner = t ∧ number = i) }

def wakeup (s : State Tid Queue) (queue : Queue) (key : UInt32) : State Tid Queue :=
  match (s.queue queue).find? (Entry.accepts key) with
  | none => s
  | some entry =>
    let removed := s.setQueue queue ((s.queue queue).erase entry)
    match entry with
    | .wait _ => removed
    | .node t _ _ => removed.setCall t ((s.call t).map Call.wake)

def proceed (s : State Tid Queue) (t : Tid) (call : Call Tid Queue) :
    Option (State Tid Queue) :=
  match call.phase with
  | .examining n num =>
    if n = call.fds.length then some (s.setCall t (some (call.concluded num))) else none
  | .waiting => some (s.setCall t (some call.waits))
  | .asleep _ => none
  | .woken => some (s.setCall t (some call.reexamine))
  | .leaving _ =>
    match call.nodes with
    | 0 => some (s.setCall t none)
    | i + 1 =>
      some ((s.removeNode t i).setCall t (some { call with nodes := i }))

def examine (s : State Tid Queue) (t : Tid)
    (answer : Call Tid Queue → Nat → Nat → Pollfd → State Tid Queue) : Option (State Tid Queue) :=
  match s.call t with
  | some call =>
    match call.phase with
    | .examining n num => (call.fds[n]?).map (answer call n num)
    | _ => none
  | none => none

def step (tickPerSecond : Nat) (s : State Tid Queue) :
    Event Tid Queue → Option (State Tid Queue)
  | .poll t fds msec =>
    match s.call t with
    | none => some (s.setCall t (some (.init tickPerSecond fds msec)))
    | some _ => none
  | .pollAdd t queue allocated =>
    s.examine t fun call _ _ pollfd => s.pollAdd t call pollfd queue allocated
  | .examined t file =>
    s.examine t fun call n num pollfd =>
      s.setCall t (some (call.answered n num pollfd (doPollfd pollfd file)))
  | .proceed t => (s.call t).bind (s.proceed t)
  | .wakeup queue key => some (s.wakeup queue key)
  | .tick => some { s with call := fun t => (s.call t).map Call.tick }
  | .waitAdd queue number =>
    some (s.setQueue queue (s.queue queue ++ [.wait number]))
  | .waitRemove queue number =>
    some (s.setQueue queue ((s.queue queue).erase (.wait number)))

def Initial (s : State Tid Queue) : Prop :=
  (∀ queue, s.queue queue = []) ∧ ∀ t, s.call t = none

def system (tickPerSecond : Nat) : TransitionSystem (State Tid Queue) (Event Tid Queue) :=
  .ofFunction Initial (step tickPerSecond)

end State

end Poll

end RtThread.Dfs
