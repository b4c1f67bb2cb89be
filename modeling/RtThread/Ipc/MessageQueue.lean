import RtThread.Kernel.Services
import RtThread.Library.Chain
import RtThread.Library.TransitionSystem

/-!
# Message queues

`rt_mq_send`, `rt_mq_urgent`, `rt_mq_recv` and `rt_mq_control` on one message queue.
Each of the first three takes a slot off one list with interrupts disabled, copies with
interrupts enabled, and links the slot into another list with interrupts disabled again;
in between the slot is in the hands of its caller, and everybody else may run.

Slots are numbered; `next` is the header of a slot.  The letters are not in the code:
they number the messages in the order in which they are linked.
-/

open Function (update)

namespace RtThread.MessageQueue

universe u v

/-- Who executes a function: a thread, or one activation of an interrupt handler. -/
inductive Caller (Tid : Type u) (Hid : Type v) where
  | thread (t : Tid)
  | handler (h : Hid)
  deriving DecidableEq

inductive Hand where
  | sending (slot : Nat) (buffer : List (BitVec 8)) (urgent filled : Bool)
  | receiving (slot size : Nat) (copied : Bool)

def Hand.slot : Hand → Nat
  | .sending slot _ _ _ => slot
  | .receiving slot _ _ => slot

/-- The arguments of a suspended `rt_mq_recv`, with `tick_delta`. -/
structure Call where
  size : Nat
  timeout : BitVec 32
  tickDelta : BitVec 32

structure Letter where
  serial : Nat
  urgent : Bool
  body : List (BitVec 8)
  leftAt : Option Nat

/-- `struct rt_messagequeue` with its pool, the threads and the handlers. -/
structure State (Tid : Type u) (Hid : Type v) where
  kernel : Kernel Tid Unit
  msgSize : Nat
  maxMsgs : Nat
  entry : Nat
  msgQueueHead : Option Nat
  msgQueueTail : Option Nat
  msgQueueFree : Option Nat
  next : Nat → Option Nat
  data : Nat → List (BitVec 8)
  flag : IpcFlag
  tick : BitVec 32
  call : Tid → Option Call
  hand : Caller Tid Hid → Option Hand
  linked : Nat
  letter : Nat → Letter
  delivered : List Letter
  dropped : List Letter

/-- The calls, cut where they enable interrupts. -/
inductive Event (Tid : Type u) (Hid : Type v) where
  | send (caller : Caller Tid Hid) (buffer : List (BitVec 8))
  | urgent (caller : Caller Tid Hid) (buffer : List (BitVec 8))
  | fill (caller : Caller Tid Hid)
  | link (caller : Caller Tid Hid)
  | recv (caller : Caller Tid Hid) (size : Nat) (timeout : BitVec 32)
  | resumed (t : Tid)
  | copy (caller : Caller Tid Hid)
  | giveBack (caller : Caller Tid Hid)
  | reset
  | timeout (t : Tid)
  | tick

def copyIn (buffer old : List (BitVec 8)) : List (BitVec 8) := buffer ++ old.drop buffer.length

/-- `rt_memcpy(buffer, msg + 1, size > mq->msg_size ? mq->msg_size : size)`. -/
def copyOut (msgSize size : Nat) (data : List (BitVec 8)) : List (BitVec 8) :=
  data.take (if msgSize < size then msgSize else size)

/-- The loop of `rt_mq_init` that strings up the empty slots. -/
def initFree (next : Nat → Option Nat) : Nat → (Nat → Option Nat) × Option Nat
  | 0 => (next, none)
  | temp + 1 =>
    let (next, free) := initFree next temp
    (update next temp free, some temp)

variable {Tid : Type u} {Hid : Type v} [DecidableEq Tid] [DecidableEq Hid]

namespace State

def waiters (s : State Tid Hid) : List Tid := s.kernel.queue (.wait ())

def Executing (s : State Tid Hid) : Caller Tid Hid → Prop
  | .thread t => (s.kernel.thread t).stat = .ready ∧ (s.call t).isNone
  | .handler _ => True

instance (s : State Tid Hid) : (caller : Caller Tid Hid) → Decidable (s.Executing caller)
  | .thread _ => instDecidableAnd
  | .handler _ => .isTrue trivial

def Idle (s : State Tid Hid) (caller : Caller Tid Hid) : Prop :=
  s.Executing caller ∧ (s.hand caller).isNone

instance (s : State Tid Hid) (caller : Caller Tid Hid) : Decidable (s.Idle caller) :=
  instDecidableAnd

def setHand (s : State Tid Hid) (caller : Caller Tid Hid) (hand : Option Hand) :
    State Tid Hid :=
  { s with hand := update s.hand caller hand }

/-- The message in `slot` becomes the youngest letter. -/
def post (s : State Tid Hid) (slot : Nat) (urgent : Bool) (body : List (BitVec 8)) :
    State Tid Hid :=
  let letter :=
    { serial := s.linked
      urgent
      body
      leftAt := none }
  { s with
    linked := s.linked + 1
    letter := update s.letter slot letter }

def wake (s : State Tid Hid) : State Tid Hid :=
  if s.waiters ≠ [] then { s with kernel := s.kernel.rtIpcListResume () } else s

end State

/-- The beginning of `rt_mq_send` and of `rt_mq_urgent`, up to the slot in hand. -/
def takeFree (s : State Tid Hid) (caller : Caller Tid Hid) (buffer : List (BitVec 8))
    (urgent : Bool) : State Tid Hid × Option RtErr :=
  if s.msgSize < buffer.length then (s, some .error)
  else
    match s.msgQueueFree with
    | none => (s, some .efull)
    | some msg =>
      ({ s with msgQueueFree := s.next msg }.setHand caller
        (some (.sending msg buffer urgent false)), none)

/-- `rt_mq_send` between its two critical sections. -/
def rtMqSendFill (s : State Tid Hid) (caller : Caller Tid Hid) (msg : Nat)
    (buffer : List (BitVec 8)) : State Tid Hid :=
  { s with
    next := update s.next msg none
    data := update s.data msg (copyIn buffer (s.data msg)) }.setHand caller
      (some (.sending msg buffer false true))

/-- `rt_mq_urgent` between its two critical sections: the header is left alone. -/
def rtMqUrgentFill (s : State Tid Hid) (caller : Caller Tid Hid) (msg : Nat)
    (buffer : List (BitVec 8)) : State Tid Hid :=
  { s with
    data := update s.data msg (copyIn buffer (s.data msg)) }.setHand caller
      (some (.sending msg buffer true true))

/-- The second critical section of `rt_mq_send`. -/
def rtMqSendLink (s : State Tid Hid) (caller : Caller Tid Hid) (msg : Nat)
    (buffer : List (BitVec 8)) : State Tid Hid :=
  let next :=
    match s.msgQueueTail with
    | some last => update s.next last (some msg)
    | none => s.next
  ({ s with
    next := next
    msgQueueTail := some msg
    msgQueueHead := if s.msgQueueHead = none then some msg else s.msgQueueHead
    entry := (s.entry + 1) % 0x10000 }.post msg false buffer).wake.setHand caller none

/-- The second critical section of `rt_mq_urgent`. -/
def rtMqUrgentLink (s : State Tid Hid) (caller : Caller Tid Hid) (msg : Nat)
    (buffer : List (BitVec 8)) : State Tid Hid :=
  ({ s with
    next := update s.next msg s.msgQueueHead
    msgQueueHead := some msg
    msgQueueTail := if s.msgQueueTail = none then some msg else s.msgQueueTail
    entry := (s.entry + 1) % 0x10000 }.post msg true buffer).wake.setHand caller none

/-- What a turn of the loop of `rt_mq_recv` comes to. -/
inductive Outcome where
  | returned (code : RtErr)
  | blocked
  | unlinked

/-- The `while` loop of `rt_mq_recv`, entered with interrupts disabled, up to the point
where they are enabled again.  `RT_DEBUG_IN_THREAD_CONTEXT` stops a handler that would
block; with `entry` positive a null head would be dereferenced. -/
def recvLoop (s : State Tid Hid) (caller : Caller Tid Hid) (size : Nat)
    (timeout : BitVec 32) : Option (State Tid Hid × Outcome) :=
  if s.entry = 0 then
    match caller with
    | .handler _ => none
    | .thread t =>
      if timeout = 0 then
        let kernel := (s.kernel.setError t .eok).setError t .etimeout
        some ({ s with kernel := kernel, call := update s.call t none },
          .returned .etimeout)
      else
        let call :=
          { size
            timeout
            tickDelta := if 0 < timeout.toInt then s.tick else 0 }
        some ({ s with
          kernel := s.kernel.blockOn () t s.flag timeout.toInt
          call := update s.call t (some call) }, .blocked)
  else
    match s.msgQueueHead with
    | none => none
    | some msg =>
      let call :=
        match caller with
        | .thread t => update s.call t none
        | .handler _ => s.call
      some ({ s with
        msgQueueHead := s.next msg
        msgQueueTail := if s.msgQueueTail = some msg then none else s.msgQueueTail
        entry := s.entry - 1
        call := call
        delivered := s.delivered ++ [{ s.letter msg with leftAt := some s.linked }] }.setHand caller
            (some (.receiving msg size false)), .unlinked)

/-- The first critical section of `rt_mq_recv`. -/
def rtMqRecv (s : State Tid Hid) (caller : Caller Tid Hid) (size : Nat)
    (timeout : BitVec 32) : Option (State Tid Hid × Outcome) :=
  if s.entry = 0 ∧ timeout = 0 then some (s, .returned .etimeout)
  else recvLoop s caller size timeout

/-- A suspended receiver goes on behind `rt_schedule`. -/
def rtMqRecvResumed (s : State Tid Hid) (t : Tid) (call : Call) :
    Option (State Tid Hid × Outcome) :=
  let thread := s.kernel.thread t
  if thread.error ≠ .eok then
    some ({ s with call := update s.call t none }, .returned thread.error)
  else recvLoop s (.thread t) call.size (remaining call.timeout call.tickDelta s.tick)

/-- "copy message", and the bytes the caller gets. -/
def rtMqRecvCopy (s : State Tid Hid) (caller : Caller Tid Hid) (msg size : Nat) :
    State Tid Hid × List (BitVec 8) :=
  (s.setHand caller (some (.receiving msg size true)), copyOut s.msgSize size (s.data msg))

/-- The second critical section of `rt_mq_recv`. -/
def rtMqRecvGiveBack (s : State Tid Hid) (caller : Caller Tid Hid) (msg : Nat) :
    State Tid Hid :=
  { s with
    next := update s.next msg s.msgQueueFree
    msgQueueFree := some msg }.setHand caller none

def dropHead (s : State Tid Hid) (msg : Nat) : State Tid Hid :=
  { s with
    msgQueueHead := s.next msg
    msgQueueTail := if s.msgQueueTail = some msg then none else s.msgQueueTail
    next := update s.next msg s.msgQueueFree
    msgQueueFree := some msg
    dropped := s.dropped ++ [s.letter msg] }

/-- The loop, with a bound on its turns; `none` when the bound is too small. -/
def dropAll : Nat → State Tid Hid → Option (State Tid Hid)
  | 0, s => if s.msgQueueHead = none then some s else none
  | fuel + 1, s =>
    match s.msgQueueHead with
    | none => some s
    | some msg => dropAll fuel (dropHead s msg)

def rtMqReset (s : State Tid Hid) : Option (State Tid Hid) :=
  (dropAll s.maxMsgs
    { s with kernel := s.kernel.rtIpcListResumeAll () }).map fun s =>
      { s with entry := 0 }

def step (s : State Tid Hid) : Event Tid Hid → Option (State Tid Hid)
  | .send caller buffer =>
    if s.Idle caller ∧ buffer ≠ [] then some (takeFree s caller buffer false).1 else none
  | .urgent caller buffer =>
    if s.Idle caller ∧ buffer ≠ [] then some (takeFree s caller buffer true).1 else none
  | .fill caller =>
    match s.hand caller with
    | some (.sending msg buffer false false) =>
      if s.Executing caller then some (rtMqSendFill s caller msg buffer) else none
    | some (.sending msg buffer true false) =>
      if s.Executing caller then some (rtMqUrgentFill s caller msg buffer) else none
    | _ => none
  | .link caller =>
    match s.hand caller with
    | some (.sending msg buffer false true) =>
      if s.Executing caller then some (rtMqSendLink s caller msg buffer) else none
    | some (.sending msg buffer true true) =>
      if s.Executing caller then some (rtMqUrgentLink s caller msg buffer) else none
    | _ => none
  | .recv caller size timeout =>
    if s.Idle caller ∧ size ≠ 0 then (rtMqRecv s caller size timeout).map Prod.fst
    else none
  | .resumed t =>
    match s.call t with
    | some call =>
      if (s.kernel.thread t).stat = .ready then
        (rtMqRecvResumed s t call).map Prod.fst
      else none
    | none => none
  | .copy caller =>
    match s.hand caller with
    | some (.receiving msg size false) =>
      if s.Executing caller then some (rtMqRecvCopy s caller msg size).1 else none
    | _ => none
  | .giveBack caller =>
    match s.hand caller with
    | some (.receiving msg _ true) =>
      if s.Executing caller then some (rtMqRecvGiveBack s caller msg) else none
    | _ => none
  | .reset => rtMqReset s
  | .timeout t =>
    if (s.kernel.thread t).stat = .suspend ∧ (s.kernel.thread t).timer then
      some { s with kernel := s.kernel.rtThreadTimeout t }
    else none
  | .tick => some { s with tick := s.tick + 1 }

/-- After `rt_mq_init`, which leaves whatever the pool held in the messages. -/
structure Initial (maxMsgs : Nat) (s : State Tid Hid) : Prop where
  maxMsgs_eq : s.maxMsgs = maxMsgs
  maxMsgs_lt : maxMsgs < 0x10000
  pool : ∃ next, (s.next, s.msgQueueFree) = initFree next maxMsgs
  head_eq : s.msgQueueHead = none
  tail_eq : s.msgQueueTail = none
  entry_eq : s.entry = 0
  noCalls : ∀ t, s.call t = none
  emptyHands : ∀ caller, s.hand caller = none
  linked_eq : s.linked = 0
  delivered_eq : s.delivered = []
  dropped_eq : s.dropped = []

def system (maxMsgs : Nat) : TransitionSystem (State Tid Hid) (Event Tid Hid) :=
  TransitionSystem.ofFunction (Initial maxMsgs) step

inductive Place (Tid : Type u) (Hid : Type v) where
  | outside
  | free
  | queued
  | inHand (caller : Caller Tid Hid)

/-- `first` may be delivered ahead of `second`: normal messages keep the order in which
they were linked, and an urgent one goes ahead of all linked earlier that are still there. -/
def Precedes (first second : Letter) : Prop :=
  (first.urgent = false → second.urgent = false → first.serial < second.serial) ∧
    (second.urgent = true → first.serial < second.serial →
      ∃ moment, first.leftAt = some moment ∧ moment ≤ second.serial)

structure SlotsConserved (s : State Tid Hid) (p : Nat → Place Tid Hid)
    (free messages : List Nat) : Prop where
  pool : ∀ slot, slot < s.maxMsgs ↔ p slot ≠ .outside
  free_iff : ∀ slot, slot ∈ free ↔ p slot = .free
  queued_iff : ∀ slot, slot ∈ messages ↔ p slot = .queued
  hand_iff : ∀ caller slot, (s.hand caller).map Hand.slot = some slot ↔
    p slot = .inHand caller
  free_nodup : free.Nodup
  messages_nodup : messages.Nodup
  free_chain : Chain s.next s.msgQueueFree free
  messages_chain : Chain s.next s.msgQueueHead messages
  tail_eq : s.msgQueueTail = messages.getLast?
  entry_eq : s.entry = messages.length

structure MessagesConserved (s : State Tid Hid) (messages : List Nat) : Prop where
  complete : ((s.delivered ++ s.dropped ++ messages.map s.letter).map
    Letter.serial).Perm (List.range s.linked)
  inOrder : (s.delivered ++ messages.map s.letter).Pairwise Precedes
  intact : ∀ slot ∈ messages, (s.data slot).take (s.letter slot).body.length = (s.letter slot).body
  received : ∀ caller slot size copied, s.hand caller = some (.receiving slot size copied) →
      (∃ moment, { s.letter slot with leftAt := some moment } ∈ s.delivered) ∧
      (s.data slot).take (s.letter slot).body.length = (s.letter slot).body

def Conserved (s : State Tid Hid) : Prop :=
  ∃ p free messages, SlotsConserved s p free messages ∧ MessagesConserved s messages

end RtThread.MessageQueue
