import RtThread.Kernel.Services
import RtThread.Library.CircularBuffer
import RtThread.Library.Counting
import RtThread.Library.TransitionSystem

/-!
# Mailboxes

`rt_mb_send_wait`, `rt_mb_send` and `rt_mb_recv` on one mailbox.  Both functions loop:
a thread that was woken looks at the mailbox again, and another one may have been
there first, so a wake-up is no hand-over.  Each turn of a loop runs with interrupts
disabled and is one step; a suspended call remembers its arguments, the remaining
`timeout` among them.
-/

namespace RtThread.Mailbox

universe u v

/-- The two lists of a mailbox: `parent.suspend_thread` and `suspend_sender_thread`. -/
inductive Side where
  | recv
  | send
  deriving DecidableEq

/-- The arguments of a suspended call, with `tick_delta`. -/
structure Call (Mail : Type v) where
  /-- `value`, for a sender. -/
  mail : Option Mail
  timeout : BitVec 32
  tickDelta : BitVec 32

/-- `struct rt_mailbox`, with the threads that use it and the tick. -/
structure State (Tid : Type u) (Mail : Type v) where
  kernel : Kernel Tid Side
  msgPool : Nat → Mail
  size : Nat
  entry : Nat
  inOffset : Nat
  outOffset : Nat
  flag : IpcFlag
  tick : BitVec 32
  call : Tid → Option (Call Mail)

/-- What a step has come to: a call that returns, one that suspends, or neither. -/
inductive Outcome (Mail : Type v) where
  | sent (mail : Mail)
  | received (mail : Mail)
  | failed (code : RtErr)
  | blocked
  | silent

/-- The caller is a thread, or `none` for an interrupt handler. -/
inductive Event (Tid : Type u) (Mail : Type v) where
  | sendWait (caller : Option Tid) (value : Mail) (timeout : BitVec 32)
  | send (caller : Option Tid) (value : Mail)
  | recv (caller : Option Tid) (timeout : BitVec 32)
  | resumed (t : Tid)
  | timeout (t : Tid)
  | tick

variable {Tid : Type u} {Mail : Type v} [DecidableEq Tid]

namespace State

def waiters (s : State Tid Mail) (side : Side) : List Tid := s.kernel.queue (.wait side)

def Running (s : State Tid Mail) : Option Tid → Prop
  | none => True
  | some t => (s.kernel.thread t).stat = .ready ∧ (s.call t).isNone

instance (s : State Tid Mail) : (caller : Option Tid) → Decidable (s.Running caller)
  | none => .isTrue trivial
  | some _ => instDecidableAnd

def leave (s : State Tid Mail) (caller : Option Tid) : State Tid Mail :=
  match caller with
  | none => s
  | some t => { s with call := Function.update s.call t none }

end State

/-- `++ offset; if (offset >= size) offset = 0;`, for an `rt_uint16_t`. -/
def bump (size offset : Nat) : Nat :=
  let next := (offset + 1) % 0x10000
  if size ≤ next then 0 else next

/-- The end of `rt_mb_send_wait`, from "set ptr" on. -/
def putMail (s : State Tid Mail) (value : Mail) : State Tid Mail :=
  let s :=
    { s with
      msgPool := Function.update s.msgPool s.inOffset value
      inOffset := bump s.size s.inOffset
      entry := (s.entry + 1) % 0x10000 }
  if s.waiters .recv ≠ [] then { s with kernel := s.kernel.rtIpcListResume .recv }
  else s

/-- The end of `rt_mb_recv`, from "fill ptr" on. -/
def fetchMail (s : State Tid Mail) : State Tid Mail × Mail :=
  let mail := s.msgPool s.outOffset
  let s :=
    { s with
      outOffset := bump s.size s.outOffset
      entry := s.entry - 1 }
  if s.waiters .send ≠ [] then
    ({ s with kernel := s.kernel.rtIpcListResume .send }, mail)
  else (s, mail)

def suspendIn (s : State Tid Mail) (side : Side) (t : Tid) (mail : Option Mail)
    (timeout : BitVec 32) : State Tid Mail :=
  let call :=
    { mail
      timeout
      tickDelta := if 0 < timeout.toInt then s.tick else 0 }
  { s with
    kernel := s.kernel.blockOn side t s.flag timeout.toInt
    call := Function.update s.call t (some call) }

/-- The `while` loop of `rt_mb_send_wait`, entered with interrupts disabled, up to its
end or to `rt_schedule`.  `RT_DEBUG_IN_THREAD_CONTEXT` stops a handler that would block. -/
def sendLoop (s : State Tid Mail) (caller : Option Tid) (value : Mail)
    (timeout : BitVec 32) : Option (State Tid Mail × Outcome Mail) :=
  if s.entry = s.size then
    match caller with
    | none => none
    | some t =>
      if timeout = 0 then
        some ({ s with kernel := s.kernel.setError t .eok }.leave caller, .failed .efull)
      else some (suspendIn s .send t (some value) timeout, .blocked)
  else some ((putMail s value).leave caller, .sent value)

def rtMbSendWait (s : State Tid Mail) (caller : Option Tid) (value : Mail)
    (timeout : BitVec 32) : Option (State Tid Mail × Outcome Mail) :=
  if s.entry = s.size ∧ timeout = 0 then some (s, .failed .efull)
  else sendLoop s caller value timeout

def rtMbSend (s : State Tid Mail) (caller : Option Tid) (value : Mail) :
    Option (State Tid Mail × Outcome Mail) :=
  rtMbSendWait s caller value 0

def recvLoop (s : State Tid Mail) (caller : Option Tid) (timeout : BitVec 32) :
    Option (State Tid Mail × Outcome Mail) :=
  if s.entry = 0 then
    match caller with
    | none => none
    | some t =>
      if timeout = 0 then
        let kernel := (s.kernel.setError t .eok).setError t .etimeout
        some ({ s with kernel := kernel }.leave caller, .failed .etimeout)
      else some (suspendIn s .recv t none timeout, .blocked)
  else
    let (s, mail) := fetchMail s
    some (s.leave caller, .received mail)

def rtMbRecv (s : State Tid Mail) (caller : Option Tid) (timeout : BitVec 32) :
    Option (State Tid Mail × Outcome Mail) :=
  if s.entry = 0 ∧ timeout = 0 then some (s, .failed .etimeout)
  else recvLoop s caller timeout

def callResumed (s : State Tid Mail) (t : Tid) (call : Call Mail) :
    Option (State Tid Mail × Outcome Mail) :=
  let thread := s.kernel.thread t
  if thread.error ≠ .eok then some (s.leave (some t), .failed thread.error)
  else
    let timeout := remaining call.timeout call.tickDelta s.tick
    match call.mail with
    | some value => sendLoop s (some t) value timeout
    | none => recvLoop s (some t) timeout

def step (s : State Tid Mail) : Event Tid Mail → Option (State Tid Mail × Outcome Mail)
  | .sendWait caller value timeout =>
    if s.Running caller then rtMbSendWait s caller value timeout else none
  | .send caller value => if s.Running caller then rtMbSend s caller value else none
  | .recv caller timeout =>
    if s.Running caller then rtMbRecv s caller timeout else none
  | .resumed t =>
    match s.call t with
    | some call => if (s.kernel.thread t).stat = .ready then callResumed s t call else none
    | none => none
  | .timeout t =>
    if (s.kernel.thread t).stat = .suspend ∧ (s.kernel.thread t).timer then
      some ({ s with kernel := s.kernel.rtThreadTimeout t }, .silent)
    else none
  | .tick => some ({ s with tick := s.tick + 1 }, .silent)

/-- After `rt_mb_init` with a size that is positive as an `rt_uint16_t`. -/
structure Initial (size : Nat) (s : State Tid Mail) : Prop where
  wellFormed : s.kernel.WellFormed
  noWaiters : ∀ side, s.waiters side = []
  noCalls : ∀ t, s.call t = none
  size_eq : s.size = size
  size_pos : 0 < size
  size_lt : size < 0x10000
  entry_eq : s.entry = 0
  inOffset_eq : s.inOffset = 0
  outOffset_eq : s.outOffset = 0

/-- One mailbox and the threads and handlers that use it; a step is labelled with what
it has come to. -/
def system (size : Nat) : TransitionSystem (State Tid Mail) (Event Tid Mail × Outcome Mail) where
  initial := Initial size
  step s label after := step s label.1 = some (after, label.2)

def State.stored (s : State Tid Mail) : List Mail :=
  CircularBuffer.contents s.msgPool s.size s.outOffset s.entry

/-- A queue of at most `size` mails: what a step of each outcome does to it. -/
def QueueStep (size : Nat) (before : List Mail) (outcome : Outcome Mail) (after : List Mail) :
    Prop :=
  match outcome with
  | .sent mail => before.length < size ∧ after = before ++ [mail]
  | .received mail => before = mail :: after
  | _ => after = before

/-- The mails whose send has returned `RT_EOK`, in order. -/
def sentMails : List (TransitionSystem.Taken (State Tid Mail) (Event Tid Mail × Outcome Mail)) →
    List Mail
  | [] => []
  | step :: earlier =>
    match step.event.2 with
    | .sent mail => sentMails earlier ++ [mail]
    | _ => sentMails earlier

def receivedMails : List (TransitionSystem.Taken (State Tid Mail) (Event Tid Mail × Outcome Mail)) →
    List Mail
  | [] => []
  | step :: earlier =>
    match step.event.2 with
    | .received mail => receivedMails earlier ++ [mail]
    | _ => receivedMails earlier

def Call.side (call : Call Mail) : Side := if call.mail.isSome then .send else .recv

def State.woken (s : State Tid Mail) (side : Side) (t : Tid) : Bool :=
  (s.call t).any (fun call => call.side = side) &&
    decide ((s.kernel.thread t).stat = .ready) && decide ((s.kernel.thread t).error = .eok)

def State.available (s : State Tid Mail) : Side → Nat
  | .recv => s.entry
  | .send => s.size - s.entry

structure IsBoundedFifo [Fintype Tid] (size : Nat)
    (taken : List (TransitionSystem.Taken (State Tid Mail) (Event Tid Mail × Outcome Mail)))
    (last : State Tid Mail) : Prop where
  inOffset_eq : last.inOffset = (last.outOffset + last.entry) % last.size
  stored_le : last.stored.length ≤ size
  inOrder : sentMails taken = receivedMails taken ++ last.stored
  steps : ∀ step ∈ taken, QueueStep size step.before.stored step.event.2 step.after.stored
  noSleepingReceiver : last.waiters .recv ≠ [] → last.entry ≤ countOf (last.woken .recv)
  noSleepingSender : last.waiters .send ≠ [] →
    last.size - last.entry ≤ countOf (last.woken .send)

end RtThread.Mailbox
