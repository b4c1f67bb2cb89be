import Mathlib.Data.Fintype.Basic
import RtThread.Library.TransitionSystem

/-!
# The channels of the virtual bus

One endpoint: the in thread with the packets of channel 0, and any number of threads in
`rt_vbus_request_chn` and `rt_vbus_close_chn`.  Each step writes one shared variable at most, so
that a thread may be interrupted between any two of them.  A post on channel 0 ends when it
will, with either result.  `held` is an account: the channels whose number a request has
returned and that have been open since.
-/

open Function (update)

namespace RtThread.Vbus

universe u

def channelNr : Nat := 32

inductive ChnStatus where
  | available
  | closed
  | establishing
  | established
  | suspend
  | closing
deriving DecidableEq

def ChnStatus.connected : ChnStatus → Bool
  | .established | .suspend => true
  | _ => false

inductive SessStatus where
  | available
  | listening
  | establishing
deriving DecidableEq

structure Request where
  name : List UInt8
  isServer : Bool

/-- `struct rt_vbus_conn_session`; `done` is the flag of its completion. -/
structure Session where
  chnr : Int
  st : SessStatus
  done : Bool
  req : Option Request

inductive Actor where
  | idle
  | answer
  /-- It posts `SET`, and then takes the session and the channel. -/
  | enable (i chnr : Nat)
  | takeSession (i chnr : Nat)
  | takeNumber (i chnr : Nat)
  /-- It posts the `ACK` of a `SET`, and then assigns the channel to the session. -/
  | ackSet (i chnr : Nat)
  | assign (i chnr : Nat)
  | establish (i chnr : Nat)
  | refuse (i : Nat)
  | complete (i : Nat)
  /-- It closes the channel, and then posts the `ACK`. -/
  | disable (chnr : Nat)
  | write (chnr : Nat) (status : ChnStatus)
deriving DecidableEq

inductive Failure where
  | error
  | etimeout
deriving DecidableEq

def Failure.code : Failure → Int
  | .error => -1
  | .etimeout => -2

inductive Call where
  | none
  /-- `rt_vbus_request_chn`, in the post of `ENABLE`. -/
  | posting (i : Nat)
  | waiting (i : Nat)
  | failed (i : Nat) (err : Failure)
  /-- In front of `_chn_status[_sess[i].chnr] = RT_VBUS_CHN_ST_AVAILABLE`. -/
  | freeing (i : Nat) (chnr : Int) (err : Failure)
  | woken (i : Nat)
  | detaching (i : Nat) (chnr : Int)
  | clearing (i : Nat) (chnr : Int)
  /-- `rt_vbus_close_chn` -/
  | close (chnr : Nat)
  | closeFree (chnr : Nat)
  | closeSend (chnr : Nat)
  | closeWait (chnr : Nat)
deriving DecidableEq

structure State (Tid : Type u) where
  chnStatus : Nat → ChnStatus
  sess : Nat → Session
  actor : Actor
  call : Tid → Call
  /-- `_chn_status` has been indexed within its bounds. -/
  inBounds : Bool
  held : Nat → Bool

inductive Event (Tid : Type u) where
  | receive (id : UInt8) (dp : List UInt8) (size : Nat)
  | act (posted : Bool)
  | request (t : Tid) (req : Request) (allocated : Bool)
  | posted (t : Tid) (succeeded : Bool)
  | expire (t : Tid)
  | proceed (t : Tid)
  | close (t : Tid) (chnr : UInt8)

def byteAt (dp : List UInt8) (offset : Nat) : UInt8 := dp.getD offset 0

def stringAt (dp : List UInt8) (offset : Nat) : List UInt8 := (dp.drop offset).takeWhile (· ≠ 0)

namespace State

variable {Tid : Type u} (s : State Tid)

/-- The loop of `_sess_find` over the slots from `i` on.  It has no result where it reads the name
of no request. -/
def sessFindFrom (name : List UInt8) (st : SessStatus) : (slots i : Nat) → Option (Option Nat)
  | 0, _ => some none
  | slots + 1, i =>
    if (s.sess i).st = st then
      match (s.sess i).req with
      | none => none
      | some req => if req.name = name then some (some i) else sessFindFrom name st slots (i + 1)
    else sessFindFrom name st slots (i + 1)

def sessFind (name : List UInt8) (st : SessStatus) : Option (Option Nat) :=
  s.sessFindFrom name st (channelNr / 2) 0

def firstAvailable : Option Nat :=
  (List.range channelNr).find? fun chnr => s.chnStatus chnr = .available

def isChannel (chnr : Nat) : Bool := chnr ≠ 0 && chnr < channelNr

/-- `_chn0_actor`, up to its first write or post.  It has no result where an assertion fails. -/
def chn0Actor (dp : List UInt8) : Option Actor :=
  match (byteAt dp 0).toNat with
  | 0 =>  -- RT_VBUS_CHN0_CMD_ENABLE
      (s.sessFind (stringAt dp 1) .listening).bind fun
        | none => some .answer
        | some i =>
          match s.firstAvailable with
          | none => some .answer
          | some chnr => if chnr = 0 then none else some (.enable i chnr)
  | 1 =>  -- RT_VBUS_CHN0_CMD_DISABLE
      let chnr := (byteAt dp 1).toNat
      some (if isChannel chnr then .disable chnr else .idle)
  | 2 =>  -- RT_VBUS_CHN0_CMD_SET
      (s.sessFind (stringAt dp 1) .establishing).bind fun
        | none => some .idle
        | some i =>
          let chnr := (byteAt dp (1 + (stringAt dp 1).length + 1)).toNat
          some (if isChannel chnr then
              if s.chnStatus chnr = .available then .ackSet i chnr else .answer
            else .idle)
  | 3 =>  -- RT_VBUS_CHN0_CMD_ACK
      match (byteAt dp 1).toNat with
      | 2 =>
        (s.sessFind (stringAt dp 2) .establishing).bind fun
          | none => some .idle
          | some i =>
            some (.assign i (byteAt dp (1 + (stringAt dp 2).length + 2)).toNat)
      | 1 =>
        let chnr := (byteAt dp 2).toNat
        some (if isChannel chnr then .write chnr .available else .idle)
      | _ => some .idle
  | 4 =>  -- RT_VBUS_CHN0_CMD_NAK
      if byteAt dp 1 = 0 then
        (s.sessFind (stringAt dp 2) .establishing).bind fun
          | none => some .idle
          | some i => some (.refuse i)
      else some .idle
  | 5 =>  -- RT_VBUS_CHN0_CMD_SUSPEND
      let chnr := (byteAt dp 1).toNat
      some (if isChannel chnr && s.chnStatus chnr = .established then .write chnr .suspend
        else .idle)
  | 6 =>  -- RT_VBUS_CHN0_CMD_RESUME
      let chnr := (byteAt dp 1).toNat
      some (if isChannel chnr && s.chnStatus chnr = .suspend then .write chnr .established
        else .idle)
  | _ => some .idle

/-- What `_bus_in_entry` does with a packet, where its number is within `_chn_status`. -/
def busIn (id : Nat) (dp : List UInt8) (size : Nat) : Option Actor :=
  if (s.chnStatus id).connected ∧ id = 0 ∧ size ≤ 60 then s.chn0Actor dp else some .idle

def setStatus (chnr : Int) (status : ChnStatus) : State Tid :=
  if 0 ≤ chnr ∧ chnr < channelNr then
    { s with
      chnStatus := update s.chnStatus chnr.toNat status
      held := update s.held chnr.toNat (s.held chnr.toNat && status.connected) }
  else { s with inBounds := false }

def setSess (i : Nat) (session : Session) : State Tid :=
  { s with sess := update s.sess i session }

def setActor (actor : Actor) : State Tid := { s with actor }

def act (posted : Bool) : Option (State Tid) :=
  match s.actor with
  | .idle => none
  | .answer => some (s.setActor .idle)
  | .enable i chnr => some (s.setActor (if posted then .takeSession i chnr else .idle))
  | .takeSession i chnr =>
    some ((s.setSess i { s.sess i with st := .establishing }).setActor
      (.takeNumber i chnr))
  | .takeNumber i chnr =>
    some ((s.setSess i { s.sess i with chnr }).setActor (.write chnr .establishing))
  | .ackSet i chnr => some (s.setActor (if posted then .assign i chnr else .idle))
  | .assign i chnr =>
    some ((s.setSess i { s.sess i with chnr }).setActor (.establish i chnr))
  | .establish i chnr => some ((s.setStatus chnr .established).setActor (.complete i))
  | .refuse i => some ((s.setSess i { s.sess i with chnr := -8 }).setActor (.complete i))
  | .complete i => some ((s.setSess i { s.sess i with done := true }).setActor .idle)
  | .disable chnr => some ((s.setStatus chnr .closing).setActor .answer)
  | .write chnr status => some ((s.setStatus chnr status).setActor .idle)

def freeSlot : Option Nat :=
  (List.range (channelNr / 2)).find? fun i => (s.sess i).st = .available

variable [DecidableEq Tid]

def setCall (t : Tid) (call : Call) : State Tid :=
  { s with call := update s.call t call }

/-- `rt_vbus_request_chn`, up to the post of a client or the wait of a server. -/
def requestChn (t : Tid) (req : Request) (allocated : Bool) : State Tid :=
  match s.freeSlot with
  | none => s
  | some i =>
    let session := { s.sess i with done := false, req := some req }
    if req.isServer then
      (s.setSess i { session with st := .listening }).setCall t (.waiting i)
    else if allocated then
      (s.setSess i { session with st := .establishing }).setCall t (.posting i)
    else s.setSess i session

/-- A thread goes on, other than with a post. -/
def proceed (t : Tid) : Option (State Tid) :=
  match s.call t with
  | .none | .posting _ => none
  | .waiting i =>
    if (s.sess i).done then
      some ((s.setSess i { s.sess i with done := false }).setCall t (.woken i))
    else none
  | .failed i err =>
    some (s.setCall t
      (if (s.sess i).st = .establishing then .freeing i (s.sess i).chnr err
      else .detaching i err.code))
  | .freeing i chnr err =>
    some ((s.setStatus chnr .available).setCall t (.detaching i err.code))
  | .woken i =>
    if (s.sess i).chnr = 0 then none
    else some (s.setCall t (.detaching i (s.sess i).chnr))
  | .detaching i chnr =>
    some ((s.setSess i { s.sess i with st := .available }).setCall t (.clearing i chnr))
  | .clearing i chnr =>
    let cleared := (s.setSess i { s.sess i with req := none }).setCall t .none
    some (if 0 < chnr then
        { cleared with
          held := update s.held chnr.toNat (s.chnStatus chnr.toNat).connected }
      else cleared)
  | .close chnr =>
    some (s.setCall t
      (if s.chnStatus chnr = .closed ∨ s.chnStatus chnr = .closing then .closeFree chnr
      else if (s.chnStatus chnr).connected then .closeSend chnr
      else .none))
  | .closeFree chnr => some ((s.setStatus chnr .available).setCall t .none)
  | .closeSend chnr => some ((s.setStatus chnr .closing).setCall t (.closeWait chnr))
  | .closeWait _ => some (s.setCall t .none)

def step : Event Tid → Option (State Tid)
  | .receive id dp size =>
    if s.actor = .idle then
      if id.toNat = channelNr then some { s with inBounds := false }
      else if channelNr < id.toNat then some s
      else (s.busIn id.toNat dp size).map s.setActor
    else none
  | .act posted => s.act posted
  | .request t req allocated =>
    if s.call t = .none then some (s.requestChn t req allocated) else none
  | .posted t succeeded =>
    match s.call t with
    | .posting i => some (s.setCall t (if succeeded then .waiting i else .failed i .error))
    | _ => none
  | .expire t =>
    match s.call t with
    | .waiting i =>
      if (s.sess i).done then none else some (s.setCall t (.failed i .etimeout))
    | _ => none
  | .proceed t => s.proceed t
  | .close t chnr =>
    if s.call t = .none ∧ isChannel chnr.toNat then
      some (s.setCall t (.close chnr.toNat))
    else none

omit [DecidableEq Tid] in
def Initial : Prop :=
  s.chnStatus = (fun chnr => if chnr = 0 then .established else .available) ∧
    s.sess = (fun _ => ⟨0, .available, false, none⟩) ∧ s.actor = .idle ∧
    s.call = (fun _ => .none) ∧ s.inBounds = true ∧ s.held = fun _ => false

def system : TransitionSystem (State Tid) (Event Tid) := .ofFunction Initial fun s => s.step

omit [DecidableEq Tid] in
/-- A step of the handshake that closes the channel: a `DISABLE` of it has come, or a call
closes it. -/
def Closes (chnr : Nat) : Event Tid → Prop
  | .act _ => s.actor = .disable chnr
  | .proceed t => s.call t = .closeFree chnr ∨ s.call t = .closeSend chnr
  | _ => False

omit [DecidableEq Tid] in
def Returns (chnr : Nat) : Event Tid → Prop
  | .proceed t => ∃ i, s.call t = .clearing i chnr ∧ 0 < chnr
  | _ => False

end State

section

open TransitionSystem

/-- A step within the bounds, which leaves channel 0 established, closes a channel only by its own
handshake, and returns no number that is open in another session. -/
structure Lawful {Tid : Type u} [DecidableEq Tid] (taken : Taken (State Tid) (Event Tid)) :
    Prop where
  inBounds : taken.after.inBounds = true
  channel0 : taken.after.chnStatus 0 = .established
  closed : ∀ chnr, (taken.before.chnStatus chnr).connected = true →
    (taken.after.chnStatus chnr).connected = false → taken.before.Closes chnr taken.event
  returned : ∀ chnr, taken.before.Returns chnr taken.event → taken.before.held chnr = false

end

namespace State

variable {Tid : Type u} (s : State Tid)

def Owes (t : Tid) (chnr : Nat) : Prop :=
  match s.call t with
  | .posting i | .waiting i => (s.sess i).done = true ∧ (s.sess i).chnr = chnr
  | .woken i => (s.sess i).chnr = chnr
  | .detaching _ returned | .clearing _ returned => returned = chnr
  | _ => False

instance (t : Tid) (chnr : Nat) : Decidable (s.Owes t chnr) := by
  unfold Owes
  split <;> infer_instance

def Pending (i : Nat) : Prop := (s.sess i).done = false ∧ ∀ t, s.call t ≠ .woken i

def Fresh (chnr : Nat) : Prop := s.held chnr = false ∧ ∀ t, ¬ s.Owes t chnr

/-- What a packet may make the in thread do: a session that takes a number has not been completed,
and the number is a channel of no other session; and an `ACK` of `DISABLE` is for a channel that
is not connected. -/
def Admissible : Actor → Prop
  | .enable i _ => s.Pending i
  | .ackSet i chnr => s.Pending i ∧ s.Fresh chnr
  | .assign i chnr =>
    s.Pending i ∧ s.Fresh chnr ∧ isChannel chnr = true
  | .write chnr .available => (s.chnStatus chnr).connected = false
  | _ => True

/-- The condition on a step: packets are of a channel or beyond them all, and admissible; and a
request that fails frees a channel that is not connected. -/
def Sound : Event Tid → Prop
  | .receive id dp size => id.toNat ≠ channelNr ∧
      ∀ actor ∈ s.busIn id.toNat dp size, s.Admissible actor
  | .proceed t =>
    match s.call t with
    | .freeing _ chnr _ => 0 ≤ chnr ∧ chnr < channelNr ∧
        (s.chnStatus chnr.toNat).connected = false
    | _ => True
  | _ => True

instance [Fintype Tid] (i : Nat) : Decidable (s.Pending i) := instDecidableAnd

instance [Fintype Tid] (chnr : Nat) : Decidable (s.Fresh chnr) := instDecidableAnd

instance [Fintype Tid] (actor : Actor) : Decidable (s.Admissible actor) := by
  unfold Admissible
  split <;> infer_instance

instance [Fintype Tid] (e : Event Tid) : Decidable (s.Sound e) := by
  unfold Sound
  split
  · infer_instance
  · split <;> infer_instance
  · infer_instance

end State

end RtThread.Vbus
