import RtThread.Ipc.Event

/-!
# The operations of OneNET

`nb_onenet_open`, `nb_onenet_update_time`, `nb_onenet_notify_with_ack` and `nb_onenet_close` wait
for bits of one event object, which the callbacks of the platform send.  Only the thread of the
operation receives, so that the object is a set of bits and at most one waiter.
-/

open TransitionSystem

namespace RtThread.OnenetOperations

open EventObject (received clear eventFlagAnd eventFlagOr eventFlagClear)

def eventBootstrapFail : BitVec 32 := 1 <<< 1
def eventConnectFail : BitVec 32 := 1 <<< 2
def eventRegSuccess : BitVec 32 := 1 <<< 3
def eventRegFail : BitVec 32 := 1 <<< 4
def eventRegTimeout : BitVec 32 := 1 <<< 5
def eventLifetimeTimeout : BitVec 32 := 1 <<< 6
def eventUpdateSuccess : BitVec 32 := 1 <<< 7
def eventUpdateFail : BitVec 32 := 1 <<< 8
def eventUpdateTimeout : BitVec 32 := 1 <<< 9
def eventUnregDone : BitVec 32 := 1 <<< 11
def eventNotifyFail : BitVec 32 := 1 <<< 14
def eventNotifySuccess : BitVec 32 := 1 <<< 15
def eventObserverSuccess : BitVec 32 := 1 <<< 16
def eventDiscoverSuccess : BitVec 32 := 1 <<< 17

/-- `enum nb_onenet_status_type`, as far as it is tested. -/
inductive Status where
  | init
  | run
  | failure
  | success
deriving DecidableEq

inductive Delivery where
  | event (id : Int)
  | observed
  | discovered
deriving DecidableEq

inductive Kind where
  | nbOnenetOpen
  | nbOnenetUpdateTime
  | nbOnenetNotifyWithAck
  | nbOnenetClose
deriving DecidableEq

/-- The calls of `rt_event_recv`; only `nb_onenet_open` makes more than one. -/
inductive Wait where
  | first
  | observer
  | discover
deriving DecidableEq

inductive Phase where
  | entered
  | submitted
  | calling (wait : Wait)
  | blocked (wait : Wait)
  | got (wait : Wait) (status : Option (BitVec 32))
deriving DecidableEq

/-- An operation, with what has been delivered since it was submitted, newest first. -/
structure Operation where
  kind : Kind
  phase : Phase
  delivered : List Delivery
deriving DecidableEq

/-- The event object, the fields of `onenet_device_table` that are tested, and the operation. -/
structure State where
  eventSet : BitVec 32
  eventStatus : Status
  discoverStatus : Status
  /-- `close_status` is `nb_onenet_status_close_start`. -/
  closing : Bool
  objcount : Int
  observercount : Int
  discovercount : Int
  operation : Option Operation

def Kind.mask : Kind → Wait → BitVec 32
  | .nbOnenetOpen, .first =>
    eventBootstrapFail ||| eventConnectFail ||| eventRegFail ||| eventRegSuccess |||
      eventRegTimeout
  | .nbOnenetUpdateTime, .first =>
    eventLifetimeTimeout ||| eventUpdateFail ||| eventUpdateTimeout ||| eventUpdateSuccess
  | .nbOnenetNotifyWithAck, .first => eventNotifyFail ||| eventNotifySuccess
  | .nbOnenetClose, .first => eventUnregDone
  | _, .observer => eventObserverSuccess
  | _, .discover => eventDiscoverSuccess

def Kind.option : Kind → Wait → BitVec 8
  | .nbOnenetClose, .first => eventFlagAnd ||| eventFlagClear
  | _, .first => eventFlagOr ||| eventFlagClear
  | _, _ => eventFlagAnd ||| eventFlagClear

inductive Verdict where
  | next (wait : Wait)
  | returns (ok : Bool)
deriving DecidableEq

/-- The tests behind a call of `rt_event_recv`. -/
def judge (discoverStatus : Status) : Kind → Wait → Option (BitVec 32) → Verdict
  | .nbOnenetOpen, .first, some status =>
    if status = eventBootstrapFail ∨ status = eventConnectFail ∨ status = eventRegFail then
      .returns false
    else if status = eventRegTimeout then .returns false
    else .next .observer
  | .nbOnenetUpdateTime, .first, some status =>
    if status = eventLifetimeTimeout ∨ status = eventUpdateFail ∨ status = eventUpdateTimeout then
      .returns false
    else .returns true
  | .nbOnenetNotifyWithAck, .first, status =>
    if status.getD 0 = eventNotifyFail then .returns false else .returns true
  | .nbOnenetClose, .first, some _ => .returns true
  | _, .observer, some _ => .next .discover
  | _, .discover, some _ => .returns (discoverStatus = .success)
  | _, _, none => .returns false

/-- `rt_event_send`, with the waiter that it may wake. -/
def send (s : State) (bits : BitVec 32) : State :=
  let set := s.eventSet ||| bits
  match s.operation with
  | some ⟨kind, .blocked wait, delivered⟩ =>
    match received (kind.option wait) (kind.mask wait) set with
    | some status =>
      { s with
        eventSet := clear (kind.option wait) status set
        operation := some ⟨kind, .got wait (some status), delivered⟩ }
    | none => { s with eventSet := set }
  | _ => { s with eventSet := set }

def Operation.note (operation : Operation) (delivery : Delivery) : Operation :=
  if operation.phase = .entered then operation
  else { operation with delivered := delivery :: operation.delivered }

def note (s : State) (delivery : Delivery) : State :=
  { s with operation := s.operation.map (·.note delivery) }

def onenetEventCallback (s : State) (id : Int) : State :=
  match id with
  | 1 | 2 | 4 => { s with eventStatus := .run }
  | 3 => send { s with eventStatus := .failure } eventBootstrapFail
  | 5 => send { s with eventStatus := .failure } eventConnectFail
  | 6 => send { s with eventStatus := .success } eventRegSuccess
  | 7 =>
    if s.eventStatus ≠ .failure then
      send { s with eventStatus := .failure } eventRegFail
    else s
  | 8 => send { s with eventStatus := .failure } eventRegTimeout
  | 11 => send s eventUpdateSuccess
  | 12 => send s eventUpdateFail
  | 13 => send s eventUpdateTimeout
  | 15 => if s.closing then send { s with closing := false } eventUnregDone else s
  | 25 => send s eventNotifyFail
  | 26 => send s eventNotifySuccess
  | _ => s

/-- The counters of `onenet_observer_rsp`, once the platform has been answered. -/
def onenetObserverRsp (s : State) : State :=
  if s.observercount + 1 = s.objcount then
    send (note { s with observercount := 0 } .observed) eventObserverSuccess
  else { s with observercount := s.observercount + 1 }

/-- The counters of `onenet_discover_rsp`, likewise. -/
def onenetDiscoverRsp (s : State) : State :=
  if s.discovercount + 1 = s.objcount then
    send (note { s with discovercount := 0, discoverStatus := .success } .discovered)
      eventDiscoverSuccess
  else { s with discovercount := s.discovercount + 1, discoverStatus := .run }

inductive Event where
  | call (kind : Kind)
  | submit (accepted : Bool)
  | proceed
  | timeout
  | deliver (id : Int)
  | observerRsp
  | discoverRsp
  | recount (objcount : Int)

def callStep (s : State) (kind : Kind) : Option State :=
  match s.operation with
  | some _ => none
  | none =>
    some
      { s with
        closing := s.closing || kind = .nbOnenetClose
        operation := some ⟨kind, .entered, []⟩ }

def submitStep (s : State) (operation : Operation) (accepted : Bool) : Option State :=
  if operation.phase = .entered then
    if accepted then
      some { s with operation := some ⟨operation.kind, .submitted, []⟩ }
    else some { s with operation := none }
  else none

/-- `rt_event_recv`, up to where the thread may have to wait. -/
def recvStep (s : State) (operation : Operation) (wait : Wait) : State :=
  let mask := operation.kind.mask wait
  let option := operation.kind.option wait
  match received option mask s.eventSet with
  | some _ =>
    { s with
      eventSet := clear option mask s.eventSet
      operation := some { operation with phase := .got wait (some (s.eventSet &&& mask)) } }
  | none => { s with operation := some { operation with phase := .blocked wait } }

def proceedStep (s : State) (operation : Operation) : Option State :=
  match operation.phase with
  | .submitted =>
    some
      { s with
        eventStatus := if operation.kind = .nbOnenetOpen then .init else s.eventStatus
        operation := some { operation with phase := .calling .first } }
  | .calling wait => some (recvStep s operation wait)
  | .got wait status =>
    match judge s.discoverStatus operation.kind wait status with
    | .next wait =>
      some { s with operation := some { operation with phase := .calling wait } }
    | .returns _ => some { s with operation := none }
  | _ => none

def timeoutStep (s : State) (operation : Operation) : Option State :=
  match operation.phase with
  | .blocked wait =>
    some { s with operation := some { operation with phase := .got wait none } }
  | _ => none

def step (s : State) : Event → Option State
  | .call kind => callStep s kind
  | .submit accepted => s.operation.bind fun operation => submitStep s operation accepted
  | .proceed => s.operation.bind (proceedStep s)
  | .timeout => s.operation.bind (timeoutStep s)
  | .deliver id => some (onenetEventCallback (note s (.event id)) id)
  | .observerRsp => some (onenetObserverRsp s)
  | .discoverRsp => some (onenetDiscoverRsp s)
  | .recount objcount => some { s with objcount }

/-- `nb_onenet_init_environment`: no bit is set, and no operation runs. -/
def system : TransitionSystem State Event :=
  .ofFunction (fun s => s.eventSet = 0 ∧ s.operation = none) step

end RtThread.OnenetOperations
