import RtThread.Library.TransitionSystem

/-!
# Requests to the RIL library

The getters of `ril_port.c` make their requests under one mutex, wait on one semaphore, and
share one result word, which some of them test behind the mutex and most do not test at all.
The library accepts or refuses a request, and calls `_ri_request_common_cb` once for each
request it has accepted, at any time.
-/

namespace RtThread.Ril

def rtNbMaxApnName : Nat := 32

def rtNbMaxIpaddrLen : Nat := 65

inductive CmdResult where
  | ok
  | generalError
deriving DecidableEq

/-- `local_nb_rssi` and `local_nb_ber`, also `ril_signal_quality_rsp_t`. -/
structure SignalQuality where
  rssi : Int
  ber : Int

structure ExtendedSignalQuality where
  rxlev : Int
  ber : Int
  rscp : Int
  ecno : Int
  rsrq : Int
  rsrp : Int

structure Registration where
  n : Int
  stat : Int
  tac : Int
  ci : Int
  act : Int
  causeType : Int
  rejectCause : Int
  activeTime : Int
  periodicTau : Int

/-- The `cmd_param` of a response, by its `cmd_id`. -/
inductive CmdParam where
  | csq (quality : SignalQuality)
  | cesq (quality : ExtendedSignalQuality)
  | cfun (functionality : Int)
  | cgpaddr (cidAddr : List (Int × List UInt8))
  | cclk (time : List UInt8)
  | cgdcont (pdpContext : List (Nat → UInt8))
  | cereg (registration : Registration)

/-- What the callback is called with: `NULL`, another `res_code`, or `RIL_RESULT_CODE_OK`. -/
inductive Response where
  | null
  | failure
  | success (cmdParam : Option CmdParam)

inductive Getter where
  | csq (out : SignalQuality)
  | cesq (rsp signal : ExtendedSignalQuality)
  | cfun (direction : Nat) (rsp status : Int)
  | cgpaddr (ipAddr : List UInt8)
  | cclk (buffer : List UInt8)
  /-- `name` goes on with what the stack holds behind the array. -/
  | apn (name : Nat → UInt8) (apnName : List UInt8)
  | cereg (rsp cereg : Registration)

def cString (bytes : List UInt8) : List UInt8 := bytes.takeWhile (· ≠ 0)

def rtStrncpy (source : Nat → UInt8) : Nat → List UInt8
  | 0 => []
  | n + 1 =>
    if source 0 = 0 then List.replicate (n + 1) 0
    else source 0 :: rtStrncpy (fun i => source (i + 1)) n

def memcpy (target source : List UInt8) : List UInt8 := source ++ target.drop source.length

def Getter.accepts (inited : Bool) : Getter → Bool
  | .csq _ => inited
  | .cgpaddr ipAddr => rtNbMaxIpaddrLen ≤ ipAddr.length
  | .cclk buffer => 1 ≤ buffer.length
  | .apn _ apnName => 1 ≤ apnName.length
  | _ => true

/-- Only the two directions of `rt_nb_cfun_set_get` make a request. -/
def Getter.requests : Getter → Bool
  | .cfun direction _ _ => direction = 1 || direction = 0
  | _ => true

/-- The switch of `_ri_request_common_cb` in the success case: the globals, what `user_data`
points to, and the result. -/
def cmdParamCb (quality : SignalQuality) : Getter → CmdParam → SignalQuality × Getter × CmdResult
  | .csq out, .csq param => (param, .csq out, .ok)
  | .cesq _ signal, .cesq param => (quality, .cesq param signal, .ok)
  | .cereg _ cereg, .cereg param => (quality, .cereg param cereg, .ok)
  | .cfun direction _ status, .cfun param => (quality, .cfun direction param status, .ok)
  | .apn name apnName, .cgdcont [] => (quality, .apn name apnName, .generalError)
  | .apn name apnName, .cgdcont (context :: _) =>
    (quality, .apn (fun i => if i < rtNbMaxApnName then context i else name i) apnName, .ok)
  | .cgpaddr ipAddr, .cgpaddr cidAddr =>
    match cidAddr.find? fun entry => entry.1 = 1 with
    | some entry => (quality, .cgpaddr (memcpy ipAddr (cString entry.2)), .ok)
    | none => (quality, .cgpaddr ipAddr, .generalError)
  | .cclk buffer, .cclk time =>
    (quality, .cclk (rtStrncpy (fun i => time.getD i 0) buffer.length), .ok)
  | getter, _ => (quality, getter, .ok)

/-- `_ri_request_common_cb` behind its first assignment. -/
def riRequestCommonCb (quality : SignalQuality) (getter : Getter) :
    Response → SignalQuality × Getter × CmdResult
  | .success (some param) => cmdParamCb quality getter param
  | _ => (quality, getter, .generalError)

def Getter.copyOut (quality : SignalQuality) : Getter → Getter
  | .csq _ => .csq quality
  | .cesq rsp _ => .cesq rsp rsp
  | .cfun direction rsp status => .cfun direction rsp (if direction = 0 then rsp else status)
  | .cgpaddr ipAddr => .cgpaddr ipAddr
  | .cclk buffer => .cclk buffer
  | .apn name apnName => .apn name (rtStrncpy name apnName.length)
  | .cereg rsp _ => .cereg rsp rsp

def Getter.tests : Getter → Bool
  | .cgpaddr _ | .cclk _ => true
  | _ => false

inductive Phase where
  | entered
  | locked
  | waiting
  | refused
  | woken
  /-- Behind the mutex; `success` says that the request was accepted. -/
  | leaving (success : Bool)
deriving DecidableEq

inductive Callback where
  | none
  | owed
  | begun (response : Response)
  | done (response : Response)

structure Call where
  getter : Getter
  phase : Phase
  callback : Callback

variable {Tid : Type} [DecidableEq Tid]

structure State (Tid : Type) where
  calls : Tid → Option Call
  /-- The owner of `local_nb_ril_mutex`. -/
  owner : Option Tid
  /-- The value of `local_nb_ril_sync_sem`. -/
  sem : Nat
  inited : Bool
  quality : SignalQuality
  result : CmdResult

inductive Event (Tid : Type) where
  | call (t : Tid) (getter : Getter)
  | take (t : Tid)
  | request (t : Tid) (accepted : Bool)
  | begin (t : Tid) (response : Response)
  | deliver (t : Tid)
  | wake (t : Tid)
  | unlock (t : Tid)
  | ret (t : Tid)

def State.setCall (s : State Tid) (t : Tid) (call : Option Call) : State Tid :=
  { s with calls := Function.update s.calls t call }

@[simp] theorem State.setCall_calls (s : State Tid) (t : Tid) (call : Option Call) :
    (s.setCall t call).calls = Function.update s.calls t call := rfl

def Getter.takes : Getter → CmdParam → Bool
  | .csq _, .csq _ | .cesq _ _, .cesq _ | .cfun _ _ _, .cfun _ | .cgpaddr _, .cgpaddr _
  | .cclk _, .cclk _ | .apn _ _, .cgdcont _ | .cereg _ _, .cereg _ => true
  | _, _ => false

def Getter.expects (getter : Getter) : Response → Bool
  | .success (some param) => getter.takes param
  | _ => true

def callStep (s : State Tid) (t : Tid) (getter : Getter) : Option (State Tid) :=
  match s.calls t with
  | some _ => none
  | none =>
    if getter.accepts s.inited then some (s.setCall t (some ⟨getter, .entered, .none⟩))
    else some s

def takeStep (s : State Tid) (t : Tid) (call : Call) : Option (State Tid) :=
  if call.phase = .entered ∧ s.owner = none then
    some { s.setCall t (some { call with phase := .locked }) with owner := some t }
  else none

/-- A direction that is neither 0 nor 1 leaves `ret` as it is, and the wait has no end. -/
def requestStep (s : State Tid) (t : Tid) (call : Call) (accepted : Bool) :
    Option (State Tid) :=
  if call.phase = .locked then
    if call.getter.requests then
      if accepted then
        some (s.setCall t (some { call with phase := .waiting, callback := .owed }))
      else some (s.setCall t (some { call with phase := .refused }))
    else some (s.setCall t (some { call with phase := .waiting }))
  else none

/-- The first assignment of `_ri_request_common_cb`. -/
def beginStep (s : State Tid) (t : Tid) (call : Call) (response : Response) :
    Option (State Tid) :=
  match call.callback with
  | .owed =>
    if call.getter.expects response then
      some
        { s.setCall t (some { call with callback := .begun response }) with result := .ok }
    else none
  | _ => none

def deliverStep (s : State Tid) (t : Tid) (call : Call) : Option (State Tid) :=
  match call.callback with
  | .begun response =>
    let (quality, getter, result) := riRequestCommonCb s.quality call.getter response
    some
      { s.setCall t (some { call with getter, callback := .done response }) with
        quality, result, sem := s.sem + 1 }
  | _ => none

def wakeStep (s : State Tid) (t : Tid) (call : Call) : Option (State Tid) :=
  if call.phase = .waiting ∧ 0 < s.sem then
    let getter := call.getter.copyOut s.quality
    some { s.setCall t (some { call with getter, phase := .woken }) with sem := s.sem - 1 }
  else none

def unlockStep (s : State Tid) (t : Tid) (call : Call) : Option (State Tid) :=
  match call.phase with
  | .woken =>
    some { s.setCall t (some { call with phase := .leaving true }) with owner := none }
  | .refused =>
    some { s.setCall t (some { call with phase := .leaving false }) with owner := none }
  | _ => none

def retStep (s : State Tid) (t : Tid) (call : Call) : Option (State Tid) :=
  match call.phase with
  | .leaving _ => some (s.setCall t none)
  | _ => none

def step (s : State Tid) : Event Tid → Option (State Tid)
  | .call t getter => callStep s t getter
  | .take t => (s.calls t).bind (takeStep s t)
  | .request t accepted => (s.calls t).bind fun call => requestStep s t call accepted
  | .begin t response => (s.calls t).bind fun call => beginStep s t call response
  | .deliver t => (s.calls t).bind (deliverStep s t)
  | .wake t => (s.calls t).bind (wakeStep s t)
  | .unlock t => (s.calls t).bind (unlockStep s t)
  | .ret t => (s.calls t).bind (retStep s t)

def Initial (s : State Tid) : Prop :=
  (∀ t, s.calls t = none) ∧ s.owner = none ∧ s.sem = 0

def system (Tid : Type) [DecidableEq Tid] : TransitionSystem (State Tid) (Event Tid) :=
  .ofFunction Initial step

def returnsOk (s : State Tid) (call : Call) : Bool :=
  match call.phase with
  | .leaving success => success && (!call.getter.tests || s.result = .ok)
  | _ => false

end RtThread.Ril
