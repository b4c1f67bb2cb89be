import RtThread.Library.TransitionSystem

/-!
# The object table of OneNET

`onenet_stream_table` and the counters of `onenet_device_table`: streams are put into the first
free slot and cleared in place, and the requests of the platform look for a stream in the first
`dev_len` slots.
-/

namespace RtThread.OnenetTable

def nbOnenetObjectMaxNum : Nat := 10

/-- `struct onenet_stream`, as far as it is compared. -/
structure OnenetStream where
  objid : Int
  insid : Int
  resid : Int
  userStatus : Bool
deriving DecidableEq

def cleared : OnenetStream := ⟨0, 0, 0, false⟩

structure Onenet where
  streamTable : List OnenetStream
  devLen : Int
  objcount : Int
  inscount : Int

def Onenet.slot (onenet : Onenet) (i : Nat) : OnenetStream := onenet.streamTable.getD i cleared

/-- `nb_onenet_init_environment`, as far as the table goes. -/
def nbOnenetInitEnvironment : Onenet where
  streamTable := List.replicate nbOnenetObjectMaxNum cleared
  devLen := 0
  objcount := 0
  inscount := 0

/-- `nb_onenet_object_init`: the index of the stream, unless all slots are in use. -/
def nbOnenetObjectInit (onenet : Onenet) (objid insid resid : Int) : Onenet × Option Nat :=
  match onenet.streamTable.findIdx? fun stream => !stream.userStatus with
  | none => (onenet, none)
  | some num =>
    ({ onenet with
       streamTable := onenet.streamTable.set num ⟨objid, insid, resid, true⟩
       devLen := onenet.devLen + 1 },
    some num)

/-- The inner loops of `onenet_create_object` and `onenet_discover_rsp`: `status` keeps its
value if nothing has been stored. -/
def unlike (value : Int) (status : Bool) : List Int → Bool
  | [] => status
  | stored :: rest => if stored ≠ value then unlike value true rest else false

def createFrom : Bool → List Int → List OnenetStream → List Int
  | _, str, [] => str
  | status, str, stream :: rest =>
    if stream.userStatus then
      if unlike stream.objid status str then createFrom true (str ++ [stream.objid]) rest
      else createFrom false str rest
    else createFrom status str rest

def onenetCreateObject (onenet : Onenet) : Onenet :=
  let str := createFrom true [] onenet.streamTable
  { onenet with
    objcount := str.length
    inscount := if str.isEmpty then onenet.inscount else onenet.devLen }

/-- One iteration of `nb_onenet_delete_object`; the id is read through the pointer. -/
def deleteStep (stream : Nat) (onenet : Onenet) (i : Nat) : Onenet :=
  if (onenet.slot i).objid = (onenet.slot stream).objid then
    { onenet with
      streamTable := onenet.streamTable.set i cleared
      devLen := onenet.devLen - 1
      objcount := onenet.objcount - 1 }
  else onenet

def nbOnenetDeleteObject (onenet : Onenet) (stream : Nat) : Onenet :=
  (List.range nbOnenetObjectMaxNum).foldl (deleteStep stream) onenet

def Onenet.scanned (onenet : Onenet) : List Nat := List.range onenet.devLen.toNat

def Onenet.isResource (onenet : Onenet) (objid insid resid : Int) (i : Nat) : Bool :=
  (onenet.slot i).objid = objid && (onenet.slot i).insid = insid && (onenet.slot i).resid = resid

/-- `onenet_read_rsp`: the streams whose `read_status` is set to 10. -/
def onenetReadRsp (onenet : Onenet) (objid insid resid : Int) : List Nat :=
  if insid = -1 ∧ resid = -1 then
    onenet.scanned.filter fun i => (onenet.slot i).objid = objid
  else if resid = -1 then
    onenet.scanned.filter fun i => (onenet.slot i).objid = objid && (onenet.slot i).insid = insid
  else (onenet.scanned.find? (onenet.isResource objid insid resid)).toList

/-- `onenet_write_rsp`: the stream whose `write_status` is 10 while the callback runs. -/
def onenetWriteRsp (onenet : Onenet) (objid insid resid : Int) : Option Nat :=
  onenet.scanned.find? (onenet.isResource objid insid resid)

/-- `onenet_execute_rsp`: the stream whose `exec_status` is 10 while the callback runs. -/
def onenetExecuteRsp (onenet : Onenet) (objid insid resid : Int) : Option Nat :=
  onenet.scanned.find? (onenet.isResource objid insid resid)

/-- How many integers the `NB_ONENET_OBJECT_MAX_NUM` bytes of `str_res` hold. -/
def strResRoom : Nat := nbOnenetObjectMaxNum / 4

/-- The first loop of `onenet_discover_rsp`, which compares stored indices with a resource id;
`none` if it writes behind `str_res`. -/
def discoverFrom (onenet : Onenet) (objid : Int) : Bool → List Nat → List Nat → Option (List Nat)
  | _, strRes, [] => some strRes
  | status, strRes, i :: rest =>
    if objid = (onenet.slot i).objid then
      if unlike (onenet.slot i).resid status (strRes.map Int.ofNat) then
        if strRes.length < strResRoom then discoverFrom onenet objid true (strRes ++ [i]) rest
        else none
      else discoverFrom onenet objid false strRes rest
    else discoverFrom onenet objid status strRes rest

def onenetDiscoverRsp (onenet : Onenet) (objid : Int) : Option (List Nat) :=
  discoverFrom onenet objid true [] onenet.scanned

/-- The table; `counted` says that `onenet_create_object` has run since the last stream was
added. -/
structure State where
  onenet : Onenet
  counted : Bool

inductive Event where
  | objectInit (objid insid resid : Int)
  | createObject
  | deleteObject (stream : Nat)

def step (s : State) : Event → Option State
  | .objectInit objid insid resid =>
    let (onenet, stream) := nbOnenetObjectInit s.onenet objid insid resid
    some { onenet, counted := s.counted && stream.isNone }
  | .createObject => some { onenet := onenetCreateObject s.onenet, counted := true }
  | .deleteObject stream =>
    if (s.onenet.slot stream).userStatus then
      some { s with onenet := nbOnenetDeleteObject s.onenet stream }
    else none

def system : TransitionSystem State Event :=
  .ofFunction (fun s => s = ⟨nbOnenetInitEnvironment, false⟩) step

end RtThread.OnenetTable
