import Mathlib.Data.UInt
import RtThread.Library.GrowableArray
import RtThread.Library.TextBuffer
import RtThread.Library.TransitionSystem

/-!
# Lines of an AT module and response objects

How the client cuts the bytes it receives into lines, what it takes a line for, and what a
response object holds.
-/

namespace RtThread.At

open TextBuffer GrowableArray

/-- The two strings of a `struct at_urc`; its function does nothing to the client. -/
structure AtUrc where
  cmdPrefix : List UInt8
  cmdSuffix : List UInt8

structure ClientConfig where
  recvBufsz : Nat
  endSign : UInt8
  urcTable : List AtUrc

/-- `get_urc_obj`, for the bytes in the receive buffer. -/
def getUrcObj (cfg : ClientConfig) (buffer : List UInt8) : Option AtUrc :=
  cfg.urcTable.find? fun urc =>
    urc.cmdPrefix.length + urc.cmdSuffix.length ≤ buffer.length &&
      urc.cmdPrefix.isPrefixOf buffer && urc.cmdSuffix.isSuffixOf buffer

/-- The loop of `at_recv_readline`: the line in the receive buffer, `none` for `-RT_EFULL`,
and the bytes behind it.  There is no result where the bytes end before the line does. -/
def readlineLoop (cfg : ClientConfig) (buffer : List UInt8) (lastCh : UInt8) (isFull : Bool) :
    List UInt8 → Option (Option (List UInt8) × List UInt8)
  | [] => none
  | ch :: rest =>
    let room := buffer.length < cfg.recvBufsz
    let buffer := if room then buffer ++ [ch] else buffer
    let isFull := isFull || !room
    if (ch = 10 ∧ lastCh = 13) ∨ (cfg.endSign ≠ 0 ∧ ch = cfg.endSign) ∨
        (getUrcObj cfg buffer).isSome then
      some (if isFull then none else some buffer, rest)
    else readlineLoop cfg buffer ch isFull rest

def atRecvReadline (cfg : ClientConfig) (bytes : List UInt8) :
    Option (Option (List UInt8) × List UInt8) :=
  readlineLoop cfg [] 0 false bytes

inductive AtRespStatus where
  | ok
  | error
  | timeout
  | buffFull
  deriving DecidableEq

/-- `struct at_response`; `buf_size` is the length of the memory at `buf`. -/
structure AtResponse where
  buf : List UInt8
  lineNum : Nat
  lineCounts : Nat
  timeout : Int
  deriving DecidableEq

def AtResponse.bufSize (resp : AtResponse) : Nat := resp.buf.length

def atCreateResp (bufSize lineNum : Nat) (timeout : Int) : AtResponse :=
  ⟨List.replicate bufSize 0, lineNum, 0, timeout⟩

def atRespGetLine (resp : AtResponse) (respLine : Nat) : Option (List UInt8) :=
  if respLine > resp.lineCounts ∨ respLine = 0 then none
  else some (textOf (behindText^[respLine - 1] resp.buf))

def atRespEndOk : List UInt8 := [79, 75]
def atRespEndError : List UInt8 := [69, 82, 82, 79, 82]
def atRespEndFail : List UInt8 := [70, 65, 73, 76]

/-- "check response result": the status that a line ends the response with, as the
`lineCounts`-th line of it. -/
def respResult (lineNum lineCounts : Nat) (text : List UInt8) : Option AtRespStatus :=
  if atRespEndOk.isPrefixOf text ∧ lineNum = 0 then some .ok
  else if atRespEndError <:+: textOf text ∨ atRespEndFail.isPrefixOf text then some .error
  else if lineCounts = lineNum ∧ lineNum ≠ 0 then some .ok
  else none

def terminated (bytes : List UInt8) : List UInt8 := bytes.dropLast ++ [0]

section Readline

variable {cfg : ClientConfig} {buffer bytes rest : List UInt8} {lastCh : UInt8}
  {result : Option (List UInt8)}

theorem readlineLoop_full (read : readlineLoop cfg buffer lastCh true bytes = some (result, rest)) :
    result = none := by
  induction bytes generalizing buffer lastCh with
  | nil => simp [readlineLoop] at read
  | cons ch bytes ih =>
    simp only [readlineLoop, Bool.true_or] at read
    split_ifs at read
    · exact (congrArg Prod.fst (Option.some.inj read)).symm
    · exact ih read
    · exact (congrArg Prod.fst (Option.some.inj read)).symm
    · exact ih read

theorem readlineLoop_result
    (read : readlineLoop cfg buffer lastCh false bytes = some (result, [])) :
    (result = some (buffer ++ bytes) ∧ bytes ≠ []) ∨
      (result = none ∧ cfg.recvBufsz < (buffer ++ bytes).length) := by
  induction bytes generalizing buffer lastCh with
  | nil => simp [readlineLoop] at read
  | cons ch bytes ih =>
    by_cases room : buffer.length < cfg.recvBufsz
    · simp only [readlineLoop, room, if_true, decide_true, Bool.not_true, Bool.or_false,
        Bool.false_eq_true, if_false] at read
      split_ifs at read
      · cases read
        exact .inl ⟨rfl, List.cons_ne_nil _ _⟩
      · rcases ih read with ⟨whole, -⟩ | ⟨lost, exceeds⟩
        · exact .inl ⟨by simpa using whole, List.cons_ne_nil _ _⟩
        · exact .inr ⟨lost, by simpa using exceeds⟩
    · simp only [readlineLoop, room, if_false, decide_false, Bool.not_false, Bool.or_true] at read
      have exceeds : cfg.recvBufsz < (buffer ++ ch :: bytes).length := by
        simp only [List.length_append, List.length_cons]
        omega
      split_ifs at read
      · exact .inr ⟨(congrArg Prod.fst (Option.some.inj read)).symm, exceeds⟩
      · exact .inr ⟨readlineLoop_full read, exceeds⟩

theorem atRecvReadline_result (read : atRecvReadline cfg bytes = some (result, [])) :
    (result = some bytes ∧ bytes ≠ []) ∨ (result = none ∧ cfg.recvBufsz < bytes.length) :=
  readlineLoop_result read

end Readline

section Responses

variable {resp : AtResponse} {lines : List (List UInt8)} {rest : List UInt8}

theorem atRespGetLine_packed (counts : resp.lineCounts = lines.length)
    (packs : resp.buf = packed lines ++ rest) (nonzero : ∀ text ∈ lines, (0 : UInt8) ∉ text)
    {i : Nat} (inside : i < lines.length) : atRespGetLine resp (i + 1) = some lines[i] := by
  rw [atRespGetLine, if_neg (by omega), Nat.add_sub_cancel, packs, textOf_packed nonzero inside]

theorem take_overwrite_packed {buf : List UInt8} {bytes : List UInt8}
    (packs : buf.take (packed lines).length = packed lines) :
    (overwrite buf (packed lines).length (terminated bytes)).take
        (packed (lines ++ [bytes.dropLast])).length = packed (lines ++ [bytes.dropLast]) := by
  rw [overwrite, packs, packed_append, packed_singleton]
  exact List.take_left' rfl

end Responses

end RtThread.At

/-!
## The AT client

The thread that holds the lock of the client, and the parser thread, interleaved at each of
their accesses to what they share: the response pointer, the response object, the status and
the semaphore.  A call keeps an account of the lines received since its command was sent,
which no step reads; each line comes with the number of the command that the module answers.
-/

namespace RtThread.At

open GrowableArray

structure ModuleLine where
  bytes : List UInt8
  command : Nat
  deriving DecidableEq

inductive ParserPhase where
  /-- In `at_recv_readline`. -/
  | reading
  | checking (line : ModuleLine)
  | storing (line : ModuleLine)
  /-- In front of "check response result". -/
  | judging (line : ModuleLine)
  /-- In front of `client->resp->line_counts = line_counts`. -/
  | counting
  /-- In front of `client->resp = RT_NULL`. -/
  | clearing
  /-- In front of `rt_sem_release`. -/
  | releasing
  deriving DecidableEq

/-- The values that `at_obj_exec_cmd` returns once it has the lock. -/
inductive ExecResult where
  | ok
  | error
  | timeout
  deriving DecidableEq

inductive CallPhase where
  /-- In front of `client->resp_status = AT_RESP_OK`. -/
  | resetting
  /-- In front of `client->resp = resp`. -/
  | publishing
  | sending
  /-- In front of `resp->line_counts = 0`. -/
  | zeroing
  /-- In `rt_sem_take`. -/
  | waiting
  /-- In front of the test of `resp_status`. -/
  | deciding
  /-- In front of the last `client->resp = RT_NULL`. -/
  | leaving (result : ExecResult)
  deriving DecidableEq

/-- `at_obj_exec_cmd`, or `at_client_obj_wait_connect`, with the lock. -/
structure AtCall where
  number : Nat
  connects : Bool
  resp : Option AtResponse
  phase : CallPhase
  sent : Bool
  received : List ModuleLine
  unseen : Bool
  deriving DecidableEq

/-- `struct at_client`, the locals of its parser, and the call that holds its lock.  The
pointer `client->resp` is set to the object of that call, or it is `RT_NULL`. -/
structure AtClient where
  cli : Bool
  resp : Bool
  respNotice : Nat
  respStatus : AtRespStatus
  respBufLen : Nat
  lineCounts : Nat
  parser : ParserPhase
  call : Option AtCall
  calls : Nat
  timedOut : List Nat

inductive ClientEvent where
  | exec (resp : Option AtResponse)
  | waitConnect
  | setCli (cli : Bool)
  | proceed
  /-- `rt_sem_take` times out; `last` tells a connecting call to give up. -/
  | timeout (last : Bool)
  | line (bytes : List UInt8) (command : Nat)
  | parse

namespace AtClient

def setPhase (client : AtClient) (call : AtCall) (phase : CallPhase) : AtClient :=
  { client with call := some { call with phase } }

def enter (client : AtClient) (connects : Bool) (resp : Option AtResponse) (phase : CallPhase) :
    Option AtClient :=
  match client.call with
  | some _ => none
  | none =>
    some { client with
      call := some ⟨client.calls, connects, resp, phase, false, [], false⟩
      calls := client.calls + 1 }

/-- The call behind the one in hand: the two functions send and clear in opposite orders. -/
def proceed (client : AtClient) (call : AtCall) : Option AtClient :=
  match call.phase with
  | .resetting => some ({ client with respStatus := .ok }.setPhase call .publishing)
  | .publishing =>
    some ({ client with resp := call.resp.isSome }.setPhase call
      (if call.connects then .zeroing else .sending))
  | .sending =>
    let next :=
      if call.connects then CallPhase.waiting
      else if call.resp.isSome then .zeroing else .leaving .ok
    some (client.setPhase { call with sent := true, received := [], unseen := false } next)
  | .zeroing =>
    let resp := call.resp.map fun resp => { resp with lineCounts := 0 }
    some (client.setPhase { call with resp } (if call.connects then .sending else .waiting))
  | .waiting =>
    if client.respNotice = 0 then none
    else
      some ({ client with respNotice := client.respNotice - 1 }.setPhase call
        (if call.connects then .leaving .ok else .deciding))
  | .deciding =>
    some (client.setPhase call
      (.leaving (if client.respStatus = .ok then .ok else .error)))
  | .leaving _ => some { client with resp := false, call := none }

def timeout (client : AtClient) (call : AtCall) (last : Bool) : Option AtClient :=
  match call.phase, call.resp with
  | .waiting, some resp =>
    if client.respNotice ≠ 0 ∨ resp.timeout < 0 then none
    else if call.connects ∧ last = false then some (client.setPhase call .zeroing)
    else
      let respStatus := if call.connects then client.respStatus else .timeout
      some ({ client with
        respStatus, timedOut := call.number :: client.timedOut }.setPhase call
          (.leaving .timeout))
  | _, _ => none

def noted (cfg : ClientConfig) (call : AtCall) (line : ModuleLine) (whole : Bool) : AtCall :=
  if call.sent = true ∧ getUrcObj cfg line.bytes = none then
    { call with received := call.received ++ [line], unseen := whole }
  else { call with unseen := false }

/-- `at_recv_readline(client) > 0`, with the line in the receive buffer. -/
def lineRead (command : Nat) : Option (List UInt8) → ParserPhase
  | none => .reading
  | some text => .checking ⟨text, command⟩

def receive (cfg : ClientConfig) (client : AtClient) (bytes : List UInt8) (command : Nat) :
    Option AtClient :=
  match client.parser, atRecvReadline cfg bytes with
  | .reading, some (result, []) =>
    some { client with
      call := client.call.map fun call => noted cfg call ⟨bytes, command⟩ result.isSome
      parser := lineRead command result }
  | _, _ => none

/-- What the parser does to the response object, which `client->resp` leads it to. -/
def withResp (client : AtClient) (act : AtCall → AtResponse → AtClient) : Option AtClient :=
  if client.resp then
    client.call.bind fun call => call.resp.map (act call)
  else none

def store (client : AtClient) (line : ModuleLine) (call : AtCall) (resp : AtResponse) :
    AtClient :=
  let text := terminated line.bytes
  let judging := { client with parser := ParserPhase.judging line }
  if client.respBufLen + text.length < resp.bufSize then
    { judging with
      respBufLen := client.respBufLen + text.length
      lineCounts := client.lineCounts + 1
      call := some { call with
        resp := some { resp with buf := overwrite resp.buf client.respBufLen text } } }
  else { judging with respStatus := .buffFull }

def judge (client : AtClient) (line : ModuleLine) (resp : AtResponse) : AtClient :=
  match respResult resp.lineNum client.lineCounts (terminated line.bytes) with
  | some respStatus => { client with respStatus, parser := .counting }
  | none => { client with parser := .reading }

def parse (cfg : ClientConfig) (client : AtClient) : Option AtClient :=
  match client.parser with
  | .reading => none
  | .checking line =>
    let call := client.call.map fun call => { call with unseen := false }
    if (getUrcObj cfg line.bytes).isSome ∨ client.resp = false then
      some { client with call, parser := .reading }
    else some { client with call, parser := .storing line }
  | .storing line => client.withResp fun call resp => client.store line call resp
  | .judging line => client.withResp fun _ resp => client.judge line resp
  | .counting =>
    client.withResp fun call resp =>
      { client with
        call := some { call with resp := some { resp with lineCounts := client.lineCounts } }
        parser := .clearing }
  | .clearing => some { client with resp := false, parser := .releasing }
  | .releasing =>
    some { client with
      respNotice := client.respNotice + 1, respBufLen := 0, lineCounts := 0, parser := .reading }

def step (cfg : ClientConfig) (client : AtClient) : ClientEvent → Option AtClient
  | .exec resp =>
    if client.cli = true ∧ resp.isSome = true then some client
    else client.enter false resp .resetting
  | .waitConnect => client.enter true (some (atCreateResp 16 0 50)) .publishing
  | .setCli cli => some { client with cli }
  | .proceed => client.call.bind client.proceed
  | .timeout last => client.call.bind fun call => client.timeout call last
  | .line bytes command => client.receive cfg bytes command
  | .parse => client.parse cfg

structure Initial (client : AtClient) : Prop where
  resp_eq : client.resp = false
  respNotice_eq : client.respNotice = 0
  respBufLen_eq : client.respBufLen = 0
  lineCounts_eq : client.lineCounts = 0
  parser_eq : client.parser = .reading
  call_eq : client.call = none

def system (cfg : ClientConfig) : TransitionSystem AtClient ClientEvent :=
  .ofFunction Initial (step cfg)

end AtClient

end RtThread.At
