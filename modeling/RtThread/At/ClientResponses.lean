import RtThread.At.Client

/-!
# Which lines a response holds

While a command waits, the lines that the parser has handled stand in the response object, and the
parser holds at most the one after them.
-/

namespace RtThread.At

open TransitionSystem TextBuffer GrowableArray

def texts (lines : List ModuleLine) : List (List UInt8) := lines.map fun line => line.bytes.dropLast

def Continues (lineNum : Nat) (lines : List ModuleLine) : Prop :=
  ∀ earlier line later, lines = earlier ++ line :: later →
    respResult lineNum (earlier.length + 1) (terminated line.bytes) = none

def Complete (lineNum : Nat) (lines : List ModuleLine) : Prop :=
  ∃ earlier final, lines = earlier ++ [final] ∧ Continues lineNum earlier ∧
    respResult lineNum lines.length (terminated final.bytes) = some .ok

def Answered (timedOut : List Nat) (received : List ModuleLine) (resp : AtResponse) : Prop :=
  ∃ lines later, received = lines ++ later ∧ Complete resp.lineNum lines ∧
    resp.lineCounts = lines.length ∧
    (packed (texts lines)).length < resp.bufSize ∧
    resp.buf.take (packed (texts lines)).length = packed (texts lines) ∧
    (∀ i line, lines[i]? = some line →
      atRespGetLine resp (i + 1) = some line.bytes.dropLast) ∧
    ∀ line ∈ lines, line.command ∉ timedOut

/-- A call to `at_obj_exec_cmd` that is about to return `RT_EOK` has its answer. -/
def Faithful (client : AtClient) : Prop :=
  ∀ call ∈ client.call, call.connects = false → call.phase = .leaving .ok →
    ∀ resp ∈ call.resp, Answered client.timedOut call.received resp

/-- The parser has nothing of a response, and no token is left. -/
def Clean (client : AtClient) : Prop :=
  client.respNotice = 0 ∧ client.respBufLen = 0 ∧ client.lineCounts = 0 ∧
    match client.parser with
    | .reading | .checking _ => True
    | _ => False

/-- The lines of a response that is about to be ended well all came whole, with no zero in
them, and answer no command that timed out; and all had room. -/
def Fits (cfg : ClientConfig) (client : AtClient) (call : AtCall) : Prop :=
  client.respStatus ≠ .buffFull ∧
    ∀ line ∈ call.received, line.bytes.length ≤ cfg.recvBufsz ∧
      (0 : UInt8) ∉ line.bytes.dropLast ∧ line.command ∉ client.timedOut

/-- A call sets the count of its response to zero before the parser sets it, and one that gives
up leaves nothing behind in the parser. -/
def Orderly (client : AtClient) (call : AtCall) : Prop :=
  match call.phase with
  | .zeroing => call.connects = false → client.respStatus = .ok →
      client.resp = true ∧ client.parser ≠ .clearing
  | .leaving result => call.connects = true ∨ result = .timeout → Clean client
  | _ => True

def Matching (cfg : ClientConfig) (client : AtClient) (call : AtCall) : Prop :=
  match client.parser with
  | .checking line => getUrcObj cfg line.bytes = none → client.resp = true →
      call.unseen = true
  | .judging line => ∀ resp ∈ call.resp,
      respResult resp.lineNum client.lineCounts (terminated line.bytes) = some .ok →
        Fits cfg client call
  | _ => True

def Undisturbed (cfg : ClientConfig) (client : AtClient) : ClientEvent → Prop
  | .proceed => ∀ call ∈ client.call, Orderly client call
  | .parse => ∀ call ∈ client.call, call.connects = false → Matching cfg client call
  | _ => True

section Decidable

variable (cfg : ClientConfig) (client : AtClient) (call : AtCall) (e : ClientEvent)

instance : Decidable (Clean client) := by
  unfold Clean
  cases client.parser <;> infer_instance

instance : Decidable (Fits cfg client call) := instDecidableAnd

instance : Decidable (Orderly client call) := by
  unfold Orderly
  cases call.phase <;> infer_instance

instance : Decidable (Matching cfg client call) := by
  unfold Matching
  cases client.parser <;> infer_instance

instance : Decidable (Undisturbed cfg client e) := by
  cases e <;> unfold Undisturbed <;> infer_instance

end Decidable

structure Progress (bufLen counts : Nat) (resp : AtResponse) (stored : List ModuleLine) :
    Prop where
  bufLen_eq : bufLen = (packed (texts stored)).length
  counts_eq : counts = stored.length
  room : stored ≠ [] → bufLen < resp.bufSize
  holds : resp.buf.take bufLen = packed (texts stored)

def Handling (cfg : ClientConfig) (client : AtClient) (call : AtCall) (resp : AtResponse) :
    Prop :=
  let Progressed := Progress client.respBufLen client.lineCounts resp
  match client.parser with
  | .reading => Progressed call.received ∧ Continues resp.lineNum call.received
  | .checking line =>
    (call.unseen = true → getUrcObj cfg line.bytes = none) ∧
    ∃ handled, call.received = handled ++ (if call.unseen then [line] else []) ∧
      Progressed handled ∧ Continues resp.lineNum handled
  | .storing line => ∃ handled, call.received = handled ++ [line] ∧
      Progressed handled ∧ Continues resp.lineNum handled
  | .judging line => ∃ handled, call.received = handled ++ [line] ∧
      Progressed (handled ++ [line]) ∧ Continues resp.lineNum handled
  | _ => False

structure Pending (cfg : ClientConfig) (client : AtClient) (call : AtCall)
    (resp : AtResponse) : Prop where
  resp_eq : client.resp = true
  respNotice_eq : client.respNotice = 0
  status : client.respStatus = .ok ∨ client.respStatus = .buffFull
  parser : client.parser ≠ .counting ∧ client.parser ≠ .clearing ∧ client.parser ≠ .releasing
  handling : client.respStatus = .ok →
    (∀ line ∈ call.received, line.bytes.length ≤ cfg.recvBufsz) →
      Handling cfg client call resp

/-- The object holds a whole response, of `counts` lines. -/
def Content (client : AtClient) (call : AtCall) (resp : AtResponse) (counts : Nat) : Prop :=
  ∃ lines later, call.received = lines ++ later ∧ Complete resp.lineNum lines ∧
    counts = lines.length ∧ (packed (texts lines)).length < resp.bufSize ∧
    resp.buf.take (packed (texts lines)).length = packed (texts lines) ∧
    ∀ line ∈ lines, (0 : UInt8) ∉ line.bytes.dropLast ∧ line.command ∉ client.timedOut

def Completed (client : AtClient) (call : AtCall) (resp : AtResponse) : Prop :=
  (client.respStatus = .ok ∨ client.respStatus = .error) ∧
    match client.parser with
    | .counting => client.resp = true ∧ client.respNotice = 0 ∧
        (client.respStatus = .ok → Content client call resp client.lineCounts)
    | .clearing => client.resp = true ∧ client.respNotice = 0 ∧
        (client.respStatus = .ok → Content client call resp resp.lineCounts)
    | .releasing => client.resp = false ∧ client.respNotice = 0 ∧
        (client.respStatus = .ok → Content client call resp resp.lineCounts)
    | .reading | .checking _ =>
      client.resp = false ∧ client.respNotice = 1 ∧ client.respBufLen = 0 ∧
        client.lineCounts = 0 ∧
        (client.respStatus = .ok → Content client call resp resp.lineCounts)
    | _ => False

/-- What a call to `at_obj_exec_cmd` finds at each of its stages. -/
def Standing (cfg : ClientConfig) (client : AtClient) (call : AtCall) : Prop :=
  match call.phase, call.resp with
  | .resetting, _ => client.resp = false ∧ Clean client ∧ call.sent = false ∧
      call.received = [] ∧ call.unseen = false
  | .publishing, _ => client.resp = false ∧ Clean client ∧ call.sent = false ∧
      call.received = [] ∧ call.unseen = false ∧ client.respStatus = .ok
  | .sending, resp => client.resp = resp.isSome ∧ Clean client ∧ call.sent = false ∧
      call.received = [] ∧ call.unseen = false ∧ client.respStatus = .ok
  | .zeroing, some resp | .waiting, some resp =>
    Pending cfg client call resp ∨ Completed client call resp
  | .deciding, some resp => client.resp = false ∧ Clean client ∧
      (client.respStatus = .ok → Content client call resp resp.lineCounts)
  | .leaving .ok, some resp => client.resp = false ∧ Clean client ∧
      Content client call resp resp.lineCounts
  | .leaving .ok, none | .leaving .error, _ => client.resp = false ∧ Clean client
  | .leaving .timeout, _ => True
  | _, none => False

def Inv (cfg : ClientConfig) (client : AtClient) : Prop :=
  match client.call with
  | none => client.resp = false ∧ Clean client
  | some call => call.connects = false → Standing cfg client call

section Parts

variable {cfg : ClientConfig} {client : AtClient} {call : AtCall} {resp : AtResponse}
  {counts : Nat} {handled : List ModuleLine} {line : ModuleLine}

theorem respResult_cases {lineNum lineCounts : Nat} {text : List UInt8} {status : AtRespStatus}
    (ends : respResult lineNum lineCounts text = some status) : status = .ok ∨ status = .error := by
  unfold respResult at ends
  split_ifs at ends <;> simp_all

theorem Continues.concat {lineNum : Nat} (continues : Continues lineNum handled)
    (goesOn : respResult lineNum (handled.length + 1) (terminated line.bytes) = none) :
    Continues lineNum (handled ++ [line]) := by
  intro earlier u later split
  rcases List.eq_nil_or_concat later with rfl | ⟨rest, last, rfl⟩
  · obtain ⟨rfl, same⟩ := List.append_inj' split rfl
    obtain rfl := List.singleton_inj.mp same
    exact goesOn
  · rw [List.concat_eq_append, ← List.cons_append, ← List.append_assoc] at split
    exact continues earlier u rest (List.append_inj' split rfl).1

theorem Progress.nil (resp : AtResponse) : Progress 0 0 resp [] :=
  ⟨rfl, rfl, fun isNil => absurd rfl isNil, List.take_zero⟩

theorem Progress.stored {bufLen : Nat} (progress : Progress bufLen counts resp handled)
    (fits : bufLen + (terminated line.bytes).length < resp.bufSize) :
    Progress (bufLen + (terminated line.bytes).length) (counts + 1)
      { resp with buf := overwrite resp.buf bufLen (terminated line.bytes) }
      (handled ++ [line]) := by
  obtain ⟨rfl, rfl, room, holds⟩ := progress
  have appended : texts (handled ++ [line]) = texts handled ++ [line.bytes.dropLast] := by
    simp [texts]
  have length : (packed (texts (handled ++ [line]))).length =
      (packed (texts handled)).length + (terminated line.bytes).length := by
    simp [appended, terminated]
  refine ⟨length.symm, by simp, fun _ => ?_, ?_⟩
  · rw [AtResponse.bufSize, length_overwrite (Nat.le_of_lt fits)]
    exact fits
  · rw [← length, appended]
    exact take_overwrite_packed holds

theorem Content.noted (content : Content client call resp counts) (line : ModuleLine)
    (whole : Bool) : Content client (AtClient.noted cfg call line whole) resp counts := by
  obtain ⟨lines, later, split, rest⟩ := content
  unfold AtClient.noted
  split_ifs
  · exact ⟨lines, later ++ [line], by simp [split], rest⟩
  · exact ⟨lines, later, split, rest⟩

theorem Progress.content
    (progress : Progress client.respBufLen client.lineCounts resp (handled ++ [line]))
    (received : call.received = handled ++ [line]) (continues : Continues resp.lineNum handled)
    (ends : respResult resp.lineNum client.lineCounts (terminated line.bytes) = some .ok)
    (fits : Fits cfg client call) : Content client call resp client.lineCounts := by
  obtain ⟨bufLen, counts, room, holds⟩ := progress
  rw [bufLen] at room holds
  rw [counts] at ends
  refine ⟨handled ++ [line], [], by simp [received], ⟨handled, line, rfl, continues, ends⟩, counts,
    room (by simp), holds, fun u mem => ?_⟩
  rw [← received] at mem
  exact (fits.2 u mem).2

theorem Content.answered (content : Content client call resp resp.lineCounts) :
    Answered client.timedOut call.received resp := by
  obtain ⟨lines, later, split, complete, counts, room, holds, fine⟩ := content
  refine ⟨lines, later, split, complete, counts, room, holds, fun i line isLine => ?_,
    fun line mem => (fine line mem).2⟩
  obtain ⟨inside, rfl⟩ := List.getElem?_eq_some_iff.mp isLine
  have packs := (List.take_append_drop (packed (texts lines)).length resp.buf).symm
  rw [holds] at packs
  have nonzero : ∀ text ∈ texts lines, (0 : UInt8) ∉ text := by
    intro text isText
    obtain ⟨line, mem, rfl⟩ := List.mem_map.mp isText
    exact (fine line mem).1
  rw [atRespGetLine_packed (by simp [counts, texts]) packs nonzero (by simpa [texts] using inside)]
  simp [texts]

end Parts

namespace AtClient

variable {cfg : ClientConfig} {client after : AtClient} {call : AtCall} {resp : AtResponse}

section Receive

variable {bytes : List UInt8} {command : Nat} {result : Option (List UInt8)} {line : ModuleLine}
  {whole : Bool}

theorem noted_cases (cfg : ClientConfig) (call : AtCall) (line : ModuleLine) (whole : Bool) :
    (call.sent = true ∧ getUrcObj cfg line.bytes = none ∧ noted cfg call line whole =
        { call with received := call.received ++ [line], unseen := whole }) ∨
      noted cfg call line whole = { call with unseen := false } := by
  by_cases records : call.sent = true ∧ getUrcObj cfg line.bytes = none
  · exact .inl ⟨records.1, records.2, if_pos records⟩
  · exact .inr (if_neg records)

theorem lineRead_cases (command : Nat) (result : Option (List UInt8)) :
    lineRead command result = .reading ∨ ∃ line, lineRead command result = .checking line := by
  cases result with
  | none => exact .inl rfl
  | some text => exact .inr ⟨_, rfl⟩

theorem clean_receive (clean : Clean client) (next : Option AtCall) :
    Clean { client with call := next, parser := lineRead command result } := by
  obtain ⟨notice, bufLen, counts, -⟩ := clean
  refine ⟨notice, bufLen, counts, ?_⟩
  rcases lineRead_cases command result with reading | ⟨line, checking⟩
  · simp only [reading]
  · simp only [checking]

theorem completed_receive (completed : Completed client call resp)
    (reading : client.parser = .reading) (line : ModuleLine) (whole : Bool) :
    Completed
      { client with
        call := some (noted cfg call line whole), parser := lineRead command result }
      (noted cfg call line whole) resp := by
  obtain ⟨status, stage⟩ := completed
  simp only [reading] at stage
  obtain ⟨cleared, notice, bufLen, counts, content⟩ := stage
  refine ⟨status, ?_⟩
  have after : client.respStatus = .ok →
      Content client (noted cfg call line whole) resp resp.lineCounts :=
    fun isOk => (content isOk).noted line whole
  rcases lineRead_cases command result with reads | ⟨u, checking⟩
  · simp only [reads]
    exact ⟨cleared, notice, bufLen, counts, after⟩
  · simp only [checking]
    exact ⟨cleared, notice, bufLen, counts, after⟩

theorem pending_receive (pending : Pending cfg client call resp)
    (reading : client.parser = .reading) (read : atRecvReadline cfg bytes = some (result, [])) :
    Pending cfg
      { client with
        call := some (noted cfg call ⟨bytes, command⟩ result.isSome)
        parser := lineRead command result }
      (noted cfg call ⟨bytes, command⟩ result.isSome) resp := by
  refine ⟨pending.resp_eq, pending.respNotice_eq, pending.status, ?_, fun isOk fit => ?_⟩
  · rcases lineRead_cases command result with reads | ⟨u, checking⟩ <;> simp [*]
  · rcases noted_cases cfg call ⟨bytes, command⟩ result.isSome with
      ⟨-, notUrc, noted⟩ | noted <;> rw [noted] at fit ⊢
    · obtain ⟨earlier, short⟩ := List.forall_mem_append.mp fit
      have handling := pending.handling isOk earlier
      simp only [Handling, reading] at handling
      rcases atRecvReadline_result read with ⟨rfl, -⟩ | ⟨rfl, exceeds⟩
      · exact ⟨fun _ => notUrc, call.received, rfl, handling⟩
      · exact absurd exceeds (Nat.not_lt.mpr (short _ (List.mem_singleton.mpr rfl)))
    · have handling := pending.handling isOk fit
      simp only [Handling, reading] at handling
      cases result with
      | none => exact handling
      | some text => exact ⟨nofun, call.received, (List.append_nil _).symm, handling⟩

theorem standing_receive (standing : Standing cfg client call) (reading : client.parser = .reading)
    (read : atRecvReadline cfg bytes = some (result, [])) :
    Standing cfg
      { client with
        call := some (noted cfg call ⟨bytes, command⟩ result.isSome)
        parser := lineRead command result }
      (noted cfg call ⟨bytes, command⟩ result.isSome) := by
  have samePhase : (noted cfg call ⟨bytes, command⟩ result.isSome).phase = call.phase := by
    rcases noted_cases cfg call ⟨bytes, command⟩ result.isSome with ⟨-, -, noted⟩ | noted <;>
      rw [noted]
  have sameResp : (noted cfg call ⟨bytes, command⟩ result.isSome).resp = call.resp := by
    rcases noted_cases cfg call ⟨bytes, command⟩ result.isSome with ⟨-, -, noted⟩ | noted <;>
      rw [noted]
  have unsent : call.sent = false → noted cfg call ⟨bytes, command⟩ result.isSome =
      { call with unseen := false } := fun notSent => by simp [noted, notSent]
  unfold Standing at standing ⊢
  rw [samePhase, sameResp]
  split at standing
  · obtain ⟨noResp, clean, notSent, received, -⟩ := standing
    rw [unsent notSent]
    exact ⟨noResp, clean_receive clean _, notSent, received, rfl⟩
  · obtain ⟨noResp, clean, notSent, received, -, isOk⟩ := standing
    rw [unsent notSent]
    exact ⟨noResp, clean_receive clean _, notSent, received, rfl, isOk⟩
  · obtain ⟨hasResp, clean, notSent, received, -, isOk⟩ := standing
    rw [unsent notSent]
    exact ⟨hasResp, clean_receive clean _, notSent, received, rfl, isOk⟩
  · exact standing.imp (pending_receive · reading read) (completed_receive · reading _ _)
  · exact standing.imp (pending_receive · reading read) (completed_receive · reading _ _)
  · obtain ⟨noResp, clean, content⟩ := standing
    exact ⟨noResp, clean_receive clean _, fun isOk => (content isOk).noted _ _⟩
  · obtain ⟨noResp, clean, content⟩ := standing
    exact ⟨noResp, clean_receive clean _, content.noted _ _⟩
  · exact ⟨standing.1, clean_receive standing.2 _⟩
  · exact ⟨standing.1, clean_receive standing.2 _⟩
  · trivial
  · exact standing.elim

theorem inv_receive (inv : Inv cfg client)
    (received : client.receive cfg bytes command = some after) : Inv cfg after := by
  unfold receive at received
  split at received
  · rename_i result reading read
    cases received
    unfold Inv at inv ⊢
    cases called : client.call with
    | none =>
      simp only [called] at inv
      exact ⟨inv.1, clean_receive inv.2 _⟩
    | some call =>
      simp only [called] at inv
      intro executes
      refine standing_receive (inv ?_) reading read
      rcases noted_cases cfg call ⟨bytes, command⟩ result.isSome with
        ⟨-, -, noted⟩ | noted <;> simpa [noted] using executes
  · simp at received

end Receive

section Parse

variable {line : ModuleLine}

section

variable (standing : Standing cfg client call)

include standing

theorem standing_dropped (checking : client.parser = .checking line)
    (drops : (getUrcObj cfg line.bytes).isSome = true ∨ client.resp = false) : Standing cfg
      { client with call := some { call with unseen := false }, parser := .reading }
      { call with unseen := false } := by
  have clean : Clean client →
      Clean { client with call := some { call with unseen := false }, parser := .reading } :=
    fun clean => ⟨clean.1, clean.2.1, clean.2.2.1, trivial⟩
  have exchange : ∀ resp, Pending cfg client call resp ∨ Completed client call resp →
      Pending cfg
          { client with call := some { call with unseen := false }, parser := .reading }
          { call with unseen := false } resp ∨
        Completed { client with call := some { call with unseen := false }, parser := .reading }
          { call with unseen := false } resp := by
    rintro resp (pending | ⟨status, stage⟩)
    · refine .inl ⟨pending.resp_eq, pending.respNotice_eq, pending.status, by simp,
        fun isOk fit => ?_⟩
      have handling := pending.handling isOk fit
      simp only [Handling, checking] at handling
      obtain ⟨notUrc, handled, received, progress, continues⟩ := handling
      have seen : call.unseen = false := by
        rcases drops with isUrc | noResp
        · refine Bool.eq_false_iff.mpr fun unseen => ?_
          simp [notUrc unseen] at isUrc
        · simp [pending.resp_eq] at noResp
      rw [seen, if_neg Bool.false_ne_true, List.append_nil] at received
      simp only [received]
      exact ⟨progress, continues⟩
    · simp only [checking] at stage
      exact .inr ⟨status, stage⟩
  unfold Standing at standing ⊢
  dsimp only
  split at standing
  · exact ⟨standing.1, clean standing.2.1, standing.2.2.1, standing.2.2.2.1, rfl⟩
  · exact ⟨standing.1, clean standing.2.1, standing.2.2.1, standing.2.2.2.1, rfl,
      standing.2.2.2.2.2⟩
  · exact ⟨standing.1, clean standing.2.1, standing.2.2.1, standing.2.2.2.1, rfl,
      standing.2.2.2.2.2⟩
  · exact exchange _ standing
  · exact exchange _ standing
  · exact ⟨standing.1, clean standing.2.1, standing.2.2⟩
  · exact ⟨standing.1, clean standing.2.1, standing.2.2⟩
  · exact ⟨standing.1, clean standing.2⟩
  · exact ⟨standing.1, clean standing.2⟩
  · trivial
  · exact standing.elim

theorem standing_taken (checking : client.parser = .checking line) (hasResp : client.resp = true)
    (unseen : call.unseen = true) : Standing cfg
      { client with call := some { call with unseen := false }, parser := .storing line }
      { call with unseen := false } := by
  have exchange : ∀ resp, Pending cfg client call resp ∨ Completed client call resp →
      Pending cfg
          { client with call := some { call with unseen := false }, parser := .storing line }
          { call with unseen := false } resp ∨
        Completed
          { client with call := some { call with unseen := false }, parser := .storing line }
          { call with unseen := false } resp := by
    rintro resp (pending | ⟨status, stage⟩)
    · refine .inl ⟨pending.resp_eq, pending.respNotice_eq, pending.status, by simp,
        fun isOk fit => ?_⟩
      have handling := pending.handling isOk fit
      simp only [Handling, checking, unseen] at handling
      exact handling.2
    · simp only [checking] at stage
      simp [hasResp] at stage
  unfold Standing at standing ⊢
  dsimp only
  split at standing
  · simp [hasResp] at standing
  · simp [hasResp] at standing
  · simp [unseen] at standing
  · exact exchange _ standing
  · exact exchange _ standing
  · simp [hasResp] at standing
  · simp [hasResp] at standing
  · simp [hasResp] at standing
  · simp [hasResp] at standing
  · trivial
  · exact standing.elim

theorem standing_busy (busy : client.parser ≠ .reading ∧ ∀ line, client.parser ≠ .checking line) :
    call.phase = .leaving .timeout ∨
      ∃ resp, call.resp = some resp ∧ (call.phase = .zeroing ∨ call.phase = .waiting) ∧
        (Pending cfg client call resp ∨ Completed client call resp) := by
  have notClean : ¬ Clean client := by
    rintro ⟨-, -, -, between⟩
    split at between
    · next reading => exact busy.1 reading
    · next line checking => exact busy.2 line checking
    · exact between
  unfold Standing at standing
  split at standing
  · exact absurd standing.2.1 notClean
  · exact absurd standing.2.1 notClean
  · exact absurd standing.2.1 notClean
  · next zeroing hasResp => exact .inr ⟨_, hasResp, .inl zeroing, standing⟩
  · next waiting hasResp => exact .inr ⟨_, hasResp, .inr waiting, standing⟩
  · exact absurd standing.2.1 notClean
  · exact absurd standing.2.1 notClean
  · exact absurd standing.2 notClean
  · exact absurd standing.2 notClean
  · next _ gaveUp => exact .inl gaveUp
  · exact standing.elim

end

theorem standing_of_waiting {next : AtCall} (hasResp : next.resp = some resp)
    (waits : next.phase = .zeroing ∨ next.phase = .waiting)
    (exchange : Pending cfg client next resp ∨ Completed client next resp) :
    Standing cfg client next := by
  unfold Standing
  rcases waits with phase | phase <;> simpa only [phase, hasResp] using exchange

theorem withResp_eq_some {act : AtCall → AtResponse → AtClient}
    (acted : client.withResp act = some after) :
    client.resp = true ∧ ∃ call resp, client.call = some call ∧ call.resp = some resp ∧
      act call resp = after := by
  obtain ⟨hasResp, acted⟩ := Option.ite_none_right_eq_some.mp acted
  obtain ⟨call, called, acted⟩ := Option.bind_eq_some_iff.mp acted
  obtain ⟨resp, isResp, acted⟩ := Option.map_eq_some_iff.mp acted
  exact ⟨hasResp, call, resp, called, isResp, acted⟩

section

variable (inv : Inv cfg client)

include inv

theorem inv_of_busy {next : AtCall} {stored : AtResponse}
    (busy : client.parser ≠ .reading ∧ ∀ line, client.parser ≠ .checking line)
    (called : client.call = some call) (isResp : call.resp = some resp)
    (calledNext : after.call = some next) (phase : next.phase = call.phase)
    (connects : next.connects = call.connects) (isStored : next.resp = some stored)
    (exchange : call.connects = false → Pending cfg client call resp ∨ Completed client call resp →
      Pending cfg after next stored ∨ Completed after next stored) : Inv cfg after := by
  simp only [Inv, called] at inv
  simp only [Inv, calledNext]
  intro executes
  rw [connects] at executes
  rcases standing_busy (inv executes) busy with gaveUp | ⟨u, isOther, waits, standing⟩
  · simp only [Standing, phase, gaveUp]
  · obtain rfl := Option.some.inj (isResp.symm.trans isOther)
    exact standing_of_waiting isStored (phase ▸ waits) (exchange executes standing)

theorem inv_of_ended (busy : client.parser ≠ .reading ∧ ∀ line, client.parser ≠ .checking line)
    (same : after.call = client.call)
    (ended : ∀ call resp, Pending cfg client call resp ∨ Completed client call resp →
      Completed after call resp) : Inv cfg after := by
  cases called : client.call with
  | none =>
    simp only [Inv, called] at inv
    obtain ⟨-, -, -, -, between⟩ := inv
    split at between
    · next reading => exact absurd reading busy.1
    · next line checking => exact absurd checking (busy.2 line)
    · exact between.elim
  | some call =>
    simp only [Inv, called] at inv
    simp only [Inv, same, called]
    intro executes
    rcases standing_busy (inv executes) busy with gaveUp | ⟨resp, isResp, waits, standing⟩
    · simp only [Standing, gaveUp]
    · exact standing_of_waiting isResp waits (.inr (ended call resp standing))

theorem inv_store (storing : client.parser = .storing line) (called : client.call = some call)
    (isResp : call.resp = some resp) : Inv cfg (client.store line call resp) := by
  have busy : client.parser ≠ .reading ∧ ∀ line, client.parser ≠ .checking line := by simp [storing]
  have notCompleted : ¬ Completed client call resp := by
    rintro ⟨-, stage⟩
    simp only [storing] at stage
  simp only [store]
  split_ifs with room
  · refine inv_of_busy inv busy called isResp rfl rfl rfl rfl fun _ exchange => ?_
    have pending := exchange.resolve_right notCompleted
    refine .inl ⟨pending.resp_eq, pending.respNotice_eq, pending.status, by simp,
      fun isOk fit => ?_⟩
    have handling := pending.handling isOk fit
    simp only [Handling, storing] at handling
    obtain ⟨handled, received, progress, continues⟩ := handling
    exact ⟨handled, received, progress.stored room, continues⟩
  · refine inv_of_busy inv busy called isResp called rfl rfl isResp fun _ exchange => ?_
    have pending := exchange.resolve_right notCompleted
    exact .inl ⟨pending.resp_eq, pending.respNotice_eq, .inr rfl, by simp, nofun⟩

theorem inv_judge (judging : client.parser = .judging line) (hasResp : client.resp = true)
    (called : client.call = some call) (isResp : call.resp = some resp)
    (fits : call.connects = false → respResult resp.lineNum client.lineCounts
      (terminated line.bytes) = some .ok → Fits cfg client call) :
    Inv cfg (client.judge line resp) := by
  have busy : client.parser ≠ .reading ∧ ∀ line, client.parser ≠ .checking line := by simp [judging]
  have notCompleted : ¬ Completed client call resp := by
    rintro ⟨-, stage⟩
    simp only [judging] at stage
  unfold judge
  split
  · rename_i status ends
    refine inv_of_busy inv busy called isResp called rfl rfl isResp fun executes exchange => ?_
    have pending := exchange.resolve_right notCompleted
    refine .inr ⟨respResult_cases ends, hasResp, pending.respNotice_eq, fun isOk => ?_⟩
    obtain rfl : status = .ok := isOk
    have fits := fits executes ends
    have handling := pending.handling (pending.status.resolve_right fits.1)
      fun line mem => (fits.2 line mem).1
    simp only [Handling, judging] at handling
    obtain ⟨handled, received, progress, continues⟩ := handling
    exact progress.content received continues ends fits
  · rename_i goesOn
    refine inv_of_busy inv busy called isResp called rfl rfl isResp fun _ exchange => ?_
    have pending := exchange.resolve_right notCompleted
    refine .inl ⟨hasResp, pending.respNotice_eq, pending.status, by simp, fun isOk fit => ?_⟩
    have handling := pending.handling isOk fit
    simp only [Handling, judging] at handling
    obtain ⟨handled, received, progress, continues⟩ := handling
    have counts : client.lineCounts = handled.length + 1 := by simpa using progress.counts_eq
    rw [counts] at goesOn
    rw [Handling, received]
    exact ⟨progress, continues.concat goesOn⟩

theorem inv_parse (undisturbed : Undisturbed cfg client .parse)
    (parsed : client.parse cfg = some after) : Inv cfg after := by
  unfold parse at parsed
  split at parsed
  · simp at parsed
  · rename_i line checking
    cases called : client.call with
    | none =>
      simp only [Inv, called] at inv
      obtain ⟨noResp, notice, bufLen, counts, -⟩ := inv
      simp only [called, noResp, or_true, if_true, Option.some.injEq] at parsed
      subst parsed
      exact ⟨rfl, notice, bufLen, counts, trivial⟩
    | some call =>
      simp only [Inv, called] at inv
      simp only [called] at parsed
      split_ifs at parsed with drops
      · cases parsed
        exact fun executes => standing_dropped (inv executes) checking drops
      · cases parsed
        obtain ⟨notUrc, hasResp⟩ := not_or.mp drops
        have hasResp : client.resp = true := by simpa using hasResp
        intro executes
        have matching := undisturbed call called executes
        simp only [Matching, checking] at matching
        have unseen := matching (by simpa using notUrc) hasResp
        exact standing_taken (inv executes) checking hasResp unseen
  · rename_i line storing
    obtain ⟨-, call, resp, called, isResp, rfl⟩ := withResp_eq_some parsed
    exact inv_store inv storing called isResp
  · rename_i line judging
    obtain ⟨hasResp, call, resp, called, isResp, rfl⟩ := withResp_eq_some parsed
    refine inv_judge inv judging hasResp called isResp fun executes => ?_
    have matching := undisturbed call called executes
    simp only [Matching, judging] at matching
    exact matching resp isResp
  · rename_i counting
    obtain ⟨-, call, resp, called, isResp, rfl⟩ := withResp_eq_some parsed
    refine inv_of_busy inv (by simp [counting]) called isResp rfl rfl rfl rfl
      fun _ exchange => ?_
    obtain ⟨status, stage⟩ := exchange.resolve_left fun pending => pending.parser.1 counting
    simp only [counting] at stage
    exact .inr ⟨status, stage⟩
  · rename_i clearing
    cases parsed
    refine inv_of_ended inv (by simp [clearing]) rfl fun call resp exchange => ?_
    obtain ⟨status, stage⟩ := exchange.resolve_left fun pending => pending.parser.2.1 clearing
    simp only [clearing] at stage
    exact ⟨status, rfl, stage.2⟩
  · rename_i releasing
    cases parsed
    refine inv_of_ended inv (by simp [releasing]) rfl fun call resp exchange => ?_
    obtain ⟨status, stage⟩ := exchange.resolve_left fun pending => pending.parser.2.2 releasing
    simp only [releasing] at stage
    obtain ⟨cleared, notice, content⟩ := stage
    exact ⟨status, cleared, by rw [notice], rfl, rfl, content⟩

end

end Parse

section Proceed

theorem pending_sent (hasResp : client.resp = true) (clean : Clean client)
    (isOk : client.respStatus = .ok) (call : AtCall) (received : call.received = [])
    (unseen : call.unseen = false) (resp : AtResponse) : Pending cfg client call resp := by
  obtain ⟨notice, bufLen, counts, between⟩ := clean
  have continues : Continues resp.lineNum [] := fun earlier line later split => by simp at split
  split at between
  · rename_i reading
    refine ⟨hasResp, notice, .inl isOk, by simp [reading], fun _ _ => ?_⟩
    simp only [Handling, reading, received, bufLen, counts]
    exact ⟨.nil resp, continues⟩
  · rename_i line checking
    refine ⟨hasResp, notice, .inl isOk, by simp [checking], fun _ _ => ?_⟩
    simp only [Handling, checking, received, bufLen, counts, unseen]
    exact ⟨nofun, [], rfl, .nil resp, continues⟩
  · exact between.elim

theorem pending_moved (pending : Pending cfg client call resp) {next : AtCall}
    (received : next.received = call.received) (unseen : next.unseen = call.unseen)
    (lineCounts : Nat) :
    Pending cfg { client with call := some next } next { resp with lineCounts } := by
  have progressed : ∀ {stored}, Progress client.respBufLen client.lineCounts resp stored →
      Progress client.respBufLen client.lineCounts { resp with lineCounts } stored :=
    fun progress => ⟨progress.bufLen_eq, progress.counts_eq, progress.room, progress.holds⟩
  refine ⟨pending.resp_eq, pending.respNotice_eq, pending.status, pending.parser,
    fun isOk fit => ?_⟩
  rw [received] at fit
  have handling := pending.handling isOk fit
  unfold Handling at handling ⊢
  dsimp only at handling ⊢
  rw [received, unseen]
  split at handling
  · exact ⟨progressed handling.1, handling.2⟩
  · obtain ⟨notUrc, handled, split, progress, continues⟩ := handling
    exact ⟨notUrc, handled, split, progressed progress, continues⟩
  · obtain ⟨handled, split, progress, continues⟩ := handling
    exact ⟨handled, split, progressed progress, continues⟩
  · obtain ⟨handled, split, progress, continues⟩ := handling
    exact ⟨handled, split, progressed progress, continues⟩
  · exact handling

theorem standing_proceed (standing : Standing cfg client call) (executes : call.connects = false)
    (orderly : Orderly client call)
    (proceeded : client.proceed call = some after) : Inv cfg after := by
  unfold proceed at proceeded
  split at proceeded
  · rename_i resetting
    cases proceeded
    simp only [Standing, resetting] at standing
    obtain ⟨noResp, clean, notSent, received, unseen⟩ := standing
    exact fun _ => ⟨noResp, clean, notSent, received, unseen, rfl⟩
  · rename_i publishing
    cases proceeded
    simp only [Standing, publishing] at standing
    rw [executes]
    exact fun _ => ⟨rfl, standing.2⟩
  · rename_i sending
    cases proceeded
    simp only [Standing, sending] at standing
    obtain ⟨hasResp, clean, -, -, -, isOk⟩ := standing
    cases isResp : call.resp with
    | none =>
      simp only [executes, setPhase]
      exact fun _ => ⟨by rw [hasResp, isResp]; rfl, clean⟩
    | some resp =>
      simp only [executes]
      have hasResp : client.resp = true := by rw [hasResp, isResp, Option.isSome_some]
      have pending : Pending cfg client { call with received := [], unseen := false } resp :=
        pending_sent hasResp clean isOk _ rfl rfl resp
      refine fun _ => .inl (pending_moved pending ?_ ?_ resp.lineCounts) <;> rfl
  · rename_i zeroing
    cases proceeded
    simp only [Orderly, zeroing] at orderly
    cases isResp : call.resp with
    | none => simp only [Standing, zeroing, isResp] at standing
    | some resp =>
      simp only [Standing, zeroing, isResp] at standing
      simp only [executes, setPhase]
      refine fun _ => standing.imp (fun pending => ?_) fun completed => ?_
      · refine pending_moved pending ?_ ?_ 0 <;> rfl
      · obtain ⟨status, stage⟩ := completed
        refine ⟨status, ?_⟩
        have early := orderly executes
        dsimp only
        revert stage
        split
        · exact id
        · next clearing => exact fun stage => ⟨stage.1, stage.2.1, fun isOk =>
            absurd clearing (early isOk).2⟩
        · exact fun stage => ⟨stage.1, stage.2.1, fun isOk =>
            absurd (early isOk).1 (by simp [stage.1])⟩
        · exact fun stage => ⟨stage.1, stage.2.1, stage.2.2.1, stage.2.2.2.1, fun isOk =>
            absurd (early isOk).1 (by simp [stage.1])⟩
        · exact fun stage => ⟨stage.1, stage.2.1, stage.2.2.1, stage.2.2.2.1, fun isOk =>
            absurd (early isOk).1 (by simp [stage.1])⟩
        · exact id
  · rename_i waiting
    obtain ⟨noticed, proceeded⟩ := Option.ite_none_left_eq_some.mp proceeded
    cases proceeded
    cases isResp : call.resp with
    | none => simp only [Standing, waiting, isResp] at standing
    | some resp =>
      simp only [Standing, waiting, isResp] at standing
      obtain ⟨-, stage⟩ := standing.resolve_left fun pending => noticed pending.respNotice_eq
      simp only [executes, setPhase, isResp]
      revert stage
      split
      · exact fun stage => absurd stage.2.1 noticed
      · exact fun stage => absurd stage.2.1 noticed
      · exact fun stage => absurd stage.2.1 noticed
      · rename_i reading
        rintro ⟨cleared, notice, bufLen, counts, content⟩ -
        refine ⟨cleared, ⟨by rw [notice], bufLen, counts, ?_⟩, content⟩
        simp only [reading]
      · rename_i line checking
        rintro ⟨cleared, notice, bufLen, counts, content⟩ -
        refine ⟨cleared, ⟨by rw [notice], bufLen, counts, ?_⟩, content⟩
        simp only [checking]
      · exact False.elim
  · rename_i deciding
    cases proceeded
    cases isResp : call.resp with
    | none => simp only [Standing, deciding, isResp] at standing
    | some resp =>
      simp only [Standing, deciding, isResp] at standing
      obtain ⟨cleared, clean, content⟩ := standing
      by_cases isOk : client.respStatus = .ok
      · simp only [setPhase, isOk, isResp]
        exact fun _ => ⟨cleared, clean, content isOk⟩
      · simp only [isOk]
        exact fun _ => ⟨cleared, clean⟩
  · rename_i result leaving
    cases proceeded
    simp only [Orderly, leaving] at orderly
    refine ⟨rfl, ?_⟩
    have clean : Clean client := by
      cases result with
      | ok =>
        cases isResp : call.resp with
        | none =>
          simp only [Standing, leaving, isResp] at standing
          exact standing.2
        | some resp =>
          simp only [Standing, leaving, isResp] at standing
          exact standing.2.1
      | error =>
        simp only [Standing, leaving] at standing
        exact standing.2
      | timeout => exact orderly (.inr rfl)
    exact clean

theorem connects_proceed (connects : call.connects = true)
    (clean : ∀ result, call.phase = .leaving result → Clean client)
    (proceeded : client.proceed call = some after) : Inv cfg after := by
  unfold proceed at proceeded
  split at proceeded
  case h_7 result leaving =>
    cases proceeded
    exact ⟨rfl, clean result leaving⟩
  case h_5 =>
    obtain ⟨-, proceeded⟩ := Option.ite_none_left_eq_some.mp proceeded
    cases proceeded
    exact fun executes => absurd executes (by simp [connects])
  all_goals
    cases proceeded
    exact fun executes => absurd executes (by simp [connects])

theorem inv_proceed (inv : Inv cfg client) (undisturbed : Undisturbed cfg client .proceed)
    (called : client.call = some call) (proceeded : client.proceed call = some after) :
    Inv cfg after := by
  simp only [Inv, called] at inv
  have orderly := undisturbed call called
  cases connects : call.connects with
  | false => exact standing_proceed (inv connects) connects orderly proceeded
  | true =>
    refine connects_proceed connects (fun result leaving => ?_) proceeded
    simp only [Orderly, leaving] at orderly
    exact orderly (.inl connects)

theorem inv_timeout {last : Bool} (timedOut : client.timeout call last = some after) :
    Inv cfg after := by
  unfold timeout at timedOut
  split at timedOut
  · obtain ⟨-, timedOut⟩ := Option.ite_none_left_eq_some.mp timedOut
    by_cases retries : call.connects = true ∧ last = false
    · rw [if_pos retries] at timedOut
      cases timedOut
      exact fun executes => absurd retries.1 (by simpa using executes)
    · rw [if_neg retries] at timedOut
      cases timedOut
      exact fun _ => trivial
  · simp at timedOut

theorem inv_enter {connects : Bool} {asked : Option AtResponse} {phase : CallPhase}
    (inv : Inv cfg client) (fits : connects = false → phase = .resetting)
    (entered : client.enter connects asked phase = some after) : Inv cfg after := by
  unfold enter at entered
  split at entered
  · simp at entered
  · rename_i called
    cases entered
    simp only [Inv, called] at inv
    intro executes
    obtain rfl := fits executes
    exact ⟨inv.1, inv.2, rfl, rfl, rfl⟩

theorem inv_setCli (inv : Inv cfg client) (cli : Bool) : Inv cfg { client with cli } := by
  have exchange : ∀ call resp, Pending cfg client call resp ∨ Completed client call resp →
      Pending cfg { client with cli } call resp ∨ Completed { client with cli } call resp :=
    fun call resp => Or.imp_left fun pending =>
      ⟨pending.resp_eq, pending.respNotice_eq, pending.status, pending.parser, pending.handling⟩
  cases called : client.call with
  | none =>
    simp only [Inv, called] at inv ⊢
    exact inv
  | some call =>
    simp only [called] at exchange
    simp only [Inv, called] at inv ⊢
    intro executes
    have standing := inv executes
    unfold Standing at standing ⊢
    split at standing
    · exact standing
    · exact standing
    · exact standing
    · exact exchange _ _ standing
    · exact exchange _ _ standing
    all_goals exact standing

theorem inv_step {e : ClientEvent} (inv : Inv cfg client) (undisturbed : Undisturbed cfg client e)
    (ran : client.step cfg e = some after) : Inv cfg after := by
  cases e with
  | exec asked =>
    simp only [step] at ran
    split_ifs at ran
    · cases ran
      exact inv
    · exact inv_enter inv (fun _ => rfl) ran
  | waitConnect => exact inv_enter inv (fun executes : true = false => nomatch executes) ran
  | setCli cli =>
    cases ran
    exact inv_setCli inv cli
  | proceed =>
    obtain ⟨call, called, proceeded⟩ := Option.bind_eq_some_iff.mp ran
    exact inv_proceed inv undisturbed called proceeded
  | timeout last =>
    obtain ⟨call, -, timedOut⟩ := Option.bind_eq_some_iff.mp ran
    exact inv_timeout timedOut
  | line bytes command => exact inv_receive inv ran
  | parse => exact inv_parse inv undisturbed ran

end Proceed

theorem Initial.inv (init : Initial client) : Inv cfg client := by
  simp only [Inv, init.call_eq]
  refine ⟨init.resp_eq, init.respNotice_eq, init.respBufLen_eq, init.lineCounts_eq, ?_⟩
  simp only [init.parser_eq]

theorem faithful_of_inv (inv : Inv cfg client) : Faithful client := by
  intro call called executes leaving resp isResp
  have called : client.call = some call := called
  have isResp : call.resp = some resp := isResp
  simp only [Inv, called] at inv
  have standing := inv executes
  simp only [Standing, leaving, isResp] at standing
  exact standing.2.2.answered

/-- In a run whose steps are all undisturbed, each call that returns `RT_EOK` has its answer. -/
theorem responses_faithful {taken : List (Taken AtClient ClientEvent)} {last : AtClient}
    (run : (system cfg).Run taken last) (every : EveryStep (Undisturbed cfg) taken) :
    Throughout Faithful taken last :=
  (run.throughout_of_everyStep (fun _ init => Initial.inv init)
    (fun _ _ _ inv undisturbed ran => inv_step inv undisturbed ran) every).imp
    fun _ inv => faithful_of_inv inv

def plainConfig : ClientConfig := ⟨64, 0, []⟩

def idleClient : AtClient := ⟨false, false, 0, .ok, 0, 0, .reading, none, 0, []⟩

def csqLine : List UInt8 := [43, 67, 83, 81, 13, 10]
def okLine : List UInt8 := [79, 75, 13, 10]

def answer (bufSize : Nat) : List ClientEvent :=
  [.exec (some (atCreateResp bufSize 0 100)), .proceed, .proceed, .proceed, .proceed,
    .line csqLine 0, .parse, .parse, .parse, .line okLine 0, .parse, .parse, .parse, .parse,
    .parse, .parse, .proceed, .proceed]

theorem plain_response_faithful : ∃ (taken : List (Taken AtClient ClientEvent)) (last : AtClient),
      (system plainConfig).Run taken last ∧ Throughout Faithful taken last := by
  have run : (system plainConfig).Run _ _ :=
    .executed idleClient (answer 32) ⟨rfl, rfl, rfl, rfl, rfl, rfl⟩ (by decide +kernel)
  exact ⟨_, _, run, responses_faithful run (by decide +kernel)⟩

/-- The first line does not fit into the buffer.  The status that tells so is overwritten by
that of the second. -/
theorem short_buffer_loses_line : ¬ ∀ (taken : List (Taken AtClient ClientEvent)) (last : AtClient),
      (system plainConfig).Run taken last → Throughout Faithful taken last := by
  intro claim
  have run : (system plainConfig).Run _ _ :=
    .executed idleClient (answer 6) ⟨rfl, rfl, rfl, rfl, rfl, rfl⟩ (by decide +kernel)
  let resp : AtResponse := ⟨[79, 75, 13, 0, 0, 0], 0, 1, 100⟩
  let call : AtCall := ⟨0, false, some resp, .leaving .ok, true, [⟨csqLine, 0⟩, ⟨okLine, 0⟩], false⟩
  obtain ⟨lines, later, split, ⟨earlier, final, concat, -, ends⟩, counts, -⟩ :=
    (claim _ _ run).1 call (by decide +kernel) rfl rfl resp rfl
  have counts : 1 = lines.length := counts
  have single : earlier = [] := by
    rw [concat] at counts
    simpa using counts
  rw [single, List.nil_append] at concat
  subst concat
  obtain ⟨rfl, -⟩ := List.cons.inj split
  exact absurd ends (by decide +kernel)

end AtClient

end RtThread.At
