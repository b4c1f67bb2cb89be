import RtThread.At.ServerCommands
import RtThread.Dfs.Normalize
import RtThread.Library.TransitionSystem

/-!
# The parser of the AT server

The parser appends every byte to its buffer and looks for the end mark in the string that
the buffer holds.  A complete line is dispatched, and the buffer cleared for the next one.
-/

namespace RtThread.At

open Dfs (CString)
open List (replicate length_append)
open TransitionSystem

/-- What is fixed when the server is built: the length of the buffer, the end mark and the
table of commands. -/
structure ServerConfig where
  recvBuffLen : Nat
  endMark : EndMark
  cmdTable : List AtCmd

/-- `struct at_server` with the locals of its parser.  `overrun` records a write outside of
`recv_buffer` or of the array for the name, `invoked` and `printed` what the last byte has
led to. -/
structure AtServer where
  recvBuffer : List Char
  curRecvLen : Nat
  running : Bool
  overrun : Bool
  invoked : List (AtCmd × AtHandler)
  printed : List AtResult

/-- A byte from the device, with the echo mode in which it is read, and what a handler answers
that is called for it. -/
structure Received where
  ch : Char
  echoMode : Bool
  answer : AtResult

def escKey : Char := '\x1b'
def backspaceKey : Char := '\x08'
def delectKey : Char := '\x7f'

def Received.erases (received : Received) : Bool :=
  received.echoMode && decide (received.ch = backspaceKey ∨ received.ch = delectKey)

def strstr (text mark : List Char) : Bool := decide (mark <:+: text)

namespace AtServer

variable (cfg : ServerConfig)

def clear (server : AtServer) : AtServer :=
  { server with recvBuffer := replicate cfg.recvBuffLen '\x00', curRecvLen := 0 }

def text (server : AtServer) : List Char := (CString.ofMemory server.recvBuffer).chars

def processLine (server : AtServer) (answer : AtResult) : AtServer :=
  let dispatched := dispatch cfg.cmdTable server.text answer
  let tooLong := (atCmdGetName server.text).any fun name => !decide (name.length < atCmdNameLen)
  let after := { server with
    overrun := server.overrun || tooLong, invoked := dispatched.invoked
    printed := dispatched.printed, running := !dispatched.asserted }
  if dispatched.asserted then after else after.clear cfg

/-- `server->recv_buffer[server->cur_recv_len++] = ch;` -/
def store (server : AtServer) (ch : Char) : AtServer :=
  if server.curRecvLen < cfg.recvBuffLen then
    { server with
      recvBuffer := server.recvBuffer.set server.curRecvLen ch
      curRecvLen := server.curRecvLen + 1 }
  else { server with overrun := true, curRecvLen := server.curRecvLen + 1 }

def step (server : AtServer) (received : Received) : Option AtServer :=
  if !server.running then none
  else
    let server := { server with invoked := [], printed := [] }
    if received.ch = escKey then some { server with running := false }
    else if received.erases then
      if 0 < server.curRecvLen then
        some { server with
          recvBuffer := server.recvBuffer.set (server.curRecvLen - 1) '\x00'
          curRecvLen := server.curRecvLen - 1 }
      else some server
    else
      let server := server.store cfg received.ch
      if !strstr server.text cfg.endMark.chars then some server
      else some (server.processLine cfg received.answer)

def Initial (server : AtServer) : Prop :=
  server.recvBuffer = replicate cfg.recvBuffLen '\x00' ∧ server.curRecvLen = 0 ∧
    server.running = true ∧ server.overrun = false

def system : TransitionSystem AtServer Received := ofFunction (Initial cfg) (step cfg)

def pending (server : AtServer) : List Char := server.recvBuffer.take server.curRecvLen

def contentOf (line : List Char) : List Char :=
  line.take (line.length - cfg.endMark.chars.length)

/-- What a byte has to do: nothing is written out of bounds, a character erased or added
changes the line and calls nothing, and a line completed calls what it asks for and leaves an
empty buffer. -/
def Correct (step : Taken AtServer Received) : Prop :=
  step.after.overrun = false ∧
  let line := step.before.pending ++ [step.event.ch]
  if step.event.ch = escKey then step.after.running = false ∧ step.after.invoked = []
  else if step.event.erases then
    step.after.running = true ∧ step.after.invoked = [] ∧
      step.after.pending = step.before.pending.dropLast
  else if cfg.endMark.chars <:+ line then
    step.after.running = true ∧ Obeys cfg.cmdTable (contentOf cfg line) step.after.invoked ∧
      step.after.recvBuffer = replicate cfg.recvBuffLen '\x00' ∧ step.after.curRecvLen = 0
  else step.after.running = true ∧ step.after.invoked = [] ∧ step.after.pending = line

/-- There is room for the byte, and a line that it completes has no NUL in it, a short name,
and a suffix that the command takes. -/
def Served (server : AtServer) (received : Received) : Prop :=
  let line := server.pending ++ [received.ch]
  received.ch = escKey ∨ received.erases = true ∨
    server.curRecvLen < cfg.recvBuffLen ∧
    (cfg.endMark.chars <:+ line → '\x00' ∉ line ∧
      (∀ name ∈ atCmdGetName line, name.length < atCmdNameLen) ∧
      Accepted cfg.cmdTable cfg.endMark (contentOf cfg line))

instance (server : AtServer) (received : Received) :
    Decidable (server.Served cfg received) := by
  unfold Served
  infer_instance

structure Holds (server : AtServer) (line : List Char) : Prop where
  len : server.curRecvLen = line.length
  fits : line.length ≤ cfg.recvBuffLen
  buffer : server.recvBuffer = line ++ replicate (cfg.recvBuffLen - line.length) '\x00'

structure Sound (server : AtServer) : Prop where
  holds : server.Holds cfg server.pending
  unfinished : ¬ cfg.endMark.chars <:+: server.pending
  overrun : server.overrun = false

variable {cfg} {server after : AtServer} {line : List Char} {ch : Char}

theorem ofMemory_of_noNul (noNul : '\x00' ∉ line) : (CString.ofMemory line).chars = line := by
  refine List.takeWhile_eq_self_iff.mpr fun c isIn => ?_
  have : c ≠ '\x00' := fun isNul => noNul (isNul ▸ isIn)
  simpa using this

theorem Holds.erase (holds : server.Holds cfg (line ++ [ch])) :
    Holds cfg
      { server with
        recvBuffer := server.recvBuffer.set (server.curRecvLen - 1) '\x00'
        curRecvLen := server.curRecvLen - 1 } line := by
  have fits := holds.fits
  have len := holds.len
  rw [length_append, List.length_singleton] at fits len
  have zeros : cfg.recvBuffLen - line.length = cfg.recvBuffLen - (line.length + 1) + 1 := by omega
  refine ⟨by simp [len], by omega, ?_⟩
  rw [zeros, List.replicate_succ]
  simp [holds.buffer, len]

section

variable (holds : server.Holds cfg line)

include holds

theorem Holds.pending_eq : server.pending = line := by
  rw [pending, holds.buffer, holds.len, List.take_left]

theorem Holds.text_eq : server.text = (CString.ofMemory line).chars := by
  rw [text, holds.buffer]
  simp only [CString.ofMemory]
  rw [List.takeWhile_append]
  split_ifs with whole
  · rw [show (replicate (cfg.recvBuffLen - line.length) '\x00').takeWhile
      (· ≠ '\x00') = [] by simp, List.append_nil]
    exact (List.IsPrefix.eq_of_length (List.takeWhile_prefix _) whole).symm
  · rfl

theorem Holds.store (room : line.length < cfg.recvBuffLen) :
    (server.store cfg ch).Holds cfg (line ++ [ch]) := by
  obtain ⟨rest, eq⟩ := Nat.exists_eq_add_of_lt room
  have zeros : cfg.recvBuffLen - line.length = rest + 1 := by omega
  have fewer : cfg.recvBuffLen - (line.length + 1) = rest := by omega
  rw [AtServer.store, if_pos (by rw [holds.len]; exact room)]
  refine ⟨by simp [holds.len], by rw [length_append]; exact room, ?_⟩
  simp [holds.buffer, holds.len, zeros, fewer, List.replicate_succ]

theorem Sound.of_holds (unfinished : ¬ cfg.endMark.chars <:+: line)
    (overrun : server.overrun = false) : server.Sound cfg := by
  have same := holds.pending_eq
  exact ⟨by rw [same]; exact holds, by rw [same]; exact unfinished, overrun⟩

end

theorem endMark_ne_nil (mark : EndMark) : mark.chars ≠ [] := by cases mark <;> simp [EndMark.chars]

theorem Initial.sound (init : Initial cfg server) : server.Sound cfg := by
  obtain ⟨buffer, len, -, overrun⟩ := init
  have holds : server.Holds cfg [] := ⟨len, Nat.zero_le _, by simpa using buffer⟩
  refine Sound.of_holds holds ?_ overrun
  simpa using endMark_ne_nil cfg.endMark

theorem strstr_iff (unfinished : ¬ cfg.endMark.chars <:+: line) :
    strstr (CString.ofMemory (line ++ [ch])).chars cfg.endMark.chars = true ↔
      '\x00' ∉ line ++ [ch] ∧ cfg.endMark.chars <:+ line ++ [ch] := by
  rw [strstr, decide_eq_true_eq]
  by_cases noNul : '\x00' ∉ line ++ [ch]
  · rw [ofMemory_of_noNul noNul, List.infix_concat_iff]
    simp [noNul, unfinished]
  · simp only [noNul, false_and, iff_false]
    intro found
    refine unfinished (found.trans ?_)
    have isPrefix : (CString.ofMemory (line ++ [ch])).chars <+: line ++ [ch] :=
      List.takeWhile_prefix _
    rcases List.prefix_concat_iff.mp isPrefix with whole | earlier
    · have terminated := (CString.ofMemory (line ++ [ch])).terminated
      rw [whole] at terminated
      exact absurd terminated noNul
    · exact earlier.isInfix

section Step

variable {received : Received}

theorem processLine_spec (server : AtServer) (answer : AtResult)
    (asserted : (dispatch cfg.cmdTable server.text answer).asserted = false) :
    server.processLine cfg answer = { server with
        overrun := server.overrun ||
          (atCmdGetName server.text).any fun name => !decide (name.length < atCmdNameLen)
        invoked := (dispatch cfg.cmdTable server.text answer).invoked
        printed := (dispatch cfg.cmdTable server.text answer).printed
        running := true
        recvBuffer := replicate cfg.recvBuffLen '\x00'
        curRecvLen := 0 } := by
  simp [processLine, asserted, clear]

theorem contentOf_append {content : List Char} :
    contentOf cfg (content ++ cfg.endMark.chars) = content := by
  rw [contentOf, length_append, Nat.add_sub_cancel, List.take_left]

theorem tooLong_iff (text : List Char) :
    ((atCmdGetName text).any fun name => !decide (name.length < atCmdNameLen)) = false ↔
      ∀ name ∈ atCmdGetName text, name.length < atCmdNameLen := by
  cases atCmdGetName text <;> simp

theorem completes_iff (stored : (server.store cfg ch).Holds cfg (server.pending ++ [ch]))
    (overrun : (server.store cfg ch).overrun = false)
    (complete : cfg.endMark.chars <:+ server.pending ++ [ch])
    (noNul : '\x00' ∉ server.pending ++ [ch]) (answer : AtResult) :
    (((server.store cfg ch).processLine cfg answer).overrun = false ∧
      ((server.store cfg ch).processLine cfg answer).running = true ∧
      Obeys cfg.cmdTable (contentOf cfg (server.pending ++ [ch]))
        ((server.store cfg ch).processLine cfg answer).invoked ∧
      ((server.store cfg ch).processLine cfg answer).recvBuffer =
        replicate cfg.recvBuffLen '\x00' ∧
      ((server.store cfg ch).processLine cfg answer).curRecvLen = 0) ↔
    (∀ name ∈ atCmdGetName (server.pending ++ [ch]), name.length < atCmdNameLen) ∧
      Accepted cfg.cmdTable cfg.endMark (contentOf cfg (server.pending ++ [ch])) := by
  have isText : (server.store cfg ch).text = server.pending ++ [ch] := by
    rw [stored.text_eq, ofMemory_of_noNul noNul]
  obtain ⟨content, isLine⟩ := complete
  rw [← isLine] at isText ⊢
  rw [contentOf_append, ← dispatch_obeys_iff cfg.cmdTable cfg.endMark content answer, ← tooLong_iff]
  cases asserted : (dispatch cfg.cmdTable (content ++ cfg.endMark.chars) answer).asserted with
  | true => simp [processLine, isText, asserted]
  | false =>
    rw [processLine_spec _ _ (by rw [isText]; exact asserted)]
    simp [isText, overrun]

theorem step_of_running (running : server.running = true) : server.step cfg received =
    let server := { server with invoked := [], printed := [] }
    if received.ch = escKey then some { server with running := false }
    else if received.erases then
      if 0 < server.curRecvLen then
        some { server with
          recvBuffer := server.recvBuffer.set (server.curRecvLen - 1) '\x00'
          curRecvLen := server.curRecvLen - 1 }
      else some server
    else
      let server := server.store cfg received.ch
      if !strstr server.text cfg.endMark.chars then some server
      else some (server.processLine cfg received.answer) := by
  rw [step, if_neg (by simp [running])]

section

variable (inv : server.Sound cfg)

include inv

theorem Sound.fresh : Sound cfg { server with invoked := [], printed := [] } :=
  ⟨⟨inv.holds.len, inv.holds.fits, inv.holds.buffer⟩, inv.unfinished, inv.overrun⟩

theorem Sound.erased (erases : received.erases = true) (notEsc : received.ch ≠ escKey)
    (running : server.running = true) (ran : server.step cfg received = some after) :
    after.Sound cfg ∧ after.running = true ∧ after.invoked = [] ∧
      after.pending = server.pending.dropLast := by
  rw [step_of_running running] at ran
  simp only [notEsc, erases, if_false, if_true] at ran
  rcases List.eq_nil_or_concat server.pending with none | ⟨front, c, isLine⟩
  · have empty : server.curRecvLen = 0 := by rw [inv.holds.len, none, List.length_nil]
    rw [if_neg (by omega)] at ran
    cases ran
    exact ⟨inv.fresh, running, rfl, by rw [none]; exact none⟩
  · have holds : ({ server with invoked := [], printed := [] } : AtServer).Holds cfg
        (front ++ [c]) := by
      rw [← List.concat_eq_append, ← isLine]
      exact inv.fresh.holds
    have nonempty : 0 < server.curRecvLen := by
      rw [inv.holds.len, isLine]
      simp
    rw [if_pos nonempty] at ran
    cases ran
    have erased := holds.erase
    refine ⟨Sound.of_holds erased (fun found => ?_) inv.overrun, running, rfl, ?_⟩
    · refine inv.unfinished ?_
      rw [isLine, List.concat_eq_append]
      exact found.trans (List.prefix_append _ _).isInfix
    · rw [erased.pending_eq, isLine, List.concat_eq_append, List.dropLast_concat]

theorem Sound.stored (notErases : received.erases = false) (notEsc : received.ch ≠ escKey)
    (running : server.running = true) (ran : server.step cfg received = some after) :
    (Correct cfg ⟨server, received, after⟩ ↔ server.Served cfg received) ∧
      (server.Served cfg received → after.Sound cfg) := by
  have fresh := inv.fresh
  rw [step_of_running running] at ran
  simp only [notEsc, notErases, Bool.false_eq_true, if_false] at ran
  simp only [Correct, Served, notEsc, notErases, Bool.false_eq_true, false_or]
  generalize isServer : ({ server with invoked := [], printed := [] } : AtServer) = cleared
    at ran fresh
  have samePending : cleared.pending = server.pending := by rw [← isServer]; rfl
  have sameLen : cleared.curRecvLen = server.curRecvLen := by rw [← isServer]
  have stillRunning : cleared.running = true := by rw [← isServer]; exact running
  have noneInvoked : cleared.invoked = [] := by rw [← isServer]
  rw [← samePending, ← sameLen]
  by_cases room : cleared.curRecvLen < cfg.recvBuffLen
  · have holds : (cleared.store cfg received.ch).Holds cfg
        (cleared.pending ++ [received.ch]) :=
      fresh.holds.store (by rw [← fresh.holds.len]; exact room)
    have frame : (cleared.store cfg received.ch).overrun = false ∧
        (cleared.store cfg received.ch).running = true ∧
        (cleared.store cfg received.ch).invoked = [] := by
      rw [store, if_pos room]
      exact ⟨fresh.overrun, stillRunning, noneInvoked⟩
    have found := @strstr_iff cfg cleared.pending received.ch fresh.unfinished
    rw [← holds.text_eq] at found
    simp only [room, true_and]
    by_cases complete : cfg.endMark.chars <:+ cleared.pending ++ [received.ch]
    · simp only [complete, true_imp_iff, and_true] at found ⊢
      by_cases noNul : '\x00' ∉ cleared.pending ++ [received.ch]
      · have isFound := found.mpr noNul
        simp only [isFound, Bool.not_true, Bool.false_eq_true, if_false, Option.some.injEq] at ran
        subst ran
        have iff := completes_iff holds frame.1 complete noNul received.answer
        simp only [noNul, not_false_eq_true, true_and]
        refine ⟨iff, fun accepted => ?_⟩
        obtain ⟨overrun, -, -, buffer, len⟩ := iff.mpr accepted
        have empty : AtServer.Holds cfg
            ((cleared.store cfg received.ch).processLine cfg received.answer) [] :=
          ⟨len, Nat.zero_le _, by simpa using buffer⟩
        refine Sound.of_holds empty ?_ overrun
        simpa using endMark_ne_nil cfg.endMark
      · have notFound : strstr (cleared.store cfg received.ch).text cfg.endMark.chars =
            false := Bool.eq_false_iff.mpr fun isFound => noNul (found.mp isFound)
        simp only [notFound, Bool.not_false, if_true, Option.some.injEq] at ran
        subst ran
        simp only [noNul, false_and, iff_false, false_imp_iff, and_true]
        rintro ⟨-, -, -, -, len⟩
        rw [holds.len] at len
        simp at len
    · have notFound : strstr (cleared.store cfg received.ch).text cfg.endMark.chars =
          false := by simpa [complete] using found
      simp only [notFound, Bool.not_false, if_true, Option.some.injEq] at ran
      subst ran
      simp only [complete, false_imp_iff, iff_true, true_imp_iff]
      refine ⟨⟨frame.1, frame.2.1, frame.2.2, holds.pending_eq⟩, ?_⟩
      refine Sound.of_holds holds (fun isIn => ?_) frame.1
      rcases List.infix_concat_iff.mp isIn with isSuffix | isIn
      · exact complete isSuffix
      · exact fresh.unfinished isIn
  · have overrun : (cleared.store cfg received.ch).overrun = true := by
      rw [store, if_neg room]
    simp only [room, false_and, iff_false, false_imp_iff, and_true]
    intro noOverrun
    split_ifs at ran
    · rw [← Option.some.inj ran, overrun] at noOverrun
      exact nomatch noOverrun
    · have kept : ((cleared.store cfg received.ch).processLine cfg received.answer).overrun =
          true := by
        simp only [processLine, overrun]
        split_ifs <;> rfl
      rw [← Option.some.inj ran, kept] at noOverrun
      exact nomatch noOverrun

theorem Sound.step (ran : server.step cfg received = some after) :
    (Correct cfg ⟨server, received, after⟩ ↔ server.Served cfg received) ∧
      (server.Served cfg received → after.Sound cfg) := by
  have running : server.running = true := by
    by_contra stopped
    simp [AtServer.step, stopped] at ran
  by_cases isEsc : received.ch = escKey
  · rw [step_of_running running] at ran
    simp only [isEsc, if_true, Option.some.injEq] at ran
    subst ran
    refine ⟨iff_of_true ⟨inv.overrun, ?_⟩ (.inl isEsc), fun _ =>
      ⟨⟨inv.holds.len, inv.holds.fits, inv.holds.buffer⟩, inv.unfinished, inv.overrun⟩⟩
    rw [if_pos isEsc]
    exact ⟨rfl, rfl⟩
  · cases erases : received.erases with
    | true =>
      obtain ⟨sound', running, invoked, pending⟩ := inv.erased erases isEsc running ran
      refine ⟨iff_of_true ⟨sound'.overrun, ?_⟩ (.inr (.inl erases)), fun _ => sound'⟩
      simp only [isEsc, erases]
      exact ⟨running, invoked, pending⟩
    | false => exact inv.stored erases isEsc running ran

end

end Step

end AtServer

/-- Every byte of a run is handled as it should be exactly if every byte is served. -/
theorem server_parser_iff (cfg : ServerConfig) {taken : List (Taken AtServer Received)}
    {last : AtServer} (run : (AtServer.system cfg).Run taken last) :
    (∀ step ∈ taken, AtServer.Correct cfg step) ↔ EveryStep (AtServer.Served cfg) taken :=
  run.everyTaken_iff_everyStep (fun _ init => AtServer.Initial.sound init)
    (fun _ _ _ inv served ran => (AtServer.Sound.step inv ran).2 served)
    (fun _ _ _ inv ran => (AtServer.Sound.step inv ran).1)

/-- Two commands of the base table, a buffer of sixteen characters and the default end mark. -/
def smallServer : ServerConfig where
  recvBuffLen := 16
  endMark := .crlf
  cmdTable :=
    [⟨['A', 'T'], none, false, false, false, true⟩,
      ⟨['A', 'T', 'E'], some ['<', 'v', 'a', 'l', 'u', 'e', '>'], false, false, true, false⟩]

def smallServerStart : AtServer := ⟨replicate 16 '\x00', 0, true, false, [], []⟩

def echoed (ch : Char) : Received := ⟨ch, true, .ok⟩

theorem two_lines_served : ∃ taken last, (AtServer.system smallServer).Run taken last ∧
      last.invoked.map Prod.snd = [.exec] ∧ ∀ step ∈ taken, AtServer.Correct smallServer step := by
  let bytes : List Received :=
    ['a', 't', 'd', '\x08', 'e', '1', '\x0d', '\n', 'A', 'T', '\x0d', '\n'].map echoed
  have run : (AtServer.system smallServer).Run _ _ :=
    .executed smallServerStart bytes ⟨rfl, rfl, rfl, rfl⟩ (by decide +kernel)
  exact ⟨_, _, run, by decide +kernel, (server_parser_iff _ run).mpr (by decide +kernel)⟩

/-- A line without an end mark is written past the end of the buffer. -/
theorem long_line_overruns : ¬ ∀ taken last, (AtServer.system smallServer).Run taken last →
      ∀ step ∈ taken, AtServer.Correct smallServer step := by
  intro claim
  let bytes : List Received := (replicate 17 'A').map echoed
  have run : (AtServer.system smallServer).Run _ _ :=
    .executed smallServerStart bytes ⟨rfl, rfl, rfl, rfl⟩ (by decide +kernel)
  have every := (run.everyTaken_iff_everyStep (fun _ init => AtServer.Initial.sound init)
    (fun _ _ _ inv served ran => (AtServer.Sound.step inv ran).2 served)
    (fun _ _ _ inv ran => (AtServer.Sound.step inv ran).1)).mp (claim _ _ run)
  exact absurd every (by decide +kernel)

end RtThread.At
