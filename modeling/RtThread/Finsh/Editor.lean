import RtThread.Finsh.Completion

/-!
# The line editor of the shell

`finsh_thread_entry` takes one byte after the other.
-/

namespace RtThread.Finsh

open TextBuffer

abbrev finshCmdSize : Nat := 80
abbrev finshHistoryLines : Nat := 5

inductive InputStat where
  | waitNormal
  | waitSpecKey
  | waitFuncKey
deriving DecidableEq

/-- `struct finsh_shell`, with the arguments of the calls of `msh_exec` so far. -/
structure FinshShell where
  stat : InputStat
  currentHistory : Nat
  historyCount : Nat
  cmdHistory : List (List UInt8)
  line : List UInt8
  linePosition : Nat
  lineCurpos : Nat
  executed : List (List UInt8 × Nat)

def FinshShell.empty : FinshShell where
  stat := .waitNormal
  currentHistory := 0
  historyCount := 0
  cmdHistory := List.replicate finshHistoryLines (List.replicate finshCmdSize 0)
  line := List.replicate finshCmdSize 0
  linePosition := 0
  lineCurpos := 0
  executed := []

namespace FinshShell

variable (shell : FinshShell)

def row (i : Nat) : List UInt8 := shell.cmdHistory.getD i []

/-- Clear a row of `rows` and copy the text of the line into it. -/
def storeHistory (rows : List (List UInt8)) (i : Nat) : Option (List (List UInt8)) :=
  (overwrite? (List.replicate finshCmdSize 0) 0 (shell.line.take shell.linePosition)).map
    (rows.set i ·)

def moveHistory : List (List UInt8) :=
  (List.range (finshHistoryLines - 1)).foldl
    (fun rows i => rows.set i (rows.getD (i + 1) [])) shell.cmdHistory

def pushed : Option (List (List UInt8) × Nat) :=
  if finshHistoryLines ≤ shell.historyCount then
    if shell.row (finshHistoryLines - 1) ≠ shell.line then
      (shell.storeHistory shell.moveHistory (finshHistoryLines - 1)).map (·, finshHistoryLines)
    else some (shell.cmdHistory, shell.historyCount)
  else if shell.historyCount = 0 ∨ shell.row (shell.historyCount - 1) ≠ shell.line then
    (shell.storeHistory shell.cmdHistory shell.historyCount).map (·, shell.historyCount + 1)
  else some (shell.cmdHistory, shell.historyCount)

def shellPushHistory : Option FinshShell :=
  if shell.linePosition ≠ 0 then
    shell.pushed.map fun (rows, count) =>
      { shell with cmdHistory := rows, historyCount := count, currentHistory := count }
  else some { shell with currentHistory := shell.historyCount }

def recallLine (i : Nat) : Option FinshShell :=
  (measured (shell.row i)).map fun (line, length) =>
    { shell with
      currentHistory := i
      line
      linePosition := length
      lineCurpos := length }

def upKey : Option FinshShell :=
  if 0 < shell.currentHistory then shell.recallLine (shell.currentHistory - 1) else some shell

/-- `history_count - 1` is an `int` in the first comparison. -/
def downKey : Option FinshShell :=
  if shell.currentHistory + 1 < shell.historyCount then shell.recallLine (shell.currentHistory + 1)
  else if shell.historyCount ≠ 0 then shell.recallLine (shell.historyCount - 1)
  else some shell

def leftKey : FinshShell :=
  if shell.lineCurpos ≠ 0 then { shell with lineCurpos := shell.lineCurpos - 1 } else shell

def rightKey : FinshShell :=
  if shell.lineCurpos < shell.linePosition then
    { shell with lineCurpos := shell.lineCurpos + 1 }
  else shell

def tabKey (env : Surroundings) : Option FinshShell :=
  ((mshAutoComplete env shell.line).bind measured).map fun (line, length) =>
    { shell with line, linePosition := length, lineCurpos := length }

def backspaceKey : Option FinshShell :=
  if shell.lineCurpos = 0 then some shell
  else
    let position := shell.linePosition - 1
    let curpos := shell.lineCurpos - 1
    let line :=
      if curpos < position then
        (memmove? shell.line curpos (curpos + 1) (position - curpos)).bind
          (overwrite? · position [0])
      else overwrite? shell.line position [0]
    line.map fun line => { shell with line, linePosition := position, lineCurpos := curpos }

/-- The end of the line: `msh_exec` is called and the line cleared. -/
def enterKey : Option FinshShell :=
  shell.shellPushHistory.map fun shell =>
    { shell with
      executed := shell.executed ++ [(shell.line, shell.linePosition)]
      line := List.replicate finshCmdSize 0
      linePosition := 0
      lineCurpos := 0 }

def normalCharacter (ch : UInt8) : Option FinshShell :=
  -- "it's a large line, discard it"
  let position := if finshCmdSize ≤ shell.linePosition then 0 else shell.linePosition
  let line :=
    if shell.lineCurpos < position then
      (memmove? shell.line (shell.lineCurpos + 1) shell.lineCurpos
        (position - shell.lineCurpos)).bind (overwrite? · shell.lineCurpos [ch])
    else overwrite? shell.line position [ch]
  line.map fun line =>
    -- "clear command line": the positions only
    if finshCmdSize ≤ position + 1 then { shell with line, linePosition := 0, lineCurpos := 0 }
    else { shell with line, linePosition := position + 1, lineCurpos := shell.lineCurpos + 1 }

def ordinary (env : Surroundings) (ch : UInt8) : Option FinshShell :=
  if ch = 0 ∨ ch = 0xff then some shell
  else if ch = 0x09 then shell.tabKey env
  else if ch = 0x7f ∨ ch = 0x08 then shell.backspaceKey
  else if ch = 0x0d ∨ ch = 0x0a then shell.enterKey
  else shell.normalCharacter ch

/-- The loop body of `finsh_thread_entry`, for the byte `ch`. -/
def finshThreadEntry (env : Surroundings) (ch : UInt8) : Option FinshShell :=
  if ch = 0x1b then some { shell with stat := .waitSpecKey }
  else
    match shell.stat with
    | .waitSpecKey =>
      if ch = 0x5b then some { shell with stat := .waitFuncKey }
      else ordinary { shell with stat := .waitNormal } env ch
    | .waitFuncKey =>
      let shell := { shell with stat := .waitNormal }
      if ch = 0x41 then shell.upKey
      else if ch = 0x42 then shell.downKey
      else if ch = 0x44 then some shell.leftKey
      else if ch = 0x43 then some shell.rightKey
      else shell.ordinary env ch
    | .waitNormal => shell.ordinary env ch

end FinshShell

inductive Key where
  | ignored
  | up
  | down
  | left
  | right
  | tab
  | backspace
  | enter
  | character (ch : UInt8)

def plainKey (ch : UInt8) : Key :=
  if ch = 0 ∨ ch = 0xff then .ignored
  else if ch = 0x09 then .tab
  else if ch = 0x7f ∨ ch = 0x08 then .backspace
  else if ch = 0x0d ∨ ch = 0x0a then .enter
  else .character ch

def decode : InputStat → UInt8 → InputStat × Key
  | .waitNormal, ch => if ch = 0x1b then (.waitSpecKey, .ignored) else (.waitNormal, plainKey ch)
  | .waitSpecKey, ch =>
    if ch = 0x1b then (.waitSpecKey, .ignored)
    else if ch = 0x5b then (.waitFuncKey, .ignored)
    else (.waitNormal, plainKey ch)
  | .waitFuncKey, ch =>
    if ch = 0x1b then (.waitSpecKey, .ignored)
    else if ch = 0x41 then (.waitNormal, .up)
    else if ch = 0x42 then (.waitNormal, .down)
    else if ch = 0x44 then (.waitNormal, .left)
    else if ch = 0x43 then (.waitNormal, .right)
    else (.waitNormal, plainKey ch)

structure Editor where
  stat : InputStat
  before : List UInt8
  after : List UInt8
  history : List (List UInt8)
  browsing : Nat
  executed : List (List UInt8)

namespace Editor

def empty : Editor := ⟨.waitNormal, [], [], [], 0, []⟩

variable (editor : Editor)

def text : List UInt8 := editor.before ++ editor.after

def limited : Editor :=
  if editor.text.length < finshCmdSize then editor else { editor with before := [], after := [] }

def recallLine (i : Nat) : Editor :=
  { editor with browsing := i, before := editor.history.getD i [], after := [] }

/-- The lines remembered after `line`, the last few that differ from the one before them. -/
def remember (line : List UInt8) (history : List (List UInt8)) : List (List UInt8) :=
  if line = [] ∨ history.getLast? = some line then history
  else if history.length < finshHistoryLines then history ++ [line]
  else history.tail ++ [line]

def press (env : Surroundings) : Key → Editor
  | .ignored => editor
  | .up => if 0 < editor.browsing then editor.recallLine (editor.browsing - 1) else editor
  | .down =>
    if editor.browsing + 1 < editor.history.length then editor.recallLine (editor.browsing + 1)
    else if editor.history ≠ [] then editor.recallLine (editor.history.length - 1)
    else editor
  | .left =>
    { editor with
      before := editor.before.dropLast
      after := editor.before.getLast?.toList ++ editor.after }
  | .right =>
    { editor with
      before := editor.before ++ editor.after.head?.toList
      after := editor.after.tail }
  | .tab => limited { editor with before := completed env editor.text, after := [] }
  | .backspace => { editor with before := editor.before.dropLast }
  | .enter =>
    { editor with
      before := []
      after := []
      history := remember editor.text editor.history
      browsing := (remember editor.text editor.history).length
      executed := editor.executed ++ [editor.text] }
  | .character ch => limited { editor with before := editor.before ++ [ch] }

def received (env : Surroundings) (ch : UInt8) : Editor :=
  press { editor with stat := (decode editor.stat ch).1 } env (decode editor.stat ch).2

end Editor

/-- The text stays shorter than the command buffer. -/
def Fits (env : Surroundings) (text : List UInt8) : Key → Prop
  | .character _ => text.length + 1 < finshCmdSize
  | .tab => (completed env text).length < finshCmdSize
  | _ => True

instance (env : Surroundings) (text : List UInt8) (key : Key) :
    Decidable (Fits env text key) := by
  unfold Fits
  split <;> infer_instance

end RtThread.Finsh
