import RtThread.Library.TextBuffer
import RtThread.Library.Words

/-!
# Logs and their backends

`ulog_formater`, `ulog_raw` and `ulog_hexdump` write a line into the log buffer, and
`ulog_output_to_all_backend` hands it to every registered backend.
-/

namespace RtThread.Ulog

def ulogLineBufSize : Nat := 256

def csiStart : List UInt8 := [27, 91]

def csiEnd : List UInt8 := [27, 91, 48, 109]

def fRed : List UInt8 := [51, 49, 109]

def fGreen : List UInt8 := [51, 50, 109]

def fYellow : List UInt8 := [51, 51, 109]

def fMagenta : List UInt8 := [51, 53, 109]

def ulogNewlineSign : List UInt8 := [13, 10]

def logLvlDbg : Nat := 7

def levelOutputInfo (level : Nat) : Option (List UInt8) :=
  match level with
  | 0 => some [65, 47]
  | 3 => some [69, 47]
  | 4 => some [87, 47]
  | 6 => some [73, 47]
  | 7 => some [68, 47]
  | _ => none

def colorOutputInfo (level : Nat) : Option (List UInt8) :=
  match level with
  | 0 => some fMagenta
  | 3 => some fRed
  | 4 => some fYellow
  | 6 => some fGreen
  | _ => none

structure Line where
  buffer : List UInt8
  length : Nat

def Line.store (line : Line) (bytes : List UInt8) : Option Line :=
  (TextBuffer.overwrite? line.buffer line.length bytes).map fun buffer =>
    { line with buffer := buffer }

def Line.extend (line : Line) (bytes : List UInt8) (count : Nat) : Option Line :=
  (line.store bytes).map fun line => { line with length := line.length + count }

def ulogStrcpy (line : Line) (src : List UInt8) : Option Line :=
  let copied := src.take (ulogLineBufSize - line.length)
  line.extend copied copied.length

def ulogStrcpyChecked (line : Line) (src : Option (List UInt8)) : Option Line :=
  src.bind (ulogStrcpy line)

def ulogUltoa (n : Nat) : List UInt8 := (Nat.toDigits 10 n).map fun digit => digit.toNat.toUInt8

/-- What a call of `vsnprintf` has to write: a text, or whatever it has written when it
fails. -/
inductive Formatted where
  | text (text : List UInt8)
  | failed (written : List UInt8)

/-- `vsnprintf` with room for `size` bytes: what it writes, and its result unless negative. -/
def vsnprintf (size : Nat) : Formatted → List UInt8 × Option Nat
  | .text text => ((text.take (size - 1) ++ [0]).take size, some text.length)
  | .failed written => (written.take size, none)

def formatColor (line : Line) (level : Nat) : Option Line :=
  match colorOutputInfo level with
  | none => some line
  | some color => (ulogStrcpy line csiStart).bind fun line => ulogStrcpy line color

/-- The part of `ulog_formater` in front of the message. -/
def formatHead (line : Line) (level : Nat) (tag : List UInt8) (tick : Nat) : Option Line := do
  let line ← formatColor line level
  let time := [91] ++ ulogUltoa tick ++ [93]
  let line ← line.extend (time ++ [0]) time.length
  let line ← ulogStrcpy line [32]
  let line ← ulogStrcpyChecked line (levelOutputInfo level)
  let line ← ulogStrcpy line tag
  ulogStrcpy line [58, 32]

/-- The length behind a message, without the space for `CSI_END` and the newline sign. -/
def messageLength (length : Nat) (fmtResult : Option Nat) : Nat :=
  let length :=
    match fmtResult with
    | some count => if length + count ≤ ulogLineBufSize then length + count else ulogLineBufSize
    | none => ulogLineBufSize
  if length + csiEnd.length + ulogNewlineSign.length > ulogLineBufSize then
    ulogLineBufSize - csiEnd.length - ulogNewlineSign.length
  else length

def formatMessage (line : Line) (message : Formatted) : Option Line :=
  let result := vsnprintf (ulogLineBufSize - line.length) message
  (line.store result.1).map fun stored =>
    { stored with length := messageLength line.length result.2 }

def formatNewline (line : Line) (newline : Bool) : Option Line :=
  if newline then ulogStrcpy line ulogNewlineSign else some line

def ulogFormater (buffer : List UInt8) (level : Nat) (tag : List UInt8) (newline : Bool)
    (message : Formatted) (tick : Nat) : Option Line := do
  let line ← formatHead { buffer := buffer, length := 0 } level tag tick
  let line ← formatMessage line message
  let line ← formatNewline line newline
  match colorOutputInfo level with
  | none => some line
  | some _ => ulogStrcpy line csiEnd

def formatHex (digits n : Nat) : List UInt8 :=
  let text := (Nat.toDigits 16 n).map fun digit => digit.toUpper.toNat.toUInt8
  List.replicate (digits - text.length) 48 ++ text

def isPrint (ch : UInt8) : Bool := (ch - 32).toNat < 127 - 32

/-- What `ulog_hexdump` writes for the byte at `i + j`, and behind each eighth one. -/
def hexCell (line : Line) (bytes : List UInt8) (i j : Nat) : Option Line :=
  let dumpString :=
    match bytes[i + j]? with
    | some byte => formatHex 2 byte.toNat ++ [32]
    | none => [32, 32, 32]
  (ulogStrcpy line dumpString).bind fun line =>
    if (j + 1) % 8 = 0 then ulogStrcpy line [32] else some line

def charCell (line : Line) (bytes : List UInt8) (i j : Nat) : Option Line :=
  match bytes[i + j]? with
  | some byte => ulogStrcpy line [if isPrint byte then byte else 46]
  | none => some line

def hexdumpHead (line : Line) (tag : List UInt8) (i : Nat) : Option Line :=
  if i = 0 then do
    let line ← ulogStrcpy line [68, 47, 72, 69, 88, 32]
    let line ← ulogStrcpy line tag
    ulogStrcpy line [58, 32]
  else
    let length := 6 + tag.length + 2
    ({ line with length := 0 } : Line).extend (List.replicate length 32) length

/-- One round of the loop of `ulog_hexdump`, up to the output. -/
def hexdumpLine (line : Line) (tag : List UInt8) (width : Nat) (bytes : List UInt8) (i : Nat) :
    Option Line := do
  let line ← hexdumpHead line tag i
  let range := formatHex 4 i ++ [45] ++ formatHex 4 (i + width) ++ [58, 32]
  let line ← line.extend (range ++ [0]) range.length
  let line ← (List.range width).foldlM (fun line j => hexCell line bytes i j) line
  let line ← ulogStrcpy line [32, 32]
  let line ← (List.range width).foldlM (fun line j => charCell line bytes i j) line
  let line : Line :=
    if line.length + ulogNewlineSign.length > ulogLineBufSize then
      { line with length := ulogLineBufSize - ulogNewlineSign.length }
    else line
  ulogStrcpy line ulogNewlineSign

structure Log where
  level : Nat
  tag : Option (List UInt8)
  isRaw : Bool
  buffer : List UInt8
  size : Nat
deriving DecidableEq

/-- The logs of at most `rounds` rounds of the loop of `ulog_hexdump`. -/
def hexdumpFrom (tag : List UInt8) (width : Nat) (bytes : List UInt8) :
    Nat → Line → Nat → Option (List Log)
  | 0, _, _ => some []
  | rounds + 1, line, i =>
    if i < bytes.length then
      match hexdumpLine line tag width bytes i with
      | none => none
      | some line =>
        (hexdumpFrom tag width bytes rounds line (i + width)).map
          ({ level := logLvlDbg, tag := none, isRaw := true, buffer := line.buffer,
             size := line.length } :: ·)
    else some []

inductive Call where
  | voutput (level : Nat) (tag : List UInt8) (newline : Bool) (message : Formatted) (tick : Nat)
  | raw (message : Formatted)
  | hexdump (tag : List UInt8) (width : Nat) (bytes : List UInt8) (rounds : Nat)

def ulogRaw (buffer : List UInt8) (message : Formatted) : Option Log :=
  let result := vsnprintf ulogLineBufSize message
  (({ buffer := buffer, length := 0 } : Line).store result.1).map fun line =>
    let length :=
      match result.2 with
      | some count => if count ≤ ulogLineBufSize then count else ulogLineBufSize
      | none => ulogLineBufSize
    { level := logLvlDbg, tag := none, isRaw := true, buffer := line.buffer, size := length }

/-- The logs that a call hands over, given what the buffer holds before it. -/
def logsOf (buffer : List UInt8) : Call → Option (List Log)
  | .voutput level tag newline message tick =>
    if level ≤ logLvlDbg then
      (ulogFormater buffer level tag newline message tick).map fun line =>
        [{ level := level, tag := some tag, isRaw := false, buffer := line.buffer,
           size := line.length }]
    else none
  | .raw message => (ulogRaw buffer message).map fun log => [log]
  | .hexdump tag width bytes rounds =>
    hexdumpFrom tag width bytes rounds { buffer := buffer, length := 0 } 0

structure Backend where
  name : Nat
  supportColor : Bool

/-- A call of `backend->output`: the slice that starts `start` bytes behind the start of the
buffer. -/
structure Output where
  backend : Backend
  level : Nat
  tag : Option (List UInt8)
  isRaw : Bool
  start : Nat
  size : Nat

/-- `rt_strlen` of an entry of the color table; `nullLength` is what it returns for the null
pointer. -/
def colorInfoLen (nullLength : Option Nat) (level : Nat) : Option Nat :=
  match colorOutputInfo level with
  | some color => some color.length
  | none => nullLength

def outputFrom (nullLength : Option Nat) (log : Log) : Nat → List Backend → Option (List Output)
  | _, [] => some []
  | start, backend :: backends =>
    let output (start size : Nat) : Output :=
      { backend := backend, level := log.level, tag := log.tag, isRaw := log.isRaw,
        start := start, size := size }
    if backend.supportColor then
      (outputFrom nullLength log start backends).map (output start log.size :: ·)
    else
      match colorInfoLen nullLength log.level with
      | none => none
      | some 0 => (outputFrom nullLength log start backends).map (output start log.size :: ·)
      | some colorInfoLen =>
        let colorHdrLen := csiStart.length + colorInfoLen
        (outputFrom nullLength log (start + colorHdrLen) backends).map
          (output (start + colorHdrLen)
            (Word32.sub log.size (colorHdrLen + csiEnd.length)) :: ·)

def ulogOutputToAllBackend (nullLength : Option Nat) (backends : List Backend) (log : Log) :
    Option (List Output) :=
  outputFrom nullLength log 0 backends

end RtThread.Ulog
