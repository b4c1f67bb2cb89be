import Mathlib.Data.Nat.Digits.Lemmas
import Mathlib.Data.Stream.Defs

/-!
# Formatted output

`rt_vsnprintf` over any output that takes one character after the other.
-/

namespace RtThread.Kservice

/-- The bits of `flags` that the format sets. -/
structure Flags where
  zeropad : Bool := false
  plus : Bool := false
  space : Bool := false
  left : Bool := false
  special : Bool := false

/-- The `type` of a number: the flags and the bits its conversion sets. -/
structure NumberType extends Flags where
  sign : Bool := false
  large : Bool := false

/-- What stands between `%` and the letter of a conversion. -/
structure Directive where
  flags : Flags
  fieldWidth : Int
  precision : Int
  qualifier : Option Char

def divide (n base : Nat) : Nat × Nat :=
  if base = 10 then (n % 10, n / 10) else (n % 16, n / 16)

theorem divide_lt {n : Nat} (pos : n ≠ 0) (base : Nat) : (divide n base).2 < n := by
  unfold divide
  split <;> exact Nat.div_lt_self (by omega) (by omega)

/-- The digits `print_number` collects in `tmp`, the last one first. -/
def tmpDigits (base n : Nat) : List Nat :=
  if _zero : n = 0 then [] else (divide n base).1 :: tmpDigits base (divide n base).2
termination_by n
decreasing_by exact divide_lt _zero base

def smallDigits : List Char :=
  ['0', '1', '2', '3', '4', '5', '6', '7', '8', '9', 'a', 'b', 'c', 'd', 'e', 'f']

def largeDigits : List Char :=
  ['0', '1', '2', '3', '4', '5', '6', '7', '8', '9', 'A', 'B', 'C', 'D', 'E', 'F']

def signOf (num : BitVec 32) (type : NumberType) : Option Char :=
  if type.sign = false then none
  else if num.slt 0 then some '-'
  else if type.plus then some '+'
  else if type.space then some ' '
  else none

def magnitude (num : BitVec 32) (type : NumberType) : BitVec 32 :=
  if type.sign ∧ num.slt 0 then -num else num

def tmpOf (num : BitVec 32) (base : Nat) (large : Bool) : List Char :=
  if num = 0 then ['0']
  else (tmpDigits base num.toNat).map
    ((if large then largeDigits else smallDigits).getD · '0')

section Output

variable {Out : Type} (put : Out → Char → Out)

def fill (ch : Char) : Nat → Out → Out
  | 0, out => out
  | count + 1, out => fill ch count (put out ch)

def padding (ch : Char) (out : Out × Int) : Out × Int :=
  (fill put ch out.2.toNat out.1, out.2 - out.2.toNat - 1)

def printNumber (out : Out) (num : BitVec 32) (base : Nat) (s precision : Int)
    (type : NumberType) : Out :=
  let zeropad := type.zeropad && !type.left
  let sign := signOf num type
  let tmp := tmpOf (magnitude num type) base type.large
  let digits := max precision tmp.length
  let size := s - digits
  let out :=
    if zeropad || type.left then (out, size)
    else padding put ' ' (out, if sign.isSome ∧ 0 < size then size - 1 else size)
  let out := sign.elim out fun ch => (put out.1 ch, out.2 - 1)
  let out := if type.left then out else padding put (if zeropad then '0' else ' ') out
  let text := fill put '0' (digits - tmp.length).toNat out.1
  let text := if precision = 0 then text else tmp.reverse.foldl put text
  fill put ' ' out.2.toNat text

/-- The base and the type of an integer conversion. -/
def integerType (flags : Flags) : Char → Option (Nat × NumberType)
  | 'o' => some (8, { flags with })
  | 'X' => some (16, { flags with large := true })
  | 'x' => some (16, { flags with })
  | 'd' => some (10, { flags with sign := true })
  | 'i' => some (10, { flags with sign := true })
  | 'u' => some (10, { flags with })
  | _ => none

/-- `num`: the argument at the width of its qualifier. -/
def argument (qualifier : Option Char) (sign : Bool) (arg : BitVec 32) : BitVec 32 :=
  if qualifier = some 'h' then
    if sign then (arg.setWidth 16).signExtend 32 else (arg.setWidth 16).setWidth 32
  else arg

/-- `%c`: `while (--field_width > 0)` on either side. -/
def putChar (out : Out) (d : Directive) (arg : BitVec 32) : Out :=
  let turns := (d.fieldWidth - 1).toNat
  let width := if d.flags.left then d.fieldWidth else d.fieldWidth - 1 - turns
  let out := if d.flags.left then out else fill put ' ' turns out
  fill put ' ' (width - 1).toNat (put out (Char.ofNat (arg.toNat % 256)))

/-- `%s`: `while (len < field_width--)` on either side. -/
def putString (out : Out) (d : Directive) (s : List Char) : Out :=
  let length := (s.length : Int).bmod (2 ^ 32)
  let len := if 0 < d.precision ∧ d.precision < length then d.precision else length
  let turns := (d.fieldWidth - len).toNat
  let width := if d.flags.left then d.fieldWidth else d.fieldWidth - turns - 1
  let out := if d.flags.left then out else fill put ' ' turns out
  fill put ' ' (width - len).toNat ((s.take len.toNat).foldl put out)

/-- The `switch` over the letter of a conversion; `strings` are the texts that the
pointers lead to. -/
def convert (strings : BitVec 32 → List Char) (out : Out) (d : Directive)
    (letter : Option Char) (arg : BitVec 32) : Out :=
  match letter with
  | none => put out '%'
  | some 'c' => putChar put out d arg
  | some 's' =>
    putString put out d (if arg = 0 then ['(', 'N', 'U', 'L', 'L', ')'] else strings arg)
  | some 'p' =>
    if d.fieldWidth = -1 then
      printNumber put out arg 16 8 d.precision { d.flags with zeropad := true }
    else printNumber put out arg 16 d.fieldWidth d.precision { d.flags with }
  | some '%' => put out '%'
  | some ch =>
    match integerType d.flags ch with
    | some (base, type) =>
      printNumber put out (argument d.qualifier type.sign arg) base d.fieldWidth d.precision type
    | none => put (put out '%') ch

end Output

def skipAtoi (i : Int) : List Char → Int × List Char
  | [] => (i, [])
  | ch :: fmt => if ch.isDigit then skipAtoi (i * 10 + (ch.toNat - 48)) fmt else (i, ch :: fmt)

def parseFlags (flags : Flags) : List Char → Flags × List Char
  | '-' :: fmt => parseFlags { flags with left := true } fmt
  | '+' :: fmt => parseFlags { flags with plus := true } fmt
  | ' ' :: fmt => parseFlags { flags with space := true } fmt
  | '#' :: fmt => parseFlags { flags with special := true } fmt
  | '0' :: fmt => parseFlags { flags with zeropad := true } fmt
  | fmt => (flags, fmt)

/-- The arguments: one word after the other. -/
abbrev Args := Stream' (BitVec 32)

/-- A directive as far as it is read, and what is left behind it. -/
structure Parsed where
  directive : Directive
  fmt : List Char
  args : Args

/-- A number of the format, or the next argument for `*`. -/
def parseNumber (fmt : List Char) (args : Args) : Option Int × List Char × Args :=
  if fmt.head?.any Char.isDigit then (some (skipAtoi 0 fmt).1, (skipAtoi 0 fmt).2, args)
  else if fmt.head? = some '*' then (some args.head.toInt, fmt.tail, args.tail)
  else (none, fmt, args)

def parseWidth (p : Parsed) : Parsed :=
  let number := parseNumber p.fmt p.args
  let width := number.1.getD (-1)
  if number.1.any (· < 0) then
    let flags := { p.directive.flags with left := true }
    ⟨{ p.directive with flags, fieldWidth := -width }, number.2.1, number.2.2⟩
  else ⟨{ p.directive with fieldWidth := width }, number.2.1, number.2.2⟩

def parsePrecision (p : Parsed) : Parsed :=
  if p.fmt.head? = some '.' then
    let number := parseNumber p.fmt.tail p.args
    ⟨{ p.directive with precision := max (number.1.getD (-1)) 0 }, number.2.1, number.2.2⟩
  else p

def parseQualifier (p : Parsed) : Parsed :=
  if p.fmt.head? = some 'h' ∨ p.fmt.head? = some 'l' then
    { p with directive := { p.directive with qualifier := p.fmt.head? }, fmt := p.fmt.tail }
  else p

def parse (fmt : List Char) (args : Args) : Parsed :=
  let flags := parseFlags {} fmt
  parseQualifier (parsePrecision (parseWidth ⟨⟨flags.1, -1, -1, none⟩, flags.2, args⟩))

theorem skipAtoi_length (i : Int) (fmt : List Char) : (skipAtoi i fmt).2.length ≤ fmt.length := by
  induction fmt generalizing i with
  | nil => simp [skipAtoi]
  | cons ch fmt ih =>
    unfold skipAtoi
    split
    · exact (ih _).trans (Nat.le_succ _)
    · exact le_rfl

theorem parseFlags_length (flags : Flags) (fmt : List Char) :
    (parseFlags flags fmt).2.length ≤ fmt.length := by
  induction flags, fmt using parseFlags.induct <;> simp_all [parseFlags] <;> omega

theorem parseNumber_length (fmt : List Char) (args : Args) :
    (parseNumber fmt args).2.1.length ≤ fmt.length := by
  unfold parseNumber
  split_ifs
  · exact skipAtoi_length 0 fmt
  · simp
  · exact le_rfl

theorem parse_length (fmt : List Char) (args : Args) :
    (parse fmt args).fmt.length ≤ fmt.length := by
  have width (p : Parsed) : (parseWidth p).fmt.length ≤ p.fmt.length := by
    unfold parseWidth
    dsimp only
    split_ifs <;> exact parseNumber_length ..
  have precision (p : Parsed) : (parsePrecision p).fmt.length ≤ p.fmt.length := by
    unfold parsePrecision
    split_ifs
    · exact (parseNumber_length ..).trans (by simp)
    · exact le_rfl
  have qualifier (p : Parsed) : (parseQualifier p).fmt.length ≤ p.fmt.length := by
    unfold parseQualifier
    split_ifs
    · simp
    · exact le_rfl
  exact (qualifier _).trans ((precision _).trans ((width _).trans (parseFlags_length ..)))

def takesArg (letter : Option Char) : Bool :=
  letter.any (['c', 's', 'p', 'o', 'X', 'x', 'd', 'i', 'u'].contains ·)

def format {Out : Type} (put : Out → Char → Out) (strings : BitVec 32 → List Char) (out : Out) :
    List Char → Args → Out
  | [], _ => out
  | ch :: fmt, args =>
    if ch ≠ '%' then format put strings (put out ch) fmt args
    else
      let p := parse fmt args
      let letter := p.fmt.head?
      format put strings (convert put strings out p.directive letter p.args.head) p.fmt.tail
        (if takesArg letter then p.args.tail else p.args)
termination_by fmt => fmt.length
decreasing_by
  · simp
  · have := parse_length fmt args
    simp only [List.length_tail, List.length_cons]
    omega

def output (strings : BitVec 32 → List Char) (fmt : List Char) (args : Args) : List Char :=
  format (fun text ch => text ++ [ch]) strings [] fmt args

/-- `str`, and what has been stored through it. -/
structure Cursor where
  str : Nat
  stores : List (Nat × Char)

def Cursor.put (last : Nat) (cur : Cursor) (ch : Char) : Cursor :=
  ⟨(cur.str + 1) % 2 ^ 32, if cur.str < last then cur.stores ++ [(cur.str, ch)] else cur.stores⟩

def nul : Char := Char.ofNat 0

/-- `end` and `size`: "Make sure end is always >= buf". -/
def bufferEnd (buf size : Nat) : Nat × Nat :=
  if (buf + size) % 2 ^ 32 < buf then (2 ^ 32 - 1, 2 ^ 32 - 1 - buf)
  else ((buf + size) % 2 ^ 32, size)

def rtVsnprintf (strings : BitVec 32 → List Char) (buf size : BitVec 32) (fmt : List Char)
    (args : Args) : Int × List (Nat × Char) :=
  let (last, size) := bufferEnd buf.toNat size.toNat
  let cur := format (Cursor.put last) strings ⟨buf.toNat, []⟩ fmt args
  (Int.bmod (cur.str - buf.toNat) (2 ^ 32),
    if 0 < size then cur.stores ++ [(if cur.str < last then cur.str else last - 1, nul)]
    else cur.stores)

end RtThread.Kservice
