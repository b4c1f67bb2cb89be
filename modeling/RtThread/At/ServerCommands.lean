import Mathlib.Data.List.Infix
import Mathlib.Data.List.TakeWhile

/-!
# The commands of the AT server

A line is a name, up to the first character that cannot be part of one, and a suffix that
tells which handler of the table entry it is for.
-/

namespace RtThread.At

def atCmdNameLen : Nat := 16

inductive AtResult where
  | ok
  | faile
  | null
  | cmdErr
  | checkFaile
  | parseFaile

inductive AtHandler where
  | test
  | query
  | setup
  | exec
  deriving DecidableEq

/-- `struct at_cmd`.  A handler is there or it is `RT_NULL`. -/
structure AtCmd where
  name : List Char
  argsExpr : Option (List Char)
  test : Bool
  query : Bool
  setup : Bool
  exec : Bool

def AtCmd.has (cmd : AtCmd) : AtHandler → Bool
  | .test => cmd.test
  | .query => cmd.query
  | .setup => cmd.setup
  | .exec => cmd.exec

def isDigit (c : Char) : Bool := decide ('0' ≤ c ∧ c ≤ '9')

def atCheckArgs (args argsFormat : List Char) : Bool :=
  let leftSqBracketNum := argsFormat.count '['
  let rightSqBracketNum := argsFormat.count ']'
  let leftAngleBracketNum := argsFormat.count '<'
  let rightAngleBracketNum := argsFormat.count '>'
  if leftSqBracketNum ≠ rightSqBracketNum ∨ leftAngleBracketNum ≠ rightAngleBracketNum ∨
      leftSqBracketNum > leftAngleBracketNum then false
  else
    let commaMarkNum := args.count ','
    !decide (commaMarkNum + 1 < leftAngleBracketNum - leftSqBracketNum ∨
      commaMarkNum + 1 > leftAngleBracketNum)

/-- What `at_cmd_process` does: it calls a handler and prints its result, or prints at most an
error, or an assertion fails in it. -/
inductive Processed where
  | called (handler : AtHandler) (result : AtResult)
  | refused (result : Option AtResult)
  | asserted

/-- The call of a handler that answers `result`. -/
def AtCmd.call (cmd : AtCmd) (handler : AtHandler) (result : AtResult) : Processed :=
  if cmd.has handler then .called handler result else .refused (some .cmdErr)

/-- `at_cmd_process` on the string from the end of the name on. -/
def atCmdProcess (cmd : AtCmd) (cmdArgs : List Char) (result : AtResult) : Processed :=
  let arg := fun i => cmdArgs.getD i '\x00'
  if arg 0 = '=' ∧ arg 1 = '?' ∧ arg 2 = '\r' then cmd.call .test result
  else if arg 0 = '?' ∧ arg 1 = '\r' then cmd.call .query result
  else if arg 0 = '=' ∨ (isDigit (arg 0) ∧ arg 1 = '\r') then
    if !cmd.setup then .refused (some .cmdErr)
    else
      match cmd.argsExpr with
      | none => .asserted
      | some argsExpr =>
        if !atCheckArgs cmdArgs argsExpr then .refused (some .checkFaile)
        else .called .setup result
  else if arg 0 = '\r' then cmd.call .exec result
  else .refused none

def strcasecmp (a b : List Char) : Bool := decide (a.map Char.toLower = b.map Char.toLower)

def atFindCmd (cmdTable : List AtCmd) (cmd : List Char) : Option AtCmd :=
  cmdTable.find? fun entry => strcasecmp cmd entry.name

def endsName (c : Char) : Bool := decide (c = '?' ∨ c = '=' ∨ c = '\r' ∨ isDigit c)

def atCmdGetName (cmdBuffer : List Char) : Option (List Char) :=
  (cmdBuffer.findIdx? endsName).map fun i => cmdBuffer.take i

def namePart (content : List Char) : List Char := content.takeWhile fun c => !endsName c

def suffixPart (content : List Char) : List Char :=
  (content.dropWhile fun c => !endsName c).takeWhile (· ≠ '\r')

def suffixHandler : List Char → Option AtHandler
  | [] => some .exec
  | ['=', '?'] => some .test
  | ['?'] => some .query
  | '=' :: _ => some .setup
  | [c] => if isDigit c then some .setup else none
  | _ => none

def CallsFor (cmd : AtCmd) : Option AtHandler → List (AtCmd × AtHandler) → Prop
  | some handler, invoked => invoked = [(cmd, handler)]
  | none, invoked => invoked.length ≤ 1 ∧ ∀ call ∈ invoked, call.1 = cmd

def Obeys (cmdTable : List AtCmd) (content : List Char) (invoked : List (AtCmd × AtHandler)) :
    Prop :=
  match atFindCmd cmdTable (namePart content) with
  | none => invoked = []
  | some cmd => CallsFor cmd (suffixHandler (suffixPart content)) invoked

/-- The handler that the tests of `at_cmd_process` choose. -/
def chosen (cmdArgs : List Char) : Option AtHandler :=
  let arg := fun i => cmdArgs.getD i '\x00'
  if arg 0 = '=' ∧ arg 1 = '?' ∧ arg 2 = '\r' then some .test
  else if arg 0 = '?' ∧ arg 1 = '\r' then some .query
  else if arg 0 = '=' ∨ (isDigit (arg 0) ∧ arg 1 = '\r') then some .setup
  else if arg 0 = '\r' then some .exec
  else none

def Takes (cmd : AtCmd) (cmdArgs : List Char) (handler : AtHandler) : Prop :=
  cmd.has handler = true ∧
    (handler = .setup → ∃ argsExpr ∈ cmd.argsExpr, atCheckArgs cmdArgs argsExpr = true)

instance (cmd : AtCmd) (cmdArgs : List Char) (handler : AtHandler) :
    Decidable (Takes cmd cmdArgs handler) := instDecidableAnd

theorem atCmdProcess_spec (cmd : AtCmd) (cmdArgs : List Char) (r : AtResult) :
    match chosen cmdArgs with
    | none => atCmdProcess cmd cmdArgs r = .refused none
    | some handler =>
      (Takes cmd cmdArgs handler ∧ atCmdProcess cmd cmdArgs r = .called handler r) ∨
      (¬ Takes cmd cmdArgs handler ∧
        ((∃ error, atCmdProcess cmd cmdArgs r = .refused error) ∨
          atCmdProcess cmd cmdArgs r = .asserted)) := by
  have calls : ∀ handler, handler ≠ .setup →
      (Takes cmd cmdArgs handler ∧ cmd.call handler r = .called handler r) ∨
      (¬ Takes cmd cmdArgs handler ∧
        ((∃ error, cmd.call handler r = .refused error) ∨
          cmd.call handler r = .asserted)) := by
    intro handler notSetup
    cases has : cmd.has handler with
    | true =>
      exact .inl ⟨⟨has, fun setup => absurd setup notSetup⟩, by simp [AtCmd.call, has]⟩
    | false =>
      refine .inr ⟨fun takes => ?_, .inl ⟨some .cmdErr, by simp [AtCmd.call, has]⟩⟩
      exact nomatch has.symm.trans takes.1
  unfold chosen atCmdProcess
  simp only
  split_ifs with test query setup absent exec
  · exact calls .test nofun
  · exact calls .query nofun
  · have none : cmd.setup = false := by simpa using absent
    refine .inr ⟨fun takes => ?_, .inl ⟨_, rfl⟩⟩
    simp [Takes, AtCmd.has, none] at takes
  · have has : cmd.has .setup = true := by simpa [AtCmd.has] using absent
    cases expr : cmd.argsExpr with
    | none =>
      refine .inr ⟨fun takes => ?_, .inr rfl⟩
      obtain ⟨argsExpr, isExpr, -⟩ := takes.2 rfl
      simp [expr] at isExpr
    | some argsExpr =>
      cases check : atCheckArgs cmdArgs argsExpr with
      | true => exact .inl ⟨⟨has, fun _ => ⟨argsExpr, expr, check⟩⟩, by simp [check]⟩
      | false =>
        refine .inr ⟨fun takes => ?_, .inl ⟨_, by simp [check]; rfl⟩⟩
        obtain ⟨u, isOther, checked⟩ := takes.2 rfl
        rw [expr] at isOther
        cases isOther
        rw [check] at checked
        exact nomatch checked
  · exact calls .exec nofun
  · rfl

section Suffix

variable {suffix more : List Char}

theorem chosen_of_return (noReturn : '\r' ∉ suffix) :
    chosen (suffix ++ '\r' :: more) = suffixHandler suffix := by
  match suffix with
  | [] => simp [chosen, suffixHandler, isDigit]
  | [c] =>
    have notReturn : c ≠ '\r' := fun same => noReturn (by simp [same])
    by_cases equal : c = '='
    · subst equal
      simp [chosen, suffixHandler]
    · by_cases question : c = '?'
      · subst question
        simp [chosen, suffixHandler]
      · by_cases digit : isDigit c
        · simp [chosen, suffixHandler, question, digit]
        · simp [chosen, suffixHandler, equal, question, notReturn]
  | [c, d] =>
    have notReturn : c ≠ '\r' ∧ d ≠ '\r' := by constructor <;> rintro rfl <;> simp at noReturn
    by_cases equal : c = '='
    · subst equal
      by_cases question : d = '?'
      · subst question
        simp [chosen, suffixHandler]
      · simp [chosen, suffixHandler, question]
    · simp [chosen, suffixHandler, equal, notReturn]
  | c :: d :: e :: rest =>
    have notReturn : c ≠ '\r' ∧ d ≠ '\r' ∧ e ≠ '\r' := by
      refine ⟨?_, ?_, ?_⟩ <;> rintro rfl <;> simp at noReturn
    by_cases equal : c = '='
    · subst equal
      simp [chosen, suffixHandler, notReturn]
    · simp [chosen, suffixHandler, equal, notReturn]

theorem chosen_of_noReturn {rest : List Char} (noReturn : '\r' ∉ rest) :
    chosen rest = if rest.head? = some '=' then some .setup else none := by
  match rest with
  | [] => simp [chosen]
  | [c] =>
    have notReturn : c ≠ '\r' := fun same => noReturn (by simp [same])
    simp [chosen, notReturn]
  | [c, d] =>
    have notReturn : c ≠ '\r' ∧ d ≠ '\r' := by constructor <;> rintro rfl <;> simp at noReturn
    simp [chosen, notReturn]
  | c :: d :: e :: rest =>
    have notReturn : c ≠ '\r' ∧ d ≠ '\r' ∧ e ≠ '\r' := by
      refine ⟨?_, ?_, ?_⟩ <;> rintro rfl <;> simp at noReturn
    simp [chosen, notReturn]

end Suffix

theorem atCmdGetName_eq (cmdBuffer : List Char) : atCmdGetName cmdBuffer =
      if cmdBuffer.any endsName then some (namePart cmdBuffer) else none := by
  unfold atCmdGetName namePart
  induction cmdBuffer with
  | nil => rfl
  | cons c rest ih =>
    cases ends : endsName c with
    | true => simp [List.findIdx?_cons, ends]
    | false =>
      simp only [List.findIdx?_cons, ends, List.any_cons, Bool.false_or, Bool.not_false,
        List.takeWhile_cons_of_pos]
      by_cases any : rest.any endsName
      · rw [if_pos any] at ih ⊢
        obtain ⟨i, found, isTaken⟩ := Option.map_eq_some_iff.mp ih
        simp [found, isTaken]
      · rw [if_neg any] at ih ⊢
        have none : rest.findIdx? endsName = none := by simpa using ih
        simp [none]

inductive EndMark where
  | crlf
  | cr
  | lf

def EndMark.chars : EndMark → List Char
  | .crlf => ['\r', '\n']
  | .cr => ['\r']
  | .lf => ['\n']

structure Dispatched where
  invoked : List (AtCmd × AtHandler)
  printed : List AtResult
  asserted : Bool

def Processed.dispatched (cmd : AtCmd) : Processed → Dispatched
  | .called handler result => ⟨[(cmd, handler)], [result], false⟩
  | .refused result => ⟨[], result.toList, false⟩
  | .asserted => ⟨[], [], true⟩

/-- The part of `server_parser` from `at_cmd_get_name` to `__retry`. -/
def dispatch (cmdTable : List AtCmd) (text : List Char) (result : AtResult) : Dispatched :=
  match atCmdGetName text with
  | none => ⟨[], [.cmdErr], false⟩
  | some curCmdName =>
    match atFindCmd cmdTable curCmdName with
    | none => ⟨[], [.cmdErr], false⟩
    | some curCmd =>
      (atCmdProcess curCmd (text.drop curCmdName.length) result).dispatched curCmd

def Accepted (cmdTable : List AtCmd) (mark : EndMark) (content : List Char) : Prop :=
  ∀ cmd ∈ atFindCmd cmdTable (namePart content), ∀ handler ∈ suffixHandler (suffixPart content),
    ('\r' ∈ content ++ mark.chars ∨
      handler = .setup ∧ (suffixPart content).head? = some '=') ∧
    Takes cmd ((content ++ mark.chars).drop (namePart content).length) handler

instance (cmdTable : List AtCmd) (mark : EndMark) (content : List Char) :
    Decidable (Accepted cmdTable mark content) := by
  unfold Accepted
  infer_instance

section Line

variable {content : List Char} {mark : EndMark}

theorem namePart_append_dropWhile (content : List Char) :
    namePart content ++ content.dropWhile (fun c => !endsName c) = content :=
  List.takeWhile_append_dropWhile

theorem not_mem_namePart {c : Char} (ends : endsName c = true) : c ∉ namePart content := by
  intro isIn
  have kept := List.all_eq_true.mp (@List.all_takeWhile _ (fun c => !endsName c) content) c isIn
  simp [ends] at kept

theorem namePart_append (ends : (content ++ mark.chars).any endsName = true) :
    namePart (content ++ mark.chars) = namePart content := by
  unfold namePart
  rw [List.takeWhile_append]
  split_ifs with whole
  · have none : content.any endsName = false := by
      have same : content.takeWhile (fun c => !endsName c) = content :=
        List.IsPrefix.eq_of_length (List.takeWhile_prefix _) whole
      rw [List.any_eq_false]
      intro c isIn
      have kept := List.all_eq_true.mp (@List.all_takeWhile _ (fun c => !endsName c) content) c
        (by rw [same]; exact isIn)
      simpa using kept
    have inMark : mark.chars.any endsName = true := by simpa [none] using ends
    have keeps : mark.chars.takeWhile (fun c => !endsName c) = [] := by
      cases mark with
      | crlf | cr => rfl
      | lf => simp [EndMark.chars, endsName, isDigit] at inMark
    have whole : content.takeWhile (fun c => !endsName c) = content :=
      List.takeWhile_eq_self_iff.mpr fun c isIn => by simpa using List.any_eq_false.mp none c isIn
    rw [keeps, List.append_nil, whole]
  · rfl

theorem drop_namePart : (content ++ mark.chars).drop (namePart content).length =
      content.dropWhile (fun c => !endsName c) ++ mark.chars := by
  conv_lhs => rw [← namePart_append_dropWhile content, List.append_assoc]
  rw [namePart_append_dropWhile]
  exact List.drop_left

theorem noReturn_suffixPart (content : List Char) : '\r' ∉ suffixPart content := by
  intro isIn
  have kept := List.all_eq_true.mp (List.all_takeWhile (p := (· ≠ ('\r' : Char)))) _ isIn
  simp at kept

theorem drop_of_return (hasReturn : '\r' ∈ content ++ mark.chars) :
    ∃ more, (content ++ mark.chars).drop (namePart content).length =
      suffixPart content ++ '\r' :: more := by
  rw [drop_namePart]
  unfold suffixPart
  generalize isRest : content.dropWhile (fun c => !endsName c) = rest
  have inRest : '\r' ∈ rest ++ mark.chars := by
    rcases List.mem_append.mp hasReturn with isIn | isIn
    · rw [← namePart_append_dropWhile content, isRest] at isIn
      rcases List.mem_append.mp isIn with inName | isIn
      · exact absurd inName (not_mem_namePart rfl)
      · exact List.mem_append_left _ isIn
    · exact List.mem_append_right _ isIn
  clear isRest
  induction rest with
  | nil =>
    cases mark with
    | crlf => exact ⟨['\n'], rfl⟩
    | cr => exact ⟨[], rfl⟩
    | lf => simp [EndMark.chars] at inRest
  | cons c rest ih =>
    by_cases isReturn : c = '\r'
    · subst isReturn
      exact ⟨rest ++ mark.chars, by simp⟩
    · have later : '\r' ∈ rest ++ mark.chars := by
        rcases List.mem_cons.mp inRest with same | later
        · exact absurd same.symm isReturn
        · exact later
      obtain ⟨more, isMore⟩ := ih later
      refine ⟨more, ?_⟩
      rw [List.takeWhile_cons_of_pos (by simpa using isReturn), List.cons_append, isMore]
      rfl

theorem drop_of_noReturn (noReturn : '\r' ∉ content ++ mark.chars) :
    (content ++ mark.chars).drop (namePart content).length = suffixPart content ++ mark.chars := by
  rw [drop_namePart]
  unfold suffixPart
  rw [List.takeWhile_eq_self_iff.mpr]
  intro c isIn
  have inContent : c ∈ content := (List.dropWhile_sublist _).subset isIn
  have : c ≠ '\r' := by
    rintro rfl
    exact noReturn (List.mem_append_left _ inContent)
  simpa using this

theorem callsFor_iff (cmd : AtCmd) (cmdArgs : List Char) (r : AtResult)
    {wanted : Option AtHandler} (nothing : wanted = none → chosen cmdArgs = none) :
    (CallsFor cmd wanted ((atCmdProcess cmd cmdArgs r).dispatched cmd).invoked ∧
      ((atCmdProcess cmd cmdArgs r).dispatched cmd).asserted = false) ↔
    ∀ handler ∈ wanted, chosen cmdArgs = some handler ∧ Takes cmd cmdArgs handler := by
  have spec := atCmdProcess_spec cmd cmdArgs r
  cases isChosen : chosen cmdArgs with
  | none =>
    simp only [isChosen] at spec
    cases wanted <;> simp [spec, Processed.dispatched, CallsFor]
  | some handler =>
    cases wanted with
    | none =>
      rw [nothing rfl] at isChosen
      exact nomatch isChosen
    | some u =>
      simp only [isChosen] at spec
      simp only [CallsFor, Option.mem_def, Option.some.injEq, forall_eq']
      rcases spec with ⟨takes, called⟩ | ⟨notTakes, ⟨error, refused⟩ | asserted⟩
      · simp only [called, Processed.dispatched, List.cons.injEq, Prod.mk.injEq, true_and, and_true]
        refine ⟨fun same => ⟨same, same ▸ takes⟩, And.left⟩
      · simp only [refused, Processed.dispatched, List.ne_cons_self, false_and, false_iff, not_and]
        rintro rfl
        exact notTakes
      · simp only [asserted, Processed.dispatched, reduceCtorEq, false_and, false_iff, not_and]
        rintro rfl
        exact notTakes

theorem chosen_drop_of_noReturn (noReturn : '\r' ∉ content ++ mark.chars) :
    chosen ((content ++ mark.chars).drop (namePart content).length) =
      if (suffixPart content).head? = some '=' then some .setup else none := by
  have noReturnBehind : '\r' ∉ suffixPart content ++ mark.chars := by
    intro isIn
    rcases List.mem_append.mp isIn with isIn | isIn
    · exact noReturn_suffixPart content isIn
    · exact noReturn (List.mem_append_right _ isIn)
  rw [drop_of_noReturn noReturn, chosen_of_noReturn noReturnBehind]
  cases suffixPart content with
  | nil =>
    cases mark with
    | crlf | cr => simp [EndMark.chars] at noReturn
    | lf => rfl
  | cons c rest => rfl

theorem chosen_drop_of_return (hasReturn : '\r' ∈ content ++ mark.chars) :
    chosen ((content ++ mark.chars).drop (namePart content).length) =
      suffixHandler (suffixPart content) := by
  obtain ⟨more, isMore⟩ := drop_of_return hasReturn
  rw [isMore, chosen_of_return (noReturn_suffixPart content)]

theorem chosen_eq_some_iff {handler : AtHandler}
    (isWanted : suffixHandler (suffixPart content) = some handler) :
    chosen ((content ++ mark.chars).drop (namePart content).length) = some handler ↔
      '\r' ∈ content ++ mark.chars ∨ handler = .setup ∧ (suffixPart content).head? = some '=' := by
  by_cases hasReturn : '\r' ∈ content ++ mark.chars
  · simp only [hasReturn, true_or, iff_true]
    rw [chosen_drop_of_return hasReturn, isWanted]
  · rw [chosen_drop_of_noReturn hasReturn]
    simp only [hasReturn, false_or]
    split_ifs with assigns
    · simp only [Option.some.injEq, assigns, and_true]
      exact eq_comm
    · simp [assigns]

theorem chosen_eq_none (unknown : suffixHandler (suffixPart content) = none) :
    chosen ((content ++ mark.chars).drop (namePart content).length) = none := by
  by_cases hasReturn : '\r' ∈ content ++ mark.chars
  · rw [chosen_drop_of_return hasReturn, unknown]
  · rw [chosen_drop_of_noReturn hasReturn, if_neg]
    intro assigns
    cases suffix : suffixPart content with
    | nil => simp [suffix] at assigns
    | cons c rest =>
      unfold suffixHandler at unknown
      split at unknown <;> simp_all

theorem dispatch_obeys_iff (cmdTable : List AtCmd) (mark : EndMark) (content : List Char)
    (result : AtResult) :
    (Obeys cmdTable content (dispatch cmdTable (content ++ mark.chars) result).invoked ∧
      (dispatch cmdTable (content ++ mark.chars) result).asserted = false) ↔
    Accepted cmdTable mark content := by
  unfold dispatch Obeys Accepted
  rw [atCmdGetName_eq]
  by_cases ends : (content ++ mark.chars).any endsName = true
  · rw [if_pos ends, namePart_append ends]
    simp only
    cases found : atFindCmd cmdTable (namePart content) with
    | none => simp
    | some cmd =>
      simp only [Option.mem_def, Option.some.injEq, forall_eq']
      rw [callsFor_iff cmd _ result chosen_eq_none]
      exact forall₂_congr fun handler isWanted => and_congr_left fun _ =>
        chosen_eq_some_iff isWanted
  · rw [if_neg ends]
    have none : ∀ c ∈ content ++ mark.chars, endsName c = false := fun c isIn => by
      simpa using List.any_eq_false.mp (by simpa using ends) c isIn
    have noSuffix : suffixPart content = [] := by
      unfold suffixPart
      rw [List.dropWhile_eq_nil_iff.mpr]
      · rfl
      · exact fun c isIn => by simpa using none c (List.mem_append_left _ isIn)
    have noReturn : '\r' ∉ content ++ mark.chars := fun isIn =>
      nomatch (none '\r' isIn).symm.trans rfl
    cases found : atFindCmd cmdTable (namePart content) with
    | none => simp
    | some cmd =>
      simp only [noSuffix, suffixHandler, CallsFor, noReturn]
      simp

end Line

end RtThread.At
