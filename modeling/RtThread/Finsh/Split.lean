import Mathlib.Data.List.Forall2
import Mathlib.Data.Nat.Basic

/-!
# Splitting a command line

`msh_split` cuts the line into arguments in place.
-/

open Function (update update_of_ne update_self)

namespace RtThread.Finsh

open Nat (lt_of_not_le)

def quoteMark : UInt8 := 0x22
def backslash : UInt8 := 0x5c

def finshArgMax : Nat := 10

def isBlank (ch : UInt8) : Bool := ch == 0x20 || ch == 0x09

def isWord (ch : UInt8) : Bool := !isBlank ch

variable (length : Nat)

def strip (cmd : Nat → UInt8) (position : Nat) : (Nat → UInt8) × Nat :=
  if isBlank (cmd position) ∧ position < length then
    strip (update cmd position 0) (position + 1)
  else (cmd, position)
termination_by length - position

def skipString (cmd : Nat → UInt8) (position : Nat) : Nat :=
  if cmd position ≠ quoteMark ∧ position < length then
    if cmd position = backslash ∧ cmd (position + 1) = quoteMark then
      skipString cmd (position + 2)
    else skipString cmd (position + 1)
  else position
termination_by length - position

def skipWord (cmd : Nat → UInt8) (position : Nat) : Nat :=
  if ¬ isBlank (cmd position) ∧ position < length then skipWord cmd (position + 1) else position
termination_by length - position

variable {length} {cmd : Nat → UInt8} {position : Nat}

theorem le_strip : position ≤ (strip length cmd position).2 := by
  fun_induction strip length cmd position with
  | case1 cmd position more ih => omega
  | case2 cmd position done => exact le_refl _

theorem strip_stops (inside : (strip length cmd position).2 < length) :
    ¬ isBlank ((strip length cmd position).1 (strip length cmd position).2) := by
  fun_induction strip length cmd position with
  | case1 cmd position more ih => exact ih inside
  | case2 cmd position done => exact fun blank => done ⟨blank, inside⟩

theorem le_skipString : position ≤ skipString length cmd position := by
  fun_induction skipString length cmd position with
  | case1 position more escaped ih => omega
  | case2 position more plain ih => omega
  | case3 position done => exact le_refl _

theorem le_skipWord : position ≤ skipWord length cmd position := by
  fun_induction skipWord length cmd position with
  | case1 position more ih => omega
  | case2 position done => exact le_refl _

theorem lt_skipWord (inside : position < length) (word : ¬ isBlank (cmd position)) :
    position < skipWord length cmd position := by
  rw [skipWord, if_pos ⟨word, inside⟩]
  exact le_skipWord

/-- `msh_split`, from one turn of its loop on. -/
def mshSplit (length : Nat) (cmd : Nat → UInt8) (position : Nat) (argv : List Nat) :
    (Nat → UInt8) × List Nat :=
  if position < length then
    let stripped := strip length cmd position
    if finshArgMax ≤ argv.length then (stripped.1, argv)
    else if length ≤ stripped.2 then (stripped.1, argv)
    else if stripped.1 stripped.2 = quoteMark then
      let closing := skipString length stripped.1 (stripped.2 + 1)
      if length ≤ closing then (stripped.1, argv ++ [stripped.2 + 1])
      else
        mshSplit length (update stripped.1 closing 0) (closing + 1)
          (argv ++ [stripped.2 + 1])
    else
      let behind := skipWord length stripped.1 stripped.2
      if length ≤ behind then (stripped.1, argv ++ [stripped.2])
      else mshSplit length stripped.1 behind (argv ++ [stripped.2])
  else (cmd, argv)
termination_by length - position
decreasing_by
  · have later : (strip length cmd position).2 + 1 ≤
        skipString length (strip length cmd position).1 ((strip length cmd position).2 + 1) :=
      le_skipString
    have := @le_strip length cmd position
    show length - (skipString length (strip length cmd position).1
      ((strip length cmd position).2 + 1) + 1) < length - position
    omega
  · have inside : (strip length cmd position).2 < length := lt_of_not_le (by assumption)
    have later := lt_skipWord inside (strip_stops inside)
    have := @le_strip length cmd position
    show length - skipWord length (strip length cmd position).1 (strip length cmd position).2 <
      length - position
    omega

/-- What stands behind an opening quote up to the next one that is not escaped, and the rest
behind that; `before` is the character in front. -/
def quoted : (before : UInt8) → List UInt8 → List UInt8 × List UInt8
  | _, [] => ([], [])
  | before, ch :: rest =>
    if ch = quoteMark ∧ before ≠ backslash then ([], rest)
    else (ch :: (quoted ch rest).1, (quoted ch rest).2)

theorem length_quoted_le (before : UInt8) (text : List UInt8) :
    (quoted before text).2.length ≤ text.length := by
  induction text generalizing before with
  | nil => exact le_refl 0
  | cons ch rest ih =>
    rw [quoted]
    split
    · simp
    · exact Nat.le_trans (ih ch) (Nat.le_succ _)

def tokens : List UInt8 → List (List UInt8)
  | [] => []
  | ch :: rest =>
    if isBlank ch then tokens rest
    else if ch = quoteMark then (quoted ch rest).1 :: tokens (quoted ch rest).2
    else (ch :: rest.takeWhile isWord) :: tokens (rest.dropWhile isWord)
termination_by text => text.length
decreasing_by
  · simp
  · exact Nat.lt_succ_of_le (length_quoted_le ch rest)
  · exact Nat.lt_succ_of_le (List.dropWhile_suffix _).length_le

def span (cmd : Nat → UInt8) (start stop : Nat) : List UInt8 :=
  (List.range' start (stop - start)).map cmd

theorem span_self (cmd : Nat → UInt8) (start : Nat) : span cmd start start = [] := by
  simp [span]

variable {start stop : Nat}

theorem span_cons (cmd : Nat → UInt8) (inside : start < stop) :
    span cmd start stop = cmd start :: span cmd (start + 1) stop := by
  obtain ⟨n, rfl⟩ := Nat.exists_eq_add_of_lt inside
  have more : start + n + 1 - start = n + 1 := by omega
  have fewer : start + n + 1 - (start + 1) = n := by omega
  rw [span, span, more, fewer, List.range'_succ, List.map_cons]

theorem length_span (cmd : Nat → UInt8) (start stop : Nat) :
    (span cmd start stop).length = stop - start := by
  simp [span]

theorem span_congr {u : Nat → UInt8} (same : ∀ p, start ≤ p → p < stop → u p = cmd p) :
    span u start stop = span cmd start stop := by
  apply List.map_congr_left
  intro p mem
  rw [List.mem_range'_1] at mem
  exact same p mem.1 (by omega)

theorem tokens_blank {ch : UInt8} (blank : isBlank ch) (rest : List UInt8) :
    tokens (ch :: rest) = tokens rest := by
  rw [tokens, if_pos blank]

theorem tokens_quoted (rest : List UInt8) : tokens (quoteMark :: rest) =
    (quoted quoteMark rest).1 :: tokens (quoted quoteMark rest).2 := by
  rw [tokens, if_neg (by decide), if_pos rfl]

theorem tokens_word {ch : UInt8} (word : ¬ isBlank ch) (unquoted : ch ≠ quoteMark)
    (rest : List UInt8) : tokens (ch :: rest) =
      (ch :: rest).takeWhile isWord :: tokens ((ch :: rest).dropWhile isWord) := by
  have inWord : isWord ch := by simpa [isWord] using word
  rw [tokens, if_neg word, if_neg unquoted, List.takeWhile_cons_of_pos inWord,
    List.dropWhile_cons_of_pos inWord]

/-- What `strip` does: the blanks are overwritten, and nothing else. -/
structure Strips (length : Nat) (cmd : Nat → UInt8) (position : Nat) (after : Nat → UInt8)
    (stop : Nat) : Prop where
  le : position ≤ stop
  within : stop ≤ length
  same : ∀ place, place < position ∨ stop ≤ place → after place = cmd place
  cleared : ∀ place, position ≤ place → place < stop → after place = 0
  moves : position < length → isBlank (cmd position) → position < stop
  stops : stop < length → ¬ isBlank (after stop)
  tokens : tokens (span after stop length) = tokens (span cmd position length)

theorem strip_strips (within : position ≤ length) :
    Strips length cmd position (strip length cmd position).1 (strip length cmd position).2 := by
  fun_induction strip length cmd position with
  | case1 cmd position more ih =>
    obtain ⟨blank, inside⟩ := more
    obtain ⟨le, within, same, cleared, -, stops, tokens⟩ := ih inside
    refine ⟨by omega, within, ?_, ?_, fun _ _ => le, stops, ?_⟩
    · intro place outside
      rw [same place (by omega), update_of_ne (by omega)]
    · intro place above below
      by_cases a : place = position
      · subst a
        rw [same place (by omega), update_self]
      · exact cleared place (by omega) below
    · rw [tokens, span_cons cmd inside, tokens_blank blank]
      congr 1
      apply span_congr
      intro place above below
      exact update_of_ne (by omega) _ _
  | case2 cmd position done =>
    exact ⟨le_refl _, within, fun _ _ => rfl, fun _ above below => by omega,
      fun inside blank => absurd ⟨blank, inside⟩ done,
      fun inside blank => done ⟨blank, inside⟩, rfl⟩

theorem skipString_spec {before : UInt8} (within : position ≤ length)
    (terminated : cmd length = 0) (free : before = backslash → cmd position ≠ quoteMark) :
    skipString length cmd position ≤ length ∧ quoted before (span cmd position length) =
        (span cmd position (skipString length cmd position),
          span cmd (skipString length cmd position + 1) length) := by
  fun_induction skipString length cmd position generalizing before with
  | case1 position more escaped ih =>
    have inside : position + 1 < length := by
      refine Nat.lt_of_le_of_ne more.2 fun atEnd => ?_
      rw [atEnd, terminated] at escaped
      exact absurd escaped.2 (by decide)
    have later : position + 2 ≤ skipString length cmd (position + 2) := le_skipString
    obtain ⟨below, rest⟩ := @ih (cmd (position + 1)) inside
      (fun isBackslash => by rw [escaped.2] at isBackslash; exact absurd isBackslash (by decide))
    refine ⟨below, ?_⟩
    have first : position < skipString length cmd (position + 2) := by omega
    have second : position + 1 < skipString length cmd (position + 2) := by omega
    rw [span_cons cmd more.2, span_cons cmd inside, quoted, if_neg (fun both => more.1 both.1),
      quoted, if_neg (fun both => both.2 escaped.1), rest, span_cons cmd first,
      span_cons cmd second]
  | case2 position more plain ih =>
    have later : position + 1 ≤ skipString length cmd (position + 1) := le_skipString
    obtain ⟨below, rest⟩ := @ih (cmd position) more.2 fun isBackslash isQuote =>
      plain ⟨isBackslash, isQuote⟩
    refine ⟨below, ?_⟩
    have first : position < skipString length cmd (position + 1) := by omega
    rw [span_cons cmd more.2, quoted, if_neg (fun both => more.1 both.1), rest, span_cons cmd first]
  | case3 position done =>
    refine ⟨within, ?_⟩
    rcases Nat.lt_or_eq_of_le within with inside | rfl
    · have isQuote : cmd position = quoteMark := by
        by_contra u
        exact done ⟨u, inside⟩
      rw [span_cons cmd inside, quoted, if_pos ⟨isQuote, fun escapes => free escapes isQuote⟩,
        span_self]
    · rw [span_self, quoted]
      simp [span]

theorem skipWord_spec (within : position ≤ length) : skipWord length cmd position ≤ length ∧
      (span cmd position length).takeWhile isWord =
        span cmd position (skipWord length cmd position) ∧
      (span cmd position length).dropWhile isWord = span cmd (skipWord length cmd position) length ∧
      (skipWord length cmd position < length → isBlank (cmd (skipWord length cmd position))) := by
  fun_induction skipWord length cmd position with
  | case1 position more ih =>
    have later : position + 1 ≤ skipWord length cmd (position + 1) := le_skipWord
    obtain ⟨below, taken, dropped, blank⟩ := ih more.2
    have inWord : isWord (cmd position) := by simpa [isWord] using more.1
    have first : position < skipWord length cmd (position + 1) := by omega
    refine ⟨below, ?_, ?_, blank⟩
    · rw [span_cons cmd more.2, List.takeWhile_cons_of_pos inWord, taken, span_cons cmd first]
    · rw [span_cons cmd more.2, List.dropWhile_cons_of_pos inWord, dropped]
  | case2 position done =>
    rcases Nat.lt_or_eq_of_le within with inside | rfl
    · have blank : isBlank (cmd position) := by
        by_contra word
        exact done ⟨word, inside⟩
      have notWord : ¬ isWord (cmd position) := by simpa [isWord] using blank
      refine ⟨within, ?_, ?_, fun _ => blank⟩
      · rw [span_cons cmd inside, List.takeWhile_cons_of_neg notWord, span_self]
      · rw [span_cons cmd inside, List.dropWhile_cons_of_neg notWord]
    · exact ⟨within, by simp [span_self], by simp [span_self],
        fun inside => absurd inside (Nat.lt_irrefl _)⟩

/-- An argument: its token stands at `pointer`, inside the line, with a NUL behind it. -/
structure Argument (after : Nat → UInt8) (length pointer : Nat) (token : List UInt8) : Prop where
  inside : pointer + token.length ≤ length
  bytes : span after pointer (pointer + token.length) = token
  terminated : after (pointer + token.length) = 0

theorem argument_span {after : Nat → UInt8} (le : start ≤ stop) (within : stop ≤ length)
    (same : ∀ p, start ≤ p → p < stop → after p = cmd p) (terminated : after stop = 0) :
    Argument after length start (span cmd start stop) := by
  have atStop : start + (span cmd start stop).length = stop := by
    rw [length_span]
    omega
  exact ⟨by rwa [atStop], by rw [atStop]; exact span_congr same, by rwa [atStop]⟩

structure Splits (length : Nat) (cmd : Nat → UInt8) (position : Nat) (argv : List Nat)
    (after : Nat → UInt8) (pointers : List Nat) : Prop where
  arguments : ∃ new, pointers = argv ++ new ∧ List.Forall₂ (Argument after length) new
    ((tokens (span cmd position length)).take (finshArgMax - argv.length))
  same : ∀ place, place < position ∨ length ≤ place → after place = cmd place
  ends : position < length → isBlank (cmd position) → after position = 0

variable {middle after : Nat → UInt8} {stop : Nat} {argv pointers : List Nat}

theorem splits_nil (strips : Strips length cmd position middle stop)
    (none : (tokens (span middle stop length)).take (finshArgMax - argv.length) = []) :
    Splits length cmd position argv middle argv where
  arguments := ⟨[], by simp, by rw [← strips.tokens, none]; exact .nil⟩
  same place outside := strips.same place (by have := strips.within; omega)
  ends inside blank := strips.cleared position (le_refl _) (strips.moves inside blank)

theorem splits_cons (strips : Strips length cmd position middle stop)
    (room : argv.length < finshArgMax) {pointer : Nat} {token : List UInt8}
    {others : List (List UInt8)} (found : tokens (span middle stop length) = token :: others)
    (same : ∀ place, place < stop ∨ length ≤ place → after place = middle place)
    (argument : Argument after length pointer token)
    (rest : ∃ new, pointers = argv ++ [pointer] ++ new ∧ List.Forall₂ (Argument after length) new
      (others.take (finshArgMax - (argv ++ [pointer]).length))) :
    Splits length cmd position argv after pointers where
  arguments := by
    obtain ⟨new, rfl, arguments⟩ := rest
    refine ⟨pointer :: new, by simp, ?_⟩
    obtain ⟨free, isFree⟩ := Nat.exists_eq_add_of_lt room
    have before : finshArgMax - argv.length = free + 1 := by omega
    have behind : finshArgMax - (argv ++ [pointer]).length = free := by
      rw [List.length_append, List.length_singleton]
      omega
    rw [behind] at arguments
    rw [← strips.tokens, found, before, List.take_succ_cons]
    exact .cons argument arguments
  same place outside := by
    have within := strips.within
    have le := strips.le
    rw [same place (by omega), strips.same place (by omega)]
  ends inside blank := by
    have moves := strips.moves inside blank
    rw [same position (.inl moves), strips.cleared position (le_refl _) moves]

theorem span_eq_nil (cmd : Nat → UInt8) (le : stop ≤ start) : span cmd start stop = [] :=
  List.eq_nil_of_length_eq_zero (by rw [length_span]; omega)

theorem tokens_nil : tokens [] = [] := by
  rw [tokens]

theorem tokens_string (inside : stop < length) (isQuote : middle stop = quoteMark)
    (terminated : middle length = 0) :
    skipString length middle (stop + 1) ≤ length ∧ tokens (span middle stop length) =
      span middle (stop + 1) (skipString length middle (stop + 1)) ::
        tokens (span middle (skipString length middle (stop + 1) + 1) length) := by
  have free : quoteMark = backslash → middle (stop + 1) ≠ quoteMark :=
    fun escapes => absurd escapes (by decide)
  obtain ⟨within, rest⟩ := skipString_spec inside terminated free
  rw [span_cons middle inside, isQuote, tokens_quoted, rest]
  exact ⟨within, rfl⟩

theorem tokens_plain (inside : stop < length) (word : ¬ isBlank (middle stop))
    (unquoted : middle stop ≠ quoteMark) : tokens (span middle stop length) =
      span middle stop (skipWord length middle stop) ::
        tokens (span middle (skipWord length middle stop) length) := by
  obtain ⟨-, taken, dropped, -⟩ := @skipWord_spec length middle stop (le_of_lt inside)
  rw [← taken, ← dropped, span_cons middle inside, tokens_word word unquoted]

theorem mshSplit_splits (terminated : cmd length = 0) (within : position ≤ length)
    (few : argv.length ≤ finshArgMax) :
    Splits length cmd position argv (mshSplit length cmd position argv).1
      (mshSplit length cmd position argv).2 := by
  fun_induction mshSplit length cmd position argv with
  | case1 cmd position argv inside stripped full =>
    exact splits_nil (strip_strips within) (by simp [Nat.sub_eq_zero_of_le full])
  | case2 cmd position argv inside stripped room atEnd =>
    have none : span stripped.1 stripped.2 length = [] := span_eq_nil _ atEnd
    exact splits_nil (strip_strips within) (none ▸ by rw [tokens_nil, List.take_nil])
  | case3 cmd position argv inside stripped room notEnd isQuote closing atEnd =>
    have strips : Strips length cmd position stripped.1 stripped.2 := strip_strips within
    have inLine : stripped.2 < length := lt_of_not_le notEnd
    have isNul : stripped.1 length = 0 := by
      rw [← terminated]
      exact strips.same length (.inr strips.within)
    obtain ⟨below, found⟩ := tokens_string inLine isQuote isNul
    have closes : closing = length := Nat.le_antisymm below atEnd
    change closing ≤ length at below
    refine splits_cons strips (lt_of_not_le room) found (fun _ _ => rfl)
      (argument_span le_skipString below (fun _ _ _ => rfl) ?_) ⟨[], by simp, ?_⟩
    · change stripped.1 closing = 0
      rw [closes, isNul]
    · rw [span_eq_nil _ (show length ≤ closing + 1 by omega), tokens_nil, List.take_nil]
      exact .nil
  | case4 cmd position argv inside stripped room notEnd isQuote closing more ih =>
    have strips : Strips length cmd position stripped.1 stripped.2 := strip_strips within
    have inLine : stripped.2 < length := lt_of_not_le notEnd
    have isNul : stripped.1 length = 0 := by
      rw [← terminated]
      exact strips.same length (.inr strips.within)
    obtain ⟨-, found⟩ := tokens_string inLine isQuote isNul
    have behind : stripped.2 + 1 ≤ closing := le_skipString
    have splits := ih (by rw [update_of_ne (by omega), isNul]) (by omega)
      (by rw [List.length_append, List.length_singleton]; omega)
    have unchanged : span (update stripped.1 closing 0) (closing + 1) length =
        span stripped.1 (closing + 1) length :=
      span_congr fun place above _ => update_of_ne (by omega) _ _
    refine splits_cons strips (lt_of_not_le room) found ?_ (argument_span behind (by omega)
      ?_ ?_) (unchanged ▸ splits.arguments)
    · intro place outside
      change place < stripped.2 ∨ length ≤ place at outside
      rw [splits.same place (by omega), update_of_ne (by omega)]
    · intro place _ below
      change place < closing at below
      rw [splits.same place (by omega), update_of_ne (by omega)]
    · rw [splits.same _ (.inl (Nat.lt_succ_self _)), update_self]
  | case5 cmd position argv inside stripped room notEnd unquoted behind atEnd =>
    have strips : Strips length cmd position stripped.1 stripped.2 := strip_strips within
    have inLine : stripped.2 < length := lt_of_not_le notEnd
    have below : behind ≤ length := (skipWord_spec (le_of_lt inLine)).1
    have ends : behind = length := Nat.le_antisymm below atEnd
    refine splits_cons strips (lt_of_not_le room)
      (tokens_plain inLine (strips.stops inLine) unquoted) (fun _ _ => rfl)
      (argument_span le_skipWord below (fun _ _ _ => rfl) ?_) ⟨[], by simp, ?_⟩
    · change stripped.1 behind = 0
      rw [ends, ← terminated]
      exact strips.same length (.inr strips.within)
    · change List.Forall₂ _ [] ((tokens (span stripped.1 behind length)).take _)
      rw [span_eq_nil _ (by omega), tokens_nil, List.take_nil]
      exact .nil
  | case6 cmd position argv inside stripped room notEnd unquoted behind notLast ih =>
    have more : behind < length := lt_of_not_le notLast
    have strips : Strips length cmd position stripped.1 stripped.2 := strip_strips within
    have inLine : stripped.2 < length := lt_of_not_le notEnd
    have blank : behind < length → isBlank (stripped.1 behind) :=
      (skipWord_spec (le_of_lt inLine)).2.2.2
    have later : stripped.2 ≤ behind := le_skipWord
    have splits := ih (by rw [← terminated]; exact strips.same length (.inr strips.within))
      (le_of_lt more) (by rw [List.length_append, List.length_singleton]; omega)
    exact splits_cons strips (lt_of_not_le room)
      (tokens_plain inLine (strips.stops inLine) unquoted)
      (fun place outside => splits.same place (by omega))
      (argument_span later (le_of_lt more) (fun place _ below => splits.same place (.inl below))
        (splits.ends more (blank more))) splits.arguments
  | case7 cmd position argv outside =>
    exact ⟨⟨[], by simp, by rw [span_eq_nil _ (by omega), tokens_nil, List.take_nil]; exact .nil⟩,
      fun _ _ => rfl, fun inside => absurd inside outside⟩

/-- `msh_split` on a line with a NUL behind it: the arguments are the first tokens, at most
`FINSH_ARG_MAX` of them, and nothing is written behind the line. -/
theorem mshSplit_tokens (length : Nat) (cmd : Nat → UInt8) (terminated : cmd length = 0) :
    (mshSplit length cmd 0 []).2.length ≤ finshArgMax ∧
      List.Forall₂ (Argument (mshSplit length cmd 0 []).1 length) (mshSplit length cmd 0 []).2
        ((tokens (span cmd 0 length)).take finshArgMax) ∧
      ∀ p, length ≤ p → (mshSplit length cmd 0 []).1 p = cmd p := by
  have splits := @mshSplit_splits length cmd 0 [] terminated (Nat.zero_le _) (Nat.zero_le _)
  obtain ⟨new, isNew, arguments⟩ := splits.arguments
  rw [List.nil_append] at isNew
  rw [← isNew] at arguments
  refine ⟨?_, arguments, fun p behind => splits.same p (.inr behind)⟩
  rw [arguments.length_eq, List.length_take]
  exact Nat.min_le_left _ _

def quotedLine (place : Nat) : UInt8 :=
  [0x6c, 0x73, 0x20, 0x22, 0x61, 0x20, 0x62, 0x22].getD place 0

theorem quotedLine_tokens : tokens (span quotedLine 0 8) = [[0x6c, 0x73], [0x61, 0x20, 0x62]] ∧
    List.Forall₂ (Argument (mshSplit 8 quotedLine 0 []).1 8) (mshSplit 8 quotedLine 0 []).2
      ((tokens (span quotedLine 0 8)).take finshArgMax) :=
  ⟨by simp [span, List.range', quotedLine, tokens, quoted, isBlank, isWord, quoteMark, backslash],
    (mshSplit_tokens 8 quotedLine rfl).2.1⟩

/-- A word that can be put in quotes. -/
def Quotable (word : List UInt8) : Prop :=
  quoteMark ∉ word ∧ word.getLast? ≠ some backslash

/-- The line of the words in quotes, each with a blank behind it. -/
def quotedWords : List (List UInt8) → List UInt8
  | [] => []
  | word :: words => quoteMark :: word ++ quoteMark :: 0x20 :: quotedWords words

theorem quoted_append {before : UInt8} {word : List UInt8} (noQuote : quoteMark ∉ word)
    (unescaped : word.getLast?.getD before ≠ backslash) (rest : List UInt8) :
    quoted before (word ++ quoteMark :: rest) = (word, rest) := by
  induction word generalizing before with
  | nil => exact if_pos ⟨rfl, unescaped⟩
  | cons ch word ih =>
    obtain ⟨notQuote, noQuote⟩ := not_or.mp (fun mem => noQuote (List.mem_cons.mpr mem))
    rw [List.getLast?_cons, Option.getD_some] at unescaped
    rw [List.cons_append, quoted, if_neg fun quote => notQuote quote.1.symm, ih noQuote unescaped]

theorem tokens_quotedWords {words : List (List UInt8)} (quotable : ∀ word ∈ words, Quotable word) :
    tokens (quotedWords words) = words := by
  induction words with
  | nil => simp [quotedWords, tokens]
  | cons word words ih =>
    obtain ⟨⟨noQuote, unescaped⟩, quotable⟩ := List.forall_mem_cons.mp quotable
    have closes : word.getLast?.getD quoteMark ≠ backslash := by
      cases last : word.getLast? with
      | none => decide
      | some ch => exact fun same => unescaped (last.trans (congrArg some same))
    rw [quotedWords, List.cons_append, tokens, if_neg (by decide), if_pos rfl,
      quoted_append noQuote closes, tokens, if_pos (by decide), ih quotable]

/-- Words in quotes come back as the arguments, if there are at most `FINSH_ARG_MAX` of them. -/
theorem mshSplit_quotedWords {words : List (List UInt8)} {cmd : Nat → UInt8}
    (quotable : ∀ word ∈ words, Quotable word) (few : words.length ≤ finshArgMax)
    (line : span cmd 0 (quotedWords words).length = quotedWords words)
    (terminated : cmd (quotedWords words).length = 0) :
    List.Forall₂ (Argument (mshSplit (quotedWords words).length cmd 0 []).1
      (quotedWords words).length) (mshSplit (quotedWords words).length cmd 0 []).2 words := by
  have splits := @mshSplit_splits _ cmd 0 [] terminated (Nat.zero_le _) (Nat.zero_le _)
  obtain ⟨new, isNew, arguments⟩ := splits.arguments
  rw [line, tokens_quotedWords quotable] at arguments
  rw [isNew]
  simpa [List.take_of_length_le few] using arguments

def twoWords (place : Nat) : UInt8 := (quotedWords [[0x61, 0x20], []]).getD place 0

theorem twoWords_quoted :
    List.Forall₂ (Argument (mshSplit 8 twoWords 0 []).1 8) (mshSplit 8 twoWords 0 []).2
      [[0x61, 0x20], []] :=
  @mshSplit_quotedWords [[0x61, 0x20], []] twoWords
    (by simp [Quotable, quoteMark, backslash]) (by decide) rfl rfl

end RtThread.Finsh
