import Mathlib.Data.List.Basic

/-!
# The longest common prefix of a list of words

`common` is the longest common prefix of two words and `commonPrefix` that of a word and a list of
others.
-/

namespace CommonPrefix

variable {α : Type*} [DecidableEq α]

def common : List α → List α → List α
  | a :: left, b :: right => if a = b then a :: common left right else []
  | _, _ => []

/-- The longest prefix that `first` shares with all of `words`. -/
def commonPrefix (first : List α) (words : List (List α)) : List α :=
  words.foldl common first

theorem prefix_common_iff {part left right : List α} :
    part <+: common left right ↔ part <+: left ∧ part <+: right := by
  induction left generalizing part right with
  | nil =>
    cases right <;> simp +contextual [common]
  | cons a left ih =>
    cases right with
    | nil => simp +contextual [common]
    | cons b right =>
      cases part with
      | nil => simp
      | cons c part =>
        by_cases same : a = b
        · subst same
          simp only [common, if_pos, List.cons_prefix_cons, ih]
          tauto
        · simp only [common, if_neg same, List.cons_prefix_cons]
          constructor
          · simp
          · rintro ⟨⟨rfl, _⟩, rfl, _⟩
            exact absurd rfl same

theorem common_prefix_left (left right : List α) : common left right <+: left :=
  (prefix_common_iff.mp List.prefix_rfl).1

theorem prefix_commonPrefix_iff {part a : List α} {words : List (List α)} :
    part <+: commonPrefix a words ↔ part <+: a ∧ ∀ word ∈ words, part <+: word := by
  induction words generalizing a with
  | nil => simp [commonPrefix]
  | cons word words ih =>
    have step : commonPrefix a (word :: words) = commonPrefix (common a word) words := rfl
    rw [step, ih, prefix_common_iff, List.forall_mem_cons, and_assoc]

theorem commonPrefix_isPrefix (a : List α) (words : List (List α)) : commonPrefix a words <+: a :=
  (prefix_commonPrefix_iff.mp List.prefix_rfl).1

theorem common_take (first word : List α) (n : Nat) :
    common (first.take n) word = first.take (min n (common first word).length) := by
  induction first generalizing word n with
  | nil => simp [common]
  | cons a first ih =>
    cases n with
    | zero => simp [common]
    | succ n =>
      cases word with
      | nil => simp [common]
      | cons b word =>
        by_cases same : a = b
        · simp only [List.take_succ_cons, common, if_pos same, ih,
            List.length_cons, Nat.add_min_add_right]
        · simp [common, if_neg same]

theorem commonPrefix_take (a : List α) (words : List (List α)) (n : Nat) :
    commonPrefix (a.take n) words =
      a.take (words.foldl (fun least word => min least (common a word).length) n) := by
  induction words generalizing n with
  | nil => rfl
  | cons word words ih =>
    have step : commonPrefix (a.take n) (word :: words) =
        commonPrefix (common (a.take n) word) words := rfl
    rw [step, common_take, ih]
    rfl

theorem least_le (a : List α) (words : List (List α)) (n : Nat) :
    words.foldl (fun least word => min least (common a word).length) n ≤ n := by
  induction words generalizing n with
  | nil => exact Nat.le_refl n
  | cons word words ih =>
    exact Nat.le_trans (ih _) (Nat.min_le_left _ _)

end CommonPrefix

/-!
## Symbols that are read one by one

A reader takes one symbol off a stream.
-/

namespace RtThread.PrefixCode

variable {Symbol Letter : Type}

def readMany (read : List Letter → Option (Symbol × List Letter)) : Nat → List Letter → List Symbol
  | 0, _ => []
  | reads + 1, stream =>
    match read stream with
    | none => []
    | some (symbol, rest) => symbol :: readMany read reads rest

variable {read : List Letter → Option (Symbol × List Letter)} {encode : Symbol → List Letter}

theorem readMany_succ {reads : Nat} {stream rest : List Letter} {symbol : Symbol}
    (isRead : read stream = some (symbol, rest)) :
    readMany read (reads + 1) stream = symbol :: readMany read reads rest := by
  rw [readMany, isRead]

/-- A reader that takes back each symbol behind what it skips takes back a whole stream. -/
theorem readMany_shown {shown : List Letter → List Letter} {symbols : List Symbol}
    (inverse : ∀ symbol ∈ symbols, ∀ stream rest, shown stream = encode symbol ++ rest →
      ∃ later, read stream = some (symbol, later) ∧ shown later = rest) (reads : Nat)
    {stream rest : List Letter} (sent : shown stream = symbols.flatMap encode ++ rest) :
    ∃ later, shown later = rest ∧ readMany read (symbols.length + reads) stream =
      symbols ++ readMany read reads later := by
  induction symbols generalizing stream with
  | nil => exact ⟨stream, sent, by simp⟩
  | cons symbol symbols ih =>
    rw [List.flatMap_cons, List.append_assoc] at sent
    obtain ⟨next, isRead, others⟩ := inverse symbol List.mem_cons_self stream _ sent
    obtain ⟨later, isRest, reading⟩ := ih (fun u isOther =>
      inverse u (List.mem_cons_of_mem symbol isOther)) others
    have more : (symbol :: symbols).length + reads = symbols.length + reads + 1 := by
      rw [List.length_cons]
      omega
    exact ⟨later, isRest, by rw [more, readMany_succ isRead, reading, List.cons_append]⟩

theorem length_le_flatMap (symbols : List Symbol) (nonempty : ∀ symbol, encode symbol ≠ []) :
    symbols.length ≤ (symbols.flatMap encode).length := by
  induction symbols with
  | nil => exact Nat.zero_le _
  | cons symbol symbols ih =>
    have pos := List.length_pos_iff.mpr (nonempty symbol)
    rw [List.flatMap_cons, List.length_append, List.length_cons]
    omega

end RtThread.PrefixCode
