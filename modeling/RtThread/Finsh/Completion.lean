import Mathlib.Data.List.DropRight
import Mathlib.Data.UInt
import RtThread.Library.TextBuffer
import RtThread.Library.Prefixes

/-!
# Completing a command line

`msh_auto_complete` first completes the path behind the last blank of the line, from the entries
of its directory, and then the whole line, from the names of the commands.
-/

namespace RtThread.Finsh

open TextBuffer CommonPrefix

abbrev blank : UInt8 := 0x20
abbrev slash : UInt8 := 0x2f

/-- A string without its terminator. -/
structure CString where
  bytes : List UInt8
  nonzero : 0 ∉ bytes

/-- What the completion finds around it: the names in the table of system calls, the result
of `rt_malloc`, the working directory and the entries of the directories that can be opened. -/
structure Surroundings where
  syscallTable : List CString
  outOfMemory : Bool
  getcwd : CString
  readdir : List UInt8 → Option (List CString)

/-- `"__cmd_"`, which begins the names of the commands in the table. -/
def cmdPrefix : List UInt8 := [0x5f, 0x5f, 0x63, 0x6d, 0x64, 0x5f]

def Surroundings.cmdNames (env : Surroundings) : List (List UInt8) :=
  (env.syscallTable.filter (cmdPrefix.isPrefixOf ·.bytes)).map (·.bytes.drop 6)

def strCommon : List UInt8 → List UInt8 → Nat
  | a :: left, b :: right => if a = b then strCommon left right + 1 else 0
  | _, _ => 0

def narrow (stem : List UInt8) :
    Nat × Option (List UInt8) → List UInt8 → Nat × Option (List UInt8)
  | (minLength, first), name =>
    if stem.isPrefixOf name then
      let found := if minLength = 0 then (name.length, name) else (minLength, first.getD [])
      let length := strCommon found.2 name
      (if length < found.1 then length else found.1, some found.2)
    else (minLength, first)

/-- The position behind the last slash, by the loop over `*ptr`. -/
def afterSlash : List UInt8 → Nat → Option Nat → Option Nat
  | [], _, index => index
  | c :: rest, ptr, index =>
    afterSlash rest (ptr + 1) (if c = slash then some (ptr + 1) else index)

/-- The last blank at or before `*ptr`, the first character of the line excepted. -/
def lastBlank (prefix' : List UInt8) : Nat → Option Nat
  | 0 => none
  | ptr + 1 => if prefix'[ptr + 1]? = some blank then some (ptr + 1) else lastBlank prefix' ptr

/-- The path of the directory that `index` of `path` is completed in. -/
def fullPath (env : Surroundings) (path : List UInt8) (index : Nat) : List UInt8 :=
  let start :=
    if path.head? = some slash then []
    else if env.getcwd.bytes.getLast? = some slash then env.getcwd.bytes
    else env.getcwd.bytes ++ [slash]
  start ++ path.take index

/-- `msh_auto_complete_path`, for the path from `offset` of the line on. -/
def mshAutoCompletePath (env : Surroundings) (line : List UInt8) (offset : Nat) :
    Option (List UInt8) :=
  if env.outOfMemory then some line
  else
    let path := textOf (line.drop offset)
    let index := (afterSlash path 0 none).getD 0
    match env.readdir (fullPath env path index) with
    | none => some line
    | some names =>
      if path.drop index = [] then some line
      else
        let found := (names.map CString.bytes).foldl (narrow (path.drop index)) (0, none)
        if found.1 = 0 then some line
        else
          (overwrite? line (offset + index) ((found.2.getD []).take found.1)).bind
            (overwrite? · (offset + index + found.1) [0])

/-- "check whether a spare in the command", with `*ptr` starting from the terminator. -/
def completeBehindBlank (env : Surroundings) (line : List UInt8) (length : Nat) :
    Option (List UInt8) :=
  match lastBlank (textOf line) length with
  | some ptr => mshAutoCompletePath env line (ptr + 1)
  | none => some line

def completeCommand (names : List (List UInt8)) (line : List UInt8) : Option (List UInt8) :=
  let found := names.foldl (narrow (textOf line)) (0, none)
  match found.2 with
  | some namePtr => overwrite? line 0 (namePtr.take found.1)
  | none => some line

def mshAutoComplete (env : Surroundings) (line : List UInt8) : Option (List UInt8) :=
  if textOf line = [] then some line
  else
    (strlen? line).bind fun length =>
      (completeBehindBlank env line length).bind (completeCommand env.cmdNames)

/-- A line together with its length, "re-calculate position". -/
def measured (line : List UInt8) : Option (List UInt8 × Nat) :=
  (strlen? line).map (line, ·)

/-- What all names that begin with `stem` agree on. -/
def completion (stem : List UInt8) (names : List (List UInt8)) : List UInt8 :=
  match names.filter stem.isPrefixOf with
  | [] => stem
  | first :: rest => commonPrefix first rest

def completePath (env : Surroundings) (path : List UInt8) : List UInt8 :=
  let parent := path.rdropWhile (· ≠ slash)
  let stem := path.rtakeWhile (· ≠ slash)
  if env.outOfMemory ∨ stem = [] then path
  else
    match env.readdir (fullPath env path parent.length) with
    | none => path
    | some names => parent ++ completion stem (names.map CString.bytes)

def completeLast (env : Surroundings) (text : List UInt8) : List UInt8 :=
  let head := text.rdropWhile (· ≠ blank)
  if 1 < head.length then
    head ++ completePath env (text.rtakeWhile (· ≠ blank))
  else text

def completed (env : Surroundings) (text : List UInt8) : List UInt8 :=
  if text = [] then []
  else completion (completeLast env text) env.cmdNames

open TextBuffer CommonPrefix

theorem strCommon_eq (left right : List UInt8) :
    strCommon left right = (common left right).length := by
  induction left generalizing right with
  | nil => rfl
  | cons a left ih =>
    cases right with
    | nil => rfl
    | cons b right =>
      simp only [strCommon, common, ih]
      split <;> rfl

variable {stem text : List UInt8} {n : Nat}

theorem narrow_of_not_prefix {name : List UInt8} {found : Nat × Option (List UInt8)}
    (ne : stem.isPrefixOf name = false) : narrow stem found name = found := by
  simp [narrow, ne]

theorem narrow_first {name : List UInt8} (isPrefix : stem.isPrefixOf name = true) :
    narrow stem (0, none) name = (name.length, some name) := by
  have self : common name name = name := by
    have both : name <+: common name name :=
      prefix_common_iff.mpr ⟨List.prefix_rfl, List.prefix_rfl⟩
    exact (both.eq_of_length_le (common_prefix_left name name).length_le).symm
  simp [narrow, isPrefix, strCommon_eq, self]

theorem narrow_next {a name : List UInt8} {least : Nat} (found : 0 < least)
    (isPrefix : stem.isPrefixOf name = true) :
    narrow stem (least, some a) name = (min least (common a name).length, some a) := by
  have ne : least ≠ 0 := Nat.ne_of_gt found
  have least_eq : (if (common a name).length < least then (common a name).length
      else least) = min least (common a name).length := by
    split <;> omega
  simp [narrow, isPrefix, ne, strCommon_eq, least_eq]

theorem length_le_common {a name : List UInt8} (left : stem <+: a)
    (right : stem <+: name) : stem.length ≤ (common a name).length :=
  (prefix_common_iff.mpr ⟨left, right⟩).length_le

theorem foldl_narrow_next {a : List UInt8} (nonempty : stem ≠ [])
    (left : stem <+: a) {least : Nat} (found : stem.length ≤ least) (names : List (List UInt8)) :
    names.foldl (narrow stem) (least, some a) = ((names.filter stem.isPrefixOf).foldl
        (fun least name => min least (common a name).length) least, some a) := by
  have pos := List.length_pos_iff.mpr nonempty
  induction names generalizing least with
  | nil => rfl
  | cons name names ih =>
    cases isPrefix : stem.isPrefixOf name with
    | false =>
      rw [List.foldl_cons, narrow_of_not_prefix isPrefix,
        List.filter_cons_of_neg (by simp [isPrefix]), ih found]
    | true =>
      have both := length_le_common left (List.isPrefixOf_iff_prefix.mp isPrefix)
      rw [List.foldl_cons, narrow_next (Nat.lt_of_lt_of_le pos found) isPrefix,
        List.filter_cons_of_pos (by simp [isPrefix]), List.foldl_cons,
        ih (Nat.le_min.mpr ⟨found, both⟩)]

inductive Found (stem : List UInt8) (names : List (List UInt8)) :
    Nat × Option (List UInt8) → Prop where
  | nothing (same : completion stem names = stem) : Found stem names (0, none)
  | some {minLength : Nat} {first : List UInt8} (positive : 0 < minLength)
      (agreed : first.take minLength = completion stem names)
      (within : minLength ≤ first.length) : Found stem names (minLength, some first)

theorem stem_prefix_completion (stem : List UInt8) (names : List (List UInt8)) :
    stem <+: completion stem names := by
  unfold completion
  split
  · exact List.prefix_rfl
  · rename_i a rest candidates
    have all : ∀ name ∈ a :: rest, stem <+: name := by
      intro name mem
      rw [← candidates, List.mem_filter] at mem
      exact List.isPrefixOf_iff_prefix.mp mem.2
    exact prefix_commonPrefix_iff.mpr ⟨all a List.mem_cons_self,
      fun name mem => all name (List.mem_cons_of_mem _ mem)⟩

theorem zero_notMem_completion {names : List (List UInt8)} (nonzero : 0 ∉ stem)
    (names_nonzero : ∀ name ∈ names, 0 ∉ name) : 0 ∉ completion stem names := by
  unfold completion
  split
  · exact nonzero
  · rename_i a rest candidates
    have mem : a ∈ names.filter stem.isPrefixOf := candidates ▸ List.mem_cons_self
    intro membership
    exact names_nonzero a (List.mem_filter.mp mem).1
      ((commonPrefix_isPrefix a rest).subset membership)

theorem found_of_search (nonempty : stem ≠ []) (names : List (List UInt8)) :
    Found stem names (names.foldl (narrow stem) (0, none)) := by
  induction names with
  | nil => exact .nothing rfl
  | cons name names ih =>
    cases isPrefix : stem.isPrefixOf name with
    | false =>
      have same : completion stem (name :: names) = completion stem names := by
        simp [completion, isPrefix]
      rw [List.foldl_cons, narrow_of_not_prefix isPrefix]
      generalize names.foldl (narrow stem) (0, none) = found at ih ⊢
      cases ih with
      | nothing nothing => exact .nothing (same.trans nothing)
      | some pos agreed within => exact .some pos (agreed.trans same.symm) within
    | true =>
      have left := List.isPrefixOf_iff_prefix.mp isPrefix
      have agreed : name.take ((names.filter stem.isPrefixOf).foldl
          (fun least u => min least (common name u).length) name.length) =
            completion stem (name :: names) := by
        rw [← commonPrefix_take, List.take_length]
        simp [completion, isPrefix]
      have least := (stem_prefix_completion stem (name :: names)).length_le
      rw [← agreed, List.length_take] at least
      have pos := List.length_pos_iff.mpr nonempty
      rw [List.foldl_cons, narrow_first isPrefix, foldl_narrow_next nonempty left left.length_le]
      exact .some (by omega) agreed (least_le _ _ _)

theorem afterSlash_append (front back : List UInt8) (ptr : Nat) (i : Option Nat) :
    afterSlash (front ++ back) ptr i =
      afterSlash back (ptr + front.length) (afterSlash front ptr i) := by
  induction front generalizing ptr i with
  | nil => rfl
  | cons c front ih =>
    simp only [List.cons_append, afterSlash, ih, List.length_cons]
    congr 1
    omega

theorem afterSlash_eq (path : List UInt8) :
    (afterSlash path 0 none).getD 0 = (path.rdropWhile (· ≠ slash)).length := by
  induction path using List.reverseRecOn with
  | nil => rfl
  | append_singleton path c ih =>
    rw [afterSlash_append]
    by_cases isSlash : c = slash
    · subst isSlash
      simp [afterSlash]
    · simp [afterSlash, isSlash, ih]

theorem lastBlank_of_outside {ptr : Nat} (outside : text.length ≤ ptr + 1) :
    lastBlank text (ptr + 1) = lastBlank text ptr := by
  rw [lastBlank, List.getElem?_eq_none outside, if_neg (Option.some_ne_none _).symm]

theorem lastBlank_append (text rest : List UInt8) {ptr : Nat} (within : ptr < text.length) :
    lastBlank (text ++ rest) ptr = lastBlank text ptr := by
  induction ptr with
  | zero => rfl
  | succ ptr ih =>
    rw [lastBlank, lastBlank, List.getElem?_append_left within, ih (Nat.lt_of_succ_lt within)]

theorem lastBlank_eq (text : List UInt8) :
    lastBlank text text.length = if 1 < (text.rdropWhile (· ≠ blank)).length then
        some ((text.rdropWhile (· ≠ blank)).length - 1) else none := by
  induction text using List.reverseRecOn with
  | nil => rfl
  | append_singleton text c ih =>
    have length_eq : (text ++ [c]).length = text.length + 1 := by simp
    rw [length_eq, lastBlank_of_outside (Nat.le_of_eq length_eq), List.rdropWhile_concat]
    cases text using List.reverseRecOn with
    | nil => by_cases isBlank : c = blank <;> simp [isBlank, lastBlank]
    | append_singleton text d _ =>
      generalize textEq : text ++ [d] = line at ih ⊢
      obtain ⟨ptr, count⟩ : ∃ ptr, line.length = ptr + 1 := ⟨text.length, by rw [← textEq]; simp⟩
      by_cases isBlank : c = blank
      · have atLast : (line ++ [c])[ptr + 1]? = some blank := by
          rw [← count, isBlank, List.getElem?_concat_length]
        rw [count, lastBlank, if_pos atLast]
        simp [isBlank, count]
      · have atLast : (line ++ [c])[ptr + 1]? ≠ some blank := by
          rw [← count, List.getElem?_concat_length]
          exact fun eq => isBlank (Option.some.inj eq)
        rw [count, lastBlank, if_neg atLast, lastBlank_append _ _ (by omega),
          ← lastBlank_of_outside (Nat.le_of_eq count), ← count, ih]
        simp [isBlank]

section Completed

variable (env : Surroundings)

theorem zero_notMem_bytes {names : List CString} : ∀ name ∈ names.map CString.bytes, 0 ∉ name := by
  intro name mem
  obtain ⟨string, _, rfl⟩ := List.mem_map.mp mem
  exact string.nonzero

theorem zero_notMem_cmdNames : ∀ name ∈ env.cmdNames, 0 ∉ name := by
  intro name mem
  obtain ⟨string, _, rfl⟩ := List.mem_map.mp mem
  exact fun isMember => string.nonzero (List.mem_of_mem_drop isMember)

variable {env}

theorem zero_notMem_completePath {path : List UInt8} (nonzero : 0 ∉ path) :
    0 ∉ completePath env path := by
  simp only [completePath]
  split
  · exact nonzero
  · split
    · exact nonzero
    · have parent : 0 ∉ path.rdropWhile (· ≠ slash) := fun mem =>
        nonzero ((List.rdropWhile_prefix _ _).subset mem)
      have stem : 0 ∉ path.rtakeWhile (· ≠ slash) := fun mem =>
        nonzero ((List.rtakeWhile_suffix _ _).subset mem)
      rw [List.mem_append, not_or]
      exact ⟨parent, zero_notMem_completion stem zero_notMem_bytes⟩

theorem zero_notMem_completeLast (nonzero : 0 ∉ text) : 0 ∉ completeLast env text := by
  simp only [completeLast]
  split
  · have head : 0 ∉ text.rdropWhile (· ≠ blank) := fun mem =>
      nonzero ((List.rdropWhile_prefix _ _).subset mem)
    have last : 0 ∉ text.rtakeWhile (· ≠ blank) := fun mem =>
      nonzero ((List.rtakeWhile_suffix _ _).subset mem)
    rw [List.mem_append, not_or]
    exact ⟨head, zero_notMem_completePath last⟩
  · exact nonzero

theorem zero_notMem_completed (nonzero : 0 ∉ text) : 0 ∉ completed env text := by
  rw [completed]
  split
  · exact List.not_mem_nil
  · exact zero_notMem_completion (zero_notMem_completeLast nonzero)
      (zero_notMem_cmdNames env)

theorem mshAutoCompletePath_eq {head path : List UInt8}
    (nonzero : 0 ∉ path) (fits : (head ++ path).length < n) :
    mshAutoCompletePath env (padded n (head ++ path)) head.length =
      if (head ++ completePath env path).length < n then
        some (padded n (head ++ completePath env path)) else none := by
  have read : textOf ((padded n (head ++ path)).drop head.length) = path := by
    rw [drop_padded, textOf_padded nonzero]
  have unchanged : ∀ same : completePath env path = path, some (padded n (head ++ path)) =
        if (head ++ completePath env path).length < n then
          some (padded n (head ++ completePath env path))
        else none := by
    intro same
    rw [same, if_pos fits]
  simp only [mshAutoCompletePath, read, afterSlash_eq]
  have whole : path.rdropWhile (· ≠ slash) ++ path.rtakeWhile (· ≠ slash) = path :=
    List.rdropWhile_append_rtakeWhile
  have result := completePath.eq_1 env path
  generalize path.rdropWhile (· ≠ slash) = parent at whole result ⊢
  generalize path.rtakeWhile (· ≠ slash) = stem at whole result ⊢
  have back : path.drop parent.length = stem := by
    rw [← whole]
    exact List.drop_left
  rw [back]
  split
  · next outOfMemory => exact unchanged (by rw [result, if_pos (.inl outOfMemory)])
  · rename_i enough
    split
    · rename_i closed
      refine unchanged ?_
      rw [result, closed]
      split <;> rfl
    · rename_i names opened
      split
      · next empty => exact unchanged (by rw [result, if_pos (.inr empty)])
      · rename_i nonempty
        have completedPath : completePath env path =
            parent ++ completion stem (names.map CString.bytes) := by
          rw [result, if_neg (not_or.mpr ⟨enough, nonempty⟩), opened]
        have search := found_of_search nonempty (names.map CString.bytes)
        generalize (names.map CString.bytes).foldl (narrow stem) (0, none) = found at search ⊢
        cases search with
        | nothing same =>
          exact unchanged (by rw [completedPath, same, whole])
        | @some minLength first positive agreed within =>
          have minLength_eq :
              minLength = (completion stem (names.map CString.bytes)).length := by
            rw [← agreed, List.length_take, Nat.min_eq_left within]
          rw [if_neg (Nat.ne_of_gt positive), completedPath, Option.getD_some, agreed,
            minLength_eq, ← List.length_append, ← List.append_assoc, ← whole,
            ← List.append_assoc]
          refine extend_terminated (stem_prefix_completion _ _).length_le ?_
          rw [List.append_assoc, whole]
          exact Nat.le_of_lt fits

theorem prefix_completePath (path : List UInt8) : path <+: completePath env path := by
  simp only [completePath]
  split
  · exact List.prefix_rfl
  · split
    · exact List.prefix_rfl
    · nth_rewrite 1 [← List.rdropWhile_append_rtakeWhile (p := (· ≠ slash)) (l := path)]
      rw [List.prefix_append_right_inj]
      exact stem_prefix_completion _ _

theorem prefix_completeLast (text : List UInt8) : text <+: completeLast env text := by
  simp only [completeLast]
  split
  · nth_rewrite 1 [← List.rdropWhile_append_rtakeWhile (p := (· ≠ blank)) (l := text)]
    rw [List.prefix_append_right_inj]
    exact prefix_completePath _
  · exact List.prefix_rfl

theorem completeBehindBlank_eq (nonzero : 0 ∉ text) (fits : text.length < n) :
    completeBehindBlank env (padded n text) text.length = if (completeLast env text).length < n then
        some (padded n (completeLast env text)) else none := by
  have whole : text.rdropWhile (· ≠ blank) ++ text.rtakeWhile (· ≠ blank) = text :=
    List.rdropWhile_append_rtakeWhile
  rw [completeBehindBlank, textOf_padded nonzero, lastBlank_eq, completeLast]
  by_cases behind : 1 < (text.rdropWhile (· ≠ blank)).length
  · simp only [if_pos behind, Nat.sub_add_cancel (Nat.le_of_lt behind)]
    nth_rewrite 1 [← whole]
    refine mshAutoCompletePath_eq ?_ (by rwa [whole])
    exact fun isMember => nonzero ((List.rtakeWhile_suffix _ _).subset isMember)
  · simp only [if_neg behind, if_pos fits]

theorem measured_padded (nonzero : 0 ∉ text) :
    (if text.length ≤ n then some (padded n text) else none).bind measured =
      if text.length < n then some (padded n text, text.length) else none := by
  rcases Nat.lt_trichotomy text.length n with fits | fills | exceeds
  · rw [if_pos (Nat.le_of_lt fits), if_pos fits, Option.bind_some, measured,
      strlen?_padded fits nonzero]
    rfl
  · rw [if_pos (Nat.le_of_eq fills), if_neg (Nat.not_lt_of_ge (Nat.le_of_eq fills.symm)),
      Option.bind_some, measured, strlen?_padded_eq_none (Nat.le_of_eq fills.symm) nonzero]
    rfl
  · rw [if_neg (Nat.not_le_of_gt exceeds), if_neg (Nat.not_lt_of_gt exceeds)]
    rfl

theorem completeCommand_eq (nonempty : text ≠ [])
    (nonzero : 0 ∉ text) (fits : text.length < n) (names : List (List UInt8)) :
    completeCommand names (padded n text) =
      if (completion text names).length ≤ n then some (padded n (completion text names))
      else none := by
  have search := found_of_search nonempty names
  rw [completeCommand, textOf_padded nonzero]
  generalize names.foldl (narrow text) (0, none) = found at search ⊢
  cases search with
  | nothing same => simp only [same, if_pos (Nat.le_of_lt fits)]
  | @some minLength first positive agreed within =>
    simp only [agreed]
    split
    · rename_i fitsToo
      exact @extend_padded _ _ n [] text _ (stem_prefix_completion _ _).length_le fitsToo
    · rename_i exceeds
      refine overwrite?_eq_none ?_
      rw [padded_length (Nat.le_of_lt fits)]
      omega

theorem mshAutoComplete_eq (nonzero : 0 ∉ text) (fits : text.length < n) :
    (mshAutoComplete env (padded n text)).bind measured = if (completed env text).length < n then
        some (padded n (completed env text), (completed env text).length) else none := by
  rw [mshAutoComplete, completed, textOf_padded nonzero]
  split
  · rename_i empty
    subst empty
    rw [Option.bind_some, measured, strlen?_padded fits nonzero, if_pos fits]
    rfl
  · rename_i nonempty
    have longer := (stem_prefix_completion (completeLast env text)
      env.cmdNames).length_le
    have last_nonzero : 0 ∉ completeLast env text := zero_notMem_completeLast nonzero
    have last_nonempty : completeLast env text ≠ [] := fun isEmpty =>
      nonempty (List.prefix_nil.mp (isEmpty ▸ prefix_completeLast text))
    rw [strlen?_padded fits nonzero, Option.bind_some, completeBehindBlank_eq nonzero fits]
    split
    · rename_i fitsToo
      rw [Option.bind_some, completeCommand_eq last_nonempty last_nonzero fitsToo]
      exact measured_padded
        (zero_notMem_completion last_nonzero (zero_notMem_cmdNames env))
    · next exceeds => rw [if_neg (by omega)]; rfl

end Completed

end RtThread.Finsh
