import Mathlib.Data.List.Infix
import Mathlib.Order.Lattice

/-!
# Lexical paths

A path is a walk from the root of a tree: each of its components stays, goes up, or goes down to a
name.
-/

universe u

namespace LexicalPath

open Option (bind_some)

inductive Move (Name : Type u) where
  | stay
  | up
  | down (name : Name)

section Walks

variable {Name : Type u} {moves : List (Move Name)} {names last : List Name}

/-- One move, from the place below the root that `names` leads to. -/
def Move.apply (names : List Name) : Move Name → Option (List Name)
  | .stay => some names
  | .up => if names = [] then none else some names.dropLast
  | .down name => some (names ++ [name])

def follow : List (Move Name) → List Name → Option (List Name)
  | [], names => some names
  | move :: moves, names => (move.apply names).bind (follow moves)

def Move.change : Move Name → Int
  | .stay => 0
  | .up => -1
  | .down _ => 1

def lowest : List (Move Name) → Int
  | [] => 0
  | move :: moves => min 0 (move.change + lowest moves)

theorem lowest_nonpos (moves : List (Move Name)) : lowest moves ≤ 0 := by
  cases moves with
  | nil => exact le_refl 0
  | cons move moves => exact min_le_left _ _

theorem follow_eq_none_iff : follow moves names = none ↔ names.length + lowest moves < 0 := by
  induction moves generalizing names with
  | nil => simp [follow, lowest]
  | cons move moves ih =>
    have nonpos := lowest_nonpos moves
    cases move with
    | stay =>
      simp only [follow, Move.apply, bind_some, ih, lowest, Move.change]
      omega
    | up =>
      by_cases empty : names = []
      · subst empty
        simp only [follow, Move.apply, if_true, Option.bind_none, lowest, Move.change,
          List.length_nil, true_iff]
        omega
      · have pos := List.length_pos_of_ne_nil empty
        simp only [follow, Move.apply, if_neg empty, bind_some, ih,
          lowest, Move.change, List.length_dropLast]
        omega
    | down name =>
      simp only [follow, Move.apply, bind_some, ih, lowest, Move.change,
        List.length_append, List.length_singleton]
      omega

theorem follow_beneath (outer : List Name) (followed : follow moves names = some last) :
    follow moves (outer ++ names) = some (outer ++ last) := by
  induction moves generalizing names with
  | nil =>
    obtain rfl : names = last := Option.some.inj followed
    rfl
  | cons move moves ih =>
    cases move with
    | stay => exact ih followed
    | up =>
      by_cases empty : names = []
      · simp [follow, Move.apply, empty] at followed
      · simp only [follow, Move.apply, if_neg empty] at followed
        have kept : outer ++ names ≠ [] := by simp [empty]
        simp only [follow, Move.apply, if_neg kept,
          List.dropLast_append_of_ne_nil empty]
        exact ih followed
    | down name =>
      simp only [follow, Move.apply, List.append_assoc] at followed ⊢
      exact ih followed

theorem follow_map_down (names outer : List Name) :
    follow (names.map .down) outer = some (outer ++ names) := by
  induction names generalizing outer with
  | nil => simp [follow]
  | cons name names ih =>
    simp only [List.map_cons, follow, Move.apply, bind_some, ih,
      List.append_assoc, List.singleton_append]

theorem follow_append (a second : List (Move Name)) (names : List Name) :
    follow (a ++ second) names = (follow a names).bind (follow second) := by
  induction a generalizing names with
  | nil => rfl
  | cons move a ih =>
    cases moved : move.apply names with
    | none => simp [follow, moved]
    | some next => simp [follow, moved, ih]

theorem forall_of_follow {property : Name → Prop} (start : ∀ name ∈ names, property name)
    (downs : ∀ name, Move.down name ∈ moves → property name)
    (followed : follow moves names = some last) : ∀ name ∈ last, property name := by
  induction moves generalizing names with
  | nil =>
    obtain rfl : names = last := Option.some.inj followed
    exact start
  | cons move moves ih =>
    have later : ∀ name, Move.down name ∈ moves → property name := fun name isMove =>
      downs name (List.mem_cons_of_mem move isMove)
    cases move with
    | stay => exact ih start later followed
    | up =>
      by_cases empty : names = []
      · simp [follow, Move.apply, empty] at followed
      · simp only [follow, Move.apply, if_neg empty] at followed
        exact ih (fun name isName => start name (List.mem_of_mem_dropLast isName))
          later followed
    | down name =>
      refine ih (fun other isOther => ?_) later followed
      rcases List.mem_append.mp isOther with before | new
      · exact start other before
      · obtain rfl := List.mem_singleton.mp new
        exact downs other (List.mem_cons_self ..)

theorem follow_cons_cases {outer : Name} {property : Name → Prop}
    (start : ∀ name ∈ names, property name) (downs : ∀ name, Move.down name ∈ moves → property name)
    (followed : follow moves (outer :: names) = some last) :
    (∃ rest, last = outer :: rest ∧ ∀ name ∈ rest, property name) ∨
      ∀ name ∈ last, property name := by
  induction moves generalizing names with
  | nil => exact .inl ⟨names, (Option.some.inj followed).symm, start⟩
  | cons move moves ih =>
    have later : ∀ name, Move.down name ∈ moves → property name := fun name isMove =>
      downs name (List.mem_cons_of_mem move isMove)
    cases move with
    | stay => exact ih start later followed
    | up =>
      simp only [follow, Move.apply] at followed
      by_cases empty : names = []
      · subst empty
        exact .inr (forall_of_follow start later followed)
      · rw [List.dropLast_cons_of_ne_nil empty] at followed
        exact ih (fun name isName => start name (List.mem_of_mem_dropLast isName)) later followed
    | down name =>
      refine ih (fun other isOther => ?_) later followed
      rcases List.mem_append.mp isOther with before | new
      · exact start other before
      · obtain rfl := List.mem_singleton.mp new
        exact downs other (List.mem_cons_self ..)

end Walks

structure Format (α : Type u) where
  separator : α
  dot : α
  dot_ne : dot ≠ separator

namespace Format

variable {α : Type u} [DecidableEq α] (format : Format α)

def readMove (name : List α) : Move (List α) :=
  if name = [] ∨ name = [format.dot] then .stay
  else if name = [format.dot, format.dot] then .up
  else .down name

def moves (path : List α) : List (Move (List α)) :=
  (path.splitOn format.separator).map format.readMove

/-- A component that names something. -/
structure Proper (name : List α) : Prop where
  nonempty : name ≠ []
  not_dot : name ≠ [format.dot]
  not_dots : name ≠ [format.dot, format.dot]
  separated : format.separator ∉ name

def render (names : List (List α)) : List α :=
  format.separator :: [format.separator].intercalate names

def spell (names : List (List α)) : List α := names.flatMap (· ++ [format.separator])

def Normalized (path : List α) : Prop :=
  ∃ names, (∀ name ∈ names, format.Proper name) ∧ path = format.render names

variable {format} {name path : List α} {names last : List (List α)}

theorem readMove_proper (proper : format.Proper name) : format.readMove name = .down name := by
  simp [readMove, proper.nonempty, proper.not_dot, proper.not_dots]

theorem proper_of_readMove (separated : format.separator ∉ name) {other : List α}
    (isDown : format.readMove name = .down other) : name = other ∧ format.Proper name := by
  unfold readMove at isDown
  split at isDown
  · simp at isDown
  · rename_i notStay
    split at isDown
    · simp at isDown
    · rename_i notUp
      refine ⟨by simpa using isDown, ?_, ?_, notUp, separated⟩
      · exact fun empty => notStay (.inl empty)
      · exact fun dot => notStay (.inr dot)

theorem moves_nil : format.moves [] = [.stay] := by
  simp [moves, readMove]

theorem moves_separator (path : List α) :
    format.moves (format.separator :: path) = .stay :: format.moves path := by
  simp [moves, List.splitOn_cons_eq_if_modifyHead, readMove]

theorem moves_name (separated : format.separator ∉ name) :
    format.moves name = [format.readMove name] := by
  simp [moves, List.splitOn_eq_singleton separated]

theorem moves_name_separator (separated : format.separator ∉ name) (path : List α) :
    format.moves (name ++ format.separator :: path) =
      format.readMove name :: format.moves path := by
  simp [moves, List.splitOn_append_cons_self_of_not_mem separated]

omit [DecidableEq α] in
theorem spell_append (names : List (List α)) (name : List α) :
    format.spell (names ++ [name]) = format.spell names ++ (name ++ [format.separator]) := by
  simp [spell]

omit [DecidableEq α] in
theorem render_append (names : List (List α)) (name : List α) :
    format.render (names ++ [name]) = format.separator :: (format.spell names ++ name) := by
  unfold render
  congr 1
  induction names with
  | nil => simp [spell]
  | cons a names ih =>
    rw [List.cons_append, List.intercalate_cons_of_ne_nil (by simp), ih]
    simp [spell]

theorem follow_moves_dropWhile (path : List α) (names : List (List α)) :
    follow (format.moves (path.dropWhile (· = format.separator))) names =
      follow (format.moves path) names := by
  induction path with
  | nil => rfl
  | cons a path ih =>
    by_cases isSeparator : a = format.separator
    · subst isSeparator
      rw [List.dropWhile_cons_of_pos (by simp), moves_separator, ih]
      rfl
    · rw [List.dropWhile_cons_of_neg (by simpa using isSeparator)]

theorem exists_component (path : List α) : ∃ name, format.separator ∉ name ∧
      (path = name ∨ ∃ rest, path = name ++ format.separator :: rest) := by
  induction path with
  | nil => exact ⟨[], by simp, .inl rfl⟩
  | cons a path ih =>
    by_cases isSeparator : a = format.separator
    · exact ⟨[], by simp, .inr ⟨path, by rw [isSeparator, List.nil_append]⟩⟩
    · obtain ⟨name, separated, ends⟩ := ih
      refine ⟨a :: name, ?_, ?_⟩
      · simp only [List.mem_cons, not_or]
        exact ⟨Ne.symm isSeparator, separated⟩
      · rcases ends with rfl | ⟨rest, rfl⟩
        · exact .inl rfl
        · exact .inr ⟨rest, rfl⟩

theorem separator_not_mem {path : List α} (isComponent : name ∈ path.splitOn format.separator) :
    format.separator ∉ name := by
  induction path generalizing name with
  | nil =>
    obtain rfl : name = [] := by simpa using isComponent
    simp
  | cons a path ih =>
    rw [List.splitOn_cons_eq_if_modifyHead] at isComponent
    obtain ⟨component, components, split⟩ :=
      List.exists_cons_of_ne_nil (List.splitOn_ne_nil format.separator path)
    rw [split] at isComponent ih
    by_cases isSeparator : a = format.separator
    · simp only [isSeparator, beq_self_eq_true] at isComponent
      rcases List.mem_cons.mp isComponent with rfl | later
      · simp
      · exact ih later
    · simp only [beq_iff_eq, isSeparator] at isComponent
      rcases List.mem_cons.mp isComponent with rfl | later
      · have inside := ih (List.mem_cons_self ..)
        simp only [List.mem_cons, not_or]
        exact ⟨Ne.symm isSeparator, inside⟩
      · exact ih (List.mem_cons_of_mem _ later)

omit [DecidableEq α] in
theorem intercalate_append {a second : List (List α)} (someFirst : a ≠ [])
    (someSecond : second ≠ []) : [format.separator].intercalate (a ++ second) =
      [format.separator].intercalate a ++ format.render second := by
  induction a with
  | nil => exact absurd rfl someFirst
  | cons name a ih =>
    by_cases empty : a = []
    · subst empty
      rw [List.cons_append, List.nil_append, List.intercalate_cons_of_ne_nil someSecond,
        List.intercalate_singleton]
      simp [render]
    · rw [List.cons_append, List.intercalate_cons_of_ne_nil (by simp [empty]),
        ih empty, List.intercalate_cons_of_ne_nil empty]
      simp

omit [DecidableEq α] in
theorem render_append_render {a second : List (List α)} (someFirst : a ≠ [])
    (someSecond : second ≠ []) :
    format.render (a ++ second) = format.render a ++ format.render second := by
  unfold render
  rw [intercalate_append someFirst someSecond]
  rfl

section

variable (proper : ∀ name ∈ names, format.Proper name)

include proper

theorem moves_intercalate (some : names ≠ []) :
    format.moves ([format.separator].intercalate names) = names.map .down := by
  unfold moves
  rw [List.splitOn_intercalate _ (fun name isName => (proper name isName).separated) some]
  exact List.map_congr_left fun name isName => readMove_proper (proper name isName)

theorem follow_render : follow (format.moves (format.render names)) [] = some names := by
  unfold render
  rw [moves_separator]
  simp only [follow, Move.apply, bind_some]
  by_cases some : names = []
  · subst some
    simp [moves_nil, follow, Move.apply]
  · rw [moves_intercalate proper some, follow_map_down, List.nil_append]

theorem components_render (some : names ≠ []) :
    (format.render names).splitOn format.separator = [] :: names := by
  unfold render
  rw [List.splitOn_cons_eq_if_modifyHead, if_pos (beq_self_eq_true _),
    List.splitOn_intercalate _ (fun name isName => (proper name isName).separated) some]

omit [DecidableEq α] in
theorem two_le_length_render (some : names ≠ []) : 2 ≤ (format.render names).length := by
  obtain ⟨name, later, rfl⟩ := List.exists_cons_of_ne_nil some
  have nonempty := List.length_pos_of_ne_nil (proper name (List.mem_cons_self ..)).nonempty
  unfold render
  by_cases empty : later = []
  · subst empty
    simp only [List.intercalate_singleton, List.length_cons]
    omega
  · simp only [List.intercalate_cons_of_ne_nil empty, List.length_cons, List.length_append]
    omega

omit [DecidableEq α] in
theorem getElem?_one_render (nonempty : names ≠ []) :
    (format.render names)[1]? ≠ some format.separator := by
  obtain ⟨name, later, rfl⟩ := List.exists_cons_of_ne_nil nonempty
  have isProper := proper name (List.mem_cons_self ..)
  obtain ⟨a, others, rfl⟩ := List.exists_cons_of_ne_nil isProper.nonempty
  have found : (format.render ((a :: others) :: later))[1]? = some a := by
    unfold render
    by_cases empty : later = []
    · simp
    · simp
  rw [found]
  intro same
  exact isProper.separated (Option.some.inj same ▸ List.mem_cons_self ..)

end

omit [DecidableEq α] in
theorem length_render_lt {a second : List (List α)} (proper : ∀ name ∈ second, format.Proper name)
    (some : second ≠ []) : (format.render a).length < (format.render (a ++ second)).length := by
  have long := two_le_length_render proper some
  by_cases empty : a = []
  · subst empty
    exact Nat.lt_of_lt_of_le (by simp [render]) long
  · rw [render_append_render empty some, List.length_append]
    omega

theorem prefix_iff {a second : List (List α)} (properFirst : ∀ name ∈ a, format.Proper name)
    (properSecond : ∀ name ∈ second, format.Proper name) (someFirst : a ≠ []) :
    a <+: second ↔ ∃ rest, format.render second = format.render a ++ rest ∧
      (rest = [] ∨ rest.head? = some format.separator) := by
  constructor
  · rintro ⟨later, rfl⟩
    by_cases empty : later = []
    · exact ⟨[], by simp [empty], .inl rfl⟩
    · exact ⟨format.render later, render_append_render someFirst empty, .inr rfl⟩
  · rintro ⟨rest, split, ends⟩
    have someSecond : second ≠ [] := by
      rintro rfl
      have length := congrArg List.length split
      have long := two_le_length_render properFirst someFirst
      simp only [render, List.intercalate_nil, List.length_append, List.length_cons,
        List.length_nil] at length long
      omega
    have components := components_render properSecond someSecond
    rcases ends with rfl | isSeparator
    · rw [split, List.append_nil, components_render properFirst someFirst] at components
      exact (List.cons.inj components).2 ▸ List.prefix_refl _
    · obtain ⟨rest, rfl⟩ := List.head?_eq_some_iff.mp isSeparator
      rw [split, List.splitOn_append_cons_self, components_render properFirst someFirst]
        at components
      exact ⟨_, (List.cons.inj components).2⟩

theorem follow_render_append {a second : List (List α)}
    (properFirst : ∀ name ∈ a, format.Proper name)
    (properSecond : ∀ name ∈ second, format.Proper name) :
    follow (format.moves (format.render a ++ format.render second)) [] = some (a ++ second) := by
  have split : format.moves (format.render a ++ format.render second) =
      format.moves (format.render a) ++ format.moves ([format.separator].intercalate second) := by
    unfold moves
    rw [← List.map_append, ← List.splitOn_append_cons_self]
    rfl
  rw [split, follow_append, follow_render properFirst, bind_some]
  by_cases empty : second = []
  · simp [empty, moves_nil, follow, Move.apply]
  · rw [moves_intercalate properSecond empty, follow_map_down]

theorem proper_of_down (isMove : Move.down name ∈ format.moves path) : format.Proper name := by
  obtain ⟨component, isComponent, isDown⟩ := List.mem_map.mp isMove
  obtain ⟨rfl, proper⟩ := proper_of_readMove (separator_not_mem isComponent) isDown
  exact proper

theorem proper_of_follow (followed : follow (format.moves path) [] = some last) :
    ∀ name ∈ last, format.Proper name :=
  forall_of_follow (by simp) (fun _ => proper_of_down) followed

theorem follow_root_cases {outer : List α}
    (followed : follow (format.moves path) [outer] = some last) :
    (∃ rest, last = outer :: rest ∧ ∀ name ∈ rest, format.Proper name) ∨
      ∀ name ∈ last, format.Proper name :=
  follow_cons_cases (by simp) (fun _ => proper_of_down) followed

end Format

end LexicalPath
