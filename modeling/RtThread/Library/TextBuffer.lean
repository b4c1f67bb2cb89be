import Mathlib.Data.List.Basic
import Mathlib.Logic.Function.Iterate

/-!
# Terminated texts in buffers of a fixed size

A buffer is a list of cells; a text in it ends at the first zero.
-/

namespace TextBuffer

open List (length_append append_assoc replicate length_cons take_left drop_left)

variable {α : Type*} [Zero α]

def padded (size : Nat) (text : List α) : List α :=
  text ++ replicate (size - text.length) 0

def textOf [DecidableEq α] (buffer : List α) : List α := buffer.takeWhile (· ≠ 0)

def strlen? [DecidableEq α] (buffer : List α) : Option Nat :=
  if 0 ∈ buffer then some (textOf buffer).length else none

def overwrite? (buffer : List α) (offset : Nat) (cells : List α) : Option (List α) :=
  if offset + cells.length ≤ buffer.length then
    some (buffer.take offset ++ cells ++ buffer.drop (offset + cells.length))
  else none

def memmove? (buffer : List α) (target source count : Nat) : Option (List α) :=
  if source + count ≤ buffer.length then
    overwrite? buffer target ((buffer.drop source).take count)
  else none

section Padded

variable {size : Nat} {text : List α}

@[simp] theorem padded_length (fits : text.length ≤ size) : (padded size text).length = size := by
  simp only [padded, length_append, List.length_replicate]
  omega

theorem padded_cons (fits : text.length < size) :
    padded size text = text ++ 0 :: replicate (size - text.length - 1) 0 := by
  obtain ⟨rest, eq⟩ := Nat.exists_eq_add_of_lt fits
  have count : size - text.length = rest + 1 := by omega
  rw [padded, count, List.replicate_succ, Nat.add_sub_cancel]

theorem getElem?_padded (fits : text.length < size) :
    (padded size text)[text.length]? = some 0 := by
  rw [padded_cons fits, List.getElem?_append_right (Nat.le_refl _), Nat.sub_self]
  rfl

@[simp] theorem take_padded : (padded size text).take text.length = text := take_left

theorem drop_padded {front back : List α} :
    (padded size (front ++ back)).drop front.length = padded (size - front.length) back := by
  rw [padded, append_assoc, drop_left, padded, length_append, Nat.sub_sub]

variable [DecidableEq α]

theorem textOf_padded (nonzero : (0 : α) ∉ text) : textOf (padded size text) = text := by
  have all : ∀ cell ∈ text, (decide (cell ≠ 0)) = true := by
    intro cell mem
    exact decide_eq_true fun isZero => nonzero (isZero ▸ mem)
  rw [textOf, padded, List.takeWhile_append_of_pos all]
  cases size - text.length with
  | zero => simp
  | succ n => simp

theorem strlen?_padded (fits : text.length < size) (nonzero : (0 : α) ∉ text) :
    strlen? (padded size text) = some text.length := by
  have terminated : (0 : α) ∈ padded size text := by
    rw [padded_cons fits]
    exact List.mem_append_right _ List.mem_cons_self
  rw [strlen?, if_pos terminated, textOf_padded nonzero]

theorem strlen?_padded_eq_none (fills : size ≤ text.length) (nonzero : (0 : α) ∉ text) :
    strlen? (padded size text) = none := by
  rw [strlen?, padded, Nat.sub_eq_zero_of_le fills, List.replicate_zero, List.append_nil,
    if_neg nonzero]

theorem padded_injective {u : List α} (nonzero : (0 : α) ∉ text) (nonzero' : (0 : α) ∉ u) :
    padded size text = padded size u ↔ text = u := by
  refine ⟨fun eq => ?_, fun eq => eq ▸ rfl⟩
  calc
    text = textOf (padded size text) := (textOf_padded nonzero).symm
    _ = textOf (padded size u) := congrArg textOf eq
    _ = u := textOf_padded nonzero'

end Padded

section Edits

variable {size : Nat} {before after : List α}

omit [Zero α] in
theorem overwrite?_append {front replaced back cells : List α}
    (same : replaced.length = cells.length) :
    overwrite? (front ++ (replaced ++ back)) front.length cells =
      some (front ++ (cells ++ back)) := by
  have within : front.length + cells.length ≤ (front ++ (replaced ++ back)).length := by
    simp only [length_append]
    omega
  have rest : (front ++ (replaced ++ back)).drop (front.length + cells.length) = back := by
    rw [← same, ← length_append, ← append_assoc, drop_left]
  rw [overwrite?, if_pos within, take_left, rest, append_assoc]

omit [Zero α] in
theorem memmove?_append {front cells back : List α} (target : Nat) :
    memmove? (front ++ (cells ++ back)) target front.length cells.length =
      overwrite? (front ++ (cells ++ back)) target cells := by
  have within : front.length + cells.length ≤ (front ++ (cells ++ back)).length := by
    simp only [length_append]
    omega
  rw [memmove?, if_pos within, drop_left, take_left]

theorem insert_padded (cell : α) (fits : (before ++ after).length < size) :
    ((memmove? (padded size (before ++ after)) (before.length + 1) before.length
        after.length).bind (overwrite? · before.length [cell])) =
      some (padded size (before ++ cell :: after)) := by
  obtain ⟨a, rest, shifted⟩ : ∃ a rest, after ++ [(0 : α)] = a :: rest :=
    List.exists_cons_of_ne_nil (by simp)
  have sameLength : rest.length = after.length := by
    have := congrArg List.length shifted
    simp only [length_append, length_cons, List.length_nil] at this
    omega
  generalize zerosEq : replicate (size - (before ++ after).length - 1) (0 : α) = zeros
  have buffer : padded size (before ++ after) = before ++ (after ++ 0 :: zeros) := by
    rw [padded_cons fits, append_assoc, zerosEq]
  have split : before ++ (after ++ 0 :: zeros) = (before ++ [a]) ++ (rest ++ zeros) := by
    rw [List.append_cons after, shifted, append_assoc]
    rfl
  have moved : memmove? (padded size (before ++ after)) (before.length + 1) before.length
      after.length = some (before ++ ([a] ++ (after ++ zeros))) := by
    have one : before.length + 1 = (before ++ [a]).length := by simp
    rw [buffer, memmove?_append, split, one, overwrite?_append sameLength, append_assoc]
  have result : padded size (before ++ cell :: after) = before ++ ([cell] ++ (after ++ zeros)) := by
    have count : size - (before ++ cell :: after).length = size - (before ++ after).length - 1 := by
      simp only [length_append, length_cons]
      omega
    rw [padded, count, zerosEq, append_assoc]
    rfl
  rw [moved, result]
  exact overwrite?_append rfl

theorem erase_padded (cell : α) (fits : (before ++ cell :: after).length ≤ size) :
    ((memmove? (padded size (before ++ cell :: after)) before.length (before.length + 1)
        after.length).bind (overwrite? · (before.length + after.length) [0])) =
      some (padded size (before ++ after)) := by
  obtain ⟨front, last, shifted⟩ : ∃ front last, cell :: after = front ++ [last] :=
    ⟨_, _, (List.dropLast_append_getLast (List.cons_ne_nil cell after)).symm⟩
  have sameLength : front.length = after.length := by
    have := congrArg List.length shifted
    simp only [length_append, length_cons, List.length_nil] at this
    omega
  generalize zerosEq : replicate (size - (before ++ cell :: after).length) (0 : α) = zeros
  have buffer : padded size (before ++ cell :: after) = (before ++ [cell]) ++ (after ++ zeros) := by
    rw [padded, zerosEq]
    simp
  have split : (before ++ [cell]) ++ (after ++ zeros) = before ++ (front ++ ([last] ++ zeros)) := by
    rw [← append_assoc front, ← shifted]
    simp
  have moved : memmove? (padded size (before ++ cell :: after)) before.length
      (before.length + 1) after.length = some (before ++ (after ++ ([last] ++ zeros))) := by
    have one : before.length + 1 = (before ++ [cell]).length := by simp
    rw [buffer, one, memmove?_append, split, overwrite?_append sameLength]
  have result : padded size (before ++ after) = (before ++ after) ++ ([0] ++ zeros) := by
    have fewer : (before ++ after).length < size := by
      simp only [length_append, length_cons] at fits ⊢
      omega
    have count : size - (before ++ after).length - 1 = size - (before ++ cell :: after).length := by
      simp only [length_append, length_cons]
      omega
    rw [padded_cons fewer, count, zerosEq]
    rfl
  rw [moved, result, ← length_append, ← append_assoc]
  exact overwrite?_append rfl

theorem erase_last_padded {text : List α} (cell : α) (fits : (text ++ [cell]).length ≤ size) :
    overwrite? (padded size (text ++ [cell])) text.length [0] = some (padded size text) := by
  have fewer : text.length < size := by
    rw [length_append, List.length_singleton] at fits
    omega
  have count : size - text.length - 1 = size - (text ++ [cell]).length := by
    rw [length_append, List.length_singleton]
    omega
  rw [padded, append_assoc, padded_cons fewer, count]
  exact overwrite?_append rfl

theorem extend_padded {front old cells : List α} (longer : old.length ≤ cells.length)
    (fits : (front ++ cells).length ≤ size) :
    overwrite? (padded size (front ++ old)) front.length cells =
      some (padded size (front ++ cells)) := by
  have lengths : front.length + cells.length ≤ size := by simpa using fits
  have count : size - (front ++ old).length =
      (cells.length - old.length) + (size - (front ++ cells).length) := by
    simp only [length_append]
    omega
  have buffer : padded size (front ++ old) = front ++
      ((old ++ replicate (cells.length - old.length) 0) ++
        replicate (size - (front ++ cells).length) 0) := by
    rw [padded, count, List.replicate_add]
    simp only [append_assoc]
  rw [buffer, overwrite?_append, padded, append_assoc]
  simp only [length_append, List.length_replicate]
  omega

theorem terminate_padded {text : List α} (fits : text.length < size) :
    overwrite? (padded size text) text.length [0] = some (padded size text) := by
  rw [padded_cons fits]
  exact @overwrite?_append _ _ [0] _ _ rfl

omit [Zero α] in
theorem overwrite?_eq_none {buffer cells : List α} {offset : Nat}
    (outside : buffer.length < offset + cells.length) : overwrite? buffer offset cells = none :=
  if_neg (Nat.not_le.mpr outside)

theorem extend_terminated {front old cells : List α} (longer : old.length ≤ cells.length)
    (held : (front ++ old).length ≤ size) :
    (overwrite? (padded size (front ++ old)) front.length cells).bind
        (overwrite? · (front.length + cells.length) [0]) =
      if (front ++ cells).length < size then some (padded size (front ++ cells)) else none := by
  have total : (front ++ cells).length = front.length + cells.length := length_append
  rcases Nat.lt_trichotomy (front ++ cells).length size with fits | fills | exceeds
  · rw [if_pos fits, extend_padded longer (Nat.le_of_lt fits), ← total]
    exact terminate_padded fits
  · rw [if_neg (by omega), extend_padded longer (Nat.le_of_eq fills)]
    refine overwrite?_eq_none ?_
    rw [padded_length (Nat.le_of_eq fills), List.length_singleton]
    omega
  · rw [if_neg (by omega), overwrite?_eq_none]
    · rfl
    · rw [padded_length held]
      omega

end Edits

section Packed

variable {texts : List (List α)} {text rest : List α}

def packed (texts : List (List α)) : List α := texts.flatMap (· ++ [0])

@[simp]
theorem packed_append (others : List (List α)) :
    packed (texts ++ others) = packed texts ++ packed others := List.flatMap_append

@[simp]
theorem packed_singleton : packed [text] = text ++ [0] := by simp [packed]

variable [DecidableEq α]

def behindText (buffer : List α) : List α := buffer.drop ((textOf buffer).length + 1)

theorem textOf_terminated (nonzero : (0 : α) ∉ text) : textOf (text ++ 0 :: rest) = text := by
  have all : ∀ cell ∈ text, (decide (cell ≠ 0)) = true := by
    intro cell mem
    exact decide_eq_true fun isZero => nonzero (isZero ▸ mem)
  rw [textOf, List.takeWhile_append_of_pos all]
  simp

theorem behindText_terminated (nonzero : (0 : α) ∉ text) :
    behindText (text ++ 0 :: rest) = rest := by
  rw [behindText, textOf_terminated nonzero, List.append_cons]
  exact List.drop_left' (by simp)

theorem textOf_packed (nonzero : ∀ text ∈ texts, (0 : α) ∉ text) {i : Nat}
    (inside : i < texts.length) : textOf (behindText^[i] (packed texts ++ rest)) = texts[i] := by
  induction texts generalizing i with
  | nil => simp at inside
  | cons text texts ih =>
    obtain ⟨here, others⟩ := List.forall_mem_cons.mp nonzero
    have front : packed (text :: texts) ++ rest = text ++ 0 :: (packed texts ++ rest) := by
      simp [packed]
    rw [front]
    cases i with
    | zero => exact textOf_terminated here
    | succ i =>
      rw [Function.iterate_succ_apply, behindText_terminated here]
      exact ih others (Nat.lt_of_succ_lt_succ inside)

end Packed

end TextBuffer
