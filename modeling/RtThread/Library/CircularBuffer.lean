import Mathlib.Data.List.Range

/-!
# Circular buffers

A queue kept in `size` consecutive cells, from a first cell on and around the end.
-/

open Function (update update_of_ne update_self)

namespace CircularBuffer

universe u

variable {Value : Type u}

def advance (size offset : Nat) : Nat := (offset + 1) % size

/-- The `length` values stored from the cell `first` on. -/
def contents (cells : Nat → Value) (size first : Nat) : Nat → List Value
  | 0 => []
  | length + 1 => cells first :: contents cells size (advance size first) length

@[simp] theorem length_contents (cells : Nat → Value) (n a length : Nat) :
    (contents cells n a length).length = length := by
  induction length generalizing a with
  | zero => rfl
  | succ length ih => simp [contents, ih]

variable {n a length p count : Nat}

theorem advance_lt {offset : Nat} (inside : offset < n) : advance n offset < n :=
  Nat.mod_lt _ (by omega)

theorem advance_eq_ite {offset : Nat} (inside : offset < n) :
    advance n offset = if n ≤ offset + 1 then 0 else offset + 1 := by
  unfold advance
  split
  · have atEnd : offset + 1 = n := by omega
    rw [atEnd, Nat.mod_self]
  · exact Nat.mod_eq_of_lt (by omega)

theorem advance_add (n a length : Nat) : (advance n a + length) % n = (a + (length + 1)) % n := by
  rw [advance, Nat.mod_add_mod]
  congr 1
  omega

theorem advance_end (n a length : Nat) : advance n ((a + length) % n) = (a + (length + 1)) % n := by
  rw [advance, Nat.mod_add_mod]
  congr 1

theorem contents_update {cells : Nat → Value} (inside : a < n)
    (notFull : length < n) (v : Value) (outside : ∀ i, i < length → (a + i) % n ≠ p) :
    contents (update cells p v) n a length = contents cells n a length := by
  induction length generalizing a with
  | zero => rfl
  | succ length ih =>
    have firstOutside : a ≠ p := by
      have := outside 0 (by omega)
      rwa [Nat.add_zero, Nat.mod_eq_of_lt inside] at this
    rw [contents, contents, update_of_ne firstOutside, ih (advance_lt inside) (by omega)]
    intro i below
    rw [advance_add]
    exact outside (i + 1) (by omega)

theorem contents_succ (cells : Nat → Value) (length : Nat) (inside : a < n) :
    contents cells n a (length + 1) = contents cells n a length ++ [cells ((a + length) % n)] := by
  induction length generalizing a with
  | zero => simp [contents, Nat.mod_eq_of_lt inside]
  | succ length ih =>
    rw [contents, ih (advance_lt inside), contents, advance_add]
    rfl

theorem offset_ne {i : Nat} (below : i < length) (notFull : length < n) :
    (a + i) % n ≠ (a + length) % n := by
  intro equal
  have divides := Nat.sub_mod_eq_zero_of_mod_eq equal.symm
  rw [Nat.add_sub_add_left, Nat.mod_eq_of_lt (by omega)] at divides
  omega

section

variable (cells : Nat → Value)

include cells

theorem contents_push (inside : a < n) (notFull : length < n) (value : Value) :
    contents (update cells ((a + length) % n) value) n a (length + 1) =
      contents cells n a length ++ [value] := by
  rw [contents_succ _ length inside, update_self,
    contents_update inside notFull value fun i below => offset_ne below notFull]

theorem contents_pop (n a : Nat) (notEmpty : 0 < length) :
    contents cells n a length = cells a :: contents cells n (advance n a) (length - 1) := by
  obtain ⟨rest, rfl⟩ := Nat.exists_eq_succ_of_ne_zero (Nat.pos_iff_ne_zero.mp notEmpty)
  rfl

theorem contents_eq_map (length : Nat) (inside : a < n) :
    contents cells n a length = (List.range length).map fun i => cells ((a + i) % n) := by
  induction length with
  | zero => rfl
  | succ length ih =>
    rw [contents_succ _ length inside, ih, List.range_succ]
    simp

theorem getElem?_contents {n a : Nat} (length i : Nat) (inside : a < n) :
    (contents cells n a length)[i]? = if i < length then some (cells ((a + i) % n)) else none := by
  rw [contents_eq_map _ _ inside]
  split
  · next below => simp [below]
  · next above => simp [Nat.le_of_not_lt above]

theorem contents_take (inside : a < n) (le : count ≤ length) :
    (contents cells n a length).take count = contents cells n a count := by
  rw [contents_eq_map _ _ inside, contents_eq_map _ _ inside, ← List.map_take,
    List.take_range, Nat.min_eq_left le]

theorem contents_drop (inside : a < n) (le : count ≤ length) :
    (contents cells n a length).drop count =
      contents cells n ((a + count) % n) (length - count) := by
  apply List.ext_getElem?
  intro i
  rw [List.getElem?_drop, getElem?_contents _ _ _ inside,
    getElem?_contents _ _ _ (Nat.mod_lt _ (by omega)), Nat.mod_add_mod, Nat.add_assoc]
  by_cases below : count + i < length
  · rw [if_pos below, if_pos (by omega)]
  · rw [if_neg below, if_neg (by omega)]

end

/-- The cells after `count` values, from `values source` on, are copied to `place`. -/
def copyBlock (cells : Nat → Value) (place : Nat) (values : Nat → Value) (source count : Nat) :
    Nat → Value :=
  fun i => if place ≤ i ∧ i < place + count then values (source + (i - place)) else cells i

section

variable (cells : Nat → Value)

include cells

theorem copyBlock_of_mem (values : Nat → Value) (source : Nat) {i : Nat} (from_le : p ≤ i)
    (lt_end : i < p + n) : copyBlock cells p values source n i = values (source + (i - p)) :=
  if_pos ⟨from_le, lt_end⟩

theorem copyBlock_of_not_mem (values : Nat → Value) (source : Nat) {i : Nat}
    (outside : i < p ∨ p + n ≤ i) : copyBlock cells p values source n i = cells i :=
  if_neg (by omega)

theorem copyBlock_zero (p : Nat) (values : Nat → Value) (source : Nat) :
    copyBlock cells p values source 0 = cells := by
  funext i
  exact copyBlock_of_not_mem _ _ _ (by omega)

theorem copyBlock_one (p : Nat) (values : Nat → Value) (source : Nat) :
    copyBlock cells p values source 1 = update cells p (values source) := by
  funext i
  by_cases same : i = p
  · subst same
    rw [copyBlock_of_mem _ _ _ (le_refl i) (by omega), update_self, Nat.sub_self]
    rfl
  · rw [copyBlock_of_not_mem _ _ _ (by omega), update_of_ne same]

end

/-- A block of `count` values copied to the place behind the last value and, what does
not fit there, to the first cells. -/
def pushBlock (cells : Nat → Value) (size place : Nat) (values : Nat → Value) (count : Nat) :
    Nat → Value :=
  copyBlock (copyBlock cells place values 0 (min count (size - place))) 0 values
    (size - place) (count - (size - place))

theorem mod_cases (below : p < 2 * n) : p < n ∧ p % n = p ∨ n ≤ p ∧ p % n = p - n := by
  rcases Nat.lt_or_ge p n with small | large
  · exact .inl ⟨small, Nat.mod_eq_of_lt small⟩
  · apply Or.inr
    refine ⟨large, ?_⟩
    rw [Nat.mod_eq_sub_mod large, Nat.mod_eq_of_lt (by omega)]

section

variable (cells : Nat → Value)

include cells

theorem pushBlock_of_le (values : Nat → Value) (fits : count ≤ n - p) :
    pushBlock cells n p values count = copyBlock cells p values 0 count := by
  rw [pushBlock, Nat.min_eq_left fits, Nat.sub_eq_zero_of_le fits, copyBlock_zero]

theorem pushBlock_of_ge (values : Nat → Value) (wraps : n - p ≤ count) :
    pushBlock cells n p values count =
      copyBlock (copyBlock cells p values 0 (n - p)) 0 values (n - p) (count - (n - p)) := by
  rw [pushBlock, Nat.min_eq_right wraps]

theorem pushBlock_offset {i : Nat} (values : Nat → Value) (inside : a < n)
    (fits : length + count ≤ n) (below : i < length + count) :
    pushBlock cells n ((a + length) % n) values count ((a + i) % n) =
      if i < length then cells ((a + i) % n) else values (i - length) := by
  have placeCases := mod_cases (by omega : a + length < 2 * n)
  have cellCases := mod_cases (by omega : a + i < 2 * n)
  rw [pushBlock]
  generalize (a + length) % n = p at *
  generalize (a + i) % n = cell at *
  split
  · next stored => rw [copyBlock_of_not_mem _ _ _ (by omega), copyBlock_of_not_mem _ _ _ (by omega)]
  · rename_i added
    by_cases wraps : cell < count - (n - p)
    · rw [copyBlock_of_mem _ _ _ (by omega) (by omega)]
      congr 1
      omega
    · rw [copyBlock_of_not_mem _ _ _ (by omega), copyBlock_of_mem _ _ _ (by omega) (by omega)]
      congr 1
      omega

theorem contents_pushBlock (values : Nat → Value) (inside : a < n) (fits : length + count ≤ n) :
    contents (pushBlock cells n ((a + length) % n) values count) n a (length + count) =
      contents cells n a length ++ (List.range count).map values := by
  apply List.ext_getElem?
  intro i
  rw [getElem?_contents _ _ _ inside, List.getElem?_append, length_contents]
  by_cases below : i < length + count
  · rw [if_pos below, pushBlock_offset cells values inside fits below]
    split
    · next stored => rw [getElem?_contents _ _ _ inside, if_pos stored]
    · rename_i added
      rw [List.getElem?_map, List.getElem?_range (by omega), Option.map_some]
  · rw [if_neg below, if_neg (by omega), List.getElem?_eq_none (by simp; omega)]

theorem contents_overwrite (length : Nat) (values : Nat → Value) (inside : a < n)
    (fits : count ≤ n) :
    
    contents (pushBlock cells n ((a + length) % n) values count) n
        ((a + (length + count - n)) % n) (min (length + count) n) =
      (contents cells n a length ++ (List.range count).map values).drop (length + count - n) := by
  generalize overwritten : length + count - n = dropped
  have le : dropped ≤ length := by omega
  have place : (a + length) % n = ((a + dropped) % n + (length - dropped)) % n := by
    rw [Nat.mod_add_mod]
    congr 1
    omega
  have total : min (length + count) n = length - dropped + count := by omega
  rw [place, total, contents_pushBlock _ _ (Nat.mod_lt _ (by omega)) (by omega),
    ← contents_drop _ inside le, List.drop_append_of_le_length (by simpa using le)]

end

/-- The first `count` values, copied out in at most two parts. -/
def readBlock (target : Nat → Value) (cells : Nat → Value) (size first count : Nat) :
    Nat → Value :=
  copyBlock (copyBlock target 0 cells first (min count (size - first))) (size - first) cells 0
    (count - (size - first))

theorem readBlock_of_le (target cells : Nat → Value) (fits : count ≤ n - a) :
    readBlock target cells n a count = copyBlock target 0 cells a count := by
  rw [readBlock, Nat.min_eq_left fits, Nat.sub_eq_zero_of_le fits, copyBlock_zero]

theorem readBlock_of_ge (target cells : Nat → Value) (wraps : n - a ≤ count) :
    readBlock target cells n a count =
      copyBlock (copyBlock target 0 cells a (n - a)) (n - a) cells 0 (count - (n - a)) := by
  rw [readBlock, Nat.min_eq_right wraps]

theorem readBlock_eq (target cells : Nat → Value) (inside : a < n) (fits : count ≤ n) (i : Nat) :
    readBlock target cells n a count i = (contents cells n a count)[i]?.getD (target i) := by
  rw [getElem?_contents _ _ _ inside, readBlock]
  by_cases below : i < count
  · rw [if_pos below, Option.getD_some]
    rcases mod_cases (by omega : a + i < 2 * n) with ⟨low, equal⟩ | ⟨high, equal⟩
    · rw [copyBlock_of_not_mem _ _ _ (by omega), copyBlock_of_mem _ _ _ (by omega) (by omega),
        equal]
      rfl
    · rw [copyBlock_of_mem _ _ _ (by omega) (by omega), equal]
      congr 1
      omega
  · rw [if_neg below, copyBlock_of_not_mem _ _ _ (by omega), copyBlock_of_not_mem _ _ _ (by omega)]
    rfl

end CircularBuffer
