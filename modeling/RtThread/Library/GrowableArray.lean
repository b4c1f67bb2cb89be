import Mathlib.Data.List.Basic

/-!
# Growable arrays

Arrays that are read and written at a position.
-/

namespace GrowableArray

variable {α : Type*}

def read (content : List α) (pos count : Nat) : List α := (content.drop pos).take count

def overwrite (content : List α) (pos : Nat) (cells : List α) : List α :=
  content.take pos ++ cells ++ content.drop (pos + cells.length)

/-- An array of another size, with the old cells in front and cells of `fresh` behind. -/
def resized (content : List α) (size : Nat) (fresh : Nat → α) : List α :=
  (List.range size).map fun i => content.getD i (fresh i)

/-- What writing `cells` at `pos` may do to the array. -/
structure Written (before : List α) (pos : Nat) (cells after : List α) : Prop where
  covers : pos + cells.length ≤ after.length
  grows : before.length ≤ after.length
  stored : ∀ i < cells.length, after[pos + i]? = cells[i]?
  others : ∀ i < before.length, i < pos ∨ pos + cells.length ≤ i → after[i]? = before[i]?

variable {content : List α} {pos count size : Nat} {cells : List α} {fresh : Nat → α}

theorem length_read : (read content pos count).length = min count (content.length - pos) := by
  simp [read]

@[simp]
theorem length_resized : (resized content size fresh).length = size := by simp [resized]

theorem length_overwrite (within : pos + cells.length ≤ content.length) :
    (overwrite content pos cells).length = content.length := by
  simp only [overwrite, List.length_append, List.length_take, List.length_drop]
  omega

theorem getElem?_resized {i : Nat} (inside : i < size) (old : i < content.length) :
    (resized content size fresh)[i]? = content[i]? := by
  simp [resized, inside, old]

theorem written_overwrite (within : pos + cells.length ≤ content.length) :
    Written content pos cells (overwrite content pos cells) := by
  have length := length_overwrite within
  have front : (content.take pos).length = pos := by
    rw [List.length_take]
    omega
  refine ⟨by omega, by omega, fun i inside => ?_, fun i inside outside => ?_⟩
  · rw [overwrite, List.append_assoc, List.getElem?_append_right (by omega), front,
      Nat.add_sub_cancel_left, List.getElem?_append_left inside]
  · rw [overwrite, List.append_assoc]
    rcases outside with before | behind
    · rw [List.getElem?_append_left (by omega), List.getElem?_take_of_lt before]
    · rw [List.getElem?_append_right (by omega), front,
        List.getElem?_append_right (by omega), List.getElem?_drop]
      congr 1
      omega

theorem written_resized (holds : content.length ≤ pos + cells.length) : Written content pos cells
      (overwrite (resized content (pos + cells.length) fresh) pos cells) := by
  have within : pos + cells.length ≤ (resized content (pos + cells.length) fresh).length := by simp
  obtain ⟨covers, grows, same, others⟩ := written_overwrite within
  rw [length_resized] at grows
  refine ⟨covers, Nat.le_trans holds grows, same, fun i inside outside => ?_⟩
  rw [others i (by rw [length_resized]; omega) outside]
  exact getElem?_resized (by omega) inside

end GrowableArray
