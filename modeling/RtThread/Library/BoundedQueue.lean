import Mathlib.Data.List.Basic

/-!
# Bounded queues

A first-in first-out queue that holds at most `capacity` values.
-/

section

universe u

/-- At most `capacity` values, oldest first. -/
@[ext]
structure BoundedQueue (Value : Type u) (capacity : Nat) where
  values : List Value
  bounded : values.length ≤ capacity

namespace BoundedQueue

variable {Value : Type u} {capacity : Nat}

def empty : BoundedQueue Value capacity := ⟨[], Nat.zero_le _⟩

def space (q : BoundedQueue Value capacity) : Nat := capacity - q.values.length

def store (q : BoundedQueue Value capacity) (b : List Value) :
    BoundedQueue Value capacity where
  values := q.values ++ b.take q.space
  bounded := by
    have := q.bounded
    simp [space]
    omega

def discard (q : BoundedQueue Value capacity) (count : Nat) :
    BoundedQueue Value capacity where
  values := q.values.drop count
  bounded := by
    have := q.bounded
    simp
    omega

@[simp] theorem values_store (q : BoundedQueue Value capacity) (b : List Value) :
    (q.store b).values = q.values ++ b.take q.space := rfl

@[simp] theorem values_discard (q : BoundedQueue Value capacity) (n : Nat) :
    (q.discard n).values = q.values.drop n := rfl

def storeForced (q : BoundedQueue Value capacity) (value : Value) :
    BoundedQueue Value capacity :=
  if q.space = 0 then (q.discard 1).store [value] else q.store [value]

theorem values_storeForced (q : BoundedQueue Value capacity) (pos : 0 < capacity) (v : Value) :
    (q.storeForced v).values = (q.values ++ [v]).drop (q.values.length + 1 - capacity) := by
  have bounded := q.bounded
  unfold storeForced
  split
  · rename_i full
    rw [space] at full
    have room : (q.discard 1).space = 1 := by
      simp [space]
      omega
    have drops : q.values.length + 1 - capacity = 1 := by omega
    rw [values_store, values_discard, room, drops, List.drop_append_of_le_length (by omega)]
    rfl
  · rename_i notFull
    obtain ⟨room, space⟩ := Nat.exists_eq_succ_of_ne_zero notFull
    rw [BoundedQueue.space] at notFull
    have drops : q.values.length + 1 - capacity = 0 := by omega
    rw [values_store, space, drops]
    simp

end BoundedQueue

end

/-!
## Received values that are read later

Everything that has been received, with the position behind the last value that a reader got.
-/

section

universe u

structure History (Value : Type u) where
  received : List Value
  next : Nat
  next_le : next ≤ received.length

namespace History

variable {Value : Type u} {capacity : Nat}

def empty : History Value := ⟨[], 0, Nat.le_refl 0⟩

def unread (history : History Value) : Nat := history.received.length - history.next

/-- The last `min unread capacity` values received. -/
def content (history : History Value) (capacity : Nat) : BoundedQueue Value capacity where
  values := history.received.drop (history.received.length - min history.unread capacity)
  bounded := by simp; omega

def receive (history : History Value) (b : List Value) : History Value where
  received := history.received ++ b
  next := history.next
  next_le := by
    have := history.next_le
    simp
    omega

/-- The reader gets the `count` oldest values of the content, or all there are. -/
def read (history : History Value) (capacity count : Nat) : History Value where
  received := history.received
  next :=
    if count = 0 then history.next
    else history.received.length - ((history.content capacity).values.length - count)
  next_le := by
    have := history.next_le
    split <;> omega

section

variable (history : History Value)

include history

@[simp] theorem received_receive (b : List Value) :
    (history.receive b).received = history.received ++ b := rfl

@[simp] theorem next_receive (b : List Value) : (history.receive b).next = history.next := rfl

@[simp] theorem received_read (n : Nat) :
    (history.read capacity n).received = history.received := rfl

@[simp] theorem unread_receive (b : List Value) :
    (history.receive b).unread = history.unread + b.length := by
  have := history.next_le
  simp [unread]
  omega

theorem unread_le : history.unread ≤ history.received.length := Nat.sub_le ..

@[simp] theorem length_content :
    (history.content capacity).values.length = min history.unread capacity := by
  have := history.unread_le
  simp [content]
  omega

theorem content_receive (b : List Value) :
    ((history.receive b).content capacity).values = ((history.content capacity).values ++ b).drop
        ((history.content capacity).values.length + b.length - capacity) := by
  have inside := history.unread_le
  rw [length_content]
  simp only [content, unread_receive, received_receive, List.length_append]
  rw [← List.drop_append_of_le_length (by omega), List.drop_drop]
  congr 1
  omega

theorem content_read (capacity n : Nat) : ((history.read capacity n).content capacity).values =
      (history.content capacity).values.drop n := by
  rcases Nat.eq_zero_or_pos n with rfl | pos
  · simp [read]
  · have inside := history.unread_le
    have unread : (history.read capacity n).unread = min history.unread capacity - n := by
      simp only [History.unread, read, Nat.pos_iff_ne_zero.mp pos, if_false, length_content]
      omega
    simp only [content, received_read, List.drop_drop]
    by_cases all : min history.unread capacity ≤ n
    · rw [List.drop_eq_nil_of_le (by omega), List.drop_eq_nil_of_le (by omega)]
    · congr 1
      omega

theorem sublist_read {delivered : List Value}
    (sublist : delivered.Sublist (history.received.take history.next)) (capacity n : Nat) :
    (delivered ++ (history.content capacity).values.take n).Sublist
      (history.received.take (history.read capacity n).next) := by
  rcases Nat.eq_zero_or_pos n with rfl | pos
  · simpa [read] using sublist
  · have inside := history.unread_le
    have next_le := history.next_le
    have first : history.next ≤ history.received.length - min history.unread capacity := by
      rw [unread]
      omega
    have upTo : history.received.take (history.read capacity n).next =
        history.received.take (history.received.length - min history.unread capacity) ++
          (history.content capacity).values.take n := by
      rw [content, ← List.take_add]
      simp only [read, Nat.pos_iff_ne_zero.mp pos, if_false, length_content]
      by_cases all : min history.unread capacity ≤ n
      · rw [List.take_of_length_le (by omega), List.take_of_length_le (by omega)]
      · congr 1
        omega
    rw [upTo]
    exact (sublist.trans (List.take_sublist_take_left first)).append (List.Sublist.refl _)

end

theorem content_empty : ((empty : History Value).content capacity).values = [] := rfl

theorem content_receive_one (history : History Value) (pos : 0 < capacity) (v : Value) :
    (history.receive [v]).content capacity = (history.content capacity).storeForced v := by
  apply BoundedQueue.ext
  rw [content_receive, BoundedQueue.values_storeForced _ pos]
  rfl

end History

end
