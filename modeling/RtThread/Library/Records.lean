import Mathlib.Data.Set.Insert

/-!
# Records in memory

A memory maps addresses to words, and a record is a place in it whose fields stand at fixed
offsets.
-/

universe u v

structure Layout (Field : Type u) where
  size : Nat
  offset : Field → Nat
  offset_injective : Function.Injective offset
  offset_lt : ∀ field, offset field < size

namespace Layout

variable {Field : Type u} {Word : Type v} (layout : Layout Field)

def read (m : Nat → Word) (p : Nat) (field : Field) : Word :=
  m (p + layout.offset field)

def write (m : Nat → Word) (p : Nat) (field : Field) (value : Word) : Nat → Word :=
  Function.update m (p + layout.offset field) value

def Apart (first second : Nat) : Prop :=
  first = second ∨ first + layout.size ≤ second ∨ second + layout.size ≤ first

def Spaced (places : Set Nat) : Prop :=
  ∀ first ∈ places, ∀ second ∈ places, layout.Apart first second

variable {layout} {m : Nat → Word} {places : Set Nat}

theorem Apart.symm {a second : Nat} (apart : layout.Apart a second) : layout.Apart second a := by
  unfold Apart at apart ⊢
  omega

theorem read_write [DecidableEq Field] {p other : Nat} (apart : layout.Apart p other)
    (field field' : Field) (value : Word) :
    layout.read (layout.write m p field value) other field' =
      if other = p ∧ field' = field then value else layout.read m other field' := by
  have inside := layout.offset_lt field
  have inside' := layout.offset_lt field'
  unfold read write
  split
  · next same => rw [same.1, same.2, Function.update_self]
  · rename_i different
    apply Function.update_of_ne
    intro same
    rcases apart with rfl | before | behind
    · exact different ⟨rfl, layout.offset_injective (by omega)⟩
    · omega
    · omega

theorem Spaced.read_write [DecidableEq Field] (spaced : layout.Spaced places) {p other : Nat}
    (inPlaces : p ∈ places) (inPlaces' : other ∈ places) (field field' : Field) (value : Word) :
    layout.read (layout.write m p field value) other field' =
      if other = p ∧ field' = field then value else layout.read m other field' :=
  Layout.read_write (spaced p inPlaces other inPlaces') field field' value

theorem read_congr {memory' : Nat → Word} {p : Nat} (field : Field)
    (same : ∀ a, p ≤ a → a < p + layout.size → memory' a = m a) :
    layout.read memory' p field = layout.read m p field := by
  have inside := layout.offset_lt field
  exact same _ (by omega) (by omega)

theorem Spaced.insert {p : Nat} (spaced : layout.Spaced places)
    (apart : ∀ other ∈ places, layout.Apart p other) : layout.Spaced (Insert.insert p places) := by
  intro a inFirst second inSecond
  rcases Set.mem_insert_iff.mp inFirst with rfl | first_mem
  · rcases Set.mem_insert_iff.mp inSecond with rfl | second_mem
    · exact .inl rfl
    · exact apart second second_mem
  · rcases Set.mem_insert_iff.mp inSecond with rfl | second_mem
    · exact (apart a first_mem).symm
    · exact spaced a first_mem second second_mem

end Layout
