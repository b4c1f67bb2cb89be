import Mathlib.Data.List.Nodup
import Mathlib.Data.List.Range
import Mathlib.Data.List.Perm.Subperm

/-!
# Pools of slots

Equal slots handed out one by one: those never used are taken in order, those given back are kept
in a list.
-/

/-- The slots below `issued` have been handed out at least once; `returned` came back. -/
structure SlotPool where
  issued : Nat
  returned : List Nat

namespace SlotPool

def Held (pool : SlotPool) (slot : Nat) : Prop := slot < pool.issued ∧ slot ∉ pool.returned

def free (pool : SlotPool) (max : Nat) : Nat := max - pool.issued + pool.returned.length

structure Sound (pool : SlotPool) (max : Nat) : Prop where
  issued_le : pool.issued ≤ max
  nodup : pool.returned.Nodup
  wasIssued : ∀ slot ∈ pool.returned, slot < pool.issued

def first : SlotPool := ⟨1, []⟩

def takeUnused (pool : SlotPool) : SlotPool := { pool with issued := pool.issued + 1 }

def takeReturned (pool : SlotPool) : SlotPool := { pool with returned := pool.returned.tail }

def give (pool : SlotPool) (slot : Nat) : SlotPool :=
  { pool with returned := slot :: pool.returned }

variable {pool : SlotPool} {max : Nat}

theorem Sound.not_held_of_free_eq (inv : pool.Sound max) (all : pool.free max = max)
    (slot : Nat) : ¬ pool.Held slot := by
  rintro ⟨below, notReturned⟩
  have issued_le := inv.issued_le
  have within : slot :: pool.returned ⊆ List.range pool.issued := by
    intro other mem
    rcases List.mem_cons.mp mem with rfl | mem
    · exact List.mem_range.mpr below
    · exact List.mem_range.mpr (inv.wasIssued other mem)
  have nodup : (slot :: pool.returned).Nodup := List.nodup_cons.mpr ⟨notReturned, inv.nodup⟩
  have := (List.subperm_of_subset nodup within).length_le
  simp only [free, List.length_cons, List.length_range] at *
  omega

theorem first_sound (pos : 0 < max) : first.Sound max := ⟨pos, List.nodup_nil, by simp [first]⟩

theorem held_first : first.Held 0 := ⟨Nat.zero_lt_one, List.not_mem_nil⟩

section TakeUnused

theorem Sound.takeUnused (inv : pool.Sound max) (room : pool.issued < max) :
    pool.takeUnused.Sound max :=
  ⟨room, inv.nodup, fun slot mem => Nat.lt_succ_of_lt (inv.wasIssued slot mem)⟩

theorem takeUnused_free (room : pool.issued < max) :
    pool.takeUnused.free max + 1 = pool.free max := by
  simp only [free, SlotPool.takeUnused]
  omega

theorem not_held_issued : ¬ pool.Held pool.issued := fun held => Nat.lt_irrefl _ held.1

theorem held_takeUnused_iff (inv : pool.Sound max) (slot : Nat) :
    pool.takeUnused.Held slot ↔ pool.Held slot ∨ slot = pool.issued := by
  have fresh : pool.issued ∉ pool.returned := fun mem => Nat.lt_irrefl _ (inv.wasIssued _ mem)
  simp only [Held, SlotPool.takeUnused]
  constructor
  · rintro ⟨below, outside⟩
    by_cases last : slot = pool.issued
    · exact .inr last
    · exact .inl ⟨by omega, outside⟩
  · rintro (⟨below, outside⟩ | rfl)
    · exact ⟨by omega, outside⟩
    · exact ⟨by omega, fresh⟩

end TakeUnused

section TakeReturned

variable {slot : Nat} {rest : List Nat}

theorem Sound.takeReturned (inv : pool.Sound max) : pool.takeReturned.Sound max :=
  ⟨inv.issued_le, inv.nodup.tail, fun slot mem => inv.wasIssued slot (List.mem_of_mem_tail mem)⟩

theorem takeReturned_free (returned_eq : pool.returned = slot :: rest) :
    pool.takeReturned.free max + 1 = pool.free max := by
  simp only [free, SlotPool.takeReturned, returned_eq, List.tail_cons, List.length_cons]
  omega

theorem not_held_returned (returned_eq : pool.returned = slot :: rest) : ¬ pool.Held slot :=
  fun held => held.2 (by simp [returned_eq])

theorem held_takeReturned_iff (inv : pool.Sound max) (returned_eq : pool.returned = slot :: rest)
    (other : Nat) : pool.takeReturned.Held other ↔ pool.Held other ∨ other = slot := by
  have nodup := inv.nodup
  have issued := inv.wasIssued slot (by simp [returned_eq])
  rw [returned_eq, List.nodup_cons] at nodup
  simp only [Held, SlotPool.takeReturned, returned_eq, List.mem_cons, not_or]
  constructor
  · rintro ⟨below, outside⟩
    by_cases same : other = slot
    · exact .inr same
    · exact .inl ⟨below, same, outside⟩
  · rintro (⟨below, -, outside⟩ | rfl)
    · exact ⟨below, outside⟩
    · exact ⟨issued, nodup.1⟩

end TakeReturned

section Give

variable {slot : Nat}

theorem Sound.give (inv : pool.Sound max) (held : pool.Held slot) : (pool.give slot).Sound max := by
  refine ⟨inv.issued_le, List.nodup_cons.mpr ⟨held.2, inv.nodup⟩, ?_⟩
  intro other mem
  rcases List.mem_cons.mp mem with rfl | mem
  · exact held.1
  · exact inv.wasIssued other mem

theorem give_free : (pool.give slot).free max = pool.free max + 1 := by
  simp only [free, SlotPool.give, List.length_cons]
  omega

theorem held_give_iff (other : Nat) :
    (pool.give slot).Held other ↔ pool.Held other ∧ other ≠ slot := by
  simp only [Held, SlotPool.give, List.mem_cons, not_or]
  constructor
  · rintro ⟨below, ne, outside⟩
    exact ⟨⟨below, outside⟩, ne⟩
  · rintro ⟨⟨below, outside⟩, ne⟩
    exact ⟨below, ne, outside⟩

end Give

end SlotPool

/-!
## Free extents

The free units of an address space as a list of extents in ascending order.
-/

section

universe u

/-- `count` units from `start`. -/
structure Extent where
  start : Nat
  count : Nat
  deriving DecidableEq

namespace Extent

def stop (extent : Extent) : Nat := extent.start + extent.count

def Covers (extent : Extent) (unit : Nat) : Prop := extent.start ≤ unit ∧ unit < extent.stop

instance (extent : Extent) (unit : Nat) : Decidable (extent.Covers unit) := instDecidableAnd

variable {Value : Type u} {extent : Extent} {values old : Nat → Value} {unit : Nat}

/-- The values of the units of `extent`, counted from its start; `old` elsewhere. -/
def fill (extent : Extent) (values old : Nat → Value) (unit : Nat) : Value :=
  if extent.Covers unit then values (unit - extent.start) else old unit

theorem fill_of_covers (covers : extent.Covers unit) :
    extent.fill values old unit = values (unit - extent.start) := if_pos covers

theorem fill_of_not_covers (outside : ¬ extent.Covers unit) :
    extent.fill values old unit = old unit := if_neg outside

end Extent

namespace Extents

/-- The first extent of at least `count` units gives up its first `count`. -/
def take (count : Nat) : List Extent → Option (Nat × List Extent)
  | [] => none
  | extent :: rest =>
    if count < extent.count then
      some (extent.start, ⟨extent.start + count, extent.count - count⟩ :: rest)
    else if extent.count = count then some (extent.start, rest)
    else (take count rest).map fun found => (found.1, extent :: found.2)

def joinNext (extent : Extent) : List Extent → List Extent
  | [] => [extent]
  | next :: rest =>
    if extent.stop = next.start then ⟨extent.start, extent.count + next.count⟩ :: rest
    else extent :: next :: rest

/-- Insert the units of `added`; an empty extent, or one that `added` starts in, is an
error. -/
def release (added : Extent) : List Extent → Option (List Extent)
  | [] => some [added]
  | extent :: rest =>
    if extent.count = 0 ∨ extent.Covers added.start then none
    else if extent.stop = added.start then
      some (joinNext ⟨extent.start, extent.count + added.count⟩ rest)
    else if extent.start = added.stop then
      some (⟨added.start, extent.count + added.count⟩ :: rest)
    else if added.stop < extent.start then some (added :: extent :: rest)
    else (release added rest).map (extent :: ·)

def Ordered : Nat → List Extent → Prop
  | _, [] => True
  | low, extent :: rest => low ≤ extent.start ∧ 0 < extent.count ∧ Ordered extent.stop rest

def Free (extents : List Extent) (unit : Nat) : Prop := ∃ extent ∈ extents, extent.Covers unit

variable {low count start : Nat} {extents rest : List Extent} {extent added : Extent}

@[simp] theorem free_nil (unit : Nat) : ¬ Free [] unit := by simp [Free]

@[simp] theorem free_cons (unit : Nat) :
    Free (extent :: rest) unit ↔ extent.Covers unit ∨ Free rest unit := by
  simp [Free]

theorem Ordered.mono {higher : Nat} (ordered : Ordered higher extents) (le : low ≤ higher) :
    Ordered low extents := by
  cases extents with
  | nil => trivial
  | cons extent rest =>
    obtain ⟨above, filled, ordered⟩ := ordered
    exact ⟨Nat.le_trans le above, filled, ordered⟩

theorem Ordered.le_of_free (ordered : Ordered low extents) {unit : Nat}
    (free : Free extents unit) : low ≤ unit := by
  induction extents generalizing low with
  | nil => exact absurd free (free_nil unit)
  | cons extent rest ih =>
    obtain ⟨above, filled, ordered⟩ := ordered
    rcases (free_cons unit).mp free with covers | free
    · exact Nat.le_trans above covers.1
    · have := ih ordered free
      simp only [Extent.stop] at this
      omega

theorem take_spec (ordered : Ordered low extents) (pos : 0 < count)
    (taken : take count extents = some (start, rest)) : Ordered low rest ∧
      (∀ unit, (⟨start, count⟩ : Extent).Covers unit → Free extents unit) ∧
      ∀ unit, Free rest unit ↔ Free extents unit ∧ ¬ (⟨start, count⟩ : Extent).Covers unit := by
  induction extents generalizing low rest with
  | nil => simp [take] at taken
  | cons extent others ih =>
    obtain ⟨above, filled, ordered⟩ := ordered
    have beyond : ∀ unit, Free others unit → extent.stop ≤ unit :=
      fun unit free => ordered.le_of_free free
    simp only [Extent.Covers, Extent.stop] at *
    unfold take at taken
    split_ifs at taken with larger equal
    · obtain ⟨rfl, rfl⟩ : extent.start = start ∧ _ = rest := by simpa using taken
      refine ⟨⟨by simp only; omega, by simp only; omega, ?_⟩, ?_, ?_⟩
      · have stop : extent.start + count + (extent.count - count) =
            extent.start + extent.count := by omega
        simpa only [Extent.stop, stop] using ordered
      · intro unit covers
        simp only [free_cons, Extent.Covers, Extent.stop]
        omega
      · intro unit
        have := beyond unit
        simp only [free_cons, Extent.Covers, Extent.stop]
        by_cases free : Free others unit
        · have := this free
          simp only [free, or_true, true_and, true_iff]
          omega
        · simp only [free, or_false]
          omega
    · obtain ⟨rfl, rfl⟩ : extent.start = start ∧ others = rest := by simpa using taken
      refine ⟨ordered.mono (by omega), ?_, ?_⟩
      · intro unit covers
        simp only [free_cons, Extent.Covers, Extent.stop]
        omega
      · intro unit
        have := beyond unit
        simp only [free_cons, Extent.Covers, Extent.stop]
        by_cases free : Free others unit
        · have := this free
          simp only [free, or_true, true_and, true_iff]
          omega
        · simp only [free, or_false, false_iff]
          omega
    · obtain ⟨found, isFound, equality⟩ := Option.map_eq_some_iff.mp taken
      obtain ⟨rfl, rfl⟩ := Prod.mk.inj equality
      obtain ⟨orderedRest, wereFree, freeIff⟩ := ih ordered isFound
      refine ⟨⟨above, filled, orderedRest⟩, ?_, ?_⟩
      · intro unit covers
        exact (free_cons unit).mpr (.inr (wereFree unit covers))
      · intro unit
        have taken := fun covers => beyond unit (wereFree unit covers)
        rw [free_cons, free_cons, freeIff]
        simp only [Extent.Covers, Extent.stop]
        constructor
        · rintro (covers | ⟨free, outside⟩)
          · exact ⟨.inl covers, fun inside => by have := taken inside; omega⟩
          · exact ⟨.inr free, outside⟩
        · rintro ⟨covers | free, outside⟩
          · exact .inl covers
          · exact .inr ⟨free, outside⟩

theorem joinNext_spec (extent : Extent) (filled : 0 < extent.count)
    (ordered : Ordered extent.stop rest) :
    Ordered extent.start (joinNext extent rest) ∧
      ∀ unit, Free (joinNext extent rest) unit ↔ extent.Covers unit ∨ Free rest unit := by
  cases rest with
  | nil => exact ⟨⟨Nat.le_refl _, filled, trivial⟩, by simp [joinNext]⟩
  | cons next others =>
    obtain ⟨above, nextFilled, ordered⟩ := ordered
    simp only [joinNext]
    split_ifs with meet
    · refine ⟨⟨Nat.le_refl _, by simp only; omega, ?_⟩, ?_⟩
      · apply ordered.mono
        simp only [Extent.stop] at *
        omega
      · intro unit
        simp only [free_cons, Extent.Covers, Extent.stop, ← or_assoc] at *
        refine or_congr_left ?_
        omega
    · exact ⟨⟨Nat.le_refl _, filled, above, nextFilled, ordered⟩, by simp⟩

theorem release_spec (added : Extent) (ordered : Ordered low extents) (above : low ≤ added.start)
    (pos : 0 < added.count) (disjoint : ∀ unit, added.Covers unit → ¬ Free extents unit) :
    ∃ rest, release added extents = some rest ∧ Ordered low rest ∧
      ∀ unit, Free rest unit ↔ Free extents unit ∨ added.Covers unit := by
  induction extents generalizing low with
  | nil => exact ⟨[added], rfl, ⟨above, pos, trivial⟩, by simp⟩
  | cons extent others ih =>
    obtain ⟨aboveLow, filled, ordered⟩ := ordered
    have apart : ∀ unit, added.Covers unit → ¬ extent.Covers unit :=
      fun unit covers inside => disjoint unit covers ((free_cons unit).mpr (.inl inside))
    have apartRest : ∀ unit, added.Covers unit → ¬ Free others unit :=
      fun unit covers free => disjoint unit covers ((free_cons unit).mpr (.inr free))
    have startApart := apart added.start ⟨Nat.le_refl _, by simp only [Extent.stop]; omega⟩
    have startBehind := apart extent.start
    unfold release
    rw [if_neg (by rintro (empty | covers) <;> [omega; exact startApart covers])]
    split_ifs with meets precedes before
    · have room : Ordered (extent.stop + added.count) others := by
        cases others with
        | nil => trivial
        | cons next more =>
          obtain ⟨aboveNext, nextFilled, ordered⟩ := ordered
          have nextApart := apartRest next.start
          refine ⟨?_, nextFilled, ordered⟩
          simp only [free_cons, Extent.Covers, Extent.stop] at *
          omega
      have stop : (⟨extent.start, extent.count + added.count⟩ : Extent).stop =
          extent.stop + added.count := by simp only [Extent.stop]; omega
      obtain ⟨joined, freeIff⟩ := joinNext_spec
        ⟨extent.start, extent.count + added.count⟩ (by simp only; omega)
        (stop ▸ room)
      refine ⟨_, rfl, joined.mono aboveLow, ?_⟩
      intro unit
      rw [freeIff, free_cons, or_right_comm]
      refine or_congr_left ?_
      simp only [Extent.Covers, Extent.stop] at *
      omega
    · refine ⟨_, rfl, ⟨above, by simp only; omega, ordered.mono ?_⟩, ?_⟩
      · simp only [Extent.stop] at *
        omega
      · intro unit
        rw [free_cons, free_cons, or_right_comm]
        refine or_congr_left ?_
        simp only [Extent.Covers, Extent.stop] at *
        omega
    · refine ⟨_, rfl, ⟨above, pos, Nat.le_of_lt before, filled, ordered⟩, ?_⟩
      intro unit
      rw [free_cons, or_comm]
    · have behind : extent.stop ≤ added.start := by
        simp only [Extent.Covers, Extent.stop] at *
        omega
      obtain ⟨rest, released, orderedRest, freeIff⟩ := ih ordered behind apartRest
      refine ⟨extent :: rest, by simp [released], ⟨aboveLow, filled, orderedRest⟩, ?_⟩
      intro unit
      rw [free_cons, free_cons, freeIff, or_assoc]

/-- The extents ascend behind `low`, none of them empty and no two of them adjacent. -/
def Apart : Nat → List Extent → Prop
  | _, [] => True
  | low, extent :: rest => low < extent.start ∧ 0 < extent.count ∧ Apart extent.stop rest

theorem Apart.ordered (apart : Apart low extents) : Ordered low extents := by
  induction extents generalizing low with
  | nil => trivial
  | cons extent rest ih =>
    obtain ⟨above, filled, apart⟩ := apart
    exact ⟨above.le, filled, ih apart⟩

theorem Apart.mono {higher : Nat} (apart : Apart higher extents) (le : low ≤ higher) :
    Apart low extents := by
  cases extents with
  | nil => trivial
  | cons extent rest => exact ⟨le.trans_lt apart.1, apart.2⟩

theorem Apart.take (apart : Apart low extents) (pos : 0 < count)
    (taken : take count extents = some (start, rest)) : Apart low rest := by
  induction extents generalizing low rest with
  | nil => simp [Extents.take] at taken
  | cons extent others ih =>
    obtain ⟨above, filled, apart⟩ := apart
    unfold Extents.take at taken
    split_ifs at taken with larger equal
    · cases taken
      refine ⟨by simp only; omega, by simp only; omega, apart.mono ?_⟩
      simp only [Extent.stop]
      omega
    · cases taken
      exact apart.mono (by simp only [Extent.stop]; omega)
    · obtain ⟨found, isFound, ⟨⟩⟩ := Option.map_eq_some_iff.mp taken
      exact ⟨above, filled, ih apart isFound⟩

theorem Apart.release {others : List Extent} (apart : Apart low extents) (above : low < added.start)
    (pos : 0 < added.count) (disjoint : ∀ unit, added.Covers unit → ¬ Free extents unit)
    (released : release added extents = some others) : Apart low others := by
  induction extents generalizing low others with
  | nil =>
    cases released
    exact ⟨above, pos, trivial⟩
  | cons extent rest ih =>
    obtain ⟨aboveLow, filled, apart⟩ := apart
    have outside : ∀ unit, added.Covers unit → ¬ extent.Covers unit :=
      fun unit covers inside => disjoint unit covers ((free_cons unit).mpr (.inl inside))
    have atStart := outside added.start
    have atExtent := outside extent.start
    simp only [Extent.Covers] at atStart atExtent
    unfold Extents.release at released
    split_ifs at released with empty meets precedes before
    · cases released
      cases rest with
      | nil => exact ⟨aboveLow, by simp only; omega, trivial⟩
      | cons next more =>
        obtain ⟨aboveNext, nextFilled, apart⟩ := apart
        have atNext : ¬ added.Covers next.start := fun covers => disjoint _ covers <| by
          simp [Extent.Covers, Extent.stop, nextFilled]
        rw [joinNext]
        split
        · refine ⟨aboveLow, by simp only; omega, apart.mono ?_⟩
          simp only [Extent.stop] at *
          omega
        · refine ⟨aboveLow, by simp only; omega, ?_, nextFilled, apart⟩
          simp only [Extent.Covers, Extent.stop] at *
          omega
    · cases released
      refine ⟨above, by simp only; omega, apart.mono ?_⟩
      simp only [Extent.stop] at *
      omega
    · cases released
      exact ⟨above, pos, before, filled, apart⟩
    · obtain ⟨joined, isJoined, rfl⟩ := Option.map_eq_some_iff.mp released
      refine ⟨aboveLow, filled, ih apart ?_ (fun unit covers free => ?_) isJoined⟩
      · simp only [Extent.stop] at *
        omega
      · exact disjoint unit covers ((free_cons unit).mpr (.inr free))

theorem lt_of_take_eq_none (none : take count extents = none) {extent : Extent}
    (mem : extent ∈ extents) : extent.count < count := by
  induction extents with
  | nil => cases mem
  | cons first rest ih =>
    unfold take at none
    split_ifs at none with larger equal
    rcases List.mem_cons.mp mem with rfl | inRest
    · omega
    · exact ih (Option.map_eq_none_iff.mp none) inRest

theorem Apart.lt_of_free (apart : Apart low extents) {unit : Nat} (free : Free extents unit) :
    low < unit := by
  cases extents with
  | nil => exact absurd free (free_nil unit)
  | cons extent rest =>
    have ordered : Ordered extent.start (extent :: rest) := ⟨le_rfl, apart.ordered.2⟩
    exact apart.1.trans_le (ordered.le_of_free free)

/-- Consecutive free units are units of one extent. -/
theorem Apart.consecutive (apart : Apart low extents) (pos : 0 < count)
    (free : ∀ unit, (⟨start, count⟩ : Extent).Covers unit → Free extents unit) :
    ∃ extent ∈ extents, extent.start ≤ start ∧ start + count ≤ extent.stop := by
  induction extents generalizing low with
  | nil => exact absurd (free start ⟨le_rfl, Nat.lt_add_of_pos_right pos⟩) (free_nil _)
  | cons extent rest ih =>
    obtain ⟨-, -, apart⟩ := apart
    rcases (free_cons start).mp (free start ⟨le_rfl, Nat.lt_add_of_pos_right pos⟩) with
      covers | later
    · refine ⟨extent, List.mem_cons_self, covers.1, ?_⟩
      by_contra beyond
      rcases (free_cons _).mp (free extent.stop ⟨covers.2.le, not_le.mp beyond⟩) with own | later
      · exact own.2.false
      · exact (apart.lt_of_free later).false
    · have behind := apart.lt_of_free later
      obtain ⟨other, mem, covers⟩ := ih apart fun unit covers =>
        ((free_cons unit).mp (free unit covers)).resolve_left fun own =>
          (own.2.trans (behind.trans_le covers.1)).false
      exact ⟨other, List.mem_cons_of_mem _ mem, covers⟩

end Extents

end
