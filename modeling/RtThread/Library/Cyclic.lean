import Mathlib.Data.BitVec

/-!
# Distances around a cycle

Positions on a cycle of a given period, seen from a place that moves forward.
-/

namespace CyclicDistance

def ahead (period p target : Int) : Int := (target - p) % period

variable {period p target other : Int}

theorem ahead_nonneg (pos : 0 < period) : 0 ≤ ahead period p target := Int.emod_nonneg _ (by omega)

theorem ahead_of_le (within : target - p < period) (le : p ≤ target) :
    ahead period p target = target - p := Int.emod_eq_of_lt (by omega) within

theorem ahead_of_lt (within : p - target ≤ period) (lt : target < p) :
    ahead period p target = target - p + period := by
  unfold ahead
  rw [← Int.add_emod_right]
  exact Int.emod_eq_of_lt (by omega) (by omega)

theorem ahead_advance (pos : 0 < period) {next : Int}
    (notPast : ahead period p next ≤ ahead period p target) :
    ahead period next target = ahead period p target - ahead period p next := by
  have nonneg := @ahead_nonneg period p next pos
  have lt : ahead period p target < period := Int.emod_lt_of_pos _ pos
  have congruent : (target - next) % period =
      (ahead period p target - ahead period p next) % period := by
    unfold ahead
    rw [Int.emod_sub_emod, Int.sub_emod_emod]
    congr 1
    omega
  rw [ahead, congruent]
  exact Int.emod_eq_of_lt (by omega) (by omega)

theorem ahead_le_advance (pos : 0 < period) {next : Int}
    (notPast : ahead period p next ≤ ahead period p target)
    (le : ahead period p target ≤ ahead period p other) :
    ahead period next target ≤ ahead period next other := by
  rw [ahead_advance pos notPast, ahead_advance pos (Int.le_trans notPast le)]
  omega

end CyclicDistance

/-!
## Intervals around a ring

A list of intervals in the order in which they were taken from a linear space that is used
as a ring: ascending, or ascending up to one point where the list starts again below all
the earlier intervals.
-/

namespace RtThread.CyclicIntervals

structure Interval where
  start : Nat
  stop : Nat

def Ascending (intervals : List Interval) : Prop :=
  intervals.Pairwise fun a b => a.stop ≤ b.start

def Cyclic (intervals : List Interval) : Prop :=
  ∃ front back, intervals = front ++ back ∧ Ascending front ∧ Ascending back ∧
    ∀ a ∈ front, ∀ b ∈ back, b.stop ≤ a.start

variable {intervals other : List Interval} {first last new : Interval}

theorem Cyclic.sublist (cyclic : Cyclic intervals) (sublist : other.Sublist intervals) :
    Cyclic other := by
  obtain ⟨front, back, rfl, ascendingFront, ascendingBack, below⟩ := cyclic
  obtain ⟨front', back', rfl, inFront, inBack⟩ := List.sublist_append_iff.mp sublist
  exact ⟨front', back', rfl, ascendingFront.sublist inFront, ascendingBack.sublist inBack,
    fun a isIn b isIn' => below a (inFront.subset isIn) b (inBack.subset isIn')⟩

theorem Cyclic.ascending (cyclic : Cyclic intervals) (isFirst : intervals.head? = some first)
    (isLast : intervals.getLast? = some last)
    (between : ∀ a ∈ intervals, a.start ≤ a.stop ∧ first.start ≤ a.start ∧ a.stop ≤ last.stop) :
    Ascending intervals := by
  obtain ⟨front, back, rfl, ascendingFront, ascendingBack, below⟩ := cyclic
  refine List.pairwise_append.mpr ⟨ascendingFront, ascendingBack, ?_⟩
  intro a inFront b inBack
  have firstIn : first ∈ front := by
    rw [List.head?_append_of_ne_nil _ (List.ne_nil_of_mem inFront)] at isFirst
    exact List.mem_of_mem_head? isFirst
  have lastIn : last ∈ back := by
    rw [List.getLast?_append_of_ne_nil _ (List.ne_nil_of_mem inBack)] at isLast
    exact List.mem_of_mem_getLast? isLast
  have aBetween := between a (List.mem_append_left _ inFront)
  have bBetween := between b (List.mem_append_right _ inBack)
  have := below first firstIn last lastIn
  omega

section

variable (ascending : Ascending intervals)

include ascending

theorem Ascending.cyclic : Cyclic intervals :=
  ⟨intervals, [], (List.append_nil _).symm, ascending, .nil, by simp⟩

theorem Ascending.append (behind : ∀ a ∈ intervals, a.stop ≤ new.start) :
    Ascending (intervals ++ [new]) := by
  refine List.pairwise_append.mpr ⟨ascending, List.pairwise_singleton _ _, ?_⟩
  intro a isIn b isNew
  rw [List.mem_singleton.mp isNew]
  exact behind a isIn

theorem Ascending.wrap (below : ∀ a ∈ intervals, new.stop ≤ a.start) :
    Cyclic (intervals ++ [new]) := by
  refine ⟨intervals, [new], rfl, ascending, List.pairwise_singleton _ _, ?_⟩
  intro a isIn b isNew
  rw [List.mem_singleton.mp isNew]
  exact below a isIn

theorem Ascending.first_le (isFirst : intervals.head? = some first)
    (proper : ∀ a ∈ intervals, a.start ≤ a.stop) : ∀ a ∈ intervals, first.start ≤ a.start := by
  obtain ⟨rest, rfl⟩ := List.head?_eq_some_iff.mp isFirst
  intro a isIn
  rcases List.mem_cons.mp isIn with rfl | isIn
  · exact Nat.le_refl _
  · exact Nat.le_trans (proper first List.mem_cons_self)
      ((List.pairwise_cons.mp ascending).1 a isIn)

theorem Ascending.le_last (isLast : intervals.getLast? = some last)
    (proper : ∀ a ∈ intervals, a.start ≤ a.stop) : ∀ a ∈ intervals, a.stop ≤ last.stop := by
  obtain ⟨earlier, rfl⟩ := List.getLast?_eq_some_iff.mp isLast
  have lastIn := List.mem_singleton_self last
  intro a isIn
  rcases List.mem_append.mp isIn with isIn | same
  · exact Nat.le_trans ((List.pairwise_append.mp ascending).2.2 a isIn last lastIn)
      (proper last (List.mem_append_right _ lastIn))
  · exact Nat.le_of_eq (congrArg _ (List.mem_singleton.mp same))

end

section

variable (cyclic : Cyclic intervals) (isFirst : intervals.head? = some first)
  (isLast : intervals.getLast? = some last)
  (proper : ∀ a ∈ intervals, a.start ≤ a.stop)

include cyclic isFirst isLast proper

theorem Cyclic.split : ∃ front back, intervals = front ++ back ∧ Ascending front ∧ Ascending back ∧
      (∀ a ∈ front, ∀ b ∈ back, b.stop ≤ a.start) ∧
      (∀ a ∈ front, first.start ≤ a.start) ∧ ∀ b ∈ back, b.stop ≤ last.stop := by
  obtain ⟨front, back, rfl, ascendingFront, ascendingBack, below⟩ := cyclic
  refine ⟨front, back, rfl, ascendingFront, ascendingBack, below, ?_, ?_⟩
  · rcases eq_or_ne front [] with rfl | nonempty
    · simp
    · rw [List.head?_append_of_ne_nil _ nonempty] at isFirst
      exact ascendingFront.first_le isFirst fun a isIn => proper a (List.mem_append_left _ isIn)
  · rcases eq_or_ne back [] with rfl | nonempty
    · simp
    · rw [List.getLast?_append_of_ne_nil _ nonempty] at isLast
      exact ascendingBack.le_last isLast fun b isIn => proper b (List.mem_append_right _ isIn)

theorem Cyclic.stop_le_start (wrapped : last.start < first.start) : last.stop ≤ first.start := by
  have lastIn := List.mem_of_mem_getLast? isLast
  obtain ⟨front, back, rfl, -, ascendingBack, below, fromFirst, -⟩ :=
    cyclic.split isFirst isLast proper
  have lastInBack : last ∈ back := by
    rcases List.mem_append.mp lastIn with inFront | inBack
    · exact absurd (fromFirst last inFront) (Nat.not_le.mpr wrapped)
    · exact inBack
  rcases eq_or_ne front [] with rfl | nonempty
  · have := ascendingBack.first_le isFirst proper last lastInBack
    omega
  · rw [List.head?_append_of_ne_nil _ nonempty] at isFirst
    exact below first (List.mem_of_mem_head? isFirst) last lastInBack

theorem Cyclic.gap : ∀ a ∈ intervals, a.stop ≤ last.stop ∨ first.start ≤ a.start := by
  obtain ⟨front, back, rfl, -, -, -, fromFirst, toLast⟩ := cyclic.split isFirst isLast proper
  intro a isIn
  rcases List.mem_append.mp isIn with inFront | inBack
  · exact .inr (fromFirst a inFront)
  · exact .inl (toLast a inBack)

theorem Cyclic.fill (behindLast : last.stop ≤ new.start) (beforeFirst : new.stop ≤ first.start) :
    Cyclic (intervals ++ [new]) := by
  obtain ⟨front, back, rfl, ascendingFront, ascendingBack, below, fromFirst, toLast⟩ :=
    cyclic.split isFirst isLast proper
  refine ⟨front, back ++ [new], List.append_assoc .., ascendingFront,
    ascendingBack.append fun b isIn => Nat.le_trans (toLast b isIn) behindLast, ?_⟩
  intro a inFront b inBack
  rcases List.mem_append.mp inBack with inBack | isNew
  · exact below a inFront b inBack
  · rw [List.mem_singleton.mp isNew]
    exact Nat.le_trans beforeFirst (fromFirst a inFront)

end

end RtThread.CyclicIntervals

/-!
## Ticks that wrap

A counter of `w` bits that wraps has no order of its own.
-/

namespace WrappedTick

variable {w : Nat} {half : BitVec w}

def distance (base a : BitVec w) : Nat := (a - base).toNat

theorem distance_inj {base a b : BitVec w} : distance base a = distance base b ↔ a = b := by
  rw [distance, distance, ← BitVec.toNat_eq, sub_left_inj]

theorem sub_lt_half_iff (small : 2 * half.toNat ≤ 2 ^ w) {base a b : BitVec w}
    (near : a - base < half) (near' : b - base < half) :
    a - b < half ↔ distance base b ≤ distance base a := by
  rw [BitVec.lt_def] at near near' ⊢
  rw [← sub_sub_sub_cancel_right a b base, BitVec.toNat_sub]
  simp only [distance]
  rcases Nat.lt_or_ge (a - base).toNat (b - base).toNat with lt | le
  · rw [Nat.mod_eq_of_lt (by omega)]
    omega
  · have wraps : 2 ^ w - (b - base).toNat + (a - base).toNat =
        (a - base).toNat - (b - base).toNat + 2 ^ w := by omega
    rw [wraps, Nat.add_mod_right, Nat.mod_eq_of_lt (by omega)]
    omega

end WrappedTick
