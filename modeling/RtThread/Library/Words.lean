import Mathlib.Data.Nat.Bitwise
import Mathlib.Data.Nat.Count

/-!
# Unsigned 32-bit arithmetic on natural numbers

Sums and differences that wrap, and rounding to a power of two by masking.
-/

namespace Word32

def add (a b : Nat) : Nat := (a + b) % 2 ^ 32

def sub (a b : Nat) : Nat := (a + (2 ^ 32 - b % 2 ^ 32)) % 2 ^ 32

def maskDown (value align : Nat) : Nat :=
  (BitVec.ofNat 32 value &&& ~~~BitVec.ofNat 32 (align - 1)).toNat

theorem add_eq {a b : Nat} (small : a + b < 2 ^ 32) : add a b = a + b := Nat.mod_eq_of_lt small

theorem add_add_eq {a b c : Nat} (small : a + b + c < 2 ^ 32) : add (add a b) c = a + b + c := by
  rw [add_eq (by omega : a + b < 2 ^ 32), add_eq small]

theorem sub_eq {a b : Nat} (ordered : b ≤ a) (small : a < 2 ^ 32) : sub a b = a - b := by
  unfold sub
  omega

theorem add_lt (a b : Nat) : add a b < 2 ^ 32 := Nat.mod_lt _ (by decide)

theorem maskDown_eq {v bits : Nat} (small : v < 2 ^ 32) (bits_lt : bits ≤ 32) :
    maskDown v (2 ^ bits) = v / 2 ^ bits * 2 ^ bits := by
  have maskSmall : 2 ^ bits - 1 < 2 ^ 32 := by
    have := Nat.pow_le_pow_right (by decide : 0 < 2) bits_lt
    omega
  apply Nat.eq_of_testBit_eq
  intro i
  rw [maskDown, BitVec.toNat_and, BitVec.toNat_not, BitVec.toNat_ofNat, BitVec.toNat_ofNat,
    Nat.mod_eq_of_lt small, Nat.mod_eq_of_lt maskSmall, Nat.testBit_and,
    Nat.sub_sub, Nat.add_comm 1, Nat.testBit_two_pow_sub_succ maskSmall,
    Nat.testBit_two_pow_sub_one, Nat.testBit_mul_two_pow, Nat.testBit_div_two_pow]
  by_cases low : i < bits
  · simp [low]
  · by_cases inWord : i < 32
    · simp [inWord, Nat.le_of_not_lt low]
    · have zero : v.testBit i = false :=
        Nat.testBit_lt_two_pow (small.trans_le (Nat.pow_le_pow_right (by decide) (by omega)))
      simp [Nat.le_of_not_lt low, zero]

theorem bits_lt_of_maskDown_ne_zero {v bits : Nat} (left : maskDown v (2 ^ bits) ≠ 0) :
    bits < 32 := by
  by_contra large
  have ones : BitVec.ofNat 32 (2 ^ bits - 1) = BitVec.allOnes 32 := by
    apply BitVec.eq_of_getLsbD_eq
    intro i below
    rw [BitVec.getLsbD_ofNat, Nat.testBit_two_pow_sub_one, BitVec.getLsbD_allOnes]
    simp only [below, decide_true, Bool.true_and, decide_eq_true_eq]
    omega
  exact left (by simp [maskDown, ones])

theorem maskDown_le {v bits : Nat} (small : v < 2 ^ 32) (bits_lt : bits ≤ 32) :
    maskDown v (2 ^ bits) ≤ v := by
  rw [maskDown_eq small bits_lt]
  exact Nat.div_mul_le_self v _

theorem dvd_maskDown {v bits : Nat} (small : v < 2 ^ 32) (bits_lt : bits ≤ 32) :
    2 ^ bits ∣ maskDown v (2 ^ bits) := by
  rw [maskDown_eq small bits_lt]
  exact Dvd.intro_left _ rfl

def alignUp (value align : Nat) : Nat := maskDown (add value (align - 1)) align

theorem dvd_alignUp (v : Nat) {bits : Nat} (bits_lt : bits ≤ 32) :
    2 ^ bits ∣ alignUp v (2 ^ bits) := dvd_maskDown (add_lt _ _) bits_lt

theorem le_alignUp {v bits : Nat} (small : v + (2 ^ bits - 1) < 2 ^ 32) (bits_lt : bits ≤ 32) :
    v ≤ alignUp v (2 ^ bits) ∧ alignUp v (2 ^ bits) < v + 2 ^ bits := by
  have sum := Nat.div_add_mod (v + (2 ^ bits - 1)) (2 ^ bits)
  rw [Nat.mul_comm] at sum
  rw [alignUp, add_eq small, maskDown_eq small bits_lt]
  omega

theorem alignUp_le_of_dvd {v limit bits : Nat} (small : v + (2 ^ bits - 1) < 2 ^ 32)
    (bits_lt : bits ≤ 32) (divides : 2 ^ bits ∣ limit) (le : v ≤ limit) :
    alignUp v (2 ^ bits) ≤ limit := by
  obtain ⟨_, above⟩ := le_alignUp small bits_lt
  obtain ⟨rounded, roundedEq⟩ := dvd_alignUp v bits_lt
  obtain ⟨multiple, rfl⟩ := divides
  rw [roundedEq] at above ⊢
  apply Nat.mul_le_mul_left
  by_contra larger
  have := Nat.mul_le_mul_left (2 ^ bits) (by omega : multiple + 1 ≤ rounded)
  rw [Nat.mul_add, Nat.mul_one] at this
  omega

end Word32

/-!
## Bits of a word

Setting, clearing and testing bits of a word that stands for a set: one bit at a place, and
the bits of a mask.
-/

namespace RtThread.BitMask

variable {width p u : Nat}

theorem getLsbD_one_shiftLeft (inside : u < width) :
    (BitVec.ofNat width 1 <<< p).getLsbD u = decide (u = p) := by
  rw [BitVec.getLsbD_shiftLeft]
  by_cases low : u < p
  · have apart : u ≠ p := by omega
    simp [low, apart]
  · by_cases same : u = p
    · subst same
      simp
      omega
    · simp [same]
      omega

theorem getLsbD_or_one_shiftLeft (v : BitVec width) (inside : u < width) :
    (v ||| BitVec.ofNat width 1 <<< p).getLsbD u = (v.getLsbD u || decide (u = p)) := by
  rw [BitVec.getLsbD_or, getLsbD_one_shiftLeft inside]

theorem getLsbD_and_not_one_shiftLeft (v : BitVec width) (ne : u ≠ p) :
    (v &&& ~~~(BitVec.ofNat width 1 <<< p)).getLsbD u = v.getLsbD u := by
  rcases Nat.lt_or_ge u width with inside | outside
  · rw [BitVec.getLsbD_and, BitVec.getLsbD_not, getLsbD_one_shiftLeft inside]
    simp [inside, ne]
  · rw [BitVec.getLsbD_of_ge _ _ outside, BitVec.getLsbD_of_ge _ _ outside]

variable {bits mask : BitVec width}

theorem or_and_of_disjoint (disjoint : bits &&& mask = 0) (v : BitVec width) :
    (v ||| bits) &&& mask = v &&& mask := by
  rw [BitVec.and_or_distrib_right, disjoint]
  exact BitVec.or_zero

theorem and_not_and_of_disjoint (disjoint : bits &&& mask = 0) (v : BitVec width) :
    v &&& ~~~bits &&& mask = v &&& mask := by
  have kept : ~~~bits &&& mask = mask := by
    ext i inside
    have apart : (bits &&& mask)[i] = (BitVec.ofNat width 0)[i] := by rw [disjoint]; rfl
    grind
  rw [BitVec.and_assoc, kept]

theorem and_not_and_self (bits v : BitVec width) : v &&& ~~~bits &&& bits = 0 := by
  rw [BitVec.and_assoc]
  simp

theorem or_and_self (bits v : BitVec width) : (v ||| bits) &&& bits = bits := by
  ext i inside
  grind

end RtThread.BitMask

/-!
## Sets of numbers in the bits of words

An array of words stands for a set of numbers: each number has its bit in the word that its
quotient by the width selects.
-/

namespace RtThread.WordSet

variable {width : Nat} {words : Nat → BitVec width} {number u limit : Nat}

def has (words : Nat → BitVec width) (number : Nat) : Bool :=
  (words (number / width)).getLsbD (number % width)

def insert (words : Nat → BitVec width) (number : Nat) : Nat → BitVec width :=
  Function.update words (number / width)
    (words (number / width) ||| BitVec.ofNat width 1 <<< (number % width))

def count (words : Nat → BitVec width) (limit : Nat) : Nat :=
  Nat.count (fun number => has words number = true) limit

theorem has_insert (pos : 0 < width) :
    has (insert words number) u = (has words u || decide (u = number)) := by
  unfold has insert
  by_cases sameWord : u / width = number / width
  · rw [sameWord, Function.update_self, BitMask.getLsbD_or_one_shiftLeft _ (Nat.mod_lt u pos)]
    congr 1
    refine decide_eq_decide.mpr ⟨fun samePlace => ?_, fun same => by rw [same]⟩
    rw [← Nat.div_add_mod u width, sameWord, samePlace, Nat.div_add_mod]
  · have ne : u ≠ number := fun same => sameWord (by rw [same])
    rw [Function.update_of_ne sameWord]
    simp [ne]

theorem count_insert (pos : 0 < width) (fresh : has words number = false) (below : number < limit) :
    count (insert words number) limit = count words limit + 1 := by
  have members : (Finset.range limit).filter (fun u => has (insert words number) u = true) =
      Insert.insert number ((Finset.range limit).filter fun u => has words u = true) := by
    ext u
    simp only [Finset.mem_filter, Finset.mem_range, Finset.mem_insert, has_insert pos,
      Bool.or_eq_true, decide_eq_true_eq]
    constructor
    · rintro ⟨inside, isMember | rfl⟩
      · exact .inr ⟨inside, isMember⟩
      · exact .inl rfl
    · rintro (rfl | ⟨inside, isMember⟩)
      · exact ⟨below, .inr rfl⟩
      · exact ⟨inside, .inl isMember⟩
  unfold count
  rw [Nat.count_eq_card_filter_range, Nat.count_eq_card_filter_range, members,
    Finset.card_insert_of_notMem (by simp [fresh])]

theorem count_eq_zero (none : ∀ number < limit, has words number = false) :
    count words limit = 0 := by
  unfold count
  rw [Nat.count_eq_card_filter_range, Finset.card_eq_zero, Finset.filter_eq_empty_iff]
  intro number below
  simp [none number (Finset.mem_range.mp below)]

theorem has_of_count_eq_zero (zero : count words limit = 0) (below : number < limit) :
    has words number = false := by
  unfold count at zero
  rw [Nat.count_eq_card_filter_range, Finset.card_eq_zero, Finset.filter_eq_empty_iff] at zero
  simpa using zero (Finset.mem_range.mpr below)

def insertAll (words : Nat → BitVec width) (numbers : List Nat) : Nat → BitVec width :=
  numbers.foldl insert words

theorem has_insertAll (pos : 0 < width) (numbers : List Nat) :
    has (insertAll words numbers) u = (has words u || decide (u ∈ numbers)) := by
  induction numbers generalizing words with
  | nil => simp [insertAll]
  | cons number numbers ih =>
    have step : insertAll words (number :: numbers) = insertAll (insert words number) numbers := rfl
    rw [step, ih, has_insert pos, Bool.or_assoc]
    simp

theorem count_insertAll (pos : 0 < width) {numbers : List Nat} (nodup : numbers.Nodup)
    (fresh : ∀ number ∈ numbers, has words number = false)
    (below : ∀ number ∈ numbers, number < limit) :
    count (insertAll words numbers) limit = count words limit + numbers.length := by
  induction numbers generalizing words with
  | nil => rfl
  | cons number numbers ih =>
    have step : insertAll words (number :: numbers) = insertAll (insert words number) numbers := rfl
    obtain ⟨apart, nodup⟩ := List.nodup_cons.mp nodup
    have stillFresh : ∀ u ∈ numbers, has (insert words number) u = false := by
      intro u isNumber
      have ne : u ≠ number := fun same => apart (same ▸ isNumber)
      rw [has_insert pos, fresh u (List.mem_cons_of_mem _ isNumber)]
      simp [ne]
    rw [step, ih nodup stillFresh fun u isNumber =>
        below u (List.mem_cons_of_mem _ isNumber),
      count_insert pos (fresh number List.mem_cons_self) (below number List.mem_cons_self),
      List.length_cons]
    omega

end RtThread.WordSet
