import Mathlib.Data.Nat.Bitwise

/-!
# The first bit set

`__rt_ffs` of the kernel service library, which looks the lowest set bit of a byte up in
a table, and what it computes.
-/

namespace RtThread

def lowestBitBitmap : List Nat :=
  [ 0, 0, 1, 0, 2, 0, 1, 0, 3, 0, 1, 0, 2, 0, 1, 0, 4, 0, 1, 0, 2, 0, 1, 0, 3, 0, 1, 0, 2, 0, 1, 0,
    5, 0, 1, 0, 2, 0, 1, 0, 3, 0, 1, 0, 2, 0, 1, 0, 4, 0, 1, 0, 2, 0, 1, 0, 3, 0, 1, 0, 2, 0, 1, 0,
    6, 0, 1, 0, 2, 0, 1, 0, 3, 0, 1, 0, 2, 0, 1, 0, 4, 0, 1, 0, 2, 0, 1, 0, 3, 0, 1, 0, 2, 0, 1, 0,
    5, 0, 1, 0, 2, 0, 1, 0, 3, 0, 1, 0, 2, 0, 1, 0, 4, 0, 1, 0, 2, 0, 1, 0, 3, 0, 1, 0, 2, 0, 1, 0,
    7, 0, 1, 0, 2, 0, 1, 0, 3, 0, 1, 0, 2, 0, 1, 0, 4, 0, 1, 0, 2, 0, 1, 0, 3, 0, 1, 0, 2, 0, 1, 0,
    5, 0, 1, 0, 2, 0, 1, 0, 3, 0, 1, 0, 2, 0, 1, 0, 4, 0, 1, 0, 2, 0, 1, 0, 3, 0, 1, 0, 2, 0, 1, 0,
    6, 0, 1, 0, 2, 0, 1, 0, 3, 0, 1, 0, 2, 0, 1, 0, 4, 0, 1, 0, 2, 0, 1, 0, 3, 0, 1, 0, 2, 0, 1, 0,
    5, 0, 1, 0, 2, 0, 1, 0, 3, 0, 1, 0, 2, 0, 1, 0, 4, 0, 1, 0, 2, 0, 1, 0, 3, 0, 1, 0, 2, 0, 1, 0 ]

def rtFfs (value : BitVec 32) : Nat :=
  if value = 0 then 0
  else if value &&& 0xff ≠ 0 then lowestBitBitmap.getD (value &&& 0xff).toNat 0 + 1
  else if value &&& 0xff00 ≠ 0 then lowestBitBitmap.getD ((value &&& 0xff00) >>> 8).toNat 0 + 9
  else if value &&& 0xff0000 ≠ 0 then
    lowestBitBitmap.getD ((value &&& 0xff0000) >>> 16).toNat 0 + 17
  else lowestBitBitmap.getD ((value &&& 0xff000000) >>> 24).toNat 0 + 25

def IsLowestBit {width : Nat} (value : BitVec width) (p : Nat) : Prop :=
  value.getLsbD p = true ∧ ∀ below < p, value.getLsbD below = false

theorem lowestBitBitmap_spec : ∀ byte : Fin 256, byte.val ≠ 0 →
    lowestBitBitmap.getD byte 0 < 8 ∧ byte.val.testBit (lowestBitBitmap.getD byte 0) = true ∧
      ∀ below < lowestBitBitmap.getD byte 0, byte.val.testBit below = false := by
  decide +kernel

theorem getLsbD_byte (v : BitVec 32) {shift : Nat} (inWord : shift ≤ 24) (p : Nat) :
    ((v &&& (0xff#32 <<< shift)) >>> shift).getLsbD p =
      (decide (p < 8) && v.getLsbD (shift + p)) := by
  have mask : (0xff#32).getLsbD p = decide (p < 8) := by
    have allOnes : 0xff#32 = BitVec.ofNat 32 (2 ^ 8 - 1) := by decide
    rw [allOnes, BitVec.getLsbD_ofNat, Nat.testBit_two_pow_sub_one]
    by_cases low : p < 8
    · simp
      omega
    · simp [low]
  by_cases low : p < 8
  · have inside : shift + p < 32 := by omega
    simp [low, inside, mask]
  · simp [low, mask]

theorem isLowestBit_byte {v : BitVec 32} {shift : Nat} (inWord : shift ≤ 24)
    (nonzero : v &&& (0xff#32 <<< shift) ≠ 0) (lower : ∀ below < shift, v.getLsbD below = false) :
    IsLowestBit v
      (lowestBitBitmap.getD ((v &&& (0xff#32 <<< shift)) >>> shift).toNat 0 + shift) := by
  have bits := getLsbD_byte v inWord
  generalize isByte : (v &&& (0xff#32 <<< shift)) >>> shift = byte at *
  have small : byte.toNat < 256 := by
    apply Nat.lt_pow_two_of_testBit (n := 8)
    intro p high
    have := bits p
    rw [BitVec.getLsbD] at this
    rw [this]
    simp [Nat.not_lt.mpr high]
  have notZero : byte.toNat ≠ 0 := by
    intro isZero
    apply nonzero
    apply BitVec.eq_of_getLsbD_eq
    intro p inside
    by_cases low : p < shift
    · simp [low]
    · have zeroBit : byte.getLsbD (p - shift) = false := by
        rw [BitVec.getLsbD, isZero, Nat.zero_testBit]
      rw [← isByte, BitVec.getLsbD_ushiftRight, show shift + (p - shift) = p by omega]
        at zeroBit
      rw [zeroBit]
      simp
  obtain ⟨inByte, isSet, lowest⟩ := lowestBitBitmap_spec ⟨byte.toNat, small⟩ notZero
  simp only at inByte isSet lowest
  constructor
  · have := bits (lowestBitBitmap.getD byte.toNat 0)
    rw [BitVec.getLsbD, isSet] at this
    simp only [inByte] at this
    rw [Nat.add_comm]
    exact this.symm
  · intro below isBelow
    by_cases low : below < shift
    · exact lower below low
    · have := bits (below - shift)
      rw [BitVec.getLsbD, lowest _ (by omega), show shift + (below - shift) =
        below by omega] at this
      have inByte' : below - shift < 8 := by omega
      simpa [inByte'] using this.symm

theorem rtFfs_isLowestBit {v : BitVec 32} (nonzero : v ≠ 0) :
    ∃ p, rtFfs v = p + 1 ∧ IsLowestBit v p := by
  -- a byte of zeros extends the zeros below it
  have extend : ∀ shift, shift ≤ 24 → (∀ below < shift, v.getLsbD below = false) →
      v &&& (0xff#32 <<< shift) = 0 → ∀ below < shift + 8, v.getLsbD below = false := by
    intro shift inWord lower isZero below isBelow
    by_cases low : below < shift
    · exact lower below low
    · have bit := getLsbD_byte v inWord (below - shift)
      rw [isZero] at bit
      have inByte : below - shift < 8 := by omega
      simpa [inByte, show shift + (below - shift) = below by omega] using bit.symm
  have lowest := fun shift inWord => @isLowestBit_byte v shift inWord
  unfold rtFfs
  rw [if_neg nonzero]
  split
  · next a => exact ⟨_, rfl, lowest 0 (by decide) a (by simp)⟩
  · rename_i a
    have lower8 := extend 0 (by decide) (by simp) (not_not.mp a)
    split
    · next second => exact ⟨_, rfl, lowest 8 (by decide) second lower8⟩
    · rename_i second
      have lower16 := extend 8 (by decide) lower8 (not_not.mp second)
      split
      · next third => exact ⟨_, rfl, lowest 16 (by decide) third lower16⟩
      · rename_i third
        have lower24 := extend 16 (by decide) lower16 (not_not.mp third)
        refine ⟨_, rfl, lowest 24 (by decide) (fun fourth => ?_) lower24⟩
        have lower32 := extend 24 (by decide) lower24 fourth
        apply nonzero
        apply BitVec.eq_of_getLsbD_eq
        intro p inside
        simpa using lower32 p inside

theorem IsLowestBit.unique {width p u : Nat} {v : BitVec width}
    (a : IsLowestBit v p) (second : IsLowestBit v u) : p = u := by
  rcases Nat.lt_trichotomy p u with less | same | more
  · exact absurd a.1 (by simp [second.2 p less])
  · exact same
  · exact absurd (a.2 u more) (by simp [second.1])

theorem rtFfs_eq {v : BitVec 32} {p : Nat} (lowest : IsLowestBit v p) : rtFfs v = p + 1 := by
  have nonzero : v ≠ 0 := by
    rintro rfl
    simpa using lowest.1
  obtain ⟨found, result, isLowest⟩ := rtFfs_isLowestBit nonzero
  rw [result, isLowest.unique lowest]

end RtThread
