import Mathlib.Algebra.Ring.Nat
import Mathlib.Data.Nat.ModEq

/-!
# Numbers in bytes

A memory maps addresses to bytes; a number takes some of them, the lowest digit first.
-/

namespace RtThread.LittleEndian

variable {m u : Nat → BitVec 8} {address count value : Nat}

def load (m : Nat → BitVec 8) : (address count : Nat) → Nat
  | _, 0 => 0
  | address, count + 1 => (m address).toNat + 256 * load m (address + 1) count

/-- The memory with a number in `count` bytes from `address` on. -/
def store (m : Nat → BitVec 8) (address count value : Nat) : Nat → BitVec 8 := fun p =>
  if address ≤ p ∧ p < address + count then
    BitVec.ofNat 8 (value / 256 ^ (p - address))
  else m p

theorem store_outside {p : Nat} (outside : p < address ∨ address + count ≤ p) :
    store m address count value p = m p := by
  rw [store, if_neg (by omega)]

theorem load_congr (same : ∀ p, address ≤ p → p < address + count →
    u p = m p) : load u address count = load m address count := by
  induction count generalizing address with
  | zero => rfl
  | succ count ih =>
    rw [load, load, same address (Nat.le_refl _) (by omega), ih]
    exact fun p above below => same p (by omega) (by omega)

theorem load_store_of_apart {p n : Nat} (apart : p + n ≤ address ∨ address + count ≤ p) :
    load (store m address count value) p n = load m p n := by
  apply load_congr
  intro byte above below
  exact store_outside (by omega)

theorem load_digits (digits : ∀ i < count, m (address + i) = BitVec.ofNat 8 (value / 256 ^ i)) :
    load m address count = value % 256 ^ count := by
  induction count generalizing address value with
  | zero => rw [load, Nat.pow_zero, Nat.mod_one]
  | succ count ih =>
    have first : (m address).toNat = value % 256 := by
      have := digits 0 (by omega)
      rw [Nat.add_zero, Nat.pow_zero, Nat.div_one] at this
      rw [this, BitVec.toNat_ofNat]
    have rest : load m (address + 1) count = value / 256 % 256 ^ count := by
      apply ih
      intro i below
      have := digits (i + 1) (by omega)
      rw [Nat.pow_succ', ← Nat.div_div_eq_div_mul] at this
      rw [Nat.add_assoc, Nat.add_comm 1, this]
    rw [load, first, rest, Nat.pow_succ', Nat.mod_mul]

theorem load_store (fits : value < 256 ^ count) :
    load (store m address count value) address count = value := by
  rw [load_digits, Nat.mod_eq_of_lt fits]
  intro i below
  rw [store, if_pos (by omega), Nat.add_sub_cancel_left]

theorem load_lt (m : Nat → BitVec 8) (address count : Nat) :
    load m address count < 256 ^ count := by
  induction count generalizing address with
  | zero => exact Nat.zero_lt_one
  | succ count ih =>
    have rest := ih (address + 1)
    rw [load, Nat.pow_succ']
    omega

end RtThread.LittleEndian
