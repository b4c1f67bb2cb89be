import Mathlib.Algebra.BigOperators.Group.Finset.Piecewise
import Mathlib.Data.Fintype.Basic

/-!
# Counting the elements that satisfy a test

A step of a concurrent system changes what one party does, so a count over all
parties changes by at most one.
-/

universe u

variable {Element : Type u} [Fintype Element] [DecidableEq Element]

def countOf (test : Element → Bool) : Nat :=
  (Finset.univ.filter fun element => test element = true).card

omit [DecidableEq Element] in
theorem countOf_eq_sum (test : Element → Bool) :
    countOf test = ∑ element, (test element).toNat := by
  rw [countOf, Finset.card_filter]
  refine Finset.sum_congr rfl fun element _ => ?_
  cases test element <;> rfl

theorem countOf_add_of_agree {test other : Element → Bool} (element : Element)
    (agree : ∀ x, x ≠ element → test x = other x) :
    countOf test + (other element).toNat = countOf other + (test element).toNat := by
  have rest : ∑ x ∈ Finset.univ.erase element, (test x).toNat =
      ∑ x ∈ Finset.univ.erase element, (other x).toNat :=
    Finset.sum_congr rfl fun x mem => by rw [agree x (Finset.ne_of_mem_erase mem)]
  have first := Finset.add_sum_erase Finset.univ (fun x => (test x).toNat) (Finset.mem_univ element)
  have second := Finset.add_sum_erase Finset.univ (fun x => (other x).toNat)
    (Finset.mem_univ element)
  rw [countOf_eq_sum, countOf_eq_sum]
  omega

omit [DecidableEq Element] in
theorem countOf_congr {test other : Element → Bool} (agree : ∀ x, test x = other x) :
    countOf test = countOf other := by
  rw [funext agree]

omit [DecidableEq Element] in
theorem countOf_eq_zero {test : Element → Bool} (none : ∀ x, test x = false) :
    countOf test = 0 := by
  rw [countOf_eq_sum]
  exact Finset.sum_eq_zero fun x _ => by simp [none x]

theorem countOf_le_succ_of_agree {test other : Element → Bool} (element : Element)
    (agree : ∀ x, x ≠ element → test x = other x) : countOf test ≤ countOf other + 1 := by
  have := countOf_add_of_agree element agree
  have := (test element).toNat_le
  omega

theorem sum_update_add {Value : Type u} (weight : Value → Nat) (v : Element → Value)
    (element : Element) (new : Value) :
    (∑ x, weight (Function.update v element new x)) + weight (v element) =
      (∑ x, weight (v x)) + weight new := by
  have rest : ∑ x ∈ Finset.univ.erase element, weight (Function.update v element new x) =
      ∑ x ∈ Finset.univ.erase element, weight (v x) :=
    Finset.sum_congr rfl fun x mem => by
      rw [Function.update_of_ne (Finset.ne_of_mem_erase mem)]
  have first := Finset.add_sum_erase Finset.univ
    (fun x => weight (Function.update v element new x)) (Finset.mem_univ element)
  have second := Finset.add_sum_erase Finset.univ (fun x => weight (v x))
    (Finset.mem_univ element)
  simp only [Function.update_self] at first
  omega

theorem le_sum (weight : Element → Nat) (a : Element) : weight a ≤ ∑ x, weight x := by
  have all := Finset.add_sum_erase Finset.univ weight (Finset.mem_univ a)
  omega
