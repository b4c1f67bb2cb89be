import Mathlib.Data.List.Basic
import Mathlib.Data.List.TakeWhile

/-!
# Rows of a skip list

Every row of a skip list is a sublist of the row below it.
-/

universe u

namespace SkipList

variable {α : Type u} {passes : α → Bool}

/-- A search passes the entries `front` of a row and stops before `back`. -/
structure Cut (passes : α → Bool) (row front back : List α) : Prop where
  split : row = front ++ back
  passed : ∀ last, front.getLast? = some last → passes last = true
  stopped : ∀ next, back.head? = some next → passes next = false

theorem Cut.of_takeWhile {row start rest : List α} (split : row = start ++ rest)
    (passed : ∀ last, start.getLast? = some last → passes last = true) :
    Cut passes row (start ++ rest.takeWhile passes) (rest.dropWhile passes) where
  split := by rw [split, List.append_assoc, List.takeWhile_append_dropWhile]
  passed := by
    intro last isLast
    rw [List.getLast?_append] at isLast
    cases lastTaken : (rest.takeWhile passes).getLast? with
    | none =>
      rw [lastTaken, Option.none_or] at isLast
      exact passed last isLast
    | some other =>
      rw [lastTaken, Option.some_or, Option.some.injEq] at isLast
      subst isLast
      exact List.mem_takeWhile_imp (List.mem_of_getLast? lastTaken)
  stopped := by
    intro next isHead
    have stops := List.head?_dropWhile_not passes rest
    rw [isHead] at stops
    simpa using stops

theorem sublist_dropWhile {back rest : List α}
    (stopped : ∀ next, back.head? = some next → passes next = false)
    (sublist : back.Sublist rest) : back.Sublist (rest.dropWhile passes) := by
  induction rest with
  | nil => simpa using sublist
  | cons e rest ih =>
    cases passesEntry : passes e with
    | false => rwa [List.dropWhile_cons_of_neg (by simp [passesEntry])]
    | true =>
      rw [List.dropWhile_cons_of_pos passesEntry]
      apply ih
      cases sublist with
      | cons _ sublist => exact sublist
      | cons_cons _ _ =>
        have := stopped e rfl
        simp [passesEntry] at this

theorem exists_start_below {upper lower front back : List α} (split : upper = front ++ back)
    (sublist : upper.Sublist lower) :
    ∃ start rest, lower = start ++ rest ∧ start.getLast? = front.getLast? ∧
      front.Sublist start ∧ back.Sublist rest := by
  subst split
  rcases List.eq_nil_or_concat' front with rfl | ⟨front, last, rfl⟩
  · exact ⟨[], lower, rfl, rfl, List.Sublist.refl _, sublist⟩
  · rw [List.append_assoc, List.singleton_append] at sublist
    obtain ⟨before, s', rfl, beforeLast, fromLast⟩ := List.append_sublist_iff.mp sublist
    obtain ⟨upTo, rest, rfl, lastMem, behind⟩ := List.cons_sublist_iff.mp fromLast
    obtain ⟨prior, tail, rfl⟩ := List.append_of_mem lastMem
    refine ⟨before ++ prior ++ [last], tail ++ rest, by simp, by simp, ?_, ?_⟩
    · apply List.Sublist.append _ (List.Sublist.refl _)
      exact beforeLast.trans (List.sublist_append_left _ _)
    · exact behind.trans (List.sublist_append_right _ _)

theorem sublist_insert {front back front' back' : List α} (n : α) (fronts : front.Sublist front')
    (backs : back.Sublist back') : (front ++ n :: back).Sublist (front' ++ n :: back') :=
  fronts.append (backs.cons_cons n)

section Sorted

variable {before : α → α → Prop} {row front back : List α}

theorem Cut.passes_iff (cut : Cut passes row front back) (sorted : row.Pairwise before)
    (closed : ∀ a ∈ row, ∀ second ∈ row, before a second → passes second = true → passes a = true) :
    (∀ e ∈ front, passes e = true) ∧ ∀ e ∈ back, passes e = false := by
  obtain ⟨split, passed, stopped⟩ := cut
  subst split
  obtain ⟨sortedFront, sortedBack, _⟩ := List.pairwise_append.mp sorted
  constructor
  · intro e inFront
    rcases List.eq_nil_or_concat' front with rfl | ⟨front, last, rfl⟩
    · simp at inFront
    · have passesLast := passed last (by simp)
      rcases List.mem_append.mp inFront with earlier | isLast
      · have ordered := (List.pairwise_append.mp sortedFront).2.2 e earlier last
          (List.mem_singleton_self _)
        exact closed e (by simp [earlier]) last (by simp) ordered passesLast
      · rw [List.mem_singleton.mp isLast]
        exact passesLast
  · intro e inBack
    cases back with
    | nil => simp at inBack
    | cons next back =>
      have stops := stopped next rfl
      rcases List.mem_cons.mp inBack with rfl | later
      · exact stops
      · have ordered := (List.pairwise_cons.mp sortedBack).1 e later
        by_contra passesEntry
        have := closed next (by simp) e (by simp [later]) ordered (by simpa using passesEntry)
        simp [this] at stops

theorem Cut.pairwise_insert (cut : Cut passes row front back) (sorted : row.Pairwise before)
    (closed : ∀ a ∈ row, ∀ second ∈ row, before a second → passes second = true → passes a = true)
    {n : α} (earlier : ∀ e ∈ row, passes e = true → before e n)
    (later : ∀ e ∈ row, passes e = false → before n e) : (front ++ n :: back).Pairwise before := by
  obtain ⟨allPassed, nonePassed⟩ := cut.passes_iff sorted closed
  have split := cut.split
  subst split
  obtain ⟨sortedFront, sortedBack, across⟩ := List.pairwise_append.mp sorted
  have nodeFirst : ∀ e ∈ back, before n e := fun e inBack =>
    later e (List.mem_append_right _ inBack) (nonePassed e inBack)
  apply List.pairwise_append.mpr
  refine ⟨sortedFront, List.pairwise_cons.mpr ⟨nodeFirst, sortedBack⟩, ?_⟩
  intro e inFront other inRest
  rcases List.mem_cons.mp inRest with rfl | inBack
  · exact earlier e (List.mem_append_left _ inFront) (allPassed e inFront)
  · exact across e inFront other inBack

end Sorted

end SkipList
