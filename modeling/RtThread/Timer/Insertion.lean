import RtThread.Timer.Basic

/-!
# The insertion of a timer

The search of `rt_timer_start` cuts every row of the list in two, each row from below the
place of the row above; the timer is then put in at these places, from the last row up.
-/

namespace RtThread.Timer

open SkipList
open Function (update_of_ne update_self update)

universe u

variable {Tmr : Type u}

/-- The node behind which a row goes on when the timers `front` are passed. -/
def placeIn (list : TimerList) (row : Nat) (front : List Tmr) : Node Tmr :=
  Links.placeOf (list, row) (front.map fun t => ⟨t, row⟩)

@[simp] theorem placeIn_nil (list : TimerList) (row : Nat) :
    placeIn list row ([] : List Tmr) = .head (list, row) := rfl

variable {row top : Nat} {s' : Timers Tmr}

theorem rowBelow_placeIn {list : TimerList} {front start : List Tmr}
    (sameLast : start.getLast? = front.getLast?) :
    rowBelow (placeIn list row front) = placeIn list (row + 1) start := by
  unfold placeIn Links.placeOf
  rw [List.getLast?_map, List.getLast?_map, sameLast]
  cases front.getLast? <;> rfl

/-- The places that a search up to the row `last` has found. -/
structure Found (s : Timers Tmr) (rows : TimerList × Nat → List Tmr) (timeout : BitVec 32)
    (list : TimerList) (last : Nat) (rowHead : Nat → Node Tmr) (fronts backs : Nat → List Tmr) :
    Prop where
  place : ∀ row ≤ last, rowHead row = placeIn list row (fronts row)
  cut : ∀ row ≤ last, Cut (s.passes timeout) (rows (list, row)) (fronts row) (backs row)
  fronts : ∀ row < last, (fronts row).Sublist (fronts (row + 1))
  backs : ∀ row < last, (backs row).Sublist (backs (row + 1))

section Search

variable {cfg : Config} {s : Timers Tmr} {rows : TimerList × Nat → List Tmr}
  [DecidableEq Tmr]

theorem searchRow_eq (rep : s.links.Represents (nodesOf rows)) (timeout : BitVec 32)
    {list : TimerList} {fuel : Nat} {start rest : List Tmr}
    (split : rows (list, row) = start ++ rest) (enough : rest.length < fuel) :
    s.searchRow timeout (s.links.prev (.head (list, row))) fuel (placeIn list row start) =
      some (placeIn list row (start ++ rest.takeWhile (s.passes timeout))) := by
  induction rest generalizing start fuel with
  | nil =>
    obtain ⟨fuel, rfl⟩ := Nat.exists_eq_add_one_of_ne_zero (Nat.ne_zero_of_lt enough)
    have nodesSplit : nodesOf rows (list, row) = (start.map fun t => ⟨t, row⟩) ++ [] := by
      simp [nodesOf, split]
    have atEnd : placeIn list row start = s.links.prev (.head (list, row)) :=
      (rep.placeOf_eq_prev_head_iff nodesSplit).mpr rfl
    simp [Timers.searchRow, atEnd]
  | cons t rest ih =>
    obtain ⟨fuel, rfl⟩ := Nat.exists_eq_add_one_of_ne_zero (Nat.ne_zero_of_lt enough)
    have nodesSplit : nodesOf rows (list, row) =
        (start.map fun t => ⟨t, row⟩) ++ (t :: rest).map fun t => ⟨t, row⟩ := by
      simp [nodesOf, split]
    have notAtEnd : placeIn list row start ≠ s.links.prev (.head (list, row)) := by
      rw [placeIn, Ne, rep.placeOf_eq_prev_head_iff nodesSplit]
      simp
    have next : s.links.next (placeIn list row start) = .entry ⟨t, row⟩ := by
      rw [placeIn, rep.next_placeOf nodesSplit]
      rfl
    rw [Timers.searchRow, if_neg notAtEnd, next]
    cases passesT : s.passes timeout t with
    | false => simp [Timers.entryOf, passesT]
    | true =>
      have atNext : placeIn list row (start ++ [t]) = .entry ⟨t, row⟩ := by simp [placeIn]
      have splitNext : rows (list, row) = (start ++ [t]) ++ rest := by simp [split]
      have continued := ih splitNext (Nat.lt_of_succ_lt_succ enough)
      simpa [Timers.entryOf, passesT, atNext] using continued

theorem Rows.exists_found (holds : Rows cfg s rows) (timeout : BitVec 32)
    (list : TimerList) (inside : row < cfg.level) :
    ∃ rowHead fronts backs, s.searchRows timeout list row = some rowHead ∧
      Found s rows timeout list row rowHead fronts backs := by
  have enough : ∀ row, ∀ {start rest : List Tmr}, rows (list, row) = start ++ rest →
      rest.length < s.starts + 1 := by
    intro row start rest split
    have short := (holds.sublist_last list row).length_le.trans (holds.counted list)
    rw [split, List.length_append] at short
    omega
  induction row with
  | zero =>
    have searched := searchRow_eq holds.represents timeout (List.nil_append _).symm
      (enough 0 (List.nil_append _).symm)
    rw [placeIn_nil, List.nil_append] at searched
    refine ⟨_, fun _ => (rows (list, 0)).takeWhile (s.passes timeout),
      fun _ => (rows (list, 0)).dropWhile (s.passes timeout),
      by rw [Timers.searchRows, searched]; rfl, ?_, ?_, ?_, ?_⟩
    · intro row a
      obtain rfl := Nat.le_zero.mp a
      rfl
    · intro row a
      obtain rfl := Nat.le_zero.mp a
      exact Cut.of_takeWhile (List.nil_append _).symm (by simp)
    · exact fun row none => absurd none (Nat.not_lt_zero _)
    · exact fun row none => absurd none (Nat.not_lt_zero _)
  | succ row ih =>
    obtain ⟨rowHead, fronts, backs, searchedAbove, found⟩ := ih (Nat.lt_of_succ_lt inside)
    have cutAbove := found.cut row (Nat.le_refl _)
    obtain ⟨start, rest, split, sameLast, frontBelow, backBelow⟩ :=
      exists_start_below cutAbove.split (holds.sublist list row inside)
    have searched := searchRow_eq holds.represents timeout split (enough _ split)
    have cut : Cut (s.passes timeout) (rows (list, row + 1))
        (start ++ rest.takeWhile (s.passes timeout))
        (rest.dropWhile (s.passes timeout)) :=
      Cut.of_takeWhile split fun last isLast => cutAbove.passed last (sameLast ▸ isLast)
    have below : rowBelow (rowHead row) = placeIn list (row + 1) start := by
      rw [found.place row (Nat.le_refl _), rowBelow_placeIn sameLast]
    have result : s.searchRows timeout list (row + 1) = some (update rowHead (row + 1)
        (placeIn list (row + 1) (start ++ rest.takeWhile (s.passes timeout)))) := by
      rw [Timers.searchRows, searchedAbove, Option.bind_eq_bind, Option.bind_some, below, searched]
      rfl
    have kept : ∀ {α : Type u} (values : Nat → α) (v : α) {other : Nat}, other ≤ row →
        update values (row + 1) v other = values other := fun values v other _ =>
      update_of_ne (by omega) _ _
    refine ⟨_, update fronts (row + 1) (start ++ rest.takeWhile (s.passes timeout)),
      update backs (row + 1) (rest.dropWhile (s.passes timeout)), result, ?_, ?_, ?_, ?_⟩
    · intro other upTo
      rcases Nat.le_succ_iff.mp upTo with above | rfl
      · rw [kept _ _ above, kept _ _ above, found.place other above]
      · rw [update_self, update_self]
    · intro other upTo
      rcases Nat.le_succ_iff.mp upTo with above | rfl
      · rw [kept _ _ above, kept _ _ above]
        exact found.cut other above
      · rw [update_self, update_self]
        exact cut
    · intro other upTo
      rcases Nat.lt_succ_iff_lt_or_eq.mp upTo with above | rfl
      · rw [kept _ _ (Nat.le_of_lt above), kept _ _ above]
        exact found.fronts other above
      · rw [kept _ _ (Nat.le_refl _), update_self]
        exact frontBelow.trans (List.sublist_append_left _ _)
    · intro other upTo
      rcases Nat.lt_succ_iff_lt_or_eq.mp upTo with above | rfl
      · rw [kept _ _ (Nat.le_of_lt above), kept _ _ above]
        exact found.backs other above
      · rw [kept _ _ (Nat.le_refl _), update_self]
        exact sublist_dropWhile cutAbove.stopped backBelow

end Search

/-- The rows with a timer put in from the row `top` down. -/
def insertedRows (cfg : Config) (rows : TimerList × Nat → List Tmr) (list : TimerList)
    (t : Tmr) (fronts backs : Nat → List Tmr) (top : Nat) (head : TimerList × Nat) : List Tmr :=
  if head.1 = list ∧ top ≤ head.2 ∧ head.2 < cfg.level then
    fronts head.2 ++ t :: backs head.2
  else rows head

variable {rows : TimerList × Nat → List Tmr}

variable {fronts backs : Nat → List Tmr}

theorem insertedRows_of_le {cfg : Config} {list : TimerList} {t : Tmr} (below : top ≤ row)
    (inside : row < cfg.level) :
    insertedRows cfg rows list t fronts backs top (list, row) = fronts row ++ t :: backs row :=
  if_pos ⟨rfl, below, inside⟩

theorem insertedRows_of_lt {cfg : Config} {list : TimerList} {t : Tmr} (above : row < top) :
    insertedRows cfg rows list t fronts backs top (list, row) = rows (list, row) :=
  if_neg fun inserted => Nat.not_le.mpr above inserted.2.1

theorem insertedRows_of_ne {cfg : Config} {list other : TimerList} {t : Tmr} (ne : other ≠ list) :
    insertedRows cfg rows list t fronts backs top (other, row) = rows (other, row) :=
  if_neg fun inserted => ne inserted.1

section Insertion

variable {cfg : Config} {s : Timers Tmr} {rows : TimerList × Nat → List Tmr}
  [DecidableEq Tmr] {t : Tmr} {timeout : BitVec 32} {list : TimerList}
  {rowHead : Nat → Node Tmr} {fronts backs : Nat → List Tmr}

omit [DecidableEq Tmr] in
theorem insertedRows_sublist (holds : Rows cfg s rows)
    (found : Found s rows timeout list (cfg.level - 1) rowHead fronts backs) (top : Nat)
    (inside : row + 1 < cfg.level) :
    (insertedRows cfg rows list t fronts backs top (list, row)).Sublist
      (insertedRows cfg rows list t fronts backs top (list, row + 1)) := by
  have cutBelow := (found.cut (row + 1) (by omega)).split
  rcases Nat.lt_trichotomy (row + 1) top with above | atTop | below
  · rw [insertedRows_of_lt (Nat.lt_of_succ_lt above), insertedRows_of_lt above]
    exact holds.sublist list row inside
  · have kept : (rows (list, row + 1)).Sublist (fronts (row + 1) ++ t :: backs (row + 1)) := by
      rw [cutBelow]
      exact (List.Sublist.refl _).append (List.sublist_cons_self _ _)
    rw [insertedRows_of_lt (Nat.lt_of_lt_of_eq (Nat.lt_succ_self row) atTop),
      insertedRows_of_le (Nat.le_of_eq atTop.symm) inside]
    exact (holds.sublist list row inside).trans kept
  · rw [insertedRows_of_le (Nat.le_of_lt_succ below) (Nat.lt_of_succ_lt inside),
      insertedRows_of_le (Nat.le_of_lt below) inside]
    exact sublist_insert t (found.fronts row (by omega)) (found.backs row (by omega))

section

variable (found : Found s rows timeout list (cfg.level - 1) rowHead fronts backs)

include found

theorem represents_insertAfter (absent : ∀ head, t ∉ rows head) {links : Links (Node Tmr)}
    (inside : row < cfg.level)
    (rep : links.Represents (nodesOf (insertedRows cfg rows list t fronts backs (row + 1)))) :
    (links.insertAfter (rowHead row) (.entry ⟨t, row⟩)).Represents
      (nodesOf (insertedRows cfg rows list t fronts backs row)) := by
  have split : nodesOf (insertedRows cfg rows list t fronts backs (row + 1)) (list, row) =
      (fronts row).map (fun t => ⟨t, row⟩) ++ (backs row).map fun t => ⟨t, row⟩ := by
    have cut := (found.cut row (by omega)).split
    rw [nodesOf, insertedRows_of_lt (Nat.lt_succ_self row), cut, List.map_append]
  have fresh : ∀ head, ⟨t, row⟩ ∉
      nodesOf (insertedRows cfg rows list t fronts backs (row + 1)) head := by
    rintro ⟨other, p⟩ mem
    obtain ⟨inRow, rfl⟩ := mem_nodesOf.mp mem
    simp only [insertedRows, Nat.not_succ_le_self, false_and, and_false] at inRow
    exact absent _ inRow
  have updated : nodesOf (insertedRows cfg rows list t fronts backs row) =
      update (nodesOf (insertedRows cfg rows list t fronts backs (row + 1)))
        (list, row) ((fronts row).map (fun t => ⟨t, row⟩) ++
          ⟨t, row⟩ :: (backs row).map fun t => ⟨t, row⟩) := by
    funext head
    obtain ⟨other, p⟩ := head
    by_cases same : (other, p) = (list, row)
    · rw [same, update_self, nodesOf, insertedRows_of_le (Nat.le_refl _) inside]
      simp
    · rw [update_of_ne same]
      simp only [Prod.mk.injEq, not_and] at same
      have sameRows : (other = list ∧ row ≤ p ∧ p < cfg.level) ↔
          (other = list ∧ row + 1 ≤ p ∧ p < cfg.level) := by
        constructor
        · rintro ⟨rfl, atLeast, below⟩
          exact ⟨rfl, Nat.lt_of_le_of_ne atLeast (Ne.symm (same rfl)), below⟩
        · rintro ⟨rfl, above, below⟩
          exact ⟨rfl, Nat.le_of_lt above, below⟩
      simp only [nodesOf, insertedRows, sameRows]
  rw [found.place row (by omega), updated]
  exact rep.insertAfter_placeOf split fresh

theorem represents_insertAbove (absent : ∀ head, t ∉ rows head) {links : Links (Node Tmr)}
    (tstNr : BitVec 32) (inside : row < cfg.level)
    (rep : links.Represents (nodesOf (insertedRows cfg rows list t fronts backs row))) :
    ∃ top ≤ row, (insertAbove cfg rowHead t row tstNr links).Represents
      (nodesOf (insertedRows cfg rows list t fronts backs top)) := by
  induction row generalizing tstNr links with
  | zero => exact ⟨0, Nat.le_refl _, rep⟩
  | succ row ih =>
    rw [insertAbove]
    split
    · have inside := Nat.lt_of_succ_lt inside
      obtain ⟨top, below, above⟩ := ih (tstNr >>> ((cfg.mask + 1) >>> 1))
        inside (represents_insertAfter found absent inside rep)
      exact ⟨top, Nat.le_succ_of_le below, above⟩
    · exact ⟨row + 1, Nat.le_refl _, rep⟩

omit [DecidableEq Tmr] in
theorem mem_insertedRows_last (topLast : top ≤ cfg.level - 1) {other : TimerList} {u : Tmr} :
    u ∈ insertedRows cfg rows list t fronts backs top (other, cfg.level - 1) ↔
      other = list ∧ u = t ∨ u ∈ rows (other, cfg.level - 1) := by
  by_cases same : other = list
  · rw [same, insertedRows_of_le topLast (Nat.sub_one_lt_of_lt cfg.level_pos),
      (found.cut _ (Nat.le_refl _)).split]
    simp [or_left_comm]
  · rw [insertedRows_of_ne same]
    simp [same]

omit [DecidableEq Tmr] in
theorem length_insertedRows_last_le (topLast : top ≤ cfg.level - 1) (other : TimerList) :
    (insertedRows cfg rows list t fronts backs top (other, cfg.level - 1)).length ≤
      (rows (other, cfg.level - 1)).length + 1 := by
  by_cases same : other = list
  · rw [same, insertedRows_of_le topLast (Nat.sub_one_lt_of_lt cfg.level_pos),
      (found.cut _ (Nat.le_refl _)).split, List.length_append, List.length_append, List.length_cons]
    exact Nat.le_refl _
  · rw [insertedRows_of_ne same]
    exact Nat.le_succ _

end

structure InsertedIn (cfg : Config) (s : Timers Tmr) (t : Tmr)
    (rows rows' : TimerList × Nat → List Tmr) : Prop where
  cut : ∃ front back, Cut (s.passes (s.timer t).timeoutTick)
      (rows ((s.timer t).timerList, cfg.level - 1)) front back ∧
    rows' ((s.timer t).timerList, cfg.level - 1) = front ++ t :: back
  elsewhere : ∀ list, list ≠ (s.timer t).timerList →
    rows' (list, cfg.level - 1) = rows (list, cfg.level - 1)

theorem insert_fields (result : s.insert cfg t = some s') :
    s'.timer = update s.timer t (s.timer t).activate ∧ s'.tick = s.tick ∧
      s'.active = update s.active t true ∧ s'.startedAt = update s.startedAt t (s.starts + 1) ∧
      s'.starts = s.starts + 1 := by
  simp only [Timers.insert, Option.bind_eq_bind, Option.bind_eq_some_iff] at result
  obtain ⟨rowHead, -, result⟩ := result
  cases result
  exact ⟨rfl, rfl, rfl, rfl, rfl⟩

theorem Rows.insert (holds : Rows cfg s rows) (absent : ∀ head, t ∉ rows head) :
    ∃ s' rows', s.insert cfg t = some s' ∧ Rows cfg s' rows' ∧ InsertedIn cfg s t rows rows' := by
  have lastInside : cfg.level - 1 < cfg.level := Nat.sub_one_lt_of_lt cfg.level_pos
  obtain ⟨rowHead, fronts, backs, searched, found⟩ :=
    holds.exists_found (s.timer t).timeoutTick (s.timer t).timerList lastInside
  have noneYet : insertedRows cfg rows (s.timer t).timerList t fronts backs
      (cfg.level - 1 + 1) = rows := by
    funext head
    simp only [insertedRows, ite_eq_right_iff]
    rintro ⟨-, above, below⟩
    omega
  have atLast := represents_insertAfter found absent lastInside (noneYet ▸ holds.represents)
  obtain ⟨top, topLast, rep⟩ :=
    represents_insertAbove found absent (s.randomNr + 1) lastInside atLast
  obtain ⟨s', inserted, linksEq⟩ : ∃ s', s.insert cfg t = some s' ∧
      s'.links = insertAbove cfg rowHead t (cfg.level - 1) (s.randomNr + 1)
        (s.links.insertAfter (rowHead (cfg.level - 1)) (.entry ⟨t, cfg.level - 1⟩)) := by
    rw [Timers.insert, searched]
    exact ⟨_, rfl, rfl⟩
  obtain ⟨timerEq, -, activeEq, -, startsEq⟩ := insert_fields inserted
  have sameList : ∀ other, (s'.timer other).timerList = (s.timer other).timerList := by
    intro other
    rw [timerEq]
    by_cases same : other = t
    · rw [same, update_self, RtTimer.timerList_activate]
    · rw [update_of_ne same]
  have lastCut := found.cut (cfg.level - 1) (Nat.le_refl _)
  refine ⟨s', insertedRows cfg rows (s.timer t).timerList t fronts backs top, inserted,
    ⟨linksEq ▸ rep, ?_, ?_, ?_, ?_, ?_⟩, ⟨⟨_, _, lastCut, insertedRows_of_le topLast lastInside⟩,
      fun other ne => insertedRows_of_ne ne⟩⟩
  · intro other row above
    rw [insertedRows, if_neg fun inserted => Nat.not_lt.mpr above inserted.2.2]
    exact holds.outside other row above
  · intro other row inside
    by_cases same : other = (s.timer t).timerList
    · rw [same]
      exact insertedRows_sublist holds found top inside
    · rw [insertedRows_of_ne same, insertedRows_of_ne same]
      exact holds.sublist other row inside
  · intro other u mem
    rw [sameList]
    rcases (mem_insertedRows_last found topLast).mp mem with ⟨rfl, rfl⟩ | earlier
    · rfl
    · exact holds.ownList other u earlier
  · intro u
    rw [sameList, activeEq, mem_insertedRows_last found topLast]
    by_cases same : u = t
    · simp [same]
    · rw [update_of_ne same, holds.active]
      simp [same]
  · intro other
    rw [startsEq]
    exact (length_insertedRows_last_le found topLast other).trans
      (Nat.succ_le_succ (holds.counted other))

theorem Rows.rtTimerStart (holds : Rows cfg s rows) (isTimer : (s.timer t).isTimer)
    (short : (s.timer t).initTick < halfRange) :
    ∃ s' rows', s.rtTimerStart cfg t = some s' ∧ Rows cfg s' rows' ∧
      InsertedIn cfg (s.prepareStart cfg t) t (fun head => (rows head).erase t) rows' := by
  have prepared : Rows cfg (s.prepareStart cfg t) fun head => (rows head).erase t :=
    (holds.remove t).setTimer (RtTimer.timerList_deactivate _)
  have absent : ∀ head, t ∉ (rows head).erase t := fun head => (holds.nodup head).not_mem_erase
  obtain ⟨s', rows', inserted, kept, p⟩ := prepared.insert absent
  exact ⟨s', rows', by rw [Timers.rtTimerStart, if_pos ⟨isTimer, short⟩, inserted], kept, p⟩

theorem asserted_of_rtTimerStart (result : s.rtTimerStart cfg t = some s') :
    (s.timer t).isTimer ∧ (s.timer t).initTick < halfRange := by
  rw [Timers.rtTimerStart] at result
  split_ifs at result with asserted
  exact asserted

theorem rtTimerStart_fields (result : s.rtTimerStart cfg t = some s') :
    s'.timer = update s.timer t
        { (s.timer t).deactivate.activate with
          timeoutTick := s.tick + (s.timer t).initTick } ∧
      s'.tick = s.tick ∧
      s'.active = update s.active t true ∧
      s'.startedAt = update s.startedAt t (s.starts + 1) ∧
      s'.starts = s.starts + 1 := by
  rw [Timers.rtTimerStart] at result
  split_ifs at result
  obtain ⟨timerEq, tickEq, activeEq, startedAtEq, startsEq⟩ := insert_fields result
  refine ⟨?_, tickEq, ?_, startedAtEq, startsEq⟩
  · funext u
    rw [timerEq]
    by_cases same : u = t
    · simp [same, Timers.prepareStart, RtTimer.activate, RtTimer.deactivate]
    · simp [same, Timers.prepareStart]
  · funext u
    rw [activeEq]
    by_cases same : u = t
    · simp [same]
    · simp [same, Timers.prepareStart]

end Insertion

end RtThread.Timer
