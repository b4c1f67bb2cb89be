import RtThread.Timer.Standing

/-!
# What one call of `rt_timer_check` expires

The timeout functions make no calls, so the loop only meets the timers that it re-arms itself.
-/

open Function (update_self update_of_ne)

namespace RtThread.Timer

open SkipList

universe u

variable {Tmr : Type u} {s : Timers Tmr} {t : Tmr}

theorem cut_congr {α : Type u} {passes passes' : α → Bool} {row front back : List α}
    (cut : Cut passes row front back) (same : ∀ e ∈ row, passes e = passes' e) :
    Cut passes' row front back where
  split := cut.split
  passed last isLast := by
    rw [← same last (cut.split ▸ List.mem_append_left _ (List.mem_of_getLast? isLast))]
    exact cut.passed last isLast
  stopped next isHead := by
    rw [← same next (cut.split ▸ List.mem_append_right _ (List.mem_of_head? isHead))]
    exact cut.stopped next isHead

theorem cut_behind {α : Type u} {passes : α → Bool} {passed others front back : List α}
    (cut : Cut passes (passed ++ others) front back) (all : ∀ e ∈ passed, passes e = true) :
    ∃ front', front = passed ++ front' ∧ others = front' ++ back ∧
      ∀ last ∈ front'.getLast?, passes last = true := by
  rcases List.append_eq_append_iff.mp cut.split with ⟨front', rfl, rfl⟩ | ⟨missed, rfl, isBack⟩
  · refine ⟨front', rfl, rfl, fun last isLast => cut.passed last ?_⟩
    rw [List.getLast?_append, Option.mem_def.mp isLast, Option.some_or]
  · cases missed with
    | nil => exact ⟨[], by simp, by simpa using isBack.symm, by simp⟩
    | cons next missed =>
      have stops := cut.stopped next (by simp [isBack])
      rw [all next (by simp)] at stops
      cases stops

/-- The timeout is reached, but not now. -/
def Ahead (s : Timers Tmr) (t : Tmr) : Prop :=
  (s.timer t).timeoutTick - s.tick ≠ 0 ∧ (s.timer t).timeoutTick - s.tick < halfRange

theorem Ahead.not_due (ahead : Ahead s t) : ¬s.Due s.tick t := by
  unfold Ahead halfRange at ahead
  unfold Timers.Due halfRange
  bv_omega

theorem Ahead.not_passes (ahead : Ahead s t) : s.passes s.tick t = false := by
  simpa [Timers.passes, Ahead] using ahead

theorem due_of_now (now : (s.timer t).timeoutTick = s.tick) : s.Due s.tick t := by
  rw [Timers.Due, now, sub_self]
  decide

theorem passes_of_now {init : BitVec 32} (now : (s.timer t).timeoutTick = s.tick)
    (short : init < halfRange) : s.passes (s.tick + init) t = true := by
  rw [Timers.passes, now, decide_eq_true_iff]
  unfold halfRange at *
  bv_omega

theorem ahead_of_before {u : Tmr} (before : s.Before t u) (due : s.Due s.tick t)
    (notDue : ¬s.Due s.tick u) : Ahead s u := by
  have near := before.1
  unfold Timers.Due halfRange at *
  unfold Ahead halfRange
  bv_omega

variable [DecidableEq Tmr]

/-- `rt_timer_check` with timeout functions that touch no timers: the timers that it invokes,
and what it leaves.  Without a result it has not ended after that many turns. -/
def Timers.rtTimerCheck (cfg : Config) : Nat → Timers Tmr → Option (List Tmr × Timers Tmr)
  | 0, _ => none
  | turns + 1, s =>
    match entryOf (s.links.next (.head (.hard, cfg.level - 1))) with
    | none => some ([], s)
    | some t =>
      if s.Due s.tick t then
        ((s.remove cfg t).afterTimeout cfg t).bind fun after =>
          (rtTimerCheck cfg turns after).map fun (invoked, last) => (t :: invoked, last)
      else some ([], s)

section

variable {cfg : Config} {rows : TimerList × Nat → List Tmr} {rest zeros later : List Tmr}

def Rearms (s : Timers Tmr) (t : Tmr) : Prop := (s.timer t).Periodic ∧ (s.timer t).Activated

instance (s : Timers Tmr) (t : Tmr) : Decidable (Rearms s t) := instDecidableAnd

/-- What a turn of the loop leaves, which has invoked `t` at the head of the list. -/
structure Turned (cfg : Config) (s : Timers Tmr) (t : Tmr) (rest : List Tmr)
    (after : Timers Tmr) (row : List Tmr) : Prop where
  linked : ∃ rows, Rows cfg after rows ∧ rows (.hard, cfg.level - 1) = row
  tick : after.tick = s.tick
  others : ∀ u, u ≠ t → after.timer u = s.timer u ∧ after.active u = s.active u
  rearmed : Rearms s t →
    (∃ front back, Cut (s.passes (s.tick + (s.timer t).initTick)) rest front back ∧
      row = front ++ t :: back) ∧
    (after.timer t).timeoutTick = s.tick + (s.timer t).initTick ∧ after.active t = true
  stopped : ¬Rearms s t →
    row = rest ∧ after.active t = false ∧ ¬(after.timer t).Activated

theorem turned (holds : Rows cfg s rows) (isRow : rows (.hard, cfg.level - 1) = t :: rest)
    (accepted : (s.timer t).isTimer ∧ (s.timer t).initTick < halfRange) :
    ∃ s' row, (s.remove cfg t).afterTimeout cfg t = some s' ∧ Turned cfg s t rest s' row := by
  have nodup := holds.nodup (.hard, cfg.level - 1)
  rw [isRow] at nodup
  have absent := (List.nodup_cons.mp nodup).1
  have own := holds.ownList .hard t (isRow ▸ List.mem_cons_self)
  have removed : Rows cfg ((s.remove cfg t).setTimer t (s.timer t).deactivate)
      fun head => (rows head).erase t :=
    (holds.remove t).setTimer (RtTimer.timerList_deactivate _)
  by_cases rearms : Rearms s t
  · obtain ⟨s', rows', started, linked, inserted⟩ :=
      removed.rtTimerStart (t := t) (by simpa [RtTimer.deactivate] using accepted.1)
        (by simpa [RtTimer.deactivate] using accepted.2)
    obtain ⟨timer, tick, active, -, -⟩ := rtTimerStart_fields started
    obtain ⟨front, back, cut, isRow'⟩ := inserted.cut
    have list : ((((s.remove cfg t).setTimer t (s.timer t).deactivate).prepareStart cfg t).timer
        t).timerList = .hard := by
      simp only [Timers.prepareStart, Timers.setTimer_timer]
      exact ((RtTimer.timerList_deactivate _).trans (RtTimer.timerList_deactivate _)).trans own
    rw [list] at cut isRow'
    simp only [isRow, List.erase_cons_head, List.erase_of_not_mem absent] at cut
    refine ⟨s', _, (if_pos rearms).trans started, ⟨_, linked, rfl⟩, tick, fun u ne => ?_,
      fun _ => ⟨⟨front, back, cut_congr cut fun u mem => ?_, isRow'⟩, ?_, ?_⟩, fun stops =>
        absurd rearms stops⟩
    · rw [timer, active, update_of_ne ne, update_of_ne ne]
      simp [ne]
    · have ne : u ≠ t := fun same => absent (same ▸ mem)
      simp [Timers.passes, Timers.prepareStart, RtTimer.deactivate, ne, Timers.remove,
        Timers.setTimer]
    · rw [timer, update_self]
      simp [RtTimer.deactivate, Timers.remove, Timers.setTimer]
    · rw [active, update_self]
  · refine ⟨_, rest, if_neg rearms, ⟨_, removed, by simp [isRow]⟩, rfl, fun u ne => by simp [ne],
      fun again => absurd again rearms, fun _ => ⟨rfl, by simp, ?_⟩⟩
    simpa using RtTimer.not_activated_deactivate (s.timer t)

/-- `rest` is still to be invoked; `zeros` are due again. -/
structure Draining (cfg : Config) (s : Timers Tmr) (rest zeros later : List Tmr) : Prop where
  linked : ∃ rows, Rows cfg s rows ∧ rows (.hard, cfg.level - 1) = rest ++ (zeros ++ later)
  due : ∀ t ∈ rest, s.Due s.tick t
  accepted : ∀ t ∈ rest, (s.timer t).isTimer ∧ (s.timer t).initTick < halfRange
  passed : rest.Pairwise fun t u => Rearms s t →
    s.passes (s.tick + (s.timer t).initTick) u = true
  now : ∀ t ∈ zeros, (s.timer t).timeoutTick = s.tick
  ahead : ∀ t ∈ later, Ahead s t

def Zero (s : Timers Tmr) (t : Tmr) : Prop := Rearms s t ∧ (s.timer t).initTick = 0

instance (s : Timers Tmr) (t : Tmr) : Decidable (Zero s t) := instDecidableAnd

theorem Draining.turn (draining : Draining cfg s (t :: rest) zeros later) :
    ∃ s' row zeros' later', (s.remove cfg t).afterTimeout cfg t = some s' ∧
      Turned cfg s t (rest ++ (zeros ++ later)) s' row ∧
      Draining cfg s' rest zeros' later' ∧ (zeros' = [] ↔ zeros = [] ∧ ¬Zero s t) ∧ t ∉ rest := by
  obtain ⟨rows, holds, isRow⟩ := draining.linked
  have nodup := holds.nodup (.hard, cfg.level - 1)
  have isRow : rows (.hard, cfg.level - 1) = t :: (rest ++ (zeros ++ later)) := isRow
  rw [isRow] at nodup
  have absent := (List.nodup_cons.mp nodup).1
  have notIn := fun mem : t ∈ rest => absent (List.mem_append_left _ mem)
  have accepted := draining.accepted t List.mem_cons_self
  obtain ⟨s', row, ret, turned⟩ := turned holds isRow accepted
  obtain ⟨passesT, passed⟩ := List.pairwise_cons.mp draining.passed
  have same : ∀ u ∈ rest ++ (zeros ++ later), s'.timer u = s.timer u := fun u mem =>
    (turned.others u fun isT => absent (isT ▸ mem)).1
  have keeps : ∀ zeros' later', row = rest ++ (zeros' ++ later') →
      (∀ u ∈ zeros', (s'.timer u).timeoutTick = s.tick) →
      (∀ u ∈ later', Ahead s' u) → Draining cfg s' rest zeros' later' := by
    intro zeros' later' isRow' now ahead
    have sameRest : ∀ u ∈ rest, s'.timer u = s.timer u := fun u mem => same u (by simp [mem])
    refine ⟨isRow' ▸ turned.linked, fun u mem => ?_, fun u mem => ?_, ?_,
      turned.tick.symm ▸ now, ahead⟩
    · rw [Timers.Due, sameRest u mem, turned.tick]
      exact draining.due u (List.mem_cons_of_mem _ mem)
    · rw [sameRest u mem]
      exact draining.accepted u (List.mem_cons_of_mem _ mem)
    · refine passed.imp_of_mem fun memU memV passes => ?_
      rw [Rearms, Timers.passes, sameRest _ memU, sameRest _ memV, turned.tick]
      exact passes
  have nowAfter : ∀ u ∈ zeros, (s'.timer u).timeoutTick = s.tick := fun u mem => by
    rw [same u (by simp [mem])]
    exact draining.now u mem
  have aheadAfter : ∀ u ∈ later, Ahead s' u := fun u mem => by
    rw [Ahead, same u (by simp [mem]), turned.tick]
    exact draining.ahead u mem
  by_cases rearms : Rearms s t
  · obtain ⟨⟨front, back, cut, isRow'⟩, timeout, -⟩ := turned.rearmed rearms
    rw [← List.append_assoc] at cut
    obtain ⟨front', rfl, rfl, lastPasses⟩ := cut_behind cut fun u mem =>
      (List.mem_append.mp mem).elim (fun inRest => passesT u inRest rearms)
        fun inZeros => passes_of_now (draining.now u inZeros) accepted.2
    by_cases zero : (s.timer t).initTick = 0
    · have isFront : front' = [] := by
        rcases List.eq_nil_or_concat' front' with none | ⟨others, last, rfl⟩
        · exact none
        · have passes := lastPasses last (by simp)
          have ahead := draining.ahead last (by simp)
          rw [zero, add_zero, ahead.not_passes] at passes
          cases passes
      subst isFront
      refine ⟨s', row, zeros ++ [t], back, ret, turned, keeps _ _ (by simpa using isRow')
        (fun u mem => ?_) (by simpa using aheadAfter), by simp [Zero, rearms, zero], notIn⟩
      rcases List.mem_append.mp mem with inZeros | isT
      · exact nowAfter u inZeros
      · rw [List.mem_singleton.mp isT, timeout, zero, add_zero]
    · refine ⟨s', row, zeros, front' ++ t :: back, ret, turned, keeps _ _
        (by simpa using isRow') nowAfter fun u mem => ?_,
        (and_iff_left fun isZero => zero isZero.2).symm, notIn⟩
      by_cases isT : u = t
      · rw [isT, Ahead, timeout, turned.tick, add_sub_cancel_left]
        exact ⟨zero, accepted.2⟩
      · exact aheadAfter u (by simpa [isT] using mem)
  · obtain ⟨isRow', -, -⟩ := turned.stopped rearms
    exact ⟨s', row, zeros, later, ret, turned, keeps _ _ isRow' nowAfter aheadAfter,
      by simp [Zero, rearms], notIn⟩

/-- The loop invokes all of `rest`, and goes on with what is due again. -/
theorem Draining.all (draining : Draining cfg s rest zeros later) :
    ∃ s' zeros' later', Draining cfg s' [] zeros' later' ∧
      (zeros' = [] ↔ zeros = [] ∧ ∀ t ∈ rest, ¬Zero s t) ∧
      (∀ turns < rest.length, s.rtTimerCheck cfg turns = none) ∧
      (∀ turns, s.rtTimerCheck cfg (rest.length + turns) =
        (s'.rtTimerCheck cfg turns).map fun (invoked, last) => (rest ++ invoked, last)) ∧
      (∀ u, u ∉ rest → s'.timer u = s.timer u ∧ s'.active u = s.active u) ∧
      ∀ t ∈ rest, if Rearms s t then
          (s'.timer t).timeoutTick = s.tick + (s.timer t).initTick ∧ s'.active t = true
        else s'.active t = false ∧ ¬(s'.timer t).Activated := by
  induction rest generalizing s zeros later with
  | nil =>
    refine ⟨s, zeros, later, draining, by simp, by simp, fun turns => ?_,
      fun _ _ => ⟨rfl, rfl⟩, by simp⟩
    simp
  | cons t rest ih =>
    obtain ⟨middle, row, _, _, ret, turned, next, nothing, notIn⟩ := draining.turn
    obtain ⟨rows, holds, isRow⟩ := draining.linked
    have turn : ∀ turns, s.rtTimerCheck cfg (turns + 1) =
        (middle.rtTimerCheck cfg turns).map fun (invoked, last) => (t :: invoked, last) := by
      intro turns
      rw [Timers.rtTimerCheck, holds.next_head, isRow]
      simp only [List.cons_append, List.head?_cons, if_pos (draining.due t List.mem_cons_self),
        ret, Option.bind_some]
    have same : ∀ u ∈ rest, middle.timer u = s.timer u := fun u mem =>
      (turned.others u fun isT => notIn (isT ▸ mem)).1
    have rearms : ∀ u ∈ rest, (Rearms middle u ↔ Rearms s u) := fun u mem => by
      rw [Rearms, Rearms, same u mem]
    obtain ⟨s', zeros', later', drained, noZeros, before, behind, outside, inside⟩ := ih next
    refine ⟨s', zeros', later', drained, ?_, fun turns few => ?_, fun turns => ?_,
      fun u fresh => ?_, fun u mem => ?_⟩
    · rw [noZeros, nothing, List.forall_mem_cons, and_assoc]
      refine and_congr_right fun _ => and_congr_right fun _ => forall₂_congr fun u mem => ?_
      rw [Zero, Zero, rearms u mem, same u mem]
    · cases turns with
      | zero => rfl
      | succ turns => rw [turn, before turns (by simpa using few), Option.map_none]
    · rw [List.length_cons, Nat.add_right_comm, turn, behind, Option.map_map]
      rfl
    · obtain ⟨isNot, fresh⟩ := not_or.mp (mt List.mem_cons.mpr fresh)
      rw [(outside u fresh).1, (outside u fresh).2]
      exact turned.others u isNot
    · rcases List.mem_cons.mp mem with rfl | inRest
      · rw [(outside u notIn).1, (outside u notIn).2]
        split
        · next again => exact (turned.rearmed again).2
        · next stops => exact (turned.stopped stops).2
      · simpa only [rearms u inRest, same u inRest, turned.tick] using inside u inRest

theorem Draining.stops_iff (draining : Draining cfg s [] zeros later) {turns : Nat}
    {last : Timers Tmr} :
    s.rtTimerCheck cfg (turns + 1) = some ([], last) ↔ zeros = [] ∧ s = last := by
  obtain ⟨rows, holds, isRow⟩ := draining.linked
  rw [Timers.rtTimerCheck, holds.next_head, isRow]
  rcases zeros with _ | ⟨first, zeros⟩
  · rcases later with _ | ⟨first, later⟩
    · simp
    · simp [(draining.ahead first List.mem_cons_self).not_due]
  · have due := due_of_now (draining.now first List.mem_cons_self)
    cases ret : (s.remove cfg first).afterTimeout cfg first with
    | none | some s' => simp [due, ret]

theorem Draining.result (draining : Draining cfg s rest [] later) : ∃ s', ((∀ t ∈ rest, ¬Zero s t) →
        s.rtTimerCheck cfg (rest.length + 1) = some (rest, s')) ∧
      (∀ turns last, s.rtTimerCheck cfg turns = some (rest, last) →
        (∀ t ∈ rest, ¬Zero s t) ∧ s' = last) ∧ ∀ t ∈ rest, if Rearms s t then
          (s'.timer t).timeoutTick = s.tick + (s.timer t).initTick ∧ s'.active t = true
        else s'.active t = false ∧ ¬(s'.timer t).Activated := by
  obtain ⟨s', zeros, later, drained, noZeros, before, behind, -, outcome⟩ := draining.all
  refine ⟨s', fun none => ?_, fun turns last ends => ?_, outcome⟩
  · rw [behind, drained.stops_iff.mpr ⟨noZeros.mpr ⟨rfl, none⟩, rfl⟩]
    simp
  · obtain ⟨turns, rfl⟩ := Nat.exists_eq_add_of_le (Nat.le_of_not_lt fun few => by
      rw [before turns few] at ends
      cases ends)
    rw [behind] at ends
    obtain ⟨⟨invoked, _⟩, ended, same⟩ := Option.map_eq_some_iff.mp ends
    obtain ⟨isNil, rfl⟩ := Prod.mk.inj same
    obtain rfl := List.append_right_eq_self.mp isNil
    cases turns with
    | zero => cases ended
    | succ turns =>
      obtain ⟨nothing, isLast⟩ := drained.stops_iff.mp ended
      exact ⟨(noZeros.mp nothing).2, isLast⟩

/-- The due timers are the first of the list, and not so long overdue that a timer that is
re-armed goes in front of one of them. -/
def Timely (s : Timers Tmr) (row : List Tmr) : Prop :=
  row.Pairwise fun t u => s.Due s.tick u → s.Due s.tick t ∧
    (Rearms s t → s.passes (s.tick + (s.timer t).initTick) u = true)

/-- The due periodic timers are activated, for some ticks. -/
def Restarts (s : Timers Tmr) (row : List Tmr) : Prop :=
  ∀ t ∈ row, s.Due s.tick t → (s.timer t).Periodic →
    (s.timer t).Activated ∧ (s.timer t).initTick ≠ 0

/-- `rt_timer_check` ends, has invoked the due timers of `row` in order, and has re-armed the
periodic ones and stopped the others. -/
def Expires (cfg : Config) (s : Timers Tmr) (row : List Tmr) : Prop :=
  let dues := row.filter fun t => s.Due s.tick t
  ∃ turns last, s.rtTimerCheck cfg turns = some (dues, last) ∧
    ∀ t ∈ dues, if (s.timer t).Periodic then
        (last.timer t).timeoutTick = s.tick + (s.timer t).initTick ∧ last.active t = true
      else last.active t = false ∧ ¬(last.timer t).Activated

theorem filter_append_filter_not {α : Type u} {p : α → Bool} {row : List α}
    (first : row.Pairwise fun t u => p u = true → p t = true) :
    row.filter p ++ row.filter (fun t => !p t) = row := by
  induction row with
  | nil => rfl
  | cons t row ih =>
    obtain ⟨atHead, first⟩ := List.pairwise_cons.mp first
    cases isFirst : p t with
    | true => simp [isFirst, ih first]
    | false =>
      have none : ∀ u ∈ row, p u = false := fun u mem =>
        Bool.eq_false_iff.mpr fun isP => by simp [atHead u mem isP] at isFirst
      have nothing : row.filter p = [] := by simpa using none
      have all : row.filter (fun t => !p t) = row := by simpa using none
      simp [isFirst, nothing, all]

omit [DecidableEq Tmr] in
theorem Timely.draining (timely : Timely s (rows (.hard, cfg.level - 1)))
    (holds : Sorted cfg s rows) (accepted : ∀ t ∈ rows (.hard, cfg.level - 1),
      (s.timer t).isTimer ∧ (s.timer t).initTick < halfRange)
    (some : ∃ t ∈ rows (.hard, cfg.level - 1), s.Due s.tick t) :
    Draining cfg s ((rows (.hard, cfg.level - 1)).filter fun t => s.Due s.tick t) []
      ((rows (.hard, cfg.level - 1)).filter fun t => !decide (s.Due s.tick t)) := by
  have split := filter_append_filter_not (p := fun t => decide (s.Due s.tick t))
    (timely.imp fun a due => decide_eq_true (a (of_decide_eq_true due)).1)
  have sorted := holds.sorted .hard
  rw [← split] at sorted
  have before := (List.pairwise_append.mp sorted).2.2
  refine ⟨⟨rows, holds.linked, by simpa using split.symm⟩, fun t mem => by simp_all,
    fun t mem => accepted t (List.mem_filter.mp mem).1, ?_, by simp, fun u mem => ?_⟩
  · refine (timely.filter _).imp_of_mem fun _ memU a => (a ?_).2
    simpa using (List.mem_filter.mp memU).2
  · obtain ⟨t, inRow, due⟩ := some
    exact ahead_of_before (before t (by simp [inRow, due]) u mem) due (by
      simpa using (List.mem_filter.mp mem).2)

/-- A call expires the due timers of a list in order, if they come first in it, just when none
of the periodic ones is armed for no ticks. -/
theorem expires_iff (holds : Sorted cfg s rows) (accepted : ∀ t ∈ rows (.hard, cfg.level - 1),
      (s.timer t).isTimer ∧ (s.timer t).initTick < halfRange) :
    let row := rows (.hard, cfg.level - 1)
    (Timely s row ∧ Restarts s row → Expires cfg s row) ∧
      (Expires cfg s row → Timely s row → Restarts s row) ∧
      (Expires cfg s row →
        ∀ a ∈ row.head?, (∃ t ∈ row, s.Due s.tick t) → s.Due s.tick a) := by
  intro row
  have isHead := holds.linked.next_head .hard
  have stays : ∀ turns, (∀ a ∈ row.head?, ¬s.Due s.tick a) →
      s.rtTimerCheck cfg (turns + 1) = some ([], s) := by
    intro turns notDue
    rw [Timers.rtTimerCheck, isHead]
    cases head : row.head? with
    | none => rfl
    | some a => exact if_neg (notDue a head)
  refine ⟨fun ⟨timely, restarts⟩ => ?_, fun expires timely t inRow due periodic => ?_,
    fun expires a isFirst some => ?_⟩
  · by_cases some : ∃ t ∈ row, s.Due s.tick t
    · have inRow : ∀ t ∈ row.filter fun t => s.Due s.tick t, t ∈ row ∧ s.Due s.tick t :=
        fun t mem => by simpa using List.mem_filter.mp mem
      obtain ⟨s', ends, -, outcome⟩ := (timely.draining holds accepted some).result
      refine ⟨_, s', ends fun t mem zero =>
        (restarts t (inRow t mem).1 (inRow t mem).2 zero.1.1).2 zero.2, fun t mem => ?_⟩
      have outcome := outcome t mem
      by_cases periodic : (s.timer t).Periodic
      · rw [if_pos periodic]
        rwa [if_pos ⟨periodic, (restarts t (inRow t mem).1 (inRow t mem).2 periodic).1⟩] at outcome
      · rw [if_neg periodic]
        rwa [if_neg fun rearms => periodic rearms.1] at outcome
    · push Not at some
      have nothing : row.filter (fun t => s.Due s.tick t) = [] := by simpa using some
      refine ⟨1, s, ?_, by simp [nothing]⟩
      rw [nothing]
      exact stays 0 fun a isFirst => some a (List.mem_of_head? isFirst)
  · obtain ⟨turns, last, ends, outcome⟩ := expires
    obtain ⟨s', -, r, outcome'⟩ := (timely.draining holds accepted ⟨t, inRow, due⟩).result
    obtain ⟨noZero, rfl⟩ := r turns last ends
    have isDue : t ∈ row.filter fun t => s.Due s.tick t := by simp [inRow, due]
    have rearmed := outcome t isDue
    have outcome' := outcome' t isDue
    rw [if_pos periodic] at rearmed
    have activated : (s.timer t).Activated := by
      by_contra stopped
      rw [if_neg fun rearms => stopped rearms.2, rearmed.2] at outcome'
      cases outcome'.1
    exact ⟨activated, fun zero => noZero t isDue ⟨⟨periodic, activated⟩, zero⟩⟩
  · by_contra notDue
    obtain ⟨turns, last, ends, -⟩ := expires
    obtain ⟨t, inRow, due⟩ := some
    cases turns with
    | zero => cases ends
    | succ turns =>
      rw [stays turns fun other isOther => by rwa [Option.mem_unique isOther isFirst]] at ends
      have nothing := (Prod.mk.inj (Option.some.inj ends)).1
      have : t ∈ ([] : List Tmr) := nothing ▸ by simp [inRow, due]
      cases this

end

/-- A periodic timer of `time` ticks, started when the tick was 0. -/
def armed (time tick : BitVec 32) : Timers Unit :=
  let s := (fresh (fun _ : Unit => time) (fun _ => periodicFlag) 0).timers
  { (s.rtTimerStart rtConfig ()).getD s with tick }

theorem armed_sorted (time tick : BitVec 32) (short : time < halfRange) :
    ∃ rows, Sorted rtConfig (armed time tick) rows := by
  have init : Sorted rtConfig _ fun _ => [] :=
    (fresh_initial (fun _ : Unit => time) (fun _ => periodicFlag) 0).sorted
  obtain ⟨s', -, started, -⟩ := init.linked.rtTimerStart (t := ()) rfl short
  have close : ∀ list, s'.Close list := fun _ =>
    ⟨(s'.timer ()).timeoutTick, fun _ _ _ => by rw [sub_self]; decide⟩
  obtain ⟨rows, holds⟩ := start_sorted started close ⟨_, init⟩
  obtain ⟨rep, outside, sublist, ownList, active, counted⟩ := holds.linked
  have same : armed time tick = { s' with tick } := by rw [armed, started, Option.getD_some]
  rw [same]
  exact ⟨rows, ⟨rep, outside, sublist, ownList, active, counted⟩, holds.sorted, holds.startedAt⟩

theorem expires_after_three : ∃ rows, Sorted rtConfig (armed 3 3) rows ∧
    Expires rtConfig (armed 3 3) (rows (.hard, 0)) := by
  obtain ⟨rows, holds⟩ := armed_sorted 3 3 (by decide)
  exact ⟨rows, holds, (expires_iff holds fun () _ => by decide).1
    ⟨List.pairwise_of_forall (by decide), fun () _ => by decide⟩⟩

/-- A periodic timer of no ticks is due again whenever it has been re-armed. -/
theorem zero_never_expires :
    ¬ ∀ (s : Timers Unit) (rows : TimerList × Nat → List Unit), Sorted rtConfig s rows →
      (∀ t ∈ rows (.hard, rtConfig.level - 1),
        (s.timer t).isTimer ∧ (s.timer t).initTick < halfRange) →
      Expires rtConfig s (rows (.hard, rtConfig.level - 1)) := by
  intro claim
  obtain ⟨rows, holds⟩ := armed_sorted 0 0 (by decide)
  have accepted : ∀ t ∈ rows (.hard, rtConfig.level - 1), ((armed 0 0).timer t).isTimer ∧
      ((armed 0 0).timer t).initTick < halfRange := fun () _ => by decide
  obtain ⟨turns, last, ends, -⟩ := claim _ rows holds accepted
  have inRow : () ∈ rows (.hard, rtConfig.level - 1) := holds.linked.mem_iff_active.mpr (by decide)
  have timely : Timely (armed 0 0) (rows (.hard, rtConfig.level - 1)) :=
    List.pairwise_of_forall (by decide)
  obtain ⟨_, -, r, -⟩ := (timely.draining holds accepted ⟨(), inRow, by decide⟩).result
  exact (r turns last ends).1 () (by simp [inRow]; decide) (by decide)

end RtThread.Timer
