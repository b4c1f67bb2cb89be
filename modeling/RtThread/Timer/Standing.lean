import Mathlib.Data.Fin.VecNotation
import RtThread.Timer.Check
import RtThread.Library.Cyclic

/-!
# What a step does to the timers

Every step of the system is a few changes of the timers and at most one start behind them.
-/

open TransitionSystem

namespace RtThread.Timer

universe u

variable {Tmr : Type u} [DecidableEq Tmr] {cfg : Config}

inductive Change (cfg : Config) : Timers Tmr → Timers Tmr → Prop where
  | tick (s : Timers Tmr) : Change cfg s { s with tick := s.tick + 1 }
  | update {s : Timers Tmr} {t : Tmr} {timer : RtTimer} :
      timer.timerList = (s.timer t).timerList →
      timer.timeoutTick = (s.timer t).timeoutTick →
      Change cfg s (s.setTimer t timer)
  | remove (s : Timers Tmr) (t : Tmr) : Change cfg s (s.remove cfg t)

theorem Change.rows {s s' : Timers Tmr} (change : Change cfg s s')
    {rows : TimerList × Nat → List Tmr} (holds : Rows cfg s rows) : ∃ rows', Rows cfg s' rows' := by
  cases change with
  | tick =>
    obtain ⟨rep, outside, sublist, ownList, active, counted⟩ := holds
    exact ⟨rows, rep, outside, sublist, ownList, active, counted⟩
  | update sameList sameTimeout => exact ⟨rows, holds.setTimer sameList⟩
  | remove t => exact ⟨_, holds.remove t⟩

theorem Change.timerList {s s' : Timers Tmr} (change : Change cfg s s')
    (t : Tmr) : (s'.timer t).timerList = (s.timer t).timerList := by
  cases change with
  | tick | remove => rfl
  | @update u timer sameList _ =>
    by_cases same : t = u
    · simpa [same] using sameList
    · simp [same]

def Effect (cfg : Config) (s after : Timers Tmr) : Prop :=
  ∃ middle, Relation.ReflTransGen (Change cfg) s middle ∧
    (after = middle ∨ ∃ t, middle.rtTimerStart cfg t = some after)

theorem Effect.refl (s : Timers Tmr) : Effect cfg s s := ⟨s, .refl, .inl rfl⟩

theorem Change.effect {s s' : Timers Tmr} (change : Change cfg s s') : Effect cfg s s' :=
  ⟨s', .single change, .inl rfl⟩

theorem Effect.remove_update (s : Timers Tmr) {t : Tmr} {timer : RtTimer}
    (sameList : timer.timerList = (s.timer t).timerList)
    (sameTimeout : timer.timeoutTick = (s.timer t).timeoutTick) :
    Effect cfg s ((s.remove cfg t).setTimer t timer) := by
  refine ⟨_, ?_, .inl rfl⟩
  exact (Relation.ReflTransGen.single (.remove s t)).tail (.update sameList sameTimeout)

theorem Performed.effect {s s' : Timers Tmr} {op : Operation Tmr}
    (performed : Performed cfg s op s') : Effect cfg s s' := by
  cases performed with
  | started r => exact ⟨s, .refl, .inr ⟨_, r⟩⟩
  | removed _ sameList sameTimeout _ => exact Effect.remove_update s sameList sameTimeout
  | updated sameList sameTimeout _ _ => exact (Change.update sameList sameTimeout).effect
  | unchanged => exact Effect.refl s

theorem afterTimeout_effect {s s' : Timers Tmr} {t : Tmr}
    (result : s.afterTimeout cfg t = some s') : Effect cfg s s' := by
  have deactivated : Change cfg s (s.setTimer t (s.timer t).deactivate) :=
    .update (RtTimer.timerList_deactivate _) rfl
  rw [Timers.afterTimeout] at result
  split_ifs at result
  · exact ⟨_, .single deactivated, .inr ⟨t, result⟩⟩
  · cases result
    exact deactivated.effect

variable {s s' : State Tmr}

theorem HardStep.effect (step : HardStep cfg s s') : Effect cfg s.timers s'.timers := by
  cases step with
  | moved => exact Effect.refl _
  | invoked => exact (Change.remove _ _).effect
  | returned _ returned => exact afterTimeout_effect returned

theorem SoftStep.effect (step : SoftStep cfg s s') : Effect cfg s.timers s'.timers := by
  cases step with
  | entered | began | left => exact Effect.refl _
  | invoked => exact (Change.remove _ _).effect
  | returned _ returned => exact afterTimeout_effect returned

theorem Step.effect {e : Event Tmr} (step : Step cfg s e s') : Effect cfg s.timers s'.timers := by
  cases step with
  | called _ performed => exact performed.effect
  | ticked => exact (Change.tick _).effect
  | hard step | soft _ step => exact step.effect

theorem Effect.rows {s s' : Timers Tmr} (effect : Effect cfg s s')
    (holds : ∃ rows, Rows cfg s rows) : ∃ rows, Rows cfg s' rows := by
  obtain ⟨middle, changes, outcome⟩ := effect
  have atMiddle : ∃ rows, Rows cfg middle rows := by
    clear outcome
    induction changes with
    | refl => exact holds
    | tail _ change ih =>
      obtain ⟨rows, holds⟩ := ih
      exact change.rows holds
  rcases outcome with rfl | ⟨t, started⟩
  · exact atMiddle
  · obtain ⟨rows, holds⟩ := atMiddle
    have asserted := asserted_of_rtTimerStart started
    obtain ⟨after', rows', started', holds', -⟩ := holds.rtTimerStart asserted.1 asserted.2
    obtain rfl : s' = after' := Option.some.inj (started.symm.trans started')
    exact ⟨rows', holds'⟩

omit [DecidableEq Tmr] in
theorem State.Initial.rows (init : s.Initial) : Rows cfg s.timers fun _ => [] := by
  refine ⟨?_, fun _ _ _ => rfl, fun _ _ _ => .slnil, ?_, ?_, fun _ => Nat.zero_le _⟩
  · rw [init.links]
    exact Links.represents_selfLinked
  · intro list t mem
    simp at mem
  · intro t
    simp [init.inactive]

def InSoftRow (cfg : Config) (timers : Timers Tmr) (node : Node Tmr) : Prop :=
  node = .head (.soft, cfg.level - 1) ∨
    ∃ t, node = .entry ⟨t, cfg.level - 1⟩ ∧ (timers.timer t).timerList = .soft

def SoftCheck.node : SoftCheck Tmr → Option (Node Tmr)
  | .looping _ node => some node
  | .calling _ node => some node
  | _ => none

structure Standing (cfg : Config) (s : State Tmr) : Prop where
  rows : ∃ rows, Rows cfg s.timers rows
  hardList : ∀ t, s.hard.callback = some t → (s.timers.timer t).timerList = .hard
  softList : ∀ t, s.soft.callback = some t → (s.timers.timer t).timerList = .soft
  softNode : ∀ node, s.soft.node = some node → InSoftRow cfg s.timers node

omit [DecidableEq Tmr] in
theorem State.Initial.standing (init : s.Initial) : Standing cfg s where
  rows := ⟨_, init.rows⟩
  hardList := by simp [init.hard, HardCheck.callback]
  softList := by simp [init.soft, SoftCheck.callback]
  softNode := by simp [init.soft, SoftCheck.node]

theorem Effect.timerList {s s' : Timers Tmr} (effect : Effect cfg s s') (t : Tmr) :
    (s'.timer t).timerList = (s.timer t).timerList := by
  obtain ⟨middle, changes, outcome⟩ := effect
  have atMiddle : (middle.timer t).timerList = (s.timer t).timerList := by
    clear outcome
    induction changes with
    | refl => rfl
    | tail _ change ih => rw [← ih, change.timerList]
  rcases outcome with rfl | ⟨u, started⟩
  · exact atMiddle
  · rw [(rtTimerStart_fields started).1, ← atMiddle]
    by_cases same : t = u
    · rw [same, Function.update_self]
      exact (RtTimer.timerList_activate _).trans (RtTimer.timerList_deactivate _)
    · rw [Function.update_of_ne same]

theorem Effect.inSoftRow {s s' : Timers Tmr} (effect : Effect cfg s s')
    {n : Node Tmr} (inRow : InSoftRow cfg s n) : InSoftRow cfg s' n := by
  rcases inRow with atHead | ⟨t, isNode, ownList⟩
  · exact .inl atHead
  · exact .inr ⟨t, isNode, (effect.timerList t).trans ownList⟩

omit [DecidableEq Tmr] in
theorem Rows.inSoftRow_next_head {s : Timers Tmr} {rows : TimerList × Nat → List Tmr}
    (holds : Rows cfg s rows) : InSoftRow cfg s (s.links.next (.head (.soft, cfg.level - 1))) := by
  rw [holds.represents.next_head, nodesOf]
  cases row : rows (.soft, cfg.level - 1) with
  | nil => exact .inl rfl
  | cons t rest => exact .inr ⟨t, rfl, holds.ownList .soft t (by simp [row])⟩

omit [DecidableEq Tmr] in
theorem Rows.inSoftRow_next {s : Timers Tmr} {rows : TimerList × Nat → List Tmr}
    (holds : Rows cfg s rows) {n : Node Tmr} (inRow : InSoftRow cfg s n) :
    InSoftRow cfg s (s.links.next n) := by
  rcases inRow with rfl | ⟨t, rfl, ownList⟩
  · exact holds.inSoftRow_next_head
  · by_cases isActive : s.active t = true
    · have mem := (holds.active t).mp isActive
      rw [ownList] at mem
      obtain ⟨front, back, split⟩ := List.append_of_mem mem
      rw [holds.next_entry split]
      cases back with
      | nil => exact .inl rfl
      | cons u back => exact .inr ⟨u, rfl, holds.ownList .soft u (by simp [split])⟩
    · rw [(holds.alone_of_inactive isActive _).1]
      exact .inr ⟨t, rfl, ownList⟩

theorem Effect.standing (effect : Effect cfg s.timers s'.timers)
    (rows : ∃ rows, Rows cfg s.timers rows)
    (hardList : ∀ t, s'.hard.callback = some t → (s.timers.timer t).timerList = .hard)
    (softList : ∀ t, s'.soft.callback = some t → (s.timers.timer t).timerList = .soft)
    (softNode : ∀ n, s'.soft.node = some n → InSoftRow cfg s.timers n) : Standing cfg s' where
  rows := effect.rows rows
  hardList t isCallback := (effect.timerList t).trans (hardList t isCallback)
  softList t isCallback := (effect.timerList t).trans (softList t isCallback)
  softNode n isNode := effect.inSoftRow (softNode n isNode)

theorem HardStep.standing (step : HardStep cfg s s')
    (standing : Standing cfg s) : Standing cfg s' := by
  obtain ⟨⟨rows, holds⟩, hardList, softList, softNode⟩ := standing
  refine step.effect.standing ⟨rows, holds⟩ ?_ ?_ ?_
  · intro t isCallback
    cases step with
    | moved _ noCallback => simp [noCallback] at isCallback
    | @invoked _ u _ first _ =>
      obtain rfl : u = t := Option.some.inj isCallback
      rw [holds.next_head] at first
      exact holds.ownList .hard u (List.mem_of_head? first)
    | returned => cases isCallback
  · cases step <;> exact softList
  · cases step <;> exact softNode

theorem SoftStep.standing (step : SoftStep cfg s s')
    (standing : Standing cfg s) : Standing cfg s' := by
  obtain ⟨⟨rows, holds⟩, hardList, softList, softNode⟩ := standing
  have effect := step.effect
  cases step with
  | entered | left => exact effect.standing ⟨rows, holds⟩ hardList nofun nofun
  | began =>
    refine effect.standing ⟨rows, holds⟩ hardList nofun fun n isNode => ?_
    cases isNode
    exact holds.inSoftRow_next_head
  | @invoked _ n t stands e _ =>
    have inRow := softNode n (by rw [stands]; rfl)
    refine effect.standing ⟨rows, holds⟩ hardList (fun u isCallback => ?_) fun next isNode => ?_
    · obtain rfl : t = u := Option.some.inj isCallback
      rcases inRow with rfl | ⟨u, rfl, ownList⟩
      · cases e
      · obtain rfl : u = t := Option.some.inj e
        exact ownList
    · cases isNode
      exact holds.inSoftRow_next inRow
  | @returned t n _ stands _ =>
    have inRow := softNode n (by rw [stands]; rfl)
    refine effect.standing ⟨rows, holds⟩ hardList nofun fun other isNode => ?_
    cases isNode
    exact inRow

theorem Standing.step {e : Event Tmr}
    (standing : Standing cfg s) (result : s.step cfg e = some s') : Standing cfg s' := by
  have steps := step_cases result
  have effect := steps.effect
  cases steps with
  | called | ticked =>
    exact effect.standing standing.rows standing.hardList standing.softList standing.softNode
  | hard step | soft _ step => exact step.standing standing

end RtThread.Timer

namespace RtThread.Timer

open SkipList WrappedTick

universe u

variable {Tmr : Type u}

namespace Timers

variable (s : Timers Tmr)

def Before (t u : Tmr) : Prop :=
  (s.timer u).timeoutTick - (s.timer t).timeoutTick < halfRange ∧
    ((s.timer t).timeoutTick = (s.timer u).timeoutTick →
      s.startedAt t < s.startedAt u)

def Close (list : TimerList) : Prop :=
  ∃ base, ∀ t, s.active t = true → (s.timer t).timerList = list →
    (s.timer t).timeoutTick - base < halfRange

end Timers

/-- The rows of the timer lists hold the active timers in order. -/
structure Ordered (cfg : Config) (s : Timers Tmr) (rows : TimerList × Nat → List Tmr) :
    Prop where
  linked : s.links.Represents (nodesOf rows)
  once : ∀ list, (rows (list, cfg.level - 1)).Nodup
  active : ∀ list t, t ∈ rows (list, cfg.level - 1) ↔
    s.active t = true ∧ (s.timer t).timerList = list
  sorted : ∀ list, (rows (list, cfg.level - 1)).Pairwise s.Before
  sublist : ∀ list row, row + 1 < cfg.level →
    (rows (list, row)).Sublist (rows (list, row + 1))
  earliest : ∀ list, rows (list, cfg.level - 1) ≠ [] →
    ∃ t ∈ rows (list, cfg.level - 1), s.rtTimerListNextTimeout cfg list = (s.timer t).timeoutTick ∧
      ∀ u ∈ rows (list, cfg.level - 1),
        (s.timer u).timeoutTick - (s.timer t).timeoutTick < halfRange

theorem two_mul_halfRange : 2 * halfRange.toNat ≤ 2 ^ 32 := by decide

variable {t : Tmr}

section Places

variable {s : Timers Tmr} {base : BitVec 32}

theorem before_iff {u : Tmr} (near : (s.timer t).timeoutTick - base < halfRange)
    (near' : (s.timer u).timeoutTick - base < halfRange) : s.Before t u ↔
      distance base (s.timer t).timeoutTick ≤ distance base (s.timer u).timeoutTick ∧
        (distance base (s.timer t).timeoutTick = distance base (s.timer u).timeoutTick →
          s.startedAt t < s.startedAt u) := by
  rw [Timers.Before, sub_lt_half_iff two_mul_halfRange near' near, distance_inj]

theorem passes_iff {timeout : BitVec 32}
    (near : (s.timer t).timeoutTick - base < halfRange) (near' : timeout - base < halfRange) :
    s.passes timeout t = true ↔ distance base (s.timer t).timeoutTick ≤ distance base timeout := by
  have zero : (s.timer t).timeoutTick - timeout = 0 ↔
      distance base (s.timer t).timeoutTick = distance base timeout := by
    rw [sub_eq_zero, distance_inj]
  rw [Timers.passes, decide_eq_true_iff, zero, sub_lt_half_iff two_mul_halfRange near near']
  omega

theorem insert_pairwise {row front back : List Tmr}
    (cut : Cut (s.passes (s.timer t).timeoutTick) row front back) (sorted : row.Pairwise s.Before)
    (near : ∀ u ∈ front ++ t :: back, (s.timer u).timeoutTick - base < halfRange)
    (later : ∀ u ∈ row, s.startedAt u < s.startedAt t) :
    (front ++ t :: back).Pairwise s.Before := by
  have nearT := near t (by simp)
  have nearRow : ∀ u ∈ row, (s.timer u).timeoutTick - base < halfRange := by
    intro u mem
    rw [cut.split] at mem
    exact near u (by simpa [or_left_comm] using Or.inr mem)
  refine cut.pairwise_insert sorted ?_ ?_ ?_
  · intro a memFirst second memSecond ordered passesSecond
    have nearFirst := nearRow a memFirst
    have nearSecond := nearRow second memSecond
    rw [passes_iff nearSecond nearT] at passesSecond
    rw [passes_iff nearFirst nearT]
    exact ((before_iff nearFirst nearSecond).mp ordered).1.trans passesSecond
  · intro u mem passesU
    have nearU := nearRow u mem
    rw [before_iff nearU nearT]
    exact ⟨(passes_iff nearU nearT).mp passesU, fun _ => later u mem⟩
  · intro u mem stops
    have nearU := nearRow u mem
    have notPassed : ¬ s.passes (s.timer t).timeoutTick u = true := by simp [stops]
    rw [passes_iff nearU nearT, Nat.not_le] at notPassed
    rw [before_iff nearT nearU]
    exact ⟨notPassed.le, fun equal => absurd equal notPassed.ne⟩

end Places

variable [DecidableEq Tmr] {cfg : Config}

structure Sorted (cfg : Config) (s : Timers Tmr) (rows : TimerList × Nat → List Tmr) :
    Prop where
  linked : Rows cfg s rows
  sorted : ∀ list, (rows (list, cfg.level - 1)).Pairwise s.Before
  startedAt : ∀ t, s.startedAt t ≤ s.starts

theorem Change.sorted {s s' : Timers Tmr} (change : Change cfg s s')
    (holds : ∃ rows, Sorted cfg s rows) : ∃ rows, Sorted cfg s' rows := by
  obtain ⟨rows, holds⟩ := holds
  cases change with
  | tick =>
    obtain ⟨rep, outside, sublist, ownList, active, counted⟩ := holds.linked
    exact ⟨rows, ⟨rep, outside, sublist, ownList, active, counted⟩, holds.sorted, holds.startedAt⟩
  | @update t timer sameList sameTimeout =>
    have before : (s.setTimer t timer).Before = s.Before := by
      have timeoutTick : ∀ u, ((s.setTimer t timer).timer u).timeoutTick =
          (s.timer u).timeoutTick := by
        intro u
        by_cases same : u = t
        · simpa [same] using sameTimeout
        · simp [same]
      funext u v
      simp only [Timers.Before, timeoutTick]
      rfl
    refine ⟨rows, holds.linked.setTimer sameList, fun list => ?_, holds.startedAt⟩
    rw [before]
    exact holds.sorted list
  | remove t =>
    exact ⟨_, holds.linked.remove t, fun list => (holds.sorted list).sublist List.erase_sublist,
      holds.startedAt⟩

theorem changes_sorted {s s' : Timers Tmr} (changes : Relation.ReflTransGen (Change cfg) s s')
    (holds : ∃ rows, Sorted cfg s rows) : ∃ rows, Sorted cfg s' rows := by
  induction changes with
  | refl => exact holds
  | tail _ change ih => exact change.sorted ih

theorem start_sorted {s s' : Timers Tmr}
    (result : s.rtTimerStart cfg t = some s') (close : ∀ list, s'.Close list)
    (holds : ∃ rows, Sorted cfg s rows) : ∃ rows, Sorted cfg s' rows := by
  obtain ⟨rows, holds⟩ := holds
  obtain ⟨timerEq, -, -, startedAtEq, startsEq⟩ := rtTimerStart_fields result
  have asserted := asserted_of_rtTimerStart result
  obtain ⟨after', rows', started, linked, cutLast, elsewhere⟩ :=
    holds.linked.rtTimerStart asserted.1 asserted.2
  obtain rfl : s' = after' := Option.some.inj (result.symm.trans started)
  have keptTimer : ∀ u, u ≠ t → s'.timer u = s.timer u := fun u ne => by
    rw [timerEq, Function.update_of_ne ne]
  have keptStart : ∀ u, u ≠ t → s'.startedAt u = s.startedAt u := fun u ne => by
    rw [startedAtEq, Function.update_of_ne ne]
  have startT : s'.startedAt t = s.starts + 1 := by rw [startedAtEq, Function.update_self]
  have notT : ∀ list, ∀ u ∈ (rows (list, cfg.level - 1)).erase t, u ≠ t :=
    fun list u mem => ((List.Nodup.mem_erase_iff (holds.linked.nodup _)).mp mem).1
  -- the timers that stay linked keep their timeouts and starts
  have sortedRest : ∀ list, ((rows (list, cfg.level - 1)).erase t).Pairwise s'.Before := by
    intro list
    refine ((holds.sorted list).sublist List.erase_sublist).imp_of_mem ?_
    intro u v memU memV before
    have differsU := notT list u memU
    have differsV := notT list v memV
    rw [Timers.Before, keptTimer u differsU, keptTimer v differsV, keptStart u differsU,
      keptStart v differsV]
    exact before
  refine ⟨rows', linked, fun list => ?_, fun u => ?_⟩
  · by_cases own : list = ((s.prepareStart cfg t).timer t).timerList
    · obtain ⟨front, back, cut, lastRow⟩ := cutLast
      have sameTimeout : ∀ u, ((s.prepareStart cfg t).timer u).timeoutTick =
          (s'.timer u).timeoutTick := by
        intro u
        by_cases same : u = t
        · simp [same, timerEq, Timers.prepareStart, RtTimer.deactivate]
        · simp [keptTimer u same, Timers.prepareStart, same]
      have samePasses : (s.prepareStart cfg t).passes = s'.passes := by
        funext timeout u
        rw [Timers.passes, Timers.passes, sameTimeout]
      rw [samePasses, sameTimeout, ← own] at cut
      rw [← own] at lastRow
      obtain ⟨base, near⟩ := close list
      have nearRow : ∀ u ∈ front ++ t :: back, (s'.timer u).timeoutTick - base < halfRange := by
        intro u mem
        obtain ⟨isActive, ownList⟩ := linked.mem_iff_active.mp (lastRow ▸ mem)
        exact near u isActive ownList
      have later : ∀ u ∈ (rows (list, cfg.level - 1)).erase t, s'.startedAt u < s'.startedAt t := by
        intro u mem
        rw [keptStart u (notT list u mem), startT]
        exact Nat.lt_succ_of_le (holds.startedAt u)
      rw [lastRow]
      exact insert_pairwise cut (sortedRest list) nearRow later
    · rw [elsewhere list own]
      exact sortedRest list
  · rw [startsEq]
    by_cases same : u = t
    · rw [same, startT]
    · rw [keptStart u same]
      exact Nat.le_succ_of_le (holds.startedAt u)

omit [DecidableEq Tmr] in
theorem Sorted.ordered {s : Timers Tmr} {rows : TimerList × Nat → List Tmr}
    (holds : Sorted cfg s rows) : Ordered cfg s rows where
  linked := holds.linked.represents
  once list := holds.linked.nodup (list, cfg.level - 1)
  active _ _ := holds.linked.mem_iff_active
  sorted := holds.sorted
  sublist := holds.linked.sublist
  earliest := by
    intro list nonempty
    obtain ⟨t, rest, cons⟩ := List.exists_cons_of_ne_nil nonempty
    have first := holds.linked.next_head list
    have sorted := holds.sorted list
    rw [cons] at first sorted ⊢
    refine ⟨t, List.mem_cons_self, ?_, ?_⟩
    · rw [Timers.rtTimerListNextTimeout, first]
      rfl
    · intro u mem
      rcases List.mem_cons.mp mem with rfl | later
      · rw [sub_self]
        decide
      · exact ((List.pairwise_cons.mp sorted).1 u later).1

omit [DecidableEq Tmr] in
theorem State.Initial.sorted {s : State Tmr} (init : s.Initial) : Sorted cfg s.timers fun _ => [] :=
  ⟨init.rows, fun _ => .nil, fun t => (init.startedAt t).trans_le (Nat.zero_le _)⟩

/-- In every run in which the timeouts of each list stay close, the rows of both lists are
in order in every state. -/
theorem timerLists_ordered {taken : List (Taken (State Tmr) (Event Tmr))}
    {last : State Tmr} (run : (system cfg).Run taken last) (close : Throughout
      (fun s : State Tmr => ∀ list, s.timers.Close list) taken last) : Throughout
      (fun s : State Tmr => ∃ rows, Ordered cfg s.timers rows) taken last := by
  have sorted : Throughout
      (fun s : State Tmr => ∃ rows, Sorted cfg s.timers rows) taken last := by
    refine run.throughout_of_assumed (fun s init => ⟨_, init.sorted⟩) ?_ close
    intro s e s' holds closeAfter step
    obtain ⟨middle, changes, outcome⟩ := (step_cases step).effect
    have atMiddle := changes_sorted changes holds
    rcases outcome with same | ⟨t, started⟩
    · rwa [same]
    · exact start_sorted started closeAfter atMiddle
  refine ⟨?_, fun step mem => ?_⟩
  · obtain ⟨rows, holds⟩ := sorted.1
    exact ⟨rows, holds.ordered⟩
  · obtain ⟨rows, holds⟩ := sorted.2 step mem
    exact ⟨rows, holds.ordered⟩

def expireAndRestart : List (Event (Fin 3)) :=
  [.call (.start 0), .call (.start 1), .call (.start 2), .tick, .tick, .tick, .tick, .tick,
    .hardCheck, .hardCheck, .hardCheck, .hardCheck, .hardCheck]

theorem timerLists_ordered_around_wrap : Throughout
      (fun s : State (Fin 3) => ∃ rows, Ordered ⟨2, 1, by decide⟩ s.timers rows)
      (record (State.step ⟨2, 1, by decide⟩) []
        (fresh ![5, 3, 5] ![periodicFlag, 0, 0] 0xfffffffe) expireAndRestart)
      ((execute (State.step ⟨2, 1, by decide⟩)
        (fresh ![5, 3, 5] ![periodicFlag, 0, 0] 0xfffffffe) expireAndRestart).get
        (by decide +kernel)) := by
  refine timerLists_ordered (Run.executed _ _ (fresh_initial _ _ _) _) ?_
  have close : ∀ s : State (Fin 3), (∀ t, s.timers.active t = true →
      (s.timers.timer t).timeoutTick - 0xfffffffe < halfRange) →
      ∀ list, s.timers.Close list :=
    fun _ near _ => ⟨0xfffffffe, fun t isActive _ => near t isActive⟩
  exact Throughout.imp close (by decide +kernel)

end RtThread.Timer
