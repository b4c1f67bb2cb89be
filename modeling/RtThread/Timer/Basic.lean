import RtThread.Kernel.Basic
import RtThread.Library.RingTable
import RtThread.Library.Words
import RtThread.Library.SkipList

/-!
# Timers

`rt_timer_start`, `rt_timer_stop`, `rt_timer_detach` and `rt_timer_control` on the two timer
lists.
-/

open Function (update)

namespace RtThread.Timer

universe u

/-- `RT_TIMER_SKIP_LIST_LEVEL` and `RT_TIMER_SKIP_LIST_MASK`. -/
structure Config where
  level : Nat
  mask : BitVec 32
  level_pos : 0 < level

inductive TimerList where
  | hard
  | soft
  deriving DecidableEq

structure RowNode (Tmr : Type u) where
  timer : Tmr
  row : Nat
  deriving DecidableEq

abbrev Node (Tmr : Type u) := RingNode (TimerList × Nat) (RowNode Tmr)

def rtTickMax : BitVec 32 := 0xffffffff

def halfRange : BitVec 32 := 0x7fffffff

def activatedFlag : BitVec 8 := 0x1
def periodicFlag : BitVec 8 := 0x2
def softFlag : BitVec 8 := 0x4

/-- `struct rt_timer` without its nodes; `isTimer` is what `rt_object_get_type` is
asserted to be. -/
structure RtTimer where
  isTimer : Bool
  flag : BitVec 8
  initTick : BitVec 32
  timeoutTick : BitVec 32

namespace RtTimer

def Activated (timer : RtTimer) : Prop := timer.flag &&& activatedFlag ≠ 0

def Periodic (timer : RtTimer) : Prop := timer.flag &&& periodicFlag ≠ 0

instance (timer : RtTimer) : Decidable timer.Activated := instDecidableNot

instance (timer : RtTimer) : Decidable timer.Periodic := instDecidableNot

def timerList (timer : RtTimer) : TimerList :=
  if timer.flag &&& softFlag ≠ 0 then .soft else .hard

def activate (timer : RtTimer) : RtTimer := { timer with flag := timer.flag ||| activatedFlag }

def deactivate (timer : RtTimer) : RtTimer :=
  { timer with flag := timer.flag &&& ~~~activatedFlag }

def init (time : BitVec 32) (flag : BitVec 8) : RtTimer :=
  deactivate { isTimer := true, flag, initTick := time, timeoutTick := 0 }

end RtTimer

structure Timers (Tmr : Type u) where
  links : Links (Node Tmr)
  timer : Tmr → RtTimer
  tick : BitVec 32
  randomNr : BitVec 32
  active : Tmr → Bool
  startedAt : Tmr → Nat
  starts : Nat

inductive ControlCmd where
  | getTime
  | setTime (time : BitVec 32)
  | setOneshot
  | setPeriodic

variable {Tmr : Type u} [DecidableEq Tmr]

def rtTimerRemove (links : Links (Node Tmr)) (t : Tmr) : Nat → Links (Node Tmr)
  | 0 => links
  | row + 1 => (rtTimerRemove links t row).remove (.entry ⟨t, row⟩)

/-- The node that the pointer arithmetic `+ 1` on a row's node leads to. -/
def rowBelow : Node Tmr → Node Tmr
  | .head (list, row) => .head (list, row + 1)
  | .entry ⟨t, row⟩ => .entry ⟨t, row + 1⟩

def insertAbove (cfg : Config) (rowHead : Nat → Node Tmr) (t : Tmr) :
    Nat → BitVec 32 → Links (Node Tmr) → Links (Node Tmr)
  | 0, _, links => links
  | row + 1, tstNr, links =>
    if tstNr &&& cfg.mask = 0 then
      insertAbove cfg rowHead t row (tstNr >>> ((cfg.mask + 1) >>> 1))
        (links.insertAfter (rowHead row) (.entry ⟨t, row⟩))
    else links

namespace Timers

variable (s : Timers Tmr)

def setTimer (t : Tmr) (timer : RtTimer) : Timers Tmr :=
  { s with timer := update s.timer t timer }

def remove (cfg : Config) (t : Tmr) : Timers Tmr :=
  { s with
    links := rtTimerRemove s.links t cfg.level
    active := update s.active t false }

@[simp] theorem remove_timer (cfg : Config) (t : Tmr) : (s.remove cfg t).timer = s.timer := rfl

@[simp] theorem remove_active (cfg : Config) (t other : Tmr) :
    (s.remove cfg t).active other = if other = t then false else s.active other := by
  simp [remove, Function.update_apply]

@[simp] theorem setTimer_links (t : Tmr) (timer : RtTimer) :
    (s.setTimer t timer).links = s.links := rfl

@[simp] theorem setTimer_active (t : Tmr) (timer : RtTimer) :
    (s.setTimer t timer).active = s.active := rfl

@[simp] theorem setTimer_timer (t other : Tmr) (timer : RtTimer) :
    (s.setTimer t timer).timer other = if other = t then timer else s.timer other := by
  simp [setTimer, Function.update_apply]

def Empty (cfg : Config) (list : TimerList) : Prop :=
  s.links.next (.head (list, cfg.level - 1)) = .head (list, cfg.level - 1)

instance (cfg : Config) (list : TimerList) : Decidable (s.Empty cfg list) :=
  inferInstanceAs (Decidable (_ = _))

def Linked (cfg : Config) (t : Tmr) : Prop :=
  s.links.next (.entry ⟨t, cfg.level - 1⟩) ≠ .entry ⟨t, cfg.level - 1⟩

instance (cfg : Config) (t : Tmr) : Decidable (s.Linked cfg t) := instDecidableNot

def entryOf : Node Tmr → Option Tmr
  | .head _ => none
  | .entry ⟨t, _⟩ => some t

def Due (currentTick : BitVec 32) (t : Tmr) : Prop :=
  currentTick - (s.timer t).timeoutTick < halfRange

instance (currentTick : BitVec 32) (t : Tmr) : Decidable (s.Due currentTick t) :=
  inferInstanceAs (Decidable (_ < _))

def rtTimerListNextTimeout (cfg : Config) (list : TimerList) : BitVec 32 :=
  match entryOf (s.links.next (.head (list, cfg.level - 1))) with
  | none => rtTickMax
  | some t => (s.timer t).timeoutTick

def passes (timeout : BitVec 32) (t : Tmr) : Bool :=
  (s.timer t).timeoutTick - timeout = 0 ∨ ¬ (s.timer t).timeoutTick - timeout < halfRange

/-- The inner loop of `rt_timer_start`, along a row whose last node is `last`. -/
def searchRow (timeout : BitVec 32) (last : Node Tmr) : Nat → Node Tmr → Option (Node Tmr)
  | 0, _ => none
  | fuel + 1, p =>
    if p = last then some p
    else
      match entryOf (s.links.next p) with
      | none => none
      | some t =>
        if s.passes timeout t then
          searchRow timeout last fuel (s.links.next p)
        else some p

/-- The outer loop of `rt_timer_start`: `row_head` up to a row.  No row is longer than the
number of starts. -/
def searchRows (timeout : BitVec 32) (list : TimerList) : Nat → Option (Nat → Node Tmr)
  | 0 => do
      let p ← s.searchRow timeout (s.links.prev (.head (list, 0)))
        (s.starts + 1) (.head (list, 0))
      some fun _ => p
  | row + 1 => do
      let rowHead ← searchRows timeout list row
      let p ← s.searchRow timeout (s.links.prev (.head (list, row + 1)))
        (s.starts + 1) (rowBelow (rowHead row))
      some (update rowHead (row + 1) p)

/-- `rt_timer_start` from the search on. -/
def insert (cfg : Config) (t : Tmr) : Option (Timers Tmr) := do
  let timer := s.timer t
  let rowHead ← s.searchRows timer.timeoutTick timer.timerList (cfg.level - 1)
  let randomNr := s.randomNr + 1
  let links := s.links.insertAfter (rowHead (cfg.level - 1)) (.entry ⟨t, cfg.level - 1⟩)
  some
    { s with
      links := insertAbove cfg rowHead t (cfg.level - 1) randomNr links
      timer := update s.timer t timer.activate
      randomNr
      active := update s.active t true
      startedAt := update s.startedAt t (s.starts + 1)
      starts := s.starts + 1 }

/-- `rt_timer_start` up to the search: the timer is stopped and gets its timeout. -/
def prepareStart (cfg : Config) (t : Tmr) : Timers Tmr :=
  let timer := (s.timer t).deactivate
  (s.remove cfg t).setTimer t { timer with timeoutTick := s.tick + timer.initTick }

/-- `rt_timer_start` without the wake-up of the timer thread; a failed assertion halts. -/
def rtTimerStart (cfg : Config) (t : Tmr) : Option (Timers Tmr) :=
  if (s.timer t).isTimer ∧ (s.timer t).initTick < halfRange then
    (s.prepareStart cfg t).insert cfg t
  else none

def rtTimerStop (cfg : Config) (t : Tmr) : Option (RtErr × Timers Tmr) :=
  let timer := s.timer t
  if timer.isTimer then
    if timer.Activated then
      some (.eok, (s.remove cfg t).setTimer t timer.deactivate)
    else some (.error, s)
  else none

def rtTimerDetach (cfg : Config) (t : Tmr) : Option (Timers Tmr) :=
  let timer := s.timer t
  if timer.isTimer then
    some ((s.remove cfg t).setTimer t { timer with isTimer := false })
  else none

def rtTimerControl (t : Tmr) (cmd : ControlCmd) : Option (Timers Tmr) :=
  let timer := s.timer t
  if timer.isTimer then
    match cmd with
    | .getTime => some s
    | .setTime time => some (s.setTimer t { timer with initTick := time })
    | .setOneshot => some (s.setTimer t { timer with flag := timer.flag &&& ~~~periodicFlag })
    | .setPeriodic => some (s.setTimer t { timer with flag := timer.flag ||| periodicFlag })
  else none

end Timers

end RtThread.Timer

namespace RtThread.Timer

open BitMask

universe u

variable {Tmr : Type u}

namespace RtTimer

section

variable (timer : RtTimer)

include timer

@[simp] theorem timerList_activate : timer.activate.timerList = timer.timerList := by
  have kept : (timer.flag ||| activatedFlag) &&& softFlag = timer.flag &&& softFlag :=
    or_and_of_disjoint rfl _
  simp only [timerList, activate, kept]

@[simp] theorem timerList_deactivate : timer.deactivate.timerList = timer.timerList := by
  have kept : timer.flag &&& ~~~activatedFlag &&& softFlag = timer.flag &&& softFlag :=
    and_not_and_of_disjoint rfl _
  simp only [timerList, deactivate, kept]

theorem timerList_oneshot :
    { timer with flag := timer.flag &&& ~~~periodicFlag }.timerList = timer.timerList := by
  have kept : timer.flag &&& ~~~periodicFlag &&& softFlag = timer.flag &&& softFlag :=
    and_not_and_of_disjoint rfl _
  simp only [timerList, kept]

theorem timerList_periodic :
    { timer with flag := timer.flag ||| periodicFlag }.timerList = timer.timerList := by
  have kept : (timer.flag ||| periodicFlag) &&& softFlag = timer.flag &&& softFlag :=
    or_and_of_disjoint rfl _
  simp only [timerList, kept]

theorem not_activated_deactivate : ¬ timer.deactivate.Activated :=
  fun activated => activated (and_not_and_self activatedFlag timer.flag)

theorem activated_activate : timer.activate.Activated := by
  have set : (timer.flag ||| activatedFlag) &&& activatedFlag = activatedFlag :=
    or_and_self activatedFlag timer.flag
  rw [Activated, activate, set]
  decide

theorem activated_oneshot :
    { timer with flag := timer.flag &&& ~~~periodicFlag }.Activated ↔ timer.Activated := by
  have kept : timer.flag &&& ~~~periodicFlag &&& activatedFlag = timer.flag &&& activatedFlag :=
    and_not_and_of_disjoint rfl _
  simp only [Activated, kept]

theorem activated_periodic :
    { timer with flag := timer.flag ||| periodicFlag }.Activated ↔ timer.Activated := by
  have kept : (timer.flag ||| periodicFlag) &&& activatedFlag = timer.flag &&& activatedFlag :=
    or_and_of_disjoint rfl _
  simp only [Activated, kept]

end

theorem not_activated_init (time : BitVec 32) (flag : BitVec 8) :
    ¬ (init time flag).Activated := not_activated_deactivate _

end RtTimer

def nodesOf (rows : TimerList × Nat → List Tmr) (head : TimerList × Nat) :
    List (RowNode Tmr) :=
  (rows head).map fun t => ⟨t, head.2⟩

variable {t : Tmr}

theorem mem_nodesOf {rows : TimerList × Nat → List Tmr} {head : TimerList × Nat} {row : Nat} :
    ⟨t, row⟩ ∈ nodesOf rows head ↔ t ∈ rows head ∧ head.2 = row := by
  simp [nodesOf]

/-- The links hold the rows `rows`, and the last row of each list its active timers. -/
structure Rows (cfg : Config) (s : Timers Tmr) (rows : TimerList × Nat → List Tmr) :
    Prop where
  represents : s.links.Represents (nodesOf rows)
  outside : ∀ list row, cfg.level ≤ row → rows (list, row) = []
  sublist : ∀ list row, row + 1 < cfg.level →
    (rows (list, row)).Sublist (rows (list, row + 1))
  ownList : ∀ list t, t ∈ rows (list, cfg.level - 1) → (s.timer t).timerList = list
  active : ∀ t, s.active t = true ↔
    t ∈ rows ((s.timer t).timerList, cfg.level - 1)
  counted : ∀ list, (rows (list, cfg.level - 1)).length ≤ s.starts

namespace Rows

variable {cfg : Config} {s : Timers Tmr} {rows : TimerList × Nat → List Tmr}

section

variable (holds : Rows cfg s rows)

include holds

theorem nodup (head : TimerList × Nat) : (rows head).Nodup := (holds.represents.nodup head).of_map

theorem sublist_last (list : TimerList) (row : Nat) :
    (rows (list, row)).Sublist (rows (list, cfg.level - 1)) := by
  by_cases inside : row < cfg.level
  · have between : ∀ gap, row + gap < cfg.level →
        (rows (list, row)).Sublist (rows (list, row + gap)) := by
      intro gap
      induction gap with
      | zero => exact fun _ => List.Sublist.refl _
      | succ gap ih =>
        intro below
        exact (ih (by omega)).trans (holds.sublist list (row + gap) below)
    have atLast := between (cfg.level - 1 - row) (by omega)
    rwa [show row + (cfg.level - 1 - row) = cfg.level - 1 by omega] at atLast
  · rw [holds.outside list row (Nat.le_of_not_lt inside)]
    exact List.nil_sublist _

theorem mem_iff_active {list : TimerList} :
    t ∈ rows (list, cfg.level - 1) ↔ s.active t = true ∧ (s.timer t).timerList = list := by
  constructor
  · intro mem
    have own := holds.ownList list t mem
    exact ⟨(holds.active t).mpr (own ▸ mem), own⟩
  · rintro ⟨isActive, rfl⟩
    exact (holds.active t).mp isActive

theorem next_head (list : TimerList) : Timers.entryOf (s.links.next (.head (list, cfg.level - 1))) =
      (rows (list, cfg.level - 1)).head? := by
  rw [holds.represents.next_head, nodesOf]
  cases rows (list, cfg.level - 1) <;> rfl

theorem next_entry {list : TimerList} {front back : List Tmr}
    (split : rows (list, cfg.level - 1) = front ++ t :: back) :
    s.links.next (.entry ⟨t, cfg.level - 1⟩) =
      (back.head?.map fun u => .entry ⟨u, cfg.level - 1⟩).getD (.head (list, cfg.level - 1)) := by
  have nodesSplit : nodesOf rows (list, cfg.level - 1) =
      (front ++ [t]).map (fun t => ⟨t, cfg.level - 1⟩) ++ back.map fun t => ⟨t, cfg.level - 1⟩ := by
    simp [nodesOf, split]
  have next := holds.represents.next_placeOf nodesSplit
  rw [List.map_append, List.map_singleton, Links.placeOf_concat, List.head?_map,
    Option.map_map] at next
  exact next

theorem alone_of_inactive (inactive : ¬ s.active t = true) (row : Nat) :
    s.links.Alone (.entry ⟨t, row⟩) := by
  apply holds.represents.alone
  rintro ⟨list, p⟩ mem
  obtain ⟨inRow, rfl⟩ := mem_nodesOf.mp mem
  exact inactive (holds.mem_iff_active.mp ((holds.sublist_last list p).subset inRow)).1

theorem linked_iff (t : Tmr) : s.Linked cfg t ↔ s.active t = true := by
  by_cases isActive : s.active t = true
  · refine iff_of_true ?_ isActive
    obtain ⟨front, back, split⟩ := List.append_of_mem ((holds.active t).mp isActive)
    have nodup := holds.nodup ((s.timer t).timerList, cfg.level - 1)
    rw [split] at nodup
    rw [Timers.Linked, holds.next_entry split]
    cases back with
    | nil => simp
    | cons other back =>
      have ne : other ≠ t := fun equal => by simp [equal, List.nodup_append] at nodup
      simpa using ne
  · exact iff_of_false (fun linked => linked (holds.alone_of_inactive isActive _).1) isActive

end

variable [DecidableEq Tmr]

theorem setTimer (holds : Rows cfg s rows) {timer : RtTimer}
    (sameList : timer.timerList = (s.timer t).timerList) : Rows cfg (s.setTimer t timer) rows := by
  have timerList : ∀ other, ((s.setTimer t timer).timer other).timerList =
      (s.timer other).timerList := by
    intro other
    by_cases same : other = t
    · subst same
      simpa using sameList
    · simp [same]
  refine ⟨holds.represents, holds.outside, holds.sublist, ?_, ?_, holds.counted⟩
  · intro list other mem
    rw [timerList]
    exact holds.ownList list other mem
  · intro other
    rw [timerList]
    exact holds.active other

theorem represents_rtTimerRemove {links : Links (Node Tmr)}
    (rep : links.Represents (nodesOf rows)) (t : Tmr) (n : Nat) :
    (rtTimerRemove links t n).Represents
      (nodesOf fun head => if head.2 < n then (rows head).erase t else rows head) := by
  induction n with
  | zero => simpa [rtTimerRemove] using rep
  | succ n ih =>
    have removed := ih.remove ⟨t, n⟩
    rw [rtTimerRemove]
    convert removed using 2 with head
    obtain ⟨list, row⟩ := head
    simp only [nodesOf]
    have injective : Function.Injective fun t : Tmr => (⟨t, row⟩ : RowNode Tmr) :=
      fun _ _ equal => by
      simpa using equal
    rcases Nat.lt_trichotomy row n with lower | rfl | higher
    · rw [if_pos lower, if_pos (Nat.lt_succ_of_lt lower)]
      have absent : ⟨t, n⟩ ∉ ((rows (list, row)).erase t).map fun t =>
        (⟨t, row⟩ : RowNode Tmr) := by
        simp [lower.ne]
      rw [List.erase_of_not_mem absent]
    · rw [if_neg (Nat.lt_irrefl _), if_pos (Nat.lt_succ_self _)]
      exact List.map_erase injective _
    · rw [if_neg higher.not_gt, if_neg (Nat.not_lt.mpr higher)]
      have absent : ⟨t, n⟩ ∉ (rows (list, row)).map fun t => (⟨t, row⟩ : RowNode Tmr) := by
        simp [higher.ne']
      rw [List.erase_of_not_mem absent]

theorem remove (holds : Rows cfg s rows) (t : Tmr) :
    Rows cfg (s.remove cfg t) fun head => (rows head).erase t := by
  have erased : (fun head => if head.2 < cfg.level then (rows head).erase t else rows head) =
      fun head => (rows head).erase t := by
    funext ⟨list, row⟩
    by_cases inside : row < cfg.level
    · simp [inside]
    · simp [holds.outside list row (Nat.le_of_not_lt inside)]
  refine ⟨?_, ?_, ?_, ?_, ?_, ?_⟩
  · rw [← erased]
    exact represents_rtTimerRemove holds.represents t cfg.level
  · intro list row above
    simp [holds.outside list row above]
  · intro list row inside
    exact (holds.sublist list row inside).erase t
  · intro list other mem
    exact holds.ownList list other (List.mem_of_mem_erase mem)
  · intro other
    by_cases same : other = t
    · subst same
      simp [(holds.nodup _).not_mem_erase]
    · simpa [same] using holds.active other
  · intro list
    exact (List.length_erase_le).trans (holds.counted list)

end Rows

end RtThread.Timer
