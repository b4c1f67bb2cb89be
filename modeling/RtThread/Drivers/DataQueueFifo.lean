import RtThread.Drivers.DataQueue
import RtThread.Library.CircularBuffer

/-!
# A data queue before and after its indices wrap

The indices always are the numbers of pushes and pops modulo 65536.
-/

open TransitionSystem

namespace RtThread.DataQueue

open BitVec (ofNat_add toNat_add toNat_ofNat)

universe u

variable {Tid : Type u}

theorem slot_taken_iff {size get count : Nat} (room : count < size) (small : size < 0x10000)
    (inRange : get < 0x10000) :
    (∃ i < count, (get + i) % 0x10000 % size = (get + count) % 0x10000 % size) ↔
      0x10000 ≤ get + count ∧ (0xffff - (get + count - 0x10000)) % size < 0x10000 - get := by
  rcases Nat.lt_or_ge (get + count) 0x10000 with flat | wrapped
  · refine iff_of_false ?_ (by omega)
    rintro ⟨i, below, same⟩
    rw [Nat.mod_eq_of_lt (by omega : get + i < 0x10000), Nat.mod_eq_of_lt flat] at same
    exact CircularBuffer.offset_ne below room same
  · obtain ⟨put, isPut⟩ : ∃ put, get + count = put + 0x10000 := ⟨get + count - 0x10000, by omega⟩
    have putSlot : (get + count) % 0x10000 % size = put := by
      rw [isPut, Nat.add_mod_right, Nat.mod_eq_of_lt (by omega : put < 0x10000),
        Nat.mod_eq_of_lt (by omega)]
    rw [putSlot, (by omega : get + count - 0x10000 = put)]
    constructor
    · rintro ⟨i, below, same⟩
      refine ⟨wrapped, ?_⟩
      rcases Nat.lt_or_ge (get + i) 0x10000 with early | late
      · rw [Nat.mod_eq_of_lt early] at same
        have divides : size ∣ get + i - put := by
          rw [← same]
          exact Nat.dvd_sub_mod _
        obtain ⟨turns, turnsEq⟩ := divides
        have split : 0xffff - put = 0xffff - (get + i) + size * turns := by omega
        rw [split, Nat.add_mul_mod_self_left]
        have := Nat.mod_le (0xffff - (get + i)) size
        omega
      · obtain ⟨late', isLate⟩ : ∃ late', get + i = late' + 0x10000 := ⟨get + i - 0x10000, by omega⟩
        rw [isLate, Nat.add_mod_right, Nat.mod_eq_of_lt (by omega : late' < 0x10000),
          Nat.mod_eq_of_lt (by omega)] at same
        omega
    · rintro ⟨-, soon⟩
      have whole := Nat.div_add_mod (0xffff - put) size
      refine ⟨0xffff - (0xffff - put) % size - get, by omega, ?_⟩
      have index : get + (0xffff - (0xffff - put) % size - get) =
          put + size * ((0xffff - put) / size) := by omega
      rw [index, Nat.mod_eq_of_lt (by omega : put + size * ((0xffff - put) / size) < 0x10000),
        Nat.add_mul_mod_self_left, Nat.mod_eq_of_lt (by omega)]

/-- The indices are the numbers of pushes and pops. -/
structure Counted (size : BitVec 16) (s : State Tid) : Prop where
  size_eq : s.size = size
  size_pos : 0 < size.toNat
  putIndex_eq : s.putIndex = BitVec.ofNat 16 s.pushed.length
  getIndex_eq : s.getIndex = BitVec.ofNat 16 s.popped.length

structure InSlots (s : State Tid) : Prop where
  bounded : s.count ≤ s.size.toNat
  inOrder : s.pushed = s.popped ++ s.stored
  apart : s.slots.Nodup

/-- What is left of `IsFifo` without the call of a push. -/
structure HoldsItems (s : State Tid) : Prop extends InSlots s where
  full_iff : s.Full ↔ s.count = s.size.toNat

@[simp] theorem length_stored (s : State Tid) : s.stored.length = s.count := by
  simp [State.stored, State.slots]

variable [DecidableEq Tid]

namespace State

variable (s : State Tid)

def content : BitVec 16 × BitVec 16 × BitVec 16 × (Nat → RtDataItem) × List RtDataItem ×
    List RtDataItem :=
  (s.size, s.getIndex, s.putIndex, s.queue, s.pushed, s.popped)

def withItem (item : RtDataItem) : State Tid :=
  { s with
    queue := Function.update s.queue (s.slot s.putIndex) item
    putIndex := s.putIndex + 1
    pushed := s.pushed ++ [item] }

def withoutItem : State Tid :=
  { s with
    getIndex := s.getIndex + 1
    popped := s.popped ++ [s.queue (s.slot s.getIndex)] }

@[simp] theorem content_leave (c : Option Tid) : (s.leave c).content = s.content := by
  cases c <;> rfl

@[simp] theorem content_wake (side : Side) : (s.wake side).content = s.content := by
  unfold wake
  split <;> rfl

theorem content_putItem (x : RtDataItem) : (putItem s x).content = (s.withItem x).content := by
  rw [putItem, content_wake]
  rfl

theorem content_getItem : (getItem s).content = s.withoutItem.content := by
  unfold getItem
  simp only
  split
  · rw [content_wake]
    rfl
  · rfl

end State

omit [DecidableEq Tid] in
variable {s after : State Tid}

theorem Counted.congr {size : BitVec 16} (counted : Counted size s)
    (same : after.content = s.content) : Counted size after := by
  simp only [State.content, Prod.mk.injEq] at same
  obtain ⟨sameSize, sameGet, samePut, -, samePushed, samePopped⟩ := same
  exact ⟨sameSize ▸ counted.size_eq, counted.size_pos,
    samePut ▸ samePushed ▸ counted.putIndex_eq, sameGet ▸ samePopped ▸ counted.getIndex_eq⟩

section

variable {s after : State Tid} (same : after.content = s.content)

include same

section

omit [DecidableEq Tid]

theorem stored_congr : after.stored = s.stored := by
  obtain ⟨kernel, size, lwm, getIndex, putIndex, queue, call, pushed, popped⟩ := s
  obtain ⟨rfl, rfl, rfl, rfl, rfl, rfl⟩ := same
  rfl

theorem inSlots_congr : InSlots after ↔ InSlots s := by
  obtain ⟨kernel, size, lwm, getIndex, putIndex, queue, call, pushed, popped⟩ := s
  obtain ⟨rfl, rfl, rfl, rfl, rfl, rfl⟩ := same
  exact ⟨fun held => ⟨held.bounded, held.inOrder, held.apart⟩,
    fun held => ⟨held.bounded, held.inOrder, held.apart⟩⟩

theorem holdsItems_congr : HoldsItems after ↔ HoldsItems s := by
  have inSlots := inSlots_congr same
  obtain ⟨kernel, size, lwm, getIndex, putIndex, queue, call, pushed, popped⟩ := s
  obtain ⟨rfl, rfl, rfl, rfl, rfl, rfl⟩ := same
  exact ⟨fun holds => ⟨inSlots.mp holds.toInSlots, holds.full_iff⟩,
    fun holds => ⟨inSlots.mpr holds.toInSlots, holds.full_iff⟩⟩

end

end

inductive Effect (s : State Tid) (event : Event Tid) (after : State Tid) : Prop where
  | put (isPush : event.IsPush s) (notFull : ¬ s.Full) (item : RtDataItem)
      (content : after.content = (s.withItem item).content)
  | got (notPush : ¬ event.IsPush s) (notEmpty : s.getIndex ≠ s.putIndex)
      (content : after.content = s.withoutItem.content)
  | kept (refused : event.IsPush s → s.Full) (content : after.content = s.content)

variable {r : Option RtErr} {timeout : BitVec 32} {x : RtDataItem} {c : Option Tid}

theorem push_outcome (pushed : rtDataQueuePush s c x timeout = some (after, r)) :
    (r = some .eok ∧ ¬ s.Full ∧ after.content = (s.withItem x).content) ∨
      (r ≠ some .eok ∧ s.Full ∧ after.content = s.content) := by
  unfold rtDataQueuePush at pushed
  split at pushed
  · rename_i full
    right
    split at pushed
    · cases pushed
      exact ⟨by simp, full, s.content_leave c⟩
    · split at pushed
      · simp at pushed
      · cases pushed
        exact ⟨by simp, full, rfl⟩
  · rename_i notFull
    cases pushed
    refine .inl ⟨rfl, notFull, ?_⟩
    rw [State.content_leave, State.content_putItem]

theorem pop_outcome (popped : rtDataQueuePop s c timeout = some (after, r)) :
    (s.getIndex ≠ s.putIndex ∧ after.content = s.withoutItem.content) ∨
      (s.getIndex = s.putIndex ∧ after.content = s.content) := by
  unfold rtDataQueuePop at popped
  split at popped
  · rename_i isEmpty
    right
    split at popped
    · cases popped
      exact ⟨isEmpty, s.content_leave c⟩
    · split at popped
      · simp at popped
      · cases popped
        exact ⟨isEmpty, rfl⟩
  · rename_i notEmpty
    cases popped
    refine .inl ⟨notEmpty, ?_⟩
    rw [State.content_leave, State.content_getItem]

theorem push_refused_iff (pushed : rtDataQueuePush s c x timeout = some (after, r)) :
    r ≠ some .eok ↔ s.Full := by
  rcases push_outcome pushed with ⟨accepted, notFull, -⟩ | ⟨refused, full, -⟩
  · exact iff_of_false (not_not.mpr accepted) notFull
  · exact iff_of_true refused full

theorem isFifo_iff {s : State Tid} : IsFifo s ↔ HoldsItems s := by
  constructor
  · intro fifo
    refine ⟨⟨length_stored s ▸ fifo.bounded, fifo.inOrder, fifo.apart⟩, ?_⟩
    obtain ⟨⟨after, r⟩, pushed⟩ : ∃ outcome, rtDataQueuePush s none ⟨0, 0⟩ 0 = some outcome := by
      unfold rtDataQueuePush
      split <;> simp
    rw [← push_refused_iff pushed, fifo.refuses _ _ _ _ _ pushed, length_stored]
  · intro holds
    refine ⟨(length_stored s).symm ▸ holds.bounded, holds.inOrder, holds.apart, ?_⟩
    intro c x timeout after r pushed
    rw [push_refused_iff pushed, length_stored, holds.full_iff]

variable {event : Event Tid}

theorem push_effect (isPush : event.IsPush s)
    (pushed : rtDataQueuePush s c x timeout = some (after, r)) : Effect s event after := by
  rcases push_outcome pushed with ⟨-, notFull, content⟩ | ⟨-, full, content⟩
  · exact .put isPush notFull x content
  · exact .kept (fun _ => full) content

theorem pop_effect (notPush : ¬ event.IsPush s)
    (popped : rtDataQueuePop s c timeout = some (after, r)) : Effect s event after := by
  rcases pop_outcome popped with ⟨notEmpty, content⟩ | ⟨-, content⟩
  · exact .got notPush notEmpty content
  · exact .kept (fun isPush => absurd isPush notPush) content

theorem step_effect (ran : step s event = some after) : Effect s event after := by
  cases event with
  | push c x timeout =>
    simp only [step, Option.ite_none_right_eq_some, Option.map_eq_some_iff] at ran
    obtain ⟨-, ⟨_, r⟩, pushed, rfl⟩ := ran
    exact push_effect trivial pushed
  | pop c timeout =>
    simp only [step, Option.ite_none_right_eq_some, Option.map_eq_some_iff] at ran
    obtain ⟨-, ⟨_, r⟩, popped, rfl⟩ := ran
    exact pop_effect (fun isPush => isPush) popped
  | resumed t =>
    simp only [step] at ran
    split at ran
    · rename_i call isCall
      simp only [Option.ite_none_right_eq_some, Option.map_eq_some_iff] at ran
      obtain ⟨-, ⟨_, r⟩, resumed, rfl⟩ := ran
      unfold callResumed at resumed
      simp only at resumed
      split at resumed
      · rename_i woken
        cases resumed
        exact .kept (fun isPush => absurd isPush.2 woken) (s.content_leave (some t))
      · rename_i noError
        cases call with
        | push x timeout =>
          exact push_effect ⟨by simp [isCall, Call.isPush], not_not.mp noError⟩ resumed
        | pop timeout =>
          refine pop_effect ?_ resumed
          rintro ⟨isPush, -⟩
          simp [isCall, Call.isPush] at isPush
    · simp at ran
  | timeout t =>
    obtain ⟨-, ⟨⟩⟩ := Option.ite_none_right_eq_some.mp ran
    exact .kept (fun isPush => isPush.elim) rfl

section exactness

variable {size : BitVec 16} {s : State Tid}

omit [DecidableEq Tid]

theorem slot_add (s : State Tid) (i : Nat) :
    s.slot (s.getIndex + BitVec.ofNat 16 i) = (s.getIndex.toNat + i) % 0x10000 % s.size.toNat := by
  rw [State.slot, toNat_add, toNat_ofNat, Nat.add_mod_mod]

theorem InSlots.length_pushed (held : InSlots s) : s.pushed.length = s.popped.length + s.count := by
  have := congrArg List.length held.inOrder
  rwa [List.length_append, length_stored] at this

theorem InSlots.count_lt (held : InSlots s) : s.count < 0x10000 := held.bounded.trans_lt s.size.isLt

theorem Counted.putIndex_toNat (counted : Counted size s) (held : InSlots s) :
    s.putIndex.toNat = (s.getIndex.toNat + s.count) % 0x10000 := by
  rw [counted.putIndex_eq, counted.getIndex_eq, toNat_ofNat, toNat_ofNat,
    Nat.mod_add_mod, held.length_pushed]

theorem Counted.putIndex_eq_add (counted : Counted size s) (held : InSlots s) :
    s.putIndex = s.getIndex + BitVec.ofNat 16 s.count := by
  rw [counted.putIndex_eq, counted.getIndex_eq, held.length_pushed, ofNat_add]

theorem Counted.sub_toNat (counted : Counted size s) (held : InSlots s) :
    (s.putIndex - s.getIndex).toNat = s.count := by
  have small := held.count_lt
  have put := counted.putIndex_toNat held
  rw [BitVec.toNat_sub]
  omega

theorem HoldsItems.room (holds : HoldsItems s) (notFull : ¬ s.Full) : s.count < s.size.toNat := by
  have bounded := holds.bounded
  have notAll := mt holds.full_iff.mpr notFull
  omega

theorem Counted.exists_count_eq (counted : Counted size s) (held : InSlots s)
    (notEmpty : s.getIndex ≠ s.putIndex) : ∃ rest, s.count = rest + 1 := by
  apply Nat.exists_eq_succ_of_ne_zero
  intro none
  apply notEmpty
  rw [counted.putIndex_eq_add held, none]
  exact (BitVec.add_zero _).symm

theorem InSlots.count_withoutItem (held : InSlots s) {rest : Nat}
    (count : s.count = rest + 1) : s.withoutItem.count = rest := by
  have pushed := held.length_pushed
  simp only [State.count, State.withoutItem, List.length_append, List.length_singleton]
  omega

theorem InSlots.slots_eq_cons (held : InSlots s) {rest : Nat} (count : s.count = rest + 1) :
    s.slots = s.slot s.getIndex :: s.withoutItem.slots := by
  rw [State.slots, count, List.range_succ_eq_map, List.map_cons, State.slots,
    held.count_withoutItem count, List.map_map]
  congr 1
  · rw [slot_add, State.slot, Nat.add_zero, Nat.mod_eq_of_lt s.getIndex.isLt]
  · apply List.map_congr_left
    intro i _
    have shifted : s.getIndex + BitVec.ofNat 16 (i + 1) = s.getIndex + 1 + BitVec.ofNat 16 i := by
      rw [ofNat_add, BitVec.add_comm (BitVec.ofNat 16 i), ← BitVec.add_assoc]
      rfl
    exact congrArg s.slot shifted

theorem InSlots.stored_eq_cons (held : InSlots s) (counted : Counted size s)
    (notEmpty : s.getIndex ≠ s.putIndex) :
    s.stored = s.queue (s.slot s.getIndex) :: s.withoutItem.stored := by
  obtain ⟨rest, count⟩ := counted.exists_count_eq held notEmpty
  rw [State.stored, held.slots_eq_cons count, List.map_cons]
  rfl

theorem InSlots.withoutItem (held : InSlots s) (counted : Counted size s)
    (notEmpty : s.getIndex ≠ s.putIndex) : InSlots s.withoutItem := by
  have bounded := held.bounded
  obtain ⟨rest, count⟩ := counted.exists_count_eq held notEmpty
  constructor
  · rw [held.count_withoutItem count]
    change rest ≤ s.size.toNat
    omega
  · have inOrder := held.inOrder
    rw [held.stored_eq_cons counted notEmpty] at inOrder
    change s.pushed = (s.popped ++ [s.queue (s.slot s.getIndex)]) ++ s.withoutItem.stored
    rw [List.append_assoc]
    exact inOrder
  · exact (List.nodup_cons.mp (held.slots_eq_cons count ▸ held.apart)).2

theorem HoldsItems.withoutItem (holds : HoldsItems s) (counted : Counted size s)
    (notEmpty : s.getIndex ≠ s.putIndex) : HoldsItems s.withoutItem := by
  have bounded := holds.bounded
  have put := counted.putIndex_toNat holds.toInSlots
  obtain ⟨rest, count⟩ := counted.exists_count_eq holds.toInSlots notEmpty
  have index : s.withoutItem.getIndex.toNat = (s.getIndex.toNat + 1) % 0x10000 :=
    toNat_add ..
  refine ⟨holds.toInSlots.withoutItem counted notEmpty, iff_of_false ?_ ?_⟩
  · intro full
    rw [State.Full, State.difference, index] at full
    simp only [State.withoutItem] at full
    omega
  · rw [holds.count_withoutItem count]
    change rest ≠ s.size.toNat
    omega

theorem InSlots.count_withItem (held : InSlots s) (x : RtDataItem) :
    (s.withItem x).count = s.count + 1 := by
  have pushed := held.length_pushed
  simp only [State.count, State.withItem, List.length_append, List.length_singleton] at pushed ⊢
  omega

theorem InSlots.slots_withItem (held : InSlots s) (counted : Counted size s) (x : RtDataItem) :
    (s.withItem x).slots = s.slots ++ [s.slot s.putIndex] := by
  rw [State.slots, held.count_withItem, List.range_succ, List.map_append, List.map_singleton,
    counted.putIndex_eq_add held]
  rfl

theorem InSlots.slot_putIndex_notMem_iff (held : InSlots s)
    (counted : Counted size s) (room : s.count < s.size.toNat) : s.slot s.putIndex ∉ s.slots ↔
      (s.putIndex.toNat < s.getIndex.toNat →
        0x10000 - s.getIndex.toNat ≤ (0xffff - s.putIndex.toNat) % s.size.toNat) := by
  have inRange := s.getIndex.isLt
  have put := counted.putIndex_toNat held
  have taken := slot_taken_iff room s.size.isLt inRange
  have member : s.slot s.putIndex ∈ s.slots ↔ ∃ i < s.count,
      (s.getIndex.toNat + i) % 0x10000 % s.size.toNat =
        (s.getIndex.toNat + s.count) % 0x10000 % s.size.toNat := by
    simp only [State.slots, List.mem_map, List.mem_range, slot_add]
    rw [State.slot, put]
  rw [member, taken]
  rcases Nat.lt_or_ge (s.getIndex.toNat + s.count) 0x10000 with flat | wrapped
  · exact iff_of_true (by omega) (by omega)
  · have index : s.putIndex.toNat = s.getIndex.toNat + s.count - 0x10000 := by omega
    have earlier : s.putIndex.toNat < s.getIndex.toNat := by omega
    rw [index] at earlier
    simp only [wrapped, true_and, index, earlier, forall_const, not_lt]

theorem HoldsItems.full_withItem_iff (holds : HoldsItems s) (counted : Counted size s)
    (room : s.count < s.size.toNat) (x : RtDataItem) :
    ((s.withItem x).Full ↔ (s.withItem x).count = s.size.toNat) ↔ (s.count + 1 = s.size.toNat →
        s.getIndex.toNat + s.size.toNat < 0x10000) := by
  have next : (s.withItem x).Full ↔
      ((s.getIndex.toNat + s.count + 1) % 0x10000 : Nat) = s.getIndex.toNat + s.size.toNat := by
    have index : (s.putIndex + 1).toNat = (s.getIndex.toNat + s.count + 1) % 0x10000 := by
      rw [toNat_add, counted.putIndex_toNat holds.toInSlots]
      exact Nat.mod_add_mod _ _ _
    rw [State.Full, State.difference]
    simp only [State.withItem]
    omega
  rw [next, holds.count_withItem]
  omega

theorem InSlots.stored_withItem (held : InSlots s) (counted : Counted size s)
    (fresh : s.slot s.putIndex ∉ s.slots) (item : RtDataItem) :
    (s.withItem item).stored = s.stored ++ [item] := by
  have kept : s.slots.map (s.withItem item).queue = s.stored := by
    apply List.map_congr_left
    intro slot taken
    apply Function.update_of_ne
    rintro rfl
    exact fresh taken
  rw [State.stored, held.slots_withItem counted item, List.map_append, kept, List.map_singleton]
  simp only [State.withItem, Function.update_self]

theorem InSlots.withItem_iff (held : InSlots s) (counted : Counted size s)
    (room : s.count < s.size.toNat) (x : RtDataItem) :
    InSlots (s.withItem x) ↔ s.slot s.putIndex ∉ s.slots := by
  have slots := held.slots_withItem counted x
  constructor
  · intro after taken
    have apart := after.apart
    rw [slots] at apart
    exact (List.nodup_append.mp apart).2.2 _ taken _ List.mem_cons_self rfl
  · intro fresh
    constructor
    · rw [held.count_withItem]
      exact room
    · rw [held.stored_withItem counted fresh, ← List.append_assoc]
      exact congrArg (· ++ [x]) held.inOrder
    · rw [slots]
      refine List.nodup_append.mpr ⟨held.apart, List.nodup_singleton _, ?_⟩
      intro slot taken other isPut
      rw [List.mem_singleton.mp isPut]
      exact fun same => fresh (same ▸ taken)

theorem HoldsItems.withItem_iff (holds : HoldsItems s) (counted : Counted size s)
    (notFull : ¬ s.Full) (x : RtDataItem) : HoldsItems (s.withItem x) ↔ Fits s := by
  have room := holds.room notFull
  have full := holds.full_withItem_iff counted room x
  have inSlots := holds.toInSlots.withItem_iff counted room x
  rw [holds.slot_putIndex_notMem_iff counted room] at inSlots
  rw [Fits, counted.sub_toNat holds.toInSlots]
  constructor
  · exact fun after => ⟨full.mp after.full_iff, inSlots.mp after.toInSlots⟩
  · exact fun ⟨fits, free⟩ => ⟨inSlots.mpr free, full.mpr fits⟩

theorem Counted.withItem (counted : Counted size s) (x : RtDataItem) :
    Counted size (s.withItem x) := by
  refine ⟨counted.size_eq, counted.size_pos, ?_, counted.getIndex_eq⟩
  simp only [State.withItem, counted.putIndex_eq, List.length_append,
    ofNat_add]
  rfl

theorem Counted.withoutItem (counted : Counted size s) : Counted size s.withoutItem := by
  refine ⟨counted.size_eq, counted.size_pos, counted.putIndex_eq, ?_⟩
  simp only [State.withoutItem, counted.getIndex_eq, List.length_append,
    ofNat_add]
  rfl

end exactness

variable {size lwm : BitVec 16} {s after : State Tid} {event : Event Tid}

section

omit [DecidableEq Tid]

theorem Effect.counted (effect : Effect s event after) (counted : Counted size s) :
    Counted size after := by
  cases effect with
  | put isPush notFull x content => exact (counted.withItem x).congr content
  | got notPush notEmpty content => exact counted.withoutItem.congr content
  | kept refused content => exact counted.congr content

theorem Effect.holdsItems_iff (effect : Effect s event after) (counted : Counted size s)
    (holds : HoldsItems s) : HoldsItems after ↔ PushFits s event := by
  cases effect with
  | put isPush notFull item content =>
    rw [holdsItems_congr content, holds.withItem_iff counted notFull item]
    exact ⟨fun fits _ _ => fits, fun fits => fits isPush notFull⟩
  | got notPush notEmpty content =>
    rw [holdsItems_congr content]
    exact iff_of_true (holds.withoutItem counted notEmpty) fun isPush => absurd isPush notPush
  | kept refused content =>
    rw [holdsItems_congr content]
    exact iff_of_true holds fun isPush notFull => absurd (refused isPush) notFull

theorem Initial.counted (init : Initial size lwm s) : Counted size s where
  size_eq := init.size_eq
  size_pos := init.size_pos
  putIndex_eq := by rw [init.putIndex_eq, init.pushed_eq]; rfl
  getIndex_eq := by rw [init.getIndex_eq, init.popped_eq]; rfl

theorem Initial.holdsItems (init : Initial size lwm s) : HoldsItems s := by
  have count : s.count = 0 := by
    rw [State.count, init.pushed_eq]
    exact Nat.zero_sub _
  have slots : s.slots = [] := by rw [State.slots, count]; rfl
  refine ⟨⟨?_, ?_, ?_⟩, ?_⟩
  · omega
  · rw [State.stored, slots, init.pushed_eq, init.popped_eq]
    rfl
  · rw [slots]
    exact List.nodup_nil
  · rw [State.Full, State.difference, init.putIndex_eq, init.getIndex_eq]
    omega

end

/-- Over any run a data queue is a bounded queue throughout exactly if every push that it
accepts finds room before its indices wrap. -/
theorem fifo_throughout_iff {taken : List (Taken (State Tid) (Event Tid))}
    {last : State Tid} (run : (system size lwm).Run taken last) : Throughout IsFifo taken last ↔
      EveryStep PushFits taken := by
  have invBase : ∀ s : State Tid, Initial size lwm s → Counted size s := fun _ init => init.counted
  refine run.throughout_iff_everyStep invBase ?_ ?_ ?_
  · intro s event after counted ran
    exact (step_effect ran).counted counted
  · intro s init
    exact isFifo_iff.mpr init.holdsItems
  · intro s event after counted fifo ran
    rw [isFifo_iff]
    exact (step_effect ran).holdsItems_iff counted (isFifo_iff.mp fifo)

/-- A data queue just initialised, with `n` started threads of equal priority. -/
def fresh (n : Nat) (size lwm : BitVec 16) : State (Fin n) where
  kernel := Kernel.started (List.finRange n) fun _ => 10
  size := size
  lwm := lwm
  getIndex := 0
  putIndex := 0
  queue _ := ⟨0, 0⟩
  call _ := none
  pushed := []
  popped := []

theorem fresh_initial {n : Nat} {size lwm : BitVec 16} (pos : 0 < size.toNat) :
    Initial size lwm (fresh n size lwm) where
  wellFormed := Kernel.started_wellFormed (List.nodup_finRange n) _
  noWaiters _ := rfl
  noCalls _ := rfl
  size_eq := rfl
  size_pos := pos
  lwm_eq := rfl
  getIndex_eq := rfl
  putIndex_eq := rfl
  pushed_eq := rfl
  popped_eq := rfl

instance (s : State Tid) : (event : Event Tid) → Decidable (event.IsPush s)
  | .push .. => .isTrue trivial
  | .resumed _ => instDecidableAnd
  | .pop .. | .timeout _ => .isFalse id

instance (s : State Tid) : Decidable (Fits s) := instDecidableAnd

instance (s : State Tid) (event : Event Tid) : Decidable (PushFits s event) :=
  inferInstanceAs (Decidable (event.IsPush s → _ → _))

theorem waiting_push_fifo : Throughout IsFifo (record step [] (fresh 2 2 1)
        [.push none ⟨1, 4⟩ 0, .push (some 1) ⟨2, 4⟩ 0, .push (some 0) ⟨3, 4⟩ (-1), .pop none 0,
          .resumed 0]) ((execute step (fresh 2 2 1)
        [.push none ⟨1, 4⟩ 0, .push (some 1) ⟨2, 4⟩ 0, .push (some 0) ⟨3, 4⟩ (-1), .pop none 0,
          .resumed 0]).get (by decide)) :=
  (fifo_throughout_iff (Run.execute
    (.start (fresh_initial (by decide) : Initial 2 1 (fresh 2 2 1)))
    (Option.some_get _).symm)).mpr (by decide)

theorem step_push {s : State Tid} (notFull : ¬ s.Full) (nobody : s.waiters .pop = [])
    (x : RtDataItem) : step s (.push none x 0) = some (s.withItem x) := by
  have wakes : putItem s x = s.withItem x :=
    if_neg (not_not.mpr nobody)
  simp only [step, rtDataQueuePush, notFull,
    wakes]
  rfl

theorem step_pop {s : State Tid} (notEmpty : s.getIndex ≠ s.putIndex)
    (nobody : s.waiters .push = []) : step s (.pop none 0) = some s.withoutItem := by
  have wakes : getItem s = s.withoutItem := by
    unfold getItem
    simp only
    split
    · exact if_neg (not_not.mpr nobody)
    · rfl
  simp only [step, rtDataQueuePop, notEmpty,
    wakes]
  rfl

/-- A queue of one slot after `n` pushes and as many pops. -/
def cycled (n : Nat) : State (Fin 1) :=
  { fresh 1 1 0 with
    getIndex := BitVec.ofNat 16 n
    putIndex := BitVec.ofNat 16 n
    pushed := List.replicate n ⟨0, 0⟩
    popped := List.replicate n ⟨0, 0⟩ }

theorem cycled_push (n : Nat) :
    step (cycled n) (.push none ⟨0, 0⟩ 0) = some ((cycled n).withItem ⟨0, 0⟩) := by
  apply step_push
  · simp [State.Full, State.difference, cycled, fresh]
  · rfl

theorem cycled_pop (n : Nat) :
    step ((cycled n).withItem ⟨0, 0⟩) (.pop none 0) = some (cycled (n + 1)) := by
  rw [step_pop]
  · simp [State.withoutItem, State.withItem, cycled, fresh, ofNat_add, List.replicate_succ']
  · intro same
    simp [State.withItem, cycled] at same
  · rfl

theorem cycled_run (n : Nat) : ∃ taken, (system 1 0).Run taken (cycled n) := by
  induction n with
  | zero => exact ⟨[], .start (fresh_initial (by decide))⟩
  | succ n ih =>
    obtain ⟨taken, run⟩ := ih
    exact ⟨_, (run.next (cycled_push n)).next (cycled_pop n)⟩

theorem cycled_count (n : Nat) : (((cycled n).withItem ⟨0, 0⟩).withItem ⟨0, 0⟩).count = 2 := by
  simp [State.count, State.withItem, cycled]

theorem cycled_push_again {n : Nat} (atEnd : BitVec.ofNat 16 n = 0xffff) :
    step ((cycled n).withItem ⟨0, 0⟩) (.push none ⟨0, 0⟩ 0) =
      some (((cycled n).withItem ⟨0, 0⟩).withItem ⟨0, 0⟩) := by
  apply step_push
  · simp [State.Full, State.difference, State.withItem, cycled, atEnd]
  · rfl

/-- The 65536th push lets `put_index` wrap; the next push finds the only slot taken and
is accepted all the same. -/
theorem push_after_wrap_not_fifo : ¬ ∀ (taken : List (Taken (State (Fin 1)) (Event (Fin 1))))
      (last : State (Fin 1)), (system 1 0).Run taken last → Throughout IsFifo taken last := by
  intro claim
  obtain ⟨taken, run⟩ := cycled_run 65535
  have wrapped := (run.next (cycled_push 65535)).next (cycled_push_again rfl)
  have overfull := (claim _ _ wrapped).1.bounded
  rw [length_stored, cycled_count] at overfull
  exact absurd overfull (by decide)

end RtThread.DataQueue
