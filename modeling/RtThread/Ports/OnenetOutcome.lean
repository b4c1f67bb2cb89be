import RtThread.Ports.OnenetOperations
import Mathlib.Data.Fintype.Basic

/-!
# What the outcome of an operation says

The bits of an operation's kind outlive it, and several of them may have come before the waiter
looks: it takes for a success whatever is not exactly one failure bit.
-/

open TransitionSystem

namespace RtThread.OnenetOperations

open EventObject (received clear)
open BitVec (zero_and twoPow zero_or)
open List (mem_cons_of_mem mem_cons_self mem_cons)

instance : Fintype Kind where
  elems := {.nbOnenetOpen, .nbOnenetUpdateTime, .nbOnenetNotifyWithAck, .nbOnenetClose}
  complete kind := by cases kind <;> decide

def Kind.won : Kind → Int
  | .nbOnenetOpen => 6
  | .nbOnenetUpdateTime => 11
  | .nbOnenetNotifyWithAck => 26
  | .nbOnenetClose => 15

def Kind.successes : Kind → List Delivery
  | .nbOnenetOpen => [.event 6, .observed, .discovered]
  | kind => [.event kind.won]

def Kind.failures : Kind → List Int
  | .nbOnenetOpen => [3, 5, 7, 8]
  | .nbOnenetUpdateTime => [9, 12, 13]
  | .nbOnenetNotifyWithAck => [25]
  | .nbOnenetClose => []

def Succeeded (operation : Operation) : Prop :=
  ∀ delivery ∈ operation.kind.successes, delivery ∈ operation.delivered

def Failed (kind : Kind) (delivered : List Delivery) : Prop :=
  ∃ id ∈ kind.failures, .event id ∈ delivered

instance (kind : Kind) (delivered : List Delivery) : Decidable (Failed kind delivered) :=
  inferInstanceAs (Decidable (∃ _ ∈ _, _))

/-- The next action of the operation is to return `RT_EOK`. -/
def ReturnsOk (s : State) (operation : Operation) : Prop :=
  match operation.phase with
  | .got wait status => judge s.discoverStatus operation.kind wait status = .returns true
  | _ => False

/-- An operation that returns `RT_EOK` has succeeded and not failed since its submission. -/
def Correct (step : Taken State Event) : Prop :=
  match step.event with
  | .proceed => ∀ operation ∈ step.before.operation, ReturnsOk step.before operation →
      Succeeded operation ∧ ¬ Failed operation.kind operation.delivered
  | _ => True

def Kind.waits : Kind → List Wait
  | .nbOnenetOpen => [.first, .observer, .discover]
  | _ => [.first]

def Lost (operation : Operation) : Prop :=
  match operation.phase with
  | .got wait status => judge .success operation.kind wait status = .returns false
  | _ => False

instance : (operation : Operation) → Decidable (Lost operation)
  | ⟨kind, .got wait status, _⟩ =>
    inferInstanceAs (Decidable (judge .success kind wait status = .returns false))
  | ⟨_, .entered, _⟩ | ⟨_, .submitted, _⟩ | ⟨_, .calling _, _⟩ | ⟨_, .blocked _, _⟩ =>
    inferInstanceAs (Decidable False)

def Signalled (s : State) (id : Int) : Prop :=
  id ≠ 9 ∧ (id = 7 → s.eventStatus ≠ .failure)

instance (s : State) (id : Int) : Decidable (Signalled s id) := instDecidableAnd

/-- No bit of the operation is left over when it is submitted, and its acknowledgement comes in
time.  A failure that is delivered meanwhile sets its bit and is the first event of its kind, and
no success follows a failure, unless the operation fails anyway. -/
def Timely (s : State) : Event → Prop
  | .submit accepted => ∀ operation ∈ s.operation, accepted = true →
      ∀ wait ∈ operation.kind.waits, s.eventSet &&& operation.kind.mask wait = 0#32
  | .timeout => ∀ operation ∈ s.operation, operation.kind ≠ .nbOnenetNotifyWithAck
  | .deliver id => ∀ operation ∈ s.operation,
      operation.phase = .entered ∨ Lost operation ∨
        (id ∈ operation.kind.failures → Signalled s id ∧
          .event operation.kind.won ∉ operation.delivered ∧
          ¬ Failed operation.kind operation.delivered) ∧
        (id = operation.kind.won → ¬ Failed operation.kind operation.delivered)
  | _ => True

instance (s : State) : (e : Event) → Decidable (Timely s e)
  | .submit accepted => inferInstanceAs (Decidable (∀ _ ∈ _, _))
  | .timeout => inferInstanceAs (Decidable (∀ _ ∈ _, _))
  | .deliver id => inferInstanceAs (Decidable (∀ _ ∈ _, _))
  | .call _ | .proceed | .observerRsp | .discoverRsp | .recount _ => .isTrue trivial

def Losing (kind : Kind) (bits : BitVec 32) : Prop :=
  judge .success kind .first (some bits) = .returns false

instance (kind : Kind) (bits : BitVec 32) : Decidable (Losing kind bits) :=
  inferInstanceAs (Decidable (_ = _))

def Kind.wonBit : Kind → BitVec 32
  | .nbOnenetOpen => eventRegSuccess
  | .nbOnenetUpdateTime => eventUpdateSuccess
  | .nbOnenetNotifyWithAck => eventNotifySuccess
  | .nbOnenetClose => eventUnregDone

structure Signals (s : State) (id : Int) (bits : BitVec 32) : Prop where
  other : ∀ kind : Kind, id ≠ kind.won → id ∉ kind.failures → bits &&& kind.mask .first = 0#32
  won : ∀ kind : Kind, id = kind.won →
    bits &&& kind.mask .first = kind.wonBit ∨ bits &&& kind.mask .first = 0#32
  failure : ∀ kind : Kind, id ∈ kind.failures → Signalled s id →
    Losing kind (bits &&& kind.mask .first)
  observer : bits &&& eventObserverSuccess = 0#32
  discover : bits &&& eventDiscoverSuccess = 0#32

theorem signals_sent {s : State} {id : Int} {bits : BitVec 32} (kinds : ∀ kind : Kind,
      (id ≠ kind.won → id ∉ kind.failures → bits &&& kind.mask .first = 0#32) ∧
      (id = kind.won → bits &&& kind.mask .first = kind.wonBit ∨ bits &&& kind.mask .first = 0#32) ∧
      (id ∈ kind.failures → Losing kind (bits &&& kind.mask .first)))
    (others : bits &&& eventObserverSuccess = 0#32 ∧ bits &&& eventDiscoverSuccess = 0#32) :
    Signals s id bits where
  other kind := (kinds kind).1
  won kind := (kinds kind).2.1
  failure kind isFailure _ := (kinds kind).2.2 isFailure
  observer := others.1
  discover := others.2

theorem signals_none {s : State} {id : Int}
    (silent : ∀ kind : Kind, id ∈ kind.failures → ¬ Signalled s id) : Signals s id 0#32 where
  other _ _ _ := zero_and
  won _ _ := .inr zero_and
  failure kind isFailure signalled := absurd signalled (silent kind isFailure)
  observer := zero_and
  discover := zero_and

theorem signals_outside {s : State} {id : Int} (outside : ∀ kind : Kind, id ∉ kind.failures) :
    Signals s id 0#32 :=
  signals_none fun kind isFailure => absurd isFailure (outside kind)

theorem onenetEventCallback_cases (s : State) (id : Int) :
    ∃ eventStatus closing bits, Signals s id bits ∧
      (onenetEventCallback s id = send { s with eventStatus, closing } bits ∨
        (onenetEventCallback s id = { s with eventStatus, closing } ∧ bits = 0#32)) := by
  unfold onenetEventCallback
  split
  · exact ⟨_, _, 0#32, signals_outside (by decide), .inr ⟨rfl, rfl⟩⟩
  · exact ⟨_, _, 0#32, signals_outside (by decide), .inr ⟨rfl, rfl⟩⟩
  · exact ⟨_, _, 0#32, signals_outside (by decide), .inr ⟨rfl, rfl⟩⟩
  · exact ⟨_, _, _, signals_sent (by decide) (by decide), .inl rfl⟩
  · exact ⟨_, _, _, signals_sent (by decide) (by decide), .inl rfl⟩
  · exact ⟨_, _, _, signals_sent (by decide) (by decide), .inl rfl⟩
  · split
    · exact ⟨_, _, _, signals_sent (by decide) (by decide), .inl rfl⟩
    · next isFailure =>
      refine ⟨_, _, 0#32, signals_none fun kind _ signalled => ?_, .inr ⟨rfl, rfl⟩⟩
      exact isFailure (signalled.2 rfl)
  · exact ⟨_, _, _, signals_sent (by decide) (by decide), .inl rfl⟩
  · exact ⟨_, _, _, signals_sent (by decide) (by decide), .inl rfl⟩
  · exact ⟨_, _, _, signals_sent (by decide) (by decide), .inl rfl⟩
  · exact ⟨_, _, _, signals_sent (by decide) (by decide), .inl rfl⟩
  · split
    · exact ⟨_, _, _, signals_sent (by decide) (by decide), .inl rfl⟩
    · exact ⟨_, _, 0#32, signals_outside (by decide), .inr ⟨rfl, rfl⟩⟩
  · exact ⟨_, _, _, signals_sent (by decide) (by decide), .inl rfl⟩
  · exact ⟨_, _, _, signals_sent (by decide) (by decide), .inl rfl⟩
  · refine ⟨_, _, 0#32, signals_none fun kind isFailure signalled => ?_, .inr ⟨rfl, rfl⟩⟩
    cases kind <;> simp_all [Kind.failures, Signalled]

variable {kind : Kind} {delivered : List Delivery} {seen bits eventSet : BitVec 32} {id : Int}
  {s : State} {operation : Operation}

def Clear (kind : Kind) (delivered : List Delivery) : Prop :=
  .event kind.won ∈ delivered ∧ ¬ Failed kind delivered

def Explained (kind : Kind) (delivered : List Delivery) (seen : BitVec 32) : Prop :=
  (seen = 0#32 ∧ ¬ Failed kind delivered) ∨ (seen = kind.wonBit ∧ Clear kind delivered) ∨
    (Losing kind seen ∧ Failed kind delivered)

theorem failed_event : Failed kind (.event id :: delivered) ↔
    id ∈ kind.failures ∨ Failed kind delivered := by
  simp only [Failed, mem_cons, Delivery.event.injEq, and_or_left, exists_or, exists_eq_right]

variable {delivery : Delivery} {wait : Wait} {s' : State}

theorem failed_other (other : ∀ id, delivery ≠ .event id) :
    Failed kind (delivery :: delivered) ↔ Failed kind delivered := by
  simp only [Failed, mem_cons, (other _).symm, false_or]

structure Admits (s : State) (kind : Kind) (delivered : List Delivery) (id : Int) : Prop where
  failure : id ∈ kind.failures → Signalled s id ∧ .event kind.won ∉ delivered ∧
    ¬ Failed kind delivered
  won : id = kind.won → ¬ Failed kind delivered

theorem Clear.deliver (clear : Clear kind delivered) (admits : Admits s kind delivered id) :
    Clear kind (.event id :: delivered) := by
  refine ⟨mem_cons_of_mem _ clear.1, fun failed => ?_⟩
  rcases failed_event.mp failed with isFailure | failed
  · exact (admits.failure isFailure).2.1 clear.1
  · exact clear.2 failed

theorem Clear.other (clear : Clear kind delivered)
    (other : ∀ id, delivery ≠ .event id) : Clear kind (delivery :: delivered) :=
  ⟨mem_cons_of_mem _ clear.1, fun failed => clear.2 ((failed_other other).mp failed)⟩

theorem Explained.deliver (explained : Explained kind delivered seen)
    (admits : Admits s kind delivered id) (signals : Signals s id bits) :
    Explained kind (.event id :: delivered) (seen ||| (bits &&& kind.mask .first)) := by
  by_cases isFailure : id ∈ kind.failures
  · obtain ⟨signalled, notWon, notFailed⟩ := admits.failure isFailure
    rcases explained with ⟨rfl, -⟩ | ⟨-, clear⟩ | ⟨-, failed⟩
    · rw [zero_or]
      exact .inr (.inr ⟨signals.failure kind isFailure signalled,
        failed_event.mpr (.inl isFailure)⟩)
    · exact absurd clear.1 notWon
    · exact absurd failed notFailed
  · have failedIff : Failed kind (.event id :: delivered) ↔ Failed kind delivered := by
      rw [failed_event, or_iff_right isFailure]
    by_cases isWon : id = kind.won
    · have notFailed := admits.won isWon
      have clear : Clear kind (.event id :: delivered) :=
        ⟨by simp [isWon], fun failed => notFailed (failedIff.mp failed)⟩
      have sent := signals.won kind isWon
      rcases explained with ⟨rfl, -⟩ | ⟨rfl, -⟩ | ⟨-, failed⟩
      · rcases sent with isBit | isZero
        · exact .inr (.inl ⟨by rw [isBit, zero_or], clear⟩)
        · exact .inl ⟨by rw [isZero, zero_or], clear.2⟩
      · rcases sent with isBit | isZero
        · exact .inr (.inl ⟨by rw [isBit, BitVec.or_self], clear⟩)
        · exact .inr (.inl ⟨by rw [isZero, BitVec.or_zero], clear⟩)
      · exact absurd failed notFailed
    · rw [signals.other kind isWon isFailure, BitVec.or_zero]
      rcases explained with ⟨isZero, notFailed⟩ | ⟨isBit, clear⟩ | ⟨losing, failed⟩
      · exact .inl ⟨isZero, fun failed => notFailed (failedIff.mp failed)⟩
      · exact .inr (.inl ⟨isBit, clear.deliver admits⟩)
      · exact .inr (.inr ⟨losing, failedIff.mpr failed⟩)

theorem Explained.other (explained : Explained kind delivered seen)
    (other : ∀ id, delivery ≠ .event id) : Explained kind (delivery :: delivered) seen := by
  rcases explained with ⟨isZero, notFailed⟩ | ⟨isBit, clear⟩ | ⟨losing, failed⟩
  · exact .inl ⟨isZero, fun failed => notFailed ((failed_other other).mp failed)⟩
  · exact .inr (.inl ⟨isBit, clear.other other⟩)
  · exact .inr (.inr ⟨losing, (failed_other other).mpr failed⟩)

theorem received_and {bit : Nat} (inside : twoPow 32 bit ≠ 0#32) (set : BitVec 32) :
    received (EventObject.eventFlagAnd ||| EventObject.eventFlagClear) (twoPow 32 bit) set =
      if set &&& twoPow 32 bit ≠ 0#32 then some
        (set &&& twoPow 32 bit) else none := by
  rw [received, if_pos (by decide), BitVec.and_comm, BitVec.and_twoPow]
  by_cases isSet : set.getLsbD bit
  · simp [isSet, inside]
  · simp [isSet, Ne.symm inside]

theorem received_or (mask set : BitVec 32) :
    received (EventObject.eventFlagOr ||| EventObject.eventFlagClear) mask set =
      if set &&& mask ≠ 0#32 then some (set &&& mask) else none := by
  rw [received, if_neg (by decide), if_pos (by decide), BitVec.and_comm]
  rfl

theorem received_eq (wait : Wait) (set : BitVec 32) :
    received (kind.option wait) (kind.mask wait) set =
      if set &&& kind.mask wait ≠ 0#32 then some (set &&& kind.mask wait) else none := by
  cases wait with
  | first =>
    cases kind with
    | nbOnenetClose => exact @received_and 11 (by decide) set
    | _ => exact received_or _ set
  | observer => cases kind <;> exact @received_and 16 (by decide) set
  | discover => cases kind <;> exact @received_and 17 (by decide) set

theorem Explained.ends (explained : Explained kind delivered (eventSet &&& kind.mask .first))
    (nonzero : eventSet &&& kind.mask .first ≠ 0#32) :
    Losing kind (eventSet &&& kind.mask .first) ∨ Clear kind delivered := by
  rcases explained with ⟨isZero, -⟩ | ⟨-, clear⟩ | ⟨losing, -⟩
  · exact absurd isZero nonzero
  · exact .inr clear
  · exact .inl losing

def PhaseFine (eventSet : BitVec 32) (operation : Operation) : Prop :=
  match operation.phase with
  | .entered => True
  | .submitted | .calling .first | .blocked .first =>
    Explained operation.kind operation.delivered (eventSet &&& operation.kind.mask .first)
  | .got .first (some status) =>
    Losing operation.kind status ∨ Clear operation.kind operation.delivered
  | .got .first none => operation.kind ≠ .nbOnenetNotifyWithAck
  | .calling .observer | .blocked .observer =>
    operation.kind = .nbOnenetOpen ∧ Clear operation.kind operation.delivered
  | .got .observer (some _) | .calling .discover | .blocked .discover =>
    operation.kind = .nbOnenetOpen ∧ Clear operation.kind operation.delivered ∧
      .observed ∈ operation.delivered
  | .got .discover (some _) =>
    operation.kind = .nbOnenetOpen ∧ Clear operation.kind operation.delivered ∧
      .observed ∈ operation.delivered ∧ .discovered ∈ operation.delivered
  | .got .observer none | .got .discover none => operation.kind = .nbOnenetOpen

/-- The bits of the later waits of `nb_onenet_open`. -/
def LaterFine (eventSet : BitVec 32) (operation : Operation) : Prop :=
  operation.kind = .nbOnenetOpen → operation.phase ≠ .entered →
    (eventSet &&& eventObserverSuccess ≠ 0#32 → .observed ∈ operation.delivered) ∧
    (eventSet &&& eventDiscoverSuccess ≠ 0#32 → .discovered ∈ operation.delivered)

structure Fine (eventSet : BitVec 32) (operation : Operation) : Prop where
  phase : PhaseFine eventSet operation
  later : LaterFine eventSet operation

def Sound (s : State) : Prop := ∀ operation ∈ s.operation, Fine s.eventSet operation

theorem clear_and (option : BitVec 8) (mask set bit : BitVec 32)
    (left : EventObject.clear option mask set &&& bit ≠ 0#32) : set &&& bit ≠ 0#32 := by
  intro isZero
  refine left ?_
  rw [EventObject.clear]
  split
  · rw [BitVec.and_assoc, BitVec.and_comm (~~~mask), ← BitVec.and_assoc, isZero, zero_and]
  · exact isZero

theorem PhaseFine.ends (fine : PhaseFine eventSet ⟨kind, .blocked wait, delivered⟩)
    (later : LaterFine eventSet ⟨kind, .blocked wait, delivered⟩)
    (nonzero : eventSet &&& kind.mask wait ≠ 0#32) :
    PhaseFine eventSet ⟨kind, .got wait (some (eventSet &&& kind.mask wait)), delivered⟩ := by
  cases wait with
  | first => exact Explained.ends fine nonzero
  | observer =>
    obtain ⟨rfl, clear⟩ := fine
    exact ⟨rfl, clear, (later rfl (by simp)).1 nonzero⟩
  | discover =>
    obtain ⟨rfl, clear, observed⟩ := fine
    exact ⟨rfl, clear, observed, (later rfl (by simp)).2 nonzero⟩

theorem PhaseFine.got {status : Option (BitVec 32)} {u : BitVec 32}
    (fine : PhaseFine eventSet ⟨kind, .got wait status, delivered⟩) :
    PhaseFine u ⟨kind, .got wait status, delivered⟩ := by
  cases wait <;> cases status <;> exact fine

theorem LaterFine.subset {u : BitVec 32} (later : LaterFine eventSet operation)
    (subset : ∀ bit, u &&& bit ≠ 0#32 → eventSet &&& bit ≠ 0#32) :
    LaterFine u operation := fun isOpen notEntered =>
  ⟨fun set => (later isOpen notEntered).1 (subset _ set),
    fun set => (later isOpen notEntered).2 (subset _ set)⟩

theorem send_sound (fine : ∀ operation ∈ s.operation, Fine (s.eventSet ||| bits) operation) :
    Sound (send s bits) := by
  rw [send]
  split
  · next kind wait delivered isBlocked =>
    have before := fine _ isBlocked
    rw [received_eq]
    split
    · next status isReceived =>
      rintro _ ⟨⟩
      obtain ⟨nonzero, ⟨⟩⟩ := Option.ite_none_right_eq_some.mp isReceived
      refine ⟨(before.phase.ends before.later nonzero).got, ?_⟩
      exact fun isOpen _ => (before.later.subset (clear_and _ _ _)) isOpen (by simp)
    · rintro operation isOperation
      exact fine operation isOperation
  · exact fine

theorem set_or {bit : BitVec 32} (isSet : (eventSet ||| bits) &&& bit ≠ 0#32) :
    eventSet &&& bit ≠ 0#32 ∨ bits &&& bit ≠ 0#32 := by
  rw [BitVec.and_or_distrib_right] at isSet
  by_cases isZero : eventSet &&& bit = 0#32
  · rw [isZero, zero_or] at isSet
    exact .inr isSet
  · exact .inl isZero

theorem PhaseFine.deliver {phase : Phase} (fine : PhaseFine eventSet ⟨kind, phase, delivered⟩)
    (notEntered : phase ≠ .entered)
    (timely : Lost ⟨kind, phase, delivered⟩ ∨ Admits s kind delivered id)
    (signals : Signals s id bits) :
    PhaseFine (eventSet ||| bits) ⟨kind, phase, .event id :: delivered⟩ := by
  have first (explained : Explained kind delivered (eventSet &&& kind.mask .first))
      (admits : Admits s kind delivered id) :
      Explained kind (.event id :: delivered) ((eventSet ||| bits) &&& kind.mask .first) := by
    rw [BitVec.and_or_distrib_right]
    exact explained.deliver admits signals
  cases phase with
  | entered => exact absurd rfl notEntered
  | submitted => exact first fine (timely.resolve_left fun lost => lost)
  | calling wait | blocked wait =>
    have admits := timely.resolve_left fun lost => lost
    cases wait with
    | first => exact first fine admits
    | observer => exact ⟨fine.1, fine.2.deliver admits⟩
    | discover => exact ⟨fine.1, fine.2.1.deliver admits, mem_cons_of_mem _ fine.2.2⟩
  | got wait status =>
    cases wait <;> cases status
    · exact fine
    · rcases timely with losing | admits
      · exact .inl losing
      · exact fine.imp_right fun clear => clear.deliver admits
    · exact fine
    · obtain ⟨rfl, clear, observed⟩ := fine
      have admits := timely.resolve_left fun lost => by simp [Lost, judge] at lost
      exact ⟨rfl, clear.deliver admits, mem_cons_of_mem _ observed⟩
    · exact fine
    · obtain ⟨rfl, clear, observed, discovered⟩ := fine
      have admits := timely.resolve_left fun lost => by simp [Lost, judge] at lost
      exact ⟨rfl, clear.deliver admits, mem_cons_of_mem _ observed,
        mem_cons_of_mem _ discovered⟩

theorem Fine.deliver (fine : Fine eventSet operation)
    (timely : operation.phase = .entered ∨ Lost operation ∨
      Admits s operation.kind operation.delivered id)
    (signals : Signals s id bits) : Fine (eventSet ||| bits) (operation.note (.event id)) := by
  obtain ⟨kind, phase, delivered⟩ := operation
  by_cases isEntered : phase = .entered
  · subst isEntered
    exact ⟨trivial, fun _ notEntered => absurd rfl notEntered⟩
  · rw [Operation.note, if_neg isEntered]
    refine ⟨fine.phase.deliver isEntered (timely.resolve_left isEntered) signals, ?_⟩
    intro isOpen _
    obtain ⟨observer, discover⟩ := fine.later isOpen isEntered
    constructor
    · exact fun isSet => mem_cons_of_mem _
        (observer ((set_or isSet).resolve_right fun sent => sent signals.observer))
    · exact fun isSet => mem_cons_of_mem _
        (discover ((set_or isSet).resolve_right fun sent => sent signals.discover))

theorem PhaseFine.other {phase : Phase} (fine : PhaseFine eventSet ⟨kind, phase, delivered⟩)
    (other : ∀ id, delivery ≠ .event id)
    (same : (eventSet ||| bits) &&& kind.mask .first = eventSet &&& kind.mask .first) :
    PhaseFine (eventSet ||| bits) ⟨kind, phase, delivery :: delivered⟩ := by
  have first (explained : Explained kind delivered (eventSet &&& kind.mask .first)) :
      Explained kind (delivery :: delivered) ((eventSet ||| bits) &&& kind.mask .first) := by
    rw [same]
    exact explained.other other
  cases phase with
  | entered => trivial
  | submitted => exact first fine
  | calling wait | blocked wait =>
    cases wait with
    | first => exact first fine
    | observer => exact ⟨fine.1, fine.2.other other⟩
    | discover => exact ⟨fine.1, fine.2.1.other other, mem_cons_of_mem _ fine.2.2⟩
  | got wait status =>
    cases wait <;> cases status
    · exact fine
    · exact fine.imp_right fun clear => clear.other other
    · exact fine
    · exact ⟨fine.1, fine.2.1.other other, mem_cons_of_mem _ fine.2.2⟩
    · exact fine
    · obtain ⟨isOpen, clear, observed, discovered⟩ := fine
      exact ⟨isOpen, clear.other other, mem_cons_of_mem _ observed,
        mem_cons_of_mem _ discovered⟩

theorem Fine.other (fine : Fine eventSet operation) (other : ∀ id, delivery ≠ .event id)
    (notFirst : ∀ kind : Kind, bits &&& kind.mask .first = 0#32)
    (observer : bits &&& eventObserverSuccess ≠ 0#32 → delivery = .observed)
    (discover : bits &&& eventDiscoverSuccess ≠ 0#32 → delivery = .discovered) :
    Fine (eventSet ||| bits) (operation.note delivery) := by
  obtain ⟨kind, phase, delivered⟩ := operation
  by_cases isEntered : phase = .entered
  · subst isEntered
    exact ⟨trivial, fun _ notEntered => absurd rfl notEntered⟩
  · rw [Operation.note, if_neg isEntered]
    have same : (eventSet ||| bits) &&& kind.mask .first = eventSet &&& kind.mask .first := by
      rw [BitVec.and_or_distrib_right, notFirst kind, BitVec.or_zero]
    constructor
    · exact fine.phase.other other same
    · intro isOpen _
      obtain ⟨isObserver, isDiscover⟩ := fine.later isOpen isEntered
      refine ⟨fun isSet => ?_, fun isSet => ?_⟩
      · rcases set_or isSet with before | sent
        · exact mem_cons_of_mem _ (isObserver before)
        · rw [observer sent]
          exact mem_cons_self
      · rcases set_or isSet with before | sent
        · exact mem_cons_of_mem _ (isDiscover before)
        · rw [discover sent]
          exact mem_cons_self

theorem note_sound (fine : ∀ operation ∈ s.operation, Fine eventSet (operation.note delivery)) :
    ∀ operation ∈ (note s delivery).operation, Fine eventSet operation := by
  intro operation isOperation
  obtain ⟨before, isBefore, rfl⟩ := Option.mem_map.mp isOperation
  exact fine before isBefore

theorem onenetObserverRsp_sound (inv : Sound s) : Sound (onenetObserverRsp s) := by
  rw [onenetObserverRsp]
  split
  · refine send_sound (note_sound fun operation isOperation => ?_)
    exact (inv operation isOperation).other (by simp) (by decide) (fun _ => rfl)
      (absurd · (by decide))
  · exact inv

theorem onenetDiscoverRsp_sound (inv : Sound s) : Sound (onenetDiscoverRsp s) := by
  rw [onenetDiscoverRsp]
  split
  · refine send_sound (note_sound fun operation isOperation => ?_)
    exact (inv operation isOperation).other (by simp) (by decide) (absurd · (by decide))
      (fun _ => rfl)
  · exact inv

theorem onenetEventCallback_sound (inv : Sound s) (timely : Timely s (.deliver id)) :
    Sound (onenetEventCallback (note s (.event id)) id) := by
  obtain ⟨eventStatus, closing, bits, signals, sent⟩ :=
    onenetEventCallback_cases (note s (.event id)) id
  have fine : ∀ operation ∈ (note s (.event id)).operation,
      Fine (s.eventSet ||| bits) operation := by
    refine note_sound fun operation isOperation => ?_
    refine (inv operation isOperation).deliver ?_ signals
    rcases timely operation isOperation with isEntered | lost | ⟨failure, won⟩
    · exact .inl isEntered
    · exact .inr (.inl lost)
    · exact .inr (.inr ⟨failure, won⟩)
  rcases sent with sent | ⟨kept, isZero⟩
  · rw [sent]
    exact send_sound fine
  · rw [kept]
    rw [isZero, BitVec.or_zero] at fine
    exact fine

theorem submitStep_sound {accepted : Bool} (running : operation ∈ s.operation)
    (timely : Timely s (.submit accepted))
    (step : submitStep s operation accepted = some s') : Sound s' := by
  obtain ⟨-, step⟩ := Option.ite_none_right_eq_some.mp step
  split at step
  · next isAccepted =>
    cases step
    have noBit := timely operation running isAccepted
    rintro _ ⟨⟩
    constructor
    · refine .inl ⟨noBit .first ?_, ?_⟩
      · cases operation.kind <;> simp [Kind.waits]
      · simp [Failed]
    · intro isOpen _
      rw [isOpen] at noBit
      exact ⟨fun isSet => absurd (noBit .observer (by simp [Kind.waits])) isSet,
        fun isSet => absurd (noBit .discover (by simp [Kind.waits])) isSet⟩
  · cases step
    rintro _ ⟨⟩

theorem recvStep_sound (fine : Fine s.eventSet operation)
    (isCalling : operation.phase = .calling wait) : Sound (recvStep s operation wait) := by
  obtain ⟨kind, phase, delivered⟩ := operation
  obtain rfl : phase = .calling wait := isCalling
  have blocked : Fine s.eventSet ⟨kind, .blocked wait, delivered⟩ := by
    refine ⟨?_, fun isOpen _ => fine.later isOpen (by simp)⟩
    cases wait <;> exact fine.phase
  rw [recvStep, received_eq]
  split
  · next status isReceived =>
    rintro _ ⟨⟩
    obtain ⟨nonzero, isReceived⟩ := Option.ite_none_right_eq_some.mp isReceived
    refine ⟨(blocked.phase.ends blocked.later nonzero).got, ?_⟩
    exact fun isOpen _ => (blocked.later.subset (clear_and _ _ _)) isOpen (by simp)
  · rintro _ ⟨⟩
    exact blocked

theorem judge_first (discoverStatus : Status) (kind : Kind) (status : Option (BitVec 32)) :
    judge discoverStatus kind .first status = judge .success kind .first status := by
  cases kind <;> cases status <;> rfl

theorem judge_next {discoverStatus : Status} {next : Wait} {status : Option (BitVec 32)}
    (isNext : judge discoverStatus kind wait status = .next next) : ∃ bits, status = some bits ∧
      ((wait = .first ∧ next = .observer ∧ kind = .nbOnenetOpen ∧ ¬ Losing kind bits) ∨
        (wait = .observer ∧ next = .discover)) := by
  cases status with
  | none => cases kind <;> cases wait <;> simp [judge] at isNext
            all_goals split at isNext <;> simp at isNext
  | some bits =>
    refine ⟨bits, rfl, ?_⟩
    cases wait with
    | first =>
      have isFirst := isNext
      rw [judge_first] at isFirst
      have notLosing : ¬ Losing kind bits := by
        rw [Losing, isFirst]
        simp
      cases kind with
      | nbOnenetOpen =>
        rw [judge] at isNext
        split at isNext
        · simp at isNext
        · split at isNext
          · simp at isNext
          · exact .inl ⟨rfl, (Verdict.next.inj isNext).symm, rfl, notLosing⟩
      | nbOnenetUpdateTime | nbOnenetNotifyWithAck =>
        rw [judge] at isNext; split at isNext <;> simp at isNext
      | nbOnenetClose => simp [judge] at isNext
    | observer => cases kind <;> exact .inr ⟨rfl, (Verdict.next.inj isNext).symm⟩
    | discover => cases kind <;> simp [judge] at isNext

theorem proceedStep_sound (fine : Fine s.eventSet operation)
    (step : proceedStep s operation = some s') : Sound s' := by
  obtain ⟨kind, phase, delivered⟩ := operation
  cases phase with
  | submitted =>
    cases step
    rintro _ ⟨⟩
    exact ⟨fine.phase, fun isOpen _ => fine.later isOpen (by simp)⟩
  | calling wait =>
    cases step
    exact recvStep_sound fine rfl
  | got wait status =>
    rw [proceedStep] at step
    dsimp only at step
    split at step
    · next next isNext =>
      cases step
      rintro _ ⟨⟩
      refine ⟨?_, fun isOpen _ => fine.later isOpen (by simp)⟩
      obtain ⟨bits, rfl, ⟨rfl, rfl, isOpen, notLosing⟩ | ⟨rfl, rfl⟩⟩ := judge_next isNext
      · exact ⟨isOpen, fine.phase.resolve_left notLosing⟩
      · exact fine.phase
    · cases step
      rintro _ ⟨⟩
  | entered | blocked wait => simp [proceedStep] at step

theorem timeoutStep_sound (running : operation ∈ s.operation) (fine : Fine s.eventSet operation)
    (timely : Timely s .timeout) (step : timeoutStep s operation = some s') : Sound s' := by
  obtain ⟨kind, phase, delivered⟩ := operation
  cases phase with
  | blocked wait =>
    cases step
    rintro _ ⟨⟩
    refine ⟨?_, fun isOpen _ => fine.later isOpen (by simp)⟩
    cases wait with
    | first => exact timely ⟨kind, .blocked .first, delivered⟩ running
    | observer | discover => exact fine.phase.1
  | _ => simp [timeoutStep] at step

theorem step_sound {e : Event} (inv : Sound s)
    (timely : Timely s e) (taken : step s e = some s') : Sound s' := by
  cases e with
  | call kind =>
    simp only [step, callStep] at taken
    split at taken
    · simp at taken
    · cases taken
      rintro _ ⟨⟩
      exact ⟨trivial, fun _ notEntered => absurd rfl notEntered⟩
  | submit accepted =>
    obtain ⟨operation, running, taken⟩ := Option.bind_eq_some_iff.mp taken
    exact submitStep_sound running timely taken
  | proceed =>
    obtain ⟨operation, running, taken⟩ := Option.bind_eq_some_iff.mp taken
    exact proceedStep_sound (inv operation running) taken
  | timeout =>
    obtain ⟨operation, running, taken⟩ := Option.bind_eq_some_iff.mp taken
    exact timeoutStep_sound running (inv operation running) timely taken
  | deliver id =>
    cases taken
    exact onenetEventCallback_sound inv timely
  | observerRsp =>
    cases taken
    exact onenetObserverRsp_sound inv
  | discoverRsp =>
    cases taken
    exact onenetDiscoverRsp_sound inv
  | recount objcount =>
    cases taken
    exact inv

theorem Fine.returnsOk (fine : Fine s.eventSet operation) (returnsOk : ReturnsOk s operation) :
    Succeeded operation ∧ ¬ Failed operation.kind operation.delivered := by
  obtain ⟨kind, phase, delivered⟩ := operation
  cases phase with
  | got wait status =>
    have ret : judge s.discoverStatus kind wait status = .returns true := returnsOk
    cases wait with
    | first =>
      rw [judge_first] at ret
      cases status with
      | none =>
        have notNotify : kind ≠ .nbOnenetNotifyWithAck := fine.phase
        cases kind <;> simp_all [judge]
      | some bits =>
        have clear : Clear kind delivered := fine.phase.resolve_left fun losing => by
          rw [Losing, ret] at losing
          simp at losing
        refine ⟨?_, clear.2⟩
        cases kind with
        | nbOnenetOpen =>
          rw [judge] at ret
          split at ret
          · simp at ret
          · split at ret <;> simp at ret
        | _ => simpa [Succeeded, Kind.successes] using clear.1
    | observer => cases kind <;> cases status <;> simp [judge] at ret
    | discover =>
      cases status with
      | none => cases kind <;> simp [judge] at ret
      | some bits =>
        obtain ⟨rfl, clear, observed, discovered⟩ := fine.phase
        refine ⟨?_, clear.2⟩
        simpa [Succeeded, Kind.successes, Kind.won, observed, discovered] using clear.1
  | entered | submitted | calling wait | blocked wait => exact absurd returnsOk id

/-- In a run whose steps meet the condition, `RT_EOK` says that the success of the operation has
been delivered since its submission, and no failure of its kind. -/
theorem outcome_correct {taken : List (Taken State Event)} {last : State}
    (run : system.Run taken last) (timely : EveryStep Timely taken) :
    ∀ step ∈ taken, Correct step := by
  have throughout : Throughout Sound taken last := by
    refine run.throughout_of_everyStep (fun s init => ?_)
      (fun _ _ _ inv timely ran => step_sound inv timely ran) timely
    intro operation isOperation
    simp [init.2] at isOperation
  rintro ⟨before, e, s'⟩ mem
  cases e with
  | proceed =>
    intro operation running
    exact (throughout.2 _ mem operation running).returnsOk
  | _ => trivial

def environment : State := ⟨0, .init, .init, false, 1, 0, 0, none⟩

def answeredUpdate : List Event :=
  [.call .nbOnenetUpdateTime, .submit true, .proceed, .proceed, .deliver 11, .proceed]

theorem answered_update_correct : (execute step environment answeredUpdate).isSome ∧
      ∀ taken ∈ record step [] environment answeredUpdate, Correct taken := by
  have isSome : (execute step environment answeredUpdate).isSome := by decide +kernel
  have run : system.Run (record step [] environment answeredUpdate) _ :=
    .execute (.start ⟨rfl, rfl⟩) (Option.some_get isSome).symm
  exact ⟨isSome, outcome_correct run (by decide +kernel)⟩

/-- Nothing acknowledges the notification, and `nb_onenet_notify_with_ack` returns `RT_EOK`. -/
def silentNotify : List Event :=
  [.call .nbOnenetNotifyWithAck, .submit true, .proceed, .proceed, .timeout]

def unacknowledged : State := (execute step environment silentNotify).get (by decide +kernel)

theorem silent_notify_ok :
    ¬ ∀ (taken : List (Taken State Event)) (last : State), system.Run taken last →
      ∀ step ∈ taken, Correct step := by
  intro claim
  have run : system.Run (record step [] environment silentNotify) unacknowledged :=
    .execute (.start ⟨rfl, rfl⟩) (Option.some_get _).symm
  have isSome : (step unacknowledged .proceed).isSome := by decide +kernel
  have ret : step unacknowledged .proceed = some _ := (Option.some_get isSome).symm
  have correct : Correct ⟨unacknowledged, .proceed, _⟩ :=
    claim _ _ (run.next ret) _ mem_cons_self
  have running : (⟨.nbOnenetNotifyWithAck, .got .first none, []⟩ : Operation) ∈
      unacknowledged.operation := by decide +kernel
  have succeeded := (correct _ running rfl).1
  simp [Succeeded, Kind.successes] at succeeded

end RtThread.OnenetOperations
