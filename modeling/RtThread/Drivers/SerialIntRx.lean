import RtThread.Library.CircularBuffer
import RtThread.Library.BoundedQueue
import RtThread.Library.TransitionSystem

/-!
# The receive FIFO of a serial device

`struct rt_serial_rx_fifo`, which the interrupt mode and the DMA mode share.
-/

open Function (update update_of_ne update_self)

namespace RtThread.Serial

open CircularBuffer

structure RtSerialRxFifo where
  buffer : Nat → UInt8
  putIndex : Nat
  getIndex : Nat
  isFull : Bool

def index16 (value : Nat) : Nat := value % 0x10000

theorem index16_eq {v : Nat} (small : v < 0x10000) : index16 v = v := Nat.mod_eq_of_lt small

def rtSerialOpen : RtSerialRxFifo where
  buffer _ := 0
  putIndex := 0
  getIndex := 0
  isFull := false

def serialFifoCalcRecvedLen (bufsz : Nat) (fifo : RtSerialRxFifo) : Nat :=
  if fifo.putIndex = fifo.getIndex then
    if fifo.isFull = false then 0 else bufsz
  else if fifo.getIndex < fifo.putIndex then fifo.putIndex - fifo.getIndex
  else bufsz - (fifo.getIndex - fifo.putIndex)

/-- The indices of a FIFO that holds `length` bytes. -/
structure Indices (bufsz : Nat) (fifo : RtSerialRxFifo) (length : Nat) : Prop where
  length_le : length ≤ bufsz
  get_lt : fifo.getIndex < bufsz
  put : fifo.putIndex = (fifo.getIndex + length) % bufsz
  full : fifo.putIndex = fifo.getIndex → (fifo.isFull = true ↔ length = bufsz)

namespace Indices

variable {bufsz length : Nat} {fifo : RtSerialRxFifo}

section

variable (indices : Indices bufsz fifo length)

include indices

theorem put_lt : fifo.putIndex < bufsz := by
  have := indices.get_lt
  rw [indices.put]
  exact Nat.mod_lt _ (by omega)

theorem put_cases :
    fifo.putIndex = fifo.getIndex + length ∨ fifo.putIndex + bufsz = fifo.getIndex + length := by
  have inside := indices.get_lt
  have bounded := indices.length_le
  have put := indices.put
  rcases mod_cases (by omega : fifo.getIndex + length < 2 * bufsz) with
    ⟨low, equal⟩ | ⟨high, equal⟩ <;> omega

theorem recvedLen : serialFifoCalcRecvedLen bufsz fifo = length := by
  have bounded := indices.length_le
  have place := indices.put_cases
  unfold serialFifoCalcRecvedLen
  split
  · rename_i equal
    have full := indices.full equal
    cases isFull : fifo.isFull with
    | true => simp [full.mp isFull]
    | false =>
      have notFull : length ≠ bufsz := fun length => by simp [full.mpr length] at isFull
      simp
      omega
  · split <;> omega

end

end Indices

structure Holds (bufsz : Nat) (fifo : RtSerialRxFifo) (bytes : List UInt8) : Prop
    extends Indices bufsz fifo bytes.length where
  stored : contents fifo.buffer bufsz fifo.getIndex bytes.length = bytes

theorem Holds.rtSerialOpen {bufsz : Nat} (pos : 0 < bufsz) : Holds bufsz rtSerialOpen [] where
  length_le := Nat.zero_le _
  get_lt := pos
  put := (Nat.zero_mod _).symm
  full _ := by simp [Serial.rtSerialOpen]; omega
  stored := rfl

end RtThread.Serial

/-!
## Receiving in interrupt mode

The interrupt handler stores a character at a time, and `_serial_int_rx` takes one at a
time; each disables interrupts for it, so any number of readers and the handler may get
in between.  The handler keeps one cell free: it drops the oldest byte rather than let
the indices meet.

The FIFO is compared with the history of the line, of which it should hold the last
`bufsz - 1` unread bytes.
-/

namespace RtThread.Serial.IntRx

open CircularBuffer

universe u

def bump (bufsz index : Nat) : Nat :=
  let index := index16 (index + 1)
  if bufsz ≤ index then 0 else index

/-- What `rt_hw_serial_isr` does with a character. -/
def store (bufsz : Nat) (fifo : RtSerialRxFifo) (ch : UInt8) : RtSerialRxFifo :=
  let fifo :=
    { fifo with
      buffer := update fifo.buffer fifo.putIndex ch
      putIndex := bump bufsz fifo.putIndex }
  if fifo.putIndex = fifo.getIndex then
    { fifo with getIndex := bump bufsz fifo.getIndex, isFull := true }
  else fifo

def rxLength (bufsz : Nat) (fifo : RtSerialRxFifo) : Nat :=
  if fifo.getIndex ≤ fifo.putIndex then fifo.putIndex - fifo.getIndex
  else bufsz - (fifo.getIndex - fifo.putIndex)

def rxIndicate (bufsz : Nat) (fifo : RtSerialRxFifo) : Option Nat :=
  let rxLength := rxLength bufsz fifo
  if rxLength ≠ 0 then some rxLength else none

/-- A turn of the loop of `_serial_int_rx`, unless it breaks out. -/
def take (bufsz : Nat) (fifo : RtSerialRxFifo) : Option (RtSerialRxFifo × UInt8) :=
  if fifo.getIndex = fifo.putIndex ∧ fifo.isFull = false then none
  else
    some
      ({ fifo with getIndex := bump bufsz fifo.getIndex, isFull := false },
        fifo.buffer fifo.getIndex)

/-- `_serial_int_rx` when nothing comes between its turns. -/
def serialIntRx (bufsz : Nat) (fifo : RtSerialRxFifo) : Nat → List UInt8
  | 0 => []
  | length + 1 =>
    match take bufsz fifo with
    | none => []
    | some (fifo, ch) => ch :: serialIntRx bufsz fifo length

structure Call where
  length : Nat
  data : List UInt8

/-- The FIFO, its handler and its readers.  `delivered` are the bytes that the readers
have taken, in order. -/
structure State (Tid : Type u) where
  fifo : RtSerialRxFifo
  receiving : Bool
  call : Tid → Option Call
  history : History UInt8
  delivered : List UInt8

/-- The handler is entered, or gets what `getc` returns (`none` for -1); a reader calls
`rt_serial_read`, or goes on in its loop. -/
inductive Event (Tid : Type u) where
  | interrupt
  | getc (ch : Option UInt8)
  | read (t : Tid) (length : Nat)
  | turn (t : Tid)

variable {Tid : Type u} [DecidableEq Tid]

def State.setCall (st : State Tid) (t : Tid) (call : Option Call) : State Tid :=
  { st with call := update st.call t call }

def turn (bufsz : Nat) (st : State Tid) (t : Tid) (call : Call) : State Tid :=
  match call.length with
  | 0 => st.setCall t none
  | length + 1 =>
    match take bufsz st.fifo with
    | none => st.setCall t none
    | some (fifo, ch) =>
      { st.setCall t (some ⟨length, call.data ++ [ch]⟩) with
        fifo
        history := st.history.read (bufsz - 1) 1
        delivered := st.delivered ++ [ch] }

def step (bufsz : Nat) (st : State Tid) : Event Tid → Option (State Tid)
  | .interrupt => if st.receiving then none else some { st with receiving := true }
  | .getc none => if st.receiving then some { st with receiving := false } else none
  | .getc (some ch) =>
    if st.receiving then
      some
        { st with
          fifo := store bufsz st.fifo ch
          history := st.history.receive [ch] }
    else none
  | .read t length =>
    if (st.call t).isNone then some (st.setCall t (some ⟨length, []⟩)) else none
  | .turn t => (st.call t).map (turn bufsz st t)

structure Initial (st : State Tid) : Prop where
  fifo_eq : st.fifo = rtSerialOpen
  call_eq : ∀ t, st.call t = none
  history_eq : st.history = .empty
  delivered_eq : st.delivered = []

def system (bufsz : Nat) : TransitionSystem (State Tid) (Event Tid) :=
  TransitionSystem.ofFunction Initial (step bufsz)

/-- The FIFO is a queue of the last `bufsz - 1` unread bytes. -/
structure Behaves (bufsz : Nat) (st : State Tid) : Prop where
  reads : ∀ length, serialIntRx bufsz st.fifo length =
    (st.history.content (bufsz - 1)).values.take length
  indicates : rxIndicate bufsz st.fifo =
    if (st.history.content (bufsz - 1)).values.length = 0 then none
    else some (st.history.content (bufsz - 1)).values.length
  fionread : serialFifoCalcRecvedLen bufsz st.fifo = (st.history.content (bufsz - 1)).values.length
  inOrder : st.delivered.Sublist (st.history.received.take st.history.next)
  calls : ∀ t call, st.call t = some call → call.data.Sublist st.delivered

section

variable {bufsz : Nat} (atLeastTwo : 2 ≤ bufsz) (field : bufsz < 0x10000)
  {fifo : RtSerialRxFifo}

include field in
theorem bump_eq {index : Nat} (inside : index < bufsz) :
    bump bufsz index = advance bufsz index := by
  rw [bump, index16_eq (by omega), advance_eq_ite inside]

include atLeastTwo field in
theorem store_holds {q : BoundedQueue UInt8 (bufsz - 1)} (holds : Holds bufsz fifo q.values)
    (ch : UInt8) : Holds bufsz (store bufsz fifo ch) (q.storeForced ch).values := by
  have bounded := q.bounded
  have getInside := holds.get_lt
  have put : bump bufsz fifo.putIndex = (fifo.getIndex + (q.values.length + 1)) % bufsz := by
    rw [bump_eq field holds.put_lt, holds.put, advance_end]
  have pushed : contents (update fifo.buffer fifo.putIndex ch) bufsz fifo.getIndex
      (q.values.length + 1) = q.values ++ [ch] := by
    rw [holds.put, contents_push _ getInside (by omega), holds.stored]
  have met : bump bufsz fifo.putIndex = fifo.getIndex ↔ q.values.length + 1 = bufsz := by
    rcases mod_cases (by omega : fifo.getIndex + (q.values.length + 1) < 2 * bufsz) with
      ⟨low, equal⟩ | ⟨high, equal⟩ <;> omega
  rw [q.values_storeForced (by omega)]
  unfold store
  by_cases full : q.values.length + 1 = bufsz
  · have drops : q.values.length + 1 - (bufsz - 1) = 1 := by omega
    have get := bump_eq field getInside
    rw [contents_pop _ _ _ (by omega : 0 < q.values.length + 1), Nat.add_sub_cancel] at pushed
    have rest := congrArg List.tail pushed
    simp only [if_pos (met.mpr full), drops, List.drop_one]
    refine ⟨⟨?_, ?_, ?_, ?_⟩, ?_⟩
    · simp
      omega
    · simpa only [get] using advance_lt getInside
    · simp only [List.length_tail, List.length_append, List.length_singleton, Nat.add_sub_cancel]
      rw [put, get, advance_add]
    · intro equal
      have ne : advance bufsz fifo.getIndex ≠ fifo.getIndex := by
        rw [advance_eq_ite getInside]
        split <;> omega
      exact absurd (get.symm.trans (equal.symm.trans (met.mpr full))) ne
    · simpa [get] using rest
  · have drops : q.values.length + 1 - (bufsz - 1) = 0 := by omega
    simp only [if_neg (mt met.mp full), drops]
    refine ⟨⟨?_, ?_, ?_, ?_⟩, ?_⟩
    · simp
      omega
    · exact getInside
    · simpa using put
    · exact fun equal => absurd (met.mp equal) full
    · simpa using pushed

theorem take_none (holds : Holds bufsz fifo []) : take bufsz fifo = none := by
  have inside := holds.get_lt
  have equal : fifo.putIndex = fifo.getIndex := by
    rw [holds.put]
    exact Nat.mod_eq_of_lt inside
  have notFull : fifo.isFull = false := by
    rw [← Bool.not_eq_true, holds.full equal]
    simp
    omega
  simp [take, equal, notFull]

include field in
theorem take_some {ch : UInt8} {rest : List UInt8} (holds : Holds bufsz fifo (ch :: rest))
    (notFull : (ch :: rest).length < bufsz) :
    ∃ after, take bufsz fifo = some (after, ch) ∧ Holds bufsz after rest := by
  have inside := holds.get_lt
  have put := holds.put
  have bump := bump_eq field inside
  have stored := holds.stored
  rw [List.length_cons] at put notFull stored
  rw [contents_pop _ _ _ (by omega), Nat.add_sub_cancel, List.cons.injEq] at stored
  have ne : fifo.getIndex ≠ fifo.putIndex := by
    rcases mod_cases (by omega : fifo.getIndex + (rest.length + 1) < 2 * bufsz) with
      ⟨low, equal⟩ | ⟨high, equal⟩ <;> omega
  refine ⟨{ fifo with getIndex := advance bufsz fifo.getIndex, isFull := false }, ?_, ?_⟩
  · simp [take, ne, bump, stored.1]
  · refine ⟨⟨by omega, advance_lt inside, ?_, fun _ => ?_⟩, stored.2⟩
    · rw [put, advance_add]
    · simp
      omega

end

structure Inv (bufsz : Nat) (st : State Tid) : Prop where
  holds : Holds bufsz st.fifo (st.history.content (bufsz - 1)).values
  inOrder : st.delivered.Sublist (st.history.received.take st.history.next)
  calls : ∀ t call, st.call t = some call → call.data.Sublist st.delivered

omit [DecidableEq Tid] in
theorem Initial.inv {bufsz : Nat} (atLeastTwo : 2 ≤ bufsz) {st : State Tid} (init : Initial st) :
    Inv bufsz st where
  holds := by
    rw [init.fifo_eq, init.history_eq, History.content_empty]
    exact .rtSerialOpen (by omega)
  inOrder := by simp [init.delivered_eq]
  calls := by simp [init.call_eq]

omit [DecidableEq Tid] in
theorem Inv.notFull {bufsz : Nat} (atLeastTwo : 2 ≤ bufsz) (st : State Tid) :
    (st.history.content (bufsz - 1)).values.length < bufsz := by
  have := (st.history.content (bufsz - 1)).bounded
  omega

theorem Inv.setCall {bufsz : Nat} {st : State Tid} (inv : Inv bufsz st) (t : Tid)
    {call : Option Call} (data : ∀ own, call = some own → own.data.Sublist st.delivered) :
    Inv bufsz (st.setCall t call) := by
  refine ⟨inv.holds, inv.inOrder, ?_⟩
  intro s own is
  by_cases same : s = t
  · simp only [State.setCall, same, update_self] at is
    exact data own is
  · simp only [State.setCall, update_of_ne same] at is
    exact inv.calls s own is

theorem Inv.turn {bufsz : Nat} (atLeastTwo : 2 ≤ bufsz) (field : bufsz < 0x10000)
    {st : State Tid} (inv : Inv bufsz st) {t : Tid} {call : Call}
    (is : st.call t = some call) : Inv bufsz (turn bufsz st t call) := by
  have leave : Inv bufsz (st.setCall t none) := inv.setCall t (by simp)
  unfold IntRx.turn
  split
  · exact leave
  · rename_i length more
    have content := st.history.content_read (bufsz - 1) 1
    have sublist := st.history.sublist_read inv.inOrder (bufsz - 1) 1
    have notFull := Inv.notFull atLeastTwo st
    have holds := inv.holds
    generalize (st.history.content (bufsz - 1)).values = bytes at *
    cases bytes with
    | nil =>
      rw [take_none holds]
      exact leave
    | cons ch rest =>
      obtain ⟨s', took, holds⟩ := take_some field holds notFull
      rw [took]
      refine ⟨?_, ?_, ?_⟩
      · simpa [content] using holds
      · simpa using sublist
      · intro s own owns
        by_cases same : s = t
        · simp only [State.setCall, same, update_self, Option.some.injEq] at owns
          rw [← owns]
          exact (inv.calls t call is).append (List.Sublist.refl _)
        · simp only [State.setCall, update_of_ne same] at owns
          exact (inv.calls s own owns).trans (List.sublist_append_left ..)

theorem step_inv {bufsz : Nat} (atLeastTwo : 2 ≤ bufsz) (field : bufsz < 0x10000)
    {st s' : State Tid} {e : Event Tid} (inv : Inv bufsz st)
    (ran : step bufsz st e = some s') : Inv bufsz s' := by
  cases e with
  | interrupt =>
    obtain ⟨-, ⟨⟩⟩ := Option.ite_none_left_eq_some.mp ran
    exact ⟨inv.holds, inv.inOrder, inv.calls⟩
  | getc ch =>
    cases ch with
    | none =>
      obtain ⟨-, ⟨⟩⟩ := Option.ite_none_right_eq_some.mp ran
      exact ⟨inv.holds, inv.inOrder, inv.calls⟩
    | some ch =>
      obtain ⟨-, ⟨⟩⟩ := Option.ite_none_right_eq_some.mp ran
      refine ⟨?_, ?_, inv.calls⟩
      · rw [History.content_receive_one _ (by omega)]
        exact store_holds atLeastTwo field inv.holds ch
      · rw [History.received_receive, History.next_receive,
          List.take_append_of_le_length st.history.next_le]
        exact inv.inOrder
  | read t length =>
    obtain ⟨-, ⟨⟩⟩ := Option.ite_none_right_eq_some.mp ran
    exact inv.setCall t (by simp)
  | turn t =>
    simp only [step, Option.map_eq_some_iff] at ran
    obtain ⟨call, is, rfl⟩ := ran
    exact inv.turn atLeastTwo field is

def opened : State Tid where
  fifo := rtSerialOpen
  receiving := false
  call _ := none
  history := .empty
  delivered := []

omit [DecidableEq Tid] in
theorem opened_initial : Initial (opened : State Tid) := ⟨rfl, fun _ => rfl, rfl, rfl⟩

end RtThread.Serial.IntRx
