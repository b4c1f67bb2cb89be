import RtThread.Drivers.SerialIntRx

/-!
# Receiving in DMA mode

The DMA engine writes around the end of the buffer from `put_index` on and reports how
much it has written; `rt_dma_recv_update_put_index` moves the index on and, when bytes
were overwritten, moves `get_index` behind it.  Both indices are 16 bits wide, and so is
the sum of an index and a length that is stored in one before it is reduced.
-/

open TransitionSystem

namespace RtThread.Serial.DmaRx

open CircularBuffer

universe u

def rtDmaCalcRecvedLen (bufsz : Nat) (fifo : RtSerialRxFifo) : Nat :=
  serialFifoCalcRecvedLen bufsz fifo

def rtDmaRecvUpdateGetIndex (bufsz : Nat) (fifo : RtSerialRxFifo) (len : Nat) : RtSerialRxFifo :=
  let fifo := if fifo.isFull ∧ len ≠ 0 then { fifo with isFull := false } else fifo
  let fifo := { fifo with getIndex := index16 (fifo.getIndex + len) }
  if bufsz ≤ fifo.getIndex then { fifo with getIndex := fifo.getIndex % bufsz } else fifo

/-- `rt_dma_recv_update_put_index` up to the last test of `is_full`. -/
def movePutIndex (bufsz : Nat) (fifo : RtSerialRxFifo) (len : Nat) : RtSerialRxFifo :=
  if fifo.getIndex ≤ fifo.putIndex then
    let fifo := { fifo with putIndex := index16 (fifo.putIndex + len) }
    if bufsz ≤ fifo.putIndex then
      let fifo := { fifo with putIndex := fifo.putIndex % bufsz }
      if fifo.getIndex ≤ fifo.putIndex then { fifo with isFull := true } else fifo
    else fifo
  else
    let fifo := { fifo with putIndex := index16 (fifo.putIndex + len) }
    if fifo.getIndex ≤ fifo.putIndex then
      { fifo with
        putIndex := if bufsz ≤ fifo.putIndex then fifo.putIndex % bufsz else fifo.putIndex
        isFull := true }
    else fifo

def rtDmaRecvUpdatePutIndex (bufsz : Nat) (fifo : RtSerialRxFifo) (len : Nat) : RtSerialRxFifo :=
  let fifo := movePutIndex bufsz fifo len
  let fifo := if fifo.isFull then { fifo with getIndex := fifo.putIndex } else fifo
  if bufsz ≤ fifo.getIndex then { fifo with getIndex := 0 } else fifo

def recvLen (bufsz : Nat) (fifo : RtSerialRxFifo) (length : Nat) : Nat :=
  let fifoRecvedLen := rtDmaCalcRecvedLen bufsz fifo
  if length < fifoRecvedLen then length else fifoRecvedLen

/-- `_serial_dma_rx` with a FIFO, up to the update of its index: the caller's `data`. -/
def copyOut (bufsz : Nat) (fifo : RtSerialRxFifo) (data : Nat → UInt8) (recvLen : Nat) :
    Nat → UInt8 :=
  if fifo.getIndex + recvLen < bufsz then copyBlock data 0 fifo.buffer fifo.getIndex recvLen
  else
    copyBlock (copyBlock data 0 fifo.buffer fifo.getIndex (bufsz - fifo.getIndex))
      (bufsz - fifo.getIndex) fifo.buffer 0 (recvLen + fifo.getIndex - bufsz)

/-- `_serial_dma_rx`: the FIFO, the caller's `data` and the length that is returned. -/
def serialDmaRx (bufsz : Nat) (fifo : RtSerialRxFifo) (data : Nat → UInt8) (length : Nat) :
    RtSerialRxFifo × (Nat → UInt8) × Nat :=
  let recvLen := recvLen bufsz fifo length
  (rtDmaRecvUpdateGetIndex bufsz fifo recvLen, copyOut bufsz fifo data recvLen, recvLen)

/-- The DMA engine writes a block of `len` bytes from `put_index` on. -/
def dmaWrite (bufsz : Nat) (fifo : RtSerialRxFifo) (block : Nat → UInt8) (len : Nat) :
    RtSerialRxFifo :=
  { fifo with buffer := pushBlock fifo.buffer bufsz fifo.putIndex block len }

/-- The FIFO and the history of the line. -/
structure State where
  fifo : RtSerialRxFifo
  history : History UInt8

/-- A transfer is over and reported, or a reader calls `rt_serial_read`. -/
inductive Event where
  | dmaDone (block : Nat → UInt8) (len : Nat)
  | read (data : Nat → UInt8) (length : Nat)

def step (bufsz : Nat) (s : State) : Event → Option State
  | .dmaDone block len =>
    if 1 ≤ len ∧ len ≤ bufsz then
      some
        { fifo := rtDmaRecvUpdatePutIndex bufsz (dmaWrite bufsz s.fifo block len) len
          history := s.history.receive ((List.range len).map block) }
    else none
  | .read data length =>
    let (fifo, _, recvLen) := serialDmaRx bufsz s.fifo data length
    some { fifo, history := s.history.read bufsz recvLen }

structure Initial (s : State) : Prop where
  fifo_eq : s.fifo = rtSerialOpen
  history_eq : s.history = .empty

def system (bufsz : Nat) : TransitionSystem State Event :=
  ofFunction Initial (step bufsz)

/-- The FIFO is a queue of the last `bufsz` unread bytes. -/
structure Behaves (bufsz : Nat) (s : State) : Prop where
  length : rtDmaCalcRecvedLen bufsz s.fifo = min s.history.unread bufsz
  returns : ∀ data length, (serialDmaRx bufsz s.fifo data length).2.2 =
    ((s.history.content bufsz).values.take length).length
  reads : ∀ data length i, (serialDmaRx bufsz s.fifo data length).2.1 i =
    ((s.history.content bufsz).values.take length)[i]?.getD (data i)

def IndexFits (bufsz : Nat) (s : State) : Event → Prop
  | .dmaDone _ len => s.fifo.putIndex + len < 0x10000
  | .read _ length => s.fifo.getIndex + recvLen bufsz s.fifo length < 0x10000

instance (bufsz : Nat) (s : State) : (e : Event) → Decidable (IndexFits bufsz s e)
  | .dmaDone .. => inferInstanceAs (Decidable (_ < _))
  | .read .. => inferInstanceAs (Decidable (_ < _))

structure Marked (bufsz : Nat) (fifo : RtSerialRxFifo) (length : Nat) : Prop
    extends Indices bufsz fifo length where
  met : fifo.isFull = true → fifo.getIndex = fifo.putIndex

namespace Marked

variable {bufsz length : Nat} {fifo : RtSerialRxFifo}

section

variable (marked : Marked bufsz fifo length)

include marked

theorem isFull : fifo.isFull = true ↔ length = bufsz := by
  refine ⟨fun full => (marked.full (marked.met full).symm).mp full, fun all => ?_⟩
  have inside' := marked.put_lt
  have := marked.put_cases
  exact (marked.full (by omega)).mpr all

theorem movePutIndex_eq {len : Nat} (pos : 1 ≤ len) (le : len ≤ bufsz)
    (fits : fifo.putIndex + len < 0x10000) : movePutIndex bufsz fifo len = { fifo with
        putIndex := (fifo.putIndex + len) % bufsz
        isFull := decide (bufsz ≤ length + len) } := by
  have bounded := marked.length_le
  have getInside := marked.get_lt
  have putInside := marked.put_lt
  have place := marked.put_cases
  have moved := mod_cases (by omega : fifo.putIndex + len < 2 * bufsz)
  have stays : fifo.isFull = decide (length = bufsz) := by
    rw [Bool.eq_iff_iff, decide_eq_true_eq]
    exact marked.isFull
  unfold movePutIndex
  simp only [index16_eq fits]
  obtain ⟨buffer, oldPut, oldGet, wasFull⟩ := fifo
  subst stays
  split_ifs
  all_goals
    refine congrArg₂ (RtSerialRxFifo.mk buffer · oldGet ·) (by omega) ?_
    simp
    omega

theorem updatePutIndex_eq {len : Nat} (pos : 1 ≤ len) (le : len ≤ bufsz)
    (fits : fifo.putIndex + len < 0x10000) : rtDmaRecvUpdatePutIndex bufsz fifo len = { fifo with
        putIndex := (fifo.putIndex + len) % bufsz
        getIndex := (fifo.getIndex + (length + len - bufsz)) % bufsz
        isFull := decide (bufsz ≤ length + len) } := by
  have getInside := marked.get_lt
  have putInside : (fifo.putIndex + len) % bufsz < bufsz := Nat.mod_lt _ (by omega)
  rw [rtDmaRecvUpdatePutIndex, marked.movePutIndex_eq pos le fits]
  by_cases overwritten : bufsz ≤ length + len
  · have met : (fifo.getIndex + (length + len - bufsz)) % bufsz =
        (fifo.putIndex + len) % bufsz := by
      rw [marked.put, Nat.mod_add_mod, ← Nat.add_mod_right]
      congr 1
      omega
    simp [overwritten, met, Nat.not_le.mpr putInside]
  · have stays : (fifo.getIndex + (length + len - bufsz)) % bufsz = fifo.getIndex := by
      rw [Nat.sub_eq_zero_of_le (by omega), Nat.add_zero, Nat.mod_eq_of_lt getInside]
    simp [overwritten, stays, Nat.not_le.mpr getInside]

theorem updateGetIndex_eq {len : Nat} (le : len ≤ length) (fits : fifo.getIndex + len < 0x10000) :
    rtDmaRecvUpdateGetIndex bufsz fifo len = { fifo with
        getIndex := (fifo.getIndex + len) % bufsz
        isFull := fifo.isFull && decide (len = 0) } := by
  have bounded := marked.length_le
  have inside := marked.get_lt
  have getMod := mod_cases (by omega : fifo.getIndex + len < 2 * bufsz)
  have opened : (if fifo.isFull ∧ len ≠ 0 then { fifo with isFull := false } else fifo) =
      { fifo with isFull := fifo.isFull && decide (len = 0) } := by
    obtain ⟨buffer, put, get, isFull⟩ := fifo
    cases isFull <;> by_cases nothing : len = 0 <;> simp [nothing]
  simp only [rtDmaRecvUpdateGetIndex, opened, index16_eq fits]
  split
  · rfl
  · congr 1
    omega

end

end Marked

/-- The FIFO of a line whose content is `bytes`. -/
structure Stores (bufsz : Nat) (fifo : RtSerialRxFifo) (bytes : List UInt8) : Prop
    extends Marked bufsz fifo bytes.length where
  stored : contents fifo.buffer bufsz fifo.getIndex bytes.length = bytes

namespace Stores

variable {bufsz : Nat} {fifo : RtSerialRxFifo} {bytes : List UInt8}

section

variable (stores : Stores bufsz fifo bytes)

include stores

theorem dmaDone (b : Nat → UInt8) {len : Nat} (pos : 1 ≤ len) (le : len ≤ bufsz)
    (fits : fifo.putIndex + len < 0x10000) :
    Stores bufsz (rtDmaRecvUpdatePutIndex bufsz (dmaWrite bufsz fifo b len) len)
      ((bytes ++ (List.range len).map b).drop (bytes.length + len - bufsz)) := by
  have inside := stores.get_lt
  have written : Marked bufsz (dmaWrite bufsz fifo b len) bytes.length :=
    ⟨⟨stores.length_le, stores.get_lt, stores.put, stores.full⟩, stores.met⟩
  have length : ((bytes ++ (List.range len).map b).drop
      (bytes.length + len - bufsz)).length = min (bytes.length + len) bufsz := by
    simp
    omega
  have put : (fifo.putIndex + len) % bufsz =
      ((fifo.getIndex + (bytes.length + len - bufsz)) % bufsz +
        min (bytes.length + len) bufsz) % bufsz := by
    rw [stores.put, Nat.mod_add_mod, Nat.mod_add_mod]
    congr 1
    omega
  have content := contents_overwrite fifo.buffer bytes.length b inside le
  rw [stores.stored, ← stores.put] at content
  rw [written.updatePutIndex_eq pos le fits]
  refine ⟨⟨⟨?_, ?_, ?_, ?_⟩, ?_⟩, ?_⟩
  · rw [length]
    exact Nat.min_le_right ..
  · exact Nat.mod_lt _ (by omega)
  · rw [length]
    exact put
  · intro _
    rw [length, decide_eq_true_eq]
    omega
  · simp only [decide_eq_true_eq]
    intro overwritten
    rw [dmaWrite, put, Nat.min_eq_right overwritten, Nat.add_mod_right, Nat.mod_mod]
  · rw [length]
    exact content

theorem recvLen_eq (length : Nat) : recvLen bufsz fifo length = min length bytes.length := by
  rw [recvLen, rtDmaCalcRecvedLen, stores.recvedLen]
  split <;> omega

theorem copyOut_eq (data : Nat → UInt8) {n : Nat} (le : n ≤ bytes.length) (i : Nat) :
    copyOut bufsz fifo data n i = (bytes.take n)[i]?.getD (data i) := by
  have bounded := stores.length_le
  have inside := stores.get_lt
  have block : copyOut bufsz fifo data n = readBlock data fifo.buffer bufsz fifo.getIndex n := by
    unfold copyOut
    split
    · rw [readBlock_of_le _ _ (by omega)]
    · rw [readBlock_of_ge _ _ (by omega)]
      congr 1
      omega
  rw [block, readBlock_eq _ _ inside (by omega), ← contents_take _ inside le, stores.stored]

theorem read {n : Nat} (le : n ≤ bytes.length) (fits : fifo.getIndex + n < 0x10000) :
    Stores bufsz (rtDmaRecvUpdateGetIndex bufsz fifo n) (bytes.drop n) := by
  have bounded := stores.length_le
  have inside := stores.get_lt
  rw [stores.updateGetIndex_eq le fits]
  rcases Nat.eq_zero_or_pos n with rfl | pos
  · simpa [Nat.mod_eq_of_lt inside] using stores
  · refine ⟨⟨⟨?_, ?_, ?_, ?_⟩, ?_⟩, ?_⟩
    · simp
      omega
    · exact Nat.mod_lt _ (by omega)
    · simp only [List.length_drop]
      rw [Nat.mod_add_mod, stores.put]
      congr 1
      omega
    · simp [Nat.pos_iff_ne_zero.mp pos]
      omega
    · simp [Nat.pos_iff_ne_zero.mp pos]
    · rw [List.length_drop, ← contents_drop _ inside le, stores.stored]

end

theorem behaves {s : State} (stores : Stores bufsz s.fifo (s.history.content bufsz).values) :
    Behaves bufsz s where
  length := by rw [rtDmaCalcRecvedLen, stores.recvedLen, History.length_content]
  returns data length := by
    rw [serialDmaRx, stores.recvLen_eq, List.length_take]
  reads data length i := by
    have copied := stores.copyOut_eq data
      (Nat.min_le_right length (s.history.content bufsz).values.length) i
    rw [List.take_eq_take_min]
    simpa only [serialDmaRx, stores.recvLen_eq] using copied

end Stores

theorem Initial.stores {bufsz : Nat} (pos : 1 ≤ bufsz) {s : State} (init : Initial s) :
    Stores bufsz s.fifo (s.history.content bufsz).values := by
  have holds := Holds.rtSerialOpen (by omega : 0 < bufsz)
  rw [init.fifo_eq, init.history_eq, History.content_empty]
  exact ⟨⟨holds.toIndices, by simp [rtSerialOpen]⟩, holds.stored⟩

theorem step_stores {bufsz : Nat} {s s' : State} {e : Event}
    (stores : Stores bufsz s.fifo (s.history.content bufsz).values) (fits : IndexFits bufsz s e)
    (ran : step bufsz s e = some s') : Stores bufsz s'.fifo (s'.history.content bufsz).values := by
  cases e with
  | dmaDone b len =>
    obtain ⟨transfer, ⟨⟩⟩ := Option.ite_none_right_eq_some.mp ran
    simp only [History.content_receive, List.length_map, List.length_range]
    exact stores.dmaDone b transfer.1 transfer.2 fits
  | read data length =>
    cases ran
    simp only [History.content_read]
    have recvLen := stores.recvLen_eq length
    exact stores.read (by omega) fits

/-- A run in which no index exceeds its 16 bits keeps the FIFO a queue throughout. -/
theorem behaves_throughout {bufsz : Nat} (pos : 1 ≤ bufsz)
    {taken : List (Taken State Event)} {last : State} (run : (system bufsz).Run taken last)
    (fits : EveryStep (IndexFits bufsz) taken) : Throughout (Behaves bufsz) taken last := by
  have base : ∀ s, Initial s →
      Stores bufsz s.fifo (s.history.content bufsz).values :=
    fun _ init => init.stores pos
  have kept := run.throughout_of_everyStep base (fun _ _ _ => step_stores) fits
  exact kept.imp fun _ stores => stores.behaves

def opened : State := ⟨rtSerialOpen, .empty⟩

theorem opened_initial : Initial opened := ⟨rfl, rfl⟩

theorem overwritten_behaves : Throughout (Behaves 3) (record (step 3) [] opened
        [.dmaDone (fun _ => 65) 3, .read (fun _ => 0) 1, .dmaDone (fun _ => 66) 2])
      ((execute (step 3) opened
        [.dmaDone (fun _ => 65) 3, .read (fun _ => 0) 1, .dmaDone (fun _ => 66) 2]).get
          (by decide)) :=
  behaves_throughout (by decide) (Run.executed _ _ opened_initial _) (by decide)

/-- In a buffer of 40000 bytes, two transfers of 36000 bytes leave `put_index` at 6464
rather than 32000. -/
theorem index_wraps_not_behaves : ¬ ∀ (taken : List (Taken State Event)) (last : State),
      (system 40000).Run taken last → Throughout (Behaves 40000) taken last := by
  intro claim
  have run := Run.execute
    (.start opened_initial : (system 40000).Run [] opened)
    (rfl : execute (step 40000) opened
      [.dmaDone (fun _ => 65) 36000, .dmaDone (fun _ => 66) 36000] = some _)
  have length := (claim _ _ run).1.length
  revert length
  decide +kernel

end RtThread.Serial.DmaRx
