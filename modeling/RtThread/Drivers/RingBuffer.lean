import RtThread.Library.BoundedQueue
import RtThread.Library.CircularBuffer
import RtThread.Library.Words
import RtThread.Library.TransitionSystem

/-!
# Ring buffers

`rt_ringbuffer_put`, `rt_ringbuffer_get` and their one-byte variants.
-/

open Function (update)

namespace RtThread.RingBuffer

open CircularBuffer

inductive RtRingbufferState where
  | empty
  | full
  | halffull
  deriving DecidableEq

/-- `struct rt_ringbuffer`, with the bytes that `buffer_ptr` points to. -/
structure RtRingbuffer where
  bufferPtr : Nat → UInt8
  readMirror : Bool
  readIndex : Nat
  writeMirror : Bool
  writeIndex : Nat
  bufferSize : Nat

def index15 (value : Nat) : Nat := value % 2 ^ 15

def rtRingbufferStatus (rb : RtRingbuffer) : RtRingbufferState :=
  if rb.readIndex = rb.writeIndex then
    if rb.readMirror = rb.writeMirror then .empty else .full
  else .halffull

/-- The result is `none` where `RT_ASSERT(size > 0)` fails.  `alignSize` is
`RT_ALIGN_SIZE`. -/
def rtRingbufferInit (alignSize : Nat) (pool : Nat → UInt8) (size : BitVec 16) :
    Option RtRingbuffer :=
  if 0 < size.toInt then
    some
      { bufferPtr := pool
        readMirror := false
        readIndex := 0
        writeMirror := false
        writeIndex := 0
        bufferSize := Word32.maskDown size.toNat alignSize }
  else none

def rtRingbufferDataLen (rb : RtRingbuffer) : Nat :=
  match rtRingbufferStatus rb with
  | .empty => 0
  | .full => rb.bufferSize
  | .halffull =>
    if rb.writeIndex > rb.readIndex then rb.writeIndex - rb.readIndex
    else rb.bufferSize - (rb.readIndex - rb.writeIndex)

def rtRingbufferSpaceLen (rb : RtRingbuffer) : Nat := rb.bufferSize - rtRingbufferDataLen rb

def rtRingbufferPut (rb : RtRingbuffer) (ptr : Nat → UInt8) (length : UInt16) :
    RtRingbuffer × Nat :=
  let size := rtRingbufferSpaceLen rb % 2 ^ 16
  if size = 0 then (rb, 0)
  else
    let length := if size < length.toNat then size else length.toNat
    if rb.bufferSize - rb.writeIndex > length then
      ({ rb with
          bufferPtr := copyBlock rb.bufferPtr rb.writeIndex ptr 0 length
          writeIndex := index15 (rb.writeIndex + length) }, length)
    else
      let first := rb.bufferSize - rb.writeIndex
      ({ rb with
          bufferPtr :=
            copyBlock (copyBlock rb.bufferPtr rb.writeIndex ptr 0 first) 0 ptr first
              (length - first)
          writeMirror := !rb.writeMirror
          writeIndex := index15 (length - first) }, length)

/-- Returns the memory `ptr` points to, with the bytes read, and their number. -/
def rtRingbufferGet (rb : RtRingbuffer) (ptr : Nat → UInt8) (length : UInt16) :
    RtRingbuffer × (Nat → UInt8) × Nat :=
  let size := rtRingbufferDataLen rb
  if size = 0 then (rb, ptr, 0)
  else
    let length := if size < length.toNat then size else length.toNat
    if rb.bufferSize - rb.readIndex > length then
      ({ rb with readIndex := index15 (rb.readIndex + length) },
        copyBlock ptr 0 rb.bufferPtr rb.readIndex length, length)
    else
      let first := rb.bufferSize - rb.readIndex
      ({ rb with
          readMirror := !rb.readMirror
          readIndex := index15 (length - first) },
        copyBlock (copyBlock ptr 0 rb.bufferPtr rb.readIndex first) first rb.bufferPtr 0
          (length - first),
        length)

def rtRingbufferPutchar (rb : RtRingbuffer) (ch : UInt8) : RtRingbuffer × Nat :=
  if rtRingbufferSpaceLen rb = 0 then (rb, 0)
  else
    let rb := { rb with bufferPtr := update rb.bufferPtr rb.writeIndex ch }
    if rb.writeIndex = rb.bufferSize - 1 then
      ({ rb with writeMirror := !rb.writeMirror, writeIndex := 0 }, 1)
    else ({ rb with writeIndex := index15 (rb.writeIndex + 1) }, 1)

def rtRingbufferPutcharForce (rb : RtRingbuffer) (ch : UInt8) : RtRingbuffer × Nat :=
  let oldState := rtRingbufferStatus rb
  let rb := { rb with bufferPtr := update rb.bufferPtr rb.writeIndex ch }
  if rb.writeIndex = rb.bufferSize - 1 then
    let rb := { rb with writeMirror := !rb.writeMirror, writeIndex := 0 }
    if oldState = .full then
      ({ rb with readMirror := !rb.readMirror, readIndex := rb.writeIndex }, 1)
    else (rb, 1)
  else
    let rb := { rb with writeIndex := index15 (rb.writeIndex + 1) }
    if oldState = .full then ({ rb with readIndex := rb.writeIndex }, 1) else (rb, 1)

/-- Returns the memory `ch` points to, and the number of bytes written there. -/
def rtRingbufferGetchar (rb : RtRingbuffer) (ch : Nat → UInt8) :
    RtRingbuffer × (Nat → UInt8) × Nat :=
  if rtRingbufferDataLen rb = 0 then (rb, ch, 0)
  else
    let ch := update ch 0 (rb.bufferPtr rb.readIndex)
    if rb.readIndex = rb.bufferSize - 1 then
      ({ rb with readMirror := !rb.readMirror, readIndex := 0 }, ch, 1)
    else ({ rb with readIndex := index15 (rb.readIndex + 1) }, ch, 1)

def rtRingbufferReset (rb : RtRingbuffer) : RtRingbuffer :=
  { rb with readMirror := false, readIndex := 0, writeMirror := false, writeIndex := 0 }

/-- A call on a ring buffer.  A pointer argument is the memory it points to. -/
inductive Operation where
  | put (ptr : Nat → UInt8) (length : UInt16)
  | get (ptr : Nat → UInt8) (length : UInt16)
  | putchar (ch : UInt8)
  | putcharForce (ch : UInt8)
  | getchar (ch : Nat → UInt8)
  | reset

inductive Answer where
  | stored (size : Nat)
  | fetched (size : Nat) (ptr : Nat → UInt8)
  | done

def perform (rb : RtRingbuffer) : Operation → RtRingbuffer × Answer
  | .put ptr length =>
    let (rb, size) := rtRingbufferPut rb ptr length
    (rb, .stored size)
  | .get ptr length =>
    let (rb, ptr, size) := rtRingbufferGet rb ptr length
    (rb, .fetched size ptr)
  | .putchar ch =>
    let (rb, size) := rtRingbufferPutchar rb ch
    (rb, .stored size)
  | .putcharForce ch =>
    let (rb, size) := rtRingbufferPutcharForce rb ch
    (rb, .stored size)
  | .getchar ch =>
    let (rb, ch, size) := rtRingbufferGetchar rb ch
    (rb, .fetched size ch)
  | .reset => (rtRingbufferReset rb, .done)

end RtThread.RingBuffer

namespace RtThread.RingBuffer

open CircularBuffer

variable {capacity : Nat}

/-- What the calls are to do with a queue of `capacity` bytes. -/
def performFifo (q : BoundedQueue UInt8 capacity) :
    Operation → BoundedQueue UInt8 capacity × Answer
  | .put ptr length =>
    (q.store ((List.range length.toNat).map ptr), .stored (min length.toNat q.space))
  | .get ptr length =>
    (q.discard length.toNat, .fetched (min length.toNat q.values.length)
        fun i => (q.values.take length.toNat)[i]?.getD (ptr i))
  | .putchar ch => (q.store [ch], .stored (min 1 q.space))
  | .putcharForce ch => (q.storeForced ch, .stored 1)
  | .getchar ch =>
    (q.discard 1, .fetched (min 1 q.values.length) fun i => (q.values.take 1)[i]?.getD (ch i))
  | .reset => (.empty, .done)

structure Holds (rb : RtRingbuffer) (q : BoundedQueue UInt8 capacity) : Prop where
  size : rb.bufferSize = capacity
  small : capacity < 2 ^ 15
  read_lt : rb.readIndex < capacity
  write : rb.writeIndex = (rb.readIndex + q.values.length) % capacity
  mirror : rb.readMirror = rb.writeMirror ↔ rb.readIndex + q.values.length < capacity
  stored : contents rb.bufferPtr capacity rb.readIndex q.values.length = q.values

def RtRingbuffer.pushed (rb : RtRingbuffer) (ptr : Nat → UInt8) (count : Nat) : RtRingbuffer :=
  { rb with
    bufferPtr := pushBlock rb.bufferPtr rb.bufferSize rb.writeIndex ptr count
    writeMirror :=
      if count < rb.bufferSize - rb.writeIndex then rb.writeMirror else !rb.writeMirror
    writeIndex := (rb.writeIndex + count) % rb.bufferSize }

def RtRingbuffer.popped (rb : RtRingbuffer) (count : Nat) : RtRingbuffer :=
  { rb with
    readMirror :=
      if count < rb.bufferSize - rb.readIndex then rb.readMirror else !rb.readMirror
    readIndex := (rb.readIndex + count) % rb.bufferSize }

theorem index15_eq {v : Nat} (small : v < 2 ^ 15) : index15 v = v := Nat.mod_eq_of_lt small

variable {s' : BoundedQueue UInt8 capacity}

namespace Holds

variable {rb : RtRingbuffer} {q : BoundedQueue UInt8 capacity}

section

variable (holds : Holds rb q)

include holds

theorem write_cases : rb.readIndex + q.values.length < capacity ∧
        rb.writeIndex = rb.readIndex + q.values.length ∧ rb.readMirror = rb.writeMirror ∨
      capacity ≤ rb.readIndex + q.values.length ∧
        rb.writeIndex + capacity = rb.readIndex + q.values.length ∧
          rb.readMirror ≠ rb.writeMirror := by
  have bounded := q.bounded
  have inside := holds.read_lt
  rcases mod_cases (by omega : rb.readIndex + q.values.length < 2 * capacity) with
    ⟨low, equal⟩ | ⟨high, equal⟩
  · exact .inl ⟨low, holds.write.trans equal, holds.mirror.mpr low⟩
  · apply Or.inr
    have write := holds.write.trans equal
    exact ⟨high, by omega, fun same => absurd (holds.mirror.mp same) (by omega)⟩

theorem write_lt : rb.writeIndex < capacity := by
  rw [holds.write]
  exact Nat.mod_lt _ (by have := holds.read_lt; omega)

theorem dataLen : rtRingbufferDataLen rb = q.values.length := by
  have bounded := q.bounded
  have size := holds.size
  unfold rtRingbufferDataLen rtRingbufferStatus
  rcases holds.write_cases with ⟨low, write, same⟩ | ⟨high, write, ne⟩
  · by_cases equal : rb.readIndex = rb.writeIndex
    · simp only [equal, same, if_true]
      omega
    · simp only [equal, if_false]
      split <;> omega
  · by_cases equal : rb.readIndex = rb.writeIndex
    · simp only [equal, ne, if_true, if_false]
      omega
    · simp only [equal, if_false]
      split <;> omega

theorem spaceLen : rtRingbufferSpaceLen rb = q.space := by
  rw [rtRingbufferSpaceLen, holds.dataLen, holds.size, BoundedQueue.space]

theorem space_le : q.values.length + q.space = capacity := by
  have := q.bounded
  unfold BoundedQueue.space
  omega

theorem full_iff : rtRingbufferStatus rb = .full ↔ q.space = 0 := by
  have bounded := q.bounded
  have status : rtRingbufferStatus rb = .full ↔
      rb.readIndex = rb.writeIndex ∧ rb.readMirror ≠ rb.writeMirror := by
    unfold rtRingbufferStatus
    split_ifs with equal same
    · simp [same]
    · simp [equal, same]
    · simp [equal]
  rw [status, BoundedQueue.space]
  rcases holds.write_cases with ⟨low, write, same⟩ | ⟨high, write, ne⟩
  · exact iff_of_false (fun full => full.2 same) (by omega)
  · simp only [ne_eq, ne, not_false_eq_true, and_true]
    omega

theorem pushed (ptr : Nat → UInt8) {n : Nat} (fits : n ≤ q.space)
    (values : s'.values = q.values ++ (List.range n).map ptr) : Holds (rb.pushed ptr n) s' := by
  have space := holds.space_le
  have length : s'.values.length = q.values.length + n := by simp [values]
  have index : (rb.writeIndex + n) % capacity = (rb.readIndex + s'.values.length) % capacity := by
    rw [holds.write, Nat.mod_add_mod, length, Nat.add_assoc]
  constructor
  · exact holds.size
  · exact holds.small
  · exact holds.read_lt
  · simpa only [RtRingbuffer.pushed, holds.size] using index
  · simp only [RtRingbuffer.pushed, holds.size]
    have inside := holds.read_lt
    rcases holds.write_cases with ⟨low, write, same⟩ | ⟨high, write, ne⟩
    · by_cases wraps : n < capacity - rb.writeIndex
      · simp only [wraps, if_true, same, true_iff]
        omega
      · simp only [wraps, if_false, same, Bool.eq_not_self, false_iff]
        omega
    · have flat : n < capacity - rb.writeIndex := by omega
      simp only [flat, if_true, ne, false_iff]
      omega
  · simp only [RtRingbuffer.pushed, holds.size, length]
    rw [holds.write, contents_pushBlock _ _ holds.read_lt (by omega), holds.stored, values]

theorem popped {n : Nat} (fits : n ≤ q.values.length) (values : s'.values = q.values.drop n) :
    Holds (rb.popped n) s' := by
  have bounded := q.bounded
  have inside := holds.read_lt
  have length : s'.values.length = q.values.length - n := by simp [values]
  have index := mod_cases (by omega : rb.readIndex + n < 2 * capacity)
  constructor
  · exact holds.size
  · exact holds.small
  · simp only [RtRingbuffer.popped, holds.size]
    exact Nat.mod_lt _ (by omega)
  · simp only [RtRingbuffer.popped, holds.size]
    rw [Nat.mod_add_mod, holds.write]
    congr 1
    omega
  · simp only [RtRingbuffer.popped, holds.size]
    rcases holds.write_cases with ⟨low, write, same⟩ | ⟨high, write, ne⟩
    · have flat : n < capacity - rb.readIndex := by omega
      simp only [flat, if_true, same, true_iff]
      omega
    · by_cases wraps : n < capacity - rb.readIndex
      · simp only [wraps, if_true, ne, false_iff]
        omega
      · simp only [wraps, if_false]
        have flipped : (!rb.readMirror) = rb.writeMirror := by
          cases readMirror : rb.readMirror <;> cases writeMirror : rb.writeMirror <;>
            simp_all
        simp only [flipped, true_iff]
        omega
  · simp only [RtRingbuffer.popped, holds.size, length]
    rw [← contents_drop _ inside fits, holds.stored, values]

theorem put (b : List UInt8) (ptr : Nat → UInt8) {n : Nat} (read : b = (List.range n).map ptr) :
    Holds (rb.pushed ptr (min n q.space)) (q.store b) := by
  apply holds.pushed ptr (Nat.min_le_right ..)
  rw [BoundedQueue.values_store, read, ← List.map_take, List.take_range, Nat.min_comm]

theorem get (n : Nat) : Holds (rb.popped (min n q.values.length)) (q.discard n) := by
  apply holds.popped (Nat.min_le_right ..)
  rw [BoundedQueue.values_discard, List.drop_eq_drop_iff, Nat.min_assoc, Nat.min_self]

theorem put_one (ch : UInt8) (notFull : q.space ≠ 0) :
    Holds (rb.pushed (fun _ => ch) 1) (q.store [ch]) := by
  have one : min 1 q.space = 1 := by omega
  have stores := holds.put [ch] (fun _ => ch) (rfl : [ch] = (List.range 1).map _)
  rwa [one] at stores

theorem get_one (notEmpty : q.values.length ≠ 0) : Holds (rb.popped 1) (q.discard 1) := by
  have one : min 1 q.values.length = 1 := by omega
  have discards := holds.get 1
  rwa [one] at discards

theorem pushed_one (ch : UInt8) :
    rb.pushed (fun _ => ch) 1 = if rb.writeIndex = rb.bufferSize - 1 then
        { rb with
          bufferPtr := update rb.bufferPtr rb.writeIndex ch
          writeMirror := !rb.writeMirror
          writeIndex := 0 }
      else
        { rb with
          bufferPtr := update rb.bufferPtr rb.writeIndex ch
          writeIndex := index15 (rb.writeIndex + 1) } := by
  have small := holds.small
  have inside := holds.write_lt
  have size := holds.size
  rw [RtRingbuffer.pushed, pushBlock_of_le _ _ (by omega), copyBlock_one]
  by_cases atEnd : rb.writeIndex = rb.bufferSize - 1
  · rw [if_pos atEnd, if_neg (by omega), (by omega : rb.writeIndex + 1 = rb.bufferSize),
      Nat.mod_self]
  · rw [if_neg atEnd, if_pos (by omega), index15_eq (by omega), Nat.mod_eq_of_lt (by omega)]

theorem popped_one : rb.popped 1 = if rb.readIndex = rb.bufferSize - 1 then
        { rb with readMirror := !rb.readMirror, readIndex := 0 }
      else { rb with readIndex := index15 (rb.readIndex + 1) } := by
  have small := holds.small
  have inside := holds.read_lt
  have size := holds.size
  rw [RtRingbuffer.popped]
  by_cases atEnd : rb.readIndex = rb.bufferSize - 1
  · rw [if_pos atEnd, if_neg (by omega), (by omega : rb.readIndex + 1 = rb.bufferSize),
      Nat.mod_self]
  · rw [if_neg atEnd, if_pos (by omega), index15_eq (by omega), Nat.mod_eq_of_lt (by omega)]

end

section

variable (holds : Holds rb q)

include holds

theorem put_eq (ptr : Nat → UInt8) (n : UInt16) (notFull : q.space ≠ 0) :
    rtRingbufferPut rb ptr n = (rb.pushed ptr (min n.toNat q.space), min n.toNat q.space) := by
  have space := holds.space_le
  have small := holds.small
  have inside := holds.write_lt
  have size := holds.size
  have count : (if q.space < n.toNat then q.space else n.toNat) = min n.toNat q.space := by
    split <;> omega
  unfold rtRingbufferPut
  rw [holds.spaceLen, Nat.mod_eq_of_lt (by omega : q.space < 2 ^ 16)]
  simp only [notFull, if_false, count]
  generalize chosen : min n.toNat q.space = count
  split
  · rename_i flat
    simp only [RtRingbuffer.pushed, if_pos flat]
    rw [pushBlock_of_le _ _ (by omega), index15_eq (by omega), Nat.mod_eq_of_lt (by omega)]
  · rename_i wraps
    have index : (rb.writeIndex + count) % rb.bufferSize =
        count - (rb.bufferSize - rb.writeIndex) := by
      rcases mod_cases (by omega : rb.writeIndex + count < 2 * rb.bufferSize) with
        ⟨low, equal⟩ | ⟨high, equal⟩ <;> omega
    simp only [RtRingbuffer.pushed, if_neg wraps]
    rw [pushBlock_of_ge _ _ (by omega), index15_eq (by omega), index]

theorem putchar_eq (ch : UInt8) (notFull : q.space ≠ 0) :
    rtRingbufferPutchar rb ch = (rb.pushed (fun _ => ch) 1, 1) := by
  unfold rtRingbufferPutchar
  simp only [holds.spaceLen, notFull, if_false, holds.pushed_one]
  split <;> rfl

theorem putcharForce_eq (ch : UInt8) :
    rtRingbufferPutcharForce rb ch = (if q.space = 0 then (rb.popped 1).pushed (fun _ => ch) 1
        else rb.pushed (fun _ => ch) 1, 1) := by
  have space := holds.space_le
  have inside := holds.write_lt
  unfold rtRingbufferPutcharForce
  simp only [holds.full_iff]
  by_cases full : q.space = 0
  · have same : rb.readIndex = rb.writeIndex := by
      rcases holds.write_cases with ⟨_, _, _⟩ | ⟨_, _, _⟩ <;> omega
    have dropped := holds.get_one (by omega)
    simp only [full, if_true, dropped.pushed_one]
    simp only [holds.popped_one, same]
    by_cases atEnd : rb.writeIndex = rb.bufferSize - 1
    · simp only [if_pos atEnd]
    · simp only [if_neg atEnd]
  · simp only [holds.pushed_one]
    split <;> rfl

theorem get_eq (ptr : Nat → UInt8) (n : UInt16) (notEmpty : q.values.length ≠ 0) :
    rtRingbufferGet rb ptr n = (rb.popped (min n.toNat q.values.length),
        readBlock ptr rb.bufferPtr capacity rb.readIndex (min n.toNat q.values.length),
        min n.toNat q.values.length) := by
  have bounded := q.bounded
  have small := holds.small
  have inside := holds.read_lt
  have size := holds.size
  have count : (if q.values.length < n.toNat then q.values.length
      else n.toNat) = min n.toNat q.values.length := by
    split <;> omega
  unfold rtRingbufferGet
  simp only [holds.dataLen, notEmpty, if_false, count]
  generalize chosen : min n.toNat q.values.length = count
  split
  · rename_i flat
    simp only [RtRingbuffer.popped, if_pos flat]
    rw [readBlock_of_le _ _ (by omega), index15_eq (by omega), Nat.mod_eq_of_lt (by omega)]
  · rename_i wraps
    have index : (rb.readIndex + count) % rb.bufferSize =
        count - (rb.bufferSize - rb.readIndex) := by
      rcases mod_cases (by omega : rb.readIndex + count < 2 * rb.bufferSize) with
        ⟨low, equal⟩ | ⟨high, equal⟩ <;> omega
    simp only [RtRingbuffer.popped, if_neg wraps]
    rw [readBlock_of_ge _ _ (by omega), index15_eq (by omega), index, size]

theorem getchar_eq (ch : Nat → UInt8) (notEmpty : q.values.length ≠ 0) : rtRingbufferGetchar rb ch =
      (rb.popped 1, readBlock ch rb.bufferPtr capacity rb.readIndex 1, 1) := by
  have inside := holds.read_lt
  unfold rtRingbufferGetchar
  simp only [holds.dataLen, notEmpty, if_false, holds.popped_one]
  rw [readBlock_of_le _ _ (by omega), copyBlock_one]
  split <;> rfl

theorem readBlock_eq_take (ptr : Nat → UInt8) (n : Nat) :
    readBlock ptr rb.bufferPtr capacity rb.readIndex (min n q.values.length) =
      fun i => (q.values.take n)[i]?.getD (ptr i) := by
  have bounded := q.bounded
  have prefixEq : contents rb.bufferPtr capacity rb.readIndex (min n q.values.length) =
      q.values.take n := by
    rw [← contents_take _ holds.read_lt (Nat.min_le_right ..), holds.stored,
      List.take_eq_take_iff, Nat.min_assoc, Nat.min_self]
  funext i
  rw [readBlock_eq _ _ holds.read_lt (by omega), prefixEq]

theorem same (values : s'.values = q.values) : Holds rb s' := by
  obtain ⟨afterValues, afterBounded⟩ := s'
  subst values
  exact holds

theorem perform (op : Operation) : Holds (RingBuffer.perform rb op).1 (performFifo q op).1 ∧
      (RingBuffer.perform rb op).2 = (performFifo q op).2 := by
  cases op with
  | put ptr length =>
    by_cases full : q.space = 0
    · have unchanged : rtRingbufferPut rb ptr length = (rb, 0) := by
        simp [rtRingbufferPut, holds.spaceLen, full]
      simp only [RingBuffer.perform, performFifo, unchanged, full, Nat.min_zero, and_true]
      apply holds.same
      simp [full]
    · simp only [RingBuffer.perform, performFifo, holds.put_eq ptr length full, and_true]
      exact holds.put _ ptr rfl
  | get ptr length =>
    by_cases noData : q.values.length = 0
    · have unchanged : rtRingbufferGet rb ptr length = (rb, ptr, 0) := by
        simp [rtRingbufferGet, holds.dataLen, noData]
      have nil := List.eq_nil_of_length_eq_zero noData
      simp only [RingBuffer.perform, performFifo, unchanged]
      refine ⟨holds.same ?_, ?_⟩
      · simp [nil]
      · simp [nil]
    · simp only [RingBuffer.perform, performFifo, holds.get_eq ptr length noData,
        holds.readBlock_eq_take, and_true]
      exact holds.get length.toNat
  | putchar ch =>
    by_cases full : q.space = 0
    · have unchanged : rtRingbufferPutchar rb ch = (rb, 0) := by
        simp [rtRingbufferPutchar, holds.spaceLen, full]
      simp only [RingBuffer.perform, performFifo, unchanged, full, Nat.min_zero, and_true]
      apply holds.same
      simp [full]
    · have one : min 1 q.space = 1 := by omega
      simp only [RingBuffer.perform, performFifo, holds.putchar_eq ch full, one, and_true]
      exact holds.put_one ch full
  | putcharForce ch =>
    simp only [RingBuffer.perform, performFifo, holds.putcharForce_eq, and_true,
      BoundedQueue.storeForced]
    have space := holds.space_le
    have inside := holds.read_lt
    by_cases full : q.space = 0
    · have dropped := holds.get_one (by omega)
      have free : (q.discard 1).space ≠ 0 := by
        simp only [BoundedQueue.space, BoundedQueue.values_discard, List.length_drop]
        omega
      simp only [full]
      exact dropped.put_one ch free
    · simp only [full]
      exact holds.put_one ch full
  | getchar ch =>
    by_cases noData : q.values.length = 0
    · have unchanged : rtRingbufferGetchar rb ch = (rb, ch, 0) := by
        simp [rtRingbufferGetchar, holds.dataLen, noData]
      have nil := List.eq_nil_of_length_eq_zero noData
      simp only [RingBuffer.perform, performFifo, unchanged]
      refine ⟨holds.same ?_, ?_⟩
      · simp [nil]
      · simp [nil]
    · have one : min 1 q.values.length = 1 := by omega
      have block := holds.readBlock_eq_take ch 1
      rw [one] at block
      simp only [RingBuffer.perform, performFifo, holds.getchar_eq ch noData, one, block, and_true]
      exact holds.get_one noData
  | reset =>
    refine ⟨?_, rfl⟩
    have inside := holds.read_lt
    have pos : 0 < capacity := by omega
    constructor
    · exact holds.size
    · exact holds.small
    · exact pos
    · exact (Nat.zero_mod capacity).symm
    · simp [RingBuffer.perform, rtRingbufferReset, performFifo, BoundedQueue.empty, pos]
    · rfl

end

end Holds

variable {rb : RtRingbuffer}

theorem holds_init {alignBits : Nat} {pool : Nat → UInt8} {n : BitVec 16}
    (accepted : rtRingbufferInit (2 ^ alignBits) pool n = some rb)
    (aligned : 2 ^ alignBits ≤ n.toNat) :
    Holds rb (BoundedQueue.empty : BoundedQueue UInt8 rb.bufferSize) := by
  obtain ⟨pos, rfl⟩ : 0 < n.toInt ∧ _ = rb := by simpa [rtRingbufferInit] using accepted
  have small : n.toNat < 2 ^ 15 := by
    rw [BitVec.toInt_eq_toNat_cond] at pos
    split at pos <;> omega
  have bits : alignBits < 15 := by
    apply (Nat.pow_lt_pow_iff_right (by decide : 1 < 2)).mp
    omega
  have one_le : 1 ≤ n.toNat / 2 ^ alignBits :=
    (Nat.le_div_iff_mul_le (Nat.two_pow_pos _)).mpr (by omega)
  have capacity := Word32.maskDown_eq (by omega : n.toNat < 2 ^ 32)
    (by omega : alignBits ≤ 32)
  have le := Word32.maskDown_le (by omega : n.toNat < 2 ^ 32) (by omega : alignBits ≤ 32)
  have room : 0 < Word32.maskDown n.toNat (2 ^ alignBits) := by
    rw [capacity]
    exact Nat.mul_pos one_le (Nat.two_pow_pos _)
  constructor
  · rfl
  · simp only
    omega
  · exact room
  · exact (Nat.zero_mod _).symm
  · simp [BoundedQueue.empty, room]
  · rfl

/-- Whatever calls are made, a ring buffer answers as a queue of `buffer_size` bytes
does, and then holds the bytes that the queue holds. -/
theorem ringbuffer_refines_fifo {alignBits : Nat} {pool : Nat → UInt8} {n : BitVec 16}
    {rb : RtRingbuffer} (accepted : rtRingbufferInit (2 ^ alignBits) pool n = some rb)
    (aligned : 2 ^ alignBits ≤ n.toNat) (operations : List Operation) :
    let outcome := Machine.run perform rb operations
    let fifo : BoundedQueue UInt8 rb.bufferSize × List Answer :=
      Machine.run performFifo .empty operations
    outcome.2 = fifo.2 ∧
      outcome.1.bufferSize = rb.bufferSize ∧
      rtRingbufferDataLen outcome.1 = fifo.1.values.length ∧
      contents outcome.1.bufferPtr rb.bufferSize outcome.1.readIndex
          (rtRingbufferDataLen outcome.1) = fifo.1.values ∧
      outcome.1.readIndex < rb.bufferSize ∧ outcome.1.writeIndex < rb.bufferSize := by
  intro outcome fifo
  have forward : ∀ (s : RtRingbuffer) (q : BoundedQueue UInt8 rb.bufferSize)
      (op : Operation), Holds s q →
        Holds (perform s op).1 (performFifo q op).1 ∧
          (perform s op).2 = (performFifo q op).2 :=
    fun _ _ op holds => holds.perform op
  obtain ⟨holds, answers⟩ := Machine.run_simulates forward operations (holds_init accepted aligned)
  refine ⟨answers, holds.size, holds.dataLen, ?_, holds.read_lt, holds.write_lt⟩
  rw [holds.dataLen]
  exact holds.stored

theorem ringbuffer_refines_fifo_around_end :
    ∃ rb, rtRingbufferInit (2 ^ 2) (fun _ => 0) 7 = some rb ∧
      rtRingbufferDataLen (Machine.run perform rb
        [.put (fun i => UInt8.ofNat i) 3, .getchar fun _ => 0, .put (fun _ => 9) 2]).1 = 4 := by
  have accepted : rtRingbufferInit (2 ^ 2) (fun _ => 0) 7 = some _ := rfl
  refine ⟨_, accepted, ?_⟩
  have refines := ringbuffer_refines_fifo accepted (by decide)
    [.put (fun i => UInt8.ofNat i) 3, .getchar fun _ => 0, .put (fun _ => 9) 2]
  exact refines.2.2.1.trans (by decide)

def rtRingbufferPutForce (rb : RtRingbuffer) (ptr : Nat → UInt8) (length : UInt16) :
    RtRingbuffer × Nat :=
  let spaceLength := rtRingbufferSpaceLen rb % 2 ^ 16
  let excess := if length.toNat > rb.bufferSize then length.toNat - rb.bufferSize else 0
  let ptr := fun i => ptr (excess + i)
  let length := length.toNat - excess
  if rb.bufferSize - rb.writeIndex > length then
    let rb := { rb with
      bufferPtr := copyBlock rb.bufferPtr rb.writeIndex ptr 0 length
      writeIndex := index15 (rb.writeIndex + length) }
    if length > spaceLength then ({ rb with readIndex := rb.writeIndex }, length)
    else (rb, length)
  else
    let first := rb.bufferSize - rb.writeIndex
    let rb := { rb with
      bufferPtr :=
        copyBlock (copyBlock rb.bufferPtr rb.writeIndex ptr 0 first) 0 ptr first (length - first)
      writeMirror := !rb.writeMirror
      writeIndex := index15 (length - first) }
    if length > spaceLength then
      ({ rb with readMirror := !rb.readMirror, readIndex := rb.writeIndex }, length)
    else (rb, length)

/-- The content of the buffer, oldest byte first. -/
def RtRingbuffer.bytes (rb : RtRingbuffer) : List UInt8 :=
  contents rb.bufferPtr rb.bufferSize rb.readIndex (rtRingbufferDataLen rb)

/-- The state behind a call of `rt_ringbuffer_put_force`, or of another function. -/
def performForced (rb : RtRingbuffer) : Operation ⊕ (Nat → UInt8) × UInt16 → RtRingbuffer
  | .inl operation => (perform rb operation).1
  | .inr (ptr, length) => (rtRingbufferPutForce rb ptr length).1

theorem drop_block (ptr : Nat → UInt8) (n excess : Nat) : ((List.range n).map ptr).drop excess =
      (List.range (n - excess)).map fun i => ptr (excess + i) := by
  apply List.ext_getElem
  · simp
  · intro i _ _
    simp

namespace Holds

variable {rb : RtRingbuffer} {q : BoundedQueue UInt8 capacity}

theorem bytes (holds : Holds rb q) : rb.bytes = q.values := by
  rw [RtRingbuffer.bytes, holds.dataLen, holds.size, holds.stored]

theorem putForce_eq (holds : Holds rb q) (ptr : Nat → UInt8) (n : UInt16) {keep : Nat}
    (kept : keep = min n.toNat capacity) {pushed : RtRingbuffer}
    (isPushed : pushed = rb.pushed (fun i => ptr (n.toNat - keep + i)) keep) :
    (rtRingbufferPutForce rb ptr n).1 = if keep ≤ q.space then pushed
      else { pushed with
        readMirror :=
          if keep < rb.bufferSize - rb.writeIndex then rb.readMirror else !rb.readMirror
        readIndex := pushed.writeIndex } := by
  have space := holds.space_le
  have small := holds.small
  have inside := holds.write_lt
  have size := holds.size
  have excess : (if n.toNat > rb.bufferSize then n.toNat - rb.bufferSize else 0) =
      n.toNat - keep := by
    split <;> omega
  have left : n.toNat - (n.toNat - keep) = keep := by omega
  unfold rtRingbufferPutForce
  rw [holds.spaceLen, Nat.mod_eq_of_lt (by omega : q.space < 2 ^ 16)]
  simp only [excess, left, isPushed]
  split
  · rename_i flat
    simp only [RtRingbuffer.pushed, if_pos flat]
    rw [pushBlock_of_le _ _ (by omega), index15_eq (by omega), Nat.mod_eq_of_lt (by omega)]
    by_cases fits : keep ≤ q.space
    · rw [if_neg (by omega), if_pos fits]
    · rw [if_pos (by omega), if_neg fits]
  · rename_i wraps
    have index : (rb.writeIndex + keep) % rb.bufferSize =
        keep - (rb.bufferSize - rb.writeIndex) := by
      rcases mod_cases (by omega : rb.writeIndex + keep < 2 * rb.bufferSize) with
        ⟨low, equal⟩ | ⟨high, equal⟩ <;> omega
    simp only [RtRingbuffer.pushed, if_neg wraps]
    rw [pushBlock_of_ge _ _ (by omega), index15_eq (by omega), index]
    by_cases fits : keep ≤ q.space
    · rw [if_neg (by omega), if_pos fits]
    · rw [if_pos (by omega), if_neg fits]

/-- What is kept is what the call ought to keep, unless the read and the write index were in the
same mirror when bytes are dropped: then nothing is kept. -/
theorem putForce (holds : Holds rb q) (ptr : Nat → UInt8) (n : UInt16) :
    ∃ s' : BoundedQueue UInt8 capacity, Holds (rtRingbufferPutForce rb ptr n).1 s' ∧
      s'.values = if rb.readMirror = rb.writeMirror ∧ q.space < min n.toNat capacity then []
        else (q.values ++ (List.range n.toNat).map ptr).drop
          (q.values.length + n.toNat - capacity) := by
  have space := holds.space_le
  have read := holds.read_lt
  generalize kept : min n.toNat capacity = keep
  have eq := holds.putForce_eq ptr n kept.symm rfl
  have newest : (q.values ++ (List.range n.toNat).map ptr).drop
      (q.values.length + n.toNat - capacity) = q.values.drop (keep - q.space) ++
        (List.range keep).map fun i => ptr (n.toNat - keep + i) := by
    have block : q.values.length + n.toNat - capacity - q.values.length = n.toNat - keep := by omega
    have rest : n.toNat - (n.toNat - keep) = keep := by omega
    rw [List.drop_append, drop_block, block, rest]
    congr 1
    rcases Nat.le_total n.toNat capacity with short | long
    · congr 1
      omega
    · rw [List.drop_eq_nil_of_le (by omega), List.drop_eq_nil_of_le (by omega)]
  have bounded : (q.values.drop (keep - q.space) ++
      (List.range keep).map fun i => ptr (n.toNat - keep + i)).length ≤ capacity := by
    simp only [List.length_append, List.length_drop, List.length_map, List.length_range]
    omega
  have inside : (rb.writeIndex + keep) % capacity < capacity := Nat.mod_lt _ (by omega)
  rw [eq, newest]
  by_cases fits : keep ≤ q.space
  · simp only [if_pos fits, Nat.not_lt_of_le fits, and_false]
    refine ⟨⟨_, bounded⟩, holds.pushed _ fits ?_, rfl⟩
    simp only [Nat.sub_eq_zero_of_le fits, List.drop_zero]
  · simp only [if_neg fits, Nat.lt_of_not_le fits, and_true]
    rcases holds.write_cases with ⟨low, write, same⟩ | ⟨high, write, ne⟩
    · have wraps : ¬keep < capacity - rb.writeIndex := by omega
      refine ⟨.empty, ⟨holds.size, holds.small, ?_, ?_, ?_, rfl⟩, by rw [if_pos same]; rfl⟩
      · simpa only [RtRingbuffer.pushed, holds.size] using inside
      · simp [RtRingbuffer.pushed, holds.size, BoundedQueue.empty]
      · simp [RtRingbuffer.pushed, holds.size, same, BoundedQueue.empty, inside]
    · have steps : rb.writeIndex + keep = rb.readIndex + (keep - q.space) := by omega
      have mirrors : (keep < rb.bufferSize - rb.writeIndex) =
          (keep - q.space < rb.bufferSize - rb.readIndex) := by
        exact propext (by omega)
      refine ⟨⟨_, bounded⟩, ?_, by rw [if_neg ne]⟩
      have dropped : Holds (rb.popped (keep - q.space))
          (q.discard (keep - q.space)) := holds.popped (by omega) rfl
      have room : keep ≤ (q.discard (keep - q.space)).space := by
        simp only [BoundedQueue.space, BoundedQueue.values_discard, List.length_drop]
        omega
      have holdsAfter : Holds _ ⟨_, bounded⟩ :=
        dropped.pushed (fun i => ptr (n.toNat - keep + i)) room rfl
      simpa only [RtRingbuffer.pushed, RtRingbuffer.popped, mirrors, steps] using holdsAfter

end Holds

theorem Holds.performForced {q : BoundedQueue UInt8 capacity} (holds : Holds rb q)
    (call : Operation ⊕ (Nat → UInt8) × UInt16) :
    ∃ s' : BoundedQueue UInt8 capacity, Holds (performForced rb call) s' := by
  cases call with
  | inl op => exact ⟨_, (holds.perform op).1⟩
  | inr b =>
    obtain ⟨s', holdsAfter, -⟩ := holds.putForce b.1 b.2
    exact ⟨s', holdsAfter⟩

theorem Holds.performCalls {q : BoundedQueue UInt8 capacity} (holds : Holds rb q)
    (calls : List (Operation ⊕ (Nat → UInt8) × UInt16)) :
    ∃ s' : BoundedQueue UInt8 capacity, Holds (calls.foldl RingBuffer.performForced rb) s' := by
  induction calls generalizing rb q with
  | nil => exact ⟨q, holds⟩
  | cons call calls ih =>
    obtain ⟨s', holdsAfter⟩ := holds.performForced call
    exact ih holdsAfter

/-- `rt_ringbuffer_put_force` keeps the newest bytes just when it drops none, or the bytes that
are stored reach around the end of the pool. -/
theorem putForce_keeps_newest_iff {alignBits : Nat} {pool : Nat → UInt8} {n : BitVec 16}
    {rb : RtRingbuffer} (accepted : rtRingbufferInit (2 ^ alignBits) pool n = some rb)
    (aligned : 2 ^ alignBits ≤ n.toNat) (calls : List (Operation ⊕ (Nat → UInt8) × UInt16))
    (ptr : Nat → UInt8) (length : UInt16) :
    let s := calls.foldl performForced rb
    (rtRingbufferPutForce s ptr length).1.bytes =
        (s.bytes ++ (List.range length.toNat).map ptr).drop
          (s.bytes.length + length.toNat - s.bufferSize) ↔
      s.readMirror ≠ s.writeMirror ∨
        min length.toNat s.bufferSize ≤ rtRingbufferSpaceLen s := by
  intro s
  obtain ⟨q, holds⟩ := (holds_init accepted aligned).performCalls calls
  obtain ⟨s', holdsAfter, values⟩ := holds.putForce ptr length
  rw [holdsAfter.bytes, holds.bytes, holds.spaceLen, holds.size, values]
  split
  · rename_i lost
    refine iff_of_false (fun nothing => ?_)
      (not_or.mpr ⟨not_not.mpr lost.1, Nat.not_le_of_lt lost.2⟩)
    have none := congrArg List.length nothing
    simp only [List.length_nil, List.length_drop, List.length_append, List.length_map,
      List.length_range] at none
    omega
  · rename_i kept
    refine iff_of_true rfl ?_
    by_cases same : s.readMirror = s.writeMirror
    · exact .inr (Nat.le_of_not_lt fun drops => kept ⟨same, drops⟩)
    · exact .inl same

theorem putForce_without_loss : ∃ rb, rtRingbufferInit (2 ^ 2) (fun _ => 0) 8 = some rb ∧
      (rtRingbufferPutForce (performForced rb (.inr (fun _ => 1, 2))) (fun _ => 2) 3).1.bytes =
        ((performForced rb (.inr (fun _ => 1, 2))).bytes ++ [2, 2, 2]).drop 0 := by
  have accepted : rtRingbufferInit (2 ^ 2) (fun _ => 0) 8 = some _ := rfl
  refine ⟨_, accepted, ?_⟩
  exact (putForce_keeps_newest_iff accepted (by decide) [.inr (fun _ => 1, 2)] (fun _ => 2)
    3).mpr (.inr (by decide))

/-- A byte is put into four and read, and two more are put; the next three leave the buffer
empty. -/
theorem putForce_empties :
    ¬ ∀ (pool : Nat → UInt8) (rb : RtRingbuffer), rtRingbufferInit (2 ^ 2) pool 4 = some rb →
      ∀ (calls : List (Operation ⊕ (Nat → UInt8) × UInt16)) (ptr : Nat → UInt8) (n : UInt16),
        (rtRingbufferPutForce (calls.foldl performForced rb) ptr n).1.bytes =
          ((calls.foldl performForced rb).bytes ++ (List.range n.toNat).map ptr).drop
            ((calls.foldl performForced rb).bytes.length + n.toNat -
              (calls.foldl performForced rb).bufferSize) := by
  intro claim
  exact absurd (claim (fun _ => 0) _ rfl
    [.inl (.putchar 1), .inl (.getchar fun _ => 0), .inr (fun _ => 2, 2)] (fun _ => 3) 3)
    (by decide +kernel)

end RtThread.RingBuffer
