import RtThread.Drivers.PipeAttention

/-!
# The counts of a pipe

What `rt_pipe_read`, `rt_pipe_write` and one turn of the calls of the file system move, when the
lengths that they pass to the ring buffer are cut to 16 bits.
-/

namespace RtThread.Pipe

open RingBuffer PipeWaits

universe u

/-- The loop of `rt_pipe_read` and `rt_pipe_write`; `bytes` are done. -/
def transferAll {σ : Type u} (transfer : σ → Nat → UInt16 → σ × Nat) (count : Nat) (s : σ)
    (bytes : Nat) : σ × Nat :=
  if bytes < count then
    if (transfer s bytes (.ofNat (count - bytes))).2 = 0 then
      ((transfer s bytes (.ofNat (count - bytes))).1, bytes)
    else
      transferAll transfer count (transfer s bytes (.ofNat (count - bytes))).1
        (bytes + (transfer s bytes (.ofNat (count - bytes))).2)
  else (s, bytes)
termination_by count - bytes

def getAt (s : RtRingbuffer × (Nat → UInt8)) (readBytes : Nat) (length : UInt16) :
    (RtRingbuffer × (Nat → UInt8)) × Nat :=
  let (fifo, filled, len) := rtRingbufferGet s.1 (fun i => s.2 (readBytes + i)) length
  ((fifo, fun i => if i < readBytes then s.2 i else filled (i - readBytes)), len)

def rtPipeRead (pipe : RtPipe) (buffer : Nat → UInt8) (count : Nat) :
    Option (RtPipe × (Nat → UInt8) × Nat) :=
  if count = 0 then some (pipe, buffer, 0)
  else
    pipe.fifo.map fun fifo =>
      let ((fifo, buffer), readBytes) := transferAll getAt count (fifo, buffer) 0
      ({ pipe with fifo := some fifo }, buffer, readBytes)

def putAt (buffer : Nat → UInt8) (fifo : RtRingbuffer) (writeBytes : Nat) (length : UInt16) :
    RtRingbuffer × Nat :=
  rtRingbufferPut fifo (fun i => buffer (writeBytes + i)) length

def rtPipeWrite (pipe : RtPipe) (buffer : Nat → UInt8) (count : Nat) : Option (RtPipe × Nat) :=
  if count = 0 then some (pipe, 0)
  else
    pipe.fifo.map fun fifo =>
      let (fifo, writeBytes) := transferAll (putAt buffer) count fifo 0
      ({ pipe with fifo := some fifo }, writeBytes)

/-- `fifo` is the ring buffer of the pipe, as `rt_ringbuffer_create` gave it but for the calls
on it since. -/
structure Opened (alignSize : Nat) (pipe : RtPipe) (fifo : RtRingbuffer) : Prop where
  fifo_eq : pipe.fifo = some fifo
  created : ∃ pool created operations,
    rtRingbufferCreate alignSize (some pool) pipe.bufsz = some created ∧
      fifo = (Machine.run perform created operations).1

theorem Opened.holds {alignBits : Nat} {pipe : RtPipe} {fifo : RtRingbuffer}
    (opened : Opened (2 ^ alignBits) pipe fifo) :
    ∃ capacity, ∃ q : BoundedQueue UInt8 capacity, Holds fifo q := by
  obtain ⟨pool, rb, operations, created, rfl⟩ := opened.created
  obtain ⟨again, same, holds⟩ := rtRingbufferCreate_holds created pool
  obtain rfl : rb = again := Option.some.inj (created.symm.trans same)
  have forward : ∀ (s : RtRingbuffer) (q : BoundedQueue UInt8 rb.bufferSize)
      (op : Operation), Holds s q →
        Holds (perform s op).1 (performFifo q op).1 ∧
          (perform s op).2 = (performFifo q op).2 :=
    fun _ _ op holds => holds.perform op
  exact ⟨_, _, (Machine.run_simulates forward operations holds).1⟩

/-- A loop that moves at most `room` bytes ends when none are left of the 16 bits of its count. -/
theorem transferAll_spec {σ : Type u} (transfer : σ → Nat → UInt16 → σ × Nat)
    (Room : σ → Nat → Prop) (moves : ∀ s room bytes length, Room s room →
      (transfer s bytes length).2 = min length.toNat room ∧
        Room (transfer s bytes length).1 (room - (transfer s bytes length).2))
    (n bytes : Nat) {room : Nat} {s : σ} (start : Room s room) :
    (transferAll transfer n s bytes).2 = bytes + min ((n - bytes) % 65536) room ∧
      Room (transferAll transfer n s bytes).1 (room - min ((n - bytes) % 65536) room) := by
  fun_induction transferAll transfer n s bytes generalizing room with
  | case1 s bytes more nothing =>
    obtain ⟨moved, roomAfter⟩ := moves s room bytes (.ofNat (n - bytes)) start
    rw [UInt16.toNat_ofNat'] at moved
    rw [nothing] at moved roomAfter
    rw [← moved]
    exact ⟨rfl, roomAfter⟩
  | case2 s bytes more something ih =>
    obtain ⟨moved, roomAfter⟩ := moves s room bytes (.ofNat (n - bytes)) start
    rw [UInt16.toNat_ofNat'] at moved
    obtain ⟨total, rest⟩ := ih roomAfter
    generalize (transfer s bytes (.ofNat (n - bytes))).2 = len at *
    have ends : min ((n - (bytes + len)) % 65536) (room - len) = 0 := by omega
    rw [ends] at total rest
    rw [← moved]
    exact ⟨total, rest⟩
  | case3 s bytes done =>
    have none : n - bytes = 0 := by omega
    rw [none]
    simpa using start

section

variable {capacity : Nat} {fifo : RtRingbuffer} {q : BoundedQueue UInt8 capacity}
  {pipe : RtPipe}

def moving (fifo : RtRingbuffer) : Side → Nat
  | .reader => rtRingbufferDataLen fifo
  | .writer => rtRingbufferSpaceLen fifo

def Room (capacity : Nat) (side : Side) (fifo : RtRingbuffer) (room : Nat) : Prop :=
  (∃ q : BoundedQueue UInt8 capacity, Holds fifo q) ∧ room = moving fifo side ∧
    rtRingbufferDataLen fifo + rtRingbufferSpaceLen fifo = capacity

theorem room_of_holds (holds : Holds fifo q) (side : Side) :
    Room capacity side fifo (moving fifo side) :=
  ⟨⟨q, holds⟩, rfl, by rw [holds.dataLen, holds.spaceLen, holds.space_le]⟩

theorem Room.put {room : Nat} (start : Room capacity .writer fifo room) (buf : Nat → UInt8)
    (n : UInt16) : (rtRingbufferPut fifo buf n).2 = min n.toNat room ∧
      Room capacity .writer (rtRingbufferPut fifo buf n).1
        (room - (rtRingbufferPut fifo buf n).2) := by
  obtain ⟨⟨q, holds⟩, rfl, whole⟩ := start
  generalize put : rtRingbufferPut fifo buf n = outcome
  obtain ⟨again, moved, data, space⟩ := lengths_put holds put
  exact ⟨moved, again, space.symm, by omega⟩

theorem Room.get {room : Nat} (start : Room capacity .reader fifo room) (buf : Nat → UInt8)
    (n : UInt16) : (rtRingbufferGet fifo buf n).2.2 = min n.toNat room ∧
      Room capacity .reader (rtRingbufferGet fifo buf n).1
        (room - (rtRingbufferGet fifo buf n).2.2) := by
  obtain ⟨⟨q, holds⟩, rfl, whole⟩ := start
  generalize got : rtRingbufferGet fifo buf n = outcome
  obtain ⟨again, moved, data, space⟩ := lengths_get holds got
  exact ⟨moved, again, data.symm, by omega⟩

theorem rtPipeWrite_eq (holds : Holds fifo q) (held : pipe.fifo = some fifo)
    (buffer : Nat → UInt8) (n : Nat) :
    ∃ s' fifo', rtPipeWrite pipe buffer n = some (s', min (n % 65536) (rtRingbufferSpaceLen fifo)) ∧
      s'.fifo = some fifo' ∧ rtRingbufferDataLen fifo' =
        rtRingbufferDataLen fifo + min (n % 65536) (rtRingbufferSpaceLen fifo) := by
  rcases Nat.eq_zero_or_pos n with rfl | pos
  · exact ⟨pipe, fifo, by simp [rtPipeWrite], held, by simp⟩
  · have room := room_of_holds holds .writer
    obtain ⟨total, _, rest, whole⟩ := transferAll_spec (putAt buffer) (Room capacity .writer)
      (fun _ _ _ length start => start.put _ length) n 0 room
    have before := room.2.2
    rw [rtPipeWrite, if_neg (by omega), held, Option.map_some]
    generalize transferAll (putAt buffer) n fifo 0 = outcome at *
    obtain ⟨fifo', writeBytes⟩ := outcome
    simp only [Nat.zero_add] at total rest
    subst total
    refine ⟨{ pipe with fifo := some fifo' }, fifo', rfl, rfl, ?_⟩
    simp only [moving] at rest whole ⊢
    omega

theorem rtPipeRead_eq (holds : Holds fifo q) (held : pipe.fifo = some fifo)
    (buffer : Nat → UInt8) (n : Nat) : ∃ s' filled fifo', rtPipeRead pipe buffer n =
        some (s', filled, min (n % 65536) (rtRingbufferDataLen fifo)) ∧
      s'.fifo = some fifo' ∧ rtRingbufferDataLen fifo' =
        rtRingbufferDataLen fifo - min (n % 65536) (rtRingbufferDataLen fifo) := by
  rcases Nat.eq_zero_or_pos n with rfl | pos
  · exact ⟨pipe, buffer, fifo, by simp [rtPipeRead], held, by simp⟩
  · obtain ⟨total, _, rest, _⟩ := transferAll_spec getAt (fun s => Room capacity .reader s.1)
      (fun _ _ _ length start => start.get _ length) n 0 (s := (fifo, buffer))
      (room_of_holds holds .reader)
    rw [rtPipeRead, if_neg (by omega), held, Option.map_some]
    generalize transferAll getAt n (fifo, buffer) 0 = outcome at *
    obtain ⟨⟨fifo', filled⟩, readBytes⟩ := outcome
    simp only [Nat.zero_add] at total rest
    subst total
    exact ⟨{ pipe with fifo := some fifo' }, filled, fifo', rfl, rfl, rest.symm⟩

end

/-- Where the counts are exact, and where a turn that waits finds the ring buffer full or
empty: but for a count whose last 16 bits fall short of it. -/
theorem counts_iff {alignBits : Nat} {pipe : RtPipe} {fifo : RtRingbuffer}
    (opened : Opened (2 ^ alignBits) pipe fifo) (buffer : Nat → UInt8) (n : Nat)
    (nonblock : Bool) {ret : Nat} (written : ret ≤ n) :
    let space := rtRingbufferSpaceLen fifo
    let stored := rtRingbufferDataLen fifo
    ((∃ s' fifo', rtPipeWrite pipe buffer n = some (s', min n space) ∧
        s'.fifo = some fifo' ∧ rtRingbufferDataLen fifo' = stored + min n space) ↔
      n < 65536 ∨ space ≤ n % 65536) ∧
    ((∃ s' filled fifo', rtPipeRead pipe buffer n = some (s', filled, min n stored) ∧
        s'.fifo = some fifo' ∧ rtRingbufferDataLen fifo' = stored - min n stored) ↔
      n < 65536 ∨ stored ≤ n % 65536) ∧
    ((∀ s' job bytes, pipeFopsWrite pipe nonblock buffer n ret = some (s', .blocks job, bytes) →
        ∃ fifo', s'.fifo = some fifo' ∧ rtRingbufferSpaceLen fifo' = 0) ↔
      pipe.readers = 0 ∨ nonblock = true ∨ n - ret < 65536 ∨
        space ≤ (n - ret) % 65536) ∧
    ((∀ s' job bytes, pipeFopsRead pipe nonblock buffer n = some (s', .blocks job, bytes) →
        ∃ fifo', s'.fifo = some fifo' ∧ rtRingbufferDataLen fifo' = 0) ↔
      pipe.writers = 0 ∨ nonblock = true ∨ n % 65536 ≠ 0 ∨ stored = 0) := by
  intro space stored
  obtain ⟨capacity, q, holds⟩ := opened.holds
  refine ⟨?_, ?_, ?_, ?_⟩
  · obtain ⟨s', fifo', writes, held, length⟩ := rtPipeWrite_eq holds opened.fifo_eq buffer n
    constructor
    · rintro ⟨_, _, exact, _⟩
      rw [writes, Option.some.injEq, Prod.mk.injEq] at exact
      omega
    · intro exact
      have same : min (n % 65536) space = min n space := by omega
      exact ⟨s', fifo', same ▸ writes, held, same ▸ length⟩
  · obtain ⟨s', filled, fifo', reads, held, length⟩ := rtPipeRead_eq holds opened.fifo_eq buffer n
    constructor
    · rintro ⟨_, _, _, exact, _⟩
      rw [reads, Option.some.injEq, Prod.mk.injEq, Prod.mk.injEq] at exact
      omega
    · intro exact
      have same : min (n % 65536) stored = min n stored := by omega
      exact ⟨s', filled, fifo', same ▸ reads, held, same ▸ length⟩
  · have room := room_of_holds holds .writer
    obtain ⟨moved, _, rest, _⟩ := room.put (fun i => buffer (ret + i)) (.ofNat (n - ret))
    rw [UInt16.toNat_ofNat'] at moved
    change space - _ = rtRingbufferSpaceLen _ at rest
    simp only [pipeFopsWrite, opened.fifo_eq, Option.map_some]
    generalize rtRingbufferPut fifo (fun i => buffer (ret + i)) (.ofNat (n - ret)) = put at *
    by_cases closed : pipe.readers = 0
    · simp [closed]
    cases nonblock with
    | true => simp [closed]; split <;> simp
    | false =>
      have waits : ret + put.2 = n ∨ rtRingbufferSpaceLen put.1 = 0 ↔
          n - ret < 65536 ∨ space ≤ (n - ret) % 65536 := by
        change put.2 = min _ space at moved
        omega
      simp only [closed, if_false, false_or, Bool.false_eq_true, ← waits]
      split
      · next whole => simp [whole]
      · next short => simp [short]
  · have room := room_of_holds holds .reader
    obtain ⟨moved, _, rest, _⟩ := room.get buffer (.ofNat n)
    rw [UInt16.toNat_ofNat'] at moved
    change stored - _ = rtRingbufferDataLen _ at rest
    simp only [pipeFopsRead, opened.fifo_eq, Option.map_some]
    generalize rtRingbufferGet fifo buffer (.ofNat n) = got at *
    by_cases closed : pipe.writers = 0
    · simp [closed]
    cases nonblock with
    | true => simp [closed]; split <;> simp
    | false =>
      have waits : 0 < got.2.2 ∨ rtRingbufferDataLen got.1 = 0 ↔
          n % 65536 ≠ 0 ∨ stored = 0 := by
        change got.2.2 = min _ stored at moved
        omega
      simp only [closed, if_false, false_or, Bool.false_eq_true, ← waits]
      split
      · next some => simp [some]
      · next none => simp [none]

def deviceFifo : RtRingbuffer where
  bufferPtr := fun _ => 0
  readMirror := false
  readIndex := 0
  writeMirror := false
  writeIndex := 0
  bufferSize := 4

/-- A new pipe of four bytes, open for reading and writing. -/
def device : RtPipe where
  isNamed := true
  fifo := some deviceFifo
  bufsz := 4
  readers := 1
  writers := 1
  refCount := 1

theorem device_opened : Opened (2 ^ 2) device deviceFifo where
  fifo_eq := rfl
  created := ⟨fun _ => 0, _, [], rfl, rfl⟩

theorem counts_three : ∃ s' fifo', rtPipeWrite device (fun _ => 7) 3 =
    some (s', min 3 (rtRingbufferSpaceLen deviceFifo)) ∧ s'.fifo = some fifo' ∧
      rtRingbufferDataLen fifo' =
        rtRingbufferDataLen deviceFifo + min 3 (rtRingbufferSpaceLen deviceFifo) :=
  (counts_iff device_opened (fun _ => 7) 3 false (Nat.zero_le 3)).1.mpr (.inl (by decide))

/-- A write of 65536 bytes to the empty pipe stores none. -/
theorem counts_65536 : ¬ ∀ (pipe : RtPipe) (fifo : RtRingbuffer), Opened (2 ^ 2) pipe fifo →
      ∀ (buffer : Nat → UInt8) (n : Nat), ∃ s', rtPipeWrite pipe buffer n =
        some (s', min n (rtRingbufferSpaceLen fifo)) := by
  intro claim
  obtain ⟨s', writes⟩ := claim device deviceFifo device_opened (fun _ => 7) 65536
  obtain ⟨capacity, q, holds⟩ := device_opened.holds
  obtain ⟨_, _, none, _⟩ := rtPipeWrite_eq holds device_opened.fifo_eq (fun _ => 7) 65536
  rw [writes] at none
  exact absurd (Prod.mk.inj (Option.some.inj none)).2 (by decide)

end RtThread.Pipe
