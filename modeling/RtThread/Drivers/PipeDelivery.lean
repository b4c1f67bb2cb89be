import RtThread.Drivers.Pipe

/-!
# What goes into a pipe and what comes out

A step of a call may open or close the ring buffer, fetch bytes from it, store bytes in it, or
report the end of file; every other step leaves it alone.
-/

open Function (update)
open TransitionSystem

namespace RtThread.Pipe

open RingBuffer

universe u

variable {Tid : Type u} [DecidableEq Tid]

theorem State.resume_eq (s : State Tid) (t : Tid) : ∃ call, s.resume t = { s with call } := by
  unfold State.resume
  split
  · split
    · exact ⟨_, rfl⟩
    · exact ⟨s.call, rfl⟩
  · exact ⟨s.call, rfl⟩

theorem State.wakeup_eq (s : State Tid) (side : Side) :
    ∃ queue call, s.wakeup side = { s with queue, call } := by
  unfold State.wakeup
  split
  · exact ⟨_, s.call, rfl⟩
  · rename_i t rest waiting
    obtain ⟨call, resumed⟩ := (s.setQueue side ⟨true, rest⟩).resume_eq t
    exact ⟨_, call, resumed⟩

abbrev endOfFile : Option (Side × Result) := some (.reader, .length 0)

inductive Effect (alignSize : Nat) (s : State Tid) : Event Tid → State Tid → Prop where
  | quiet {event : Event Tid} (queue : Side → RtWqueue Tid) (call : Tid → Option Call)
      (result : Option (Side × Result)) (goesOn : result ≠ endOfFile)
      (ordinary : EndsDrained s event) :
      Effect alignSize s event { s with queue, call, result }
  | opened {mode : Mode} {pool : Option (Nat → UInt8)} :
      Effect alignSize s (.openFd mode pool)
        { s with
          pipe := pipeFopsOpen alignSize s.pipe mode pool
          opened := update s.opened mode (s.opened mode + 1)
          result := none }
  | closed {mode : Mode} (queue : Side → RtWqueue Tid) (call : Tid → Option Call) :
      Effect alignSize s (.closeFd mode)
        { s with
          pipe := pipeFopsClose s.pipe mode
          opened := update s.opened mode (s.opened mode - 1)
          queue, call
          result := none }
  | ended {event : Event Tid} (call : Tid → Option Call)
      (drained : EndsDrained s event ↔ Drained s) :
      Effect alignSize s event { s with call, result := endOfFile }
  | fetched {event : Event Tid} (queue : Side → RtWqueue Tid) (call : Tid → Option Call)
      (result : Option (Side × Result)) (goesOn : result ≠ endOfFile)
      (ordinary : EndsDrained s event) {fifo rest : RtRingbuffer} {buf filled : Nat → UInt8}
      {length : UInt16} {len : Nat} (holder : s.pipe.fifo = some fifo)
      (got : rtRingbufferGet fifo buf length = (rest, filled, len)) :
      Effect alignSize s event
        { s with
          pipe := { s.pipe with fifo := some rest }
          returned := s.returned ++ (List.range len).map filled
          queue, call, result }
  | stored {event : Event Tid} (call : Tid → Option Call)
      (result : Option (Side × Result)) (goesOn : result ≠ endOfFile)
      (ordinary : EndsDrained s event) {fifo rest : RtRingbuffer} {buf : Nat → UInt8}
      {length : UInt16} {len : Nat} (holder : s.pipe.fifo = some fifo)
      (put : rtRingbufferPut fifo buf length = (rest, len)) :
      Effect alignSize s event
        { s with
          pipe := { s.pipe with fifo := some rest }
          accepted := s.accepted ++ (List.range len).map buf
          call, result }

section

variable {alignSize : Nat} {s after : State Tid} {event : Event Tid}

theorem Effect.wakeup {before : State Tid} (side : Side)
    (effect : ∀ queue call, Effect alignSize s event { before with queue, call }) :
    Effect alignSize s event (before.wakeup side) := by
  obtain ⟨queue, call, woken⟩ := before.wakeup_eq side
  rw [woken]
  exact effect queue call

theorem effect_close (mode : Mode) : Effect alignSize s (.closeFd mode) (closeStep s mode) := by
  unfold closeStep
  dsimp only
  split
  · obtain ⟨queue, call, woken⟩ := State.wakeup_eq
      { s with
        pipe := pipeFopsClose s.pipe mode
        opened := update s.opened mode (s.opened mode - 1)
        result := none } .reader
    rw [woken]
    split
    · exact .wakeup _ fun queue call => .closed queue call
    · exact .closed queue call
  · split
    · exact .wakeup _ fun queue call => .closed queue call
    · exact .closed s.queue s.call

theorem effect_read {t : Tid} {buf : Nat → UInt8} {n : Nat} {nonblock : Bool}
    (calls : s.call t = some ⟨.read buf n, nonblock, .locking⟩)
    (locked : lockedStep s t ⟨.read buf n, nonblock, .locking⟩ = some after) :
    Effect alignSize s (.proceed t) after := by
  have cond : EndsDrained s (.proceed t) ↔
      (s.pipe.writers = 0 → Drained s) := by
    simp [EndsDrained, testsWriters, calls]
  simp only [lockedStep, pipeFopsRead] at locked
  by_cases noWriters : s.pipe.writers = 0
  · simp [noWriters] at locked
    subst locked
    exact .ended _ (by simp [cond, noWriters])
  · have ordinary : EndsDrained s (.proceed t) := cond.mpr fun isZero => absurd isZero noWriters
    simp only [noWriters, if_false, Option.map_map, Option.map_eq_some_iff] at locked
    obtain ⟨fifo, holder, rfl⟩ := locked
    rcases got : rtRingbufferGet fifo buf (.ofNat n) with ⟨rest, filled, len⟩
    by_cases data : 0 < len
    · have goesOn : some (Side.reader, Result.length len) ≠ endOfFile := by
        simp
        omega
      have noneEmpty : (List.range len).map filled ≠ [] := by
        simp
        omega
      simp only [Function.comp_apply, got, data, noneEmpty]
      exact .wakeup _ fun queue call => .fetched queue call _ goesOn ordinary holder got
    · have nothing : (List.range len).map filled = [] := by
        simp
        omega
      cases nonblock with
      | true =>
        simp only [Function.comp_apply, got, data, nothing]
        rw [← nothing]
        exact .fetched s.queue _ _ (by simp) ordinary holder got
      | false =>
        simp only [Function.comp_apply, got, data]
        exact .fetched s.queue _ _ (by simp) ordinary holder got

theorem effect_write {t : Tid} {buf : Nat → UInt8} {n ret : Nat} {wakeup nonblock : Bool}
    (calls : s.call t = some ⟨.write buf n ret wakeup, nonblock, .locking⟩)
    (locked : lockedStep s t ⟨.write buf n ret wakeup, nonblock, .locking⟩ = some after) :
    Effect alignSize s (.proceed t) after := by
  have ordinary : EndsDrained s (.proceed t) := by simp [EndsDrained, testsWriters, calls]
  simp only [lockedStep, pipeFopsWrite] at locked
  by_cases noReaders : s.pipe.readers = 0
  · simp only [noReaders, if_true, Option.map_some, List.append_nil, Option.some.injEq] at locked
    subst locked
    split
    · exact .quiet s.queue _ _ (by simp) ordinary
    · exact .quiet s.queue _ _ (by simp) ordinary
  · simp only [noReaders, if_false, Option.map_map, Option.map_eq_some_iff] at locked
    obtain ⟨fifo, holder, rfl⟩ := locked
    rcases put : rtRingbufferPut fifo (fun i => buf (ret + i)) (.ofNat (n - ret)) with
      ⟨rest, len⟩
    simp only [Function.comp_apply, put]
    split_ifs
    all_goals exact .stored _ _ (by simp) ordinary holder put

theorem step_effect (ran : step alignSize s event = some after) :
    Effect alignSize s event after := by
  cases event with
  | openFd mode pool =>
    cases ran
    exact .opened
  | closeFd mode =>
    obtain ⟨-, ⟨⟩⟩ := Option.ite_none_right_eq_some.mp ran
    exact effect_close mode
  | read t nonblock buf n =>
    obtain ⟨-, ⟨⟩⟩ := Option.ite_none_right_eq_some.mp ran
    unfold readStep
    split
    · next noWriters => exact .ended _ (by simp [EndsDrained, noWriters])
    · rename_i writers
      exact .quiet s.queue _ _ (by simp) fun noWriters => absurd noWriters writers
  | write t nonblock buf n =>
    obtain ⟨-, ⟨⟩⟩ := Option.ite_none_right_eq_some.mp ran
    unfold writeStep
    split_ifs
    · exact .quiet s.queue s.call _ (by simp) trivial
    · exact .quiet s.queue s.call _ (by simp) trivial
    · exact .quiet s.queue _ _ (by simp) trivial
  | proceed t =>
    simp only [step, Option.bind_eq_some_iff] at ran
    obtain ⟨⟨job, nonblock, phase⟩, calls, ran⟩ := ran
    cases phase with
    | locking =>
      cases job with
      | read buf n => exact effect_read calls ran
      | write buf n ret wakeup => exact effect_write calls ran
    | waking | ending r =>
      have ordinary : EndsDrained s (.proceed t) := by
        cases job <;> simp [EndsDrained, testsWriters, calls]
      cases ran
      exact .wakeup _ fun queue call => .quiet queue call _ (by simp) ordinary
    | waiting =>
      have ordinary : EndsDrained s (.proceed t) := by
        cases job <;> simp [EndsDrained, testsWriters, calls]
      simp only [proceedStep] at ran
      split at ran
      all_goals
        cases ran
        exact .quiet _ _ _ (by simp) ordinary
    | suspended => simp [proceedStep] at ran
    | woken =>
      have ordinary : EndsDrained s (.proceed t) := by
        cases job <;> simp [EndsDrained, testsWriters, calls]
      cases ran
      exact .quiet _ _ _ (by simp) ordinary

end

section

variable {capacity : Nat} {fifo : RtRingbuffer} {queue : BoundedQueue UInt8 capacity}

theorem unread_eq (holds : Holds fifo queue) : unread fifo = queue.values := by
  rw [unread, holds.dataLen, holds.size, holds.stored]

theorem map_range_getD {bytes : List UInt8} {n : Nat} (all : bytes.length = n)
    (others : Nat → UInt8) : (List.range n).map (fun i => bytes[i]?.getD (others i)) = bytes := by
  apply List.ext_getElem (by simp [all])
  intro i below _
  simp at below
  simp [all, below]

theorem get_holds (holds : Holds fifo queue) {buf filled : Nat → UInt8} {n : UInt16}
    {rest : RtRingbuffer} {len : Nat} (got : rtRingbufferGet fifo buf n = (rest, filled, len)) :
    Holds rest (queue.discard n.toNat) ∧
      (List.range len).map filled = queue.values.take n.toNat := by
  obtain ⟨holdsRest, answer⟩ := holds.perform (.get buf n)
  simp only [RingBuffer.perform, performFifo, got, Answer.fetched.injEq] at holdsRest answer
  refine ⟨holdsRest, ?_⟩
  rw [answer.2]
  exact map_range_getD (by simp [answer.1]) buf

theorem put_holds (holds : Holds fifo queue) {buf : Nat → UInt8} {n : UInt16}
    {rest : RtRingbuffer} {len : Nat} (put : rtRingbufferPut fifo buf n = (rest, len)) :
    ∃ after : BoundedQueue UInt8 capacity, Holds rest after ∧
      after.values = queue.values ++ (List.range len).map buf := by
  obtain ⟨holdsRest, answer⟩ := holds.perform (.put buf n)
  simp only [RingBuffer.perform, performFifo, put, Answer.stored.injEq] at holdsRest answer
  refine ⟨_, holdsRest, ?_⟩
  rw [BoundedQueue.values_store, answer, ← List.map_take, List.take_range, Nat.min_comm]

end

theorem rtRingbufferCreate_holds {alignBits : Nat} {pool : Nat → UInt8} {n : BitVec 16}
    {fifo : RtRingbuffer} (created : rtRingbufferCreate (2 ^ alignBits) (some pool) n = some fifo)
    (other : Nat → UInt8) :
    ∃ again, rtRingbufferCreate (2 ^ alignBits) (some other) n = some again ∧
      Holds again (BoundedQueue.empty : BoundedQueue UInt8 fifo.bufferSize) := by
  simp only [rtRingbufferCreate] at created ⊢
  generalize aligned : BitVec.ofNat 16 (Word32.maskDown n.toNat (2 ^ alignBits)) = rounded at *
  obtain ⟨pos, rfl⟩ : 0 < rounded.toInt ∧ _ = fifo := by simpa [rtRingbufferInit] using created
  have accepted : rtRingbufferInit (2 ^ alignBits) other rounded = some _ := if_pos pos
  refine ⟨_, accepted, holds_init accepted ?_⟩
  have notZero : rounded.toNat ≠ 0 := by
    intro zero
    simp [BitVec.toInt_eq_toNat_cond, zero] at pos
  have masked : rounded.toNat = Word32.maskDown n.toNat (2 ^ alignBits) % 2 ^ 16 := by
    rw [← aligned, BitVec.toNat_ofNat]
  have notMasked : Word32.maskDown n.toNat (2 ^ alignBits) ≠ 0 :=
    fun zero => notZero (by rw [masked, zero, Nat.zero_mod])
  have bits := Word32.bits_lt_of_maskDown_ne_zero notMasked
  have le := Word32.maskDown_le (by omega : n.toNat < 2 ^ 32) bits.le
  rw [Nat.mod_eq_of_lt (by omega)] at masked
  rw [masked]
  exact Nat.le_of_dvd (by omega) (Word32.dvd_maskDown (by omega) bits.le)

/-- What holds as long as nothing has been lost: the ring buffer is one of `capacity` bytes,
and so is any that an open may create. -/
structure Inv (alignSize capacity : Nat) (s : State Tid) : Prop where
  holds : ∃ fifo, s.pipe.fifo = some fifo ∧
    ∃ queue : BoundedQueue UInt8 capacity, Holds fifo queue
  creates : ∀ pool, ∃ fifo, rtRingbufferCreate alignSize (some pool) s.pipe.bufsz = some fifo ∧
    Holds fifo (BoundedQueue.empty : BoundedQueue UInt8 capacity)

section

variable {alignSize capacity : Nat} {s after : State Tid} {event : Event Tid}

section

omit [DecidableEq Tid]

theorem delivered_iff_of_holder (fifo : RtRingbuffer) (holder : s.pipe.fifo = some fifo) :
    Delivered s ↔ s.returned ++ unread fifo = s.accepted ∧
      (s.result = endOfFile → s.returned = s.accepted ∧ s.openWriters = 0) := by
  constructor
  · rintro ⟨⟨fifo', holder', conserved⟩, atEnd⟩
    obtain rfl : fifo = fifo' := by simpa [holder] using holder'
    exact ⟨conserved, atEnd⟩
  · rintro ⟨conserved, atEnd⟩
    exact ⟨⟨fifo, holder, conserved⟩, atEnd⟩

theorem delivered_iff_of_goesOn (fifo : RtRingbuffer) (holder : s.pipe.fifo = some fifo)
    (goesOn : s.result ≠ endOfFile) : Delivered s ↔ s.returned ++ unread fifo = s.accepted := by
  rw [delivered_iff_of_holder fifo holder]
  exact and_iff_left fun atEnd => absurd atEnd goesOn

theorem Effect.inv (effect : Effect alignSize s event after) (inv : Inv alignSize capacity s)
    (cond : EndsDrained s event) : Inv alignSize capacity after := by
  obtain ⟨fifo, holder, queue, holds⟩ := inv.holds
  cases effect with
  | quiet | ended => exact ⟨⟨fifo, holder, queue, holds⟩, inv.creates⟩
  | @opened mode pool =>
    refine ⟨?_, inv.creates⟩
    by_cases wrapped : s.pipe.refCount = 0
    · obtain ⟨pool', isPool⟩ := Option.isSome_iff_exists.mp (cond wrapped).2
      obtain ⟨again, created, holdsAgain⟩ := inv.creates pool'
      exact ⟨again, by simp [pipeFopsOpen, wrapped, isPool, created], _, holdsAgain⟩
    · exact ⟨fifo, by simp [pipeFopsOpen, wrapped, holder], queue, holds⟩
  | closed =>
    have lasting : s.pipe.refCount ≠ 1 := cond
    exact ⟨⟨fifo, by simp [pipeFopsClose, lasting, holder], queue, holds⟩, inv.creates⟩
  | @fetched _ _ _ _ _ _ fifo' rest _ _ _ _ holder' got =>
    obtain rfl : fifo = fifo' := by simpa [holder] using holder'
    exact ⟨⟨rest, rfl, _, (get_holds holds got).1⟩, inv.creates⟩
  | @stored _ _ _ _ _ fifo' rest _ _ _ holder' put =>
    obtain rfl : fifo = fifo' := by simpa [holder] using holder'
    obtain ⟨queue, holds, -⟩ := put_holds holds put
    exact ⟨⟨rest, rfl, queue, holds⟩, inv.creates⟩

theorem Effect.delivered_iff (effect : Effect alignSize s event after)
    (inv : Inv alignSize capacity s) (delivered : Delivered s) :
    Delivered after ↔ EndsDrained s event := by
  obtain ⟨fifo, holder, queue, holds⟩ := inv.holds
  have conserved := ((delivered_iff_of_holder fifo holder).mp delivered).1
  have dataLen : rtRingbufferDataLen fifo = 0 ↔ queue.values = [] := by
    rw [holds.dataLen, List.length_eq_zero_iff]
  rw [unread_eq holds] at conserved
  cases effect with
  | quiet queue call r goesOn ordinary =>
    refine iff_of_true ((delivered_iff_of_goesOn fifo ?_ goesOn).mpr ?_) ordinary
    · exact holder
    · rwa [unread_eq holds]
  | @opened mode pool =>
    by_cases wrapped : s.pipe.refCount = 0
    · cases pool with
      | none =>
        refine iff_of_false ?_ fun cond => by simpa using (cond wrapped).2
        rintro ⟨⟨fifo', holder', -⟩, -⟩
        simp [pipeFopsOpen, wrapped, rtRingbufferCreate] at holder'
      | some pool =>
        obtain ⟨again, created, holdsAgain⟩ := inv.creates pool
        rw [delivered_iff_of_goesOn again (by simp [pipeFopsOpen, wrapped, created]) (by simp),
          unread_eq holdsAgain]
        simp [EndsDrained, wrapped, holder, dataLen, ← conserved, BoundedQueue.empty]
    · refine iff_of_true ((delivered_iff_of_goesOn fifo ?_ (by simp)).mpr ?_) ?_
      · simp [pipeFopsOpen, wrapped, holder]
      · rwa [unread_eq holds]
      · exact fun isZero => absurd isZero wrapped
  | closed =>
    by_cases last : s.pipe.refCount = 1
    · refine iff_of_false ?_ (fun lasting => lasting last)
      rintro ⟨⟨fifo', holder', -⟩, -⟩
      simp [pipeFopsClose, last] at holder'
    · refine iff_of_true ((delivered_iff_of_goesOn fifo ?_ (by simp)).mpr ?_) last
      · simp [pipeFopsClose, last, holder]
      · rwa [unread_eq holds]
  | ended call drained =>
    rw [drained, delivered_iff_of_holder fifo ?_, unread_eq holds, Drained, holder]
    · have all : s.returned = s.accepted ↔ queue.values = [] := by
        rw [← conserved]
        simp
      simp [dataLen, conserved, all, State.openWriters]
    · exact holder
  | @fetched _ _ _ _ goesOn ordinary fifo' rest _ _ _ _ holder' got =>
    obtain rfl : fifo = fifo' := by simpa [holder] using holder'
    obtain ⟨holdsRest, bytes⟩ := get_holds holds got
    refine iff_of_true ((delivered_iff_of_goesOn rest rfl goesOn).mpr ?_) ordinary
    rw [unread_eq holdsRest, bytes, BoundedQueue.values_discard, List.append_assoc,
      List.take_append_drop]
    exact conserved
  | @stored _ _ _ goesOn ordinary fifo' rest _ _ _ holder' put =>
    obtain rfl : fifo = fifo' := by simpa [holder] using holder'
    obtain ⟨afterQueue, holdsRest, values⟩ := put_holds holds put
    refine iff_of_true ((delivered_iff_of_goesOn rest rfl goesOn).mpr ?_) ordinary
    rw [unread_eq holdsRest, values, ← List.append_assoc, conserved]

end

end

omit [DecidableEq Tid] in
theorem Initial.inv {alignBits : Nat} {s : State Tid} (init : Initial (2 ^ alignBits) s) :
    (∃ capacity, Inv (2 ^ alignBits) capacity s) ∧ Delivered s := by
  obtain ⟨bufsz, isNamed, mode, pool, reads, pipe, opened⟩ := init.opens
  obtain ⟨fifo, holder⟩ := Option.isSome_iff_exists.mp init.created
  have created : rtRingbufferCreate (2 ^ alignBits) pool bufsz = some fifo := by
    simpa [pipe, pipeFopsOpen] using holder
  cases pool with
  | none => simp [rtRingbufferCreate] at created
  | some pool =>
    have creates := rtRingbufferCreate_holds created
    obtain ⟨again, createdAgain, holds⟩ := creates pool
    obtain rfl : fifo = again := by simpa [created] using createdAgain
    refine ⟨⟨fifo.bufferSize, ⟨fifo, holder, _, holds⟩, ?_⟩, ?_⟩
    · simpa [pipe, pipeFopsOpen] using creates
    · rw [delivered_iff_of_goesOn fifo holder (by simp [init.result_eq]), unread_eq holds,
        init.returned_eq, init.accepted_eq]
      rfl

/-- Over any run, what reads return is what writes have stored, and the end of file comes
behind all of it, exactly if the end of file is reported of a drained pipe only and the
reference count of the device does not wrap. -/
theorem bytesDelivered_throughout_iff {alignBits : Nat}
    {taken : List (Taken (State Tid) (Event Tid))} {last : State Tid}
    (run : (system (2 ^ alignBits)).Run taken last) : Throughout Delivered taken last ↔
      EveryStep EndsDrained taken := by
  have base : ∀ s, Initial (2 ^ alignBits) s →
      (∃ capacity, Inv (2 ^ alignBits) capacity (s : State Tid)) ∧ Delivered s :=
    fun _ init => init.inv
  refine run.throughout_iff_everyStep_while base ?_ ?_
  · rintro s event after ⟨capacity, inv⟩ - cond ran
    exact ⟨capacity, (step_effect ran).inv inv cond⟩
  · rintro s event after ⟨capacity, inv⟩ delivered ran
    exact (step_effect ran).delivered_iff inv delivered

/-- A pipe of eight bytes that one reader has opened, and two threads. -/
def fresh : State (Fin 2) where
  pipe := pipeFopsOpen (2 ^ 2) ⟨true, none, 8, 0, 0, 0⟩ .rdonly (some fun _ => 0)
  queue _ := ⟨false, []⟩
  call _ := none
  opened := update (fun _ => 0) .rdonly 1
  accepted := []
  returned := []
  result := none

theorem fresh_initial : Initial (2 ^ 2) fresh where
  opens := ⟨8, true, .rdonly, some fun _ => 0, by decide, rfl, rfl⟩
  created := rfl
  queue_eq _ := rfl
  call_eq _ := rfl
  accepted_eq := rfl
  returned_eq := rfl
  result_eq := rfl

instance (s : State Tid) : Decidable (Drained s) :=
  have : Decidable (∀ fifo ∈ s.pipe.fifo, rtRingbufferDataLen fifo = 0) :=
    Option.decidableForallMem _
  instDecidableAnd

instance (s : State Tid) : (event : Event Tid) → Decidable (EndsDrained s event)
  | .openFd _ _ =>
    have : Decidable (∀ fifo ∈ s.pipe.fifo, rtRingbufferDataLen fifo = 0) :=
      Option.decidableForallMem _
    inferInstanceAs (Decidable (_ → _ ∧ _))
  | .closeFd _ => instDecidableNot
  | .read .. => instDecidableForall
  | .write .. => .isTrue trivial
  | .proceed _ => inferInstanceAs (Decidable (_ → _ → _))

theorem waiting_reader_delivered : Throughout Delivered (record (step (2 ^ 2)) [] fresh
        [.openFd .wronly none, .read 1 false (fun _ => 0) 4, .proceed 1, .proceed 1, .proceed 1,
          .write 0 false (fun _ => 65) 1, .proceed 0, .proceed 0, .proceed 1, .proceed 1,
          .closeFd .wronly, .read 1 false (fun _ => 0) 4]) ((execute (step (2 ^ 2)) fresh
        [.openFd .wronly none, .read 1 false (fun _ => 0) 4, .proceed 1, .proceed 1, .proceed 1,
          .write 0 false (fun _ => 65) 1, .proceed 0, .proceed 0, .proceed 1, .proceed 1,
          .closeFd .wronly, .read 1 false (fun _ => 0) 4]).get (by decide +kernel)) :=
  (bytesDelivered_throughout_iff (Run.executed _ _ fresh_initial _)).mpr (by decide +kernel)

/-- The only writer stores a byte and closes its descriptor; the read behind that returns
0 with the byte still in the ring buffer. -/
theorem close_before_read_not_delivered : ¬ ∀ (taken : List (Taken (State (Fin 2)) (Event (Fin 2))))
      (last : State (Fin 2)), (system (2 ^ 2)).Run taken last →
        Throughout Delivered taken last := by
  intro claim
  have run := Run.execute
    (.start fresh_initial : (system (2 ^ 2)).Run [] fresh)
    (rfl : execute (step (2 ^ 2)) fresh
      [.openFd .wronly none, .write 0 false (fun _ => 65) 1, .proceed 0, .proceed 0,
        .closeFd .wronly, .read 1 false (fun _ => 0) 4] = some _)
  have ret := ((claim _ _ run).1.endOfFile rfl).1
  revert ret
  decide +kernel

end RtThread.Pipe
