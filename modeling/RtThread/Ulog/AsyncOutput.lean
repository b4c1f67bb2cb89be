import RtThread.Drivers.RingBlock
import RtThread.Ipc.Semaphore
import RtThread.Library.Notice

/-!
# Asynchronous output of logs

`do_output` stores a log in a block of the ring-block buffer and releases `async_notice`;
the thread of `async_output_thread_entry` outputs the blocks, resets the semaphore and takes
it.  Threads and handlers are in `do_output` at once, and between any two steps another one
may run.  A failed assertion has no result.
-/

namespace RtThread.Ulog.Async

open RingBlock TransitionSystem

def sizeofUlogFrame : Nat := 16

def rtAlignSize : Nat := 4

/-- A call of `do_output` behind its allocation. -/
inductive Call where
  /-- It fills the block, and is in front of `rt_rbb_blk_put`. -/
  | putting (b : Nat)
  /-- It is in front of `rt_sem_release`. -/
  | releasing (b : Nat)

def Call.IsReleasing : Call → Prop
  | .putting _ => False
  | .releasing _ => True

instance : (call : Call) → Decidable call.IsReleasing
  | .putting _ => inferInstanceAs (Decidable False)
  | .releasing _ => .isTrue trivial

inductive OutputThread where
  /-- In front of `rt_rbb_blk_get`. -/
  | getting
  /-- Between `rt_rbb_blk_get` and `rt_rbb_blk_free`. -/
  | outputting (b : Nat)
  /-- In front of `rt_sem_control`. -/
  | resetting
  /-- In front of `rt_sem_take`. -/
  | taking
  /-- In `rt_sem_take`, behind `rt_ipc_list_suspend`. -/
  | inTake
  deriving DecidableEq

/-- `async_rbb`, `async_notice`, the output thread and the calls of `do_output`. -/
structure State (Caller : Type) where
  asyncRbb : RtRbb
  asyncNotice : NoticeSemaphore
  thread : OutputThread
  calls : Caller → Option Call

inductive Event (Caller : Type) where
  /-- `do_output` of a log of `logLen` bytes, up to the block. -/
  | alloc (caller : Caller) (logLen : Nat)
  /-- The next step of a call of `do_output`. -/
  | proceed (caller : Caller)
  | output

variable {Caller : Type}

section Steps

variable [DecidableEq Caller]

def State.setCall (s : State Caller) (caller : Caller) (call : Option Call) : State Caller :=
  { s with calls := Function.update s.calls caller call }

/-- `do_output` up to the result of `rt_rbb_blk_alloc`. -/
def alloc (s : State Caller) (caller : Caller) (logLen : Nat) : Option (State Caller) :=
  let blkSize := Word32.alignUp (Word32.add sizeofUlogFrame logLen) rtAlignSize
  if blkSize < 2 ^ 24 then
    let allocated := rtRbbBlkAlloc s.asyncRbb blkSize
    some ({ s with asyncRbb := allocated.1 }.setCall caller (allocated.2.map Call.putting))
  else none

/-- `do_output` from the block on. -/
def proceed (s : State Caller) (caller : Caller) : Call → Option (State Caller)
  | .putting b =>
    (rtRbbBlkPut s.asyncRbb b).map fun asyncRbb =>
      { s with asyncRbb }.setCall caller (some (.releasing b))
  | .releasing _ =>
    some ({ s with asyncNotice := s.asyncNotice.rtSemRelease }.setCall caller none)

/-- `async_output_thread_entry`, with `ulog_async_output` and `ulog_async_waiting_log` in it. -/
def asyncOutputThreadEntry (s : State Caller) : Option (State Caller) :=
  match s.thread with
  | .getting =>
    match rtRbbBlkGet s.asyncRbb with
    | (asyncRbb, some b) => some { s with asyncRbb, thread := .outputting b }
    | (asyncRbb, none) => some { s with asyncRbb, thread := .resetting }
  | .outputting b =>
    (rtRbbBlkFree s.asyncRbb b).map fun asyncRbb =>
      { s with asyncRbb, thread := .getting }
  | .resetting =>
    some { s with asyncNotice := s.asyncNotice.rtSemReset, thread := .taking }
  | .taking =>
    match s.asyncNotice.rtSemTake (-1) with
    | (asyncNotice, some _) => some { s with asyncNotice, thread := .getting }
    | (asyncNotice, none) => some { s with asyncNotice, thread := .inTake }
  | .inTake => if s.asyncNotice.suspended then none else some { s with thread := .getting }

def step (s : State Caller) : Event Caller → Option (State Caller)
  | .alloc caller logLen =>
    match s.calls caller with
    | none => alloc s caller logLen
    | some _ => none
  | .proceed caller => (s.calls caller).bind (proceed s caller)
  | .output => asyncOutputThreadEntry s

end Steps

structure Initial (s : State Caller) : Prop where
  asyncRbb : RingBlock.Initial s.asyncRbb
  asyncNotice : s.asyncNotice = ⟨0, false⟩
  thread : s.thread = .getting
  calls : ∀ caller, s.calls caller = none

def system (Caller : Type) [DecidableEq Caller] : TransitionSystem (State Caller) (Event Caller) :=
  ofFunction Initial step

def State.HasPut (s : State Caller) : Prop :=
  ∃ b ∈ s.asyncRbb.blkList, (s.asyncRbb.blkSet b).status = .put

/-- A call of `do_output` is between `rt_rbb_blk_put` and `rt_sem_release`. -/
def State.Releasing (s : State Caller) : Prop :=
  ∃ caller, ∃ call ∈ s.calls caller, call.IsReleasing

/-- The output thread is suspended in `ulog_async_waiting_log`. -/
def State.Blocked (s : State Caller) : Prop :=
  s.thread = .inTake ∧ s.asyncNotice.suspended = true

/-- While the output thread is blocked without a token no log is left waiting: a block holds
one at most as long as a call is in front of its `rt_sem_release`. -/
def NoLostLog (s : State Caller) : Prop :=
  s.Blocked → s.asyncNotice.value = 0 → ¬ s.Releasing → ¬ s.HasPut

/-- The semaphore is reset only when no block holds a log, or a notice is still to come, and
its count does not wrap between the reset and the take. -/
def NoticeKept (s : State Caller) : Event Caller → Prop
  | .alloc _ _ => True
  | .proceed caller =>
    s.thread = .taking → (∃ call ∈ s.calls caller, call.IsReleasing) →
      s.asyncNotice.value ≠ 0xffff
  | .output => s.thread = .resetting → s.HasPut → s.Releasing

def State.notice (s : State Caller) : Notice where
  phase :=
    if s.thread = .taking then .armed
    else if s.thread = .inTake ∧ s.asyncNotice.suspended = true then .waiting
    else .working
  notices := s.asyncNotice.value
  stored := s.HasPut
  owed := s.Releasing

/-- The invariant: the thread is linked in the suspend list only in its take, and waits for
nothing that is stored. -/
structure Sound (s : State Caller) : Prop where
  value_lt : s.asyncNotice.value < 0x10000
  suspended : s.asyncNotice.suspended = true → s.thread = .inTake
  notice : s.notice.Sound

theorem Initial.sound {s : State Caller} (init : Initial s) : Sound s where
  value_lt := by simp [init.asyncNotice]
  suspended isSuspended := by simp [init.asyncNotice] at isSuspended
  notice := .of_working (by simp [State.notice, init.thread])

theorem Sound.noLostLog {s : State Caller} (inv : Sound s) : NoLostLog s :=
  fun blocked none settled => inv.notice.nothing_stored
    (by simp [State.notice, blocked.1, blocked.2]) none settled

section Steps

variable {s after : State Caller} {caller : Caller}

theorem Sound.of_frame (inv : Sound s) (asyncNotice : after.asyncNotice = s.asyncNotice)
    (thread : after.thread = s.thread) (moves : Notice.Step s.notice after.notice) :
    Sound after where
  value_lt := asyncNotice ▸ inv.value_lt
  suspended isSuspended := by
    rw [thread]
    exact inv.suspended (asyncNotice ▸ isSuspended)
  notice := moves.sound inv.notice

theorem Sound.of_working (value_lt : after.asyncNotice.value < 0x10000)
    (suspended : after.asyncNotice.suspended = false) (thread : after.thread ≠ .taking) :
    Sound after where
  value_lt := value_lt
  suspended isSuspended := by simp [suspended] at isSuspended
  notice := .of_working (by simp [State.notice, thread, suspended])

theorem rtRbbBlkAlloc_cases (rbb : RtRbb) (blkSize : Nat) :
    (rtRbbBlkAlloc rbb blkSize).1 = rbb ∨ ∃ new buf, (rtRbbBlkAlloc rbb blkSize).1 =
      (rbb.append new).setBlk new { status := .inited, size := blkSize, buf } := by
  unfold rtRbbBlkAlloc
  split
  · split
    · split
      · exact .inr ⟨_, _, rfl⟩
      · exact .inl rfl
    · exact .inl rfl
  · exact .inl rfl

theorem hasPut_rtRbbBlkAlloc {rbb : RtRbb} {blkSize i : Nat}
    (linked : i ∈ (rtRbbBlkAlloc rbb blkSize).1.blkList)
    (isPut : ((rtRbbBlkAlloc rbb blkSize).1.blkSet i).status = .put) :
    i ∈ rbb.blkList ∧ (rbb.blkSet i).status = .put := by
  rcases rtRbbBlkAlloc_cases rbb blkSize with same | ⟨new, buf, allocated⟩
  · rw [same] at linked isPut
    exact ⟨linked, isPut⟩
  · rw [allocated] at linked isPut
    by_cases isNew : i = new
    · subst isNew
      simp [RtRbb.setBlk] at isPut
    · simp [RtRbb.setBlk, RtRbb.append, isNew] at linked isPut
      exact ⟨linked, isPut⟩

variable [DecidableEq Caller]

@[simp] theorem setCall_asyncNotice (call : Option Call) :
    (s.setCall caller call).asyncNotice = s.asyncNotice := rfl

@[simp] theorem setCall_thread (call : Option Call) :
    (s.setCall caller call).thread = s.thread := rfl

theorem Releasing.setCall {call : Option Call} (releasing : s.Releasing)
    (idle : s.calls caller = none) : (s.setCall caller call).Releasing := by
  obtain ⟨u, otherCall, isCall, isReleasing⟩ := releasing
  have ne : u ≠ caller := by
    rintro rfl
    simp [idle] at isCall
  exact ⟨u, otherCall, (Function.update_of_ne ne ..).trans isCall, isReleasing⟩

section

variable (inv : Sound s)

include inv

theorem alloc_sound (idle : s.calls caller = none) {logLen : Nat}
    (allocated : alloc s caller logLen = some after) : Sound after := by
  obtain ⟨-, ⟨⟩⟩ := Option.ite_none_right_eq_some.mp allocated
  refine inv.of_frame rfl rfl (.remove rfl rfl ?_ ?_)
  · rintro ⟨b, linked, isPut⟩
    exact ⟨b, hasPut_rtRbbBlkAlloc linked isPut⟩
  · intro releasing
    refine Releasing.setCall ?_ idle
    exact releasing

theorem rtRbbBlkPut_sound {b : Nat} (put : proceed s caller (.putting b) = some after) :
    Sound after := by
  obtain ⟨asyncRbb, -, rfl⟩ := Option.map_eq_some_iff.mp put
  exact inv.of_frame rfl rfl
    (.store rfl rfl ⟨caller, _, Function.update_self .., trivial⟩)

theorem rtSemRelease_sound {b : Nat} (kept : s.thread = .taking → s.asyncNotice.value ≠ 0xffff)
    (released : proceed s caller (.releasing b) = some after) : Sound after := by
  cases released
  have value_lt := inv.value_lt
  by_cases isSuspended : s.asyncNotice.suspended = true
  · have thread := inv.suspended isSuspended
    refine .of_working ?_ ?_ ?_ <;> simp [NoticeSemaphore.rtSemRelease, isSuspended,
      thread, value_lt]
  · have notSuspended : s.asyncNotice.suspended = false := by simpa using isSuspended
    by_cases taking : s.thread = .taking
    · have noWrap := kept taking
      refine ⟨?_, ?_, ?_⟩
      · simp only [NoticeSemaphore.rtSemRelease, notSuspended]
        exact Nat.mod_lt _ (by decide)
      · simp [NoticeSemaphore.rtSemRelease, notSuspended]
      · refine Notice.Step.sound inv.notice (.keep ?_ ?_ ?_)
        · simp [State.notice, taking]
        · simp [State.notice, taking]
        · intro _
          simp only [NoticeSemaphore.rtSemRelease, notSuspended]
          rw [if_neg (by simp), Nat.mod_eq_of_lt (by omega)]
          exact Nat.succ_ne_zero _
    · refine .of_working ?_ ?_ taking
      · simp only [NoticeSemaphore.rtSemRelease, notSuspended]
        exact Nat.mod_lt _ (by decide)
      · simp [NoticeSemaphore.rtSemRelease, notSuspended]

omit [DecidableEq Caller] in
theorem asyncOutputThreadEntry_sound (kept : s.thread = .resetting → s.HasPut → s.Releasing)
    (ran : asyncOutputThreadEntry s = some after) : Sound after := by
  have value_lt := inv.value_lt
  have notSuspended : s.thread ≠ .inTake → s.asyncNotice.suspended = false := by
    intro outside
    simpa using mt inv.suspended outside
  unfold asyncOutputThreadEntry at ran
  cases thread : s.thread with
  | getting =>
    have running := notSuspended (by simp [thread])
    simp only [thread] at ran
    split at ran
    all_goals
      cases ran
      exact .of_working value_lt running (by simp)
  | outputting b =>
    simp only [thread] at ran
    obtain ⟨asyncRbb, -, rfl⟩ := Option.map_eq_some_iff.mp ran
    exact .of_working value_lt (notSuspended (by simp [thread])) (by simp)
  | resetting =>
    simp only [thread] at ran
    cases ran
    refine ⟨by simp [NoticeSemaphore.rtSemReset], by simp [NoticeSemaphore.rtSemReset], ?_⟩
    exact Notice.Step.sound inv.notice (.forget (kept thread) id id)
  | taking =>
    have running := notSuspended (by simp [thread])
    simp only [thread, NoticeSemaphore.rtSemTake] at ran
    by_cases available : 0 < s.asyncNotice.value
    · simp only [available] at ran
      cases ran
      exact .of_working (by simp; omega) running (by simp)
    · simp only [available] at ran
      cases ran
      refine ⟨value_lt, fun _ => rfl, ?_⟩
      refine Notice.Step.sound inv.notice (.wait ?_ ?_ id id)
      · simp [State.notice, thread]
      · simpa [State.notice] using available
  | inTake =>
    simp only [thread] at ran
    obtain ⟨woken, ⟨⟩⟩ := Option.ite_none_left_eq_some.mp ran
    exact .of_working value_lt (by simpa using woken) (by simp)

theorem step_sound {e : Event Caller} (kept : NoticeKept s e) (ran : step s e = some after) :
    Sound after := by
  cases e with
  | alloc caller logLen =>
    simp only [step] at ran
    cases idle : s.calls caller with
    | none => exact alloc_sound inv idle (by simpa [idle] using ran)
    | some call => simp [idle] at ran
  | proceed caller =>
    obtain ⟨call, isCall, ran⟩ := Option.bind_eq_some_iff.mp ran
    cases call with
    | putting b => exact rtRbbBlkPut_sound inv ran
    | releasing b =>
      exact rtSemRelease_sound inv (fun taking => kept taking ⟨_, isCall, trivial⟩) ran
  | output => exact asyncOutputThreadEntry_sound inv kept ran

end

end Steps

/-- A run whose resets forget no notice loses no log. -/
theorem logs_noticed [DecidableEq Caller]
    {taken : List (Taken (State Caller) (Event Caller))} {last : State Caller}
    (run : (system Caller).Run taken last) (kept : EveryStep NoticeKept taken) :
    Throughout NoLostLog taken last :=
  (run.throughout_of_everyStep (fun _ => Initial.sound)
    (fun _ _ _ inv kept ran => step_sound inv kept ran) kept).imp
    fun _ => Sound.noLostLog

section Decidability

instance (s : State Caller) : Decidable s.HasPut :=
  inferInstanceAs (Decidable (∃ b ∈ s.asyncRbb.blkList, _ = _))

instance [Fintype Caller] (s : State Caller) : Decidable s.Releasing :=
  inferInstanceAs (Decidable (∃ _, _))

instance [Fintype Caller] (s : State Caller) :
    (e : Event Caller) → Decidable (NoticeKept s e)
  | .alloc _ _ => .isTrue trivial
  | .proceed _ => instDecidableForall
  | .output => inferInstanceAs (Decidable (_ → _ → _))

end Decidability

def initialised : State Unit where
  asyncRbb :=
    { buf := 0x1000
      bufSize := 256
      blkSet := fun _ => ⟨.unused, 0, 0⟩
      blkMaxNum := 2
      blkList := [] }
  asyncNotice := ⟨0, false⟩
  thread := .getting
  calls := fun _ => none

theorem initialised_initial : Initial initialised :=
  ⟨⟨by decide, rfl, fun _ _ => rfl⟩, rfl, rfl, fun _ => rfl⟩

def earlyLog : List (Event Unit) :=
  [.alloc () 10, .proceed (), .proceed (), .output, .output, .output, .output, .output]

theorem early_log_noticed : ∃ last, execute step initialised earlyLog = some last ∧
      Throughout NoLostLog (record step [] initialised earlyLog) last := by
  have isSome : (execute step initialised earlyLog).isSome := by decide +kernel
  have executed := (Option.some_get isSome).symm
  exact ⟨_, executed,
    logs_noticed (.execute (.start initialised_initial) executed) (by decide +kernel)⟩

def lateLog : List (Event Unit) :=
  [.output, .alloc () 10, .proceed (), .proceed (), .output, .output]

def lost : State Unit := (execute step initialised lateLog).get (by decide +kernel)

theorem late_log_lost : ¬ ∀ (taken : List (Taken (State Unit) (Event Unit))) (last : State Unit),
      (system Unit).Run taken last → Throughout NoLostLog taken last := by
  intro claim
  have run : (system Unit).Run (record step [] initialised lateLog) lost :=
    .execute (.start initialised_initial) (Option.some_get _).symm
  have blocked : lost.Blocked := ⟨by decide +kernel, by decide +kernel⟩
  exact (claim _ _ run).1 blocked (by decide +kernel) (by decide +kernel) (by decide +kernel)

end RtThread.Ulog.Async
