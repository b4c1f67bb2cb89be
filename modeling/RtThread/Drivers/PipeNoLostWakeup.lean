import RtThread.Drivers.PipeAttention

/-!
# No wake-up of a pipe is lost

Opens, closes and polls keep the sides attended as reads and writes do.
-/

open Function (update)
open TransitionSystem

namespace RtThread.PipeWaits

open Pipe
open Option (some_ne_none ite_none_right_eq_some not_mem_none)

universe u

variable {Tid : Type u} [DecidableEq Tid]

variable {mode : Mode}

section

variable {s after : State Tid} {t : Tid} {side : Side}

theorem ofNat_succ (n : Nat) : UInt8.ofNat (n + 1) = UInt8.ofNat n + 1 := by
  simp

theorem ofNat_pred {n : Nat} (pos : 0 < n) : UInt8.ofNat (n - 1) = UInt8.ofNat n - 1 := by
  obtain ⟨rest, rfl⟩ := Nat.exists_eq_add_of_lt pos
  simp

theorem counter_open {counter : UInt8} {left right : Nat}
    (counts : counter = UInt8.ofNat (left + right)) : counter + 1 = UInt8.ofNat (left + 1 + right) ∧
      counter + 1 = UInt8.ofNat (left + (right + 1)) := by
  have same : left + 1 + right = left + (right + 1) := by omega
  rw [same, ← Nat.add_assoc, ofNat_succ, counts]
  exact ⟨rfl, rfl⟩

theorem counter_close {counter : UInt8} {left right : Nat}
    (counts : counter = UInt8.ofNat (left + right)) :
    (0 < left → counter - 1 = UInt8.ofNat (left - 1 + right)) ∧
      (0 < right → counter - 1 = UInt8.ofNat (left + (right - 1))) := by
  refine ⟨fun pos => ?_, fun pos => ?_⟩
  · rw [counts, ← ofNat_pred (by omega), Nat.sub_add_comm pos]
  · rw [counts, ← ofNat_pred (by omega), Nat.add_sub_assoc pos]

section

omit [DecidableEq Tid]

theorem counters_open (inv : Sound s) (alignSize : Nat) (mode : Mode)
    (pool : Option (Nat → UInt8)) :
    let opened := update s.opened mode (s.opened mode + 1)
    (pipeFopsOpen alignSize s.pipe mode pool).readers =
        UInt8.ofNat (opened .rdonly + opened .rdwr) ∧
      (pipeFopsOpen alignSize s.pipe mode pool).writers =
        UInt8.ofNat (opened .wronly + opened .rdwr) := by
  have readers := counter_open inv.readers
  have writers := counter_open inv.writers
  cases mode with
  | rdonly => exact ⟨readers.1, inv.writers⟩
  | wronly => exact ⟨inv.readers, writers.1⟩
  | rdwr => exact ⟨readers.2, writers.2⟩

theorem counters_close (inv : Sound s) (pos : 0 < s.opened mode) :
    let opened := update s.opened mode (s.opened mode - 1)
    (pipeFopsClose s.pipe mode).readers = UInt8.ofNat (opened .rdonly + opened .rdwr) ∧
      (pipeFopsClose s.pipe mode).writers = UInt8.ofNat (opened .wronly + opened .rdwr) := by
  have readers := counter_close inv.readers
  have writers := counter_close inv.writers
  cases mode with
  | rdonly => exact ⟨readers.1 pos, inv.writers⟩
  | wronly => exact ⟨inv.readers, writers.1 pos⟩
  | rdwr => exact ⟨readers.2 pos, writers.2 pos⟩

theorem ready_open {alignSize : Nat} {pool : Option (Nat → UInt8)}
    (wraps : s.pipe.refCount = 0 → ∀ mode, s.opened mode = 0) (side : Side) (ready : Ready
      { s with
        pipe := pipeFopsOpen alignSize s.pipe mode pool
        opened := update s.opened mode (s.opened mode + 1) } side) : Ready s side := by
  by_cases a : s.pipe.refCount = 0
  · have none := wraps a
    cases side with
    | reader => exact .inr (by simp [State.openWriters, none])
    | writer => exact .inr (by simp [State.openReaders, none])
  · have fifo : (pipeFopsOpen alignSize s.pipe mode pool).fifo = s.pipe.fifo :=
      if_neg a
    have more : ∀ other, s.opened other ≤ update s.opened mode (s.opened mode + 1) other := by
      intro other
      rw [Function.update_apply]
      split
      · next same => exact same ▸ Nat.le_succ _
      · exact Nat.le_refl _
    have rdonly := more .rdonly
    have wronly := more .wronly
    have rdwr := more .rdwr
    cases side with
    | reader =>
      simp only [Ready, State.dataLen, fifo, State.openWriters] at ready ⊢
      omega
    | writer =>
      simp only [Ready, State.spaceLen, fifo, State.openReaders] at ready ⊢
      omega

theorem not_blocked_of_close {stage : CloseStage}
    (held : s.task t = some (.close mode stage)) (side : Side) : ¬ Blocked s t side := by
  rintro ⟨_, _, task, _⟩
  rw [held] at task
  exact Task.noConfusion (Option.some.inj task)

end

def Aside : Option Task → Prop
  | none => True
  | some (.poll _) => True
  | some (.close _ .leaving) => True
  | _ => False

omit [DecidableEq Tid] in
theorem Aside.of_state {task : Option Task} (aside : Aside task) (held : s.task t = task) :
    ¬ Waits s t side ∧ ¬ Tends s t side ∧ ¬ Blocked s t side ∧
      (∀ old ∈ s.task t, old.locked = false ∧ old.within) := by
  cases task with
  | none =>
    refine ⟨not_waits_of_none held, not_tends_of_none held, ?_, by simp [held]⟩
    rintro ⟨_, _, task, _⟩
    rw [held] at task
    exact absurd task.symm (some_ne_none _)
  | some task =>
    cases task with
    | transfer job nonblock stage => exact aside.elim
    | close mode stage =>
      cases stage with
      | locking | hangingUp sides => exact aside.elim
      | leaving =>
        refine ⟨?_, ?_, not_blocked_of_close held side, by simp [held, Task.locked, Task.within]⟩
        · simp [waits_iff held, Task.waits]
        · simp [tends_iff held, Task.tends]
    | poll table =>
      refine ⟨?_, ?_, ?_, by simp [held, Task.locked, Task.within]⟩
      · simp [waits_iff held, Task.waits]
      · simp [tends_iff held, Task.tends]
      · rintro ⟨_, _, task, _⟩
        rw [held] at task
        exact Task.noConfusion (Option.some.inj task)

theorem calls_removeNode (s : State Tid) (t : Tid) (i : Nat) (side : Side) :
    calls ((removeNode s t i).queue side).waitingList = calls (s.queue side).waitingList := by
  simp only [removeNode]
  induction (s.queue side).waitingList with
  | nil => rfl
  | cons e entries ih =>
    cases e with
    | wait u =>
      rw [List.filter_cons_of_pos rfl, calls_cons_wait, calls_cons_wait, ih]
    | node owner number key =>
      by_cases removed : owner = t ∧ number = i
      · rw [List.filter_cons_of_neg (by simp [removed]), calls_cons_node]
        exact ih
      · have kept : (!decide (owner = t ∧ number = i)) = true := by
          rw [decide_eq_false removed]
          rfl
        rw [List.filter_cons]
        rw [if_pos kept, calls_cons_node, calls_cons_node, ih]

theorem begin_eq_some {task : Option Task} (ran : begin s t task = some after) :
    s.task t = none ∧ after = s.setTask t task := by
  simp only [begin] at ran
  split at ran
  · next idle => exact ⟨idle, (Option.some.inj ran).symm⟩
  · exact absurd ran.symm (some_ne_none _)

section

variable (inv : Inv s)

include inv

omit [DecidableEq Tid] in
theorem Inv.openFd {alignBits : Nat} {pool : Option (Nat → UInt8)}
    (wraps : s.pipe.refCount = 0 → ∀ mode, s.opened mode = 0) : Inv
      { s with
        pipe := pipeFopsOpen (2 ^ alignBits) s.pipe mode pool
        opened := update s.opened mode (s.opened mode + 1) } := by
  obtain ⟨readers, writers⟩ := counters_open inv.sound (2 ^ alignBits) mode pool
  refine ⟨{ inv.sound with holds := ?_, readers, writers }, fun side => ?_⟩
  · intro fifo isFifo
    by_cases first : s.pipe.refCount = 0
    · have created : rtRingbufferCreate (2 ^ alignBits) pool s.pipe.bufsz = some fifo := by
        simpa [pipeFopsOpen, first] using isFifo
      cases pool with
      | none => exact absurd created.symm (some_ne_none fifo)
      | some pool =>
        obtain ⟨again, createdAgain, holds⟩ := rtRingbufferCreate_holds created pool
        obtain rfl := Option.some.inj (created.symm.trans createdAgain)
        exact ⟨_, _, holds⟩
    · have same : s.pipe.fifo = some fifo := by simpa [pipeFopsOpen, first] using isFifo
      exact inv.sound.holds fifo same
  · intro ready waited
    exact inv.attended side (ready_open wraps side ready) waited

theorem Inv.lockedClose (held : s.task t = some (.close mode .locking)) (pos : 0 < s.opened mode) :
    Inv ({ s with
      pipe := pipeFopsClose s.pipe mode
      opened := update s.opened mode (s.opened mode - 1)
      lock := some t }.setTask t
      (some (.close mode (.hangingUp (hangups (pipeFopsClose s.pipe mode)))))) := by
  obtain ⟨readers, writers⟩ := counters_close inv.sound pos
  generalize afterEq : { s with
      pipe := pipeFopsClose s.pipe mode
      opened := update s.opened mode (s.opened mode - 1)
      lock := some t }.setTask t
      (some (.close mode (.hangingUp (hangups (pipeFopsClose s.pipe mode))))) = after
  have taken : after.task t =
      some (.close mode (.hangingUp (hangups (pipeFopsClose s.pipe mode)))) := by
    rw [← afterEq]
    exact setTask_self _ _ _
  have pipe : after.pipe = pipeFopsClose s.pipe mode := by
    rw [← afterEq]
    rfl
  have queue : after.queue = s.queue := by
    rw [← afterEq]
    rfl
  have moves : Moves s after t := by
    rw [← afterEq]
    exact moves_setTask
      { s with
        pipe := pipeFopsClose s.pipe mode
        opened := update s.opened mode (s.opened mode - 1)
        lock := some t } t _
  have sound : Sound after := by
    refine inv.sound.moves moves (by simp [queue]) ?_ ?_ ?_ ?_ ?_ ?_ ?_
    · rw [taken]
      intro new isNew
      cases isNew
      trivial
    · rintro side ⟨_, _, task, _⟩
      rw [held] at task
      exact Task.noConfusion (Option.some.inj task)
    · rintro side ⟨_, _, task, _⟩
      rw [taken] at task
      exact Task.noConfusion (Option.some.inj task)
    · intro u isHolder
      rw [← afterEq] at isHolder
      cases isHolder
      exact .inr ⟨rfl, _, taken, rfl⟩
    · intro fifo isFifo
      rw [pipe] at isFifo
      simp only [pipeFopsClose] at isFifo
      split at isFifo
      · exact absurd isFifo (not_mem_none fifo)
      · exact inv.sound.holds fifo isFifo
    · rw [← afterEq]
      exact readers
    · rw [← afterEq]
      exact writers
  refine ⟨sound, fun side => ?_⟩
  by_cases hangsUp : side ∈ hangups (pipeFopsClose s.pipe mode)
  · refine attended_of_tends ((tends_iff taken).mpr ?_)
    simpa [Task.tends] using hangsUp
  · have fifo : after.pipe.fifo = none ∨ after.pipe.fifo = s.pipe.fifo := by
      rw [pipe, pipeFopsClose]
      split
      · exact .inl rfl
      · exact .inr rfl
    refine (inv.attended side).moves moves (by rw [queue]; exact id) ?_ ?_ ?_
    · cases side with
      | reader =>
        have writers : after.pipe.writers ≠ 0 := by
          rw [pipe]
          intro none
          exact hangsUp (by simp [hangups, none])
        rintro (data | none)
        · rcases fifo with destroyed | same
          · exact absurd (by simp [State.dataLen, destroyed]) data
          · exact .inl (by rwa [State.dataLen, same] at data)
        · exact absurd none (sound.openWriters_ne_zero writers)
      | writer =>
        have readers : after.pipe.readers ≠ 0 := by
          rw [pipe]
          intro none
          exact hangsUp (by simp [hangups, none])
        rintro (room | none)
        · rcases fifo with destroyed | same
          · exact absurd (by simp [State.spaceLen, destroyed]) room
          · exact .inl (by rwa [State.spaceLen, same] at room)
        · exact absurd none (sound.openReaders_ne_zero readers)
    · rw [waits_iff taken]
      exact fun waits => absurd waits Bool.false_ne_true
    · rw [tends_iff held]
      exact fun tends => absurd tends Bool.false_ne_true

theorem Inv.hangsUp {sides : List Side} {key : UInt16}
    (held : s.task t = some (.close mode (.hangingUp (side :: sides))))
    (wakesWell : WakesWell s t side key) :
    Inv ((s.setTask t (some (.close mode (.hangingUp sides)))).wakeup side key) := by
  have stays := not_blocked_of_close (setTask_self s t
    (some (.close mode (.hangingUp sides))))
  refine inv.wakes (inv.sound.setTask ?_ (not_blocked_of_close held) stays ?_) stays wakesWell
    fun other distinct => ⟨?_, ?_⟩
  · intro new isNew
    cases isNew
    trivial
  · exact fun _ _ => ⟨_, rfl, rfl⟩
  · rw [waits_iff (setTask_self _ _ _)]
    exact fun waits => absurd waits Bool.false_ne_true
  · rw [tends_iff held, tends_iff (setTask_self _ _ _)]
    simp [Task.tends, distinct]

theorem Inv.hungUp (held : s.task t = some (.close mode (.hangingUp []))) :
    Inv ({ s with lock := none }.setTask t (some (.close mode .leaving))) := by
  have released := inv.unlock
  have held' : { s with lock := none }.task t = some (.close mode (.hangingUp [])) := held
  refine released.setTask (released.sound.setTask ?_ (not_blocked_of_close held')
    (not_blocked_of_close (setTask_self _ _ _)) (by simp)) fun side => ⟨?_, ?_⟩
  · intro new isNew
    cases isNew
    trivial
  · rw [waits_iff (setTask_self _ _ _)]
    exact fun waits => absurd waits Bool.false_ne_true
  · rw [tends_iff held']
    simp [Task.tends]

omit [DecidableEq Tid] in
theorem Inv.aside (moves : Moves s after t) (before : Aside (s.task t))
    (behind : Aside (after.task t)) (pipe : after.pipe = s.pipe) (lock : after.lock = s.lock)
    (opened : after.opened = s.opened)
    (flag : ∀ side, (after.queue side).flag = (s.queue side).flag)
    (calls_eq : ∀ side, calls (after.queue side).waitingList = calls (s.queue side).waitingList) :
    Inv after := by
  have ready : ∀ side, Ready after side → Ready s side := by
    intro side
    cases side <;>
      simp only [Ready, State.dataLen, State.spaceLen, State.openReaders, State.openWriters, pipe,
        opened] <;> exact id
  refine ⟨inv.sound.moves moves calls_eq ?_ (fun side => (before.of_state rfl).2.2.1)
    (fun side => (behind.of_state rfl).2.2.1) ?_ ?_ ?_ ?_, fun side => ?_⟩
  · intro task held
    obtain ⟨-, -, -, unlocked⟩ := @Aside.of_state _ _ _ .reader _ behind rfl
    exact (unlocked task held).2
  · intro u isHolder
    rw [lock] at isHolder
    refine .inl ⟨?_, isHolder⟩
    rintro rfl
    obtain ⟨task, held, locked⟩ := inv.sound.holder u isHolder
    obtain ⟨-, -, -, unlocked⟩ := @Aside.of_state _ _ _ .reader _ before rfl
    exact absurd (locked.symm.trans (unlocked task held).1) Bool.noConfusion
  · rw [pipe]
    exact inv.sound.holds
  · rw [State.openReaders, pipe, opened]
    exact inv.sound.readers
  · rw [State.openWriters, pipe, opened]
    exact inv.sound.writers
  · refine (inv.attended side).moves moves (by rw [flag]; exact id) (ready side) ?_ ?_
    · exact fun waits => absurd waits (behind.of_state rfl).1
    · exact fun tends => absurd tends (before.of_state rfl).2.1

theorem Inv.begins {task : Task} (idle : s.task t = none)
    (awake : ∀ side, ¬ Blocked (s.setTask t (some task)) t side) (within : task.within)
    (fresh : ∀ side, task.waits side = false) : Inv (s.setTask t (some task)) := by
  have before : Aside (s.task t) := by
    rw [idle]
    trivial
  refine inv.setTask (inv.sound.setTask ?_ (fun side => (before.of_state rfl).2.2.1) awake ?_)
    fun side => ⟨?_, ?_⟩
  · intro new isNew
    cases isNew
    exact within
  · rintro _ ⟨old, isOld, _⟩
    rw [idle] at isOld
    exact absurd isOld (not_mem_none old)
  · rw [waits_iff (setTask_self _ _ _), fresh]
    exact fun waits => absurd waits Bool.false_ne_true
  · exact fun tends => absurd tends (not_tends_of_none idle)

theorem Inv.polled {e : Event Tid} (ran : polled s t e = some after) : Inv after := by
  simp only [PipeWaits.polled] at ran
  split at ran
  · rename_i table polls
    have before : Aside (s.task t) := by
      rw [polls]
      trivial
    have goesOn : ∀ task : Option Task, Aside task → ∀ other : State Tid,
        other.task = s.task → other.pipe = s.pipe → other.lock = s.lock →
        other.opened = s.opened →
        (∀ side, (other.queue side).flag = (s.queue side).flag) →
        (∀ side, calls (other.queue side).waitingList = calls (s.queue side).waitingList) →
        Inv (other.setTask t task) := by
      intro task aside other same pipe lock opened flag calls_eq
      refine inv.aside ?_ before (by rwa [setTask_self]) pipe lock opened flag calls_eq
      intro u distinct
      rw [moves_setTask other t task u distinct, same]
    cases e with
    | pollAdd u side key =>
      obtain ⟨-, ⟨⟩⟩ := Option.ite_none_left_eq_some.mp ran
      refine goesOn _ (by trivial) _ rfl rfl rfl rfl (fun other => ?_) fun other => ?_
      · by_cases same : other = side
        · subst same
          rw [setQueue_self]
        · rw [setQueue_other _ _ same]
      · by_cases same : other = side
        · subst same
          simp [calls]
        · rw [setQueue_other _ _ same]
    | pollWait u =>
      obtain ⟨-, ⟨⟩⟩ := Option.ite_none_left_eq_some.mp ran
      exact goesOn _ (by trivial) _ rfl rfl rfl rfl (fun _ => rfl) fun _ => rfl
    | pollTimeout u =>
      obtain ⟨-, ⟨⟩⟩ := ite_none_right_eq_some.mp ran
      exact goesOn _ (by trivial) _ rfl rfl rfl rfl (fun _ => rfl) fun _ => rfl
    | pollTeardown u =>
      obtain ⟨-, ran⟩ := Option.ite_none_left_eq_some.mp ran
      split at ran
      · cases ran
        exact goesOn none trivial _ rfl rfl rfl rfl (fun _ => rfl) fun _ => rfl
      · cases ran
        exact goesOn _ (by trivial) _ rfl rfl rfl rfl (fun _ => rfl)
          (calls_removeNode s t _)
    | openFd | closeFd | read | write | proceed | pollInit =>
      exact absurd ran.symm (some_ne_none _)
  · exact absurd ran.symm (some_ne_none _)

theorem Inv.transferStep {job : Job} {nonblock : Bool} {stage : Stage}
    (held : s.task t = some (.transfer job nonblock stage))
    (well : ProceedsWell s t (some (.transfer job nonblock stage)))
    (ran : transferStep s t job nonblock stage = some after) : Inv after := by
  cases stage with
  | locking =>
    obtain ⟨-, ran⟩ := ite_none_right_eq_some.mp ran
    cases job with
    | read buf n => exact inv.lockedRead held well ran
    | write buf n ret wakeup => exact inv.lockedWrite held well ran
  | passing r =>
    cases ran
    exact inv.passing held well
  | unlocking exit =>
    cases ran
    cases exit with
    | blocks | ends r | returns r => exact inv.unlocking held
  | waking =>
    cases ran
    exact inv.waking held well
  | waiting =>
    simp only [PipeWaits.transferStep] at ran
    split at ran
    · cases ran
      exact inv.lookAgain held (.inl rfl)
    · rename_i noFlag
      cases ran
      exact inv.suspends held (Bool.eq_false_iff.mpr noFlag)
  | suspended => exact absurd ran.symm (some_ne_none _)
  | woken =>
    cases ran
    exact inv.lookAgain held (.inr rfl)
  | ending r =>
    cases ran
    exact inv.ending held well

theorem Inv.closeStep {stage : CloseStage} (held : s.task t = some (.close mode stage))
    (well : ProceedsWell s t (some (.close mode stage)))
    (ran : closeStep s t mode stage = some after) : Inv after := by
  cases stage with
  | locking =>
    obtain ⟨enabled, ⟨⟩⟩ := ite_none_right_eq_some.mp ran
    exact inv.lockedClose held enabled.2
  | hangingUp sides =>
    cases sides with
    | nil =>
      cases ran
      exact inv.hungUp held
    | cons side sides =>
      cases ran
      exact inv.hangsUp held well
  | leaving =>
    cases ran
    refine inv.aside (moves_setTask s t none) ?_ ?_ rfl rfl rfl (fun _ => rfl) fun _ => rfl
    · rw [held]
      trivial
    · show Aside ((s.setTask t none).task t)
      rw [setTask_self]
      trivial

theorem Inv.begins_none (idle : s.task t = none) : Inv (s.setTask t none) := by
  refine inv.aside (moves_setTask s t none) ?_ ?_ rfl rfl rfl (fun _ => rfl) fun _ => rfl
  · rw [idle]
    trivial
  · rw [setTask_self]
    trivial

theorem Inv.step {alignBits : Nat} {e : Event Tid} (passesOn : PassesOn s e)
    (ran : step (2 ^ alignBits) s e = some after) : Inv after := by
  simp only [PipeWaits.step] at ran
  split at ran
  · exact absurd ran.symm (some_ne_none _)
  cases e with
  | openFd mode pool =>
    obtain ⟨-, ⟨⟩⟩ := ite_none_right_eq_some.mp ran
    exact inv.openFd passesOn
  | closeFd t mode =>
    obtain ⟨-, ran⟩ := ite_none_right_eq_some.mp ran
    obtain ⟨idle, rfl⟩ := begin_eq_some ran
    exact inv.begins idle (not_blocked_of_close (setTask_self _ _ _)) trivial fun _ => rfl
  | read t nonblock buf n =>
    obtain ⟨idle, rfl⟩ := begin_eq_some ran
    split
    · exact inv.begins_none idle
    · exact inv.begins idle (not_blocked_of_stage (setTask_self _ _ _) (by simp)) trivial
        fun _ => by simp [Task.waits, Stage.waits]
  | write t nonblock buf n =>
    obtain ⟨idle, rfl⟩ := begin_eq_some ran
    split
    · exact inv.begins_none idle
    · exact inv.begins idle (not_blocked_of_stage (setTask_self _ _ _) (by simp))
        (Nat.zero_le n) fun _ => by simp [Task.waits, Stage.waits]
  | proceed t =>
    have well : ProceedsWell s t (s.task t) := passesOn
    simp only [proceedStep] at ran
    split at ran
    · next held => exact inv.transferStep held (held ▸ well) ran
    · next held => exact inv.closeStep held (held ▸ well) ran
    · exact absurd ran.symm (some_ne_none _)
  | pollInit t =>
    obtain ⟨idle, rfl⟩ := begin_eq_some ran
    refine inv.aside (moves_setTask s t _) ?_ ?_ rfl rfl rfl (fun _ => rfl) fun _ => rfl
    · rw [idle]
      trivial
    · rw [setTask_self]
      trivial
  | pollAdd t side key | pollWait t | pollTimeout t | pollTeardown t => exact inv.polled ran

end

end

omit [DecidableEq Tid] in
theorem Initial.inv {s : State Tid} (init : Initial s) : Inv s := by
  obtain ⟨isNamed, bufsz, pipe⟩ := init.pipe_eq
  have notBlocked : ∀ t side, ¬ Blocked s t side := by
    rintro t side ⟨_, _, task, _⟩
    rw [init.task_eq] at task
    exact absurd task.symm (some_ne_none _)
  refine ⟨⟨?_, fun side t => ?_, fun side => ?_, ?_, ?_, ?_, ?_⟩, fun side _ ⟨t, waits⟩ => ?_⟩
  · simp [init.task_eq]
  · rw [init.queue_eq]
    exact iff_of_false List.not_mem_nil (notBlocked t side)
  · rw [init.queue_eq]
    exact List.nodup_nil
  · simp [init.lock_eq]
  · simp [pipe]
  · simp [pipe, State.openReaders, init.opened_eq]
  · simp [pipe, State.openWriters, init.opened_eq]
  · exact absurd waits (not_waits_of_none (init.task_eq t))

/-- In every run whose steps pass on what they do not do themselves, no wake-up is lost. -/
theorem no_lost_wakeup_throughout {alignBits : Nat}
    {taken : List (Taken (State Tid) (Event Tid))} {last : State Tid}
    (run : (system (2 ^ alignBits)).Run taken last) (every : EveryStep PassesOn taken) :
    Throughout NoLostWakeup taken last := by
  have base : ∀ s : State Tid, Initial s → Inv s := fun _ init => init.inv
  refine (run.throughout_of_everyStep base ?_ every).imp fun _ inv => inv.noLostWakeup
  exact fun s e after inv passesOn ran => inv.step passesOn ran

section

omit [DecidableEq Tid] in
theorem blocked_iff_exists (s : State Tid) (t : Tid) (side : Side) :
    Blocked s t side ↔ ∃ task ∈ s.task t, task.waits side ∧ task.tends side true = false := by
  constructor
  · rintro ⟨job, nonblock, held, rfl⟩
    exact ⟨_, held, by simp [Task.waits, Stage.waits], by
      cases job <;> simp [Task.tends, Stage.looks, Stage.target]⟩
  · rintro ⟨task, held, waits, untended⟩
    cases task with
    | transfer job nonblock stage =>
      simp only [Task.waits, decide_eq_true_eq] at waits
      obtain ⟨own, waits⟩ := waits
      simp only [Task.tends] at untended
      have stage_eq : stage = .suspended := by
        cases stage with
        | suspended => rfl
        | unlocking exit => cases exit <;> simp_all [Stage.waits, Stage.looks]
        | locking | passing | waking | waiting | woken | ending =>
          simp_all [Stage.waits, Stage.looks]
      exact ⟨job, nonblock, stage_eq ▸ held, own⟩
    | close mode stage | poll table => exact absurd waits Bool.false_ne_true

instance (s : State Tid) (t : Tid) (side : Side) : Decidable (Waits s t side) :=
  have : DecidablePred fun task : Task => task.waits side = true := fun _ => inferInstance
  inferInstanceAs (Decidable (∃ _ ∈ _, _))

instance (s : State Tid) (t : Tid) (side : Side) : Decidable (Tends s t side) :=
  inferInstanceAs
    (Decidable (∃ task ∈ s.task t, task.tends side (s.queue side).flag = true))

instance (s : State Tid) (t : Tid) (side : Side) : Decidable (Blocked s t side) :=
  decidable_of_iff _ (blocked_iff_exists s t side).symm

instance (s : State Tid) : (side : Side) → Decidable (Ready s side)
  | .reader => instDecidableOr
  | .writer => instDecidableOr

instance (s : State Tid) : (task : Option Task) → Decidable (Resting s task)
  | none => .isTrue trivial
  | some (.transfer _ _ _) => instDecidableOr
  | some (.close _ _) => instDecidableAnd
  | some (.poll _) => inferInstanceAs (Decidable (_ = _))

variable [Fintype Tid]

instance (s : State Tid) (t : Tid) (side : Side) : Decidable (LeftToAnother s t side) :=
  inferInstanceAs (Decidable (∃ _, _))

instance (s : State Tid) (t : Tid) (nonblock : Bool) :
    (job : Job) → Decidable (LocksWell s t nonblock job)
  | .read _ count =>
    have : Decidable (ReadLeaves s count) := instDecidableOr
    inferInstanceAs (Decidable (_ → _ ∨ _))
  | .write _ count ret _ =>
    have : Decidable (WriteLeaves s (count - ret)) := instDecidableOr
    inferInstanceAs (Decidable (_ → _ ∨ _))

instance (s : State Tid) (t : Tid) (side : Side) (key : UInt16) :
    Decidable (WakesWell s t side key) :=
  have : Decidable (∃ owner i own, (s.queue side).waitingList.find? (Entry.accepts key) =
      some (.node owner i own)) :=
    match (s.queue side).waitingList.find? (Entry.accepts key) with
    | none => .isFalse (by simp)
    | some (.wait _) => .isFalse (by simp)
    | some (.node owner i own) => .isTrue ⟨owner, i, own, rfl⟩
  inferInstanceAs (Decidable (_ → _ → _ → _))

instance (s : State Tid) (t : Tid) : (task : Option Task) → Decidable (ProceedsWell s t task)
  | none | some (.poll _) => .isTrue trivial
  | some (.transfer _ _ stage) =>
    match stage with
    | .locking => inferInstanceAs (Decidable (LocksWell ..))
    | .passing _ | .waking | .ending _ => inferInstanceAs (Decidable (WakesWell ..))
    | .unlocking _ | .waiting | .suspended | .woken => .isTrue trivial
  | some (.close _ stage) =>
    match stage with
    | .hangingUp (_ :: _) => inferInstanceAs (Decidable (WakesWell ..))
    | .locking | .hangingUp [] | .leaving => .isTrue trivial

instance (s : State Tid) : (e : Event Tid) → Decidable (PassesOn s e)
  | .openFd _ _ =>
    have : Decidable (∀ mode, s.opened mode = 0) :=
      decidable_of_iff
        (s.opened .rdonly = 0 ∧ s.opened .wronly = 0 ∧ s.opened .rdwr = 0)
        ⟨fun ⟨rdonly, wronly, rdwr⟩ mode => by cases mode <;> assumption,
          fun all => ⟨all _, all _, all _⟩⟩
    instDecidableForall
  | .proceed t => inferInstanceAs (Decidable (ProceedsWell s t (s.task t)))
  | .closeFd .. | .read .. | .write .. | .pollInit .. | .pollAdd .. | .pollWait .. |
    .pollTimeout .. | .pollTeardown .. => .isTrue trivial

end

/-- A pipe of eight bytes, behind `rt_pipe_create`, and three threads. -/
def created : State (Fin 3) where
  pipe := ⟨true, none, 8, 0, 0, 0⟩
  lock := none
  queue _ := ⟨false, []⟩
  task _ := none
  opened _ := 0
  deleted := false

theorem created_initial : Initial created :=
  ⟨⟨true, 8, rfl⟩, rfl, fun _ => rfl, fun _ => rfl, fun _ => rfl, rfl⟩

def bothOpen : List (Event (Fin 3)) :=
  [.openFd .rdonly (some fun _ => 0), .openFd .wronly none]

/-- A read by `t` of an empty pipe, up to its `rt_thread_suspend`. -/
def readBlocks (t : Fin 3) (count : Nat) : List (Event (Fin 3)) :=
  [.read t false (fun _ => 0) count] ++ List.replicate 4 (.proceed t)

def writeAll (t : Fin 3) (count : Nat) : List (Event (Fin 3)) :=
  [.write t false (fun _ => 65) count] ++ List.replicate 3 (.proceed t)

theorem woken_reader_not_lost :
    ∃ taken last, (system (2 ^ 2)).Run taken last ∧ (last.task 0).isNone ∧
      Throughout (NoLostWakeup : State (Fin 3) → Prop) taken last := by
  let events : List (Event (Fin 3)) :=
    bothOpen ++ readBlocks 0 4 ++ [.pollInit 2, .pollAdd 2 .reader pollin, .pollWait 2] ++
      writeAll 1 2 ++ List.replicate 4 (.proceed 0) ++ [.closeFd 1 .wronly] ++
      List.replicate 4 (.proceed 1)
  have run : (system (2 ^ 2)).Run _ _ :=
    .executed created events created_initial (by decide +kernel)
  exact ⟨_, _, run, by decide +kernel, no_lost_wakeup_throughout run (by decide +kernel)⟩

/-- Two readers wait; the one that the write wakes takes one byte of two and returns. -/
theorem partial_read_loses_wakeup : ¬ ∀ taken last, (system (2 ^ 2)).Run taken last →
      Throughout (NoLostWakeup : State (Fin 3) → Prop) taken last := by
  intro claim
  let events : List (Event (Fin 3)) :=
    bothOpen ++ readBlocks 0 1 ++ readBlocks 1 1 ++ writeAll 2 2 ++ List.replicate 4 (.proceed 0)
  have run : (system (2 ^ 2)).Run _ _ :=
    .executed created events created_initial (by decide +kernel)
  exact (claim _ _ run).1 (by decide +kernel) 1 .reader (by decide +kernel) (by decide +kernel)

end RtThread.PipeWaits
