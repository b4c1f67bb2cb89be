import RtThread.Drivers.PipeWakeups

/-!
# Every step leaves the sides attended

A step of a call is a move of its thread, a move and a wake-up, or the queueing of the thread.
-/

open Function (update_of_ne update_self)

namespace RtThread.PipeWaits

open RingBuffer Pipe

universe u

variable {Tid : Type u} [DecidableEq Tid]

variable {stage : Stage} {task : Option Task}

section

variable {s after : State Tid} {t : Tid} {side : Side}

@[simp] theorem setTask_self (s : State Tid) (t : Tid) (task : Option Task) :
    (s.setTask t task).task t = task := update_self _ _ _

omit [DecidableEq Tid] in
@[simp] theorem setQueue_self (s : State Tid) (side : Side) (queue : Wqueue Tid) :
    (s.setQueue side queue).queue side = queue := update_self _ _ _

omit [DecidableEq Tid] in
theorem setQueue_other (s : State Tid) (queue : Wqueue Tid) {other : Side}
    (distinct : other ≠ side) : (s.setQueue side queue).queue other = s.queue other :=
  update_of_ne distinct _ _

theorem moves_setTask (s : State Tid) (t : Tid) (task : Option Task) :
    Moves s (s.setTask t task) t := fun _ distinct => update_of_ne distinct _ _

section

omit [DecidableEq Tid]

theorem not_blocked_of_stage {job : Job} {nonblock : Bool}
    (held : s.task t = some (.transfer job nonblock stage)) (awake : stage ≠ .suspended)
    (side : Side) : ¬ Blocked s t side := by
  rintro ⟨job', nonblock', task, _⟩
  rw [held] at task
  exact awake (Task.transfer.inj (Option.some.inj task)).2.2

theorem tends_iff {task : Task} (held : s.task t = some task) :
    Tends s t side ↔ task.tends side (s.queue side).flag = true := by
  simp [Tends, held]

theorem waits_iff {task : Task} (held : s.task t = some task) :
    Waits s t side ↔ task.waits side = true := by
  simp [Waits, held]

theorem not_tends_of_none (held : s.task t = none) : ¬ Tends s t side := by
  simp [Tends, held]

theorem not_waits_of_none (held : s.task t = none) : ¬ Waits s t side := by
  simp [Waits, held]

theorem attended_of_tends (tends : Tends s t side) : Attended s side := fun _ _ => ⟨t, tends⟩

end

section

variable {capacity : Nat} {fifo rest : RtRingbuffer} {queue : BoundedQueue UInt8 capacity}
  {buf filled : Nat → UInt8} {length : UInt16} {len : Nat}

theorem lengths_get (holds : Holds fifo queue)
    (got : rtRingbufferGet fifo buf length = (rest, filled, len)) :
    (∃ after : BoundedQueue UInt8 capacity, Holds rest after) ∧
      len = min length.toNat (rtRingbufferDataLen fifo) ∧
      rtRingbufferDataLen rest = rtRingbufferDataLen fifo - len ∧
      rtRingbufferSpaceLen rest = rtRingbufferSpaceLen fifo + len := by
  obtain ⟨holdsRest, bytes⟩ := get_holds holds got
  have count := congrArg List.length bytes
  have bounded := queue.bounded
  simp only [List.length_map, List.length_range, List.length_take] at count
  refine ⟨⟨_, holdsRest⟩, ?_, ?_, ?_⟩
  · rw [holds.dataLen, count]
  · rw [holds.dataLen, holdsRest.dataLen, BoundedQueue.values_discard, List.length_drop]
    omega
  · rw [holds.spaceLen, holdsRest.spaceLen, BoundedQueue.space, BoundedQueue.space,
      BoundedQueue.values_discard, List.length_drop]
    omega

theorem lengths_put (holds : Holds fifo queue)
    (put : rtRingbufferPut fifo buf length = (rest, len)) :
    (∃ after : BoundedQueue UInt8 capacity, Holds rest after) ∧
      len = min length.toNat (rtRingbufferSpaceLen fifo) ∧
      rtRingbufferDataLen rest = rtRingbufferDataLen fifo + len ∧
      rtRingbufferSpaceLen rest = rtRingbufferSpaceLen fifo - len := by
  obtain ⟨after, holdsRest, values⟩ := put_holds holds put
  obtain ⟨_, answer⟩ := holds.perform (.put buf length)
  simp only [RingBuffer.perform, performFifo, put, Answer.stored.injEq] at answer
  have total := congrArg List.length values
  simp only [List.length_append, List.length_map, List.length_range] at total
  refine ⟨⟨_, holdsRest⟩, ?_, ?_, ?_⟩
  · rw [holds.spaceLen, answer]
  · rw [holds.dataLen, holdsRest.dataLen, total]
  · rw [holds.spaceLen, holdsRest.spaceLen, BoundedQueue.space, BoundedQueue.space, total]
    omega

end

theorem Sound.setTask (inv : Sound s) (within : ∀ new ∈ task, new.within)
    (awake : ∀ side, ¬ Blocked s t side) (stays : ∀ side, ¬ Blocked (s.setTask t task) t side)
    (locked : t ∈ s.lock → (∃ old ∈ s.task t, old.locked) → ∃ new ∈ task, new.locked) :
    Sound (s.setTask t task) := by
  refine inv.moves (moves_setTask s t task) (fun _ => rfl) ?_ awake stays ?_
    inv.holds inv.readers inv.writers
  · rwa [setTask_self]
  · intro other holds
    by_cases same : other = t
    · subst same
      refine .inr ⟨rfl, ?_⟩
      rw [setTask_self]
      exact locked holds (inv.holder other holds)
    · exact .inl ⟨same, holds⟩

/-- The thread goes on in the same way as far as `other` goes. -/
def SameFor (s : State Tid) (t : Tid) (task : Option Task) (other : Side) : Prop :=
  (Waits (s.setTask t task) t other → Waits s t other) ∧
    (Tends s t other → Tends (s.setTask t task) t other)

theorem Inv.setTask (inv : Inv s) (sound : Sound (s.setTask t task))
    (same : ∀ side, SameFor s t task side) : Inv (s.setTask t task) where
  sound := sound
  attended side := (inv.attended side).moves (moves_setTask s t task) id
    (by cases side <;> exact id)
    (same side).1 (same side).2

theorem Inv.wakes (inv : Inv s) {key : UInt16}
    (sound : Sound (s.setTask t task)) (stays : ∀ side, ¬ Blocked (s.setTask t task) t side)
    (wakesWell : WakesWell s t side key) (same : ∀ other, other ≠ side → SameFor s t task other) :
    Inv ((s.setTask t task).wakeup side key) := by
  have moves := moves_setTask s t task
  have ready : ∀ side, Ready (s.setTask t task) side → Ready s side := by
    intro side
    cases side <;> exact id
  refine ⟨sound.wakeup side key, fun other => ?_⟩
  by_cases isSide : other = side
  · subst isSide
    refine attended_wakeup sound other key ?_
    rintro polls isReady ⟨blocked, isBlocked⟩
    have distinct : blocked ≠ t := by
      rintro rfl
      exact stays other isBlocked
    obtain ⟨another, apart, tends⟩ := wakesWell polls (ready other isReady)
      ⟨blocked, (moves.blocked_iff distinct).mp isBlocked⟩
    exact ⟨another, moves.tends apart id tends⟩
  · have kept := same other isSide
    exact ((inv.attended other).moves moves id (ready other) kept.1 kept.2).wakeup_other sound
      isSide key

section Transfer

variable {job : Job} {nonblock : Bool}

omit [DecidableEq Tid] in
theorem Sound.within_job (inv : Sound s)
    (held : s.task t = some (.transfer job nonblock stage)) : Within job :=
  inv.within t (.transfer job nonblock stage) held

theorem Sound.setStage (inv : Sound s) {next : Stage}
    (held : s.task t = some (.transfer job nonblock stage)) (awake : stage ≠ .suspended)
    (stays : next ≠ .suspended)
    (locked : t ∈ s.lock → (Task.transfer job nonblock stage).locked = true →
      (Task.transfer job nonblock next).locked = true) :
    Sound (s.setTask t (some (.transfer job nonblock next))) := by
  refine inv.setTask ?_ (not_blocked_of_stage held awake)
    (not_blocked_of_stage (setTask_self _ _ _) stays) ?_
  · intro new isNew
    cases isNew
    exact inv.within_job held
  · rintro isHolder ⟨old, isOld, isLocked⟩
    rw [held] at isOld
    cases isOld
    exact ⟨_, rfl, locked isHolder isLocked⟩

theorem Sound.ends (inv : Sound s)
    (held : s.task t = some (.transfer job nonblock stage)) (awake : stage ≠ .suspended)
    (unlocked : t ∈ s.lock → (Task.transfer job nonblock stage).locked = false) :
    Sound (s.setTask t none) := by
  refine inv.setTask (by simp) (not_blocked_of_stage held awake) ?_ ?_
  · rintro side ⟨_, _, task, _⟩
    rw [setTask_self] at task
    exact absurd task.symm (Option.some_ne_none _)
  · rintro isHolder ⟨old, isOld, isLocked⟩
    rw [held] at isOld
    cases isOld
    exact absurd (isLocked.symm.trans (unlocked isHolder)) Bool.noConfusion

omit [DecidableEq Tid] in
theorem Sound.setQueue (inv : Sound s) {queue : Wqueue Tid}
    (calls_eq : calls queue.waitingList = calls (s.queue side).waitingList) :
    Sound (s.setQueue side queue) := by
  have all : ∀ other, calls ((s.setQueue side queue).queue other).waitingList =
      calls (s.queue other).waitingList := by
    intro other
    by_cases same : other = side
    · subst same
      rw [setQueue_self]
      exact calls_eq
    · rw [setQueue_other _ _ same]
  exact { inv with
    queued := fun other t => by
      rw [all]
      exact inv.queued other t
    once := fun other => by
      rw [all]
      exact inv.once other }

section

variable (inv : Inv s)

include inv

theorem Inv.passing {r : Result} (held : s.task t = some (.transfer job nonblock (.passing r)))
    (wakesWell : WakesWell s t .writer pollout) :
    Inv ((s.setTask t (some (.transfer job nonblock (.unlocking (.returns r))))).wakeup
      .writer pollout) := by
  refine inv.wakes (inv.sound.setStage held (by simp) (by simp) (by simp [Task.locked]))
    (not_blocked_of_stage (setTask_self _ _ _) (by simp)) wakesWell fun other distinct => ?_
  refine ⟨?_, ?_⟩
  · rw [waits_iff (setTask_self _ _ _)]
    simp [Task.waits, Stage.waits]
  · rw [tends_iff held]
    simp [Task.tends, Stage.looks, Stage.target, distinct.symm]

theorem Inv.ending {r : Result} (held : s.task t = some (.transfer job nonblock (.ending r)))
    (wakesWell : WakesWell s t .reader pollin) :
    Inv ((s.setTask t none).wakeup .reader pollin) := by
  refine inv.wakes (inv.sound.ends held (by simp) fun _ => rfl) ?_ wakesWell fun
    other distinct => ?_
  · rintro side ⟨_, _, task, _⟩
    rw [setTask_self] at task
    exact absurd task.symm (Option.some_ne_none _)
  · refine ⟨fun waits => absurd waits (not_waits_of_none (setTask_self _ _ _)), ?_⟩
    rw [tends_iff held]
    simp [Task.tends, Stage.looks, Stage.target, distinct.symm]

theorem Inv.waking (held : s.task t = some (.transfer job nonblock .waking)) {key : UInt16}
    (wakesWell : WakesWell s t job.side.other key) :
    Inv ((s.setTask t (some (.transfer job nonblock .waiting))).wakeup job.side.other key) := by
  refine inv.wakes (inv.sound.setStage held (by simp) (by simp) (by simp [Task.locked]))
    (not_blocked_of_stage (setTask_self _ _ _) (by simp)) wakesWell fun other distinct => ?_
  refine ⟨?_, ?_⟩
  · rw [waits_iff (setTask_self _ _ _), waits_iff held]
    simp [Task.waits, Stage.waits]
  · rw [tends_iff held, tends_iff (setTask_self _ _ _)]
    simp [Task.tends, Stage.looks, Stage.target, distinct.symm, State.setTask]

omit [DecidableEq Tid] in
theorem Inv.unlock : Inv { s with lock := none } :=
  ⟨{ inv.sound with holder := by simp }, inv.attended⟩

theorem Inv.unlocking {exit : Exit}
    (held : s.task t = some (.transfer job nonblock (.unlocking exit))) :
    Inv ({ s with lock := none }.setTask t
      (match exit with
      | .blocks => some (.transfer job nonblock .waking)
      | .ends r => some (.transfer job nonblock (.ending r))
      | .returns _ => none)) := by
  have released := inv.unlock
  have held' : { s with lock := none }.task t =
      some (.transfer job nonblock (.unlocking exit)) := held
  cases exit with
  | blocks | ends r =>
    refine released.setTask (released.sound.setStage held' (by simp) (by simp) (by simp))
      fun side => ?_
    rw [SameFor, waits_iff held', tends_iff held', waits_iff (setTask_self _ _ _),
      tends_iff (setTask_self _ _ _)]
    exact ⟨id, id⟩
  | returns r =>
    refine released.setTask (released.sound.ends held' (by simp) (by simp)) fun side => ?_
    refine ⟨fun waits => absurd waits (not_waits_of_none (setTask_self _ _ _)), ?_⟩
    rw [tends_iff held']
    simp [Task.tends, Stage.looks, Stage.target]

theorem Inv.lookAgain (held : s.task t = some (.transfer job nonblock stage))
    (stage_eq : stage = .waiting ∨ stage = .woken) :
    Inv ((s.setQueue job.side { s.queue job.side with flag := false }).setTask t
      (some (.transfer job nonblock .locking))) := by
  have awake : stage ≠ .suspended := by rcases stage_eq with rfl | rfl <;> simp
  have unlocked : (Task.transfer job nonblock stage).locked = false := by
    rcases stage_eq with rfl | rfl <;> rfl
  have noTarget : ∀ other, stage.target other = none := by
    rcases stage_eq with rfl | rfl <;> exact fun _ => rfl
  have cleared : Sound (s.setQueue job.side { s.queue job.side with flag := false }) :=
    inv.sound.setQueue rfl
  refine ⟨cleared.setStage held awake (by simp) (by simp [unlocked]), fun side => ?_⟩
  by_cases own : job.side = side
  · refine attended_of_tends ((tends_iff (setTask_self _ _ _)).mpr ?_)
    simp [Task.tends, own, Stage.looks]
  · have moves : Moves s _ t :=
      moves_setTask (s.setQueue job.side { s.queue job.side with flag := false }) t
        (some (.transfer job nonblock .locking))
    refine (inv.attended side).moves moves ?_ (by cases side <;> exact id) ?_ ?_
    · simp [State.setTask, State.setQueue, update_of_ne (Ne.symm own)]
    · rw [waits_iff (setTask_self _ _ _)]
      simp [Task.waits, Stage.waits]
    · rw [tends_iff held]
      simp [Task.tends, own, noTarget]

theorem Inv.suspends (held : s.task t = some (.transfer job nonblock .waiting))
    (noFlag : (s.queue job.side).flag = false) : Inv ((s.setQueue job.side
      { s.queue job.side with
        waitingList := (s.queue job.side).waitingList ++ [.wait t] }).setTask t
      (some (.transfer job nonblock .suspended))) := by
  have awake := not_blocked_of_stage held (by simp)
  generalize afterEq : (s.setQueue job.side
    { s.queue job.side with
      waitingList := (s.queue job.side).waitingList ++ [.wait t] }).setTask t
    (some (.transfer job nonblock .suspended)) = after
  have taken : after.task t = some (.transfer job nonblock .suspended) := by
    rw [← afterEq]
    exact setTask_self _ _ _
  have moves : Moves s after t := by
    rw [← afterEq]
    exact moves_setTask _ t _
  have queue : after.queue job.side = { s.queue job.side with
        waitingList := (s.queue job.side).waitingList ++ [.wait t] } := by
    rw [← afterEq]
    exact update_self _ _ _
  have elsewhere : ∀ other, other ≠ job.side → after.queue other = s.queue other := by
    rw [← afterEq]
    exact fun other distinct => update_of_ne distinct _ _
  have calls_eq : calls (after.queue job.side).waitingList =
      calls (s.queue job.side).waitingList ++ [t] := by
    rw [queue]
    exact List.filterMap_append
  have flag : ∀ side, (after.queue side).flag = (s.queue side).flag := by
    intro side
    by_cases own : side = job.side
    · rw [own, queue]
    · rw [elsewhere side own]
  have fresh : t ∉ calls (s.queue job.side).waitingList := fun queued =>
    awake job.side ((inv.sound.queued _ _).mp queued)
  have ready : ∀ side, Ready after side → Ready s side := by
    rw [← afterEq]
    intro side
    cases side <;> exact id
  refine ⟨⟨fun other => ?_, fun side other => ?_, fun side => ?_, fun other isHolder =>
    ?_, ?_, ?_, ?_⟩,
    fun side => ?_⟩
  · by_cases same : other = t
    · subst same
      rw [taken]
      intro new isNew
      cases isNew
      exact inv.sound.within_job held
    · rw [moves other same]
      exact inv.sound.within other
  · by_cases same : other = t
    · subst same
      by_cases own : side = job.side
      · subst own
        rw [calls_eq]
        exact iff_of_true (by simp) ⟨job, nonblock, taken, rfl⟩
      · rw [elsewhere side own, inv.sound.queued]
        refine iff_of_false (awake side) ?_
        rintro ⟨job', nonblock', task, ofSide⟩
        rw [taken] at task
        obtain ⟨rfl, _, _⟩ := Task.transfer.inj (Option.some.inj task)
        exact own ofSide.symm
    · rw [moves.blocked_iff same, ← inv.sound.queued]
      by_cases own : side = job.side
      · subst own
        rw [calls_eq, List.mem_append, List.mem_singleton, or_iff_left same]
      · rw [elsewhere side own]
  · by_cases own : side = job.side
    · subst own
      rw [calls_eq, ← List.concat_eq_append]
      exact List.Nodup.concat fresh (inv.sound.once _)
    · rw [elsewhere side own]
      exact inv.sound.once side
  · have earlier : other ∈ s.lock := by
      rw [← afterEq] at isHolder
      exact isHolder
    obtain ⟨task, isTask, locked⟩ := inv.sound.holder other earlier
    by_cases same : other = t
    · subst same
      rw [held] at isTask
      cases isTask
      exact absurd locked Bool.false_ne_true
    · exact ⟨task, (moves other same).trans isTask, locked⟩
  · rw [← afterEq]
    exact inv.sound.holds
  · rw [← afterEq]
    exact inv.sound.readers
  · rw [← afterEq]
    exact inv.sound.writers
  · refine (inv.attended side).moves moves (by rw [flag]; exact id) (ready side) ?_ ?_
    · rw [waits_iff taken, waits_iff held]
      exact id
    · rw [tends_iff held]
      by_cases own : job.side = side
      · subst own
        simp [Task.tends, Stage.looks, Stage.target, noFlag]
      · simp [Task.tends, Stage.target, own]

theorem Inv.locked {later : Job} {pipe : RtPipe}
    (held : s.task t = some (.transfer job nonblock .locking)) (sameSide : later.side = job.side)
    (within : Within later) (stays : stage ≠ .suspended)
    (locked : (Task.transfer later nonblock stage).locked = true)
    (holds : ∀ fifo ∈ pipe.fifo, ∃ capacity, ∃ queue : BoundedQueue UInt8 capacity,
      Holds fifo queue)
    (readers : pipe.readers = s.pipe.readers) (writers : pipe.writers = s.pipe.writers)
    (own : Ready { s with pipe } job.side →
      ((∀ other, other ≠ t → ¬ Waits s other job.side) ∧ stage.waits = false) ∨
    LeftToAnother s t job.side)
    (other : stage.target job.side.other = some job.side.other ∨
      (Ready { s with pipe } job.side.other → Ready s job.side.other)) :
    
    Inv ({ s with pipe, lock := some t }.setTask t
      (some (.transfer later nonblock stage))) := by
  generalize afterEq : { s with pipe, lock := some t }.setTask t
    (some (.transfer later nonblock stage)) = after
  have taken : after.task t = some (.transfer later nonblock stage) := by
    rw [← afterEq]
    exact setTask_self _ _ _
  have moves : Moves s after t := by
    rw [← afterEq]
    exact moves_setTask { s with pipe, lock := some t } t _
  have queue : after.queue = s.queue := by
    rw [← afterEq]
    rfl
  have ready : ∀ side, Ready after side → Ready { s with pipe } side := by
    rw [← afterEq]
    intro side
    cases side <;> exact id
  have flag : ∀ side, (s.queue side).flag = true → (after.queue side).flag = true := by
    rw [queue]
    exact fun _ => id
  refine ⟨inv.sound.moves moves (by simp [queue]) ?_ (not_blocked_of_stage held (by simp))
    (not_blocked_of_stage taken stays) ?_ ?_ ?_ ?_, fun side => ?_⟩
  · rw [taken]
    intro new isNew
    cases isNew
    exact within
  · intro u isHolder
    rw [← afterEq] at isHolder
    cases isHolder
    exact .inr ⟨rfl, _, taken, locked⟩
  · rw [← afterEq]
    exact holds
  · rw [← afterEq]
    exact readers.trans inv.sound.readers
  · rw [← afterEq]
    exact writers.trans inv.sound.writers
  · by_cases isOwn : side = job.side
    · subst isOwn
      refine Attended.leaves moves (flag _) fun isReady => ?_
      refine (own (ready _ isReady)).imp_left (And.imp_right fun notItself => ?_)
      rw [waits_iff taken]
      simp [Task.waits, notItself]
    · have isOther : side = job.side.other := by
        cases side <;> cases sideEq : job.side <;> simp_all [Side.other]
      subst isOther
      rcases other with target | noMore
      · refine attended_of_tends ((tends_iff taken).mpr ?_)
        simp [Task.tends, sameSide, target]
      · refine (inv.attended _).moves moves (flag _) (fun isReady => noMore (ready _ isReady)) ?_ ?_
        · rw [waits_iff taken]
          simp [Task.waits, sameSide, Ne.symm isOwn]
        · rw [tends_iff held]
          simp [Task.tends, Stage.target, Ne.symm isOwn]

end

end Transfer

omit [DecidableEq Tid] in
theorem Sound.openWriters_ne_zero (inv : Sound s) (writers : s.pipe.writers ≠ 0) :
    s.openWriters ≠ 0 := by
  intro none
  exact writers (by rw [inv.writers, none]; rfl)

omit [DecidableEq Tid] in
theorem Sound.openReaders_ne_zero (inv : Sound s) (readers : s.pipe.readers ≠ 0) :
    s.openReaders ≠ 0 := by
  intro none
  exact readers (by rw [inv.readers, none]; rfl)

theorem cut_le (length : Nat) : cut length ≤ length := by
  exact Nat.mod_le _ _

theorem Inv.lockedRead (inv : Inv s) {nonblock : Bool} {buf : Nat → UInt8} {n : Nat}
    (held : s.task t = some (.transfer (.read buf n) nonblock .locking))
    (locksWell : LocksWell s t nonblock (.read buf n))
    (step : lockedStep s t (.read buf n) nonblock = some after) : Inv after := by
  simp only [lockedStep, pipeFopsRead] at step
  by_cases noWriters : s.pipe.writers = 0
  · simp only [noWriters, if_true, Option.map_some, Option.some.injEq] at step
    subst step
    refine inv.locked held rfl trivial (by simp) rfl inv.sound.holds rfl rfl ?_ (.inr id)
    intro ready
    have leaves : ReadLeaves s n := by
      rcases ready with data | none
      · exact .inr (by rw [if_pos noWriters]; exact Nat.pos_of_ne_zero data)
      · exact .inl none
    exact (locksWell leaves).imp_left (And.imp_right fun _ => rfl)
  · rcases holder : s.pipe.fifo with _ | fifo
    · simp [noWriters, holder] at step
    · obtain ⟨capacity, queue, holds⟩ := inv.sound.holds fifo holder
      rcases got : rtRingbufferGet fifo buf (.ofNat n) with ⟨rest, filled, len⟩
      obtain ⟨⟨afterQueue, holdsRest⟩, len_eq, data, space⟩ := lengths_get holds got
      have dataLen : s.dataLen = rtRingbufferDataLen fifo := by simp [State.dataLen, holder]
      have spaceLen : s.spaceLen = rtRingbufferSpaceLen fifo := by simp [State.spaceLen, holder]
      generalize pipeEq : ({ s.pipe with fifo := some rest } : RtPipe) = pipe at *
      have holdsAfter : ∀ fifo ∈ pipe.fifo, ∃ capacity,
          ∃ queue : BoundedQueue UInt8 capacity, Holds fifo queue := by
        rw [← pipeEq]
        intro fifo isRest
        cases isRest
        exact ⟨capacity, afterQueue, holdsRest⟩
      have beyond : Ready { s with pipe } .reader → cut n < s.dataLen := by
        rw [← pipeEq]
        rintro (left | none)
        · have : rtRingbufferDataLen rest ≠ 0 := left
          rw [cut]
          omega
        · exact absurd none (inv.sound.openWriters_ne_zero noWriters)
      have well : Ready { s with pipe } .reader →
          ((∀ other, other ≠ t → ¬ Waits s other .reader) ∧
            (cut n ≠ 0 ∨ nonblock = true)) ∨ LeftToAnother s t .reader := by
        intro ready
        have leaves : ReadLeaves s n := .inr (by rw [if_neg noWriters]; exact beyond ready)
        exact (locksWell leaves).imp_left (And.imp_right fun transfers => transfers noWriters)
      have readers : pipe.readers = s.pipe.readers := by rw [← pipeEq]
      have writers : pipe.writers = s.pipe.writers := by rw [← pipeEq]
      simp only [noWriters, if_false, holder, Option.map_some, got, Option.some.injEq,
        pipeEq] at step
      subst step
      by_cases some : 0 < len
      · have bytes : (List.range len).map filled ≠ [] := by simp; omega
        simp only [some, bytes]
        refine inv.locked held rfl trivial (by simp) rfl holdsAfter readers writers ?_ (.inl rfl)
        exact fun ready => (well ready).imp_left (And.imp_right fun _ => rfl)
      · have bytes : (List.range len).map filled = [] := by simp; omega
        cases nonblock with
        | true =>
          simp only [some, bytes]
          refine inv.locked held rfl trivial (by simp) rfl holdsAfter readers writers ?_ (.inr ?_)
          · exact fun ready => (well ready).imp_left (And.imp_right fun _ => rfl)
          · rw [← pipeEq]
            refine Or.imp_left fun (room : rtRingbufferSpaceLen rest ≠ 0) => ?_
            omega
        | false =>
          simp only [some]
          refine inv.locked held rfl trivial (by simp) rfl holdsAfter readers writers ?_ (.inl rfl)
          intro ready
          refine (well ready).imp_left (And.imp_right fun transfers => ?_)
          have more := beyond ready
          rw [cut] at more transfers
          simp only [Bool.false_eq_true, or_false] at transfers
          omega

theorem Inv.lockedWrite (inv : Inv s) {nonblock : Bool} {buf : Nat → UInt8} {n ret : Nat}
    {wakeup : Bool} (held : s.task t = some (.transfer (.write buf n ret wakeup) nonblock .locking))
    (locksWell : LocksWell s t nonblock (.write buf n ret wakeup))
    (step : lockedStep s t (.write buf n ret wakeup) nonblock = some after) : Inv after := by
  have within : ret ≤ n := inv.sound.within_job held
  simp only [lockedStep, pipeFopsWrite] at step
  by_cases noReaders : s.pipe.readers = 0
  · simp only [noReaders, if_true, Option.map_some,
      Option.some.injEq] at step
    subst step
    have own : Ready s .writer →
        ((∀ other, other ≠ t → ¬ Waits s other .writer) ∧ True) ∨
          LeftToAnother s t .writer := by
      intro ready
      have leaves : WriteLeaves s (n - ret) := by
        rcases ready with room | none
        · exact .inr (by rw [if_pos noReaders]; exact Nat.pos_of_ne_zero room)
        · exact .inl none
      exact (locksWell leaves).imp_left (And.imp_right fun _ => trivial)
    cases wakeup with
    | true | false =>
      refine inv.locked held rfl within (by simp) rfl inv.sound.holds rfl rfl ?_ (.inr id)
      exact fun ready => (own ready).imp_left (And.imp_right fun _ => rfl)
  · rcases holder : s.pipe.fifo with _ | fifo
    · simp [noReaders, holder] at step
    · obtain ⟨capacity, queue, holds⟩ := inv.sound.holds fifo holder
      rcases put : rtRingbufferPut fifo (fun i => buf (ret + i)) (.ofNat (n - ret)) with
        ⟨rest, len⟩
      obtain ⟨⟨afterQueue, holdsRest⟩, len_eq, data, space⟩ := lengths_put holds put
      have spaceLen : s.spaceLen = rtRingbufferSpaceLen fifo := by simp [State.spaceLen, holder]
      have short : len ≤ n - ret := by
        rw [len_eq]
        exact (Nat.min_le_left _ _).trans (cut_le _)
      generalize pipeEq : ({ s.pipe with fifo := some rest } : RtPipe) = pipe at *
      have holdsAfter : ∀ fifo ∈ pipe.fifo, ∃ capacity,
          ∃ queue : BoundedQueue UInt8 capacity, Holds fifo queue := by
        rw [← pipeEq]
        intro fifo isRest
        cases isRest
        exact ⟨capacity, afterQueue, holdsRest⟩
      have beyond : Ready { s with pipe } .writer → cut (n - ret) < s.spaceLen := by
        rw [← pipeEq]
        rintro (left | none)
        · have : rtRingbufferSpaceLen rest ≠ 0 := left
          rw [cut]
          omega
        · exact absurd none (inv.sound.openReaders_ne_zero noReaders)
      have well : Ready { s with pipe } .writer →
          ((∀ other, other ≠ t → ¬ Waits s other .writer) ∧
            (cut (n - ret) = n - ret ∨ nonblock = true)) ∨
          LeftToAnother s t .writer := by
        intro ready
        have leaves : WriteLeaves s (n - ret) := .inr (by rw [if_neg noReaders]; exact beyond ready)
        exact (locksWell leaves).imp_left (And.imp_right fun transfers => transfers noReaders)
      have readers : pipe.readers = s.pipe.readers := by rw [← pipeEq]
      have writers : pipe.writers = s.pipe.writers := by rw [← pipeEq]
      simp only [noReaders, if_false, holder, Option.map_some, put, Option.some.injEq, pipeEq,
        ne_eq, not_false_eq_true, or_true] at step
      subst step
      by_cases complete : ret + len = n
      · simp only [complete]
        refine inv.locked held rfl within (by simp) rfl holdsAfter readers writers ?_ (.inl rfl)
        exact fun ready => (well ready).imp_left (And.imp_right fun _ => rfl)
      · cases nonblock with
        | true =>
          simp only [complete]
          refine inv.locked held rfl within (by simp) rfl holdsAfter readers writers ?_ (.inl rfl)
          exact fun ready => (well ready).imp_left (And.imp_right fun _ => rfl)
        | false =>
          simp only [complete]
          refine inv.locked held rfl (by simp only [Within]; omega) (by simp) rfl holdsAfter
            readers writers ?_ (.inl rfl)
          intro ready
          refine (well ready).imp_left (And.imp_right fun transfers => ?_)
          have more := beyond ready
          rw [cut] at more transfers
          simp only [Bool.false_eq_true, or_false] at transfers
          omega

end

end RtThread.PipeWaits
