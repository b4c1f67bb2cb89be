import RtThread.Drivers.PipeDelivery

/-!
# No lost wake-up at a pipe

As long as a call waits that has something to do, some thread sees to its side: it looks at the
ring buffer itself, or is on its way to wake the side.
-/

namespace RtThread.PipeWaits

open RingBuffer Pipe
open Function (update_of_ne update_self update)

universe u

def Stage.waits : Stage → Bool
  | .unlocking .blocks | .waking | .waiting | .suspended => true
  | _ => false

def Stage.looks (flag : Bool) : Stage → Bool
  | .locking | .woken => true
  | .unlocking .blocks | .waking | .waiting => flag
  | _ => false

/-- The side that a read or write still wakes; `other` is the one it does not belong to. -/
def Stage.target (other : Side) : Stage → Option Side
  | .passing _ => some .writer
  | .unlocking .blocks | .waking => some other
  | .unlocking (.ends _) | .ending _ => some .reader
  | _ => none

def Task.waits (side : Side) : Task → Bool
  | .transfer job _ stage => job.side = side ∧ stage.waits
  | _ => false

def Task.tends (side : Side) (flag : Bool) : Task → Bool
  | .transfer job _ stage =>
    (job.side = side ∧ stage.looks flag) ∨ stage.target job.side.other = some side
  | .close _ (.hangingUp sides) => side ∈ sides
  | _ => false

variable {Tid : Type u} [DecidableEq Tid]

def Waits (s : State Tid) (t : Tid) (side : Side) : Prop :=
  ∃ task ∈ s.task t, task.waits side

def Tends (s : State Tid) (t : Tid) (side : Side) : Prop :=
  ∃ task ∈ s.task t, task.tends side (s.queue side).flag

def LeftToAnother (s : State Tid) (t : Tid) (side : Side) : Prop :=
  ∃ other, other ≠ t ∧ Tends s other side

def cut (length : Nat) : Nat := (UInt16.ofNat length).toNat

def ReadLeaves (s : State Tid) (count : Nat) : Prop :=
  s.openWriters = 0 ∨ (if s.pipe.writers = 0 then 0 else cut count) < s.dataLen

def WriteLeaves (s : State Tid) (length : Nat) : Prop :=
  s.openReaders = 0 ∨ (if s.pipe.readers = 0 then 0 else cut length) < s.spaceLen

def LocksWell (s : State Tid) (t : Tid) (nonblock : Bool) : Job → Prop
  | .read _ count => ReadLeaves s count →
      ((∀ other, other ≠ t → ¬ Waits s other .reader) ∧
        (s.pipe.writers ≠ 0 → cut count ≠ 0 ∨ nonblock = true)) ∨
      LeftToAnother s t .reader
  | .write _ count ret _ => WriteLeaves s (count - ret) →
      ((∀ other, other ≠ t → ¬ Waits s other .writer) ∧
        (s.pipe.readers ≠ 0 → cut (count - ret) = count - ret ∨ nonblock = true)) ∨
      LeftToAnother s t .writer

def WakesWell (s : State Tid) (t : Tid) (side : Side) (key : UInt16) : Prop :=
  (∃ owner i own, (s.queue side).waitingList.find? (Entry.accepts key) = some (.node owner i own)) →
  Ready s side → (∃ blocked, Blocked s blocked side) → LeftToAnother s t side

def ProceedsWell (s : State Tid) (t : Tid) : Option Task → Prop
  | some (.transfer job nonblock .locking) => LocksWell s t nonblock job
  | some (.transfer _ _ (.passing _)) => WakesWell s t .writer pollout
  | some (.transfer job _ .waking) => WakesWell s t job.side.other (Side.key job.side.other)
  | some (.transfer _ _ (.ending _)) => WakesWell s t .reader pollin
  | some (.close _ (.hangingUp (side :: _))) =>
    WakesWell s t side (Side.key side ||| pollerr ||| pollhup)
  | _ => True

/-- The condition on a step; an open that finds `ref_count` at 0 finds no descriptor open. -/
def PassesOn (s : State Tid) : Event Tid → Prop
  | .openFd _ _ => s.pipe.refCount = 0 → ∀ mode, s.opened mode = 0
  | .proceed t => ProceedsWell s t (s.task t)
  | _ => True

def calls (entries : List (Entry Tid)) : List Tid :=
  entries.filterMap fun
    | .wait t => some t
    | .node .. => none

def Task.locked : Task → Bool
  | .transfer _ _ (.passing _) | .transfer _ _ (.unlocking _) => true
  | .close _ (.hangingUp _) => true
  | _ => false

def Within : Job → Prop
  | .read .. => True
  | .write _ count ret _ => ret ≤ count

def Task.within : Task → Prop
  | .transfer job _ _ => Within job
  | _ => True

def Attended (s : State Tid) (side : Side) : Prop :=
  Ready s side → (∃ t, Waits s t side) → ∃ t, Tends s t side

/-- The queues hold the blocked calls, the holder of the lock is about to release it, and the
counters are those of the open descriptors. -/
structure Sound (s : State Tid) : Prop where
  within : ∀ t, ∀ task ∈ s.task t, task.within
  queued : ∀ side t, t ∈ calls (s.queue side).waitingList ↔ Blocked s t side
  once : ∀ side, (calls (s.queue side).waitingList).Nodup
  holder : ∀ t ∈ s.lock, ∃ task ∈ s.task t, task.locked
  holds : ∀ fifo ∈ s.pipe.fifo, ∃ capacity, ∃ queue : BoundedQueue UInt8 capacity, Holds fifo queue
  readers : s.pipe.readers = UInt8.ofNat s.openReaders
  writers : s.pipe.writers = UInt8.ofNat s.openWriters

structure Inv (s : State Tid) : Prop where
  sound : Sound s
  attended : ∀ side, Attended s side

section

omit [DecidableEq Tid]

theorem Inv.noLostWakeup {s : State Tid} (inv : Inv s) : NoLostWakeup s := by
  intro resting t side blocked ready
  have unlocked : s.lock = none := by
    rcases lock : s.lock with _ | holder
    · rfl
    · obtain ⟨task, held, locked⟩ := inv.sound.holder holder lock
      have rests := resting holder
      rw [held] at rests
      cases task with
      | transfer job nonblock stage =>
        rcases rests with rfl | ⟨rfl, _⟩ <;> exact absurd locked Bool.false_ne_true
      | close mode stage =>
        obtain ⟨rfl, _⟩ := rests
        exact absurd locked Bool.false_ne_true
      | poll table => exact absurd locked Bool.false_ne_true
  obtain ⟨job, nonblock, task, ofSide⟩ := blocked
  have waits : Waits s t side := ⟨_, task, by simp [Task.waits, ofSide, Stage.waits]⟩
  obtain ⟨other, task, held, tends⟩ := inv.attended side ready ⟨t, waits⟩
  have rests := resting other
  rw [held] at rests
  cases task with
  | transfer job nonblock stage =>
    rcases rests with rfl | ⟨rfl, busy⟩
    · simp [Task.tends, Stage.looks, Stage.target] at tends
    · exact busy unlocked
  | close mode stage => exact rests.2 unlocked
  | poll table => exact absurd tends Bool.false_ne_true

theorem Stage.looks_mono {flag later : Bool} (kept : flag = true → later = true) {stage : Stage}
    (looks : stage.looks flag = true) : stage.looks later = true := by
  cases stage with
  | unlocking exit =>
    cases exit with
    | blocks => exact kept looks
    | ends r | returns r => exact looks
  | waking | waiting => exact kept looks
  | locking | woken | suspended | passing r | ending r => exact looks

theorem Task.tends_mono {side : Side} {flag later : Bool} (kept : flag = true → later = true)
    {task : Task} (tends : task.tends side flag) : task.tends side later := by
  cases task with
  | transfer job nonblock stage =>
    simp only [Task.tends, decide_eq_true_eq] at tends ⊢
    exact tends.imp_left fun ⟨own, looks⟩ => ⟨own, Stage.looks_mono kept looks⟩
  | close mode stage => cases stage <;> exact tends
  | poll table => exact tends

end

/-- `after` differs from `s` in what `t` does only, as far as threads go. -/
def Moves (s after : State Tid) (t : Tid) : Prop :=
  ∀ other, other ≠ t → after.task other = s.task other

section Moves

variable {s after : State Tid} {t : Tid} {side : Side}

section

omit [DecidableEq Tid]

theorem Moves.blocked_iff (moves : Moves s after t) {other : Tid} (distinct : other ≠ t) :
    Blocked after other side ↔ Blocked s other side := by
  simp only [Blocked, moves other distinct]

theorem Moves.waits_iff (moves : Moves s after t) {other : Tid} (distinct : other ≠ t) :
    Waits after other side ↔ Waits s other side := by
  simp only [Waits, moves other distinct]

theorem Moves.tends (moves : Moves s after t) {other : Tid} (distinct : other ≠ t)
    (flag : (s.queue side).flag = true → (after.queue side).flag = true)
    (tends : Tends s other side) : Tends after other side := by
  obtain ⟨task, held, tends⟩ := tends
  exact ⟨task, (moves other distinct).trans held, task.tends_mono flag tends⟩

theorem Attended.moves (attended : Attended s side) (moves : Moves s after t)
    (flag : (s.queue side).flag = true → (after.queue side).flag = true)
    (ready : Ready after side → Ready s side) (waits : Waits after t side → Waits s t side)
    (tends : Tends s t side → Tends after t side) : Attended after side := by
  intro isReady ⟨waiting, waitsFor⟩
  have earlier : Waits s waiting side := by
    by_cases same : waiting = t
    · subst same
      exact waits waitsFor
    · exact (moves.waits_iff same).mp waitsFor
  obtain ⟨other, seesTo⟩ := attended (ready isReady) ⟨waiting, earlier⟩
  by_cases same : other = t
  · subst same
    exact ⟨other, tends seesTo⟩
  · exact ⟨other, moves.tends same flag seesTo⟩

theorem Attended.leaves (moves : Moves s after t)
    (flag : (s.queue side).flag = true → (after.queue side).flag = true)
    (leaves : Ready after side →
      ((∀ other, other ≠ t → ¬ Waits s other side) ∧ ¬ Waits after t side) ∨
        LeftToAnother s t side) : Attended after side := by
  intro isReady ⟨waiting, waitsFor⟩
  rcases leaves isReady with ⟨nobody, notItself⟩ | ⟨other, distinct, tends⟩
  · by_cases same : waiting = t
    · subst same
      exact absurd waitsFor notItself
    · exact absurd ((moves.waits_iff same).mp waitsFor) (nobody waiting same)
  · exact ⟨other, moves.tends distinct flag tends⟩

theorem Sound.moves (inv : Sound s) (moves : Moves s after t) (calls_eq : ∀ side,
      calls (after.queue side).waitingList = calls (s.queue side).waitingList)
    (within : ∀ task ∈ after.task t, task.within)
    (awake : ∀ side, ¬ Blocked s t side) (stays : ∀ side, ¬ Blocked after t side)
    (holder : ∀ other ∈ after.lock,
      (other ≠ t ∧ other ∈ s.lock) ∨ (other = t ∧ ∃ task ∈ after.task t, task.locked))
    (holds : ∀ fifo ∈ after.pipe.fifo, ∃ capacity,
      ∃ queue : BoundedQueue UInt8 capacity, Holds fifo queue)
    (readers : after.pipe.readers = UInt8.ofNat after.openReaders)
    (writers : after.pipe.writers = UInt8.ofNat after.openWriters) : Sound after where
  within other := by
    by_cases same : other = t
    · subst same
      exact within
    · rw [moves other same]
      exact inv.within other
  queued side other := by
    rw [calls_eq, inv.queued]
    by_cases same : other = t
    · subst same
      exact iff_of_false (awake side) (stays side)
    · exact (moves.blocked_iff same).symm
  once side := calls_eq side ▸ inv.once side
  holder other holds := by
    rcases holder other holds with ⟨distinct, earlier⟩ | ⟨rfl, locked⟩
    · rw [moves other distinct]
      exact inv.holder other earlier
    · exact locked
  holds := holds
  readers := readers
  writers := writers

end

end Moves

omit [DecidableEq Tid] in
@[simp] theorem calls_cons_wait (t : Tid) (entries : List (Entry Tid)) :
    calls (.wait t :: entries) = t :: calls entries := rfl

omit [DecidableEq Tid] in
@[simp] theorem calls_cons_node (t : Tid) (i : Nat) (key : UInt16) (entries : List (Entry Tid)) :
    calls (.node t i key :: entries) = calls entries := rfl

/-- What the loop of `rt_wqueue_wakeup` stops at: the first call of the queue, unless the node
of a poll is in front of it. -/
inductive Found (entries : List (Entry Tid)) (key : UInt16) : Option (Entry Tid) → Prop where
  | nobody : calls entries = [] → Found entries key none
  | call {t : Tid} : calls entries = t :: calls (entries.eraseP (Entry.accepts key)) →
      Found entries key (some (.wait t))
  | node {t : Tid} {i : Nat} {own : UInt16} :
      calls (entries.eraseP (Entry.accepts key)) = calls entries →
      Found entries key (some (.node t i own))

omit [DecidableEq Tid] in
theorem found (entries : List (Entry Tid)) (key : UInt16) :
    Found entries key (entries.find? (Entry.accepts key)) := by
  induction entries with
  | nil => exact .nobody rfl
  | cons e entries ih =>
    cases e with
    | wait t =>
      refine .call ?_
      rfl
    | node t i own =>
      by_cases accepts : Entry.accepts key (.node t i own) = true
      · rw [List.find?_cons_of_pos accepts]
        refine .node ?_
        rw [List.eraseP_cons_of_pos accepts]
        rfl
      · rw [List.find?_cons_of_neg accepts]
        generalize result : entries.find? (Entry.accepts key) = found at ih
        cases ih with
        | nobody none => exact .nobody none
        | call head =>
          refine .call ?_
          rw [List.eraseP_cons_of_neg accepts]
          exact head
        | node same =>
          refine .node ?_
          rw [List.eraseP_cons_of_neg accepts]
          exact same

inductive Woken (s after : State Tid) (side : Side) (key : UInt16) : Prop where
  | nobody (noCall : ∀ t, ¬ Blocked s t side)
      (task : ∀ t, after.task t = s.task t)
      (calls_eq : calls (after.queue side).waitingList = calls (s.queue side).waitingList)
  | call {t : Tid} {job : Job} {nonblock : Bool}
      (suspended : s.task t = some (.transfer job nonblock .suspended))
      (own : job.side = side)
      (task : after.task = update s.task t (some (.transfer job nonblock .woken)))
      (calls_eq : calls (s.queue side).waitingList = t :: calls (after.queue side).waitingList)
  | node {t : Tid} {i : Nat} {own : UInt16}
      (found : (s.queue side).waitingList.find? (Entry.accepts key) = some (.node t i own))
      (task : ∀ t, after.task t = s.task t ∨
        (∃ table, s.task t = some (.poll table)) ∧ ∃ table, after.task t = some (.poll table))
      (calls_eq : calls (after.queue side).waitingList = calls (s.queue side).waitingList)

structure Beside (s after : State Tid) (side : Side) : Prop where
  pipe : after.pipe = s.pipe
  lock : after.lock = s.lock
  opened : after.opened = s.opened
  flag : (after.queue side).flag = true
  queue : ∀ other, other ≠ side → after.queue other = s.queue other

section

variable {s after : State Tid} {t : Tid} {side : Side} {key : UInt16}

theorem wakeup_beside (s : State Tid) (side : Side) (key : UInt16) :
    Beside s (s.wakeup side key) side := by
  have set_eq : Beside s
      (s.setQueue side
        ⟨true, (s.queue side).waitingList.eraseP (Entry.accepts key)⟩) side :=
    { pipe := rfl, lock := rfl, opened := rfl
      flag := by simp [State.setQueue]
      queue := fun other distinct => update_of_ne distinct _ _ }
  simp only [State.wakeup]
  split
  · rename_i e _
    cases e with
    | wait t | node t i own =>
      simp only [State.resume]
      split
      · exact { set_eq with }
      · exact set_eq
  · exact set_eq

theorem wakeup_woken (inv : Sound s) (side : Side) (key : UInt16) :
    Woken s (s.wakeup side key) side key := by
  have found := found (s.queue side).waitingList key
  have queue_eq : ∀ e, ((s.setQueue side ⟨true, (s.queue side).waitingList.eraseP
        (Entry.accepts key)⟩).resume e).queue side =
      ⟨true, (s.queue side).waitingList.eraseP (Entry.accepts key)⟩ := by
    intro e
    cases e <;> simp only [State.resume] <;> split <;>
      simp [State.setTask, State.setQueue]
  simp only [State.wakeup]
  generalize result : (s.queue side).waitingList.find? (Entry.accepts key) = e at found ⊢
  cases found with
  | nobody none =>
    have noCall : ∀ t, ¬ Blocked s t side := by
      intro t blocked
      have queued := (inv.queued side t).mpr blocked
      rw [none] at queued
      exact absurd queued List.not_mem_nil
    refine .nobody noCall (fun _ => rfl) ?_
    have fewer : calls ((s.queue side).waitingList.eraseP (Entry.accepts key)) = [] := by
      have sub := (List.eraseP_sublist (p := Entry.accepts key)
        (l := (s.queue side).waitingList)).filterMap (fun
          | .wait t => some t
          | .node .. => Option.none)
      exact List.sublist_nil.mp (none ▸ sub)
    simp only [State.setQueue, update_self]
    rw [fewer, none]
  | @call t head =>
    have isCall : Blocked s t side := (inv.queued side t).mp (head ▸ List.mem_cons_self)
    obtain ⟨job, nonblock, suspended, own⟩ := isCall
    refine .call suspended own ?_ ?_
    · simp only [State.resume, State.setQueue, suspended]
      rfl
    · rw [queue_eq]
      exact head
  | @node t i own same =>
    refine .node result ?_ ?_
    · intro other
      simp only [State.resume]
      split
      · rename_i table polls
        by_cases isOwner : other = t
        · subst isOwner
          exact .inr ⟨⟨table, polls⟩, _, update_self _ _ _⟩
        · exact .inl (update_of_ne isOwner _ _)
      · exact .inl rfl
    · rw [queue_eq]
      exact same

section

variable
  (task : after.task t = s.task t ∨
    (∃ table, s.task t = some (.poll table)) ∧ ∃ table, after.task t = some (.poll table))

include task

section

omit [DecidableEq Tid]

theorem blocked_iff_of_polls : Blocked after t side ↔ Blocked s t side := by
  rcases task with same | ⟨⟨table, before⟩, table', behind⟩
  · simp only [Blocked, same]
  · simp [Blocked, before, behind]

theorem waits_iff_of_polls : Waits after t side ↔ Waits s t side := by
  rcases task with same | ⟨⟨table, before⟩, table', behind⟩
  · simp only [Waits, same]
  · simp [Waits, before, behind, Task.waits]

theorem tends_of_polls (flag : (s.queue side).flag = true → (after.queue side).flag = true)
    (tends : Tends s t side) : Tends after t side := by
  obtain ⟨task', held, tends⟩ := tends
  rcases task with same | ⟨⟨table, before⟩, _⟩
  · exact ⟨task', same.trans held, task'.tends_mono flag tends⟩
  · rw [before] at held
    cases held
    exact absurd tends Bool.false_ne_true

end

end

omit [DecidableEq Tid] in
theorem Beside.ready_iff (beside : Beside s after side) (other : Side) :
    Ready after other ↔ Ready s other := by
  cases other <;>
    simp only [Ready, State.dataLen, State.spaceLen, State.openReaders, State.openWriters,
      beside.pipe, beside.opened]

theorem Sound.wakeup (inv : Sound s) (side : Side) (key : UInt16) : Sound (s.wakeup side key) := by
  have beside := wakeup_beside s side key
  have woken := wakeup_woken inv side key
  generalize s.wakeup side key = after at beside woken
  have holds : ∀ fifo ∈ after.pipe.fifo, ∃ capacity,
      ∃ queue : BoundedQueue UInt8 capacity, Holds fifo queue := beside.pipe ▸ inv.holds
  have readers : after.pipe.readers = UInt8.ofNat after.openReaders := by
    rw [State.openReaders, beside.pipe, beside.opened]
    exact inv.readers
  have writers : after.pipe.writers = UInt8.ofNat after.openWriters := by
    rw [State.openWriters, beside.pipe, beside.opened]
    exact inv.writers
  have polls : (∀ t, after.task t = s.task t ∨ (∃ table, s.task t = some (.poll table)) ∧
      ∃ table, after.task t = some (.poll table)) →
      calls (after.queue side).waitingList = calls (s.queue side).waitingList →
      Sound after := by
    intro task calls_eq
    have all : ∀ other, calls (after.queue other).waitingList =
        calls (s.queue other).waitingList := by
      intro other
      by_cases same : other = side
      · subst same
        exact calls_eq
      · rw [beside.queue other same]
    refine ⟨fun t => ?_, fun other t => ?_, fun other => all other ▸ inv.once other, ?_, holds,
      readers, writers⟩
    · rcases task t with same | ⟨_, table, behind⟩
      · rw [same]
        exact inv.within t
      · rw [behind]
        intro poll isPoll
        cases isPoll
        trivial
    · rw [all, inv.queued, blocked_iff_of_polls (task t)]
    · intro t isHolder
      obtain ⟨locking, held, locked⟩ := inv.holder t (beside.lock ▸ isHolder)
      rcases task t with same | ⟨⟨table, before⟩, _⟩
      · exact ⟨locking, same.trans held, locked⟩
      · rw [before] at held
        cases held
        exact absurd locked Bool.false_ne_true
  cases woken with
  | nobody _ task calls_eq => exact polls (fun t => .inl (task t)) calls_eq
  | node _ task calls_eq => exact polls task calls_eq
  | @call t job nonblock suspended own task calls_eq =>
    have once := inv.once side
    rw [calls_eq, List.nodup_cons] at once
    have others : ∀ other, other ≠ t → after.task other = s.task other := by
      intro other distinct
      rw [task, update_of_ne distinct]
    have taken : after.task t = some (.transfer job nonblock .woken) := by rw [task, update_self]
    refine ⟨fun u => ?_, fun other u => ?_, fun other => ?_, ?_, holds, readers, writers⟩
    · by_cases isT : u = t
      · subst isT
        rw [taken]
        intro woken isWoken
        cases isWoken
        exact inv.within u (.transfer job nonblock .suspended) suspended
      · rw [others u isT]
        exact inv.within u
    · by_cases isT : u = t
      · subst isT
        refine iff_of_false (fun queued => ?_) ?_
        · by_cases same : other = side
          · subst same
            exact once.1 queued
          · rw [beside.queue other same, inv.queued] at queued
            obtain ⟨job', nonblock', task', ofOther⟩ := queued
            rw [suspended] at task'
            obtain ⟨rfl, _, _⟩ := Task.transfer.inj (Option.some.inj task')
            exact same (ofOther.symm.trans own)
        · rintro ⟨job', nonblock', task', _⟩
          rw [taken] at task'
          exact absurd (Task.transfer.inj (Option.some.inj task')).2.2 (by decide)
      · have blocked_iff : Blocked after u other ↔ Blocked s u other := by
          simp only [Blocked, others u isT]
        rw [blocked_iff, ← inv.queued]
        by_cases same : other = side
        · subst same
          rw [calls_eq, List.mem_cons, or_iff_right isT]
        · rw [beside.queue other same]
    · by_cases same : other = side
      · subst same
        exact once.2
      · rw [beside.queue other same]
        exact inv.once other
    · intro u isHolder
      obtain ⟨locking, held, locked⟩ := inv.holder u (beside.lock ▸ isHolder)
      by_cases isT : u = t
      · subst isT
        rw [suspended] at held
        cases held
        exact absurd locked Bool.false_ne_true
      · exact ⟨locking, (others u isT).trans held, locked⟩

theorem attended_wakeup (inv : Sound s) (side : Side) (key : UInt16)
    (polls : (∃ owner i own, (s.queue side).waitingList.find? (Entry.accepts key) =
      some (.node owner i own)) → Ready s side → (∃ t, Blocked s t side) →
      ∃ t, Tends s t side) : Attended (s.wakeup side key) side := by
  have beside := wakeup_beside s side key
  have woken := wakeup_woken inv side key
  have soundAfter := inv.wakeup side key
  generalize s.wakeup side key = after at beside woken soundAfter
  intro ready ⟨waiting, task, held, waits⟩
  -- with the flag set every call looks again that has not been queued yet
  have looks : ¬ Blocked after waiting side → Tends after waiting side := by
    intro awake
    refine ⟨task, held, ?_⟩
    cases task with
    | transfer job nonblock stage =>
      simp only [Task.waits, decide_eq_true_eq] at waits
      obtain ⟨own, waits⟩ := waits
      rw [Task.tends, beside.flag, decide_eq_true_eq]
      refine .inl ⟨own, ?_⟩
      cases stage <;> simp only [Stage.waits, Bool.false_eq_true] at waits <;>
        simp only [Stage.looks]
      case unlocking exit => cases exit <;> simp_all
      case suspended => exact absurd ⟨job, nonblock, held, own⟩ awake
    | close mode stage | poll table => exact absurd waits Bool.false_ne_true
  cases woken with
  | nobody noCall task' _ =>
    refine ⟨waiting, looks fun blocked => noCall waiting ?_⟩
    exact (blocked_iff_of_polls (.inl (task' waiting))).mp blocked
  | @call t job nonblock _ own task' _ =>
    refine ⟨t, _, by rw [task', update_self]; rfl, ?_⟩
    simp [Task.tends, own, Stage.looks]
  | node found task' _ =>
    by_cases blocked : Blocked after waiting side
    · obtain ⟨other, tends⟩ := polls ⟨_, _, _, found⟩ ((beside.ready_iff side).mp ready)
        ⟨waiting, (blocked_iff_of_polls (task' waiting)).mp blocked⟩
      exact ⟨other, tends_of_polls (task' other) (fun _ => beside.flag) tends⟩
    · exact ⟨waiting, looks blocked⟩

theorem Attended.wakeup_other (inv : Sound s) {other : Side} (attended : Attended s other)
    (distinct : other ≠ side) (key : UInt16) : Attended (s.wakeup side key) other := by
  have beside := wakeup_beside s side key
  have woken := wakeup_woken inv side key
  generalize s.wakeup side key = after at beside woken
  have flag : (s.queue other).flag = true → (after.queue other).flag = true := by
    rw [beside.queue other distinct]
    exact id
  have polls : (∀ t, after.task t = s.task t ∨ (∃ table, s.task t = some (.poll table)) ∧
      ∃ table, after.task t = some (.poll table)) → Attended after other := by
    intro task ready ⟨waiting, waits⟩
    obtain ⟨t, tends⟩ := attended ((beside.ready_iff other).mp ready)
      ⟨waiting, (waits_iff_of_polls (task waiting)).mp waits⟩
    exact ⟨t, tends_of_polls (task t) flag tends⟩
  cases woken with
  | nobody _ task _ => exact polls fun t => .inl (task t)
  | node _ task _ => exact polls task
  | @call t job nonblock suspended own task _ =>
    have moves : Moves s after t := by
      intro other distinct
      rw [task, update_of_ne distinct]
    have taken : after.task t = some (.transfer job nonblock .woken) := by rw [task, update_self]
    have elsewhere : job.side ≠ other := own ▸ distinct.symm
    refine attended.moves moves flag (beside.ready_iff other).mp ?_ ?_
    · simp [Waits, taken, Task.waits, elsewhere]
    · simp [Tends, suspended, Task.tends, Stage.target, Stage.looks]

end

end RtThread.PipeWaits
