import RtThread.Kernel.Basic
import RtThread.Library.TransitionSystem
import RtThread.Library.Counting

/-!
# Read-write locks

`pthread_rwlock_rdlock` and its relatives on one lock, initialised by `pthread_rwlock_init` or
with `PTHREAD_RWLOCK_INITIALIZER` and then by its first call.  All data are under `rw_mutex`,
a lock that one thread owns at a time; the condition variables are semaphores, whose tokens
stay when nobody waits.  Between two steps another thread may run, and the timer of a waiting
thread may expire.
-/

open Function (update update_of_ne update_self)

namespace RtThread.Rwlock

open TransitionSystem

def pthreadProcessPrivate : Int := 0

inductive Mode where
  | read
  | write
  deriving DecidableEq

inductive Op where
  | rdlock
  | tryrdlock
  | timedrdlock
  | wrlock
  | trywrlock
  | timedwrlock
  | unlock
  deriving DecidableEq

inductive Result where
  | zero
  | ebusy
  | etimedout
  | einval
  deriving DecidableEq

inductive Place where
  | outside
  /-- In front of the test of `attr`. -/
  | testing (op : Op)
  /-- At the start of `pthread_rwlock_init`. -/
  | initing (op : Op)
  /-- In `pthread_rwlock_init`, behind the store to `attr`. -/
  | resetting (op : Op)
  /-- In front of the first `pthread_mutex_lock`. -/
  | entering (op : Op)
  /-- It owns the mutex, behind the first `pthread_mutex_lock`. -/
  | inside (op : Op)
  /-- It owns the mutex, in front of the signal or the broadcast of `pthread_rwlock_unlock`. -/
  | signalling (mode : Mode)
  /-- It owns the mutex, in front of the last `pthread_mutex_unlock`. -/
  | leaving (result : Result)
  /-- It owns the mutex, in `_pthread_cond_timedwait`. -/
  | unlocking (mode : Mode) (timed : Bool)
  /-- In front of `rt_sem_take`. -/
  | taking (mode : Mode) (timed : Bool)
  /-- In `rt_sem_take`, behind `rt_ipc_list_suspend`, with the `error` of the thread. -/
  | inTake (mode : Mode) (timed : Bool) (code : RtErr)
  /-- In front of the `pthread_mutex_lock` of `_pthread_cond_timedwait`. -/
  | relocking (mode : Mode) (timed : Bool) (code : RtErr)
  | again (mode : Mode) (timed : Bool) (code : RtErr)
  deriving DecidableEq

structure Cond (Tid : Type) where
  value : Nat
  suspendThread : List Tid

/-- `struct pthread_rwlock`, with both condition variables and both counts of waiters as
functions, the threads, and those who hold the lock. -/
structure State (Tid : Type) where
  attr : Int
  rwMutex : Option Tid
  rwCond : Mode → Cond Tid
  rwNwait : Mode → Int
  rwRefcount : Int
  place : Tid → Place
  returned : Tid → Result
  readers : List Tid
  writers : List Tid

inductive Event (Tid : Type) where
  | call (t : Tid) (op : Op)
  /-- The next step of a call; a timed wait that begins has `time` ticks left. -/
  | proceed (t : Tid) (time : Int)
  | expire (t : Tid)

variable {Tid : Type} [DecidableEq Tid]

namespace Cond

def rtSemRelease (cond : Cond Tid) : Cond Tid :=
  match cond.suspendThread with
  | _ :: rest => { cond with suspendThread := rest }
  | [] => { cond with value := (cond.value + 1) % 0x10000 }

def rtSemTrytake (cond : Cond Tid) : Option (Cond Tid) :=
  if 0 < cond.value then some { cond with value := cond.value - 1 } else none

def pthreadCondSignal (cond : Cond Tid) : Cond Tid := cond.rtSemRelease

/-- The loop of `pthread_cond_broadcast`, with the scheduler locked. -/
def broadcastLoop : Nat → Cond Tid → Option (Cond Tid)
  | 0, _ => none
  | fuel + 1, cond =>
    match cond.rtSemTrytake with
    | some taken => some taken.rtSemRelease
    | none => broadcastLoop fuel cond.rtSemRelease

def pthreadCondBroadcast (cond : Cond Tid) : Option (Cond Tid) :=
  broadcastLoop (cond.suspendThread.length + 2) cond

end Cond

namespace State

def setPlace (s : State Tid) (t : Tid) (place : Place) : State Tid :=
  { s with place := update s.place t place }

def setCond (s : State Tid) (mode : Mode) (cond : Cond Tid) : State Tid :=
  { s with rwCond := update s.rwCond mode cond }

def addNwait (s : State Tid) (mode : Mode) (change : Int) : State Tid :=
  { s with rwNwait := update s.rwNwait mode (s.rwNwait mode + change) }

def MustWait (s : State Tid) : Mode → Prop
  | .read => s.rwRefcount < 0 ∨ 0 < s.rwNwait .write
  | .write => s.rwRefcount ≠ 0

instance (s : State Tid) : (mode : Mode) → Decidable (s.MustWait mode)
  | .read => instDecidableOr
  | .write => instDecidableNot

def acquire (s : State Tid) (t : Tid) : Mode → State Tid
  | .read => { s with rwRefcount := s.rwRefcount + 1, readers := t :: s.readers }
  | .write => { s with rwRefcount := -1, writers := t :: s.writers }

/-- The test of the loop in `pthread_rwlock_rdlock` and its like, and what follows it. -/
def loop (s : State Tid) (t : Tid) (mode : Mode) (timed : Bool) : State Tid :=
  if s.MustWait mode then (s.addNwait mode 1).setPlace t (.unlocking mode timed)
  else (s.acquire t mode).setPlace t (.leaving .zero)

/-- `pthread_rwlock_tryrdlock` and `pthread_rwlock_trywrlock`. -/
def tryAcquire (s : State Tid) (t : Tid) (mode : Mode) : State Tid :=
  if s.MustWait mode then s.setPlace t (.leaving .ebusy)
  else (s.acquire t mode).setPlace t (.leaving .zero)

def release (s : State Tid) (t : Tid) : State Tid :=
  if 0 < s.rwRefcount then
    { s with rwRefcount := s.rwRefcount - 1, readers := s.readers.erase t }
  else if s.rwRefcount = -1 then
    { s with rwRefcount := 0, writers := s.writers.erase t }
  else s

/-- `pthread_rwlock_unlock` up to the signal or the broadcast. -/
def unlock (s : State Tid) (t : Tid) : State Tid :=
  let s := s.release t
  if 0 < s.rwNwait .write then
    if s.rwRefcount = 0 then s.setPlace t (.signalling .write)
    else s.setPlace t (.leaving .zero)
  else if 0 < s.rwNwait .read then s.setPlace t (.signalling .read)
  else s.setPlace t (.leaving .zero)

/-- What a call does once it owns the mutex. -/
def enter (s : State Tid) (t : Tid) : Op → State Tid
  | .rdlock => s.loop t .read false
  | .tryrdlock => s.tryAcquire t .read
  | .timedrdlock => s.loop t .read true
  | .wrlock => s.loop t .write false
  | .trywrlock => s.tryAcquire t .write
  | .timedwrlock => s.loop t .write true
  | .unlock => s.unlock t

/-- The result of `pthread_cond_wait` or `pthread_cond_timedwait`, when it is not 0. -/
def waitResult (timed : Bool) (code : RtErr) : Result :=
  if timed = true ∧ code = .etimeout then .etimedout else .einval

/-- Behind `pthread_cond_wait` or `pthread_cond_timedwait`. -/
def waited (s : State Tid) (t : Tid) (mode : Mode) (timed : Bool) (code : RtErr) :
    State Tid :=
  let s := s.addNwait mode (-1)
  if code ≠ .eok then s.setPlace t (.leaving (waitResult timed code))
  else s.loop t mode timed

def semTake (s : State Tid) (t : Tid) (mode : Mode) (timed : Bool) (time : Int) :
    State Tid :=
  match (s.rwCond mode).rtSemTrytake with
  | some cond => (s.setCond mode cond).setPlace t (.relocking mode timed .eok)
  | none =>
    if time = 0 then s.setPlace t (.relocking mode timed .etimeout)
    else
      (s.setCond mode { s.rwCond mode with
        suspendThread := (s.rwCond mode).suspendThread ++ [t] }).setPlace t
        (.inTake mode timed .eok)

def signal (s : State Tid) (t : Tid) : Mode → Option (State Tid)
  | .write =>
    some ((s.setCond .write (s.rwCond .write).pthreadCondSignal).setPlace t
      (.leaving .zero))
  | .read =>
    (s.rwCond .read).pthreadCondBroadcast.map fun cond =>
      (s.setCond .read cond).setPlace t (.leaving .zero)

def lockMutex (s : State Tid) (t : Tid) (place : Place) : Option (State Tid) :=
  if s.rwMutex = none then some ({ s with rwMutex := some t }.setPlace t place) else none

def unlockMutex (s : State Tid) (t : Tid) (place : Place) : State Tid :=
  { s with rwMutex := none }.setPlace t place

end State

open State

/-- `pthread_rwlock_init` behind the store to `attr`. -/
def reset (s : State Tid) : State Tid :=
  { s with
    rwMutex := none
    rwCond := fun _ => ⟨0, []⟩
    rwNwait := fun _ => 0
    rwRefcount := 0 }

def proceed (s : State Tid) (t : Tid) (time : Int) : Option (State Tid) :=
  match s.place t with
  | .outside => none
  | .testing op => some (s.setPlace t (if s.attr = -1 then .initing op else .entering op))
  | .initing op => some ({ s with attr := pthreadProcessPrivate }.setPlace t (.resetting op))
  | .resetting op => some ((reset s).setPlace t (.entering op))
  | .entering op => s.lockMutex t (.inside op)
  | .inside op => some (s.enter t op)
  | .signalling mode => s.signal t mode
  | .leaving result =>
    some { s.unlockMutex t .outside with
      returned := update s.returned t result }
  | .unlocking mode timed => some (s.unlockMutex t (.taking mode timed))
  | .taking mode timed => some (s.semTake t mode timed (if timed then time else -1))
  | .inTake mode timed code =>
    if t ∈ (s.rwCond mode).suspendThread then none
    else some (s.setPlace t (.relocking mode timed code))
  | .relocking mode timed code => s.lockMutex t (.again mode timed code)
  | .again mode timed code => some (s.waited t mode timed code)

def expire (s : State Tid) (t : Tid) : Option (State Tid) :=
  match s.place t with
  | .inTake mode true _ =>
    if t ∈ (s.rwCond mode).suspendThread then
      some ((s.setCond mode { s.rwCond mode with
        suspendThread := (s.rwCond mode).suspendThread.erase t }).setPlace t
        (.inTake mode true .etimeout))
    else none
  | _ => none

def step (s : State Tid) : Event Tid → Option (State Tid)
  | .call t op =>
    if s.place t = .outside ∧ (op = .unlock → t ∈ s.readers ∨ t ∈ s.writers) then
      some (s.setPlace t (.testing op))
    else none
  | .proceed t time => proceed s t time
  | .expire t => expire s t

/-- After `pthread_rwlock_init`, or with `PTHREAD_RWLOCK_INITIALIZER`. -/
structure Initial (s : State Tid) : Prop where
  rwMutex : s.rwMutex = none
  rwCond : ∀ mode, s.rwCond mode = ⟨0, []⟩
  rwNwait : ∀ mode, s.rwNwait mode = 0
  rwRefcount : s.rwRefcount = 0
  place : ∀ t, s.place t = .outside
  readers : s.readers = []
  writers : s.writers = []

def system (Tid : Type) [DecidableEq Tid] : TransitionSystem (State Tid) (Event Tid) :=
  ofFunction Initial step

variable {Tid : Type}

namespace Place

/-- The thread is between `pthread_mutex_lock` and `pthread_mutex_unlock`. -/
def OwnsMutex : Place → Bool
  | .inside _ | .signalling _ | .leaving _ | .unlocking _ _ | .again _ _ _ => true
  | _ => false

/-- The thread is counted in `rw_nwaitreaders` or `rw_nwaitwriters`. -/
def Waits (mode : Mode) : Place → Bool
  | .unlocking m _ | .taking m _ | .inTake m _ _ | .relocking m _ _ | .again m _ _ =>
    decide (m = mode)
  | _ => false

def IsUnlocking (mode : Mode) : Place → Prop
  | .unlocking m _ => m = mode
  | _ => False

/-- A call of `pthread_rwlock_unlock` that has not changed the count. -/
def Unlocks : Place → Prop
  | .testing op | .initing op | .resetting op | .entering op | .inside op => op = .unlock
  | _ => False

/-- The thread needs a token; `linked` says that it is in the suspend list. -/
def Asleep (mode : Mode) (linked : Prop) : Place → Prop
  | .taking m _ => m = mode
  | .inTake m _ _ => m = mode ∧ linked
  | _ => False

def Serves (mode : Mode) (linked : Prop) : Place → Prop
  | .signalling m => m = mode
  | .inTake m _ code => m = mode ∧ code = .eok ∧ ¬ linked
  | .relocking m _ code | .again m _ code => m = mode ∧ code = .eok
  | _ => False

end Place

namespace State

def Asleep (s : State Tid) (mode : Mode) (t : Tid) : Prop :=
  (s.place t).Asleep mode (t ∈ (s.rwCond mode).suspendThread)

def Serves (s : State Tid) (mode : Mode) (t : Tid) : Prop :=
  (s.place t).Serves mode (t ∈ (s.rwCond mode).suspendThread)

def Served (s : State Tid) (mode : Mode) : Prop :=
  (∃ t, s.Asleep mode t) → 0 < (s.rwCond mode).value ∨ ∃ t, s.Serves mode t

/-- `rw_refcount` counts those who hold the lock. -/
structure Counted (s : State Tid) : Prop where
  writer : s.rwRefcount = -1 ↔ (∃ t, s.writers = [t]) ∧ s.readers = []
  readers : s.rwRefcount ≠ -1 →
    s.rwRefcount = s.readers.length ∧ s.writers = []

end State

/-- The suspend list of a condition variable, and its tokens. -/
structure Queue (s : State Tid) (mode : Mode) : Prop where
  nodup : (s.rwCond mode).suspendThread.Nodup
  linked : ∀ t ∈ (s.rwCond mode).suspendThread, ∃ timed, s.place t = .inTake mode timed .eok
  drained : (s.rwCond mode).suspendThread ≠ [] → (s.rwCond mode).value = 0
  value_lt : (s.rwCond mode).value < 0x10000

structure Base [Fintype Tid] (s : State Tid) : Prop where
  mutex : ∀ t, (s.place t).OwnsMutex = true ↔ s.rwMutex = some t
  nwait : ∀ mode, s.rwNwait mode = countOf fun t => (s.place t).Waits mode
  queue : ∀ mode, Queue s mode
  mustWait : ∀ t mode, (s.place t).IsUnlocking mode → s.MustWait mode
  holder : ∀ t, (s.place t).Unlocks → t ∈ s.readers ∨ t ∈ s.writers
  counted : s.Counted

structure Inv [Fintype Tid] (s : State Tid) : Prop extends Base s where
  writers : s.rwRefcount = 0 → s.Served .write
  readers : s.rwRefcount = 0 → s.rwNwait .write = 0 → s.Served .read

section Consequences

variable {s after : State Tid} {t : Tid} {mode : Mode}

theorem Place.asleep_waits {p : Place} {linked : Prop} (asleep : p.Asleep mode linked) :
    p.Waits mode = true := by
  cases p <;> simp_all [Asleep, Waits]

theorem Place.isUnlocking_ownsMutex {p : Place} (isUnlocking : p.IsUnlocking mode) :
    p.OwnsMutex = true := by
  cases p <;> simp_all [IsUnlocking, OwnsMutex]

theorem State.Counted.refcount_ge (counted : s.Counted) : -1 ≤ s.rwRefcount := by
  by_cases isWriter : s.rwRefcount = -1
  · omega
  · have := (counted.readers isWriter).1
    omega

theorem State.Counted.refcount_zero (counted : s.Counted) (noReaders : s.readers = [])
    (noWriters : s.writers = []) : s.rwRefcount = 0 := by
  have isReader : s.rwRefcount ≠ -1 := by
    intro isWriter
    obtain ⟨⟨t, writer⟩, -⟩ := counted.writer.mp isWriter
    simp [noWriters] at writer
  simpa [noReaders] using (counted.readers isReader).1

theorem Queue.same (queue : Queue s mode) (cond : after.rwCond mode = s.rwCond mode)
    (unlinked : t ∉ (s.rwCond mode).suspendThread)
    (place : ∀ u, u ≠ t → after.place u = s.place u) : Queue after mode where
  nodup := by rw [cond]; exact queue.nodup
  drained := by rw [cond]; exact queue.drained
  value_lt := by rw [cond]; exact queue.value_lt
  linked := by
    intro u linked
    rw [cond] at linked
    rw [place u fun same => unlinked (same ▸ linked)]
    exact queue.linked u linked

theorem Queue.unlinked (queue : Queue s mode)
    (elsewhere : ∀ timed, s.place t ≠ .inTake mode timed .eok) :
    t ∉ (s.rwCond mode).suspendThread := by
  intro linked
  obtain ⟨timed, p⟩ := queue.linked t linked
  exact elsewhere timed p

theorem State.Served.move (served : s.Served mode)
    (value : 0 < (s.rwCond mode).value → 0 < (after.rwCond mode).value) (linked : ∀ u, u ≠ t →
      (u ∈ (after.rwCond mode).suspendThread ↔ u ∈ (s.rwCond mode).suspendThread))
    (place : ∀ u, u ≠ t → after.place u = s.place u)
    (asleep : after.Asleep mode t → s.Asleep mode t)
    (serves : s.Serves mode t → after.Serves mode t) : after.Served mode := by
  have asleepAfter (u : Tid) (isAsleep : after.Asleep mode u) : s.Asleep mode u := by
    by_cases same : u = t
    · exact same ▸ asleep (same ▸ isAsleep)
    · simpa only [State.Asleep, place u same, linked u same] using isAsleep
  have servesAfter (u : Tid) (isServing : s.Serves mode u) : after.Serves mode u := by
    by_cases same : u = t
    · exact same ▸ serves (same ▸ isServing)
    · simpa only [State.Serves, place u same, linked u same] using isServing
  rintro ⟨u, isAsleep⟩
  rcases served ⟨u, asleepAfter u isAsleep⟩ with token | ⟨v, isServing⟩
  · exact .inl (value token)
  · exact .inr ⟨v, servesAfter v isServing⟩

theorem State.Served.move_same (served : s.Served mode) (cond : after.rwCond mode = s.rwCond mode)
    (place : ∀ u, u ≠ t → after.place u = s.place u)
    (asleep : after.Asleep mode t → s.Asleep mode t)
    (serves : s.Serves mode t → after.Serves mode t) : after.Served mode :=
  served.move (fun token => by rwa [cond]) (fun u _ => by rw [cond]) place asleep serves

theorem State.Served.of_value (token : 0 < (s.rwCond mode).value) : s.Served mode :=
  fun _ => .inl token

theorem State.Served.of_serves (serves : s.Serves mode t) : s.Served mode :=
  fun _ => .inr ⟨t, serves⟩

variable [Fintype Tid]

theorem Base.nwait_pos (base : Base s) (waits : (s.place t).Waits mode = true) :
    0 < s.rwNwait mode := by
  rw [base.nwait mode, countOf]
  have : t ∈ Finset.univ.filter fun u => (s.place u).Waits mode = true := by simp [waits]
  exact_mod_cast Finset.card_pos.mpr ⟨t, this⟩

theorem Base.nwait_nonneg (base : Base s) (mode : Mode) : 0 ≤ s.rwNwait mode := by
  rw [base.nwait mode]
  exact Int.natCast_nonneg _

theorem Base.served_of_none (base : Base s) (none : s.rwNwait mode = 0) : s.Served mode := by
  rintro ⟨t, asleep⟩
  have := base.nwait_pos (Place.asleep_waits asleep)
  omega

theorem Base.alone (base : Base s) (owns : (s.place t).OwnsMutex = true) {u : Tid}
    (ne : u ≠ t) : (s.place u).OwnsMutex = false := by
  by_contra other
  have first := (base.mutex t).mp owns
  have second := (base.mutex u).mp (by simpa using other)
  exact ne (Option.some.inj (second.symm.trans first))

end Consequences

section Moves

variable [DecidableEq Tid] [Fintype Tid] {s after : State Tid} {t : Tid} {new : Place}

/-- What one thread does to the mutex when it moves to `new`. -/
inductive MutexMove (s after : State Tid) (t : Tid) (new : Place) : Prop where
  | stay (same : after.rwMutex = s.rwMutex)
      (place : new.OwnsMutex = (s.place t).OwnsMutex)
  | lock (free : s.rwMutex = none) (owned : after.rwMutex = some t)
      (place : new.OwnsMutex = true)
  | unlock (owns : (s.place t).OwnsMutex = true) (free : after.rwMutex = none)
      (place : new.OwnsMutex = false)

section

variable (base : Base s)

include base

section

variable (place : after.place = update s.place t new)

include place

theorem Base.mutex_move (move : MutexMove s after t new) (u : Tid) :
    (after.place u).OwnsMutex = true ↔ after.rwMutex = some u := by
  have before := base.mutex u
  by_cases same : u = t
  · subst same
    rw [place, update_self]
    cases move with
    | stay mutex owns => rw [owns, mutex]; exact before
    | lock _ owned owns => simp [owned, owns]
    | unlock _ free owns => simp [free, owns]
  · rw [place, update_of_ne same]
    cases move with
    | stay mutex _ => rw [mutex]; exact before
    | lock free owned _ =>
      simp only [free] at before
      simp [before, owned, Ne.symm same]
    | unlock owns free _ => simp [base.alone owns same, free]

theorem Base.nwait_move (mode : Mode)
    (nwait : after.rwNwait mode + ((s.place t).Waits mode).toNat = s.rwNwait mode +
      (new.Waits mode).toNat) :
    after.rwNwait mode = countOf fun u => (after.place u).Waits mode := by
  have moved := @countOf_add_of_agree Tid _ _ (fun u => (after.place u).Waits mode)
    (fun u => (s.place u).Waits mode) t fun u ne => by
      simp only [place, update_of_ne ne]
  have placed : after.place t = new := by rw [place, update_self]
  simp only [placed] at moved
  have before := base.nwait mode
  omega

theorem Base.move (mutex : MutexMove s after t new)
    (nwait : ∀ mode, after.rwNwait mode + ((s.place t).Waits mode).toNat = s.rwNwait mode +
      (new.Waits mode).toNat) (queue : ∀ mode, Queue after mode)
    (owns : (s.place t).OwnsMutex = true ∨ after.rwRefcount = s.rwRefcount ∧
      after.rwNwait = s.rwNwait) (mustWait : ∀ mode, new.IsUnlocking mode → after.MustWait mode)
    (kept : ∀ u, u ≠ t → u ∈ s.readers ∨ u ∈ s.writers → u ∈ after.readers ∨ u ∈ after.writers)
    (holder : new.Unlocks → t ∈ after.readers ∨ t ∈ after.writers) (counted : after.Counted) :
    Base after where
  mutex := base.mutex_move place mutex
  nwait mode := base.nwait_move place mode (nwait mode)
  queue := queue
  counted := counted
  mustWait := by
    intro u mode isUnlocking
    by_cases same : u = t
    · subst same
      rw [place, update_self] at isUnlocking
      exact mustWait mode isUnlocking
    · rw [place, update_of_ne same] at isUnlocking
      rcases owns with owns | ⟨refcount, nwait⟩
      · have := base.alone owns same
        rw [Place.isUnlocking_ownsMutex isUnlocking] at this
        exact absurd this (by decide)
      · have before := base.mustWait u mode isUnlocking
        cases mode with
        | read => simpa only [State.MustWait, refcount, nwait] using before
        | write => simpa only [State.MustWait, refcount] using before
  holder := by
    intro u unlocks
    by_cases same : u = t
    · subst same
      rw [place, update_self] at unlocks
      exact holder unlocks
    · rw [place, update_of_ne same] at unlocks
      exact kept u same (base.holder u unlocks)

end

omit [DecidableEq Tid] in
theorem Base.unlinked_of_ownsMutex (owns : (s.place t).OwnsMutex = true) (mode : Mode) :
    t ∉ (s.rwCond mode).suspendThread :=
  (base.queue mode).unlinked fun timed place => by simp [place, Place.OwnsMutex] at owns

theorem Base.change (owns : (s.place t).OwnsMutex = true)
    (place : after.place = update s.place t new) (newOwns : new.OwnsMutex = true)
    (mutex : after.rwMutex = s.rwMutex) (cond : after.rwCond = s.rwCond)
    (nwait : ∀ mode, after.rwNwait mode + ((s.place t).Waits mode).toNat = s.rwNwait mode +
      (new.Waits mode).toNat) (mustWait : ∀ mode, new.IsUnlocking mode → after.MustWait mode)
    (kept : ∀ u, u ≠ t → u ∈ s.readers ∨ u ∈ s.writers → u ∈ after.readers ∨ u ∈ after.writers)
    (unlocks : ¬ new.Unlocks) (counted : after.Counted) : Base after :=
  base.move place (.stay mutex (newOwns.trans owns.symm)) nwait
    (fun mode => (base.queue mode).same (congrFun cond mode) (base.unlinked_of_ownsMutex owns mode)
      fun u ne => by rw [place, update_of_ne ne])
    (.inl owns) mustWait kept (fun does => absurd does unlocks) counted

end

theorem Inv.relabel (inv : Inv s) (place : after.place = update s.place t new)
    (cond : after.rwCond = s.rwCond) (nwait : after.rwNwait = s.rwNwait)
    (refcount : after.rwRefcount = s.rwRefcount) (readers : after.readers = s.readers)
    (writers : after.writers = s.writers) (mutex : MutexMove s after t new)
    (unlinked : ∀ mode, t ∉ (s.rwCond mode).suspendThread)
    (waits : ∀ mode, new.Waits mode = (s.place t).Waits mode)
    (isUnlocking : ∀ mode, ¬ new.IsUnlocking mode)
    (holder : new.Unlocks → t ∈ s.readers ∨ t ∈ s.writers)
    (asleep : ∀ mode, new.Asleep mode False → s.MustWait mode)
    (serves : ∀ mode, (s.place t).Serves mode False → new.Serves mode False) : Inv after := by
  have others (u : Tid) (ne : u ≠ t) : after.place u = s.place u := by rw [place, update_of_ne ne]
  have placed : after.place t = new := by rw [place, update_self]
  have base : Base after := by
    refine inv.toBase.move place mutex (fun mode => by rw [nwait, waits mode])
      (fun mode => (inv.queue mode).same (congrFun cond mode) (unlinked mode) others)
      (.inr ⟨refcount, nwait⟩) (fun mode isUnlocking' => absurd isUnlocking' (isUnlocking mode))
      (fun u _ holds => by rwa [readers, writers]) (fun unlocks => ?_) ⟨?_, ?_⟩
    · rw [readers, writers]
      exact holder unlocks
    · rw [refcount, readers, writers]
      exact inv.counted.writer
    · rw [refcount, readers, writers]
      exact inv.counted.readers
  have served (mode : Mode) (free : ¬ s.MustWait mode) (before : s.Served mode) :
      after.Served mode := by
    refine before.move_same (congrFun cond mode) others
      (fun isAsleep => absurd (asleep mode ?_) free) fun isServing => ?_
    · simpa only [State.Asleep, placed, cond, unlinked mode] using isAsleep
    · have isServing' : (s.place t).Serves mode False := by
        simpa only [State.Serves, unlinked mode] using isServing
      simpa only [State.Serves, placed, cond, unlinked mode] using serves mode isServing'
  refine { base with writers := fun free => ?_, readers := fun free noWriter => ?_ }
  · rw [refcount] at free
    exact served .write (by simp [State.MustWait, free]) (inv.writers free)
  · rw [refcount] at free
    rw [nwait] at noWriter
    exact served .read (by simp [State.MustWait, free, noWriter]) (inv.readers free noWriter)

end Moves

end RtThread.Rwlock
