import RtThread.Libc.RwlockSteps

/-!
# Runs of the read-write lock calls

Every step keeps the invariant, and so it holds throughout a run in which nobody initialises a
lock in use, the writers' tokens do not wrap, and a writer whose wait fails leaves no reader
behind that nobody will wake.
-/

namespace RtThread.Rwlock

open TransitionSystem

variable {Tid : Type} [DecidableEq Tid]

section Steps

variable [Fintype Tid] {s after : State Tid}

theorem Inv.lockMutex (inv : Inv s) {t : Tid} {new : Place} (ran : s.lockMutex t new = some after)
    (newOwns : new.OwnsMutex = true) (elsewhere : ∀ mode timed, s.place t ≠ .inTake mode timed .eok)
    (waits : ∀ mode, new.Waits mode = (s.place t).Waits mode)
    (isUnlocking : ∀ mode, ¬ new.IsUnlocking mode) (holder : new.Unlocks → (s.place t).Unlocks)
    (asleep : ∀ mode, ¬ new.Asleep mode False)
    (serves : ∀ mode, (s.place t).Serves mode False → new.Serves mode False) : Inv after := by
  unfold State.lockMutex at ran
  split_ifs at ran with free
  cases ran
  exact inv.relabel rfl rfl rfl rfl rfl rfl (.lock free rfl newOwns)
    (fun mode => (inv.queue mode).unlinked (elsewhere mode)) waits isUnlocking
    (fun unlocks => inv.holder t (holder unlocks)) (fun mode no => absurd no (asleep mode)) serves

theorem Inv.keepReset (inv : Inv s) {t : Tid} {op : Op} (place : s.place t = .resetting op)
    (free : s.rwMutex = none) (noHolder : s.rwRefcount = 0)
    (noWaiter : ∀ mode, s.rwNwait mode = 0) : Inv ((Rwlock.reset s).setPlace t (.entering op)) := by
  have same : (Rwlock.reset s).rwNwait = s.rwNwait := funext fun mode => (noWaiter mode).symm
  obtain ⟨writer, readers⟩ := inv.counted
  rw [noHolder] at writer readers
  have base : Base ((Rwlock.reset s).setPlace t (.entering op)) := by
    refine inv.toBase.move rfl (.stay free.symm (by rw [place]; rfl)) (fun mode => ?_)
      (fun mode => ⟨List.nodup_nil, fun _ no => by simp [Rwlock.reset, State.setPlace] at no,
        fun _ => rfl, by simp [Rwlock.reset, State.setPlace]⟩)
      (.inr ⟨noHolder.symm, same⟩) (fun _ no => no.elim) (fun _ _ => id)
      (fun unlocks => inv.holder t (by rw [place]; exact unlocks)) ⟨writer, readers⟩
    rw [place]
    exact congrArg (· + _) (noWaiter mode).symm
  exact { base with
    writers := fun _ => base.served_of_none rfl
    readers := fun _ _ => base.served_of_none rfl }

theorem Inv.goOn (inv : Inv s) {t : Tid} {old new : Place} (place : s.place t = old)
    (moved : after.place = Function.update s.place t new) (cond : after.rwCond = s.rwCond)
    (nwait : after.rwNwait = s.rwNwait) (refcount : after.rwRefcount = s.rwRefcount)
    (readers : after.readers = s.readers) (writers : after.writers = s.writers)
    (mutex : after.rwMutex = s.rwMutex) (sameOwns : new.OwnsMutex = old.OwnsMutex)
    (notWaiting : ∀ mode, old.Waits mode = false ∧ new.Waits mode = false)
    (holder : new.Unlocks → t ∈ s.readers ∨ t ∈ s.writers)
    (serves : ∀ mode, ¬ old.Serves mode False) : Inv after := by
  have isUnlocking (mode : Mode) : ¬ new.IsUnlocking mode := by
    intro no
    have := (notWaiting mode).2
    cases new <;> simp_all [Place.IsUnlocking, Place.Waits]
  refine inv.relabel moved cond nwait refcount readers writers (.stay mutex ?_) (fun mode => ?_)
    (fun mode => ?_) isUnlocking holder (fun mode asleep => ?_) fun mode no => ?_
  · rw [place, sameOwns]
  · refine (inv.queue mode).unlinked fun timed inTake => ?_
    have := (notWaiting mode).1
    simp [← place, inTake, Place.Waits] at this
  · rw [place, (notWaiting mode).1, (notWaiting mode).2]
  · have := (notWaiting mode).2
    rw [Place.asleep_waits asleep] at this
    exact absurd this (by decide)
  · rw [place] at no
    exact absurd no (serves mode)

theorem Inv.proceed (inv : Inv s) {t : Tid} {time : Int} (attended : Attended s (.proceed t time))
    (ran : proceed s t time = some after) : Inv after := by
  change (s.place t).Attended s at attended
  unfold Rwlock.proceed at ran
  cases place : s.place t with
  | outside => simp [place] at ran
  | testing op =>
    simp only [place, Option.some.injEq] at ran
    subst ran
    have holder (unlocks : op = .unlock) : t ∈ s.readers ∨ t ∈ s.writers :=
      inv.holder t (by rw [place]; exact unlocks)
    split_ifs
    · exact inv.goOn place rfl rfl rfl rfl rfl rfl rfl rfl (fun _ => ⟨rfl, rfl⟩) holder
        fun _ => id
    · exact inv.goOn place rfl rfl rfl rfl rfl rfl rfl rfl (fun _ => ⟨rfl, rfl⟩) holder
        fun _ => id
  | initing op =>
    simp only [place, Option.some.injEq] at ran
    subst ran
    exact inv.goOn place rfl rfl rfl rfl rfl rfl rfl rfl (fun _ => ⟨rfl, rfl⟩)
      (fun unlocks => inv.holder t (by rw [place]; exact unlocks)) fun _ => id
  | resetting op =>
    simp only [place, Option.some.injEq] at ran
    subst ran
    rw [place] at attended
    exact inv.keepReset place attended.1 attended.2.1 attended.2.2
  | entering op =>
    simp only [place] at ran
    exact inv.lockMutex ran rfl (fun mode timed => by simp [place])
      (fun mode => by rw [place]; rfl) (fun _ => id) (fun unlocks => by rw [place]; exact unlocks)
      (fun _ => id) fun mode serves => by rw [place] at serves; exact serves
  | inside op =>
    simp only [place, Option.some.injEq] at ran
    subst ran
    exact inv.enter place
  | signalling mode =>
    simp only [place] at ran
    rw [place] at attended
    cases mode with
    | read =>
      obtain ⟨cond, broadcast, rfl⟩ := Option.map_eq_some_iff.mp ran
      exact inv.signalReaders place broadcast
    | write =>
      cases ran
      exact inv.signalWriter place attended
  | leaving r =>
    simp only [place, Option.some.injEq] at ran
    subst ran
    have owns : (s.place t).OwnsMutex = true := by rw [place]; rfl
    exact inv.relabel rfl rfl rfl rfl rfl rfl (.unlock owns rfl rfl)
      (inv.unlinked_of_ownsMutex owns) (fun mode => by rw [place]; rfl) (fun _ => id)
      (fun no => no.elim) (fun _ no => no.elim) fun mode serves => by
        rw [place] at serves
        exact serves
  | unlocking mode timed =>
    simp only [place, Option.some.injEq] at ran
    subst ran
    have owns : (s.place t).OwnsMutex = true := by rw [place]; rfl
    exact inv.relabel rfl rfl rfl rfl rfl rfl (.unlock owns rfl rfl)
      (inv.unlinked_of_ownsMutex owns) (fun mode => by rw [place]; rfl) (fun _ => id)
      (fun no => no.elim)
      (fun u asleep => inv.mustWait t u (by rw [place]; exact asleep))
      fun u serves => by
        rw [place] at serves
        exact serves
  | taking mode timed =>
    simp only [place, Option.some.injEq] at ran
    subst ran
    exact inv.semTake place _
  | inTake mode timed code =>
    simp only [place] at ran
    split_ifs at ran with linked
    cases ran
    refine inv.relabel rfl rfl rfl rfl rfl rfl (.stay rfl (by rw [place]; rfl)) (fun u => ?_)
      (fun u => by rw [place]; rfl) (fun _ => id) (fun no => no.elim) (fun _ no => no.elim)
      fun u serves => ?_
    · intro otherLinked
      obtain ⟨timed', inTake⟩ := (inv.queue u).linked t otherLinked
      rw [place] at inTake
      injection inTake with same
      exact linked (same ▸ otherLinked)
    · rw [place] at serves
      exact ⟨serves.1, serves.2.1⟩
  | relocking mode timed code =>
    simp only [place] at ran
    exact inv.lockMutex ran rfl (fun mode timed => by simp [place])
      (fun mode => by rw [place]; rfl) (fun _ => id) (fun unlocks => unlocks.elim)
      (fun _ => id) fun mode serves => by rw [place] at serves; exact serves
  | again mode timed code =>
    simp only [place, Option.some.injEq] at ran
    subst ran
    rw [place] at attended
    refine inv.waited place fun isWriter => ?_
    subst isWriter
    exact attended

theorem Inv.step (inv : Inv s) {e : Event Tid} (attended : Attended s e)
    (ran : step s e = some after) : Inv after := by
  cases e with
  | expire t => exact inv.expire ran
  | proceed t time => exact inv.proceed attended ran
  | call t op =>
    unfold Rwlock.step at ran
    dsimp only at ran
    split_ifs at ran with isOutside
    cases ran
    exact inv.goOn isOutside.1 rfl rfl rfl rfl rfl rfl rfl rfl (fun _ => ⟨rfl, rfl⟩)
      isOutside.2 fun _ => id

omit [DecidableEq Tid] in
theorem Initial.inv (init : Initial s) : Inv s := by
  have base : Base s := by
    refine ⟨fun t => ?_, fun mode => ?_, fun mode => ?_, fun t mode no => ?_, fun t no => ?_, ?_⟩
    · simp [init.place t, init.rwMutex, Place.OwnsMutex]
    · rw [init.rwNwait mode, countOf_eq_zero fun t => by rw [init.place t]; rfl]
      rfl
    · constructor <;> simp [init.rwCond mode]
    · rw [init.place t] at no
      exact no.elim
    · rw [init.place t] at no
      exact no.elim
    · constructor <;> simp [init.rwRefcount, init.readers, init.writers]
  exact { base with
    writers := fun _ => base.served_of_none (init.rwNwait .write)
    readers := fun _ _ => base.served_of_none (init.rwNwait .read) }

end Steps

def State.Blocked (s : State Tid) (t : Tid) : Prop :=
  match s.place t with
  | .inTake mode _ _ => t ∈ (s.rwCond mode).suspendThread
  | .entering _ | .relocking _ _ _ => s.rwMutex ≠ none
  | _ => False

/-- The count is right, and while the lock is free and some thread is in a call, some thread can
go on. -/
structure Correct (s : State Tid) : Prop where
  counted : s.Counted
  notStuck : (∀ t, s.place t = .outside ∨ s.Blocked t) → (∃ t, s.place t ≠ .outside) →
    ¬ (s.readers = [] ∧ s.writers = [])

omit [DecidableEq Tid] in
theorem Inv.correct [Fintype Tid] {s : State Tid} (inv : Inv s) : Correct s := by
  refine ⟨inv.counted, ?_⟩
  rintro blocked ⟨t, inCall⟩ ⟨noReaders, noWriters⟩
  have free := inv.counted.refcount_zero noReaders noWriters
  -- the owner of the mutex would not be blocked
  have unowned : s.rwMutex = none := by
    rw [Option.eq_none_iff_forall_ne_some]
    intro u owner
    have owns := (inv.mutex u).mpr owner
    rcases blocked u with isOutside | isBlocked
    · rw [isOutside] at owns
      exact absurd owns (by decide)
    · unfold State.Blocked at isBlocked
      cases place : s.place u <;> simp_all [Place.OwnsMutex]
  have linked (u : Tid) (inCall : s.place u ≠ .outside) :
      ∃ mode timed, s.place u = .inTake mode timed .eok ∧
        u ∈ (s.rwCond mode).suspendThread := by
    have isBlocked := (blocked u).resolve_left inCall
    unfold State.Blocked at isBlocked
    cases place : s.place u with
    | inTake mode timed code =>
      simp only [place] at isBlocked
      obtain ⟨timed', inTake⟩ := (inv.queue mode).linked u isBlocked
      rw [place] at inTake
      exact ⟨mode, timed', inTake, isBlocked⟩
    | _ => simp [place, unowned] at isBlocked
  have noServer (mode : Mode) (served : s.Served mode) {u : Tid} {timed : Bool}
      (place : s.place u = .inTake mode timed .eok)
      (isLinked : u ∈ (s.rwCond mode).suspendThread) : False := by
    rcases served ⟨u, by rw [State.Asleep, place]; exact ⟨rfl, isLinked⟩⟩ with token | ⟨v, serves⟩
    · have := (inv.queue mode).drained (List.ne_nil_of_mem isLinked)
      omega
    · have inCall : s.place v ≠ .outside := by
        intro isOutside
        rw [State.Serves, isOutside] at serves
        exact serves
      obtain ⟨mode', timed', place', isLinked'⟩ := linked v inCall
      rw [State.Serves, place'] at serves
      exact serves.2.2 (serves.1 ▸ isLinked')
  have noWriter (u : Tid) : (s.place u).Waits .write = false := by
    by_contra waits
    have inCall : s.place u ≠ .outside := by
      intro isOutside
      simp [isOutside, Place.Waits] at waits
    obtain ⟨mode, timed, place, isLinked⟩ := linked u inCall
    obtain rfl : mode = .write := by simpa [place, Place.Waits] using waits
    exact noServer .write (inv.writers free) place isLinked
  have none : s.rwNwait .write = 0 := by
    rw [inv.nwait .write, countOf_eq_zero noWriter]
    rfl
  obtain ⟨mode, timed, place, isLinked⟩ := linked t inCall
  cases mode with
  | read => exact noServer .read (inv.readers free none) place isLinked
  | write => exact noServer .write (inv.writers free) place isLinked

/-- In a run that is attended throughout, the lock keeps its promises. -/
theorem rwlock_correct [Fintype Tid] {taken : List (Taken (State Tid) (Event Tid))}
    {last : State Tid} (run : (system Tid).Run taken last) (attended : EveryStep Attended taken) :
    Throughout Correct taken last :=
  (run.throughout_of_everyStep (fun _ => Initial.inv)
    (fun _ _ _ inv attended ran => Inv.step inv attended ran) attended).imp
    fun _ => Inv.correct

section Decidability

instance (linked : Prop) [Decidable linked] (mode : Mode) :
    (place : Place) → Decidable (place.Asleep mode linked)
  | .taking _ _ => inferInstanceAs (Decidable (_ = _))
  | .inTake .. => instDecidableAnd
  | .outside | .testing _ | .initing _ | .resetting _ | .entering _ | .inside _ | .signalling _
  | .leaving _ | .unlocking _ _ | .relocking _ _ _ | .again _ _ _ =>
    inferInstanceAs (Decidable False)

instance (linked : Prop) [Decidable linked] (mode : Mode) :
    (place : Place) → Decidable (place.Serves mode linked)
  | .signalling _ => inferInstanceAs (Decidable (_ = _))
  | .inTake _ _ _ => inferInstanceAs (Decidable (_ ∧ _ ∧ _))
  | .relocking .. | .again .. => instDecidableAnd
  | .outside | .testing _ | .initing _ | .resetting _ | .entering _ | .inside _ | .leaving _
  | .unlocking _ _ | .taking _ _ => inferInstanceAs (Decidable False)

variable (s : State Tid)

instance [Fintype Tid] (mode : Mode) : Decidable (s.Served mode) :=
  inferInstanceAs (Decidable
    ((∃ t, (s.place t).Asleep mode _) → _ ∨ ∃ t, (s.place t).Serves mode _))

instance decidableNone : (mode : Mode → Int) → Decidable (∀ m, mode m = 0) := fun count =>
  decidable_of_iff (count .read = 0 ∧ count .write = 0)
    ⟨fun both mode => by cases mode <;> simp [both], fun all => ⟨all .read, all .write⟩⟩

instance [Fintype Tid] : (place : Place) → Decidable (place.Attended s)
  | .resetting _ => inferInstanceAs (Decidable (_ ∧ _ ∧ _))
  | .signalling .write => instDecidableForall
  | .again .write _ _ => inferInstanceAs (Decidable (_ → _ → _ → _))
  | .outside | .testing _ | .initing _ | .entering _ | .inside _ | .signalling .read
  | .leaving _ | .unlocking _ _ | .taking _ _ | .inTake _ _ _ | .relocking _ _ _
  | .again .read _ _ => .isTrue trivial

instance [Fintype Tid] : (e : Event Tid) → Decidable (Attended s e)
  | .proceed _ _ => inferInstanceAs (Decidable (Place.Attended _ _))
  | .call _ _ | .expire _ => .isTrue trivial

instance (t : Tid) : Decidable (s.Blocked t) := by
  unfold State.Blocked
  cases s.place t <;> infer_instance

end Decidability

inductive Party where
  | owner
  | writer
  | reader
  deriving DecidableEq

instance : Fintype Party where
  elems := {.owner, .writer, .reader}
  complete := fun party => by cases party <;> decide

def initialised : State Party where
  attr := pthreadProcessPrivate
  rwMutex := none
  rwCond := fun _ => ⟨0, []⟩
  rwNwait := fun _ => 0
  rwRefcount := 0
  place := fun _ => .outside
  returned := fun _ => .zero
  readers := []
  writers := []

theorem initialised_initial : Initial initialised :=
  ⟨rfl, fun _ => rfl, fun _ => rfl, rfl, fun _ => rfl, rfl, rfl⟩

def steps (party : Party) (op : Op) (count : Nat) : List (Event Party) :=
  .call party op :: List.replicate count (.proceed party 5)

def contention : List (Event Party) :=
  steps .owner .wrlock 4 ++ steps .writer .timedwrlock 5 ++ steps .reader .rdlock 5

def handOver : List (Event Party) :=
  contention ++ steps .owner .unlock 5 ++ List.replicate 4 (.proceed .writer 5)

theorem handOver_correct : ∃ last, execute step initialised handOver = some last ∧
      Throughout Correct (record step [] initialised handOver) last := by
  have isSome : (execute step initialised handOver).isSome := by decide +kernel
  have executed := (Option.some_get isSome).symm
  exact ⟨_, executed,
    rwlock_correct (.execute (.start initialised_initial) executed) (by decide +kernel)⟩

def expiry : List (Event Party) :=
  contention ++ [.expire .writer] ++ steps .owner .unlock 5 ++ List.replicate 4 (.proceed .writer 5)

def forgotten : State Party := (execute step initialised expiry).get (by decide +kernel)

theorem expiry_forgets_reader :
    ¬ ∀ (taken : List (Taken (State Party) (Event Party))) (last : State Party),
      (system Party).Run taken last → Throughout Correct taken last := by
  intro claim
  have run : (system Party).Run (record step [] initialised expiry) forgotten :=
    .execute (.start initialised_initial) (Option.some_get _).symm
  refine (claim _ _ run).1.notStuck (by decide +kernel) ⟨.reader, by decide +kernel⟩ ⟨?_, ?_⟩
  · decide +kernel
  · decide +kernel

end RtThread.Rwlock
