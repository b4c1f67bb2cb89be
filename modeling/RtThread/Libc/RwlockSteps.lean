import RtThread.Libc.Rwlock

/-!
# The owner of the mutex of a read-write lock

The condition on the steps, and the steps that take the lock, start to wait for it or unlock it.
-/

namespace RtThread.Rwlock

variable {Tid : Type} [DecidableEq Tid]

/-- What has to hold when a thread at this place goes on. -/
def Place.Attended (s : State Tid) : Place → Prop
  | .resetting _ => s.rwMutex = none ∧ s.rwRefcount = 0 ∧ ∀ mode, s.rwNwait mode = 0
  | .signalling .write =>
    (s.rwCond .write).suspendThread = [] → (s.rwCond .write).value ≠ 0xffff
  | .again .write _ code =>
    code ≠ .eok → s.rwRefcount = 0 → s.rwNwait .write = 1 → s.Served .read
  | _ => True

def Attended (s : State Tid) : Event Tid → Prop
  | .proceed t _ => (s.place t).Attended s
  | .call _ _ | .expire _ => True

namespace Cond

variable {cond : Cond Tid}

omit [DecidableEq Tid] in
theorem broadcastLoop_eq (fuel : Nat) (cond : Cond Tid)
    (drained : cond.suspendThread ≠ [] → cond.value = 0) (value_lt : cond.value < 0x10000)
    (enough : cond.suspendThread.length + 2 ≤ fuel) :
    broadcastLoop fuel cond = some ⟨max cond.value 1, []⟩ := by
  obtain ⟨v, suspendThread⟩ := cond
  induction suspendThread generalizing v fuel with
  | nil =>
    obtain ⟨fuel, rfl⟩ : ∃ more, fuel = more + 2 := ⟨fuel - 2, by simp at enough; omega⟩
    dsimp only at value_lt
    rcases Nat.eq_zero_or_pos v with rfl | token
    · rfl
    · have wrapped : (v - 1 + 1) % 0x10000 = max v 1 := by omega
      simp only [broadcastLoop, rtSemTrytake, if_pos token, rtSemRelease, wrapped]
  | cons a rest ih =>
    obtain ⟨fuel, rfl⟩ : ∃ more, fuel = more + 1 := ⟨fuel - 1, by simp at enough; omega⟩
    obtain rfl : v = 0 := drained (List.cons_ne_nil _ _)
    have rest := ih fuel 0 (fun _ => rfl) value_lt (by simp at enough ⊢; omega)
    simpa only [broadcastLoop, rtSemTrytake, Nat.lt_irrefl, if_false, rtSemRelease] using rest

omit [DecidableEq Tid] in
theorem pthreadCondBroadcast_eq (drained : cond.suspendThread ≠ [] → cond.value = 0)
    (value_lt : cond.value < 0x10000) : cond.pthreadCondBroadcast = some ⟨max cond.value 1, []⟩ :=
  broadcastLoop_eq _ cond drained value_lt le_rfl

end Cond

section Owner

variable {s : State Tid} {t : Tid} {mode : Mode}

theorem State.setPlace_others (s : State Tid) (p : Place) :
    ∀ u, u ≠ t → (s.setPlace t p).place u = s.place u :=
  fun _ ne => Function.update_of_ne ne _ _

theorem State.setPlace_self (s : State Tid) (p : Place) :
    (s.setPlace t p).place t = p := Function.update_self ..

omit [DecidableEq Tid] in
theorem State.acquire_counted (counted : s.Counted) (free : ¬ s.MustWait mode) :
    (s.acquire t mode).Counted := by
  cases mode with
  | read =>
    simp only [MustWait, not_or, not_lt] at free
    obtain ⟨count, noWriters⟩ := counted.readers (by omega)
    refine ⟨⟨fun isWriter => ?_, fun isWriter => ?_⟩, fun _ => ⟨?_, noWriters⟩⟩
    · simp only [acquire] at isWriter
      omega
    · simp [acquire, noWriters] at isWriter
    · simp [acquire, count]
  | write =>
    simp only [MustWait, ne_eq, not_not] at free
    obtain ⟨count, noWriters⟩ := counted.readers (by omega)
    have noReaders : s.readers = [] := List.eq_nil_of_length_eq_zero (by omega)
    exact ⟨⟨fun _ => ⟨⟨t, by simp [acquire, noWriters]⟩, noReaders⟩, fun _ => rfl⟩,
      fun isReader => absurd rfl isReader⟩

omit [DecidableEq Tid] in
theorem State.acquire_ne_zero (counted : s.Counted) (free : ¬ s.MustWait mode) :
    (s.acquire t mode).rwRefcount ≠ 0 := by
  cases mode with
  | read =>
    simp only [MustWait, not_or, not_lt] at free
    simp only [acquire]
    omega
  | write => simp [acquire]

theorem State.release_counted (counted : s.Counted)
    (holder : t ∈ s.readers ∨ t ∈ s.writers) : (s.release t).Counted := by
  by_cases isWriter : s.rwRefcount = -1
  · obtain ⟨⟨owner, writer⟩, noReaders⟩ := counted.writer.mp isWriter
    obtain rfl : t = owner := by simpa [writer, noReaders] using holder
    have released : s.release t = { s with rwRefcount := 0, writers := s.writers.erase t } := by
      simp [release, isWriter]
    rw [released]
    refine ⟨⟨fun no => by simp at no, fun no => ?_⟩, fun _ => ?_⟩
    · simp [writer] at no
    · simp [writer, noReaders]
  · obtain ⟨count, noWriters⟩ := counted.readers isWriter
    have held : t ∈ s.readers := by simpa [noWriters] using holder
    have pos := List.length_pos_of_mem held
    have released : s.release t =
        { s with rwRefcount := s.rwRefcount - 1, readers := s.readers.erase t } := by
      rw [release, if_pos (by omega)]
    rw [released]
    refine ⟨⟨fun no => by dsimp only at no; omega, fun no => ?_⟩, fun _ => ⟨?_, noWriters⟩⟩
    · simp [noWriters] at no
    · simp only [List.length_erase_of_mem held, count]
      omega

@[simp] theorem State.release_place : (s.release t).place = s.place := by
  unfold release
  split_ifs <;> rfl

@[simp] theorem State.release_rwCond : (s.release t).rwCond = s.rwCond := by
  unfold release
  split_ifs <;> rfl

@[simp] theorem State.release_rwNwait : (s.release t).rwNwait = s.rwNwait := by
  unfold release
  split_ifs <;> rfl

@[simp] theorem State.release_rwMutex : (s.release t).rwMutex = s.rwMutex := by
  unfold release
  split_ifs <;> rfl

theorem State.release_kept {u : Tid} (ne : u ≠ t) (held : u ∈ s.readers ∨ u ∈ s.writers) :
    u ∈ (s.release t).readers ∨ u ∈ (s.release t).writers := by
  unfold release
  split_ifs
  · simpa [List.mem_erase_of_ne ne] using held
  · simpa [List.mem_erase_of_ne ne] using held
  · exact held

variable [Fintype Tid]

variable {op : Op}

theorem Base.acquire (base : Base s) (p : s.place t = .inside op) (free : ¬ s.MustWait mode) :
    Inv ((s.acquire t mode).setPlace t (.leaving .zero)) := by
  have counted := s.acquire_counted (t := t) base.counted free
  have held := s.acquire_ne_zero (t := t) base.counted free
  have changed : Base ((s.acquire t mode).setPlace t (.leaving .zero)) := by
    have moved : ((s.acquire t mode).setPlace t (.leaving .zero)).place =
        Function.update s.place t (.leaving .zero) := by cases mode <;> rfl
    refine base.change (by rw [p]; rfl) moved rfl ?_ ?_ ?_ (fun _ => False.elim) ?_ id
      ⟨counted.writer, counted.readers⟩
    · cases mode <;> rfl
    · cases mode <;> rfl
    · intro mode'
      cases mode <;> simp [State.setPlace, State.acquire, p, Place.Waits]
    · intro u _ holds
      cases mode with
      | read => exact holds.imp_left (List.mem_cons_of_mem t)
      | write => exact holds.imp_right (List.mem_cons_of_mem t)
  exact { changed with
    writers := fun zero => absurd zero held, readers := fun zero => absurd zero held }

theorem Base.startWait (base : Base s) (timed : Bool) (p : s.place t = .inside op)
    (mustWait : s.MustWait mode) (served : mode = .read → s.rwRefcount = 0 → s.Served .write) :
    Inv ((s.addNwait mode 1).setPlace t (.unlocking mode timed)) := by
  have others := State.setPlace_others (t := t) (s.addNwait mode 1) (.unlocking mode timed)
  have changed : Base ((s.addNwait mode 1).setPlace t (.unlocking mode timed)) := by
    refine base.change (by rw [p]; rfl) rfl rfl rfl rfl ?_ ?_ (fun _ _ => id) id
      ⟨base.counted.writer, base.counted.readers⟩
    · intro mode'
      by_cases same : mode' = mode
      · subst same
        simp [State.setPlace, State.addNwait, p, Place.Waits]
      · simp [State.setPlace, State.addNwait, p, Place.Waits, same, Ne.symm same]
    · rintro mode' rfl
      cases mode with
      | read => simpa [State.setPlace, State.addNwait, State.MustWait] using mustWait
      | write => exact mustWait
  refine { changed with writers := ?_, readers := ?_ }
  · intro free
    cases mode with
    | write => exact absurd free mustWait
    | read =>
      refine (served rfl free).move_same (t := t) rfl others (fun isAsleep => ?_)
        fun isServing => ?_
      · simp [State.Asleep, State.setPlace, Place.Asleep] at isAsleep
      · simp [State.Serves, p, Place.Serves] at isServing
  · intro free noWriter
    cases mode with
    | write => exact absurd free mustWait
    | read =>
      have isFree : s.rwRefcount = 0 := free
      have none : s.rwNwait .write = 0 := by simpa [State.setPlace, State.addNwait] using noWriter
      simp [State.MustWait, isFree, none] at mustWait

theorem Base.loop (base : Base s) (timed : Bool) (p : s.place t = .inside op)
    (served : mode = .read → s.rwRefcount = 0 → s.Served .write) : Inv (s.loop t mode timed) := by
  unfold State.loop
  split_ifs with mustWait
  · exact base.startWait timed p mustWait served
  · exact base.acquire p mustWait

theorem Inv.leave (inv : Inv s) {r : Result} (p : s.place t = .inside op) :
    Inv (s.setPlace t (.leaving r)) := by
  have owns : (s.place t).OwnsMutex = true := by rw [p]; rfl
  exact inv.relabel rfl rfl rfl rfl rfl rfl (.stay rfl owns.symm)
    (inv.unlinked_of_ownsMutex owns) (fun mode => by rw [p]; rfl) (fun _ => id)
    (fun no => no.elim) (fun _ no => no.elim) fun mode serves => by
      rw [p] at serves
      exact serves

theorem Inv.tryAcquire (inv : Inv s) (p : s.place t = .inside op) : Inv (s.tryAcquire t mode) := by
  unfold State.tryAcquire
  split_ifs with mustWait
  · exact inv.leave p
  · exact inv.acquire p mustWait

theorem Inv.unlock (inv : Inv s) (p : s.place t = .inside .unlock) : Inv (s.unlock t) := by
  have owns : (s.place t).OwnsMutex = true := by rw [p]; rfl
  have counted := s.release_counted inv.counted (inv.holder t (by rw [p]; rfl))
  -- the data after the step; only the place differs
  have base (new : Place) (newOwns : new.OwnsMutex = true)
      (waits : ∀ mode, new.Waits mode = (s.place t).Waits mode)
      (isUnlocking : ∀ mode, ¬ new.IsUnlocking mode)
      (unlocks : ¬ new.Unlocks) : Base ((s.release t).setPlace t new) :=
    inv.toBase.change owns (by simp [State.setPlace]) newOwns (by simp [State.setPlace])
      (by simp [State.setPlace]) (fun mode => by simp [State.setPlace, waits])
      (fun mode no => absurd no (isUnlocking mode)) (fun u ne => State.release_kept ne)
      unlocks ⟨counted.writer, counted.readers⟩
  have leaving := base (.leaving .zero) rfl (fun _ => by rw [p]; rfl) (fun _ => id) id
  have signalling (mode : Mode) :=
    base (.signalling mode) rfl (fun _ => by rw [p]; rfl) (fun _ => id) id
  have serves (mode : Mode) : ((s.release t).setPlace t (.signalling mode)).Serves mode t := by
    simp [State.Serves, State.setPlace, Place.Serves]
  have notNegative (mode : Mode) : 0 ≤ (s.release t).rwNwait mode := by
    rw [State.release_rwNwait]
    exact inv.nwait_nonneg mode
  unfold State.unlock
  dsimp only
  split_ifs with writerWaits isFree readerWaits
  · exact { signalling .write with
      writers := fun _ => .of_serves (serves .write)
      readers := fun _ noWriter => by
        dsimp only [State.setPlace] at noWriter
        omega }
  · exact { leaving with
      writers := fun free => absurd free isFree, readers := fun free => absurd free isFree }
  · have noWriter : (s.release t).rwNwait .write = 0 := by
      have := notNegative .write
      omega
    exact { signalling .read with
      writers := fun _ => (signalling .read).served_of_none noWriter
      readers := fun _ _ => .of_serves (serves .read) }
  · have noWriter : (s.release t).rwNwait .write = 0 := by
      have := notNegative .write
      omega
    have noReader : (s.release t).rwNwait .read = 0 := by
      have := notNegative .read
      omega
    exact { leaving with
      writers := fun _ => leaving.served_of_none noWriter
      readers := fun _ _ => leaving.served_of_none noReader }

theorem Inv.enter (inv : Inv s) (p : s.place t = .inside op) : Inv (s.enter t op) := by
  cases op with
  | rdlock | wrlock => exact inv.loop false p fun _ => inv.writers
  | tryrdlock | trywrlock => exact inv.tryAcquire p
  | timedrdlock | timedwrlock => exact inv.loop true p fun _ => inv.writers
  | unlock => exact inv.unlock p

end Owner

section Semaphores

variable [Fintype Tid] {s : State Tid} {t : Tid} {mode : Mode} {timed : Bool} {code : RtErr}

omit [Fintype Tid] in
theorem State.loop_setPlace (s : State Tid) (p : Place) :
    (s.setPlace t p).loop t mode timed = s.loop t mode timed := by
  have same : (s.setPlace t p).MustWait mode ↔ s.MustWait mode := by cases mode <;> exact Iff.rfl
  by_cases mustWait : s.MustWait mode
  · rw [loop, loop, if_pos (same.mpr mustWait), if_pos mustWait]
    simp only [setPlace, addNwait, Function.update_idem]
  · rw [loop, loop, if_neg (fun no => mustWait (same.mp no)), if_neg mustWait]
    cases mode <;> simp only [setPlace, acquire, Function.update_idem]

theorem Inv.waited (inv : Inv s) (p : s.place t = .again mode timed code)
    (attended : mode = .write → code ≠ .eok → s.rwRefcount = 0 → s.rwNwait .write = 1 →
      s.Served .read) : Inv (s.waited t mode timed code) := by
  have owns : (s.place t).OwnsMutex = true := by rw [p]; rfl
  have left (new : Place) (newOwns : new.OwnsMutex = true)
      (waits : ∀ mode, new.Waits mode = false) (isUnlocking : ∀ mode, ¬ new.IsUnlocking mode)
      (unlocks : ¬ new.Unlocks) : Base ((s.addNwait mode (-1)).setPlace t new) := by
    refine inv.toBase.change owns rfl newOwns rfl rfl (fun mode' => ?_)
      (fun mode' no => absurd no (isUnlocking mode')) (fun _ _ => id) unlocks
      ⟨inv.counted.writer, inv.counted.readers⟩
    have counted : (s.place t).Waits mode' = decide (mode = mode') := by rw [p]; rfl
    by_cases same : mode' = mode
    · subst same
      simp [State.setPlace, State.addNwait, counted, waits]
    · simp [State.setPlace, State.addNwait, counted, waits, same, Ne.symm same]
  have served (new : Place) (mode' : Mode) (asleep : ∀ linked, ¬ new.Asleep mode' linked)
      (serves : mode' = mode → code ≠ .eok) (before : s.Served mode') :
      ((s.addNwait mode (-1)).setPlace t new).Served mode' := by
    refine before.move_same (t := t) rfl (State.setPlace_others _ _) (fun isAsleep => ?_)
      fun isServing => ?_
    · simp only [State.Asleep, State.setPlace_self] at isAsleep
      exact absurd isAsleep (asleep _)
    · simp only [State.Serves, p, Place.Serves] at isServing
      exact absurd isServing.2 (serves isServing.1.symm)
  unfold State.waited
  split_ifs with failed
  · refine { left (.leaving (State.waitResult timed code)) rfl (fun _ => rfl) (fun _ => id) id with
      writers := fun free => ?_, readers := fun free noWriter => ?_ }
    · exact served _ .write (fun _ => id) (fun _ => failed) (inv.writers free)
    · refine served _ .read (fun _ => id) (fun _ => failed) ?_
      cases mode with
      | read =>
        refine inv.readers free ?_
        simpa [State.setPlace, State.addNwait] using noWriter
      | write =>
        refine attended rfl failed free ?_
        simp [State.setPlace, State.addNwait] at noWriter
        omega
  · rw [← State.loop_setPlace (t := t) _ (.inside .rdlock)]
    have again := left (.inside .rdlock) rfl (fun _ => rfl) (fun _ => id) (by simp [Place.Unlocks])
    refine again.loop timed (State.setPlace_self _ _) fun isRead free => ?_
    subst isRead
    exact served _ .write (fun _ => id) (fun no => by simp at no) (inv.writers free)

omit [Fintype Tid] [DecidableEq Tid] in
theorem State.setCond_same (cond : Cond Tid) {u : Mode} (ne : u ≠ mode) :
    (s.setCond mode cond).rwCond u = s.rwCond u :=
  Function.update_of_ne ne _ _

theorem Inv.changeCond (inv : Inv s) {cond : Cond Tid} {new : Place}
    (newOwns : new.OwnsMutex = (s.place t).OwnsMutex)
    (waits : ∀ mode, new.Waits mode = (s.place t).Waits mode)
    (isUnlocking : ∀ mode, ¬ new.IsUnlocking mode) (unlocks : ¬ new.Unlocks)
    (unlinked : ∀ other, other ≠ mode → t ∉ (s.rwCond other).suspendThread)
    (elsewhere : ∀ other, other ≠ mode → ∀ linked,
      ¬ new.Asleep other linked ∧ ¬ (s.place t).Serves other linked)
    (queue : Queue ((s.setCond mode cond).setPlace t new) mode)
    (served : s.Served mode → ((s.setCond mode cond).setPlace t new).Served mode) :
    Inv ((s.setCond mode cond).setPlace t new) := by
  have others := State.setPlace_others (t := t) (s.setCond mode cond) new
  have base : Base ((s.setCond mode cond).setPlace t new) := by
    refine inv.toBase.move rfl (.stay rfl newOwns) (fun other => by rw [waits other]; rfl)
      (fun other => ?_) (.inr ⟨rfl, rfl⟩) (fun other no => absurd no (isUnlocking other))
      (fun _ _ => id) (fun no => absurd no unlocks) ⟨inv.counted.writer, inv.counted.readers⟩
    by_cases same : other = mode
    · exact same ▸ queue
    · exact (inv.queue other).same (State.setCond_same cond same) (unlinked other same) others
  have servedAll (other : Mode) (before : s.Served other) :
      ((s.setCond mode cond).setPlace t new).Served other := by
    by_cases same : other = mode
    · subst same
      exact served before
    · refine before.move_same (State.setCond_same cond same) others (fun isAsleep => ?_)
        fun isServing => absurd isServing (elsewhere other same _).2
      simp only [State.Asleep, State.setPlace_self] at isAsleep
      exact absurd isAsleep (elsewhere other same _).1
  exact { base with
    writers := fun free => servedAll .write (inv.writers free)
    readers := fun free noWriter => servedAll .read (inv.readers free noWriter) }

theorem Inv.semTake (inv : Inv s) (p : s.place t = .taking mode timed) (time : Int) :
    Inv (s.semTake t mode timed time) := by
  have unlinked (other : Mode) : t ∉ (s.rwCond other).suspendThread :=
    (inv.queue other).unlinked fun timed => by simp [p]
  have notOwns : (s.place t).OwnsMutex = false := by rw [p]; rfl
  have elsewhere (other : Mode) (ne : other ≠ mode) (linked : Prop) :
      ¬ (s.place t).Serves other linked := by simp [p, Place.Serves]
  have queue := inv.queue mode
  unfold State.semTake Cond.rtSemTrytake
  by_cases token : 0 < (s.rwCond mode).value
  · simp only [if_pos token]
    have drained : (s.rwCond mode).suspendThread = [] := by
      by_contra linked
      have := queue.drained linked
      omega
    refine inv.changeCond (notOwns.symm ▸ rfl) (fun other => by rw [p]; rfl) (fun _ => id) id
      (fun other _ => unlinked other)
      (fun other ne linked => ⟨id, elsewhere other ne linked⟩) ?_ fun _ => .of_serves (t := t) ?_
    · constructor <;> simp [State.setPlace, State.setCond, drained]
      have := queue.value_lt
      omega
    · simp [State.Serves, State.setPlace_self, Place.Serves]
  · simp only [if_neg token]
    by_cases expired : time = 0
    · simp only [if_pos expired]
      exact inv.relabel rfl rfl rfl rfl rfl rfl (.stay rfl notOwns.symm) unlinked
        (fun other => by rw [p]; rfl) (fun _ => id) (fun no => no.elim) (fun _ no => no.elim)
        fun other serves => by simp [p, Place.Serves] at serves
    · simp only [if_neg expired]
      refine inv.changeCond (notOwns.symm ▸ rfl) (fun other => by rw [p]; rfl) (fun _ => id) id
        (fun other _ => unlinked other)
        (fun other ne linked =>
          ⟨fun asleep => ne asleep.1.symm, elsewhere other ne linked⟩) ?_ fun served => ?_
      · refine ⟨?_, fun u linked => ?_, fun _ => ?_, ?_⟩
        · simpa [State.setPlace, State.setCond, List.nodup_append] using
            ⟨queue.nodup, fun u linked same => unlinked mode (same ▸ linked)⟩
        · by_cases same : u = t
          · exact ⟨timed, by rw [same, State.setPlace_self]⟩
          · rw [State.setPlace_others _ _ u same]
            refine queue.linked u ?_
            simpa [State.setPlace, State.setCond, same] using linked
        · simpa [State.setPlace, State.setCond] using token
        · simpa [State.setPlace, State.setCond] using queue.value_lt
      · refine served.move (t := t) (fun v => absurd v token) (fun u ne => ?_)
          (State.setPlace_others _ _) (fun _ => ?_) fun serves => ?_
        · simp [State.setPlace, State.setCond, ne]
        · simp [State.Asleep, p, Place.Asleep]
        · simp [State.Serves, p, Place.Serves] at serves

theorem Inv.expire (inv : Inv s) {s' : State Tid} (step : expire s t = some s') : Inv s' := by
  unfold Rwlock.expire at step
  split at step
  case h_2 => exact absurd step (by simp)
  case h_1 mode code p =>
    split_ifs at step with linked
    cases step
    have queue := inv.queue mode
    have notOwns : (s.place t).OwnsMutex = false := by rw [p]; rfl
    refine inv.changeCond (notOwns.symm ▸ rfl) (fun other => by rw [p]; rfl) (fun _ => id) id
      (fun other ne linked => ?_) (fun other ne linked => ?_) ?_ fun served => ?_
    · obtain ⟨timed, elsewhere⟩ := (inv.queue other).linked t linked
      rw [p] at elsewhere
      injection elsewhere with same
      exact ne same.symm
    · simp [p, Place.Asleep, Place.Serves, Ne.symm ne]
    · refine ⟨?_, fun u linked => ?_, fun more => ?_, ?_⟩
      · simpa [State.setPlace, State.setCond] using queue.nodup.erase t
      · have memErase : u ∈ (s.rwCond mode).suspendThread.erase t := by
          simpa [State.setPlace, State.setCond] using linked
        obtain ⟨ne, before⟩ := (queue.nodup.mem_erase_iff).mp memErase
        rw [State.setPlace_others _ _ u ne]
        exact queue.linked u before
      · simpa [State.setPlace, State.setCond] using queue.drained (List.ne_nil_of_mem linked)
      · simpa [State.setPlace, State.setCond] using queue.value_lt
    · refine served.move (t := t) (fun v => ?_) (fun u ne => ?_)
        (State.setPlace_others _ _) (fun asleep => ?_) fun serves => ?_
      · simpa [State.setPlace, State.setCond] using v
      · simp [State.setPlace, State.setCond, List.mem_erase_of_ne ne]
      · simp [State.Asleep, State.setPlace, State.setCond, Place.Asleep,
          queue.nodup.mem_erase_iff] at asleep
      · simp [State.Serves, p, Place.Serves, linked] at serves

theorem Inv.signalWriter (inv : Inv s) (p : s.place t = .signalling .write)
    (attended : (s.rwCond .write).suspendThread = [] → (s.rwCond .write).value ≠ 0xffff) :
    Inv ((s.setCond .write (s.rwCond .write).pthreadCondSignal).setPlace t (.leaving .zero)) := by
  have owns : (s.place t).OwnsMutex = true := by rw [p]; rfl
  have queue := inv.queue .write
  refine inv.changeCond owns.symm (fun other => by rw [p]; rfl) (fun _ => id) id
    (fun other _ => inv.unlinked_of_ownsMutex owns other) (fun other ne linked => ?_) ?_
    fun _ => ?_
  · simp [p, Place.Asleep, Place.Serves, Ne.symm ne]
  all_goals
    unfold Cond.pthreadCondSignal Cond.rtSemRelease
    rcases isEmpty : (s.rwCond .write).suspendThread with _ | ⟨first, rest⟩
  · constructor <;> simp [State.setPlace, State.setCond]
    omega
  · have unlinked := inv.unlinked_of_ownsMutex owns .write
    have nodup := queue.nodup
    have drained := queue.drained (by simp [isEmpty])
    rw [isEmpty] at unlinked nodup
    refine ⟨?_, fun u linked => ?_, fun _ => ?_, ?_⟩
    · simpa [State.setPlace, State.setCond] using (List.nodup_cons.mp nodup).2
    · have inRest : u ∈ rest := by simpa [State.setPlace, State.setCond] using linked
      have ne : u ≠ t := fun same => unlinked (List.mem_cons_of_mem _ (same ▸ inRest))
      rw [State.setPlace_others _ _ u ne]
      exact queue.linked u (by rw [isEmpty]; exact List.mem_cons_of_mem _ inRest)
    · simpa [State.setPlace, State.setCond] using drained
    · simpa [State.setPlace, State.setCond] using queue.value_lt
  · have := queue.value_lt
    have := attended isEmpty
    refine .of_value ?_
    simp [State.setPlace, State.setCond]
    omega
  · have unlinked := inv.unlinked_of_ownsMutex owns .write
    have nodup := queue.nodup
    obtain ⟨timed, firstPlace⟩ := queue.linked first (by simp [isEmpty])
    rw [isEmpty] at unlinked nodup
    have ne : first ≠ t := fun same => unlinked (same ▸ List.mem_cons_self ..)
    refine .of_serves (t := first) ?_
    rw [State.Serves, State.setPlace_others _ _ first ne]
    change (s.place first).Serves _ _
    rw [firstPlace]
    exact ⟨rfl, rfl, by simpa [State.setPlace, State.setCond] using (List.nodup_cons.mp nodup).1⟩

theorem Inv.signalReaders (inv : Inv s) (p : s.place t = .signalling .read)
    {cond : Cond Tid} (broadcast : (s.rwCond .read).pthreadCondBroadcast = some cond) :
    Inv ((s.setCond .read cond).setPlace t (.leaving .zero)) := by
  have owns : (s.place t).OwnsMutex = true := by rw [p]; rfl
  have queue := inv.queue .read
  rw [Cond.pthreadCondBroadcast_eq queue.drained queue.value_lt] at broadcast
  cases broadcast
  refine inv.changeCond owns.symm (fun u => by rw [p]; rfl) (fun _ => id) id
    (fun u _ => inv.unlinked_of_ownsMutex owns u) (fun u ne linked => ?_) ?_
    fun _ => .of_value ?_
  · simp [p, Place.Asleep, Place.Serves, Ne.symm ne]
  · have := queue.value_lt
    constructor <;> simp [State.setPlace, State.setCond]
    omega
  · simp [State.setPlace, State.setCond]

end Semaphores

end RtThread.Rwlock
