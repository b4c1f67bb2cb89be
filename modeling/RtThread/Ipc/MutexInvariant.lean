import RtThread.Ipc.Mutex

/-!
# What holds of the mutexes in every reachable state

`Effect` lists the changes a step can make; the invariants below and the three results
about mutexes are each proved from it by one case analysis.
-/

namespace RtThread.Mutex

universe u v

variable {Tid : Type u} {Mid : Type v} [DecidableEq Tid] [DecidableEq Mid]

inductive Effect (st : State Tid Mid) : Event Tid Mid → State Tid Mid → Prop where
  | recursed {t : Tid} {m : Mid} {time : Int} (running : st.Running t)
      (owns : (st.mutex m).owner = some t) :
      Effect st (.take t m time)
        { (st.setMutex m
            { st.mutex m with
              hold := ((st.mutex m).hold + 1) % 0x100 }).setCount t m (st.count t m + 1) with
          kernel := st.kernel.setError t .eok }
  | acquired {t : Tid} {m : Mid} {time : Int} (running : st.Running t)
      (notOwner : (st.mutex m).owner ≠ some t) (available : 0 < (st.mutex m).value) :
      Effect st (.take t m time)
        { (st.setMutex m
            { st.mutex m with
              value := (st.mutex m).value - 1
              owner := some t
              originalPriority := st.priority t
              hold := ((st.mutex m).hold + 1) % 0x100 }).setCount t m (st.count t m + 1) with
          kernel := st.kernel.setError t .eok }
  | refused {t : Tid} {m : Mid} {time : Int} (running : st.Running t) {kernel : Kernel Tid Mid}
      (noWait : time = 0)
      (errors : kernel = (st.kernel.setError t .eok).setError t .etimeout) :
      Effect st (.take t m time) { st with kernel := kernel }
  | blocked {t : Tid} {m : Mid} {time : Int} (running : st.Running t)
      (notOwner : (st.mutex m).owner ≠ some t) (unavailable : (st.mutex m).value = 0)
      (waits : time ≠ 0) :
      Effect st (.take t m time)
        { st with
          kernel := waitFor (st.kernel.setError t .eok) t m (st.mutex m) time
          taking := Function.update st.taking t (some (m, time)) }
  | notOwned {t : Tid} {m : Mid} (running : st.Running t)
      (notOwner : (st.mutex m).owner ≠ some t) :
      Effect st (.release t m) { st with kernel := st.kernel.setError t .error }
  | unnested {t : Tid} {m : Mid} (running : st.Running t)
      (owns : (st.mutex m).owner = some t)
      (held : ((st.mutex m).hold + 0xff) % 0x100 ≠ 0) :
      Effect st (.release t m)
        ((st.setMutex m
          { st.mutex m with
            hold := ((st.mutex m).hold + 0xff) % 0x100 }).setCount t m (st.count t m - 1))
  | handedOver {t : Tid} {m : Mid} {next : Tid} {rest : List Tid} (running : st.Running t)
      (owns : (st.mutex m).owner = some t)
      (final : ((st.mutex m).hold + 0xff) % 0x100 = 0)
      (waiters : st.waiters m = next :: rest) (ne : next ≠ t) :
      Effect st (.release t m)
        { ((st.setMutex m
            { st.mutex m with
              owner := some next
              originalPriority := st.priority next
              hold := 1 }).setCount t m (st.count t m - 1)).setCount next m
                (st.count next m + 1) with
          kernel := (restorePriority st.kernel t
            (st.mutex m).originalPriority).rtThreadResume next }
  | freed {t : Tid} {m : Mid} (running : st.Running t)
      (owns : (st.mutex m).owner = some t)
      (final : ((st.mutex m).hold + 0xff) % 0x100 = 0)
      (noWaiters : st.waiters m = []) :
      Effect st (.release t m)
        { (st.setMutex m
            { st.mutex m with
              value := ((st.mutex m).value + 1) % 0x10000
              owner := none
              originalPriority := 0xff
              hold := 0 }).setCount t m (st.count t m - 1) with
          kernel := restorePriority st.kernel t (st.mutex m).originalPriority }
  | returned {t : Tid} (ready : (st.kernel.thread t).stat = .ready) :
      Effect st (.resumed t) { st with taking := Function.update st.taking t none }
  | expired {t : Tid} (suspended : (st.kernel.thread t).stat = .suspend) :
      Effect st (.timeout t) { st with kernel := st.kernel.rtThreadTimeout t }

/-- One mutex with its suspend list and the outstanding takes of every thread. -/
structure Consistent (mutex : RtMutex Tid) (waiters : List Tid) (count : Tid → Nat) : Prop where
  free : mutex.owner = none → mutex.value = 1 ∧ mutex.hold = 0 ∧ waiters = []
  owned : ∀ o, mutex.owner = some o → mutex.value = 0 ∧ o ∉ waiters ∧ 0 < count o
  /-- `hold` counts the takes of the owner modulo the size of its type. -/
  hold : ∀ t, count t % 0x100 = if mutex.owner = some t then mutex.hold else 0

structure Inv (st : State Tid Mid) : Prop where
  wellFormed : st.kernel.WellFormed
  consistent : ∀ m, Consistent (st.mutex m) (st.waiters m) fun t => st.count t m
  waiting : ∀ t m, t ∈ st.waiters m → (∃ time, st.taking t = some (m, time)) ∧
    (st.kernel.thread t).error = .eok
  woken : ∀ t m time, st.taking t = some (m, time) → (st.kernel.thread t).stat = .ready →
    (st.kernel.thread t).error = .etimeout ∨
      (st.kernel.thread t).error = .eok ∧ (st.mutex m).owner = some t

variable {st s' : State Tid Mid} {t : Tid} {e : Event Tid Mid}

omit [DecidableEq Mid] in
theorem Inv.running_not_waiting (inv : Inv st)
    (ready : (st.kernel.thread t).stat = .ready) (m : Mid) : t ∉ st.waiters m :=
  inv.wellFormed.not_waiting (by simp [ready]) m

omit [DecidableEq Mid] in
theorem running_update (running : st.Running t) : Function.update st.taking t none = st.taking := by
  rw [← running.2]
  exact Function.update_eq_self t _

theorem take_effect (running : st.Running t) (m : Mid) (time : Int) :
    Effect st (.take t m time) (State.takeResult t m time (rtMutexTake st t m time)) := by
  by_cases owns : (st.mutex m).owner = some t
  · simpa [rtMutexTake, owns, State.takeResult, running_update running, State.setMutex,
      State.setCount] using Effect.recursed running owns
  · by_cases available : 0 < (st.mutex m).value
    · simpa [rtMutexTake, rtMutexTakeAgain, owns, available, State.takeResult,
        running_update running, State.setMutex, State.setCount, State.priority] using
        Effect.acquired running owns available
    · by_cases noWait : time = 0
      · simpa [rtMutexTake, rtMutexTakeAgain, owns, available, noWait, State.takeResult,
          running_update running] using Effect.refused running rfl rfl
      · simpa [rtMutexTake, rtMutexTakeAgain, owns, available, noWait, State.takeResult] using
          Effect.blocked running owns (by omega) noWait

theorem release_effect (wf : st.kernel.WellFormed)
    (running : st.Running t) (m : Mid) : Effect st (.release t m) (rtMutexRelease st t m).1 := by
  by_cases owns : (st.mutex m).owner = some t
  · by_cases final : ((st.mutex m).hold + 0xff) % 0x100 = 0
    · have sameWait := restorePriority_wait wf t (st.mutex m).originalPriority m
      cases waiters : st.waiters m with
      | nil =>
        have effect := Effect.freed running owns final waiters
        rw [State.waiters] at waiters
        simpa [rtMutexRelease, owns, final, passOn, waiters, sameWait, State.waiters,
          State.setMutex, State.setCount] using effect
      | cons next rest =>
        have ne : next ≠ t := by
          rintro rfl
          exact wf.not_waiting (by simp [running.1]) m (waiters ▸ List.mem_cons_self)
        have effect := Effect.handedOver running owns final waiters ne
        rw [State.waiters] at waiters
        simpa [rtMutexRelease, owns, final, passOn, waiters, sameWait, State.waiters,
          Kernel.rtIpcListResume, State.priority, restorePriority_thread, ne,
          State.setMutex, State.setCount] using effect
    · simpa [rtMutexRelease, owns, final] using Effect.unnested running owns final
  · simpa [rtMutexRelease, owns] using Effect.notOwned running owns

theorem step_effect (inv : Inv st) (ran : step st e = some s') : Effect st e s' := by
  cases e with
  | take t m time =>
    obtain ⟨running, ⟨⟩⟩ := Option.ite_none_right_eq_some.mp ran
    exact take_effect running m time
  | release t m =>
    obtain ⟨running, ⟨⟩⟩ := Option.ite_none_right_eq_some.mp ran
    exact release_effect inv.wellFormed running m
  | resumed t =>
    simp only [step] at ran
    split at ran
    · rename_i m time taking
      obtain ⟨ready, ⟨⟩⟩ := Option.ite_none_right_eq_some.mp ran
      have noSignal : (st.kernel.thread t).error ≠ .eintr := by
        rcases inv.woken t m time taking ready with timedOut | ⟨taken, -⟩
        · simp [timedOut]
        · simp [taken]
      simpa [rtMutexTakeResumed, noSignal] using Effect.returned ready
    · simp at ran
  | timeout t =>
    obtain ⟨expiry, ⟨⟩⟩ := Option.ite_none_right_eq_some.mp ran
    exact .expired expiry.1

namespace Consistent

variable {mutex : RtMutex Tid} {waiters : List Tid} {count : Tid → Nat}

section

variable (consistent : Consistent mutex waiters count)

include consistent

theorem recurse (owns : mutex.owner = some t) :
    Consistent { mutex with hold := (mutex.hold + 1) % 0x100 } waiters
      fun s => if s = t then count t + 1 else count s := by
  refine ⟨by simp [owns], ?_, ?_⟩
  · intro o isOwner
    obtain rfl : t = o := by simpa [owns] using isOwner
    obtain ⟨taken, notWaiting, -⟩ := consistent.owned t owns
    exact ⟨taken, notWaiting, by simp⟩
  · intro s
    have := consistent.hold s
    by_cases same : s = t
    · subst same
      simp only [owns, if_true] at this ⊢
      omega
    · simpa [owns, same, Ne.symm same] using this

theorem acquire (available : 0 < mutex.value) (p : Nat) : Consistent
      { mutex with
        value := mutex.value - 1
        owner := some t
        originalPriority := p
        hold := (mutex.hold + 1) % 0x100 } waiters
      fun s => if s = t then count t + 1 else count s := by
  have noOwner : mutex.owner = none := by
    by_contra hasOwner
    obtain ⟨o, isOwner⟩ := Option.ne_none_iff_exists'.mp hasOwner
    have := (consistent.owned o isOwner).1
    omega
  obtain ⟨one, notHeld, noWaiters⟩ := consistent.free noOwner
  refine ⟨by simp, ?_, ?_⟩
  · intro o isOwner
    obtain rfl : t = o := by simpa using isOwner
    simp [one, noWaiters]
  · intro s
    have := consistent.hold s
    by_cases same : s = t
    · subst same
      simp only [noOwner, if_true] at this ⊢
      simp at this
      omega
    · simpa [noOwner, same, Ne.symm same] using this

theorem wait {s' : List Tid} (unavailable : mutex.value = 0) (notOwner : mutex.owner ≠ some t)
    (mem : ∀ s, s ∈ s' → s = t ∨ s ∈ waiters) : Consistent mutex s' count := by
  refine ⟨?_, ?_, consistent.hold⟩
  · intro noOwner
    have := (consistent.free noOwner).1
    omega
  · intro o isOwner
    obtain ⟨taken, notWaiting, counted⟩ := consistent.owned o isOwner
    refine ⟨taken, ?_, counted⟩
    intro waits
    rcases mem o waits with rfl | waits
    · exact notOwner isOwner
    · exact notWaiting waits

theorem fewer {s' : List Tid} (subset : s' ⊆ waiters) : Consistent mutex s' count := by
  refine ⟨?_, ?_, consistent.hold⟩
  · intro noOwner
    obtain ⟨one, notHeld, noWaiters⟩ := consistent.free noOwner
    exact ⟨one, notHeld, List.subset_nil.mp (noWaiters ▸ subset)⟩
  · intro o isOwner
    obtain ⟨taken, notWaiting, counted⟩ := consistent.owned o isOwner
    exact ⟨taken, fun waits => notWaiting (subset waits), counted⟩

section

variable (owns : mutex.owner = some t)

include owns

theorem unnest (held : (mutex.hold + 0xff) % 0x100 ≠ 0) :
    Consistent { mutex with hold := (mutex.hold + 0xff) % 0x100 } waiters
      fun s => if s = t then count t - 1 else count s := by
  obtain ⟨taken, notWaiting, counted⟩ := consistent.owned t owns
  have holds := consistent.hold t
  rw [if_pos owns] at holds
  refine ⟨by simp [owns], ?_, ?_⟩
  · intro o isOwner
    obtain rfl : t = o := by simpa [owns] using isOwner
    refine ⟨taken, notWaiting, ?_⟩
    simp only [if_true]
    omega
  · intro s
    by_cases same : s = t
    · subst same
      simp only [owns, if_true]
      omega
    · simpa [owns, same, Ne.symm same] using consistent.hold s

theorem free_up (final : (mutex.hold + 0xff) % 0x100 = 0) (noWaiters : waiters = []) (p : Nat) :
    Consistent
      { mutex with
        value := (mutex.value + 1) % 0x10000
        owner := none
        originalPriority := p
        hold := 0 } waiters fun s => if s = t then count t - 1 else count s := by
  obtain ⟨taken, -, counted⟩ := consistent.owned t owns
  have holds := consistent.hold t
  rw [if_pos owns] at holds
  refine ⟨by simp [taken, noWaiters], by simp, ?_⟩
  intro s
  by_cases same : s = t
  · subst same
    simp
    omega
  · simpa [owns, same, Ne.symm same] using consistent.hold s

theorem hand_over {next : Tid} {rest : List Tid} (final : (mutex.hold + 0xff) % 0x100 = 0)
    (q : waiters = next :: rest) (nodup : waiters.Nodup) (p : Nat) :
    Consistent { mutex with owner := some next, originalPriority := p, hold := 1 } rest
      fun s => if s = next then count next + 1 else if s = t then count t - 1 else count s := by
  obtain ⟨taken, notWaiting, counted⟩ := consistent.owned t owns
  have holds := consistent.hold t
  rw [if_pos owns] at holds
  rw [q] at nodup notWaiting
  have ne : next ≠ t := fun equal => notWaiting (equal ▸ List.mem_cons_self)
  refine ⟨by simp, ?_, ?_⟩
  · intro o isOwner
    obtain rfl : next = o := by simpa using isOwner
    exact ⟨taken, (List.nodup_cons.mp nodup).1, by simp⟩
  · intro s
    have := consistent.hold s
    by_cases isNext : s = next
    · subst isNext
      simp only [owns, Option.some.injEq, Ne.symm ne, if_false, if_true] at this ⊢
      omega
    · by_cases same : s = t
      · subst same
        simp only [isNext, if_false, if_true, Option.some.injEq, Ne.symm isNext]
        omega
      · simpa [owns, isNext, Ne.symm isNext, same, Ne.symm same] using this

end

end

end Consistent

omit [DecidableEq Mid] in
theorem Initial.inv (init : Initial st) : Inv st where
  wellFormed := init.wellFormed
  consistent m :=
    { free := fun _ => ⟨init.value_eq m, init.hold_eq m, init.noWaiters m⟩
      owned := by simp [init.owner_eq m]
      hold := by simp [init.owner_eq m, init.count_eq] }
  waiting := by simp [init.noWaiters]
  woken := by simp [init.noCalls]

theorem Inv.change (inv : Inv st) (m : Mid) (wf : s'.kernel.WellFormed)
    (sameWait : ∀ n, s'.waiters n = st.waiters n) (sameTaking : s'.taking = st.taking)
    (sameThread : ∀ s, st.taking s ≠ none → (s'.kernel.thread s).stat = (st.kernel.thread s).stat ∧
      (s'.kernel.thread s).error = (st.kernel.thread s).error)
    (others : ∀ n, n ≠ m → s'.mutex n = st.mutex n ∧ ∀ t, s'.count t n = st.count t n)
    (consistent : Consistent (s'.mutex m) (st.waiters m) fun t => s'.count t m)
    (keeps : ∀ t, st.taking t ≠ none → (st.mutex m).owner = some t → (s'.mutex m).owner = some t) :
    Inv s' := by
  refine ⟨wf, ?_, ?_, ?_⟩
  · intro n
    rw [sameWait n]
    by_cases same : n = m
    · exact same ▸ consistent
    · obtain ⟨sameMutex, sameCount⟩ := others n same
      simpa only [sameMutex, sameCount] using inv.consistent n
  · intro s n waits
    rw [sameWait n] at waits
    obtain ⟨⟨time, taking⟩, noError⟩ := inv.waiting s n waits
    refine ⟨⟨time, by rw [sameTaking, taking]⟩, ?_⟩
    rw [(sameThread s (by simp [taking])).2, noError]
  · intro s n time taking ready
    rw [sameTaking] at taking
    have isTaking : st.taking s ≠ none := by simp [taking]
    obtain ⟨sameStat, sameError⟩ := sameThread s isTaking
    rw [sameError]
    refine (inv.woken s n time taking (sameStat ▸ ready)).imp_right fun ⟨noError, owns⟩ =>
      ⟨noError, ?_⟩
    by_cases same : n = m
    · subst same
      exact keeps s isTaking owns
    · rw [(others n same).1]
      exact owns

omit [DecidableEq Mid] in
theorem setError_sameThread (running : st.Running t)
    (code : RtErr) (s : Tid) (taking : st.taking s ≠ none) :
    ((st.kernel.setError t code).thread s).stat = (st.kernel.thread s).stat ∧
      ((st.kernel.setError t code).thread s).error = (st.kernel.thread s).error := by
  have ne : s ≠ t := fun equal => taking (equal ▸ running.2)
  simp [ne]

theorem Inv.blocked {st : State Tid Mid} (inv : Inv st) {t : Tid} {m : Mid} {time : Int}
    (running : st.Running t) (notOwner : (st.mutex m).owner ≠ some t)
    (unavailable : (st.mutex m).value = 0) :
    Inv
      { st with
        kernel := waitFor (st.kernel.setError t .eok) t m (st.mutex m) time
        taking := Function.update st.taking t (some (m, time)) } := by
  have ready : ((st.kernel.setError t .eok).thread t).stat = .ready := by simpa using running.1
  have wf := inv.wellFormed.setError t .eok
  have mem := mem_waitFor_wait ready m (st.mutex m) time wf
  have thread := fun s => waitFor_thread ready m (st.mutex m) time s notOwner
  refine ⟨waitFor_wellFormed ready m (st.mutex m) time wf, ?_, ?_, ?_⟩
  · intro n
    by_cases same : n = m
    · subst same
      refine (inv.consistent n).wait unavailable notOwner fun s waits => ?_
      simpa [State.waiters] using (mem n s).mp waits
    · refine (inv.consistent n).fewer fun s waits => ?_
      simpa [State.waiters, same] using (mem n s).mp waits
  · intro s n waits
    by_cases same : s = t
    · subst same
      have notBefore := inv.running_not_waiting running.1 n
      have sameMutex : n = m := by
        rcases (mem n s).mp waits with ⟨-, equal⟩ | waitsBefore
        · exact equal
        · exact absurd waitsBefore notBefore
      simp [sameMutex, thread]
    · have waitsBefore : s ∈ st.waiters n := by
        simpa [same, State.waiters] using (mem n s).mp waits
      obtain ⟨⟨time', taking⟩, noError⟩ := inv.waiting s n waitsBefore
      refine ⟨⟨time', by simpa [same] using taking⟩, ?_⟩
      simp only [thread, same, if_false]
      split <;> simpa [same] using noError
  · intro s n time' taking ready'
    by_cases same : s = t
    · subst same
      simp [thread] at ready'
    · have taking' : st.taking s = some (n, time') := by simpa [same] using taking
      have sameThread : ((waitFor (st.kernel.setError t .eok) t m (st.mutex m)
          time).thread s).stat = (st.kernel.thread s).stat ∧
          ((waitFor (st.kernel.setError t .eok) t m (st.mutex m) time).thread s).error =
            (st.kernel.thread s).error := by
        simp only [thread, same, if_false]
        split <;> simp [same]
      rw [sameThread.1] at ready'
      rw [sameThread.2]
      exact inv.woken s n time' taking' ready'

theorem Inv.handedOver {st : State Tid Mid} (inv : Inv st) {t next : Tid} {m : Mid}
    {rest : List Tid} (running : st.Running t) (owns : (st.mutex m).owner = some t)
    (final : ((st.mutex m).hold + 0xff) % 0x100 = 0)
    (waiters : st.waiters m = next :: rest) (ne : next ≠ t) :
    Inv
      { ((st.setMutex m
          { st.mutex m with
            owner := some next
            originalPriority := st.priority next
            hold := 1 }).setCount t m (st.count t m - 1)).setCount next m
              (st.count next m + 1) with
        kernel := (restorePriority st.kernel t
          (st.mutex m).originalPriority).rtThreadResume next } := by
  have nextWaits : next ∈ st.waiters m := waiters ▸ List.mem_cons_self
  have wf := restorePriority_wellFormed inv.wellFormed t (st.mutex m).originalPriority
  have suspended : ((restorePriority st.kernel t
      (st.mutex m).originalPriority).thread next).stat = .suspend := by
    simpa [restorePriority_thread, ne] using inv.wellFormed.waiting next m nextWaits
  have wait : ∀ n, ((restorePriority st.kernel t
      (st.mutex m).originalPriority).rtThreadResume next).queue (.wait n) =
      (st.waiters n).erase next := by
    intro n
    rw [Kernel.rtThreadResume_wait suspended, restorePriority_wait inv.wellFormed]
    rfl
  have mem : ∀ n s, s ∈ (st.waiters n).erase next ↔ s ≠ next ∧ s ∈ st.waiters n :=
    fun n s => inv.wellFormed.mem_erase s (.wait n)
  have thread := Kernel.rtThreadResume_thread suspended
  refine ⟨wf.rtThreadResume next, ?_, ?_, ?_⟩
  · intro n
    simp only [State.waiters, wait]
    by_cases same : n = m
    · subst same
      rw [← State.waiters, waiters, List.erase_cons_head]
      simpa using (inv.consistent n).hand_over owns final waiters
        (inv.wellFormed.nodup _) (st.priority next)
    · simpa [same, State.waiters] using
        (inv.consistent n).fewer fun s waits => ((mem n s).mp waits).2
  · intro s n waits
    simp only [State.waiters, wait] at waits
    obtain ⟨notNext, waitsBefore⟩ := (mem n s).mp waits
    have notCaller : s ≠ t := fun equal =>
      inv.running_not_waiting running.1 n (equal ▸ waitsBefore)
    simpa [thread, notNext, notCaller, restorePriority_thread] using
      inv.waiting s n waitsBefore
  · intro s n time taking ready
    by_cases isNext : s = next
    · subst isNext
      obtain ⟨⟨time', taking'⟩, noError⟩ := inv.waiting s m nextWaits
      have sameMutex : n = m := by simp_all
      simp [sameMutex, thread, restorePriority_thread, ne, noError]
    · have notCaller : s ≠ t := by
        rintro rfl
        simp [running.2] at taking
      simp only [thread, isNext, restorePriority_thread, notCaller] at ready ⊢
      refine (inv.woken s n time taking ready).imp_right fun ⟨noError, owns'⟩ => ⟨noError, ?_⟩
      have otherMutex : n ≠ m := by
        rintro rfl
        exact notCaller (by simpa [owns] using owns'.symm)
      simpa [otherMutex] using owns'

theorem Effect.inv (effect : Effect st e s') (inv : Inv st) : Inv s' := by
  cases effect with
  | @recursed t m time running owns =>
    refine inv.change m (inv.wellFormed.setError t .eok) (fun _ => rfl) rfl
      (setError_sameThread running _) (fun n ne => by simp [ne]) ?_ (by simp)
    simpa using (inv.consistent m).recurse owns
  | @acquired t m time running notOwner available =>
    refine inv.change m (inv.wellFormed.setError t .eok) (fun _ => rfl) rfl
      (setError_sameThread running _) (fun n ne => by simp [ne]) ?_ ?_
    · simpa using (inv.consistent m).acquire available (st.priority t)
    · intro s _ owns
      have := ((inv.consistent m).owned s owns).1
      omega
  | @refused t m time running kernel noWait errors =>
    subst errors
    refine inv.change m ((inv.wellFormed.setError t _).setError t _) (fun _ => rfl) rfl
      ?_ (fun _ _ => ⟨rfl, fun _ => rfl⟩) (inv.consistent m) (fun _ _ owns => owns)
    intro s taking
    have ne : s ≠ t := fun equal => taking (equal ▸ running.2)
    simp [ne]
  | blocked running notOwner unavailable => exact inv.blocked running notOwner unavailable
  | @notOwned t m running notOwner =>
    exact inv.change m (inv.wellFormed.setError t _) (fun _ => rfl) rfl
      (setError_sameThread running _) (fun _ _ => ⟨rfl, fun _ => rfl⟩) (inv.consistent m)
      (fun _ _ owns => owns)
  | @unnested t m running owns held =>
    refine inv.change m inv.wellFormed (fun _ => rfl) rfl (fun _ _ => ⟨rfl, rfl⟩)
      (fun n ne => by simp [ne]) ?_ (by simp)
    simpa using (inv.consistent m).unnest owns held
  | handedOver running owns final waiters ne =>
    exact inv.handedOver running owns final waiters ne
  | @freed t m running owns final noWaiters =>
    refine inv.change m (restorePriority_wellFormed inv.wellFormed t _)
      (restorePriority_wait inv.wellFormed t _) rfl ?_ (fun n ne => by simp [ne]) ?_ ?_
    · intro s taking
      have ne : s ≠ t := fun equal => taking (equal ▸ running.2)
      simp [restorePriority_thread, ne]
    · simpa using (inv.consistent m).free_up owns final noWaiters 0xff
    · intro s taking owns'
      obtain rfl : t = s := by simpa [owns] using owns'
      exact absurd running.2 taking
  | @returned t ready =>
    refine ⟨inv.wellFormed, inv.consistent, ?_, ?_⟩
    · intro s n waits
      have ne : s ≠ t := fun equal => inv.running_not_waiting ready n (equal ▸ waits)
      simpa [ne] using inv.waiting s n waits
    · intro s n time taking ready'
      by_cases same : s = t
      · simp [same] at taking
      · exact inv.woken s n time (by simpa [same] using taking) ready'
  | @expired t suspended =>
    have mem : ∀ n s, s ∈ (st.kernel.rtThreadTimeout t).queue (.wait n) →
        s ≠ t ∧ s ∈ st.waiters n := by
      intro n s waits
      exact (inv.wellFormed.mem_erase s _).mp waits
    refine ⟨inv.wellFormed.rtThreadTimeout t, ?_, ?_, ?_⟩
    · exact fun n => (inv.consistent n).fewer fun s waits => (mem n s waits).2
    · intro s n waits
      obtain ⟨ne, waitsBefore⟩ := mem n s waits
      simpa [ne] using inv.waiting s n waitsBefore
    · intro s n time taking ready
      by_cases same : s = t
      · simp [same]
      · simp only [Kernel.rtThreadTimeout_thread, same] at ready ⊢
        exact inv.woken s n time taking ready

theorem step_inv (inv : Inv st) (ran : step st e = some s') : Inv s' :=
  (step_effect inv ran).inv inv

end RtThread.Mutex
