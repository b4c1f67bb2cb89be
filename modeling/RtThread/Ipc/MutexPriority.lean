import RtThread.Ipc.MutexInvariant
import Mathlib.Data.Fintype.Basic

/-!
# Priorities and mutexes

What raising an owner at the moment of blocking and restoring one saved priority at the final
release achieve.
-/

open TransitionSystem

namespace RtThread.Mutex

universe u v

variable {Tid : Type u} {Mid : Type v} [DecidableEq Tid] [DecidableEq Mid]

def Inherited (st : State Tid Mid) : Prop :=
  ∀ m o w, (st.mutex m).owner = some o → w ∈ st.waiters m →
    st.priority o ≤ st.priority w

def Restored (st : State Tid Mid) : Prop :=
  ∀ t, (∀ m, (st.mutex m).owner ≠ some t) →
    st.priority t = (st.kernel.thread t).initPriority

def FinalRelease (st : State Tid Mid) (t : Tid) (m : Mid) : Prop :=
  (st.mutex m).owner = some t ∧ (st.mutex m).hold = 1

instance (st : State Tid Mid) (t : Tid) (m : Mid) : Decidable (FinalRelease st t m) :=
  instDecidableAnd

/-- A thread that blocks finds nobody less urgent than itself two steps down the chain of
owners; a final release restores a priority that suits the waiters of the mutexes still
owned, and its first waiter is a most urgent one. -/
def KeepsInheritance (st : State Tid Mid) : Event Tid Mid → Prop
  | .take t m time =>
    time ≠ 0 → ∀ o, (st.mutex m).owner = some o → o ≠ t →
      ∀ n p, o ∈ st.waiters n → (st.mutex n).owner = some p →
        st.priority p ≤ st.priority t
  | .release t m =>
    FinalRelease st t m →
      (∀ n, n ≠ m → (st.mutex n).owner = some t → ∀ w ∈ st.waiters n,
        (st.mutex m).originalPriority ≤ st.priority w) ∧
      ∀ next, (st.waiters m).head? = some next → ∀ w ∈ st.waiters m,
        st.priority next ≤ st.priority w
  | _ => True

/-- A thread gives up its last mutex at a final release of one that it acquired while it
had its initial priority. -/
def KeepsRestoration (st : State Tid Mid) : Event Tid Mid → Prop
  | .release t m =>
    FinalRelease st t m → (∀ n, n ≠ m → (st.mutex n).owner ≠ some t) →
      (st.mutex m).originalPriority = (st.kernel.thread t).initPriority
  | _ => True

variable {m : Mid} {st s' : State Tid Mid} {t : Tid}

omit [DecidableEq Mid] in
theorem final_iff (inv : Inv st) (owns : (st.mutex m).owner = some t) :
    ((st.mutex m).hold + 0xff) % 0x100 = 0 ↔ FinalRelease st t m := by
  have := (inv.consistent m).hold t
  rw [if_pos owns] at this
  simp only [FinalRelease, owns, true_and]
  omega

structure Released (st after : State Tid Mid) (t : Tid) (m : Mid) : Prop where
  priority : ∀ s, after.priority s = if s = t then (st.mutex m).originalPriority else st.priority s
  initPriority : ∀ s, (after.kernel.thread s).initPriority = (st.kernel.thread s).initPriority
  waiters : ∀ n s, s ∈ after.waiters n ↔
    s ∈ st.waiters n ∧ (st.waiters m).head? ≠ some s
  owner : ∀ n, (after.mutex n).owner = if n = m then (st.waiters m).head? else (st.mutex n).owner

theorem released_handedOver (inv : Inv st) {next : Tid}
    {rest : List Tid} (waiters : st.waiters m = next :: rest) (ne : next ≠ t)
    {count : Tid → Mid → Nat} {mutex : Mid → RtMutex Tid}
    (owner : ∀ n, (mutex n).owner = if n = m then some next else (st.mutex n).owner) :
    Released st
      { st with
        kernel := (restorePriority st.kernel t
          (st.mutex m).originalPriority).rtThreadResume next
        mutex := mutex
        count := count } t m := by
  have nextWaits : next ∈ st.waiters m := waiters ▸ List.mem_cons_self
  have suspended : ((restorePriority st.kernel t
      (st.mutex m).originalPriority).thread next).stat = .suspend := by
    simpa [restorePriority_thread, ne] using inv.wellFormed.waiting next m nextWaits
  refine ⟨?_, ?_, ?_, ?_⟩
  · intro s
    by_cases isNext : s = next
    · simp [State.priority, Kernel.rtThreadResume_thread suspended, restorePriority_thread,
        isNext, ne]
    · simp only [State.priority, Kernel.rtThreadResume_thread suspended, restorePriority_thread,
        isNext, if_false]
      split <;> rfl
  · intro s
    by_cases isNext : s = next
    · simp [Kernel.rtThreadResume_thread suspended, restorePriority_thread, isNext, ne]
    · simp only [Kernel.rtThreadResume_thread suspended, restorePriority_thread, isNext, if_false]
      split <;> simp_all
  · intro n s
    simp only [State.waiters, Kernel.rtThreadResume_wait suspended,
      restorePriority_wait inv.wellFormed, inv.wellFormed.mem_erase]
    rw [State.waiters] at waiters
    simp [waiters, and_comm, eq_comm]
  · simpa [waiters] using owner

theorem released_freed (inv : Inv st)
    (noWaiters : st.waiters m = []) {count : Tid → Mid → Nat} {mutex : Mid → RtMutex Tid}
    (owner : ∀ n, (mutex n).owner = if n = m then none else (st.mutex n).owner) :
    Released st
      { st with
        kernel := restorePriority st.kernel t (st.mutex m).originalPriority
        mutex := mutex
        count := count } t m := by
  refine ⟨?_, ?_, ?_, ?_⟩
  · intro s
    simp only [State.priority, restorePriority_thread]
    split <;> rfl
  · intro s
    simp only [restorePriority_thread]
    split <;> simp_all
  · intro n s
    rw [noWaiters]
    simp [State.waiters, restorePriority_wait inv.wellFormed]
  · simpa [noWaiters] using owner

omit [DecidableEq Tid] [DecidableEq Mid] in
theorem Inherited.of_agree (inherited : Inherited st)
    (priority : ∀ s, s'.priority s = st.priority s) (waiters : ∀ n, s'.waiters n ⊆ st.waiters n)
    (owner : ∀ n, st.waiters n ≠ [] → (s'.mutex n).owner = (st.mutex n).owner) : Inherited s' := by
  intro n o w owns waits
  have waitsBefore := waiters n waits
  rw [owner n (List.ne_nil_of_mem waitsBefore)] at owns
  rw [priority, priority]
  exact inherited n o w owns waitsBefore

theorem blocked_inherited_iff (inv : Inv st)
    (inherited : Inherited st) {time : Int} (running : st.Running t)
    (notOwner : (st.mutex m).owner ≠ some t) (unavailable : (st.mutex m).value = 0)
    (waits : time ≠ 0) :
    Inherited { st with
      kernel := waitFor (st.kernel.setError t .eok) t m (st.mutex m) time
      taking := Function.update st.taking t (some (m, time)) } ↔
      KeepsInheritance st (.take t m time) := by
  have ready : ((st.kernel.setError t .eok).thread t).stat = .ready := by simpa using running.1
  have wf := inv.wellFormed.setError t .eok
  have mem : ∀ n s, s ∈ (waitFor (st.kernel.setError t .eok) t m (st.mutex m) time).queue
      (.wait n) ↔ (s = t ∧ n = m) ∨ s ∈ st.waiters n :=
    mem_waitFor_wait ready m (st.mutex m) time wf
  -- the owner of the mutex is the only thread whose priority changes
  have priority : ∀ s, ((waitFor (st.kernel.setError t .eok) t m (st.mutex m)
      time).thread s).currentPriority =
      if (st.mutex m).owner = some s then min (st.priority t) (st.priority s)
      else st.priority s := by
    intro s
    rw [waitFor_thread ready m (st.mutex m) time s notOwner]
    by_cases same : s = t
    · simp [same, State.priority]
    · by_cases owns : (st.mutex m).owner = some s
      · by_cases lower : (st.kernel.thread t).currentPriority < (st.kernel.thread s).currentPriority
        · simp [same, owns, lower, State.priority, Nat.min_eq_left (Nat.le_of_lt lower)]
        · simp [same, lower, State.priority, Nat.min_eq_right (Nat.le_of_not_lt lower)]
      · simp [same, owns, State.priority]
  have owned : ∃ o, (st.mutex m).owner = some o := by
    refine Option.ne_none_iff_exists'.mp fun noOwner => ?_
    have := ((inv.consistent m).free noOwner).1
    omega
  obtain ⟨o, owns⟩ := owned
  have callerWaits : ∀ n, t ∉ st.waiters n := inv.running_not_waiting running.1
  constructor
  · intro s' noZero o' owns' _ n p waitsO ownsN
    obtain rfl : o = o' := by simpa [owns] using owns'
    have notSelf : o ≠ p := by
      rintro rfl
      exact ((inv.consistent n).owned o ownsN).2.1 waitsO
    have := s' n p o ownsN ((mem n o).mpr (.inr waitsO))
    simp only [State.priority] at this ⊢
    rw [priority, priority, if_pos owns, if_neg (by simpa [owns] using notSelf)] at this
    simp only [State.priority] at this
    omega
  · intro cond n p w ownsN waitsW
    simp only [State.priority]
    rw [priority, priority]
    have lowered : (if (st.mutex m).owner = some p then
        min (st.priority t) (st.priority p) else st.priority p) ≤ st.priority p := by
      split <;> omega
    rcases (mem n w).mp waitsW with ⟨rfl, rfl⟩ | waitsBefore
    · rw [if_neg notOwner, if_pos ownsN]
      omega
    · have old := inherited n p w ownsN waitsBefore
      by_cases isOwner : (st.mutex m).owner = some w
      · have := cond waits w isOwner (fun equal => callerWaits n (equal ▸ waitsBefore))
          n p waitsBefore ownsN
        rw [if_pos isOwner]
        omega
      · rw [if_neg isOwner]
        omega

theorem Released.inherited_iff (released : Released st s' t m) (inv : Inv st)
    (inherited : Inherited st) (running : st.Running t) : Inherited s' ↔
      (∀ n, n ≠ m → (st.mutex n).owner = some t → ∀ w ∈ st.waiters n,
        (st.mutex m).originalPriority ≤ st.priority w) ∧
      ∀ next, (st.waiters m).head? = some next → ∀ w ∈ st.waiters m,
        st.priority next ≤ st.priority w := by
  have callerWaits : ∀ n, t ∉ st.waiters n := inv.running_not_waiting running.1
  have notCaller : ∀ {n w}, w ∈ st.waiters n → w ≠ t :=
    fun waits equal => callerWaits _ (equal ▸ waits)
  have unchanged : ∀ {n w}, w ∈ st.waiters n → s'.priority w = st.priority w :=
    fun waits => by rw [released.priority, if_neg (notCaller waits)]
  constructor
  · intro inheritedAfter
    refine ⟨?_, ?_⟩
    · intro n otherMutex owns w waits
      have stays : w ∈ s'.waiters n := by
        refine (released.waiters n w).mpr ⟨waits, fun isHead => otherMutex ?_⟩
        have := inv.wellFormed.disjoint w _ _ waits (List.mem_of_head? isHead)
        simpa using this
      have ownsAfter : (s'.mutex n).owner = some t := by
        rw [released.owner, if_neg otherMutex, owns]
      have := inheritedAfter n t w ownsAfter stays
      rwa [released.priority t, if_pos rfl, unchanged waits] at this
    · intro next isHead w waits
      by_cases isNext : w = next
      · exact Nat.le_of_eq (by rw [isNext])
      · have stays : w ∈ s'.waiters m := by
          refine (released.waiters m w).mpr ⟨waits, fun isHead' => isNext ?_⟩
          simpa [isHead, eq_comm] using isHead'
        have ownsAfter : (s'.mutex m).owner = some next := by
          rw [released.owner, if_pos rfl, isHead]
        have := inheritedAfter m next w ownsAfter stays
        rwa [unchanged (List.mem_of_head? isHead), unchanged waits] at this
  · rintro ⟨kept, urgent⟩ n o w owns stays
    have waits := ((released.waiters n w).mp stays).1
    rw [released.owner] at owns
    rw [unchanged waits]
    by_cases sameMutex : n = m
    · subst sameMutex
      rw [if_pos rfl] at owns
      rw [unchanged (List.mem_of_head? owns)]
      exact urgent o owns w waits
    · rw [if_neg sameMutex] at owns
      rw [released.priority]
      split
      · next isCaller => exact kept n sameMutex (isCaller ▸ owns) w waits
      · exact inherited n o w owns waits

omit [DecidableEq Mid] in
theorem setError_priority (kernel : Kernel Tid Mid) (t s : Tid) (code : RtErr) :
    ((kernel.setError t code).thread s).currentPriority = (kernel.thread s).currentPriority := by
  by_cases same : s = t <;> simp [same]

theorem Effect.inherited_iff {e : Event Tid Mid} (effect : Effect st e s') (inv : Inv st)
    (inherited : Inherited st) : Inherited s' ↔ KeepsInheritance st e := by
  cases effect with
  | @recursed t m time running owns =>
    refine iff_of_true (inherited.of_agree (fun s => setError_priority _ t s _)
      (fun n => List.Subset.refl _) fun n _ => ?_) ?_
    · by_cases same : n = m <;> simp [same]
    · intro _ o isOwner ne
      exact absurd (by simpa [owns] using isOwner.symm) ne
  | @acquired t m time running notOwner available =>
    have noOwner : (st.mutex m).owner = none := by
      by_contra hasOwner
      obtain ⟨o, isOwner⟩ := Option.ne_none_iff_exists'.mp hasOwner
      have := ((inv.consistent m).owned o isOwner).1
      omega
    have noWaiters := ((inv.consistent m).free noOwner).2.2
    refine iff_of_true (inherited.of_agree (fun s => setError_priority _ t s _)
      (fun n => List.Subset.refl _) fun n waits => ?_) ?_
    · have ne : n ≠ m := by
        rintro rfl
        exact waits noWaiters
      simp [ne]
    · simp [KeepsInheritance, noOwner]
  | @refused t m time running kernel noWait errors =>
    subst errors
    refine iff_of_true (inherited.of_agree (fun s => ?_) (fun n => List.Subset.refl _)
      fun _ _ => rfl) fun waits => absurd noWait waits
    exact (setError_priority _ t s _).trans (setError_priority _ t s _)
  | blocked running notOwner unavailable waits =>
    exact blocked_inherited_iff inv inherited running notOwner unavailable waits
  | @notOwned t m running notOwner =>
    exact iff_of_true (inherited.of_agree (fun s => setError_priority _ t s _)
      (fun n => List.Subset.refl _) fun _ _ => rfl) fun final => absurd final.1 notOwner
  | @unnested t m running owns held =>
    refine iff_of_true (inherited.of_agree (fun _ => rfl) (fun n => List.Subset.refl _)
      fun n _ => ?_) fun final => absurd ((final_iff inv owns).mpr final) held
    by_cases same : n = m <;> simp [same]
  | @handedOver t m next rest running owns final waiters ne =>
    have isFinal := (final_iff inv owns).mp final
    rw [KeepsInheritance, forall_prop_of_true isFinal]
    exact (released_handedOver inv waiters ne fun n => by
      by_cases same : n = m <;> simp [same]).inherited_iff inv inherited running
  | @freed t m running owns final noWaiters =>
    have isFinal := (final_iff inv owns).mp final
    rw [KeepsInheritance, forall_prop_of_true isFinal]
    exact (released_freed inv noWaiters fun n => by
      by_cases same : n = m <;> simp [same]).inherited_iff inv inherited running
  | returned ready => exact iff_of_true inherited trivial
  | @expired t suspended =>
    refine iff_of_true (inherited.of_agree (fun s => ?_) (fun n => ?_) fun _ _ => rfl) trivial
    · by_cases same : s = t <;> simp [State.priority, same]
    · simp only [State.waiters]
      exact List.erase_subset

/-- Over any run no owner is less urgent than a waiter throughout exactly if every
blocking take and every final release meets `KeepsInheritance`. -/
theorem inherited_throughout_iff {taken : List (Taken (State Tid Mid) (Event Tid Mid))}
    {last : State Tid Mid} (run : system.Run taken last) : Throughout Inherited taken last ↔
      EveryStep KeepsInheritance taken := by
  have base : ∀ st, Initial st → Inv (st : State Tid Mid) := fun _ init => init.inv
  refine run.throughout_iff_everyStep base (fun _ _ _ => step_inv) ?_ ?_
  · intro st init m o w owns
    simp [init.owner_eq m] at owns
  · intro st e s' inv inherited step
    exact (step_effect inv step).inherited_iff inv inherited

instance [Fintype Tid] [Fintype Mid] (st : State Tid Mid) :
    (e : Event Tid Mid) → Decidable (KeepsInheritance st e)
  | .take .. | .release .. => instDecidableForall
  | .resumed _ | .timeout _ => .isTrue trivial

theorem handover_inherited : Throughout Inherited (record step [] (fresh [20, 10] 1)
        [.take 0 0 0, .take 1 0 (-1), .release 0 0, .resumed 1]) ((execute step (fresh [20, 10] 1)
        [.take 0 0 0, .take 1 0 (-1), .release 0 0, .resumed 1]).get (by decide)) :=
  (inherited_throughout_iff (Run.execute
    (.start (fresh_initial [20, 10] 1)) (Option.some_get _).symm)).mpr (by decide)

/-- Two nested mutexes: releasing the inner one puts the owner of the outer one back to
20 while a thread of priority 10 still waits for it. -/
theorem nested_release_not_inherited :
    ¬ ∀ st, (system : TransitionSystem (State (Fin 2) (Fin 2)) _).Reachable st → Inherited st := by
  intro claim
  have run := Run.execute
    (.start (fresh_initial [20, 10] 2) : system.Run [] (fresh [20, 10] 2))
    (rfl : execute step (fresh [20, 10] 2)
      [.take 0 0 0, .take 0 1 0, .take 1 0 (-1), .release 0 1] = some _)
  have notBelow := claim _ run.reachable 0 0 1
  revert notBelow
  decide

theorem Released.restored_iff (released : Released st s' t m) (inv : Inv st)
    (restored : Restored st) (owns : (st.mutex m).owner = some t) :
    Restored s' ↔ ((∀ n, n ≠ m → (st.mutex n).owner ≠ some t) →
      (st.mutex m).originalPriority = (st.kernel.thread t).initPriority) := by
  have noLonger : (s'.mutex m).owner ≠ some t := by
    rw [released.owner, if_pos rfl]
    exact fun isHead => ((inv.consistent m).owned t owns).2.1 (List.mem_of_head? isHead)
  constructor
  · intro restoredAfter lastMutex
    have ownsNone : ∀ n, (s'.mutex n).owner ≠ some t := by
      intro n
      by_cases same : n = m
      · exact same ▸ noLonger
      · rw [released.owner, if_neg same]
        exact lastMutex n same
    have := restoredAfter t ownsNone
    rwa [released.priority, if_pos rfl, released.initPriority] at this
  · intro cond s ownsNone
    rw [released.priority, released.initPriority]
    split
    · rename_i isCaller
      subst isCaller
      refine cond fun n otherMutex => ?_
      have := ownsNone n
      rwa [released.owner, if_neg otherMutex] at this
    · rename_i notCaller
      refine restored s fun n => ?_
      by_cases same : n = m
      · subst same
        simpa [owns] using Ne.symm notCaller
      · have := ownsNone n
        rwa [released.owner, if_neg same] at this

omit [DecidableEq Tid] [DecidableEq Mid] in
theorem Restored.of_agree (restored : Restored st)
    (thread : ∀ s, (∀ m, (s'.mutex m).owner ≠ some s) → s'.priority s = st.priority s)
    (initPriority : ∀ s, (s'.kernel.thread s).initPriority = (st.kernel.thread s).initPriority)
    (owner : ∀ m s, (st.mutex m).owner = some s → (s'.mutex m).owner = some s) : Restored s' := by
  intro s ownsNone
  rw [thread s ownsNone, initPriority]
  exact restored s fun m owns => ownsNone m (owner m s owns)

omit [DecidableEq Mid] in
theorem setError_initPriority (kernel : Kernel Tid Mid) (t s : Tid) (code : RtErr) :
    ((kernel.setError t code).thread s).initPriority = (kernel.thread s).initPriority := by
  by_cases same : s = t <;> simp [same]

theorem Effect.restored_iff {e : Event Tid Mid} (effect : Effect st e s') (inv : Inv st)
    (restored : Restored st) : Restored s' ↔ KeepsRestoration st e := by
  cases effect with
  | @recursed t m time running owns =>
    refine iff_of_true (restored.of_agree (fun s _ => setError_priority _ t s _)
      (fun s => setError_initPriority _ t s _) fun n s isOwner => ?_) trivial
    by_cases same : n = m
    · simpa [same] using same ▸ isOwner
    · simpa [same] using isOwner
  | @acquired t m time running notOwner available =>
    refine iff_of_true (restored.of_agree (fun s _ => setError_priority _ t s _)
      (fun s => setError_initPriority _ t s _) fun n s isOwner => ?_) trivial
    have := ((inv.consistent n).owned s isOwner).1
    have ne : n ≠ m := by
      rintro rfl
      omega
    simpa [ne] using isOwner
  | @refused t m time running kernel noWait errors =>
    subst errors
    exact iff_of_true (restored.of_agree
      (fun s _ => (setError_priority _ t s _).trans (setError_priority _ t s _))
      (fun s => (setError_initPriority _ t s _).trans (setError_initPriority _ t s _))
      fun _ _ isOwner => isOwner) trivial
  | @blocked t m time running notOwner unavailable waits =>
    have ready : ((st.kernel.setError t .eok).thread t).stat = .ready := by simpa using running.1
    have thread := fun s => waitFor_thread ready m (st.mutex m) time s notOwner
    refine iff_of_true (restored.of_agree (fun s ownsNone => ?_) (fun s => ?_)
      fun _ _ isOwner => isOwner) trivial
    · simp only [State.priority, thread, ownsNone m]
      by_cases same : s = t <;> simp [same]
    · simp only [thread]
      by_cases same : s = t
      · simp [same]
      · simp only [same, if_false]
        split <;> simp [same]
  | @notOwned t m running notOwner =>
    exact iff_of_true (restored.of_agree (fun s _ => setError_priority _ t s _)
      (fun s => setError_initPriority _ t s _) fun _ _ isOwner => isOwner)
      fun final => absurd final.1 notOwner
  | @unnested t m running owns held =>
    refine iff_of_true (restored.of_agree (fun _ _ => rfl) (fun _ => rfl)
      fun n s isOwner => ?_) fun final => absurd ((final_iff inv owns).mpr final) held
    by_cases same : n = m
    · simpa [same] using same ▸ isOwner
    · simpa [same] using isOwner
  | @handedOver t m next rest running owns final waiters ne =>
    have isFinal := (final_iff inv owns).mp final
    rw [KeepsRestoration, forall_prop_of_true isFinal]
    exact (released_handedOver inv waiters ne fun n => by
      by_cases same : n = m <;> simp [same]).restored_iff inv restored owns
  | @freed t m running owns final noWaiters =>
    have isFinal := (final_iff inv owns).mp final
    rw [KeepsRestoration, forall_prop_of_true isFinal]
    exact (released_freed inv noWaiters fun n => by
      by_cases same : n = m <;> simp [same]).restored_iff inv restored owns
  | returned ready => exact iff_of_true restored trivial
  | @expired t suspended =>
    refine iff_of_true (restored.of_agree (fun s _ => ?_) (fun s => ?_)
      fun _ _ isOwner => isOwner) trivial
    · by_cases same : s = t <;> simp [State.priority, same]
    · by_cases same : s = t <;> simp [same]

/-- Over any run a thread without mutexes has its initial priority throughout exactly if
every final release of a last mutex meets `KeepsRestoration`. -/
theorem restored_throughout_iff {taken : List (Taken (State Tid Mid) (Event Tid Mid))}
    {last : State Tid Mid} (run : system.Run taken last) : Throughout Restored taken last ↔
      EveryStep KeepsRestoration taken := by
  have base : ∀ st, Initial st → Inv (st : State Tid Mid) := fun _ init => init.inv
  refine run.throughout_iff_everyStep base (fun _ _ _ => step_inv) ?_ ?_
  · exact fun st init t _ => init.unboosted t
  · intro st e s' inv restored step
    exact (step_effect inv step).restored_iff inv restored

instance [Fintype Mid] (st : State Tid Mid) :
    (e : Event Tid Mid) → Decidable (KeepsRestoration st e)
  | .release .. => instDecidableForall
  | .take .. | .resumed _ | .timeout _ => .isTrue trivial

theorem handover_restored : Throughout Restored (record step [] (fresh [20, 10] 1)
        [.take 0 0 0, .take 1 0 (-1), .release 0 0, .resumed 1]) ((execute step (fresh [20, 10] 1)
        [.take 0 0 0, .take 1 0 (-1), .release 0 0, .resumed 1]).get (by decide)) :=
  (restored_throughout_iff (Run.execute
    (.start (fresh_initial [20, 10] 1)) (Option.some_get _).symm)).mpr (by decide)

/-- A second mutex acquired while boosted and released last: its owner stays at the
priority of a thread that does not wait for it any more. -/
theorem overlapping_release_not_restored :
    ¬ ∀ st, (system : TransitionSystem (State (Fin 2) (Fin 2)) _).Reachable st → Restored st := by
  intro claim
  have run := Run.execute
    (.start (fresh_initial [20, 10] 2) : system.Run [] (fresh [20, 10] 2))
    (rfl : execute step (fresh [20, 10] 2)
      [.take 0 0 0, .take 1 0 (-1), .take 0 1 0, .release 0 0, .release 0 1] = some _)
  have back := claim _ run.reachable 0
  revert back
  decide

end RtThread.Mutex
