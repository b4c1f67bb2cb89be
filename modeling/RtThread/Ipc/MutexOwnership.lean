import RtThread.Ipc.MutexInvariant

/-!
# Ownership of mutexes

Who owns a mutex is recorded three times: in `value`, in `owner` and in `hold`.
-/

open TransitionSystem

namespace RtThread.Mutex

universe u v

variable {Tid : Type u} {Mid : Type v} [DecidableEq Tid] [DecidableEq Mid]

/-- A mutex is free exactly when all its takes have been answered by releases, and a
thread with an unanswered take owns it. -/
structure Owned (st : State Tid Mid) : Prop where
  value : ∀ m, (st.mutex m).value = 1 ↔ (st.mutex m).owner = none
  free : ∀ m, (st.mutex m).owner = none ↔ ∀ t, st.count t m = 0
  owner : ∀ t m, 0 < st.count t m → (st.mutex m).owner = some t
  /-- A suspended take that is about to return `RT_EOK` belongs to the owner. -/
  woken : ∀ t m time, st.taking t = some (m, time) →
    (st.kernel.thread t).stat = .ready → (st.kernel.thread t).error = .eok →
    (st.mutex m).owner = some t ∧ 0 < st.count t m

/-- The owner does not release with 257, 513, … takes outstanding. -/
def KeepsOwnership (st : State Tid Mid) : Event Tid Mid → Prop
  | .release t m =>
    (st.mutex m).owner = some t → 1 < st.count t m → st.count t m % 0x100 ≠ 1
  | _ => True

omit [DecidableEq Mid] in
theorem owned_iff {st : State Tid Mid} (inv : Inv st) :
    Owned st ↔ ∀ t m, 0 < st.count t m → (st.mutex m).owner = some t := by
  refine ⟨fun owned => owned.owner, fun owner => ⟨?_, ?_, owner, ?_⟩⟩
  · intro m
    cases isOwner : (st.mutex m).owner with
    | none => simp [((inv.consistent m).free isOwner).1]
    | some o => simp [((inv.consistent m).owned o isOwner).1]
  · intro m
    cases isOwner : (st.mutex m).owner with
    | none =>
      refine iff_of_true rfl fun t => ?_
      by_contra counted
      simp [owner t m (by omega)] at isOwner
    | some o =>
      have := ((inv.consistent m).owned o isOwner).2.2
      refine iff_of_false (by simp) fun none => ?_
      have := none o
      omega
  · intro t m time taking ready noError
    rcases inv.woken t m time taking ready with timedOut | ⟨-, owns⟩
    · simp [noError] at timedOut
    · exact ⟨owns, ((inv.consistent m).owned t owns).2.2⟩

omit [DecidableEq Mid] in
theorem final_iff_count {st : State Tid Mid} (inv : Inv st) {t : Tid} {m : Mid}
    (owns : (st.mutex m).owner = some t) :
    ((st.mutex m).hold + 0xff) % 0x100 = 0 ↔ st.count t m % 0x100 = 1 := by
  have := (inv.consistent m).hold t
  rw [if_pos owns] at this
  omega

theorem final_owned_iff {st s' : State Tid Mid} (inv : Inv st) (invAfter : Inv s')
    (owned : Owned st) {t : Tid} {m : Mid} (owns : (st.mutex m).owner = some t)
    (final : ((st.mutex m).hold + 0xff) % 0x100 = 0) (newOwner : Option Tid)
    (ne : newOwner ≠ some t)
    (owner : ∀ n, (s'.mutex n).owner = if n = m then newOwner else (st.mutex n).owner)
    (count : ∀ s n, newOwner ≠ some s → s'.count s n =
      if s = t ∧ n = m then st.count t m - 1 else st.count s n)
    (countNew : ∀ s n, newOwner = some s → n ≠ m → s'.count s n = st.count s n) :
    Owned s' ↔ KeepsOwnership st (.release t m) := by
  have ends := (final_iff_count inv owns).mp final
  rw [owned_iff invAfter, KeepsOwnership, forall_prop_of_true owns]
  constructor
  · intro ownerAfter more
    have := ownerAfter t m (by rw [count t m ne, if_pos ⟨rfl, rfl⟩]; omega)
    rw [owner, if_pos rfl] at this
    exact absurd this ne
  · intro once s n claims
    rw [owner]
    by_cases isNew : newOwner = some s
    · by_cases same : n = m
      · rw [if_pos same, isNew]
      · rw [countNew s n isNew same] at claims
        rw [if_neg same]
        exact owned.owner s n claims
    · rw [count s n isNew] at claims
      by_cases released : s = t ∧ n = m
      · rw [if_pos released] at claims
        exact absurd ends (once (by omega))
      · rw [if_neg released] at claims
        have ownsBefore := owned.owner s n claims
        have otherMutex : n ≠ m := by
          rintro rfl
          exact released ⟨by simpa [owns] using ownsBefore.symm, rfl⟩
        rw [if_neg otherMutex, ownsBefore]

theorem Effect.owned_iff {st s' : State Tid Mid} {e : Event Tid Mid} (effect : Effect st e s')
    (inv : Inv st) (owned : Owned st) : Owned s' ↔ KeepsOwnership st e := by
  have invAfter := effect.inv inv
  cases effect with
  | @recursed t m time running owns =>
    refine iff_of_true ((Mutex.owned_iff invAfter).mpr ?_) trivial
    intro s n claims
    by_cases same : n = m
    · subst same
      by_cases isCaller : s = t
      · simp [isCaller, owns]
      · simp only [State.setCount_count, isCaller]
          at claims
        simpa using owned.owner s n claims
    · simp only [State.setCount_count, same, and_false] at claims
      simpa [same] using owned.owner s n claims
  | @acquired t m time running notOwner available =>
    refine iff_of_true ((Mutex.owned_iff invAfter).mpr ?_) trivial
    intro s n claims
    by_cases same : n = m
    · subst same
      by_cases isCaller : s = t
      · simp [isCaller]
      · simp only [State.setCount_count, isCaller]
          at claims
        have := ((inv.consistent n).owned s (owned.owner s n claims)).1
        omega
    · simp only [State.setCount_count, same, and_false] at claims
      simpa [same] using owned.owner s n claims
  | refused running noWait errors | blocked running notOwner unavailable waits | returned ready
  | expired suspended =>
    exact iff_of_true ((Mutex.owned_iff invAfter).mpr owned.owner) trivial
  | notOwned running notOwner =>
    exact iff_of_true ((Mutex.owned_iff invAfter).mpr owned.owner)
      fun owns => absurd owns notOwner
  | @unnested t m running owns held =>
    refine iff_of_true ((Mutex.owned_iff invAfter).mpr ?_) ?_
    · intro s n claims
      by_cases same : n = m
      · subst same
        by_cases isCaller : s = t
        · simp [isCaller, owns]
        · simp only [State.setCount_count, isCaller]
            at claims
          simpa using owned.owner s n claims
      · simp only [State.setCount_count, same, and_false]
          at claims
        simpa [same] using owned.owner s n claims
    · exact fun _ _ ends => held ((final_iff_count inv owns).mpr ends)
  | @handedOver t m next rest running owns final waiters ne =>
    refine final_owned_iff inv invAfter owned owns final (some next) (by simpa using ne)
      (fun n => ?_) (fun s n notNext => ?_) fun s n isNext otherMutex => ?_
    · by_cases same : n = m <;> simp [same]
    · have : s ≠ next := fun equal => notNext (by rw [equal])
      simp [this]
    · simp [otherMutex]
  | @freed t m running owns final noWaiters =>
    refine final_owned_iff inv invAfter owned owns final none (by simp)
      (fun n => ?_) (fun s n _ => rfl) fun s n isNext => by simp at isNext
    by_cases same : n = m <;> simp [same]

/-- Over any run ownership agrees with the outstanding takes throughout exactly if no
owner releases with 257, 513, … takes outstanding. -/
theorem owned_throughout_iff {taken : List (Taken (State Tid Mid) (Event Tid Mid))}
    {last : State Tid Mid} (run : system.Run taken last) : Throughout Owned taken last ↔
      EveryStep KeepsOwnership taken := by
  have base : ∀ st, Initial st → Inv (st : State Tid Mid) := fun _ init => init.inv
  refine run.throughout_iff_everyStep base (fun _ _ _ => step_inv) ?_ ?_
  · intro st init
    refine (owned_iff (base st init)).mpr fun t m claims => ?_
    simp [init.count_eq t m] at claims
  · intro st e s' inv owned ran
    exact (step_effect inv ran).owned_iff inv owned

instance (st : State Tid Mid) : (e : Event Tid Mid) → Decidable (KeepsOwnership st e)
  | .release .. => instDecidableForall
  | .take .. | .resumed _ | .timeout _ => .isTrue trivial

theorem nested_take_owned : Throughout Owned (record step [] (fresh [20, 10, 15] 1)
        [.take 0 0 0, .take 0 0 0, .take 1 0 5, .take 2 0 (-1), .timeout 1, .release 0 0,
          .resumed 1, .release 0 0, .resumed 2]) ((execute step (fresh [20, 10, 15] 1)
        [.take 0 0 0, .take 0 0 0, .take 1 0 5, .take 2 0 (-1), .timeout 1, .release 0 0,
          .resumed 1, .release 0 0, .resumed 2]).get (by decide)) :=
  (owned_throughout_iff (Run.execute
    (.start (fresh_initial [20, 10, 15] 1)) (Option.some_get _).symm)).mpr (by decide)

theorem takes_reachable (n : Nat) :
    ∃ st : State (Fin 1) (Fin 1), system.Reachable st ∧ st.Running 0 ∧
      (st.mutex 0).owner = some 0 ∧ st.count 0 0 = n + 1 := by
  induction n with
  | zero =>
    have run := Run.execute
      (.start (fresh_initial [10] 1) : system.Run [] (fresh [10] 1))
      (rfl : execute step (fresh [10] 1) [.take 0 0 0] = some _)
    exact ⟨_, run.reachable, by decide, rfl, rfl⟩
  | succ n ih =>
    obtain ⟨st, ⟨taken, run⟩, running, owns, counted⟩ := ih
    have ran : step st (.take 0 0 0) = some (State.takeResult 0 0 0 (rtMutexTake st 0 0 0)) := by
      simp only [step, if_pos running]
    refine ⟨_, (run.next ran).reachable, ?_, ?_, ?_⟩
    · simpa [rtMutexTake, owns, State.takeResult, State.Running] using running.1
    · simp [rtMutexTake, owns, State.takeResult]
    · simp [rtMutexTake, owns, State.takeResult, counted]

/-- After 257 takes `hold` is 1, and one release gives the mutex away. -/
theorem takes_257_not_owned :
    ¬ ∀ st, (system : TransitionSystem (State (Fin 1) (Fin 1)) _).Reachable st → Owned st := by
  intro claim
  obtain ⟨st, ⟨taken, run⟩, running, owns, counted⟩ := takes_reachable 256
  have base : ∀ st, Initial st → Inv (st : State (Fin 1) (Fin 1)) := fun _ init => init.inv
  have inv : Inv st := run.invariant base fun _ _ _ => step_inv
  have ran : step st (.release 0 0) = some (rtMutexRelease st 0 0).1 := by
    simp only [step, if_pos running]
  have ownedAfter := claim _ (run.next ran).reachable
  have keeps := ((step_effect inv ran).owned_iff inv (claim _ run.reachable)).mp ownedAfter
  exact keeps owns (by omega) (by omega)

end RtThread.Mutex
