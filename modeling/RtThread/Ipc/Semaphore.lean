import RtThread.Kernel.Services
import RtThread.Library.Counting
import RtThread.Library.TransitionSystem

/-!
# Semaphores

`rt_sem_take`, `rt_sem_trytake` and `rt_sem_release` on one semaphore, called by any
number of threads and by interrupt handlers.  Every stretch of code that runs with
interrupts disabled is one step; between two steps any thread that is not suspended
may run, an interrupt may come, and the timer of a waiting thread may expire.

A release either counts up the 16-bit `value` or hands its token to the first waiter,
who finds out when it runs again.  `Conserved` is the balance of tokens over a run.
-/

open Function (update)
open TransitionSystem

namespace RtThread.Semaphore

universe u

/-- One semaphore, `struct rt_semaphore`, with the threads that use it.  `taken` and
`released` count the successful takes and the releases of the run so far. -/
structure State (Tid : Type u) where
  kernel : Kernel Tid Unit
  /-- `value`, an `rt_uint16_t`. -/
  value : Nat
  flag : IpcFlag
  /-- The thread is inside `rt_sem_take`, past `rt_ipc_list_suspend`. -/
  taking : Tid → Bool
  taken : Nat
  released : Nat

inductive Event (Tid : Type u) where
  | take (t : Tid) (time : Int)
  | trytake (t : Tid)
  | takeIsr (time : Int)
  | resumed (t : Tid)
  | release (t : Tid)
  | releaseIsr
  | timeout (t : Tid)

def Event.IsRelease {Tid : Type u} : Event Tid → Prop
  | .release _ | .releaseIsr => True
  | _ => False

variable {Tid : Type u} [DecidableEq Tid]

namespace State

def waiters (st : State Tid) : List Tid := st.kernel.queue (.wait ())

def Running (st : State Tid) (t : Tid) : Prop :=
  (st.kernel.thread t).stat = .ready ∧ st.taking t = false

instance (st : State Tid) (t : Tid) : Decidable (st.Running t) := instDecidableAnd

def handed (st : State Tid) (t : Tid) : Bool :=
  st.taking t && decide ((st.kernel.thread t).stat = .ready) &&
    decide ((st.kernel.thread t).error = .eok)

end State

def rtSemTake (st : State Tid) (t : Tid) (time : Int) : State Tid × Option RtErr :=
  if 0 < st.value then ({ st with value := st.value - 1 }, some .eok)
  else if time = 0 then (st, some .etimeout)
  else
    ({ st with kernel := st.kernel.blockOn () t st.flag time }, none)

def rtSemTrytake (st : State Tid) (t : Tid) : State Tid × Option RtErr :=
  rtSemTake st t 0

def rtSemRelease (st : State Tid) : State Tid :=
  if st.waiters ≠ [] then { st with kernel := st.kernel.rtIpcListResume () }
  else { st with value := (st.value + 1) % 0x10000 }

def State.returned (st : State Tid) (code : RtErr) : State Tid :=
  if code = .eok then { st with taken := st.taken + 1 } else st

/-- The caller of `rt_sem_take` goes on, or is suspended inside the call. -/
def State.takeResult (t : Tid) : State Tid × Option RtErr → State Tid
  | (after, some code) => after.returned code
  | (after, none) => { after with taking := update after.taking t true }

/-- One step.  A handler may not block: `RT_DEBUG_IN_THREAD_CONTEXT` stops it. -/
def step (st : State Tid) : Event Tid → Option (State Tid)
  | .take t time =>
    if st.Running t then some (State.takeResult t (rtSemTake st t time)) else none
  | .trytake t =>
    if st.Running t then some (State.takeResult t (rtSemTrytake st t)) else none
  | .takeIsr time =>
    if 0 < st.value then some { st with value := st.value - 1, taken := st.taken + 1 }
    else if time = 0 then some st
    else none
  | .resumed t =>
    if st.taking t ∧ (st.kernel.thread t).stat = .ready then
      some (State.returned { st with taking := update st.taking t false }
        (st.kernel.thread t).error)
    else none
  | .release t =>
    if st.Running t then
      some { rtSemRelease st with released := st.released + 1 }
    else none
  | .releaseIsr => some { rtSemRelease st with released := st.released + 1 }
  | .timeout t =>
    if (st.kernel.thread t).stat = .suspend ∧ (st.kernel.thread t).timer then
      some { st with kernel := st.kernel.rtThreadTimeout t }
    else none

/-- After `rt_sem_init(sem, name, value, flag)`: nobody is inside a call. -/
structure Initial (value : Nat) (flag : IpcFlag) (st : State Tid) : Prop where
  wellFormed : st.kernel.WellFormed
  noWaiters : st.waiters = []
  noCalls : ∀ t, st.taking t = false
  value_eq : st.value = value
  value_lt : value < 0x10000
  flag_eq : st.flag = flag
  taken_eq : st.taken = 0
  released_eq : st.released = 0

def system (value : Nat) (flag : IpcFlag) : TransitionSystem (State Tid) (Event Tid) :=
  ofFunction (Initial value flag) step

/-- Successful takes, tokens handed to threads that have not run yet and the value
make up the initial value and the releases; a positive value leaves nobody waiting. -/
def Conserved [Fintype Tid] (initial : Nat) (st : State Tid) : Prop :=
  st.taken + countOf st.handed + st.value = initial + st.released ∧
    (0 < st.value → st.waiters = [])

/-- A release that has to count finds `value` below the largest `rt_uint16_t`. -/
def BelowMaximum (st : State Tid) (e : Event Tid) : Prop :=
  e.IsRelease → st.waiters = [] → st.value ≠ 0xffff

structure Inv (st : State Tid) : Prop where
  wellFormed : st.kernel.WellFormed
  value_lt : st.value < 0x10000
  waiting : ∀ t ∈ st.waiters, st.taking t = true ∧ (st.kernel.thread t).error = .eok
  drained : st.waiters ≠ [] → st.value = 0

inductive Effect (st : State Tid) : Event Tid → State Tid → Prop where
  | took {e : Event Tid} (isTake : ¬ e.IsRelease) (available : 0 < st.value) :
      Effect st e { st with value := st.value - 1, taken := st.taken + 1 }
  | refused {e : Event Tid} (isTake : ¬ e.IsRelease) : Effect st e st
  | blocked {t : Tid} {time : Int} (running : st.Running t) (empty : st.value = 0) :
      Effect st (.take t time)
        { st with
          kernel := st.kernel.blockOn () t st.flag time
          taking := update st.taking t true }
  | gotToken {t : Tid} (handed : st.handed t = true) :
      Effect st (.resumed t)
        { st with taking := update st.taking t false, taken := st.taken + 1 }
  | gaveUp {t : Tid} (woken : (st.kernel.thread t).stat = .ready)
      (handed : st.handed t = false) :
      Effect st (.resumed t) { st with taking := update st.taking t false }
  | passed {e : Event Tid} (isRelease : e.IsRelease) {t : Tid} {rest : List Tid}
      (waiters : st.waiters = t :: rest) :
      Effect st e
        { st with kernel := st.kernel.rtThreadResume t, released := st.released + 1 }
  | counted {e : Event Tid} (isRelease : e.IsRelease) (waiters : st.waiters = []) :
      Effect st e
        { st with value := (st.value + 1) % 0x10000, released := st.released + 1 }
  | expired {t : Tid} (suspended : (st.kernel.thread t).stat = .suspend) :
      Effect st (.timeout t) { st with kernel := st.kernel.rtThreadTimeout t }

variable {e : Event Tid} {st s' : State Tid} {init : Nat}

theorem effect_release (isRelease : e.IsRelease) :
    Effect st e { rtSemRelease st with released := st.released + 1 } := by
  cases waiters : st.waiters with
  | nil => simpa [rtSemRelease, waiters] using Effect.counted isRelease waiters
  | cons t rest =>
    have first : st.kernel.rtIpcListResume () = st.kernel.rtThreadResume t := by
      rw [State.waiters] at waiters
      simp [Kernel.rtIpcListResume, waiters]
    simpa [rtSemRelease, waiters, first] using Effect.passed isRelease waiters

theorem step_effect (ran : step st e = some s') : Effect st e s' := by
  cases e with
  | take t time =>
    obtain ⟨running, ran⟩ := Option.ite_none_right_eq_some.mp ran
    by_cases available : 0 < st.value
    · simp [rtSemTake, available] at ran
      exact ran ▸ .took (by simp [Event.IsRelease]) available
    · by_cases noWait : time = 0
      · simp [rtSemTake, available, noWait] at ran
        exact ran ▸ .refused (by simp [Event.IsRelease])
      · simp [rtSemTake, available, noWait] at ran
        exact ran ▸ .blocked running (by omega)
  | trytake t =>
    obtain ⟨-, ran⟩ := Option.ite_none_right_eq_some.mp ran
    by_cases available : 0 < st.value
    · simp [rtSemTrytake, rtSemTake, available] at ran
      exact ran ▸ .took (by simp [Event.IsRelease]) available
    · simp [rtSemTrytake, rtSemTake, available] at ran
      exact ran ▸ .refused (by simp [Event.IsRelease])
  | takeIsr time =>
    simp only [step] at ran
    split at ran
    · rename_i available
      cases ran
      exact .took (by simp [Event.IsRelease]) available
    · obtain ⟨-, ⟨⟩⟩ := Option.ite_none_right_eq_some.mp ran
      exact .refused (by simp [Event.IsRelease])
  | resumed t =>
    obtain ⟨woken, ran⟩ := Option.ite_none_right_eq_some.mp ran
    by_cases token : (st.kernel.thread t).error = .eok
    · simp [token] at ran
      exact ran ▸ .gotToken (by simp [State.handed, woken, token])
    · simp [State.returned, token] at ran
      exact ran ▸ .gaveUp woken.2 (by simp [State.handed, token])
  | release t =>
    obtain ⟨-, ⟨⟩⟩ := Option.ite_none_right_eq_some.mp ran
    exact effect_release trivial
  | releaseIsr =>
    cases ran
    exact effect_release trivial
  | timeout t =>
    obtain ⟨expiry, ⟨⟩⟩ := Option.ite_none_right_eq_some.mp ran
    exact .expired expiry.1

omit [DecidableEq Tid] in
theorem Initial.inv {v : Nat} {flag : IpcFlag} (init : Initial v flag st) : Inv st where
  wellFormed := init.wellFormed
  value_lt := by rw [init.value_eq]; exact init.value_lt
  waiting := by simp [init.noWaiters]
  drained := by simp [init.noWaiters]

omit [DecidableEq Tid] in
theorem mem_waiters_suspended (inv : Inv st) {t : Tid}
    (waits : t ∈ st.waiters) : (st.kernel.thread t).stat = .suspend :=
  inv.wellFormed.waiting t () waits

theorem Effect.inv (effect : Effect st e s') (inv : Inv st) : Inv s' := by
  cases effect with
  | took _ available =>
    have noWaiters : st.waiters = [] := by
      by_contra waiting
      have := inv.drained waiting
      omega
    exact ⟨inv.wellFormed, by have := inv.value_lt; simp; omega, inv.waiting,
      fun waiting => absurd noWaiters waiting⟩
  | refused => exact inv
  | @blocked t time running empty =>
    refine ⟨inv.wellFormed.blockOn running.1 () _ time, inv.value_lt, ?_, fun _ => empty⟩
    intro s waits
    simp only [State.waiters, inv.wellFormed.blockOn_wait running.1, if_true,
      Kernel.mem_insertWaiter] at waits
    by_cases same : s = t
    · simp [same, Kernel.blockOn_thread running.1]
    · simpa [same, Kernel.blockOn_thread running.1] using
        inv.waiting s (waits.resolve_left same)
  | @gotToken t handed =>
    refine ⟨inv.wellFormed, inv.value_lt, ?_, inv.drained⟩
    intro s waits
    have ne : s ≠ t := by
      rintro rfl
      simp [State.handed, mem_waiters_suspended inv waits] at handed
    simpa [ne] using inv.waiting s waits
  | @gaveUp t woken handed =>
    refine ⟨inv.wellFormed, inv.value_lt, ?_, inv.drained⟩
    intro s waits
    have ne : s ≠ t := by
      rintro rfl
      simp [mem_waiters_suspended inv waits] at woken
    simpa [ne] using inv.waiting s waits
  | @passed _ _ t rest waiters =>
    have suspended := mem_waiters_suspended inv (waiters ▸ List.mem_cons_self : t ∈ st.waiters)
    have left : (st.kernel.rtThreadResume t).queue (.wait ()) = rest := by
      rw [Kernel.rtThreadResume_wait suspended, ← State.waiters, waiters, List.erase_cons_head]
    have notAgain : t ∉ rest := by
      have := inv.wellFormed.nodup (.wait ())
      rw [← State.waiters, waiters] at this
      exact (List.nodup_cons.mp this).1
    refine ⟨inv.wellFormed.rtThreadResume t, inv.value_lt, ?_, ?_⟩
    · intro s waits
      rw [State.waiters, left] at waits
      have ne : s ≠ t := fun equal => notAgain (equal ▸ waits)
      simpa [Kernel.rtThreadResume_thread suspended, ne] using
        inv.waiting s (waiters ▸ List.mem_cons_of_mem _ waits)
    · exact fun _ => inv.drained (by simp [waiters])
  | counted _ waiters =>
    exact ⟨inv.wellFormed, Nat.mod_lt _ (by decide), inv.waiting,
      fun waiting => absurd waiters waiting⟩
  | @expired t suspended =>
    refine ⟨inv.wellFormed.rtThreadTimeout t, inv.value_lt, ?_, ?_⟩
    · intro s waits
      obtain ⟨ne, waits⟩ := (inv.wellFormed.mem_erase s _).mp waits
      simpa [ne] using inv.waiting s waits
    · intro waiting
      refine inv.drained fun noWaiters => waiting ?_
      rw [State.waiters] at noWaiters
      simp [State.waiters, noWaiters]

theorem step_inv (inv : Inv st) (ran : step st e = some s') : Inv s' := (step_effect ran).inv inv

omit [DecidableEq Tid] in
theorem conserved_iff_balance [Fintype Tid] (inv : Inv st) :
    Conserved init st ↔ st.taken + countOf st.handed + st.value = init + st.released := by
  refine ⟨fun conserved => conserved.1, fun balance => ⟨balance, fun pos => ?_⟩⟩
  by_contra waiting
  have := inv.drained waiting
  omega

theorem balance_step [Fintype Tid] (t : Tid)
    (balance : st.taken + countOf st.handed + st.value = init + st.released)
    (taking : ∀ s, s ≠ t → s'.taking s = st.taking s)
    (thread : ∀ s, s ≠ t → s'.kernel.thread s = st.kernel.thread s)
    (change : s'.taken + (s'.handed t).toNat + s'.value + st.released =
      st.taken + (st.handed t).toNat + st.value + s'.released) :
    s'.taken + countOf s'.handed + s'.value = init + s'.released := by
  have count : countOf s'.handed + (st.handed t).toNat = countOf st.handed + (s'.handed t).toNat :=
    countOf_add_of_agree t fun s ne => by
      simp [State.handed, taking s ne, thread s ne]
  omega

theorem Effect.conserved_iff [Fintype Tid] (effect : Effect st e s') (inv : Inv st)
    (conserved : Conserved init st) : Conserved init s' ↔ BelowMaximum st e := by
  rw [conserved_iff_balance (effect.inv inv)]
  rw [conserved_iff_balance inv] at conserved
  cases effect with
  | took isTake available =>
    refine iff_of_true ?_ fun isRelease => absurd isRelease isTake
    change st.taken + 1 + countOf st.handed + (st.value - 1) = init + st.released
    omega
  | refused isTake => exact iff_of_true conserved fun isRelease => absurd isRelease isTake
  | @blocked t time running empty =>
    refine iff_of_true (balance_step t conserved ?_ ?_ ?_) False.elim
    · intro s ne
      simp [ne]
    · intro s ne
      simp [Kernel.blockOn_thread running.1, ne]
    · simp [State.handed, Kernel.blockOn_thread running.1, running.2]
  | @gotToken t handed | @gaveUp t woken handed =>
    refine iff_of_true (balance_step t conserved ?_ (fun _ _ => rfl) ?_) False.elim
    · intro s ne
      simp [ne]
    · rw [handed]
      simp [State.handed]
  | @passed _ isRelease t rest waiters =>
    have waits : t ∈ st.waiters := waiters ▸ List.mem_cons_self
    have suspended := mem_waiters_suspended inv waits
    obtain ⟨taking, noError⟩ := inv.waiting t waits
    refine iff_of_true (balance_step t conserved (fun _ _ => rfl) ?_ ?_) ?_
    · intro s ne
      simp [Kernel.rtThreadResume_thread suspended, ne]
    · simp [State.handed, Kernel.rtThreadResume_thread suspended, suspended, taking, noError]
      omega
    · intro _ noWaiters
      simp [noWaiters] at waiters
  | counted isRelease waiters =>
    have := inv.value_lt
    simp only [BelowMaximum, isRelease, waiters, forall_const]
    change st.taken + countOf st.handed + (st.value + 1) % 0x10000 = init + (st.released + 1) ↔ _
    omega
  | @expired t suspended =>
    refine iff_of_true (balance_step t conserved (fun _ _ => rfl) ?_ ?_) False.elim
    · intro s ne
      simp [ne]
    · simp [State.handed, suspended]

/-- Over any run the tokens are conserved throughout exactly if no release counts a
`v` that is at the maximum of its type. -/
theorem conserved_throughout_iff [Fintype Tid] {v : Nat} {flag : IpcFlag}
    {taken : List (Taken (State Tid) (Event Tid))} {last : State Tid}
    (run : (system v flag).Run taken last) : Throughout (Conserved v) taken last ↔
      EveryStep BelowMaximum taken := by
  have base : ∀ st, Initial v flag st → Inv (st : State Tid) := fun _ init => init.inv
  refine run.throughout_iff_everyStep base (fun _ _ _ => step_inv) ?_ ?_
  · intro st init
    have none : countOf st.handed = 0 :=
      countOf_eq_zero fun t => by simp [State.handed, init.noCalls t]
    refine (conserved_iff_balance (base st init)).mpr ?_
    rw [none, init.taken_eq, init.released_eq, init.value_eq]
    omega
  · intro st e s' inv conserved ran
    exact (step_effect ran).conserved_iff inv conserved

/-- A semaphore that nobody uses yet, with `n` started threads of equal priority. -/
def fresh (n value : Nat) (flag : IpcFlag) : State (Fin n) where
  kernel := Kernel.started (List.finRange n) fun _ => 10
  value := value
  flag := flag
  taking _ := false
  taken := 0
  released := 0

theorem fresh_initial {n v : Nat} {flag : IpcFlag} (bounded : v < 0x10000) :
    Initial v flag (fresh n v flag) where
  wellFormed := Kernel.started_wellFormed (List.nodup_finRange n) _
  noWaiters := rfl
  noCalls _ := rfl
  value_eq := rfl
  value_lt := bounded
  flag_eq := rfl
  taken_eq := rfl
  released_eq := rfl

instance : (e : Event Tid) → Decidable e.IsRelease
  | .release _ | .releaseIsr => .isTrue trivial
  | .take .. | .trytake _ | .takeIsr _ | .resumed _ | .timeout _ => .isFalse id

instance (st : State Tid) (e : Event Tid) : Decidable (BelowMaximum st e) :=
  inferInstanceAs (Decidable (e.IsRelease → _ → _))

theorem handover_conserved : Throughout (Conserved 0) (record step [] (fresh 2 0 .prio)
        [.take 0 (-1), .release 1, .resumed 0]) ((execute step (fresh 2 0 .prio)
        [.take 0 (-1), .release 1, .resumed 0]).get (by decide)) :=
  (conserved_throughout_iff (Run.execute
    (.start (fresh_initial (by decide))) (Option.some_get _).symm)).mpr (by decide)

/-- One release of a semaphore initialised with 65535 takes 65535 tokens away. -/
theorem release_at_maximum_not_conserved :
    ¬ ∀ (taken : List (Taken (State (Fin 1)) (Event (Fin 1))))
      (last : State (Fin 1)), (system 0xffff .fifo).Run taken last →
        Throughout (Conserved 0xffff) taken last := by
  intro claim
  have run := Run.execute
    (.start (fresh_initial (by decide : 0xffff < 0x10000)) :
      (system 0xffff .fifo).Run [] (fresh 1 0xffff .fifo))
    (rfl : execute step (fresh 1 0xffff .fifo) [.release 0] = some _)
  have balance := (claim _ _ run).1.1
  revert balance
  decide

variable {taken : List (Taken (State Tid) (Event Tid))} {last : State Tid}

/-- How many steps had been taken when `t` called `rt_sem_take` for the last time. -/
def calledAt : List (Taken (State Tid) (Event Tid)) → Tid → Nat
  | [], _ => 0
  | step :: taken, t =>
    match step.event with
    | .take caller _ => if caller = t then taken.length + 1 else calledAt taken t
    | _ => calledAt taken t

theorem calledAt_le (taken : List (Taken (State Tid) (Event Tid))) (t : Tid) :
    calledAt taken t ≤ taken.length := by
  induction taken with
  | nil => exact Nat.le_refl 0
  | cons step taken ih =>
    simp only [calledAt, List.length_cons]
    repeat' split
    all_goals omega

theorem calledAt_of_waits (inv : Inv st) (ran : step st e = some s') {t : Tid}
    (waits : t ∈ st.waiters) : calledAt (⟨st, e, s'⟩ :: taken) t = calledAt taken t := by
  cases e with
  | take caller time =>
    obtain ⟨running, -⟩ := Option.ite_none_right_eq_some.mp ran
    refine if_neg fun same => ?_
    subst same
    exact absurd (running.1.symm.trans (mem_waiters_suspended inv waits)) (by decide)
  | _ => rfl

theorem step_waiters (inv : Inv st) (fifo : st.flag = .fifo) (ran : step st e = some s') :
    s'.waiters.Sublist st.waiters ∨
      ∃ t time, e = .take t time ∧ s'.waiters = st.waiters ++ [t] := by
  cases step_effect ran with
  | blocked running empty =>
    rename_i t time
    refine .inr ⟨t, time, rfl, ?_⟩
    simp only [State.waiters, inv.wellFormed.blockOn_wait running.1, fifo, if_true]
    rfl
  | passed isRelease waiters =>
    rename_i t rest
    have waits : t ∈ st.waiters := by simp [waiters]
    refine .inl ?_
    simp only [State.waiters, Kernel.rtThreadResume_wait (mem_waiters_suspended inv waits)]
    exact List.erase_sublist
  | expired _ =>
    refine .inl ?_
    simp only [State.waiters, Kernel.rtThreadTimeout_wait]
    exact List.erase_sublist
  | _ => exact .inl (List.Sublist.refl _)

theorem flag_eq (ran : step st e = some s') : s'.flag = st.flag := by
  cases step_effect ran <;> rfl

/-- In every run the waiters of a semaphore with `RT_IPC_FLAG_FIFO` stand in the order of their
calls, and a release resumes the first of them, who has waited longest. -/
theorem waiters_in_order (run : (system init .fifo).Run taken last) :
    last.waiters.Pairwise (fun t u => calledAt taken t < calledAt taken u) ∧
      ∀ t rest, last.waiters = t :: rest → (rtSemRelease last).waiters = rest ∧
        ((rtSemRelease last).kernel.thread t).stat = .ready := by
  suffices holds : Inv last ∧ last.flag = .fifo ∧
      last.waiters.Pairwise (fun t u => calledAt taken t < calledAt taken u) by
    obtain ⟨inv, -, sorted⟩ := holds
    refine ⟨sorted, fun t rest waiters => ?_⟩
    have suspended := mem_waiters_suspended inv (by rw [waiters]; exact List.mem_cons_self)
    have first : last.kernel.queue (.wait ()) = t :: rest := waiters
    simp [rtSemRelease, State.waiters, first, Kernel.rtIpcListResume,
      Kernel.rtThreadResume_wait suspended, Kernel.rtThreadResume_thread suspended]
  induction run with
  | start first => exact ⟨first.inv, first.flag_eq, by simp [first.noWaiters]⟩
  | next earlier ran ih =>
    rename_i taken s after e
    obtain ⟨inv, fifo, sorted⟩ := ih
    refine ⟨(step_effect ran).inv inv, (flag_eq ran).trans fifo, ?_⟩
    have kept : s.waiters.Pairwise fun t u =>
        calledAt (⟨s, e, after⟩ :: taken) t < calledAt (⟨s, e, after⟩ :: taken) u := by
      refine sorted.imp_of_mem fun waits waits' earlier => ?_
      rwa [calledAt_of_waits inv ran waits, calledAt_of_waits inv ran waits']
    rcases step_waiters inv fifo ran with fewer | ⟨t, time, rfl, waiters⟩
    · exact kept.sublist fewer
    · rw [waiters]
      refine List.pairwise_append.mpr
        ⟨kept, List.pairwise_singleton .., fun u waits t' isLast => ?_⟩
      obtain rfl := List.mem_singleton.mp isLast
      rw [calledAt_of_waits inv ran waits]
      have := calledAt_le taken u
      simp only [calledAt, if_true]
      omega

/-- Two threads wait; the first is served, and another one comes. -/
theorem three_callers_in_order :
    let events : List (Event (Fin 3)) := [.take 1 (-1), .take 2 5, .release 0, .take 0 5]
    ((execute step (fresh 3 0 .fifo) events).get (by decide)).waiters.Pairwise fun t u =>
      calledAt (record step [] (fresh 3 0 .fifo) events) t <
        calledAt (record step [] (fresh 3 0 .fifo) events) u :=
  (waiters_in_order (Run.executed _ _ (fresh_initial (by decide)) _)).1

end RtThread.Semaphore

/-!
## Semaphores that one thread takes

The semaphore of a thread that waits for something to do: threads and handlers release it, and
only that thread takes it and resets it.
-/

namespace RtThread

universe u

/-- `value` of the semaphore, and whether its thread is in the suspend list. -/
structure NoticeSemaphore where
  value : Nat
  suspended : Bool

namespace NoticeSemaphore

def rtSemRelease (sem : NoticeSemaphore) : NoticeSemaphore :=
  if sem.suspended then { sem with suspended := false }
  else { sem with value := (sem.value + 1) % 0x10000 }

/-- `rt_sem_take`: the thread goes on, or is suspended. -/
def rtSemTake (sem : NoticeSemaphore) (time : Int) : NoticeSemaphore × Option RtErr :=
  if 0 < sem.value then ({ sem with value := sem.value - 1 }, some .eok)
  else if time = 0 then (sem, some .etimeout)
  else ({ sem with suspended := true }, none)

def rtSemReset (_sem : NoticeSemaphore) : NoticeSemaphore := ⟨0, false⟩

def rtThreadTimeout (sem : NoticeSemaphore) : NoticeSemaphore := { sem with suspended := false }

end NoticeSemaphore

end RtThread
