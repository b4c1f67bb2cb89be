import RtThread.Kernel.Services
import RtThread.Library.TransitionSystem
import RtThread.Library.Words

/-!
# Memory pools

`rt_mp_init`, `rt_mp_alloc` and `rt_mp_free` on one memory pool.  The word in front of a
block links it into the chain of free blocks, or points to the pool while the block is
allocated.  A thread that finds no block counts itself in `suspend_thread_count` and
links itself in front of the list of waiters; `rt_mp_free` looks at the count only.
-/

open Function (update)
open TransitionSystem

namespace RtThread.MemPool

universe u

inductive Header where
  | next (b : Option Nat)
  | pool
  deriving DecidableEq

/-- `struct rt_mempool`, with the words in front of its blocks.  Its counters are
`rt_size_t`; they count blocks and threads that lie in memory, and do not wrap. -/
structure RtMempool where
  startAddress : Nat
  size : Nat
  blockSize : Nat
  blockList : Option Nat
  blockTotalCount : Nat
  blockFreeCount : Nat
  suspendThreadCount : Nat
  header : Nat → Header

def pointerSize : Nat := 4

/-- The loop of `rt_mp_init` over the first blocks: each is linked to the next. -/
def linkBlocks (header : Nat → Header) (start stride : Nat) : Nat → Nat → Header
  | 0 => header
  | offset + 1 =>
    update (linkBlocks header start stride offset) (start + offset * stride)
      (.next (some (start + (offset + 1) * stride)))

/-- `rt_mp_init`.  Without room for a block its last store misses the pool. -/
def rtMpInit (alignSize : Nat) (header : Nat → Header) (start size blockSize : Nat) :
    Option RtMempool :=
  let size := Word32.maskDown size alignSize
  let blockSize := Word32.alignUp blockSize alignSize
  let stride := Word32.add blockSize pointerSize
  let total := size / stride
  if total = 0 then none
  else
    some
      { startAddress := start
        size
        blockSize
        blockList := some start
        blockTotalCount := total
        blockFreeCount := total
        suspendThreadCount := 0
        header :=
          update (linkBlocks header start stride total) (start + (total - 1) * stride)
            (.next none) }

/-- Where a call of `rt_mp_alloc` stands that has been suspended. -/
inductive Call where
  | suspended (time beforeSleep : BitVec 32)
  | retrying (time : BitVec 32)

/-- One memory pool, the threads that use it and the tick. -/
structure State (Tid : Type u) where
  kernel : Kernel Tid Unit
  mp : RtMempool
  tick : BitVec 32
  call : Tid → Option Call

/-- The caller is a thread, or `none` for an interrupt handler. -/
inductive Event (Tid : Type u) where
  | alloc (caller : Option Tid) (time : BitVec 32)
  | free (caller : Option Tid) (b : Nat)
  | resumed (t : Tid)
  | retry (t : Tid)
  | timeout (t : Tid)
  | tick

/-- What a call of `rt_mp_alloc` has come to. -/
inductive Outcome where
  | returned (b : Option Nat)
  | suspended

variable {Tid : Type u} [DecidableEq Tid]

namespace State

def waiters (s : State Tid) : List Tid := s.kernel.queue (.wait ())

def Running (s : State Tid) : Option Tid → Prop
  | none => True
  | some t => (s.kernel.thread t).stat = .ready ∧ (s.call t).isNone

instance (s : State Tid) : (caller : Option Tid) → Decidable (s.Running caller)
  | none => .isTrue trivial
  | some _ => instDecidableAnd

def setCall (s : State Tid) (t : Tid) (call : Option Call) : State Tid :=
  { s with call := update s.call t call }

def leave (s : State Tid) (caller : Option Tid) : State Tid :=
  match caller with
  | none => s
  | some t => s.setCall t none

end State

/-- How `rt_mp_alloc` suspends its caller: the newest waiter comes first. -/
def pend (kernel : Kernel Tid Unit) (t : Tid) (time : BitVec 32) : Kernel Tid Unit :=
  let kernel := (kernel.setError t .eok).rtThreadSuspend t
  (kernel.setQueue (.wait ()) (t :: kernel.queue (.wait ()))).startTimer t time.toInt

def takeBlock (mp : RtMempool) : Option (RtMempool × Nat) :=
  match mp.blockList with
  | none => none
  | some blockPtr =>
    match mp.header blockPtr with
    | .next rest =>
      some
        ({ mp with
            blockFreeCount := mp.blockFreeCount - 1
            blockList := rest
            header := update mp.header blockPtr .pool },
          blockPtr + pointerSize)
    | .pool => none

/-- The loop of `rt_mp_alloc`, entered with interrupts disabled, up to its end or to
`rt_schedule`.  `RT_DEBUG_NOT_IN_INTERRUPT` stops a handler that would block. -/
def allocLoop (s : State Tid) (caller : Option Tid) (time : BitVec 32) :
    Option (State Tid × Outcome) :=
  if s.mp.blockFreeCount = 0 then
    if time = 0 then some (s.leave caller, .returned none)
    else
      match caller with
      | none => none
      | some t =>
        let mp := { s.mp with suspendThreadCount := s.mp.suspendThreadCount + 1 }
        let beforeSleep := if 0 < time.toInt then s.tick else 0
        some
          ({ s with kernel := pend s.kernel t time, mp }.setCall t
            (some (.suspended time beforeSleep)), .suspended)
  else
    match takeBlock s.mp with
    | none => none
    | some (mp, b) => some ({ s with mp }.leave caller, .returned (some b))

def rtMpAlloc (s : State Tid) (caller : Option Tid) (time : BitVec 32) :
    Option (State Tid × Outcome) := allocLoop s caller time

/-- Behind `rt_schedule`, before interrupts are disabled again. -/
def allocResumed (s : State Tid) (t : Tid) (time beforeSleep : BitVec 32) :
    State Tid × Option Outcome :=
  if (s.kernel.thread t).error ≠ .eok then (s.leave (some t), some (.returned none))
  else (s.setCall t (some (.retrying (remaining time beforeSleep s.tick))), none)

/-- `rt_mp_free` of an allocated block.  With a positive count it takes the first entry of
the list, which has to exist. -/
def rtMpFree (s : State Tid) (b : Nat) : Option (State Tid) :=
  let blockPtr := b - pointerSize
  if s.mp.header blockPtr ≠ .pool then none
  else
    let mp : RtMempool :=
      { s.mp with
        blockFreeCount := s.mp.blockFreeCount + 1
        header := update s.mp.header blockPtr (.next s.mp.blockList)
        blockList := some blockPtr }
    if 0 < mp.suspendThreadCount then
      match s.waiters with
      | [] => none
      | t :: _ =>
        some
          { s with
            kernel := (s.kernel.setError t .eok).rtThreadResume t
            mp := { mp with suspendThreadCount := mp.suspendThreadCount - 1 } }
    else some { s with mp }

def step (s : State Tid) : Event Tid → Option (State Tid)
  | .alloc caller time =>
    if s.Running caller then (rtMpAlloc s caller time).map Prod.fst else none
  | .free caller b => if s.Running caller then rtMpFree s b else none
  | .resumed t =>
    match s.call t with
    | some (.suspended time beforeSleep) =>
      if (s.kernel.thread t).stat = .ready then
        some (allocResumed s t time beforeSleep).1
      else none
    | _ => none
  | .retry t =>
    match s.call t with
    | some (.retrying time) =>
      if (s.kernel.thread t).stat = .ready then
        (allocLoop s (some t) time).map Prod.fst
      else none
    | _ => none
  | .timeout t =>
    if (s.kernel.thread t).stat = .suspend ∧ (s.kernel.thread t).timer then
      some { s with kernel := s.kernel.rtThreadTimeout t }
    else none
  | .tick => some { s with tick := s.tick + 1 }

/-- After `rt_mp_init` of a pool with room for a block, in any memory: nobody is inside a
call. -/
structure Initial (alignSize start size blockSize : Nat) (s : State Tid) : Prop where
  wellFormed : s.kernel.WellFormed
  noWaiters : s.waiters = []
  noCalls : ∀ t, s.call t = none
  mp_eq : ∃ header, rtMpInit alignSize header start size blockSize = some s.mp

def system (alignSize start size blockSize : Nat) : TransitionSystem (State Tid) (Event Tid) :=
  ofFunction (Initial alignSize start size blockSize) step

variable {Tid : Type u}

def Counted (s : State Tid) : Prop := s.mp.suspendThreadCount = s.waiters.length

def NoWaiterExpires (s : State Tid) : Event Tid → Prop
  | .timeout t => t ∉ s.waiters
  | _ => True

variable [DecidableEq Tid] {kernel : Kernel Tid Unit}

theorem pend_wait (wf : kernel.WellFormed) {t : Tid} (ready : (kernel.thread t).stat = .ready)
    (time : BitVec 32) : (pend kernel t time).queue (.wait ()) = t :: kernel.queue (.wait ()) := by
  have ready' : ((kernel.setError t .eok).thread t).stat = .ready := by simpa using ready
  simp [pend, (wf.setError t .eok).rtThreadSuspend_wait ready']

theorem pend_wellFormed (wf : kernel.WellFormed) {t : Tid} (ready : (kernel.thread t).stat = .ready)
    (time : BitVec 32) : (pend kernel t time).WellFormed := by
  have ready' : ((kernel.setError t .eok).thread t).stat = .ready := by simpa using ready
  have reset := wf.setError t .eok
  have suspended := reset.rtThreadSuspend t
  have unlinked := reset.rtThreadSuspend_unlinked ready'
  apply Kernel.WellFormed.startTimer
  apply suspended.link (by simp [Kernel.rtThreadSuspend_thread ready']) unlinked
  · exact List.nodup_cons.mpr ⟨unlinked _, suspended.nodup _⟩
  · intro s
    exact List.mem_cons

inductive Effect (s : State Tid) (event : Event Tid) (after : State Tid) : Prop where
  | kept (noExpiry : ∀ t, event ≠ .timeout t) (kernel : after.kernel = s.kernel)
      (count : after.mp.suspendThreadCount = s.mp.suspendThreadCount)
  | joined (noExpiry : ∀ t, event ≠ .timeout t) (t : Tid) (time : BitVec 32)
      (ready : (s.kernel.thread t).stat = .ready)
      (kernel : after.kernel = pend s.kernel t time)
      (count : after.mp.suspendThreadCount = s.mp.suspendThreadCount + 1)
  | woken (noExpiry : ∀ t, event ≠ .timeout t) (t : Tid) (rest : List Tid)
      (waiters : s.waiters = t :: rest)
      (kernel : after.kernel = (s.kernel.setError t .eok).rtThreadResume t)
      (count : after.mp.suspendThreadCount = s.mp.suspendThreadCount - 1)
  | expired (t : Tid) (isExpiry : event = .timeout t)
      (kernel : after.kernel = s.kernel.rtThreadTimeout t)
      (count : after.mp.suspendThreadCount = s.mp.suspendThreadCount)

@[simp] theorem leave_kernel (s : State Tid) (c : Option Tid) : (s.leave c).kernel = s.kernel := by
  cases c <;> rfl

@[simp] theorem leave_mp (s : State Tid) (c : Option Tid) : (s.leave c).mp = s.mp := by
  cases c <;> rfl

theorem takeBlock_count {mp after : RtMempool} {b : Nat} (taken : takeBlock mp = some (after, b)) :
    after.suspendThreadCount = mp.suspendThreadCount := by
  unfold takeBlock at taken
  split at taken
  · simp at taken
  · split at taken
    · cases taken
      rfl
    · simp at taken

variable {s after : State Tid}

variable {event : Event Tid}

theorem allocLoop_effect {c : Option Tid} {time : BitVec 32} {outcome : Outcome}
    (noExpiry : ∀ t, event ≠ .timeout t)
    (ready : ∀ t, c = some t → (s.kernel.thread t).stat = .ready)
    (result : allocLoop s c time = some (after, outcome)) : Effect s event after := by
  unfold allocLoop at result
  split at result
  · split at result
    · cases result
      exact .kept noExpiry (leave_kernel ..) (by simp)
    · split at result
      · simp at result
      · rename_i t
        cases result
        exact .joined noExpiry t time (ready t rfl) rfl rfl
  · split at result
    · simp at result
    · rename_i mp b taken
      cases result
      refine .kept noExpiry (leave_kernel ..) ?_
      rw [leave_mp]
      exact takeBlock_count taken

theorem rtMpFree_effect {b : Nat} (noExpiry : ∀ t, event ≠ .timeout t)
    (freed : rtMpFree s b = some after) : Effect s event after := by
  unfold rtMpFree at freed
  simp only at freed
  obtain ⟨-, freed⟩ := Option.ite_none_left_eq_some.mp freed
  split at freed
  · split at freed
    · simp at freed
    · rename_i t rest waiters
      cases freed
      exact .woken noExpiry t rest waiters rfl rfl
  · cases freed
    exact .kept noExpiry rfl rfl

theorem step_effect (ran : step s event = some after) : Effect s event after := by
  cases event with
  | alloc c time =>
    simp only [step, Option.ite_none_right_eq_some, Option.map_eq_some_iff] at ran
    obtain ⟨running, ⟨_, outcome⟩, r, rfl⟩ := ran
    refine allocLoop_effect (by simp) ?_ r
    rintro t rfl
    exact running.1
  | free c b =>
    simp only [step, Option.ite_none_right_eq_some] at ran
    exact rtMpFree_effect (by simp) ran.2
  | resumed t =>
    simp only [step] at ran
    split at ran
    · obtain ⟨-, ⟨⟩⟩ := Option.ite_none_right_eq_some.mp ran
      unfold allocResumed
      split
      · exact .kept (by simp) (leave_kernel ..) (by simp)
      · exact .kept (by simp) rfl rfl
    · simp at ran
  | retry t =>
    simp only [step] at ran
    split at ran
    · simp only [Option.ite_none_right_eq_some, Option.map_eq_some_iff] at ran
      obtain ⟨ready, ⟨_, outcome⟩, r, rfl⟩ := ran
      refine allocLoop_effect (by simp) ?_ r
      rintro _ ⟨⟩
      exact ready
    · simp at ran
  | timeout t =>
    obtain ⟨-, ⟨⟩⟩ := Option.ite_none_right_eq_some.mp ran
    exact .expired t rfl rfl rfl
  | tick =>
    simp only [step, Option.some.injEq] at ran
    subst ran
    exact .kept (by simp) rfl rfl

variable {s after : State Tid} {event : Event Tid}

theorem Effect.wellFormed (effect : Effect s event after)
    (wf : s.kernel.WellFormed) : after.kernel.WellFormed := by
  cases effect with
  | kept _ kernel _ => exact kernel ▸ wf
  | joined _ t time ready kernel _ => exact kernel ▸ pend_wellFormed wf ready time
  | woken _ t _ _ kernel _ => exact kernel ▸ (wf.setError t .eok).rtThreadResume t
  | expired t _ kernel _ => exact kernel ▸ wf.rtThreadTimeout t

theorem Effect.counted_iff (effect : Effect s event after)
    (wf : s.kernel.WellFormed) (counted : Counted s) : Counted after ↔ NoWaiterExpires s event := by
  have noCondition : (∀ t, event ≠ .timeout t) → NoWaiterExpires s event := by
    intro noExpiry
    cases event with
    | timeout t => exact absurd rfl (noExpiry t)
    | alloc | free | resumed | retry | tick => trivial
  cases effect with
  | kept noExpiry kernel count =>
    refine iff_of_true ?_ (noCondition noExpiry)
    rw [Counted, State.waiters, kernel, count]
    exact counted
  | joined noExpiry t time ready kernel count =>
    refine iff_of_true ?_ (noCondition noExpiry)
    rw [Counted, State.waiters, kernel, count, pend_wait wf ready, List.length_cons, counted]
    rfl
  | woken noExpiry t rest waiters kernel count =>
    refine iff_of_true ?_ (noCondition noExpiry)
    have suspended : ((s.kernel.setError t .eok).thread t).stat = .suspend := by
      have waits : t ∈ s.waiters := waiters ▸ List.mem_cons_self
      simpa using wf.waiting t () waits
    have wait := Kernel.rtThreadResume_wait suspended ()
    rw [Counted, State.waiters, kernel, count, counted, wait]
    change s.waiters.length - 1 = (s.waiters.erase t).length
    rw [waiters, List.erase_cons_head, List.length_cons, Nat.add_sub_cancel]
  | expired t isExpiry kernel count =>
    subst isExpiry
    rw [Counted, State.waiters, kernel, count, counted, Kernel.rtThreadTimeout_wait]
    change s.waiters.length = (s.waiters.erase t).length ↔ t ∉ s.waiters
    rw [List.length_erase]
    split
    · rename_i waits
      have := List.length_pos_of_mem waits
      exact iff_of_false (by omega) (not_not.mpr waits)
    · next absent => exact iff_of_true rfl absent

omit [DecidableEq Tid] in
theorem Initial.counted {alignSize start n blockSize : Nat}
    (init : Initial alignSize start n blockSize s) : Counted s := by
  obtain ⟨-, noWaiters, -, header, isMp⟩ := init
  simp only [rtMpInit, Option.ite_none_left_eq_some, Option.some.injEq] at isMp
  rw [Counted, noWaiters, ← isMp.2]
  rfl

/-- Over any run the count of waiting threads is right throughout exactly if no thread
times out in the list of the pool. -/
theorem counted_throughout_iff {alignSize start n blockSize : Nat}
    {taken : List (Taken (State Tid) (Event Tid))} {last : State Tid}
    (run : (system alignSize start n blockSize).Run taken last) : Throughout Counted taken last ↔
      EveryStep NoWaiterExpires taken := by
  have invBase : ∀ s : State Tid, Initial alignSize start n blockSize s →
      s.kernel.WellFormed := fun _ init => init.wellFormed
  refine run.throughout_iff_everyStep invBase ?_ ?_ ?_
  · intro s event after wf ran
    exact (step_effect ran).wellFormed wf
  · intro s init
    exact init.counted
  · intro s event after wf counted ran
    exact (step_effect ran).counted_iff wf counted

/-- A pool of one block of eight bytes, with `n` started threads of equal priority. -/
def fresh (n : Nat) : State (Fin n) where
  kernel := Kernel.started (List.finRange n) fun _ => 10
  mp := (rtMpInit 4 (fun _ => .pool) 0 12 8).get (by decide)
  tick := 0
  call _ := none

theorem fresh_initial {n : Nat} : Initial 4 0 12 8 (fresh n) where
  wellFormed := Kernel.started_wellFormed (List.nodup_finRange n) _
  noWaiters := rfl
  noCalls _ := rfl
  mp_eq := ⟨fun _ => .pool, (Option.some_get (by decide)).symm⟩

instance (s : State Tid) : (event : Event Tid) → Decidable (NoWaiterExpires s event)
  | .timeout t => inferInstanceAs (Decidable (t ∉ s.waiters))
  | .alloc .. | .free .. | .resumed _ | .retry _ | .tick => .isTrue trivial

theorem handed_block_counted : Throughout Counted (record step [] (fresh 2)
        [.alloc (some 1) 0, .alloc (some 0) 10, .free (some 1) 4, .resumed 0, .retry 0])
      ((execute step (fresh 2)
        [.alloc (some 1) 0, .alloc (some 0) 10, .free (some 1) 4, .resumed 0, .retry 0]).get
        (by decide)) :=
  (counted_throughout_iff (Run.executed _ _ fresh_initial _)).mpr (by decide)

/-- A waiter times out and leaves its count behind; the next `rt_mp_free` takes a thread
from the empty list. -/
theorem expired_waiter_not_counted : ∃ (taken : List (Taken (State (Fin 2)) (Event (Fin 2))))
      (last : State (Fin 2)), (system 4 0 12 8).Run taken last ∧ ¬ Throughout Counted taken last ∧
        last.mp.header (4 - pointerSize) = .pool ∧ rtMpFree last 4 = none := by
  have run := Run.execute (.start fresh_initial)
    (rfl : execute step (fresh 2)
      [.alloc (some 1) 0, .alloc (some 0) 10, .timeout 0] = some _)
  refine ⟨_, _, run, ?_, by decide, rfl⟩
  rintro ⟨counted, -⟩
  revert counted
  unfold Counted
  decide

end RtThread.MemPool
