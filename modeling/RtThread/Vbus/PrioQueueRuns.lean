import RtThread.Vbus.PrioQueueSteps

/-!
# Runs of the priority queue

The queue keeps its promises in every run in which `rt_mp_free` finds a thread where the pool
counts one.
-/

open Function (update update_of_ne update_self)

namespace RtThread.PrioQueue

open MemPool TransitionSystem

universe u

variable {Tid : Type u} [DecidableEq Tid] {s after : State Tid} {t : Tid}

/-- A call that is in front of `rt_mp_free` finds a thread that waits, if the pool counts one. -/
def Call.FindsWaiter (s : State Tid) : Call → Prop
  | .freeing _ => 0 < s.que.pool.suspendThreadCount → s.waiters .pool ≠ []
  | _ => True

def FindsWaiter (s : State Tid) : Event Tid → Prop
  | .proceed t => ∀ call ∈ s.call t, call.FindsWaiter s
  | _ => True

theorem Inv.giveBack (inv : Inv s) {pool : RtMempool}
    (que : after.que = { s.que with pool }) (queued : after.queued = s.queued)
    (pushes : after.pushes = s.pushes) (popped : after.popped = s.popped)
    (ret : after.returned = s.returned) (call : after.call = update s.call t none)
    (conserved : Conserved pool s.queued (update s.holds t none))
    (threads : Threads after.kernel after.call)
    (enough : Enough after.kernel after.call s.queued.length) : Inv after := by
  have lists := inv.lists
  refine ⟨threads, ?_, ?_, ?_, ?_, ?_, ?_⟩
  · rw [que, queued, pushes]
    exact ⟨lists.table, lists.bitmap, lists.tail, lists.data, lists.prio_lt, lists.order,
      lists.serial_lt⟩
  · rw [que, queued, holds_update s call]
    exact conserved
  · rw [call, que, popped]
    refine calls_update (fun u _ other isOther => ?_) (fun _ no => by simp at no)
    exact (inv.calls u other isOther).mono rfl (fun _ => id) (fun _ _ => rfl) fun _ _ => rfl
  · rw [queued, pushes, popped]
    exact inv.log
  · rw [ret, popped]
    exact inv.returned
  · rw [queued]
    exact enough

theorem Inv.free (inv : Inv s) (rtDebug : Bool)
    (ready : (s.kernel.thread t).stat = .ready) {x : Nat} (isCall : s.call t = some (.freeing x))
    (finds : 0 < s.que.pool.suspendThreadCount → s.waiters .pool ≠ [])
    (freed : rtMpFree rtDebug s x = some after) : Inv (after.leave t (.code .eok)) := by
  have held : s.holds t = some x := by simp [State.holds, isCall, Call.holds]
  have asleep : ¬ Woken s.kernel s.call t := not_woken (by simp [isCall]) (by simp [isCall])
  have given := inv.blocks.give held
  unfold rtMpFree at freed
  dsimp only at freed
  split_ifs at freed with notPool counted
  · have waits := finds counted
    rcases isWaiters : s.waiters .pool with _ | ⟨a, rest⟩
    · exact absurd isWaiters waits
    · have firstWaits : a ∈ s.kernel.queue (.wait .pool) :=
        (isWaiters ▸ List.mem_cons_self : a ∈ s.waiters .pool)
      have sameWaiters : (s.setPool
          { s.que.pool with
            blockFreeCount := s.que.pool.blockFreeCount + 1
            header := update s.que.pool.header (x - pointerSize)
              (.next s.que.pool.blockList)
            blockList := some (x - pointerSize) }).waiters .pool = a :: rest := isWaiters
      rw [sameWaiters] at freed
      cases freed
      have wf := inv.threads.wellFormed
      have suspended : ((s.kernel.setError a .eok).thread a).stat = .suspend := by
        simpa using wf.waiting a .pool firstWaits
      have ne := inv.threads.ne_of_waits ready firstWaits
      have threadEq (u : Tid) (other : u ≠ a) :
          ((s.kernel.setError a .eok).rtThreadResume a).thread u = s.kernel.thread u := by
        simp [Kernel.rtThreadResume_thread suspended, other]
      refine inv.giveBack rfl rfl rfl rfl rfl rfl (given.congr rfl rfl rfl rfl rfl rfl)
        ((inv.threads.resumePool firstWaits).setCall ?_ none) ?_
      · rw [threadEq t (Ne.symm ne)]
        exact ready
      · refine inv.enough.mono le_rfl (fun nonempty => ?_) fun u woken =>
          woken.update (woken.ne asleep) (threadEq u ?_)
        · intro empty
          refine nonempty ?_
          change ((s.kernel.setError a .eok).rtThreadResume a).queue (.wait .pop) = []
          rw [Kernel.rtThreadResume_wait suspended, Kernel.setError_queue, empty]
          rfl
        · rintro rfl
          obtain ⟨prio, data, time, beforeSleep, isAlloc⟩ := inv.threads.pool u firstWaits
          exact not_woken (by simp [isAlloc]) (by simp [isAlloc]) woken
  · cases freed
    exact inv.giveBack rfl rfl rfl rfl rfl rfl given (inv.threads.setCall ready none)
      (inv.enough.update asleep)

theorem Inv.proceed (inv : Inv s) (rtDebug : Bool) (ready : (s.kernel.thread t).stat = .ready)
    {call : Call} (isCall : s.call t = some call) (finds : FindsWaiter s (.proceed t))
    (ran : proceed rtDebug s t call = some after) : Inv after := by
  have sound := inv.calls t call isCall
  have idle (noItem : call.holds = none) : s.holds t = none := by simp [State.holds, isCall, noItem]
  cases call with
  | allocSuspended prio data time beforeSleep =>
    cases ran
    exact inv.allocResumed ready isCall
  | allocRetrying prio data time =>
    exact inv.allocLoop ready (idle rfl) (not_woken (by simp [isCall]) (by simp [isCall]))
      sound.1 sound.2 ran
  | filling prio data x =>
    cases ran
    exact inv.fill ready isCall
  | linking prio data x => exact inv.link ready isCall ran
  | popSuspended timeout =>
    cases ran
    exact inv.popResumed ready isCall
  | popRetrying timeout => exact inv.popLoop ready (idle rfl) ran
  | copying x popped =>
    cases ran
    exact inv.copy ready isCall
  | freeing x =>
    obtain ⟨freed, isFreed, rfl⟩ := Option.map_eq_some_iff.mp ran
    exact inv.free rtDebug ready isCall (finds _ isCall) isFreed

theorem Inv.expire (inv : Inv s) (suspended : (s.kernel.thread t).stat = .suspend) :
    Inv { s with kernel := s.kernel.rtThreadTimeout t } := by
  refine ⟨inv.threads.expire, inv.lists, inv.blocks, inv.calls, inv.log, inv.returned, ?_⟩
  refine inv.enough.mono le_rfl (fun nonempty empty => ?_) fun u woken => ?_
  · rw [Kernel.rtThreadTimeout_wait, empty] at nonempty
    exact nonempty rfl
  · rcases woken with retries | ⟨isSuspended, ready, noError⟩
    · exact .inl retries
    · have ne : u ≠ t := by
        rintro rfl
        rw [suspended] at ready
        simp at ready
      refine .inr ⟨isSuspended, ?_⟩
      rw [Kernel.rtThreadTimeout_thread, if_neg ne]
      exact ⟨ready, noError⟩

theorem Inv.step (inv : Inv s) (rtDebug : Bool) {e : Event Tid}
    (finds : FindsWaiter s e) (ran : step rtDebug s e = some after) : Inv after := by
  cases e with
  | push t prio data timeout =>
    simp only [PrioQueue.step] at ran
    split_ifs at ran with start tooHigh
    · cases ran
      exact inv.leave start.1 (by simp [State.holds, start.2.1]) _
        (inv.enough.update (not_woken (by simp [start.2.1]) (by simp [start.2.1])))
    · exact inv.allocLoop start.1 (by simp [State.holds, start.2.1])
        (not_woken (by simp [start.2.1]) (by simp [start.2.1])) (Nat.lt_of_not_le tooHigh)
        start.2.2 ran
  | pop t timeout =>
    simp only [PrioQueue.step] at ran
    split_ifs at ran with start
    exact inv.popLoop start.1 (by simp [State.holds, start.2]) ran
  | proceed t =>
    simp only [PrioQueue.step] at ran
    split_ifs at ran with ready
    obtain ⟨call, isCall, proceeded⟩ := Option.bind_eq_some_iff.mp ran
    exact inv.proceed rtDebug ready isCall finds proceeded
  | timeout t =>
    simp only [PrioQueue.step] at ran
    split_ifs at ran with waits
    cases ran
    exact inv.expire waits.1
  | tick =>
    cases ran
    exact ⟨inv.threads, inv.lists, inv.blocks, inv.calls, inv.log, inv.returned, inv.enough⟩

theorem linkBlocks_eq (header : Nat → Header) (start : Nat) {stride : Nat} (pos : 0 < stride)
    (total : Nat) {k : Nat} (below : k < total) :
    linkBlocks header start stride total (start + k * stride) =
      .next (some (start + (k + 1) * stride)) := by
  induction total with
  | zero => exact absurd below (Nat.not_lt_zero k)
  | succ total ih =>
    unfold linkBlocks
    rcases Nat.lt_succ_iff_lt_or_eq.mp below with earlier | rfl
    · have ne : start + k * stride ≠ start + total * stride := by
        intro same
        have := Nat.eq_of_mul_eq_mul_right pos (Nat.add_left_cancel same)
        omega
      rw [update_of_ne ne]
      exact ih earlier
    · rw [update_self]

omit [DecidableEq Tid] in
theorem conserved_init {alignSize start n blockSize : Nat} {header : Nat → Header}
    {pool : RtMempool} (made : rtMpInit alignSize header start n blockSize = some pool) :
    Conserved pool [] fun _ : Tid => none := by
  unfold rtMpInit at made
  dsimp only at made
  split_ifs at made with noRoom
  cases made
  generalize strideEq : Word32.add (Word32.alignUp blockSize alignSize) pointerSize = stride
    at noRoom ⊢
  generalize totalEq : Word32.maskDown n alignSize / stride = total at noRoom ⊢
  have pos : 0 < stride := by
    rcases Nat.eq_zero_or_pos stride with zero | pos
    · rw [zero, Nat.div_zero] at totalEq
      exact absurd totalEq.symm noRoom
    · exact pos
  have injective (k other : Nat) (same : start + k * stride = start + other * stride) : k = other :=
    Nat.eq_of_mul_eq_mul_right pos (Nat.add_left_cancel same)
  refine ⟨(List.range' 0 total).map fun k => start + k * stride, ?_, ?_, ?_, ?_⟩
  · have enough : total - 1 + 1 = total := Nat.sub_add_cancel (Nat.pos_of_ne_zero noRoom)
    have numbered := @Chain.ofNumbered _ (freeNext (update
      (linkBlocks header start stride total) (start + (total - 1) * stride) (.next none)))
      (fun k => start + k * stride) total ?_ ?_ (total - 1) 0 (by omega)
    · rw [enough] at numbered
      simpa using numbered
    · intro k below
      have ne : start + k * stride ≠ start + (total - 1) * stride := by
        intro same
        have := injective _ _ same
        omega
      simp only [freeNext, update_of_ne ne]
      rw [linkBlocks_eq header start pos total (by omega)]
    · intro k isLast
      obtain rfl : k = total - 1 := by omega
      simp [freeNext]
  · refine List.Nodup.map_on (fun k _ other _ same => injective k other same) List.nodup_range'
  · simp
  · have items (a : Nat) : (∃ k < total, a = start + k * stride + pointerSize) ↔
        a ∈ ((List.range' 0 total).map fun k => start + k * stride).map
          (· + pointerSize) := by
      simp [eq_comm]
    refine ⟨fun a isItem => ?_, fun home a isHere => ?_⟩
    · obtain ⟨k, below, isAddress⟩ := isItem
      rw [strideEq] at isAddress
      refine ⟨.free, (items a).mp ⟨k, below, isAddress⟩, fun home isHere => ?_⟩
      cases home with
      | free => rfl
      | queued | held t => simp [isAt] at isHere
    · cases home with
      | free =>
        obtain ⟨k, below, isAddress⟩ := (items a).mpr isHere
        refine ⟨k, below, ?_⟩
        rw [strideEq]
        exact isAddress
      | queued | held t => simp [isAt] at isHere

omit [DecidableEq Tid] in
theorem Initial.inv {alignSize start itemNr itemSz : Nat}
    (init : Initial alignSize start itemNr itemSz s) : Inv s := by
  obtain ⟨header, next, data, created⟩ := init.created
  obtain ⟨pool, made, isQue⟩ := Option.map_eq_some_iff.mp created
  have noWaiters (list : WaitList) : s.kernel.queue (.wait list) = [] := init.noWaiters list
  have noItems (prio : Nat) : itemsOf ([] : List Item) prio = [] := rfl
  refine ⟨⟨init.wellFormed, ?_, ?_, ?_⟩, ?_, ?_, ?_, ?_, ?_, ?_⟩
  · simp [noWaiters]
  · simp [noWaiters]
  · simp [noWaiters]
  · rw [init.queued, ← isQue]
    refine ⟨⟨fun _ => rfl, fun _ => List.nodup_nil, fun _ _ _ no => by simp [noItems] at no⟩,
      fun prio _ => by simp [noItems], fun prio no => absurd rfl no, by simp, by simp, by simp,
      by simp⟩
  · have noHolds : s.holds = fun _ => none := by
      funext t
      simp [State.holds, init.noCalls t]
    rw [init.queued, noHolds, ← isQue]
    exact conserved_init made
  · simp [init.noCalls]
  · rw [init.popped]
    exact ⟨by simp, by simp, List.Pairwise.nil⟩
  · simp [init.returned]
  · rw [init.queued]
    exact .none

/-- In a run in which `rt_mp_free` finds a thread where the pool counts one, the queue keeps its
promises. -/
theorem prioQueue_correct {rtDebug : Bool} {alignSize start itemNr itemSz : Nat}
    {taken : List (Taken (State Tid) (Event Tid))} {last : State Tid}
    (run : (system rtDebug alignSize start itemNr itemSz).Run taken last)
    (finds : EveryStep FindsWaiter taken) : Throughout Correct taken last :=
  (run.throughout_of_everyStep (fun _ => Initial.inv)
    (fun _ _ _ inv finds ran => Inv.step inv rtDebug finds ran) finds).imp
    fun _ => Inv.correct

section Decidability

instance (s : State Tid) : (call : Call) → Decidable (call.FindsWaiter s)
  | .freeing _ => inferInstanceAs (Decidable (_ → _ ≠ []))
  | .allocSuspended .. | .allocRetrying .. | .filling .. | .linking .. | .popSuspended _
  | .popRetrying _ | .copying _ _ => .isTrue trivial

instance (s : State Tid) : (e : Event Tid) → Decidable (FindsWaiter s e)
  | .proceed _ => inferInstanceAs (Decidable (∀ call ∈ _, _))
  | .push .. | .pop .. | .timeout _ | .tick => .isTrue trivial

end Decidability

def smallQueue : Option RtPrioQueue :=
  rtPrioQueueCreate 8 (fun _ => .pool) (fun _ => none) (fun _ _ => 0) 0x1000 4 4

theorem smallQueue_isSome : smallQueue.isSome := by decide +kernel

def created : State Bool where
  kernel := Kernel.started [false, true] fun _ => 10
  que := smallQueue.get smallQueue_isSome
  tick := 0
  call := fun _ => none
  result := fun _ => none
  pushes := 0
  queued := []
  popped := []
  returned := []

theorem created_initial : Initial 8 0x1000 4 4 created where
  wellFormed := Kernel.started_wellFormed (by decide) _
  noWaiters := fun _ => rfl
  noCalls := fun _ => rfl
  created := ⟨fun _ => .pool, fun _ => none, fun _ _ => 0, (Option.some_get smallQueue_isSome).symm⟩
  pushes := rfl
  queued := rfl
  popped := rfl
  returned := rfl

def pushing (t : Bool) (prio : Nat) (data : Bytes) : List (Event Bool) :=
  [.push t prio data 0, .proceed t, .proceed t]

def wakeUp : List (Event Bool) :=
  [.pop true 0] ++ [.pop true 5] ++ pushing false 3 [1, 2, 3, 4] ++
    [.proceed true, .proceed true, .proceed true, .proceed true]

theorem wakeUp_correct : ∃ last, execute (step true) created wakeUp = some last ∧
      Throughout Correct (record (step true) [] created wakeUp) last := by
  have isSome : (execute (step true) created wakeUp).isSome := by decide +kernel
  have executed := (Option.some_get isSome).symm
  exact ⟨_, executed,
    prioQueue_correct (.execute (.start created_initial) executed) (by decide +kernel)⟩

def timedOutPush : List (Event Bool) :=
  pushing false 3 [0, 0, 0, 0] ++ pushing false 3 [0, 0, 0, 0] ++ pushing false 3 [0, 0, 0, 0] ++
    pushing false 3 [0, 0, 0, 0] ++
    [.push false 3 [1, 1, 1, 1] 5, .timeout false, .proceed false] ++
    [.pop true 0, .proceed true, .proceed true]

def lost : State Bool := (execute (step false) created timedOutPush).get (by decide +kernel)

theorem timed_out_push_loses_items :
    ¬ ∀ (taken : List (Taken (State Bool) (Event Bool))) (last : State Bool),
      (system false 8 0x1000 4 4).Run taken last → Throughout Correct taken last := by
  intro claim
  have run : (system false 8 0x1000 4 4).Run (record (step false) [] created timedOutPush) lost :=
    .execute (.start created_initial) (Option.some_get _).symm
  have chain := (claim _ _ run).1.list 3
  have nodes := chain.nodesFrom_eq (le_refl _)
  exact absurd nodes (by decide +kernel)

end RtThread.PrioQueue
