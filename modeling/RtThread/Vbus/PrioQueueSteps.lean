import RtThread.Vbus.PrioQueueInvariant

/-!
# The steps of the priority queue

Each step keeps the invariant, as long as `rt_mp_free` finds a thread where the pool counts one.
-/

open Function (update_of_ne update_self update_eq_self)

namespace RtThread.PrioQueue

open MemPool

universe u

variable {Tid : Type u} [DecidableEq Tid] {s after : State Tid} {t : Tid}

section Woken

variable {k other : Kernel Tid WaitList} {call : Tid → Option Call} {u : Tid}
  {new : Option Call}

omit [DecidableEq Tid] in
theorem not_woken (noRetry : ∀ timeout, call t ≠ some (.popRetrying timeout))
    (noSuspended : ∀ timeout, call t ≠ some (.popSuspended timeout)) : ¬ Woken k call t := by
  rintro (⟨timeout, isCall⟩ | ⟨⟨timeout, isCall⟩, -⟩)
  · exact noRetry timeout isCall
  · exact noSuspended timeout isCall

theorem Woken.update (woken : Woken k call u) (ne : u ≠ t)
    (same : other.thread u = k.thread u) : Woken other (Function.update call t new) u := by
  simpa only [Woken, update_of_ne ne, same] using woken

omit [DecidableEq Tid] in
theorem Woken.ne (woken : Woken k call u) (asleep : ¬ Woken k call t) : u ≠ t := by
  rintro rfl
  exact asleep woken

theorem Enough.update {n : Nat} (enough : Enough k call n)
    (asleep : ¬ Woken k call t) : Enough k (Function.update call t new) n :=
  enough.mono le_rfl id fun _ woken => woken.update (woken.ne asleep) rfl

end Woken

theorem Inv.leave (inv : Inv s) (ready : (s.kernel.thread t).stat = .ready)
    (idle : s.holds t = none) (r : Result)
    (enough : Enough s.kernel (Function.update s.call t none) s.queued.length) :
    Inv (s.leave t r) :=
  inv.quiet s.que.pool.suspendThreadCount rfl rfl rfl rfl rfl rfl
    (inv.threads.setCall ready none) idle.symm (fun _ no => by simp at no) enough

variable {data : Bytes} {x prio : Nat}

theorem bytes_fill {que : RtPrioQueue}
    (length : data.length = que.itemSz) : (que.fill x data).bytes x = data := by
  refine List.ext_getElem (by simp [RtPrioQueue.bytes, RtPrioQueue.fill, length]) ?_
  intro k below inData
  simp [RtPrioQueue.bytes, RtPrioQueue.fill, inData]

section

variable (inv : Inv s) (ready : (s.kernel.thread t).stat = .ready)

include inv ready

theorem Inv.allocLoop (idle : s.holds t = none) (asleep : ¬ Woken s.kernel s.call t)
    {time : BitVec 32} (prio_lt : prio < rtPrioQueuePrioMax) (length : data.length = s.que.itemSz)
    (looped : allocLoop s t prio data time = some after) : Inv after := by
  unfold PrioQueue.allocLoop at looped
  by_cases empty : s.que.pool.blockFreeCount = 0
  · rw [if_pos empty] at looped
    by_cases noTime : time = 0
    · rw [if_pos noTime] at looped
      cases looped
      exact inv.leave ready idle _ (inv.enough.update asleep)
    · rw [if_neg noTime] at looped
      cases looped
      refine inv.quiet (t := t) (s.que.pool.suspendThreadCount + 1) rfl rfl rfl rfl rfl rfl
        (inv.threads.pend ready ..) idle.symm ?_ ?_
      · rintro _ ⟨⟩
        exact ⟨prio_lt, length⟩
      · refine inv.enough.mono le_rfl (fun nonempty => ?_) fun u woken =>
          woken.update (woken.ne asleep) (Threads.pendPool_thread ready time (woken.ne asleep))
        have wait := Threads.pendPool_wait inv.threads.wellFormed ready time .pop
        rw [if_neg (by decide)] at wait
        rwa [← wait]
  · rw [if_neg empty] at looped
    obtain ⟨⟨pool, x⟩, taken, rfl⟩ := Option.map_eq_some_iff.mp looped
    have lists := inv.lists
    refine ⟨inv.threads.setCall ready _, ?_, ?_, ?_, inv.log, inv.returned,
      inv.enough.update asleep⟩
    · exact ⟨lists.table, lists.bitmap, lists.tail, lists.data, lists.prio_lt, lists.order,
        lists.serial_lt⟩
    · rw [holds_update s (t := t) rfl]
      exact inv.blocks.take taken idle
    · have keep (made : Call) (before : made.Sound s.que s.popped) :
          made.Sound { s.que with pool } s.popped :=
        before.mono rfl (fun _ => id) (fun _ _ => rfl) fun _ _ => rfl
      refine calls_update (fun u _ other isCall => keep other (inv.calls u other isCall)) ?_
      rintro _ ⟨⟩
      exact ⟨prio_lt, length⟩

theorem Inv.allocResumed {time beforeSleep : BitVec 32}
    (isCall : s.call t = some (.allocSuspended prio data time beforeSleep)) :
    Inv (allocResumed s t prio data time beforeSleep) := by
  have idle : s.holds t = none := by simp [State.holds, isCall, Call.holds]
  have asleep : ¬ Woken s.kernel s.call t := not_woken (by simp [isCall]) (by simp [isCall])
  unfold PrioQueue.allocResumed
  split_ifs
  · exact inv.leave ready idle _ (inv.enough.update asleep)
  · refine inv.quiet (t := t) s.que.pool.suspendThreadCount rfl rfl rfl rfl rfl rfl
      (inv.threads.setCall ready _) idle.symm ?_ (inv.enough.update asleep)
    have sound := inv.calls t _ isCall
    rintro _ ⟨⟩
    exact sound

theorem Inv.fill (isCall : s.call t = some (.filling prio data x)) :
    Inv ({ s with que := s.que.fill x data }.setCall t (some (.linking prio data x))) := by
  have held : s.holds t = some x := by simp [State.holds, isCall, Call.holds]
  have asleep : ¬ Woken s.kernel s.call t := not_woken (by simp [isCall]) (by simp [isCall])
  obtain ⟨prio_lt, n⟩ := inv.calls t _ isCall
  have lists := inv.lists
  have bytes (other : Nat) (ne : other ≠ x) :
      (s.que.fill x data).bytes other = s.que.bytes other := by
    simp [RtPrioQueue.bytes, RtPrioQueue.fill, update_of_ne ne]
  have notQueued := inv.blocks.not_queued held
  have outside (prio : Nat) : x ∉ itemsOf s.queued prio := by
    intro mem
    obtain ⟨queued, inQueue, -, isItem⟩ := mem_itemsOf.mp mem
    exact notQueued queued inQueue isItem
  refine ⟨inv.threads.setCall ready _, ?_, ?_, ?_, inv.log, inv.returned, inv.enough.update asleep⟩
  · refine ⟨lists.table.update outside none, lists.bitmap, lists.tail, fun queued inQueue => ?_,
      lists.prio_lt, lists.order, lists.serial_lt⟩
    rw [← lists.data queued inQueue]
    exact bytes _ (notQueued queued inQueue)
  · have same : ({ s with que := s.que.fill x data }.setCall t
        (some (.linking prio data x)) : State Tid).holds = s.holds := by
      rw [holds_update s (t := t) rfl, ← update_eq_self t s.holds, held]
      simp [Call.holds]
    rw [same]
    exact inv.blocks
  · refine calls_update (fun u ne other isOther => ?_) ?_
    · have notHeld (a : Nat) (holds : other.holds = some a) : a ≠ x := by
        rintro rfl
        refine ne (inv.blocks.held_unique (t := u) ?_ held)
        have isState : s.call u = some other := isOther
        simp [State.holds, isState, holds]
      exact (inv.calls u other isOther).mono rfl (fun _ => id)
        (fun a holds => bytes a (notHeld a holds))
        fun a holds => update_of_ne (notHeld a holds) _ _
    · rintro _ ⟨⟩
      exact ⟨prio_lt, bytes_fill n, update_self ..⟩

theorem Inv.link (isCall : s.call t = some (.linking prio data x))
    (linked : link s t prio data x = some after) : Inv after := by
  have held : s.holds t = some x := by simp [State.holds, isCall, Call.holds]
  have asleep : ¬ Woken s.kernel s.call t := not_woken (by simp [isCall]) (by simp [isCall])
  obtain ⟨prio_lt, isData, isNull⟩ := inv.calls t _ isCall
  have notQueued := inv.blocks.not_queued held
  have wf := inv.threads.wellFormed
  obtain ⟨que, pushed, rfl⟩ := Option.map_eq_some_iff.mp linked
  obtain ⟨samePool, sameData, sameSize, sameNext⟩ := inv.lists.doPush_frame pushed
  have readyAfter : ((s.kernel.rtIpcListResume .pop).thread t).stat = .ready := by
    rw [wf.rtIpcListResume_thread]
    split_ifs
    · rfl
    · exact ready
  have resumed (u : Tid) (notFirst : (s.kernel.queue (.wait .pop)).head? ≠ some u) :
      (s.kernel.rtIpcListResume .pop).thread u = s.kernel.thread u := by
    rw [wf.rtIpcListResume_thread, if_neg notFirst]
  have woken (u : Tid) (isWoken : Woken s.kernel s.call u) :
      Woken (s.kernel.rtIpcListResume .pop) (Function.update s.call t none) u := by
    have ne := isWoken.ne asleep
    by_cases isFirst : (s.kernel.queue (.wait .pop)).head? = some u
    · have waits := List.mem_of_mem_head? isFirst
      have suspended := wf.waiting u .pop waits
      obtain ⟨timeout, suspendedCall⟩ := inv.threads.pop u waits
      rcases isWoken with ⟨timeout, retries⟩ | ⟨-, isReady, -⟩
      · rw [suspendedCall] at retries
        simp at retries
      · rw [suspended] at isReady
        simp at isReady
    · exact isWoken.update ne (resumed u isFirst)
  refine ⟨inv.threads.resumePop.setCall readyAfter none, ?_, ?_, ?_, ?_, inv.returned, ?_⟩
  · exact inv.lists.doPush pushed prio_lt notQueued isNull isData
  · rw [holds_update s (t := t) rfl]
    change Conserved que.pool _ _
    rw [samePool]
    exact inv.blocks.push held
  · refine calls_update (fun u ne other isOther => ?_) (fun _ no => by simp at no)
    have isState : s.call u = some other := isOther
    refine (inv.calls u other isState).mono sameSize (fun _ => id)
      (fun a _ => bytes_congr sameData sameSize a) fun a holds => ?_
    have heldByOther : s.holds u = some a := by simp [State.holds, isState, holds]
    exact sameNext a (inv.blocks.not_queued heldByOther)
  · refine ⟨inv.log.next, fun pop isPop popped isPopped => ?_, inv.log.once⟩
    obtain ⟨serial_lt, notIn⟩ := inv.log.gone pop isPop popped isPopped
    refine ⟨Nat.lt_succ_of_lt serial_lt, fun other inQueue => ?_⟩
    rcases List.mem_append.mp inQueue with before | isNew
    · exact notIn other before
    · rw [List.mem_singleton.mp isNew]
      exact (Nat.ne_of_lt serial_lt).symm
  · change Enough (s.kernel.rtIpcListResume .pop) (Function.update s.call t none)
      (s.queued ++ [_]).length
    rw [List.length_append, List.length_singleton]
    rcases isEmpty : s.kernel.queue (.wait .pop) with _ | ⟨first, rest⟩
    · intro nonempty
      rw [wf.rtIpcListResume_wait, if_pos rfl, isEmpty] at nonempty
      exact absurd rfl nonempty
    · have waits : first ∈ s.kernel.queue (.wait .pop) := isEmpty ▸ List.mem_cons_self
      have suspended := wf.waiting first .pop waits
      have ne := inv.threads.ne_of_waits ready waits
      obtain ⟨timeout, firstCall⟩ := inv.threads.pop first waits
      refine inv.enough.wake waits ?_ (.inr ⟨⟨timeout, ?_⟩, ?_, ?_⟩) woken
      · rintro (⟨timeout, retries⟩ | ⟨-, isReady, -⟩)
        · rw [firstCall] at retries
          simp at retries
        · rw [suspended] at isReady
          simp at isReady
      · rw [update_of_ne ne]
        exact firstCall
      · simp [wf.rtIpcListResume_thread, isEmpty]
      · simpa [wf.rtIpcListResume_thread, isEmpty] using inv.threads.error first waits

theorem Inv.popLoop (idle : s.holds t = none) {timeout : BitVec 32}
    (looped : popLoop s t timeout = some after) : Inv after := by
  obtain ⟨⟨que, found⟩, popped, rfl⟩ := Option.map_eq_some_iff.mp looped
  cases found with
  | none =>
    obtain ⟨empty, rfl⟩ := inv.lists.doPop_none popped
    have noItem : s.queued.length = 0 := by rw [empty]; rfl
    split_ifs
    · exact inv.leave ready idle _ (noItem ▸ .none)
    · exact inv.quiet (t := t) s.que.pool.suspendThreadCount rfl rfl rfl rfl rfl rfl
        (inv.threads.block ready timeout) idle.symm (fun _ isNew => by
          cases isNew
          trivial) (noItem ▸ .none)
  | some a =>
    obtain ⟨x, isNext, rfl, samePool, sameData, sameNext, sameSize, lists⟩ :=
      inv.lists.doPop_some popped
    have isFound := inv.lists.find?_eq isNext.1
    dsimp only
    rw [isFound]
    refine ⟨inv.threads.setCall ready _, lists, ?_, ?_, ?_, ?_, ?_⟩
    · rw [holds_update s (t := t) rfl]
      change Conserved que.pool _ _
      rw [samePool]
      exact inv.blocks.pop isNext.1 idle
    · refine calls_update (fun u ne other isOther => ?_) ?_
      · have isState : s.call u = some other := isOther
        exact (inv.calls u other isState).mono sameSize (List.subset_cons_self _ _)
          (fun a _ => bytes_congr sameData sameSize a)
          fun a _ => congrFun sameNext a
      · rintro _ ⟨⟩
        refine ⟨⟨_, List.mem_cons_self, rfl⟩, x, rfl, ?_⟩
        exact (bytes_congr sameData sameSize x.item).trans (inv.lists.data x isNext.1)
    · refine ⟨?_, ?_, List.pairwise_cons.mpr ⟨?_, inv.log.once⟩⟩
      · intro pop isPop
        rcases List.mem_cons.mp isPop with rfl | before
        · exact ⟨x, rfl, isNext⟩
        · exact inv.log.next pop before
      · intro pop isPop taken isTaken
        rcases List.mem_cons.mp isPop with rfl | before
        · cases isTaken
          refine ⟨inv.lists.serial_lt x isNext.1, fun other inQueue same => ?_⟩
          obtain ⟨inQueue, ne⟩ := List.mem_filter.mp inQueue
          have isSame := inv.lists.eq_of_serial inQueue isNext.1 same
          simp [isSame] at ne
        · obtain ⟨serial_lt, notIn⟩ := inv.log.gone pop before taken isTaken
          exact ⟨serial_lt, fun other inQueue => notIn other (List.mem_of_mem_filter inQueue)⟩
      · intro pop isPop taken other isTaken isOther
        cases isTaken
        exact (inv.log.gone pop isPop other isOther).2 x isNext.1
    · intro r isResult
      exact (inv.returned r isResult).mono (List.subset_cons_self _ _)
    · refine inv.enough.take (t := t) ?_ id fun u ne woken => woken.update ne rfl
      exact length_filter_lt isNext.1

theorem Inv.popResumed {timeout : BitVec 32} (isCall : s.call t = some (.popSuspended timeout)) :
    Inv (popResumed s t timeout) := by
  have idle : s.holds t = none := by simp [State.holds, isCall, Call.holds]
  unfold PrioQueue.popResumed
  split_ifs with failed
  · refine inv.leave ready idle _ (inv.enough.update ?_)
    rintro (⟨timeout, retries⟩ | ⟨-, -, noError⟩)
    · simp [isCall] at retries
    · exact failed noError
  · refine inv.quiet (t := t) s.que.pool.suspendThreadCount rfl rfl rfl rfl rfl rfl
      (inv.threads.setCall ready _) idle.symm (fun _ isNew => ?_) ?_
    · cases isNew
      trivial
    · refine inv.enough.mono le_rfl id fun u woken => ?_
      by_cases same : u = t
      · subst same
        exact .inl ⟨timeout, update_self ..⟩
      · exact woken.update same rfl

theorem Inv.copy {popped : Option Item} (isCall : s.call t = some (.copying x popped)) :
    Inv ({ s with returned := (popped, s.que.bytes x) :: s.returned }.setCall t
      (some (.freeing x))) := by
  have held : s.holds t = some x := by simp [State.holds, isCall, Call.holds]
  have asleep : ¬ Woken s.kernel s.call t := not_woken (by simp [isCall]) (by simp [isCall])
  have same : Function.update s.holds t (some x) = s.holds := by rw [← held, update_eq_self]
  refine ⟨inv.threads.setCall ready _, inv.lists, ?_, ?_, inv.log, ?_, inv.enough.update asleep⟩
  · rw [holds_update s (t := t) rfl]
    change Conserved _ _ (Function.update s.holds t (some x))
    rw [same]
    exact inv.blocks
  · refine calls_update (fun u _ other isOther => inv.calls u other isOther) ?_
    rintro _ ⟨⟩
    trivial
  · intro r isResult
    rcases List.mem_cons.mp isResult with rfl | before
    · exact inv.calls t _ isCall
    · exact inv.returned r before

end

end RtThread.PrioQueue
