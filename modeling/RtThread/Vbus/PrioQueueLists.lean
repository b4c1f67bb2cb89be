import RtThread.Vbus.PrioQueue
import RtThread.Library.Chain

/-!
# The threads of the priority queue

A thread that waits is inside the call that made it wait.
-/

open Function (update update_of_ne update_self)

namespace RtThread.PrioQueue

universe u

variable {Tid : Type u}

structure Threads (k : Kernel Tid WaitList) (call : Tid → Option Call) : Prop where
  wellFormed : k.WellFormed
  pool : ∀ t ∈ k.queue (.wait .pool), ∃ prio data time beforeSleep,
    call t = some (.allocSuspended prio data time beforeSleep)
  pop : ∀ t ∈ k.queue (.wait .pop), ∃ timeout, call t = some (.popSuspended timeout)
  error : ∀ t ∈ k.queue (.wait .pop), (k.thread t).error = .eok

def Woken (k : Kernel Tid WaitList) (call : Tid → Option Call) (t : Tid) : Prop :=
  (∃ timeout, call t = some (.popRetrying timeout)) ∨
    (∃ timeout, call t = some (.popSuspended timeout)) ∧ (k.thread t).stat = .ready ∧
      (k.thread t).error = .eok

def Enough (k : Kernel Tid WaitList) (call : Tid → Option Call) (count : Nat) : Prop :=
  k.queue (.wait .pop) ≠ [] →
    ∃ woken : List Tid, woken.Nodup ∧ (∀ t ∈ woken, Woken k call t) ∧ count ≤ woken.length

section Enough

variable {k after : Kernel Tid WaitList} {call callAfter : Tid → Option Call}
  {count countAfter : Nat} {t : Tid}

theorem Enough.mono (enough : Enough k call count) (fewer : countAfter ≤ count)
    (waiters : after.queue (.wait .pop) ≠ [] → k.queue (.wait .pop) ≠ [])
    (woken : ∀ u, Woken k call u → Woken after callAfter u) :
    Enough after callAfter countAfter := by
  intro nonempty
  obtain ⟨list, nodup, isWoken, atLeast⟩ := enough (waiters nonempty)
  exact ⟨list, nodup, fun u inList => woken u (isWoken u inList), fewer.trans atLeast⟩

theorem Enough.take [DecidableEq Tid] (enough : Enough k call count)
    (fewer : countAfter + 1 ≤ count)
    (waiters : after.queue (.wait .pop) ≠ [] → k.queue (.wait .pop) ≠ [])
    (woken : ∀ u, u ≠ t → Woken k call u → Woken after callAfter u) :
    Enough after callAfter countAfter := by
  intro nonempty
  obtain ⟨list, nodup, isWoken, atLeast⟩ := enough (waiters nonempty)
  refine ⟨list.erase t, nodup.erase t, fun u inList => ?_, ?_⟩
  · obtain ⟨ne, inList⟩ := nodup.mem_erase_iff.mp inList
    exact woken u ne (isWoken u inList)
  · have : list.length - 1 ≤ (list.erase t).length := by
      rw [List.length_erase]
      split <;> omega
    omega

theorem Enough.none : Enough k call 0 := fun _ => ⟨[], List.nodup_nil, by simp, Nat.le_refl 0⟩

theorem Enough.wake (enough : Enough k call count) (waits : t ∈ k.queue (.wait .pop))
    (asleep : ¬ Woken k call t) (isWoken : Woken after callAfter t)
    (woken : ∀ u, Woken k call u → Woken after callAfter u) :
    Enough after callAfter (count + 1) := by
  intro _
  obtain ⟨list, nodup, listWoken, atLeast⟩ := enough (List.ne_nil_of_mem waits)
  have fresh : t ∉ list := fun inList => asleep (listWoken t inList)
  refine ⟨t :: list, List.nodup_cons.mpr ⟨fresh, nodup⟩, ?_, Nat.succ_le_succ atLeast⟩
  intro u inList
  rcases List.mem_cons.mp inList with rfl | inList
  · exact isWoken
  · exact woken u (listWoken u inList)

end Enough

namespace Threads

variable [DecidableEq Tid] {k : Kernel Tid WaitList} {call : Tid → Option Call} {t : Tid}

omit [DecidableEq Tid] in
theorem not_waiting (threads : Threads k call) (ready : (k.thread t).stat = .ready)
    (list : WaitList) : t ∉ k.queue (.wait list) :=
  threads.wellFormed.not_waiting (by simp [ready]) list

omit [DecidableEq Tid] in
theorem ne_of_waits (threads : Threads k call) (ready : (k.thread t).stat = .ready)
    {u : Tid} {list : WaitList} (waits : u ∈ k.queue (.wait list)) : u ≠ t := by
  rintro rfl
  exact threads.not_waiting ready list waits

theorem setCall (threads : Threads k call) (ready : (k.thread t).stat = .ready)
    (new : Option Call) : Threads k (update call t new) where
  wellFormed := threads.wellFormed
  error := threads.error
  pool u waits := by
    rw [update_of_ne (threads.ne_of_waits ready waits)]
    exact threads.pool u waits
  pop u waits := by
    rw [update_of_ne (threads.ne_of_waits ready waits)]
    exact threads.pop u waits

omit [DecidableEq Tid] in
theorem pendPool_wait (wf : k.WellFormed) [DecidableEq Tid]
    (ready : (k.thread t).stat = .ready) (time : BitVec 32) (list : WaitList) :
    (pendPool k t time).queue (.wait list) =
      if list = .pool then t :: k.queue (.wait .pool) else k.queue (.wait list) := by
  have ready' : ((k.setError t .eok).thread t).stat = .ready := by simpa using ready
  have suspended := (wf.setError t .eok).rtThreadSuspend_wait ready'
  cases list <;> simp [pendPool, suspended]

theorem pendPool_thread (ready : (k.thread t).stat = .ready) (time : BitVec 32) {u : Tid}
    (ne : u ≠ t) : (pendPool k t time).thread u = k.thread u := by
  have ready' : ((k.setError t .eok).thread t).stat = .ready := by simpa using ready
  simp [pendPool, Kernel.rtThreadSuspend_thread ready', ne]

section

variable (threads : Threads k call)

include threads

theorem pend (ready : (k.thread t).stat = .ready) (prio : Nat) (data : Bytes)
    (time beforeSleep : BitVec 32) : Threads (pendPool k t time)
      (update call t (some (.allocSuspended prio data time beforeSleep))) := by
  have wf := threads.wellFormed
  have ready' : ((k.setError t .eok).thread t).stat = .ready := by simpa using ready
  have reset := wf.setError t .eok
  have suspended := reset.rtThreadSuspend t
  have unlinked := reset.rtThreadSuspend_unlinked ready'
  refine ⟨?_, fun u waits => ?_, fun u waits => ?_, fun u waits => ?_⟩
  · refine (suspended.link (by simp [Kernel.rtThreadSuspend_thread ready']) unlinked
      (List.nodup_cons.mpr ⟨unlinked _, suspended.nodup _⟩) fun s => List.mem_cons).startTimer t _
  · rw [pendPool_wait wf ready, if_pos rfl] at waits
    rcases List.mem_cons.mp waits with rfl | waits
    · exact ⟨prio, data, time, beforeSleep, update_self ..⟩
    · rw [update_of_ne (threads.ne_of_waits ready waits)]
      exact threads.pool u waits
  · rw [pendPool_wait wf ready, if_neg (by decide)] at waits
    rw [update_of_ne (threads.ne_of_waits ready waits)]
    exact threads.pop u waits
  · rw [pendPool_wait wf ready, if_neg (by decide)] at waits
    rw [pendPool_thread ready time (threads.ne_of_waits ready waits)]
    exact threads.error u waits

theorem block (ready : (k.thread t).stat = .ready) (timeout : BitVec 32) :
    Threads (k.blockOn .pop t .fifo timeout.toInt)
      (update call t (some (.popSuspended timeout))) := by
  have wf := threads.wellFormed
  refine ⟨wf.blockOn ready .pop .fifo _, fun u waits => ?_, fun u waits => ?_, fun u waits => ?_⟩
  · rw [wf.blockOn_wait ready, if_neg (by decide)] at waits
    rw [update_of_ne (threads.ne_of_waits ready waits)]
    exact threads.pool u waits
  · rw [wf.blockOn_wait ready, if_pos rfl] at waits
    rcases Kernel.mem_insertWaiter.mp waits with rfl | waits
    · exact ⟨timeout, update_self ..⟩
    · rw [update_of_ne (threads.ne_of_waits ready waits)]
      exact threads.pop u waits
  · rw [wf.blockOn_wait ready, if_pos rfl] at waits
    rw [Kernel.blockOn_thread ready]
    split_ifs with same
    · rfl
    · rcases Kernel.mem_insertWaiter.mp waits with isThread | waits
      · exact absurd isThread same
      · exact threads.error u waits

theorem expire : Threads (k.rtThreadTimeout t) call := by
  have mem (list : WaitList) (u : Tid)
      (waits : u ∈ (k.rtThreadTimeout t).queue (.wait list)) :
      u ≠ t ∧ u ∈ k.queue (.wait list) := by
    exact (threads.wellFormed.nodup _).mem_erase_iff.mp waits
  refine ⟨threads.wellFormed.rtThreadTimeout t, fun u waits => threads.pool u (mem _ u waits).2,
    fun u waits => threads.pop u (mem _ u waits).2, fun u waits => ?_⟩
  have inList := mem _ u waits
  rw [Kernel.rtThreadTimeout_thread, if_neg inList.1]
  exact threads.error u inList.2

theorem resumePop : Threads (k.rtIpcListResume .pop) call := by
  have wf := threads.wellFormed
  have popMem (u : Tid) (waits : u ∈ (k.rtIpcListResume .pop).queue (.wait .pop)) :
      u ∈ k.queue (.wait .pop) := by
    rw [wf.rtIpcListResume_wait, if_pos rfl] at waits
    exact List.mem_of_mem_tail waits
  refine ⟨wf.rtIpcListResume .pop, fun u waits => ?_,
    fun u waits => threads.pop u (popMem u waits), fun u waits => ?_⟩
  · rw [wf.rtIpcListResume_wait, if_neg (by decide)] at waits
    exact threads.pool u waits
  · rw [wf.rtIpcListResume_thread]
    split_ifs
    · exact threads.error u (popMem u waits)
    · exact threads.error u (popMem u waits)

theorem resumePool (waits : t ∈ k.queue (.wait .pool)) :
    Threads ((k.setError t .eok).rtThreadResume t) call := by
  have wf := threads.wellFormed
  have suspended : ((k.setError t .eok).thread t).stat = .suspend := by
    simpa using wf.waiting t .pool waits
  have mem (list : WaitList) (u : Tid)
      (inList : u ∈ ((k.setError t .eok).rtThreadResume t).queue (.wait list)) :
      u ≠ t ∧ u ∈ k.queue (.wait list) := by
    rw [Kernel.rtThreadResume_wait suspended, Kernel.setError_queue] at inList
    exact (wf.nodup _).mem_erase_iff.mp inList
  refine ⟨(wf.setError t .eok).rtThreadResume t, fun u inList => threads.pool u (mem _ u inList).2,
    fun u inList => threads.pop u (mem _ u inList).2, fun u inList => ?_⟩
  have before := mem _ u inList
  simpa [Kernel.rtThreadResume_thread suspended, before.1] using threads.error u before.2

end

end Threads

def itemsOf (queued : List Item) (prio : Nat) : List Nat :=
  (queued.filter fun item => item.prio = prio).map (·.item)

def IsNext (queued : List Item) (item : Item) : Prop :=
  item ∈ queued ∧ ∀ other ∈ queued,
    item.prio < other.prio ∨ (item.prio = other.prio ∧ item.serial ≤ other.serial)

/-- The lists, the bitmap and the data stand for `queued`. -/
structure Lists (que : RtPrioQueue) (queued : List Item) (pushes : Nat) : Prop where
  table : ChainTable que.next que.head (itemsOf queued)
  bitmap : ∀ prio < rtPrioQueuePrioMax, (que.bitmap.getLsbD prio = true ↔ itemsOf queued prio ≠ [])
  tail : ∀ prio, itemsOf queued prio ≠ [] → que.tail prio = (itemsOf queued prio).getLast?
  data : ∀ item ∈ queued, que.bytes item.item = item.data
  prio_lt : ∀ item ∈ queued, item.prio < rtPrioQueuePrioMax
  order : queued.Pairwise fun first second => first.serial < second.serial
  serial_lt : ∀ item ∈ queued, item.serial < pushes

variable {queued : List Item} {que : RtPrioQueue} {pushes : Nat}

theorem mem_itemsOf {prio a : Nat} :
    a ∈ itemsOf queued prio ↔ ∃ x ∈ queued, x.prio = prio ∧ x.item = a := by
  simp [itemsOf, and_assoc]

theorem itemsOf_append (x : Item) : itemsOf (queued ++ [x]) =
    update (itemsOf queued) x.prio (itemsOf queued x.prio ++ [x.item]) := by
  funext prio
  by_cases same : prio = x.prio
  · subst same
    simp [itemsOf]
  · simp [itemsOf, same, Ne.symm same]

theorem itemsOf_filter (a prio : Nat) : itemsOf (queued.filter fun x => x.item ≠ a) prio =
      (itemsOf queued prio).filter fun x => x ≠ a := by
  simp only [itemsOf, List.filter_map, List.filter_filter]
  congr 2
  funext x
  simp [Bool.and_comm]

theorem length_filter_lt {x : Item} (inQueue : x ∈ queued) :
    (queued.filter fun other => other.item ≠ x.item).length + 1 ≤ queued.length := by
  refine Nat.succ_le_of_lt (List.length_filter_lt_length_iff_exists.mpr ⟨x, inQueue, ?_⟩)
  simp

variable {after : RtPrioQueue}

namespace Lists

section

variable (lists : Lists que queued pushes)

include lists

theorem eq_of_item {a second : Item} (inFirst : a ∈ queued) (inSecond : second ∈ queued)
    (same : a.item = second.item) : a = second := by
  have samePrio : a.prio = second.prio :=
    lists.table.disjoint a.prio second.prio a.item
      (mem_itemsOf.mpr ⟨a, inFirst, rfl, rfl⟩)
      (mem_itemsOf.mpr ⟨second, inSecond, rfl, same.symm⟩)
  have nodup := lists.table.nodup a.prio
  refine List.inj_on_of_nodup_map nodup ?_ ?_ same
  · simpa using inFirst
  · simpa [samePrio] using inSecond

theorem eq_of_serial {a second : Item} (inFirst : a ∈ queued) (inSecond : second ∈ queued)
    (same : a.serial = second.serial) : a = second := by
  have nodup : (queued.map (·.serial)).Nodup :=
    List.pairwise_map.mpr (lists.order.imp fun less => Nat.ne_of_lt less)
  exact List.inj_on_of_nodup_map nodup inFirst inSecond same

theorem find?_eq {x : Item} (inQueue : x ∈ queued) :
    queued.find? (fun other => other.item = x.item) = some x := by
  obtain ⟨found, isFound⟩ : ∃ found, queued.find? (fun other => other.item = x.item) =
      some found := by
    rw [← Option.isSome_iff_exists, List.find?_isSome]
    exact ⟨x, inQueue, by simp⟩
  have sameItem : found.item = x.item := by simpa using List.find?_some isFound
  rw [isFound, lists.eq_of_item (List.mem_of_find?_eq_some isFound) inQueue sameItem]

theorem doPush {prio x : Nat} {data : Bytes} (pushed : que.doPush prio x = some after)
    (prio_lt : prio < rtPrioQueuePrioMax) (outside : ∀ other ∈ queued, other.item ≠ x)
    (isNull : que.next x = none) (isData : que.bytes x = data) :
    Lists after (queued ++ [⟨prio, pushes, data, x⟩]) (pushes + 1) := by
  have notIn (other : Nat) : x ∉ itemsOf queued other := by
    intro mem
    obtain ⟨queuedItem, inQueue, -, isItem⟩ := mem_itemsOf.mp mem
    exact outside queuedItem inQueue isItem
  have order : (queued ++ [(⟨prio, pushes, data, x⟩ : Item)]).Pairwise
      fun a second => a.serial < second.serial := by
    refine List.pairwise_append.mpr ⟨lists.order, List.pairwise_singleton .., ?_⟩
    intro a inQueue second isSecond
    rw [List.mem_singleton.mp isSecond]
    exact lists.serial_lt a inQueue
  have prios (other : Item) (mem : other ∈ queued ++ [(⟨prio, pushes, data, x⟩ : Item)]) :
      other.prio < rtPrioQueuePrioMax := by
    rcases List.mem_append.mp mem with inQueue | isNew
    · exact lists.prio_lt other inQueue
    · rw [List.mem_singleton.mp isNew]
      exact prio_lt
  have serials (other : Item)
      (mem : other ∈ queued ++ [(⟨prio, pushes, data, x⟩ : Item)]) :
      other.serial < pushes + 1 := by
    rcases List.mem_append.mp mem with inQueue | isNew
    · exact Nat.lt_succ_of_lt (lists.serial_lt other inQueue)
    · rw [List.mem_singleton.mp isNew]
      exact Nat.lt_succ_self pushes
  have contents (other : Item)
      (mem : other ∈ queued ++ [(⟨prio, pushes, data, x⟩ : Item)]) :
      que.bytes other.item = other.data := by
    rcases List.mem_append.mp mem with inQueue | isNew
    · exact lists.data other inQueue
    · rw [List.mem_singleton.mp isNew]
      exact isData
  have tails (other : Nat)
      (nonempty : itemsOf (queued ++ [⟨prio, pushes, data, x⟩]) other ≠ []) :
      update que.tail prio (some x) other =
        (itemsOf (queued ++ [⟨prio, pushes, data, x⟩]) other).getLast? := by
    rw [itemsOf_append] at nonempty ⊢
    by_cases same : other = prio
    · subst same
      simp
    · rw [update_of_ne same] at nonempty
      rw [update_of_ne same, update_of_ne same]
      exact lists.tail other nonempty
  unfold RtPrioQueue.doPush at pushed
  split at pushed
  · rename_i noHead
    cases pushed
    have empty : itemsOf queued prio = [] := (lists.table.head_eq_none_iff prio).mp noHead
    refine ⟨?_, fun other inside => ?_, tails, contents, prios, order, serials⟩
    · rw [itemsOf_append]
      exact lists.table.single notIn isNull empty
    · rw [itemsOf_append]
      rw [BitMask.getLsbD_or_one_shiftLeft _ (show other < 32 from inside)]
      by_cases same : other = prio
      · subst same
        simp
      · simpa [same] using lists.bitmap other inside
  · rename_i a isHead
    obtain ⟨last, isTail, rfl⟩ := Option.map_eq_some_iff.mp pushed
    have nonempty : itemsOf queued prio ≠ [] := by
      intro empty
      have := (lists.table.head_eq_none_iff prio).mpr empty
      simp [isHead] at this
    refine ⟨?_, fun other inside => ?_, tails, contents, prios, order, serials⟩
    · rw [itemsOf_append]
      exact lists.table.append notIn isNull ((lists.tail prio nonempty).symm.trans isTail)
    · rw [itemsOf_append]
      by_cases same : other = prio
      · subst same
        simpa [nonempty] using lists.bitmap other inside
      · simpa [update_of_ne same] using lists.bitmap other inside

theorem doPush_frame {prio x : Nat} (pushed : que.doPush prio x = some after) :
    after.pool = que.pool ∧ after.data = que.data ∧ after.itemSz = que.itemSz ∧
      ∀ a, (∀ other ∈ queued, other.item ≠ a) → after.next a = que.next a := by
  unfold RtPrioQueue.doPush at pushed
  split at pushed
  · cases pushed
    exact ⟨rfl, rfl, rfl, fun _ _ => rfl⟩
  · rename_i first isHead
    obtain ⟨last, isTail, rfl⟩ := Option.map_eq_some_iff.mp pushed
    refine ⟨rfl, rfl, rfl, fun a outside => update_of_ne ?_ _ _⟩
    rintro rfl
    have nonempty : itemsOf queued prio ≠ [] := by
      intro empty
      have := (lists.table.head_eq_none_iff prio).mpr empty
      simp [isHead] at this
    have isLast := (lists.tail prio nonempty).symm.trans isTail
    obtain ⟨other, inQueue, -, isItem⟩ := mem_itemsOf.mp (List.mem_of_getLast? isLast)
    exact outside other inQueue isItem

theorem queued_eq_nil (zero : que.bitmap = 0) : queued = [] := by
  refine List.eq_nil_iff_forall_not_mem.mpr fun x inQueue => ?_
  have nonempty : itemsOf queued x.prio ≠ [] :=
    List.ne_nil_of_mem (mem_itemsOf.mpr ⟨x, inQueue, rfl, rfl⟩)
  have isSet := (lists.bitmap x.prio (lists.prio_lt x inQueue)).mpr nonempty
  simp [zero] at isSet

theorem isNext_of_lowest {prio a : Nat} {rest : List Nat} (lowest : IsLowestBit que.bitmap prio)
    (list_eq : itemsOf queued prio = a :: rest) :
    ∃ x, IsNext queued x ∧ x.item = a ∧ x.prio = prio := by
  obtain ⟨x, others, filter_eq, isFirst, -⟩ := List.map_eq_cons_iff.mp list_eq
  have isMember : x ∈ queued.filter fun x => x.prio = prio := by simp [filter_eq]
  obtain ⟨inQueue, isPrio⟩ : x ∈ queued ∧ x.prio = prio := by simpa using isMember
  refine ⟨x, ⟨inQueue, fun other otherIn => ?_⟩, isFirst, isPrio⟩
  rcases Nat.lt_trichotomy other.prio prio with more | same | less
  · have nonempty : itemsOf queued other.prio ≠ [] :=
      List.ne_nil_of_mem (mem_itemsOf.mpr ⟨other, otherIn, rfl, rfl⟩)
    have isSet := (lists.bitmap other.prio (lists.prio_lt other otherIn)).mpr nonempty
    simp [lowest.2 other.prio more] at isSet
  · refine .inr ⟨isPrio.trans same.symm, ?_⟩
    have ordered := lists.order.filter fun x => x.prio = prio
    rw [filter_eq] at ordered
    have otherMember : other ∈ x :: others := by
      rw [← filter_eq]
      simpa using ⟨otherIn, same⟩
    rcases List.mem_cons.mp otherMember with rfl | behind
    · exact le_rfl
    · exact Nat.le_of_lt ((List.pairwise_cons.mp ordered).1 other behind)
  · exact .inl (isPrio ▸ less)

theorem doPop_none (popped : que.doPop = some (after, none)) : queued = [] ∧ after = que := by
  unfold RtPrioQueue.doPop at popped
  split_ifs at popped with noBit
  · have zero : que.bitmap = 0 := by
      by_contra nonzero
      obtain ⟨p, isPlace, -⟩ := rtFfs_isLowestBit nonzero
      omega
    simp only [Option.some.injEq, Prod.mk.injEq, and_true] at popped
    exact ⟨lists.queued_eq_nil zero, popped.symm⟩
  · obtain ⟨x, -, isNone⟩ := Option.map_eq_some_iff.mp popped
    simp at isNone

theorem doPop_some {a : Nat} (popped : que.doPop = some (after, some a)) :
    ∃ x, IsNext queued x ∧ x.item = a ∧ after.pool = que.pool ∧
      after.data = que.data ∧ after.next = que.next ∧ after.itemSz = que.itemSz ∧
      Lists after (queued.filter fun other => other.item ≠ a) pushes := by
  unfold RtPrioQueue.doPop at popped
  split_ifs at popped with noBit
  · simp at popped
  have nonzero : que.bitmap ≠ 0 := by
    intro zero
    rw [zero] at noBit
    exact noBit rfl
  obtain ⟨prio, isPlace, lowest⟩ := rtFfs_isLowestBit nonzero
  rw [isPlace, Nat.add_sub_cancel] at popped
  obtain ⟨first, isHead, isPopped⟩ := Option.map_eq_some_iff.mp popped
  obtain ⟨rfl, rfl⟩ : _ = after ∧ first = a := by simpa using isPopped
  have inside : prio < 32 := by
    by_contra outside
    exact absurd lowest.1 (by simp [BitVec.getLsbD_of_ge _ _ (Nat.le_of_not_lt outside)])
  have chain := lists.table.chain prio
  rw [isHead] at chain
  obtain ⟨rest, list_eq, restChain⟩ := chain.cases_some
  obtain ⟨x, isNext, isFirst, isPrio⟩ := lists.isNext_of_lowest lowest list_eq
  have nodup := lists.table.nodup prio
  rw [list_eq] at nodup
  have fresh := (List.nodup_cons.mp nodup).1
  have left : itemsOf (queued.filter fun other => other.item ≠ first) =
      update (itemsOf queued) prio rest := by
    funext other
    rw [itemsOf_filter]
    by_cases same : other = prio
    · subst same
      rw [update_self, list_eq]
      have kept : ∀ member ∈ rest, member ≠ first := fun member inRest equal =>
        fresh (equal ▸ inRest)
      simpa using kept
    · rw [update_of_ne same]
      refine List.filter_eq_self.mpr fun member inOther => ?_
      have : member ≠ first := by
        rintro rfl
        exact same (lists.table.disjoint _ _ _ inOther (list_eq ▸ List.mem_cons_self))
      simpa using this
  refine ⟨x, isNext, isFirst, rfl, rfl, rfl, rfl, ?_⟩
  refine ⟨?_, fun other below => ?_, fun other nonempty => ?_, fun other inQueue => ?_,
    fun other inQueue => ?_, lists.order.filter _, fun other inQueue => ?_⟩
  · rw [left]
    exact lists.table.pop list_eq
  · rw [left]
    have before := lists.bitmap other below
    by_cases same : other = prio
    · subst same
      have isSet := lowest.1
      split_ifs with isLast
      · rw [restChain.eq_none_iff.mp isLast]
        simp
      · have more : rest ≠ [] := fun empty => isLast (restChain.eq_none_iff.mpr empty)
        simp [isSet, more]
    · rw [update_of_ne same, ← before]
      split_ifs
      · rw [BitMask.getLsbD_and_not_one_shiftLeft _ same]
      · rfl
  · rw [left] at nonempty ⊢
    by_cases same : other = prio
    · subst same
      rw [update_self] at nonempty ⊢
      have isTail := lists.tail other (by simp [list_eq])
      rw [isTail, list_eq, List.getLast?_cons, List.getLast?_eq_some_getLast nonempty]
      rfl
    · rw [update_of_ne same] at nonempty ⊢
      exact lists.tail other nonempty
  · exact lists.data other (List.mem_of_mem_filter inQueue)
  · exact lists.prio_lt other (List.mem_of_mem_filter inQueue)
  · exact lists.serial_lt other (List.mem_of_mem_filter inQueue)

end

end Lists

end RtThread.PrioQueue
