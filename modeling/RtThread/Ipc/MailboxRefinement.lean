import RtThread.Ipc.Mailbox

/-!
# A mailbox is a bounded queue

Mails and free slots play the same part for the two sides, so the account of wake-ups is
kept once, for a side and the other one: as long as somebody waits on a side, what it
waits for is promised to threads that were woken and have not run.
-/

namespace RtThread.Mailbox

universe u v

variable {Tid : Type u} {Mail : Type v} [DecidableEq Tid]

def Side.other : Side → Side
  | .recv => .send
  | .send => .recv

@[simp] theorem Side.other_ne (side : Side) : side.other ≠ side := by cases side <;> simp [other]

/-- The caller may run the loop of its side. -/
def Admitted (st : State Tid Mail) (side : Side) : Option Tid → Prop
  | none => True
  | some t => (st.kernel.thread t).stat = .ready ∧
      ∀ call, st.call t = some call → call.side = side ∧ (st.kernel.thread t).error = .eok

inductive Effect (st : State Tid Mail) : Outcome Mail → State Tid Mail → Prop where
  | put {caller : Option Tid} (value : Mail) (admitted : Admitted st .send caller)
      (notFull : st.entry ≠ st.size) :
      Effect st (.sent value) ((putMail st value).leave caller)
  | fetched {caller : Option Tid} (admitted : Admitted st .recv caller)
      (notEmpty : st.entry ≠ 0) :
      Effect st (.received (fetchMail st).2) ((fetchMail st).1.leave caller)
  | blocked {side : Side} {t : Tid} {mail : Option Mail} {timeout : BitVec 32}
      (admitted : Admitted st side (some t))
      (isSide : (if mail.isSome then Side.send else Side.recv) = side)
      (unavailable : st.available side = 0) :
      Effect st .blocked (suspendIn st side t mail timeout)
  | failed {t : Tid} {code : RtErr} {kernel : Kernel Tid Side}
      (ready : (st.kernel.thread t).stat = .ready)
      (nothingMissed : ∀ side, st.woken side t = true → st.available side = 0)
      (wellFormed : st.kernel.WellFormed → kernel.WellFormed)
      (queue : kernel.queue = st.kernel.queue)
      (others : ∀ s, s ≠ t → kernel.thread s = st.kernel.thread s) :
      Effect st (.failed code) ({ st with kernel := kernel }.leave (some t))
  | refused (code : RtErr) : Effect st (.failed code) st
  | expired {t : Tid} (suspended : (st.kernel.thread t).stat = .suspend) :
      Effect st .silent { st with kernel := st.kernel.rtThreadTimeout t }
  | ticked : Effect st .silent { st with tick := st.tick + 1 }

structure Inv [Fintype Tid] (size : Nat) (st : State Tid Mail) : Prop where
  wellFormed : st.kernel.WellFormed
  size_eq : st.size = size
  size_lt : st.size < 0x10000
  outOffset_lt : st.outOffset < st.size
  entry_le : st.entry ≤ st.size
  inOffset_eq : st.inOffset = (st.outOffset + st.entry) % st.size
  waiting : ∀ side t, t ∈ st.waiters side →
    (∃ call, st.call t = some call ∧ call.side = side) ∧ (st.kernel.thread t).error = .eok
  account : ∀ side, st.waiters side ≠ [] → st.available side ≤ countOf (st.woken side)

variable {timeout : BitVec 32} {outcome : Outcome Mail} {t s : Tid} {list : Side}

theorem sendLoop_effect {st after : State Tid Mail} {caller : Option Tid} {value : Mail}
    (admitted : Admitted st .send caller)
    (result : sendLoop st caller value timeout = some (after, outcome)) :
    Effect st outcome after := by
  unfold sendLoop at result
  split at result
  · rename_i full
    cases caller with
    | none => simp at result
    | some t =>
      simp only at result
      split at result
      · cases result
        refine .failed admitted.1 ?_ (fun wf => wf.setError t .eok) rfl ?_
        · intro side woken
          cases side with
          | send => simp [State.available, full]
          | recv =>
            simp only [State.woken, Bool.and_eq_true, Option.any_eq_true] at woken
            obtain ⟨⟨⟨call, isCall, isRecv⟩, -⟩, -⟩ := woken
            simp [(admitted.2 call isCall).1] at isRecv
        · intro s ne
          simp [ne]
      · cases result
        exact .blocked admitted (by simp) (by simp [State.available, full])
  · rename_i notFull
    cases result
    exact .put value admitted notFull

theorem recvLoop_effect {st after : State Tid Mail} {caller : Option Tid}
    (admitted : Admitted st .recv caller)
    (result : recvLoop st caller timeout = some (after, outcome)) : Effect st outcome after := by
  unfold recvLoop at result
  split at result
  · rename_i empty
    cases caller with
    | none => simp at result
    | some t =>
      simp only at result
      split at result
      · cases result
        refine .failed admitted.1 ?_
          (fun wf => (wf.setError t .eok).setError t .etimeout) rfl ?_
        · intro side woken
          cases side with
          | recv => simp [State.available, empty]
          | send =>
            simp only [State.woken, Bool.and_eq_true, Option.any_eq_true] at woken
            obtain ⟨⟨⟨call, isCall, isSend⟩, -⟩, -⟩ := woken
            simp [(admitted.2 call isCall).1] at isSend
        · intro s ne
          simp [ne]
      · cases result
        exact .blocked admitted (by simp) (by simp [State.available, empty])
  · rename_i notEmpty
    cases result
    exact .fetched admitted notEmpty

omit [DecidableEq Tid] in
theorem admitted_of_running {st : State Tid Mail} {caller : Option Tid}
    (running : st.Running caller) (side : Side) : Admitted st side caller := by
  cases caller with
  | none => trivial
  | some t => exact ⟨running.1, fun call isCall => absurd running.2 (by simp [isCall])⟩

theorem sendWait_effect {st after : State Tid Mail} {caller : Option Tid} {value : Mail}
    (running : st.Running caller)
    (result : rtMbSendWait st caller value timeout = some (after, outcome)) :
    Effect st outcome after := by
  unfold rtMbSendWait at result
  split at result
  · cases result
    exact .refused _
  · exact sendLoop_effect (admitted_of_running running _) result

theorem recv_effect {st after : State Tid Mail} {caller : Option Tid} (running : st.Running caller)
    (result : rtMbRecv st caller timeout = some (after, outcome)) : Effect st outcome after := by
  unfold rtMbRecv at result
  split at result
  · cases result
    exact .refused _
  · exact recvLoop_effect (admitted_of_running running _) result

theorem resumed_effect {st after : State Tid Mail} {call : Call Mail}
    (isCall : st.call t = some call) (ready : (st.kernel.thread t).stat = .ready)
    (result : callResumed st t call = some (after, outcome)) : Effect st outcome after := by
  unfold callResumed at result
  simp only at result
  split at result
  · rename_i woken
    cases result
    refine .failed ready ?_ (fun wf => wf) rfl fun _ _ => rfl
    intro side isWoken
    simp [State.woken, woken] at isWoken
  · rename_i noError
    have admitted : ∀ side, call.side = side → Admitted st side (some t) := by
      refine fun side isSide => ⟨ready, fun call' isCall' => ?_⟩
      rw [isCall, Option.some.injEq] at isCall'
      exact ⟨isCall' ▸ isSide, not_not.mp noError⟩
    split at result
    · next value isSender =>
      exact sendLoop_effect (admitted .send (by simp [Call.side, isSender])) result
    · next isReceiver =>
      exact recvLoop_effect (admitted .recv (by simp [Call.side, isReceiver])) result

theorem step_effect {st after : State Tid Mail} {e : Event Tid Mail}
    (ran : step st e = some (after, outcome)) : Effect st outcome after := by
  cases e with
  | sendWait caller value timeout | send caller value =>
    obtain ⟨running, ran⟩ := Option.ite_none_right_eq_some.mp ran
    exact sendWait_effect running ran
  | recv caller timeout =>
    obtain ⟨running, ran⟩ := Option.ite_none_right_eq_some.mp ran
    exact recv_effect running ran
  | resumed t =>
    simp only [step] at ran
    split at ran
    · rename_i call isCall
      obtain ⟨ready, ran⟩ := Option.ite_none_right_eq_some.mp ran
      exact resumed_effect isCall ready ran
    · simp at ran
  | timeout t =>
    obtain ⟨expiry, ⟨⟩⟩ := Option.ite_none_right_eq_some.mp ran
    exact .expired expiry.1
  | tick =>
    cases ran
    exact .ticked

omit [DecidableEq Tid] in
theorem woken_iff {st : State Tid Mail} {side : Side} :
    st.woken side t = true ↔ (∃ call, st.call t = some call ∧ call.side = side) ∧
      (st.kernel.thread t).stat = .ready ∧ (st.kernel.thread t).error = .eok := by
  simp [State.woken, Option.any_eq_true, and_assoc]

omit [DecidableEq Tid] in
theorem Admitted.not_woken {st : State Tid Mail} {side : Side}
    (admitted : Admitted st side (some t)) : st.woken side.other t = false := by
  rw [Bool.eq_false_iff, Ne, woken_iff]
  rintro ⟨⟨call, isCall, isSide⟩, -⟩
  have := (admitted.2 call isCall).1
  rw [isSide] at this
  exact side.other_ne this

@[simp] theorem leave_kernel (st : State Tid Mail) (caller : Option Tid) :
    (st.leave caller).kernel = st.kernel := by cases caller <;> rfl

theorem leave_call (st : State Tid Mail) (caller : Option Tid) (s : Tid) :
    (st.leave caller).call s = if caller = some s then none else st.call s := by
  cases caller with
  | none => rfl
  | some t => simp [State.leave, Function.update_apply, eq_comm]

structure Transferred (st after : State Tid Mail) (side : Side) (caller : Option Tid) :
    Prop where
  kernel : after.kernel = st.kernel.rtIpcListResume side.other
  call : ∀ s, after.call s = if caller = some s then none else st.call s

section transfer

variable [Fintype Tid] {size : Nat} {st after : State Tid Mail} {side : Side}
  {caller : Option Tid}

omit [DecidableEq Tid] in
theorem Admitted.not_waiting (admitted : Admitted st side caller) (inv : Inv size st)
    (waits : s ∈ st.waiters list) : caller ≠ some s := by
  rintro rfl
  have suspended := inv.wellFormed.waiting s list waits
  simp [admitted.1] at suspended

omit [DecidableEq Tid] in
theorem Inv.not_woken (inv : Inv size st)
    (waits : s ∈ st.waiters list) (side : Side) : st.woken side s = false := by
  have suspended := inv.wellFormed.waiting s list waits
  simp [State.woken, suspended]

namespace Transferred

section

variable (transferred : Transferred st after side caller) (inv : Inv size st)

include transferred inv

theorem thread_head (isHead : (st.waiters side.other).head? = some s) :
    after.kernel.thread s = { st.kernel.thread s with stat := .ready, timer := false } := by
  rw [transferred.kernel, inv.wellFormed.rtIpcListResume_thread side.other s]
  exact if_pos isHead

theorem thread_rest (notHead : (st.waiters side.other).head? ≠ some s) :
    after.kernel.thread s = st.kernel.thread s := by
  rw [transferred.kernel, inv.wellFormed.rtIpcListResume_thread side.other s]
  exact if_neg notHead

theorem waiters_eq (list : Side) : after.waiters list =
      if list = side.other then (st.waiters side.other).tail else st.waiters list := by
  rw [State.waiters, transferred.kernel, inv.wellFormed.rtIpcListResume_wait side.other list]
  rfl

theorem still_waits (waits : s ∈ after.waiters list) :
    s ∈ st.waiters list ∧ (st.waiters side.other).head? ≠ some s := by
  rw [transferred.waiters_eq inv] at waits
  by_cases isOther : list = side.other
  · subst isOther
    rw [if_pos rfl] at waits
    refine ⟨List.mem_of_mem_tail waits, fun isHead => ?_⟩
    have nodup := inv.wellFormed.nodup (.wait side.other)
    rw [← State.waiters] at nodup
    cases queue : st.waiters side.other with
    | nil => simp [queue] at isHead
    | cons a rest =>
      rw [queue] at nodup waits isHead
      obtain rfl : a = s := by simpa using isHead
      exact (List.nodup_cons.mp nodup).1 waits
  · rw [if_neg isOther] at waits
    refine ⟨waits, fun isHead => isOther ?_⟩
    have := inv.wellFormed.disjoint s _ _ waits (List.mem_of_head? isHead)
    simpa using this

theorem woken_eq (list : Side) (notCaller : caller ≠ some s)
    (notHead : (st.waiters side.other).head? ≠ some s) : after.woken list s = st.woken list s := by
  simp only [State.woken, transferred.thread_rest inv notHead, transferred.call, notCaller,
    if_false]

section

variable (admitted : Admitted st side caller)

include admitted

theorem head_woken (isHead : (st.waiters side.other).head? = some s) :
    after.woken side s = false ∧ after.woken side.other s = true := by
  have waits := List.mem_of_head? isHead
  obtain ⟨⟨pending, isPending, isOther⟩, noError⟩ := inv.waiting _ s waits
  have pendingAfter : after.call s = some pending := by
    rw [transferred.call, if_neg (admitted.not_waiting inv waits), isPending]
  have threadAfter := transferred.thread_head inv isHead
  constructor
  · simp [State.woken, pendingAfter, isOther]
  · simp [State.woken, pendingAfter, isOther, threadAfter, noError]

theorem countOf_other (waits : st.waiters side.other ≠ []) :
    countOf (after.woken side.other) = countOf (st.woken side.other) + 1 := by
  obtain ⟨a, isHead⟩ := Option.ne_none_iff_exists'.mp
    (fun noHead => waits (List.head?_eq_none_iff.mp noHead))
  have agree : ∀ s, s ≠ a → after.woken side.other s = st.woken side.other s := by
    intro s notFirst
    have notHead : (st.waiters side.other).head? ≠ some s := by
      simpa [isHead] using Ne.symm notFirst
    cases caller with
    | none => exact transferred.woken_eq inv _ (by simp) notHead
    | some t =>
      by_cases isCaller : t = s
      · subst isCaller
        rw [admitted.not_woken]
        simp [State.woken, transferred.call]
      · exact transferred.woken_eq inv _ (by simpa using isCaller) notHead
  have counted := countOf_add_of_agree a agree
  rw [(transferred.head_woken inv admitted isHead).2,
    inv.not_woken (List.mem_of_head? isHead)] at counted
  simpa using counted

theorem countOf_own : countOf (st.woken side) ≤ countOf (after.woken side) + 1 := by
  have agree : ∀ s, caller ≠ some s → st.woken side s = after.woken side s := by
    intro s notCaller
    by_cases isHead : (st.waiters side.other).head? = some s
    · rw [(transferred.head_woken inv admitted isHead).1, inv.not_woken (List.mem_of_head? isHead)]
    · exact (transferred.woken_eq inv _ notCaller isHead).symm
  cases caller with
  | none => exact Nat.le_succ_of_le (Nat.le_of_eq (countOf_congr fun s => agree s (by simp)))
  | some t =>
    exact countOf_le_succ_of_agree t fun s notCaller =>
      agree s (by simpa using Ne.symm notCaller)

end

end

end Transferred

theorem Inv.transfer (inv : Inv size st) (admitted : Admitted st side caller)
    (transferred : Transferred st after side caller)
    (used : after.available side + 1 = st.available side)
    (provided : after.available side.other = st.available side.other + 1)
    (size_eq : after.size = st.size) (outOffset_lt : after.outOffset < after.size)
    (entry_le : after.entry ≤ after.size)
    (inOffset_eq : after.inOffset = (after.outOffset + after.entry) % after.size) :
    Inv size after := by
  refine ⟨transferred.kernel ▸ inv.wellFormed.rtIpcListResume _, size_eq.trans inv.size_eq,
    size_eq ▸ inv.size_lt, outOffset_lt, entry_le, inOffset_eq, ?_, ?_⟩
  · intro list s waits
    obtain ⟨waitsBefore, notHead⟩ := transferred.still_waits inv waits
    rw [transferred.call, if_neg (admitted.not_waiting inv waitsBefore),
      transferred.thread_rest inv notHead]
    exact inv.waiting list s waitsBefore
  · intro list waits
    rw [transferred.waiters_eq inv] at waits
    by_cases isOther : list = side.other
    · subst isOther
      have waitsBefore : st.waiters side.other ≠ [] := by
        intro empty
        simp [empty] at waits
      have before := inv.account side.other waitsBefore
      rw [transferred.countOf_other inv admitted waitsBefore]
      omega
    · obtain rfl : list = side := by cases list <;> cases side <;> simp_all [Side.other]
      rw [if_neg isOther] at waits
      have before := inv.account list waits
      have fewer := transferred.countOf_own inv admitted
      omega

end transfer

section

variable (st : State Tid Mail)

include st

section

variable (caller : Option Tid)

include caller

@[simp] theorem leave_msgPool : (st.leave caller).msgPool = st.msgPool := by cases caller <;> rfl

@[simp] theorem leave_size : (st.leave caller).size = st.size := by cases caller <;> rfl

@[simp] theorem leave_entry : (st.leave caller).entry = st.entry := by cases caller <;> rfl

@[simp] theorem leave_inOffset : (st.leave caller).inOffset = st.inOffset := by cases caller <;> rfl

@[simp] theorem leave_outOffset :
    (st.leave caller).outOffset = st.outOffset := by cases caller <;> rfl

end

theorem putMail_eq (value : Mail) : putMail st value = { st with
        msgPool := Function.update st.msgPool st.inOffset value
        inOffset := bump st.size st.inOffset
        entry := (st.entry + 1) % 0x10000
        kernel := st.kernel.rtIpcListResume .recv } := by
  simp only [putMail]
  split
  · rfl
  · rename_i noWaiters
    simp only [State.waiters, not_not] at noWaiters
    simp [Kernel.rtIpcListResume, noWaiters]

theorem fetchMail_eq : fetchMail st = ({ st with
          outOffset := bump st.size st.outOffset
          entry := st.entry - 1
          kernel := st.kernel.rtIpcListResume .send }, st.msgPool st.outOffset) := by
  simp only [fetchMail]
  split
  · rfl
  · rename_i noWaiters
    simp only [State.waiters, not_not] at noWaiters
    simp [Kernel.rtIpcListResume, noWaiters]

end

theorem bump_eq_advance {size offset : Nat} (inside : offset < size) (small : size < 0x10000) :
    bump size offset = CircularBuffer.advance size offset := by
  rw [CircularBuffer.advance_eq_ite inside, bump, Nat.mod_eq_of_lt (by omega)]

variable [Fintype Tid] {size : Nat} {st after : State Tid Mail}

section

variable (inv : Inv size st)

include inv

omit [DecidableEq Tid] in
theorem Inv.inOffset_lt : st.inOffset < st.size := by
  rw [inv.inOffset_eq]
  exact Nat.mod_lt _ (Nat.zero_lt_of_lt inv.outOffset_lt)

theorem put_inv {caller : Option Tid} (value : Mail) (admitted : Admitted st .send caller)
    (notFull : st.entry ≠ st.size) : Inv size ((putMail st value).leave caller) := by
  have entry_le := inv.entry_le
  have size_lt := inv.size_lt
  have counted : (st.entry + 1) % 0x10000 = st.entry + 1 := Nat.mod_eq_of_lt (by omega)
  have transferred : Transferred st ((putMail st value).leave caller) .send caller := by
    refine ⟨by simp [putMail_eq, Side.other], fun s => ?_⟩
    rw [leave_call, putMail_eq]
  refine inv.transfer admitted transferred ?_ ?_ ?_ ?_ ?_ ?_
  · simp only [State.available, leave_size, leave_entry, putMail_eq]
    omega
  · simp [State.available, Side.other, putMail_eq, counted]
  · simp [putMail_eq]
  · simpa [putMail_eq] using inv.outOffset_lt
  · simp only [leave_size, leave_entry, putMail_eq]
    omega
  · simp only [leave_size, leave_entry, leave_inOffset, leave_outOffset, putMail_eq, counted]
    rw [bump_eq_advance inv.inOffset_lt size_lt, inv.inOffset_eq, CircularBuffer.advance_end]

theorem fetched_inv {caller : Option Tid} (admitted : Admitted st .recv caller)
    (notEmpty : st.entry ≠ 0) : Inv size ((fetchMail st).1.leave caller) := by
  have entry_le := inv.entry_le
  have inside := inv.outOffset_lt
  have wraps := bump_eq_advance inside inv.size_lt
  have transferred : Transferred st ((fetchMail st).1.leave caller) .recv caller := by
    refine ⟨by simp [fetchMail_eq, Side.other], fun s => ?_⟩
    rw [leave_call, fetchMail_eq]
  refine inv.transfer admitted transferred ?_ ?_ ?_ ?_ ?_ ?_
  · simp only [State.available, leave_entry, fetchMail_eq]
    omega
  · simp only [State.available, Side.other, leave_size, leave_entry, fetchMail_eq]
    omega
  · simp [fetchMail_eq]
  · simpa [fetchMail_eq, wraps] using CircularBuffer.advance_lt inside
  · simp only [leave_size, leave_entry, fetchMail_eq]
    omega
  · simp only [leave_size, leave_entry, leave_inOffset, leave_outOffset, fetchMail_eq, wraps,
      CircularBuffer.advance_add]
    rw [inv.inOffset_eq]
    congr 2
    omega

theorem blocked_inv {side : Side} {mail : Option Mail} (admitted : Admitted st side (some t))
    (isSide : (if mail.isSome then Side.send else Side.recv) = side)
    (unavailable : st.available side = 0) : Inv size (suspendIn st side t mail timeout) := by
  have ready := admitted.1
  have thread := Kernel.blockOn_thread ready side st.flag timeout.toInt
  have wait := fun list =>
    inv.wellFormed.blockOn_wait ready side list st.flag timeout.toInt
  refine ⟨inv.wellFormed.blockOn ready side _ _, inv.size_eq, inv.size_lt, inv.outOffset_lt,
    inv.entry_le, inv.inOffset_eq, ?_, ?_⟩
  · intro list s waits
    by_cases same : s = t
    · subst same
      have notBefore : s ∉ st.waiters list := inv.wellFormed.not_waiting (by simp [ready]) list
      have isList : list = side := by
        by_contra ne
        rw [State.waiters, suspendIn, wait, if_neg ne] at waits
        exact notBefore waits
      subst isList
      simp [suspendIn, thread, Call.side, isSide]
    · have waitsBefore : s ∈ st.waiters list := by
        rw [State.waiters, suspendIn, wait] at waits
        split at waits
        · next isList => simpa [State.waiters, isList, same] using waits
        · exact waits
      simpa [suspendIn, thread, same] using inv.waiting list s waitsBefore
  · intro list waits
    have available : (suspendIn st side t mail timeout).available list =
        st.available list := by cases list <;> rfl
    rw [available]
    by_cases isList : list = side
    · rw [isList, unavailable]
      exact Nat.zero_le _
    · have isOther : list = side.other := by cases list <;> cases side <;> simp_all [Side.other]
      subst isOther
      have waitsBefore : st.waiters side.other ≠ [] := by
        rwa [State.waiters, suspendIn, wait, if_neg isList] at waits
      have sameCount : countOf ((suspendIn st side t mail timeout).woken side.other) =
          countOf (st.woken side.other) := by
        refine countOf_congr fun s => ?_
        by_cases same : s = t
        · subst same
          rw [admitted.not_woken]
          simp [State.woken, suspendIn, thread]
        · simp [State.woken, suspendIn, thread, same]
      rw [sameCount]
      exact inv.account _ waitsBefore

theorem failed_inv {kernel : Kernel Tid Side} (ready : (st.kernel.thread t).stat = .ready)
    (nothingMissed : ∀ side, st.woken side t = true → st.available side = 0)
    (wf : kernel.WellFormed) (queue : kernel.queue = st.kernel.queue)
    (others : ∀ s, s ≠ t → kernel.thread s = st.kernel.thread s) :
    Inv size ({ st with kernel := kernel }.leave (some t)) := by
  have sameWaiters : ∀ list, ({ st with kernel := kernel }.leave (some t)).waiters list =
      st.waiters list := fun list => congrFun queue _
  refine ⟨wf, inv.size_eq, inv.size_lt, inv.outOffset_lt, inv.entry_le, inv.inOffset_eq, ?_, ?_⟩
  · intro list s waits
    rw [sameWaiters] at waits
    have ne : s ≠ t := by
      rintro rfl
      exact inv.wellFormed.not_waiting (by simp [ready]) list waits
    simpa [leave_call, Ne.symm ne, others s ne] using inv.waiting list s waits
  · intro list waits
    rw [sameWaiters] at waits
    have available : ({ st with kernel := kernel }.leave (some t)).available list =
        st.available list := by cases list <;> rfl
    rw [available]
    cases isWoken : st.woken list t with
    | true =>
      rw [nothingMissed list isWoken]
      exact Nat.zero_le _
    | false =>
      have sameCount : countOf (({ st with kernel := kernel }.leave (some t)).woken list) =
          countOf (st.woken list) := by
        refine countOf_congr fun s => ?_
        by_cases same : s = t
        · subst same
          rw [isWoken]
          simp [State.woken, leave_call]
        · simp [State.woken, leave_call, Ne.symm same, others s same]
      rw [sameCount]
      exact inv.account list waits

theorem expired_inv (suspended : (st.kernel.thread t).stat = .suspend) :
    Inv size { st with kernel := st.kernel.rtThreadTimeout t } := by
  refine ⟨inv.wellFormed.rtThreadTimeout t, inv.size_eq, inv.size_lt, inv.outOffset_lt,
    inv.entry_le, inv.inOffset_eq, ?_, ?_⟩
  · intro list s waits
    obtain ⟨ne, waitsBefore⟩ := (inv.wellFormed.mem_erase s _).mp waits
    simpa [ne] using inv.waiting list s waitsBefore
  · intro list waits
    have waitsBefore : st.waiters list ≠ [] := by
      intro empty
      rw [State.waiters] at empty
      simp [State.waiters, empty] at waits
    have sameCount : countOf (({ st with
        kernel := st.kernel.rtThreadTimeout t } : State Tid Mail).woken list) =
        countOf (st.woken list) := by
      refine countOf_congr fun s => ?_
      by_cases same : s = t
      · simp [State.woken, same, suspended]
      · simp [State.woken, same]
    rw [sameCount]
    cases list <;> exact inv.account _ waitsBefore

end

theorem Effect.inv (effect : Effect st outcome after) (inv : Inv size st) : Inv size after := by
  cases effect with
  | put value admitted notFull => exact put_inv inv value admitted notFull
  | fetched admitted notEmpty => exact fetched_inv inv admitted notEmpty
  | blocked admitted isSide unavailable => exact blocked_inv inv admitted isSide unavailable
  | failed ready nothingMissed wf queue others =>
    exact failed_inv inv ready nothingMissed (wf inv.wellFormed) queue others
  | refused => exact inv
  | expired suspended => exact expired_inv inv suspended
  | ticked =>
    exact ⟨inv.wellFormed, inv.size_eq, inv.size_lt, inv.outOffset_lt, inv.entry_le,
      inv.inOffset_eq, inv.waiting, fun side waits => by
        cases side <;> exact inv.account _ waits⟩

omit [DecidableEq Tid] in
theorem Initial.inv (init : Initial size st) : Inv size st where
  wellFormed := init.wellFormed
  size_eq := init.size_eq
  size_lt := by rw [init.size_eq]; exact init.size_lt
  outOffset_lt := by rw [init.size_eq, init.outOffset_eq]; exact init.size_pos
  entry_le := by rw [init.entry_eq]; exact Nat.zero_le _
  inOffset_eq := by simp [init.inOffset_eq, init.outOffset_eq, init.entry_eq]
  waiting := by simp [init.noWaiters]
  account := by simp [init.noWaiters]

theorem step_inv {label : Event Tid Mail × Outcome Mail} (inv : Inv size st)
    (ran : (system size).step st label after) : Inv size after :=
  (step_effect ran).inv inv

theorem Effect.queueStep (effect : Effect st outcome after)
    (inv : Inv size st) : QueueStep size st.stored outcome after.stored := by
  cases effect with
  | put value admitted notFull =>
    have notFull' : st.entry < st.size := by
      have := inv.entry_le
      omega
    have counted : (st.entry + 1) % 0x10000 = st.entry + 1 := by
      have := inv.size_lt
      exact Nat.mod_eq_of_lt (by omega)
    refine ⟨?_, ?_⟩
    · rw [State.stored, CircularBuffer.length_contents, ← inv.size_eq]
      exact notFull'
    · simp only [State.stored, leave_msgPool, leave_size, leave_outOffset, leave_entry,
        putMail_eq, counted]
      rw [inv.inOffset_eq]
      exact CircularBuffer.contents_push st.msgPool inv.outOffset_lt notFull' value
  | fetched admitted notEmpty =>
    simp only [State.stored, leave_msgPool, leave_size, leave_outOffset, leave_entry,
      fetchMail_eq, bump_eq_advance inv.outOffset_lt inv.size_lt]
    exact CircularBuffer.contents_pop _ _ _ (Nat.pos_of_ne_zero notEmpty)
  | blocked | failed | refused | expired | ticked => rfl

/-- Whatever the interleaving, a mailbox of positive size behaves as a bounded queue in
which nobody sleeps on an available mail or slot. -/
theorem run_isBoundedFifo
    {taken : List (TransitionSystem.Taken (State Tid Mail) (Event Tid Mail × Outcome Mail))}
    {last : State Tid Mail} (run : (system size).Run taken last) :
    IsBoundedFifo size taken last := by
  have base : ∀ st, Initial size st → Inv size (st : State Tid Mail) := fun _ init => init.inv
  have inv := run.invariant base fun _ _ _ => step_inv
  have queue : sentMails taken = receivedMails taken ++ last.stored ∧
      ∀ step ∈ taken, QueueStep size step.before.stored step.event.2 step.after.stored := by
    clear inv
    induction run with
    | start isInitial =>
      simp [sentMails, receivedMails, State.stored, isInitial.entry_eq, CircularBuffer.contents]
    | @next taken st after label earlier ran ih =>
      obtain ⟨inOrder, steps⟩ := ih
      have inv := earlier.invariant base fun _ _ _ => step_inv
      have queueStep := (step_effect ran).queueStep inv
      refine ⟨?_, List.forall_mem_cons.mpr ⟨queueStep, steps⟩⟩
      obtain ⟨e, outcome⟩ := label
      cases outcome with
      | sent mail => simp [sentMails, receivedMails, inOrder, queueStep.2]
      | received mail =>
        have removed : st.stored = mail :: after.stored := queueStep
        simp [sentMails, receivedMails, inOrder, removed]
      | failed code | blocked | silent =>
        have same : after.stored = st.stored := queueStep
        simp [sentMails, receivedMails, inOrder, same]
  exact {
    inOffset_eq := inv.inOffset_eq
    stored_le := by
      rw [State.stored, CircularBuffer.length_contents, ← inv.size_eq]
      exact inv.entry_le
    inOrder := queue.1
    steps := queue.2
    noSleepingReceiver := inv.account .recv
    noSleepingSender := inv.account .send }

omit [Fintype Tid] in
theorem run_next
    {taken : List (TransitionSystem.Taken (State Tid Mail) (Event Tid Mail × Outcome Mail))}
    (run : (system size).Run taken st) (e : Event Tid Mail)
    (ran : step st e = some (after, outcome)) :
    (system size).Run (⟨st, (e, outcome), after⟩ :: taken) after := run.next ran

/-- A mailbox just initialised, with `n` started threads of equal priority. -/
def fresh (n size : Nat) (flag : IpcFlag) : State (Fin n) Nat where
  kernel := Kernel.started (List.finRange n) fun _ => 10
  msgPool _ := 0
  size := size
  entry := 0
  inOffset := 0
  outOffset := 0
  flag := flag
  tick := 0
  call _ := none

theorem fresh_initial {n size : Nat} {flag : IpcFlag} (pos : 0 < size)
    (small : size < 0x10000) : Initial size (fresh n size flag) where
  wellFormed := Kernel.started_wellFormed (List.nodup_finRange n) _
  noWaiters _ := rfl
  noCalls _ := rfl
  size_eq := rfl
  size_pos := pos
  size_lt := small
  entry_eq := rfl
  inOffset_eq := rfl
  outOffset_eq := rfl

theorem stolen_mail_isBoundedFifo :
    ∃ taken last, (system 1).Run taken last ∧ receivedMails taken = [7] ∧
      last.waiters .recv = [0] ∧ IsBoundedFifo 1 taken (last : State (Fin 2) Nat) := by
  have start : (system 1).Run [] (fresh 2 1 .prio) := .start (fresh_initial (by decide) (by decide))
  have waits := run_next start (.recv (some 0) (-1)) rfl
  have sends := run_next waits (.send none 7) rfl
  have steals := run_next sends (.recv (some 1) 0) rfl
  have again := run_next steals (.resumed 0) rfl
  exact ⟨_, _, again, rfl, rfl, run_isBoundedFifo again⟩

end RtThread.Mailbox
