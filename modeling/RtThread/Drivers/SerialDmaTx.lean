import RtThread.Drivers.DataQueueFifo

/-!
# Transmitting in DMA mode

`_serial_dma_tx` pushes its buffer into a data queue, tests `activated` and starts a
transfer if the channel is idle: three steps, between which other writers and the interrupt
that ends a transfer may run.  The interrupt handler pops the buffer that was transmitted
and goes on with the next; the thread that starts the channel transmits its own buffer.
-/

open Function (update update_of_ne update_self)
open TransitionSystem

namespace RtThread.Serial.DmaTx

open DataQueue (RtDataItem rtDataQueuePush rtDataQueuePop callResumed Counted InSlots)

universe u

/-- Where a thread is in `_serial_dma_tx`: suspended by the push, behind the push, or behind
the test of `activated`. -/
inductive Call where
  | pushing (item : RtDataItem)
  | pushed (item : RtDataItem)
  | starting (item : RtDataItem)
  deriving DecidableEq

/-- `struct rt_serial_tx_dma`, with the threads that write and the DMA channel.
`transfers` were started and not finished; `transmitted` are all that were started. -/
structure State (Tid : Type u) where
  queue : DataQueue.State Tid
  activated : Bool
  call : Tid → Option Call
  transfers : List RtDataItem
  transmitted : List RtDataItem
  /-- The pointers `tx_complete` was called with, and the transfers that had finished. -/
  completed : List (BitVec 32 × RtDataItem)

/-- `garbage` is what `last_data_ptr` holds before the interrupt handler sets it. -/
inductive Event (Tid : Type u) where
  | write (t : Tid) (item : RtDataItem)
  | resumed (t : Tid)
  | test (t : Tid)
  | start (t : Tid)
  | dmaDone (garbage : BitVec 32)

variable {Tid : Type u}

def rtDataQueuePeak (queue : DataQueue.State Tid) : Option RtDataItem :=
  if queue.getIndex = queue.putIndex then none else some (queue.queue (queue.slot queue.getIndex))

def dmaTransmit (s : State Tid) (item : RtDataItem) : State Tid :=
  { s with
    transfers := s.transfers ++ [item]
    transmitted := s.transmitted ++ [item] }

variable [DecidableEq Tid]

namespace State

/-- A thread that is neither suspended nor inside `_serial_dma_tx`. -/
def Running (s : State Tid) (t : Tid) : Prop :=
  s.queue.Running (some t) ∧ s.call t = none

instance (s : State Tid) (t : Tid) : Decidable (s.Running t) := instDecidableAnd

def OnItsWay (s : State Tid) (t : Tid) : Prop :=
  ∃ item, s.call t = some (.pushed item) ∨ s.call t = some (.starting item)

end State

/-- Where the push leaves `_serial_dma_tx`: without `RT_EOK` the write returns 0. -/
def callBehindPush (item : RtDataItem) : Option RtErr → Option Call
  | none => some (.pushing item)
  | some .eok => some (.pushed item)
  | some _ => none

def behindPush (s : State Tid) (t : Tid) (item : RtDataItem)
    (outcome : DataQueue.State Tid × Option RtErr) : State Tid :=
  { s with
    queue := outcome.1
    call := update s.call t (callBehindPush item outcome.2) }

def testActivated (s : State Tid) (t : Tid) (item : RtDataItem) : State Tid :=
  if s.activated ≠ true then
    { s with
      activated := true
      call := update s.call t (some (.starting item)) }
  else { s with call := update s.call t none }

/-- `RT_SERIAL_EVENT_TX_DMADONE` in `rt_hw_serial_isr`, behind the pop. -/
def transmitNext (s : State Tid) : State Tid :=
  match rtDataQueuePeak s.queue with
  | some item => dmaTransmit { s with activated := true } item
  | none => { s with activated := false }

def txDmaDone (s : State Tid) (finished : RtDataItem) (garbage : BitVec 32) :
    Option (State Tid) :=
  let lastDataPtr := ((rtDataQueuePeak s.queue).map RtDataItem.dataPtr).getD garbage
  (rtDataQueuePop s.queue none 0).map fun (queue, _) =>
    transmitNext
      { s with
        queue
        completed := s.completed ++ [(lastDataPtr, finished)] }

def step (s : State Tid) : Event Tid → Option (State Tid)
  | .write t item =>
    if s.Running t then
      (rtDataQueuePush s.queue (some t) item (-1)).map (behindPush s t item)
    else none
  | .resumed t =>
    match s.call t with
    | some (.pushing item) =>
      if (s.queue.kernel.thread t).stat = .ready then
        (callResumed s.queue t (.push item (-1))).map (behindPush s t item)
      else none
    | _ => none
  | .test t =>
    match s.call t with
    | some (.pushed item) => some (testActivated s t item)
    | _ => none
  | .start t =>
    match s.call t with
    | some (.starting item) =>
      some (dmaTransmit { s with call := update s.call t none } item)
    | _ => none
  | .dmaDone garbage =>
    match s.transfers with
    | finished :: rest => txDmaDone { s with transfers := rest } finished garbage
    | [] => none

/-- After `rt_serial_open` with `RT_DEVICE_FLAG_DMA_TX`. -/
structure Initial (s : State Tid) : Prop where
  queue : DataQueue.Initial 8 4 s.queue
  activated_eq : s.activated = false
  noCalls : ∀ t, s.call t = none
  transfers_eq : s.transfers = []
  transmitted_eq : s.transmitted = []
  completed_eq : s.completed = []

def system : TransitionSystem (State Tid) (Event Tid) :=
  ofFunction Initial step

/-- Buffers are transmitted once each in the order of their pushes, all of them by the time
that the channel rests and no write is on its way to it; and `tx_complete` learns which
buffer it was. -/
structure InOrder (s : State Tid) : Prop where
  prefix_pushed : s.transmitted <+: s.queue.pushed
  complete : s.transfers = [] → (∀ t, ¬ s.OnItsWay t) →
    s.transmitted = s.queue.pushed
  completed : ∀ call ∈ s.completed, call.1 = call.2.dataPtr

def FindsRoom (s : State Tid) : Prop :=
  ¬ s.queue.Full → (s.queue.putIndex - s.queue.getIndex).toNat < 8

instance (s : State Tid) : Decidable (FindsRoom s) := instDecidableForall

/-- A push finds room if the loop test lets it through, and the thread that starts a
transfer finds its own buffer at the head of the queue. -/
def Undisturbed (s : State Tid) : Event Tid → Prop
  | .write .. => FindsRoom s
  | .resumed t => (s.queue.kernel.thread t).error = .eok → FindsRoom s
  | .start t => s.call t = (rtDataQueuePeak s.queue).map Call.starting
  | _ => True

instance (s : State Tid) : (e : Event Tid) → Decidable (Undisturbed s e)
  | .write .. => inferInstanceAs (Decidable (FindsRoom s))
  | .resumed _ => inferInstanceAs (Decidable (_ → FindsRoom s))
  | .start _ => inferInstanceAs (Decidable (_ = _))
  | .test _ | .dmaDone _ => .isTrue trivial

def Outside (call : Option Call) : Prop := call = none ∨ ∃ item, call = some (.pushing item)

inductive Effect (s : State Tid) (e : Event Tid) (after : State Tid) : Prop where
  | put (notFull : ¬ s.queue.Full) (room : Undisturbed s e → FindsRoom s)
      (t : Tid) (item : RtDataItem) (outside : Outside (s.call t))
      (queue : DataQueue.State Tid) (content : queue.content = (s.queue.withItem item).content)
      (eq : after = { s with
        queue, call := update s.call t (some (.pushed item)) })
  | kept (t : Tid) (outside : Outside (s.call t)) (next : Option Call)
      (outsideNext : Outside next) (queue : DataQueue.State Tid)
      (content : queue.content = s.queue.content)
      (eq : after = { s with queue, call := update s.call t next })
  | claimed (t : Tid) (item : RtDataItem) (off : s.activated = false)
      (tested : s.call t = some (.pushed item))
      (eq : after = { s with
        activated := true, call := update s.call t (some (.starting item)) })
  | left (t : Tid) (item : RtDataItem) (on : s.activated = true)
      (tested : s.call t = some (.pushed item))
      (eq : after = { s with call := update s.call t none })
  | started (t : Tid) (item : RtDataItem) (starter : s.call t = some (.starting item))
      (atHead : Undisturbed s e → rtDataQueuePeak s.queue = some item)
      (eq : after = dmaTransmit { s with call := update s.call t none } item)
  | done (finished : RtDataItem) (rest : List RtDataItem) (garbage : BitVec 32)
      (transferred : s.transfers = finished :: rest)
      (isDone : txDmaDone { s with transfers := rest } finished garbage = some after)

variable {x : RtDataItem} {queue : DataQueue.State Tid}

theorem behindPush_effect {s : State Tid} {e : Event Tid} {t : Tid}
    {r : Option RtErr} (outside : Outside (s.call t)) (room : Undisturbed s e → FindsRoom s)
    (pushed : rtDataQueuePush s.queue (some t) x (-1) = some (queue, r)) :
    Effect s e (behindPush s t x (queue, r)) := by
  rcases DataQueue.push_outcome pushed with ⟨rfl, notFull, content⟩ | ⟨refused, -, content⟩
  · exact .put notFull room t x outside queue content rfl
  · refine .kept t outside (callBehindPush x r) ?_ queue content rfl
    unfold callBehindPush
    split
    · exact .inr ⟨x, rfl⟩
    · exact absurd rfl refused
    · exact .inl rfl

theorem step_effect {s after : State Tid} {e : Event Tid}
    (ran : step s e = some after) : Effect s e after := by
  cases e with
  | write t x =>
    simp only [step, Option.ite_none_right_eq_some, Option.map_eq_some_iff] at ran
    obtain ⟨running, ⟨queue, r⟩, pushed, rfl⟩ := ran
    exact behindPush_effect (.inl running.2) id pushed
  | resumed t =>
    simp only [step] at ran
    split at ran
    · rename_i x pushing
      simp only [Option.ite_none_right_eq_some, Option.map_eq_some_iff] at ran
      obtain ⟨-, ⟨queue, r⟩, resumed, rfl⟩ := ran
      have outside : Outside (s.call t) := .inr ⟨x, pushing⟩
      unfold callResumed at resumed
      simp only at resumed
      split at resumed
      · rename_i woken
        cases resumed
        refine .kept t outside none (.inl rfl) _ (s.queue.content_leave (some t)) ?_
        generalize (s.queue.kernel.thread t).error = r at woken
        cases r <;> first | rfl | exact absurd rfl woken
      · rename_i noError
        exact behindPush_effect outside (fun finds => finds (not_not.mp noError)) resumed
    · simp at ran
  | test t =>
    simp only [step] at ran
    split at ran
    · rename_i x tested
      cases ran
      unfold testActivated
      split
      · next off => exact .claimed t x (Bool.eq_false_iff.mpr off) tested rfl
      · next on => exact .left t x (not_not.mp on) tested rfl
    · simp at ran
  | start t =>
    simp only [step] at ran
    split at ran
    · rename_i x starter
      cases ran
      refine .started t x starter ?_ rfl
      intro atHead
      rw [Undisturbed, starter] at atHead
      obtain ⟨head, isHead, same⟩ := Option.map_eq_some_iff.mp atHead.symm
      cases same
      exact isHead
    · simp at ran
  | dmaDone garbage =>
    simp only [step] at ran
    split at ran
    · next finished rest transferred => exact .done finished rest garbage transferred ran
    · simp at ran

section calls

variable {call : Tid → Option Call} {t : Tid} {next : Option Call}

theorem starting_update (outside : Outside (call t)) (outsideNext : Outside next) (u : Tid)
    (x : RtDataItem) : update call t next u = some (.starting x) ↔ call u = some (.starting x) := by
  rcases eq_or_ne u t with rfl | other
  · rw [update_self]
    rcases outside with outside | ⟨_, outside⟩ <;>
      rcases outsideNext with outsideNext | ⟨_, outsideNext⟩ <;> simp [outside, outsideNext]
  · rw [update_of_ne other]

theorem pushed_update (outside : Outside (call t)) {u : Tid}
    (pushed : call u = some (.pushed x)) : update call t next u = call u := by
  apply update_of_ne
  rintro rfl
  rcases outside with outside | ⟨_, outside⟩ <;> simp [outside] at pushed

theorem starting_of_update (notStarting : ∀ x, next ≠ some (.starting x)) {u : Tid}
    (starter : update call t next u = some (.starting x)) :
    u ≠ t ∧ call u = some (.starting x) := by
  rcases eq_or_ne u t with rfl | other
  · rw [update_self] at starter
    exact absurd starter (notStarting x)
  · rw [update_of_ne other] at starter
    exact ⟨other, starter⟩

end calls

inductive Channel (s : State Tid) : Prop where
  | idle (off : s.activated = false) (resting : s.transfers = [])
      (noStarter : ∀ t item, s.call t ≠ some (.starting item))
      (sent : s.transmitted = s.queue.popped)
      (awaited : s.queue.stored ≠ [] → ∃ t item, s.call t = some (.pushed item))
  | claimed (on : s.activated = true) (resting : s.transfers = [])
      (starter : Tid) (item : RtDataItem) (starting : s.call starter = some (.starting item))
      (alone : ∀ t other, s.call t = some (.starting other) → t = starter)
      (sent : s.transmitted = s.queue.popped)
  | sending (on : s.activated = true)
      (noStarter : ∀ t item, s.call t ≠ some (.starting item))
      (item : RtDataItem) (transferred : s.transfers = [item]) (waiting : List RtDataItem)
      (head : s.queue.stored = item :: waiting)
      (sent : s.transmitted = s.queue.popped ++ [item])

structure Ordered (s : State Tid) : Prop where
  counted : Counted 8 s.queue
  held : InSlots s.queue
  channel : Channel s
  completed : ∀ call ∈ s.completed, call.1 = call.2.dataPtr

section

omit [DecidableEq Tid]

theorem Ordered.inOrder {s : State Tid} (ordered : Ordered s) : InOrder s := by
  have pushed := ordered.held.inOrder
  cases ordered.channel with
  | idle off resting noStarter sent awaited =>
    refine ⟨⟨s.queue.stored, sent ▸ pushed.symm⟩, ?_, ordered.completed⟩
    intro _ nobody
    have nothing : s.queue.stored = [] := by
      by_contra left
      obtain ⟨t, x, tested⟩ := awaited left
      exact nobody t ⟨x, .inl tested⟩
    rw [sent, pushed, nothing, List.append_nil]
  | claimed on resting starter x starting alone sent =>
    refine ⟨⟨s.queue.stored, sent ▸ pushed.symm⟩, ?_, ordered.completed⟩
    exact fun _ nobody => absurd ⟨x, .inr starting⟩ (nobody starter)
  | sending on noStarter x transferred waiting head sent =>
    refine ⟨⟨waiting, ?_⟩, ?_, ordered.completed⟩
    · rw [sent, pushed, head, List.append_assoc]
      rfl
    · intro resting _
      simp [transferred] at resting

theorem rtDataQueuePeak_eq {n : BitVec 16} (held : InSlots queue) (counted : Counted n queue) :
    rtDataQueuePeak queue = queue.stored.head? := by
  unfold rtDataQueuePeak
  split
  · rename_i isEmpty
    have difference := counted.sub_toNat held
    rw [isEmpty, BitVec.sub_self] at difference
    have none : queue.stored.length = 0 := (DataQueue.length_stored queue).trans difference.symm
    rw [List.length_eq_zero_iff.mp none]
    rfl
  · rename_i notEmpty
    rw [held.stored_eq_cons counted notEmpty]
    rfl

theorem Ordered.slot_free {s : State Tid} (ordered : Ordered s)
    (room : (s.queue.putIndex - s.queue.getIndex).toNat < 8) :
    s.queue.count < s.queue.size.toNat ∧ s.queue.slot s.queue.putIndex ∉ s.queue.slots := by
  have count := ordered.counted.sub_toNat ordered.held
  have size : s.queue.size.toNat = 8 := by rw [ordered.counted.size_eq]; rfl
  have free : s.queue.count < s.queue.size.toNat := by omega
  refine ⟨free, (ordered.held.slot_putIndex_notMem_iff ordered.counted free).mpr ?_⟩
  rw [BitVec.toNat_sub] at room
  rw [size]
  omega

end

section preserved

variable {s after : State Tid} {e : Event Tid}

omit [DecidableEq Tid] in
theorem Channel.congr (channel : Channel s)
    (content : queue.content = s.queue.content) : Channel { s with queue } := by
  have stored := DataQueue.stored_congr content
  have popped : queue.popped = s.queue.popped := congrArg (·.2.2.2.2.2) content
  cases channel with
  | idle off resting noStarter sent awaited =>
    exact .idle off resting noStarter (popped ▸ sent) (stored ▸ awaited)
  | claimed on resting starter x starting alone sent =>
    exact .claimed on resting starter x starting alone (popped ▸ sent)
  | sending on noStarter x transferred waiting head sent =>
    exact .sending on noStarter x transferred waiting (stored ▸ head) (popped ▸ sent)

theorem Channel.kept (channel : Channel s) {t : Tid} (outside : Outside (s.call t))
    {next : Option Call} (outsideNext : Outside next) :
    Channel { s with call := update s.call t next } := by
  have starting := starting_update outside outsideNext
  cases channel with
  | idle off resting noStarter sent awaited =>
    refine .idle off resting (fun u x => mt (starting u x).mp (noStarter u x)) sent ?_
    intro left
    obtain ⟨u, x, tested⟩ := awaited left
    exact ⟨u, x, (pushed_update outside tested).trans tested⟩
  | claimed on resting starter x isStarting alone sent =>
    exact .claimed on resting starter x ((starting starter x).mpr isStarting)
      (fun u other isOther => alone u other ((starting u other).mp isOther)) sent
  | sending on noStarter x transferred waiting head sent =>
    exact .sending on (fun u other => mt (starting u other).mp (noStarter u other))
      x transferred waiting head sent

section

variable (ordered : Ordered s)

include ordered

omit [DecidableEq Tid] in
theorem Ordered.congr (content : queue.content = s.queue.content) : Ordered { s with queue } where
  counted := ordered.counted.congr content
  held := (DataQueue.inSlots_congr content).mpr ordered.held
  channel := ordered.channel.congr content
  completed := ordered.completed

theorem Ordered.put (notFull : ¬ s.queue.Full) (room : FindsRoom s) {t : Tid}
    (outside : Outside (s.call t)) (x : RtDataItem) : Ordered { s with
      queue := s.queue.withItem x
      call := update s.call t (some (.pushed x)) } := by
  obtain ⟨free, fresh⟩ := ordered.slot_free (room notFull)
  have stored := ordered.held.stored_withItem ordered.counted fresh x
  refine ⟨ordered.counted.withItem x,
    (ordered.held.withItem_iff ordered.counted free x).mpr fresh, ?_, ordered.completed⟩
  have later : ∀ {u other}, update s.call t (some (.pushed x)) u =
      some (.starting other) → u ≠ t ∧ s.call u = some (.starting other) :=
    starting_of_update (by simp)
  cases ordered.channel with
  | idle off resting noStarter sent awaited =>
    refine .idle off resting (fun u other starter => noStarter u other (later starter).2) sent ?_
    exact fun _ => ⟨t, x, update_self ..⟩
  | claimed on resting starter own starting alone sent =>
    refine .claimed on resting starter own ?_
      (fun u other isOther => alone u other (later isOther).2) sent
    refine (update_of_ne ?_ ..).trans starting
    rintro rfl
    rcases outside with outside | ⟨_, outside⟩ <;> simp [starting] at outside
  | sending on noStarter a transferred waiting head sent =>
    refine .sending on (fun u other starter => noStarter u other (later starter).2) a
      transferred (waiting ++ [x]) ?_ sent
    rw [stored, head]
    rfl

theorem Ordered.claimed (off : s.activated = false) (t : Tid) (x : RtDataItem) : Ordered { s with
      activated := true
      call := update s.call t (some (.starting x)) } := by
  refine ⟨ordered.counted, ordered.held, ?_, ordered.completed⟩
  cases ordered.channel with
  | idle _ resting noStarter sent awaited =>
    refine .claimed rfl resting t x (update_self ..) ?_ sent
    intro u other starting
    by_contra notStarter
    exact noStarter u other ((update_of_ne notStarter ..).symm.trans starting)
  | claimed on | sending on => simp [off] at on

theorem Ordered.left (on : s.activated = true) {t : Tid} (tested : s.call t = some (.pushed x)) :
    Ordered { s with call := update s.call t none } := by
  refine ⟨ordered.counted, ordered.held, ?_, ordered.completed⟩
  have later : ∀ {u other}, update s.call t none u = some (.starting other) →
      u ≠ t ∧ s.call u = some (.starting other) := starting_of_update (by simp)
  cases ordered.channel with
  | idle off => simp [on] at off
  | claimed _ resting starter own starting alone sent =>
    refine .claimed on resting starter own ?_
      (fun u other isOther => alone u other (later isOther).2) sent
    refine (update_of_ne ?_ ..).trans starting
    rintro rfl
    simp [starting] at tested
  | sending _ noStarter a transferred waiting head sent =>
    exact .sending on (fun u other starter => noStarter u other (later starter).2) a
      transferred waiting head sent

theorem Ordered.started {t : Tid} (starter : s.call t = some (.starting x))
    (atHead : rtDataQueuePeak s.queue = some x) :
    Ordered (dmaTransmit { s with call := update s.call t none } x) := by
  refine ⟨ordered.counted, ordered.held, ?_, ordered.completed⟩
  cases ordered.channel with
  | idle _ _ noStarter | sending _ noStarter => exact absurd starter (noStarter t x)
  | claimed on resting _ own starting alone sent =>
    rw [rtDataQueuePeak_eq ordered.held ordered.counted] at atHead
    obtain ⟨waiting, stored⟩ := List.head?_eq_some_iff.mp atHead
    refine .sending on ?_ x ?_ waiting stored ?_
    · intro u other starting'
      obtain ⟨notStarter, starting'⟩ := starting_of_update (by simp) starting'
      exact notStarter ((alone u other starting').trans (alone t x starter).symm)
    · exact congrArg (· ++ [x]) resting
    · exact congrArg (· ++ [x]) sent

end

omit [DecidableEq Tid] in
theorem Ordered.transmitNext (counted : Counted 8 s.queue) (held : InSlots s.queue)
    (completed : ∀ call ∈ s.completed, call.1 = call.2.dataPtr)
    (noStarter : ∀ t x, s.call t ≠ some (.starting x)) (resting : s.transfers = [])
    (sent : s.transmitted = s.queue.popped) : Ordered (transmitNext s) := by
  have peak := rtDataQueuePeak_eq held counted
  unfold DmaTx.transmitNext
  split
  · rename_i x isHead
    obtain ⟨waiting, stored⟩ := List.head?_eq_some_iff.mp (peak.symm.trans isHead)
    refine ⟨counted, held, .sending rfl noStarter x ?_ waiting stored ?_, completed⟩
    · exact congrArg (· ++ [x]) resting
    · exact congrArg (· ++ [x]) sent
  · rename_i isEmpty
    have nothing := List.head?_eq_none_iff.mp (peak.symm.trans isEmpty)
    exact ⟨counted, held, .idle rfl resting noStarter sent fun left => absurd nothing left,
      completed⟩

theorem Ordered.done (ordered : Ordered s) {finished : RtDataItem} {rest : List RtDataItem}
    {garbage : BitVec 32} (transferred : s.transfers = finished :: rest)
    (isDone : txDmaDone { s with transfers := rest } finished garbage = some after) :
    Ordered after := by
  cases ordered.channel with
  | idle _ resting | claimed _ resting => simp [resting] at transferred
  | sending on noStarter x isItem waiting head sent =>
    obtain ⟨rfl, rfl⟩ := List.cons.inj (isItem.symm.trans transferred)
    have peak : rtDataQueuePeak s.queue = some x := by
      rw [rtDataQueuePeak_eq ordered.held ordered.counted, head]
      rfl
    simp only [txDmaDone, peak, Option.map_some, Option.getD_some, Option.map_eq_some_iff] at isDone
    obtain ⟨⟨queue, r⟩, popped, rfl⟩ := isDone
    rcases DataQueue.pop_outcome popped with ⟨notEmpty, content⟩ | ⟨isEmpty, -⟩
    · have first := ordered.held.stored_eq_cons ordered.counted notEmpty
      rw [head] at first
      have isFirst := (List.cons.inj first).1
      have poppedEq : queue.popped = s.queue.popped ++ [x] := by
        rw [isFirst]
        exact congrArg (·.2.2.2.2.2) content
      refine Ordered.transmitNext (ordered.counted.withoutItem.congr content)
        ((DataQueue.inSlots_congr content).mpr
          (ordered.held.withoutItem ordered.counted notEmpty)) ?_ noStarter rfl
        (sent.trans poppedEq.symm)
      intro call called
      rcases List.mem_append.mp called with earlier | now
      · exact ordered.completed call earlier
      · rw [List.mem_singleton.mp now]
    · simp [rtDataQueuePeak, isEmpty] at peak

theorem Effect.ordered (effect : Effect s e after) (ordered : Ordered s)
    (undisturbed : Undisturbed s e) : Ordered after := by
  cases effect with
  | put notFull room t x outside queue content eq =>
    subst eq
    exact (ordered.put notFull (room undisturbed) outside x).congr content
  | kept t outside next outsideNext queue content eq =>
    subst eq
    have kept : Ordered { s with call := update s.call t next } :=
      ⟨ordered.counted, ordered.held, ordered.channel.kept outside outsideNext, ordered.completed⟩
    exact kept.congr content
  | claimed t x off tested eq =>
    subst eq
    exact ordered.claimed off t x
  | left t x on tested eq =>
    subst eq
    exact ordered.left on tested
  | started t x starter atHead eq =>
    subst eq
    exact ordered.started starter (atHead undisturbed)
  | done finished rest garbage transferred isDone =>
    exact ordered.done transferred isDone

end preserved

omit [DecidableEq Tid] in
theorem Initial.ordered {s : State Tid} (init : Initial s) : Ordered s where
  counted := init.queue.counted
  held := init.queue.holdsItems.toInSlots
  channel := by
    refine .idle init.activated_eq init.transfers_eq ?_ ?_ ?_
    · simp [init.noCalls]
    · rw [init.transmitted_eq, init.queue.popped_eq]
    · intro left
      have inOrder := init.queue.holdsItems.inOrder
      rw [init.queue.pushed_eq, init.queue.popped_eq, List.nil_append] at inOrder
      exact absurd inOrder.symm left
  completed := by simp [init.completed_eq]

/-- In a run in which every accepted push finds room and every thread that starts the
channel transmits the head of the queue, the buffers are transmitted in order. -/
theorem inOrder_throughout {taken : List (Taken (State Tid) (Event Tid))}
    {last : State Tid} (run : system.Run taken last) (undisturbed : EveryStep Undisturbed taken) :
    Throughout InOrder taken last := by
  have base : ∀ s : State Tid, Initial s → Ordered s := fun _ init => init.ordered
  refine Throughout.imp (fun _ => Ordered.inOrder)
    (run.throughout_of_everyStep base ?_ undisturbed)
  exact fun _ _ _ ordered meets ran => (step_effect ran).ordered ordered meets

/-- A device just opened, with `n` started threads of equal priority. -/
def fresh (n : Nat) : State (Fin n) where
  queue := DataQueue.fresh n 8 4
  activated := false
  call _ := none
  transfers := []
  transmitted := []
  completed := []

theorem fresh_initial (n : Nat) : Initial (fresh n) where
  queue := DataQueue.fresh_initial (by decide)
  activated_eq := rfl
  noCalls _ := rfl
  transfers_eq := rfl
  transmitted_eq := rfl
  completed_eq := rfl

theorem second_writer_inOrder : Throughout InOrder (record step [] (fresh 2)
        [.write 0 ⟨1, 4⟩, .test 0, .start 0, .write 1 ⟨2, 4⟩, .test 1, .dmaDone 0, .dmaDone 0])
      ((execute step (fresh 2)
        [.write 0 ⟨1, 4⟩, .test 0, .start 0, .write 1 ⟨2, 4⟩, .test 1, .dmaDone 0,
          .dmaDone 0]).get (by decide +kernel)) :=
  inOrder_throughout (Run.executed _ _ (fresh_initial 2) _) (by decide +kernel)

/-- Two writers push before either has tested `activated`, and the second is the one that
starts the channel: it transmits its own buffer, not the first. -/
theorem later_writer_first_not_inOrder : ¬ ∀ (taken : List (Taken (State (Fin 2)) (Event (Fin 2))))
      (last : State (Fin 2)), system.Run taken last → Throughout InOrder taken last := by
  intro claim
  let events : List (Event (Fin 2)) := [.write 0 ⟨1, 4⟩, .write 1 ⟨2, 4⟩, .test 1, .start 1]
  have run : (@system (Fin 2) _).Run _ _ :=
    .executed (fresh 2) events (fresh_initial 2) (by decide +kernel)
  have before := (claim _ _ run).1.prefix_pushed
  revert before
  decide +kernel

end RtThread.Serial.DmaTx
