import RtThread.Ipc.MessageQueue
import Mathlib.Data.List.Perm.Subperm

/-!
# The slots of a message queue

Every step moves at most one slot from one place to another, so the bookkeeping of
places is done once; what remains of each function is its effect on the two chains and
on the order of the letters.
-/

namespace RtThread.MessageQueue

open Function (update_of_ne update_self update)
open Option (ite_none_right_eq_some)

universe u v

variable {Tid : Type u} {Hid : Type v} [DecidableEq Tid] [DecidableEq Hid]

structure Inv (st : State Tid Hid) (p : Nat → Place Tid Hid)
    (free messages : List Nat) : Prop where
  slots : SlotsConserved st p free messages
  letters : MessagesConserved st messages
  maxMsgs_lt : st.maxMsgs < 0x10000
  filled : ∀ caller slot buffer urgent, st.hand caller = some (.sending slot buffer urgent true) →
      (urgent = false → st.next slot = none) ∧ (st.data slot).take buffer.length = buffer
  pending : ∀ slot ∈ messages, (st.letter slot).leftAt = none
  gone : ∀ letter ∈ st.delivered, ∃ moment, letter.leftAt = some moment ∧ moment ≤ st.linked
  idle : ∀ t, (st.call t).isSome → st.hand (.thread t) = none

variable {hand : Hand} {messages' : List Nat} {c : Caller Tid Hid} {buffer : List (BitVec 8)}
  {msg n : Nat} {outcome : Outcome}

section places

variable {st after : State Tid Hid} {p : Nat → Place Tid Hid} {free messages : List Nat}

section

variable (slots : SlotsConserved st p free messages)

include slots

omit [DecidableEq Tid] [DecidableEq Hid] in
theorem SlotsConserved.disjoint {slot : Nat} (isFree : slot ∈ free) : slot ∉ messages := by
  intro isQueued
  have atFree := (slots.free_iff slot).mp isFree
  have atQueue := (slots.queued_iff slot).mp isQueued
  simp [atFree] at atQueue

section

variable (holds : st.hand c = some hand)

include holds

section

omit [DecidableEq Tid] [DecidableEq Hid]

theorem SlotsConserved.in_hand :
    p hand.slot = .inHand c ∧ hand.slot ∉ free ∧ hand.slot ∉ messages := by
  have inHand := (slots.hand_iff c hand.slot).mp (by simp [holds])
  refine ⟨inHand, ?_, ?_⟩
  · intro isFree
    have := (slots.free_iff _).mp isFree
    simp [inHand] at this
  · intro isQueued
    have := (slots.queued_iff _).mp isQueued
    simp [inHand] at this

theorem SlotsConserved.hand_inj {other : Caller Tid Hid} {hand' : Hand}
    (holds' : st.hand other = some hand') (same : hand.slot = hand'.slot) : c = other := by
  have inHand := (slots.in_hand holds).1
  have inHand' := (slots.in_hand holds').1
  rw [← same, inHand] at inHand'
  simpa using inHand'

theorem SlotsConserved.slot_ne {other : Caller Tid Hid} {hand' : Hand}
    (holds' : st.hand other = some hand') (ne : other ≠ c) : hand'.slot ≠ hand.slot :=
  fun same => ne (slots.hand_inj holds' holds same)

end

end

omit [DecidableEq Tid] [DecidableEq Hid] in
theorem SlotsConserved.length_le {queued : List Nat} (nodup : queued.Nodup)
    (known : ∀ slot ∈ queued, p slot ≠ .outside) : queued.length ≤ st.maxMsgs := by
  have subset : queued ⊆ List.range st.maxMsgs := by
    intro slot mem
    rw [List.mem_range, slots.pool]
    exact known slot mem
  simpa using (nodup.subperm subset).length_le

end

/-- The bookkeeping when one slot moves to `target`. -/
structure Moved (st after : State Tid Hid) (p : Nat → Place Tid Hid)
    (free messages free' messages' : List Nat) (slot : Nat) (target : Place Tid Hid) : Prop where
  maxMsgs : after.maxMsgs = st.maxMsgs
  known : p slot ≠ .outside
  inPool : target ≠ .outside
  free_iff : ∀ other, other ∈ free' ↔ if other = slot then target = .free else other ∈ free
  queued_iff : ∀ other, other ∈ messages' ↔
    if other = slot then target = .queued else other ∈ messages
  hand_iff : ∀ caller other, (after.hand caller).map Hand.slot = some other ↔
    if other = slot then target = .inHand caller
    else (st.hand caller).map Hand.slot = some other

omit [DecidableEq Tid] [DecidableEq Hid] in
theorem SlotsConserved.move (slots : SlotsConserved st p free messages)
    {free' : List Nat} {slot : Nat} {target : Place Tid Hid}
    (moved : Moved st after p free messages free' messages' slot target)
    (free_nodup : free'.Nodup) (messages_nodup : messages'.Nodup)
    (free_chain : Chain after.next after.msgQueueFree free')
    (messages_chain : Chain after.next after.msgQueueHead messages')
    (tail_eq : after.msgQueueTail = messages'.getLast?)
    (entry_eq : after.entry = messages'.length) :
    SlotsConserved after (update p slot target) free' messages' := by
  refine ⟨?_, ?_, ?_, ?_, free_nodup, messages_nodup, free_chain, messages_chain, tail_eq, entry_eq⟩
  · intro other
    rw [moved.maxMsgs, slots.pool]
    by_cases same : other = slot
    · subst same
      simp [moved.known, moved.inPool]
    · rw [update_of_ne same]
  · intro other
    rw [moved.free_iff]
    by_cases same : other = slot
    · subst same
      simp
    · rw [update_of_ne same, if_neg same, slots.free_iff]
  · intro other
    rw [moved.queued_iff]
    by_cases same : other = slot
    · subst same
      simp
    · rw [update_of_ne same, if_neg same, slots.queued_iff]
  · intro c other
    rw [moved.hand_iff]
    by_cases same : other = slot
    · subst same
      simp
    · rw [update_of_ne same, if_neg same, slots.hand_iff]

end places

section steps

variable {st after : State Tid Hid} {p : Nat → Place Tid Hid} {free messages : List Nat}

omit [DecidableEq Hid] in
theorem State.wake_eq (st : State Tid Hid) :
    st.wake = { st with kernel := st.kernel.rtIpcListResume () } := by
  unfold State.wake
  split
  · rfl
  · rename_i noWaiters
    simp only [State.waiters, not_not] at noWaiters
    simp [Kernel.rtIpcListResume, noWaiters]

theorem SlotsConserved.hand_gain (slots : SlotsConserved st p free messages)
    (empty : st.hand c = none) (hand : Hand)
    (onList : p hand.slot = .free ∨ p hand.slot = .queued) (other : Caller Tid Hid) (slot : Nat) :
    (update st.hand c (some hand) other).map Hand.slot = some slot ↔
      if slot = hand.slot then Place.inHand c = .inHand other
      else (st.hand other).map Hand.slot = some slot := by
  by_cases same : other = c
  · subst same
    simp [empty, eq_comm]
  · rw [update_of_ne same]
    by_cases isSlot : slot = hand.slot
    · subst isSlot
      rw [slots.hand_iff]
      rcases onList with isFree | isQueued
      · simp [isFree, Ne.symm same]
      · simp [isQueued, Ne.symm same]
    · rw [if_neg isSlot]

theorem SlotsConserved.hand_lose (slots : SlotsConserved st p free messages)
    (holds : st.hand c = some hand) {target : Place Tid Hid}
    (onList : target = .free ∨ target = .queued) (other : Caller Tid Hid) (slot : Nat) :
    (update st.hand c none other).map Hand.slot = some slot ↔
      if slot = hand.slot then target = .inHand other
      else (st.hand other).map Hand.slot = some slot := by
  have noTarget : target ≠ .inHand other := by
    rcases onList with rfl | rfl
    · simp
    · simp
  by_cases same : other = c
  · subst same
    simp [holds, noTarget, eq_comm]
  · rw [update_of_ne same]
    by_cases isSlot : slot = hand.slot
    · subst isSlot
      rw [slots.hand_iff, (slots.in_hand holds).1]
      simp [noTarget, Ne.symm same]
    · rw [if_neg isSlot]

theorem hand_others {hands : Caller Tid Hid → Option Hand} {other : Caller Tid Hid}
    {hand : Option Hand} {held : Hand} (holds : update hands c hand other = some held) :
    (other = c ∧ hand = some held) ∨ (other ≠ c ∧ hands other = some held) := by
  by_cases same : other = c
  · subst same
    exact .inl ⟨rfl, by simpa using holds⟩
  · exact .inr ⟨same, by simpa [same] using holds⟩

theorem take_copyIn (buffer old : List (BitVec 8)) :
    (copyIn buffer old).take buffer.length = buffer := by
  simp [copyIn]

section

variable (inv : Inv st p free messages)

include inv

omit [DecidableEq Tid] [DecidableEq Hid] in
theorem Inv.setThreads (kernel : Kernel Tid Unit) (tick : BitVec 32) (call : Tid → Option Call)
    (idle : ∀ t, (call t).isSome → st.hand (.thread t) = none) :
    Inv { st with kernel := kernel, tick := tick, call := call } p free messages :=
  { slots := { inv.slots with }
    letters := { inv.letters with }
    maxMsgs_lt := inv.maxMsgs_lt
    filled := inv.filled
    pending := inv.pending
    gone := inv.gone
    idle := idle }

theorem Inv.setHand_idle (executing : st.Executing c) (hand : Option Hand) (t : Tid)
    (suspended : (st.call t).isSome) : update st.hand c hand (.thread t) = none := by
  have ne : Caller.thread t ≠ c := by
    rintro rfl
    have notCalling := executing.2
    simp only [Option.isNone_iff_eq_none] at notCalling
    simp [notCalling] at suspended
  rw [update_of_ne ne]
  exact inv.idle t suspended

theorem takeFree_inv (idle : st.Idle c) (buffer : List (BitVec 8)) (urgent : Bool) :
    ∃ p free, Inv (takeFree st c buffer urgent).1 p free messages := by
  unfold takeFree
  split
  · exact ⟨p, free, inv⟩
  · split
    · exact ⟨p, free, inv⟩
    · rename_i msg isFree
      have chain := inv.slots.free_chain
      rw [isFree] at chain
      obtain ⟨rest, rfl, restChain⟩ := chain.cases_some
      obtain ⟨fresh, restNodup⟩ := List.nodup_cons.mp inv.slots.free_nodup
      have isFreeSlot := (inv.slots.free_iff msg).mp List.mem_cons_self
      have noHand : st.hand c = none := by simpa using idle.2
      have notQueued := inv.slots.disjoint List.mem_cons_self
      have moved : Moved st ({ st with msgQueueFree := st.next msg }.setHand c
          (some (.sending msg buffer urgent false))) p (msg :: rest) messages rest messages
          msg (.inHand c) := by
        refine ⟨rfl, by simp [isFreeSlot], by simp, ?_, ?_, ?_⟩
        · intro other
          by_cases same : other = msg
          · simp [same, fresh]
          · simp [same]
        · intro other
          by_cases same : other = msg
          · simp [same, notQueued]
          · simp [same]
        · exact inv.slots.hand_gain noHand (.sending msg buffer urgent false) (.inl isFreeSlot)
      have slots := inv.slots.move moved restNodup inv.slots.messages_nodup restChain
        inv.slots.messages_chain inv.slots.tail_eq inv.slots.entry_eq
      refine ⟨_, rest, slots, ⟨inv.letters.complete, inv.letters.inOrder, inv.letters.intact, ?_⟩,
        inv.maxMsgs_lt, ?_, inv.pending, inv.gone, inv.setHand_idle idle.1 _⟩
      · intro other slot n copied holds
        rcases hand_others holds with ⟨-, isHand⟩ | ⟨-, holds⟩
        · simp at isHand
        · exact inv.letters.received other slot n copied holds
      · intro other slot buffer' urgent' holds
        rcases hand_others holds with ⟨-, isHand⟩ | ⟨-, holds⟩
        · simp at isHand
        · exact inv.filled other slot buffer' urgent' holds

theorem fill_inv (executing : st.Executing c) {urgent : Bool}
    (holds : st.hand c = some (.sending msg buffer urgent false)) {next : Nat → Option Nat}
    (others : ∀ slot, slot ≠ msg → next slot = st.next slot)
    (cleared : urgent = false → next msg = none) : Inv ({ st with
      next := next
      data := update st.data msg (copyIn buffer (st.data msg)) }.setHand c
        (some (.sending msg buffer urgent true))) p free messages := by
  obtain ⟨inHand, notFree, notQueued⟩ := inv.slots.in_hand holds
  have sameSlots : ∀ other, (update st.hand c (some (.sending msg buffer urgent true)) other).map
        Hand.slot = (st.hand other).map Hand.slot := by
    intro other
    by_cases same : other = c
    · subst same
      simp [holds, Hand.slot]
    · rw [update_of_ne same]
  refine ⟨?_, ⟨inv.letters.complete, inv.letters.inOrder, ?_, ?_⟩, inv.maxMsgs_lt, ?_,
    inv.pending, inv.gone, inv.setHand_idle executing _⟩
  · exact { inv.slots with
      hand_iff := by
        intro other slot
        exact (congrArg (· = some slot) (sameSlots other)).to_iff.trans
          (inv.slots.hand_iff other slot)
      free_chain := inv.slots.free_chain.congr fun slot isFree =>
        others slot fun same => notFree (same ▸ isFree)
      messages_chain := inv.slots.messages_chain.congr fun slot isQueued =>
        others slot fun same => notQueued (same ▸ isQueued) }
  · intro slot isQueued
    have ne : slot ≠ msg := fun same => notQueued (same ▸ isQueued)
    simpa [State.setHand, ne] using inv.letters.intact slot isQueued
  · intro other slot n copied holds'
    rcases hand_others holds' with ⟨-, isHand⟩ | ⟨ne, holds'⟩
    · simp at isHand
    · have notMsg := inv.slots.slot_ne holds holds' ne
      simp only [Hand.slot] at notMsg
      simpa [State.setHand, notMsg] using inv.letters.received other slot n copied holds'
  · intro other slot buffer' urgent' holds'
    rcases hand_others holds' with ⟨-, isHand⟩ | ⟨ne, holds'⟩
    · obtain ⟨rfl, rfl, rfl, -⟩ : msg = slot ∧ buffer = buffer' ∧ urgent = urgent' ∧ True := by
        simpa using isHand
      refine ⟨cleared, ?_⟩
      simpa [State.setHand] using take_copyIn buffer (st.data msg)
    · have notMsg := inv.slots.slot_ne holds holds' ne
      simp only [Hand.slot] at notMsg
      simpa [State.setHand, notMsg, others slot notMsg] using
        inv.filled other slot buffer' urgent' holds'

end

omit [DecidableEq Tid] [DecidableEq Hid] in
theorem MessagesConserved.serial_lt (letters : MessagesConserved st messages) {letter : Letter}
    (mem : letter ∈ st.delivered ++ messages.map st.letter) : letter.serial < st.linked := by
  have known : letter.serial ∈ (st.delivered ++ st.dropped ++
      messages.map st.letter).map Letter.serial := by
    apply List.mem_map_of_mem
    simp only [List.mem_append] at mem ⊢
    tauto
  simpa using letters.complete.mem_iff.mp known

def State.newLetter (st : State Tid Hid) (urgent : Bool) (body : List (BitVec 8)) : Letter where
  serial := st.linked
  urgent := urgent
  body := body
  leftAt := none

omit [DecidableEq Tid] [DecidableEq Hid] in
theorem map_letter_post (notQueued : msg ∉ messages) (letter : Letter) :
    messages.map (update st.letter msg letter) = messages.map st.letter := by
  apply List.map_congr_left
  intro slot mem
  have ne : slot ≠ msg := fun same => notQueued (same ▸ mem)
  rw [update_of_ne ne]

omit [DecidableEq Tid] [DecidableEq Hid] in
theorem MessagesConserved.complete_post (letters : MessagesConserved st messages)
    (perm : messages'.Perm (msg :: messages)) (notQueued : msg ∉ messages)
    (urgent : Bool) (body : List (BitVec 8)) :
    ((st.delivered ++ st.dropped ++ messages'.map (update st.letter msg
      (st.newLetter urgent body))).map Letter.serial).Perm (List.range (st.linked + 1)) := by
  have grown : (st.delivered ++ st.dropped ++ messages'.map (update st.letter
      msg (st.newLetter urgent body))).Perm
      (st.newLetter urgent body :: (st.delivered ++ st.dropped ++ messages.map st.letter)) := by
    have mapped := perm.map (update st.letter msg (st.newLetter urgent body))
    rw [List.map_cons, update_self, map_letter_post notQueued] at mapped
    exact (mapped.append_left _).trans List.perm_middle
  have serials := grown.map Letter.serial
  have range : (List.range (st.linked + 1)).Perm (st.linked :: List.range st.linked) := by
    rw [List.range_succ]
    exact List.perm_append_singleton _ _
  exact (serials.trans (letters.complete.cons _)).trans range.symm

section

variable (inv : Inv st p free messages)

include inv

theorem link_inv (executing : st.Executing c) {urgent : Bool}
    (holds : st.hand c = some (.sending msg buffer urgent true)) {next : Nat → Option Nat}
    {head tail : Option Nat} (perm : messages'.Perm (msg :: messages))
    (others : ∀ slot, slot ≠ msg → slot ∉ messages → next slot = st.next slot)
    (chain : Chain next head messages') (tail_eq : tail = messages'.getLast?)
    (inOrder : (st.delivered ++
      messages'.map (update st.letter msg (st.newLetter urgent buffer))).Pairwise Precedes) :
    Inv (({ st with
      next := next
      msgQueueHead := head
      msgQueueTail := tail
      entry := (st.entry + 1) % 0x10000 }.post msg urgent buffer).wake.setHand c none)
      (update p msg .queued) free messages' := by
  obtain ⟨inHand, notFree, notQueued⟩ := inv.slots.in_hand holds
  simp only [Hand.slot] at inHand notFree notQueued
  have nodup : messages'.Nodup :=
    perm.nodup_iff.mpr (List.nodup_cons.mpr ⟨notQueued, inv.slots.messages_nodup⟩)
  have mem : ∀ slot, slot ∈ messages' ↔ slot = msg ∨ slot ∈ messages := by
    intro slot
    rw [perm.mem_iff, List.mem_cons]
  have length : messages'.length = messages.length + 1 := by rw [perm.length_eq, List.length_cons]
  have bounded : messages'.length ≤ st.maxMsgs := by
    refine inv.slots.length_le nodup fun slot membership => ?_
    rcases (mem slot).mp membership with rfl | isQueued
    · simp [inHand]
    · simp [(inv.slots.queued_iff slot).mp isQueued]
  have wrote := inv.filled c msg buffer urgent holds
  have small := inv.maxMsgs_lt
  have counted : (st.entry + 1) % 0x10000 = messages'.length := by
    rw [inv.slots.entry_eq, length]
    exact Nat.mod_eq_of_lt (by omega)
  rw [State.wake_eq]
  refine ⟨?_, ⟨?_, inOrder, ?_, ?_⟩, inv.maxMsgs_lt, ?_, ?_, ?_, inv.setHand_idle executing none⟩
  · refine inv.slots.move ⟨rfl, by simp [inHand], by simp, ?_, ?_, ?_⟩ inv.slots.free_nodup nodup
      ?_ chain tail_eq counted
    · intro slot
      by_cases same : slot = msg
      · simp [same, notFree]
      · simp [same]
    · intro slot
      rw [mem]
      by_cases same : slot = msg
      · simp [same]
      · simp [same]
    · exact inv.slots.hand_lose holds (.inr rfl)
    · apply inv.slots.free_chain.congr
      intro slot isFree
      exact others slot (fun same => notFree (same ▸ isFree)) (inv.slots.disjoint isFree)
  · exact inv.letters.complete_post perm notQueued urgent buffer
  · intro slot isQueued
    rcases (mem slot).mp isQueued with rfl | wasQueued
    · simpa [State.post, State.setHand] using wrote.2
    · have ne : slot ≠ msg := fun same => notQueued (same ▸ wasQueued)
      simpa [State.post, State.setHand, ne] using inv.letters.intact slot wasQueued
  · intro other slot n copied holds'
    rcases hand_others holds' with ⟨-, isHand⟩ | ⟨ne, holds'⟩
    · simp at isHand
    · have notMsg := inv.slots.slot_ne holds holds' ne
      simp only [Hand.slot] at notMsg
      simpa [State.post, State.setHand, notMsg] using
        inv.letters.received other slot n copied holds'
  · intro other slot buffer' urgent' holds'
    rcases hand_others holds' with ⟨-, isHand⟩ | ⟨ne, holds'⟩
    · simp at isHand
    · have notMsg := inv.slots.slot_ne holds holds' ne
      have notQueued' := (inv.slots.in_hand holds').2.2
      simpa [State.post, State.setHand, others slot notMsg notQueued'] using
        inv.filled other slot buffer' urgent' holds'
  · intro slot isQueued
    rcases (mem slot).mp isQueued with rfl | wasQueued
    · simp [State.post, State.setHand]
    · have ne : slot ≠ msg := fun same => notQueued (same ▸ wasQueued)
      simpa [State.post, State.setHand, ne] using inv.pending slot wasQueued
  · intro letter isGone
    obtain ⟨moment, left, before⟩ := inv.gone letter isGone
    exact ⟨moment, left, Nat.le_succ_of_le before⟩

theorem sendLink_inv (executing : st.Executing c)
    (holds : st.hand c = some (.sending msg buffer false true)) :
    Inv (rtMqSendLink st c msg buffer) (update p msg .queued) free (messages ++ [msg]) := by
  obtain ⟨-, -, notQueued⟩ := inv.slots.in_hand holds
  simp only [Hand.slot] at notQueued
  have isNull := (inv.filled c msg buffer false holds).1 rfl
  have headChain := inv.slots.messages_chain
  refine link_inv inv executing holds (List.perm_append_singleton _ _) ?_ ?_ (by simp) ?_
  · intro slot ne notOnList
    cases isTail : st.msgQueueTail with
    | none => rfl
    | some last =>
      have isLast : messages.getLast? = some last := inv.slots.tail_eq.symm.trans isTail
      have notLast : slot ≠ last := fun same =>
        notOnList (same ▸ List.mem_of_getLast? isLast)
      simp only [update_of_ne notLast]
  · cases isLast : messages.getLast? with
    | none =>
      have empty : messages = [] := List.getLast?_eq_none_iff.mp isLast
      have noTail : st.msgQueueTail = none := inv.slots.tail_eq.trans isLast
      have noHead : st.msgQueueHead = none := headChain.eq_none_iff.mpr empty
      simp [noTail, noHead, empty, Chain, isNull]
    | some last =>
      have isTail : st.msgQueueTail = some last := inv.slots.tail_eq.trans isLast
      have hasHead : st.msgQueueHead ≠ none := by
        rw [Ne, headChain.eq_none_iff]
        rintro rfl
        simp at isLast
      simp only [isTail, hasHead]
      exact headChain.append inv.slots.messages_nodup isLast notQueued isNull
  · rw [List.map_append, map_letter_post notQueued, ← List.append_assoc]
    refine List.pairwise_append.mpr ⟨inv.letters.inOrder, by simp, ?_⟩
    intro letter earlier newest isNewest
    have older := inv.letters.serial_lt earlier
    obtain rfl : newest = st.newLetter false buffer := by simpa using isNewest
    exact ⟨fun _ _ => older, by simp [State.newLetter]⟩

theorem urgentLink_inv (executing : st.Executing c)
    (holds : st.hand c = some (.sending msg buffer true true)) :
    Inv (rtMqUrgentLink st c msg buffer) (update p msg .queued) free (msg :: messages) := by
  obtain ⟨-, -, notQueued⟩ := inv.slots.in_hand holds
  simp only [Hand.slot] at notQueued
  have older : ∀ letter ∈ st.delivered ++ messages.map st.letter,
      letter.serial < st.linked := fun letter => inv.letters.serial_lt
  refine link_inv inv executing holds (List.Perm.refl _) ?_
    (inv.slots.messages_chain.push notQueued) ?_ ?_
  · intro slot ne _
    rw [update_of_ne ne]
  · rw [inv.slots.tail_eq]
    cases messages with
    | nil => rfl
    | cons a rest => simp
  · rw [List.map_cons, update_self, map_letter_post notQueued]
    obtain ⟨delivered, waiting, between⟩ := List.pairwise_append.mp inv.letters.inOrder
    refine List.pairwise_append.mpr ⟨delivered, List.pairwise_cons.mpr ⟨?_, waiting⟩, ?_⟩
    · intro letter isWaiting
      have := older letter (List.mem_append_right _ isWaiting)
      refine ⟨by simp [State.newLetter], fun _ laterSerial => ?_⟩
      simp only [State.newLetter] at laterSerial
      omega
    · intro letter isDelivered other isOther
      rcases List.mem_cons.mp isOther with rfl | isWaiting
      · exact ⟨by simp [State.newLetter], fun _ _ => inv.gone letter isDelivered⟩
      · exact between letter isDelivered other isWaiting

end

theorem tail_of_rest {tail : Option Nat} {rest : List Nat} (tail_eq : tail = (msg :: rest).getLast?)
    (fresh : msg ∉ rest) : (if tail = some msg then none else tail) = rest.getLast? := by
  rw [tail_eq]
  cases rest with
  | nil => simp
  | cons second more =>
    have notLast : (msg :: second :: more).getLast? ≠ some msg := by
      intro isLast
      exact fresh (List.mem_of_getLast? isLast)
    rw [if_neg notLast, List.getLast?_cons_cons]

theorem deliver_inOrder {delivered waiting : List Letter} {a : Letter} (linked : Nat)
    (inOrder : (delivered ++ a :: waiting).Pairwise Precedes) (isPending : a.leftAt = none) :
    (delivered ++ [{ a with leftAt := some linked }] ++ waiting).Pairwise Precedes := by
  obtain ⟨deliveredOrder, waitingOrder, between⟩ := List.pairwise_append.mp inOrder
  obtain ⟨ahead, waitingOrder⟩ := List.pairwise_cons.mp waitingOrder
  refine List.pairwise_append.mpr
    ⟨List.pairwise_append.mpr ⟨deliveredOrder, by simp, ?_⟩, waitingOrder, ?_⟩
  · intro letter isDelivered last isLast
    obtain rfl : last = { a with leftAt := some linked } := by simpa using isLast
    exact between letter isDelivered a List.mem_cons_self
  · intro letter isDelivered other isWaiting
    rcases List.mem_append.mp isDelivered with wasDelivered | isLast
    · exact between letter wasDelivered other (List.mem_cons_of_mem _ isWaiting)
    · obtain rfl : letter = { a with leftAt := some linked } := by simpa using isLast
      obtain ⟨normals, urgents⟩ := ahead other isWaiting
      refine ⟨normals, fun isUrgent older => ?_⟩
      obtain ⟨moment, left, -⟩ := urgents isUrgent older
      simp [isPending] at left

section

variable (inv : Inv st p free messages)

include inv

theorem unlink_inv (empty : st.hand c = none) (isHead : st.msgQueueHead = some msg) (n : Nat)
    {call : Tid → Option Call}
    (idle : ∀ t, (call t).isSome → Caller.thread t ≠ c ∧ (st.call t).isSome) :
    ∃ p messages, Inv ({ st with
      msgQueueHead := st.next msg
      msgQueueTail := if st.msgQueueTail = some msg then none else st.msgQueueTail
      entry := st.entry - 1
      call := call
      delivered := st.delivered ++ [{ st.letter msg with leftAt := some st.linked }] }.setHand c
          (some (.receiving msg n false))) p free messages := by
  have chain := inv.slots.messages_chain
  rw [isHead] at chain
  obtain ⟨rest, rfl, restChain⟩ := chain.cases_some
  obtain ⟨fresh, restNodup⟩ := List.nodup_cons.mp inv.slots.messages_nodup
  have isQueued := (inv.slots.queued_iff msg).mp List.mem_cons_self
  have notFree : msg ∉ free := fun isFree => inv.slots.disjoint isFree List.mem_cons_self
  refine ⟨update p msg (.inHand c), rest, ?_, ?_, inv.maxMsgs_lt, ?_, ?_, ?_, ?_⟩
  · refine inv.slots.move ⟨rfl, by simp [isQueued], by simp, ?_, ?_, ?_⟩ inv.slots.free_nodup
      restNodup inv.slots.free_chain restChain ?_ ?_
    · intro slot
      by_cases same : slot = msg
      · simp [same, notFree]
      · simp [same]
    · intro slot
      by_cases same : slot = msg
      · simp [same, fresh]
      · simp [same]
    · exact inv.slots.hand_gain empty (.receiving msg n false) (.inr isQueued)
    · exact tail_of_rest inv.slots.tail_eq fresh
    · change st.entry - 1 = _
      rw [inv.slots.entry_eq, List.length_cons, Nat.add_sub_cancel]
  · refine ⟨?_, ?_, ?_, ?_⟩
    · have complete := inv.letters.complete
      simp only [State.setHand, List.map_append, List.map_cons, List.map_nil] at complete ⊢
      refine List.Perm.trans ?_ complete
      simp only [List.append_assoc, List.cons_append, List.nil_append]
      exact (List.perm_middle.symm).append_left _
    · exact deliver_inOrder st.linked inv.letters.inOrder (inv.pending msg List.mem_cons_self)
    · exact fun slot isWaiting => inv.letters.intact slot (List.mem_cons_of_mem _ isWaiting)
    · intro other slot size' copied holds
      rcases hand_others holds with ⟨-, isHand⟩ | ⟨-, holds⟩
      · obtain ⟨rfl, -, -⟩ : msg = slot ∧ n = size' ∧ false = copied := by simpa using isHand
        refine ⟨⟨st.linked, by simp [State.setHand]⟩, ?_⟩
        exact inv.letters.intact msg List.mem_cons_self
      · obtain ⟨⟨moment, isDelivered⟩, intact⟩ := inv.letters.received other slot size' copied holds
        exact ⟨⟨moment, List.mem_append_left _ isDelivered⟩, intact⟩
  · intro other slot buffer urgent holds
    rcases hand_others holds with ⟨-, isHand⟩ | ⟨-, holds⟩
    · simp at isHand
    · exact inv.filled other slot buffer urgent holds
  · exact fun slot isWaiting => inv.pending slot (List.mem_cons_of_mem _ isWaiting)
  · intro letter isDelivered
    rcases List.mem_append.mp isDelivered with wasDelivered | isLast
    · exact inv.gone letter wasDelivered
    · obtain rfl : letter = { st.letter msg with leftAt := some st.linked } := by
        simpa using isLast
      exact ⟨st.linked, rfl, Nat.le_refl _⟩
  · intro t suspended
    obtain ⟨ne, wasSuspended⟩ := idle t suspended
    simp only [State.setHand, update_of_ne ne]
    exact inv.idle t wasSuspended

theorem recvLoop_inv (empty : st.hand c = none) {timeout : BitVec 32}
    (result : recvLoop st c n timeout = some (after, outcome)) :
    ∃ p messages, Inv after p free messages := by
  unfold recvLoop at result
  split at result
  · cases c with
    | handler h => simp at result
    | thread t =>
      simp only at result
      split at result
      · cases result
        refine ⟨p, messages, inv.setThreads _ _ _ fun s suspended => ?_⟩
        by_cases same : s = t
        · exact same ▸ empty
        · exact inv.idle s (by simpa [same] using suspended)
      · cases result
        refine ⟨p, messages, inv.setThreads _ _ _ fun s suspended => ?_⟩
        by_cases same : s = t
        · exact same ▸ empty
        · exact inv.idle s (by simpa [same] using suspended)
  · split at result
    · simp at result
    · rename_i msg isHead
      cases result
      refine unlink_inv inv empty isHead n fun s suspended => ?_
      cases c with
      | handler h => exact ⟨by simp, suspended⟩
      | thread t =>
        by_cases same : s = t
        · simp [same] at suspended
        · exact ⟨by simpa using same, by simpa [same] using suspended⟩

theorem recv_inv (empty : st.hand c = none) {timeout : BitVec 32}
    (result : rtMqRecv st c n timeout = some (after, outcome)) :
    ∃ p messages, Inv after p free messages := by
  unfold rtMqRecv at result
  split at result
  · cases result
    exact ⟨p, messages, inv⟩
  · exact recvLoop_inv inv empty result

theorem resumed_inv {t : Tid} {call : Call} (isCall : st.call t = some call)
    (result : rtMqRecvResumed st t call = some (after, outcome)) :
    ∃ p messages, Inv after p free messages := by
  have empty : st.hand (.thread t) = none := inv.idle t (by simp [isCall])
  unfold rtMqRecvResumed at result
  simp only at result
  split at result
  · cases result
    refine ⟨p, messages, inv.setThreads _ _ _ fun s suspended => ?_⟩
    by_cases same : s = t
    · exact same ▸ empty
    · exact inv.idle s (by simpa [same] using suspended)
  · exact recvLoop_inv inv empty result

theorem copy_inv (executing : st.Executing c) (holds : st.hand c = some (.receiving msg n false)) :
    Inv (rtMqRecvCopy st c msg n).1 p free messages := by
  refine ⟨?_, ⟨inv.letters.complete, inv.letters.inOrder, inv.letters.intact, ?_⟩, inv.maxMsgs_lt,
    ?_, inv.pending, inv.gone, inv.setHand_idle executing _⟩
  · exact { inv.slots with
      hand_iff := by
        intro other slot
        rw [← inv.slots.hand_iff]
        by_cases same : other = c
        · subst same
          simp [rtMqRecvCopy, State.setHand, holds, Hand.slot]
        · simp [rtMqRecvCopy, State.setHand, same] }
  · intro other slot size' copied holds'
    rcases hand_others holds' with ⟨-, isHand⟩ | ⟨-, holds'⟩
    · obtain ⟨rfl, -, -⟩ : msg = slot ∧ n = size' ∧ true = copied := by simpa using isHand
      exact inv.letters.received c msg n false holds
    · exact inv.letters.received other slot size' copied holds'
  · intro other slot buffer urgent holds'
    rcases hand_others holds' with ⟨-, isHand⟩ | ⟨-, holds'⟩
    · simp at isHand
    · exact inv.filled other slot buffer urgent holds'

theorem giveBack_inv (executing : st.Executing c)
    (holds : st.hand c = some (.receiving msg n true)) :
    Inv (rtMqRecvGiveBack st c msg) (update p msg .free) (msg :: free) messages := by
  obtain ⟨inHand, notFree, notQueued⟩ := inv.slots.in_hand holds
  simp only [Hand.slot] at inHand notFree notQueued
  refine ⟨?_, ⟨inv.letters.complete, inv.letters.inOrder, inv.letters.intact, ?_⟩, inv.maxMsgs_lt,
    ?_, inv.pending, inv.gone, inv.setHand_idle executing none⟩
  · refine inv.slots.move ⟨rfl, by simp [inHand], by simp, ?_, ?_, ?_⟩
      (List.nodup_cons.mpr ⟨notFree, inv.slots.free_nodup⟩) inv.slots.messages_nodup
      (inv.slots.free_chain.push notFree) (inv.slots.messages_chain.update notQueued _)
      inv.slots.tail_eq inv.slots.entry_eq
    · intro slot
      by_cases same : slot = msg
      · simp [same]
      · simp [same]
    · intro slot
      by_cases same : slot = msg
      · simp [same, notQueued]
      · simp [same]
    · exact inv.slots.hand_lose holds (.inl rfl)
  · intro other slot size' copied holds'
    rcases hand_others holds' with ⟨-, isHand⟩ | ⟨-, holds'⟩
    · simp at isHand
    · exact inv.letters.received other slot size' copied holds'
  · intro other slot buffer urgent holds'
    rcases hand_others holds' with ⟨-, isHand⟩ | ⟨ne, holds'⟩
    · simp at isHand
    · have notMsg := inv.slots.slot_ne holds holds' ne
      simp only [Hand.slot] at notMsg
      simpa [rtMqRecvGiveBack, State.setHand, notMsg] using
        inv.filled other slot buffer urgent holds'

omit [DecidableEq Tid] [DecidableEq Hid] in
theorem dropHead_inv (isHead : st.msgQueueHead = some msg) : ∃ rest, messages = msg :: rest ∧
      Inv { dropHead st msg with entry := rest.length } (update p msg .free)
        (msg :: free) rest := by
  have chain := inv.slots.messages_chain
  rw [isHead] at chain
  obtain ⟨rest, rfl, restChain⟩ := chain.cases_some
  obtain ⟨fresh, restNodup⟩ := List.nodup_cons.mp inv.slots.messages_nodup
  have isQueued := (inv.slots.queued_iff msg).mp List.mem_cons_self
  have notFree : msg ∉ free := fun isFree => inv.slots.disjoint isFree List.mem_cons_self
  refine ⟨rest, rfl, ?_, ⟨?_, ?_, ?_, inv.letters.received⟩, inv.maxMsgs_lt, ?_, ?_, inv.gone,
    inv.idle⟩
  · refine inv.slots.move ⟨rfl, by simp [isQueued], by simp, ?_, ?_, ?_⟩
      (List.nodup_cons.mpr ⟨notFree, inv.slots.free_nodup⟩) restNodup
      (inv.slots.free_chain.push notFree) (restChain.update fresh _) ?_ rfl
    · intro slot
      by_cases same : slot = msg
      · simp [same]
      · simp [same]
    · intro slot
      by_cases same : slot = msg
      · simp [same, fresh]
      · simp [same]
    · intro other slot
      by_cases same : slot = msg
      · subst same
        simp only [dropHead]
        rw [inv.slots.hand_iff, isQueued]
        simp
      · simp [same, dropHead]
    · exact tail_of_rest inv.slots.tail_eq fresh
  · simpa [dropHead] using inv.letters.complete
  · have inOrder := inv.letters.inOrder
    exact inOrder.sublist ((List.sublist_cons_self _ _).append_left _)
  · exact fun slot isWaiting => inv.letters.intact slot (List.mem_cons_of_mem _ isWaiting)
  · intro other slot buffer urgent holds
    have notMsg : slot ≠ msg := by
      rintro rfl
      exact (inv.slots.in_hand holds).2.2 List.mem_cons_self
    simpa [dropHead, notMsg] using inv.filled other slot buffer urgent holds
  · exact fun slot isWaiting => inv.pending slot (List.mem_cons_of_mem _ isWaiting)

end

omit [DecidableEq Tid] [DecidableEq Hid] in
theorem dropAll_inv (fuel : Nat) (inv : Inv { st with entry := messages.length } p free messages)
    (enough : messages.length ≤ fuel) :
    ∃ after p free, dropAll fuel st = some after ∧ Inv { after with entry := 0 } p free [] := by
  induction fuel generalizing st p free messages with
  | zero =>
    have isNil : messages = [] := List.eq_nil_of_length_eq_zero (by omega)
    subst isNil
    have noHead : st.msgQueueHead = none := inv.slots.messages_chain
    exact ⟨st, p, free, by simp [dropAll, noHead], inv⟩
  | succ fuel ih =>
    cases isHead : st.msgQueueHead with
    | none =>
      have isNil : messages = [] := inv.slots.messages_chain.eq_none_iff.mp isHead
      subst isNil
      exact ⟨st, p, free, by simp [dropAll, isHead], inv⟩
    | some msg =>
      obtain ⟨rest, rfl, invRest⟩ := dropHead_inv inv isHead
      rw [List.length_cons] at enough
      obtain ⟨after, place', free', r, invAfter⟩ := @ih (dropHead st msg) _ _ _ invRest (by omega)
      exact ⟨after, place', free', by simpa [dropAll, isHead] using r, invAfter⟩

section

variable (inv : Inv st p free messages)

include inv

omit [DecidableEq Tid] [DecidableEq Hid] in
theorem Inv.length_le : messages.length ≤ st.maxMsgs := by
  refine inv.slots.length_le inv.slots.messages_nodup fun slot isQueued => ?_
  simp [(inv.slots.queued_iff slot).mp isQueued]

omit [DecidableEq Hid] in
theorem reset_inv : ∃ after p free, rtMqReset st = some after ∧ Inv after p free [] := by
  have woken := inv.setThreads (st.kernel.rtIpcListResumeAll ()) st.tick st.call inv.idle
  have start : Inv
      { ({ st with kernel := st.kernel.rtIpcListResumeAll () } : State Tid Hid) with
        entry := messages.length } p free messages := by
    rw [← inv.slots.entry_eq]
    exact woken
  obtain ⟨after, place', free', result, invAfter⟩ := dropAll_inv st.maxMsgs start inv.length_le
  exact ⟨_, place', free', by rw [rtMqReset, result]; rfl, invAfter⟩

theorem step_inv {e : Event Tid Hid} (ran : step st e = some after) :
    ∃ p free messages, Inv after p free messages := by
  cases e with
  | send c buffer =>
    obtain ⟨admitted, ⟨⟩⟩ := ite_none_right_eq_some.mp ran
    obtain ⟨p, free, inv⟩ := takeFree_inv inv admitted.1 buffer false
    exact ⟨p, free, messages, inv⟩
  | urgent c buffer =>
    obtain ⟨admitted, ⟨⟩⟩ := ite_none_right_eq_some.mp ran
    obtain ⟨p, free, inv⟩ := takeFree_inv inv admitted.1 buffer true
    exact ⟨p, free, messages, inv⟩
  | fill c =>
    simp only [step] at ran
    split at ran
    · rename_i msg buffer holds
      obtain ⟨executing, ⟨⟩⟩ := ite_none_right_eq_some.mp ran
      refine ⟨p, free, messages, fill_inv inv executing holds ?_ ?_⟩
      · intro slot ne
        rw [update_of_ne ne]
      · simp
    · rename_i msg buffer holds
      obtain ⟨executing, ⟨⟩⟩ := ite_none_right_eq_some.mp ran
      exact ⟨p, free, messages, fill_inv inv executing holds (fun _ _ => rfl) (by simp)⟩
    · simp at ran
  | link c =>
    simp only [step] at ran
    split at ran
    · rename_i msg buffer holds
      obtain ⟨executing, ⟨⟩⟩ := ite_none_right_eq_some.mp ran
      exact ⟨_, _, _, sendLink_inv inv executing holds⟩
    · rename_i msg buffer holds
      obtain ⟨executing, ⟨⟩⟩ := ite_none_right_eq_some.mp ran
      exact ⟨_, _, _, urgentLink_inv inv executing holds⟩
    · simp at ran
  | recv c n timeout =>
    simp only [step, ite_none_right_eq_some, Option.map_eq_some_iff] at ran
    obtain ⟨admitted, ⟨after', outcome⟩, result, rfl⟩ := ran
    have empty : st.hand c = none := by simpa using admitted.1.2
    obtain ⟨p, messages, inv⟩ := recv_inv inv empty result
    exact ⟨p, free, messages, inv⟩
  | resumed t =>
    simp only [step] at ran
    split at ran
    · rename_i call isCall
      simp only [ite_none_right_eq_some, Option.map_eq_some_iff] at ran
      obtain ⟨ready, ⟨after', outcome⟩, result, rfl⟩ := ran
      obtain ⟨p, messages, inv⟩ := resumed_inv inv isCall result
      exact ⟨p, free, messages, inv⟩
    · simp at ran
  | copy c =>
    simp only [step] at ran
    split at ran
    · rename_i msg n holds
      obtain ⟨executing, ⟨⟩⟩ := ite_none_right_eq_some.mp ran
      exact ⟨_, _, _, copy_inv inv executing holds⟩
    · simp at ran
  | giveBack c =>
    simp only [step] at ran
    split at ran
    · rename_i msg n holds
      obtain ⟨executing, ⟨⟩⟩ := ite_none_right_eq_some.mp ran
      exact ⟨_, _, _, giveBack_inv inv executing holds⟩
    · simp at ran
  | reset =>
    obtain ⟨after', p, free, result, invAfter⟩ := reset_inv inv
    obtain rfl : after' = after := by simpa [step, result] using ran
    exact ⟨p, free, [], invAfter⟩
  | timeout t =>
    obtain ⟨-, ⟨⟩⟩ := ite_none_right_eq_some.mp ran
    exact ⟨p, free, messages, inv.setThreads _ _ _ inv.idle⟩
  | tick =>
    cases ran
    exact ⟨p, free, messages, inv.setThreads _ _ _ inv.idle⟩

end

end steps

theorem initFree_chain (next : Nat → Option Nat) (maxMsgs : Nat) :
    Chain (initFree next maxMsgs).1 (initFree next maxMsgs).2 (List.range maxMsgs).reverse := by
  induction maxMsgs with
  | zero => rfl
  | succ temp ih =>
    rw [List.range_succ, List.reverse_append]
    apply ih.push
    simp

omit [DecidableEq Tid] [DecidableEq Hid] in
theorem Initial.inv {maxMsgs : Nat} {st : State Tid Hid} (init : Initial maxMsgs st) :
    ∃ p free, Inv st p free [] := by
  obtain ⟨next, pool⟩ := init.pool
  have next_eq : st.next = (initFree next maxMsgs).1 := congrArg Prod.fst pool
  have free_eq : st.msgQueueFree = (initFree next maxMsgs).2 := congrArg Prod.snd pool
  refine ⟨fun slot => if slot < maxMsgs then .free else .outside, (List.range maxMsgs).reverse, ?_,
    ?_, by rw [init.maxMsgs_eq]; exact init.maxMsgs_lt, ?_, by simp, ?_, ?_⟩
  · refine ⟨?_, ?_, ?_, ?_, ?_, List.nodup_nil, ?_, init.head_eq, init.tail_eq, init.entry_eq⟩
    · intro slot
      simp [init.maxMsgs_eq]
    · intro slot
      simp
    · intro slot
      by_cases below : slot < maxMsgs
      · simp [below]
      · simp [below]
    · intro c slot
      by_cases below : slot < maxMsgs
      · simp [below, init.emptyHands]
      · simp [below, init.emptyHands]
    · exact List.nodup_reverse.mpr List.nodup_range
    · rw [next_eq, free_eq]
      exact initFree_chain next maxMsgs
  · refine ⟨?_, ?_, by simp, ?_⟩
    · simp [init.delivered_eq, init.dropped_eq, init.linked_eq]
    · simp [init.delivered_eq]
    · simp [init.emptyHands]
  · simp [init.emptyHands]
  · simp [init.delivered_eq]
  · simp [init.emptyHands]

/-- Whatever runs while a slot is in somebody's hands, every slot is in one place and
every message that was linked is delivered, dropped by a reset or waiting, in order. -/
theorem reachable_conserved {maxMsgs : Nat} {st : State Tid Hid}
    (reachable : (system maxMsgs).Reachable st) : Conserved st := by
  have base : ∀ st : State Tid Hid, Initial maxMsgs st →
      ∃ p free messages, Inv st p free messages := by
    intro st init
    obtain ⟨p, free, inv⟩ := init.inv
    exact ⟨p, free, [], inv⟩
  have preserved : ∀ (st : State Tid Hid) (e : Event Tid Hid) (after : State Tid Hid),
      (∃ p free messages, Inv st p free messages) →
      step st e = some after → ∃ p free messages, Inv after p free messages := by
    rintro st e after ⟨p, free, messages, inv⟩ ran
    exact step_inv inv ran
  obtain ⟨p, free, messages, inv⟩ := reachable.invariant base preserved
  exact ⟨p, free, messages, inv.slots, inv.letters⟩

/-- A queue of `maxMsgs` messages just initialised, with `n` started threads. -/
def fresh (n maxMsgs : Nat) (flag : IpcFlag) : State (Fin n) (Fin n) where
  kernel := Kernel.started (List.finRange n) fun _ => 10
  msgSize := 4
  maxMsgs := maxMsgs
  entry := 0
  msgQueueHead := none
  msgQueueTail := none
  msgQueueFree := (initFree (fun _ => none) maxMsgs).2
  next := (initFree (fun _ => none) maxMsgs).1
  data _ := []
  flag := flag
  tick := 0
  call _ := none
  hand _ := none
  linked := 0
  letter _ :=
    { serial := 0
      urgent := false
      body := []
      leftAt := none }
  delivered := []
  dropped := []

theorem fresh_initial {maxMsgs : Nat} {flag : IpcFlag} (small : maxMsgs < 0x10000) :
    Initial maxMsgs (fresh n maxMsgs flag) where
  maxMsgs_eq := rfl
  maxMsgs_lt := small
  pool := ⟨fun _ => none, rfl⟩
  head_eq := rfl
  tail_eq := rfl
  entry_eq := rfl
  noCalls _ := rfl
  emptyHands _ := rfl
  linked_eq := rfl
  delivered_eq := rfl
  dropped_eq := rfl

theorem interleaved_send_conserved : Conserved ((TransitionSystem.execute step (fresh 2 2 .fifo)
      [.send (.thread 0) [1], .urgent (.handler 0) [2], .fill (.handler 0), .fill (.thread 0),
        .link (.thread 0), .link (.handler 0), .recv (.thread 1) 4 0, .copy (.thread 1)]).get
          (by decide)) :=
  reachable_conserved (TransitionSystem.Run.execute
    (.start (fresh_initial (by decide : 2 < 0x10000))) (Option.some_get _).symm).reachable

end RtThread.MessageQueue
