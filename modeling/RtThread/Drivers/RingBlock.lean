import RtThread.Library.TransitionSystem
import RtThread.Library.Words
import RtThread.Library.Cyclic

/-!
# Ring-block buffers

Blocks of varying size, allocated around a buffer and freed in any order.  The list holds
the blocks in the order of their allocation; `rt_rbb_blk_queue_get` takes blocks out of it
that are still in use.  `rt_rbb_blk_alloc` looks at the first and the last block of the list
only.
-/

open TransitionSystem

namespace RtThread.RingBlock

inductive RtRbbStatus where
  | unused
  | inited
  | put
  | get
  deriving DecidableEq

structure RtRbbBlk where
  status : RtRbbStatus
  size : Nat
  buf : Nat

/-- `struct rt_rbb`.  `blkSet` is the array of blocks, and `blkList` their indices in the
list. -/
structure RtRbb where
  buf : Nat
  bufSize : Nat
  blkSet : Nat → RtRbbBlk
  blkMaxNum : Nat
  blkList : List Nat

/-- `struct rt_rbb_blk_queue`, with the index of its first block. -/
structure RtRbbBlkQueue where
  blocks : Nat
  blkNum : Nat

inductive Event where
  | alloc (blkSize : Nat)
  | put (b : Nat)
  | get
  | free (b : Nat)
  | queueGet (queueDataLen : Nat)
  | queueFree (q : RtRbbBlkQueue)

namespace RtRbb

def setBlk (rbb : RtRbb) (i : Nat) (blk : RtRbbBlk) : RtRbb :=
  { rbb with blkSet := Function.update rbb.blkSet i blk }

def setStatus (rbb : RtRbb) (i : Nat) (status : RtRbbStatus) : RtRbb :=
  rbb.setBlk i { rbb.blkSet i with status }

def append (rbb : RtRbb) (i : Nat) : RtRbb := { rbb with blkList := rbb.blkList ++ [i] }

def remove (rbb : RtRbb) (i : Nat) : RtRbb := { rbb with blkList := rbb.blkList.erase i }

def ends (rbb : RtRbb) : Option (RtRbbBlk × RtRbbBlk) :=
  match rbb.blkList.head?, rbb.blkList.getLast? with
  | some head, some tail => some (rbb.blkSet head, rbb.blkSet tail)
  | _, _ => none

end RtRbb

def findEmptyBlkInSet (rbb : RtRbb) : Option Nat :=
  (List.range rbb.blkMaxNum).find? fun i => (rbb.blkSet i).status = .unused

def placeFor (rbb : RtRbb) (blkSize : Nat) : Option Nat :=
  match rbb.ends with
  | some (head, tail) =>
    let behindTail := Word32.add tail.buf tail.size
    if head.buf ≤ tail.buf then
      let empty1 := Word32.sub (Word32.add rbb.buf rbb.bufSize) behindTail
      let empty2 := Word32.sub head.buf rbb.buf
      if blkSize ≤ empty1 then some behindTail
      else if blkSize ≤ empty2 then some rbb.buf
      else none
    else
      let empty1 := Word32.sub head.buf behindTail
      if blkSize ≤ empty1 then some behindTail else none
  | none => some rbb.buf

def rtRbbBlkAlloc (rbb : RtRbb) (blkSize : Nat) : RtRbb × Option Nat :=
  match findEmptyBlkInSet rbb with
  | some new =>
    if rbb.blkList.length < rbb.blkMaxNum then
      match placeFor rbb blkSize with
      | some buf =>
        ((rbb.append new).setBlk new { status := .inited, size := blkSize, buf }, some new)
      | none => (rbb, none)
    else (rbb, none)
  | none => (rbb, none)

def rtRbbBlkPut (rbb : RtRbb) (b : Nat) : Option RtRbb :=
  if (rbb.blkSet b).status = .inited then some (rbb.setStatus b .put) else none

def rtRbbBlkGet (rbb : RtRbb) : RtRbb × Option Nat :=
  match rbb.blkList.find? fun i => (rbb.blkSet i).status = .put with
  | some b => (rbb.setStatus b .get, some b)
  | none => (rbb, none)

def rtRbbBlkFree (rbb : RtRbb) (b : Nat) : Option RtRbb :=
  if (rbb.blkSet b).status ≠ .unused then some ((rbb.remove b).setStatus b .unused)
  else none

/-- What a turn of the loop in `rt_rbb_blk_queue_get` does with a block of the queue. -/
def takeBlk (rbb : RtRbb) (i : Nat) : RtRbb := (rbb.remove i).setStatus i .get

/-- The loop of `rt_rbb_blk_queue_get` once it has a last block. -/
def queueGetMore (rbb : RtRbb) (queueDataLen : Nat) (q : RtRbbBlkQueue) (lastBlock : Nat)
    (dataTotalSize : Nat) : List Nat → RtRbb × RtRbbBlkQueue × Nat
  | [] => (rbb, q, dataTotalSize)
  | b :: rest =>
    if (rbb.blkSet b).status ≠ .put ∨
        (rbb.blkSet b).buf < (rbb.blkSet lastBlock).buf ∨
        queueDataLen < Word32.add dataTotalSize (rbb.blkSet b).size then
      (rbb, q, dataTotalSize)
    else
      queueGetMore (takeBlk rbb b) queueDataLen { q with blkNum := q.blkNum + 1 }
        b (Word32.add dataTotalSize (rbb.blkSet b).size) rest

/-- The loop of `rt_rbb_blk_queue_get` up to its first block. -/
def queueGetFirst (rbb : RtRbb) (queueDataLen : Nat) :
    List Nat → RtRbb × Option RtRbbBlkQueue × Nat
  | [] => (rbb, none, 0)
  | b :: rest =>
    if (rbb.blkSet b).status = .put then
      let (rbb, q, dataTotalSize) := queueGetMore (takeBlk rbb b) queueDataLen
        { blocks := b, blkNum := 1 } b (rbb.blkSet b).size rest
      (rbb, some q, dataTotalSize)
    else queueGetFirst rbb queueDataLen rest

/-- `rt_rbb_blk_queue_get`: the queue if it was filled, and the total size. -/
def rtRbbBlkQueueGet (rbb : RtRbb) (queueDataLen : Nat) : RtRbb × Option RtRbbBlkQueue × Nat :=
  queueGetFirst rbb queueDataLen rbb.blkList

/-- `rt_rbb_blk_queue_free`: `count` blocks of the array from `b` on. -/
def queueFreeFrom (rbb : RtRbb) (b : Nat) : Nat → Option RtRbb
  | 0 => some rbb
  | count + 1 =>
    if b < rbb.blkMaxNum then
      (rtRbbBlkFree rbb b).bind fun rbb => queueFreeFrom rbb (b + 1) count
    else none

def rtRbbBlkQueueFree (rbb : RtRbb) (q : RtRbbBlkQueue) : Option RtRbb :=
  queueFreeFrom rbb q.blocks q.blkNum

/-- One step; there is none where an assertion fails or a block outside of the array would
be read. -/
def step (rbb : RtRbb) : Event → Option RtRbb
  | .alloc blkSize => if blkSize < 2 ^ 24 then some (rtRbbBlkAlloc rbb blkSize).1 else none
  | .put b => if b < rbb.blkMaxNum then rtRbbBlkPut rbb b else none
  | .get => some (rtRbbBlkGet rbb).1
  | .free b => if b < rbb.blkMaxNum then rtRbbBlkFree rbb b else none
  | .queueGet queueDataLen => some (rtRbbBlkQueueGet rbb queueDataLen).1
  | .queueFree q => rtRbbBlkQueueFree rbb q

/-- After `rt_rbb_init`; like every object the buffer ends below the end of the addresses. -/
structure Initial (rbb : RtRbb) : Prop where
  space : rbb.buf + rbb.bufSize < 2 ^ 32
  blkList_eq : rbb.blkList = []
  unused : ∀ i < rbb.blkMaxNum, (rbb.blkSet i).status = .unused

def system : TransitionSystem RtRbb Event :=
  ofFunction Initial step

def RtRbbBlk.Covers (blk : RtRbbBlk) (address : Nat) : Prop :=
  blk.buf ≤ address ∧ address < blk.buf + blk.size

def RtRbb.InUse (rbb : RtRbb) (i : Nat) : Prop :=
  i < rbb.blkMaxNum ∧ (rbb.blkSet i).status ≠ .unused

instance (rbb : RtRbb) (i : Nat) : Decidable (rbb.InUse i) := instDecidableAnd

/-- The blocks in use lie inside the buffer and have no bytes in common. -/
structure Safe (rbb : RtRbb) : Prop where
  inside : ∀ i, rbb.InUse i → ∀ address, (rbb.blkSet i).Covers address →
    rbb.buf ≤ address ∧ address < rbb.buf + rbb.bufSize
  apart : ∀ i j, i ≠ j → rbb.InUse i → rbb.InUse j → ∀ address,
    ¬ ((rbb.blkSet i).Covers address ∧ (rbb.blkSet j).Covers address)

open CyclicIntervals

def RtRbbBlk.range (blk : RtRbbBlk) : Interval := ⟨blk.buf, blk.buf + blk.size⟩

namespace RtRbb

def ranges (rbb : RtRbb) : List Interval := rbb.blkList.map fun i => (rbb.blkSet i).range

def Clear (rbb : RtRbb) (start size : Nat) : Prop :=
  ∀ i < rbb.blkMaxNum, (rbb.blkSet i).status ≠ .unused → i ∉ rbb.blkList →
    size = 0 ∨ (rbb.blkSet i).size = 0 ∨ start + size ≤ (rbb.blkSet i).buf ∨
      (rbb.blkSet i).buf + (rbb.blkSet i).size ≤ start

instance (rbb : RtRbb) (start size : Nat) : Decidable (rbb.Clear start size) :=
  inferInstanceAs (Decidable (∀ i < rbb.blkMaxNum, _ → _ → _))

def Spans (rbb : RtRbb) (head tail : RtRbbBlk) : Prop :=
  ∀ i ∈ rbb.blkList, head.buf ≤ (rbb.blkSet i).buf ∧
    (rbb.blkSet i).buf + (rbb.blkSet i).size ≤ tail.buf + tail.size

instance (rbb : RtRbb) (head tail : RtRbbBlk) : Decidable (rbb.Spans head tail) :=
  inferInstanceAs (Decidable (∀ i ∈ rbb.blkList, _))

end RtRbb

def AllocFits (rbb : RtRbb) (blkSize : Nat) : Prop :=
  match rbb.ends with
  | none => blkSize ≤ rbb.bufSize ∧ rbb.Clear rbb.buf blkSize
  | some (head, tail) =>
    if head.buf ≤ tail.buf then
      rbb.Spans head tail ∧
        if tail.buf + tail.size + blkSize ≤ rbb.buf + rbb.bufSize then
          rbb.Clear (tail.buf + tail.size) blkSize
        else rbb.buf + blkSize ≤ head.buf → rbb.Clear rbb.buf blkSize
    else
      tail.buf + tail.size + blkSize ≤ head.buf → rbb.Clear (tail.buf + tail.size) blkSize

instance (rbb : RtRbb) (blkSize : Nat) : Decidable (AllocFits rbb blkSize) :=
  match ends : rbb.ends with
  | none => decidable_of_iff (blkSize ≤ rbb.bufSize ∧ rbb.Clear rbb.buf blkSize)
      (by simp [AllocFits, ends])
  | some (head, tail) => decidable_of_iff
      (if head.buf ≤ tail.buf then
        rbb.Spans head tail ∧
          if tail.buf + tail.size + blkSize ≤ rbb.buf + rbb.bufSize then
            rbb.Clear (tail.buf + tail.size) blkSize
          else rbb.buf + blkSize ≤ head.buf → rbb.Clear rbb.buf blkSize
      else tail.buf + tail.size + blkSize ≤ head.buf → rbb.Clear (tail.buf + tail.size) blkSize)
      (by simp only [AllocFits, ends])

def Fits (rbb : RtRbb) : Event → Prop
  | .alloc blkSize => findEmptyBlkInSet rbb ≠ none → AllocFits rbb blkSize
  | _ => True

instance (rbb : RtRbb) : (e : Event) → Decidable (Fits rbb e)
  | .alloc _ => inferInstanceAs (Decidable (_ → AllocFits _ _))
  | .put _ | .get | .free _ | .queueGet _ | .queueFree _ => .isTrue trivial

def Apart (a b : RtRbbBlk) : Prop :=
  a.size = 0 ∨ b.size = 0 ∨ a.buf + a.size ≤ b.buf ∨ b.buf + b.size ≤ a.buf

structure Inv (rbb : RtRbb) : Prop where
  space : rbb.buf + rbb.bufSize < 2 ^ 32
  linked : ∀ i ∈ rbb.blkList, rbb.InUse i
  nodup : rbb.blkList.Nodup
  inside : ∀ i, rbb.InUse i →
    rbb.buf ≤ (rbb.blkSet i).buf ∧
      (rbb.blkSet i).buf + (rbb.blkSet i).size ≤ rbb.buf + rbb.bufSize
  apart : ∀ i j, i ≠ j → rbb.InUse i → rbb.InUse j → Apart (rbb.blkSet i) (rbb.blkSet j)
  cyclic : Cyclic rbb.ranges

theorem Inv.safe {rbb : RtRbb} (inv : Inv rbb) : Safe rbb := by
  constructor
  · intro i inUse a covers
    have := inv.inside i inUse
    obtain ⟨above, below⟩ := covers
    omega
  · rintro i j ne inUse inUse' a ⟨covers, covers'⟩
    have := inv.apart i j ne inUse inUse'
    unfold Apart at this
    obtain ⟨above, below⟩ := covers
    obtain ⟨above', below'⟩ := covers'
    omega

theorem Initial.inv {rbb : RtRbb} (init : Initial rbb) : Inv rbb where
  space := init.space
  linked := by simp [init.blkList_eq]
  nodup := by simp [init.blkList_eq]
  inside i inUse := absurd (init.unused i inUse.1) inUse.2
  apart i j _ inUse _ := absurd (init.unused i inUse.1) inUse.2
  cyclic := by
    rw [RtRbb.ranges, init.blkList_eq]
    exact Ascending.cyclic .nil

structure Shrinks (rbb after : RtRbb) : Prop where
  buf_eq : after.buf = rbb.buf
  bufSize_eq : after.bufSize = rbb.bufSize
  blkMaxNum_eq : after.blkMaxNum = rbb.blkMaxNum
  place : ∀ i, (after.blkSet i).buf = (rbb.blkSet i).buf ∧
    (after.blkSet i).size = (rbb.blkSet i).size
  inUse : ∀ i, after.InUse i → rbb.InUse i
  sublist : after.blkList.Sublist rbb.blkList
  linked : rbb.blkList.Nodup → (∀ i ∈ rbb.blkList, rbb.InUse i) →
    ∀ i ∈ after.blkList, after.InUse i

namespace Shrinks

variable {rbb middle after : RtRbb}

theorem refl (rbb : RtRbb) : Shrinks rbb rbb :=
  ⟨rfl, rfl, rfl, fun _ => ⟨rfl, rfl⟩, fun _ => id, .refl _, fun _ linked => linked⟩

theorem trans (a : Shrinks rbb middle) (second : Shrinks middle after) : Shrinks rbb after where
  buf_eq := second.buf_eq.trans a.buf_eq
  bufSize_eq := second.bufSize_eq.trans a.bufSize_eq
  blkMaxNum_eq := second.blkMaxNum_eq.trans a.blkMaxNum_eq
  place i := ⟨(second.place i).1.trans (a.place i).1,
    (second.place i).2.trans (a.place i).2⟩
  inUse i inUse := a.inUse i (second.inUse i inUse)
  sublist := second.sublist.trans a.sublist
  linked nodup linked := second.linked (nodup.sublist a.sublist) (a.linked nodup linked)

theorem inv (shrinks : Shrinks rbb after) (inv : Inv rbb) : Inv after where
  space := by rw [shrinks.buf_eq, shrinks.bufSize_eq]; exact inv.space
  linked := shrinks.linked inv.nodup inv.linked
  nodup := inv.nodup.sublist shrinks.sublist
  inside i inUse := by
    rw [shrinks.buf_eq, shrinks.bufSize_eq, (shrinks.place i).1, (shrinks.place i).2]
    exact inv.inside i (shrinks.inUse i inUse)
  apart i j ne inUse inUse' := by
    unfold Apart
    rw [(shrinks.place i).1, (shrinks.place i).2, (shrinks.place j).1, (shrinks.place j).2]
    exact inv.apart i j ne (shrinks.inUse i inUse) (shrinks.inUse j inUse')
  cyclic := by
    have same : after.ranges = after.blkList.map fun i => (rbb.blkSet i).range := by
      apply List.map_congr_left
      intro i _
      rw [RtRbbBlk.range, (shrinks.place i).1, (shrinks.place i).2]
      rfl
    rw [same]
    exact inv.cyclic.sublist (shrinks.sublist.map _)

theorem setStatus {i : Nat} (inUse : (rbb.blkSet i).status ≠ .unused) {status : RtRbbStatus}
    (used : status ≠ .unused) : Shrinks rbb (rbb.setStatus i status) := by
  have place : ∀ j, ((rbb.setStatus i status).blkSet j).buf = (rbb.blkSet j).buf ∧
      ((rbb.setStatus i status).blkSet j).size = (rbb.blkSet j).size := by
    intro j
    rcases eq_or_ne j i with rfl | ne
    · simp [RtRbb.setStatus, RtRbb.setBlk]
    · simp [RtRbb.setStatus, RtRbb.setBlk, ne]
  have same : ∀ j, (rbb.setStatus i status).InUse j ↔ rbb.InUse j := by
    intro j
    rcases eq_or_ne j i with rfl | ne
    · simp [RtRbb.InUse, RtRbb.setStatus, RtRbb.setBlk, inUse, used]
    · simp [RtRbb.InUse, RtRbb.setStatus, RtRbb.setBlk, ne]
  exact ⟨rfl, rfl, rfl, place, fun j => (same j).mp, .refl _,
    fun _ linked j isIn => (same j).mpr (linked j isIn)⟩

theorem remove (rbb : RtRbb) (i : Nat) : Shrinks rbb (rbb.remove i) :=
  ⟨rfl, rfl, rfl, fun _ => ⟨rfl, rfl⟩, fun _ => id, List.erase_sublist,
    fun _ linked j isIn => linked j (List.mem_of_mem_erase isIn)⟩

theorem free (rbb : RtRbb) (i : Nat) : Shrinks rbb ((rbb.remove i).setStatus i .unused) := by
  refine ⟨rfl, rfl, rfl, ?_, ?_, List.erase_sublist, ?_⟩
  · intro j
    rcases eq_or_ne j i with rfl | ne
    · simp [RtRbb.setStatus, RtRbb.setBlk, RtRbb.remove]
    · simp [RtRbb.setStatus, RtRbb.setBlk, RtRbb.remove, ne]
  · intro j inUse
    rcases eq_or_ne j i with rfl | ne
    · simp [RtRbb.InUse, RtRbb.setStatus, RtRbb.setBlk] at inUse
    · simpa [RtRbb.InUse, RtRbb.setStatus, RtRbb.setBlk, RtRbb.remove, ne] using inUse
  · intro nodup linked j isIn
    obtain ⟨ne, isIn⟩ := nodup.mem_erase_iff.mp isIn
    simpa [RtRbb.InUse, RtRbb.setStatus, RtRbb.setBlk, RtRbb.remove, ne] using linked j isIn

theorem takeBlk {i : Nat} (isPut : (rbb.blkSet i).status = .put) : Shrinks rbb (takeBlk rbb i) := by
  refine (Shrinks.remove rbb i).trans (.setStatus ?_ (by simp))
  simp [RtRbb.remove, isPut]

theorem queueGetMore (rbb : RtRbb) (queueDataLen : Nat) (q : RtRbbBlkQueue)
    (lastBlock dataTotalSize : Nat) (blocks : List Nat) :
    Shrinks rbb (queueGetMore rbb queueDataLen q lastBlock dataTotalSize blocks).1 := by
  induction blocks generalizing rbb q lastBlock dataTotalSize with
  | nil => exact .refl rbb
  | cons b rest ih =>
    unfold RingBlock.queueGetMore
    split
    · exact .refl rbb
    · rename_i more
      exact (Shrinks.takeBlk (by tauto)).trans (ih ..)

theorem queueGetFirst (rbb : RtRbb) (queueDataLen : Nat) (blocks : List Nat) :
    Shrinks rbb (queueGetFirst rbb queueDataLen blocks).1 := by
  induction blocks with
  | nil => exact .refl rbb
  | cons b rest ih =>
    unfold RingBlock.queueGetFirst
    split
    · next isPut => exact (Shrinks.takeBlk isPut).trans (queueGetMore ..)
    · exact ih

theorem queueFreeFrom {b n : Nat} (freed : queueFreeFrom rbb b n = some after) :
    Shrinks rbb after := by
  induction n generalizing rbb b with
  | zero =>
    cases freed
    exact .refl _
  | succ n ih =>
    simp only [RingBlock.queueFreeFrom, Option.ite_none_right_eq_some,
      Option.bind_eq_some_iff] at freed
    obtain ⟨-, next, freed, rest⟩ := freed
    obtain ⟨-, ⟨⟩⟩ := Option.ite_none_right_eq_some.mp freed
    exact (Shrinks.free _ _).trans (ih rest)

end Shrinks

variable {head tail : RtRbbBlk}

section alloc

variable {rbb : RtRbb} {blkSize new start : Nat}

structure Free (rbb : RtRbb) (start blkSize : Nat) : Prop where
  inside : rbb.buf ≤ start ∧ start + blkSize ≤ rbb.buf + rbb.bufSize
  clear : rbb.Clear start blkSize
  linked : ∀ i ∈ rbb.blkList, (rbb.blkSet i).buf + (rbb.blkSet i).size ≤ start ∨
    start + blkSize ≤ (rbb.blkSet i).buf
  cyclic : Cyclic (rbb.ranges ++ [⟨start, start + blkSize⟩])

theorem RtRbb.ends_eq_some (ends : rbb.ends = some (head, tail)) :
    ∃ a last, rbb.blkList.head? = some a ∧ rbb.blkList.getLast? = some last ∧
      rbb.blkSet a = head ∧ rbb.blkSet last = tail := by
  unfold RtRbb.ends at ends
  split at ends
  · rename_i a last isFirst isLast
    cases ends
    exact ⟨a, last, isFirst, isLast, rfl, rfl⟩
  · simp at ends

theorem RtRbb.ends_eq_none (ends : rbb.ends = none) : rbb.blkList = [] := by
  unfold RtRbb.ends at ends
  cases list : rbb.blkList with
  | nil => rfl
  | cons a rest => simp [list, List.getLast?_cons] at ends

theorem Inv.ranges_ends (inv : Inv rbb) (ends : rbb.ends = some (head, tail)) :
    rbb.ranges.head? = some head.range ∧ rbb.ranges.getLast? = some tail.range ∧
      (rbb.buf ≤ head.buf ∧ head.buf + head.size ≤ rbb.buf + rbb.bufSize) ∧
      (rbb.buf ≤ tail.buf ∧ tail.buf + tail.size ≤ rbb.buf + rbb.bufSize) := by
  obtain ⟨a, last, isFirst, isLast, rfl, rfl⟩ := RtRbb.ends_eq_some ends
  refine ⟨?_, ?_, inv.inside a ?_, inv.inside last ?_⟩
  · rw [RtRbb.ranges, List.head?_map, isFirst]
    rfl
  · rw [RtRbb.ranges, List.getLast?_map, isLast]
    rfl
  · exact inv.linked a (List.mem_of_mem_head? isFirst)
  · exact inv.linked last (List.mem_of_mem_getLast? isLast)

theorem RtRbb.ranges_proper (rbb : RtRbb) : ∀ a ∈ rbb.ranges, a.start ≤ a.stop := by
  intro a isIn
  obtain ⟨i, -, rfl⟩ := List.mem_map.mp isIn
  exact Nat.le_add_right ..

theorem RtRbb.range_mem {i : Nat} (linked : i ∈ rbb.blkList) : (rbb.blkSet i).range ∈ rbb.ranges :=
  List.mem_map_of_mem linked

theorem Inv.free_behind (inv : Inv rbb) (ends : rbb.ends = some (head, tail))
    (spans : rbb.Spans head tail) (room : tail.buf + tail.size + blkSize ≤ rbb.buf + rbb.bufSize)
    (clear : rbb.Clear (tail.buf + tail.size) blkSize) :
    Free rbb (tail.buf + tail.size) blkSize := by
  obtain ⟨isFirst, isLast, -, tailInside⟩ := inv.ranges_ends ends
  have ascending : Ascending rbb.ranges := by
    refine inv.cyclic.ascending isFirst isLast ?_
    intro a isIn
    obtain ⟨i, linked, rfl⟩ := List.mem_map.mp isIn
    exact ⟨Nat.le_add_right .., spans i linked⟩
  have behind := ascending.le_last isLast rbb.ranges_proper
  refine ⟨⟨by omega, room⟩, clear, fun i linked => .inl (spans i linked).2, ?_⟩
  exact (ascending.append behind).cyclic

theorem Inv.free_below (inv : Inv rbb) (ends : rbb.ends = some (head, tail))
    (spans : rbb.Spans head tail) (room : rbb.buf + blkSize ≤ head.buf)
    (clear : rbb.Clear rbb.buf blkSize) : Free rbb rbb.buf blkSize := by
  obtain ⟨isFirst, isLast, headInside, -⟩ := inv.ranges_ends ends
  have ascending : Ascending rbb.ranges := by
    refine inv.cyclic.ascending isFirst isLast ?_
    intro a isIn
    obtain ⟨i, linked, rfl⟩ := List.mem_map.mp isIn
    exact ⟨Nat.le_add_right .., spans i linked⟩
  have above := ascending.first_le isFirst rbb.ranges_proper
  refine ⟨⟨le_rfl, by omega⟩, clear, fun i linked => .inr (room.trans (spans i linked).1), ?_⟩
  exact ascending.wrap fun a isIn => room.trans (above a isIn)

theorem Inv.free_between (inv : Inv rbb)
    (ends : rbb.ends = some (head, tail)) (room : tail.buf + tail.size + blkSize ≤ head.buf)
    (clear : rbb.Clear (tail.buf + tail.size) blkSize) :
    Free rbb (tail.buf + tail.size) blkSize := by
  obtain ⟨isFirst, isLast, headInside, tailInside⟩ := inv.ranges_ends ends
  have gap := inv.cyclic.gap isFirst isLast rbb.ranges_proper
  refine ⟨⟨by omega, by omega⟩, clear, ?_,
    inv.cyclic.fill isFirst isLast rbb.ranges_proper le_rfl room⟩
  intro i linked
  rcases gap _ (RtRbb.range_mem linked) with below | above
  · exact .inl below
  · exact .inr (room.trans above)

theorem placeFor_free (inv : Inv rbb) (fits : AllocFits rbb blkSize)
    (placed : placeFor rbb blkSize = some start) : Free rbb start blkSize := by
  have space := inv.space
  unfold placeFor at placed
  unfold AllocFits at fits
  cases ends : rbb.ends with
  | none =>
    rw [ends] at placed fits
    cases placed
    have empty := RtRbb.ends_eq_none ends
    refine ⟨⟨le_rfl, by omega⟩, fits.2, by simp [empty], ?_⟩
    rw [RtRbb.ranges, empty]
    exact Ascending.cyclic (List.pairwise_singleton _ _)
  | some both =>
    obtain ⟨head, tail⟩ := both
    rw [ends] at placed fits
    simp only at fits
    obtain ⟨isFirst, isLast, headInside, tailInside⟩ := inv.ranges_ends ends
    have behindTail : Word32.add tail.buf tail.size = tail.buf + tail.size :=
      Word32.add_eq (by omega)
    have bufferEnd : Word32.add rbb.buf rbb.bufSize = rbb.buf + rbb.bufSize := Word32.add_eq space
    simp only [behindTail, bufferEnd, Word32.sub_eq tailInside.2 space,
      Word32.sub_eq headInside.1 (by omega : head.buf < 2 ^ 32)] at placed
    split at placed
    · rename_i ordered
      rw [if_pos ordered] at fits
      obtain ⟨spans, fits⟩ := fits
      split at placed
      · rename_i room
        cases placed
        have room : tail.buf + tail.size + blkSize ≤ rbb.buf + rbb.bufSize := by omega
        rw [if_pos room] at fits
        exact inv.free_behind ends spans room fits
      · rename_i noRoom
        rw [if_neg (by omega)] at fits
        obtain ⟨room, ⟨⟩⟩ := Option.ite_none_right_eq_some.mp placed
        have room : rbb.buf + blkSize ≤ head.buf := by omega
        exact inv.free_below ends spans room (fits room)
    · rename_i wrapped
      rw [if_neg wrapped] at fits
      have before : tail.buf + tail.size ≤ head.buf :=
        inv.cyclic.stop_le_start isFirst isLast rbb.ranges_proper (not_le.mp wrapped)
      rw [Word32.sub_eq before (by omega)] at placed
      obtain ⟨room, ⟨⟩⟩ := Option.ite_none_right_eq_some.mp placed
      have room : tail.buf + tail.size + blkSize ≤ head.buf := by omega
      exact inv.free_between ends room (fits room)

theorem findEmptyBlkInSet_spec (found : findEmptyBlkInSet rbb = some new) :
    new < rbb.blkMaxNum ∧ (rbb.blkSet new).status = .unused := by
  have isUnused := List.find?_some found
  have inRange := List.mem_of_find?_eq_some found
  rw [decide_eq_true_eq] at isUnused
  exact ⟨List.mem_range.mp inRange, isUnused⟩

theorem Inv.placed (inv : Inv rbb) {after : RtRbb} {blk : RtRbbBlk} (buf_eq : after.buf = rbb.buf)
    (bufSize_eq : after.bufSize = rbb.bufSize) (blkMaxNum_eq : after.blkMaxNum = rbb.blkMaxNum)
    (blkList_eq : after.blkList = rbb.blkList ++ [new]) (self : after.blkSet new = blk)
    (others : ∀ i, i ≠ new → after.blkSet i = rbb.blkSet i) (new_lt : new < rbb.blkMaxNum)
    (unused : (rbb.blkSet new).status = .unused) (used : blk.status ≠ .unused)
    (free : Free rbb blk.buf blk.size) : Inv after := by
  have notLinked : new ∉ rbb.blkList := fun linked => (inv.linked new linked).2 unused
  have inUse : ∀ i, i ≠ new → (after.InUse i ↔ rbb.InUse i) := by
    intro i ne
    rw [RtRbb.InUse, RtRbb.InUse, blkMaxNum_eq, others i ne]
  have apartNew : ∀ i, i ≠ new → rbb.InUse i → Apart blk (rbb.blkSet i) := by
    intro i ne isInUse
    by_cases linked : i ∈ rbb.blkList
    · exact (free.linked i linked).elim (fun below => .inr (.inr (.inr below)))
        fun above => .inr (.inr (.inl above))
    · exact free.clear i isInUse.1 isInUse.2 linked
  refine ⟨by rw [buf_eq, bufSize_eq]; exact inv.space, ?_, ?_, ?_, ?_, ?_⟩
  · intro i isIn
    rw [blkList_eq] at isIn
    rcases List.mem_append.mp isIn with linked | isNew
    · have ne : i ≠ new := fun same => notLinked (same ▸ linked)
      exact (inUse i ne).mpr (inv.linked i linked)
    · rw [List.mem_singleton.mp isNew]
      exact ⟨blkMaxNum_eq ▸ new_lt, self ▸ used⟩
  · rw [blkList_eq]
    refine List.nodup_append.mpr ⟨inv.nodup, List.pairwise_singleton _ _, ?_⟩
    intro i linked j isNew
    rw [List.mem_singleton.mp isNew]
    exact fun same => notLinked (same ▸ linked)
  · intro i isInUse
    rw [buf_eq, bufSize_eq]
    rcases eq_or_ne i new with rfl | ne
    · rw [self]
      exact free.inside
    · rw [others i ne]
      exact inv.inside i ((inUse i ne).mp isInUse)
  · intro i j ne isInUse isInUse'
    rcases eq_or_ne i new with rfl | differsNew
    · rw [self, others j ne.symm]
      exact apartNew j ne.symm ((inUse j ne.symm).mp isInUse')
    · rw [others i differsNew]
      rcases eq_or_ne j new with rfl | differsNew'
      · rw [self]
        have apart := apartNew i differsNew ((inUse i differsNew).mp isInUse)
        unfold Apart at apart ⊢
        tauto
      · rw [others j differsNew']
        exact inv.apart i j ne ((inUse i differsNew).mp isInUse)
          ((inUse j differsNew').mp isInUse')
  · have same : rbb.blkList.map (fun i => (after.blkSet i).range) = rbb.ranges := by
      apply List.map_congr_left
      intro i linked
      rw [others i fun same => notLinked (same ▸ linked)]
    rw [RtRbb.ranges, blkList_eq, List.map_append, same, List.map_singleton, self]
    exact free.cyclic

end alloc

/-- A step links a new block, or takes blocks away and changes their status. -/
theorem step_effect {rbb after : RtRbb} {e : Event} (ran : step rbb e = some after) :
    Shrinks rbb after ∨ ∃ blkSize new start, e = .alloc blkSize ∧
      findEmptyBlkInSet rbb = some new ∧ placeFor rbb blkSize = some start ∧
      after = (rbb.append new).setBlk new ⟨.inited, blkSize, start⟩ := by
  cases e with
  | alloc blkSize =>
    obtain ⟨-, ⟨⟩⟩ := Option.ite_none_right_eq_some.mp ran
    unfold rtRbbBlkAlloc
    split
    · rename_i new found
      split
      · split
        · next start placed => exact .inr ⟨blkSize, new, start, rfl, found, placed, rfl⟩
        · exact .inl (.refl rbb)
      · exact .inl (.refl rbb)
    · exact .inl (.refl rbb)
  | put b =>
    simp only [step, rtRbbBlkPut, Option.ite_none_right_eq_some, Option.some.injEq] at ran
    obtain ⟨-, isInited, rfl⟩ := ran
    exact .inl (.setStatus (by simp [isInited]) (by simp))
  | get =>
    cases ran
    unfold rtRbbBlkGet
    split
    · rename_i b found
      have isPut := List.find?_some found
      rw [decide_eq_true_eq] at isPut
      exact .inl (.setStatus (by simp [isPut]) (by simp))
    · exact .inl (.refl rbb)
  | free b =>
    simp only [step, rtRbbBlkFree, Option.ite_none_right_eq_some, Option.some.injEq] at ran
    obtain ⟨-, -, rfl⟩ := ran
    exact .inl (.free rbb b)
  | queueGet queueDataLen =>
    cases ran
    exact .inl (.queueGetFirst rbb queueDataLen rbb.blkList)
  | queueFree q => exact .inl (.queueFreeFrom ran)

theorem step_inv {rbb after : RtRbb} {e : Event} (inv : Inv rbb) (fits : Fits rbb e)
    (ran : step rbb e = some after) : Inv after := by
  obtain shrinks | ⟨blkSize, new, start, rfl, found, placed, rfl⟩ := step_effect ran
  · exact shrinks.inv inv
  · obtain ⟨new_lt, unused⟩ := findEmptyBlkInSet_spec found
    have free := placeFor_free inv (fits (by simp [found])) placed
    exact inv.placed rfl rfl rfl rfl (Function.update_self ..)
      (fun i ne => Function.update_of_ne ne ..) new_lt unused (by simp) free

/-- In a run whose allocations all fit, the blocks in use stay inside the buffer and apart. -/
theorem safe_throughout {taken : List (Taken RtRbb Event)} {last : RtRbb}
    (run : system.Run taken last) (fits : EveryStep Fits taken) : Throughout Safe taken last := by
  have base : ∀ rbb : RtRbb, Initial rbb → Inv rbb := fun _ init => init.inv
  exact (run.throughout_of_everyStep base (fun _ _ _ inv fits ran => step_inv inv fits ran)
    fits).imp fun _ => Inv.safe

/-- A buffer of `bufSize` bytes and `blkMaxNum` blocks just initialised. -/
def fresh (bufSize blkMaxNum : Nat) : RtRbb where
  buf := 0x1000
  bufSize := bufSize
  blkSet _ := { status := .unused, size := 0, buf := 0 }
  blkMaxNum := blkMaxNum
  blkList := []

theorem fresh_initial {bufSize blkMaxNum : Nat} (space : 0x1000 + bufSize < 2 ^ 32) :
    Initial (fresh bufSize blkMaxNum) where
  space := space
  blkList_eq := rfl
  unused _ _ := rfl

theorem wrapped_safe : Throughout Safe (record step [] (fresh 100 4)
        [.alloc 40, .alloc 30, .alloc 20, .free 0, .alloc 35, .put 1, .queueGet 100, .free 1])
      ((execute step (fresh 100 4)
        [.alloc 40, .alloc 30, .alloc 20, .free 0, .alloc 35, .put 1, .queueGet 100,
          .free 1]).get (by decide +kernel)) :=
  safe_throughout (Run.execute (.start (fresh_initial (by decide)))
    (Option.some_get _).symm) (by decide +kernel)

/-- `rt_rbb_blk_queue_get` has emptied the list, but the block it took is still in use when
the next one is put at the start of the buffer too. -/
theorem queued_block_not_safe : ¬ ∀ (taken : List (Taken RtRbb Event)) (last : RtRbb),
      system.Run taken last → Throughout Safe taken last := by
  intro claim
  let events : List Event := [.alloc 40, .put 0, .queueGet 100, .alloc 30]
  have run : system.Run _ _ :=
    .executed (fresh 100 4) events (fresh_initial (by decide)) (by decide +kernel)
  have apart := (claim _ _ run).1.apart 0 1 (by decide)
  refine apart (by decide +kernel) (by decide +kernel) 0x1000 ?_
  exact ⟨⟨by decide +kernel, by decide +kernel⟩, ⟨by decide +kernel, by decide +kernel⟩⟩

end RtThread.RingBlock
