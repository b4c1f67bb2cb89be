import RtThread.Drivers.RingBlock

/-!
# Block queues

`rt_rbb_blk_queue_get` describes the blocks it takes by the first of them and their number.
-/

open TransitionSystem

namespace RtThread.RingBlock

def rtRbbBlkQueueLen (rbb : RtRbb) (q : RtRbbBlkQueue) : Nat :=
  (List.range' q.blocks q.blkNum).foldl (fun len i => Word32.add len (rbb.blkSet i).size) 0

def rtRbbBlkQueueBuf (rbb : RtRbb) (q : RtRbbBlkQueue) : Nat := (rbb.blkSet q.blocks).buf

/-- The blocks that a call moves to `RT_RBB_BLK_GET`, oldest first. -/
def moved (rbb after : RtRbb) : List Nat :=
  rbb.blkList.filter fun i =>
    (rbb.blkSet i).status ≠ .get ∧ (after.blkSet i).status = .get

def Region (rbb : RtRbb) : (start : Nat) → List Nat → Prop
  | _, [] => True
  | start, b :: rest =>
    (rbb.blkSet b).buf = start ∧ Region rbb (Word32.add start (rbb.blkSet b).size) rest

/-- What a call that returns `n` bytes owes its caller. -/
structure Queued (rbb after : RtRbb) (queueDataLen : Nat) (q : RtRbbBlkQueue) (n : Nat) :
    Prop where
  within : n ≤ queueDataLen
  len_eq : rtRbbBlkQueueLen after q = n
  moved_eq : moved rbb after = List.range' q.blocks q.blkNum
  region : Region after (rtRbbBlkQueueBuf after q) (moved rbb after)
  bytes : ((moved rbb after).map fun i => (after.blkSet i).size).sum = n

/-- Where the loop goes on from `lastBlock` to a block, this is the next one in `blk_set`
and in the buffer, and the size does not become too large. -/
def Joins (rbb : RtRbb) (queueDataLen : Nat) : (lastBlock size : Nat) → List Nat → Prop
  | _, _, [] => True
  | lastBlock, size, b :: rest =>
    (rbb.blkSet b).status ≠ .put ∨ (rbb.blkSet b).buf < (rbb.blkSet lastBlock).buf ∨
      queueDataLen < Word32.add size (rbb.blkSet b).size ∨
      b = lastBlock + 1 ∧
        (rbb.blkSet b).buf = Word32.add (rbb.blkSet lastBlock).buf (rbb.blkSet lastBlock).size ∧
        size + (rbb.blkSet b).size ≤ queueDataLen ∧
        Joins rbb queueDataLen b (size + (rbb.blkSet b).size) rest

/-- The first block that is put is not too large, and what follows it joins. -/
def Fine (rbb : RtRbb) (queueDataLen : Nat) : List Nat → Prop
  | [] => True
  | b :: rest =>
    if (rbb.blkSet b).status = .put then
      (rbb.blkSet b).size ≤ queueDataLen ∧
        Joins rbb queueDataLen b (rbb.blkSet b).size rest
    else Fine rbb queueDataLen rest

structure Linked (rbb : RtRbb) : Prop where
  inUse : ∀ i ∈ rbb.blkList, rbb.InUse i
  nodup : rbb.blkList.Nodup

theorem linked_of_reachable {rbb : RtRbb} (reachable : system.Reachable rbb) : Linked rbb := by
  refine reachable.invariant ?_ ?_
  · intro rbb init
    exact ⟨by simp [init.blkList_eq], by simp [init.blkList_eq]⟩
  · intro rbb e after linked ran
    obtain shrinks | ⟨blkSize, new, start, -, found, -, rfl⟩ := step_effect ran
    · exact ⟨shrinks.linked linked.nodup linked.inUse, linked.nodup.sublist shrinks.sublist⟩
    · obtain ⟨new_lt, unused⟩ := findEmptyBlkInSet_spec found
      have notLinked : new ∉ rbb.blkList := fun mem => (linked.inUse new mem).2 unused
      refine ⟨fun i mem => ?_, ?_⟩
      · rcases List.mem_append.mp mem with mem | mem
        · have ne : i ≠ new := fun same => notLinked (same ▸ mem)
          simpa [RtRbb.InUse, RtRbb.setBlk, RtRbb.append, ne] using linked.inUse i mem
        · obtain rfl := List.mem_singleton.mp mem
          simpa [RtRbb.InUse, RtRbb.setBlk, RtRbb.append] using new_lt
      · exact List.nodup_append.mpr ⟨linked.nodup, List.pairwise_singleton _ _,
          fun i mem j isNew same => notLinked (List.mem_singleton.mp isNew ▸ same ▸ mem)⟩

/-- The blocks behind the first one that the loop takes. -/
def takes (rbb : RtRbb) (queueDataLen : Nat) : (lastBlock size : Nat) → List Nat → List Nat
  | _, _, [] => []
  | lastBlock, size, b :: rest =>
    if (rbb.blkSet b).status ≠ .put ∨ (rbb.blkSet b).buf < (rbb.blkSet lastBlock).buf ∨
        queueDataLen < Word32.add size (rbb.blkSet b).size then []
    else b :: takes rbb queueDataLen b (Word32.add size (rbb.blkSet b).size) rest

variable {list : List Nat} {size : Nat}

section takes

variable {rbb : RtRbb} {len : Nat}

theorem takeBlk_blkSet (b i : Nat) : (takeBlk rbb b).blkSet i =
    if i = b then { rbb.blkSet i with status := .get } else rbb.blkSet i := by
  by_cases same : i = b
  · subst same
    simp [takeBlk, RtRbb.setStatus, RtRbb.setBlk, RtRbb.remove]
  · simp [takeBlk, RtRbb.setStatus, RtRbb.setBlk, RtRbb.remove, same]

theorem takeAll_blkSet (taken : List Nat) (i : Nat) : (taken.foldl takeBlk rbb).blkSet i =
    if i ∈ taken then { rbb.blkSet i with status := .get } else rbb.blkSet i := by
  induction taken generalizing rbb with
  | nil => rfl
  | cons b rest ih =>
    rw [List.foldl_cons, ih, takeBlk_blkSet]
    by_cases same : i = b
    · simp [same]
    · simp [same]

theorem takes_congr {after : RtRbb} {lastBlock : Nat}
    (same : ∀ i ∈ list, after.blkSet i = rbb.blkSet i)
    (buf : (after.blkSet lastBlock).buf = (rbb.blkSet lastBlock).buf) :
    takes after len lastBlock size list = takes rbb len lastBlock size list := by
  induction list generalizing lastBlock size with
  | nil => rfl
  | cons b rest ih =>
    have sameBlk := same b List.mem_cons_self
    unfold takes
    rw [sameBlk, buf, ih (fun i mem => same i (List.mem_cons_of_mem _ mem)) (by rw [sameBlk])]

theorem takeBlk_size (b i : Nat) : ((takeBlk rbb b).blkSet i).size = (rbb.blkSet i).size := by
  rw [takeBlk_blkSet]
  split <;> rfl

theorem takes_takeBlk {b : Nat} (fresh : b ∉ list) :
    takes (takeBlk rbb b) len b size list = takes rbb len b size list :=
  takes_congr (fun i mem => by rw [takeBlk_blkSet, if_neg (ne_of_mem_of_not_mem mem fresh)])
    (by simp [takeBlk_blkSet])

theorem queueGetMore_eq {q : RtRbbBlkQueue} {lastBlock : Nat} (nodup : list.Nodup) :
    queueGetMore rbb len q lastBlock size list = let taken := takes rbb len lastBlock size list
      (taken.foldl takeBlk rbb, ⟨q.blocks, q.blkNum + taken.length⟩,
        taken.foldl (fun size i => Word32.add size (rbb.blkSet i).size) size) := by
  induction list generalizing rbb q lastBlock size with
  | nil => rfl
  | cons b rest ih =>
    obtain ⟨fresh, nodup⟩ := List.nodup_cons.mp nodup
    unfold queueGetMore takes
    split
    · rfl
    · rw [ih nodup, takes_takeBlk fresh]
      simp only [takeBlk_size]
      simp [Nat.add_assoc, Nat.add_comm 1]

theorem queueGetFirst_eq (nodup : list.Nodup) :
    queueGetFirst rbb len list = (rbb, none, 0) ∨
      ∃ front b rest, list = front ++ b :: rest ∧
        (∀ i ∈ front, (rbb.blkSet i).status ≠ .put) ∧ (rbb.blkSet b).status = .put ∧
        let taken := takes rbb len b (rbb.blkSet b).size rest
        queueGetFirst rbb len list = ((b :: taken).foldl takeBlk rbb, some ⟨b, 1 + taken.length⟩,
          taken.foldl (fun size i => Word32.add size (rbb.blkSet i).size) (rbb.blkSet b).size) := by
  induction list with
  | nil => exact .inl rfl
  | cons b rest ih =>
    obtain ⟨fresh, nodup⟩ := List.nodup_cons.mp nodup
    unfold queueGetFirst
    by_cases isPut : (rbb.blkSet b).status = .put
    · refine .inr ⟨[], b, rest, rfl, by simp, isPut, ?_⟩
      rw [if_pos isPut, queueGetMore_eq nodup]
      simp only [takes_takeBlk fresh, takeBlk_size, List.foldl_cons]
    · rw [if_neg isPut]
      obtain none | ⟨front, a, behind, rfl, notPut, isFirst, got⟩ := ih nodup
      · exact .inl none
      · refine .inr ⟨b :: front, a, behind, rfl, ?_, isFirst, got⟩
        intro i mem
        rcases List.mem_cons.mp mem with rfl | mem
        · exact isPut
        · exact notPut i mem

theorem takes_spec (rbb : RtRbb) (len lastBlock size : Nat) (list : List Nat) :
    takes rbb len lastBlock size list <+: list ∧
      ∀ i ∈ takes rbb len lastBlock size list, (rbb.blkSet i).status = .put := by
  induction list generalizing lastBlock size with
  | nil => simp [takes]
  | cons b rest ih =>
    unfold takes
    split
    · simp
    · obtain ⟨isPrefix, put⟩ := ih b (Word32.add size (rbb.blkSet b).size)
      refine ⟨(List.prefix_cons_inj b).mpr isPrefix, List.forall_mem_cons.mpr ⟨?_, put⟩⟩
      tauto

theorem moved_takeAll {front taken behind : List Nat} (nodup : rbb.blkList.Nodup)
    (list : rbb.blkList = front ++ taken ++ behind)
    (put : ∀ i ∈ taken, (rbb.blkSet i).status = .put) :
    moved rbb (taken.foldl takeBlk rbb) = taken := by
  have outside (part : List Nat) (apart : ∀ i ∈ part, i ∉ taken) :
      (part.filter fun i => decide ((rbb.blkSet i).status ≠ .get ∧
        ((taken.foldl takeBlk rbb).blkSet i).status = .get)) = [] := by
    refine List.filter_eq_nil_iff.mpr fun i mem => ?_
    rw [takeAll_blkSet, if_neg (apart i mem)]
    simp
  rw [list] at nodup
  obtain ⟨first, -, apart⟩ := List.nodup_append.mp nodup
  rw [moved, list, List.filter_append, List.filter_append,
    outside front fun i mem inTaken => (List.nodup_append.mp first).2.2 i mem i inTaken rfl,
    outside behind fun i mem inTaken =>
      apart i (List.mem_append_right _ inTaken) i mem rfl,
    List.nil_append, List.append_nil, List.filter_eq_self]
  intro i mem
  rw [takeAll_blkSet, if_pos mem]
  simp [put i mem]

theorem joins_iff {lastBlock : Nat} (fits : size ≤ len) (bounded : len < 2 ^ 32) :
    Joins rbb len lastBlock size list ↔ let taken := takes rbb len lastBlock size list
      taken = List.range' (lastBlock + 1) taken.length ∧
        Region rbb (Word32.add (rbb.blkSet lastBlock).buf (rbb.blkSet lastBlock).size) taken ∧
        size + (taken.map fun i => (rbb.blkSet i).size).sum ≤ len := by
  induction list generalizing lastBlock size with
  | nil => simpa [Joins, takes, Region] using fits
  | cons b rest ih =>
    unfold Joins takes
    by_cases stops : (rbb.blkSet b).status ≠ .put ∨
        (rbb.blkSet b).buf < (rbb.blkSet lastBlock).buf ∨
        len < Word32.add size (rbb.blkSet b).size
    · rw [if_pos stops]
      tauto
    · rw [if_neg stops]
      by_cases room : size + (rbb.blkSet b).size ≤ len
      · have sum : Word32.add size (rbb.blkSet b).size = size + (rbb.blkSet b).size :=
          Nat.mod_eq_of_lt (by omega)
        rw [sum]
        simp only [List.length_cons, List.range'_succ, List.cons.injEq, List.map_cons,
          List.sum_cons, ih room, ← Nat.add_assoc]
        constructor
        · rintro (notPut | below | large | ⟨rfl, buf, -, next, region, fits⟩)
          · exact absurd (.inl notPut) stops
          · exact absurd (.inr (.inl below)) stops
          · exact absurd (.inr (.inr (sum ▸ large))) stops
          · exact ⟨⟨rfl, next⟩, ⟨buf, buf ▸ region⟩, fits⟩
        · rintro ⟨⟨rfl, next⟩, ⟨buf, region⟩, fits⟩
          exact .inr (.inr (.inr ⟨rfl, buf, room, next, buf ▸ region, fits⟩))
      · have tooLarge (more : Nat) : ¬ size + ((rbb.blkSet b).size + more) ≤ len := by omega
        tauto

theorem foldl_sizes {taken : List Nat}
    (fits : size + (taken.map fun i => (rbb.blkSet i).size).sum < 2 ^ 32) :
    taken.foldl (fun size i => Word32.add size (rbb.blkSet i).size) size =
      size + (taken.map fun i => (rbb.blkSet i).size).sum := by
  induction taken generalizing size with
  | nil => rfl
  | cons b rest ih =>
    rw [List.map_cons, List.sum_cons] at *
    have sum : Word32.add size (rbb.blkSet b).size = size + (rbb.blkSet b).size :=
      Nat.mod_eq_of_lt (by omega)
    rw [List.foldl_cons, sum, ih (by omega)]
    omega

theorem region_congr {after : RtRbb} {start : Nat}
    (same : ∀ i, (after.blkSet i).buf = (rbb.blkSet i).buf ∧
      (after.blkSet i).size = (rbb.blkSet i).size) :
    Region after start list ↔ Region rbb start list := by
  induction list generalizing start with
  | nil => rfl
  | cons b rest ih => rw [Region, Region, (same b).1, (same b).2, ih]

theorem queued_takeAll {front taken behind : List Nat} {b : Nat} (nodup : rbb.blkList.Nodup)
    (list : rbb.blkList = front ++ b :: taken ++ behind)
    (put : ∀ i ∈ b :: taken, (rbb.blkSet i).status = .put) (bounded : len < 2 ^ 32) :
    Queued rbb ((b :: taken).foldl takeBlk rbb) len ⟨b, 1 + taken.length⟩
        (taken.foldl (fun size i => Word32.add size (rbb.blkSet i).size) (rbb.blkSet b).size) ↔
      taken = List.range' (b + 1) taken.length ∧
        Region rbb (Word32.add (rbb.blkSet b).buf (rbb.blkSet b).size) taken ∧
        (rbb.blkSet b).size + (taken.map fun i => (rbb.blkSet i).size).sum ≤ len := by
  have moved_eq := moved_takeAll nodup list put
  have same (i : Nat) : (((b :: taken).foldl takeBlk rbb).blkSet i).buf = (rbb.blkSet i).buf ∧
      (((b :: taken).foldl takeBlk rbb).blkSet i).size = (rbb.blkSet i).size := by
    rw [takeAll_blkSet]
    split <;> simp
  generalize (b :: taken).foldl takeBlk rbb = after at *
  have bytes : ((b :: taken).map fun i => (after.blkSet i).size).sum =
      (rbb.blkSet b).size + (taken.map fun i => (rbb.blkSet i).size).sum := by
    simp [(same _).2]
  have region : Region after (rtRbbBlkQueueBuf after ⟨b, 1 + taken.length⟩) (b :: taken) ↔
      Region rbb (Word32.add (rbb.blkSet b).buf (rbb.blkSet b).size) taken := by
    rw [region_congr same, Region, rtRbbBlkQueueBuf, (same b).1]
    exact and_iff_right rfl
  have ordered : b :: taken = List.range' b (1 + taken.length) ↔
      taken = List.range' (b + 1) taken.length := by
    rw [Nat.add_comm, List.range'_succ, List.cons.injEq]
    exact and_iff_right rfl
  constructor
  · rintro ⟨within, -, isMoved, isRegion, isBytes⟩
    rw [moved_eq] at isMoved isRegion isBytes
    exact ⟨ordered.mp isMoved, region.mp isRegion, bytes ▸ isBytes ▸ within⟩
  · rintro ⟨isOrdered, isRegion, isWithin⟩
    rw [foldl_sizes (by omega)]
    refine ⟨isWithin, ?_, by rw [moved_eq]; exact ordered.mpr isOrdered,
      by rw [moved_eq]; exact region.mpr isRegion, by rw [moved_eq, bytes]⟩
    rw [rtRbbBlkQueueLen, ← ordered.mpr isOrdered, foldl_sizes (by omega), bytes, Nat.zero_add]

end takes

/-- A call gives its caller what it returns just when the blocks it takes follow each other
in `blk_set` and in the buffer, and not even the first is larger than allowed. -/
theorem queued_iff {rbb : RtRbb} (reachable : system.Reachable rbb) (len : BitVec 32)
    (ret : 0 < (rtRbbBlkQueueGet rbb len.toNat).2.2) :
    ∃ q, (rtRbbBlkQueueGet rbb len.toNat).2.1 = some q ∧
      (Queued rbb (rtRbbBlkQueueGet rbb len.toNat).1 len.toNat q
        (rtRbbBlkQueueGet rbb len.toNat).2.2 ↔ Fine rbb len.toNat rbb.blkList) := by
  have linked := linked_of_reachable reachable
  have bounded := len.isLt
  generalize len.toNat = len at *
  unfold rtRbbBlkQueueGet at *
  obtain none | ⟨front, b, rest, list, notPut, isPut, got⟩ := queueGetFirst_eq linked.nodup
  · rw [none] at ret
    cases ret
  have fine : Fine rbb len rbb.blkList ↔ (rbb.blkSet b).size ≤ len ∧
      Joins rbb len b (rbb.blkSet b).size rest := by
    rw [list]
    clear list got
    induction front with
    | nil => simp [Fine, isPut]
    | cons i front ih =>
      rw [List.cons_append, Fine, if_neg (notPut i List.mem_cons_self)]
      exact ih fun i mem => notPut i (List.mem_cons_of_mem _ mem)
  obtain ⟨⟨behind, rest_eq⟩, put⟩ := takes_spec rbb len b (rbb.blkSet b).size rest
  have whole : rbb.blkList = front ++ b :: takes rbb len b (rbb.blkSet b).size rest ++ behind := by
    rw [list, List.append_assoc, List.cons_append, rest_eq]
  have queued := queued_takeAll linked.nodup whole (List.forall_mem_cons.mpr ⟨isPut, put⟩) bounded
  rw [got]
  refine ⟨_, rfl, queued.trans ?_⟩
  rw [fine]
  constructor
  · intro joined
    have fits : (rbb.blkSet b).size ≤ len := by omega
    exact ⟨fits, (joins_iff fits bounded).mpr joined⟩
  · exact fun ⟨fits, joined⟩ => (joins_iff fits bounded).mp joined

def twoBlocks : RtRbb :=
  (execute step (fresh 100 4) [.alloc 40, .alloc 30, .put 0, .put 1]).get (by decide +kernel)

theorem twoBlocks_reachable : system.Reachable twoBlocks :=
  ⟨_, Run.execute (.start (fresh_initial (by decide))) (Option.some_get _).symm⟩

theorem twoBlocks_queued : ∃ q, (rtRbbBlkQueueGet twoBlocks 100).2.1 = some q ∧
    (Queued twoBlocks (rtRbbBlkQueueGet twoBlocks 100).1 100 q
      (rtRbbBlkQueueGet twoBlocks 100).2.2 ↔ Fine twoBlocks 100 twoBlocks.blkList) :=
  queued_iff twoBlocks_reachable 100 (by decide +kernel)

theorem large_block_queued : ¬ ∀ rbb, system.Reachable rbb → ∀ len : BitVec 32,
    0 < (rtRbbBlkQueueGet rbb len.toNat).2.2 → ∃ q, (rtRbbBlkQueueGet rbb len.toNat).2.1 = some q ∧
        Queued rbb (rtRbbBlkQueueGet rbb len.toNat).1 len.toNat q
          (rtRbbBlkQueueGet rbb len.toNat).2.2 := by
  intro claim
  obtain ⟨q, -, queued⟩ := claim twoBlocks twoBlocks_reachable 10 (by decide +kernel)
  exact absurd queued.within (by decide +kernel)

end RtThread.RingBlock
