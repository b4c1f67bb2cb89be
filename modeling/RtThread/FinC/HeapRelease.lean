import RtThread.FinC.Heap

/-!
# Freeing a block, and the collection

A freed block is merged with the neighbours that are free, and no other block changes.
-/

namespace RtThread.FinshHeap

open Option (map_some filter_some map_none)

variable {heap : Heap} {bs front rear : List HeapBlock} {b first second : HeapBlock}

def usedBlocks (bs : List HeapBlock) : List HeapBlock := bs.filter (·.free = false)

theorem starts_false (bs : List HeapBlock) :
    starts false bs = (usedBlocks bs).map HeapBlock.start := rfl

@[simp] theorem usedBlocks_append :
    usedBlocks (front ++ rear) = usedBlocks front ++ usedBlocks rear := List.filter_append ..

theorem usedBlocks_cons_free (isFree : b.free = true) : usedBlocks (b :: rear) = usedBlocks rear :=
  List.filter_cons_of_neg (by simp [isFree])

theorem usedBlocks_cons_used (isUsed : b.free = false) :
    usedBlocks (b :: rear) = b :: usedBlocks rear :=
  List.filter_cons_of_pos (by simp [isUsed])

theorem starts_cons_free (isFree : b.free = true) :
    starts true (b :: rear) = b.start :: starts true rear := by
  rw [← isFree, starts_cons_self]

theorem starts_cons_used (isUsed : b.free = false) :
    starts false (b :: rear) = b.start :: starts false rear := by
  rw [← isUsed, starts_cons_self]

def joined (first second : HeapBlock) : HeapBlock :=
  { first with length := first.length + (second.length + headerSize) }

def joinAt (heap : Heap) (first second : Nat) (length : Nat) : Heap :=
  { heap with
    length := Function.update heap.length first length
    next := setNext heap.next first (heap.next second) }

theorem stop_joined (behind : first.stop = second.start) :
    (joined first second).stop = second.stop := by
  simp only [HeapBlock.stop, joined] at *
  omega

theorem Listed.join (listed : Listed heap (front ++ first :: second :: rear))
    (isFree : first.free = true) (nextFree : second.free = true) :
    Listed (joinAt heap first.start second.start (first.length + (second.length + headerSize)))
      (front ++ joined first second :: rear) := by
  obtain ⟨middle, isFront, isFirst, isSecond, isRear⟩ := tiled_append.mp listed.tiled
  have tiled : Tiled 0 (front ++ joined first second :: rear) finshHeapMax :=
    tiled_append.mpr ⟨middle, isFront, isFirst, by rwa [stop_joined isSecond.symm]⟩
  have isMember : joined first second ∈ front ++ joined first second :: rear := by simp
  have free := listed.free
  have nodup : (starts true (front ++ first :: second :: rear)).Nodup := listed.tiled.nodup
  rw [starts_append, starts_cons_free isFree, starts_cons_free nextFree, List.append_cons]
    at free nodup
  refine ⟨tiled, fun u mem => ?_, ?_, ?_⟩
  · by_cases same : u.start = first.start
    · obtain rfl := tiled.eq_of_start mem isMember same
      exact Function.update_self ..
    · refine (Function.update_of_ne same ..).trans (listed.length u ?_)
      rcases List.mem_append.mp mem with inFront | later
      · exact List.mem_append_left _ inFront
      · rcases List.mem_cons.mp later with rfl | inRear
        · exact absurd rfl same
        · simp [inRear]
  · rw [starts_append, @starts_cons_free _ (joined first second) isFree, List.append_cons]
    exact free.unlink nodup (by simp)
  · have used := listed.used
    rw [starts_append, starts_cons_of_ne (by simp [isFree]),
      starts_cons_of_ne (by simp [nextFree])] at used
    rw [starts_append, @starts_cons_of_ne _ (joined first second) _ (by simp [joined, isFree])]
    refine used.update (fun inUsed => ?_) _
    refine listed.tiled.disjoint (mem_starts.mpr ⟨first, by simp, isFree, rfl⟩) ?_
    simpa [starts_cons_of_ne, isFree, nextFree] using inUsed

theorem Listed.stop_eq (listed : Listed heap bs) (mem : b ∈ bs) : heap.stop b.start = b.stop := by
  simp only [Heap.stop, HeapBlock.stop, listed.length b mem]

theorem Listed.previous (listed : Listed heap (front ++ b :: rear)) :
    ((starts true front).getLast?.filter fun prev => heap.stop prev = b.start) =
      (front.getLast?.filter (·.free)).map HeapBlock.start := by
  cases front.eq_nil_or_concat with
  | inl empty =>
    subst empty
    rfl
  | inr concat =>
    obtain ⟨others, last, isConcat⟩ := concat
    rw [List.concat_eq_append] at isConcat
    subst isConcat
    obtain ⟨middle, isFront, isBlock, -⟩ := tiled_append.mp listed.tiled
    obtain ⟨u, -, rfl, isMiddle⟩ := tiled_append.mp isFront
    have meets : last.stop = b.start := isMiddle.trans isBlock.symm
    cases isFree : last.free with
    | true =>
      have isLast : starts true (others ++ [last]) = starts true others ++ [last.start] := by
        rw [starts_append, starts_cons_free isFree]
        rfl
      have stops : heap.stop last.start = b.start := (listed.stop_eq (by simp)).trans meets
      simp only [isLast, List.getLast?_concat, filter_some, stops, isFree, decide_true,
        if_true, map_some]
    | false =>
      have before : starts true (others ++ [last]) = starts true others := by
        rw [starts_append, starts_cons_of_ne (by simp [isFree])]
        exact List.append_nil _
      rw [before]
      simp only [List.getLast?_concat, filter_some, isFree]
      refine Option.filter_eq_none_iff.mpr fun n isLast => ?_
      obtain ⟨earlier, inOthers, -, rfl⟩ := mem_starts.mp (List.mem_of_getLast? isLast)
      rw [listed.stop_eq (by simp [inOthers])]
      have apart := List.pairwise_append.mp
        (List.pairwise_append.mp listed.tiled.pairwise).1
      have le := apart.2.2 earlier inOthers last (by simp)
      have less := last.start_lt_stop
      simp only [decide_eq_true_eq]
      omega

theorem Listed.following (listed : Listed heap (front ++ b :: rear)) :
    ((starts true rear).head?.filter fun next => heap.stop b.start = next) =
      (rear.head?.filter (·.free)).map HeapBlock.start := by
  cases rear with
  | nil => rfl
  | cons second rear =>
    obtain ⟨middle, -, -, isSecond, -⟩ := tiled_append.mp listed.tiled
    rw [listed.stop_eq (by simp)]
    cases isFree : second.free with
    | true =>
      simp only [starts_cons_free isFree, List.head?_cons, filter_some, isSecond, isFree,
        decide_true, if_true, map_some]
    | false =>
      rw [starts_cons_of_ne (by simp [isFree])]
      simp only [List.head?_cons, filter_some, isFree]
      refine Option.filter_eq_none_iff.mpr fun n isHead => ?_
      obtain ⟨later, inRear, -, rfl⟩ := mem_starts.mp (List.mem_of_mem_head? isHead)
      have apart := (List.pairwise_append.mp listed.tiled.pairwise).2.1
      have le := (List.pairwise_cons.mp (List.pairwise_cons.mp apart).2).1 later inRear
      have less := second.start_lt_stop
      simp only [decide_eq_true_eq]
      omega

theorem previous_eq {links : Links} {lower upper : List Nat} {header : Nat}
    (chain : Chain links.next links.list (lower ++ header :: upper))
    (nodup : (lower ++ header :: upper).Nodup)
    (short : (lower ++ header :: upper).length ≤ finshHeapMax) :
    (if links.list = some header then some none
      else walk links.next (fun node => links.next node = some header) finshHeapMax links.list) =
      some lower.getLast? := by
  cases lower.eq_nil_or_concat with
  | inl empty =>
    subst empty
    simp [chain.1]
  | inr concat =>
    obtain ⟨front, last, isConcat⟩ := concat
    rw [List.concat_eq_append] at isConcat
    subst isConcat
    have absent := absent_of_nodup nodup
    rw [if_neg (list_ne_of_absent chain absent)]
    have walked := chain.walk_eq (fun node => decide (links.next node = some header)) short
    rw [List.append_assoc, List.singleton_append] at walked chain
    rw [walked, find?_last chain
      (fun node following isNext inside => by
        simpa [isNext] using fun same : following = header => absent (same ▸ inside))
      (by simp [next_eq_head? chain])]
    simp

/-- What is left of the blocks once `b` has been freed and merged. -/
def mergedBlocks (front : List HeapBlock) (b : HeapBlock) (rear : List HeapBlock) :
    List HeapBlock :=
  match front.getLast?.filter (·.free), rear.head?.filter (·.free) with
  | some prev, some next => front.dropLast ++ joined (joined prev b) next :: rear.tail
  | some prev, none => front.dropLast ++ joined prev b :: rear
  | none, some next => front ++ joined b next :: rear.tail
  | none, none => front ++ b :: rear

theorem previous_cases (front : List HeapBlock) :
    (∃ others prev, front = others ++ [prev] ∧ prev.free = true ∧
      front.getLast?.filter (·.free) = some prev) ∨
    (front.getLast?.filter (·.free) = none ∧ ∀ last ∈ front.getLast?, last.free = false) := by
  cases front.eq_nil_or_concat with
  | inl empty => exact .inr (by simp [empty])
  | inr concat =>
    obtain ⟨others, prev, isConcat⟩ := concat
    rw [List.concat_eq_append] at isConcat
    cases isFree : prev.free with
    | true => exact .inl ⟨others, prev, isConcat, isFree, by simp [isConcat, isFree]⟩
    | false => exact .inr (by simp [isConcat, isFree])

theorem following_cases (rear : List HeapBlock) :
    (∃ next others, rear = next :: others ∧ next.free = true ∧
      rear.head?.filter (·.free) = some next) ∨
    (rear.head?.filter (·.free) = none ∧ ∀ next ∈ rear.head?, next.free = false) := by
  cases rear with
  | nil => exact .inr (by simp)
  | cons next others =>
    cases isFree : next.free with
    | true => exact .inl ⟨next, others, rfl, isFree, by simp [isFree]⟩
    | false => exact .inr (by simp [isFree])

theorem Listed.merge (listed : Listed heap (front ++ b :: rear)) (isFree : b.free = true) :
    ∃ s', finshBlockMerge heap b.start = some s' ∧
      Listed s' (mergedBlocks front b rear) ∧ s'.bytes = heap.bytes := by
  have chain := listed.free
  have nodup : (starts true (front ++ b :: rear)).Nodup := listed.tiled.nodup
  have short : (starts true (front ++ b :: rear)).length ≤ finshHeapMax := listed.tiled.short
  rw [starts_append, starts_cons_free isFree] at chain nodup short
  have searched := @previous_eq ⟨heap.next, heap.freeList⟩ _ _ _ chain nodup short
  have previous := listed.previous
  have following := listed.following
  have isLength := listed.length b (by simp)
  simp only [finshBlockMerge, searched, next_eq_head? chain, previous, following, mergedBlocks]
  rcases previous_cases front with ⟨others, prev, rfl, prevFree, isPrev⟩ | ⟨isPrev, -⟩ <;>
    rcases following_cases rear with ⟨next, behind, rfl, nextFree, isNext⟩ | ⟨isNext, -⟩ <;>
    simp only [isPrev, isNext, map_some, map_none, Option.some.injEq,
      exists_eq_left', List.dropLast_concat, and_true]
  · rw [List.append_assoc, List.singleton_append] at listed
    have prevLength := listed.length prev (by simp)
    have nextLength := listed.length next (by simp)
    have both := (listed.join prevFree isFree).join prevFree nextFree
    have ne : next.start ≠ prev.start := by
      have apart := (List.pairwise_append.mp listed.tiled.pairwise).2.1
      have le := (List.pairwise_cons.mp apart).1 next (by simp)
      exact (prev.start_lt_stop.trans_le le).ne'
    have sum : prev.length + (b.length + next.length + 2 * headerSize) =
        prev.length + (b.length + headerSize) + (next.length + headerSize) := by omega
    simp only [joinAt, setNext, joined, Function.update_idem, Function.update_of_ne ne] at both
    rw [isLength, prevLength, nextLength, sum]
    exact both
  · rw [List.append_assoc, List.singleton_append] at listed
    rw [isLength, listed.length prev (by simp), ← next_eq_head? chain]
    exact listed.join prevFree isFree
  · rw [isLength, listed.length next (by simp)]
    exact listed.join isFree nextFree
  · exact listed

theorem usedBlocks_mergedBlocks (isFree : b.free = true) :
    usedBlocks (mergedBlocks front b rear) = usedBlocks front ++ usedBlocks rear := by
  have joinedFree : ∀ second, (joined b second).free = true := fun _ => isFree
  rcases previous_cases front with ⟨others, prev, rfl, prevFree, isPrev⟩ | ⟨isPrev, -⟩ <;>
    rcases following_cases rear with ⟨next, behind, rfl, nextFree, isNext⟩ | ⟨isNext, -⟩ <;>
    simp only [mergedBlocks, isPrev, isNext, List.tail_cons,
      usedBlocks_append]
  · rw [usedBlocks_cons_free (show (joined (joined prev b) next).free = true from prevFree),
      usedBlocks_cons_free prevFree, usedBlocks_cons_free nextFree]
    simp [usedBlocks]
  · rw [usedBlocks_cons_free (show (joined prev b).free = true from prevFree),
      usedBlocks_cons_free prevFree]
    simp [usedBlocks]
  · rw [usedBlocks_cons_free (joinedFree next), usedBlocks_cons_free nextFree]
  · rw [usedBlocks_cons_free isFree]

theorem Apart.insert (isFront : Apart front) (isRear : Apart rear)
    (before : ∀ last ∈ front.getLast?, last.free = false)
    (behind : ∀ next ∈ rear.head?, next.free = false) : Apart (front ++ b :: rear) := by
  refine List.isChain_append.mpr ⟨isFront, List.isChain_cons.mpr ⟨?_, isRear⟩, ?_⟩
  · exact fun next isNext both => by simp [behind next isNext] at both
  · exact fun last isLast _ _ both => by simp [before last isLast] at both

theorem Apart.of_concat (apart : Apart (front ++ [b])) (isFree : b.free = true) :
    Apart front ∧ ∀ last ∈ front.getLast?, last.free = false := by
  obtain ⟨isFront, -, across⟩ := List.isChain_append.mp apart
  refine ⟨isFront, fun last isLast => ?_⟩
  simpa [isFree] using across last isLast b rfl

theorem Apart.of_cons (apart : Apart (b :: rear)) (isFree : b.free = true) :
    Apart rear ∧ ∀ next ∈ rear.head?, next.free = false := by
  obtain ⟨notBoth, isRear⟩ := List.isChain_cons.mp apart
  refine ⟨isRear, fun next isNext => ?_⟩
  simpa [isFree] using notBoth next isNext

theorem Apart.merged (isFront : Apart front) (isRear : Apart rear) :
    Apart (mergedBlocks front b rear) := by
  rcases previous_cases front with ⟨others, prev, rfl, prevFree, isPrev⟩ | ⟨isPrev, before⟩ <;>
    rcases following_cases rear with ⟨next, later, rfl, nextFree, isNext⟩ | ⟨isNext, behind⟩ <;>
    simp only [mergedBlocks, isPrev, isNext, List.dropLast_concat]
  · obtain ⟨isFront, before⟩ := isFront.of_concat prevFree
    obtain ⟨isRear, behind⟩ := isRear.of_cons nextFree
    exact .insert isFront isRear before behind
  · obtain ⟨isFront, before⟩ := isFront.of_concat prevFree
    exact .insert isFront isRear before behind
  · obtain ⟨isRear, behind⟩ := isRear.of_cons nextFree
    exact .insert isFront isRear before behind
  · exact .insert isFront isRear before behind

theorem top_of_free (isFree : b.free = true) (top : ∀ last ∈ rear.getLast?, last.free = true) :
    ∃ last, (front ++ b :: rear).getLast? = some last ∧ last.free = true := by
  cases isLast : rear.getLast? with
  | none =>
    obtain rfl := List.getLast?_eq_none_iff.mp isLast
    exact ⟨b, by simp, isFree⟩
  | some last => exact ⟨last, by simp [List.getLast?_cons, isLast], top last isLast⟩

theorem getLast?_of_cons {later : List HeapBlock} {last next : HeapBlock}
    (isLast : last ∈ later.getLast?) : last ∈ (next :: later).getLast? := by
  rw [Option.mem_def] at isLast ⊢
  rw [List.getLast?_cons, isLast, Option.getD_some]

theorem top_mergedBlocks (isFree : b.free = true) (top : ∀ last ∈ rear.getLast?, last.free = true) :
    ∃ last, (mergedBlocks front b rear).getLast? = some last ∧ last.free = true := by
  rcases previous_cases front with ⟨others, prev, rfl, prevFree, isPrev⟩ | ⟨isPrev, -⟩ <;>
    rcases following_cases rear with ⟨next, later, rfl, nextFree, isNext⟩ | ⟨isNext, -⟩ <;>
    simp only [mergedBlocks, isPrev, isNext]
  · exact top_of_free prevFree fun last isLast => top last (getLast?_of_cons isLast)
  · exact top_of_free prevFree top
  · exact top_of_free isFree fun last isLast => top last (getLast?_of_cons isLast)
  · exact top_of_free isFree top

theorem Holds.top_behind (holds : Holds heap (front ++ b :: rear)) (isUsed : b.free = false) :
    (∀ last ∈ rear.getLast?, last.free = true) ∧ starts true rear ≠ [] := by
  obtain ⟨last, isLast, lastFree⟩ := holds.top
  cases isTop : rear.getLast? with
  | none =>
    obtain rfl := List.getLast?_eq_none_iff.mp isTop
    obtain rfl : b = last := by simpa using isLast
    exact absurd (isUsed.symm.trans lastFree) (by decide)
  | some u =>
    obtain rfl : u = last := by simpa [List.getLast?_cons, isTop] using isLast
    refine ⟨by simpa using lastFree, fun empty => ?_⟩
    have inFree := mem_starts.mpr ⟨u, List.mem_of_getLast? isTop, lastFree, rfl⟩
    simp [empty] at inFree

theorem finshHeapFree_spec (holds : Holds heap (front ++ b :: rear)) (isUsed : b.free = false) :
    ∃ s' bs, finshHeapFree heap (finshBlockGetData b.start) = some s' ∧
      Holds s' bs ∧ usedBlocks bs = usedBlocks front ++ usedBlocks rear ∧
      s'.bytes = heap.bytes := by
  have tiled := holds.tiled.flag true
  have used := holds.used
  have nodupUsed : (starts false (front ++ b :: rear)).Nodup := holds.tiled.nodup
  have shortUsed : (starts false (front ++ b :: rear)).length ≤ finshHeapMax := holds.tiled.short
  rw [starts_append, starts_cons_used isUsed] at used nodupUsed shortUsed
  obtain ⟨removed, isRemoved, used, kept⟩ := @remove_spec ⟨heap.next, heap.allocateList⟩ _ _ _
    used nodupUsed shortUsed
  have disjoint := fun n => @Tiled.disjoint _ holds.tiled n
  rw [starts_append, starts_append, starts_cons_used isUsed,
    starts_cons_of_ne (by simp [isUsed])] at disjoint
  have free : Chain removed.next heap.freeList (starts true front ++ starts true rear) := by
    have free := holds.free
    rw [starts_append, starts_cons_of_ne (by simp [isUsed])] at free
    refine free.congr fun n inFree => kept n (fun inFront => ?_) fun same => ?_
    · exact disjoint n inFree (List.mem_append_left _ inFront)
    · exact disjoint n inFree (by simp [same])
  have nodupFree : (starts true (front ++ b :: rear)).Nodup := holds.tiled.nodup
  have shortFree : (starts true (front ++ b :: rear)).length ≤ finshHeapMax := holds.tiled.short
  rw [starts_append, starts_cons_of_ne (by simp [isUsed])] at nodupFree shortFree
  obtain ⟨below, above⟩ := @Tiled.around _ _ _ _ _ true holds.tiled
  obtain ⟨topFree, topLater⟩ := holds.top_behind isUsed
  obtain ⟨inserted, isInserted, free, kept'⟩ := @insert_spec ⟨removed.next, heap.freeList⟩ _ _
    b.start free nodupFree below
    (fun n inRear => b.start_lt_stop.trans_le (above n inRear)) shortFree
    (fun none => absurd none topLater)
  have used : Chain inserted.next removed.list (starts false front ++ starts false rear) := by
    refine used.congr fun n inUsed => kept' n (fun inFront => ?_) fun same => ?_
    · refine disjoint n (List.mem_append_left _ inFront) ?_
      rcases List.mem_append.mp inUsed with inFront | inRear
      · exact List.mem_append_left _ inFront
      · exact List.mem_append_right _ (List.mem_cons_of_mem _ inRear)
    · have perm := @List.perm_middle _ b.start (starts false front) (starts false rear)
      exact (List.nodup_cons.mp (perm.nodup_iff.mp nodupUsed)).1 (same ▸ inUsed)
  have listed : Listed
      { heap with
        next := inserted.next
        freeList := inserted.list
        allocateList := removed.list }
      (front ++ { b with free := true } :: rear) := by
    refine ⟨tiled, fun u mem => ?_, ?_, ?_⟩
    · rcases List.mem_append.mp mem with inFront | later
      · exact holds.length u (List.mem_append_left _ inFront)
      · rcases List.mem_cons.mp later with rfl | inRear
        · exact holds.length b (by simp)
        · exact holds.length u (by simp [inRear])
    · rwa [starts_append, starts_cons_free rfl]
    · rwa [starts_append, starts_cons_of_ne (by simp)]
  obtain ⟨s', isMerged, listed, bytes⟩ := listed.merge rfl
  obtain ⟨isFront, isRear, -⟩ := List.isChain_append.mp holds.apart
  refine ⟨s', mergedBlocks front { b with free := true } rear, ?_,
    ⟨listed, top_mergedBlocks rfl topFree, .merged isFront (List.isChain_cons.mp isRear).2⟩,
    usedBlocks_mergedBlocks rfl, bytes⟩
  have isHeader : finshBlockGetHeader (finshBlockGetData b.start) = b.start := Nat.add_sub_cancel ..
  simp only [finshHeapFree, isHeader, isRemoved, isInserted]
  exact isMerged

variable {referenced : Nat → Bool}

def isReferenced (referenced : Nat → Bool) (b : HeapBlock) : Bool :=
  referenced (finshBlockGetData b.start)

theorem usedBlocks_eq_append_cons {kept later : List HeapBlock}
    (isUsed : usedBlocks bs = kept ++ b :: later) :
    ∃ front rear, bs = front ++ b :: rear ∧ b.free = false ∧
      usedBlocks front = kept ∧ usedBlocks rear = later := by
  obtain ⟨first, second, rfl, isFirst, isSecond⟩ := List.filter_eq_append_iff.mp isUsed
  obtain ⟨passed, rear, rfl, isPassed, isBlock, isRear⟩ := List.filter_eq_cons_iff.mp isSecond
  refine ⟨first ++ passed, rear, by simp, by simpa using isBlock, ?_, isRear⟩
  have none : usedBlocks passed = [] := List.filter_eq_nil_iff.mpr isPassed
  rw [usedBlocks_append, none, List.append_nil]
  exact isFirst

theorem gcFrom_spec {kept later : List HeapBlock} {fuel : Nat} (holds : Holds heap bs)
    (isUsed : usedBlocks bs = kept ++ later) (enough : later.length ≤ fuel) :
    ∃ s' blocks', gcFrom referenced fuel heap (later.head?.map HeapBlock.start) = some s' ∧
      Holds s' blocks' ∧ usedBlocks blocks' = kept ++ later.filter (isReferenced referenced) ∧
      s'.bytes = heap.bytes := by
  induction later generalizing heap bs kept fuel with
  | nil => exact ⟨heap, bs, by cases fuel <;> rfl, holds, isUsed, rfl⟩
  | cons b later ih =>
    cases fuel with
    | zero => simp at enough
    | succ fuel =>
      have enough : later.length ≤ fuel := by simpa using enough
      have link : heap.next b.start = later.head?.map HeapBlock.start := by
        have used := holds.used
        rw [starts_false, isUsed, List.map_append, List.map_cons] at used
        rw [next_eq_head? used, List.head?_map]
      simp only [List.head?_cons, map_some, gcFrom, link]
      cases isKept : referenced (finshBlockGetData b.start) with
      | true =>
        rw [List.append_cons] at isUsed
        obtain ⟨s', blocks', r, holds, used, bytes⟩ := ih holds isUsed enough
        refine ⟨s', blocks', by simpa using r, holds, ?_, bytes⟩
        rw [used, List.filter_cons_of_pos (by simpa [isReferenced] using isKept)]
        simp
      | false =>
        obtain ⟨front, rear, rfl, blockUsed, isFront, isRear⟩ := usedBlocks_eq_append_cons isUsed
        obtain ⟨middle, freed, isFreed, holds, used, bytes⟩ := finshHeapFree_spec holds blockUsed
        rw [isFront, isRear] at used
        obtain ⟨s', blocks', r, holds, used, bytes'⟩ := ih holds used enough
        refine ⟨s', blocks', by simpa [isFreed] using r, holds, ?_, bytes'.trans bytes⟩
        rw [used, List.filter_cons_of_neg (by simp [isReferenced, isKept])]

theorem finshHeapGc_spec (holds : Holds heap bs) :
    ∃ s' blocks', finshHeapGc referenced heap = some s' ∧ Holds s' blocks' ∧
      usedBlocks blocks' = (usedBlocks bs).filter (isReferenced referenced) ∧
      s'.bytes = heap.bytes := by
  have short : (starts false bs).length ≤ finshHeapMax := holds.tiled.short
  rw [starts_false, List.length_map] at short
  obtain ⟨s', blocks', result, kept⟩ :=
    @gcFrom_spec _ _ referenced [] (usedBlocks bs) finshHeapMax holds rfl short
  refine ⟨s', blocks', ?_, kept⟩
  rw [finshHeapGc, holds.used.start_eq_head?, starts_false, List.head?_map]
  exact result

end RtThread.FinshHeap
