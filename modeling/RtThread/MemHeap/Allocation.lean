import RtThread.MemHeap.FreeList

/-!
# `rt_memheap_alloc` keeps the invariant

The search stops at an item of the free list; what follows cuts its block to the size, or
takes the whole block.
-/

namespace RtThread.MemHeap

variable {cfg : Config} {heap : Heap} {memory : Memory} {places : Set Nat}
  {bs front rear : List Block} {b : Block} {free : List Nat}

theorem search_found {freeList n turns headerPtr freeSize x found : Nat}
    (ring : memory.links.IsRing (freeList :: free : List Nat))
    (inRing : headerPtr ∈ freeList :: free)
    (seen : freeSize < n ∨ (headerPtr ∈ free ∧ freeSize = memory.memitemSize cfg headerPtr))
    (result : search cfg freeList memory n turns headerPtr freeSize = some (x, found))
    (enough : n ≤ found) : x ∈ free ∧ found = memory.memitemSize cfg x := by
  induction turns generalizing headerPtr freeSize with
  | zero => simp [search] at result
  | succ turns ih =>
    simp only [search] at result
    split at result
    · rename_i more
      have inFree : headerPtr ∈ free := (List.mem_cons.mp inRing).resolve_left more.1
      split at result
      · rename_i small
        exact ih (ring.links_mem inRing).1 (.inl small) result
      · exact ih inRing (.inr ⟨inFree, rfl⟩) result
    · rename_i stopped
      cases result
      exact seen.resolve_left (by omega)

theorem marked_used (magic : Nat) : ((magic ||| memheapUsed) &&& memheapUsed != 0) = true := by
  rw [Nat.and_or_distrib_right, bne_iff_ne]
  intro zero
  have := Nat.right_le_or (n := magic &&& memheapUsed) (m := memheapUsed &&& memheapUsed)
  rw [zero] at this
  exact absurd this (by decide)

/-- The blocks begin where blocks have begun before, or where an item has been cut off. -/
def Recut (bs blocks' : List Block) (cut : Nat → Prop) : Prop :=
  ∀ b ∈ blocks', cut b.start ∨ ∃ old ∈ bs, old.start = b.start

theorem Recut.refl (bs : List Block) (cut : Nat → Prop) : Recut bs bs cut :=
  fun b mem => .inr ⟨b, mem, rfl⟩

theorem Recut.mono {blocks' : List Block} {cut cut' : Nat → Prop}
    (recut : Recut bs blocks' cut) (implies : ∀ p, cut p → cut' p) : Recut bs blocks' cut' :=
  fun b mem => (recut b mem).imp_left (implies _)

theorem Recut.trans {blocks' blocks'' : List Block} {cut : Nat → Prop}
    (first : Recut bs blocks' cut) (second : Recut blocks' blocks'' fun _ => False) :
    Recut bs blocks'' cut := by
  intro b mem
  obtain ⟨old, inBlocks, same⟩ := (second b mem).resolve_left id
  rw [← same]
  exact first old inBlocks

theorem Recut.released {front' rear' : List Block} {left whole : Block}
    (merged : Recut (front ++ { b with used := false } :: rear) (front' ++ left :: rear)
      fun _ => False) (same : whole.start = left.start) (fewer : ∀ u ∈ rear', u ∈ rear) :
    Recut (front ++ b :: rear) (front' ++ whole :: rear') fun _ => False := by
  intro u mem
  have mem : ∃ found ∈ front' ++ left :: rear, found.start = u.start := by grind
  obtain ⟨found, mem, isStart⟩ := mem
  obtain ⟨old, mem, isOld⟩ := (merged found mem).resolve_left id
  refine .inr ?_
  simp only [List.mem_append, List.mem_cons] at mem ⊢
  rcases mem with mem | rfl | mem
  · exact ⟨old, .inl mem, isOld.trans isStart⟩
  · exact ⟨b, .inr (.inl rfl), isOld.trans isStart⟩
  · exact ⟨old, .inr (.inr mem), isOld.trans isStart⟩

/-- `rt_memheap_alloc` splits the block that it finds. -/
def Splits (cfg : Config) (heap : Heap) (size : Nat) : Bool :=
  (search cfg heap.pool.freeList heap.memory size (heap.pool.poolSize + 1)
    (heap.memory.get heap.pool.freeList .nextFree) 0).any fun (_, freeSize) =>
      size + cfg.memheapSize + memheapMinialloc ≤ freeSize

/-- A block that has left the free list and is not handed out yet. -/
structure Taken (cfg : Config) (heap : Heap) (places : Set Nat) (front : List Block)
    (b : Block) (rear : List Block) (free : List Nat) : Prop where
  described : Described cfg heap.pool heap.memory places (front ++ b :: rear) free
  isolated : Isolated (front ++ { b with used := true } :: rear)
  freeItems : free.Perm ((freeBlocks (front ++ rear)).map (·.start))
  available : heap.availableSize = roomOf cfg.memheapSize (freeBlocks (front ++ rear))
  live : heap.live.Perm ((usedBlocks (front ++ rear)).map (userArea cfg))

theorem Taken.handOut (taken : Taken cfg heap places front b rear free) :
    Shape cfg (handOut cfg heap b.start).1 (front ++ { b with used := true } :: rear)
        free ∧
      (handOut cfg heap b.start).2 = some (userArea cfg b) ∧
      (MemHeap.handOut cfg heap b.start).1.live = userArea cfg b :: heap.live := by
  have bounds := taken.described.bounds (by simp : b ∈ front ++ b :: rear)
  have size_eq : itemLayout.size = 24 := rfl
  have isArea : Word32.add b.start cfg.memheapSize = userArea cfg b := Word32.add_eq (by omega)
  have listed : free.Perm ((freeBlocks (front ++ { b with used := true } :: rear)).map
      (·.start)) := by
    simpa using taken.freeItems
  refine ⟨⟨?_, taken.isolated, listed, ?_, ?_⟩, ?_, ?_⟩
  · exact (taken.described.mark (marked_used _)).ofItems (exists_block_of_perm listed)
  · simpa [MemHeap.handOut] using taken.available
  · have live := taken.live
    simp only [MemHeap.handOut, isArea, usedBlocks_append,
      List.map_append] at live ⊢
    exact (live.cons _).trans List.perm_middle.symm
  · simp only [MemHeap.handOut, isArea]
  · simp only [MemHeap.handOut, isArea]

theorem Shape.others (shape : Shape cfg heap (front ++ b :: rear) free) (notUsed : b.used = false) :
    (free.erase b.start).Perm ((freeBlocks (front ++ rear)).map (·.start)) ∧
      heap.availableSize = b.stop - b.start - cfg.memheapSize +
        roomOf cfg.memheapSize (freeBlocks (front ++ rear)) ∧
      heap.live.Perm ((usedBlocks (front ++ rear)).map (userArea cfg)) := by
  have available := shape.available
  have live := shape.live
  simp only [freeBlocks_append, freeBlocks_cons, usedBlocks_append, usedBlocks_cons, notUsed,
    Bool.false_eq_true, if_false, roomOf_append, roomOf_cons] at available live
  refine ⟨?_, ?_, ?_⟩
  · simpa using (shape.erase_free notUsed).2
  · simp only [freeBlocks_append, roomOf_append]
    omega
  · simpa using live

theorem Described.fresh_of_inside (desc : Described cfg heap.pool memory
      (itemPlaces cfg heap.pool (front ++ b :: rear)) (front ++ b :: rear) free)
    (newPtr : Nat) (above : b.start + cfg.memheapSize ≤ newPtr)
    (fits : newPtr + cfg.memheapSize ≤ b.stop) :
    (∀ p ∈ itemPlaces cfg heap.pool (front ++ b :: rear), itemLayout.Apart newPtr p) ∧
      newPtr ∉ itemPlaces cfg heap.pool (front ++ b :: rear) := by
  have bounds := desc.bounds (by simp : b ∈ front ++ b :: rear)
  have size_eq : itemLayout.size = 24 := rfl
  have outside := fun p (inPlaces : p ∈ itemPlaces cfg heap.pool _) =>
    desc.region.itemPlaces_outside desc.cut.tiles inPlaces
  refine ⟨fun p inPlaces => ?_, fun inPlaces => ?_⟩
  · have := outside p inPlaces
    exact .inr (by omega)
  · have := outside newPtr inPlaces
    omega

theorem allocate_taken (shape : Shape cfg heap (front ++ b :: rear) free)
    (notUsed : b.used = false) {n : Nat} (enough : n ≤ heap.memory.memitemSize cfg b.start) :
    ∃ places taken rear' free', taken.start = b.start ∧
      taken.start + cfg.memheapSize + n ≤ taken.stop ∧
      (Recut (front ++ b :: rear) (front ++ taken :: rear') fun p =>
        p = b.start + n + cfg.memheapSize ∧
          n + cfg.memheapSize + memheapMinialloc ≤ heap.memory.memitemSize cfg b.start) ∧
      Taken cfg (allocate cfg heap b.start (heap.memory.memitemSize cfg b.start)
        n) places front taken rear' free' := by
  have desc := shape.described
  have bounds := desc.bounds (by simp : b ∈ front ++ b :: rear)
  have size_eq : itemLayout.size = 24 := rfl
  have room := desc.memitemSize_eq
  have below := desc.roomOf_lt
  obtain ⟨inFree, -⟩ := shape.erase_free notUsed
  obtain ⟨others, available, live⟩ := shape.others notUsed
  obtain ⟨isolatedFront, isolatedRear, neighbours⟩ := isolated_iff.mp shape.isolated
  obtain ⟨-, behindUsed⟩ := neighbours.resolve_left (by simp [notUsed])
  rw [← shape.available, available] at below
  have needed : Word32.add (Word32.add n cfg.memheapSize) memheapMinialloc =
      n + cfg.memheapSize + memheapMinialloc :=
    Word32.add_add_eq (by simp only [memheapMinialloc]; omega)
  rw [allocate, room, needed]
  split
  · rename_i splits
    simp only [memheapMinialloc] at splits
    have isNew : Word32.add (Word32.add b.start n) cfg.memheapSize =
        b.start + n + cfg.memheapSize := Word32.add_add_eq (by omega)
    rw [isNew]
    obtain ⟨apart, absent⟩ := desc.fresh_of_inside
      (b.start + n + cfg.memheapSize) (by omega) (by omega)
    have cut := desc.split heap.pool.address apart (by omega) (by omega)
    have inserted := (cut.takeFree inFree).insertFree (Set.mem_insert _ _) fun mem =>
      absent (desc.ring_mem ((List.mem_cons.mp mem).elim
        (fun same => same ▸ List.mem_cons_self)
        fun inRest => List.mem_cons_of_mem _ (List.mem_of_mem_erase inRest)))
    refine ⟨_, _, _, _, ?_, ?_, ?_, inserted, ?_, ?_, ?_, ?_⟩
    · rfl
    · simp only
      omega
    · simp only [Recut, memheapMinialloc]
      grind
    · refine isolated_iff.mpr ⟨isolatedFront, ?_, .inl rfl⟩
      exact isolated_cons_iff.mpr ⟨isolatedRear, .inr behindUsed⟩
    · simpa using (others.cons _).trans (by simpa using List.perm_middle.symm)
    · have decreased : Word32.sub (Word32.sub heap.availableSize n) cfg.memheapSize =
          heap.availableSize - n - cfg.memheapSize := by
        rw [Word32.sub_eq (a := heap.availableSize) (by omega) (by omega),
          Word32.sub_eq (by omega) (by omega)]
      simp only [freeBlocks_append, roomOf_append] at available
      simp only [Heap.decrease, freeBlocks_append, freeBlocks_cons,
        Bool.false_eq_true, if_false, roomOf_append, roomOf_cons]
      omega
    · simpa [Heap.decrease] using live
  · rename_i whole
    refine ⟨_, b, rear, _, rfl, by omega, .refl _ _, desc.takeFree inFree, ?_, others, ?_, live⟩
    · exact isolated_iff.mpr ⟨isolatedFront, isolatedRear, .inl rfl⟩
    · have decreased : Word32.sub heap.availableSize
          (b.stop - b.start - cfg.memheapSize) =
            heap.availableSize - (b.stop - b.start - cfg.memheapSize) :=
        Word32.sub_eq (by omega) (by omega)
      simp only [Heap.decrease]
      omega

theorem Config.minialloc_le_request (cfg : Config) (n : Nat) :
    memheapMinialloc ≤ cfg.request n := by
  simp only [request]
  split <;> omega

theorem Config.le_request (cfg : Config) {n : Nat} (noWrap : NoWrap cfg n) : n ≤ cfg.request n := by
  have le_rtAlign : n ≤ cfg.rtAlign n :=
    (Word32.le_alignUp noWrap (by have := cfg.alignBits_lt; omega)).1
  simp only [request]
  split <;> omega

theorem Config.request_noWrap (cfg : Config) (n : Nat) : NoWrap cfg (cfg.request n) := by
  have bits : cfg.alignBits ≤ 32 := by have := cfg.alignBits_lt; omega
  have alignSize_le : cfg.alignSize ≤ 2 ^ 28 :=
    Nat.pow_le_pow_right (by decide) (Nat.le_of_lt_succ cfg.alignBits_lt)
  simp only [request]
  unfold NoWrap
  split
  · simp only [memheapMinialloc]
    omega
  · obtain ⟨multiple, isMultiple⟩ := Word32.dvd_alignUp n bits
    have small : Word32.alignUp n (2 ^ cfg.alignBits) < 2 ^ 32 := by
      exact (Word32.maskDown_le (Word32.add_lt n (2 ^ cfg.alignBits - 1)) bits).trans_lt
        (Word32.add_lt _ _)
    have power : 2 ^ cfg.alignBits * 2 ^ (32 - cfg.alignBits) = 2 ^ 32 := by
      rw [← Nat.pow_add]
      congr 1
      omega
    simp only [rtAlign, alignSize] at alignSize_le ⊢
    rw [isMultiple] at small ⊢
    rw [← power] at small ⊢
    have fewer : multiple + 1 ≤ 2 ^ (32 - cfg.alignBits) := Nat.lt_of_mul_lt_mul_left small
    have := Nat.mul_le_mul_left (2 ^ cfg.alignBits) fewer
    rw [Nat.mul_add, Nat.mul_one] at this
    omega

theorem rtMemheapAlloc_shape (shape : Shape cfg heap bs free) {n : Nat}
    {after : Heap} {r : Option Nat} (allocated : rtMemheapAlloc cfg heap n = some (after, r)) :
    (r = none ∧ after = heap) ∨
      ∃ taken blocks' free', r = some (userArea cfg taken) ∧ taken ∈ blocks' ∧
        taken.start + cfg.memheapSize + cfg.request n ≤ taken.stop ∧
        Shape cfg after blocks' free' ∧ after.live = userArea cfg taken :: heap.live ∧
        Recut bs blocks' fun p => Splits cfg heap (cfg.request n) ∧
          ∃ old ∈ bs, p = userArea cfg old + cfg.request n := by
  have minimal := cfg.minialloc_le_request n
  simp only [rtMemheapAlloc] at allocated
  split at allocated
  · obtain ⟨⟨x, found⟩, searched, ret⟩ := Option.map_eq_some_iff.mp allocated
    split at ret
    · rename_i enough
      right
      obtain ⟨inFree, rfl⟩ := search_found shape.described.ring
        (shape.described.ring.links_mem List.mem_cons_self).1
        (.inl (by simp only [memheapMinialloc] at minimal; omega)) searched enough
      obtain ⟨front, b, rear, rfl, notUsed, rfl⟩ := shape.ofFree inFree
      obtain ⟨places, taken, rear', free', isStart, fits, recut, isTaken⟩ :=
        allocate_taken shape notUsed enough
      have returned' : handOut cfg (allocate cfg heap b.start
          (heap.memory.memitemSize cfg b.start) (cfg.request n)) taken.start = (after, r) := by
        rw [isStart]
        exact ret
      obtain ⟨shape', isResult, isLive⟩ := isTaken.handOut
      rw [returned'] at shape' isResult isLive
      refine ⟨{ taken with used := true }, _, free', isResult, by simp, fits, shape', ?_, ?_⟩
      · rw [isLive]
        congr 1
        simp only [allocate]
        split <;> rfl
      · intro u mem
        have mem : ∃ same ∈ front ++ taken :: rear', same.start = u.start := by grind
        obtain ⟨same, mem, isStart⟩ := mem
        rw [← isStart]
        refine (recut same mem).imp_left fun ⟨isCut, splits⟩ => ⟨?_, b, by simp, ?_⟩
        · simpa [Splits, searched] using splits
        · rw [isCut, userArea, Nat.add_right_comm]
    · exact .inl ⟨(Prod.mk.inj ret).2.symm, (Prod.mk.inj ret).1.symm⟩
  · cases allocated
    exact .inl ⟨rfl, rfl⟩

variable {cfg : Config} {heap after : Heap} {places : Set Nat}
  {bs front rear : List Block} {b : Block} {free : List Nat} {insertHeader : Bool}

structure Releasing (cfg : Config) (heap : Heap) (places : Set Nat) (front : List Block)
    (b : Block) (rear : List Block) (free : List Nat) (insertHeader : Bool) : Prop where
  described : Described cfg heap.pool heap.memory places (front ++ b :: rear) free
  notUsed : b.used = false
  listed : free.Perm ((freeBlocks front).map (·.start) ++
    ((if insertHeader then [] else [b.start]) ++ (freeBlocks rear).map (·.start)))
  available : heap.availableSize = roomOf cfg.memheapSize (freeBlocks (front ++ b :: rear))
  live : heap.live.Perm ((usedBlocks (front ++ b :: rear)).map (userArea cfg))
  isolatedFront : Isolated front
  isolatedRear : Isolated rear

theorem Described.isUsed_next {pool : Pool} {memory : Memory}
    (desc : Described cfg pool memory places (front ++ b :: rear) free) :
    (memory.isUsed (memory.get b.start .next) = true ∧ ∀ a ∈ rear.head?, a.used = true) ∨
    (memory.isUsed (memory.get b.start .next) = false ∧
      ∃ right rear', rear = right :: rear' ∧ right.used = false ∧ right.start = b.stop) := by
  obtain ⟨-, rearTiles, next, -⟩ := desc.cut.at
  rw [next]
  cases rear with
  | nil =>
    have atTail : b.stop = pool.tail cfg := rearTiles
    rw [atTail]
    exact .inl ⟨desc.cut.tailUsed, by simp⟩
  | cons right rear' =>
    obtain ⟨isStop, -, -, rightUsed, -⟩ := rearTiles
    have isUsed : memory.isUsed b.stop = right.used := rightUsed
    rw [isUsed]
    cases rightIs : right.used with
    | true => exact .inl ⟨rfl, by simp [rightIs]⟩
    | false => exact .inr ⟨rfl, right, rear', rfl, rightIs, isStop⟩

theorem marked_free (magic : Nat) :
    ((magic &&& (2 ^ 32 - 1 - memheapUsed)) &&& memheapUsed != 0) = false := by
  rw [Nat.and_assoc]
  have cleared : (2 ^ 32 - 1 - memheapUsed) &&& memheapUsed = 0 := by decide
  rw [cleared, Nat.and_zero]
  rfl

theorem Shape.release (shape : Shape cfg heap (front ++ b :: rear) free)
    (used : b.used = true) (memory : Memory) (marked : memory = heap.memory.set b.start .magic
      (heap.memory.get b.start .magic &&& (2 ^ 32 - 1 - memheapUsed))) :
    Releasing cfg
      { heap with
        memory := memory
        availableSize := Word32.add heap.availableSize (memory.memitemSize cfg b.start)
        live := heap.live.erase (userArea cfg b) }
      (itemPlaces cfg heap.pool (front ++ b :: rear)) front { b with used := false } rear
      free true := by
  have released := shape.described.mark (marked_free (heap.memory.get b.start .magic))
  rw [← marked] at released
  obtain ⟨isolatedFront, isolatedRear, -⟩ := isolated_iff.mp shape.isolated
  have room : memory.memitemSize cfg b.start =
      b.stop - b.start - cfg.memheapSize := released.memitemSize_eq
  have below := released.roomOf_lt
  have listed := shape.freeItems
  have available := shape.available
  have live := shape.live
  simp only [freeBlocks_append, freeBlocks_cons, usedBlocks_append, usedBlocks_cons, used, if_true,
    Bool.false_eq_true, if_false, roomOf_append, roomOf_cons, List.map_append]
    at below listed available live
  refine ⟨released, rfl, by simpa using listed, ?_, ?_, isolatedFront, isolatedRear⟩
  · simp only [freeBlocks_append, freeBlocks_cons, Bool.false_eq_true, if_false, roomOf_append,
      roomOf_cons]
    rw [room, Word32.add_eq (by omega)]
    omega
  · simp only [usedBlocks_append, List.map_append]
    have := (live.trans List.perm_middle).erase (userArea cfg b)
    rwa [List.erase_cons_head] at this

namespace Releasing

theorem mergeLeft (releasing : Releasing cfg heap places front b rear free true) :
    ∃ front' block' insertHeader, (mergeLeft cfg heap b.start).2 = (block'.start, insertHeader) ∧
      Releasing cfg (MemHeap.mergeLeft cfg heap b.start).1 places front' block' rear free
        insertHeader ∧ (∀ last ∈ front'.getLast?, last.used = true) ∧
      ∀ rear', Recut (front ++ b :: rear') (front' ++ block' :: rear') fun _ => False := by
  have desc := releasing.described
  have prev := desc.cut.at.prev
  have notUsed := releasing.notUsed
  rcases List.eq_nil_or_concat front with rfl | ⟨front', left, rfl⟩
  · have isUsed : heap.memory.isUsed (heap.memory.get b.start .prev) = true := by
      rw [prev]
      exact desc.cut.tailUsed
    rw [MemHeap.mergeLeft, if_pos isUsed]
    exact ⟨[], b, true, rfl, releasing, by simp, fun _ => .refl _ _⟩
  · simp only [List.concat_eq_append, List.append_assoc,
      Tiles.last_concat] at desc prev
    have leftUsed : heap.memory.isUsed (heap.memory.get b.start .prev) = left.used := by
      rw [prev]
      exact desc.cut.at.used
    cases leftIs : left.used with
    | true =>
      rw [MemHeap.mergeLeft, if_pos (leftUsed.trans leftIs)]
      exact ⟨_, b, true, rfl, releasing, by simp [leftIs], fun _ => .refl _ _⟩
    | false =>
      have bounds := desc.bounds (by simp : left ∈ front' ++ left :: b :: rear)
      have bounds' := desc.bounds (by simp : b ∈ front' ++ left :: b :: rear)
      have isStart : b.start = left.stop := desc.cut.at.rearTiles.1
      have joined := desc.joinLeft
      obtain ⟨block_mem, stop_mem, next, -, notLeft, notStop⟩ := desc.second_at
      have left_mem := desc.start_mem left (by simp)
      have notLeft : b.start ≠ left.start := by omega
      have notStop : b.start ≠ b.stop := by omega
      have below := joined.roomOf_lt
      have listed := releasing.listed
      have available := releasing.available
      have live := releasing.live
      simp only [List.concat_eq_append, List.append_assoc, List.singleton_append,
        freeBlocks_append, freeBlocks_cons, usedBlocks_append, usedBlocks_cons, leftIs, notUsed,
        Bool.false_eq_true, if_false, roomOf_append, roomOf_cons] at below listed available live
      rw [MemHeap.mergeLeft, if_neg (by rw [leftUsed, leftIs]; decide)]
      refine ⟨front', { left with stop := b.stop }, false, ?_,
        ⟨joined, leftIs, by simpa using listed, ?_, ?_, ?_, releasing.isolatedRear⟩, ?_, ?_⟩
      · simp (disch := assumption) only [next, prev, get_set desc.spaced, notLeft, notStop,
          reduceCtorEq, and_false, false_and, if_false]
      · simp only [freeBlocks_append, freeBlocks_cons, leftIs, Bool.false_eq_true, if_false,
          roomOf_append, roomOf_cons]
        rw [Word32.add_eq (by omega)]
        omega
      · simpa [leftIs] using live
      · exact (isolated_iff.mp (by simpa using releasing.isolatedFront)).1
      · have isolated := releasing.isolatedFront
        rw [List.concat_eq_append] at isolated
        obtain ⟨-, -, neighbours⟩ := isolated_iff.mp isolated
        exact (neighbours.resolve_left (by simp [leftIs])).1
      · simp only [Recut]
        grind

theorem mergeRight (releasing : Releasing cfg heap places front b rear free insertHeader) :
    ∃ block' rear' free', block'.start = b.start ∧
      Releasing cfg (mergeRight cfg heap b.start) places front block' rear' free' insertHeader ∧
      (∀ a ∈ rear'.head?, a.used = true) ∧ ∀ u ∈ rear', u ∈ rear := by
  have desc := releasing.described
  have notUsed := releasing.notUsed
  rcases desc.isUsed_next with ⟨isUsed, rightUsed⟩ | ⟨isUsed, right, rear', rfl, rightIs, isStop⟩
  · simp only [MemHeap.mergeRight, isUsed]
    exact ⟨b, rear, free, rfl, releasing, rightUsed, fun _ => id⟩
  · have bounds := desc.bounds (by simp : b ∈ front ++ b :: right :: rear')
    have bounds' := desc.bounds (by simp : right ∈ front ++ b :: right :: rear')
    have next := desc.cut.at.next
    have listed := releasing.listed
    have available := releasing.available
    have live := releasing.live
    simp only [freeBlocks_append, freeBlocks_cons, usedBlocks_append, usedBlocks_cons, rightIs,
      notUsed, Bool.false_eq_true, if_false, roomOf_append, roomOf_cons] at listed available live
    rw [← List.append_assoc] at listed
    have inFree : right.start ∈ free := listed.mem_iff.mpr (by simp)
    have listed := (listed.trans List.perm_middle).erase right.start
    rw [List.erase_cons_head, List.append_assoc] at listed
    have merged := desc.mergeNext inFree
    have below := merged.roomOf_lt
    simp only [freeBlocks_append, freeBlocks_cons, notUsed, Bool.false_eq_true, if_false,
      roomOf_append, roomOf_cons] at below
    simp only [MemHeap.mergeRight, isUsed]
    rw [next, ← isStop]
    obtain ⟨isolatedRear, neighbours⟩ := isolated_cons_iff.mp releasing.isolatedRear
    refine ⟨{ b with stop := right.stop }, rear', free.erase right.start, rfl,
      ⟨merged, notUsed, listed, ?_, by simpa [notUsed] using live, releasing.isolatedFront,
        isolatedRear⟩, ?_, fun _ => List.mem_cons_of_mem _⟩
    · simp only [freeBlocks_append, freeBlocks_cons, notUsed, Bool.false_eq_true, if_false,
        roomOf_append, roomOf_cons]
      rw [Word32.add_eq (by omega)]
      omega
    · exact neighbours.resolve_left (by simp [rightIs])

theorem finish (releasing : Releasing cfg heap places front b rear free insertHeader)
    (leftUsed : ∀ last ∈ front.getLast?, last.used = true)
    (rightUsed : ∀ a ∈ rear.head?, a.used = true) : ∃ free', Shape cfg (if insertHeader then
        { heap with memory := heap.memory.insertFree heap.pool.freeList b.start }
      else heap) (front ++ b :: rear) free' := by
  have desc := releasing.described
  have listed := releasing.listed
  have isolated : Isolated (front ++ b :: rear) := isolated_iff.mpr
    ⟨releasing.isolatedFront, releasing.isolatedRear, .inr ⟨leftUsed, rightUsed⟩⟩
  have notUsed := releasing.notUsed
  cases insertHeader with
  | true =>
    have notHead : heap.pool.freeList ≠ b.start := by
      have bounds := desc.bounds (by simp : b ∈ front ++ b :: rear)
      have outside := desc.region.outside
      have fits := desc.cut.tiles.mem_bounds (by simp : b ∈ front ++ b :: rear)
      have tail_eq := desc.region.tail_eq
      have size_eq : itemLayout.size = 24 := rfl
      omega
    have absent : b.start ∉ heap.pool.freeList :: free := by
      intro mem
      rcases List.mem_cons.mp mem with same | inFree
      · exact notHead same.symm
      · exact desc.start_notMem (by simpa using listed.mem_iff.mp inFree)
    have inserted := desc.insertFree (desc.start_mem b (by simp)) absent
    have listed' : (b.start :: free).Perm
        ((freeBlocks (front ++ b :: rear)).map (·.start)) := by
      simpa [notUsed] using (listed.cons b.start).trans List.perm_middle.symm
    exact ⟨_, inserted.ofItems (exists_block_of_perm listed'), isolated, listed',
      releasing.available, releasing.live⟩
  | false =>
    have listed' : free.Perm ((freeBlocks (front ++ b :: rear)).map (·.start)) := by
      simpa [notUsed] using listed
    exact ⟨free, desc.ofItems (exists_block_of_perm listed'), isolated, listed',
      releasing.available, releasing.live⟩

end Releasing

theorem rtMemheapFree_shape (shape : Shape cfg heap bs free) {ptr : Option Nat}
    (admitted : heap.Admits ptr) (freed : rtMemheapFree cfg heap ptr = some after) :
    ∃ blocks' free', Shape cfg after blocks' free' ∧ Recut bs blocks' fun _ => False := by
  cases ptr with
  | none =>
    cases freed
    exact ⟨bs, free, shape, .refl _ _⟩
  | some ptr =>
    obtain ⟨front, b, rear, rfl, used, rfl, isStart⟩ := shape.ofLive admitted
    simp only [rtMemheapFree, isStart] at freed
    obtain ⟨-, freed⟩ := Option.ite_none_right_eq_some.mp freed
    have releasing := shape.release used _ rfl
    obtain ⟨front', left, insertHeader, isLeft, merged, leftUsed, recut⟩ := releasing.mergeLeft
    generalize mergeLeft cfg _ b.start = r at freed isLeft merged
    obtain ⟨heap', headerPtr, flag⟩ := r
    obtain ⟨rfl, rfl⟩ := Prod.mk.inj isLeft
    obtain ⟨whole, rear', free', same, merged, rightUsed, fewer⟩ := merged.mergeRight
    obtain ⟨free'', shape'⟩ := merged.finish leftUsed rightUsed
    rw [same] at shape'
    refine ⟨front' ++ whole :: rear', free'', ?_, (recut rear).released same fewer⟩
    cases flag with
    | true | false =>
      cases freed
      exact shape'

end RtThread.MemHeap
