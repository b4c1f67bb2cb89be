import RtThread.MemHeap.Allocation

/-!
# `rt_memheap_realloc` and the invariant

A block that shrinks or moves keeps the invariant.
-/

open TransitionSystem

namespace RtThread.MemHeap

variable {cfg : Config} {heap after : Heap} {places : Set Nat}
  {blocks front rear : List Block} {b right : Block} {free : List Nat}

/-- The item behind the block of `ptr` is free, and `newsize + RT_MEMHEAP_MINIALLOC`
wraps. -/
def GrowthWraps (cfg : Config) (heap : Heap) : Event → Prop
  | .realloc (some ptr) newsize =>
    newsize ≠ 0 ∧ 2 ^ 32 ≤ cfg.request newsize + memheapMinialloc ∧
      heap.memory.isUsed (heap.areaEnd cfg ptr) = false
  | _ => False

instance (heap : Heap) : (e : Event) → Decidable (GrowthWraps cfg heap e)
  | .realloc (some _) _ => inferInstanceAs (Decidable (_ ∧ _ ∧ _))
  | .realloc none _ => .isFalse id
  | .alloc _ => .isFalse id
  | .free _ => .isFalse id
  | .store _ _ => .isFalse id

def Keeps (cfg : Config) (heap : Heap) (ptr newsize : Nat) : Prop :=
  let oldsize := heap.memory.memitemSize cfg (Word32.sub ptr cfg.memheapSize)
  cfg.request newsize ≤ oldsize ∧
    oldsize ≤ Word32.add (Word32.add (cfg.request newsize) cfg.memheapSize) memheapMinialloc

instance (heap : Heap) (ptr newsize : Nat) : Decidable (Keeps cfg heap ptr newsize) :=
  instDecidableAnd

/-- Where `rt_memheap_realloc` may cut an item off. -/
def ReallocCuts (cfg : Config) (heap : Heap) (blocks : List Block) (ptr : Option Nat)
    (newsize place : Nat) : Prop :=
  (∃ old ∈ blocks, place = userArea cfg old + cfg.request (cfg.request newsize)) ∨
    newsize ≠ 0 ∧ ∃ live ∈ ptr, ¬Keeps cfg heap live newsize ∧ place = live + cfg.request newsize

/-- The pointer is the user area of a block that was there before, or of one cut off. -/
def Handed (cfg : Config) (blocks : List Block) (cut : Nat → Prop) (result : Option Nat) : Prop :=
  ∀ ptr ∈ result, ∃ b, ptr = userArea cfg b ∧ Recut blocks [b] cut

variable {r : Option Nat} {n : Nat}

theorem Handed.mono {cut cut' : Nat → Prop} (handed : Handed cfg blocks cut r)
    (implies : ∀ p, cut p → cut' p) : Handed cfg blocks cut' r := by
  intro ptr isResult
  obtain ⟨b, isArea, recut⟩ := handed ptr isResult
  exact ⟨b, isArea, recut.mono implies⟩

theorem Recut.handed {blocks' : List Block} {cut : Nat → Prop} (recut : Recut blocks blocks' cut)
    (mem : b ∈ blocks') : Handed cfg blocks cut (some (userArea cfg b)) := by
  rintro _ ⟨⟩
  exact ⟨b, rfl, fun _ same => List.mem_singleton.mp same ▸ recut b mem⟩

theorem recut_cutOff (front : List Block) {newPtr : Nat} {used : Bool} {stop : Nat}
    {rear' : List Block} (isNew : newPtr = userArea cfg b + n) (fewer : ∀ u ∈ rear', u ∈ rear) :
    Recut (front ++ b :: rear)
      (front ++ { b with stop := newPtr } :: { start := newPtr, stop, used } :: rear')
      fun p => p = userArea cfg b + n := by
  intro u mem
  simp only [List.mem_append, List.mem_cons] at mem
  rcases mem with mem | rfl | rfl | mem
  · exact .inr ⟨u, by simp [mem], rfl⟩
  · exact .inr ⟨b, by simp, rfl⟩
  · exact .inl isNew
  · exact .inr ⟨u, by simp [fewer u mem], rfl⟩

theorem grow_shape (shape : Shape cfg heap (front ++ b :: right :: rear) free)
    (used : b.used = true) (rightFree : right.used = false)
    (larger : b.stop - b.start - cfg.memheapSize < n) (enough : n + memheapMinialloc <
      right.stop - right.start - cfg.memheapSize + (b.stop - b.start - cfg.memheapSize)) :
    ∃ blocks' free', Shape cfg (grow heap b.start (userArea cfg b)
        (b.stop - b.start - cfg.memheapSize) n) blocks' free' ∧
      Recut (front ++ b :: right :: rear) blocks' fun p => p = userArea cfg b + n := by
  have desc := shape.described
  have bounds := desc.bounds (by simp : b ∈ front ++ b :: right :: rear)
  have bounds' := desc.bounds (by simp : right ∈ front ++ b :: right :: rear)
  have isStop : right.start = b.stop := desc.cut.at.rearTiles.1
  have next : heap.memory.get b.start .next = right.start := desc.cut.at.next.trans isStop.symm
  have below := desc.roomOf_lt
  have behind : Shape cfg heap ((front ++ [b]) ++ right :: rear) free := by simpa using shape
  obtain ⟨inFree, listed⟩ := behind.erase_free rightFree
  obtain ⟨isolatedFront, isolatedRest, -⟩ := isolated_iff.mp shape.isolated
  obtain ⟨isolatedRear, neighbours⟩ := isolated_cons_iff.mp isolatedRest
  have rearUsed := neighbours.resolve_left (by simp [rightFree])
  have available := shape.available
  have live := shape.live
  simp only [freeBlocks_append, freeBlocks_cons, freeBlocks_nil, usedBlocks_append, usedBlocks_cons,
    used, rightFree, Bool.false_eq_true, if_false, if_true, roomOf_append, roomOf_cons,
      List.append_nil] at below listed available live
  have joined := (desc.removeFree inFree).joinRight.ofItems fun x mem => by
    obtain ⟨u, inBlocks, isStart⟩ := List.mem_map.mp (by
      simpa only [← List.map_append] using listed.mem_iff.mp mem)
    refine ⟨u, ?_, isStart⟩
    have inBlocks := List.mem_append.mp inBlocks
    rcases inBlocks with inFront | inRear
    · simp [(mem_freeBlocks.mp inFront).1]
    · simp [(mem_freeBlocks.mp inRear).1]
  have isNew : Word32.add (userArea cfg b) n = userArea cfg b + n := by
    apply Word32.add_eq
    simp only [userArea] at enough ⊢
    omega
  obtain ⟨apart, absent⟩ := joined.fresh_of_inside
    (userArea cfg b + n) (by simp [userArea]) (by
      simp only [userArea] at enough ⊢
      omega)
  have cut := joined.split heap.pool.address apart (by simp [userArea]) (by
    simp only [userArea] at enough ⊢
    omega)
  have inserted := cut.insertFree (Set.mem_insert _ _) fun mem =>
    absent (joined.ring_mem mem)
  have listed' : ((userArea cfg b + n) :: free.erase right.start).Perm
      ((freeBlocks (front ++ { b with stop := userArea cfg b + n } ::
        { start := userArea cfg b + n, stop := right.stop, used := false } ::
          rear)).map (·.start)) := by
    simpa [used] using (listed.cons _).trans List.perm_middle.symm
  refine ⟨_, _, ⟨?_, ?_, listed', ?_, ?_⟩, ?_⟩
  · have memory_eq := inserted.ofItems (exists_block_of_perm listed')
    simpa only [grow, Heap.decrease, next, isNew] using memory_eq
  · refine isolated_iff.mpr ⟨isolatedFront, ?_, .inl used⟩
    exact isolated_cons_iff.mpr ⟨isolatedRear, .inr rearUsed⟩
  · have difference : Word32.sub n (b.stop - b.start - cfg.memheapSize) =
        n - (b.stop - b.start - cfg.memheapSize) := by
      apply Word32.sub_eq (by omega)
      omega
    have decreased : Word32.sub heap.availableSize
        (n - (b.stop - b.start - cfg.memheapSize)) =
          heap.availableSize - (n - (b.stop - b.start - cfg.memheapSize)) := by
      apply Word32.sub_eq
      · simp only [memheapMinialloc] at enough
        omega
      · omega
    simp only [grow, Heap.decrease, difference, userArea, freeBlocks_append,
      freeBlocks_cons, used, Bool.false_eq_true, if_false, if_true, roomOf_append, roomOf_cons]
    omega
  · simpa [grow, Heap.decrease, userArea, used] using live
  · exact recut_cutOff front rfl fun _ => List.mem_cons_of_mem _

theorem cutOff_shape (heap : Heap) (b right : Block)
    (desc : Described cfg heap.pool heap.memory places (front ++ b :: right :: rear) free)
    (used : b.used = true) (rightFree : right.used = false)
    (absent : right.start ∉ heap.pool.freeList :: free) (isolatedFront : Isolated front)
    (isolatedRear : Isolated rear) (rearUsed : ∀ a ∈ rear.head?, a.used = true)
    (listed : free.Perm ((freeBlocks (front ++ rear)).map (·.start)))
    (available : heap.availableSize = roomOf cfg.memheapSize (freeBlocks (front ++ rear)))
    (live : heap.live.Perm ((usedBlocks (front ++ b :: rear)).map (userArea cfg))) :
    ∃ free', Shape cfg
      { heap with
        memory := heap.memory.insertFree heap.pool.freeList right.start
        availableSize := Word32.add heap.availableSize
          ((heap.memory.insertFree heap.pool.freeList right.start).memitemSize cfg right.start) }
      (front ++ b :: right :: rear) free' := by
  have inserted := desc.insertFree (desc.start_mem right (by simp)) absent
  have behind : Described cfg heap.pool (heap.memory.insertFree heap.pool.freeList right.start)
      places ((front ++ [b]) ++ right :: rear) (right.start :: free) := by
    simpa using inserted
  have room := behind.memitemSize_eq
  have below := behind.roomOf_lt
  have listed' : (right.start :: free).Perm
      ((freeBlocks (front ++ b :: right :: rear)).map (·.start)) := by
    simp only [freeBlocks_append, freeBlocks_cons, used, rightFree, List.map_append] at listed ⊢
    exact (listed.cons _).trans List.perm_middle.symm
  refine ⟨_, inserted.ofItems (exists_block_of_perm listed'), ?_, listed', ?_, ?_⟩
  · refine isolated_iff.mpr ⟨isolatedFront, ?_, .inl used⟩
    exact isolated_cons_iff.mpr ⟨isolatedRear, .inr rearUsed⟩
  · simp only [freeBlocks_append, freeBlocks_cons, used, rightFree,
      Bool.false_eq_true, if_false, if_true, roomOf_append, roomOf_cons]
      at available below ⊢
    rw [room, Word32.add_eq (by omega)]
    omega
  · simpa [rightFree] using live

theorem shrink_shape (shape : Shape cfg heap (front ++ b :: rear) free) (used : b.used = true)
    (smaller : n + cfg.memheapSize + memheapMinialloc < b.stop - b.start - cfg.memheapSize) :
    ∃ blocks' free', Shape cfg (shrink cfg heap b.start n) blocks' free' ∧
      Recut (front ++ b :: rear) blocks' fun p => p = userArea cfg b + n := by
  have desc := shape.described
  have bounds := desc.bounds (by simp : b ∈ front ++ b :: rear)
  obtain ⟨newPtr, newPtr_eq⟩ : ∃ newPtr, newPtr = b.start + n + cfg.memheapSize := ⟨_, rfl⟩
  have isNewArea : newPtr = userArea cfg b + n := by
    simp only [userArea]
    omega
  have isNew : Word32.add (Word32.add b.start n) cfg.memheapSize = newPtr := by
    rw [newPtr_eq]
    apply Word32.add_add_eq
    omega
  obtain ⟨apart, absent⟩ := desc.fresh_of_inside newPtr (by omega) (by omega)
  have cut : Described cfg heap.pool
      (heap.memory.splitItem heap.pool.address b.start newPtr)
      (insert newPtr (itemPlaces cfg heap.pool (front ++ b :: rear)))
      ((front ++ [{ b with stop := newPtr }]) ++
        { start := newPtr, stop := b.stop, used := false } :: rear) free := by
    simpa using desc.split heap.pool.address apart (by omega) (by omega)
  obtain ⟨isolatedFront, isolatedRear, -⟩ := isolated_iff.mp shape.isolated
  have fresh : ∀ others, (∀ x ∈ others, x ∈ free) → newPtr ∉ heap.pool.freeList :: others := by
    intro others fewer mem
    refine absent (desc.ring_mem ?_)
    exact (List.mem_cons.mp mem).elim (fun same => same ▸ List.mem_cons_self)
      fun inOthers => List.mem_cons_of_mem _ (fewer _ inOthers)
  have listed := shape.freeItems
  have available := shape.available
  have live := shape.live
  have below := desc.roomOf_lt
  simp only [shrink, isNew]
  rcases cut.isUsed_next with ⟨isUsed, rightUsed⟩ | ⟨isUsed, right, rear', rfl, rightIs, isStop⟩
  · simp only [isUsed]
    obtain ⟨free', shape'⟩ := cutOff_shape
      { heap with memory := heap.memory.splitItem heap.pool.address b.start newPtr }
      { b with stop := newPtr } { start := newPtr, stop := b.stop, used := false }
      (by simpa using cut) used rfl (fresh free fun _ => id) isolatedFront isolatedRear
      rightUsed (by simpa [used] using listed) (by simpa [used] using available)
      (by simpa [used, userArea] using live)
    exact ⟨_, free', shape', recut_cutOff front isNewArea fun _ => id⟩
  · simp only at isStop
    have next : (heap.memory.splitItem heap.pool.address b.start newPtr).get newPtr .next =
        right.start := cut.cut.at.next.trans isStop.symm
    simp only [next] at isUsed
    have behind : Described cfg heap.pool
        (heap.memory.splitItem heap.pool.address b.start newPtr)
        (insert newPtr (itemPlaces cfg heap.pool (front ++ b :: right :: rear')))
        ((front ++ [{ b with stop := newPtr },
          { start := newPtr, stop := b.stop, used := false }]) ++ right :: rear') free := by
      simpa using cut
    have room := behind.memitemSize_eq
    obtain ⟨isolatedRear, neighbours⟩ := isolated_cons_iff.mp isolatedRear
    simp only [freeBlocks_append, freeBlocks_cons, used, rightIs, Bool.false_eq_true, if_false,
      if_true, roomOf_append, roomOf_cons, List.map_append] at listed available below
    have inFree : right.start ∈ free := listed.mem_iff.mpr (by simp)
    have listed := (listed.trans List.perm_middle).erase right.start
    simp only [isUsed, next, room]
    have room' : Word32.sub heap.availableSize (right.stop - right.start - cfg.memheapSize) =
        roomOf cfg.memheapSize (freeBlocks (front ++ rear')) := by
      simp only [freeBlocks_append, roomOf_append]
      rw [Word32.sub_eq (by omega) (by omega)]
      omega
    obtain ⟨free', shape'⟩ := cutOff_shape
      { heap with
        availableSize := Word32.sub heap.availableSize
          (right.stop - right.start - cfg.memheapSize)
        memory := (heap.memory.splitItem heap.pool.address b.start newPtr).mergeNext newPtr
          right.start }
      { b with stop := newPtr } { start := newPtr, stop := right.stop, used := false }
      (by simpa using cut.mergeNext inFree) used rfl (fresh _ fun _ => List.mem_of_mem_erase)
      isolatedFront isolatedRear (neighbours.resolve_left (by simp [rightIs]))
      (by simpa using listed) room' (by simpa [used, rightIs, userArea] using live)
    exact ⟨_, free', shape', recut_cutOff front isNewArea fun _ => List.mem_cons_of_mem _⟩

theorem Shape.store (shape : Shape cfg heap (front ++ b :: rear) free) {memory : Memory}
    (same : ∀ a, a < b.start + cfg.memheapSize ∨ b.stop ≤ a → memory a = heap.memory a) :
    Shape cfg { heap with memory := memory } (front ++ b :: rear) free :=
  { shape with described := shape.described.store same }

theorem relocate_shape (shape : Shape cfg heap blocks free) {ptr oldsize : Nat}
    (isLive : ptr ∈ heap.live) (noWrap : NoWrap cfg n)
    (moved : relocate cfg heap ptr oldsize n = some (after, r)) :
    let cut := fun p => ∃ old ∈ blocks, p = userArea cfg old + cfg.request n
    ∃ blocks' free', Shape cfg after blocks' free' ∧ Recut blocks blocks' cut ∧
      Handed cfg blocks cut r := by
  intro cut
  obtain ⟨⟨heap', newPtr⟩, allocated, ret⟩ := Option.bind_eq_some_iff.mp moved
  have le_request := cfg.le_request noWrap
  rcases rtMemheapAlloc_shape shape allocated with ⟨rfl, rfl⟩ |
    ⟨taken, blocks', free', rfl, mem, fits, shape', live, recut⟩
  · cases ret
    exact ⟨blocks, free, shape, .refl _ _, by simp [Handed]⟩
  · obtain ⟨front, rear, rfl⟩ := List.append_of_mem mem
    have count_le : (if oldsize < n then oldsize else n) ≤ n := by split <;> omega
    obtain ⟨freed, released, ret⟩ := Option.map_eq_some_iff.mp ret
    obtain ⟨rfl, rfl⟩ := Prod.mk.inj ret
    have copied : Shape cfg
        { heap' with
          memory := rtMemcpy heap'.memory (userArea cfg taken) ptr
            (if oldsize < n then oldsize else n) } (front ++ taken :: rear) free' := by
      refine shape'.store fun a outside => if_neg ?_
      simp only [userArea]
      omega
    have recut := recut.mono fun _ => And.right
    obtain ⟨blocks'', free'', shape'', fewer⟩ := rtMemheapFree_shape copied (by
      simp only [live]
      exact List.mem_cons_of_mem _ isLive) released
    exact ⟨blocks'', free'', shape'', recut.trans fewer, recut.handed mem⟩

theorem rtMemheapRealloc_shape (shape : Shape cfg heap blocks free) {ptr : Option Nat}
    (admitted : heap.Admits ptr) (fitting : ¬GrowthWraps cfg heap (.realloc ptr n))
    (resized : rtMemheapRealloc cfg heap ptr n = some (after, r)) :
    ∃ blocks' free', Shape cfg after blocks' free' ∧
      Recut blocks blocks' (ReallocCuts cfg heap blocks ptr n) ∧
      Handed cfg blocks (ReallocCuts cfg heap blocks ptr n) r := by
  simp only [rtMemheapRealloc] at resized
  split at resized
  · obtain ⟨freed, released, ret⟩ := Option.map_eq_some_iff.mp resized
    obtain ⟨rfl, rfl⟩ := Prod.mk.inj ret
    obtain ⟨blocks', free', shape', recut⟩ := rtMemheapFree_shape shape admitted released
    exact ⟨blocks', free', shape', recut.mono fun _ => False.elim, by simp [Handed]⟩
  · rename_i pos
    have noWrap := cfg.request_noWrap n
    cases ptr with
    | none =>
      rcases rtMemheapAlloc_shape shape resized with ⟨rfl, rfl⟩ |
        ⟨taken, blocks', free', rfl, mem, -, shape', -, recut⟩
      · exact ⟨blocks, free, shape, .refl _ _, by simp [Handed]⟩
      · have recut : Recut blocks blocks' (ReallocCuts cfg heap blocks none n) :=
          recut.mono fun _ cut => .inl cut.2
        exact ⟨blocks', free', shape', recut, recut.handed mem⟩
    | some ptr =>
      obtain ⟨front, b, rear, rfl, used, rfl, isStart⟩ := shape.ofLive admitted
      have desc := shape.described
      have bounds := desc.bounds (by simp : b ∈ front ++ b :: rear)
      have size_eq : itemLayout.size = 24 := rfl
      simp only [GrowthWraps, Heap.areaEnd, isStart] at fitting
      have keeps : Keeps cfg heap (userArea cfg b) n ↔
          cfg.request n ≤ b.stop - b.start - cfg.memheapSize ∧
            b.stop - b.start - cfg.memheapSize ≤
              Word32.add (Word32.add (cfg.request n) cfg.memheapSize) memheapMinialloc := by
        simp only [Keeps, isStart, desc.memitemSize_eq]
      have own : ∀ cut, Handed cfg (front ++ b :: rear) cut (some (userArea cfg b)) :=
        fun cut => (Recut.refl _ cut).handed (by simp)
      have moves : ¬Keeps cfg heap (userArea cfg b) n → ∀ place,
          place = userArea cfg b + cfg.request n →
          ReallocCuts cfg heap (front ++ b :: rear) (some (userArea cfg b)) n
            place :=
        fun differs _ isCut => .inr ⟨pos, _, rfl, differs, isCut⟩
      simp only [isStart, desc.memitemSize_eq] at resized
      split at resized
      · rename_i larger
        obtain ⟨-, resized⟩ := Option.ite_none_right_eq_some.mp resized
        split at resized
        · rename_i grows
          cases resized
          rcases desc.isUsed_next with ⟨isUsed, -⟩ |
            ⟨isFree, right, rear', rfl, rightFree, isStop⟩
          · rw [grows.1] at isUsed
            exact absurd isUsed (by decide)
          · have small : cfg.request n + memheapMinialloc < 2 ^ 32 := by
              by_contra large
              exact fitting ⟨pos, by omega, isFree⟩
            have behind : Described cfg heap.pool heap.memory
                (itemPlaces cfg heap.pool (front ++ b :: right :: rear'))
                ((front ++ [b]) ++ right :: rear') free := by
              simpa using desc
            have bounds' := desc.bounds
              (by simp : right ∈ front ++ b :: right :: rear')
            have next : heap.memory.get b.start .next = right.start :=
              desc.cut.at.next.trans isStop.symm
            have enough := grows.2
            rw [next, behind.memitemSize_eq,
              Word32.add_eq small, Word32.add_eq (by omega)] at enough
            obtain ⟨blocks', free', shape', recut⟩ := grow_shape shape used rightFree larger enough
            exact ⟨blocks', free', shape', recut.mono
              (moves fun kept => by have := (keeps.mp kept).1; omega), own _⟩
        · obtain ⟨blocks', free', shape', recut, handed⟩ :=
            relocate_shape shape admitted noWrap resized
          exact ⟨blocks', free', shape', recut.mono fun _ => .inl, handed.mono fun _ => .inl⟩
      · rename_i smaller
        split at resized
        · cases resized
          exact ⟨_, free, shape, .refl _ _, own _⟩
        · rename_i shrinks
          cases resized
          have cuts := moves fun kept => shrinks (keeps.mp kept).2
          rw [Word32.add_add_eq (by simp only [memheapMinialloc]; omega)] at shrinks
          have fits : cfg.request n + cfg.memheapSize + memheapMinialloc <
              b.stop - b.start - cfg.memheapSize := by omega
          obtain ⟨blocks', free', shape', recut⟩ := shrink_shape shape used fits
          exact ⟨blocks', free', shape', recut.mono cuts, own _⟩

variable {cfg : Config} {heap after : Heap} {blocks : List Block} {free : List Nat}

/-- Items and variables of a heap that is cut into `blocks`, with the free list `free`. -/
structure Represents (cfg : Config) (heap : Heap) (blocks : List Block) (free : List Nat) :
    Prop where
  tiles : Tiles heap.memory.headers cfg.memheapSize (heap.pool.tail cfg) heap.pool.blockList
    blocks (heap.pool.tail cfg)
  tailEnds : heap.pool.tail cfg + cfg.memheapSize = heap.pool.blockList + heap.pool.poolSize
  tailUsed : heap.memory.isUsed (heap.pool.tail cfg) = true
  tailNext : heap.memory.get (heap.pool.tail cfg) .next = heap.pool.blockList
  tailPrev : heap.memory.get (heap.pool.tail cfg) .prev = Tiles.last (heap.pool.tail cfg) blocks
  notBothFree : blocks.IsChain fun first second => first.used = true ∨ second.used = true
  freeRing : heap.memory.links.IsRing (heap.pool.freeList :: free : List Nat)
  freeItems : free.Perm ((blocks.filter (!·.used)).map (·.start))
  availableSize : heap.availableSize = ((blocks.filter (!·.used)).map fun b =>
    heap.memory.memitemSize cfg b.start).sum
  liveBlocks : heap.live.Perm ((blocks.filter (·.used)).map fun b =>
    b.start + cfg.memheapSize)
  inside : ∀ ptr ∈ heap.live, heap.pool.blockList ≤ ptr ∧ ptr ≤ heap.areaEnd cfg ptr ∧
    heap.areaEnd cfg ptr ≤ heap.pool.tail cfg
  distinct : heap.live.Nodup
  disjoint : ∀ ptr ∈ heap.live, ∀ u ∈ heap.live, ptr ≠ u →
    heap.areaEnd cfg ptr ≤ u ∨ heap.areaEnd cfg u ≤ ptr

def Consistent (cfg : Config) (heap : Heap) : Prop :=
  ∃ blocks free, Represents cfg heap blocks free

section

variable (shape : Shape cfg heap blocks free)

include shape

theorem Shape.area {ptr : Nat} (isLive : ptr ∈ heap.live) :
    ∃ b ∈ blocks, ptr = userArea cfg b ∧ heap.areaEnd cfg ptr = b.stop := by
  obtain ⟨front, b, rear, rfl, -, isArea, isStart⟩ := shape.ofLive isLive
  refine ⟨b, by simp, isArea, ?_⟩
  rw [Heap.areaEnd, isStart]
  exact shape.described.cut.at.next

theorem Shape.represents : Represents cfg heap blocks free where
  tiles := shape.described.cut.tiles
  tailEnds := shape.described.region.tail_eq
  tailUsed := shape.described.cut.tailUsed
  tailNext := shape.described.cut.tailNext
  tailPrev := shape.described.cut.tailPrev
  notBothFree := shape.isolated
  freeRing := shape.described.ring
  freeItems := shape.freeItems
  availableSize := by
    rw [shape.available, roomOf]
    congr 1
    apply List.map_congr_left
    intro b mem
    obtain ⟨front, rear, rfl⟩ := List.append_of_mem (mem_freeBlocks.mp mem).1
    exact shape.described.memitemSize_eq.symm
  liveBlocks := shape.live
  inside := by
    intro ptr isLive
    obtain ⟨b, mem, rfl, isEnd⟩ := shape.area isLive
    have bounds := shape.described.cut.tiles.mem_bounds mem
    rw [isEnd, userArea]
    omega
  distinct := by
    have pos := cfg.memheapSize_bounds.1
    have size_eq : itemLayout.size = 24 := rfl
    apply shape.live.nodup_iff.mpr
    apply List.pairwise_map.mpr
    apply (List.Pairwise.filter _ (shape.described.cut.tiles.pairwise_start (by omega))).imp
    intro a second ordered same
    unfold userArea at same
    omega
  disjoint := by
    intro ptr isLive u otherLive distinct
    obtain ⟨b, mem, rfl, isEnd⟩ := shape.area isLive
    obtain ⟨second, membership', rfl, isEnd'⟩ := shape.area otherLive
    rw [isEnd, isEnd', userArea, userArea]
    rcases shape.described.cut.tiles.apart mem membership' with rfl | before | behind
    · exact absurd rfl distinct
    · exact .inl (by omega)
    · exact .inr (by omega)

theorem store_shape {a v : Nat} (ran : step cfg heap (.store a v) = some after) :
    Shape cfg after blocks free := by
  obtain ⟨stores, ran⟩ := Option.ite_none_right_eq_some.mp ran
  obtain ⟨ptr, isLive, above, fits⟩ := stores
  obtain ⟨front, b, rear, rfl, -, rfl, isStart⟩ := shape.ofLive isLive
  rw [Heap.areaEnd, isStart, shape.described.cut.at.next] at fits
  cases ran
  refine shape.store fun p outside => Function.update_of_ne ?_ _ _
  simp only [userArea] at above
  omega

theorem step_shape {e : Event} (fitting : ¬GrowthWraps cfg heap e)
    (ran : step cfg heap e = some after) : ∃ blocks' free', Shape cfg after blocks' free' := by
  cases e with
  | alloc n =>
    obtain ⟨noWrap, ran⟩ := Option.ite_none_right_eq_some.mp ran
    obtain ⟨⟨heap', r⟩, ret, rfl⟩ := Option.map_eq_some_iff.mp ran
    rcases rtMemheapAlloc_shape shape ret with ⟨-, rfl⟩ |
      ⟨-, blocks', free', -, -, -, shape', -⟩
    · exact ⟨blocks, free, shape⟩
    · exact ⟨blocks', free', shape'⟩
  | realloc ptr newsize =>
    obtain ⟨admitted, ran⟩ := Option.ite_none_right_eq_some.mp ran
    obtain ⟨⟨heap', r⟩, ret, rfl⟩ := Option.map_eq_some_iff.mp ran
    obtain ⟨blocks', free', shape', -⟩ := rtMemheapRealloc_shape shape admitted.1 fitting ret
    exact ⟨blocks', free', shape'⟩
  | free ptr =>
    obtain ⟨admitted, ran⟩ := Option.ite_none_right_eq_some.mp ran
    obtain ⟨blocks', free', shape', -⟩ := rtMemheapFree_shape shape admitted ran
    exact ⟨blocks', free', shape'⟩
  | store a v =>
    exact ⟨blocks, free, store_shape shape ran⟩

end

/-- A heap stays consistent as long as no call grows a block by a size that wraps. -/
theorem consistent_throughout {taken : List (TransitionSystem.Taken Heap Event)} {last : Heap}
    (run : (system cfg).Run taken last)
    (every : EveryStep (fun heap e => ¬GrowthWraps cfg heap e) taken) :
    Throughout (Consistent cfg) taken last := by
  have base : ∀ heap, Initial cfg heap → ∃ blocks free, Shape cfg heap blocks free :=
    fun _ init => ⟨_, _, initial_shape init⟩
  have shapes := run.throughout_of_everyStep base
    (fun _ _ _ ⟨_, _, shape⟩ fitting ran => step_shape shape fitting ran) every
  exact shapes.imp fun _ ⟨blocks, free, shape⟩ => ⟨blocks, free, shape.represents⟩

def align8 : Config where
  alignBits := 3
  alignBits_ge := by decide
  alignBits_lt := by decide

def smallPool : Heap := rtMemheapInit align8 (fun _ => 0) 8192 8240 4096 256

theorem smallPool_initial : Initial align8 smallPool :=
  ⟨_, 8192, 8240, 4096, 256, by decide, by decide, by decide, by decide, rfl⟩

theorem resizing_consistent :
    let events : List Event := [.alloc 16, .alloc 40, .free (some 4160), .realloc (some 4120) 60,
      .store 4120 7, .realloc (some 4120) 8]
    Throughout (Consistent align8)
      (record (step align8) [] smallPool events)
      ((execute (step align8) smallPool events).get (by decide +kernel)) :=
  consistent_throughout
    (Run.executed _ _ smallPool_initial _)
    (by decide +kernel)

/-- A block of 16 bytes is to grow to almost all addresses: the call succeeds, and leaves an
item within the item of the block. -/
theorem wrapping_growth_not_consistent :
    ¬ ∀ (taken : List (TransitionSystem.Taken Heap Event)) (last : Heap),
      (system align8).Run taken last → Throughout (Consistent align8) taken last := by
  intro claim
  let events : List Event := [.alloc 16, .realloc (some 4120) (2 ^ 32 - 8)]
  have run : (system align8).Run _ _ :=
    .executed smallPool events smallPool_initial (by decide +kernel)
  obtain ⟨blocks, free, rep⟩ := (claim _ _ run).1
  have tiles := rep.tiles
  cases blocks with
  | nil => exact absurd tiles (by simp only [Tiles]; decide +kernel)
  | cons b rest =>
    obtain ⟨-, next, -, -, room, -⟩ := tiles
    rw [← next] at room
    exact absurd room (by decide +kernel)

end RtThread.MemHeap
