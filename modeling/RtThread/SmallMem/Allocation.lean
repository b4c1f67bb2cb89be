import RtThread.SmallMem.Joining

/-!
# `rt_free` keeps the invariant

It also keeps `lfree` at the lowest free block.
-/

namespace RtThread.SmallMem

variable {cfg : Config} {heap after : Heap} {front rear blocks : List Block} {b : Block}

theorem Shape.ofLive (shape : Shape cfg heap blocks) {rmem : Nat} (isLive : rmem ∈ heap.live) :
    ∃ front b rear, blocks = front ++ b :: rear ∧ b.used = true ∧
      rmem = userArea cfg heap.heapPtr b ∧ heap.headerOf cfg rmem = b.start := by
  obtain ⟨b, mem, rfl⟩ := List.mem_map.mp (shape.live.mem_iff.mp isLive)
  obtain ⟨mem, used⟩ := mem_usedBlocks.mp mem
  obtain ⟨front, rear, rfl⟩ := List.append_of_mem mem
  refine ⟨front, b, rear, rfl, used, rfl, ?_⟩
  simp only [Heap.headerOf, userArea]
  omega

theorem Described.usedMem_le (desc : Described cfg heap blocks) : heap.usedMem ≤ heap.heapEnd := by
  rw [desc.usedMem]
  exact desc.cut.spaceOf_usedBlocks_le

theorem isolated_parts (isolated : Isolated (front ++ b :: rear)) :
    Isolated front ∧ Isolated rear :=
  ⟨isolated.left_of_append, isolated.right_of_append.tail⟩

theorem Described.release (desc : Described cfg heap (front ++ b :: rear))
    (used : b.used = true) (magic : Nat) {lfree : Nat}
    (freeAt : FreeAt heap.heapEnd (front ++ { b with used := false } :: rear) lfree) :
    Described cfg
      { heap with
        header := Function.update heap.header b.start
          { heap.header b.start with used := 0, magic := magic }
        lfree := lfree
        usedMem := Word32.sub heap.usedMem
          (Word32.sub (heap.header b.start).next b.start)
        live := heap.live.erase (userArea cfg heap.heapPtr b) }
      (front ++ { b with used := false } :: rear) := by
  have own := desc.cut.header_block
  have below := cfg.gap_pos
  have notEnd : heap.heapEnd ≠ b.start := by omega
  have small := desc.heapEnd_lt
  have usedBelow := desc.usedMem_le
  have usedMem := desc.usedMem
  have live := desc.live
  simp only [usedBlocks_append, usedBlocks_cons, used, if_true, spaceOf_append, spaceOf_cons,
    List.map_append] at usedMem live
  refine { endUsed := ?_, endNext := ?_, endEq := desc.endEq, fits := desc.fits,
           heapPtrAligned := desc.heapPtrAligned, heapEndAligned := desc.heapEndAligned,
           cut := ?_, starts := ?_, usedMem := ?_, lfree := freeAt, live := ?_ }
  · simpa [notEnd] using desc.endUsed
  · simpa [notEnd] using desc.endNext
  · apply Cut.setUsed desc.cut
    · rfl
    · simp
    · intro p apart
      simp [apart]
  · intro u mem
    rcases List.mem_append.mp mem with inFront | inRest
    · exact desc.starts u (by simp [inFront])
    · rcases List.mem_cons.mp inRest with rfl | inRear
      · exact desc.starts b (by simp)
      · exact desc.starts u (by simp [inRear])
  · simp only [usedBlocks_append, usedBlocks_cons, Bool.false_eq_true, if_false, spaceOf_append]
    rw [own.1, Word32.sub_eq (a := b.stop) (by omega) (by omega),
      Word32.sub_eq (by omega) (by omega)]
    omega
  · simp only [usedBlocks_append, List.map_append]
    have := (live.trans List.perm_middle).erase (userArea cfg heap.heapPtr b)
    rwa [List.erase_cons_head] at this

theorem lowest_release (cut : Cut cfg heap (front ++ b :: rear))
    (used : b.used = true) (lowest : Lowest heap (front ++ b :: rear)) :
    (if b.start < heap.lfree then b.start else heap.lfree) =
      lowestFree heap.heapEnd (front ++ { b with used := false } :: rear) := by
  obtain ⟨middle, frontTiles, rfl, -, -, -, room, rearTiles⟩ := Tiles.append_iff.mp cut
  have below := cfg.gap_pos
  simp only [Lowest, lowestFree_append, lowestFree, used, if_true] at lowest
  simp only [lowestFree_append, lowestFree, Bool.false_eq_true, if_false]
  rcases used_or_free front with allUsed | ⟨u, mem, free⟩
  · rw [lowestFree_of_used allUsed] at lowest ⊢
    have above := rearTiles.le_lowestFree
    rw [if_pos (by omega)]
  · have inFront := frontTiles.lowestFree_lt mem free below
      (lowestFree heap.heapEnd rear)
    rw [if_neg (by omega), lowest]
    exact lowestFree_of_free mem free _ _

theorem freeAt_release {p : Nat} (used : b.used = true)
    (freeAt : FreeAt heap.heapEnd (front ++ b :: rear) p) :
    FreeAt heap.heapEnd (front ++ { b with used := false } :: rear)
      (if b.start < p then b.start else p) := by
  split
  · exact .inr ⟨{ b with used := false }, by simp, rfl, rfl⟩
  · apply freeAt.mono
    intro u mem free
    rcases List.mem_append.mp mem with inFront | inRest
    · exact ⟨u, by simp [inFront], free, rfl⟩
    · rcases List.mem_cons.mp inRest with rfl | inRear
      · simp [used] at free
      · exact ⟨u, by simp [inRear], free, rfl⟩

theorem rtFree_keeps (shape : Shape cfg heap blocks) {rmem : Option Nat}
    (admitted : heap.Admits rmem) (freed : rtFree cfg heap rmem = some after) :
    Keeps cfg heap blocks after := by
  cases rmem with
  | none =>
    cases freed
    exact Keeps.refl shape
  | some rmem =>
    obtain ⟨front, b, rear, rfl, used, rfl, isHeader⟩ := shape.ofLive admitted
    obtain ⟨isolatedFront, isolatedRear⟩ := isolated_parts shape.isolated
    have freeAt := freeAt_release used shape.lfree
    have lowest := lowest_release shape.cut used
    simp only [rtFree, isHeader] at freed
    obtain ⟨-, freed⟩ := Option.ite_none_right_eq_some.mp freed
    have released := shape.toDescribed.release used heapMagic freeAt
    simp only [Heap.setHeader] at freed
    obtain ⟨blocks', shape', lowest'⟩ :
        Keeps cfg _ (front ++ { b with used := false } :: rear) after := by
      apply released.plugHoles rfl isolatedFront isolatedRear
      rw [← freed]
      by_cases order : b.start < heap.lfree
      · simp only [order, if_true, Function.update_self]
      · simp only [order, if_false, Function.update_self]
    exact ⟨blocks', shape', fun before => lowest' (lowest before)⟩

/-- `p` is where a walk over the headers can be. -/
def Place (heap : Heap) (blocks : List Block) (p : Nat) : Prop :=
  p = heap.heapEnd ∨ ∃ b ∈ blocks, b.start = p

theorem place_of_freeAt {p : Nat} (freeAt : FreeAt heap.heapEnd blocks p) :
    Place heap blocks p := by
  rcases freeAt with atEnd | ⟨b, mem, -, isStart⟩
  · exact .inl atEnd
  · exact .inr ⟨b, mem, isStart⟩

theorem Described.place_next (desc : Described cfg heap blocks) {p : Nat}
    (isPlace : Place heap blocks p) : Place heap blocks (heap.header p).next := by
  rcases isPlace with rfl | ⟨b, mem, rfl⟩
  · exact .inl desc.endNext
  · obtain ⟨front, rear, rfl, -, next, -, -, -, rearTiles⟩ := desc.cut.focus mem
    simp only [headers_next] at next
    rw [next]
    cases rear with
    | nil => exact .inl rearTiles
    | cons second others => exact .inr ⟨second, by simp, rearTiles.1⟩

theorem Described.room_eq (desc : Described cfg heap (front ++ b :: rear)) :
    room cfg heap b.start = b.stop - (b.start + cfg.sizeofStructMem) := by
  have own := desc.cut.header_block
  have small := desc.heapEnd_lt
  rw [room, own.1, Word32.add_eq (by omega), Word32.sub_eq own.2.2.2.1 (by omega)]

variable {n : Nat} {taken : Heap}

theorem search_found (desc : Described cfg heap blocks) {turns ptr found : Nat}
    (isPlace : Place heap blocks ptr) (result : search cfg heap n turns ptr = some (some found)) :
    ∃ front b rear, blocks = front ++ b :: rear ∧ b.used = false ∧
      found = b.start ∧ n ≤ b.stop - (b.start + cfg.sizeofStructMem) := by
  induction turns generalizing ptr with
  | zero => simp [search] at result
  | succ turns ih =>
    simp only [search] at result
    split at result
    · split at result
      · rename_i isFree
        obtain ⟨notUsed, enough⟩ := isFree
        simp only [Option.some.injEq] at result
        subst result
        rcases isPlace with rfl | ⟨b, mem, rfl⟩
        · exact absurd notUsed desc.endUsed
        · obtain ⟨front, rear, rfl⟩ := List.append_of_mem mem
          rw [desc.room_eq] at enough
          refine ⟨front, b, rear, rfl, ?_, rfl, enough⟩
          simpa [notUsed] using desc.cut.header_block.2.2.1
      · exact ih (desc.place_next isPlace) result
    · simp at result

theorem nextFree_eq {before turns ptr found : Nat}
    (tiles : Tiles heap.headers cfg.sizeofStructMem before ptr blocks heap.heapEnd)
    (result : nextFree heap turns ptr = some found) : found = lowestFree heap.heapEnd blocks := by
  induction blocks generalizing before ptr turns with
  | nil =>
    cases turns with
    | zero => simp [nextFree] at result
    | succ turns =>
      obtain rfl : ptr = heap.heapEnd := tiles
      simp only [nextFree, ne_eq, not_true_eq_false, and_false, if_false,
        Option.some.injEq] at result
      exact result.symm
  | cons b rest ih =>
    cases turns with
    | zero => simp [nextFree] at result
    | succ turns =>
      obtain ⟨rfl, next, -, used, room, rest⟩ := tiles
      simp only [headers_next] at next used
      have inside := rest.le
      have below := cfg.gap_pos
      have notEnd : b.start ≠ heap.heapEnd := by omega
      simp only [nextFree, notEnd, ne_eq, not_false_eq_true, and_true, next] at result
      cases marked : b.used with
      | false =>
        have notUsed : (heap.header b.start).used = 0 := by simpa [marked] using used
        simp only [notUsed, not_true_eq_false, if_false, Option.some.injEq] at result
        simp [lowestFree, marked, result]
      | true =>
        have isUsed : (heap.header b.start).used ≠ 0 := by simpa [marked] using used
        simp only [isUsed] at result
        simp only [lowestFree, marked]
        exact ih rest result

/-- The block at `first.start` has become used, and `rear` is what stands behind it. -/
structure Taken (cfg : Config) (heap taken : Heap) (front : List Block) (first : Block)
    (rear : List Block) : Prop where
  region : Region cfg taken
  cut : Cut cfg taken (front ++ first :: rear)
  used : first.used = true
  heapPtr : taken.heapPtr = heap.heapPtr
  heapEnd : taken.heapEnd = heap.heapEnd
  lfree : taken.lfree = heap.lfree
  live : taken.live = heap.live

theorem Cut.mark (cut : Cut cfg heap (front ++ b :: rear)) (region : Region cfg heap)
    {amount : Nat} {marked : Heap} (isMarked : marked = countUsed (heap.setHeader b.start
      { heap.header b.start with used := 1 }) amount) (isTaken : taken = marked.setHeader b.start
      { marked.header b.start with magic := heapMagic }) :
    Taken cfg heap taken front { b with used := true } rear ∧
      taken.usedMem = Word32.add heap.usedMem amount := by
  have own := cut.header_block
  have below := cfg.gap_pos
  have notEnd : heap.heapEnd ≠ b.start := by omega
  have header : ∀ p, taken.header p = if p = b.start then
      { (heap.header b.start) with used := 1, magic := heapMagic } else heap.header p := by
    intro p
    rw [isTaken, setHeader_header, isMarked]
    split
    · simp [countUsed]
    · next apart => simp [countUsed, apart]
  subst isMarked
  subst isTaken
  refine ⟨⟨⟨?_, ?_, region.endEq, region.fits, region.heapPtrAligned, region.heapEndAligned⟩, ?_,
    rfl, rfl, rfl, rfl, rfl⟩, rfl⟩
  · have := region.endUsed
    simpa [Heap.setHeader, countUsed, notEnd] using this
  · have := region.endNext
    simpa [Heap.setHeader, countUsed, notEnd] using this
  · apply Cut.setUsed cut
    · rfl
    · rw [header, if_pos rfl]
      simp
    · intro p apart
      rw [header, if_neg apart]

structure Behind (cfg : Config) (rear rear' : List Block) : Prop where
  used : usedBlocks rear' = usedBlocks rear
  old : ∀ b ∈ rear, b ∈ rear'
  starts : (∀ b ∈ rear, cfg.alignSize ∣ b.start) →
    ∀ b ∈ rear', cfg.alignSize ∣ b.start
  isolated : Isolated rear'

theorem takeBlock_eq (desc : Described cfg heap (front ++ b :: rear))
    (enough : n ≤ b.stop - (b.start + cfg.sizeofStructMem)) :
    takeBlock cfg heap b.start n = if n + cfg.sizeofStructMem + cfg.minSizeAligned ≤
          b.stop - (b.start + cfg.sizeofStructMem) then
        let split := insertBlock cfg heap b.start
          (b.start + cfg.sizeofStructMem + n)
        countUsed (split.setHeader b.start { split.header b.start with used := 1 })
          (n + cfg.sizeofStructMem)
      else
        countUsed (heap.setHeader b.start { heap.header b.start with used := 1 })
          (b.stop - b.start) := by
  have own := desc.cut.header_block
  have small := desc.heapEnd_lt
  have least := cfg.minSizeAligned_bounds
  have enoughEq : Word32.add (n + cfg.sizeofStructMem) cfg.minSizeAligned =
      n + cfg.sizeofStructMem + cfg.minSizeAligned := Word32.add_eq (by omega)
  have placeEq : Word32.add (Word32.add b.start cfg.sizeofStructMem) n =
      b.start + cfg.sizeofStructMem + n := Word32.add_add_eq (by omega)
  have amountEq : Word32.add n cfg.sizeofStructMem = n + cfg.sizeofStructMem :=
    Word32.add_eq (by omega)
  have wholeEq : Word32.sub b.stop b.start = b.stop - b.start := Word32.sub_eq (by omega) (by omega)
  simp only [takeBlock, desc.room_eq, own.1, enoughEq, placeEq, amountEq, wholeEq]

theorem takeBlock_taken (desc : Described cfg heap (front ++ b :: rear))
    (free : b.used = false) (isolated : Isolated (b :: rear)) (dvd : cfg.alignSize ∣ n)
    (enough : n ≤ b.stop - (b.start + cfg.sizeofStructMem))
    (isTaken : taken = (takeBlock cfg heap b.start n).setHeader b.start
      { (takeBlock cfg heap b.start n).header b.start with magic := heapMagic }) :
    ∃ a rear', a.start = b.start ∧
      a.start + cfg.sizeofStructMem + n ≤ a.stop ∧
      Taken cfg heap taken front a rear' ∧
      taken.usedMem = heap.usedMem + (a.stop - a.start) ∧ Behind cfg rear rear' := by
  have own := desc.cut.header_block
  have small := desc.heapEnd_lt
  have space : heap.usedMem + (b.stop - b.start) ≤ heap.heapEnd := by
    rw [desc.usedMem]
    exact desc.cut.spaceOf_usedBlocks_add_le free
  have isMarked := takeBlock_eq desc enough
  split at isMarked
  · rename_i splits
    have above : b.start + cfg.sizeofStructMem ≤ b.start + cfg.sizeofStructMem + n := by omega
    have fits : b.start + cfg.sizeofStructMem + n + cfg.sizeofStructMem ≤ b.stop := by omega
    obtain ⟨cut, kept, sameLfree⟩ := desc.cut.insertBlock desc.heapEnd_eq above fits
    obtain ⟨marked, counted⟩ := cut.mark (desc.toRegion.kept kept) isMarked isTaken
    refine ⟨{ start := b.start
              stop := b.start + cfg.sizeofStructMem + n
              used := true }, _, rfl, by simp,
      ⟨marked.1, marked.2, marked.3, marked.4.trans kept.heapPtr, marked.5.trans kept.heapEnd,
        marked.6.trans sameLfree, marked.7.trans kept.live⟩, ?_, ?_⟩
    · rw [counted, kept.usedMem, Word32.add_eq (by omega)]
      simp only
      omega
    · refine ⟨by simp, fun u mem => by simp [mem], ?_, ?_⟩
      · intro starts u mem
        rcases List.mem_cons.mp mem with rfl | inRear
        · exact Nat.dvd_add (Nat.dvd_add (desc.starts b (by simp))
            cfg.dvd_sizeofStructMem) dvd
        · exact starts u inRear
      · rw [Isolated, List.isChain_cons] at isolated ⊢
        refine ⟨fun u isHead => ?_, isolated.2⟩
        have := isolated.1 u isHead
        simp only [free, Bool.false_eq_true, false_or] at this
        exact .inr this
  · obtain ⟨marked, counted⟩ := desc.cut.mark desc.toRegion isMarked isTaken
    refine ⟨{ b with used := true }, rear, rfl, ?_, marked, ?_, rfl, fun _ => id, id, isolated.tail⟩
    · simp only
      omega
    · rw [counted, Word32.add_eq (by omega)]

theorem Taken.lfree_ok {a : Block} {rear' : List Block} {lfree : Nat}
    (taking : Taken cfg heap taken front a rear') (behind : Behind cfg rear rear')
    (isStart : a.start = b.start) (free : b.used = false) (cut : Cut cfg heap (front ++ b :: rear))
    (freeAt : FreeAt heap.heapEnd (front ++ b :: rear) heap.lfree)
    (result : (if b.start = taken.lfree then
        nextFree taken (taken.heapEnd + 1) taken.lfree else some taken.lfree) = some lfree) :
    FreeAt taken.heapEnd (front ++ a :: rear') lfree ∧ (Lowest heap (front ++ b :: rear) →
        lfree = lowestFree taken.heapEnd (front ++ a :: rear')) := by
  obtain ⟨middle, frontTiles, rfl, -⟩ := Tiles.append_iff.mp cut
  have below := cfg.gap_pos
  have lowestBefore : lowestFree heap.heapEnd (front ++ b :: rear) = lowestFree b.start front := by
    rw [lowestFree_append, lowestFree, if_neg (by simp [free])]
  have lowestAfter : lowestFree taken.heapEnd (front ++ a :: rear') =
      lowestFree (lowestFree taken.heapEnd rear') front := by
    rw [lowestFree_append, lowestFree, if_pos taking.used]
  rw [lowestAfter, Lowest, lowestBefore]
  rw [taking.lfree] at result
  split at result
  · rename_i atLfree
    rw [← atLfree] at result ⊢
    obtain ⟨middle, -, rfl, rest⟩ := Tiles.append_iff.mp taking.cut
    rw [← isStart] at result
    have found : lfree = lowestFree taken.heapEnd rear' := by
      have ahead : lfree = lowestFree taken.heapEnd (a :: rear') := nextFree_eq ⟨rfl, rest⟩ result
      rwa [lowestFree, if_pos taking.used] at ahead
    constructor
    · rw [found]
      apply (freeAt_lowestFree taken.heapEnd rear').mono
      exact fun u mem isFree => ⟨u, by simp [mem], isFree, rfl⟩
    · intro lowest
      have allUsed := frontTiles.used_of_le_lowestFree below (Nat.le_of_eq lowest)
      rw [lowestFree_of_used allUsed, found]
  · rename_i apart
    cases result
    constructor
    · rcases freeAt with atEnd | ⟨u, mem, isFree, isPlace⟩
      · exact .inl (atEnd.trans taking.heapEnd.symm)
      · refine .inr ⟨u, ?_, isFree, isPlace⟩
        rcases List.mem_append.mp mem with inFront | inRest
        · simp [inFront]
        · rcases List.mem_cons.mp inRest with rfl | inRear
          · exact absurd isPlace apart
          · simp [behind.old u inRear]
    · intro lowest
      rcases used_or_free front with allUsed | ⟨u, mem, isFree⟩
      · rw [lowestFree_of_used allUsed] at lowest
        exact absurd lowest.symm apart
      · rw [lowest]
        exact lowestFree_of_free mem isFree _ _

theorem allocate_keeps (shape : Shape cfg heap (front ++ b :: rear)) (free : b.used = false)
    (dvd : cfg.alignSize ∣ n) (enough : n ≤ b.stop - (b.start + cfg.sizeofStructMem))
    {r : Option Nat} (allocated : allocate cfg heap b.start n = some (after, r)) :
    Keeps cfg heap (front ++ b :: rear) after ∧
      ∃ rmem, r = some rmem ∧ after.live = rmem :: heap.live := by
  simp only [allocate, Option.bind_eq_some_iff] at allocated
  obtain ⟨lfree, lowest, allocated⟩ := allocated
  obtain ⟨-, allocated⟩ := Option.ite_none_right_eq_some.mp allocated
  obtain ⟨a, rear', isStart, -, taking, counted, behind⟩ :=
    takeBlock_taken shape.toDescribed free shape.isolated.right_of_append dvd enough rfl
  obtain ⟨freeAt, stays⟩ := taking.lfree_ok behind isStart free shape.cut shape.lfree lowest
  have region := taking.region
  obtain ⟨rfl, rfl⟩ := allocated
  have isolatedFront := shape.isolated.left_of_append
  refine ⟨⟨front ++ a :: rear', ?_, stays⟩, _, rfl, by simp only [taking.live]⟩
  refine { endUsed := region.endUsed, endNext := region.endNext, endEq := region.endEq,
           fits := region.fits, heapPtrAligned := region.heapPtrAligned,
           heapEndAligned := region.heapEndAligned, cut := taking.cut, starts := ?_,
           usedMem := ?_, lfree := freeAt, live := ?_, isolated := ?_ }
  · intro u mem
    rcases List.mem_append.mp mem with inFront | inRest
    · exact shape.starts u (by simp [inFront])
    · rcases List.mem_cons.mp inRest with rfl | inRear
      · rw [isStart]
        exact shape.starts b (by simp)
      · refine behind.starts (fun third inOld => ?_) u inRear
        exact shape.starts third (by simp [inOld])
  · simp only [counted, shape.usedMem, usedBlocks_append, usedBlocks_cons, free, taking.used,
      behind.used, Bool.false_eq_true, if_false, if_true, spaceOf_append, spaceOf_cons]
    omega
  · have live := shape.live
    simp only [usedBlocks_append, usedBlocks_cons, free,
      List.map_append] at live
    simp only [taking.live, taking.heapPtr, usedBlocks_append, usedBlocks_cons, taking.used,
      behind.used, List.map_append]
    have isArea : heap.heapPtr + b.start + cfg.sizeofStructMem =
        userArea cfg heap.heapPtr a := by rw [userArea, isStart]
    rw [isArea]
    exact (live.cons _).trans List.perm_middle.symm
  · rw [Isolated, List.isChain_append]
    refine ⟨isolatedFront, ?_, ?_⟩
    · exact List.isChain_cons.mpr ⟨fun _ _ => .inl taking.used, behind.isolated⟩
    · intro last _ second isHead
      simp only [List.head?_cons, Option.mem_def, Option.some.injEq] at isHead
      subst isHead
      exact .inr taking.used

theorem rtMalloc_keeps (shape : Shape cfg heap blocks) {r : Option Nat}
    (allocated : rtMalloc cfg heap n = some (after, r)) : Keeps cfg heap blocks after ∧
      (r = none ∧ after = heap ∨ ∃ rmem, r = some rmem ∧ after.live = rmem :: heap.live) := by
  simp only [rtMalloc] at allocated
  split at allocated
  · simp only [Option.some.injEq] at allocated
    obtain ⟨rfl, rfl⟩ := allocated
    exact ⟨Keeps.refl shape, .inl ⟨rfl, rfl⟩⟩
  · split at allocated
    · simp only [Option.some.injEq] at allocated
      obtain ⟨rfl, rfl⟩ := allocated
      exact ⟨Keeps.refl shape, .inl ⟨rfl, rfl⟩⟩
    · rw [Option.bind_eq_some_iff] at allocated
      obtain ⟨found, searched, allocated⟩ := allocated
      cases found with
      | none =>
        obtain ⟨rfl, rfl⟩ := allocated
        exact ⟨Keeps.refl shape, .inl ⟨rfl, rfl⟩⟩
      | some ptr =>
        obtain ⟨front, b, rear, rfl, free, rfl, enough⟩ :=
          search_found shape.toDescribed (place_of_freeAt shape.lfree) searched
        obtain ⟨keeps, handedOut⟩ := allocate_keeps shape free (by
          split
          · exact cfg.dvd_minSizeAligned
          · exact cfg.dvd_rtAlign n) enough allocated
        exact ⟨keeps, .inr handedOut⟩

end RtThread.SmallMem
