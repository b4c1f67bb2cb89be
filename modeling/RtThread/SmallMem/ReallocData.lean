import RtThread.SmallMem.MemoryRefinement

/-!
# `rt_realloc` keeps the data

No header is ever written into the user area of a block in use.
-/

namespace RtThread.SmallMem

open Option (map_eq_some_iff ite_none_right_eq_some Rel mem_some_iff)

variable {cfg : Config} {heap after raw : Heap} {front rear bs blocks' : List Block}
  {block : Block} {start : Nat → BitVec 8} {places : Set Nat} {place : Nat}

theorem Described.zero_mem (desc : Described cfg heap bs) : 0 ∈ placesOf heap bs := by
  cases isBlocks : bs with
  | nil =>
    have cut := desc.cut
    rw [isBlocks] at cut
    exact .inl cut
  | cons a rest =>
    have cut := desc.cut
    rw [isBlocks] at cut
    exact .inr ⟨a, by simp, cut.1⟩

theorem Stands.starts (stands : Stands start places heap raw) (zero : 0 ∈ places)
    (desc : Described cfg heap bs) : (∀ block ∈ bs, block.start ∈ places) ∧ heap.heapEnd ∈ places :=
  desc.cut.closed zero stands.next

theorem Stands.usable (stands : Stands start places heap raw) (zero : 0 ∈ places)
    (usable : Usable cfg heap bs) : Usable cfg raw bs := by
  obtain ⟨starts, atEnd⟩ := stands.starts zero usable.toDescribed
  refine { endUsed := ?_, endNext := ?_, endEq := ?_, fits := ?_, heapPtrAligned := ?_,
           heapEndAligned := ?_, cut := ?_, starts := usable.starts, usedMem := ?_, lfree := ?_,
           live := ?_, isolated := usable.isolated, roomy := usable.roomy, stamped := ?_ }
  · rw [stands.heapEnd, stands.header _ atEnd]
    exact usable.endUsed
  · rw [stands.heapEnd, stands.header _ atEnd]
    exact usable.endNext
  · rw [stands.heapEnd, stands.memSizeAligned]
    exact usable.endEq
  · rw [stands.heapEnd, stands.heapPtr]
    exact usable.fits
  · rw [stands.heapPtr]
    exact usable.heapPtrAligned
  · rw [stands.heapEnd]
    exact usable.heapEndAligned
  · rw [Cut, stands.heapEnd]
    apply usable.cut.relink_starts cfg.gap_pos
    · intro block mem
      rw [headers_next, headers_next, stands.header _ (starts block mem)]
    · intro block mem
      rw [headers_used, headers_used, stands.header _ (starts block mem)]
    · intro block mem _
      rw [headers_prev, headers_prev, stands.header _ (starts block mem)]
    · intro more
      rw [headers_prev, stands.header 0 zero]
      have cut := usable.cut
      cases bs with
      | nil =>
        have atStart : 0 = heap.heapEnd := cut
        omega
      | cons a rest =>
        obtain ⟨-, -, prev, -⟩ := cut
        exact prev
  · rw [stands.usedMem]
    exact usable.usedMem
  · rw [stands.heapEnd, stands.lfree]
    exact usable.lfree
  · rw [stands.live, stands.heapPtr]
    exact usable.live
  · intro block mem
    rw [stands.header _ (starts block (mem_usedBlocks.mp mem).1)]
    exact usable.stamped block mem

def SameContents (cfg : Config) (heap after : Heap) (block : Block) : Prop :=
  ∀ address, userArea cfg heap.heapPtr block ≤ address →
    address < heap.heapPtr + block.stop → after.byte address = heap.byte address

def Clear (cfg : Config) (block : Block) (place : Nat) : Prop :=
  place + headerSize ≤ block.start + cfg.sizeofStructMem ∨ block.stop ≤ place

theorem Described.clear (desc : Described cfg heap bs) (mem : block ∈ bs)
    (isPlace : Place heap bs place) : Clear cfg block place := by
  have own := desc.cut.mem_bounds mem
  have gap := cfg.sizeofStructMem_bounds
  unfold Clear headerSize
  rcases isPlace with rfl | ⟨u, inBlocks, rfl⟩
  · exact .inr own.2.2
  · have bounds := desc.cut.mem_bounds inBlocks
    rcases desc.cut.apart mem inBlocks with rfl | front | behind
    · omega
    · omega
    · omega

theorem Described.clear_inside (desc : Described cfg heap bs)
    (mem : block ∈ usedBlocks bs) (inside : Inside cfg heap bs place) : Clear cfg block place := by
  obtain ⟨inBlocks, used⟩ := mem_usedBlocks.mp mem
  rcases inside with isPlace | ⟨free, inBlocks', isFree, above, below⟩
  · exact desc.clear inBlocks isPlace
  · unfold Clear
    rcases desc.cut.apart inBlocks inBlocks' with rfl | front | behind
    · simp [used] at isFree
    · omega
    · omega

theorem Stands.sameContents (stands : Stands heap.byte places after raw)
    (samePtr : after.heapPtr = heap.heapPtr) (clear : ∀ place ∈ places, Clear cfg block place) :
    SameContents cfg heap raw block := by
  intro a above below
  apply stands.outside
  intro place mem
  have apart := clear place mem
  unfold Clear at apart
  unfold userArea at above
  omega

structure Stored (cfg : Config) (heap : Heap) (bs : List Block) : Prop
    extends Usable cfg heap bs where
  coherent : heap.Coherent
  large : heap.live ≠ [] → cfg.minSizeAligned ≤ heap.memSizeAligned

structure Becomes (cfg : Config) (heap after : Heap) (blocks' kept : List Block) : Prop
    extends Stored cfg after blocks' where
  samePtr : after.heapPtr = heap.heapPtr
  contents : ∀ block ∈ kept, SameContents cfg heap after block

theorem exists_of_rel_some {α β : Type} {related : α → β → Prop} {a : Option α} {second : β}
    (rel : Rel related a (some second)) : ∃ v, a = some v ∧ related v second := by
  cases rel with
  | some holds => exact ⟨_, rfl, holds⟩

theorem exists_of_rel_of_some {α β : Type} {related : α → β → Prop} {a : α} {second : Option β}
    (rel : Rel related (some a) second) : ∃ v, second = some v ∧ related a v := by
  cases rel with
  | some holds => exact ⟨_, rfl, holds⟩

theorem Follows.becomes (follows : Follows cfg heap.byte heap bs after raw)
    (desc : Described cfg heap bs) (same : SameBytes heap after) (usable : Usable cfg after blocks')
    (large : after.live ≠ [] → cfg.minSizeAligned ≤ heap.memSizeAligned) :
    Becomes cfg heap raw blocks' (usedBlocks bs) := by
  obtain ⟨places, stands, grows, inside⟩ := follows
  refine { toUsable := stands.usable (grows desc.zero_mem) usable
           coherent := stands.coherent
           large := ?_
           samePtr := stands.heapPtr.trans same.heapPtr
           contents := ?_ }
  · rw [stands.live, stands.memSizeAligned, same.memSizeAligned]
    exact large
  · intro block mem
    apply stands.sameContents same.heapPtr
    exact fun place isPlace => desc.clear_inside mem (inside place isPlace)

variable {n : Nat} {kept : List Block} {middle : Heap} {r : Option Nat}

theorem Stored.rtMalloc_null (stored : Stored cfg heap bs)
    (allocated : InMemory.rtMalloc cfg heap n = some (after, none)) :
    Becomes cfg heap after bs (usedBlocks bs) := by
  have related := (stored.toDescribed.stands stored.coherent).rtMalloc stored.toShape n
  rw [allocated] at related
  obtain ⟨⟨abstract, r⟩, ret, follows, rfl⟩ := exists_of_rel_some related
  obtain rfl := SmallMem.rtMalloc_null stored.toShape ret
  exact follows.becomes stored.toDescribed ⟨rfl, rfl, rfl, rfl⟩ stored.toUsable stored.large

theorem Stored.rtMalloc_some (stored : Stored cfg heap bs) {rmem : Nat}
    (allocated : InMemory.rtMalloc cfg heap n = some (after, some rmem)) :
    ∃ blocks' a, rmem = userArea cfg heap.heapPtr a ∧
      cfg.need n ≤ a.stop - a.start - cfg.sizeofStructMem ∧
      (usedBlocks blocks').Perm (a :: usedBlocks bs) ∧
      Becomes cfg heap after blocks' (usedBlocks bs) := by
  have related := (stored.toDescribed.stands stored.coherent).rtMalloc stored.toShape n
  rw [allocated] at related
  obtain ⟨⟨abstract, r⟩, ret, follows, rfl⟩ := exists_of_rel_some related
  obtain ⟨blocks', a, isArea, usable, handsOut⟩ := stored.toUsable.rtMalloc ret
  refine ⟨blocks', a, isArea, handsOut.room, handsOut.used,
    follows.becomes stored.toDescribed handsOut.same usable fun _ => ?_⟩
  have isUsed : a ∈ usedBlocks blocks' := handsOut.used.mem_iff.mpr (by simp)
  have bounds := usable.cut.mem_bounds (mem_usedBlocks.mp isUsed).1
  have room := handsOut.room
  have endEq := stored.endEq
  have sameEnd := handsOut.same.heapEnd
  have least : cfg.minSizeAligned ≤ cfg.need n := Nat.le_max_right _ _
  omega

theorem Stored.rtMalloc_returns (stored : Stored cfg heap bs) (pos : 0 < n)
    (isLive : heap.live ≠ []) : ∃ answer, InMemory.rtMalloc cfg heap n = some answer := by
  have related := (stored.toDescribed.stands stored.coherent).rtMalloc stored.toShape n
  have least := stored.large isLive
  have returns : ∃ answer, SmallMem.rtMalloc cfg heap n = some answer := by
    by_cases small : cfg.rtAlign n ≤ heap.memSizeAligned
    · by_cases reached : HasReachedFit cfg heap (cfg.need n)
      · obtain ⟨after, rmem, ret⟩ := stored.toShape.rtMalloc_some pos reached
        exact ⟨_, ret⟩
      · have fits : cfg.need n ≤ heap.memSizeAligned := Nat.max_le.mpr ⟨small, least⟩
        rw [rtMalloc_eq heap pos small, (stored.toShape.search_lfree fits).2 reached]
        exact ⟨_, rfl⟩
    · rw [SmallMem.rtMalloc, if_neg (by omega), if_pos (by omega)]
      exact ⟨_, rfl⟩
  obtain ⟨answer, ret⟩ := returns
  rw [ret] at related
  obtain ⟨answer, returns, -⟩ := exists_of_rel_of_some related
  exact ⟨answer, returns⟩

theorem Stored.write (stored : Stored cfg heap bs) (mem : block ∈ bs) {byte : Nat → BitVec 8}
    (outside : ∀ a, a < userArea cfg heap.heapPtr block ∨
      heap.heapPtr + block.stop ≤ a → byte a = heap.byte a) :
    Becomes cfg heap (heap.inMemory byte) bs ((usedBlocks bs).filter fun u => u ≠ block) := by
  have desc := stored.toDescribed
  have old := desc.stands stored.coherent
  have stands : Stands byte (placesOf heap bs) heap (heap.inMemory byte) := by
    refine ⟨rfl, ?_, old.next, old.prev, old.small, old.spaced, fun _ _ => rfl⟩
    intro place isPlace
    rw [stored.coherent place]
    apply loadHeader_congr
    intro a above below
    apply outside
    have clear := desc.clear mem isPlace
    unfold Clear at clear
    unfold userArea
    omega
  refine { toUsable := stands.usable desc.zero_mem stored.toUsable
           coherent := stands.coherent
           large := stored.large
           samePtr := rfl
           contents := ?_ }
  intro u isKept a above below
  simp only [List.mem_filter, decide_eq_true_eq] at isKept
  apply outside
  unfold userArea at above ⊢
  rcases desc.cut.apart mem (mem_usedBlocks.mp isKept.1).1 with same | front | behind
  · exact absurd same.symm isKept.2
  · omega
  · omega

structure Preserved (cfg : Config) (heap after : Heap) (rmem : Nat) : Prop where
  live : rmem ∈ after.live
  capacity : capacity cfg after rmem = capacity cfg heap rmem
  contents : ∀ offset < SmallMem.capacity cfg heap rmem,
    after.byte (rmem + offset) = heap.byte (rmem + offset)

theorem Usable.mem_live (usable : Usable cfg heap bs)
    (mem : block ∈ usedBlocks bs) : userArea cfg heap.heapPtr block ∈ heap.live :=
  usable.live.mem_iff.mpr (List.mem_map_of_mem mem)

theorem Becomes.preserved (becomes : Becomes cfg heap after blocks' kept)
    (shape : Shape cfg heap bs) (mem : block ∈ usedBlocks bs) (still : block ∈ usedBlocks blocks')
    (isKept : block ∈ kept) : Preserved cfg heap after (userArea cfg heap.heapPtr block) := by
  have own := shape.capacity_eq mem
  have later := becomes.capacity_eq still
  have isLive := becomes.mem_live still
  rw [becomes.samePtr] at later isLive
  refine ⟨isLive, later.trans own.symm, ?_⟩
  intro offset below
  apply becomes.contents block isKept
  · omega
  · unfold userArea
    omega

/-- What `rt_realloc` of a live pointer to a size, rounded up, does with the data. -/
structure Reallocates (cfg : Config) (heap : Heap) (rmem newsize : Nat) (after : Heap)
    (result : Option Nat) : Prop where
  copied : ∀ nmem ∈ result, nmem ∈ after.live ∧
    ∀ offset < min (capacity cfg heap rmem) newsize,
      after.byte (nmem + offset) = heap.byte (rmem + offset)
  failed : result = none → Preserved cfg heap after rmem
  others : ∀ u ∈ heap.live, u ≠ rmem → Preserved cfg heap after u

theorem SameContents.trans (first : SameContents cfg heap middle block)
    (samePtr : middle.heapPtr = heap.heapPtr) (second : SameContents cfg middle after block) :
    SameContents cfg heap after block := by
  intro address above below
  rw [← first address above below]
  rw [← samePtr] at above below
  exact second address above below

theorem Becomes.trans (a : Becomes cfg heap middle bs kept)
    (second : Becomes cfg middle after blocks' kept) : Becomes cfg heap after blocks' kept where
  toStored := second.toStored
  samePtr := second.samePtr.trans a.samePtr
  contents := fun block mem => (a.contents block mem).trans a.samePtr
    (second.contents block mem)

theorem Becomes.mono {fewer : List Block} (becomes : Becomes cfg heap after blocks' kept)
    (fewerKept : ∀ block ∈ fewer, block ∈ kept) : Becomes cfg heap after blocks' fewer where
  toStored := becomes.toStored
  samePtr := becomes.samePtr
  contents := fun block mem => becomes.contents block (fewerKept block mem)

theorem Described.nodup (desc : Described cfg heap bs) : (usedBlocks bs).Nodup := by
  have distinct : bs.Nodup := (desc.cut.pairwise_start cfg.gap_pos).imp fun below same => by
    simp [same] at below
  exact distinct.filter _

theorem Reallocates.unchanged (heap : Heap) {rmem : Nat} (isLive : rmem ∈ heap.live) (n : Nat)
    (same : ∀ nmem ∈ r, nmem = rmem) : Reallocates cfg heap rmem n heap r where
  copied := by
    intro nmem isResult
    obtain rfl := same nmem isResult
    exact ⟨isLive, fun _ _ => rfl⟩
  failed := fun _ => ⟨isLive, rfl, fun _ _ => rfl⟩
  others := fun _ otherLive _ => ⟨otherLive, rfl, fun _ _ => rfl⟩

theorem Stored.fails (stored : Stored cfg heap bs) (mem : block ∈ usedBlocks bs)
    (allocated : InMemory.rtMalloc cfg heap n = some (after, none)) :
    Reallocates cfg heap (userArea cfg heap.heapPtr block) n after none ∧
      ∃ blocks', Stored cfg after blocks' := by
  have becomes := stored.rtMalloc_null allocated
  refine ⟨⟨by simp, fun _ => ?_, ?_⟩, bs, becomes.toStored⟩
  · exact becomes.preserved stored.toShape mem mem mem
  · intro u isLive _
    obtain ⟨kept, isUsed, rfl⟩ := List.mem_map.mp (stored.live.mem_iff.mp isLive)
    exact becomes.preserved stored.toShape isUsed isUsed isUsed

section

variable (stored : Stored cfg heap (front ++ block :: rear))

include stored

theorem Stored.rtFree (used : block.used = true) :
    ∃ after blocks', InMemory.rtFree cfg heap (some (userArea cfg heap.heapPtr block)) =
        some after ∧ usedBlocks blocks' = usedBlocks (front ++ rear) ∧
      Becomes cfg heap after blocks' (usedBlocks (front ++ block :: rear)) := by
  obtain ⟨abstract, freed⟩ := stored.toUsable.rtFree_returns used
  obtain ⟨blocks', usable, same, still, live⟩ := stored.toUsable.rtFree used freed
  have stands := stored.toDescribed.stands stored.coherent
  have related : Rel (Stands heap.byte (placesOf heap (front ++ block :: rear)))
      (SmallMem.rtFree cfg heap (some (userArea cfg heap.heapPtr block)))
      (InMemory.rtFree cfg heap (some (userArea cfg heap.heapPtr block))) := stands.rtFree
  rw [freed] at related
  obtain ⟨after, returns, stands⟩ := exists_of_rel_of_some related
  refine ⟨after, blocks', returns, still, stands.follows.becomes stored.toDescribed same usable ?_⟩
  intro isLive
  apply stored.large
  rintro none
  simp [live, none] at isLive

theorem Stored.shrink (used : block.used = true) (pos : n ≠ 0)
    (fits : n + cfg.sizeofStructMem + minSize < block.stop - block.start - cfg.sizeofStructMem)
    (dvd : cfg.alignSize ∣ n) : ∃ after blocks', InMemory.shrink cfg heap block.start
        (block.stop - block.start - cfg.sizeofStructMem) n = some after ∧
      usedBlocks blocks' = usedBlocks (front ++
        { block with stop := block.start + cfg.sizeofStructMem + n } :: rear) ∧
      Becomes cfg heap after blocks' (usedBlocks blocks') := by
  have shape := stored.toShape
  obtain ⟨desc, -, -, kept, -⟩ := cutOff_described shape used fits dvd
  have sameEnd : (cutOff cfg heap block n).heapEnd = heap.heapEnd := kept.heapEnd
  obtain ⟨abstract, shrunk⟩ : ∃ abstract, SmallMem.shrink cfg heap block.start
      (block.stop - block.start - cfg.sizeofStructMem) n = some abstract := by
    obtain ⟨-, -, isUsed, -⟩ := desc.cut.header_block
    have isFree : ((cutOff cfg heap block n).header
        (block.start + cfg.sizeofStructMem + n)).used = 0 := by
      simpa using isUsed
    have below : block.start + cfg.sizeofStructMem + n < (cutOff cfg heap block n).heapEnd := by
      have own := shape.cut.header_block
      omega
    rw [shrink_eq shape used fits, SmallMem.plugHoles, if_pos ⟨below, isFree⟩]
    exact ⟨_, rfl⟩
  obtain ⟨blocks', usable, same, still, live⟩ := stored.toUsable.shrink used pos fits dvd shrunk
  have stands := stored.toDescribed.stands stored.coherent
  have related := stands.shrink stored.toDescribed fits
  rw [shrunk] at related
  obtain ⟨after, returns, stands⟩ := exists_of_rel_of_some related
  have places : ∀ place ∈ insert (block.start + cfg.sizeofStructMem + n)
      (placesOf heap (front ++ block :: rear)), Place (cutOff cfg heap block n)
        (cutBlocks cfg front block rear n) place := by
    rw [Set.forall_mem_insert]
    refine ⟨.inr ⟨⟨block.start + cfg.sizeofStructMem + n, block.stop, false⟩,
      by simp [cutBlocks], rfl⟩, ?_⟩
    rintro place (atEnd | ⟨u, mem, rfl⟩)
    · exact .inl (atEnd.trans sameEnd.symm)
    · simp only [List.mem_append, List.mem_cons] at mem
      rcases mem with inFront | rfl | inRear
      · exact .inr ⟨u, by simp [cutBlocks, inFront], rfl⟩
      · exact .inr ⟨⟨u.start, u.start + cfg.sizeofStructMem + n, u.used⟩, by simp [cutBlocks], rfl⟩
      · exact .inr ⟨u, by simp [cutBlocks, inRear], rfl⟩
  refine ⟨after, blocks', returns, still,
    { toUsable := stands.usable (.inr stored.toDescribed.zero_mem) usable
      coherent := stands.coherent
      large := ?_
      samePtr := stands.heapPtr.trans same.heapPtr
      contents := ?_ }⟩
  · rw [stands.live, live, stands.memSizeAligned, same.memSizeAligned]
    exact stored.large
  · intro kept mem
    rw [still] at mem
    have inBlocks : kept ∈ cutBlocks cfg front block rear n := by
      have := (mem_usedBlocks.mp mem).1
      simp only [cutBlocks, List.mem_append, List.mem_cons] at this ⊢
      tauto
    apply stands.sameContents same.heapPtr
    exact fun place isPlace => desc.clear inBlocks (places place isPlace)

theorem Stored.moves (used : block.used = true) {nmem : Nat} (rounded : n ≤ cfg.need n)
    (allocated : InMemory.rtMalloc cfg heap n = some (middle, some nmem)) :
    ∃ after, InMemory.rtFree cfg (middle.inMemory (rtMemcpy middle.byte nmem
        (userArea cfg heap.heapPtr block) (min (block.stop - block.start - cfg.sizeofStructMem) n)))
        (some (userArea cfg heap.heapPtr block)) = some after ∧
      Reallocates cfg heap (userArea cfg heap.heapPtr block) n after (some nmem) ∧
      ∃ blocks', Stored cfg after blocks' := by
  obtain ⟨bs, first, rfl, room, perm, before⟩ := stored.rtMalloc_some allocated
  have isBlock : block ∈ usedBlocks (front ++ block :: rear) := mem_usedBlocks.mpr ⟨by simp, used⟩
  have isFirst : first ∈ usedBlocks bs := perm.mem_iff.mpr (by simp)
  have isUsed : block ∈ usedBlocks bs := perm.mem_iff.mpr (List.mem_cons_of_mem _ isBlock)
  have isNew : first ∉ usedBlocks (front ++ block :: rear) :=
    (List.nodup_cons.mp (perm.nodup_iff.mp before.toDescribed.nodup)).1
  have apart : block ≠ first := by
    rintro rfl
    exact isNew isBlock
  have samePtr := before.samePtr
  have outside : ∀ a, a < userArea cfg middle.heapPtr first ∨
      middle.heapPtr + first.stop ≤ a →
        rtMemcpy middle.byte (userArea cfg heap.heapPtr first)
          (userArea cfg heap.heapPtr block)
          (min (block.stop - block.start - cfg.sizeofStructMem) n) a = middle.byte a := by
    intro a outside
    rw [rtMemcpy, if_neg]
    unfold userArea at outside ⊢
    omega
  have written := before.toStored.write (mem_usedBlocks.mp isFirst).1 outside
  obtain ⟨front', rear', rfl⟩ := List.append_of_mem (mem_usedBlocks.mp isUsed).1
  obtain ⟨after, blocks', freed, still, later⟩ := written.toStored.rtFree used
  have samePtr' : (middle.inMemory (rtMemcpy middle.byte (userArea cfg heap.heapPtr first)
      (userArea cfg heap.heapPtr block)
      (min (block.stop - block.start - cfg.sizeofStructMem) n))).heapPtr = heap.heapPtr := samePtr
  rw [samePtr'] at freed
  have remains : ∀ u ∈ usedBlocks (front' ++ block :: rear'), u ≠ block →
      u ∈ usedBlocks blocks' := by
    intro u mem ne
    rw [still, mem_usedBlocks]
    have := mem_usedBlocks.mp mem
    simp only [List.mem_append, List.mem_cons, ne, false_or] at this ⊢
    exact this
  refine ⟨after, freed, ⟨?_, by simp, ?_⟩, blocks', later.toStored⟩
  · simp only [mem_some_iff, forall_eq']
    have isLive := later.mem_live (remains first isFirst apart.symm)
    rw [later.samePtr, samePtr'] at isLive
    refine ⟨isLive, ?_⟩
    intro offset below
    rw [stored.capacity_eq isBlock] at below
    have copied := later.contents first isFirst (userArea cfg heap.heapPtr first + offset)
    have same := before.contents block isBlock (userArea cfg heap.heapPtr block + offset)
      (Nat.le_add_right _ _) (by unfold userArea; omega)
    rw [samePtr'] at copied
    rw [copied (Nat.le_add_right _ _) (by unfold userArea; omega), ← same]
    simp only [Heap.inMemory, rtMemcpy]
    rw [if_pos ⟨Nat.le_add_right _ _, by omega⟩, Nat.add_sub_cancel_left]
  · intro u isLive ne
    obtain ⟨kept, mem, rfl⟩ := List.mem_map.mp (stored.live.mem_iff.mp isLive)
    have notBlock : kept ≠ block := by
      rintro rfl
      exact ne rfl
    have notFirst : kept ≠ first := by
      rintro rfl
      exact isNew mem
    have inMiddle : kept ∈ usedBlocks (front' ++ block :: rear') :=
      perm.mem_iff.mpr (List.mem_cons_of_mem _ mem)
    have isWritten : kept ∈ (usedBlocks (front' ++ block :: rear')).filter
        fun u => u ≠ first := List.mem_filter.mpr ⟨inMiddle, by simpa using notFirst⟩
    have contents : Becomes cfg heap after blocks' [kept] :=
      ((before.mono (List.forall_mem_singleton.mpr mem)).trans
        (written.mono (List.forall_mem_singleton.mpr isWritten))).trans
          (later.mono (List.forall_mem_singleton.mpr inMiddle))
    exact contents.preserved stored.toShape mem (remains kept inMiddle notBlock) (by simp)

theorem Stored.shrinks (used : block.used = true) (pos : n ≠ 0)
    (fits : n + cfg.sizeofStructMem + minSize < block.stop - block.start - cfg.sizeofStructMem)
    (dvd : cfg.alignSize ∣ n) : ∃ after, InMemory.shrink cfg heap block.start
        (block.stop - block.start - cfg.sizeofStructMem) n = some after ∧
      Reallocates cfg heap (userArea cfg heap.heapPtr block) n after
        (some (userArea cfg heap.heapPtr block)) ∧ ∃ blocks', Stored cfg after blocks' := by
  obtain ⟨after, blocks', shrunk, still, becomes⟩ := stored.shrink used pos fits dvd
  have isCut : (⟨block.start, block.start + cfg.sizeofStructMem + n, block.used⟩ : Block) ∈
      usedBlocks blocks' := by
    rw [still, mem_usedBlocks]
    exact ⟨by simp, used⟩
  refine ⟨after, shrunk, ⟨?_, by simp, ?_⟩, blocks', becomes.toStored⟩
  · simp only [mem_some_iff, forall_eq']
    have isLive := becomes.mem_live isCut
    rw [becomes.samePtr] at isLive
    refine ⟨isLive, ?_⟩
    intro offset below
    apply becomes.contents _ isCut
    · exact Nat.le_add_right _ _
    · simp only
      unfold userArea
      omega
  · intro u isLive ne
    obtain ⟨kept, mem, rfl⟩ := List.mem_map.mp (stored.live.mem_iff.mp isLive)
    have notBlock : kept ≠ block := by
      rintro rfl
      exact ne rfl
    have remains : kept ∈ usedBlocks blocks' := by
      rw [still, mem_usedBlocks]
      have := mem_usedBlocks.mp mem
      simp only [List.mem_append, List.mem_cons] at this ⊢
      tauto
    exact becomes.preserved stored.toShape mem remains remains

theorem Stored.rtRealloc (used : block.used = true) (pos : 0 < n) (noWrap : NoWrap cfg n) :
    ∃ after r, InMemory.rtRealloc cfg heap (some (userArea cfg heap.heapPtr block))
        n = some (after, r) ∧
      Reallocates cfg heap (userArea cfg heap.heapPtr block) (cfg.rtAlign n) after
        r ∧ ∃ blocks', Stored cfg after blocks' := by
  have rounded := (cfg.rtAlign_bounds noWrap).1
  have isBlock : block ∈ usedBlocks (front ++ block :: rear) := mem_usedBlocks.mpr ⟨by simp, used⟩
  have isLive := stored.mem_live isBlock
  have nonzero : cfg.rtAlign n ≠ 0 := by omega
  simp only [InMemory.rtRealloc, stored.area_inRange (stored.roomyAt used), headerOf_userArea,
    stored.size_eq, if_false]
  split
  · exact ⟨heap, none, rfl, .unchanged heap isLive _ (by simp), _, stored⟩
  · rename_i fits
    rw [stored.add_minSize (Nat.le_of_not_lt fits)]
    split
    · exact ⟨heap, _, rfl, .unchanged heap isLive _ (by simp), _, stored⟩
    split
    · rename_i shrinks
      obtain ⟨after, shrunk, reallocates⟩ := stored.shrinks used nonzero shrinks (cfg.dvd_rtAlign n)
      rw [shrunk]
      exact ⟨after, _, rfl, reallocates⟩
    · obtain ⟨⟨middle, nmem⟩, allocated⟩ :=
        stored.rtMalloc_returns (Nat.pos_of_ne_zero nonzero) (List.ne_nil_of_mem isLive)
      rw [allocated]
      cases nmem with
      | none => exact ⟨middle, none, rfl, stored.fails isBlock allocated⟩
      | some nmem =>
        have isMin : (if block.stop - block.start - cfg.sizeofStructMem <
            cfg.rtAlign n then block.stop - block.start - cfg.sizeofStructMem
            else cfg.rtAlign n) = min (block.stop - block.start - cfg.sizeofStructMem)
                (cfg.rtAlign n) := by
          split <;> omega
        obtain ⟨after, freed, reallocates⟩ := stored.moves used
          (cfg.le_need (stored.noWrap_of_le (Nat.le_of_not_lt fits))) allocated
        simp only [Option.bind_some, isMin, freed]
        exact ⟨after, _, rfl, reallocates⟩

end

theorem stands_two (heap : Heap) (m : Nat → BitVec 8) (first last : HeapMem) {raw : Heap}
    (firstFits : first.Fits) (lastFits : last.Fits) (firstNext : first.next = heap.heapEnd)
    (firstPrev : first.prev = 0) (lastNext : last.next = heap.heapEnd)
    (apart : headerSize ≤ heap.heapEnd) (small : heap.heapEnd < 2 ^ 32)
    (isRaw : raw = InMemory.setHeader (InMemory.setHeader (heap.inMemory m) 0 first)
      heap.heapEnd last) :
    Stands raw.byte {0, heap.heapEnd} ((heap.setHeader 0 first).setHeader heap.heapEnd last)
      raw := by
  have pos : 0 ≠ heap.heapEnd := by
    unfold headerSize at apart
    omega
  have pair (holds : Nat → Prop) : (∀ place ∈ ({0, heap.heapEnd} : Set Nat), holds place) ↔
      holds 0 ∧ holds heap.heapEnd := by
    simp
  have byte : raw.byte = storeHeader (storeHeader m (heap.heapPtr + 0) first)
      (heap.heapPtr + heap.heapEnd) last := by
    rw [isRaw]
    rfl
  have header (place : Nat) : raw.header place = loadHeader raw.byte (heap.heapPtr + place) := by
    rw [isRaw]
    rfl
  have atStart : ((heap.setHeader 0 first).setHeader heap.heapEnd last).header 0 = first := by
    simp [pos]
  have atEnd : ((heap.setHeader 0 first).setHeader heap.heapEnd last).header heap.heapEnd =
      last := by
    simp
  refine ⟨by rw [isRaw]; rfl, ?_, ?_, ?_, ?_, ?_, fun _ _ => rfl⟩
  · rw [pair, atStart, atEnd, header, header, byte]
    refine ⟨?_, loadHeader_storeHeader _ _ lastFits⟩
    have apartly : loadHeader (storeHeader (storeHeader m (heap.heapPtr + 0) first)
        (heap.heapPtr + heap.heapEnd) last) (heap.heapPtr + 0) =
          loadHeader (storeHeader m (heap.heapPtr + 0) first) (heap.heapPtr + 0) := by
      apply loadHeader_congr
      intro a above below
      exact storeHeader_outside (by omega)
    rw [apartly, loadHeader_storeHeader _ _ firstFits]
  · rw [pair, atStart, atEnd, firstNext, lastNext]
    simp
  · rw [pair, atStart, firstPrev]
    exact ⟨fun _ => ⟨by simp, pos⟩, fun ne => absurd rfl ne⟩
  · rw [pair]
    exact ⟨by decide, small⟩
  · rw [pair, pair, pair]
    refine ⟨⟨.inl rfl, .inr (.inl ?_)⟩, .inr (.inr ?_), .inl rfl⟩ <;> omega

theorem initial_stored (init : InMemory.Initial cfg heap) : ∃ bs, Stored cfg heap bs := by
  obtain ⟨m, beginAddr, endAddr, small, accepted⟩ := init
  obtain ⟨enough, accepted⟩ := ite_none_right_eq_some.mp accepted
  have abstractly : ∃ abstract, SmallMem.rtSystemHeapInit cfg
      (fun place => loadHeader m (cfg.rtAlign beginAddr + place)) m beginAddr
      endAddr = some abstract := by
    rw [rtSystemHeapInit, if_pos enough]
    exact ⟨_, rfl⟩
  obtain ⟨abstract, isAbstract⟩ := abstractly
  obtain ⟨bs, usable⟩ := initial_usable ⟨_, _, _, _, small, isAbstract⟩
  have below := usable.heapEnd_lt
  have endEq := usable.endEq
  have gap := cfg.sizeofStructMem_bounds
  rw [rtSystemHeapInit, if_pos enough] at isAbstract
  cases isAbstract
  generalize Word32.sub (Word32.sub (cfg.rtAlignDown endAddr) (cfg.rtAlign beginAddr))
    (Word32.add cfg.sizeofStructMem cfg.sizeofStructMem) = memSizeAligned at *
  generalize Word32.add memSizeAligned cfg.sizeofStructMem = heapEnd at *
  have enough : headerSize ≤ heapEnd := by
    unfold headerSize
    simp only at endEq
    omega
  simp only at below
  have word : heapEnd < 2 ^ 32 := by omega
  have magic : heapMagic < 2 ^ 16 := by decide
  have stands := stands_two
    ⟨cfg.rtAlign beginAddr, heapEnd, 0, memSizeAligned, 0, 0,
      fun place => loadHeader m (cfg.rtAlign beginAddr + place), m, []⟩
    m ⟨heapMagic, 0, heapEnd, 0⟩ ⟨heapMagic, 1, heapEnd, heapEnd⟩
    ⟨magic, Nat.two_pow_pos 16, word, Nat.two_pow_pos 32⟩
    ⟨magic, Nat.one_lt_two_pow (by decide), word, word⟩ rfl rfl rfl enough word
    (Option.some.inj accepted).symm
  exact ⟨bs, stands.usable (by simp) usable, stands.coherent,
    fun isLive => absurd stands.live isLive⟩

theorem Stored.rtMalloc_stored (stored : Stored cfg heap bs)
    (allocated : InMemory.rtMalloc cfg heap n = some (after, r)) :
    ∃ blocks', Stored cfg after blocks' := by
  cases r with
  | none => exact ⟨bs, (stored.rtMalloc_null allocated).toStored⟩
  | some rmem =>
    obtain ⟨blocks', a, -, -, -, becomes⟩ := stored.rtMalloc_some allocated
    exact ⟨blocks', becomes.toStored⟩

theorem Stored.rtCalloc_stored (stored : Stored cfg heap bs) {count : Nat}
    (noWrap : NoWrap cfg (product count n))
    (cleared : InMemory.rtCalloc cfg heap count n = some (after, r)) :
    ∃ blocks', Stored cfg after blocks' := by
  simp only [InMemory.rtCalloc, map_eq_some_iff] at cleared
  obtain ⟨⟨middle, p⟩, allocated, cleared⟩ := cleared
  cases p with
  | none =>
    obtain ⟨rfl, -⟩ := Prod.mk.inj cleared
    exact stored.rtMalloc_stored allocated
  | some rmem =>
    obtain ⟨rfl, -⟩ := Prod.mk.inj cleared
    obtain ⟨blocks', first, rfl, room, perm, becomes⟩ := stored.rtMalloc_some allocated
    have isFirst : first ∈ usedBlocks blocks' := perm.mem_iff.mpr (by simp)
    have fits := (cfg.le_need noWrap).trans room
    refine ⟨blocks', (becomes.toStored.write (mem_usedBlocks.mp isFirst).1 ?_).toStored⟩
    intro a outside
    rw [becomes.samePtr] at outside
    rw [rtMemset, if_neg]
    unfold userArea at outside ⊢
    omega

theorem Stored.rtFree_stored (stored : Stored cfg heap bs) {rmem : Option Nat}
    (admitted : heap.Admits rmem) (freed : InMemory.rtFree cfg heap rmem = some after) :
    ∃ blocks', Stored cfg after blocks' := by
  cases rmem with
  | none =>
    cases freed
    exact ⟨bs, stored⟩
  | some rmem =>
    obtain ⟨front, block, rear, rfl, used, rfl⟩ := stored.toUsable.ofLive admitted
    obtain ⟨_, blocks', ret, -, becomes⟩ := stored.rtFree used
    obtain rfl := Option.some.inj (ret.symm.trans freed)
    exact ⟨blocks', becomes.toStored⟩

theorem Config.rtAlign_zero (cfg : Config) : cfg.rtAlign 0 = 0 := by
  have bound := cfg.alignSize_le
  have noWrap : NoWrap cfg 0 := by
    unfold NoWrap
    omega
  have below := (cfg.rtAlign_bounds noWrap).2
  rw [Nat.zero_add] at below
  exact Nat.eq_zero_of_dvd_of_lt (cfg.dvd_rtAlign 0) below

theorem Stored.rtRealloc_stored (stored : Stored cfg heap bs) {rmem : Option Nat}
    (admitted : heap.Admits rmem) (small : n < 2 ^ 32)
    (resized : InMemory.rtRealloc cfg heap rmem n = some (after, r)) :
    ∃ blocks', Stored cfg after blocks' := by
  by_cases zero : cfg.rtAlign n = 0
  · simp only [InMemory.rtRealloc, zero, Nat.not_lt_zero, if_false, if_true,
      map_eq_some_iff] at resized
    obtain ⟨_, freed, rfl, -⟩ := resized
    exact stored.rtFree_stored admitted freed
  · cases rmem with
    | none =>
      simp only [InMemory.rtRealloc] at resized
      split at resized
      · obtain ⟨rfl, -⟩ := Prod.mk.inj (Option.some.inj resized)
        exact ⟨bs, stored⟩
      · exact stored.rtMalloc_stored resized
    | some rmem =>
      have noWrap : NoWrap cfg n := by
        by_contra wraps
        exact zero (cfg.rtAlign_of_wrap small wraps)
      have pos : 0 < n := by
        by_contra none
        obtain rfl : n = 0 := by omega
        exact zero cfg.rtAlign_zero
      obtain ⟨front, block, rear, rfl, used, rfl⟩ := stored.toUsable.ofLive admitted
      obtain ⟨_, _, ret, -, later⟩ := stored.rtRealloc used pos noWrap
      obtain ⟨rfl, -⟩ := Prod.mk.inj (Option.some.inj (ret.symm.trans resized))
      exact later

theorem Stored.writeByte (stored : Stored cfg heap bs) {rmem offset : Nat}
    {v : BitVec 8} (isLive : rmem ∈ heap.live) (below : offset < capacity cfg heap rmem) :
    Stored cfg (heap.inMemory (Function.update heap.byte (rmem + offset) v)) bs := by
  obtain ⟨front, block, rear, rfl, used, rfl⟩ := stored.toUsable.ofLive isLive
  have isBlock : block ∈ usedBlocks (front ++ block :: rear) := mem_usedBlocks.mpr ⟨by simp, used⟩
  rw [stored.capacity_eq isBlock] at below
  refine (stored.write (mem_usedBlocks.mp isBlock).1 ?_).toStored
  intro a outside
  apply Function.update_of_ne
  unfold userArea at outside ⊢
  omega

theorem step_stored (stored : Stored cfg heap bs) {e : InMemory.Event}
    (step : InMemory.step cfg heap e = some after) : ∃ blocks', Stored cfg after blocks' := by
  cases e with
  | malloc n =>
    obtain ⟨-, step⟩ := ite_none_right_eq_some.mp step
    simp only [map_eq_some_iff] at step
    obtain ⟨⟨_, r⟩, allocated, rfl⟩ := step
    exact stored.rtMalloc_stored allocated
  | calloc count n =>
    obtain ⟨admitted, step⟩ := ite_none_right_eq_some.mp step
    simp only [map_eq_some_iff] at step
    obtain ⟨⟨_, r⟩, cleared, rfl⟩ := step
    exact stored.rtCalloc_stored admitted.2.2 cleared
  | realloc rmem newsize =>
    obtain ⟨admitted, step⟩ := ite_none_right_eq_some.mp step
    simp only [map_eq_some_iff] at step
    obtain ⟨⟨_, r⟩, resized, rfl⟩ := step
    exact stored.rtRealloc_stored admitted.1 admitted.2 resized
  | free rmem =>
    obtain ⟨admitted, step⟩ := ite_none_right_eq_some.mp step
    exact stored.rtFree_stored admitted step
  | write rmem offset v =>
    obtain ⟨admitted, ⟨⟩⟩ := ite_none_right_eq_some.mp step
    exact ⟨bs, stored.writeByte admitted.1 admitted.2⟩

theorem reachable_stored (reachable : (InMemory.system cfg).Reachable heap) :
    ∃ bs, Stored cfg heap bs :=
  reachable.invariant (fun _ => initial_stored) fun _ _ _ ⟨_, stored⟩ step =>
    step_stored stored step

/-- In every heap `rt_realloc` of a live pointer returns.  What it returns holds the bytes of the
old block, as far as both reach; where it returns `NULL` the old block stays; no other block
changes. -/
theorem rtRealloc_reallocates (reachable : (InMemory.system cfg).Reachable heap)
    {rmem n : Nat} (isLive : rmem ∈ heap.live) (pos : 0 < n) (noWrap : NoWrap cfg n) :
    ∃ after r, InMemory.rtRealloc cfg heap (some rmem) n = some (after, r) ∧
      Reallocates cfg heap rmem (cfg.rtAlign n) after r := by
  obtain ⟨bs, stored⟩ := reachable_stored reachable
  obtain ⟨front, block, rear, rfl, used, rfl⟩ := stored.toUsable.ofLive isLive
  obtain ⟨after, r, ret, reallocates, -⟩ := stored.rtRealloc used pos noWrap
  exact ⟨after, r, ret, reallocates⟩

def zeroHeap : Heap := (InMemory.rtSystemHeapInit word4 (fun _ => 0) 4096 4352).get (by decide)

theorem zeroHeap_initial : InMemory.Initial word4 zeroHeap :=
  ⟨_, 4096, 4352, by decide, (Option.some_get _).symm⟩

theorem twelve_bytes_reallocates : ∃ after r, InMemory.rtRealloc word4
        ((TransitionSystem.execute (InMemory.step word4) zeroHeap
          [.malloc 10, .write 4108 3 7]).get (by decide)) (some 4108) 40 = some (after, r) ∧
      Reallocates word4 ((TransitionSystem.execute (InMemory.step word4) zeroHeap
          [.malloc 10, .write 4108 3 7]).get (by decide)) 4108 (word4.rtAlign 40) after r :=
  rtRealloc_reallocates
    ⟨_, TransitionSystem.Run.executed _ _ zeroHeap_initial _⟩
    (by decide) (by decide) (by decide)

end RtThread.SmallMem
