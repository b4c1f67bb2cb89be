import RtThread.Library.BlockList
import RtThread.SmallMem.Basic

/-!
# Joining free blocks

`plug_holes` merges a free block with the free block behind it and with the one in front of it.
-/

namespace RtThread.SmallMem

variable {cfg : Config} {heap : Heap} {front rear : List Block}

theorem linkOver_header {heap : Heap} {mem next : Nat} (apart : next ≠ mem) (p : Nat) :
    (linkOver heap mem next).header p = if p = next then { heap.header next with prev := mem }
      else if p = mem then { heap.header mem with next := next }
      else heap.header p := by
  simp [linkOver, apart]

theorem Cut.linkOver {a second : Block} (cut : Cut cfg heap (front ++ a :: second :: rear)) :
    Cut cfg (linkOver heap a.start second.stop) (front ++ { a with stop := second.stop } :: rear) ∧
      Kept heap (SmallMem.linkOver heap a.start second.stop) := by
  obtain ⟨middle, frontTiles, rfl, -, prev, used, room, rest⟩ := Tiles.append_iff.mp cut
  obtain ⟨isStart, -, -, -, room', rearTiles⟩ := rest
  have inside := rearTiles.le
  have below := cfg.gap_pos
  have apart : second.stop ≠ a.start := by omega
  have header := @linkOver_header heap _ _ apart
  have middleTiles : Tiles (SmallMem.linkOver heap a.start second.stop).headers
      cfg.sizeofStructMem (Tiles.last 0 front) a.start
      [{ a with stop := second.stop }] second.stop := by
    refine ⟨rfl, ?_, ?_, ?_, by simp only; omega, rfl⟩
    · simp [header, apart.symm]
    · simpa [header, apart.symm] using prev
    · simpa [header, apart.symm] using used
  constructor
  · apply Tiles.replace cfg.gap_pos frontTiles middleTiles rearTiles
    · intro p outside _
      simp only [headers_next]
      grind
    · intro p outside _
      simp only [headers_used]
      grind
    · intro p outside _
      simp only [headers_prev]
      grind
    · intro _
      simp [header, Tiles.last]
  · have atEnd : heap.heapEnd ≠ a.start := by omega
    refine ⟨rfl, rfl, rfl, rfl, rfl, ?_, ?_⟩
    · rw [header]
      grind
    · rw [header]
      grind

variable {blocks : List Block} {b : Block}

theorem Cut.setLfree (cut : Cut cfg heap blocks) (lfree : Nat) :
    Cut cfg { heap with lfree := lfree } blocks := cut

/-- What `plug_holes` does with one neighbour, as far as the rest of the allocator sees. -/
structure Joins (cfg : Config) (heap : Heap) (blocks : List Block) (after : Heap)
    (blocks' : List Block) : Prop where
  cut : Cut cfg after blocks'
  kept : Kept heap after
  merged : Merged heap.heapEnd blocks heap.lfree blocks' after.lfree

theorem Joins.refl (cut : Cut cfg heap blocks) :
    Joins cfg heap blocks heap blocks := ⟨cut, Kept.refl heap, Merged.refl _ _ _⟩

theorem Joins.trans {blocks' blocks'' : List Block} {middle after : Heap}
    (first : Joins cfg heap blocks middle blocks')
    (second : Joins cfg middle blocks' after blocks'') : Joins cfg heap blocks after blocks'' where
  cut := second.cut
  kept := first.kept.trans second.kept
  merged := by
    have := second.merged
    rw [first.kept.heapEnd] at this
    exact first.merged.trans this

theorem Joins.pair {a second : Block} (cut : Cut cfg heap (front ++ a :: second :: rear))
    (firstFree : a.used = false) (secondFree : second.used = false) :
    Joins cfg heap (front ++ a :: second :: rear) (SmallMem.linkOver
        (if heap.lfree = second.start then { heap with lfree := a.start } else heap)
        a.start second.stop)
      (front ++ { a with stop := second.stop } :: rear) := by
  have merged := Merged.pair cut cfg.gap_pos firstFree secondFree heap.lfree
  split
  · rename_i isSecond
    obtain ⟨after, kept⟩ := (cut.setLfree a.start).linkOver
    refine ⟨after, ⟨kept.1, kept.2, kept.3, kept.4, kept.5, kept.6, kept.7⟩, ?_⟩
    rw [if_pos isSecond] at merged
    exact merged
  · rename_i notSecond
    obtain ⟨after, kept⟩ := cut.linkOver
    refine ⟨after, kept, ?_⟩
    rw [if_neg notSecond] at merged
    exact merged

section

variable (cut : Cut cfg heap (front ++ b :: rear))

include cut

theorem Cut.header_block : (heap.header b.start).next = b.stop ∧
      (heap.header b.start).prev = Tiles.last 0 front ∧
      ((heap.header b.start).used ≠ 0 ↔ b.used = true) ∧
      b.start + cfg.sizeofStructMem ≤ b.stop ∧ b.stop ≤ heap.heapEnd := by
  obtain ⟨middle, -, rfl, next, prev, used, room, rearTiles⟩ := Tiles.append_iff.mp cut
  refine ⟨next, prev, ?_, room, rearTiles.le⟩
  rw [← used]
  simp

theorem Cut.shift : Cut cfg heap ((front ++ [b]) ++ rear) := by
  simpa using cut

section

variable (endUsed : (heap.header heap.heapEnd).used ≠ 0)

include endUsed

theorem Cut.header_behind :
    (heap.header b.stop).used ≠ 0 ↔ ∀ second ∈ rear.head?, second.used = true := by
  cases rear with
  | nil =>
    obtain ⟨_, -, -, -, -, -, -, atEnd⟩ := Tiles.append_iff.mp cut
    rw [show b.stop = heap.heapEnd from atEnd]
    simpa using endUsed
  | cons second others =>
    have isStart : second.start = b.stop := by
      obtain ⟨_, -, -, -, -, -, -, isStart, -⟩ := Tiles.append_iff.mp cut
      exact isStart
    rw [← isStart, cut.shift.header_block.2.2.1]
    simp

theorem plugForward_skip (behind : ∀ second ∈ rear.head?, second.used = true) :
    plugForward heap b.start = heap := by
  have next := cut.header_block.1
  have nextUsed := (cut.header_behind endUsed).mpr behind
  simp [plugForward, next, nextUsed]

theorem plugForward_joins (free : b.used = false) (isolated : Isolated rear) :
    ∃ joined rear', joined.start = b.start ∧ joined.used = false ∧
      Joins cfg heap (front ++ b :: rear) (plugForward heap b.start) (front ++ joined :: rear') ∧
      Isolated (joined :: rear') := by
  by_cases behind : ∀ second ∈ rear.head?, second.used = true
  · rw [plugForward_skip cut endUsed behind]
    refine ⟨b, rear, rfl, free, Joins.refl cut, ?_⟩
    exact List.isChain_cons.mpr ⟨fun second isHead => .inr (behind second isHead), isolated⟩
  · cases rear with
    | nil => simp at behind
    | cons second others =>
      have secondFree : second.used = false := by simpa using behind
      have joins := Joins.pair cut free secondFree
      refine ⟨{ b with stop := second.stop }, others, rfl, free, ?_, ?_⟩
      · have own := cut.header_block
        have next := cut.shift.header_block
        have isStart : second.start = b.stop := by
          obtain ⟨_, -, -, -, -, -, -, isStart, -⟩ := Tiles.append_iff.mp cut
          exact isStart
        have notUsed : (heap.header second.start).used = 0 := by simpa [secondFree] using next.2.2.1
        have below := cfg.gap_pos
        have apart : b.start ≠ second.start := by omega
        have inside : second.start ≠ heap.heapEnd := by omega
        rw [← isStart] at own
        have same : plugForward heap b.start = SmallMem.linkOver
            (if heap.lfree = second.start then { heap with lfree := b.start } else heap)
            b.start second.stop := by
          simp only [plugForward, own.1, ne_eq, apart, not_false_eq_true, notUsed, inside,
            and_self, if_true]
          split <;> rw [next.1]
        rw [same]
        exact joins
      · rw [Isolated, List.isChain_cons] at isolated
        refine List.isChain_cons.mpr ⟨fun third isHead => ?_, isolated.2⟩
        have := isolated.1 third isHead
        simp only [secondFree, Bool.false_eq_true, false_or] at this
        exact .inr this

end

theorem plugBackward_joins (free : b.used = false) (isolatedFront : Isolated front)
    (isolated : Isolated (b :: rear)) :
    ∃ blocks', Joins cfg heap (front ++ b :: rear) (plugBackward heap b.start) blocks' ∧
      Isolated blocks' := by
  have own := cut.header_block
  rcases List.eq_nil_or_concat front with rfl | ⟨others, a, rfl⟩
  · -- `prev` of the first block is the block itself
    have atStart : b.start = 0 := cut.1
    refine ⟨b :: rear, ?_, isolated⟩
    have same : plugBackward heap b.start = heap := by
      have selfPrev : (heap.header b.start).prev = b.start := by
        rw [own.2.1, atStart]
        rfl
      simp [plugBackward, selfPrev]
    rw [same]
    exact Joins.refl cut
  · rw [List.concat_eq_append] at cut own isolatedFront ⊢
    rw [Tiles.last_concat] at own
    have before : Cut cfg heap (others ++ a :: b :: rear) := by simpa using cut
    have inFront := before.header_block
    obtain ⟨_, -, -, -, -, -, -, isStart, -⟩ := Tiles.append_iff.mp before
    have below := cfg.gap_pos
    have apart : a.start ≠ b.start := by omega
    cases used : a.used with
    | true =>
      refine ⟨others ++ a :: b :: rear, ?_, ?_⟩
      · have same : plugBackward heap b.start = heap := by
          have marked := inFront.2.2.1.mpr used
          simp [plugBackward, own.2.1, marked]
        rw [same, List.append_assoc]
        exact Joins.refl before
      · apply List.isChain_split.mpr
        exact ⟨isolatedFront, List.isChain_cons_cons.mpr ⟨.inl used, isolated⟩⟩
    | false =>
      refine ⟨others ++ { a with stop := b.stop } :: rear, ?_, ?_⟩
      · have notUsed : (heap.header a.start).used = 0 := by
          simpa [used] using inFront.2.2.1
        have same : plugBackward heap b.start = SmallMem.linkOver
            (if heap.lfree = b.start then { heap with lfree := a.start } else heap)
            a.start b.stop := by
          simp only [plugBackward, own.2.1, ne_eq, apart, not_false_eq_true, notUsed, and_self,
            if_true]
          split <;> rw [own.1]
        rw [same, List.append_assoc]
        exact Joins.pair before used free
      · have joinedFront : Isolated (others ++ [{ a with stop := b.stop }]) := by
          rw [Isolated, List.isChain_append] at isolatedFront ⊢
          simpa using isolatedFront
        apply List.isChain_split.mpr
        refine ⟨joinedFront, ?_⟩
        rw [Isolated, List.isChain_cons] at isolated
        refine List.isChain_cons.mpr ⟨fun third isHead => ?_, isolated.2⟩
        have := isolated.1 third isHead
        simp only [free, Bool.false_eq_true, false_or] at this
        exact .inr this

theorem plugHoles_joins {after : Heap} (endUsed : (heap.header heap.heapEnd).used ≠ 0)
    (free : b.used = false) (isolatedFront : Isolated front) (isolatedRear : Isolated rear)
    (plugged : plugHoles heap b.start = some after) :
    ∃ blocks', Joins cfg heap (front ++ b :: rear) after blocks' ∧ Isolated blocks' := by
  obtain ⟨-, ⟨⟩⟩ := Option.ite_none_right_eq_some.mp plugged
  obtain ⟨joined, rear', isStart, joinedFree, forward, isolated⟩ :=
    plugForward_joins cut endUsed free isolatedRear
  rw [← isStart]
  obtain ⟨blocks', backward, isolated'⟩ :=
    plugBackward_joins forward.cut joinedFree isolatedFront isolated
  rw [isStart] at backward ⊢
  exact ⟨blocks', forward.trans backward, isolated'⟩

end

theorem plugHoles_skip {a : Block} (cut : Cut cfg heap (front ++ a :: b :: rear))
    (endUsed : (heap.header heap.heapEnd).used ≠ 0) (free : b.used = false)
    (inFront : a.used = true) (behind : ∀ second ∈ rear.head?, second.used = true) :
    plugHoles heap b.start = some heap := by
  have own := cut.shift.header_block
  have below := cfg.gap_pos
  have inside : b.start < heap.heapEnd := by omega
  have notUsed : (heap.header b.start).used = 0 := by simpa [free] using own.2.2.1
  have marked := cut.header_block.2.2.1.mpr inFront
  rw [plugHoles, if_pos ⟨inside, notUsed⟩, plugForward_skip cut.shift endUsed behind]
  simp [plugBackward, own.2.1, marked]

theorem plugHoles_lfree {mem : Nat} (apart : mem ≠ (heap.header mem).next)
    (notUsed : (heap.header (heap.header mem).next).used = 0)
    (inside : (heap.header mem).next ≠ heap.heapEnd) (atNext : heap.lfree =
      (heap.header mem).next) :
    plugHoles heap mem = plugHoles { heap with lfree := mem } mem := by
  have forward : plugForward heap mem = plugForward { heap with lfree := mem } mem := by
    simp only [plugForward, ne_eq, apart, not_false_eq_true, notUsed, inside, and_self, if_true,
      atNext, if_false]
  simp only [plugHoles, forward]

def userArea (cfg : Config) (heapPtr : Nat) (b : Block) : Nat :=
  heapPtr + b.start + cfg.sizeofStructMem

structure Region (cfg : Config) (heap : Heap) : Prop where
  endUsed : (heap.header heap.heapEnd).used ≠ 0
  endNext : (heap.header heap.heapEnd).next = heap.heapEnd
  endEq : heap.heapEnd = heap.memSizeAligned + cfg.sizeofStructMem
  fits : heap.heapPtr + heap.heapEnd + cfg.sizeofStructMem < 2 ^ 32
  heapPtrAligned : cfg.alignSize ∣ heap.heapPtr
  heapEndAligned : cfg.alignSize ∣ heap.heapEnd

/-- The heap is cut into `blocks`, which its variables agree with. -/
structure Described (cfg : Config) (heap : Heap) (blocks : List Block) : Prop
    extends Region cfg heap where
  cut : Cut cfg heap blocks
  starts : ∀ b ∈ blocks, cfg.alignSize ∣ b.start
  usedMem : heap.usedMem = spaceOf (usedBlocks blocks)
  lfree : FreeAt heap.heapEnd blocks heap.lfree
  live : heap.live.Perm ((usedBlocks blocks).map (userArea cfg heap.heapPtr))

structure Shape (cfg : Config) (heap : Heap) (blocks : List Block) : Prop
    extends Described cfg heap blocks where
  isolated : Isolated blocks

def Lowest (heap : Heap) (blocks : List Block) : Prop :=
  heap.lfree = lowestFree heap.heapEnd blocks

def Keeps (cfg : Config) (heap : Heap) (blocks : List Block) (after : Heap) : Prop :=
  ∃ blocks', Shape cfg after blocks' ∧ (Lowest heap blocks → Lowest after blocks')

variable {cfg : Config} {heap after : Heap} {front rear blocks : List Block} {b : Block}

theorem Keeps.refl (shape : Shape cfg heap blocks) : Keeps cfg heap blocks heap :=
  ⟨blocks, shape, id⟩

theorem Region.heapEnd_lt (region : Region cfg heap) :
    heap.heapEnd + cfg.sizeofStructMem < 2 ^ 32 := by
  have := region.fits
  omega

theorem headerOf_userArea (cfg : Config) (heap : Heap) (b : Block) :
    heap.headerOf cfg (userArea cfg heap.heapPtr b) = b.start := by
  simp only [Heap.headerOf, userArea]
  omega

theorem Region.add_minSize (region : Region cfg heap) {n : Nat} (fits : n ≤ heap.memSizeAligned) :
    Word32.add (Word32.add n cfg.sizeofStructMem) minSize = n + cfg.sizeofStructMem + minSize := by
  have := region.heapEnd_lt
  have := region.endEq
  have := cfg.sizeofStructMem_bounds
  unfold minSize
  exact Word32.add_add_eq (by omega)

theorem Described.size_eq (desc : Described cfg heap (front ++ b :: rear)) :
    Word32.sub (Word32.sub (heap.header b.start).next b.start) cfg.sizeofStructMem =
      b.stop - b.start - cfg.sizeofStructMem := by
  have own := desc.cut.header_block
  have := desc.heapEnd_lt
  rw [own.1, Word32.sub_eq (b := b.start) (by omega) (by omega),
    Word32.sub_eq (by omega) (by omega)]

theorem Described.area_inRange (desc : Described cfg heap (front ++ b :: rear))
    (roomy : b.start + cfg.sizeofStructMem < b.stop) :
    ¬(userArea cfg heap.heapPtr b < heap.heapPtr ∨
      heap.heapPtr + heap.heapEnd ≤ userArea cfg heap.heapPtr b) := by
  have own := desc.cut.header_block
  unfold userArea
  omega

theorem Region.heapEnd_eq (region : Region cfg heap) :
    heap.heapEnd = Word32.add heap.memSizeAligned cfg.sizeofStructMem := by
  have := region.heapEnd_lt
  rw [Word32.add_eq (by have := region.endEq; omega)]
  exact region.endEq

theorem Region.kept (region : Region cfg heap) (kept : Kept heap after) : Region cfg after := by
  refine ⟨?_, ?_, ?_, ?_, ?_, ?_⟩
  · rw [kept.heapEnd, kept.endUsed]
    exact region.endUsed
  · rw [kept.heapEnd, kept.endNext]
    exact region.endNext
  · rw [kept.heapEnd, kept.memSizeAligned]
    exact region.endEq
  · rw [kept.heapEnd, kept.heapPtr]
    exact region.fits
  · rw [kept.heapPtr]
    exact region.heapPtrAligned
  · rw [kept.heapEnd]
    exact region.heapEndAligned

theorem Described.plugHoles (desc : Described cfg heap (front ++ b :: rear))
    (free : b.used = false) (isolatedFront : Isolated front) (isolatedRear : Isolated rear)
    (plugged : plugHoles heap b.start = some after) :
    Keeps cfg heap (front ++ b :: rear) after := by
  obtain ⟨blocks', ⟨cut, kept, merged⟩, isolated⟩ := plugHoles_joins desc.cut
    desc.endUsed free isolatedFront isolatedRear plugged
  refine ⟨blocks', { desc.toRegion.kept kept with
    cut := cut
    starts := ?_
    usedMem := ?_
    lfree := ?_
    live := ?_
    isolated := isolated }, ?_⟩
  · intro block' membership'
    obtain ⟨b, mem, isStart⟩ := merged.starts block' membership'
    rw [← isStart]
    exact desc.starts b mem
  · rw [kept.usedMem, merged.used]
    exact desc.usedMem
  · rw [kept.heapEnd]
    exact merged.freeAt desc.lfree
  · rw [kept.live, kept.heapPtr, merged.used]
    exact desc.live
  · intro lowest
    rw [Lowest, kept.heapEnd]
    exact merged.lowest lowest

theorem Config.rtAlignDown_bounds (cfg : Config) {n : Nat} (small : n < 2 ^ 32) :
    cfg.rtAlignDown n ≤ n ∧ cfg.alignSize ∣ cfg.rtAlignDown n :=
  ⟨Word32.maskDown_le small cfg.alignBits_le, Word32.dvd_maskDown small cfg.alignBits_le⟩

theorem initial_shape (init : Initial cfg heap) :
    Shape cfg heap [{ start := 0, stop := heap.heapEnd, used := false }] ∧
      Lowest heap [{ start := 0, stop := heap.heapEnd, used := false }] := by
  obtain ⟨header, byte, beginAddr, endAddr, endSmall, accepted⟩ := init
  have gap := cfg.sizeofStructMem_bounds
  obtain ⟨endBelow, endDvd⟩ := cfg.rtAlignDown_bounds endSmall
  have beginDvd := cfg.dvd_rtAlign beginAddr
  have gapDvd := cfg.dvd_sizeofStructMem
  obtain ⟨fits, accepted⟩ := Option.ite_none_right_eq_some.mp accepted
  generalize cfg.rtAlignDown endAddr = endAlign at *
  generalize cfg.rtAlign beginAddr = beginAlign at *
  obtain ⟨above, fits⟩ := fits
  have twice : Word32.add cfg.sizeofStructMem cfg.sizeofStructMem =
      cfg.sizeofStructMem + cfg.sizeofStructMem := Word32.add_eq (by omega)
  rw [twice] at above fits accepted
  rw [Word32.sub_eq (by omega) (by omega)] at fits
  have between : Word32.sub endAlign beginAlign = endAlign - beginAlign :=
    Word32.sub_eq (by omega) (by omega)
  rw [between, Word32.sub_eq (by omega) (by omega), Word32.add_eq (by omega)] at accepted
  have endDvd' : cfg.alignSize ∣
      endAlign - beginAlign - (cfg.sizeofStructMem + cfg.sizeofStructMem) +
        cfg.sizeofStructMem :=
    Nat.dvd_add (Nat.dvd_sub (Nat.dvd_sub endDvd beginDvd) (Nat.dvd_add gapDvd gapDvd)) gapDvd
  have apart : 0 ≠ endAlign - beginAlign - (cfg.sizeofStructMem + cfg.sizeofStructMem) +
      cfg.sizeofStructMem := by omega
  cases accepted
  refine ⟨{ endUsed := ?_, endNext := ?_, endEq := rfl, fits := ?_, heapPtrAligned := beginDvd,
            heapEndAligned := endDvd', cut := ?_, starts := ?_, usedMem := rfl, lfree := ?_,
            live := ?_, isolated := ?_ }, rfl⟩
  · simp
  · simp
  · simp only
    omega
  · simp [Cut, Tiles, apart]
  · simp
  · exact .inr ⟨_, List.mem_singleton_self _, rfl, rfl⟩
  · simp
  · exact List.isChain_singleton _

end RtThread.SmallMem
