import RtThread.SmallMem.Allocation

/-!
# `rt_realloc` keeps the invariant

Cutting off the end of a block frees that end without `rt_free`; whether `lfree` is still
the lowest free block then depends on what was free before.
-/

namespace RtThread.SmallMem

variable {cfg : Config} {heap after : Heap} {front rear blocks : List Block} {block : Block}

/-- The block at `block.start` is cut after `newsize` bytes, before `plug_holes`. -/
def cutOff (cfg : Config) (heap : Heap) (block : Block) (newsize : Nat) : Heap :=
  insertBlock cfg
    { heap with
      usedMem := heap.usedMem - (block.stop - (block.start + cfg.sizeofStructMem + newsize)) }
    block.start (block.start + cfg.sizeofStructMem + newsize)

def cutBlocks (cfg : Config) (front : List Block) (block : Block) (rear : List Block)
    (newsize : Nat) : List Block :=
  (front ++ [{ block with stop := block.start + cfg.sizeofStructMem + newsize }]) ++
    { start := block.start + cfg.sizeofStructMem + newsize, stop := block.stop, used := false } ::
      rear

section CutOff

variable (shape : Shape cfg heap (front ++ block :: rear)) (used : block.used = true)
  {newsize : Nat}
  (fits : newsize + cfg.sizeofStructMem + minSize < block.stop - block.start - cfg.sizeofStructMem)

include shape used fits

theorem shrink_eq :
    shrink cfg heap block.start (block.stop - block.start - cfg.sizeofStructMem) newsize =
      plugHoles (cutOff cfg heap block newsize) (block.start + cfg.sizeofStructMem + newsize) := by
  have own := shape.cut.header_block
  have small := shape.heapEnd_lt
  have usedBelow := shape.usedMem_le
  have counted := shape.usedMem
  simp only [usedBlocks_append, usedBlocks_cons, used, if_true, spaceOf_append, spaceOf_cons]
    at counted
  have placeEq : Word32.add (Word32.add block.start cfg.sizeofStructMem) newsize =
      block.start + cfg.sizeofStructMem + newsize := Word32.add_add_eq (by omega)
  have lessEq : Word32.sub heap.usedMem
      (Word32.sub (block.stop - block.start - cfg.sizeofStructMem) newsize) =
        heap.usedMem - (block.stop - (block.start + cfg.sizeofStructMem + newsize)) := by
    rw [Word32.sub_eq (b := newsize) (by omega) (by omega), Word32.sub_eq (by omega) (by omega)]
    omega
  simp only [shrink, placeEq, lessEq, cutOff]

omit shape fits in
theorem lowestFree_cutBlocks (stop : Nat) :
    lowestFree stop (cutBlocks cfg front block rear newsize) =
      lowestFree (block.start + cfg.sizeofStructMem + newsize) front := by
  simp [cutBlocks, lowestFree_append, lowestFree, used]

section

variable (dvd : cfg.alignSize ∣ newsize)

include dvd

theorem cutOff_described :
    Described cfg (cutOff cfg heap block newsize) (cutBlocks cfg front block rear newsize) ∧
      Isolated (front ++ [{ block with stop := block.start + cfg.sizeofStructMem + newsize }]) ∧
      Isolated rear ∧ Kept heap { cutOff cfg heap block newsize with usedMem := heap.usedMem } ∧
      (cutOff cfg heap block newsize).lfree = heap.lfree := by
  have counted := shape.usedMem
  have live := shape.live
  obtain ⟨isolatedFront, isolatedRear⟩ := isolated_parts shape.isolated
  simp only [usedBlocks_append, usedBlocks_cons, used, if_true, spaceOf_append, spaceOf_cons]
    at counted live
  have above : block.start + cfg.sizeofStructMem ≤
      block.start + cfg.sizeofStructMem + newsize := by omega
  have below : block.start + cfg.sizeofStructMem + newsize + cfg.sizeofStructMem ≤
      block.stop := by omega
  have before : Cut cfg { heap with
      usedMem := heap.usedMem - (block.stop - (block.start + cfg.sizeofStructMem + newsize)) }
      (front ++ block :: rear) := shape.cut
  obtain ⟨cut, kept, sameLfree⟩ := before.insertBlock shape.heapEnd_eq above below
  have kept' : Kept heap { cutOff cfg heap block newsize with usedMem := heap.usedMem } :=
    ⟨kept.1, kept.2, kept.3, rfl, kept.5, kept.6, kept.7⟩
  have region := shape.toRegion.kept kept'
  refine ⟨{ endUsed := region.endUsed, endNext := region.endNext, endEq := region.endEq,
            fits := region.fits, heapPtrAligned := region.heapPtrAligned,
            heapEndAligned := region.heapEndAligned, cut := ?_, starts := ?_, usedMem := ?_,
            lfree := ?_, live := ?_ }, ?_, isolatedRear, kept', sameLfree⟩
  · rw [cutBlocks, List.append_assoc]
    exact cut
  · intro u mem
    simp only [cutBlocks, List.append_assoc, List.singleton_append, List.mem_append,
      List.mem_cons] at mem
    rcases mem with inFront | rfl | rfl | inRear
    · exact shape.starts u (by simp [inFront])
    · exact shape.starts block (by simp)
    · exact Nat.dvd_add (Nat.dvd_add (shape.starts block (by simp)) cfg.dvd_sizeofStructMem) dvd
    · exact shape.starts u (by simp [inRear])
  · have isUsedMem : (cutOff cfg heap block newsize).usedMem =
        heap.usedMem - (block.stop - (block.start + cfg.sizeofStructMem + newsize)) :=
      kept.usedMem
    simp only [cutBlocks, usedBlocks_append, usedBlocks_cons, used, usedBlocks_nil, if_true,
      Bool.false_eq_true, if_false, spaceOf_append, spaceOf_cons, spaceOf_nil]
    omega
  · have sameEnd : (cutOff cfg heap block newsize).heapEnd = heap.heapEnd := kept.heapEnd
    rw [sameEnd, show (cutOff cfg heap block newsize).lfree = heap.lfree from sameLfree]
    apply shape.lfree.mono
    intro u mem free
    refine ⟨u, ?_, free, rfl⟩
    rcases List.mem_append.mp mem with inFront | inRest
    · simp [cutBlocks, inFront]
    · rcases List.mem_cons.mp inRest with rfl | inRear
      · simp [used] at free
      · simp [cutBlocks, inRear]
  · have sameLive : (cutOff cfg heap block newsize).live = heap.live := kept.live
    have samePtr : (cutOff cfg heap block newsize).heapPtr = heap.heapPtr := kept.heapPtr
    rw [sameLive, samePtr]
    simpa [cutBlocks, used, userArea] using live
  · rw [Isolated, List.isChain_append]
    refine ⟨isolatedFront, List.isChain_singleton _, ?_⟩
    intro last _ second isHead
    simp only [List.head?_cons, Option.mem_def, Option.some.injEq] at isHead
    subst isHead
    exact .inr used

theorem shrink_shape
    (result : shrink cfg heap block.start (block.stop - block.start - cfg.sizeofStructMem) newsize
      = some after) :
    
    ∃ blocks', Shape cfg after blocks' := by
  rw [shrink_eq shape used fits] at result
  obtain ⟨desc, isolatedFront, isolatedRear, -, -⟩ := cutOff_described shape used fits dvd
  obtain ⟨blocks', shape', -⟩ := desc.plugHoles rfl isolatedFront isolatedRear result
  exact ⟨blocks', shape'⟩

theorem plugHoles_cutOff_lowest (allUsed : ∀ u ∈ front, u.used = true)
    (atNext : heap.lfree = block.stop) (notEnd : block.stop ≠ heap.heapEnd)
    (nextFree : (heap.header block.stop).used = 0)
    (result : plugHoles (cutOff cfg heap block newsize)
      (block.start + cfg.sizeofStructMem + newsize) = some after) :
    
    ∃ blocks', Cut cfg after blocks' ∧ Lowest after blocks' := by
  obtain ⟨desc, isolatedFront, isolatedRear, kept, sameLfree⟩ :=
    cutOff_described shape used fits dvd
  have sameEnd : (cutOff cfg heap block newsize).heapEnd = heap.heapEnd := kept.heapEnd
  have next := desc.cut.header_block.1
  have notUsed : ((cutOff cfg heap block newsize).header block.stop).used = 0 := by
    have behind := shape.cut.header_behind shape.endUsed
    have behindCut := desc.cut.header_behind desc.endUsed
    have onlyFree := behind.not.mp (by simpa using nextFree)
    simpa using behindCut.not.mpr onlyFree
  rw [plugHoles_lfree (by rw [next]; simp only; omega) (by rw [next]; exact notUsed)
    (by rw [next, sameEnd]; exact notEnd) (by rw [next, sameLfree, atNext])] at result
  have described' : Described cfg
      { cutOff cfg heap block newsize with
        lfree := block.start + cfg.sizeofStructMem + newsize }
      (cutBlocks cfg front block rear newsize) :=
    { desc with
      cut := desc.cut
      lfree := .inr
        ⟨{ start := block.start + cfg.sizeofStructMem + newsize
           stop := block.stop
           used := false }, by simp [cutBlocks], rfl, rfl⟩ }
  obtain ⟨blocks', shape', stays⟩ := described'.plugHoles rfl isolatedFront isolatedRear result
  refine ⟨blocks', shape'.cut, stays ?_⟩
  rw [← cutBlocks, Lowest, lowestFree_cutBlocks used, lowestFree_of_used allUsed]

theorem shrink_lowest (lowest : Lowest heap (front ++ block :: rear))
    (result : shrink cfg heap block.start (block.stop - block.start - cfg.sizeofStructMem) newsize
      = some after) :
    
    (∃ blocks', Cut cfg after blocks' ∧ Lowest after blocks') ↔
      heap.lfree < block.start ∨ (heap.header block.stop).used = 0 := by
  rw [shrink_eq shape used fits] at result
  obtain ⟨desc, isolatedFront, isolatedRear, kept, sameLfree⟩ :=
    cutOff_described shape used fits dvd
  have gap := cfg.gap_pos
  have behind := shape.cut.header_behind shape.endUsed
  obtain ⟨middle, frontTiles, rfl, -, -, -, room, rearTiles⟩ := Tiles.append_iff.mp shape.cut
  rw [Lowest, lowestFree_append, lowestFree, if_pos used] at lowest
  rcases used_or_free front with allUsed | ⟨u, mem, isFree⟩
  · rw [lowestFree_of_used allUsed] at lowest
    have above : block.stop ≤ heap.lfree := by
      rw [lowest]
      exact rearTiles.le_lowestFree
    have notInFront : ¬heap.lfree < block.start := by omega
    by_cases nextUsed : (heap.header block.stop).used = 0
    · refine ⟨fun _ => .inr nextUsed, fun _ => ?_⟩
      cases rear with
      | nil => exact absurd nextUsed (behind.mpr (by simp))
      | cons second others =>
        have secondFree : second.used = false := by simpa [nextUsed] using behind
        obtain ⟨isStart, -, -, -, room', othersTiles⟩ := rearTiles
        have inside := othersTiles.le
        rw [lowestFree, if_neg (by simp [secondFree]), isStart] at lowest
        exact plugHoles_cutOff_lowest shape used fits dvd allUsed lowest (by omega) nextUsed
          result
    · -- nothing is merged, and `lfree` still points behind the end that was cut off
      have skipped : plugHoles (cutOff cfg heap block newsize)
          (block.start + cfg.sizeofStructMem + newsize) = some (cutOff cfg heap block newsize) := by
        have cut := desc.cut
        rw [cutBlocks, List.append_assoc] at cut
        exact plugHoles_skip cut desc.endUsed rfl used (behind.mp nextUsed)
      obtain rfl := Option.some.inj (skipped.symm.trans result)
      refine ⟨?_, fun either => absurd either (by simp [notInFront, nextUsed])⟩
      rintro ⟨blocks', cut', lowest'⟩
      rw [Tiles.unique gap cut' desc.cut, Lowest, lowestFree_cutBlocks used,
        lowestFree_of_used allUsed, sameLfree] at lowest'
      omega
  · have inFront := frontTiles.lowestFree_lt mem isFree gap (lowestFree heap.heapEnd rear)
    refine ⟨fun _ => .inl (by omega), fun _ => ?_⟩
    obtain ⟨blocks', shape', stays⟩ := desc.plugHoles rfl isolatedFront isolatedRear result
    refine ⟨blocks', shape'.cut, stays ?_⟩
    rw [← cutBlocks, Lowest, sameLfree, lowestFree_cutBlocks used, lowest]
    exact lowestFree_of_free mem isFree _ _

end

end CutOff

/-- `rt_realloc` keeps the block where it is and cuts off its end. -/
def CutsOff (cfg : Config) (heap : Heap) (rmem newsize : Nat) : Prop :=
  let mem := heap.headerOf cfg rmem
  let size := Word32.sub (Word32.sub (heap.header mem).next mem) cfg.sizeofStructMem
  cfg.rtAlign newsize ≤ heap.memSizeAligned ∧ cfg.rtAlign newsize ≠ 0 ∧
    Word32.add (Word32.add (cfg.rtAlign newsize) cfg.sizeofStructMem) minSize < size

instance (cfg : Config) (heap : Heap) (rmem newsize : Nat) :
    Decidable (CutsOff cfg heap rmem newsize) :=
  inferInstanceAs (Decidable (_ ∧ _ ∧ _))

section

variable (shape : Shape cfg heap blocks)

include shape

theorem Shape.setByte (byte : Nat → BitVec 8) : Shape cfg { heap with byte := byte } blocks where
  endUsed := shape.endUsed
  endNext := shape.endNext
  endEq := shape.endEq
  fits := shape.fits
  heapPtrAligned := shape.heapPtrAligned
  heapEndAligned := shape.heapEndAligned
  cut := shape.cut
  starts := shape.starts
  usedMem := shape.usedMem
  lfree := shape.lfree
  live := shape.live
  isolated := shape.isolated

theorem rtRealloc_keeps {rmem : Option Nat} {newsize : Nat} (admitted : heap.Admits rmem)
    (inPlace : ∀ live ∈ rmem, ¬CutsOff cfg heap live newsize) {r : Option Nat}
    (resized : rtRealloc cfg heap rmem newsize = some (after, r)) :
    Keeps cfg heap blocks after := by
  simp only [rtRealloc] at resized
  split at resized
  · simp only [Option.some.injEq] at resized
    obtain ⟨rfl, -⟩ := resized
    exact Keeps.refl shape
  · rename_i fits
    split at resized
    · simp only [Option.map_eq_some_iff] at resized
      obtain ⟨freed, r, rfl, -⟩ := resized
      exact rtFree_keeps shape admitted r
    · rename_i nonzero
      cases rmem with
      | none => exact (rtMalloc_keeps shape resized).1
      | some rmem =>
        have notCut := inPlace rmem rfl
        simp only [CutsOff, Nat.le_of_not_lt fits, nonzero, ne_eq, not_false_eq_true,
          true_and] at notCut
        simp only [if_false] at resized
        split at resized
        · simp only [Option.some.injEq] at resized
          obtain ⟨rfl, -⟩ := resized
          exact Keeps.refl shape
        · split at resized
          · simp only [Option.some.injEq] at resized
            obtain ⟨rfl, -⟩ := resized
            exact Keeps.refl shape
          · rw [Option.bind_eq_some_iff] at resized
            obtain ⟨⟨middle, nmem⟩, allocated, resized⟩ := resized
            obtain ⟨keeps, outcome⟩ := rtMalloc_keeps shape allocated
            cases nmem with
            | none =>
              obtain ⟨rfl, -⟩ := resized
              exact keeps
            | some nmem =>
              simp only [Option.map_eq_some_iff] at resized
              obtain ⟨freed, r, rfl, -⟩ := resized
              have stillLive : middle.Admits (some rmem) := by
                rw [Heap.Admits]
                rcases outcome with ⟨isNone, -⟩ | ⟨_, -, live⟩
                · simp at isNone
                · rw [live]
                  exact List.mem_cons_of_mem _ admitted
              obtain ⟨blocks', shape', lowest⟩ := keeps
              obtain ⟨blocks'', shape'', lowest'⟩ :=
                rtFree_keeps (shape'.setByte _) (by exact stillLive) r
              exact ⟨blocks'', shape'', lowest' ∘ lowest⟩

theorem rtRealloc_cutsOff {rmem newsize : Nat} (isLive : rmem ∈ heap.live)
    (cuts : CutsOff cfg heap rmem newsize) {r : Option Nat}
    (resized : rtRealloc cfg heap (some rmem) newsize = some (after, r)) :
    ∃ front block rear, blocks = front ++ block :: rear ∧ block.used = true ∧
      block.start = heap.headerOf cfg rmem ∧ cfg.rtAlign newsize + cfg.sizeofStructMem + minSize <
        block.stop - block.start - cfg.sizeofStructMem ∧
      shrink cfg heap block.start (block.stop - block.start - cfg.sizeofStructMem)
        (cfg.rtAlign newsize) = some after := by
  obtain ⟨front, block, rear, rfl, used, rfl, isHeader⟩ := shape.ofLive isLive
  simp only [CutsOff, isHeader, shape.size_eq] at cuts
  obtain ⟨fits, nonzero, cuts⟩ := cuts
  rw [shape.add_minSize fits] at cuts
  simp only [rtRealloc, Nat.not_lt.mpr fits, nonzero, shape.area_inRange (by omega), isHeader,
    shape.size_eq, shape.add_minSize fits, if_false] at resized
  rw [if_neg (by omega), if_pos cuts, Option.map_eq_some_iff] at resized
  obtain ⟨shrunk, r, isAfter⟩ := resized
  obtain ⟨rfl, -⟩ := isAfter
  exact ⟨front, block, rear, rfl, used, isHeader.symm, cuts, r⟩

end

variable {blocks : List Block}

def areaEnd (cfg : Config) (heap : Heap) (rmem : Nat) : Nat :=
  heap.heapPtr + (heap.header (heap.headerOf cfg rmem)).next

/-- `blocks` are the blocks of the heap, and the allocator's variables say so. -/
structure Represents (cfg : Config) (heap : Heap) (blocks : List Block) : Prop where
  tiles : Tiles heap.headers cfg.sizeofStructMem 0 0 blocks heap.heapEnd
  notBothFree : blocks.IsChain fun first second => first.used = true ∨ second.used = true
  usedMem : heap.usedMem = ((blocks.filter (·.used)).map fun block => block.stop - block.start).sum
  liveBlocks : heap.live.Perm ((blocks.filter (·.used)).map fun block =>
    heap.heapPtr + block.start + cfg.sizeofStructMem)
  aligned : ∀ rmem ∈ heap.live, cfg.alignSize ∣ rmem
  inside : ∀ rmem ∈ heap.live, heap.heapPtr ≤ rmem ∧ rmem ≤ areaEnd cfg heap rmem ∧
    areaEnd cfg heap rmem ≤ heap.heapPtr + heap.heapEnd
  distinct : heap.live.Nodup
  disjoint : ∀ rmem ∈ heap.live, ∀ u ∈ heap.live, rmem ≠ u →
    areaEnd cfg heap rmem ≤ u ∨ areaEnd cfg heap u ≤ rmem

section

variable (shape : Shape cfg heap blocks)

include shape

theorem rtRealloc_shape {rmem : Option Nat} {newsize : Nat} (admitted : heap.Admits rmem)
    {r : Option Nat} (resized : rtRealloc cfg heap rmem newsize = some (after, r)) :
    ∃ blocks', Shape cfg after blocks' := by
  by_cases inPlace : ∀ live ∈ rmem, ¬CutsOff cfg heap live newsize
  · obtain ⟨blocks', shape', -⟩ := rtRealloc_keeps shape admitted inPlace resized
    exact ⟨blocks', shape'⟩
  · cases rmem with
    | none => simp at inPlace
    | some rmem =>
      have cuts : CutsOff cfg heap rmem newsize := by simpa using inPlace
      obtain ⟨front, block, rear, rfl, used, -, fits, r⟩ :=
        rtRealloc_cutsOff shape admitted cuts resized
      exact shrink_shape shape used fits (cfg.dvd_rtAlign newsize) r

theorem step_shape {e : Event} (ran : step cfg heap e = some after) :
    ∃ blocks', Shape cfg after blocks' := by
  cases e with
  | malloc n =>
    obtain ⟨-, ran⟩ := Option.ite_none_right_eq_some.mp ran
    rw [Option.map_eq_some_iff] at ran
    obtain ⟨⟨allocated, r⟩, ret, rfl⟩ := ran
    obtain ⟨blocks', shape', -⟩ := (rtMalloc_keeps shape ret).1
    exact ⟨blocks', shape'⟩
  | realloc rmem newsize =>
    obtain ⟨admitted, ran⟩ := Option.ite_none_right_eq_some.mp ran
    rw [Option.map_eq_some_iff] at ran
    obtain ⟨⟨resized, r⟩, ret, rfl⟩ := ran
    exact rtRealloc_shape shape admitted.1 ret
  | free rmem =>
    obtain ⟨admitted, ran⟩ := Option.ite_none_right_eq_some.mp ran
    obtain ⟨blocks', shape', -⟩ := rtFree_keeps shape admitted ran
    exact ⟨blocks', shape'⟩

theorem Shape.area {rmem : Nat} (isLive : rmem ∈ heap.live) :
    ∃ block ∈ blocks, rmem = userArea cfg heap.heapPtr block ∧
      areaEnd cfg heap rmem = heap.heapPtr + block.stop := by
  obtain ⟨front, block, rear, rfl, -, isArea, isHeader⟩ := shape.ofLive isLive
  refine ⟨block, by simp, isArea, ?_⟩
  rw [areaEnd, isHeader, shape.cut.header_block.1]

theorem Shape.represents : Represents cfg heap blocks where
  tiles := shape.cut
  notBothFree := shape.isolated
  usedMem := shape.usedMem
  liveBlocks := shape.live
  aligned := by
    intro rmem isLive
    obtain ⟨block, mem, rfl, -⟩ := shape.area isLive
    apply Nat.dvd_add (Nat.dvd_add shape.heapPtrAligned ?_) cfg.dvd_sizeofStructMem
    exact shape.starts block mem
  inside := by
    intro rmem isLive
    obtain ⟨block, mem, rfl, isEnd⟩ := shape.area isLive
    have bounds := shape.cut.mem_bounds mem
    rw [isEnd, userArea]
    omega
  distinct := by
    apply shape.live.nodup_iff.mpr
    apply List.pairwise_map.mpr
    apply (List.Pairwise.filter _ (shape.cut.pairwise_start cfg.gap_pos)).imp
    intro a second ordered same
    unfold userArea at same
    omega
  disjoint := by
    intro rmem isLive u otherLive distinct
    obtain ⟨block, mem, rfl, isEnd⟩ := shape.area isLive
    obtain ⟨second, membership', rfl, isEnd'⟩ := shape.area otherLive
    rw [isEnd, isEnd', userArea, userArea]
    rcases shape.cut.apart mem membership' with rfl | before | behind
    · exact absurd rfl distinct
    · exact .inl (by omega)
    · exact .inr (by omega)

end

theorem reachable_shape (reachable : (system cfg).Reachable heap) :
    ∃ blocks, Shape cfg heap blocks := by
  have base : ∀ heap, Initial cfg heap → ∃ blocks, Shape cfg heap blocks :=
    fun _ init => ⟨_, (initial_shape init).1⟩
  have preserved : ∀ heap e after, (∃ blocks, Shape cfg heap blocks) →
      (system cfg).step heap e after → ∃ blocks, Shape cfg after blocks :=
    fun _ _ _ ⟨_, shape⟩ ran => step_shape shape ran
  exact reachable.invariant base preserved

/-- Every heap that calls on live pointers can lead to. -/
theorem reachable_represents (reachable : (system cfg).Reachable heap) :
    ∃ blocks, Represents cfg heap blocks := by
  obtain ⟨blocks, shape⟩ := reachable_shape reachable
  exact ⟨blocks, shape.represents⟩

def word4 : Config where
  alignBits := 2
  sizeofHeapMem := 12
  alignBits_lt := by decide
  sizeof_ge := by decide
  sizeof_le := by decide

/-- The heap from address 4096 up to 4352, after `rt_system_heap_init`. -/
def smallHeap : Heap :=
  (rtSystemHeapInit word4 (fun _ => ⟨0, 0, 0, 0⟩) (fun _ => 0) 4096 4352).get (by decide)

theorem smallHeap_initial : Initial word4 smallHeap :=
  ⟨_, _, 4096, 4352, by decide, (Option.some_get _).symm⟩

theorem smallHeap_represents : ∃ blocks, Represents word4
      ((TransitionSystem.execute (step word4) smallHeap
        [.malloc 10, .malloc 40, .realloc (some 4108) 50, .free (some 4132)]).get (by decide))
      blocks :=
  reachable_represents
    ⟨_, TransitionSystem.Run.executed _ _ smallHeap_initial _⟩

end RtThread.SmallMem
