import RtThread.SmallMem.FirstFit

/-!
# What the calls do to the blocks in use

A call hands out one block, takes one back or cuts one off.
-/

namespace RtThread.SmallMem

variable {cfg : Config} {heap after : Heap} {front rear bs : List Block} {block : Block}

structure SameBytes (heap after : Heap) : Prop where
  heapPtr : after.heapPtr = heap.heapPtr
  heapEnd : after.heapEnd = heap.heapEnd
  memSizeAligned : after.memSizeAligned = heap.memSizeAligned
  byte : after.byte = heap.byte

theorem SameBytes.trans {middle : Heap} (a : SameBytes heap middle)
    (second : SameBytes middle after) : SameBytes heap after where
  heapPtr := second.heapPtr.trans a.heapPtr
  heapEnd := second.heapEnd.trans a.heapEnd
  memSizeAligned := second.memSizeAligned.trans a.memSizeAligned
  byte := second.byte.trans a.byte

theorem plugHoles_sameBytes {mem : Nat} (plugged : plugHoles heap mem = some after) :
    SameBytes heap after := by
  have forward : SameBytes heap (plugForward heap mem) := by
    dsimp only [plugForward]
    split_ifs <;> exact ⟨rfl, rfl, rfl, rfl⟩
  have backward : SameBytes (plugForward heap mem) (plugBackward (plugForward heap mem) mem) := by
    dsimp only [plugBackward]
    split_ifs <;> exact ⟨rfl, rfl, rfl, rfl⟩
  rw [plugHoles] at plugged
  split_ifs at plugged
  cases plugged
  exact forward.trans backward

theorem takeBlock_sameBytes (cfg : Config) (heap : Heap) (ptr n : Nat) :
    SameBytes heap (takeBlock cfg heap ptr n) := by
  dsimp only [takeBlock]
  split_ifs
  · rw [insertBlock_eq]
    exact ⟨rfl, rfl, rfl, rfl⟩
  · exact ⟨rfl, rfl, rfl, rfl⟩

def KeepsMagic (heap after : Heap) : Prop :=
  ∀ p, (heap.header p).magic = heapMagic → (after.header p).magic = heapMagic

theorem KeepsMagic.trans {middle : Heap} (a : KeepsMagic heap middle)
    (second : KeepsMagic middle after) : KeepsMagic heap after :=
  fun p magic => second p (a p magic)

theorem KeepsMagic.setHeader (kept : KeepsMagic heap after) {p : Nat} {mem : HeapMem}
    (magic : (heap.header p).magic = heapMagic → mem.magic = heapMagic) :
    KeepsMagic heap (after.setHeader p mem) := by
  intro u isMagic
  rw [setHeader_header]
  split
  · next same => exact magic (same ▸ isMagic)
  · exact kept u isMagic

theorem KeepsMagic.rewrite (kept : KeepsMagic heap after) {p : Nat} {mem : HeapMem}
    (same : mem.magic = (after.header p).magic) : KeepsMagic heap (after.setHeader p mem) :=
  kept.setHeader fun isMagic => same.trans (kept p isMagic)

theorem linkOver_keepsMagic (heap : Heap) (mem next : Nat) :
    KeepsMagic heap (linkOver heap mem next) := by
  have first : KeepsMagic heap (heap.setHeader mem { heap.header mem with next := next }) :=
    KeepsMagic.rewrite (fun _ => id) rfl
  exact first.rewrite rfl

theorem plugHoles_keepsMagic {mem : Nat} (plugged : plugHoles heap mem = some after) :
    KeepsMagic heap after := by
  have forward : ∀ heap, KeepsMagic heap (plugForward heap mem) := by
    intro heap
    dsimp only [plugForward]
    split_ifs
    · exact linkOver_keepsMagic { heap with lfree := mem } _ _
    · exact linkOver_keepsMagic heap _ _
    · exact fun _ => id
  have backward : ∀ heap, KeepsMagic heap (plugBackward heap mem) := by
    intro heap
    dsimp only [plugBackward]
    split_ifs
    · exact linkOver_keepsMagic { heap with lfree := (heap.header mem).prev } _ _
    · exact linkOver_keepsMagic heap _ _
    · exact fun _ => id
  rw [plugHoles] at plugged
  split_ifs at plugged
  cases plugged
  exact (forward heap).trans (backward _)

theorem insertBlock_keepsMagic (cfg : Config) (heap : Heap) (ptr ptr2 : Nat) :
    KeepsMagic heap (insertBlock cfg heap ptr ptr2) := by
  have first : KeepsMagic heap (heap.setHeader ptr2
      { magic := heapMagic, used := 0, next := (heap.header ptr).next, prev := ptr }) :=
    KeepsMagic.setHeader (fun _ => id) fun _ => rfl
  dsimp only [insertBlock]
  split_ifs
  · apply KeepsMagic.rewrite
    · apply KeepsMagic.rewrite first
      rfl
    · rfl
  · apply KeepsMagic.rewrite first
    rfl

theorem takeBlock_keepsMagic (cfg : Config) (heap : Heap) (ptr n : Nat) :
    KeepsMagic heap (takeBlock cfg heap ptr n) := by
  dsimp only [takeBlock]
  split_ifs
  · have split := insertBlock_keepsMagic cfg heap ptr
      (Word32.add (Word32.add ptr cfg.sizeofStructMem) n)
    apply KeepsMagic.rewrite split
    rfl
  · apply KeepsMagic.rewrite fun _ => id
    rfl

theorem Described.plugHoles_used (desc : Described cfg heap (front ++ block :: rear))
    (free : block.used = false) (isolatedFront : Isolated front) (isolatedRear : Isolated rear)
    (plugged : SmallMem.plugHoles heap block.start = some after) :
    ∃ blocks', Shape cfg after blocks' ∧
      usedBlocks blocks' = usedBlocks (front ++ block :: rear) ∧ after.live = heap.live := by
  obtain ⟨blocks', shape, -⟩ := desc.plugHoles free isolatedFront isolatedRear plugged
  obtain ⟨others, joins, -⟩ := plugHoles_joins desc.cut desc.endUsed free isolatedFront
    isolatedRear plugged
  refine ⟨blocks', shape, ?_, joins.kept.live⟩
  rw [Tiles.unique cfg.gap_pos shape.cut joins.cut]
  exact joins.merged.used

/-- A block of at least `size` bytes is handed out. -/
structure HandsOut (cfg : Config) (heap : Heap) (bs : List Block) (size : Nat)
    (after : Heap) (blocks' : List Block) (block : Block) : Prop where
  shape : Shape cfg after blocks'
  same : SameBytes heap after
  room : size ≤ block.stop - block.start - cfg.sizeofStructMem
  used : (usedBlocks blocks').Perm (block :: usedBlocks bs)
  keepsMagic : KeepsMagic heap after
  magic : (after.header block.start).magic = heapMagic
  live : after.live = userArea cfg heap.heapPtr block :: heap.live

theorem rtMalloc_null (shape : Shape cfg heap bs) {n : Nat}
    (allocated : rtMalloc cfg heap n = some (after, none)) : after = heap := by
  rcases (rtMalloc_keeps shape allocated).2 with ⟨-, same⟩ | ⟨rmem, isSome, -⟩
  · exact same
  · simp at isSome

/-- The heap in which a block is marked free, before `plug_holes`. -/
def markFree (cfg : Config) (heap : Heap) (block : Block) : Heap :=
  { heap with
    header := Function.update heap.header block.start
      { heap.header block.start with used := 0, magic := heapMagic }
    lfree := if block.start < heap.lfree then block.start else heap.lfree
    usedMem := Word32.sub heap.usedMem (Word32.sub (heap.header block.start).next block.start)
    live := heap.live.erase (userArea cfg heap.heapPtr block) }

theorem rtFree_marked (freed : rtFree cfg heap (some (userArea cfg heap.heapPtr block)) =
    some after) : plugHoles (markFree cfg heap block) block.start = some after := by
  simp only [rtFree, headerOf_userArea] at freed
  obtain ⟨-, freed⟩ := Option.ite_none_right_eq_some.mp freed
  rw [← freed, markFree]
  by_cases order : block.start < heap.lfree
  · simp only [order, if_true, Heap.setHeader, Function.update_self]
  · simp only [order, if_false, Heap.setHeader, Function.update_self]

/-- What `rt_realloc` of a block in use does, for the size rounded up. -/
inductive Resizes (cfg : Config) (heap : Heap) (block : Block) (newsize : Nat) :
    Heap → Option Nat → Prop
  | tooLarge : heap.memSizeAligned < newsize → Resizes cfg heap block newsize heap none
  | frees {after : Heap} : newsize = 0 →
      rtFree cfg heap (some (userArea cfg heap.heapPtr block)) = some after →
        Resizes cfg heap block newsize after none
  | stays : newsize = block.stop - block.start - cfg.sizeofStructMem →
      Resizes cfg heap block newsize heap (some (userArea cfg heap.heapPtr block))
  | shrinks {after : Heap} : newsize ≠ 0 → newsize + cfg.sizeofStructMem + minSize <
        block.stop - block.start - cfg.sizeofStructMem →
      shrink cfg heap block.start (block.stop - block.start - cfg.sizeofStructMem) newsize =
        some after →
      Resizes cfg heap block newsize after (some (userArea cfg heap.heapPtr block))
  | fails : newsize ≠ 0 → rtMalloc cfg heap newsize = some (heap, none) →
      Resizes cfg heap block newsize heap none
  | moves {middle after : Heap} {nmem : Nat} :
      rtMalloc cfg heap newsize = some (middle, some nmem) →
      rtFree cfg
        { middle with
          byte := rtMemcpy middle.byte nmem (userArea cfg heap.heapPtr block)
            (min (block.stop - block.start - cfg.sizeofStructMem) newsize) }
        (some (userArea cfg heap.heapPtr block)) = some after →
      Resizes cfg heap block newsize after (some nmem)

section

variable (shape : Shape cfg heap (front ++ block :: rear))

include shape

theorem allocate_handsOut (free : block.used = false) {n : Nat} (dvd : cfg.alignSize ∣ n)
    (enough : n ≤ block.stop - (block.start + cfg.sizeofStructMem)) {r : Option Nat}
    (allocated : allocate cfg heap block.start n = some (after, r)) :
    ∃ blocks' a, r = some (userArea cfg heap.heapPtr a) ∧
      HandsOut cfg heap (front ++ block :: rear) n after blocks' a := by
  obtain ⟨⟨blocks', shape', -⟩, -⟩ := allocate_keeps shape free dvd enough allocated
  obtain ⟨a, rear', isStart, room, taking, -, behind⟩ :=
    takeBlock_taken shape.toDescribed free shape.isolated.right_of_append dvd enough rfl
  have same : SameBytes heap ((takeBlock cfg heap block.start n).setHeader block.start
      { (takeBlock cfg heap block.start n).header block.start with magic := heapMagic }) :=
    have taken := takeBlock_sameBytes cfg heap block.start n
    ⟨taken.heapPtr, taken.heapEnd, taken.memSizeAligned, taken.byte⟩
  have keepsMagic : KeepsMagic heap ((takeBlock cfg heap block.start n).setHeader
      block.start { (takeBlock cfg heap block.start n).header block.start with
        magic := heapMagic }) :=
    (takeBlock_keepsMagic cfg heap block.start n).setHeader fun _ => rfl
  have magic : (((takeBlock cfg heap block.start n).setHeader block.start
      { (takeBlock cfg heap block.start n).header block.start with
        magic := heapMagic }).header a.start).magic = heapMagic := by
    rw [setHeader_header, if_pos isStart]
  simp only [allocate, Option.bind_eq_some_iff] at allocated
  obtain ⟨lfree, -, allocated⟩ := allocated
  generalize (takeBlock cfg heap block.start n).setHeader block.start
    { (takeBlock cfg heap block.start n).header block.start with
      magic := heapMagic } = taken at *
  obtain ⟨-, allocated⟩ := Option.ite_none_right_eq_some.mp allocated
  obtain ⟨rfl, rfl⟩ := allocated
  have isArea : taken.heapPtr + block.start + cfg.sizeofStructMem =
      userArea cfg heap.heapPtr a := by
    rw [same.heapPtr, userArea, isStart]
  have blocksEq : blocks' = front ++ a :: rear' := Tiles.unique cfg.gap_pos shape'.cut taking.cut
  refine ⟨blocks', a, congrArg some isArea, shape',
    ⟨same.heapPtr, same.heapEnd, same.memSizeAligned, same.byte⟩, by omega, ?_,
    keepsMagic, magic, ?_⟩
  · rw [blocksEq]
    simp only [usedBlocks_append, usedBlocks_cons, taking.used, free, behind.used]
    exact List.perm_middle
  · exact congrArg₂ List.cons isArea taking.live

theorem rtFree_used (used : block.used = true)
    (freed : rtFree cfg heap (some (userArea cfg heap.heapPtr block)) = some after) :
    ∃ blocks', Shape cfg after blocks' ∧ SameBytes heap after ∧
      usedBlocks blocks' = usedBlocks (front ++ rear) ∧
      after.live = heap.live.erase (userArea cfg heap.heapPtr block) := by
  obtain ⟨isolatedFront, isolatedRear⟩ := isolated_parts shape.isolated
  have plugged := rtFree_marked freed
  have marked := shape.toDescribed.release used heapMagic (freeAt_release used shape.lfree)
  obtain ⟨blocks', shape', same, live⟩ :=
    marked.plugHoles_used rfl isolatedFront isolatedRear plugged
  have bytes := plugHoles_sameBytes plugged
  refine ⟨blocks', shape', ⟨bytes.heapPtr, bytes.heapEnd, bytes.memSizeAligned, bytes.byte⟩, ?_,
    live⟩
  rw [same]
  simp

theorem shrink_used (used : block.used = true) {n : Nat}
    (fits : n + cfg.sizeofStructMem + minSize < block.stop - block.start - cfg.sizeofStructMem)
    (dvd : cfg.alignSize ∣ n)
    (shrunk : shrink cfg heap block.start (block.stop - block.start - cfg.sizeofStructMem) n
      = some after) :
    
    ∃ blocks', Shape cfg after blocks' ∧ SameBytes heap after ∧
      usedBlocks blocks' = usedBlocks (front ++
        { block with stop := block.start + cfg.sizeofStructMem + n } :: rear) ∧
      after.live = heap.live := by
  rw [shrink_eq shape used fits] at shrunk
  obtain ⟨desc, isolatedFront, isolatedRear, kept, -⟩ := cutOff_described shape used fits dvd
  obtain ⟨blocks', shape', same, live⟩ := desc.plugHoles_used rfl isolatedFront isolatedRear shrunk
  have bytes := plugHoles_sameBytes shrunk
  have sameByte : (cutOff cfg heap block n).byte = heap.byte := by rw [cutOff, insertBlock_eq]
  refine ⟨blocks', shape', ⟨bytes.heapPtr.trans kept.heapPtr, bytes.heapEnd.trans kept.heapEnd,
    bytes.memSizeAligned.trans kept.memSizeAligned, bytes.byte.trans sameByte⟩, ?_,
    live.trans kept.live⟩
  rw [same]
  simp

theorem rtRealloc_resizes (roomy : block.start + cfg.sizeofStructMem < block.stop) {n : Nat}
    {result : Option Nat}
    (resized : rtRealloc cfg heap (some (userArea cfg heap.heapPtr block)) n = some
      (after, result)) :
    Resizes cfg heap block (cfg.rtAlign n) after result := by
  simp only [rtRealloc, shape.area_inRange roomy, headerOf_userArea, shape.size_eq, if_false]
    at resized
  split at resized
  · rename_i tooLarge
    obtain ⟨rfl, rfl⟩ := resized
    exact .tooLarge tooLarge
  · rename_i fits
    rw [shape.add_minSize (Nat.le_of_not_lt fits)] at resized
    split at resized
    · rename_i zero
      simp only [Option.map_eq_some_iff] at resized
      obtain ⟨freed, result, rfl, rfl⟩ := resized
      exact .frees zero result
    · rename_i nonzero
      split at resized
      · rename_i same
        obtain ⟨rfl, rfl⟩ := resized
        exact .stays same.symm
      · split at resized
        · rename_i shrinks
          simp only [Option.map_eq_some_iff] at resized
          obtain ⟨shrunk, result, rfl, rfl⟩ := resized
          exact .shrinks nonzero shrinks result
        · rw [Option.bind_eq_some_iff] at resized
          obtain ⟨⟨middle, nmem⟩, allocated, resized⟩ := resized
          cases nmem with
          | none =>
            obtain ⟨rfl, rfl⟩ := resized
            obtain rfl := rtMalloc_null shape allocated
            exact .fails nonzero allocated
          | some nmem =>
            simp only [Option.map_eq_some_iff] at resized
            obtain ⟨freed, result, rfl, rfl⟩ := resized
            refine .moves allocated ?_
            have isMin : (if block.stop - block.start - cfg.sizeofStructMem < cfg.rtAlign n then
                  block.stop - block.start - cfg.sizeofStructMem
                else cfg.rtAlign n) = min (block.stop - block.start - cfg.sizeofStructMem)
                    (cfg.rtAlign n) := by
              split <;> omega
            rw [isMin] at result
            exact result

end

theorem rtMalloc_handsOut (shape : Shape cfg heap bs) {n rmem : Nat}
    (allocated : rtMalloc cfg heap n = some (after, some rmem)) :
    0 < n ∧ HasReachedFit cfg heap (cfg.need n) ∧ ∃ blocks' a, rmem = userArea cfg heap.heapPtr a ∧
        HandsOut cfg heap bs (cfg.need n) after blocks' a := by
  by_cases zero : n = 0
  · simp [rtMalloc, zero] at allocated
  by_cases small : cfg.rtAlign n ≤ heap.memSizeAligned
  · rw [rtMalloc_eq heap (Nat.pos_of_ne_zero zero) small, Option.bind_eq_some_iff] at allocated
    obtain ⟨found, searched, allocated⟩ := allocated
    cases found with
    | none => simp at allocated
    | some ptr =>
      obtain ⟨front, block, rear, rfl, free, rfl, enough⟩ :=
        search_found shape.toDescribed (place_of_freeAt shape.lfree) searched
      have own := shape.cut.header_block
      have endEq := shape.endEq
      have reached : HasReachedFit cfg heap (cfg.need n) := by
        by_contra notReached
        rw [(shape.search_lfree (by omega)).2 notReached] at searched
        simp at searched
      obtain ⟨blocks', a, isArea, handsOut⟩ :=
        allocate_handsOut shape free (cfg.dvd_need n) enough allocated
      exact ⟨Nat.pos_of_ne_zero zero, reached, blocks', a, Option.some.inj isArea, handsOut⟩
  · simp [rtMalloc, Nat.lt_of_not_le small] at allocated

end RtThread.SmallMem
