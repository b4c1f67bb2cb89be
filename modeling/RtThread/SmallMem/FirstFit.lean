import RtThread.SmallMem.LowestFree

/-!
# The search of `rt_malloc`

The search ends at the first free block behind `lfree` with enough room, unless that block
fits exactly in front of `heap_end`: the bound of the loop leaves that place out.
-/

namespace RtThread.SmallMem

variable {cfg : Config} {heap after : Heap} {front rear bs : List Block} {b : Block}

/-- What `rt_malloc` looks for: the larger one of `RT_ALIGN(size)` and `MIN_SIZE_ALIGNED`. -/
def Config.need (cfg : Config) (size : Nat) : Nat :=
  max (cfg.rtAlign size) cfg.minSizeAligned

structure Fits (cfg : Config) (bs : List Block) (need : Nat) (b : Block) : Prop where
  membership : b ∈ bs
  free : b.used = false
  room : need ≤ b.stop - b.start - cfg.sizeofStructMem

def HasFit (cfg : Config) (heap : Heap) (need : Nat) : Prop :=
  ∃ bs, Tiles heap.headers cfg.sizeofStructMem 0 0 bs heap.heapEnd ∧
    ∃ b, Fits cfg bs need b

/-- One of them is at `lfree` or behind it, and does not start at `mem_size_aligned - need`. -/
def HasReachedFit (cfg : Config) (heap : Heap) (need : Nat) : Prop :=
  ∃ bs, Tiles heap.headers cfg.sizeofStructMem 0 0 bs heap.heapEnd ∧
    ∃ b, Fits cfg bs need b ∧ heap.lfree ≤ b.start ∧
      b.start ≠ heap.memSizeAligned - need

variable {need n : Nat}

theorem Described.fits_bound (desc : Described cfg heap bs)
    (fits : Fits cfg bs need b) : b.start + need ≤ heap.memSizeAligned := by
  have bounds := desc.cut.mem_bounds fits.membership
  have room := fits.room
  have endEq := desc.endEq
  omega

theorem Region.search_cons (region : Region cfg heap) {before : Nat}
    (tiles : Tiles heap.headers cfg.sizeofStructMem before b.start (b :: rear) heap.heapEnd)
    (small : n ≤ heap.memSizeAligned) (turns : Nat) :
    search cfg heap n (turns + 1) b.start = if b.start < heap.memSizeAligned - n then
        if b.used = false ∧ n ≤ b.stop - b.start - cfg.sizeofStructMem then some (some b.start)
        else search cfg heap n turns b.stop else some none := by
  obtain ⟨-, next, -, used, room, rest⟩ := tiles
  simp only [headers_next] at next used
  have inside := rest.le
  have fits := region.heapEnd_lt
  have endEq := region.endEq
  have bound : Word32.sub heap.memSizeAligned n = heap.memSizeAligned - n :=
    Word32.sub_eq small (by omega)
  have isRoom : SmallMem.room cfg heap b.start = b.stop - b.start - cfg.sizeofStructMem := by
    rw [SmallMem.room, next, Word32.add_eq (by omega), Word32.sub_eq (by omega) (by omega)]
    omega
  have isFree : (heap.header b.start).used = 0 ↔ b.used = false := by
    rw [← used]
    simp
  simp only [search, bound, isRoom, isFree, next]

variable {before ptr turns : Nat}

theorem Region.search_none (region : Region cfg heap)
    (tiles : Tiles heap.headers cfg.sizeofStructMem before ptr rear heap.heapEnd)
    (small : n ≤ heap.memSizeAligned) (enough : rear.length < turns)
    (unfit : ∀ b, Fits cfg rear n b → heap.memSizeAligned - n ≤ b.start) :
    search cfg heap n turns ptr = some none := by
  induction rear generalizing before ptr turns with
  | nil =>
    obtain ⟨turns, rfl⟩ := Nat.exists_eq_add_of_lt enough
    obtain rfl : ptr = heap.heapEnd := tiles
    have fits := region.heapEnd_lt
    have endEq := region.endEq
    rw [search, Word32.sub_eq small (by omega), if_neg (by omega)]
  | cons b rest ih =>
    obtain ⟨turns, rfl⟩ := Nat.exists_eq_succ_of_ne_zero (Nat.ne_of_gt (Nat.zero_lt_of_lt enough))
    obtain rfl : b.start = ptr := tiles.1
    rw [region.search_cons tiles small]
    split
    · rename_i below
      have notFit : ¬ (b.used = false ∧
          n ≤ b.stop - b.start - cfg.sizeofStructMem) := by
        rintro ⟨free, room⟩
        have := unfit b ⟨by simp, free, room⟩
        omega
      rw [if_neg notFit]
      obtain ⟨-, -, -, -, -, restTiles⟩ := tiles
      apply ih restTiles
      · simp only [List.length_cons] at enough
        omega
      · exact fun u fits => unfit u ⟨by simp [fits.membership], fits.free, fits.room⟩
    · rfl

theorem Region.search_some (region : Region cfg heap)
    (tiles : Tiles heap.headers cfg.sizeofStructMem before ptr rear heap.heapEnd)
    (small : n ≤ heap.memSizeAligned) (enough : rear.length < turns) (fits : Fits cfg rear n b)
    (below : b.start < heap.memSizeAligned - n) :
    ∃ found, search cfg heap n turns ptr = some (some found) := by
  induction rear generalizing before ptr turns with
  | nil => exact absurd fits.membership (by simp)
  | cons a rest ih =>
    obtain ⟨turns, rfl⟩ := Nat.exists_eq_succ_of_ne_zero (Nat.ne_of_gt (Nat.zero_lt_of_lt enough))
    obtain rfl : a.start = ptr := tiles.1
    rw [region.search_cons tiles small]
    obtain ⟨-, -, -, -, room, restTiles⟩ := tiles
    have ordered : a.start ≤ b.start := by
      rcases List.mem_cons.mp fits.membership with rfl | inRest
      · exact Nat.le_refl _
      · have := restTiles.mem_bounds inRest
        omega
    rw [if_pos (by omega)]
    split
    · exact ⟨_, rfl⟩
    · rename_i notFit
      apply ih restTiles
      · simp only [List.length_cons] at enough
        omega
      · refine ⟨?_, fits.free, fits.room⟩
        rcases List.mem_cons.mp fits.membership with rfl | inRest
        · exact absurd ⟨fits.free, fits.room⟩ notFit
        · exact inRest

theorem Described.behindLfree (desc : Described cfg heap bs) :
    ∃ front rear before, bs = front ++ rear ∧
      Tiles heap.headers cfg.sizeofStructMem before heap.lfree rear heap.heapEnd ∧
      (∀ b ∈ front, b.start < heap.lfree) ∧ ∀ b ∈ rear, heap.lfree ≤ b.start := by
  have gap := cfg.gap_pos
  rcases desc.lfree with atEnd | ⟨b, mem, -, isStart⟩
  · refine ⟨bs, [], 0, by simp, atEnd, fun b mem => ?_, by simp⟩
    have := desc.cut.mem_bounds mem
    omega
  · obtain ⟨front, rear, rfl⟩ := List.append_of_mem mem
    obtain ⟨middle, frontTiles, rest⟩ := Tiles.append_iff.mp desc.cut
    obtain rfl : b.start = middle := rest.1
    rw [← isStart]
    refine ⟨front, b :: rear, _, rfl, rest, fun u inFront => ?_, fun u inRear => ?_⟩
    · have := frontTiles.mem_bounds inFront
      omega
    · exact (rest.mem_bounds inRear).1

theorem nextFree_eq_some (tiles : Tiles heap.headers cfg.sizeofStructMem before ptr bs heap.heapEnd)
    (enough : bs.length < turns) : nextFree heap turns ptr = some (lowestFree heap.heapEnd bs) := by
  induction bs generalizing before ptr turns with
  | nil =>
    obtain ⟨turns, rfl⟩ := Nat.exists_eq_add_of_lt enough
    obtain rfl : ptr = heap.heapEnd := tiles
    simp [nextFree, lowestFree]
  | cons b rest ih =>
    obtain ⟨turns, rfl⟩ := Nat.exists_eq_succ_of_ne_zero (Nat.ne_of_gt (Nat.zero_lt_of_lt enough))
    obtain ⟨rfl, next, -, used, room, restTiles⟩ := tiles
    simp only [headers_next] at next used
    have inside := restTiles.le
    have gap := cfg.gap_pos
    have notEnd : b.start ≠ heap.heapEnd := by omega
    have isUsed : (heap.header b.start).used ≠ 0 ↔ b.used = true := by
      rw [← used]
      simp
    simp only [List.length_cons] at enough
    simp only [nextFree, isUsed, notEnd, ne_eq, not_false_eq_true, and_true, next, lowestFree]
    split
    · exact ih restTiles (by omega)
    · rfl

theorem header_of_freeAt {p : Nat} (cut : Cut cfg heap bs) (freeAt : FreeAt heap.heapEnd bs p) :
    p = heap.heapEnd ∨ (heap.header p).used = 0 := by
  rcases freeAt with atEnd | ⟨b, mem, free, rfl⟩
  · exact .inl atEnd
  · obtain ⟨front, rear, rfl⟩ := List.append_of_mem mem
    right
    simpa [free] using cut.header_block.2.2.1

theorem Shape.allocate_returns (shape : Shape cfg heap (front ++ b :: rear)) (free : b.used = false)
    (dvd : cfg.alignSize ∣ n) (enough : n ≤ b.stop - (b.start + cfg.sizeofStructMem)) :
    ∃ after, allocate cfg heap b.start n = some (after, some (userArea cfg heap.heapPtr b)) := by
  obtain ⟨a, rear', isStart, room, taking, -, behind⟩ :=
    takeBlock_taken shape.toDescribed free shape.isolated.right_of_append dvd enough rfl
  have own := shape.cut.header_block
  simp only [allocate]
  generalize (takeBlock cfg heap b.start n).setHeader b.start
    { (takeBlock cfg heap b.start n).header b.start with
      magic := heapMagic } = taken at *
  obtain ⟨lfree, lowest⟩ : ∃ lfree, (if b.start = taken.lfree then
      nextFree taken (taken.heapEnd + 1) taken.lfree else some taken.lfree) = some lfree := by
    split
    · rename_i atLfree
      obtain ⟨middle, -, rest⟩ := Tiles.append_iff.mp taking.cut
      obtain rfl : a.start = middle := rest.1
      rw [← atLfree, ← isStart]
      refine ⟨_, nextFree_eq_some rest ?_⟩
      have := rest.length_le cfg.gap_pos
      omega
    · exact ⟨_, rfl⟩
  have aligned : cfg.alignSize ∣ heap.heapPtr + b.start :=
    Nat.dvd_add shape.heapPtrAligned (shape.starts b (by simp))
  have mask : (heap.heapPtr + b.start) &&& (cfg.alignSize - 1) = 0 := by
    rw [Config.alignSize, Nat.and_two_pow_sub_one_eq_mod]
    exact Nat.mod_eq_zero_of_dvd aligned
  have asserted : (b.start = taken.lfree → lfree = taken.heapEnd ∨
      (taken.header lfree).used = 0) ∧
      taken.heapPtr + b.start + cfg.sizeofStructMem + n ≤ taken.heapPtr + taken.heapEnd ∧
      (taken.heapPtr + b.start + cfg.sizeofStructMem) % cfg.alignSize = 0 ∧
      (taken.heapPtr + b.start) &&& (cfg.alignSize - 1) = 0 := by
    rw [taking.heapPtr]
    have freeAt := (taking.lfree_ok behind isStart free shape.cut shape.lfree lowest).1
    refine ⟨fun _ => header_of_freeAt taking.cut freeAt, ?_, ?_, mask⟩
    · rw [taking.heapEnd]
      omega
    · exact Nat.mod_eq_zero_of_dvd (Nat.dvd_add aligned cfg.dvd_sizeofStructMem)
  rw [lowest]
  simp only [Option.bind_some]
  rw [if_pos asserted, userArea, taking.heapPtr]
  exact ⟨_, rfl⟩

theorem rtMalloc_eq (heap : Heap) (pos : 0 < n) (small : cfg.rtAlign n ≤ heap.memSizeAligned) :
    rtMalloc cfg heap n =
      (search cfg heap (cfg.need n) (heap.heapEnd + 1) heap.lfree).bind fun found =>
        match found with
        | some ptr => allocate cfg heap ptr (cfg.need n)
        | none => some (heap, none) := by
  have isNeed : (if cfg.rtAlign n < cfg.minSizeAligned then cfg.minSizeAligned
      else cfg.rtAlign n) = cfg.need n := by
    unfold Config.need
    split <;> omega
  have searched := congrArg (fun need =>
    (search cfg heap need (heap.heapEnd + 1) heap.lfree).bind fun found =>
      match found with
      | some ptr => allocate cfg heap ptr need
      | none => some (heap, none)) isNeed
  rw [rtMalloc, if_neg (by omega), if_neg (by omega)]
  exact searched

theorem Config.dvd_need (cfg : Config) (n : Nat) : cfg.alignSize ∣ cfg.need n := by
  unfold Config.need
  rcases Nat.le_total (cfg.rtAlign n) cfg.minSizeAligned with small | large
  · rw [Nat.max_eq_right small]
    exact cfg.dvd_minSizeAligned
  · rw [Nat.max_eq_left large]
    exact cfg.dvd_rtAlign n

section

variable (shape : Shape cfg heap bs)

include shape

theorem Shape.hasFit_iff : HasFit cfg heap need ↔ ∃ b, Fits cfg bs need b := by
  constructor
  · rintro ⟨others, tiles, fits⟩
    rwa [Tiles.unique cfg.gap_pos tiles shape.cut] at fits
  · exact fun fits => ⟨bs, shape.cut, fits⟩

theorem Shape.hasReachedFit_iff : HasReachedFit cfg heap need ↔ ∃ b, Fits cfg bs need b ∧
      heap.lfree ≤ b.start ∧ b.start ≠ heap.memSizeAligned - need := by
  constructor
  · rintro ⟨others, tiles, fits⟩
    rwa [Tiles.unique cfg.gap_pos tiles shape.cut] at fits
  · exact fun fits => ⟨bs, shape.cut, fits⟩

theorem Shape.search_lfree (small : n ≤ heap.memSizeAligned) : (HasReachedFit cfg heap n →
      ∃ found, search cfg heap n (heap.heapEnd + 1) heap.lfree = some (some found)) ∧
    (¬ HasReachedFit cfg heap n → search cfg heap n (heap.heapEnd + 1) heap.lfree = some none) := by
  obtain ⟨front, rear, before, rfl, tiles, inFront, inRear⟩ := shape.behindLfree
  have enough : rear.length < heap.heapEnd + 1 := by
    have := tiles.length_le cfg.gap_pos
    omega
  rw [shape.hasReachedFit_iff]
  constructor
  · rintro ⟨b, fits, behind, notBound⟩
    have bound := shape.fits_bound fits
    have mem : b ∈ rear := by
      rcases List.mem_append.mp fits.membership with isFront | isRear
      · have := inFront b isFront
        omega
      · exact isRear
    exact shape.search_some tiles small enough ⟨mem, fits.free, fits.room⟩ (by omega)
  · intro none
    refine shape.search_none tiles small enough fun b fits => ?_
    by_contra below
    refine none ⟨b, ⟨by simp [fits.membership], fits.free, fits.room⟩,
      inRear b fits.membership, by omega⟩

theorem Shape.rtMalloc_some (pos : 0 < n) (fit : HasReachedFit cfg heap (cfg.need n)) :
    ∃ after rmem, rtMalloc cfg heap n = some (after, some rmem) := by
  obtain ⟨b, fits, -⟩ := shape.hasReachedFit_iff.mp fit
  have bound := shape.fits_bound fits
  have small : cfg.need n ≤ heap.memSizeAligned := by omega
  obtain ⟨found, searched⟩ := (shape.search_lfree small).1 fit
  obtain ⟨front, b, rear, rfl, free, rfl, enough⟩ :=
    search_found shape.toDescribed (place_of_freeAt shape.lfree) searched
  obtain ⟨after, allocated⟩ := shape.allocate_returns free (cfg.dvd_need n) enough
  rw [rtMalloc_eq heap pos ((Nat.le_max_left _ _).trans small), searched]
  exact ⟨after, _, allocated⟩

theorem Shape.rtMalloc_none (pos : 0 < n) (fit : HasFit cfg heap (cfg.need n))
    (notReached : ¬ HasReachedFit cfg heap (cfg.need n)) :
    rtMalloc cfg heap n = some (heap, none) := by
  obtain ⟨b, fits⟩ := shape.hasFit_iff.mp fit
  have bound := shape.fits_bound fits
  have small : cfg.need n ≤ heap.memSizeAligned := by omega
  rw [rtMalloc_eq heap pos ((Nat.le_max_left _ _).trans small),
    (shape.search_lfree small).2 notReached]
  rfl

end

/-- `rt_malloc` returns `NULL` only if no free block can hold the request: so it is exactly
where, if one can, the search reaches one that can. -/
theorem rtMalloc_complete_iff (reachable : (system cfg).Reachable heap) {n : Nat} (pos : 0 < n) :
    (∀ after, rtMalloc cfg heap n = some (after, none) → ¬ HasFit cfg heap (cfg.need n)) ↔
      (HasFit cfg heap (cfg.need n) → HasReachedFit cfg heap (cfg.need n)) := by
  obtain ⟨bs, shape⟩ := reachable_shape reachable
  constructor
  · intro complete fit
    by_contra notReached
    exact complete heap (shape.rtMalloc_none pos fit notReached) fit
  · intro reached after ret fit
    obtain ⟨u, rmem, handedOut⟩ := shape.rtMalloc_some pos (reached fit)
    rw [handedOut] at ret
    simp at ret

theorem second_request_complete : ¬ ∃ after, rtMalloc word4
        ((TransitionSystem.execute (step word4) smallHeap [.malloc 40]).get (by decide)) 100 =
          some (after, none) ∧ HasFit word4
        ((TransitionSystem.execute (step word4) smallHeap [.malloc 40]).get (by decide))
        (word4.need 100) := by
  rintro ⟨after, ret, fit⟩
  exact (rtMalloc_complete_iff ⟨_, TransitionSystem.Run.executed _ _ smallHeap_initial _⟩
    (by decide)).mpr (fun _ =>
      ⟨[⟨0, 52, true⟩, ⟨52, 244, false⟩], by decide, ⟨52, 244, false⟩,
        ⟨by decide, rfl, by decide⟩, by decide, by decide⟩) after ret fit

/-- All of the free block is asked for, and the loop does not look at it. -/
theorem whole_heap_not_found :
    ¬ ∀ heap, (system word4).Reachable heap → ∀ n, 0 < n → NoWrap word4 n →
      ∀ after, rtMalloc word4 heap n = some (after, none) → ¬ HasFit word4 heap (word4.need n) := by
  intro claim
  refine claim smallHeap ⟨[], .start smallHeap_initial⟩ 232 (by decide) (by decide) smallHeap
    (by rfl) ?_
  exact ⟨[⟨0, 244, false⟩], by decide, ⟨0, 244, false⟩, by decide, rfl, by decide⟩

/-- The blocks that the loop looks at. -/
def visited (cfg : Config) (heap : Heap) (size : Nat) : Nat → Nat → List Nat
  | 0, _ => []
  | turns + 1, ptr =>
    if ptr < Word32.sub heap.memSizeAligned size then
      ptr :: (if (heap.header ptr).used = 0 ∧ size ≤ room cfg heap ptr then []
        else visited cfg heap size turns (heap.header ptr).next)
    else []

/-- The loop of `rt_malloc`, if it comes to it, ends and looks at no block twice. -/
def SearchEnds (cfg : Config) (heap : Heap) (size : Nat) : Prop :=
  size ≠ 0 → cfg.rtAlign size ≤ heap.memSizeAligned →
    ∃ turns, (search cfg heap (cfg.need size) turns heap.lfree).isSome ∧
      (visited cfg heap (cfg.need size) turns heap.lfree).Nodup

theorem Region.visited_sorted (region : Region cfg heap) {before ptr : Nat}
    (tiles : Tiles heap.headers cfg.sizeofStructMem before ptr rear heap.heapEnd)
    (small : n ≤ heap.memSizeAligned) (turns : Nat) :
    (visited cfg heap n turns ptr).Pairwise (· < ·) ∧
      ∀ p ∈ visited cfg heap n turns ptr, ptr ≤ p := by
  induction turns generalizing before ptr rear with
  | zero => simp [visited]
  | succ turns ih =>
    rw [visited]
    split
    · split
      · simp
      · cases rear with
        | nil =>
          obtain rfl : ptr = heap.heapEnd := tiles
          have below := ‹heap.heapEnd < _›
          have fits := region.heapEnd_lt
          have endEq := region.endEq
          rw [Word32.sub_eq small (by omega)] at below
          omega
        | cons b rest =>
          obtain ⟨rfl, next, -, -, room, restTiles⟩ := tiles
          have gap := cfg.gap_pos
          obtain ⟨sorted, behind⟩ := ih restTiles
          simp only [headers_next] at next
          rw [next]
          refine ⟨List.pairwise_cons.mpr ⟨fun p mem => ?_, sorted⟩, fun p mem => ?_⟩
          · have := behind p mem
            omega
          · rcases List.mem_cons.mp mem with rfl | mem
            · exact Nat.le_refl _
            · have := behind p mem
              omega
    · simp

/-- A heap smaller than the least request has no place where the loop ends. -/
theorem Described.search_stuck (desc : Described cfg heap bs) (short : heap.memSizeAligned < n)
    (bound : cfg.sizeofStructMem + n < 2 ^ 32) {ptr : Nat} (isPlace : Place heap bs ptr)
    (turns : Nat) : search cfg heap n turns ptr = none := by
  induction turns generalizing ptr with
  | zero => rfl
  | succ turns ih =>
    have endEq := desc.endEq
    have inside : ptr ≤ heap.heapEnd := by
      rcases isPlace with rfl | ⟨b, mem, rfl⟩
      · exact Nat.le_refl _
      · have := desc.cut.mem_bounds mem
        omega
    have wraps : Word32.sub heap.memSizeAligned n = heap.memSizeAligned + (2 ^ 32 - n) := by
      simp only [Word32.sub]
      omega
    rw [search, wraps, if_pos (by omega), if_neg]
    · exact ih (desc.place_next isPlace)
    · rintro ⟨notUsed, enough⟩
      rcases isPlace with rfl | ⟨b, mem, rfl⟩
      · exact desc.endUsed notUsed
      · obtain ⟨front, rear, rfl⟩ := List.append_of_mem mem
        rw [desc.room_eq] at enough
        have := desc.cut.mem_bounds mem
        omega

/-- The search ends in every heap that can hold the least request. -/
theorem searchEnds_iff (reachable : (system cfg).Reachable heap) (size : Nat) :
    SearchEnds cfg heap size ↔ (size ≠ 0 → cfg.rtAlign size ≤ heap.memSizeAligned →
        cfg.minSizeAligned ≤ heap.memSizeAligned) := by
  obtain ⟨bs, shape⟩ := reachable_shape reachable
  refine forall₂_congr fun pos passes => ⟨fun ⟨turns, ends, _⟩ => ?_, fun enough => ?_⟩
  · by_contra short
    have need : cfg.need size = cfg.minSizeAligned := Nat.max_eq_right (by omega)
    have gap := cfg.sizeofStructMem_bounds
    have least := cfg.minSizeAligned_bounds
    rw [need, shape.search_stuck (n := cfg.minSizeAligned) (by omega) (by omega)
      (place_of_freeAt shape.lfree)] at ends
    simp at ends
  · have small : cfg.need size ≤ heap.memSizeAligned := Nat.max_le.mpr ⟨passes, enough⟩
    obtain ⟨front, rear, before, -, tiles, -⟩ := shape.behindLfree
    refine ⟨heap.heapEnd + 1, ?_, ((shape.visited_sorted tiles small _).1.imp ne_of_lt)⟩
    by_cases reached : HasReachedFit cfg heap (cfg.need size)
    · obtain ⟨found, ends⟩ := (shape.search_lfree small).1 reached
      rw [ends]
      rfl
    · rw [(shape.search_lfree small).2 reached]
      rfl

theorem searchEnds_smallHeap : SearchEnds word4 smallHeap 40 :=
  (searchEnds_iff ⟨[], .start smallHeap_initial⟩ 40).mpr fun _ _ => by decide

/-- A heap of four bytes passes the test of the size, which is then raised to twelve. -/
theorem tinyHeap_search_stuck :
    ¬ ∀ heap, (system word4).Reachable heap → ∀ size, SearchEnds word4 heap size := by
  intro claim
  have reachable : (system word4).Reachable
      ((rtSystemHeapInit word4 (fun _ => ⟨0, 0, 0, 0⟩) (fun _ => 0) 4096 4124).get (by decide)) :=
    ⟨[], .start ⟨_, _, 4096, 4124, by decide, (Option.some_get _).symm⟩⟩
  have enough := (searchEnds_iff reachable 4).mp (claim _ reachable 4) (by decide) (by decide)
  revert enough
  decide

end RtThread.SmallMem
