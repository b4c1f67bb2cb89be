import RtThread.MemHeap.Items

/-!
# The free list, and the places of the items

Insertion in and removal from the free list, and the operations that change both lists.
-/

namespace RtThread.MemHeap

namespace Described

variable {cfg : Config} {pool : Pool} {m after : Memory} {places : Set Nat}
  {bs front rear : List Block} {b first second : Block} {free : List Nat} {item : Nat}

section

variable (desc : Described cfg pool m places bs free)

include desc

theorem ring_mem {p : Nat} (mem : p ∈ pool.freeList :: free) : p ∈ places := by
  rcases List.mem_cons.mp mem with rfl | inFree
  · exact desc.freeList_mem
  · exact desc.free_mem p inFree

theorem relist
    (same : ∀ p ∈ places, after.get p .next = m.get p .next ∧ after.get p .prev = m.get p .prev ∧
      after.get p .magic = m.get p .magic)
    {free' : List Nat} (free_mem : ∀ item ∈ free', item ∈ places)
    (ring : after.links.IsRing (pool.freeList :: free' : List Nat)) :
    Described cfg pool after places bs free' :=
  { desc with
    free_mem := free_mem
    cut := desc.cut_of_same same
    ring := ring }

theorem removeFree (inFree : item ∈ free) :
    Described cfg pool (m.removeFree item) places bs (free.erase item) := by
  obtain ⟨next_mem, prev_mem⟩ := desc.ring.links_mem (List.mem_cons_of_mem _ inFree)
  have written := fun u (mem : u ∈ places) => removeFree_get desc.spaced
    (desc.free_mem item inFree) (desc.ring_mem next_mem) (desc.ring_mem prev_mem)
    mem
  apply desc.relist
  · intro p inPlaces
    simp [written p inPlaces]
  · exact fun u mem => desc.free_mem u (List.mem_of_mem_erase mem)
  · refine (desc.ring.unlink_of_mem inFree).congr fun node mem => ?_
    have inPlaces : node ∈ places := by
      apply desc.ring_mem
      rcases List.mem_cons.mp (Cycle.mem_coe_iff.mp mem) with rfl | inRest
      · exact List.mem_cons_self
      · exact List.mem_cons_of_mem _ (List.mem_of_mem_erase inRest)
    simp [Memory.links, Links.unlink, written node inPlaces]

theorem takeFree (inFree : item ∈ free) :
    Described cfg pool (m.takeFree item) places bs (free.erase item) := by
  have removed := desc.removeFree inFree
  have item_mem := desc.free_mem item inFree
  have nodup := desc.ring.1
  have absent : item ∉ pool.freeList :: free.erase item := by
    intro mem
    rcases List.mem_cons.mp mem with rfl | inRest
    · exact (List.nodup_cons.mp nodup).1 inFree
    · exact (List.Nodup.not_mem_erase (List.nodup_cons.mp nodup).2) inRest
  have written : ∀ u ∈ places, ∀ field, (m.takeFree item).get u field =
      if u = item ∧ field = .prevFree then 0
      else if u = item ∧ field = .nextFree then 0
      else (m.removeFree item).get u field := by
    intro u mem field
    simp only [Memory.takeFree, get_set desc.spaced item_mem mem]
  apply removed.relist
  · intro p inPlaces
    simp [written p inPlaces]
  · exact removed.free_mem
  · refine removed.ring.congr fun node mem => ?_
    have inRing := Cycle.mem_coe_iff.mp mem
    have notItem : node ≠ item := fun same => absent (same ▸ inRing)
    simp [Memory.links, written node (removed.ring_mem inRing), notItem]

theorem insertFree (item_mem : item ∈ places) (fresh : item ∉ pool.freeList :: free) :
    Described cfg pool (m.insertFree pool.freeList item) places bs (item :: free) := by
  have next_mem := (desc.ring.links_mem List.mem_cons_self).1
  have apart : pool.freeList ≠ item := fun same => fresh (same ▸ List.mem_cons_self)
  have notNext : item ≠ m.get pool.freeList .nextFree := fun same => fresh (same ▸ next_mem)
  have written := fun u (mem : u ∈ places) => insertFree_get desc.spaced item_mem
    desc.freeList_mem (desc.ring_mem next_mem) apart mem
  have inPlaces : ∀ node ∈ pool.freeList :: item :: free, node ∈ places := by
    intro node mem
    simp only [List.mem_cons] at mem
    rcases mem with rfl | rfl | inFree
    · exact desc.freeList_mem
    · exact item_mem
    · exact desc.free_mem node inFree
  apply desc.relist
  · intro p inPlaces
    simp [written p inPlaces]
  · exact fun u mem => inPlaces u (List.mem_cons_of_mem _ mem)
  · refine (desc.ring.insertAfter fresh).congr fun node mem => ?_
    have node_mem := inPlaces node (Cycle.mem_coe_iff.mp mem)
    simp only [Memory.links, Links.insertAfter, Links.setPrev_next,
      Links.setNext_next, Links.setNext_prev, Links.setPrev_prev]
    grind

end

section

variable (desc : Described cfg pool m places (front ++ first :: second :: rear) free)

include desc

theorem second_at :
    second.start ∈ places ∧ second.stop ∈ places ∧ m.get second.start .next = second.stop ∧
      m.get second.start .prev = first.start ∧ first.start < second.start ∧
      second.start < second.stop := by
  have behind : Described cfg pool m places ((front ++ [first]) ++ second :: rear) free := by
    simpa using desc
  obtain ⟨-, ⟨isStart, -⟩, -, -, -, room⟩ := desc.cut.at
  obtain ⟨-, -, next, prev, -, room'⟩ := behind.cut.at
  have pos := cfg.memheapSize_bounds.1
  have size_eq : itemLayout.size = 24 := rfl
  rw [Tiles.last_concat] at prev
  exact ⟨desc.start_mem second (by simp), behind.stop_mem, next, prev, by omega, by omega⟩

theorem mergeNext (inFree : second.start ∈ free) :
    Described cfg pool (m.mergeNext first.start second.start) places
      (front ++ { first with stop := second.stop } :: rear) (free.erase second.start) := by
  obtain ⟨second_mem, stop_mem, next, -⟩ := desc.second_at
  have first_mem := desc.start_mem first (by simp)
  refine Described.removeFree (desc.join fun u mem field => ?_) inFree
  simp (disch := assumption) only [next, get_set desc.spaced, reduceCtorEq, and_false, if_false]

theorem joinLeft : Described cfg pool
      (let m := m.set (m.get second.start .prev) .next (m.get second.start .next)
      m.set (m.get second.start .next) .prev (m.get second.start .prev)) places
      (front ++ { first with stop := second.stop } :: rear) free := by
  obtain ⟨second_mem, stop_mem, next, prev, notFirst, -⟩ := desc.second_at
  have first_mem := desc.start_mem first (by simp)
  have notFirst : second.start ≠ first.start := by omega
  refine desc.join fun u mem field => ?_
  simp (disch := assumption) only [next, prev, get_set desc.spaced, notFirst, reduceCtorEq,
    and_false, false_and, if_false]
  grind

theorem joinRight : Described cfg pool
      (let m := m.set (m.get second.start .next) .prev (m.get second.start .prev)
      m.set (m.get second.start .prev) .next (m.get second.start .next)) places
      (front ++ { first with stop := second.stop } :: rear) free := by
  obtain ⟨second_mem, stop_mem, next, prev, -, notStop⟩ := desc.second_at
  have first_mem := desc.start_mem first (by simp)
  have notStop : second.start ≠ second.stop := by omega
  refine desc.join fun u mem field => ?_
  simp (disch := assumption) only [next, prev, get_set desc.spaced, notStop, reduceCtorEq,
    and_false, false_and, if_false]

end

end Described

section Places

variable {cfg : Config} {pool : Pool} {headers : Headers} {before start : Nat}
  {bs front rear : List Block} {b : Block}

theorem Region.itemPlaces_spaced (region : Region cfg pool)
    (tiles : Tiles headers cfg.memheapSize before pool.blockList bs (pool.tail cfg)) :
    itemLayout.Spaced (itemPlaces cfg pool bs) := by
  have pos := cfg.memheapSize_bounds.1
  have tail_eq := region.tail_eq
  have outside := region.outside
  have inside := tiles.le
  rintro p (rfl | rfl | ⟨b, mem, rfl⟩) u (rfl | rfl | ⟨block', membership', rfl⟩)
  · exact .inl rfl
  · exact .inr (by omega)
  · have := tiles.mem_bounds membership'
    exact .inr (by omega)
  · exact .inr (by omega)
  · exact .inl rfl
  · have := tiles.mem_bounds membership'
    exact .inr (by omega)
  · have := tiles.mem_bounds mem
    exact .inr (by omega)
  · have := tiles.mem_bounds mem
    exact .inr (by omega)
  · have := tiles.mem_bounds mem
    have := tiles.mem_bounds membership'
    rcases tiles.apart mem membership' with rfl | ordered
    · exact .inl rfl
    · exact .inr (by omega)

theorem Region.itemPlaces_outside (region : Region cfg pool)
    (tiles : Tiles headers cfg.memheapSize before pool.blockList (front ++ b :: rear)
      (pool.tail cfg)) {p : Nat} (inPlaces : p ∈ itemPlaces cfg pool (front ++ b :: rear)) :
    p + itemLayout.size ≤ b.start + cfg.memheapSize ∨ b.stop ≤ p := by
  have pos := cfg.memheapSize_bounds.1
  have tail_eq := region.tail_eq
  have outside := region.outside
  have block_mem : b ∈ front ++ b :: rear := by simp
  have bounds := tiles.mem_bounds block_mem
  rcases inPlaces with rfl | rfl | ⟨u, mem, rfl⟩
  · omega
  · exact .inr bounds.2.2
  · have := tiles.mem_bounds mem
    rcases tiles.apart block_mem mem with rfl | ordered
    · exact .inl (by omega)
    · omega

end Places

namespace Described

variable {cfg : Config} {pool : Pool} {m after : Memory} {places : Set Nat}
  {bs front rear : List Block} {b : Block} {free : List Nat}

theorem ofItems (desc : Described cfg pool m places bs free)
    (starts : ∀ item ∈ free, ∃ b ∈ bs, b.start = item) :
    Described cfg pool m (itemPlaces cfg pool bs) bs free :=
  { desc with
    spaced := desc.region.itemPlaces_spaced desc.cut.tiles
    freeList_mem := .inl rfl
    tail_mem := .inr (.inl rfl)
    start_mem := fun b mem => .inr (.inr ⟨b, mem, rfl⟩)
    free_mem := fun item mem => .inr (.inr (starts item mem)) }

theorem store (desc : Described cfg pool m
      (itemPlaces cfg pool (front ++ b :: rear)) (front ++ b :: rear) free)
    (same : ∀ a, a < b.start + cfg.memheapSize ∨ b.stop ≤ a → after a = m a) :
    Described cfg pool after (itemPlaces cfg pool (front ++ b :: rear))
      (front ++ b :: rear) free := by
  have kept : ∀ p ∈ itemPlaces cfg pool (front ++ b :: rear), ∀ field,
      after.get p field = m.get p field := by
    intro p inPlaces field
    have outside := desc.region.itemPlaces_outside desc.cut.tiles inPlaces
    exact Layout.read_congr field fun a lower upper => same a (by omega)
  apply desc.relist
  · exact fun p inPlaces => ⟨kept p inPlaces _, kept p inPlaces _, kept p inPlaces _⟩
  · exact desc.free_mem
  · exact desc.ring_of_same fun p inPlaces =>
      ⟨kept p inPlaces _, kept p inPlaces _⟩

end Described

def userArea (cfg : Config) (b : Block) : Nat := b.start + cfg.memheapSize

structure Shape (cfg : Config) (heap : Heap) (bs : List Block) (free : List Nat) : Prop where
  described : Described cfg heap.pool heap.memory (itemPlaces cfg heap.pool bs) bs free
  isolated : Isolated bs
  freeItems : free.Perm ((freeBlocks bs).map (·.start))
  available : heap.availableSize = roomOf cfg.memheapSize (freeBlocks bs)
  live : heap.live.Perm ((usedBlocks bs).map (userArea cfg))

variable {cfg : Config} {heap : Heap} {pool : Pool} {m : Memory} {places : Set Nat}
  {bs front rear : List Block} {b : Block} {free : List Nat}

namespace Described

theorem bounds (desc : Described cfg pool m places bs free) (mem : b ∈ bs) :
    pool.blockList ≤ b.start ∧ b.start + cfg.memheapSize ≤ b.stop ∧
      b.stop + cfg.memheapSize ≤ 2 ^ 32 ∧ itemLayout.size ≤ cfg.memheapSize := by
  have inside := desc.cut.tiles.mem_bounds mem
  have tail_eq := desc.region.tail_eq
  have fits := desc.region.fits
  have := cfg.memheapSize_bounds
  omega

theorem memitemSize_eq (desc : Described cfg pool m places (front ++ b :: rear) free) :
    m.memitemSize cfg b.start = b.stop - b.start - cfg.memheapSize := by
  have := desc.bounds (by simp : b ∈ front ++ b :: rear)
  have size_eq : itemLayout.size = 24 := rfl
  have space : Word32.sub b.stop b.start = b.stop - b.start := Word32.sub_eq (by omega) (by omega)
  rw [Memory.memitemSize, desc.cut.at.next, space, Word32.sub_eq (by omega) (by omega)]

theorem roomOf_lt (desc : Described cfg pool m places bs free) :
    roomOf cfg.memheapSize (freeBlocks bs) < 2 ^ 32 := by
  have below := desc.cut.tiles.roomOf_freeBlocks_le
  have tail_eq := desc.region.tail_eq
  have fits := desc.region.fits
  have pos := cfg.memheapSize_bounds.1
  have size_eq : itemLayout.size = 24 := rfl
  omega

theorem start_notMem (desc : Described cfg pool m places (front ++ b :: rear) free) :
    b.start ∉ (freeBlocks front).map (·.start) ++ (freeBlocks rear).map (·.start) := by
  have size_eq : itemLayout.size = 24 := rfl
  have room := desc.bounds (by simp : b ∈ front ++ b :: rear)
  obtain ⟨frontTiles, rearTiles, -⟩ := desc.cut.at
  intro mem
  rcases List.mem_append.mp mem with inFront | inRear
  · obtain ⟨u, inFront, same⟩ := List.mem_map.mp inFront
    have := frontTiles.mem_bounds (mem_freeBlocks.mp inFront).1
    omega
  · obtain ⟨u, inRear, same⟩ := List.mem_map.mp inRear
    have := rearTiles.mem_bounds (mem_freeBlocks.mp inRear).1
    omega

end Described

namespace Shape

theorem ofLive (shape : Shape cfg heap bs free) {ptr : Nat} (isLive : ptr ∈ heap.live) :
    ∃ front b rear, bs = front ++ b :: rear ∧ b.used = true ∧
      ptr = userArea cfg b ∧ Word32.sub ptr cfg.memheapSize = b.start := by
  obtain ⟨b, mem, rfl⟩ := List.mem_map.mp (shape.live.mem_iff.mp isLive)
  obtain ⟨mem, used⟩ := mem_usedBlocks.mp mem
  have bounds := shape.described.bounds mem
  have size_eq : itemLayout.size = 24 := rfl
  obtain ⟨front, rear, rfl⟩ := List.append_of_mem mem
  refine ⟨front, b, rear, rfl, used, rfl, ?_⟩
  rw [userArea, Word32.sub_eq (by omega) (by omega)]
  omega

theorem ofFree (shape : Shape cfg heap bs free) {item : Nat} (inFree : item ∈ free) :
    ∃ front b rear, bs = front ++ b :: rear ∧ b.used = false ∧ b.start = item := by
  obtain ⟨b, mem, rfl⟩ := List.mem_map.mp (shape.freeItems.mem_iff.mp inFree)
  obtain ⟨mem, notUsed⟩ := mem_freeBlocks.mp mem
  obtain ⟨front, rear, rfl⟩ := List.append_of_mem mem
  exact ⟨front, b, rear, rfl, notUsed, rfl⟩

theorem erase_free (shape : Shape cfg heap (front ++ b :: rear) free) (notUsed : b.used = false) :
    b.start ∈ free ∧ (free.erase b.start).Perm
      ((freeBlocks front).map (·.start) ++ (freeBlocks rear).map (·.start)) := by
  have listed := shape.freeItems
  rw [freeBlocks_append, freeBlocks_cons, notUsed, if_neg (by decide), List.map_append,
    List.map_cons] at listed
  refine ⟨listed.mem_iff.mpr (by simp), ?_⟩
  have := (listed.trans List.perm_middle).erase b.start
  rwa [List.erase_cons_head] at this

end Shape

def wholePool (cfg : Config) (pool : Pool) : Block :=
  { start := pool.blockList, stop := pool.tail cfg, used := false }

theorem Region.tiles_wholePool (region : Region cfg pool) :
    Tiles
      { next := fun _ => pool.tail cfg
        prev := fun _ => pool.tail cfg
        used := fun _ => false }
      cfg.memheapSize (pool.tail cfg) pool.blockList [wholePool cfg pool]
      (pool.tail cfg) := by
  have tail_eq := region.tail_eq
  have roomy := region.roomy
  exact ⟨rfl, rfl, rfl, rfl, by simp only [wholePool]; omega, rfl⟩

theorem initial_region (init : Initial cfg heap) : Region cfg heap.pool ∧
      heap.availableSize = heap.pool.poolSize - (cfg.memheapSize + cfg.memheapSize) ∧
      heap.live = [] := by
  obtain ⟨m, a, freeHeader, startAddr, n, roomy, fits, outside, small, rfl⟩ := init
  have below := Word32.maskDown_le small (by have := cfg.alignBits_lt; omega : cfg.alignBits ≤ 32)
  have bounds := cfg.memheapSize_bounds
  have sum : Word32.add cfg.memheapSize cfg.memheapSize =
      cfg.memheapSize + cfg.memheapSize := Word32.add_eq (by omega)
  change cfg.rtAlignDown n ≤ n at below
  refine ⟨⟨roomy, ?_, ?_⟩, ?_, rfl⟩
  · simp only [rtMemheapInit]
    omega
  · simp only [rtMemheapInit]
    omega
  · simp only [rtMemheapInit, sum]
    exact Word32.sub_eq (Nat.le_of_lt roomy) (by omega)

theorem initial_get (init : Initial cfg heap) :
    (∀ field, heap.memory.get heap.pool.freeList field = match field with
      | .magic => memheapMagic
      | .poolPtr => heap.pool.address
      | .next => 0
      | .prev => 0
      | .nextFree => heap.pool.blockList
      | .prevFree => heap.pool.blockList) ∧
    (∀ field, heap.memory.get heap.pool.blockList field = match field with
      | .magic => memheapMagic
      | .poolPtr => heap.pool.address
      | .next => heap.pool.tail cfg
      | .prev => heap.pool.tail cfg
      | .nextFree => heap.pool.freeList
      | .prevFree => heap.pool.freeList) ∧
    ∀ field, heap.memory.get (heap.pool.tail cfg) field = match field with
      | .magic => memheapMagic ||| memheapUsed
      | .poolPtr => heap.pool.address
      | .next => heap.pool.blockList
      | .prev => heap.pool.blockList
      | .nextFree => 0
      | .prevFree => 0 := by
  obtain ⟨region, available, -⟩ := initial_region init
  have spaced := region.itemPlaces_spaced region.tiles_wholePool
  have freeList_mem : heap.pool.freeList ∈ itemPlaces cfg heap.pool [wholePool cfg heap.pool] :=
    .inl rfl
  have start_mem : heap.pool.blockList ∈ itemPlaces cfg heap.pool [wholePool cfg heap.pool] :=
    .inr (.inr ⟨_, List.mem_singleton_self _, rfl⟩)
  have tail_mem : heap.pool.tail cfg ∈ itemPlaces cfg heap.pool [wholePool cfg heap.pool] :=
    .inr (.inl rfl)
  have bounds := cfg.memheapSize_bounds
  have size_eq : itemLayout.size = 24 := rfl
  have tail_eq := region.tail_eq
  have roomy := region.roomy
  have outside := region.outside
  have fits := region.fits
  have stop : Word32.add (Word32.add heap.pool.blockList heap.availableSize) cfg.memheapSize =
      heap.pool.tail cfg := by
    rw [Word32.add_add_eq (by omega)]
    omega
  have notStart : heap.pool.freeList ≠ heap.pool.blockList := by omega
  have notTail : heap.pool.freeList ≠ heap.pool.tail cfg := by omega
  have apart : heap.pool.blockList ≠ heap.pool.tail cfg := by omega
  obtain ⟨m, a, freeHeader, startAddr, n, -, -, -, -, rfl⟩ := init
  generalize places_eq : itemPlaces cfg (rtMemheapInit cfg m a freeHeader startAddr
    n).pool _ = places at spaced freeList_mem start_mem tail_mem
  simp only [rtMemheapInit] at stop notStart notTail apart freeList_mem start_mem tail_mem ⊢
  have apart' := notStart.symm
  refine ⟨fun field => ?_, fun field => ?_, fun field => ?_⟩
  · cases field <;> simp (disch := assumption) only [Memory.insertFree, writeItem_get spaced,
      get_set spaced, stop, notStart, notTail, apart', reduceCtorEq, and_false, and_true, if_false,
      if_true, and_self]
  · cases field <;> simp (disch := assumption) only [Memory.insertFree, writeItem_get spaced,
      get_set spaced, stop, notStart, apart, apart', reduceCtorEq, and_false, and_true, if_false,
      if_true, and_self]
  · cases field <;> simp (disch := assumption) only [Memory.insertFree, writeItem_get spaced,
      get_set spaced, stop, notStart, reduceCtorEq, and_false, and_true, if_false,
        if_true, and_self]

theorem initial_shape (init : Initial cfg heap) :
    Shape cfg heap [wholePool cfg heap.pool] [heap.pool.blockList] := by
  obtain ⟨region, available, live⟩ := initial_region init
  obtain ⟨atHead, atStart, atTail⟩ := initial_get init
  have tail_eq := region.tail_eq
  have roomy := region.roomy
  have outside := region.outside
  have size_eq : itemLayout.size = 24 := rfl
  have notHead : heap.pool.freeList ≠ heap.pool.blockList := by omega
  refine
    { described :=
        { region := region
          spaced := region.itemPlaces_spaced region.tiles_wholePool
          freeList_mem := .inl rfl
          tail_mem := .inr (.inl rfl)
          start_mem := fun b mem => .inr (.inr ⟨b, mem, rfl⟩)
          free_mem := ?_
          cut := ?_
          ring := ?_ }
      isolated := List.isChain_singleton _
      freeItems := by simp [wholePool]
      available := ?_
      live := by simp [live, wholePool] }
  · intro item mem
    obtain rfl := List.mem_singleton.mp mem
    exact .inr (.inr ⟨_, List.mem_singleton_self _, rfl⟩)
  · have marks : (memheapMagic &&& memheapUsed != 0) = false ∧
        (memheapMagic ||| memheapUsed) &&& memheapUsed != 0 := by decide
    refine ⟨⟨rfl, ?_, ?_, ?_, ?_, rfl⟩, ?_, ?_, ?_⟩
    · simp [Memory.headers, wholePool, atStart]
    · simp [Memory.headers, atStart]
    · simp [Memory.headers, Memory.isUsed, wholePool, atStart, marks.1]
    · simp only [wholePool]
      omega
    · simp [Memory.isUsed, atTail, marks.2]
    · simp [atTail]
    · simp [atTail, Tiles.last, wholePool]
  · rw [Links.isRing_cons_iff]
    simp [Links.Adjacent, Memory.links, atHead, atStart, notHead]
  · simp only [wholePool, freeBlocks_cons, freeBlocks_nil, Bool.false_eq_true, if_false,
      roomOf_cons, roomOf_nil]
    omega

theorem exists_block_of_perm {starts : List Nat}
    (listed : starts.Perm ((freeBlocks bs).map (·.start))) :
    ∀ item ∈ starts, ∃ b ∈ bs, b.start = item := by
  intro item mem
  obtain ⟨b, inBlocks, isStart⟩ := List.mem_map.mp (listed.mem_iff.mp mem)
  exact ⟨b, (mem_freeBlocks.mp inBlocks).1, isStart⟩

end RtThread.MemHeap
