import RtThread.Library.BlockList
import RtThread.MemHeap.Basic

/-!
# The two lists of items

What the operations on the list of all items and on the free list do to the blocks that the items
describe.
-/

namespace RtThread.MemHeap

variable {cfg : Config}

section Memory

variable {m : Memory} {places : Set Nat} {item u : Nat}

section

variable (spaced : itemLayout.Spaced places)

include spaced

section

variable (inPlaces : item ∈ places)

include inPlaces

theorem get_set (inPlaces' : u ∈ places) (field field' : Field) (v : Nat) :
    (m.set item field v).get u field' = if u = item ∧ field' = field then v else m.get u field' :=
  spaced.read_write inPlaces inPlaces' field field' v

theorem writeItem_get (other_mem : u ∈ places) (magic poolPtr next prev nextFree prevFree : Nat)
    (field : Field) :
    (m.writeItem item magic poolPtr next prev nextFree prevFree).get u field = if u = item then
        match field with
        | .magic => magic
        | .poolPtr => poolPtr
        | .next => next
        | .prev => prev
        | .nextFree => nextFree
        | .prevFree => prevFree
      else m.get u field := by
  simp (disch := assumption) only [Memory.writeItem, get_set spaced]
  by_cases same : u = item
  · cases field <;> simp
  · simp [same]

theorem removeFree_get (next_mem : m.get item .nextFree ∈ places)
    (prev_mem : m.get item .prevFree ∈ places) (other_mem : u ∈ places) (field : Field) :
    (m.removeFree item).get u field =
      if u = m.get item .prevFree ∧ field = .nextFree then m.get item .nextFree
      else if u = m.get item .nextFree ∧ field = .prevFree then m.get item .prevFree
      else m.get u field := by
  simp (disch := assumption) only [Memory.removeFree, get_set spaced, reduceCtorEq, and_false,
    if_false, and_true, ite_self]

theorem insertFree_get {freeList : Nat} (freeList_mem : freeList ∈ places)
    (next_mem : m.get freeList .nextFree ∈ places) (apart : freeList ≠ item)
    (other_mem : u ∈ places) (field : Field) :
    (m.insertFree freeList item).get u field = if u = freeList ∧ field = .nextFree then item
      else if u = m.get freeList .nextFree ∧ field = .prevFree then item
      else if u = item ∧ field = .prevFree then freeList
      else if u = item ∧ field = .nextFree then m.get freeList .nextFree else m.get u field := by
  simp (disch := assumption) only [Memory.insertFree, get_set spaced, apart, reduceCtorEq,
    and_false, false_and, if_false]

end

theorem splitItem_get {a headerPtr newPtr : Nat} (header_mem : headerPtr ∈ places)
    (new_mem : newPtr ∈ places) (next_mem : m.get headerPtr .next ∈ places)
    (apart : headerPtr ≠ newPtr) (other_mem : u ∈ places) (field : Field) :
    (m.splitItem a headerPtr newPtr).get u field = if u = headerPtr ∧ field = .next then newPtr
      else if u = m.get headerPtr .next ∧ field = .prev then newPtr
      else if u = newPtr ∧ field = .next then m.get headerPtr .next
      else if u = newPtr ∧ field = .prev then headerPtr else if u = newPtr ∧ field = .poolPtr then a
      else if u = newPtr ∧ field = .magic then memheapMagic else m.get u field := by
  simp (disch := assumption) only [Memory.splitItem, get_set spaced, apart, reduceCtorEq,
    and_false, false_and, if_false]

end

end Memory

theorem Config.memheapSize_bounds (cfg : Config) :
    itemLayout.size ≤ cfg.memheapSize ∧ cfg.memheapSize < 2 ^ 29 := by
  have alignSize_le : cfg.alignSize ≤ 2 ^ 28 :=
    Nat.pow_le_pow_right (by decide) (Nat.le_of_lt_succ cfg.alignBits_lt)
  have size_eq : itemLayout.size = 24 := rfl
  have noWrap : itemLayout.size + (2 ^ cfg.alignBits - 1) < 2 ^ 32 := by
    unfold Config.alignSize at alignSize_le
    omega
  have bounds := Word32.le_alignUp noWrap (by have := cfg.alignBits_lt; omega)
  unfold Config.memheapSize Config.rtAlign Config.alignSize at *
  omega

def Pool.tail (cfg : Config) (pool : Pool) : Nat :=
  pool.blockList + pool.poolSize - cfg.memheapSize

structure Region (cfg : Config) (pool : Pool) : Prop where
  roomy : cfg.memheapSize + cfg.memheapSize < pool.poolSize
  fits : pool.blockList + pool.poolSize ≤ 2 ^ 32
  outside : pool.freeList + itemLayout.size ≤ pool.blockList ∨
    pool.blockList + pool.poolSize ≤ pool.freeList

/-- The items cut the pool into `bs`, up to the item behind the last. -/
structure Cut (cfg : Config) (pool : Pool) (m : Memory) (bs : List Block) : Prop where
  tiles : Tiles m.headers cfg.memheapSize (pool.tail cfg) pool.blockList bs
    (pool.tail cfg)
  tailUsed : m.isUsed (pool.tail cfg) = true
  tailNext : m.get (pool.tail cfg) .next = pool.blockList
  tailPrev : m.get (pool.tail cfg) .prev = Tiles.last (pool.tail cfg) bs

def itemPlaces (cfg : Config) (pool : Pool) (bs : List Block) : Set Nat :=
  {p | p = pool.freeList ∨ p = pool.tail cfg ∨ ∃ b ∈ bs, b.start = p}

section Cut

variable {pool : Pool} {m after : Memory} {bs front middle rear : List Block}
  {b : Block}

theorem Region.tail_eq (region : Region cfg pool) :
    pool.tail cfg + cfg.memheapSize = pool.blockList + pool.poolSize := by
  have := region.roomy
  unfold Pool.tail
  omega

/-- The places of the items in `front` and `rear`, and of the item behind the last block. -/
def Around (cfg : Config) (pool : Pool) (front rear : List Block) (p : Nat) : Prop :=
  p = pool.tail cfg ∨ ∃ b, (b ∈ front ∨ b ∈ rear) ∧ b.start = p

theorem Around.outside {headers : Headers} {before before' start first second p : Nat}
    (around : Around cfg pool front rear p)
    (frontTiles : Tiles headers cfg.memheapSize before start front first)
    (rearTiles : Tiles headers cfg.memheapSize before' second rear (pool.tail cfg)) :
    p < first ∨ second ≤ p := by
  have pos := cfg.memheapSize_bounds.1
  have size_eq : itemLayout.size = 24 := rfl
  rcases around with rfl | ⟨b, inFront | inRear, rfl⟩
  · exact .inr rearTiles.le
  · have := frontTiles.mem_bounds inFront
    omega
  · exact .inr (rearTiles.mem_bounds inRear).1

theorem Cut.replace (cut : Cut cfg pool m bs) (middle : List Block) {first second before : Nat}
    (rear_eq : rear ≠ [] → Tiles.last (pool.tail cfg) bs = Tiles.last before rear)
    (frontTiles : Tiles m.headers cfg.memheapSize (pool.tail cfg) pool.blockList front first)
    (middleTiles : Tiles after.headers cfg.memheapSize (Tiles.last (pool.tail cfg) front)
      first middle second)
    (rearTiles : Tiles m.headers cfg.memheapSize before second rear (pool.tail cfg))
    (same : ∀ p, Around cfg pool front rear p → after.get p .next = m.get p .next ∧
      after.get p .magic = m.get p .magic ∧
      (p ≠ second → after.get p .prev = m.get p .prev))
    (behind : after.get second .prev = Tiles.last (Tiles.last (pool.tail cfg) front) middle) :
    Cut cfg pool after (front ++ (middle ++ rear)) where
  tiles := by
    have pos := cfg.memheapSize_bounds.1
    apply Tiles.replace_starts (Nat.lt_of_lt_of_le (by decide) pos) frontTiles middleTiles
      rearTiles
    · exact fun b mem => (same _ (.inr ⟨b, mem, rfl⟩)).1
    · intro b mem
      simp only [Memory.headers, Memory.isUsed]
      rw [(same _ (.inr ⟨b, mem, rfl⟩)).2.1]
    · exact fun b mem => (same _ (.inr ⟨b, mem, rfl⟩)).2.2
    · exact fun _ => behind
  tailUsed := by
    rw [Memory.isUsed, (same _ (.inl rfl)).2.1]
    exact cut.tailUsed
  tailNext := (same _ (.inl rfl)).1.trans cut.tailNext
  tailPrev := by
    have pos := cfg.memheapSize_bounds.1
    have size_eq : itemLayout.size = 24 := rfl
    rw [Tiles.last_append, Tiles.last_append]
    cases rear with
    | nil =>
      have atTail : second = pool.tail cfg := rearTiles
      rw [← atTail] at behind ⊢
      exact behind
    | cons b rest =>
      obtain ⟨-, -, -, -, room, rest⟩ := rearTiles
      have inside := rest.le
      rw [(same _ (.inl rfl)).2.2 (by omega), cut.tailPrev, rear_eq (List.cons_ne_nil _ _)]
      exact Tiles.last_of_ne_nil (List.cons_ne_nil _ _) _ _

structure Cut.At (cfg : Config) (pool : Pool) (m : Memory) (front rear : List Block)
    (b : Block) : Prop where
  frontTiles : Tiles m.headers cfg.memheapSize (pool.tail cfg) pool.blockList front
    b.start
  rearTiles : Tiles m.headers cfg.memheapSize b.start b.stop rear (pool.tail cfg)
  next : m.get b.start .next = b.stop
  prev : m.get b.start .prev = Tiles.last (pool.tail cfg) front
  used : m.isUsed b.start = b.used
  room : b.start + cfg.memheapSize ≤ b.stop

theorem Cut.at (cut : Cut cfg pool m (front ++ b :: rear)) : Cut.At cfg pool m front rear b := by
  obtain ⟨middle, frontTiles, rfl, next, prev, used, room, rearTiles⟩ :=
    Tiles.append_iff.mp cut.tiles
  exact ⟨frontTiles, rearTiles, next, prev, used, room⟩

theorem Cut.prev_stop (cut : Cut cfg pool m (front ++ b :: rear)) :
    m.get b.stop .prev = b.start := by
  have rearTiles := cut.at.rearTiles
  cases rear with
  | nil =>
    have atTail : b.stop = pool.tail cfg := rearTiles
    rw [atTail, cut.tailPrev, Tiles.last_concat]
  | cons second others => exact rearTiles.2.2.1

end Cut

/-- The items at `places`, which do not overlap, cut the pool into `bs`, and `free` is
the free list. -/
structure Described (cfg : Config) (pool : Pool) (m : Memory) (places : Set Nat)
    (bs : List Block) (free : List Nat) : Prop where
  region : Region cfg pool
  spaced : itemLayout.Spaced places
  freeList_mem : pool.freeList ∈ places
  tail_mem : pool.tail cfg ∈ places
  start_mem : ∀ b ∈ bs, b.start ∈ places
  free_mem : ∀ item ∈ free, item ∈ places
  cut : Cut cfg pool m bs
  ring : m.links.IsRing (pool.freeList :: free : List Nat)

namespace Described

variable {pool : Pool} {m after : Memory} {places : Set Nat}
  {bs front rear : List Block} {b first second : Block} {free : List Nat}

theorem ring_of_same (desc : Described cfg pool m places bs free)
    (same : ∀ p ∈ places, after.get p .nextFree = m.get p .nextFree ∧
      after.get p .prevFree = m.get p .prevFree) :
    after.links.IsRing (pool.freeList :: free : List Nat) := by
  refine desc.ring.congr fun n mem => ?_
  rcases List.mem_cons.mp (Cycle.mem_coe_iff.mp mem) with rfl | inFree
  · exact same _ desc.freeList_mem
  · exact same _ (desc.free_mem n inFree)

section

variable (desc : Described cfg pool m places (front ++ b :: rear) free)

include desc

theorem around_mem {p : Nat} (around : Around cfg pool front rear p) : p ∈ places := by
  rcases around with rfl | ⟨u, inFront | inRear, rfl⟩
  · exact desc.tail_mem
  · exact desc.start_mem u (by simp [inFront])
  · exact desc.start_mem u (by simp [inRear])

theorem stop_mem : b.stop ∈ places := by
  have rearTiles := desc.cut.at.rearTiles
  cases rear with
  | nil =>
    have atTail : b.stop = pool.tail cfg := rearTiles
    exact atTail ▸ desc.tail_mem
  | cons second others =>
    have isStart : second.start = b.stop := rearTiles.1
    exact isStart ▸ desc.start_mem second (by simp)

theorem mark {v : Nat} {used : Bool} (marked : (v &&& memheapUsed != 0) = used) :
    Described cfg pool (m.set b.start .magic v) places
      (front ++ { b with used := used } :: rear) free := by
  obtain ⟨frontTiles, rearTiles, next, prev, -, room⟩ := desc.cut.at
  have start_mem := desc.start_mem b (by simp)
  have written : ∀ u ∈ places, ∀ field, (m.set b.start .magic v).get u field =
        if u = b.start ∧ field = .magic then v else m.get u field :=
    fun u mem field =>
      get_set desc.spaced start_mem mem .magic field v
  have pos := cfg.memheapSize_bounds.1
  have size_eq : itemLayout.size = 24 := rfl
  refine { desc with start_mem := ?_, cut := ?_, ring := ?_ }
  · intro u mem
    rcases List.mem_append.mp mem with inFront | inRest
    · exact desc.start_mem u (by simp [inFront])
    · rcases List.mem_cons.mp inRest with rfl | inRear
      · exact start_mem
      · exact desc.start_mem u (by simp [inRear])
  · apply desc.cut.replace [{ b with used := used }] _ frontTiles _ rearTiles
    · intro p around
      have outside := around.outside frontTiles rearTiles
      simp only [written p (desc.around_mem around), reduceCtorEq, and_false, if_false]
      exact ⟨trivial, if_neg (by omega), fun _ => trivial⟩
    · simp only [written _ desc.stop_mem, reduceCtorEq, and_false]
      exact desc.cut.prev_stop
    · intro filled
      rw [Tiles.last_append]
      rfl
    · simp only [Tiles, Memory.headers, Memory.isUsed, written _ start_mem]
      exact ⟨trivial, next, prev, marked, room, trivial⟩
  · apply desc.ring_of_same
    intro p inPlaces
    simp [written p inPlaces]

theorem split (a : Nat) {newPtr : Nat} (fresh : ∀ u ∈ places, itemLayout.Apart newPtr u)
    (above : b.start + cfg.memheapSize ≤ newPtr) (fits : newPtr + cfg.memheapSize ≤ b.stop) :
    Described cfg pool (m.splitItem a b.start newPtr) (insert newPtr places)
      (front ++ { b with stop := newPtr } ::
        { start := newPtr, stop := b.stop, used := false } :: rear) free := by
  obtain ⟨frontTiles, rearTiles, next, prev, used, room⟩ := desc.cut.at
  have pos := cfg.memheapSize_bounds.1
  have size_eq : itemLayout.size = 24 := rfl
  have spaced := desc.spaced.insert fresh
  have old : ∀ p ∈ places, p ∈ insert newPtr places := fun _ => Set.mem_insert_of_mem _
  have start_mem := desc.start_mem b (by simp)
  have written : ∀ u ∈ insert newPtr places, ∀ field, (m.splitItem a b.start newPtr).get u field =
        if u = b.start ∧ field = .next then newPtr
        else if u = b.stop ∧ field = .prev then newPtr
        else if u = newPtr ∧ field = .next then b.stop
        else if u = newPtr ∧ field = .prev then b.start
        else if u = newPtr ∧ field = .poolPtr then a
        else if u = newPtr ∧ field = .magic then memheapMagic
        else m.get u field := by
    intro u mem field
    rw [splitItem_get spaced (old _ start_mem) (Set.mem_insert _ _)
      (by rw [next]; exact old _ desc.stop_mem) (by omega) mem, next]
  refine
    { region := desc.region
      spaced := spaced
      freeList_mem := old _ desc.freeList_mem
      tail_mem := old _ desc.tail_mem
      start_mem := ?_
      free_mem := fun item mem => old _ (desc.free_mem item mem)
      cut := ?_
      ring := ?_ }
  · intro u mem
    rcases List.mem_append.mp mem with inFront | inRest
    · exact old _ (desc.start_mem u (by simp [inFront]))
    · rcases List.mem_cons.mp inRest with rfl | inRest
      · exact old _ start_mem
      · rcases List.mem_cons.mp inRest with rfl | inRear
        · exact Set.mem_insert _ _
        · exact old _ (desc.start_mem u (by simp [inRear]))
  · apply desc.cut.replace [{ b with stop := newPtr },
      { start := newPtr, stop := b.stop, used := false }] _ frontTiles _ rearTiles
    · intro p around
      have outside := around.outside frontTiles rearTiles
      have notStart : p ≠ b.start := by omega
      have notNew : p ≠ newPtr := by omega
      simp only [written p (old _ (desc.around_mem around)), notStart, notNew,
        reduceCtorEq, and_false, and_true, if_false]
      exact ⟨trivial, trivial, fun notStop => if_neg notStop⟩
    · simp [written _ (old _ desc.stop_mem), Tiles.last]
    · intro filled
      rw [Tiles.last_append]
      rfl
    · have notStop : b.start ≠ b.stop := by omega
      have notNew : b.start ≠ newPtr := by omega
      have newNotStop : newPtr ≠ b.stop := by omega
      have free : (memheapMagic &&& memheapUsed != 0) = false := by decide
      simp only [Tiles, Memory.headers, Memory.isUsed, written _ (old _ start_mem),
        written _ (Set.mem_insert _ _), notStop, notNew, notNew.symm, newNotStop, free,
        reduceCtorEq, and_false, false_and, if_false, and_self, if_true]
      exact ⟨trivial, trivial, prev, used, above, trivial, trivial, trivial, trivial, fits, trivial⟩
  · apply desc.ring_of_same
    intro p inPlaces
    simp [written p (old _ inPlaces)]

end

theorem cut_of_same (desc : Described cfg pool m places bs free)
    (same : ∀ p ∈ places, after.get p .next = m.get p .next ∧ after.get p .prev = m.get p .prev ∧
      after.get p .magic = m.get p .magic) : Cut cfg pool after bs where
  tiles := by
    have pos := cfg.memheapSize_bounds.1
    have cut := desc.cut
    have inPlaces := desc.start_mem
    apply cut.tiles.relink_starts (Nat.lt_of_lt_of_le (by decide) pos)
    · exact fun b mem => (same _ (inPlaces b mem)).1
    · intro b mem
      simp only [Memory.headers, Memory.isUsed, (same _ (inPlaces b mem)).2.2]
    · exact fun b mem _ => (same _ (inPlaces b mem)).2.1
    · intro more
      cases bs with
      | nil => exact absurd cut.tiles (by simp only [Tiles]; omega)
      | cons b rest =>
        obtain ⟨isStart, -, isPrev, -⟩ := cut.tiles
        rw [← isStart] at isPrev ⊢
        exact ((same _ (inPlaces b (by simp))).2.1).trans isPrev
  tailUsed := by
    rw [Memory.isUsed, (same _ desc.tail_mem).2.2]
    exact desc.cut.tailUsed
  tailNext := (same _ desc.tail_mem).1.trans desc.cut.tailNext
  tailPrev := (same _ desc.tail_mem).2.1.trans desc.cut.tailPrev

theorem join (desc : Described cfg pool m places (front ++ first :: second :: rear) free)
    (joined : ∀ u ∈ places, ∀ field, after.get u field =
      if u = first.start ∧ field = .next then second.stop
      else if u = second.stop ∧ field = .prev then first.start else m.get u field) :
    Described cfg pool after places (front ++ { first with stop := second.stop } :: rear) free := by
  obtain ⟨frontTiles, ⟨-, -, -, -, roomSecond, rearTiles⟩, -, prev, used, room⟩ := desc.cut.at
  have start_mem := desc.start_mem first (by simp)
  have behind : Described cfg pool m places ((front ++ [first]) ++ second :: rear) free := by
    simpa using desc
  have pos := cfg.memheapSize_bounds.1
  have size_eq : itemLayout.size = 24 := rfl
  refine { desc with start_mem := ?_, cut := ?_, ring := ?_ }
  · intro u mem
    rcases List.mem_append.mp mem with inFront | inRest
    · exact desc.start_mem u (by simp [inFront])
    · rcases List.mem_cons.mp inRest with rfl | inRear
      · exact start_mem
      · exact desc.start_mem u (by simp [inRear])
  · apply desc.cut.replace [{ first with stop := second.stop }] _ frontTiles _ rearTiles
    · intro p around
      have outside := around.outside frontTiles rearTiles
      have notFirst : p ≠ first.start := by omega
      have place_mem : p ∈ places := by
        apply behind.around_mem
        exact around.imp_right fun ⟨b, mem, isStart⟩ =>
          ⟨b, mem.imp_left (by simp +contextual), isStart⟩
      simp only [joined p place_mem, notFirst, reduceCtorEq, and_false, and_true, if_false]
      exact ⟨trivial, trivial, fun notStop => if_neg notStop⟩
    · simp [joined _ behind.stop_mem, Tiles.last]
    · intro filled
      rw [Tiles.last_append]
      exact Tiles.last_of_ne_nil filled _ _
    · have notStop : first.start ≠ second.stop := by omega
      simp only [Tiles, Memory.headers, Memory.isUsed, joined _ start_mem, notStop,
        and_self, if_true]
      exact ⟨trivial, trivial, prev, used, by omega, trivial⟩
  · apply desc.ring_of_same
    intro p inPlaces
    simp [joined p inPlaces]

end Described

end RtThread.MemHeap
