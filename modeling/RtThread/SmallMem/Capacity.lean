import RtThread.SmallMem.Effects

/-!
# The capacity of what is handed out

The calls with sizes that are any words.  Rounding up to `RT_ALIGN_SIZE` wraps near the top of
the range, and so does the product of `rt_calloc`: a huge request is then served with a small
block, and `rt_realloc` takes it for a request to free.
-/

namespace RtThread.SmallMem

variable {cfg : Config} {heap after : Heap} {front rear bs : List Block} {b : Block}

def product (count size : Nat) : Nat := count * size % 2 ^ 32

def rtMemset (byte : Nat → BitVec 8) (p count : Nat) : Nat → BitVec 8 := fun address =>
  if p ≤ address ∧ address < p + count then 0 else byte address

def rtCalloc (cfg : Config) (heap : Heap) (count size : Nat) : Option (Heap × Option Nat) :=
  (rtMalloc cfg heap (product count size)).map fun (heap, p) =>
    match p with
    | none => (heap, none)
    | some p => ({ heap with byte := rtMemset heap.byte p (product count size) }, some p)

inductive Request where
  | malloc (size : Nat)
  | calloc (count size : Nat)
  | realloc (rmem : Option Nat) (newsize : Nat)
  | free (rmem : Option Nat)

namespace Request

def bytes : Request → Nat
  | .malloc size => size
  | .calloc count size => count * size
  | .realloc _ newsize => newsize
  | .free _ => 0

/-- The arguments are words, and pointers that are `NULL` or live. -/
def Admitted (heap : Heap) : Request → Prop
  | .malloc size => size < 2 ^ 32
  | .calloc count size => count < 2 ^ 32 ∧ size < 2 ^ 32
  | .realloc rmem newsize => heap.Admits rmem ∧ newsize < 2 ^ 32
  | .free rmem => heap.Admits rmem

instance (heap : Heap) : (request : Request) → Decidable (request.Admitted heap)
  | .malloc _ => inferInstanceAs (Decidable (_ < _))
  | .calloc .. => instDecidableAnd
  | .realloc .. => instDecidableAnd
  | .free _ => inferInstanceAs (Decidable (Heap.Admits _ _))

def answer (cfg : Config) (heap : Heap) : Request → Option (Heap × Option Nat)
  | .malloc size => rtMalloc cfg heap size
  | .calloc count size => rtCalloc cfg heap count size
  | .realloc rmem newsize => rtRealloc cfg heap rmem newsize
  | .free rmem => (rtFree cfg heap rmem).map fun heap => (heap, none)

end Request

def serve (cfg : Config) (heap : Heap) (request : Request) : Option Heap :=
  if request.Admitted heap then (request.answer cfg heap).map Prod.fst else none

def requestSystem (cfg : Config) : TransitionSystem Heap Request :=
  TransitionSystem.ofFunction (Initial cfg) (serve cfg)

structure Usable (cfg : Config) (heap : Heap) (bs : List Block) : Prop
    extends Shape cfg heap bs where
  roomy : ∀ b ∈ usedBlocks bs, b.start + cfg.sizeofStructMem < b.stop
  stamped : ∀ b ∈ usedBlocks bs, (heap.header b.start).magic = heapMagic

theorem Usable.roomyAt (usable : Usable cfg heap (front ++ b :: rear))
    (used : b.used = true) : b.start + cfg.sizeofStructMem < b.stop :=
  usable.roomy b (mem_usedBlocks.mpr ⟨by simp, used⟩)

variable {n : Nat}

theorem HandsOut.usable {blocks' : List Block} (handsOut : HandsOut cfg heap bs n after blocks' b)
    (usable : Usable cfg heap bs) (pos : 0 < n) : Usable cfg after blocks' where
  toShape := handsOut.shape
  roomy := by
    intro u mem
    rcases List.mem_cons.mp (handsOut.used.mem_iff.mp mem) with rfl | old
    · have := handsOut.room
      omega
    · exact usable.roomy u old
  stamped := by
    intro u mem
    rcases List.mem_cons.mp (handsOut.used.mem_iff.mp mem) with rfl | old
    · exact handsOut.magic
    · exact handsOut.keepsMagic _ (usable.stamped u old)

theorem Config.need_pos (cfg : Config) (n : Nat) : 0 < cfg.need n := by
  have := cfg.minSizeAligned_bounds
  unfold Config.need
  omega

theorem Usable.rtMalloc (usable : Usable cfg heap bs) {rmem : Nat}
    (allocated : rtMalloc cfg heap n = some (after, some rmem)) :
    ∃ blocks' a, rmem = userArea cfg heap.heapPtr a ∧ Usable cfg after blocks' ∧
      HandsOut cfg heap bs (cfg.need n) after blocks' a := by
  obtain ⟨-, -, blocks', a, isArea, handsOut⟩ := rtMalloc_handsOut usable.toShape allocated
  exact ⟨blocks', a, isArea, handsOut.usable usable (cfg.need_pos n), handsOut⟩

theorem Usable.setByte (usable : Usable cfg heap bs) (byte : Nat → BitVec 8) :
    Usable cfg { heap with byte := byte } bs where
  toShape := usable.toShape.setByte byte
  roomy := usable.roomy
  stamped := usable.stamped

theorem markFree_keepsMagic (cfg : Config) (heap : Heap) (b : Block) :
    KeepsMagic heap (markFree cfg heap b) := by
  have marked : KeepsMagic heap (heap.setHeader b.start
      { heap.header b.start with used := 0, magic := heapMagic }) :=
    KeepsMagic.setHeader (fun _ => id) fun _ => rfl
  exact marked

section

variable (usable : Usable cfg heap (front ++ b :: rear))

include usable

theorem Usable.rtFree (used : b.used = true)
    (freed : rtFree cfg heap (some (userArea cfg heap.heapPtr b)) = some after) :
    ∃ blocks', Usable cfg after blocks' ∧ SameBytes heap after ∧
      usedBlocks blocks' = usedBlocks (front ++ rear) ∧
      after.live = heap.live.erase (userArea cfg heap.heapPtr b) := by
  obtain ⟨blocks', shape, same, still, live⟩ := rtFree_used usable.toShape used freed
  have fewer : ∀ u ∈ usedBlocks blocks', u ∈ usedBlocks (front ++ b :: rear) := by
    intro u mem
    rw [still, usedBlocks_append, List.mem_append] at mem
    rw [usedBlocks_append, usedBlocks_cons, if_pos used, List.mem_append, List.mem_cons]
    exact mem.imp_right .inr
  have keepsMagic : KeepsMagic heap after :=
    (markFree_keepsMagic cfg heap b).trans (plugHoles_keepsMagic (rtFree_marked freed))
  refine ⟨blocks', { toShape := shape, roomy := ?_, stamped := ?_ }, same, still, live⟩
  · exact fun u mem => usable.roomy u (fewer u mem)
  · exact fun u mem =>
      keepsMagic _ (usable.stamped u (fewer u mem))

theorem Usable.rtFree_returns (used : b.used = true) :
    ∃ after, SmallMem.rtFree cfg heap (some (userArea cfg heap.heapPtr b)) = some after := by
  have isHeader := headerOf_userArea cfg heap b
  have own := usable.cut.header_block
  have roomy := usable.roomyAt used
  have isUsed := own.2.2.1.mpr used
  have magic := usable.stamped b (mem_usedBlocks.mpr ⟨by simp, used⟩)
  have aligned : cfg.alignSize ∣ userArea cfg heap.heapPtr b :=
    Nat.dvd_add (Nat.dvd_add usable.heapPtrAligned (usable.starts b (by simp)))
      cfg.dvd_sizeofStructMem
  have mask : userArea cfg heap.heapPtr b &&& (cfg.alignSize - 1) = 0 := by
    rw [Config.alignSize, Nat.and_two_pow_sub_one_eq_mod]
    exact Nat.mod_eq_zero_of_dvd aligned
  have low : heap.heapPtr ≤ userArea cfg heap.heapPtr b := by
    unfold userArea
    omega
  have high : userArea cfg heap.heapPtr b < heap.heapPtr + heap.heapEnd := by
    unfold userArea
    omega
  have inside : b.start < heap.heapEnd := by omega
  simp only [SmallMem.rtFree, isHeader]
  rw [if_pos ⟨mask, low, high, isUsed, magic⟩]
  by_cases order : b.start < heap.lfree
  · simp [order, plugHoles, Heap.setHeader, inside]
  · simp [order, plugHoles, Heap.setHeader, inside]

theorem Usable.shrink (used : b.used = true) (pos : n ≠ 0)
    (fits : n + cfg.sizeofStructMem + minSize < b.stop - b.start - cfg.sizeofStructMem)
    (dvd : cfg.alignSize ∣ n)
    (shrunk : shrink cfg heap b.start (b.stop - b.start - cfg.sizeofStructMem) n = some after) :
    ∃ blocks', Usable cfg after blocks' ∧ SameBytes heap after ∧
      usedBlocks blocks' = usedBlocks (front ++
        { b with stop := b.start + cfg.sizeofStructMem + n } :: rear) ∧
      after.live = heap.live := by
  obtain ⟨blocks', shape, same, still, live⟩ := shrink_used usable.toShape used fits dvd shrunk
  have keepsMagic : KeepsMagic heap after := by
    rw [shrink_eq usable.toShape used fits] at shrunk
    have cut : KeepsMagic heap (cutOff cfg heap b n) := by
      intro p magic
      exact insertBlock_keepsMagic cfg { heap with
        usedMem := heap.usedMem - (b.stop - (b.start + cfg.sizeofStructMem + n)) }
        _ _ p magic
    exact cut.trans (plugHoles_keepsMagic shrunk)
  have split : ∀ u ∈ usedBlocks blocks', u = { b with stop := b.start + cfg.sizeofStructMem + n } ∨
        u ∈ usedBlocks (front ++ b :: rear) := by
    intro u mem
    rw [still] at mem
    simp only [usedBlocks_append, usedBlocks_cons, used, if_true, List.mem_append, List.mem_cons]
      at mem ⊢
    tauto
  refine ⟨blocks', { toShape := shape, roomy := ?_, stamped := ?_ }, same, still, live⟩
  · intro u mem
    rcases split u mem with rfl | old
    · simp only
      omega
    · exact usable.roomy u old
  · intro u mem
    rcases split u mem with rfl | old
    · exact keepsMagic _ (usable.stamped b (mem_usedBlocks.mpr ⟨by simp, used⟩))
    · exact keepsMagic _ (usable.stamped u old)

end

theorem Usable.ofLive (usable : Usable cfg heap bs) {rmem : Nat} (isLive : rmem ∈ heap.live) :
    ∃ front b rear, bs = front ++ b :: rear ∧ b.used = true ∧
      rmem = userArea cfg heap.heapPtr b := by
  obtain ⟨front, b, rear, isBlocks, used, isArea, -⟩ := usable.toShape.ofLive isLive
  exact ⟨front, b, rear, isBlocks, used, isArea⟩

def capacity (cfg : Config) (heap : Heap) (rmem : Nat) : Nat :=
  (heap.header (heap.headerOf cfg rmem)).next - heap.headerOf cfg rmem -
    cfg.sizeofStructMem

theorem Shape.capacity_eq (shape : Shape cfg heap bs) (mem : b ∈ usedBlocks bs) :
    capacity cfg heap (userArea cfg heap.heapPtr b) = b.stop - b.start - cfg.sizeofStructMem := by
  obtain ⟨front, rear, rfl⟩ := List.append_of_mem (mem_usedBlocks.mp mem).1
  rw [capacity, headerOf_userArea, shape.cut.header_block.1]

theorem HandsOut.capacity {blocks' : List Block}
    (handsOut : HandsOut cfg heap bs n after blocks' b) :
    n ≤ capacity cfg after (userArea cfg heap.heapPtr b) := by
  have isUsed : b ∈ usedBlocks blocks' := handsOut.used.mem_iff.mpr (by simp)
  rw [← handsOut.same.heapPtr, handsOut.shape.capacity_eq isUsed]
  exact handsOut.room

theorem Usable.moves (usable : Usable cfg heap (front ++ b :: rear))
    (used : b.used = true) {nmem : Nat} {middle : Heap}
    (allocated : SmallMem.rtMalloc cfg heap n = some (middle, some nmem)) {byte : Nat → BitVec 8}
    (freed : SmallMem.rtFree cfg { middle with byte := byte }
      (some (userArea cfg heap.heapPtr b)) = some after) :
    ∃ blocks' a, nmem = userArea cfg heap.heapPtr a ∧ Usable cfg after blocks' ∧
      SameBytes { middle with byte := byte } after ∧ SameBytes heap middle ∧
      cfg.need n ≤ a.stop - a.start - cfg.sizeofStructMem ∧
      (usedBlocks blocks').Perm (a :: usedBlocks (front ++ rear)) := by
  obtain ⟨middleBlocks, a, isArea, middleUsable, handsOut⟩ := usable.rtMalloc allocated
  have isUsed : b ∈ usedBlocks middleBlocks := handsOut.used.mem_iff.mpr
    (List.mem_cons_of_mem _ (mem_usedBlocks.mpr ⟨by simp, used⟩))
  obtain ⟨mem, -⟩ := mem_usedBlocks.mp isUsed
  obtain ⟨front', rear', rfl⟩ := List.append_of_mem mem
  rw [← handsOut.same.heapPtr] at freed
  obtain ⟨blocks', usable', same, still, -⟩ := (middleUsable.setByte byte).rtFree used freed
  refine ⟨blocks', a, isArea, usable', same, handsOut.same, handsOut.room, ?_⟩
  rw [still]
  have perm := handsOut.used
  simp only [usedBlocks_append, usedBlocks_cons, used] at perm ⊢
  have moved := (List.perm_middle.symm.trans perm).trans
    (List.Perm.cons a List.perm_middle)
  exact (moved.trans (List.Perm.swap b a _)).cons_inv

theorem Usable.rtRealloc (usable : Usable cfg heap bs) {rmem : Option Nat}
    (admitted : heap.Admits rmem) {r : Option Nat}
    (resized : rtRealloc cfg heap rmem n = some (after, r)) :
    ∃ blocks', Usable cfg after blocks' := by
  cases rmem with
  | none =>
    simp only [SmallMem.rtRealloc] at resized
    split_ifs at resized
    · obtain ⟨rfl, -⟩ := Prod.mk.inj (Option.some.inj resized)
      exact ⟨bs, usable⟩
    · simp only [SmallMem.rtFree] at resized
      obtain ⟨rfl, -⟩ := Prod.mk.inj (Option.some.inj resized)
      exact ⟨bs, usable⟩
    · cases r with
      | none =>
        obtain rfl := rtMalloc_null usable.toShape resized
        exact ⟨bs, usable⟩
      | some nmem =>
        obtain ⟨blocks', -, -, usable', -⟩ := usable.rtMalloc resized
        exact ⟨blocks', usable'⟩
  | some rmem =>
    obtain ⟨front, b, rear, rfl, used, rfl⟩ := usable.ofLive admitted
    cases rtRealloc_resizes usable.toShape (usable.roomyAt used) resized with
    | tooLarge _ | stays _ | fails _ _ => exact ⟨_, usable⟩
    | frees _ freed =>
      obtain ⟨blocks', usable', -⟩ := usable.rtFree used freed
      exact ⟨blocks', usable'⟩
    | shrinks pos fits shrunk =>
      obtain ⟨blocks', usable', -⟩ := usable.shrink used pos fits (cfg.dvd_rtAlign n) shrunk
      exact ⟨blocks', usable'⟩
    | moves allocated freed =>
      obtain ⟨blocks', a, -, usable', -⟩ := usable.moves used allocated freed
      exact ⟨blocks', usable'⟩

theorem serve_usable (usable : Usable cfg heap bs) {request : Request}
    (served : serve cfg heap request = some after) : ∃ blocks', Usable cfg after blocks' := by
  obtain ⟨admitted, served⟩ := Option.ite_none_right_eq_some.mp served
  simp only [Option.map_eq_some_iff] at served
  obtain ⟨⟨answered, r⟩, answer, rfl⟩ := served
  cases request with
  | malloc n =>
    cases r with
    | none =>
      obtain rfl := rtMalloc_null usable.toShape answer
      exact ⟨bs, usable⟩
    | some rmem =>
      obtain ⟨blocks', -, -, usable', -⟩ := usable.rtMalloc answer
      exact ⟨blocks', usable'⟩
  | calloc count n =>
    simp only [Request.answer, rtCalloc, Option.map_eq_some_iff] at answer
    obtain ⟨⟨middle, p⟩, allocated, answer⟩ := answer
    cases p with
    | none =>
      obtain rfl := rtMalloc_null usable.toShape allocated
      obtain ⟨rfl, -⟩ := Prod.mk.inj answer
      exact ⟨bs, usable⟩
    | some rmem =>
      obtain ⟨blocks', -, -, usable', -⟩ := usable.rtMalloc allocated
      obtain ⟨rfl, -⟩ := Prod.mk.inj answer
      exact ⟨blocks', usable'.setByte _⟩
  | realloc rmem newsize => exact usable.rtRealloc admitted.1 answer
  | free rmem =>
    simp only [Request.answer, Option.map_eq_some_iff] at answer
    obtain ⟨_, freed, rfl, -⟩ := answer
    cases rmem with
    | none =>
      cases freed
      exact ⟨bs, usable⟩
    | some rmem =>
      obtain ⟨front, b, rear, rfl, used, rfl⟩ := usable.ofLive admitted
      obtain ⟨blocks', usable', -⟩ := usable.rtFree used freed
      exact ⟨blocks', usable'⟩

theorem initial_usable (init : Initial cfg heap) : ∃ bs, Usable cfg heap bs :=
  ⟨_, { toShape := (initial_shape init).1, roomy := by simp, stamped := by simp }⟩

theorem reachable_usable (reachable : (requestSystem cfg).Reachable heap) :
    ∃ bs, Usable cfg heap bs :=
  reachable.invariant (fun _ => initial_usable) fun _ _ _ ⟨_, usable⟩ served =>
    serve_usable usable served

/-- What is handed out can hold what was asked for, and `rt_realloc` to a size that is not 0 does
not free the block and return `NULL`. -/
def Request.Sufficient (cfg : Config) (heap : Heap) (request : Request) : Prop :=
  ∀ after result, request.answer cfg heap = some (after, result) →
    (∀ rmem ∈ result, request.bytes ≤ capacity cfg after rmem) ∧
      ∀ rmem newsize, request = .realloc (some rmem) newsize → newsize ≠ 0 → result = none →
        rmem ∈ after.live

/-- The bytes asked for can be rounded up, or `rt_malloc` finds no block for what wrapping leaves
of them. -/
def Unserved (cfg : Config) (heap : Heap) (bytes : Nat) : Prop :=
  NoWrap cfg bytes ∨ bytes % 2 ^ 32 = 0 ∨
    ¬ HasReachedFit cfg heap (cfg.need (bytes % 2 ^ 32))

/-- Nothing wraps, or nothing comes of it. -/
def Request.Unwrapped (cfg : Config) (heap : Heap) : Request → Prop
  | .malloc size => Unserved cfg heap size
  | .calloc count size => Unserved cfg heap (count * size)
  | .realloc none _ => True
  | .realloc (some _) newsize => NoWrap cfg newsize
  | .free _ => True

theorem Config.rtAlign_of_wrap (cfg : Config) (small : n < 2 ^ 32)
    (wraps : ¬ NoWrap cfg n) : cfg.rtAlign n = 0 := by
  have bound := cfg.alignSize_le
  obtain ⟨rest, isRest⟩ := Nat.exists_eq_add_of_le (Nat.le_of_not_lt wraps)
  have low : rest < cfg.alignSize := by omega
  have sum : Word32.add n (cfg.alignSize - 1) = rest := by
    rw [Word32.add, isRest, Nat.add_mod_left]
    exact Nat.mod_eq_of_lt (by omega)
  rw [Config.rtAlign, Word32.alignUp, sum]
  rw [Config.alignSize] at low ⊢
  rw [Word32.maskDown_eq (sum ▸ Word32.add_lt _ _) cfg.alignBits_le, Nat.div_eq_of_lt low,
    Nat.zero_mul]

theorem Config.le_need (cfg : Config) (noWrap : NoWrap cfg n) : n ≤ cfg.need n :=
  (cfg.rtAlign_bounds noWrap).1.trans (Nat.le_max_left _ _)

section

variable (shape : Shape cfg heap bs)

include shape

theorem Shape.capacity_lt (mem : b ∈ usedBlocks bs) {bytes : Nat} (wraps : ¬ NoWrap cfg bytes) :
    capacity cfg heap (userArea cfg heap.heapPtr b) < bytes := by
  have bounds := shape.cut.mem_bounds (mem_usedBlocks.mp mem).1
  have small := shape.heapEnd_lt
  have gap := cfg.sizeofStructMem_bounds
  have aligned := Nat.le_of_dvd (by omega) cfg.dvd_sizeofStructMem
  unfold NoWrap at wraps
  rw [shape.capacity_eq mem]
  omega

theorem Shape.malloc_iff (bytes : Nat) :
    (∀ after rmem, rtMalloc cfg heap (bytes % 2 ^ 32) = some (after, some rmem) →
        bytes ≤ capacity cfg after rmem) ↔ Unserved cfg heap bytes := by
  constructor
  · intro enough
    by_contra served
    simp only [Unserved, not_or, not_not] at served
    obtain ⟨wraps, nonzero, reached⟩ := served
    obtain ⟨after, rmem, allocated⟩ := shape.rtMalloc_some (Nat.pos_of_ne_zero nonzero) reached
    obtain ⟨-, -, blocks', a, rfl, handsOut⟩ := rtMalloc_handsOut shape allocated
    have few := handsOut.shape.capacity_lt (handsOut.used.mem_iff.mpr List.mem_cons_self) wraps
    rw [handsOut.same.heapPtr] at few
    exact Nat.not_le_of_lt few (enough after _ allocated)
  · intro unserved after rmem allocated
    obtain ⟨pos, reached, blocks', a, rfl, handsOut⟩ := rtMalloc_handsOut shape allocated
    rcases unserved with noWrap | zero | notReached
    · have word : bytes % 2 ^ 32 = bytes := Nat.mod_eq_of_lt (by unfold NoWrap at noWrap; omega)
      rw [word] at handsOut
      exact (cfg.le_need noWrap).trans handsOut.capacity
    · omega
    · exact absurd reached notReached

theorem Shape.noWrap_of_le (fits : n ≤ heap.memSizeAligned) : NoWrap cfg n := by
  have small := shape.heapEnd_lt
  have endEq := shape.endEq
  have gap := cfg.sizeofStructMem_bounds
  have aligned := Nat.le_of_dvd (by omega) cfg.dvd_sizeofStructMem
  unfold NoWrap
  omega

theorem Shape.le_need_rtAlign (noWrap : NoWrap cfg n) (fits : cfg.rtAlign n ≤ heap.memSizeAligned) :
    n ≤ cfg.need (cfg.rtAlign n) :=
  (cfg.rtAlign_bounds noWrap).1.trans (cfg.le_need (shape.noWrap_of_le fits))

theorem Shape.rtRealloc_none {nmem : Nat} (small : n < 2 ^ 32)
    (resized : rtRealloc cfg heap none n = some (after, some nmem)) :
    n ≤ SmallMem.capacity cfg after nmem := by
  simp only [rtRealloc] at resized
  split_ifs at resized with tooLarge zero
  · simp at resized
  · simp at resized
  · have noWrap : NoWrap cfg n := by
      by_contra wraps
      exact zero (cfg.rtAlign_of_wrap small wraps)
    obtain ⟨-, -, blocks', a, rfl, handsOut⟩ := rtMalloc_handsOut shape resized
    exact (shape.le_need_rtAlign noWrap (Nat.le_of_not_lt tooLarge)).trans handsOut.capacity

end

theorem Usable.rtRealloc_sufficient (usable : Usable cfg heap (front ++ b :: rear))
    (used : b.used = true) (noWrap : NoWrap cfg n)
    {r : Option Nat} (isLive : userArea cfg heap.heapPtr b ∈ heap.live)
    (resized : SmallMem.rtRealloc cfg heap (some (userArea cfg heap.heapPtr b)) n =
      some (after, r)) : (∀ rmem ∈ r, n ≤ capacity cfg after rmem) ∧
      (n ≠ 0 → r = none → userArea cfg heap.heapPtr b ∈ after.live) := by
  have rounded := (cfg.rtAlign_bounds noWrap).1
  cases rtRealloc_resizes usable.toShape (usable.roomyAt used) resized with
  | tooLarge _ | fails _ _ => exact ⟨by simp, fun _ _ => isLive⟩
  | frees zero _ => exact ⟨by simp, fun nonzero => absurd (by omega) nonzero⟩
  | stays same =>
    refine ⟨?_, by simp⟩
    simp only [Option.mem_some_iff, forall_eq']
    rw [usable.capacity_eq (mem_usedBlocks.mpr ⟨by simp, used⟩)]
    omega
  | shrinks pos fits shrunk =>
    refine ⟨?_, by simp⟩
    obtain ⟨blocks', usable', same, still, -⟩ :=
      usable.shrink used pos fits (cfg.dvd_rtAlign n) shrunk
    simp only [Option.mem_some_iff, forall_eq']
    have isUsed : (⟨b.start, b.start + cfg.sizeofStructMem + cfg.rtAlign n,
        b.used⟩ : Block) ∈ usedBlocks blocks' := by
      rw [still, mem_usedBlocks]
      exact ⟨by simp, used⟩
    have enough := usable'.capacity_eq isUsed
    rw [same.heapPtr] at enough
    have sameArea : userArea cfg heap.heapPtr b = userArea cfg heap.heapPtr
        ⟨b.start, b.start + cfg.sizeofStructMem + cfg.rtAlign n, b.used⟩ := rfl
    rw [sameArea, enough]
    simp only
    omega
  | moves allocated freed =>
    refine ⟨?_, by simp⟩
    obtain ⟨blocks', a, rfl, usable', same, before, room, perm⟩ := usable.moves used allocated freed
    simp only [Option.mem_some_iff, forall_eq']
    have fits : cfg.rtAlign n ≤ heap.memSizeAligned := by
      by_contra tooLarge
      simp [SmallMem.rtRealloc, Nat.lt_of_not_le tooLarge] at resized
    have samePtr : after.heapPtr = heap.heapPtr := same.heapPtr.trans before.heapPtr
    rw [← samePtr, usable'.capacity_eq (perm.mem_iff.mpr List.mem_cons_self)]
    exact (usable.le_need_rtAlign noWrap fits).trans room

theorem Usable.rtRealloc_wraps (usable : Usable cfg heap (front ++ b :: rear))
    (used : b.used = true) (small : n < 2 ^ 32) (wraps : ¬ NoWrap cfg n) :
    ∃ after, SmallMem.rtRealloc cfg heap (some (userArea cfg heap.heapPtr b)) n =
      some (after, none) ∧ userArea cfg heap.heapPtr b ∉ after.live := by
  obtain ⟨after, freed⟩ := usable.rtFree_returns used
  obtain ⟨-, -, -, -, live⟩ := usable.rtFree used freed
  refine ⟨after, ?_, ?_⟩
  · simp [SmallMem.rtRealloc, cfg.rtAlign_of_wrap small wraps, freed]
  · rw [live]
    exact (usable.represents.distinct).not_mem_erase

/-- Every request is answered with enough bytes exactly where nothing wraps. -/
theorem sufficient_iff (reachable : (requestSystem cfg).Reachable heap) {request : Request}
    (admitted : request.Admitted heap) :
    request.Sufficient cfg heap ↔ request.Unwrapped cfg heap := by
  obtain ⟨bs, usable⟩ := reachable_usable reachable
  cases request with
  | free rmem =>
    refine iff_of_true (fun after r answer => ?_) trivial
    simp only [Request.answer, Option.map_eq_some_iff, Prod.mk.injEq] at answer
    obtain ⟨_, -, -, rfl⟩ := answer
    exact ⟨by simp, by simp⟩
  | malloc n =>
    have word : n % 2 ^ 32 = n := Nat.mod_eq_of_lt admitted
    rw [Request.Unwrapped, ← usable.malloc_iff, word]
    constructor
    · intro sufficient after rmem answer
      exact (sufficient after (some rmem) answer).1 rmem rfl
    · intro enough after r answer
      refine ⟨?_, by simp⟩
      rintro rmem rfl
      exact enough after rmem answer
  | calloc count n =>
    rw [Request.Unwrapped, ← usable.malloc_iff]
    constructor
    · intro sufficient after rmem allocated
      refine (sufficient { after with byte := rtMemset after.byte rmem (product count n) }
        (some rmem) ?_).1 rmem rfl
      simp only [Request.answer, rtCalloc, product, allocated, Option.map_some]
    · intro enough after r answer
      refine ⟨?_, by simp⟩
      rintro rmem rfl
      simp only [Request.answer, rtCalloc, Option.map_eq_some_iff] at answer
      obtain ⟨⟨middle, p⟩, allocated, answer⟩ := answer
      cases p with
      | none => simp at answer
      | some p =>
        simp only [Prod.mk.injEq, Option.some.injEq] at answer
        obtain ⟨rfl, rfl⟩ := answer
        exact enough middle p allocated
  | realloc rmem newsize =>
    obtain ⟨admits, small⟩ := admitted
    cases rmem with
    | none =>
      refine iff_of_true (fun after r answer => ⟨?_, by simp⟩) trivial
      rintro nmem rfl
      exact usable.rtRealloc_none small answer
    | some rmem =>
      obtain ⟨front, b, rear, rfl, used, rfl⟩ := usable.ofLive admits
      constructor
      · intro sufficient
        by_contra wraps
        obtain ⟨after, answer, freed⟩ := usable.rtRealloc_wraps used small wraps
        have nonzero : newsize ≠ 0 := by
          rintro rfl
          have := cfg.alignSize_le
          refine wraps (Nat.lt_of_le_of_lt ?_ (by decide : 2 ^ 28 < 2 ^ 32))
          omega
        exact freed ((sufficient after none answer).2 _ newsize rfl nonzero rfl)
      · intro noWrap after r answer
        obtain ⟨enough, stays⟩ := usable.rtRealloc_sufficient used noWrap admits answer
        refine ⟨enough, ?_⟩
        intro rmem n isRequest nonzero isNone
        obtain ⟨rfl, rfl⟩ := isRequest
        exact stays nonzero isNone

theorem fifteen_bytes_sufficient : Request.Sufficient word4
      ((TransitionSystem.execute (serve word4) smallHeap [.malloc 10]).get (by decide))
      (.calloc 3 5) :=
  (sufficient_iff ⟨_, TransitionSystem.Run.executed _ _ smallHeap_initial _⟩ (by decide)).mpr
  (.inl (by decide))

/-- A request for all of the address space gets a block of twelve bytes. -/
theorem huge_request_served :
    ¬ ∀ heap, (requestSystem word4).Reachable heap → ∀ request, request.Admitted heap →
      Request.Sufficient word4 heap request := by
  intro claim
  have sufficient := claim smallHeap ⟨[], .start smallHeap_initial⟩ (.malloc 0xffffffff) (by decide)
  have isSome : (rtMalloc word4 smallHeap 0xffffffff).isSome := by decide
  have enough := (sufficient _ _ (Option.some_get isSome).symm).1 4108 (by decide)
  revert enough
  decide

end RtThread.SmallMem
