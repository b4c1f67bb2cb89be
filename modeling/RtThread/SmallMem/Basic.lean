import RtThread.Library.Tiling
import RtThread.Library.TransitionSystem
import RtThread.Library.Words

/-!
# The small-memory heap

`rt_system_heap_init`, `rt_malloc`, `rt_realloc` and `rt_free` of the small-memory
allocator, with `RT_MEM_STATS`.  Pointers to headers are offsets from `heap_ptr`, as the
`next` and `prev` fields are; pointers to user memory are addresses, and `none` is
`RT_NULL`.  Headers are kept apart from the bytes of the user areas.  A failed assertion,
and a loop that does not end, give no result.

`live` is not in the code: it lists the pointers that have been handed out and not taken
back.
-/

namespace RtThread.SmallMem

/-- `RT_ALIGN_SIZE`, a power of two, and `sizeof(struct heap_mem)`, which is 12, or 16
with `RT_USING_MEMTRACE`. -/
structure Config where
  alignBits : Nat
  sizeofHeapMem : Nat
  alignBits_lt : alignBits < 29
  sizeof_ge : 12 ≤ sizeofHeapMem
  sizeof_le : sizeofHeapMem ≤ 16

structure HeapMem where
  magic : Nat
  used : Nat
  next : Nat
  prev : Nat

def heapMagic : Nat := 0x1ea0

def minSize : Nat := 12

namespace Config

def alignSize (cfg : Config) : Nat := 2 ^ cfg.alignBits

def rtAlign (cfg : Config) (size : Nat) : Nat := Word32.alignUp size cfg.alignSize

def rtAlignDown (cfg : Config) (size : Nat) : Nat := Word32.maskDown size cfg.alignSize

def sizeofStructMem (cfg : Config) : Nat := cfg.rtAlign cfg.sizeofHeapMem

def minSizeAligned (cfg : Config) : Nat := cfg.rtAlign minSize

end Config

/-- The variables of the allocator and the memory it manages. -/
structure Heap where
  heapPtr : Nat
  heapEnd : Nat
  lfree : Nat
  memSizeAligned : Nat
  usedMem : Nat
  maxMem : Nat
  header : Nat → HeapMem
  byte : Nat → BitVec 8
  live : List Nat

namespace Heap

def setHeader (heap : Heap) (place : Nat) (mem : HeapMem) : Heap :=
  { heap with header := Function.update heap.header place mem }

def headers (heap : Heap) : Headers where
  next place := (heap.header place).next
  prev place := (heap.header place).prev
  used place := decide ((heap.header place).used ≠ 0)

def headerOf (cfg : Config) (heap : Heap) (rmem : Nat) : Nat :=
  rmem - cfg.sizeofStructMem - heap.heapPtr

end Heap

variable (cfg : Config)

/-- `rt_system_heap_init`, on memory with arbitrary contents. -/
def rtSystemHeapInit (header : Nat → HeapMem) (byte : Nat → BitVec 8)
    (beginAddr endAddr : Nat) : Option Heap :=
  let beginAlign := cfg.rtAlign beginAddr
  let endAlign := cfg.rtAlignDown endAddr
  let twice := Word32.add cfg.sizeofStructMem cfg.sizeofStructMem
  if twice < endAlign ∧ beginAlign ≤ Word32.sub endAlign twice then
    let memSizeAligned := Word32.sub (Word32.sub endAlign beginAlign) twice
    let heapEnd := Word32.add memSizeAligned cfg.sizeofStructMem
    let first : HeapMem :=
      { magic := heapMagic
        used := 0
        next := heapEnd
        prev := 0 }
    let last : HeapMem :=
      { magic := heapMagic
        used := 1
        next := heapEnd
        prev := heapEnd }
    some
      { heapPtr := beginAlign
        heapEnd := heapEnd
        lfree := 0
        memSizeAligned := memSizeAligned
        usedMem := 0
        maxMem := 0
        header := Function.update (Function.update header 0 first) heapEnd last
        byte := byte
        live := [] }
  else none

/-- `mem->next = next`, and the header at `next` gets `mem` as its `prev`. -/
def linkOver (heap : Heap) (mem next : Nat) : Heap :=
  let heap := heap.setHeader mem { heap.header mem with next := next }
  heap.setHeader next { heap.header next with prev := mem }

def plugForward (heap : Heap) (mem : Nat) : Heap :=
  let nmem := (heap.header mem).next
  if mem ≠ nmem ∧ (heap.header nmem).used = 0 ∧ nmem ≠ heap.heapEnd then
    let heap := if heap.lfree = nmem then { heap with lfree := mem } else heap
    linkOver heap mem (heap.header nmem).next
  else heap

def plugBackward (heap : Heap) (mem : Nat) : Heap :=
  let pmem := (heap.header mem).prev
  if pmem ≠ mem ∧ (heap.header pmem).used = 0 then
    let heap := if heap.lfree = mem then { heap with lfree := pmem } else heap
    linkOver heap pmem (heap.header mem).next
  else heap

def plugHoles (heap : Heap) (mem : Nat) : Option Heap :=
  if mem < heap.heapEnd ∧ (heap.header mem).used = 0 then
    some (plugBackward (plugForward heap mem) mem)
  else none

/-- The code by which `rt_malloc` and `rt_realloc` cut a block in two: a free block at
`ptr2` between the block at `ptr` and the next. -/
def insertBlock (heap : Heap) (ptr ptr2 : Nat) : Heap :=
  let next := (heap.header ptr).next
  let mem2 : HeapMem :=
    { magic := heapMagic
      used := 0
      next := next
      prev := ptr }
  let heap := heap.setHeader ptr2 mem2
  let heap := heap.setHeader ptr { heap.header ptr with next := ptr2 }
  if next ≠ Word32.add heap.memSizeAligned cfg.sizeofStructMem then
    heap.setHeader next { heap.header next with prev := ptr2 }
  else heap

def room (heap : Heap) (ptr : Nat) : Nat :=
  Word32.sub (heap.header ptr).next (Word32.add ptr cfg.sizeofStructMem)

/-- The search loop of `rt_malloc`: the block it stops at, if any.  Without a result the
loop has not ended after that many turns. -/
def search (heap : Heap) (size : Nat) : Nat → Nat → Option (Option Nat)
  | 0, _ => none
  | turns + 1, ptr =>
    if ptr < Word32.sub heap.memSizeAligned size then
      if (heap.header ptr).used = 0 ∧ size ≤ room cfg heap ptr then some (some ptr)
      else search heap size turns (heap.header ptr).next
    else some none

/-- "Find next free block after mem and update lowest free pointer". -/
def nextFree (heap : Heap) : Nat → Nat → Option Nat
  | 0, _ => none
  | turns + 1, ptr =>
    if (heap.header ptr).used ≠ 0 ∧ ptr ≠ heap.heapEnd then
      nextFree heap turns (heap.header ptr).next
    else some ptr

def countUsed (heap : Heap) (amount : Nat) : Heap :=
  let usedMem := Word32.add heap.usedMem amount
  { heap with
    usedMem := usedMem
    maxMem := if heap.maxMem < usedMem then usedMem else heap.maxMem }

/-- The block at `ptr` becomes used, split when the rest can hold a block. -/
def takeBlock (heap : Heap) (ptr size : Nat) : Heap :=
  if Word32.add (Word32.add size cfg.sizeofStructMem) cfg.minSizeAligned ≤ room cfg heap ptr then
    let ptr2 := Word32.add (Word32.add ptr cfg.sizeofStructMem) size
    let heap := insertBlock cfg heap ptr ptr2
    countUsed (heap.setHeader ptr { heap.header ptr with used := 1 })
      (Word32.add size cfg.sizeofStructMem)
  else
    countUsed (heap.setHeader ptr { heap.header ptr with used := 1 })
      (Word32.sub (heap.header ptr).next ptr)

/-- The part of `rt_malloc` behind the search, with its assertions. -/
def allocate (heap : Heap) (ptr size : Nat) : Option (Heap × Option Nat) :=
  let heap := takeBlock cfg heap ptr size
  let heap := heap.setHeader ptr { heap.header ptr with magic := heapMagic }
  let lowest :=
    if ptr = heap.lfree then nextFree heap (heap.heapEnd + 1) heap.lfree else some heap.lfree
  lowest.bind fun lfree =>
    let rmem := heap.heapPtr + ptr + cfg.sizeofStructMem
    if (ptr = heap.lfree → lfree = heap.heapEnd ∨ (heap.header lfree).used = 0) ∧
        rmem + size ≤ heap.heapPtr + heap.heapEnd ∧ rmem % cfg.alignSize = 0 ∧
        (heap.heapPtr + ptr) &&& (cfg.alignSize - 1) = 0 then
      some ({ heap with lfree := lfree, live := rmem :: heap.live }, some rmem)
    else none

def rtMalloc (heap : Heap) (size : Nat) : Option (Heap × Option Nat) :=
  if size = 0 then some (heap, none)
  else
    let size := cfg.rtAlign size
    if heap.memSizeAligned < size then some (heap, none)
    else
      let size := if size < cfg.minSizeAligned then cfg.minSizeAligned else size
      (search cfg heap size (heap.heapEnd + 1) heap.lfree).bind fun found =>
        match found with
        | some ptr => allocate cfg heap ptr size
        | none => some (heap, none)

def rtFree (heap : Heap) : Option Nat → Option Heap
  | none => some heap
  | some rmem =>
    let mem := heap.headerOf cfg rmem
    if rmem &&& (cfg.alignSize - 1) = 0 ∧ heap.heapPtr ≤ rmem ∧ rmem < heap.heapPtr + heap.heapEnd ∧
        (heap.header mem).used ≠ 0 ∧ (heap.header mem).magic = heapMagic then
      let heap := heap.setHeader mem { heap.header mem with used := 0, magic := heapMagic }
      let heap := if mem < heap.lfree then { heap with lfree := mem } else heap
      let heap :=
        { heap with
          usedMem := Word32.sub heap.usedMem (Word32.sub (heap.header mem).next mem)
          live := heap.live.erase rmem }
      plugHoles heap mem
    else none

def rtMemcpy (byte : Nat → BitVec 8) (dst src count : Nat) : Nat → BitVec 8 := fun place =>
  if dst ≤ place ∧ place < dst + count then byte (src + (place - dst)) else byte place

/-- The branch of `rt_realloc` that splits the block and keeps its place. -/
def shrink (heap : Heap) (mem size newsize : Nat) : Option Heap :=
  let heap := { heap with usedMem := Word32.sub heap.usedMem (Word32.sub size newsize) }
  let ptr2 := Word32.add (Word32.add mem cfg.sizeofStructMem) newsize
  plugHoles (insertBlock cfg heap mem ptr2) ptr2

def rtRealloc (heap : Heap) (rmem : Option Nat) (newsize : Nat) : Option (Heap × Option Nat) :=
  let newsize := cfg.rtAlign newsize
  if heap.memSizeAligned < newsize then some (heap, none)
  else if newsize = 0 then (rtFree cfg heap rmem).map fun heap => (heap, none)
  else
    match rmem with
    | none => rtMalloc cfg heap newsize
    | some rmem =>
      if rmem < heap.heapPtr ∨ heap.heapPtr + heap.heapEnd ≤ rmem then some (heap, some rmem)
      else
        let mem := heap.headerOf cfg rmem
        let size := Word32.sub (Word32.sub (heap.header mem).next mem) cfg.sizeofStructMem
        if size = newsize then some (heap, some rmem)
        else if Word32.add (Word32.add newsize cfg.sizeofStructMem) minSize < size then
          (shrink cfg heap mem size newsize).map fun heap => (heap, some rmem)
        else
          (rtMalloc cfg heap newsize).bind fun (heap, nmem) =>
            match nmem with
            | none => some (heap, none)
            | some nmem =>
              let count := if size < newsize then size else newsize
              (rtFree cfg { heap with byte := rtMemcpy heap.byte nmem rmem count }
                (some rmem)).map fun heap => (heap, some nmem)

inductive Event where
  | malloc (size : Nat)
  | realloc (rmem : Option Nat) (newsize : Nat)
  | free (rmem : Option Nat)

/-- Rounding the request up to `RT_ALIGN_SIZE` does not wrap. -/
def NoWrap (size : Nat) : Prop := size + (cfg.alignSize - 1) < 2 ^ 32

instance (size : Nat) : Decidable (NoWrap cfg size) := inferInstanceAs (Decidable (_ < _))

def Heap.Admits (heap : Heap) : Option Nat → Prop
  | none => True
  | some rmem => rmem ∈ heap.live

instance (heap : Heap) : (rmem : Option Nat) → Decidable (heap.Admits rmem)
  | none => .isTrue trivial
  | some rmem => inferInstanceAs (Decidable (rmem ∈ heap.live))

def step (heap : Heap) : Event → Option Heap
  | .malloc size => if NoWrap cfg size then (rtMalloc cfg heap size).map Prod.fst else none
  | .realloc rmem newsize =>
    if heap.Admits rmem ∧ NoWrap cfg newsize then
      (rtRealloc cfg heap rmem newsize).map Prod.fst
    else none
  | .free rmem => if heap.Admits rmem then rtFree cfg heap rmem else none

def Initial (heap : Heap) : Prop :=
  ∃ header byte beginAddr endAddr, endAddr < 2 ^ 32 ∧
    rtSystemHeapInit cfg header byte beginAddr endAddr = some heap

def system : TransitionSystem Heap Event :=
  TransitionSystem.ofFunction (Initial cfg) (step cfg)

variable {cfg : Config}

namespace Config

variable (cfg : Config)

theorem alignBits_le : cfg.alignBits ≤ 32 := by
  have := cfg.alignBits_lt
  omega

theorem alignSize_le : cfg.alignSize ≤ 2 ^ 28 := by
  have := cfg.alignBits_lt
  exact Nat.pow_le_pow_right (by decide) (by omega)

theorem dvd_rtAlign (n : Nat) : cfg.alignSize ∣ cfg.rtAlign n :=
  Word32.dvd_alignUp n cfg.alignBits_le

theorem rtAlign_bounds {n : Nat} (noWrap : NoWrap cfg n) :
    n ≤ cfg.rtAlign n ∧ cfg.rtAlign n < n + cfg.alignSize :=
  Word32.le_alignUp noWrap cfg.alignBits_le

theorem dvd_sizeofStructMem : cfg.alignSize ∣ cfg.sizeofStructMem := cfg.dvd_rtAlign _

theorem dvd_minSizeAligned : cfg.alignSize ∣ cfg.minSizeAligned := cfg.dvd_rtAlign _

theorem sizeofHeapMem_noWrap : NoWrap cfg cfg.sizeofHeapMem := by
  have := cfg.sizeof_le
  have := cfg.alignSize_le
  unfold NoWrap
  omega

theorem minSize_noWrap : NoWrap cfg minSize := by
  have := cfg.alignSize_le
  unfold NoWrap minSize
  omega

theorem sizeofStructMem_bounds : 12 ≤ cfg.sizeofStructMem ∧ cfg.sizeofStructMem < 2 ^ 29 := by
  have := cfg.sizeof_ge
  have := cfg.sizeof_le
  have := cfg.alignSize_le
  have := cfg.rtAlign_bounds cfg.sizeofHeapMem_noWrap
  unfold sizeofStructMem
  omega

theorem minSizeAligned_bounds :
    12 ≤ cfg.minSizeAligned ∧ cfg.minSizeAligned ≤ cfg.sizeofStructMem := by
  have := cfg.sizeof_ge
  have lower := (cfg.rtAlign_bounds cfg.minSize_noWrap).1
  have upper := (cfg.rtAlign_bounds cfg.sizeofHeapMem_noWrap).1
  refine ⟨lower, ?_⟩
  apply Word32.alignUp_le_of_dvd cfg.minSize_noWrap cfg.alignBits_le
  · exact cfg.dvd_sizeofStructMem
  · unfold minSize sizeofStructMem
    omega

end Config

@[simp] theorem headers_next (heap : Heap) (p : Nat) :
    heap.headers.next p = (heap.header p).next := rfl

@[simp] theorem headers_prev (heap : Heap) (p : Nat) :
    heap.headers.prev p = (heap.header p).prev := rfl

@[simp] theorem headers_used (heap : Heap) (p : Nat) :
    heap.headers.used p = decide ((heap.header p).used ≠ 0) := rfl

@[simp] theorem setHeader_header (heap : Heap) (p u : Nat) (mem : HeapMem) :
    (heap.setHeader p mem).header u = if u = p then mem else heap.header u := by
  simp [Heap.setHeader, Function.update_apply]

/-- What the operations on single blocks leave alone; `heap_end` keeps its mark and its
`next`. -/
structure Kept (heap after : Heap) : Prop where
  heapPtr : after.heapPtr = heap.heapPtr
  heapEnd : after.heapEnd = heap.heapEnd
  memSizeAligned : after.memSizeAligned = heap.memSizeAligned
  usedMem : after.usedMem = heap.usedMem
  live : after.live = heap.live
  endUsed : (after.header heap.heapEnd).used = (heap.header heap.heapEnd).used
  endNext : (after.header heap.heapEnd).next = (heap.header heap.heapEnd).next

theorem Kept.refl (heap : Heap) : Kept heap heap := ⟨rfl, rfl, rfl, rfl, rfl, rfl, rfl⟩

theorem Kept.trans {heap middle s' : Heap} (a : Kept heap middle) (second : Kept middle s') :
    Kept heap s' where
  heapPtr := second.heapPtr.trans a.heapPtr
  heapEnd := second.heapEnd.trans a.heapEnd
  memSizeAligned := second.memSizeAligned.trans a.memSizeAligned
  usedMem := second.usedMem.trans a.usedMem
  live := second.live.trans a.live
  endUsed := by
    have := second.endUsed
    rw [a.heapEnd] at this
    exact this.trans a.endUsed
  endNext := by
    have := second.endNext
    rw [a.heapEnd] at this
    exact this.trans a.endNext

def Cut (cfg : Config) (heap : Heap) (bs : List Block) : Prop :=
  Tiles heap.headers cfg.sizeofStructMem 0 0 bs heap.heapEnd

theorem Config.gap_pos (cfg : Config) : 0 < cfg.sizeofStructMem := by
  have := cfg.sizeofStructMem_bounds
  omega

theorem Cut.setUsed {heap s' : Heap} {front rear : List Block} {b : Block} {used : Bool}
    (cut : Cut cfg heap (front ++ b :: rear)) (heapEnd : s'.heapEnd = heap.heapEnd)
    (own : (s'.header b.start).next = (heap.header b.start).next ∧
      (s'.header b.start).prev = (heap.header b.start).prev ∧
      decide ((s'.header b.start).used ≠ 0) = used)
    (others : ∀ place, place ≠ b.start → s'.header place = heap.header place) :
    Cut cfg s' (front ++ { b with used := used } :: rear) := by
  obtain ⟨middle, frontTiles, rfl, next, prev, -, room, rearTiles⟩ := Tiles.append_iff.mp cut
  have below := cfg.gap_pos
  have middleTiles : Tiles s'.headers cfg.sizeofStructMem (Tiles.last 0 front) b.start
      [{ b with used := used }] b.stop :=
    ⟨rfl, own.1.trans next, own.2.1.trans prev, own.2.2, room, rfl⟩
  have same : ∀ place, place < b.start ∨ b.stop ≤ place →
      s'.header place = heap.header place := fun place outside => others place (by omega)
  unfold Cut
  rw [heapEnd]
  apply Tiles.replace cfg.gap_pos frontTiles middleTiles rearTiles
  · intro place outside _
    simp [same place outside]
  · intro place outside _
    simp [same place outside]
  · intro place outside _
    simp [same place (by omega)]
  · intro more
    rw [headers_prev, same b.stop (by omega)]
    cases rear with
    | nil => exact absurd rearTiles (by simp only [Tiles]; omega)
    | cons second others => exact rearTiles.2.2.1

theorem insertBlock_eq (heap : Heap) (ptr ptr2 : Nat) : insertBlock cfg heap ptr ptr2 =
      { heap with header := (insertBlock cfg heap ptr ptr2).header } := by
  simp only [insertBlock]
  split <;> rfl

theorem insertBlock_header {heap : Heap} {ptr ptr2 stop : Nat}
    (end_eq : heap.heapEnd = Word32.add heap.memSizeAligned cfg.sizeofStructMem)
    (next : (heap.header ptr).next = stop) (above : ptr < ptr2) (fits : ptr2 < stop) (p : Nat) :
    (insertBlock cfg heap ptr ptr2).header p =
      if p = stop ∧ stop ≠ heap.heapEnd then { heap.header stop with prev := ptr2 }
      else if p = ptr then { heap.header ptr with next := ptr2 }
      else if p = ptr2 then { magic := heapMagic, used := 0, next := stop, prev := ptr }
      else heap.header p := by
  have notFirst : stop ≠ ptr := by omega
  have notSecond : stop ≠ ptr2 := by omega
  have apart : ptr ≠ ptr2 := by omega
  simp only [insertBlock, next, end_eq]
  split
  · rename_i notEnd
    by_cases atStop : p = stop
    · simp [atStop, notFirst, notSecond, Heap.setHeader] at notEnd ⊢
      simp [notEnd]
    · simp [atStop, apart]
  · rename_i isEnd
    simp only [Heap.setHeader] at isEnd
    simp [isEnd, apart]

theorem Cut.insertBlock {heap : Heap} {front rear : List Block} {b : Block} {ptr2 : Nat}
    (cut : Cut cfg heap (front ++ b :: rear))
    (end_eq : heap.heapEnd = Word32.add heap.memSizeAligned cfg.sizeofStructMem)
    (above : b.start + cfg.sizeofStructMem ≤ ptr2) (fits : ptr2 + cfg.sizeofStructMem ≤ b.stop) :
    Cut cfg (insertBlock cfg heap b.start ptr2) (front ++ { b with stop := ptr2 } ::
          { start := ptr2, stop := b.stop, used := false } :: rear) ∧
      Kept heap (SmallMem.insertBlock cfg heap b.start ptr2) ∧
      (SmallMem.insertBlock cfg heap b.start ptr2).lfree = heap.lfree := by
  obtain ⟨middle, frontTiles, rfl, next, prev, used, room, rearTiles⟩ := Tiles.append_iff.mp cut
  have inside := rearTiles.le
  have below := cfg.gap_pos
  have header := insertBlock_header end_eq next (by omega : b.start < ptr2) (by omega)
  have middleTiles : Tiles (SmallMem.insertBlock cfg heap b.start ptr2).headers
      cfg.sizeofStructMem (Tiles.last 0 front) b.start
      [{ b with stop := ptr2 }, { start := ptr2, stop := b.stop, used := false }]
      b.stop := by
    have startNotStop : b.start ≠ b.stop := by omega
    have secondNotStop : ptr2 ≠ b.stop := by omega
    have secondNotStart : ptr2 ≠ b.start := by omega
    refine ⟨rfl, ?_, ?_, ?_, above, rfl, ?_, ?_, ?_, fits, rfl⟩
    · simp [header, startNotStop]
    · simpa [header, startNotStop] using prev
    · simpa [header, startNotStop] using used
    · simp [header, secondNotStop, secondNotStart]
    · simp [header, secondNotStop, secondNotStart]
    · simp [header, secondNotStop, secondNotStart]
  refine ⟨?_, ?_, by rw [insertBlock_eq]⟩
  · have heapEnd : (SmallMem.insertBlock cfg heap b.start ptr2).heapEnd = heap.heapEnd := by
      rw [insertBlock_eq]
    unfold Cut
    rw [heapEnd]
    have result := Tiles.replace cfg.gap_pos frontTiles middleTiles rearTiles ?_ ?_ ?_ ?_
    · simpa using result
    · intro p outside more
      simp only [headers_next]
      grind
    · intro p outside more
      simp only [headers_used]
      grind
    · intro p outside more
      simp only [headers_prev]
      grind
    · intro more
      have notEnd : b.stop ≠ heap.heapEnd := by omega
      simp [header, notEnd, Tiles.last]
  · have atEnd : (SmallMem.insertBlock cfg heap b.start ptr2).header heap.heapEnd =
        heap.header heap.heapEnd := by
      grind
    rw [insertBlock_eq]
    exact ⟨rfl, rfl, rfl, rfl, rfl, by rw [atEnd], by rw [atEnd]⟩

end RtThread.SmallMem
