import RtThread.Library.LittleEndian
import RtThread.SmallMem.Capacity

/-!
# The heap in one memory

The calls with their headers in the bytes of the memory that also holds the user areas.  A
header that is written changes the bytes under it, whatever they hold, and bytes that are copied
change the headers over them.  `RT_USING_MEMTRACE` is not set.
-/

namespace RtThread.SmallMem

open LittleEndian

def headerSize : Nat := 12

def loadHeader (memory : Nat → BitVec 8) (address : Nat) : HeapMem where
  magic := load memory address 2
  used := load memory (address + 2) 2
  next := load memory (address + 4) 4
  prev := load memory (address + 8) 4

def storeHeader (memory : Nat → BitVec 8) (address : Nat) (mem : HeapMem) : Nat → BitVec 8 :=
  let memory := store memory address 2 mem.magic
  let memory := store memory (address + 2) 2 mem.used
  let memory := store memory (address + 4) 4 mem.next
  store memory (address + 8) 4 mem.prev

def Heap.inMemory (heap : Heap) (memory : Nat → BitVec 8) : Heap :=
  { heap with
    header := fun p => loadHeader memory (heap.heapPtr + p)
    byte := memory }

namespace InMemory

variable (cfg : Config)

def setHeader (heap : Heap) (p : Nat) (mem : HeapMem) : Heap :=
  heap.inMemory (storeHeader heap.byte (heap.heapPtr + p) mem)

def rtSystemHeapInit (memory : Nat → BitVec 8) (beginAddr endAddr : Nat) : Option Heap :=
  let beginAlign := cfg.rtAlign beginAddr
  let endAlign := cfg.rtAlignDown endAddr
  let twice := Word32.add cfg.sizeofStructMem cfg.sizeofStructMem
  if twice < endAlign ∧ beginAlign ≤ Word32.sub endAlign twice then
    let memSizeAligned := Word32.sub (Word32.sub endAlign beginAlign) twice
    let heapEnd := Word32.add memSizeAligned cfg.sizeofStructMem
    let first : HeapMem :=
      { magic := heapMagic
        used := 0
        next := heapEnd
        prev := 0 }
    let last : HeapMem :=
      { magic := heapMagic
        used := 1
        next := heapEnd
        prev := heapEnd }
    let heap : Heap :=
      { heapPtr := beginAlign
        heapEnd := heapEnd
        lfree := 0
        memSizeAligned := memSizeAligned
        usedMem := 0
        maxMem := 0
        header := fun p => loadHeader memory (beginAlign + p)
        byte := memory
        live := [] }
    some (setHeader (setHeader heap 0 first) heapEnd last)
  else none

def linkOver (heap : Heap) (mem next : Nat) : Heap :=
  let heap := setHeader heap mem { heap.header mem with next := next }
  setHeader heap next { heap.header next with prev := mem }

def plugForward (heap : Heap) (mem : Nat) : Heap :=
  let nmem := (heap.header mem).next
  if mem ≠ nmem ∧ (heap.header nmem).used = 0 ∧ nmem ≠ heap.heapEnd then
    let heap := if heap.lfree = nmem then { heap with lfree := mem } else heap
    linkOver heap mem (heap.header nmem).next
  else heap

def plugBackward (heap : Heap) (mem : Nat) : Heap :=
  let pmem := (heap.header mem).prev
  if pmem ≠ mem ∧ (heap.header pmem).used = 0 then
    let heap := if heap.lfree = mem then { heap with lfree := pmem } else heap
    linkOver heap pmem (heap.header mem).next
  else heap

def plugHoles (heap : Heap) (mem : Nat) : Option Heap :=
  if mem < heap.heapEnd ∧ (heap.header mem).used = 0 then
    some (plugBackward (plugForward heap mem) mem)
  else none

def insertBlock (heap : Heap) (ptr ptr2 : Nat) : Heap :=
  let next := (heap.header ptr).next
  let mem2 : HeapMem :=
    { magic := heapMagic
      used := 0
      next := next
      prev := ptr }
  let heap := setHeader heap ptr2 mem2
  let heap := setHeader heap ptr { heap.header ptr with next := ptr2 }
  if next ≠ Word32.add heap.memSizeAligned cfg.sizeofStructMem then
    setHeader heap next { heap.header next with prev := ptr2 }
  else heap

def takeBlock (heap : Heap) (ptr size : Nat) : Heap :=
  if Word32.add (Word32.add size cfg.sizeofStructMem) cfg.minSizeAligned ≤ room cfg heap ptr then
    let ptr2 := Word32.add (Word32.add ptr cfg.sizeofStructMem) size
    let heap := insertBlock cfg heap ptr ptr2
    countUsed (setHeader heap ptr { heap.header ptr with used := 1 })
      (Word32.add size cfg.sizeofStructMem)
  else
    countUsed (setHeader heap ptr { heap.header ptr with used := 1 })
      (Word32.sub (heap.header ptr).next ptr)

/-- The part of `rt_malloc` behind the search, with its assertions. -/
def allocate (heap : Heap) (ptr size : Nat) : Option (Heap × Option Nat) :=
  let heap := takeBlock cfg heap ptr size
  let heap := setHeader heap ptr { heap.header ptr with magic := heapMagic }
  let lowest :=
    if ptr = heap.lfree then nextFree heap (heap.heapEnd + 1) heap.lfree else some heap.lfree
  lowest.bind fun lfree =>
    let rmem := heap.heapPtr + ptr + cfg.sizeofStructMem
    if (ptr = heap.lfree → lfree = heap.heapEnd ∨ (heap.header lfree).used = 0) ∧
        rmem + size ≤ heap.heapPtr + heap.heapEnd ∧ rmem % cfg.alignSize = 0 ∧
        (heap.heapPtr + ptr) &&& (cfg.alignSize - 1) = 0 then
      some ({ heap with lfree := lfree, live := rmem :: heap.live }, some rmem)
    else none

def rtMalloc (heap : Heap) (size : Nat) : Option (Heap × Option Nat) :=
  if size = 0 then some (heap, none)
  else
    let size := cfg.rtAlign size
    if heap.memSizeAligned < size then some (heap, none)
    else
      let size := if size < cfg.minSizeAligned then cfg.minSizeAligned else size
      (search cfg heap size (heap.heapEnd + 1) heap.lfree).bind fun found =>
        match found with
        | some ptr => allocate cfg heap ptr size
        | none => some (heap, none)

def rtFree (heap : Heap) : Option Nat → Option Heap
  | none => some heap
  | some rmem =>
    let mem := heap.headerOf cfg rmem
    if rmem &&& (cfg.alignSize - 1) = 0 ∧ heap.heapPtr ≤ rmem ∧
        rmem < heap.heapPtr + heap.heapEnd ∧ (heap.header mem).used ≠ 0 ∧
        (heap.header mem).magic = heapMagic then
      let heap := setHeader heap mem { heap.header mem with used := 0, magic := heapMagic }
      let heap := if mem < heap.lfree then { heap with lfree := mem } else heap
      let heap :=
        { heap with
          usedMem := Word32.sub heap.usedMem (Word32.sub (heap.header mem).next mem)
          live := heap.live.erase rmem }
      plugHoles heap mem
    else none

/-- The branch of `rt_realloc` that splits the block and keeps its place. -/
def shrink (heap : Heap) (mem size newsize : Nat) : Option Heap :=
  let heap := { heap with usedMem := Word32.sub heap.usedMem (Word32.sub size newsize) }
  let ptr2 := Word32.add (Word32.add mem cfg.sizeofStructMem) newsize
  plugHoles (insertBlock cfg heap mem ptr2) ptr2

def rtRealloc (heap : Heap) (rmem : Option Nat) (newsize : Nat) : Option (Heap × Option Nat) :=
  let newsize := cfg.rtAlign newsize
  if heap.memSizeAligned < newsize then some (heap, none)
  else if newsize = 0 then (rtFree cfg heap rmem).map fun heap => (heap, none)
  else
    match rmem with
    | none => rtMalloc cfg heap newsize
    | some rmem =>
      if rmem < heap.heapPtr ∨ heap.heapPtr + heap.heapEnd ≤ rmem then some (heap, some rmem)
      else
        let mem := heap.headerOf cfg rmem
        let size := Word32.sub (Word32.sub (heap.header mem).next mem) cfg.sizeofStructMem
        if size = newsize then some (heap, some rmem)
        else if Word32.add (Word32.add newsize cfg.sizeofStructMem) minSize < size then
          (shrink cfg heap mem size newsize).map fun heap => (heap, some rmem)
        else
          (rtMalloc cfg heap newsize).bind fun (heap, nmem) =>
            match nmem with
            | none => some (heap, none)
            | some nmem =>
              let count := if size < newsize then size else newsize
              (rtFree cfg (heap.inMemory (rtMemcpy heap.byte nmem rmem count))
                (some rmem)).map fun heap => (heap, some nmem)

def rtCalloc (heap : Heap) (count size : Nat) : Option (Heap × Option Nat) :=
  (rtMalloc cfg heap (product count size)).map fun (heap, p) =>
    match p with
    | none => (heap, none)
    | some p => (heap.inMemory (rtMemset heap.byte p (product count size)), some p)

/-- The calls of the allocator, and a byte that a user writes to its area. -/
inductive Event where
  | malloc (size : Nat)
  | calloc (count size : Nat)
  | realloc (rmem : Option Nat) (newsize : Nat)
  | free (rmem : Option Nat)
  | write (rmem offset : Nat) (value : BitVec 8)

/-- One call that returns.  The word that `rt_calloc` asks for can be rounded up: where it cannot,
`rt_memset` runs beyond the block. -/
def step (heap : Heap) : Event → Option Heap
  | .malloc size => if size < 2 ^ 32 then (rtMalloc cfg heap size).map Prod.fst else none
  | .calloc count size =>
    if count < 2 ^ 32 ∧ size < 2 ^ 32 ∧ NoWrap cfg (product count size) then
      (rtCalloc cfg heap count size).map Prod.fst
    else none
  | .realloc rmem newsize =>
    if heap.Admits rmem ∧ newsize < 2 ^ 32 then
      (rtRealloc cfg heap rmem newsize).map Prod.fst
    else none
  | .free rmem => if heap.Admits rmem then rtFree cfg heap rmem else none
  | .write rmem offset value =>
    if rmem ∈ heap.live ∧ offset < capacity cfg heap rmem then
      some (heap.inMemory (Function.update heap.byte (rmem + offset) value))
    else none

/-- A heap that `rt_system_heap_init` has accepted, on memory with arbitrary contents. -/
def Initial (heap : Heap) : Prop :=
  ∃ memory beginAddr endAddr, endAddr < 2 ^ 32 ∧
    rtSystemHeapInit cfg memory beginAddr endAddr = some heap

def system : TransitionSystem Heap Event :=
  TransitionSystem.ofFunction (Initial cfg) (step cfg)

end InMemory

theorem storeHeader_outside {memory : Nat → BitVec 8} {a p : Nat} {mem : HeapMem}
    (outside : p < a ∨ a + headerSize ≤ p) : storeHeader memory a mem p = memory p := by
  unfold headerSize at outside
  unfold storeHeader
  rw [store_outside (by omega), store_outside (by omega), store_outside (by omega),
    store_outside (by omega)]

theorem loadHeader_congr {memory u : Nat → BitVec 8} {a : Nat}
    (same : ∀ p, a ≤ p → p < a + headerSize → u p = memory p) :
    loadHeader u a = loadHeader memory a := by
  unfold headerSize at same
  unfold loadHeader
  rw [load_congr fun p above below => same p (by omega) (by omega),
    load_congr fun p above below => same p (by omega) (by omega),
    load_congr fun p above below => same p (by omega) (by omega),
    load_congr fun p above below => same p (by omega) (by omega)]

structure HeapMem.Fits (mem : HeapMem) : Prop where
  magic : mem.magic < 2 ^ 16
  used : mem.used < 2 ^ 16
  next : mem.next < 2 ^ 32
  prev : mem.prev < 2 ^ 32

theorem loadHeader_fits (memory : Nat → BitVec 8) (a : Nat) : (loadHeader memory a).Fits where
  magic := load_lt memory a 2
  used := load_lt memory (a + 2) 2
  next := load_lt memory (a + 4) 4
  prev := load_lt memory (a + 8) 4

theorem loadHeader_storeHeader (memory : Nat → BitVec 8) (a : Nat) {mem : HeapMem}
    (fits : mem.Fits) : loadHeader (storeHeader memory a mem) a = mem := by
  unfold loadHeader storeHeader
  rw [load_store_of_apart (by omega), load_store_of_apart (by omega),
    load_store_of_apart (by omega), load_store (by exact fits.magic),
    load_store_of_apart (by omega), load_store_of_apart (by omega),
    load_store (by exact fits.used), load_store_of_apart (by omega),
    load_store (by exact fits.next), load_store (by exact fits.prev)]

end RtThread.SmallMem
