import RtThread.Library.Records
import RtThread.Library.Ring
import RtThread.Library.Tiling
import RtThread.Library.TransitionSystem
import RtThread.Library.Words

/-!
# The memory heap object

`rt_memheap_init`, `rt_memheap_alloc`, `rt_memheap_realloc` and `rt_memheap_free`.  The
items lie in the memory they manage, which maps addresses to words, so an item that is
written over another one destroys it.  `RT_ALIGN_SIZE` is a multiple of the word size, so
words are never cut.  Pointers are addresses, and `none` is a user pointer that is
`RT_NULL`.  The calls come one after another and find the lock free.  A failed assertion,
and a search that does not end, give no result.

`live` is not in the code: it lists the pointers that have been handed out and not taken
back.
-/

namespace RtThread.MemHeap

/-- `RT_ALIGN_SIZE`, a power of two. -/
structure Config where
  alignBits : Nat
  alignBits_ge : 2 ≤ alignBits
  alignBits_lt : alignBits < 29

inductive Field where
  | magic
  | poolPtr
  | next
  | prev
  | nextFree
  | prevFree
  deriving DecidableEq

def itemLayout : Layout Field where
  size := 24
  offset
    | .magic => 0
    | .poolPtr => 4
    | .next => 8
    | .prev => 12
    | .nextFree => 16
    | .prevFree => 20
  offset_injective := by
    intro first second same
    cases first <;> cases second <;> first | rfl | simp at same
  offset_lt := by
    intro field
    cases field <;> decide

def memheapMagic : Nat := 0x1ea01ea0

def memheapMask : Nat := 0xfffffffe

def memheapUsed : Nat := 0x01

def memheapMinialloc : Nat := 12

namespace Config

def alignSize (cfg : Config) : Nat := 2 ^ cfg.alignBits

def rtAlign (cfg : Config) (size : Nat) : Nat := Word32.alignUp size cfg.alignSize

def rtAlignDown (cfg : Config) (size : Nat) : Nat := Word32.maskDown size cfg.alignSize

def memheapSize (cfg : Config) : Nat := cfg.rtAlign itemLayout.size

/-- The size of a request, aligned and at least `RT_MEMHEAP_MINIALLOC`. -/
def request (cfg : Config) (size : Nat) : Nat :=
  let size := cfg.rtAlign size
  if size < memheapMinialloc then memheapMinialloc else size

end Config

abbrev Memory := Nat → Nat

namespace Memory

def get (memory : Memory) (item : Nat) (field : Field) : Nat :=
  itemLayout.read memory item field

def set (memory : Memory) (item : Nat) (field : Field) (value : Nat) : Memory :=
  itemLayout.write memory item field value

def isUsed (memory : Memory) (item : Nat) : Bool := memory.get item .magic &&& memheapUsed != 0

def memitemSize (cfg : Config) (memory : Memory) (item : Nat) : Nat :=
  Word32.sub (Word32.sub (memory.get item .next) item) cfg.memheapSize

def headers (memory : Memory) : Headers where
  next item := memory.get item .next
  prev item := memory.get item .prev
  used item := memory.isUsed item

def links (memory : Memory) : Links Nat where
  next item := memory.get item .nextFree
  prev item := memory.get item .prevFree

def writeItem (memory : Memory) (item magic poolPtr next prev nextFree prevFree : Nat) : Memory :=
  let memory := memory.set item .magic magic
  let memory := memory.set item .poolPtr poolPtr
  let memory := memory.set item .next next
  let memory := memory.set item .prev prev
  let memory := memory.set item .nextFree nextFree
  memory.set item .prevFree prevFree

def removeFree (memory : Memory) (item : Nat) : Memory :=
  let memory := memory.set (memory.get item .nextFree) .prevFree (memory.get item .prevFree)
  memory.set (memory.get item .prevFree) .nextFree (memory.get item .nextFree)

/-- Removal by `rt_memheap_alloc`, which clears the links of the item. -/
def takeFree (memory : Memory) (item : Nat) : Memory :=
  let memory := memory.removeFree item
  let memory := memory.set item .nextFree 0
  memory.set item .prevFree 0

def insertFree (memory : Memory) (freeList item : Nat) : Memory :=
  let memory := memory.set item .nextFree (memory.get freeList .nextFree)
  let memory := memory.set item .prevFree freeList
  let memory := memory.set (memory.get freeList .nextFree) .prevFree item
  memory.set freeList .nextFree item

/-- "mark the new block as a memory block and freed", and put it behind `headerPtr`. -/
def splitItem (memory : Memory) (address headerPtr newPtr : Nat) : Memory :=
  let memory := memory.set newPtr .magic memheapMagic
  let memory := memory.set newPtr .poolPtr address
  let memory := memory.set newPtr .prev headerPtr
  let memory := memory.set newPtr .next (memory.get headerPtr .next)
  let memory := memory.set (memory.get headerPtr .next) .prev newPtr
  memory.set headerPtr .next newPtr

/-- "merge block with next neighbor", which leaves the free list. -/
def mergeNext (memory : Memory) (headerPtr freePtr : Nat) : Memory :=
  let memory := memory.set (memory.get freePtr .next) .prev headerPtr
  let memory := memory.set headerPtr .next (memory.get freePtr .next)
  memory.removeFree freePtr

end Memory

/-- The fields of `struct rt_memheap` that stay as `rt_memheap_init` sets them, and the
address of the structure. -/
structure Pool where
  address : Nat
  poolSize : Nat
  blockList : Nat
  freeList : Nat

structure Heap where
  pool : Pool
  availableSize : Nat
  maxUsedSize : Nat
  memory : Memory
  live : List Nat

variable (cfg : Config)

/-- `rt_memheap_init`, on memory with arbitrary contents. -/
def rtMemheapInit (memory : Memory) (address freeHeader startAddr size : Nat) : Heap :=
  let poolSize := cfg.rtAlignDown size
  let availableSize := Word32.sub poolSize (Word32.add cfg.memheapSize cfg.memheapSize)
  let item := freeHeader
  let memory := memory.writeItem item memheapMagic address 0 0 item item
  let item := startAddr
  let memory := memory.writeItem item memheapMagic address 0 0 item item
  let memory := memory.set item .next
    (Word32.add (Word32.add item availableSize) cfg.memheapSize)
  let memory := memory.set item .prev (memory.get item .next)
  let memory := memory.insertFree freeHeader item
  let item := memory.get item .next
  let memory := memory.writeItem item (memheapMagic ||| memheapUsed) address startAddr startAddr 0 0
  { pool :=
      { address := address
        poolSize := poolSize
        blockList := startAddr
        freeList := freeHeader }
    availableSize := availableSize
    maxUsedSize := Word32.sub poolSize availableSize
    memory := memory
    live := [] }

/-- A decreased `available_size`, and `max_used_size` with it. -/
def Heap.decrease (heap : Heap) (availableSize : Nat) : Heap :=
  let usedSize := Word32.sub heap.pool.poolSize availableSize
  { heap with
    availableSize := availableSize
    maxUsedSize := if heap.maxUsedSize < usedSize then usedSize else heap.maxUsedSize }

/-- The search loop of `rt_memheap_alloc`: where it stops, and the last size it has seen.
Without a result the loop has not ended after that many turns. -/
def search (freeList : Nat) (memory : Memory) (size : Nat) : Nat → Nat → Nat → Option (Nat × Nat)
  | 0, _, _ => none
  | turns + 1, headerPtr, freeSize =>
    if headerPtr ≠ freeList ∧ freeSize < size then
      let freeSize := memory.memitemSize cfg headerPtr
      if freeSize < size then
        search freeList memory size turns (memory.get headerPtr .nextFree) freeSize
      else search freeList memory size turns headerPtr freeSize
    else some (headerPtr, freeSize)

def allocate (heap : Heap) (headerPtr freeSize size : Nat) : Heap :=
  if Word32.add (Word32.add size cfg.memheapSize) memheapMinialloc ≤ freeSize then
    let newPtr := Word32.add (Word32.add headerPtr size) cfg.memheapSize
    let memory := heap.memory.splitItem heap.pool.address headerPtr newPtr
    let memory := memory.takeFree headerPtr
    let memory := memory.insertFree heap.pool.freeList newPtr
    let heap := { heap with memory := memory }
    heap.decrease (Word32.sub (Word32.sub heap.availableSize size) cfg.memheapSize)
  else
    let heap := heap.decrease (Word32.sub heap.availableSize freeSize)
    { heap with memory := heap.memory.takeFree headerPtr }

/-- "Mark the allocated block as not available", and hand out its user area. -/
def handOut (heap : Heap) (headerPtr : Nat) : Heap × Option Nat :=
  let memory := heap.memory.set headerPtr .magic (heap.memory.get headerPtr .magic ||| memheapUsed)
  let ptr := Word32.add headerPtr cfg.memheapSize
  ({ heap with memory := memory, live := ptr :: heap.live }, some ptr)

def rtMemheapAlloc (heap : Heap) (size : Nat) : Option (Heap × Option Nat) :=
  let size := cfg.request size
  if size < heap.availableSize then
    (search cfg heap.pool.freeList heap.memory size (heap.pool.poolSize + 1)
      (heap.memory.get heap.pool.freeList .nextFree) 0).map fun (headerPtr, freeSize) =>
        if size ≤ freeSize then
          handOut cfg (allocate cfg heap headerPtr freeSize size) headerPtr
        else (heap, none)
  else some (heap, none)

/-- "merge: left node": the item and the heap after it, and whether the item is still to be
inserted in the free list. -/
def mergeLeft (heap : Heap) (headerPtr : Nat) : Heap × Nat × Bool :=
  if heap.memory.isUsed (heap.memory.get headerPtr .prev) then (heap, headerPtr, true)
  else
    let availableSize := Word32.add heap.availableSize cfg.memheapSize
    let memory := heap.memory
    let memory := memory.set (memory.get headerPtr .prev) .next (memory.get headerPtr .next)
    let memory := memory.set (memory.get headerPtr .next) .prev (memory.get headerPtr .prev)
    ({ heap with availableSize := availableSize, memory := memory },
      memory.get headerPtr .prev, false)

def mergeRight (heap : Heap) (headerPtr : Nat) : Heap :=
  let newPtr := heap.memory.get headerPtr .next
  if heap.memory.isUsed newPtr then heap
  else
    { heap with
      availableSize := Word32.add heap.availableSize cfg.memheapSize
      memory := heap.memory.mergeNext headerPtr newPtr }

def rtMemheapFree (heap : Heap) : Option Nat → Option Heap
  | none => some heap
  | some ptr =>
    let headerPtr := Word32.sub ptr cfg.memheapSize
    let magic := heap.memory.get headerPtr .magic
    let next := heap.memory.get headerPtr .next
    if magic &&& memheapMask = memheapMagic ∧ magic &&& memheapUsed ≠ 0 ∧
        heap.memory.get next .magic &&& memheapMask = memheapMagic ∧
        heap.memory.get headerPtr .poolPtr = heap.pool.address then
      let memory := heap.memory.set headerPtr .magic (magic &&& (2 ^ 32 - 1 - memheapUsed))
      let heap :=
        { heap with
          memory := memory
          availableSize := Word32.add heap.availableSize (memory.memitemSize cfg headerPtr)
          live := heap.live.erase ptr }
      let (heap, headerPtr, insertHeader) := mergeLeft cfg heap headerPtr
      let heap := mergeRight cfg heap headerPtr
      if insertHeader then
        some { heap with memory := heap.memory.insertFree heap.pool.freeList headerPtr }
      else some heap
    else none

/-- The branch of `rt_memheap_realloc` that expands the block into the free item behind
it. -/
def grow (heap : Heap) (headerPtr ptr oldsize newsize : Nat) : Heap :=
  let nextPtr := heap.memory.get headerPtr .next
  let heap := heap.decrease (Word32.sub heap.availableSize (Word32.sub newsize oldsize))
  let memory := heap.memory.removeFree nextPtr
  let memory := memory.set (memory.get nextPtr .next) .prev (memory.get nextPtr .prev)
  let memory := memory.set (memory.get nextPtr .prev) .next (memory.get nextPtr .next)
  let nextPtr := Word32.add ptr newsize
  let memory := memory.splitItem heap.pool.address headerPtr nextPtr
  { heap with memory := memory.insertFree heap.pool.freeList nextPtr }

/-- The branch of `rt_memheap_realloc` that cuts a free item off the block. -/
def shrink (heap : Heap) (headerPtr newsize : Nat) : Heap :=
  let newPtr := Word32.add (Word32.add headerPtr newsize) cfg.memheapSize
  let heap := { heap with memory := heap.memory.splitItem heap.pool.address headerPtr newPtr }
  let freePtr := heap.memory.get newPtr .next
  let heap :=
    if heap.memory.isUsed freePtr then heap
    else
      { heap with
        availableSize := Word32.sub heap.availableSize (heap.memory.memitemSize cfg freePtr)
        memory := heap.memory.mergeNext newPtr freePtr }
  let memory := heap.memory.insertFree heap.pool.freeList newPtr
  { heap with
    memory := memory
    availableSize := Word32.add heap.availableSize (memory.memitemSize cfg newPtr) }

def rtMemcpy (memory : Memory) (dst src count : Nat) : Memory := fun address =>
  if dst ≤ address ∧ address < dst + count then memory (src + (address - dst)) else memory address

def relocate (heap : Heap) (ptr oldsize newsize : Nat) : Option (Heap × Option Nat) :=
  (rtMemheapAlloc cfg heap newsize).bind fun (heap, newPtr) =>
    match newPtr with
    | none => some (heap, none)
    | some newPtr =>
      let count := if oldsize < newsize then oldsize else newsize
      (rtMemheapFree cfg { heap with memory := rtMemcpy heap.memory newPtr ptr count }
        (some ptr)).map fun heap => (heap, some newPtr)

def rtMemheapRealloc (heap : Heap) (ptr : Option Nat) (newsize : Nat) :
    Option (Heap × Option Nat) :=
  if newsize = 0 then (rtMemheapFree cfg heap ptr).map fun heap => (heap, none)
  else
    let newsize := cfg.request newsize
    match ptr with
    | none => rtMemheapAlloc cfg heap newsize
    | some ptr =>
      let headerPtr := Word32.sub ptr cfg.memheapSize
      let oldsize := heap.memory.memitemSize cfg headerPtr
      if oldsize < newsize then
        let nextPtr := heap.memory.get headerPtr .next
        if headerPtr < nextPtr then
          let nextsize := heap.memory.memitemSize cfg nextPtr
          if heap.memory.isUsed nextPtr = false ∧
              Word32.add newsize memheapMinialloc < Word32.add nextsize oldsize then
            some (grow heap headerPtr ptr oldsize newsize, some ptr)
          else relocate cfg heap ptr oldsize newsize
        else none
      else if oldsize ≤ Word32.add (Word32.add newsize cfg.memheapSize) memheapMinialloc then
        some (heap, some ptr)
      else some (shrink cfg heap headerPtr newsize, some ptr)

/-- The calls, and stores by the users of the live areas. -/
inductive Event where
  | alloc (size : Nat)
  | realloc (ptr : Option Nat) (newsize : Nat)
  | free (ptr : Option Nat)
  | store (address value : Nat)

/-- Rounding the request up to `RT_ALIGN_SIZE` does not wrap. -/
def NoWrap (size : Nat) : Prop := size + (cfg.alignSize - 1) < 2 ^ 32

instance (size : Nat) : Decidable (NoWrap cfg size) := inferInstanceAs (Decidable (_ < _))

namespace Heap

def Admits (heap : Heap) : Option Nat → Prop
  | none => True
  | some ptr => ptr ∈ heap.live

instance (heap : Heap) : (ptr : Option Nat) → Decidable (heap.Admits ptr)
  | none => .isTrue trivial
  | some ptr => inferInstanceAs (Decidable (ptr ∈ heap.live))

def areaEnd (heap : Heap) (ptr : Nat) : Nat :=
  heap.memory.get (Word32.sub ptr cfg.memheapSize) .next

/-- The word at `address` lies in a live user area. -/
def Stores (heap : Heap) (address : Nat) : Prop :=
  ∃ ptr ∈ heap.live, ptr ≤ address ∧ address + 4 ≤ heap.areaEnd cfg ptr

instance (heap : Heap) (address : Nat) : Decidable (heap.Stores cfg address) :=
  inferInstanceAs (Decidable (∃ ptr ∈ heap.live, _))

end Heap

def step (heap : Heap) : Event → Option Heap
  | .alloc size =>
    if NoWrap cfg size then (rtMemheapAlloc cfg heap size).map Prod.fst else none
  | .realloc ptr newsize =>
    if heap.Admits ptr ∧ NoWrap cfg newsize then
      (rtMemheapRealloc cfg heap ptr newsize).map Prod.fst
    else none
  | .free ptr => if heap.Admits ptr then rtMemheapFree cfg heap ptr else none
  | .store address value =>
    if heap.Stores cfg address then
      some { heap with memory := Function.update heap.memory address value }
    else none

/-- A heap that `rt_memheap_init` has set up with room for a block.  The pool lies within
the addresses, and `struct rt_memheap` outside of the pool. -/
def Initial (heap : Heap) : Prop :=
  ∃ memory address freeHeader startAddr size,
    cfg.memheapSize + cfg.memheapSize < cfg.rtAlignDown size ∧
      startAddr + size ≤ 2 ^ 32 ∧
      (freeHeader + itemLayout.size ≤ startAddr ∨ startAddr + size ≤ freeHeader) ∧
      size < 2 ^ 32 ∧
      heap = rtMemheapInit cfg memory address freeHeader startAddr size

def system : TransitionSystem Heap Event :=
  TransitionSystem.ofFunction (Initial cfg) (step cfg)

end RtThread.MemHeap
