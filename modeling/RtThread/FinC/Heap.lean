import Mathlib.Data.List.Chain
import RtThread.Library.Chain
import RtThread.Library.Words

/-!
# The heap of the shell

`finsh_heap.c`: first fit over a list of free blocks that is sorted by address, and a list of
allocated blocks whose unused members a collection returns.
-/

open Function (update update_of_ne update_self)

namespace RtThread.FinshHeap

def finshHeapMax : Nat := 128

def heapAlignment : Nat := 4

def headerSize : Nat := 8

/-- `finsh_heap` with its headers, `free_list` and `allocate_list`. -/
structure Heap where
  length : Nat → Nat
  next : Nat → Option Nat
  bytes : Nat → UInt8
  freeList : Option Nat
  allocateList : Option Nat

def heapAlignSize (size : Nat) : Nat :=
  Word32.maskDown (Word32.add size (heapAlignment - 1)) heapAlignment

def finshBlockGetData (header : Nat) : Nat := header + headerSize

def finshBlockGetHeader (data : Nat) : Nat := data - headerSize

structure Links where
  next : Nat → Option Nat
  list : Option Nat

def setNext (next : Nat → Option Nat) (node : Nat) (target : Option Nat) : Nat → Option Nat :=
  update next node target

/-- Where the loop of `finsh_block_insert` breaks. -/
def insertsBehind (next : Nat → Option Nat) (header node : Nat) : Bool :=
  match next node with
  | none => true
  | some following => decide (header < following)

/-- `if (node->next != NULL) header->next = node->next`. -/
def copyNext (next : Nat → Option Nat) (header node : Nat) : Nat → Option Nat :=
  match next node with
  | none => next
  | some following => setNext next header (some following)

def finshBlockInsert (links : Links) (header : Nat) : Option Links :=
  match links.list with
  | none => some { links with list := some header }
  | some node =>
    if header < node then
      some { next := setNext links.next header (some node), list := some header }
    else
      match walk links.next (insertsBehind links.next header) finshHeapMax links.list with
      | some (some node) =>
        some { links with next := setNext (copyNext links.next header node) node (some header) }
      | _ => none

def finshBlockRemove (links : Links) (header : Nat) : Option Links :=
  if links.list = some header then
    some { next := setNext links.next header none, list := links.next header }
  else
    match walk links.next (fun node => links.next node = some header) finshHeapMax links.list with
    | none => none
    | some none => some links
    | some (some node) => some { links with next := setNext links.next node (links.next header) }

def finshBlockSplit (heap : Heap) (header size : Nat) : Heap :=
  let next := header + headerSize + size
  { heap with
    length := update
      (update heap.length next (heap.length header - headerSize - size)) header size
    next := setNext (setNext heap.next next (heap.next header)) header (some next) }

def Heap.stop (heap : Heap) (header : Nat) : Nat := header + heap.length header + headerSize

def finshBlockMerge (heap : Heap) (header : Nat) : Option Heap :=
  let nextNode := heap.next header
  let prevNode :=
    if heap.freeList = some header then some none
    else walk heap.next (fun node => heap.next node = some header) finshHeapMax heap.freeList
  match prevNode with
  | none => none
  | some prevNode =>
    match prevNode.filter fun prev => heap.stop prev = header,
      nextNode.filter fun next => heap.stop header = next with
    | some prev, some next =>
      some
        { heap with
          length := update heap.length prev
            (heap.length prev + (heap.length header + heap.length next + 2 * headerSize))
          next := setNext heap.next prev (heap.next next) }
    | some prev, none =>
      some
        { heap with
          length := update heap.length prev
            (heap.length prev + (heap.length header + headerSize))
          next := setNext heap.next prev (heap.next header) }
    | none, some next =>
      some
        { heap with
          length := update heap.length header
            (heap.length header + (heap.length next + headerSize))
          next := setNext heap.next header (heap.next next) }
    | none, none => some heap

def finshHeapFree (heap : Heap) (ptr : Nat) : Option Heap :=
  let header := finshBlockGetHeader ptr
  match finshBlockRemove ⟨heap.next, heap.allocateList⟩ header with
  | none => none
  | some allocated =>
    match finshBlockInsert ⟨allocated.next, heap.freeList⟩ header with
    | none => none
    | some free =>
      finshBlockMerge
        { heap with
          next := free.next
          freeList := free.list
          allocateList := allocated.list }
        header

/-- The loop of `finsh_heap_gc`.  `referenced` says which data the variables point to. -/
def gcFrom (referenced : Nat → Bool) : Nat → Heap → Option Nat → Option Heap
  | _, heap, none => some heap
  | 0, _, some _ => none
  | fuel + 1, heap, some header =>
    let following := heap.next header
    if referenced (finshBlockGetData header) then gcFrom referenced fuel heap following
    else
      match finshHeapFree heap (finshBlockGetData header) with
      | none => none
      | some heap => gcFrom referenced fuel heap following

def finshHeapGc (referenced : Nat → Bool) (heap : Heap) : Option Heap :=
  gcFrom referenced finshHeapMax heap heap.allocateList

def firstFit (heap : Heap) (size : Nat) : Option (Option Nat) :=
  walk heap.next (fun header => Word32.add size headerSize < heap.length header) finshHeapMax
    heap.freeList

def secondFit (heap : Heap) (size : Nat) : Option (Option Nat) :=
  walk heap.next (fun header => Word32.add size headerSize ≤ heap.length header) finshHeapMax
    heap.freeList

/-- The block that `finsh_heap_allocate` takes, and the heap behind a collection if there was
one. -/
def finshHeapFit (referenced : Nat → Bool) (heap : Heap) (size : Nat) :
    Option (Heap × Option Nat) :=
  match firstFit heap size with
  | none => none
  | some (some header) => some (heap, some header)
  | some none =>
    match finshHeapGc referenced heap with
    | none => none
    | some heap => (secondFit heap size).map fun header => (heap, header)

def store (bytes : Nat → UInt8) (start : Nat) (cells : List UInt8) (address : Nat) : UInt8 :=
  if start ≤ address then cells.getD (address - start) (bytes address) else bytes address

/-- What `finsh_heap_allocate` does with the block it has found. -/
def takeBlock (heap : Heap) (header size : Nat) : Option (Heap × Nat) :=
  let heap := finshBlockSplit heap header size
  match finshBlockRemove ⟨heap.next, heap.freeList⟩ header with
  | none => none
  | some free =>
    match finshBlockInsert ⟨setNext free.next header none, heap.allocateList⟩ header with
    | none => none
    | some allocated =>
      some
        ({ heap with
           next := allocated.next
           bytes := store heap.bytes (finshBlockGetData header) (List.replicate size 0)
           freeList := free.list
           allocateList := allocated.list },
         finshBlockGetData header)

/-- `finsh_heap_allocate`: the heap, and the data unless there is no memory. -/
def finshHeapAllocate (referenced : Nat → Bool) (heap : Heap) (size : Nat) :
    Option (Heap × Option Nat) :=
  let size := heapAlignSize size
  match finshHeapFit referenced heap size with
  | none => none
  | some (heap, none) => some (heap, none)
  | some (heap, some header) =>
    (takeBlock heap header size).map fun (heap, ptr) => (heap, some ptr)

def finshHeapInit (m : Heap) : Heap where
  length := update m.length 0 (finshHeapMax - headerSize)
  next := update m.next 0 none
  bytes := fun _ => 0
  freeList := some 0
  allocateList := none

end RtThread.FinshHeap

/-!
## The blocks of the shell's heap

`Holds` says that the headers cut the heap into a list of blocks, that the two lists run through
the free and the allocated ones by address, that the topmost block is free and that no two free
blocks are adjacent.
-/

namespace RtThread.FinshHeap

section Lists

variable {links : Links} {lower upper : List Nat} {header : Nat}

theorem next_eq_head? {next : Nat → Option Nat} {start : Option Nat} {front rest : List Nat}
    {n : Nat} (chain : Chain next start (front ++ n :: rest)) : next n = rest.head? := by
  rw [List.append_cons] at chain
  exact (chain.next_of_append (by simp)).start_eq_head?

theorem find?_last {next : Nat → Option Nat} {start : Option Nat} {front rest : List Nat}
    {last : Nat} {stop : Nat → Bool} (chain : Chain next start (front ++ last :: rest))
    (inside : ∀ node following, next node = some following → following ∈ front ++ [last] →
      stop node = false)
    (stops : stop last = true) : (front ++ last :: rest).find? stop = some last := by
  have passed : front.find? stop = none := by
    refine List.find?_eq_none.mpr fun node mem => ?_
    obtain ⟨before, behind, rfl⟩ := List.append_of_mem mem
    rw [List.append_assoc, List.cons_append] at chain
    have link := next_eq_head? chain
    cases behind with
    | nil => simp [inside node last (by simpa using link)]
    | cons following behind => simp [inside node following (by simpa using link)]
  rw [List.find?_append, passed, Option.none_or, List.find?_cons_of_pos stops]

theorem copyNext_of_ne {next : Nat → Option Nat} {last n : Nat} (ne : n ≠ header) :
    copyNext next header last n = next n := by
  cases isNext : next last with
  | none => simp only [copyNext, isNext]
  | some following =>
    simp only [copyNext, isNext]
    exact update_of_ne ne ..

theorem insert_spec (chain : Chain links.next links.list (lower ++ upper))
    (nodup : (lower ++ upper).Nodup) (below : ∀ node ∈ lower, node < header)
    (above : ∀ node ∈ upper, header < node) (short : (lower ++ upper).length ≤ finshHeapMax)
    (linked : upper = [] → links.next header = none) :
    ∃ s', finshBlockInsert links header = some s' ∧
      Chain s'.next s'.list (lower ++ header :: upper) ∧
      ∀ node ∉ lower, node ≠ header → s'.next node = links.next node := by
  have outside : header ∉ lower ++ upper := by
    intro mem
    rcases List.mem_append.mp mem with inLower | inUpper
    · exact Nat.lt_irrefl _ (below _ inLower)
    · exact Nat.lt_irrefl _ (above _ inUpper)
  cases lower.eq_nil_or_concat with
  | inl empty =>
    subst empty
    cases upper with
    | nil =>
      have isNull : links.list = none := chain
      exact ⟨{ links with list := some header }, by simp [finshBlockInsert, isNull],
        ⟨rfl, linked rfl⟩, fun _ _ _ => rfl⟩
    | cons first rest =>
      have isFirst : links.list = some first := chain.1
      refine ⟨{ next := setNext links.next header (some first), list := some header },
        by simp [finshBlockInsert, isFirst, above first List.mem_cons_self], ?_, ?_⟩
      · rw [isFirst] at chain
        exact chain.push outside
      · exact fun node _ ne => update_of_ne ne ..
  | inr concat =>
    obtain ⟨front, last, isConcat⟩ := concat
    rw [List.concat_eq_append] at isConcat
    subst isConcat
    have isLast : (front ++ [last]).getLast? = some last := by simp
    have lastLink : links.next last = upper.head? := by
      rw [List.append_assoc, List.singleton_append] at chain
      exact next_eq_head? chain
    obtain ⟨first, isFirst, notBelow⟩ : ∃ first, links.list = some first ∧ ¬ header < first := by
      rw [chain.start_eq_head?]
      cases front with
      | nil => exact ⟨last, rfl, Nat.not_lt.mpr (below last (by simp)).le⟩
      | cons first rest => exact ⟨first, rfl, Nat.not_lt.mpr (below first (by simp)).le⟩
    have walked := chain.walk_eq (insertsBehind links.next header) short
    rw [List.append_assoc, List.singleton_append] at walked chain
    rw [find?_last chain
      (fun node following link inside => by
        simpa [insertsBehind, link] using (below following inside).le)
      (by
        rw [insertsBehind, lastLink]
        cases upper with
        | nil => rfl
        | cons second rest => simpa using above second List.mem_cons_self)] at walked
    have ne : header ≠ last := fun same => outside (by simp [same])
    refine ⟨{ links with
      next := setNext (copyNext links.next header last) last (some header) }, ?_, ?_, ?_⟩
    · simp only [finshBlockInsert, isFirst, notBelow, if_false]
      rw [← isFirst, walked]
    · have copied : copyNext links.next header last header = links.next last := by
        cases isNext : links.next last with
        | none =>
          simp only [copyNext, isNext]
          exact linked (List.head?_eq_none_iff.mp (lastLink.symm.trans isNext))
        | some following =>
          simp only [copyNext, isNext]
          exact update_self ..
      have chain' : Chain (copyNext links.next header last) links.list
          ((front ++ [last]) ++ upper) := by
        rw [List.append_assoc, List.singleton_append]
        refine chain.congr fun node mem => copyNext_of_ne fun same => outside ?_
        simpa [same] using mem
      exact chain'.insert nodup isLast outside (copied.trans (copyNext_of_ne ne.symm).symm)
    · intro node notLower notHeader
      have notLast : node ≠ last := fun same => notLower (by simp [same])
      exact (update_of_ne notLast ..).trans (copyNext_of_ne notHeader)

theorem absent_of_nodup (nodup : (lower ++ header :: upper).Nodup) : header ∉ lower :=
  fun inside => (List.nodup_append.mp nodup).2.2 header inside header List.mem_cons_self rfl

theorem list_ne_of_absent {front : List Nat} {last : Nat}
    (chain : Chain links.next links.list (front ++ [last] ++ upper))
    (absent : header ∉ front ++ [last]) : links.list ≠ some header := by
  rw [chain.start_eq_head?]
  cases front with
  | nil => simpa using fun same : last = header => absent (by simp [same])
  | cons a rest => simpa using fun same : a = header => absent (by simp [same])

theorem remove_spec (chain : Chain links.next links.list (lower ++ header :: upper))
    (nodup : (lower ++ header :: upper).Nodup)
    (short : (lower ++ header :: upper).length ≤ finshHeapMax) :
    ∃ s', finshBlockRemove links header = some s' ∧ Chain s'.next s'.list (lower ++ upper) ∧
      ∀ node ∉ lower, node ≠ header → s'.next node = links.next node := by
  cases lower.eq_nil_or_concat with
  | inl empty =>
    subst empty
    have isFirst : links.list = some header := chain.1
    refine ⟨{ next := setNext links.next header none, list := links.next header },
      by simp [finshBlockRemove, isFirst], ?_, fun _ _ ne => update_of_ne ne ..⟩
    exact chain.2.update (List.nodup_cons.mp nodup).1 _
  | inr concat =>
    obtain ⟨front, last, isConcat⟩ := concat
    rw [List.concat_eq_append] at isConcat
    subst isConcat
    have isLast : (front ++ [last]).getLast? = some last := by simp
    have absent := absent_of_nodup nodup
    have notFirst := list_ne_of_absent chain absent
    have walked := chain.walk_eq (fun node => decide (links.next node = some header)) short
    have chain' := chain
    rw [List.append_assoc, List.singleton_append] at walked chain'
    rw [find?_last chain'
      (fun node following isNext inside => by
        simpa [isNext] using fun same : following = header => absent (same ▸ inside))
      (by simp [next_eq_head? chain'])] at walked
    refine ⟨{ links with next := setNext links.next last (links.next header) }, ?_,
      chain.unlink nodup isLast, fun node notLower _ => ?_⟩
    · simp only [finshBlockRemove, notFirst, if_false]
      rw [walked]
    · exact update_of_ne (fun same => notLower (by simp [same])) ..

end Lists

structure HeapBlock where
  start : Nat
  length : Nat
  free : Bool

def HeapBlock.stop (block : HeapBlock) : Nat := block.start + block.length + headerSize

/-- The blocks stand one behind the other from `start` to `stop`. -/
def Tiled : Nat → List HeapBlock → Nat → Prop
  | start, [], stop => start = stop
  | start, block :: rest, stop => block.start = start ∧ Tiled block.stop rest stop

def starts (free : Bool) (bs : List HeapBlock) : List Nat :=
  (bs.filter (·.free = free)).map HeapBlock.start

def Apart (bs : List HeapBlock) : Prop :=
  bs.IsChain fun first second => ¬ (first.free = true ∧ second.free = true)

section Blocks

variable {start stop : Nat} {bs front rear : List HeapBlock} {block : HeapBlock} {free : Bool}

theorem HeapBlock.start_lt_stop (block : HeapBlock) : block.start < block.stop := by
  simp only [HeapBlock.stop, headerSize]
  omega

theorem tiled_append : Tiled start (front ++ rear) stop ↔
    ∃ middle, Tiled start front middle ∧ Tiled middle rear stop := by
  induction front generalizing start with
  | nil => simp [Tiled]
  | cons block front ih => simp [Tiled, ih, and_assoc]

theorem Tiled.le (tiled : Tiled start bs stop) : start + headerSize * bs.length ≤ stop ∧
      ∀ block ∈ bs, start ≤ block.start ∧ block.stop ≤ stop := by
  induction bs generalizing start with
  | nil => exact ⟨Nat.le_of_eq (by simpa [Tiled] using tiled), by simp⟩
  | cons block bs ih =>
    obtain ⟨rfl, tiled⟩ := tiled
    obtain ⟨room, bounds⟩ := ih tiled
    have room' : block.stop = block.start + block.length + headerSize := rfl
    refine ⟨by simp only [List.length_cons, headerSize] at *; omega, ?_⟩
    intro u mem
    rcases List.mem_cons.mp mem with rfl | later
    · simp only [headerSize] at room
      exact ⟨le_rfl, by omega⟩
    · have := bounds u later
      omega

theorem Tiled.pairwise (tiled : Tiled start bs stop) :
    bs.Pairwise fun a second => a.stop ≤ second.start := by
  induction bs generalizing start with
  | nil => exact .nil
  | cons block bs ih =>
    exact .cons (fun u later => (tiled.2.le.2 u later).1) (ih tiled.2)

theorem Tiled.sorted (tiled : Tiled start bs stop) : (bs.map HeapBlock.start).Pairwise (· < ·) :=
  List.pairwise_map.mpr (tiled.pairwise.imp fun before =>
    (HeapBlock.start_lt_stop _).trans_le before)

@[simp] theorem starts_append :
    starts free (front ++ rear) = starts free front ++ starts free rear := by
  simp [starts]

theorem starts_cons_self :
    starts block.free (block :: rear) = block.start :: starts block.free rear := by
  simp [starts]

theorem starts_cons_of_ne (ne : block.free ≠ free) :
    starts free (block :: rear) = starts free rear := by
  simp [starts, ne]

theorem mem_starts {n : Nat} : n ∈ starts free bs ↔
    ∃ block ∈ bs, block.free = free ∧ block.start = n := by
  simp [starts, and_assoc]

theorem starts_sublist : (starts free bs).Sublist (bs.map HeapBlock.start) :=
  List.filter_sublist.map _

theorem length_starts_le : (starts free bs).length ≤ bs.length := by
  simpa using (@starts_sublist bs free).length_le

theorem Tiled.around (tiled : Tiled start (front ++ block :: rear) stop) :
    (∀ n ∈ starts free front, n < block.start) ∧ (∀ n ∈ starts free rear, block.stop ≤ n) := by
  obtain ⟨-, behind, across⟩ := List.pairwise_append.mp tiled.pairwise
  constructor
  · intro n mem
    obtain ⟨u, inFront, -, rfl⟩ := mem_starts.mp mem
    exact u.start_lt_stop.trans_le (across u inFront block List.mem_cons_self)
  · intro n mem
    obtain ⟨u, inRear, -, rfl⟩ := mem_starts.mp mem
    exact (List.pairwise_cons.mp behind).1 u inRear

end Blocks

/-- The headers and the lists describe `bs`. -/
structure Listed (heap : Heap) (bs : List HeapBlock) : Prop where
  tiled : Tiled 0 bs finshHeapMax
  length : ∀ block ∈ bs, heap.length block.start = block.length
  free : Chain heap.next heap.freeList (starts true bs)
  used : Chain heap.next heap.allocateList (starts false bs)

structure Holds (heap : Heap) (bs : List HeapBlock) : Prop extends Listed heap bs where
  top : ∃ last, bs.getLast? = some last ∧ last.free = true
  apart : Apart bs

variable {heap : Heap} {bs front rear : List HeapBlock} {block : HeapBlock} {free : Bool}

section

variable (tiled : Tiled 0 bs finshHeapMax)

include tiled

theorem Tiled.short : (starts free bs).length ≤ finshHeapMax := by
  have room := tiled.le.1
  have fewer := @length_starts_le bs free
  simp only [headerSize] at *
  omega

theorem Tiled.nodup : (starts free bs).Nodup :=
  (tiled.sorted.sublist starts_sublist).imp Nat.ne_of_lt

theorem Tiled.eq_of_start {a second : HeapBlock} (isFirst : a ∈ bs) (isSecond : second ∈ bs)
    (same : a.start = second.start) : a = second :=
  List.inj_on_of_nodup_map (tiled.sorted.imp Nat.ne_of_lt) isFirst isSecond same

theorem Tiled.separate {a second : HeapBlock} (isFirst : a ∈ bs) (isSecond : second ∈ bs)
    (ne : a ≠ second) : a.stop ≤ second.start ∨ second.stop ≤ a.start := by
  have symm : Std.Symm fun a second : HeapBlock =>
      a.stop ≤ second.start ∨ second.stop ≤ a.start := ⟨fun _ _ => Or.symm⟩
  have either : bs.Pairwise fun a second =>
      a.stop ≤ second.start ∨ second.stop ≤ a.start := tiled.pairwise.imp .inl
  exact either.forall isFirst isSecond ne

theorem Tiled.disjoint {n : Nat} (inFree : n ∈ starts true bs) : n ∉ starts false bs := by
  intro inUsed
  obtain ⟨a, isFirst, isFree, rfl⟩ := mem_starts.mp inFree
  obtain ⟨second, isSecond, isUsed, same⟩ := mem_starts.mp inUsed
  obtain rfl := tiled.eq_of_start isFirst isSecond same.symm
  exact absurd (isFree.symm.trans isUsed) (by decide)

end

theorem Tiled.flag {start stop : Nat} (tiled : Tiled start (front ++ block :: rear) stop)
    (free : Bool) : Tiled start (front ++ { block with free := free } :: rear) stop := by
  obtain ⟨middle, isFront, isBlock, isRear⟩ := tiled_append.mp tiled
  exact tiled_append.mpr ⟨middle, isFront, isBlock, isRear⟩

def remainderOf (block : HeapBlock) (size : Nat) : HeapBlock where
  start := block.start + headerSize + size
  length := block.length - headerSize - size
  free := true

def splitBlocks (front : List HeapBlock) (block : HeapBlock) (size : Nat) (free : Bool)
    (rear : List HeapBlock) : List HeapBlock :=
  front ++ { block with length := size, free := free } :: remainderOf block size :: rear

theorem Tiled.split {start stop : Nat} (tiled : Tiled start (front ++ block :: rear) stop)
    {n : Nat} (fits : n + headerSize ≤ block.length) (free : Bool) :
    Tiled start (splitBlocks front block n free rear) stop := by
  obtain ⟨middle, isFront, isBlock, isRear⟩ := tiled_append.mp tiled
  refine tiled_append.mpr ⟨middle, isFront, isBlock, ?_, ?_⟩
  · simp only [remainderOf, HeapBlock.stop]
    omega
  · have same : (remainderOf block n).stop = block.stop := by
      simp only [remainderOf, HeapBlock.stop]
      omega
    rwa [same]

theorem starts_splitBlocks (n : Nat) (free u : Bool) :
    starts u (splitBlocks front block n free rear) =
      starts u front ++ (if free = u then [block.start] else []) ++
        (if u = true then [(remainderOf block n).start] else []) ++ starts u rear := by
  cases free <;> cases u <;> simp [splitBlocks, starts, remainderOf]

theorem Apart.split (apart : Apart (front ++ block :: rear)) (isFree : block.free = true)
    (n : Nat) : Apart (splitBlocks front block n false rear) := by
  obtain ⟨isFront, isRear, across⟩ := (List.isChain_append).mp apart
  refine (List.isChain_append).mpr ⟨isFront, ?_, by simp⟩
  refine .cons_cons (by simp) ?_
  cases rear with
  | nil => exact .singleton _
  | cons second rear =>
    obtain ⟨notBoth, isRear⟩ := List.isChain_cons_cons.mp isRear
    exact .cons_cons (by simp_all) isRear

section

variable (holds : Holds heap (front ++ block :: rear))

include holds

theorem split_lists (isFree : block.free = true) {n : Nat} (fits : n + headerSize ≤ block.length) :
    Chain (finshBlockSplit heap block.start n).next heap.freeList
        (starts true front ++ block.start :: (remainderOf block n).start :: starts true rear) ∧
      Chain (finshBlockSplit heap block.start n).next heap.allocateList
        (starts false front ++ starts false rear) := by
  have tiled := holds.tiled.split fits true
  have nodup : (starts true (splitBlocks front block n true rear)).Nodup := tiled.nodup
  have disjoint := fun node => @Tiled.disjoint _ tiled node
  simp only [starts_splitBlocks,
    List.append_assoc] at nodup disjoint
  have free := holds.free
  have used := holds.used
  rw [starts_append, ← isFree, starts_cons_self, isFree] at free
  rw [starts_append, starts_cons_of_ne (by simp [isFree])] at used
  have outside : (remainderOf block n).start ∉
      starts true front ++ block.start :: starts true rear := by
    have perm : (starts true front ++ block.start :: (remainderOf block n).start ::
        starts true rear).Perm ((remainderOf block n).start ::
          (starts true front ++ block.start :: starts true rear)) := by
      simpa using @List.perm_middle _ (remainderOf block n).start
        (starts true front ++ [block.start]) (starts true rear)
    exact (List.nodup_cons.mp (perm.nodup_iff.mp nodup)).1
  constructor
  · have chain := free.update outside (heap.next block.start)
    rw [List.append_cons] at chain outside ⊢
    have ne : (remainderOf block n).start ≠ block.start := fun same =>
      outside (by simp [same])
    refine chain.insert ?_ (by simp) outside ?_
    · simpa [← isFree, starts_cons_self] using
        (@Tiled.nodup _ block.free holds.tiled)
    · exact (update_self ..).trans (update_of_ne ne.symm ..).symm
  · have blockOutside := disjoint block.start (by simp)
    have remainderOutside := disjoint (remainderOf block n).start (by simp)
    exact (used.update remainderOutside _).update blockOutside _

theorem split_length {n : Nat} (fits : n + headerSize ≤ block.length) :
    ∀ u ∈ splitBlocks front block n false rear,
      (finshBlockSplit heap block.start n).length u.start = u.length := by
  have tiled := holds.tiled.split fits false
  have blockMember : { block with length := n, free := false } ∈
      splitBlocks front block n false rear := by simp [splitBlocks]
  have remainderMember : remainderOf block n ∈ splitBlocks front block n false rear := by
    simp [splitBlocks]
  have isLength := holds.length block (by simp)
  intro u mem
  by_cases isBlock : u.start = block.start
  · obtain rfl := tiled.eq_of_start mem blockMember isBlock
    simp [finshBlockSplit]
  · by_cases isRemainder : u.start = (remainderOf block n).start
    · obtain rfl := tiled.eq_of_start mem remainderMember isRemainder
      rw [finshBlockSplit]
      simp only
      rw [update_of_ne isBlock]
      exact (update_self ..).trans (by rw [isLength]; rfl)
    · have kept : u ∈ front ∨ u ∈ rear := by
        simp only [splitBlocks, List.mem_append, List.mem_cons] at mem
        rcases mem with inFront | rfl | rfl | inRear
        · exact .inl inFront
        · exact absurd rfl isBlock
        · exact absurd rfl isRemainder
        · exact .inr inRear
      rw [finshBlockSplit]
      simp only
      rw [update_of_ne isBlock]
      refine (update_of_ne isRemainder ..).trans (holds.length u ?_)
      rcases kept with inFront | inRear <;> simp [*]

theorem takeBlock_spec (isFree : block.free = true) {n : Nat}
    (fits : n + headerSize ≤ block.length) :
    
    ∃ s', takeBlock heap block.start n = some (s', block.start + headerSize) ∧
      Holds s' (splitBlocks front block n false rear) ∧
      s'.bytes = store heap.bytes (block.start + headerSize) (List.replicate n 0) := by
  obtain ⟨free, used⟩ := split_lists holds isFree fits
  have tiled := holds.tiled.split fits true
  have nodup : (starts true (splitBlocks front block n true rear)).Nodup := tiled.nodup
  have short : (starts true (splitBlocks front block n true rear)).length ≤ finshHeapMax :=
    tiled.short
  have disjoint := fun node => @Tiled.disjoint _ tiled node
  have shortUsed : (starts false (front ++ block :: rear)).length ≤ finshHeapMax :=
    holds.tiled.short
  have nodupUsed : (starts false (front ++ block :: rear)).Nodup := holds.tiled.nodup
  obtain ⟨below, above⟩ := @Tiled.around _ _ _ _ _ false holds.tiled
  rw [starts_append, starts_cons_of_ne (by simp [isFree])] at shortUsed nodupUsed
  simp only [starts_splitBlocks,
    List.append_assoc] at nodup short disjoint
  obtain ⟨removed, isRemoved, free, kept⟩ := @remove_spec
    ⟨(finshBlockSplit heap block.start n).next, heap.freeList⟩ _ _ _ free nodup short
  have usedKept : ∀ node ∈ starts false front ++ starts false rear,
      setNext removed.next block.start none node =
        (finshBlockSplit heap block.start n).next node := by
    intro node mem
    have notFree : node ∉ starts true front ++
        block.start :: (remainderOf block n).start :: starts true rear :=
      fun inFree => disjoint node inFree mem
    have notBlock : node ≠ block.start := fun same => notFree (by simp [same])
    have notFront : node ∉ starts true front := fun inFront => notFree (by simp [inFront])
    exact (update_of_ne notBlock ..).trans (kept node notFront notBlock)
  have used := used.congr usedKept
  obtain ⟨inserted, isInserted, used, kept'⟩ := @insert_spec
    ⟨setNext removed.next block.start none, heap.allocateList⟩ _ _ block.start used nodupUsed below
    (fun node inRear => block.start_lt_stop.trans_le (above node inRear)) shortUsed
    (fun _ => update_self ..)
  have blockNotFree : block.start ∉ starts true front ++ (remainderOf block n).start ::
      starts true rear := by
    have perm : (starts true front ++ block.start :: (remainderOf block n).start ::
        starts true rear).Perm (block.start :: (starts true front ++
          (remainderOf block n).start :: starts true rear)) := List.perm_middle
    exact (List.nodup_cons.mp (perm.nodup_iff.mp nodup)).1
  have free : Chain inserted.next removed.list
      (starts true front ++ (remainderOf block n).start :: starts true rear) := by
    refine (free.update blockNotFree none).congr fun node mem => ?_
    have notBlock : node ≠ block.start := fun same => blockNotFree (same ▸ mem)
    refine kept' node (fun inFront => disjoint node ?_ (List.mem_append_left _ inFront)) notBlock
    rcases List.mem_append.mp mem with inFree | inFree
    · exact List.mem_append_left _ inFree
    · exact List.mem_append_right _ (List.mem_cons_of_mem _ inFree)
  have isRemoved : finshBlockRemove ⟨(finshBlockSplit heap block.start n).next,
      (finshBlockSplit heap block.start n).freeList⟩ block.start = some removed := isRemoved
  have isInserted : finshBlockInsert ⟨setNext removed.next block.start none,
      (finshBlockSplit heap block.start n).allocateList⟩ block.start = some inserted := isInserted
  refine ⟨{ finshBlockSplit heap block.start n with
    next := inserted.next
    bytes := store heap.bytes (block.start + headerSize) (List.replicate n 0)
    freeList := removed.list
    allocateList := inserted.list }, ?_, ⟨⟨?_, ?_, ?_, ?_⟩, ?_, ?_⟩, rfl⟩
  · simp only [takeBlock, isRemoved, isInserted]
    rfl
  · exact holds.tiled.split fits false
  · exact split_length holds fits
  · simpa [starts_splitBlocks] using free
  · simpa [starts_splitBlocks] using used
  · obtain ⟨last, isLast, lastFree⟩ := holds.top
    cases rear with
    | nil => exact ⟨remainderOf block n, by simp [splitBlocks], rfl⟩
    | cons second rear => exact ⟨last, by simpa [splitBlocks] using isLast, lastFree⟩
  · exact holds.apart.split isFree n

end

end RtThread.FinshHeap
