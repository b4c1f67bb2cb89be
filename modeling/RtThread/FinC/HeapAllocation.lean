import RtThread.FinC.HeapRelease
import RtThread.Library.TransitionSystem

/-!
# Every run of the shell's heap

Allocations, collections and frees of live blocks in any order: the two lists stay sorted and
apart, their blocks tile the heap, no two free blocks are adjacent, and a block that an
allocation returned has room for what was asked and overlaps no other live block.
-/

open TransitionSystem

namespace RtThread.FinshHeap

variable {heap : Heap} {bs front rear : List HeapBlock} {b : HeapBlock}
  {referenced : Nat → Bool} {size : Nat}

def NoWrap (size : Nat) : Prop :=
  size + (heapAlignment - 1) < 2 ^ 32 ∧ heapAlignSize size + headerSize < 2 ^ 32

instance : Decidable (NoWrap size) := instDecidableAnd

theorem NoWrap.le (small : NoWrap size) : size ≤ heapAlignSize size :=
  (@Word32.le_alignUp size 2 small.1 (by decide)).1

def Collects (heap : Heap) (size : Nat) : Prop := firstFit heap (heapAlignSize size) = some none

instance : Decidable (Collects heap size) :=
  inferInstanceAs (Decidable (firstFit heap (heapAlignSize size) = some none))

theorem Holds.scan (holds : Holds heap bs) (stop : Nat → Bool) :
    ∃ found, walk heap.next stop finshHeapMax heap.freeList = some found ∧
      ∀ header ∈ found, ∃ front b rear, bs = front ++ b :: rear ∧
        b.free = true ∧ b.start = header ∧ stop header = true := by
  refine ⟨_, holds.free.walk_eq stop holds.tiled.short, fun header isFound => ?_⟩
  obtain ⟨b, mem, isFree, isHeader⟩ := mem_starts.mp (List.mem_of_find?_eq_some isFound)
  obtain ⟨front, rear, isBlocks⟩ := List.append_of_mem mem
  exact ⟨front, b, rear, isBlocks, isFree, isHeader, List.find?_some isFound⟩

theorem finshHeapFit_spec (holds : Holds heap bs) (small : size + headerSize < 2 ^ 32) :
    ∃ middle blocks' found, finshHeapFit referenced heap size = some (middle, found) ∧
      Holds middle blocks' ∧ middle.bytes = heap.bytes ∧
      usedBlocks blocks' = (usedBlocks bs).filter (fun b =>
        decide (firstFit heap size ≠ some none) || isReferenced referenced b) ∧
      ∀ header ∈ found, ∃ front b rear, blocks' = front ++ b :: rear ∧
        b.free = true ∧ b.start = header ∧ size + headerSize ≤ b.length := by
  obtain ⟨found, a, fits⟩ := holds.scan fun header =>
    decide (Word32.add size headerSize < heap.length header)
  have isFirst : firstFit heap size = some found := a
  cases found with
  | some header =>
    refine ⟨heap, bs, some header, by simp [finshHeapFit, isFirst], holds, rfl, ?_, ?_⟩
    · simp [isFirst]
    · rintro _ ⟨⟩
      obtain ⟨front, b, rear, rfl, isFree, rfl, long⟩ := fits header rfl
      refine ⟨front, b, rear, rfl, isFree, rfl, ?_⟩
      rw [Word32.add_eq small, holds.length b (by simp), decide_eq_true_eq] at long
      exact long.le
  | none =>
    obtain ⟨middle, blocks', collected, holds, used, bytes⟩ :=
      @finshHeapGc_spec _ _ referenced holds
    obtain ⟨found, second, fits⟩ := holds.scan fun header =>
      decide (Word32.add size headerSize ≤ middle.length header)
    have isSecond : secondFit middle size = some found := second
    refine ⟨middle, blocks', found, by simp [finshHeapFit, isFirst, collected, isSecond], holds,
      bytes, ?_, fun header isFound => ?_⟩
    · simpa [isFirst] using used
    · obtain ⟨front, b, rear, rfl, isFree, rfl, long⟩ := fits header isFound
      refine ⟨front, b, rear, rfl, isFree, rfl, ?_⟩
      rwa [Word32.add_eq small, holds.length b (by simp), decide_eq_true_eq] at long

def allocatedBlock (start size : Nat) : HeapBlock where
  start := start
  length := heapAlignSize size
  free := false

theorem usedBlocks_without (tiled : Tiled 0 (front ++ b :: rear) finshHeapMax)
    (isUsed : b.free = false) : ((usedBlocks (front ++ b :: rear)).filter fun u =>
        decide (finshBlockGetData u.start ≠ finshBlockGetData b.start)) =
      usedBlocks front ++ usedBlocks rear := by
  obtain ⟨before, behind⟩ := @Tiled.around _ _ _ _ _ false tiled
  rw [usedBlocks_append, usedBlocks_cons_used isUsed, List.filter_append,
    List.filter_cons_of_neg (by simp), List.filter_eq_self.mpr, List.filter_eq_self.mpr]
  · intro u inRear
    have far := behind u.start (List.mem_map_of_mem inRear)
    have less := b.start_lt_stop
    exact decide_eq_true fun same => by
      have same := Nat.add_right_cancel same
      omega
  · intro u inFront
    have near := before u.start (List.mem_map_of_mem inFront)
    exact decide_eq_true fun same => by
      have same := Nat.add_right_cancel same
      omega

theorem finshHeapAllocate_spec (holds : Holds heap bs) (small : NoWrap size) :
    ∃ after blocks' answer, finshHeapAllocate referenced heap size = some (after, answer) ∧
      Holds after blocks' ∧ (usedBlocks blocks').Perm
        ((answer.map fun ptr => allocatedBlock (finshBlockGetHeader ptr) size).toList ++
          (usedBlocks bs).filter fun b =>
            decide (¬ Collects heap size) || isReferenced referenced b) ∧
      (∀ ptr ∈ answer, headerSize ≤ ptr) ∧ after.bytes = answer.elim heap.bytes fun ptr =>
        store heap.bytes ptr (List.replicate (heapAlignSize size) 0) := by
  obtain ⟨middle, blocks', found, isFound, holds, bytes, used, fits⟩ :=
    @finshHeapFit_spec _ _ referenced _ holds small.2
  cases found with
  | none =>
    refine ⟨middle, blocks', none, by simp [finshHeapAllocate, isFound], holds, ?_, by simp, bytes⟩
    rw [used]
    exact .refl _
  | some header =>
    obtain ⟨front, b, rear, rfl, isFree, rfl, long⟩ := fits header rfl
    obtain ⟨after, taken, holds, stored⟩ := takeBlock_spec holds isFree long
    refine ⟨after, _, some (b.start + headerSize), ?_, holds, ?_, ?_,
      stored.trans (by rw [bytes]; rfl)⟩
    · simp only [finshHeapAllocate, isFound, taken, Option.map_some]
    · rw [usedBlocks_append, usedBlocks_cons_free isFree, ← usedBlocks_append] at used
      have isBlock : ({ b with length := heapAlignSize size, free := false } : HeapBlock) =
          allocatedBlock (finshBlockGetHeader (b.start + headerSize)) size := by
        simp [allocatedBlock, finshBlockGetHeader]
      rw [splitBlocks, usedBlocks_append, usedBlocks_cons_used rfl, usedBlocks_cons_free rfl]
      refine List.perm_middle.trans ?_
      rw [← usedBlocks_append, used, isBlock]
      exact .refl _
    · rintro _ ⟨⟩
      exact Nat.le_add_left ..

/-- The heap, and the data that are live with the sizes asked for. -/
structure Session where
  heap : Heap
  live : List (Nat × Nat)

inductive HeapEvent where
  | allocate (size : Nat) (referenced : Nat → Bool)
  | free (ptr : Nat)
  | collect (referenced : Nat → Bool)

def collectLive (referenced : Nat → Bool) (live : List (Nat × Nat)) : List (Nat × Nat) :=
  live.filter fun (ptr, _) => referenced ptr

def allocateStep (session : Session) (size : Nat) (referenced : Nat → Bool) : Option Session :=
  let live :=
    if Collects session.heap size then collectLive referenced session.live else session.live
  (finshHeapAllocate referenced session.heap size).map fun (heap, answer) =>
    { heap, live := (answer.map fun ptr => (ptr, size)).toList ++ live }

def freeStep (session : Session) (ptr : Nat) : Option Session :=
  (finshHeapFree session.heap ptr).map fun heap =>
    { heap, live := session.live.filter fun (u, _) => u ≠ ptr }

def collectStep (session : Session) (referenced : Nat → Bool) : Option Session :=
  (finshHeapGc referenced session.heap).map fun heap =>
    { heap, live := collectLive referenced session.live }

def heapStep (session : Session) : HeapEvent → Option Session
  | .allocate size referenced => allocateStep session size referenced
  | .free ptr => freeStep session ptr
  | .collect referenced => collectStep session referenced

def heapSystem : TransitionSystem Session HeapEvent :=
  .ofFunction (fun session => ∃ m, session = ⟨finshHeapInit m, []⟩) heapStep

/-- The sizes do not wrap, and only live data are freed. -/
def Allowed (session : Session) : HeapEvent → Prop
  | .allocate size _ => NoWrap size
  | .free ptr => ptr ∈ session.live.map Prod.fst
  | .collect _ => True

instance (session : Session) : (e : HeapEvent) → Decidable (Allowed session e)
  | .allocate size _ => inferInstanceAs (Decidable (NoWrap size))
  | .free ptr => inferInstanceAs (Decidable (ptr ∈ session.live.map Prod.fst))
  | .collect _ => .isTrue trivial

/-- The lists, the headers and the live data of a heap that is cut into `bs`. -/
structure SoundWith (session : Session) (bs : List HeapBlock) : Prop where
  free : Chain session.heap.next session.heap.freeList (starts true bs)
  used : Chain session.heap.next session.heap.allocateList (starts false bs)
  freeSorted : (starts true bs).Pairwise (· < ·)
  usedSorted : (starts false bs).Pairwise (· < ·)
  disjoint : (starts true bs).Disjoint (starts false bs)
  length : ∀ b ∈ bs, session.heap.length b.start = b.length
  tiled : Tiled 0 bs finshHeapMax
  apart : Apart bs
  all : (session.live.map Prod.fst).Perm ((starts false bs).map finshBlockGetData)
  room : ∀ entry ∈ session.live, ∃ b ∈ bs, b.free = false ∧
    finshBlockGetData b.start = entry.1 ∧ entry.2 ≤ b.length
  separate : session.live.Pairwise fun first second =>
    first.1 + first.2 ≤ second.1 ∨ second.1 + second.2 ≤ first.1

def Sound (session : Session) : Prop := ∃ bs, SoundWith session bs

/-- The live data are those of the allocated blocks, and each has room. -/
structure Owned (live : List (Nat × Nat)) (used : List HeapBlock) : Prop where
  all : (live.map Prod.fst).Perm (used.map fun b => finshBlockGetData b.start)
  room : ∀ entry ∈ live, ∃ b ∈ used, finshBlockGetData b.start = entry.1 ∧ entry.2 ≤ b.length

structure Kept (session : Session) (bs : List HeapBlock) : Prop where
  holds : Holds session.heap bs
  owned : Owned session.live (usedBlocks bs)

variable {session after : Session} {live : List (Nat × Nat)} {used : List HeapBlock}

theorem mem_usedBlocks : b ∈ usedBlocks bs ↔ b ∈ bs ∧ b.free = false := by
  simp [usedBlocks]

theorem Owned.filter (owned : Owned live used) (keeps : Nat → Bool) :
    Owned (live.filter fun (ptr, _) => keeps ptr)
      (used.filter fun b => keeps (finshBlockGetData b.start)) where
  all := by
    have perm := owned.all.filter keeps
    rwa [List.filter_map, List.filter_map] at perm
  room := by
    intro e mem
    obtain ⟨isLive, isKept⟩ := List.mem_filter.mp mem
    obtain ⟨b, isUsed, data, fits⟩ := owned.room e isLive
    exact ⟨b, List.mem_filter.mpr ⟨isUsed, by rw [data]; exact isKept⟩, data, fits⟩

theorem Owned.cons (owned : Owned live used) {ptr size : Nat} (behind : headerSize ≤ ptr)
    (small : NoWrap size) :
    Owned ((ptr, size) :: live) (allocatedBlock (finshBlockGetHeader ptr) size :: used) := by
  have data : finshBlockGetData (allocatedBlock (finshBlockGetHeader ptr) size).start = ptr :=
    Nat.sub_add_cancel behind
  constructor
  · rw [List.map_cons, List.map_cons, data]
    exact owned.all.cons ptr
  · intro e mem
    rcases List.mem_cons.mp mem with rfl | earlier
    · exact ⟨_, List.mem_cons_self, data, small.le⟩
    · obtain ⟨b, isUsed, owns⟩ := owned.room e earlier
      exact ⟨b, List.mem_cons_of_mem _ isUsed, owns⟩

theorem Owned.perm (owned : Owned live used) {others : List HeapBlock} (perm : others.Perm used) :
    Owned live others where
  all := owned.all.trans (perm.map _).symm
  room := by
    intro e mem
    obtain ⟨b, isUsed, owns⟩ := owned.room e mem
    exact ⟨b, perm.mem_iff.mpr isUsed, owns⟩

theorem Tiled.data_separate (tiled : Tiled 0 bs finshHeapMax) {a second : HeapBlock}
    (isFirst : a ∈ usedBlocks bs) (isSecond : second ∈ usedBlocks bs)
    (ne : finshBlockGetData a.start ≠ finshBlockGetData second.start) {m n : Nat}
    (firstRoom : m ≤ a.length) (secondRoom : n ≤ second.length) :
    finshBlockGetData a.start + m ≤ finshBlockGetData second.start ∨
      finshBlockGetData second.start + n ≤ finshBlockGetData a.start := by
  have distinct : a ≠ second := fun same => ne (by rw [same])
  have apart := tiled.separate (mem_usedBlocks.mp isFirst).1 (mem_usedBlocks.mp isSecond).1 distinct
  simp only [HeapBlock.stop, finshBlockGetData] at *
  omega

section

variable (kept : Kept session bs)

include kept

theorem Kept.separate :
    session.live.Pairwise fun a second => a.1 + a.2 ≤ second.1 ∨ second.1 + second.2 ≤ a.1 := by
  have nodup : (session.live.map Prod.fst).Nodup := by
    refine kept.owned.all.nodup_iff.mpr (List.Nodup.map_on ?_ ?_)
    · intro a isFirst second isSecond same
      refine kept.holds.tiled.eq_of_start (mem_usedBlocks.mp isFirst).1
        (mem_usedBlocks.mp isSecond).1 (Nat.add_right_cancel same)
    · exact (kept.holds.tiled.pairwise.sublist List.filter_sublist).imp fun before same => by
        have less := HeapBlock.start_lt_stop
        subst same
        exact Nat.not_le.mpr (less _) before
  refine List.Pairwise.imp_of_mem ?_ (List.pairwise_map.mp nodup)
  intro a second isFirst isSecond ne
  obtain ⟨owner, isOwner, ownerData, ownerRoom⟩ := kept.owned.room a isFirst
  obtain ⟨u, isOther, otherData, otherRoom⟩ := kept.owned.room second isSecond
  rw [← ownerData, ← otherData] at ne ⊢
  exact kept.holds.tiled.data_separate isOwner isOther ne ownerRoom otherRoom

theorem Kept.sound : SoundWith session bs where
  free := kept.holds.free
  used := kept.holds.used
  freeSorted := kept.holds.tiled.sorted.sublist starts_sublist
  usedSorted := kept.holds.tiled.sorted.sublist starts_sublist
  disjoint _ inFree inUsed := kept.holds.tiled.disjoint inFree inUsed
  length := kept.holds.length
  tiled := kept.holds.tiled
  apart := kept.holds.apart
  all := by
    rw [starts_false, List.map_map]
    exact kept.owned.all
  room := by
    intro e mem
    obtain ⟨b, isUsed, fits⟩ := kept.owned.room e mem
    exact ⟨b, (mem_usedBlocks.mp isUsed).1, (mem_usedBlocks.mp isUsed).2, fits⟩
  separate := kept.separate

theorem Kept.collect (referenced : Nat → Bool) :
    ∃ after left, collectStep session referenced = some after ∧ Kept after left := by
  obtain ⟨heap, left, collected, holds, isLeft, -⟩ := @finshHeapGc_spec _ _ referenced kept.holds
  refine ⟨⟨heap, collectLive referenced session.live⟩, left, by simp [collectStep, collected],
    holds, ?_⟩
  rw [isLeft]
  exact kept.owned.filter referenced

theorem Kept.free {ptr : Nat} (isLive : ptr ∈ session.live.map Prod.fst) :
    ∃ after left, freeStep session ptr = some after ∧ Kept after left := by
  obtain ⟨b, isUsed, rfl⟩ := List.mem_map.mp (kept.owned.all.mem_iff.mp isLive)
  obtain ⟨mem, blockUsed⟩ := mem_usedBlocks.mp isUsed
  obtain ⟨front, rear, rfl⟩ := List.append_of_mem mem
  obtain ⟨heap, left, freed, holds, isLeft, -⟩ := finshHeapFree_spec kept.holds blockUsed
  refine ⟨_, left, by simp only [freeStep, freed]; rfl, holds, ?_⟩
  rw [isLeft, ← usedBlocks_without kept.holds.tiled blockUsed]
  exact kept.owned.filter fun u => decide (u ≠ finshBlockGetData b.start)

theorem Kept.allocate {size : Nat} (small : NoWrap size) (referenced : Nat → Bool) :
    ∃ after left, allocateStep session size referenced = some after ∧ Kept after left := by
  obtain ⟨heap, left, answer, allocated, holds, isLeft, behind, -⟩ :=
    @finshHeapAllocate_spec _ _ referenced _ kept.holds small
  refine ⟨_, left, by simp only [allocateStep, allocated]; rfl, holds, ?_⟩
  have isLive : (if Collects session.heap size then collectLive referenced session.live
      else session.live) = session.live.filter fun (ptr, _) =>
        decide (¬ Collects session.heap size) || referenced ptr := by
    by_cases collects : Collects session.heap size <;> simp [collects, collectLive]
  have owned := kept.owned.filter fun ptr =>
    decide (¬ Collects session.heap size) || referenced ptr
  rw [isLive]
  cases answer with
  | none => exact owned.perm isLeft
  | some ptr => exact (owned.cons (behind ptr rfl) small).perm isLeft

theorem Kept.step {e : HeapEvent} (allowed : Allowed session e) :
    ∃ after left, heapStep session e = some after ∧ Kept after left := by
  cases e with
  | allocate size referenced => exact kept.allocate allowed referenced
  | free ptr => exact kept.free allowed
  | collect referenced => exact kept.collect referenced

end

theorem kept_start (m : Heap) :
    Kept ⟨finshHeapInit m, []⟩ [⟨0, finshHeapMax - headerSize, true⟩] where
  holds :=
    { tiled := ⟨rfl, rfl⟩
      length := by simp [finshHeapInit]
      free := by simp [Chain, starts, finshHeapInit]
      used := rfl
      top := ⟨_, rfl, rfl⟩
      apart := .singleton _ }
  owned := ⟨.refl _, by simp⟩

/-- The heap is sound in every run, and every allowed call returns. -/
theorem heap_sound {taken : List (Taken Session HeapEvent)} {last : Session}
    (run : heapSystem.Run taken last) (allowed : EveryStep Allowed taken) :
    Throughout Sound taken last ∧ ∀ e, Allowed last e → ∃ after, heapStep last e = some after := by
  have throughout : Throughout (fun session => ∃ bs, Kept session bs)
      taken last := by
    refine run.throughout_of_everyStep ?_ ?_ allowed
    · rintro session ⟨m, rfl⟩
      exact ⟨_, kept_start m⟩
    · rintro session e after ⟨bs, kept⟩ allowed step
      obtain ⟨r, left, isResult, kept⟩ := kept.step allowed
      obtain rfl : r = after := Option.some.inj (isResult.symm.trans step)
      exact ⟨left, kept⟩
  refine ⟨throughout.imp fun session ⟨bs, kept⟩ => ⟨bs, kept.sound⟩, ?_⟩
  intro e allowed
  obtain ⟨bs, kept⟩ := throughout.1
  obtain ⟨after, left, isAfter, -⟩ := kept.step allowed
  exact ⟨after, isAfter⟩

def literals : List HeapEvent :=
  [.allocate 24 fun _ => false, .allocate 24 fun _ => false, .allocate 24 fun _ => false,
    .allocate 16 fun ptr => decide (ptr = 40), .free 40]

def zeroed : Session := ⟨finshHeapInit ⟨fun _ => 0, fun _ => none, fun _ => 0, none, none⟩, []⟩

theorem literals_sound : ∃ last, execute heapStep zeroed literals = some last ∧
      last.live = [(8, 16)] ∧ Throughout Sound (record heapStep [] zeroed literals) last := by
  have run : heapSystem.Run (record heapStep [] zeroed literals) _ :=
    Run.execute (.start ⟨_, rfl⟩)
      (Option.some_get (show (execute heapStep zeroed literals).isSome by
        decide +kernel)).symm
  exact ⟨_, (Option.some_get _).symm, by decide +kernel, (heap_sound run (by decide +kernel)).1⟩

end RtThread.FinshHeap
