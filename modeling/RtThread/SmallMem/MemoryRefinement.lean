import RtThread.SmallMem.Memory

/-!
# The headers in memory are the headers

The calls on one memory do what the calls with separate headers do: the headers of the blocks do
not overlap, so that each is read as it was last written, and no other byte is written.
-/

namespace RtThread.SmallMem

variable {cfg : Config} {heap after raw : Heap} {front rear blocks : List Block} {b : Block}
  {start : Nat → BitVec 8} {places : Set Nat} {p : Nat}

/-- `raw` is `heap` in a memory that differs from `start` in the headers at `places` only. -/
structure Stands (start : Nat → BitVec 8) (places : Set Nat) (heap raw : Heap) : Prop where
  inMemory : raw = heap.inMemory raw.byte
  header : ∀ p ∈ places, raw.header p = heap.header p
  next : ∀ p ∈ places, (heap.header p).next ∈ places
  prev : ∀ p ∈ places, p ≠ heap.heapEnd →
    (heap.header p).prev ∈ places ∧ (heap.header p).prev ≠ heap.heapEnd
  small : ∀ p ∈ places, p < 2 ^ 32
  spaced : ∀ p ∈ places, ∀ u ∈ places, p = u ∨ p + headerSize ≤ u ∨ u + headerSize ≤ p
  outside : ∀ address, (∀ p ∈ places, address < heap.heapPtr + p ∨
    heap.heapPtr + p + headerSize ≤ address) → raw.byte address = start address

namespace Stands

section

variable (stands : Stands start places heap raw)

include stands

theorem heapPtr : raw.heapPtr = heap.heapPtr := (congrArg Heap.heapPtr stands.inMemory).trans rfl

theorem heapEnd : raw.heapEnd = heap.heapEnd := (congrArg Heap.heapEnd stands.inMemory).trans rfl

theorem lfree : raw.lfree = heap.lfree := (congrArg Heap.lfree stands.inMemory).trans rfl

theorem memSizeAligned : raw.memSizeAligned = heap.memSizeAligned :=
  (congrArg Heap.memSizeAligned stands.inMemory).trans rfl

theorem usedMem : raw.usedMem = heap.usedMem := (congrArg Heap.usedMem stands.inMemory).trans rfl

theorem live : raw.live = heap.live := (congrArg Heap.live stands.inMemory).trans rfl

theorem isHeader (p : Nat) : raw.header p = loadHeader raw.byte (heap.heapPtr + p) := by
  have := congrArg Heap.header stands.inMemory
  exact congrFun this p

theorem fits (mem : p ∈ places) : (heap.header p).Fits := by
  rw [← stands.header p mem, stands.isHeader]
  exact loadHeader_fits _ _

theorem withScalars {heap' raw' : Heap} (ptr : heap'.heapPtr = heap.heapPtr)
    (isEnd : heap'.heapEnd = heap.heapEnd) (header : heap'.header = heap.header)
    (inMemory : raw' = heap'.inMemory raw.byte) : Stands start places heap' raw' := by
  subst inMemory
  refine ⟨rfl, ?_, ?_, ?_, stands.small, stands.spaced, ?_⟩
  · intro p mem
    rw [header, ← stands.header p mem, stands.isHeader, ← ptr]
    rfl
  · rw [header]
    exact stands.next
  · rw [header, isEnd]
    exact stands.prev
  · rw [ptr]
    exact stands.outside

theorem setLfree (lfree : Nat) :
    Stands start places { heap with lfree := lfree } { raw with lfree := lfree } :=
  stands.withScalars rfl rfl rfl (by rw [stands.inMemory]; rfl)

theorem countUsed (amount : Nat) :
    Stands start places (SmallMem.countUsed heap amount) (SmallMem.countUsed raw amount) :=
  stands.withScalars rfl rfl rfl (by rw [stands.inMemory]; rfl)

section

variable (membership : p ∈ places)

include membership

theorem setHeader {mem : HeapMem} (fits : mem.Fits) (next : mem.next ∈ places)
    (prev : p ≠ heap.heapEnd → mem.prev ∈ places ∧ mem.prev ≠ heap.heapEnd) :
    Stands start places (heap.setHeader p mem) (InMemory.setHeader raw p mem) where
  inMemory := by
    rw [stands.inMemory]
    rfl
  header := by
    intro u isPlace
    have written : (InMemory.setHeader raw p mem).header u =
        loadHeader (storeHeader raw.byte (raw.heapPtr + p) mem) (raw.heapPtr + u) := rfl
    rw [written, stands.heapPtr, setHeader_header]
    split
    · rename_i same
      rw [same, loadHeader_storeHeader _ _ fits]
    · rename_i different
      rw [← stands.header u isPlace, stands.isHeader]
      apply loadHeader_congr
      intro a above below
      apply storeHeader_outside
      have apart := stands.spaced p membership u isPlace
      omega
  next := by
    intro u isPlace
    rw [setHeader_header]
    split
    · exact next
    · exact stands.next u isPlace
  prev := by
    intro u isPlace notEnd
    rw [setHeader_header]
    split
    · next same => exact prev (same ▸ notEnd)
    · exact stands.prev u isPlace notEnd
  small := stands.small
  spaced := stands.spaced
  outside := by
    intro a apart
    have written : (InMemory.setHeader raw p mem).byte =
        storeHeader raw.byte (raw.heapPtr + p) mem := rfl
    have beyond : a < heap.heapPtr + p ∨
        heap.heapPtr + p + headerSize ≤ a := apart p membership
    rw [written, stands.heapPtr, storeHeader_outside beyond]
    exact stands.outside a apart

theorem setMarks (change : HeapMem → HeapMem)
    (links : ∀ mem, (change mem).next = mem.next ∧ (change mem).prev = mem.prev)
    (fits : ∀ mem : HeapMem, mem.Fits → (change mem).Fits) :
    Stands start places (heap.setHeader p (change (heap.header p)))
      (InMemory.setHeader raw p (change (raw.header p))) := by
  rw [stands.header p membership]
  refine stands.setHeader membership (fits _ (stands.fits membership)) ?_ ?_
  · rw [(links _).1]
    exact stands.next p membership
  · rw [(links _).2]
    exact stands.prev p membership

theorem setUsed : Stands start places (heap.setHeader p { heap.header p with used := 1 })
      (InMemory.setHeader raw p { raw.header p with used := 1 }) :=
  stands.setMarks membership (fun mem => { mem with used := 1 }) (fun _ => ⟨rfl, rfl⟩)
    fun _ fits => ⟨fits.magic, Nat.one_lt_two_pow (by decide), fits.next, fits.prev⟩

theorem setMagic : Stands start places (heap.setHeader p { heap.header p with magic := heapMagic })
      (InMemory.setHeader raw p { raw.header p with magic := heapMagic }) :=
  stands.setMarks membership (fun mem => { mem with magic := heapMagic }) (fun _ => ⟨rfl, rfl⟩)
    fun _ fits => ⟨(by decide : heapMagic < 2 ^ 16), fits.used, fits.next, fits.prev⟩

theorem setFree : Stands start places
      (heap.setHeader p { heap.header p with used := 0, magic := heapMagic })
      (InMemory.setHeader raw p { raw.header p with used := 0, magic := heapMagic }) :=
  stands.setMarks membership (fun mem => { mem with used := 0, magic := heapMagic })
    (fun _ => ⟨rfl, rfl⟩)
    fun _ fits => ⟨(by decide : heapMagic < 2 ^ 16), Nat.two_pow_pos 16, fits.next, fits.prev⟩

end

theorem setNext (mem : p ∈ places) (notEnd : p ≠ heap.heapEnd) {next : Nat}
    (isPlace : next ∈ places) :
    Stands start places (heap.setHeader p { heap.header p with next := next })
      (InMemory.setHeader raw p { raw.header p with next := next }) := by
  have fits := stands.fits mem
  rw [stands.header p mem]
  exact stands.setHeader mem ⟨fits.magic, fits.used, stands.small next isPlace, fits.prev⟩
    isPlace fun _ => stands.prev p mem notEnd

theorem setPrev (mem : p ∈ places) {prev : Nat} (isPlace : prev ∈ places)
    (notEnd : prev ≠ heap.heapEnd) :
    Stands start places (heap.setHeader p { heap.header p with prev := prev })
      (InMemory.setHeader raw p { raw.header p with prev := prev }) := by
  have fits := stands.fits mem
  rw [stands.header p mem]
  exact stands.setHeader mem ⟨fits.magic, fits.used, fits.next, stands.small prev isPlace⟩
    (stands.next p mem) fun _ => ⟨isPlace, notEnd⟩

theorem linkOver {mem next : Nat} (membership : mem ∈ places) (notEnd : mem ≠ heap.heapEnd)
    (isPlace : next ∈ places) :
    Stands start places (SmallMem.linkOver heap mem next) (InMemory.linkOver raw mem next) :=
  (stands.setNext membership notEnd isPlace).setPrev isPlace membership notEnd

theorem plugForward {mem : Nat} (membership : mem ∈ places) (notEnd : mem ≠ heap.heapEnd) :
    Stands start places (SmallMem.plugForward heap mem) (InMemory.plugForward raw mem) := by
  have isNext := stands.next mem membership
  have behind := stands.header _ isNext
  have sameTest : (mem ≠ (heap.header mem).next ∧ (raw.header (heap.header mem).next).used = 0 ∧
      (heap.header mem).next ≠ raw.heapEnd) ↔ (mem ≠ (heap.header mem).next ∧
        (heap.header (heap.header mem).next).used = 0 ∧ (heap.header mem).next ≠ heap.heapEnd) := by
    rw [behind, stands.heapEnd]
  dsimp only [SmallMem.plugForward, InMemory.plugForward]
  rw [stands.header mem membership]
  by_cases joins : mem ≠ (heap.header mem).next ∧
      (heap.header (heap.header mem).next).used = 0 ∧ (heap.header mem).next ≠ heap.heapEnd
  · rw [if_pos joins, if_pos (sameTest.mpr joins), stands.lfree]
    split
    · simp only [behind]
      exact (stands.setLfree mem).linkOver membership notEnd (stands.next _ isNext)
    · simp only [behind]
      exact stands.linkOver membership notEnd (stands.next _ isNext)
  · rw [if_neg joins, if_neg (sameTest.not.mpr joins)]
    exact stands

theorem plugBackward {mem : Nat} (membership : mem ∈ places) (notEnd : mem ≠ heap.heapEnd) :
    Stands start places (SmallMem.plugBackward heap mem) (InMemory.plugBackward raw mem) := by
  obtain ⟨isPrev, prevNotEnd⟩ := stands.prev mem membership notEnd
  dsimp only [SmallMem.plugBackward, InMemory.plugBackward]
  rw [stands.header mem membership, stands.header _ isPrev, stands.lfree]
  split
  · split
    · simp only [stands.header mem membership]
      exact (stands.setLfree _).linkOver isPrev prevNotEnd (stands.next mem membership)
    · simp only [stands.header mem membership]
      exact stands.linkOver isPrev prevNotEnd (stands.next mem membership)
  · exact stands

end

theorem heapEnd_plugForward (heap : Heap) (mem : Nat) :
    (SmallMem.plugForward heap mem).heapEnd = heap.heapEnd := by
  dsimp only [SmallMem.plugForward]
  split_ifs <;> rfl

section

variable (stands : Stands start places heap raw)

include stands

theorem plugHoles {mem : Nat} (membership : mem ∈ places) :
    Option.Rel (Stands start places) (SmallMem.plugHoles heap mem)
      (InMemory.plugHoles raw mem) := by
  rw [SmallMem.plugHoles, InMemory.plugHoles, stands.header mem membership, stands.heapEnd]
  split
  · rename_i asserted
    have notEnd : mem ≠ heap.heapEnd := Nat.ne_of_lt asserted.1
    have forward := stands.plugForward membership notEnd
    refine .some (forward.plugBackward membership ?_)
    rw [heapEnd_plugForward]
    exact notEnd
  · exact .none

theorem addPlace {mem : HeapMem} (fits : mem.Fits) (next : mem.next ∈ places)
    (prev : mem.prev ∈ places ∧ mem.prev ≠ heap.heapEnd) (small : p < 2 ^ 32)
    (spaced : ∀ u ∈ places, p + headerSize ≤ u ∨ u + headerSize ≤ p) :
    Stands start (insert p places) (heap.setHeader p mem) (InMemory.setHeader raw p mem) := by
  have isNew : ∀ u ∈ places, u ≠ p := by
    rintro u membership rfl
    have := spaced u membership
    unfold headerSize at this
    omega
  have own : (heap.setHeader p mem).header p = mem := by simp
  have others : ∀ u ∈ places, (heap.setHeader p mem).header u = heap.header u := by
    intro u membership
    simp [isNew u membership]
  refine ⟨by rw [stands.inMemory]; rfl, ?_, ?_, ?_, ?_, ?_, ?_⟩
  · have written : ∀ u, (InMemory.setHeader raw p mem).header u =
        loadHeader (storeHeader raw.byte (raw.heapPtr + p) mem) (raw.heapPtr + u) :=
      fun _ => rfl
    rw [Set.forall_mem_insert]
    refine ⟨?_, ?_⟩
    · rw [written, own, loadHeader_storeHeader _ _ fits]
    · intro u membership
      rw [written, others u membership, ← stands.header u membership, stands.isHeader,
        ← stands.heapPtr]
      apply loadHeader_congr
      intro a above below
      apply storeHeader_outside
      have apart := spaced u membership
      omega
  · rw [Set.forall_mem_insert, own]
    refine ⟨.inr next, ?_⟩
    intro u membership
    rw [others u membership]
    exact .inr (stands.next u membership)
  · rw [Set.forall_mem_insert, own]
    refine ⟨fun _ => ⟨.inr prev.1, prev.2⟩, ?_⟩
    intro u membership notEnd
    rw [others u membership]
    obtain ⟨isPrev, prevNotEnd⟩ := stands.prev u membership notEnd
    exact ⟨.inr isPrev, prevNotEnd⟩
  · rw [Set.forall_mem_insert]
    exact ⟨small, stands.small⟩
  · rw [Set.forall_mem_insert]
    refine ⟨?_, ?_⟩
    · rw [Set.forall_mem_insert]
      exact ⟨.inl rfl, fun u membership => .inr (spaced u membership)⟩
    · intro first isFirst
      rw [Set.forall_mem_insert]
      exact ⟨.inr (spaced first isFirst).symm, stands.spaced first isFirst⟩
  · intro a apart
    rw [Set.forall_mem_insert] at apart
    have written : (InMemory.setHeader raw p mem).byte =
        storeHeader raw.byte (raw.heapPtr + p) mem := rfl
    have beyond : a < heap.heapPtr + p ∨
        heap.heapPtr + p + headerSize ≤ a := apart.1
    rw [written, stands.heapPtr, storeHeader_outside beyond]
    exact stands.outside a apart.2

theorem insertBlock {ptr ptr2 : Nat} (mem : ptr ∈ places) (notEnd : ptr ≠ heap.heapEnd)
    (small : ptr2 < 2 ^ 32) (spaced : ∀ u ∈ places, ptr2 + headerSize ≤ u ∨ u + headerSize ≤ ptr2)
    (secondNotEnd : ptr2 ≠ heap.heapEnd) :
    Stands start (insert ptr2 places) (SmallMem.insertBlock cfg heap ptr ptr2)
      (InMemory.insertBlock cfg raw ptr ptr2) := by
  have isNext := stands.next ptr mem
  have cut : Stands start (insert ptr2 places)
      (heap.setHeader ptr2 ⟨heapMagic, 0, (heap.header ptr).next, ptr⟩)
      (InMemory.setHeader raw ptr2 ⟨heapMagic, 0, (heap.header ptr).next, ptr⟩) :=
    stands.addPlace ⟨by exact (by decide : heapMagic < 2 ^ 16), Nat.two_pow_pos 16,
      stands.small _ isNext, stands.small _ mem⟩ isNext
      ⟨mem, notEnd⟩ small spaced
  have linked := cut.setNext (.inr mem) notEnd (Set.mem_insert ptr2 places)
  have back := linked.setPrev (.inr isNext) (Set.mem_insert ptr2 places) secondNotEnd
  have sameSize : raw.memSizeAligned = heap.memSizeAligned := stands.memSizeAligned
  dsimp only [InMemory.insertBlock]
  rw [stands.header ptr mem]
  by_cases notLast :
      (heap.header ptr).next ≠ Word32.add heap.memSizeAligned cfg.sizeofStructMem
  · have alsoRaw :
        (heap.header ptr).next ≠ Word32.add raw.memSizeAligned cfg.sizeofStructMem := by
      rw [sameSize]
      exact notLast
    refine (congrArg₂ (Stands start _) (if_pos notLast) (if_pos alsoRaw)).mpr back
  · have alsoRaw :
        ¬ (heap.header ptr).next ≠ Word32.add raw.memSizeAligned cfg.sizeofStructMem := by
      rw [sameSize]
      exact notLast
    refine (congrArg₂ (Stands start _) (if_neg notLast) (if_neg alsoRaw)).mpr linked

section

variable (mem : p ∈ places)

include mem

theorem room : SmallMem.room cfg raw p = SmallMem.room cfg heap p := by
  rw [SmallMem.room, SmallMem.room, stands.header p mem]

theorem search (n turns : Nat) :
    SmallMem.search cfg raw n turns p = SmallMem.search cfg heap n turns p := by
  induction turns generalizing p with
  | zero => rfl
  | succ turns ih =>
    simp only [SmallMem.search, stands.room mem, stands.header p mem,
      stands.memSizeAligned, ih (stands.next p mem)]

theorem nextFree (turns : Nat) :
    SmallMem.nextFree raw turns p = SmallMem.nextFree heap turns p := by
  induction turns generalizing p with
  | zero => rfl
  | succ turns ih =>
    simp only [SmallMem.nextFree, stands.header p mem, stands.heapEnd, ih (stands.next p mem)]

theorem nextFree_mem {turns found : Nat} (result : SmallMem.nextFree heap turns p = some found) :
    found ∈ places := by
  induction turns generalizing p with
  | zero => simp [SmallMem.nextFree] at result
  | succ turns ih =>
    rw [SmallMem.nextFree] at result
    split at result
    · exact ih (stands.next p mem) result
    · exact Option.some.inj result ▸ mem

end

end

end Stands

def placesOf (heap : Heap) (blocks : List Block) : Set Nat := {p | Place heap blocks p}

theorem start_mem_placesOf (heap : Heap) (front : List Block) (b : Block) (rear : List Block) :
    b.start ∈ placesOf heap (front ++ b :: rear) := .inr ⟨b, by simp, rfl⟩

theorem Described.spaced_inside (desc : Described cfg heap blocks) (mem : b ∈ blocks)
    (above : b.start + cfg.sizeofStructMem ≤ p) (below : p + headerSize ≤ b.stop) :
    ∀ u ∈ placesOf heap blocks, p + headerSize ≤ u ∨ u + headerSize ≤ p := by
  have own := desc.cut.mem_bounds mem
  have gap := cfg.sizeofStructMem_bounds
  unfold headerSize at *
  rintro u (rfl | ⟨second, inBlocks, rfl⟩)
  · omega
  · have bounds := desc.cut.mem_bounds inBlocks
    rcases desc.cut.apart mem inBlocks with rfl | front | behind
    · omega
    · omega
    · omega

def Inside (cfg : Config) (heap : Heap) (blocks : List Block) (p : Nat) : Prop :=
  Place heap blocks p ∨ ∃ b ∈ blocks, b.used = false ∧
    b.start + cfg.sizeofStructMem ≤ p ∧ p + headerSize ≤ b.stop

/-- `raw` is `after` in a memory in which nothing was written but headers of `heap`, and headers
inside its free blocks. -/
def Follows (cfg : Config) (start : Nat → BitVec 8) (heap : Heap) (blocks : List Block)
    (after raw : Heap) : Prop :=
  ∃ places, Stands start places after raw ∧ placesOf heap blocks ⊆ places ∧
    ∀ p ∈ places, Inside cfg heap blocks p

theorem Stands.follows (stands : Stands start (placesOf heap blocks) after raw) :
    Follows cfg start heap blocks after raw :=
  ⟨_, stands, subset_rfl, fun _ => .inl⟩

theorem takeBlock_lfree (cfg : Config) (heap : Heap) (ptr n : Nat) :
    (takeBlock cfg heap ptr n).lfree = heap.lfree := by
  dsimp only [takeBlock]
  split_ifs
  · rw [insertBlock_eq]
    rfl
  · rfl

theorem Stands.lower (stands : Stands start places heap raw) (mem : Nat) :
    Stands start places (if mem < heap.lfree then { heap with lfree := mem } else heap)
      (if mem < raw.lfree then { raw with lfree := mem } else raw) := by
  rw [stands.lfree]
  split
  · exact stands.setLfree mem
  · exact stands

theorem Stands.release (stands : Stands start places heap raw) {mem : Nat}
    (membership : mem ∈ places) (rmem : Nat) :
    Stands start places
      { heap with
        usedMem := Word32.sub heap.usedMem (Word32.sub (heap.header mem).next mem)
        live := heap.live.erase rmem }
      { raw with
        usedMem := Word32.sub raw.usedMem (Word32.sub (raw.header mem).next mem)
        live := raw.live.erase rmem } := by
  refine stands.withScalars rfl rfl rfl ?_
  rw [stands.header mem membership, stands.inMemory]
  rfl

section

variable (stands : Stands start (placesOf heap (front ++ b :: rear)) heap raw)

include stands

theorem Stands.takeBlock (desc : Described cfg heap (front ++ b :: rear)) (free : b.used = false)
    {n : Nat} (enough : n ≤ b.stop - (b.start + cfg.sizeofStructMem)) :
    Follows cfg start heap (front ++ b :: rear) (SmallMem.takeBlock cfg heap b.start n)
      (InMemory.takeBlock cfg raw b.start n) := by
  have own := desc.cut.header_block
  have small := desc.heapEnd_lt
  have least := cfg.minSizeAligned_bounds
  have isPlace := start_mem_placesOf heap front b rear
  have notEnd : b.start ≠ heap.heapEnd := by omega
  have enoughEq : Word32.add (Word32.add n cfg.sizeofStructMem) cfg.minSizeAligned =
      n + cfg.sizeofStructMem + cfg.minSizeAligned := Word32.add_add_eq (by omega)
  have placeEq : Word32.add (Word32.add b.start cfg.sizeofStructMem) n =
      b.start + cfg.sizeofStructMem + n := Word32.add_add_eq (by omega)
  rw [SmallMem.takeBlock, InMemory.takeBlock, stands.room isPlace, desc.room_eq, enoughEq, placeEq]
  split
  · rename_i splits
    have above : b.start + cfg.sizeofStructMem ≤ b.start + cfg.sizeofStructMem + n := by omega
    have below : b.start + cfg.sizeofStructMem + n + headerSize ≤ b.stop := by
      unfold headerSize
      omega
    have spaced := desc.spaced_inside (by simp) above below
    have cut : Stands start (insert (b.start + cfg.sizeofStructMem + n)
          (placesOf heap (front ++ b :: rear)))
        (SmallMem.insertBlock cfg heap b.start
          (b.start + cfg.sizeofStructMem + n))
        (InMemory.insertBlock cfg raw b.start
          (b.start + cfg.sizeofStructMem + n)) :=
      stands.insertBlock isPlace notEnd (by omega) spaced (by omega)
    refine ⟨_, (cut.setUsed (.inr isPlace)).countUsed _, Set.subset_insert _ _, ?_⟩
    rw [Set.forall_mem_insert]
    exact ⟨.inr ⟨b, by simp, free, above, below⟩, fun _ => .inl⟩
  · rw [stands.header b.start isPlace]
    have marked := stands.setUsed isPlace
    rw [stands.header b.start isPlace] at marked
    exact (marked.countUsed _).follows

theorem Stands.allocate (shape : Shape cfg heap (front ++ b :: rear)) (free : b.used = false)
    {size : Nat} (enough : size ≤ b.stop - (b.start + cfg.sizeofStructMem)) :
    Option.Rel (fun after raw' =>
        Follows cfg start heap (front ++ b :: rear) after.1 raw'.1 ∧ after.2 = raw'.2)
      (SmallMem.allocate cfg heap b.start size) (InMemory.allocate cfg raw b.start size) := by
  obtain ⟨places, taken, grows, inside⟩ := stands.takeBlock shape.toDescribed free enough
  have marked := taken.setMagic (grows (start_mem_placesOf heap front b rear))
  have isLfree : heap.lfree ∈ places := grows (place_of_freeAt shape.lfree)
  rw [← takeBlock_lfree cfg heap b.start size] at isLfree
  dsimp only [SmallMem.allocate, InMemory.allocate]
  have sameLfree : (SmallMem.takeBlock cfg heap b.start size).lfree =
      ((SmallMem.takeBlock cfg heap b.start size).setHeader b.start
        { (SmallMem.takeBlock cfg heap b.start size).header b.start with
          magic := heapMagic }).lfree := rfl
  rw [sameLfree] at isLfree
  generalize (SmallMem.takeBlock cfg heap b.start size).setHeader b.start
    { (SmallMem.takeBlock cfg heap b.start size).header b.start with
      magic := heapMagic } = after at *
  have lowestMem : ∀ found, (if b.start = after.lfree then
      SmallMem.nextFree after (after.heapEnd + 1) after.lfree else some after.lfree) = some found →
        found ∈ places := by
    intro found isFound
    split at isFound
    · exact marked.nextFree_mem isLfree isFound
    · exact Option.some.inj isFound ▸ isLfree
  rw [marked.lfree, marked.heapEnd, marked.nextFree isLfree, marked.heapPtr, marked.live]
  cases isFound : (if b.start = after.lfree then
      SmallMem.nextFree after (after.heapEnd + 1) after.lfree else some after.lfree) with
  | none => exact .none
  | some lfree =>
    simp only [Option.bind_some, marked.header lfree (lowestMem lfree isFound)]
    split
    · refine .some ⟨⟨places, ?_, grows, inside⟩, rfl⟩
      exact marked.withScalars rfl rfl rfl (by rw [marked.inMemory]; rfl)
    · exact .none

theorem Stands.rtFree : Option.Rel (Stands start (placesOf heap (front ++ b :: rear)))
      (SmallMem.rtFree cfg heap (some (userArea cfg heap.heapPtr b)))
      (InMemory.rtFree cfg raw (some (userArea cfg heap.heapPtr b))) := by
  have isHeader := headerOf_userArea cfg heap b
  have isRawHeader : raw.headerOf cfg (userArea cfg heap.heapPtr b) = b.start := by
    rw [← isHeader, Heap.headerOf, Heap.headerOf, stands.heapPtr]
  have isPlace := start_mem_placesOf heap front b rear
  have marked := stands.setFree isPlace
  dsimp only [SmallMem.rtFree, InMemory.rtFree]
  rw [isHeader, isRawHeader, stands.heapPtr, stands.heapEnd]
  have sameTest : (userArea cfg heap.heapPtr b &&& (cfg.alignSize - 1) = 0 ∧
      heap.heapPtr ≤ userArea cfg heap.heapPtr b ∧
      userArea cfg heap.heapPtr b < heap.heapPtr + heap.heapEnd ∧
      (raw.header b.start).used ≠ 0 ∧ (raw.header b.start).magic = heapMagic) ↔
        (userArea cfg heap.heapPtr b &&& (cfg.alignSize - 1) = 0 ∧
          heap.heapPtr ≤ userArea cfg heap.heapPtr b ∧
          userArea cfg heap.heapPtr b < heap.heapPtr + heap.heapEnd ∧
          (heap.header b.start).used ≠ 0 ∧
          (heap.header b.start).magic = heapMagic) := by
    rw [stands.header b.start isPlace]
  split
  · rename_i asserted
    rw [if_pos (sameTest.mpr asserted)]
    exact ((marked.lower b.start).release isPlace _).plugHoles isPlace
  · rename_i failed
    rw [if_neg (sameTest.not.mpr failed)]
    exact .none

theorem Stands.shrink (desc : Described cfg heap (front ++ b :: rear)) {n : Nat}
    (fits : n + cfg.sizeofStructMem + minSize < b.stop - b.start - cfg.sizeofStructMem) :
    Option.Rel (Stands start (insert (b.start + cfg.sizeofStructMem + n)
        (placesOf heap (front ++ b :: rear)))) (SmallMem.shrink cfg heap b.start
        (b.stop - b.start - cfg.sizeofStructMem) n) (InMemory.shrink cfg raw b.start
        (b.stop - b.start - cfg.sizeofStructMem) n) := by
  have own := desc.cut.header_block
  have small := desc.heapEnd_lt
  have gap := cfg.sizeofStructMem_bounds
  have isPlace := start_mem_placesOf heap front b rear
  have placeEq : Word32.add (Word32.add b.start cfg.sizeofStructMem) n =
      b.start + cfg.sizeofStructMem + n := Word32.add_add_eq (by omega)
  have above : b.start + cfg.sizeofStructMem ≤ b.start + cfg.sizeofStructMem + n := by omega
  have below : b.start + cfg.sizeofStructMem + n + headerSize ≤ b.stop := by
    unfold headerSize
    omega
  have spaced := desc.spaced_inside (by simp) above below
  have counted (usedMem : Nat) : Stands start (placesOf heap (front ++ b :: rear))
      { heap with usedMem := usedMem } { raw with usedMem := usedMem } :=
    stands.withScalars rfl rfl rfl (by rw [stands.inMemory]; rfl)
  rw [SmallMem.shrink, InMemory.shrink, placeEq, stands.usedMem]
  refine Stands.plugHoles ?_ (Set.mem_insert _ _)
  refine (counted _).insertBlock isPlace ?_ (by omega) spaced ?_
  · exact (show b.start ≠ heap.heapEnd by omega)
  · exact (show b.start + cfg.sizeofStructMem + n ≠ heap.heapEnd by omega)

end

theorem Stands.rtMalloc (stands : Stands start (placesOf heap blocks) heap raw)
    (shape : Shape cfg heap blocks) (n : Nat) : Option.Rel (fun after raw' =>
        Follows cfg start heap blocks after.1 raw'.1 ∧ after.2 = raw'.2)
      (SmallMem.rtMalloc cfg heap n) (InMemory.rtMalloc cfg raw n) := by
  have isLfree : heap.lfree ∈ placesOf heap blocks := place_of_freeAt shape.lfree
  dsimp only [SmallMem.rtMalloc, InMemory.rtMalloc]
  rw [stands.memSizeAligned, stands.heapEnd, stands.lfree, stands.search isLfree]
  split
  · exact .some ⟨stands.follows, rfl⟩
  split
  · exact .some ⟨stands.follows, rfl⟩
  cases searched : SmallMem.search cfg heap (if cfg.rtAlign n < cfg.minSizeAligned then
      cfg.minSizeAligned else cfg.rtAlign n) (heap.heapEnd + 1) heap.lfree with
  | none => exact .none
  | some found =>
    cases found with
    | none => exact .some ⟨stands.follows, rfl⟩
    | some ptr =>
      obtain ⟨front, b, rear, rfl, free, rfl, enough⟩ :=
        search_found shape.toDescribed isLfree searched
      exact stands.allocate shape free enough

def Heap.Coherent (heap : Heap) : Prop :=
  ∀ p, heap.header p = loadHeader heap.byte (heap.heapPtr + p)

theorem Stands.coherent (stands : Stands start places heap raw) : raw.Coherent := by
  intro p
  rw [stands.isHeader, stands.heapPtr]

theorem Described.place_prev (desc : Described cfg heap blocks)
    (isPlace : Place heap blocks p) (notEnd : p ≠ heap.heapEnd) :
    Place heap blocks (heap.header p).prev ∧ (heap.header p).prev ≠ heap.heapEnd := by
  rcases isPlace with rfl | ⟨b, mem, rfl⟩
  · exact absurd rfl notEnd
  · obtain ⟨front, rear, rfl, frontTiles, -, prev, -, room, rearTiles⟩ := desc.cut.focus mem
    simp only [headers_prev] at prev
    rw [prev]
    have gap := cfg.gap_pos
    rcases List.eq_nil_or_concat' front with rfl | ⟨others, last, rfl⟩
    · have atStart : 0 = b.start := frontTiles
      rw [Tiles.last]
      exact ⟨.inr ⟨b, by simp, atStart.symm⟩, by omega⟩
    · rw [Tiles.last_concat]
      have isBlock : last ∈ others ++ [last] ++ b :: rear := by simp
      have bounds := desc.cut.mem_bounds isBlock
      exact ⟨.inr ⟨last, by simp, rfl⟩, by omega⟩

theorem Described.stands (desc : Described cfg heap blocks) (coherent : heap.Coherent) :
    Stands heap.byte (placesOf heap blocks) heap heap := by
  have small := desc.heapEnd_lt
  have gap := cfg.sizeofStructMem_bounds
  refine ⟨?_, fun _ _ => rfl, fun _ => desc.place_next, fun _ => desc.place_prev, ?_, ?_,
    fun _ _ => rfl⟩
  · have isHeader : heap.header = fun p => loadHeader heap.byte (heap.heapPtr + p) :=
      funext coherent
    rw [Heap.inMemory, ← isHeader]
  · rintro p (rfl | ⟨b, mem, rfl⟩)
    · omega
    · have := desc.cut.mem_bounds mem
      omega
  · unfold headerSize
    rintro p (rfl | ⟨a, inBlocks, rfl⟩) u (rfl | ⟨second, inBlocks', rfl⟩)
    · exact .inl rfl
    · have := desc.cut.mem_bounds inBlocks'
      omega
    · have := desc.cut.mem_bounds inBlocks
      omega
    · have bounds := desc.cut.mem_bounds inBlocks
      have bounds' := desc.cut.mem_bounds inBlocks'
      rcases desc.cut.apart inBlocks inBlocks' with rfl | front | behind
      · exact .inl rfl
      · omega
      · omega

end RtThread.SmallMem
