import RtThread.Library.Extents
import RtThread.Library.TransitionSystem
import RtThread.Library.Words

/-!
# The slab allocator

`slab.c`: the page allocator under it, `rt_system_heap_init`, `rt_malloc` and `rt_free`.
A zone of pages holds chunks of one size; a zone with free chunks is linked in the
`zone_array` of its size, a whole free zone that is not the last of its size in
`zone_free`.  Pointers are addresses, `none` is `RT_NULL`; a failed assertion, a null
pointer that is followed and a search that does not end make a function undefined.
-/

open Function (update)

namespace RtThread.Slab

def pageSize : Nat := 4096

def zallocSlabMagic : Int := 0x51ab51ab

def zallocZoneLimit : Nat := 16 * 1024

def zallocMinZoneSize : Nat := 32 * 1024

def zallocMaxZoneSize : Nat := 128 * 1024

def nzones : Nat := 72

def zoneReleaseThresh : Nat := 2

def minChunkSize : Nat := 8

def sizeofSlabZone : Nat := 36

/-- `PAGE_TYPE_FREE`, `PAGE_TYPE_SMALL` and `PAGE_TYPE_LARGE`. -/
inductive PageType where
  | free
  | small
  | large
  deriving DecidableEq

/-- `struct memusage`: the pages of a large block, or the offset of a page in its zone. -/
structure Memusage where
  type : PageType
  size : Nat

/-- `slab_zone`, the header at the start of a zone, without `z_next`. -/
structure SlabZone where
  magic : Int
  nfree : Nat
  nmax : Nat
  baseptr : Nat
  uindex : Nat
  chunksize : Nat
  zoneindex : Nat
  freechunk : Option Nat

/-- The static variables of `slab.c` and the words that it keeps in the heap: the page
heads, as the list of free extents that they link, the zone headers with `z_next`, the
free chunks with `c_next`.  `zone` is undefined where no zone starts. -/
structure State where
  heapStart : Nat
  heapEnd : Nat
  zoneSize : Nat
  zoneLimit : Nat
  zonePageCnt : Nat
  rtPageList : List Extent
  memusage : Nat → Memusage
  zoneArray : Nat → Option Nat
  zoneFree : Option Nat
  zoneFreeCnt : Nat
  zone : Nat → Option SlabZone
  zNext : Nat → Option Nat
  cNext : Nat → Option Nat

/-- `zoneindex`: the index, and the request size set to the chunk size. -/
def zoneindex (bytes : Nat) : Nat × Nat :=
  if bytes < 128 then
    let n := Word32.alignUp bytes 8
    (n / 8 - 1, n)
  else if bytes < 256 then
    let n := Word32.alignUp bytes 16
    (n / 16 + 7, n)
  else if bytes < 8192 then
    if bytes < 512 then
      let n := Word32.alignUp bytes 32
      (n / 32 + 15, n)
    else if bytes < 1024 then
      let n := Word32.alignUp bytes 64
      (n / 64 + 23, n)
    else if bytes < 2048 then
      let n := Word32.alignUp bytes 128
      (n / 128 + 31, n)
    else if bytes < 4096 then
      let n := Word32.alignUp bytes 256
      (n / 256 + 39, n)
    else
      let n := Word32.alignUp bytes 512
      (n / 512 + 47, n)
  else if bytes < 16384 then
    let n := Word32.alignUp bytes 1024
    (n / 1024 + 55, n)
  else (0, bytes)

/-- The search of `rt_free` for the pointer to `z`.  `pz` is the zone whose `z_next` it
looks at, `none` for the cell of `zone_array`, and `current` what it finds there. -/
def findZone (zNext : Nat → Option Nat) (z : Nat) :
    Nat → Option Nat → Option Nat → Option (Option Nat)
  | 0, _, _ => none
  | fuel + 1, pz, current =>
    if current = some z then some pz
    else
      match current with
      | none => none
      | some u => findZone zNext z fuel (some u) (zNext u)

namespace State

def btokup (slab : State) (addr : Nat) : Nat := Word32.sub addr slab.heapStart / pageSize

def setZone (slab : State) (z : Nat) (zone : SlabZone) : State :=
  { slab with zone := update slab.zone z (some zone) }

/-- Write `count` descriptors from the one of the page at `addr`. -/
def setMemusage (slab : State) (addr count : Nat) (kup : Nat → Memusage) : State :=
  { slab with memusage := Extent.fill ⟨slab.btokup addr, count⟩ kup slab.memusage }

def rtPageAlloc (slab : State) (npages : Nat) : Option Nat × State :=
  if npages = 0 then (none, slab)
  else
    match Extents.take npages slab.rtPageList with
    | none => (none, slab)
    | some (page, rest) => (some (page * pageSize), { slab with rtPageList := rest })

def rtPageFree (slab : State) (addr npages : Nat) : Option State :=
  if addr = 0 ∨ addr % pageSize ≠ 0 ∨ npages = 0 then none
  else
    (Extents.release ⟨addr / pageSize, npages⟩ slab.rtPageList).map fun pages =>
      { slab with rtPageList := pages }

def rtPageInit (slab : State) (addr npages : Nat) : Option State :=
  { slab with rtPageList := [] }.rtPageFree addr npages

/-- The chunk that `rt_malloc` takes from a zone that has one: from the area never used,
or else from the free list. -/
def takeChunk (slab : State) (z : Nat) (zone : SlabZone) (size : Nat) : Option (Nat × State) :=
  if zone.uindex + 1 ≠ zone.nmax then
    let uindex := zone.uindex + 1
    some (zone.baseptr + uindex * size, slab.setZone z { zone with uindex })
  else
    match zone.freechunk with
    | none => none
    | some chunk => some (chunk, slab.setZone z { zone with freechunk := slab.cNext chunk })

/-- `rt_malloc` with a zone in the `zone_array`. -/
def mallocFromZone (slab : State) (zi z size : Nat) : Option (Nat × State) :=
  match slab.zone z with
  | none => none
  | some zone =>
    if zone.nfree = 0 then none
    else
      let zone := { zone with nfree := zone.nfree - 1 }
      if zone.nfree = 0 then
        { slab with
          zoneArray := update slab.zoneArray zi (slab.zNext z)
          zNext := update slab.zNext z none }.takeChunk z zone size
      else slab.takeChunk z zone size

def chunkOffset (size : Nat) : Nat :=
  if (size ||| (size - 1)) + 1 = size <<< 1 then Word32.alignUp sizeofSlabZone size
  else Word32.alignUp sizeofSlabZone minChunkSize

/-- The end of `rt_malloc` with a new zone: its header and its first chunk. -/
def setUpZone (slab : State) (z zi size : Nat) : Nat × State :=
  let off := chunkOffset size
  let nmax := (slab.zoneSize - off) / size
  let zone : SlabZone :=
    { magic := zallocSlabMagic
      nfree := nmax - 1
      nmax
      baseptr := z + off
      uindex := 0
      chunksize := size
      zoneindex := zi
      freechunk := none }
  (zone.baseptr + zone.uindex * size, { slab.setZone z zone with
      zNext := update slab.zNext z (slab.zoneArray zi)
      zoneArray := update slab.zoneArray zi (some z) })

/-- `rt_malloc` without a zone in the `zone_array`: one from `zone_free`, or new pages. -/
def mallocFromNewZone (slab : State) (zi size : Nat) : Option Nat × State :=
  match slab.zoneFree with
  | some z =>
    let (chunk, slab) :=
      { slab with
        zoneFree := slab.zNext z
        zoneFreeCnt := slab.zoneFreeCnt - 1 }.setUpZone z zi size
    (some chunk, slab)
  | none =>
    match slab.rtPageAlloc (slab.zoneSize / pageSize) with
    | (none, slab) => (none, slab)
    | (some z, slab) =>
      let slab := slab.setMemusage z slab.zonePageCnt fun off => ⟨.small, off⟩
      let (chunk, slab) := slab.setUpZone z zi size
      (some chunk, slab)

/-- `rt_malloc` at or above `zone_limit`: whole pages. -/
def mallocLarge (slab : State) (size : Nat) : Option Nat × State :=
  let size := Word32.alignUp size pageSize
  match slab.rtPageAlloc (size / pageSize) with
  | (none, slab) => (none, slab)
  | (some chunk, slab) =>
    (some chunk, slab.setMemusage chunk 1 fun _ => ⟨.large, size / pageSize⟩)

def rtMalloc (slab : State) (size : Nat) : Option (Option Nat × State) :=
  if size = 0 then some (none, slab)
  else if slab.zoneLimit ≤ size then some (slab.mallocLarge size)
  else
    let (zi, size) := zoneindex size
    if nzones ≤ zi then none
    else
      match slab.zoneArray zi with
      | some z => (slab.mallocFromZone zi z size).map fun taken => (some taken.1, taken.2)
      | none => some (slab.mallocFromNewZone zi size)

/-- `rt_free` of a chunk: it becomes the first of `z_freechunk`, and a zone without a free
chunk before is linked again. -/
def giveChunk (slab : State) (z : Nat) (zone : SlabZone) (ptr : Nat) : State :=
  let given :=
    { slab with cNext := update slab.cNext ptr zone.freechunk }.setZone z
      { zone with freechunk := some ptr, nfree := zone.nfree + 1 }
  if zone.nfree = 0 then
    { given with
      zNext := update slab.zNext z (slab.zoneArray zone.zoneindex)
      zoneArray := update slab.zoneArray zone.zoneindex (some z) }
  else given

/-- The removal of `z` from the `zone_array`: no list has more zones than the heap has
pages. -/
def unlinkZone (slab : State) (z zi : Nat) : Option State :=
  let fuel := (slab.heapEnd - slab.heapStart) / pageSize + 1
  match findZone slab.zNext z fuel none (slab.zoneArray zi) with
  | none => none
  | some none =>
    some { slab with zoneArray := update slab.zoneArray zi (slab.zNext z) }
  | some (some u) =>
    some { slab with zNext := update slab.zNext u (slab.zNext z) }

/-- `rt_free` of the last chunk in use: the zone enters `zone_free`. -/
def retireZone (slab : State) (z : Nat) (zone : SlabZone) : State :=
  { slab.setZone z { zone with magic := -1 } with
    zNext := update slab.zNext z slab.zoneFree
    zoneFree := some z
    zoneFreeCnt := slab.zoneFreeCnt + 1 }

/-- The first zone of `zone_free` goes back to the page allocator. -/
def releaseZone (slab : State) : Option State :=
  match slab.zoneFree with
  | none => none
  | some z =>
    { slab.setMemusage z slab.zonePageCnt fun _ => ⟨.free, 0⟩ with
      zoneFree := slab.zNext z
      zoneFreeCnt := slab.zoneFreeCnt - 1
      zone := update slab.zone z none }.rtPageFree z (slab.zoneSize / pageSize)

/-- `rt_free` in a zone, from the number of its free chunks on. -/
def freeWholeZone (slab : State) (z : Nat) (zone : SlabZone) : Option State :=
  if zone.nfree = zone.nmax ∧
      ((slab.zNext z).isSome ∨ slab.zoneArray zone.zoneindex ≠ some z) then
    match slab.unlinkZone z zone.zoneindex with
    | none => none
    | some slab =>
      let slab := slab.retireZone z zone
      if zoneReleaseThresh < slab.zoneFreeCnt then slab.releaseZone else some slab
  else some slab

def rtFree (slab : State) (ptr : Nat) : Option State :=
  let page := Word32.maskDown ptr pageSize
  let kup := slab.memusage (slab.btokup page)
  if kup.type = .large then
    (slab.setMemusage page 1 fun _ => ⟨.large, 0⟩).rtPageFree ptr kup.size
  else
    let z := page - kup.size * pageSize
    match slab.zone z with
    | none => none
    | some zone =>
      if zone.magic ≠ zallocSlabMagic then none
      else
        (slab.giveChunk z zone ptr).freeWholeZone z
          { zone with freechunk := some ptr, nfree := zone.nfree + 1 }

end State

/-- The loop of `rt_system_heap_init` over the zone sizes. -/
def growZoneSize (limsize : Nat) : Nat → Nat → Nat
  | 0, zoneSize => zoneSize
  | fuel + 1, zoneSize =>
    if zoneSize < zallocMaxZoneSize ∧ zoneSize <<< 1 < limsize / 1024 then
      growZoneSize limsize fuel (zoneSize <<< 1)
    else zoneSize

/-- `rt_system_heap_init`, over whatever the pages hold that `memusage` is put in.  With a
wrong address it returns without a heap. -/
def rtSystemHeapInit (memusage : Nat → Memusage) (beginAddr endAddr : Nat) : Option State :=
  let heapStart := Word32.alignUp beginAddr pageSize
  let heapEnd := Word32.maskDown endAddr pageSize
  if heapEnd ≤ heapStart then none
  else
    let limsize := heapEnd - heapStart
    let npages := limsize / pageSize
    -- the size doubles twice from the minimum to the maximum
    let zoneSize := growZoneSize limsize 2 zallocMinZoneSize
    let slab : State :=
      { heapStart
        heapEnd
        zoneSize
        zoneLimit := min (zoneSize / 4) zallocZoneLimit
        zonePageCnt := zoneSize / pageSize
        rtPageList := []
        memusage
        zoneArray := fun _ => none
        zoneFree := none
        zoneFreeCnt := 0
        zone := fun _ => none
        zNext := fun _ => none
        cNext := fun _ => none }
    (slab.rtPageInit heapStart npages).map fun slab =>
      (slab.rtPageAlloc (Word32.alignUp (npages * 4) pageSize / pageSize)).2

/-- The heap and the pointers that its users have got and not freed, newest first. -/
structure Heap where
  slab : State
  live : List Nat

/-- Calls of the users: any request, and `rt_free` of a pointer they hold or of none. -/
inductive Event where
  | malloc (size : Nat)
  | free (ptr : Option Nat)

def Initial (heap : Heap) : Prop :=
  (∃ memusage beginAddr endAddr, beginAddr < 2 ^ 32 ∧ endAddr < 2 ^ 32 ∧
    rtSystemHeapInit memusage beginAddr endAddr = some heap.slab) ∧ heap.live = []

def step (heap : Heap) : Event → Option Heap
  | .malloc size =>
    (heap.slab.rtMalloc size).map fun (chunk, slab) => ⟨slab, chunk.toList ++ heap.live⟩
  | .free none => some heap
  | .free (some ptr) =>
    if ptr ∈ heap.live then (heap.slab.rtFree ptr).map fun slab => ⟨slab, heap.live.erase ptr⟩
    else none

def system : TransitionSystem Heap Event := .ofFunction Initial step

def chunkSize (zi : Nat) : Nat :=
  if zi < 8 then 8 * (zi + 1) else 2 ^ (zi / 8 + 2) * (zi % 8 + 9)

theorem chunkSize_pos (zi : Nat) : 0 < chunkSize zi := by
  unfold chunkSize
  split_ifs
  · omega
  · exact Nat.mul_pos (Nat.two_pow_pos _) (by omega)

theorem alignUp_bounds {bits : Nat} (bits_le : bits ≤ 10) {bytes : Nat} (small : bytes < 16384) :
    bytes ≤ Word32.alignUp bytes (2 ^ bits) ∧ Word32.alignUp bytes (2 ^ bits) < bytes + 2 ^ bits ∧
      2 ^ bits ∣ Word32.alignUp bytes (2 ^ bits) := by
  have power := Nat.pow_le_pow_right (by decide : 0 < 2) bits_le
  have ⟨le, lt⟩ := @Word32.le_alignUp bytes bits (by omega) (by omega)
  exact ⟨le, lt, Word32.dvd_alignUp bytes (by omega)⟩

theorem chunkSize_row (row quotient : Nat) (low : 8 ≤ quotient) (high : quotient ≤ 16) :
    chunkSize (quotient + (8 * row + 7)) = 2 ^ (row + 4) * quotient := by
  have beyond : ¬ quotient + (8 * row + 7) < 8 := by omega
  rw [chunkSize, if_neg beyond]
  by_cases first : quotient = 8
  · have power : 2 ^ (row + 4) = 2 ^ (row + 3) * 2 := Nat.pow_succ 2 (row + 3)
    have row_eq : (quotient + (8 * row + 7)) / 8 + 2 = row + 3 := by omega
    have rest_eq : (quotient + (8 * row + 7)) % 8 + 9 = 16 := by omega
    rw [row_eq, rest_eq, power, first]
    omega
  · have row_eq : (quotient + (8 * row + 7)) / 8 + 2 = row + 4 := by omega
    have rest_eq : (quotient + (8 * row + 7)) % 8 + 9 = quotient := by omega
    rw [row_eq, rest_eq]

theorem zoneindex_row (row : Nat) (row_le : row ≤ 6) {bytes : Nat}
    (low : 2 ^ (row + 7) ≤ bytes) (high : bytes < 2 ^ (row + 8)) :
    Word32.alignUp bytes (2 ^ (row + 4)) / 2 ^ (row + 4) + (8 * row + 7) < nzones ∧
      chunkSize (Word32.alignUp bytes (2 ^ (row + 4)) / 2 ^ (row + 4) + (8 * row + 7)) =
        Word32.alignUp bytes (2 ^ (row + 4)) := by
  have limit := Nat.pow_le_pow_right (by decide : 0 < 2) (by omega : row + 8 ≤ 14)
  obtain ⟨le, lt, quotient, rounded⟩ :=
    alignUp_bounds (by omega : row + 4 ≤ 10) (Nat.lt_of_lt_of_le high limit)
  have pos := Nat.two_pow_pos (row + 4)
  have lowEq : 2 ^ (row + 7) = 2 ^ (row + 4) * 8 := Nat.pow_add 2 (row + 4) 3
  have highEq : 2 ^ (row + 8) = 2 ^ (row + 4) * 16 := Nat.pow_add 2 (row + 4) 4
  rw [rounded, Nat.mul_div_cancel_left _ pos]
  have low : 8 ≤ quotient := by
    apply Nat.le_of_mul_le_mul_left _ pos
    omega
  have high : quotient < 17 := by
    apply Nat.lt_of_mul_lt_mul_left (a := 2 ^ (row + 4))
    omega
  exact ⟨by unfold nzones; omega, chunkSize_row row quotient low (by omega)⟩

theorem zoneindex_cases {bytes : Nat} (pos : 0 < bytes) (small : bytes < 16384) :
    ∃ bits ≤ 10, (zoneindex bytes).2 = Word32.alignUp bytes (2 ^ bits) ∧
      (zoneindex bytes).1 < nzones ∧
      chunkSize (zoneindex bytes).1 = Word32.alignUp bytes (2 ^ bits) := by
  unfold zoneindex
  split_ifs with below128 below256 below8192 below512 below1024 below2048 below4096
  · obtain ⟨le, lt, quotient, rounded⟩ := alignUp_bounds (by decide : 3 ≤ 10) small
    refine ⟨3, by decide, rfl, ?_⟩
    simp only [Nat.reducePow] at le lt rounded
    simp only [Nat.reducePow, rounded, Nat.mul_div_cancel_left _ (by decide : 0 < 8), nzones]
    rcases Nat.lt_or_ge quotient 9 with few | many
    · rw [chunkSize, if_pos (by omega)]
      omega
    · rw [chunkSize, if_neg (by omega), (by omega : (quotient - 1) / 8 + 2 = 3)]
      omega
  · exact ⟨4, by decide, rfl, zoneindex_row 0 (by decide) (by omega) (by omega)⟩
  · exact ⟨5, by decide, rfl, zoneindex_row 1 (by decide) (by omega) (by omega)⟩
  · exact ⟨6, by decide, rfl, zoneindex_row 2 (by decide) (by omega) (by omega)⟩
  · exact ⟨7, by decide, rfl, zoneindex_row 3 (by decide) (by omega) (by omega)⟩
  · exact ⟨8, by decide, rfl, zoneindex_row 4 (by decide) (by omega) (by omega)⟩
  · exact ⟨9, by decide, rfl, zoneindex_row 5 (by decide) (by omega) (by omega)⟩
  · exact ⟨10, by decide, rfl, zoneindex_row 6 (by decide) (by omega) (by omega)⟩

theorem zoneindex_spec {bytes limit : Nat} (pos : 0 < bytes) (below : bytes < limit)
    (limit_le : limit ≤ 16384) (divides : 1024 ∣ limit) :
    (zoneindex bytes).1 < nzones ∧ (zoneindex bytes).2 = chunkSize (zoneindex bytes).1 ∧
      chunkSize (zoneindex bytes).1 ≤ limit ∧ bytes ≤ chunkSize (zoneindex bytes).1 := by
  obtain ⟨bits, bits_le, size, inRange, rounded⟩ :=
    zoneindex_cases pos (Nat.lt_of_lt_of_le below limit_le)
  have power := Nat.pow_le_pow_right (by decide : 0 < 2) bits_le
  refine ⟨inRange, by rw [size, rounded], ?_, ?_⟩
  · rw [rounded]
    apply Word32.alignUp_le_of_dvd (by omega) (by omega) _ (Nat.le_of_lt below)
    exact Nat.dvd_trans (Nat.pow_dvd_pow 2 bits_le) divides
  · rw [rounded]
    exact (alignUp_bounds bits_le (Nat.lt_of_lt_of_le below limit_le)).1

theorem chunkOffset_bounds : ∀ zi < nzones, sizeofSlabZone ≤ State.chunkOffset (chunkSize zi) ∧
    State.chunkOffset (chunkSize zi) ≤ max (chunkSize zi) 64 := by
  decide +kernel

theorem three_chunks {zi zoneSize : Nat} (inRange : zi < nzones)
    (minimum : zallocMinZoneSize ≤ zoneSize) (quarter : chunkSize zi ≤ zoneSize / 4) :
    3 ≤ (zoneSize - State.chunkOffset (chunkSize zi)) / chunkSize zi := by
  obtain ⟨-, above⟩ := chunkOffset_bounds zi inRange
  simp only [zallocMinZoneSize] at minimum
  rw [Nat.le_div_iff_mul_le (chunkSize_pos zi)]
  omega

end RtThread.Slab
