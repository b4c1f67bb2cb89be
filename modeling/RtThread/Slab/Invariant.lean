import RtThread.Library.Chain
import RtThread.Slab.Basic

/-!
# What the slab allocator keeps

A view of the heap names the lists of zones behind `zone_array` and `zone_free`, the slots of each
zone and the holder of each page.
-/

open Function (update update_of_ne update_self)

namespace RtThread.Slab

inductive Holder where
  | zone (z : Nat)
  | block (ptr : Nat)

structure View where
  /-- The zones of each `zone_array` list, and at `none` those of `zone_free`. -/
  list : Option Nat → List Nat
  pool : Nat → SlotPool
  holder : Nat → Option Holder

def SlabZone.chunk (zone : SlabZone) (slot : Nat) : Nat := zone.baseptr + slot * zone.chunksize

namespace State

def heads (slab : State) : Option Nat → Option Nat
  | some zi => slab.zoneArray zi
  | none => slab.zoneFree

@[simp] theorem setZone_zone_self {slab : State} {z : Nat} {zone : SlabZone} :
    (slab.setZone z zone).zone z = some zone := update_self ..

theorem setZone_zone_of_ne {slab : State} {z y : Nat} {zone : SlabZone} (ne : y ≠ z) :
    (slab.setZone z zone).zone y = slab.zone y := update_of_ne ne ..

def startPage (slab : State) : Nat := slab.heapStart / pageSize

def endPage (slab : State) : Nat := slab.heapEnd / pageSize

def kup (slab : State) (page : Nat) : Memusage := slab.memusage (page - slab.startPage)

end State

/-- What `rt_system_heap_init` fixes for good. -/
structure Geometry (slab : State) : Prop where
  minimum : zallocMinZoneSize ≤ slab.zoneSize
  whole : pageSize ∣ slab.zoneSize
  limit : slab.zoneLimit ≤ slab.zoneSize / 4 ∧ slab.zoneLimit ≤ zallocZoneLimit
  limitWhole : 1024 ∣ slab.zoneLimit
  pages : slab.zonePageCnt = slab.zoneSize / pageSize
  aligned : pageSize ∣ slab.heapStart
  start_pos : 0 < slab.heapStart
  end_lt : slab.heapEnd < 2 ^ 32

structure PagesFree (slab : State) (holder : Nat → Option Holder) : Prop where
  ordered : Extents.Ordered slab.startPage slab.rtPageList
  below : ∀ page, Extents.Free slab.rtPageList page → page < slab.endPage
  heldWithin : ∀ page, (holder page).isSome → slab.startPage ≤ page ∧ page < slab.endPage
  apart : ∀ page, Extents.Free slab.rtPageList page → holder page = none

structure Placed (slab : State) (holder : Nat → Option Holder) (z : Nat) : Prop where
  aligned : pageSize ∣ z
  pages : ∀ off < slab.zonePageCnt, holder (z / pageSize + off) = some (.zone z) ∧
      slab.kup (z / pageSize + off) = ⟨.small, off⟩

/-- A zone in use: its counters and its free list describe the slots of `pool`. -/
structure ZoneSound (zoneSize : Nat) (cNext : Nat → Option Nat) (z : Nat) (zone : SlabZone)
    (pool : SlotPool) : Prop where
  magic : zone.magic = zallocSlabMagic
  zoneindex_lt : zone.zoneindex < nzones
  chunksize : zone.chunksize = chunkSize zone.zoneindex
  header : z + sizeofSlabZone ≤ zone.baseptr
  room : zone.baseptr + zone.nmax * zone.chunksize ≤ z + zoneSize
  issued : pool.issued = zone.uindex + 1
  sound : pool.Sound zone.nmax
  nfree : zone.nfree = pool.free zone.nmax
  freechunk : Chain cNext zone.freechunk (pool.returned.map zone.chunk)

/-- The words of the allocator agree with a view. -/
structure Sound (slab : State) (view : View) : Prop where
  geometry : Geometry slab
  pages : PagesFree slab view.holder
  table : ChainTable slab.zNext slab.heads view.list
  linked : ∀ zi z, z ∈ view.list (some zi) ↔
    ∃ zone, slab.zone z = some zone ∧ zone.zoneindex = zi ∧ 0 < zone.nfree ∧ z ∉ view.list none
  freed : ∀ z ∈ view.list none, (slab.zone z).isSome
  freedCount : slab.zoneFreeCnt = (view.list none).length
  placed : ∀ z zone, slab.zone z = some zone → Placed slab view.holder z
  zones : ∀ z zone, slab.zone z = some zone → z ∉ view.list none →
    ZoneSound slab.zoneSize slab.cNext z zone (view.pool z)

/-- What a pointer from `rt_malloc` is: a chunk of a zone in use, or whole pages. -/
inductive Allocated (slab : State) (view : View) (ptr : Nat) : Prop where
  | chunk (z : Nat) (zone : SlabZone) (slot : Nat) (isZone : slab.zone z = some zone)
      (inUse : z ∉ view.list none) (address : ptr = zone.chunk slot)
      (held : (view.pool z).Held slot)
  | block (page count : Nat) (address : ptr = page * pageSize) (positive : 0 < count)
      (large : slab.kup page = ⟨.large, count⟩)
      (held : ∀ off < count, view.holder (page + off) = some (.block ptr))

structure Kept (heap : Heap) (view : View) : Prop where
  sound : Sound heap.slab view
  allocated : ∀ ptr ∈ heap.live, Allocated heap.slab view ptr
  nodup : heap.live.Nodup

structure Inv (heap : Heap) (view : View) : Prop extends Kept heap view where
  freed_le : (view.list none).length ≤ zoneReleaseThresh

section Pages

variable {slab : State} {view : View}

section

variable (geometry : Geometry slab)

include geometry

theorem Geometry.start_eq :
    slab.heapStart = slab.startPage * pageSize := (Nat.div_mul_cancel geometry.aligned).symm

theorem Geometry.btokup_page {page : Nat} (inHeap : slab.startPage ≤ page ∧ page < slab.endPage) :
    slab.btokup (page * pageSize) = page - slab.startPage := by
  obtain ⟨above, below⟩ := inHeap
  have end_lt := geometry.end_lt
  have page_lt : page * pageSize < 2 ^ 32 := by
    simp only [State.endPage, pageSize] at below ⊢
    omega
  have start_le : slab.heapStart ≤ page * pageSize := by
    rw [geometry.start_eq]
    exact Nat.mul_le_mul_right _ above
  rw [State.btokup, Word32.sub_eq start_le page_lt, geometry.start_eq, ← Nat.sub_mul,
    Nat.mul_div_cancel _ (by decide : 0 < pageSize)]

theorem Geometry.kup_setMemusage {start n page : Nat} {kup : Nat → Memusage}
    (inHeap : slab.startPage ≤ start ∧ start < slab.endPage) (above : slab.startPage ≤ page) :
    (slab.setMemusage (start * pageSize) n kup).kup page =
      (⟨start, n⟩ : Extent).fill kup slab.kup page := by
  have startPage_eq : (slab.setMemusage (start * pageSize) n kup).startPage = slab.startPage := rfl
  have memusage_eq : (slab.setMemusage (start * pageSize) n kup).memusage =
      (⟨start - slab.startPage, n⟩ : Extent).fill kup slab.memusage := by
    rw [← geometry.btokup_page inHeap]
    rfl
  rw [State.kup, startPage_eq, memusage_eq]
  by_cases covers : (⟨start, n⟩ : Extent).Covers page
  · have shifted : (⟨start - slab.startPage, n⟩ : Extent).Covers (page - slab.startPage) := by
      simp only [Extent.Covers, Extent.stop] at *
      omega
    rw [Extent.fill_of_covers covers, Extent.fill_of_covers shifted]
    congr 1
    simp only at *
    omega
  · have shifted : ¬ (⟨start - slab.startPage, n⟩ : Extent).Covers
        (page - slab.startPage) := by
      simp only [Extent.Covers, Extent.stop] at *
      omega
    rw [Extent.fill_of_not_covers covers, Extent.fill_of_not_covers shifted]
    rfl

theorem Geometry.pageCnt_pos : 0 < slab.zonePageCnt := by
  have minimum := geometry.minimum
  simp only [geometry.pages, zallocMinZoneSize, pageSize] at *
  omega

theorem Geometry.zone_pages : slab.zonePageCnt * pageSize = slab.zoneSize := by
  rw [geometry.pages, Nat.div_mul_cancel geometry.whole]

end

end Pages

variable {holder : Nat → Option Holder}

section Zones

variable {slab : State} {view : View} {z slot : Nat} {zone : SlabZone} {pool : SlotPool}

theorem ZoneSound.chunksize_pos (zoneSound : ZoneSound slab.zoneSize slab.cNext z zone pool) :
    0 < zone.chunksize := zoneSound.chunksize ▸ chunkSize_pos _

theorem SlabZone.chunk_injective (pos : 0 < zone.chunksize) : Function.Injective zone.chunk := by
  intro a second equal
  exact Nat.eq_of_mul_eq_mul_right pos (Nat.add_left_cancel equal)

section

variable (zoneSound : ZoneSound slab.zoneSize slab.cNext z zone pool)

include zoneSound

theorem ZoneSound.chunk_bounds (below : slot < zone.nmax) :
    z < zone.chunk slot ∧ zone.chunk slot < z + slab.zoneSize := by
  have header := zoneSound.header
  have room := zoneSound.room
  have next := Nat.mul_le_mul_right zone.chunksize below
  have pos := zoneSound.chunksize_pos
  rw [Nat.succ_mul] at next
  simp only [SlabZone.chunk, sizeofSlabZone] at *
  omega

theorem ZoneSound.chunk_page (geometry : Geometry slab) (placed : Placed slab holder z)
    (below : slot < zone.nmax) :
    ∃ off < slab.zonePageCnt, zone.chunk slot / pageSize = z / pageSize + off := by
  obtain ⟨above, within⟩ := zoneSound.chunk_bounds below
  have pages := geometry.zone_pages
  obtain ⟨page, rfl⟩ := placed.aligned
  simp only [pageSize] at *
  exact ⟨zone.chunk slot / 4096 - page, by omega, by omega⟩

theorem ZoneSound.holder_chunk (geometry : Geometry slab) (placed : Placed slab holder z)
    (below : slot < zone.nmax) : holder (zone.chunk slot / pageSize) = some (.zone z) := by
  obtain ⟨off, off_lt, page_eq⟩ := zoneSound.chunk_page geometry placed below
  rw [page_eq]
  exact (placed.pages off off_lt).1

end

theorem Sound.holder_chunk (inv : Sound slab view) (isZone : slab.zone z = some zone)
    (inUse : z ∉ view.list none) (below : slot < zone.nmax) :
    view.holder (zone.chunk slot / pageSize) = some (.zone z) :=
  (inv.zones z zone isZone inUse).holder_chunk inv.geometry (inv.placed z zone isZone) below

theorem Sound.held_lt (inv : Sound slab view) (isZone : slab.zone z = some zone)
    (inUse : z ∉ view.list none) (held : (view.pool z).Held slot) : slot < zone.nmax :=
  Nat.lt_of_lt_of_le held.1 (inv.zones z zone isZone inUse).sound.issued_le

theorem Sound.holder_zone (inv : Sound slab view) (isZone : slab.zone z = some zone) :
    view.holder (z / pageSize) = some (.zone z) :=
  ((inv.placed z zone isZone).pages 0 inv.geometry.pageCnt_pos).1

end Zones

section Changes

variable {slab : State} {view : View}

theorem Sound.not_mem_of_none (inv : Sound slab view) {z : Nat} (isNone : slab.zone z = none)
    (p : Option Nat) : z ∉ view.list p := by
  intro mem
  cases p with
  | none => simpa [isNone] using inv.freed z mem
  | some zi =>
    obtain ⟨zone, isZone, -⟩ := (inv.linked zi z).mp mem
    simp [isNone] at isZone

theorem Sound.setPages (inv : Sound slab view) {pages : List Extent} {memusage : Nat → Memusage}
    {gone : Option Holder} (free : PagesFree { slab with rtPageList := pages, memusage } holder)
    (absent : ∀ z, gone = some (.zone z) → slab.zone z = none)
    (keep : ∀ page, view.holder page ≠ gone → slab.startPage ≤ page →
      holder page = view.holder page ∧ memusage (page - slab.startPage) = slab.kup page) :
    Sound { slab with rtPageList := pages, memusage } { view with holder } := by
  have placed : ∀ z zone, slab.zone z = some zone →
      Placed { slab with rtPageList := pages, memusage } holder z := by
    intro z zone isZone
    have before := inv.placed z zone isZone
    refine ⟨before.aligned, fun off off_lt => ?_⟩
    obtain ⟨held, kup⟩ := before.pages off off_lt
    have ne : view.holder (z / pageSize + off) ≠ gone := by
      intro equal
      rw [absent z (equal.symm.trans held)] at isZone
      exact nomatch isZone
    have above := (inv.pages.heldWithin (z / pageSize + off) (by simp [held])).1
    obtain ⟨holder_eq, memusage_eq⟩ := keep _ ne above
    exact ⟨holder_eq ▸ held, memusage_eq.trans kup⟩
  exact
    { geometry := { inv.geometry with }
      pages := free
      table := inv.table
      linked := inv.linked
      freed := inv.freed
      freedCount := inv.freedCount
      placed
      zones := inv.zones }

theorem Sound.setZone (inv : Sound slab view) {z : Nat} {zone : SlabZone} {pool : SlotPool}
    {zoneArray zNext cNext : Nat → Option Nat} {lists : Option Nat → List Nat}
    (placed : Placed slab view.holder z) (inUse : z ∉ view.list none)
    (table : ChainTable zNext ({ slab with zoneArray }.heads) lists)
    (freed : lists none = view.list none)
    (linked : ∀ zi, z ∈ lists (some zi) ↔ zone.zoneindex = zi ∧ 0 < zone.nfree)
    (others : ∀ zi y, y ≠ z → (y ∈ lists (some zi) ↔ y ∈ view.list (some zi)))
    (zoneSound : ZoneSound slab.zoneSize cNext z zone pool)
    (agree : ∀ chunk, view.holder (chunk / pageSize) ≠ some (.zone z) →
      cNext chunk = slab.cNext chunk) :
    Sound { slab.setZone z zone with zoneArray, zNext, cNext }
      { view with list := lists, pool := update view.pool z pool } := by
  have isZone_of : ∀ y u, y ≠ z → (slab.setZone z zone).zone y = some u →
      slab.zone y = some u := by
    intro y u ne isZone
    rwa [State.setZone_zone_of_ne ne] at isZone
  have atZ : (slab.setZone z zone).zone z = some zone := State.setZone_zone_self
  refine
    { geometry := { inv.geometry with }
      pages := { inv.pages with }
      table := table
      linked := ?_
      freed := ?_
      freedCount := inv.freedCount.trans (congrArg List.length freed.symm)
      placed := ?_
      zones := ?_ }
  · intro zi y
    simp only [freed]
    by_cases same : y = z
    · subst same
      simp only [linked, atZ, Option.some.injEq, exists_eq_left', inUse, not_false_iff, and_true]
    · rw [others zi y same, inv.linked]
      simp only [State.setZone_zone_of_ne same]
  · intro y mem
    have mem : y ∈ view.list none := freed ▸ mem
    have ne : y ≠ z := fun same => inUse (same ▸ mem)
    simp only [State.setZone_zone_of_ne ne]
    exact inv.freed y mem
  · intro y u isZone
    by_cases same : y = z
    · subst same
      exact { placed with }
    · exact { inv.placed y u (isZone_of y u same isZone) with }
  · intro y u isZone yInUse
    simp only [freed] at yInUse
    by_cases same : y = z
    · subst same
      obtain rfl : zone = u := Option.some.inj (atZ.symm.trans isZone)
      simp only [update_self]
      exact zoneSound
    · have isZone := isZone_of y u same isZone
      have before := inv.zones y u isZone yInUse
      simp only [update_of_ne same]
      refine { before with freechunk := before.freechunk.congr ?_ }
      intro chunk mem
      obtain ⟨slot, ret, rfl⟩ := List.mem_map.mp mem
      apply agree
      have below := Nat.lt_of_lt_of_le (before.sound.wasIssued slot ret)
        before.sound.issued_le
      rw [inv.holder_chunk isZone yInUse below]
      simpa using same

section Allocated

variable {ptr : Nat}

theorem block_page {page : Nat} (address : ptr = page * pageSize) : ptr / pageSize = page := by
  rw [address, Nat.mul_div_cancel page (by decide : 0 < pageSize)]

theorem Allocated.holder_cases (allocated : Allocated slab view ptr) (inv : Sound slab view) :
    view.holder (ptr / pageSize) = some (.block ptr) ∨
      ∃ z, view.holder (ptr / pageSize) = some (.zone z) ∧ (slab.zone z).isSome ∧
        z ∉ view.list none := by
  cases allocated with
  | chunk z zone slot isZone inUse address held =>
    refine .inr ⟨z, ?_, by simp [isZone], inUse⟩
    rw [address]
    exact inv.holder_chunk isZone inUse (inv.held_lt isZone inUse held)
  | block page n address pos large held =>
    left
    have first := held 0 pos
    rwa [Nat.add_zero, ← block_page address] at first

theorem Sound.slot_unique (inv : Sound slab view) {z u slot second : Nat}
    {zone otherZone : SlabZone} (isZone : slab.zone z = some zone) (inUse : z ∉ view.list none)
    (below : slot < zone.nmax) (isOther : slab.zone u = some otherZone)
    (otherInUse : u ∉ view.list none) (otherBelow : second < otherZone.nmax)
    (equal : zone.chunk slot = otherZone.chunk second) : z = u ∧ slot = second := by
  have same : z = u := by
    have := inv.holder_chunk isZone inUse below
    rw [equal, inv.holder_chunk isOther otherInUse otherBelow] at this
    simpa using this.symm
  subst same
  obtain rfl : zone = otherZone := Option.some.inj (isZone.symm.trans isOther)
  exact ⟨rfl, SlabZone.chunk_injective (inv.zones z zone isZone inUse).chunksize_pos equal⟩

theorem Sound.not_allocated (inv : Sound slab view) {z slot : Nat} {zone : SlabZone}
    (isZone : slab.zone z = some zone) (inUse : z ∉ view.list none) (below : slot < zone.nmax)
    (notHeld : ¬ (view.pool z).Held slot) : ¬ Allocated slab view (zone.chunk slot) := by
  intro allocated
  cases allocated with
  | chunk u otherZone second isOther otherInUse address held =>
    obtain ⟨rfl, rfl⟩ := inv.slot_unique isZone inUse below isOther otherInUse
      (inv.held_lt isOther otherInUse held) address
    exact notHeld held
  | block page n address pos large held =>
    have first := held 0 pos
    rw [Nat.add_zero, ← block_page address, inv.holder_chunk isZone inUse below] at first
    exact nomatch first

theorem Allocated.setPages (allocated : Allocated slab view ptr) (inv : Sound slab view)
    {pages : List Extent} {memusage : Nat → Memusage}
    {gone : Option Holder} (notGone : gone ≠ some (.block ptr))
    (keep : ∀ page, view.holder page ≠ gone → slab.startPage ≤ page →
      holder page = view.holder page ∧ memusage (page - slab.startPage) = slab.kup page) :
    Allocated { slab with rtPageList := pages, memusage } { view with holder } ptr := by
  cases allocated with
  | chunk z zone slot isZone inUse a held =>
    exact .chunk z zone slot isZone inUse a held
  | block page n a pos large held =>
    have kept : ∀ off < n, holder (page + off) = view.holder (page + off) ∧
        memusage (page + off - slab.startPage) = slab.kup (page + off) := by
      intro off off_lt
      have isHeld := held off off_lt
      have above := (inv.pages.heldWithin (page + off) (by simp [isHeld])).1
      exact keep _ (fun equal => notGone (equal ▸ isHeld)) above
    refine .block page n a pos ((kept 0 pos).2.trans large) ?_
    intro off off_lt
    exact (kept off off_lt).1.trans (held off off_lt)

theorem Allocated.setZone (allocated : Allocated slab view ptr) {z : Nat} {zone : SlabZone}
    {pool : SlotPool} {zoneArray zNext cNext : Nat → Option Nat} {lists : Option Nat → List Nat}
    (freed : lists none = view.list none)
    (kept : ∀ before slot, slab.zone z = some before → ptr = before.chunk slot →
      (view.pool z).Held slot → zone.chunk slot = before.chunk slot ∧ pool.Held slot) :
    Allocated { slab.setZone z zone with zoneArray, zNext, cNext }
      { view with list := lists, pool := update view.pool z pool } ptr := by
  cases allocated with
  | chunk y before slot isZone inUse a held =>
    by_cases same : y = z
    · subst same
      obtain ⟨chunk_eq, stillHeld⟩ := kept before slot isZone a held
      refine .chunk y zone slot State.setZone_zone_self ?_ (a.trans chunk_eq.symm) ?_
      · simpa only [freed] using inUse
      · simpa only [update_self] using stillHeld
    · refine .chunk y before slot ((State.setZone_zone_of_ne same).trans isZone) ?_ a ?_
      · simpa only [freed] using inUse
      · simpa only [update_of_ne same] using held
  | block page n a pos large held =>
    exact .block page n a pos large held

end Allocated

end Changes

end RtThread.Slab
