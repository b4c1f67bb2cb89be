import RtThread.Slab.Allocation

/-!
# Release

What `rt_free` does with an allocated pointer in a heap that keeps its invariant.
-/

open Function (update update_of_ne update_self)

namespace RtThread.Slab

variable {slab : State}

section Search

variable {zNext : Nat → Option Nat} {z : Nat}

theorem findZone_spec {front rest : List Nat} {current : Option Nat}
    (chain : Chain zNext current (front ++ z :: rest)) (outside : z ∉ front) {fuel : Nat}
    (enough : front.length < fuel) (pz : Option Nat) :
    findZone zNext z fuel pz current = some (front.getLast?.or pz) := by
  induction front generalizing current fuel pz with
  | nil =>
    obtain ⟨isFirst, -⟩ := chain
    cases fuel with
    | zero => exact absurd enough (Nat.not_lt_zero _)
    | succ fuel => simp [findZone, isFirst]
  | cons a more ih =>
    obtain ⟨isFirst, chain⟩ := chain
    obtain ⟨ne, outside⟩ := not_or.mp (List.mem_cons.not.mp outside)
    cases fuel with
    | zero => exact absurd enough (Nat.not_lt_zero _)
    | succ fuel =>
      have shorter : more.length < fuel := by simpa using enough
      have notHere : ¬ some a = some z := fun equal => ne (by simpa using equal.symm)
      simp only [findZone, isFirst, if_neg notHere]
      rw [ih chain outside shorter]
      rw [List.getLast?_cons]
      cases more.getLast? <;> rfl

theorem Sound.list_length_le {view : View} (inv : Sound slab view) (zi : Nat) :
    (view.list (some zi)).length ≤ (slab.heapEnd - slab.heapStart) / pageSize := by
  have holder_of : ∀ z ∈ view.list (some zi), view.holder (z / pageSize) = some (.zone z) := by
    intro z mem
    obtain ⟨zone, isZone, -⟩ := (inv.linked zi z).mp mem
    exact inv.holder_zone isZone
  have distinct : ((view.list (some zi)).map (· / pageSize)).Nodup := by
    refine List.Nodup.map_on ?_ (inv.table.nodup _)
    intro a inFirst second inSecond equal
    have := holder_of a inFirst
    rw [equal, holder_of second inSecond] at this
    simpa using this.symm
  have within : (view.list (some zi)).map (· / pageSize) ⊆
      List.range' slab.startPage (slab.endPage - slab.startPage) := by
    intro page mem
    obtain ⟨z, inList, rfl⟩ := List.mem_map.mp mem
    have bounds := inv.pages.heldWithin (z / pageSize) (by simp [holder_of z inList])
    rw [List.mem_range'_1]
    omega
  have length_le := (List.subperm_of_subset distinct within).length_le
  rw [List.length_map, List.length_range'] at length_le
  have start_eq := inv.geometry.start_eq
  simp only [State.endPage, pageSize] at *
  omega

end Search

section GiveChunk

variable {heap : Heap} {view : View} {z slot : Nat} {zone : SlabZone}

theorem Inv.giveChunk (inv : Inv heap view) (isZone : heap.slab.zone z = some zone)
    (inUse : z ∉ view.list none) (held : (view.pool z).Held slot) :
    ∃ after, Inv ⟨heap.slab.giveChunk z zone (zone.chunk slot),
        heap.live.erase (zone.chunk slot)⟩ after ∧
      (heap.slab.giveChunk z zone (zone.chunk slot)).zone z =
        some { zone with freechunk := some (zone.chunk slot), nfree := zone.nfree + 1 } ∧
      z ∉ after.list none := by
  have sound := inv.sound
  have before := sound.zones z zone isZone inUse
  have placed := sound.placed z zone isZone
  have below := sound.held_lt isZone inUse held
  have injective := SlabZone.chunk_injective before.chunksize_pos
  have outsideChain : zone.chunk slot ∉ (view.pool z).returned.map zone.chunk := by
    intro mem
    obtain ⟨u, ret, equal⟩ := List.mem_map.mp mem
    exact held.2 (injective equal ▸ ret)
  have zoneSound : ZoneSound heap.slab.zoneSize
      (update heap.slab.cNext (zone.chunk slot) zone.freechunk) z
      { zone with freechunk := some (zone.chunk slot), nfree := zone.nfree + 1 }
      ((view.pool z).give slot) :=
    { before with
      issued := before.issued
      sound := before.sound.give held
      nfree := by simp only [before.nfree, SlotPool.give_free]
      freechunk := before.freechunk.push outsideChain }
  have agree : ∀ chunk, view.holder (chunk / pageSize) ≠ some (.zone z) →
      update heap.slab.cNext (zone.chunk slot) zone.freechunk chunk = heap.slab.cNext chunk := by
    intro chunk elsewhere
    apply update_of_ne
    rintro rfl
    exact elsewhere (sound.holder_chunk isZone inUse below)
  have kept : ∀ ptr ∈ heap.live.erase (zone.chunk slot), ∀ u second,
      heap.slab.zone z = some u → ptr = u.chunk second → (view.pool z).Held second →
        zone.chunk second = u.chunk second ∧ ((view.pool z).give slot).Held second := by
    intro ptr live u second isOther a heldSecond
    obtain rfl : zone = u := Option.some.inj (isZone.symm.trans isOther)
    refine ⟨rfl, (SlotPool.held_give_iff second).mpr ⟨heldSecond, ?_⟩⟩
    rintro rfl
    exact ((inv.nodup.mem_erase_iff).mp live).1 a
  have linked_iff : ∀ zi, z ∈ view.list (some zi) ↔ zone.zoneindex = zi ∧ 0 < zone.nfree := by
    intro zi
    simp only [sound.linked, isZone, Option.some.injEq, exists_eq_left', inUse, not_false_iff,
      and_true]
  by_cases full : zone.nfree = 0
  · have outside : ∀ p, z ∉ view.list p := by
      intro p mem
      cases p with
      | none => exact inUse mem
      | some zi =>
        have := ((linked_iff zi).mp mem).2
        omega
    have table := sound.table.push (some zone.zoneindex) outside
    have freed : update view.list (some zone.zoneindex)
        (z :: view.list (some zone.zoneindex)) none = view.list none :=
      update_of_ne (by simp) ..
    rw [← heads_zoneArray] at table
    have members : ∀ zi y, y ∈ update view.list (some zone.zoneindex)
        (z :: view.list (some zone.zoneindex)) (some zi) ↔
          y ∈ view.list (some zi) ∨ (y = z ∧ zi = zone.zoneindex) := by
      intro zi y
      rw [ChainTable.mem_pushed_iff, Option.some.injEq]
    have after := sound.setZone placed inUse table freed
      (fun zi => by simp [members, outside, eq_comm])
      (fun zi y ne => by simp [members, ne]) zoneSound agree
    have given : heap.slab.giveChunk z zone (zone.chunk slot) = _ := if_pos full
    rw [given]
    refine ⟨_, ⟨⟨after, ?_, inv.nodup.erase _⟩, freed ▸ inv.freed_le⟩, State.setZone_zone_self,
      freed ▸ inUse⟩
    intro ptr live
    exact (inv.allocated ptr (List.mem_of_mem_erase live)).setZone freed (kept ptr live)
  · have after := sound.setZone placed inUse sound.table rfl
      (fun zi => by rw [linked_iff]; simp only; omega) (fun _ _ _ => Iff.rfl) zoneSound agree
    have given : heap.slab.giveChunk z zone (zone.chunk slot) = _ := if_neg full
    rw [given]
    refine ⟨_, ⟨⟨after, ?_, inv.nodup.erase _⟩, inv.freed_le⟩, State.setZone_zone_self, inUse⟩
    intro ptr live
    exact (inv.allocated ptr (List.mem_of_mem_erase live)).setZone rfl (kept ptr live)

end GiveChunk

section WholeZone

variable {heap : Heap} {view : View} {z : Nat} {zone : SlabZone}

theorem Sound.unlinkZone (inv : Sound slab view) {zi : Nat} (linked : z ∈ view.list (some zi)) :
    ∃ zoneArray zNext lists, slab.unlinkZone z zi = some { slab with zoneArray, zNext } ∧
      ChainTable zNext ({ slab with zoneArray }.heads) lists ∧ lists none = view.list none ∧
      ∀ p y, y ∈ lists p ↔ y ∈ view.list p ∧ y ≠ z := by
  have length_le := inv.list_length_le zi
  obtain ⟨front, rest, list_eq⟩ := List.append_of_mem linked
  have nodup := inv.table.nodup (some zi)
  have chain := inv.table.chain (some zi)
  have members := fun p y =>
    @ChainTable.mem_removed_iff _ _ _ _ _ _ inv.table (some zi) z front rest list_eq p y
  rw [list_eq] at nodup chain length_le
  have outside : z ∉ front := fun inFront =>
    (List.nodup_cons.mp (List.nodup_middle.mp nodup)).1 (List.mem_append_left _ inFront)
  have enough : front.length < (slab.heapEnd - slab.heapStart) / pageSize + 1 := by
    rw [List.length_append] at length_le
    omega
  have found := findZone_spec chain outside enough none
  rw [Option.or_none] at found
  simp only [State.heads] at found
  cases isLast : front.getLast? with
  | none =>
    rw [List.getLast?_eq_none_iff] at isLast
    subst isLast
    have table := inv.table.pop list_eq
    rw [← heads_zoneArray] at table
    exact ⟨_, _, _, by simp only [State.unlinkZone, found, List.getLast?_nil], table,
      update_of_ne (by simp) .., members⟩
  | some last =>
    have table := inv.table.removeBehind list_eq isLast
    exact ⟨_, _, _, by simp only [State.unlinkZone, found, isLast], table,
      update_of_ne (by simp) .., members⟩

theorem Kept.retireZone (kept : Kept heap view) (isZone : heap.slab.zone z = some zone)
    (inUse : z ∉ view.list none) (allFree : zone.nfree = zone.nmax)
    {zoneArray zNext : Nat → Option Nat} {lists : Option Nat → List Nat}
    (table : ChainTable zNext ({ heap.slab with zoneArray }.heads) lists)
    (freed : lists none = view.list none) (members : ∀ p y, y ∈ lists p ↔ y ∈ view.list p ∧ y ≠ z) :
    Kept ⟨{ heap.slab with zoneArray, zNext }.retireZone z zone, heap.live⟩
      { view with list := update lists none (z :: view.list none) } := by
  have inv := kept.sound
  have before := inv.zones z zone isZone inUse
  have noneHeld := before.sound.not_held_of_free_eq (before.nfree.symm.trans allFree)
  have pushed := table.push none fun p mem =>
    ((members p z).mp mem).2 rfl
  rw [← heads_zoneFree, freed] at pushed
  have isZone_iff : ∀ y u, y ≠ z →
      ((heap.slab.setZone z { zone with magic := -1 }).zone y = some u ↔
        heap.slab.zone y = some u) := by
    intro y u ne
    rw [State.setZone_zone_of_ne ne]
  have freed_iff : ∀ y, y ∈ z :: view.list none ↔ y = z ∨ y ∈ view.list none :=
    fun y => List.mem_cons
  have after : Sound ({ heap.slab with zoneArray, zNext }.retireZone z zone)
      { view with list := update lists none (z :: view.list none) } :=
    { geometry := { inv.geometry with }
      pages := { inv.pages with }
      table := pushed
      linked := by
        intro zi y
        simp only [update_of_ne (by simp : some zi ≠ none), update_self, members,
          inv.linked, freed_iff, not_or]
        constructor
        · rintro ⟨⟨u, isOther, i, filled, otherInUse⟩, ne⟩
          exact ⟨u, (isZone_iff y u ne).mpr isOther, i, filled, ne, otherInUse⟩
        · rintro ⟨u, isOther, i, filled, ne, otherInUse⟩
          exact ⟨⟨u, (isZone_iff y u ne).mp isOther, i, filled, otherInUse⟩, ne⟩
      freed := by
        intro y mem
        simp only [update_self, freed_iff] at mem
        by_cases same : y = z
        · subst same
          exact Option.isSome_iff_exists.mpr ⟨_, State.setZone_zone_self⟩
        · obtain ⟨u, isOther⟩ := Option.isSome_iff_exists.mp (inv.freed y (mem.resolve_left same))
          exact Option.isSome_iff_exists.mpr ⟨u, (isZone_iff y u same).mpr isOther⟩
      freedCount := by
        simp only [update_self, List.length_cons, ← inv.freedCount]
        rfl
      placed := by
        intro y u isOther
        by_cases same : y = z
        · subst same
          exact { inv.placed y zone isZone with }
        · exact { inv.placed y u ((isZone_iff y u same).mp isOther) with }
      zones := by
        intro y u isOther otherInUse
        simp only [update_self, freed_iff, not_or] at otherInUse
        exact inv.zones y u ((isZone_iff y u otherInUse.1).mp isOther) otherInUse.2 }
  refine ⟨after, fun ptr live => ?_, kept.nodup⟩
  cases kept.allocated ptr live with
  | chunk y u slot isOther otherInUse a held =>
    have ne : y ≠ z := by
      rintro rfl
      exact noneHeld slot held
    refine .chunk y u slot ((isZone_iff y u ne).mpr isOther) ?_ a held
    simp only [update_self, freed_iff]
    exact fun either => either.elim ne otherInUse
  | block page n a pos large held =>
    exact .block page n a pos large held

end WholeZone

section PageFree

variable {heap : Heap} {view : View} {npages : Nat} {gone : Holder}

theorem Kept.rtPageFree (kept : Kept heap view) (page n : Nat) (kup : Nat → Memusage)
    (pos : 0 < npages)
    (count_le : n ≤ npages) (held : ∀ off < npages, view.holder (page + off) = some gone)
    (noZone : ∀ z, gone = .zone z → heap.slab.zone z = none)
    (noBlock : ∀ ptr ∈ heap.live, gone ≠ .block ptr) :
    ∃ slab holder, (heap.slab.setMemusage (page * pageSize) n kup).rtPageFree
        (page * pageSize) npages = some slab ∧ Kept ⟨slab, heap.live⟩ { view with holder } := by
  have sound := kept.sound
  have pages := sound.pages
  have geometry := sound.geometry
  have covered : ∀ unit, (⟨page, npages⟩ : Extent).Covers unit →
      view.holder unit = some gone := by
    rintro unit ⟨above, below⟩
    simp only [Extent.stop] at above below
    have := held (unit - page) (by omega)
    rwa [Nat.add_sub_cancel' above] at this
  have first := pages.heldWithin page (by simpa using congrArg Option.isSome (held 0 pos))
  have start_pos : 0 < heap.slab.startPage := by
    have := geometry.start_pos
    rw [geometry.start_eq] at this
    exact Nat.pos_of_mul_pos_right this
  obtain ⟨rest, released, ordered, free_iff⟩ := Extents.release_spec ⟨page, npages⟩
    pages.ordered first.1 pos fun unit covers free => by
      simpa [covered unit covers] using pages.apart unit free
  have page_eq : page * pageSize / pageSize = page :=
    Nat.mul_div_cancel page (by decide : 0 < pageSize)
  have address_ok : ¬ (page * pageSize = 0 ∨ page * pageSize % pageSize ≠ 0 ∨ npages = 0) := by
    rintro (null | unaligned | empty)
    · simp only [pageSize] at null
      omega
    · exact unaligned (Nat.mul_mod_left ..)
    · omega
  refine ⟨{ heap.slab.setMemusage (page * pageSize) n kup with rtPageList := rest },
    (⟨page, npages⟩ : Extent).fill (fun _ => none) view.holder, ?_, ?_⟩
  · rw [State.rtPageFree, if_neg address_ok, page_eq]
    simp only [State.setMemusage, released, Option.map_some]
  have free : PagesFree
      { heap.slab.setMemusage (page * pageSize) n kup with rtPageList := rest }
      ((⟨page, npages⟩ : Extent).fill (fun _ => none) view.holder) := by
    refine ⟨ordered, fun unit isFree => ?_, fun unit isHeld => ?_, fun unit isFree => ?_⟩
    · rcases (free_iff unit).mp isFree with wasFree | covers
      · exact pages.below unit wasFree
      · exact (pages.heldWithin unit (by simp [covered unit covers])).2
    · by_cases covers : (⟨page, npages⟩ : Extent).Covers unit
      · rw [Extent.fill_of_covers covers] at isHeld
        simp at isHeld
      · rw [Extent.fill_of_not_covers covers] at isHeld
        exact pages.heldWithin unit isHeld
    · by_cases covers : (⟨page, npages⟩ : Extent).Covers unit
      · rw [Extent.fill_of_covers covers]
      · rw [Extent.fill_of_not_covers covers]
        exact pages.apart unit (((free_iff unit).mp isFree).resolve_right covers)
  have keep : ∀ unit, view.holder unit ≠ some gone → heap.slab.startPage ≤ unit →
      (⟨page, npages⟩ : Extent).fill (fun _ => none) view.holder unit = view.holder unit ∧
        (heap.slab.setMemusage (page * pageSize) n kup).kup unit = heap.slab.kup unit := by
    intro unit ne above
    have outside : ¬ (⟨page, npages⟩ : Extent).Covers unit := fun covers => ne (covered unit covers)
    refine ⟨Extent.fill_of_not_covers outside, ?_⟩
    rw [geometry.kup_setMemusage first above]
    apply Extent.fill_of_not_covers
    simp only [Extent.Covers, Extent.stop] at *
    omega
  exact
    { sound := sound.setPages free (by simpa using noZone) keep
      allocated := fun ptr live =>
        (kept.allocated ptr live).setPages sound (by simpa using noBlock ptr live) keep
      nodup := kept.nodup }

end PageFree

section Free

variable {heap : Heap} {view : View} {z : Nat} {zone : SlabZone}

theorem Kept.releaseZone (kept : Kept heap view) {rest : List Nat}
    (list_eq : view.list none = z :: rest) :
    ∃ slab s', heap.slab.releaseZone = some slab ∧ Kept ⟨slab, heap.live⟩ s' ∧
      s'.list none = rest := by
  have inv := kept.sound
  have geometry := inv.geometry
  have isFirst := inv.table.chain none
  rw [list_eq] at isFirst
  have isFirst : heap.slab.zoneFree = some z := isFirst.1
  obtain ⟨zone, isZone⟩ := Option.isSome_iff_exists.mp (inv.freed z (by simp [list_eq]))
  have placed := inv.placed z zone isZone
  have dropped := kept.dropFreed list_eq
  obtain ⟨page, rfl⟩ : ∃ page, z = page * pageSize :=
    ⟨z / pageSize, (Nat.div_mul_cancel placed.aligned).symm⟩
  have page_eq : page * pageSize / pageSize = page :=
    Nat.mul_div_cancel page (by decide : 0 < pageSize)
  have pos := geometry.pageCnt_pos
  obtain ⟨slab, holder, released, kept⟩ := dropped.rtPageFree page heap.slab.zonePageCnt
    (fun _ => ⟨.free, 0⟩) pos (Nat.le_refl _)
    (fun off off_lt => page_eq ▸ (placed.pages off off_lt).1)
    (fun y equal => by
      obtain rfl : page * pageSize = y := by simpa using equal
      exact update_self ..)
    (fun ptr _ => by simp)
  refine ⟨slab, _, ?_, kept, by simp only [update_self]⟩
  simp only [State.releaseZone, isFirst, ← geometry.pages]
  exact released

theorem Inv.freeWholeZone (inv : Inv heap view) (isZone : heap.slab.zone z = some zone)
    (inUse : z ∉ view.list none) (filled : 0 < zone.nfree) :
    ∃ slab s', heap.slab.freeWholeZone z zone = some slab ∧ Inv ⟨slab, heap.live⟩ s' := by
  have sound := inv.sound
  unfold State.freeWholeZone
  split_ifs with whole
  · have linked : z ∈ view.list (some zone.zoneindex) :=
      (sound.linked _ _).mpr ⟨zone, isZone, rfl, filled, inUse⟩
    obtain ⟨zoneArray, zNext, lists, unlinked, table, freed, members⟩ := sound.unlinkZone linked
    have retired := inv.toKept.retireZone isZone inUse whole.1 table freed members
    have count : ({ heap.slab with zoneArray, zNext }.retireZone z zone).zoneFreeCnt =
        (view.list none).length + 1 := congrArg (· + 1) sound.freedCount
    simp only [unlinked]
    split_ifs with many
    · obtain ⟨slab, s', released, kept, rest_eq⟩ :=
        retired.releaseZone (update_self none (z :: view.list none) lists)
      exact ⟨slab, s', released, { kept with freed_le := rest_eq ▸ inv.freed_le }⟩
    · refine ⟨_, _, rfl, { retired with freed_le := ?_ }⟩
      rw [count] at many
      simp only [update_self, List.length_cons]
      omega
  · exact ⟨heap.slab, view, rfl, inv⟩

theorem Sound.kup_of_held (inv : Sound slab view) {ptr : Nat}
    (held : (view.holder (ptr / pageSize)).isSome) :
    Word32.maskDown ptr pageSize = ptr / pageSize * pageSize ∧
      slab.memusage (slab.btokup (ptr / pageSize * pageSize)) = slab.kup (ptr / pageSize) := by
  have within := inv.pages.heldWithin _ held
  have end_lt := inv.geometry.end_lt
  have small : ptr < 2 ^ 32 := by
    simp only [State.endPage, pageSize] at within
    omega
  have rounded := @Word32.maskDown_eq ptr 12 small (by decide)
  refine ⟨rounded, ?_⟩
  rw [inv.geometry.btokup_page within, State.kup]

theorem Inv.rtFree (inv : Inv heap view) {ptr : Nat} (live : ptr ∈ heap.live) :
    ∃ slab s', heap.slab.rtFree ptr = some slab ∧ Inv ⟨slab, heap.live.erase ptr⟩ s' := by
  have sound := inv.sound
  have allocated := inv.allocated ptr live
  have isHeld : (view.holder (ptr / pageSize)).isSome := by
    rcases allocated.holder_cases sound with held | ⟨z, held, -⟩ <;> simp [held]
  obtain ⟨masked, kup_eq⟩ := sound.kup_of_held isHeld
  simp only [State.rtFree, masked, kup_eq]
  cases allocated with
  | chunk z zone slot isZone inUse address held =>
    have before := sound.zones z zone isZone inUse
    have placed := sound.placed z zone isZone
    obtain ⟨off, off_lt, page_eq⟩ := before.chunk_page sound.geometry placed
      (sound.held_lt isZone inUse held)
    have descriptor := (placed.pages off off_lt).2
    have start_eq : ptr / pageSize * pageSize - off * pageSize = z := by
      rw [address, page_eq, ← Nat.sub_mul, Nat.add_sub_cancel, Nat.div_mul_cancel placed.aligned]
    rw [← page_eq, ← address] at descriptor
    obtain ⟨s', given, isGiven, givenInUse⟩ := inv.giveChunk isZone inUse held
    obtain ⟨slab, s', freed, inv⟩ :=
      given.freeWholeZone isGiven givenInUse (Nat.succ_pos zone.nfree)
    refine ⟨slab, s', ?_, address ▸ inv⟩
    simp only [descriptor, start_eq, isZone, before.magic]
    rw [if_neg (by decide), if_neg (by simp), address]
    exact freed
  | block page n address pos large held =>
    have page_eq := block_page address
    have kept : Kept ⟨heap.slab, heap.live.erase ptr⟩ view :=
      ⟨sound, fun u live => inv.allocated u (List.mem_of_mem_erase live), inv.nodup.erase ptr⟩
    obtain ⟨slab, holder, released, kept⟩ := kept.rtPageFree page 1 (fun _ => ⟨.large, 0⟩)
      pos pos held (by simp) (by
        rintro u live equal
        obtain rfl : ptr = u := by simpa using equal
        exact inv.nodup.not_mem_erase live)
    refine ⟨slab, _, ?_, { kept with freed_le := inv.freed_le }⟩
    rw [page_eq, large, if_pos rfl]
    rw [address] at released ⊢
    exact released

end Free

end RtThread.Slab

namespace RtThread.Slab

def Linked (slab : State) (start : Option Nat) (z : Nat) : Prop :=
  ∃ zones, Chain slab.zNext start zones ∧ z ∈ zones

/-- The counters, the lists and the pointers in use agree.  The last two fields say that
every assertion holds and that the search of `rt_free` finds its zone. -/
structure Accounted (heap : Heap) : Prop where
  nfree : ∀ z zone, heap.slab.zone z = some zone → ¬ Linked heap.slab heap.slab.zoneFree z →
    zone.uindex < zone.nmax ∧ ∃ chunks, Chain heap.slab.cNext zone.freechunk chunks ∧
      zone.nfree = (zone.nmax - 1 - zone.uindex) + chunks.length
  linked : ∀ z zone, heap.slab.zone z = some zone →
    (Linked heap.slab (heap.slab.zoneArray zone.zoneindex) z ↔
      0 < zone.nfree ∧ ¬ Linked heap.slab heap.slab.zoneFree z)
  zoneFreeCnt : ∃ zones, Chain heap.slab.zNext heap.slab.zoneFree zones ∧
    heap.slab.zoneFreeCnt = zones.length ∧ zones.length ≤ zoneReleaseThresh
  distinct : heap.live.Nodup
  malloc : ∀ size, (heap.slab.rtMalloc size).isSome
  free : ∀ ptr ∈ heap.live, (heap.slab.rtFree ptr).isSome

variable {view : View} {heap : Heap}

theorem Sound.linked_iff {slab : State} (inv : Sound slab view)
    (p : Option Nat) (z : Nat) : Linked slab (slab.heads p) z ↔ z ∈ view.list p := by
  constructor
  · rintro ⟨zones, chain, mem⟩
    rwa [← chain.unique (inv.table.chain p)]
  · exact fun mem => ⟨_, inv.table.chain p, mem⟩

theorem Inv.accounted (inv : Inv heap view) : Accounted heap := by
  have sound := inv.sound
  have inFree : ∀ z, Linked heap.slab heap.slab.zoneFree z ↔ z ∈ view.list none :=
    sound.linked_iff none
  refine ⟨?_, ?_, ?_, inv.nodup, ?_, ?_⟩
  · intro z zone isZone inUse
    have zoneSound := sound.zones z zone isZone (fun freed => inUse ((inFree z).mpr freed))
    have issued := zoneSound.issued
    have issued_le := zoneSound.sound.issued_le
    refine ⟨by omega, _, zoneSound.freechunk, ?_⟩
    rw [zoneSound.nfree, SlotPool.free, List.length_map]
    omega
  · intro z zone isZone
    have := sound.linked_iff (some zone.zoneindex) z
    simp only [State.heads] at this
    rw [this, inFree, sound.linked]
    simp [isZone]
  · exact ⟨_, sound.table.chain none, sound.freedCount, inv.freed_le⟩
  · intro n
    obtain ⟨r, slab, s', isResult, -⟩ := inv.rtMalloc n
    simp [isResult]
  · intro ptr live
    obtain ⟨slab, s', isResult, -⟩ := inv.rtFree live
    simp [isResult]

section Init

theorem growZoneSize_cases (limsize : Nat) : growZoneSize limsize 2 zallocMinZoneSize = 32768 ∨
      growZoneSize limsize 2 zallocMinZoneSize = 65536 ∨
      growZoneSize limsize 2 zallocMinZoneSize = 131072 := by
  unfold growZoneSize growZoneSize growZoneSize
  split_ifs
  · exact .inr (.inr rfl)
  · exact .inr (.inl rfl)
  · exact .inl rfl

theorem rtPageAlloc_free {slab s' : State} {npages low : Nat}
    (isAfter : (slab.rtPageAlloc npages).2 = s') (ordered : Extents.Ordered low slab.rtPageList) :
    ∃ rest, s' = { slab with rtPageList := rest } ∧ Extents.Ordered low rest ∧
      ∀ page, Extents.Free rest page → Extents.Free slab.rtPageList page := by
  subst isAfter
  unfold State.rtPageAlloc
  split_ifs with none
  · exact ⟨slab.rtPageList, rfl, ordered, fun _ free => free⟩
  · cases taken : Extents.take npages slab.rtPageList with
    | none => exact ⟨slab.rtPageList, rfl, ordered, fun _ free => free⟩
    | some found =>
      obtain ⟨ordered, -, free_iff⟩ := Extents.take_spec ordered (Nat.pos_of_ne_zero none) taken
      exact ⟨found.2, rfl, ordered, fun page free => ((free_iff page).mp free).1⟩

theorem rtPageInit_eq {slab s' : State} {addr npages : Nat}
    (isInit : slab.rtPageInit addr npages = some s') :
    0 < addr ∧ 0 < npages ∧ s' = { slab with rtPageList := [⟨addr / pageSize, npages⟩] } := by
  unfold State.rtPageInit State.rtPageFree at isInit
  split_ifs at isInit with wrong
  simp only [not_or] at wrong
  exact ⟨Nat.pos_of_ne_zero wrong.1, Nat.pos_of_ne_zero wrong.2.2, (Option.some.inj isInit).symm⟩

theorem Initial.inv (init : Initial heap) : ∃ view, Inv heap view := by
  obtain ⟨⟨memusage, beginAddr, endAddr, beginSmall, endSmall, isInit⟩, noneLive⟩ := init
  unfold rtSystemHeapInit at isInit
  simp only at isInit
  split_ifs at isInit with nonempty
  obtain ⟨slab, isPages, isSlab⟩ := Option.map_eq_some_iff.mp isInit
  obtain ⟨start_pos, npages_pos, rfl⟩ := rtPageInit_eq isPages
  have aligned := Word32.dvd_alignUp beginAddr (by decide : 12 ≤ 32)
  have ends := @Word32.maskDown_le endAddr 12 endSmall (by decide)
  have covers : ∀ page, Extents.Free [⟨Word32.alignUp beginAddr pageSize / pageSize,
      (Word32.maskDown endAddr pageSize - Word32.alignUp beginAddr pageSize) / pageSize⟩] page →
        page < Word32.maskDown endAddr pageSize / pageSize := by
    intro page free
    simp only [Extents.free_cons, Extents.free_nil, or_false, Extent.Covers, Extent.stop] at free
    simp only [pageSize] at *
    omega
  obtain ⟨rest, isRest, ordered, free⟩ := rtPageAlloc_free isSlab
    ⟨Nat.le_refl _, npages_pos, trivial⟩
  have sizes := growZoneSize_cases
    (Word32.maskDown endAddr pageSize - Word32.alignUp beginAddr pageSize)
  refine ⟨⟨fun _ => [], fun _ => ⟨0, []⟩, fun _ => none⟩, ⟨?_, ?_, ?_⟩, Nat.zero_le _⟩
  · rw [isRest]
    exact
      { geometry :=
          { minimum := by rcases sizes with size | size | size <;> simp only [size] <;> decide
            whole := by rcases sizes with size | size | size <;> simp only [size] <;> decide
            limit := ⟨Nat.min_le_left .., Nat.min_le_right ..⟩
            limitWhole := by
              rcases sizes with size | size | size <;> simp only [size] <;> decide
            pages := rfl
            aligned
            start_pos
            end_lt := Nat.lt_of_le_of_lt ends endSmall }
        pages :=
          { ordered
            below := fun page isFree => covers page (free page isFree)
            heldWithin := fun page held => by simp at held
            apart := fun _ _ => rfl }
        table :=
          { chain := fun p => by cases p <;> rfl
            nodup := fun _ => List.nodup_nil
            disjoint := by simp }
        linked := by simp
        freed := by simp
        freedCount := rfl
        placed := by simp
        zones := by simp }
  · simp [noneLive]
  · simp [noneLive]

theorem Inv.step {s' : Heap} {e : Event} (inv : Inv heap view)
    (ran : step heap e = some s') : ∃ view, Inv s' view := by
  cases e with
  | malloc n =>
    obtain ⟨r, slab, view, isResult, inv⟩ := inv.rtMalloc n
    rw [Slab.step, isResult] at ran
    cases ran
    exact ⟨view, inv⟩
  | free ptr =>
    cases ptr with
    | none =>
      cases ran
      exact ⟨view, inv⟩
    | some ptr =>
      simp only [Slab.step] at ran
      split_ifs at ran with live
      obtain ⟨slab, view, isResult, inv⟩ := inv.rtFree live
      rw [isResult] at ran
      cases ran
      exact ⟨view, inv⟩

theorem reachable_inv (reachable : system.Reachable heap) : ∃ view, Inv heap view := by
  have base : ∀ s, Initial s → ∃ view, Inv s view := fun _ init => init.inv
  refine reachable.invariant base ?_
  rintro before e s' ⟨view, inv⟩ ran
  exact inv.step ran

end Init

/-- Every sequence of calls, of requests of any size, keeps the accounts. -/
theorem zones_accounted {heap : Heap} (reachable : system.Reachable heap) : Accounted heap := by
  obtain ⟨view, inv⟩ := reachable_inv reachable
  exact inv.accounted

theorem recycled_zone_accounted :
    ∃ heap, system.Reachable heap ∧ heap.live = [8336, 8232, 49152] ∧ Accounted heap := by
  have isInit : (rtSystemHeapInit (fun _ => ⟨.free, 0⟩) 0x1000 0x41000).isSome := by decide +kernel
  let init : Heap :=
    ⟨(rtSystemHeapInit (fun _ => ⟨.free, 0⟩) 0x1000 0x41000).get (by decide +kernel), []⟩
  have isInitial : Initial init :=
    ⟨⟨_, 0x1000, 0x41000, by decide, by decide, (Option.some_get isInit).symm⟩, rfl⟩
  let events : List Event :=
    List.replicate 4 (.malloc 8000) ++
      [.free (some 16384), .free (some 24576), .free (some 32768), .malloc 100, .malloc 100]
  have run : system.Run (TransitionSystem.record step [] init events)
      ((TransitionSystem.execute step init events).get (by decide +kernel)) :=
    TransitionSystem.Run.executed _ _ isInitial _
  exact ⟨_, run.reachable, by decide +kernel, zones_accounted run.reachable⟩

end RtThread.Slab
