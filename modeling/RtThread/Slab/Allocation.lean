import RtThread.Slab.Invariant

/-!
# Allocation

What `rt_malloc` does in a heap that keeps its invariant: it is defined, and a pointer
that it returns was not allocated before.
-/

namespace RtThread.Slab

open Function (update_of_ne update_self update)

section Chunks

variable {slab : State} {view : View} {z : Nat} {zone : SlabZone} {pool : SlotPool}

theorem ZoneSound.takeChunk (zoneSound : ZoneSound slab.zoneSize slab.cNext z zone pool)
    (some_free : 0 < zone.nfree) :
    ∃ (zone' : SlabZone) (pool' : SlotPool) (slot : Nat), (∀ u : State, u.cNext = slab.cNext →
        u.takeChunk z { zone with nfree := zone.nfree - 1 } zone.chunksize =
          some (zone.chunk slot, u.setZone z zone')) ∧
      ZoneSound slab.zoneSize slab.cNext z zone' pool' ∧ zone'.nfree = zone.nfree - 1 ∧
      zone'.zoneindex = zone.zoneindex ∧ zone'.chunk = zone.chunk ∧ ¬ pool.Held slot ∧
      slot < zone.nmax ∧ ∀ u, pool'.Held u ↔ pool.Held u ∨ u = slot := by
  have issued := zoneSound.issued
  have issued_le := zoneSound.sound.issued_le
  by_cases unused : zone.uindex + 1 ≠ zone.nmax
  · have room : pool.issued < zone.nmax := by omega
    refine ⟨{ zone with nfree := zone.nfree - 1, uindex := zone.uindex + 1 }, pool.takeUnused,
      pool.issued, ?_, ?_, rfl, rfl, rfl, SlotPool.not_held_issued, room,
      SlotPool.held_takeUnused_iff zoneSound.sound⟩
    · intro u _
      rw [State.takeChunk, if_pos unused, issued]
      rfl
    · have free := SlotPool.takeUnused_free room
      exact
        { zoneSound with
          issued := congrArg (· + 1) issued
          sound := zoneSound.sound.takeUnused room
          nfree := by simp only [zoneSound.nfree]; omega
          freechunk := zoneSound.freechunk }
  · have full : pool.issued = zone.nmax := by omega
    have nfree := zoneSound.nfree
    have chain := zoneSound.freechunk
    cases returned_eq : pool.returned with
    | nil =>
      rw [SlotPool.free, returned_eq, full] at nfree
      simp only [List.length_nil] at nfree
      omega
    | cons slot rest =>
      rw [returned_eq] at chain
      obtain ⟨first, chain⟩ := chain
      have below : slot < zone.nmax := full ▸ zoneSound.sound.wasIssued slot (by simp [returned_eq])
      refine ⟨{ zone with
          nfree := zone.nfree - 1
          freechunk := slab.cNext (zone.chunk slot) },
        pool.takeReturned, slot, ?_, ?_, rfl, rfl, rfl,
        SlotPool.not_held_returned returned_eq, below,
        SlotPool.held_takeReturned_iff zoneSound.sound returned_eq⟩
      · intro u cNext_eq
        simp only [State.takeChunk, if_neg unused, first, cNext_eq]
      · have free := @SlotPool.takeReturned_free pool zone.nmax slot rest returned_eq
        exact
          { zoneSound with
            issued
            sound := zoneSound.sound.takeReturned
            nfree := by simp only [nfree]; omega
            freechunk := by
              simp only [SlotPool.takeReturned, returned_eq]
              exact chain }

end Chunks

section Lists

variable {slab : State} {view : View} {z zi : Nat} {zone : SlabZone} {rest : List Nat}

theorem heads_zoneArray (start : Option Nat) :
    ({ slab with zoneArray := update slab.zoneArray zi start }.heads) =
      update slab.heads (some zi) start := by
  funext p
  cases p with
  | none => rfl
  | some u =>
    by_cases same : u = zi
    · subst same
      simp only [State.heads, update_self]
    · have ne : some u ≠ some zi := by simpa using same
      rw [update_of_ne ne]
      exact update_of_ne same ..

theorem heads_zoneFree (start : Option Nat) :
    ({ slab with zoneFree := start }.heads) = update slab.heads none start := by
  funext p
  cases p <;> rfl

theorem Sound.first_linked (inv : Sound slab view) (isFirst : slab.zoneArray zi = some z) :
    ∃ rest zone, view.list (some zi) = z :: rest ∧ slab.zone z = some zone ∧
      zone.zoneindex = zi ∧ 0 < zone.nfree ∧ z ∉ view.list none := by
  have chain := inv.table.chain (some zi)
  simp only [State.heads, isFirst] at chain
  obtain ⟨rest, list_eq, -⟩ := chain.cases_some
  obtain ⟨zone, isZone, i, filled, inUse⟩ := (inv.linked zi z).mp (by simp [list_eq])
  exact ⟨rest, zone, list_eq, isZone, i, filled, inUse⟩

end Lists

section MallocFromZone

variable {heap : Heap} {view : View} {z zi : Nat}

theorem Inv.cons {view s' : View} {slab : State} {ptr : Nat} (inv : Inv heap view)
    (sound : Sound slab s') (freed_le : (s'.list none).length ≤ zoneReleaseThresh)
    (fresh : ¬ Allocated heap.slab view ptr) (allocated : Allocated slab s' ptr)
    (stay : ∀ u, Allocated heap.slab view u → Allocated slab s' u) :
    Inv ⟨slab, ptr :: heap.live⟩ s' where
  sound := sound
  freed_le := freed_le
  allocated := by
    intro u mem
    rcases List.mem_cons.mp mem with rfl | mem
    · exact allocated
    · exact stay u (inv.allocated u mem)
  nodup := List.nodup_cons.mpr ⟨fun live => fresh (inv.allocated ptr live), inv.nodup⟩

theorem Inv.mallocFromZone (inv : Inv heap view) (isFirst : heap.slab.zoneArray zi = some z) :
    ∃ chunk slab after, heap.slab.mallocFromZone zi z (chunkSize zi) = some (chunk, slab) ∧
      Inv ⟨slab, chunk :: heap.live⟩ after := by
  have sound := inv.sound
  obtain ⟨rest, zone, list_eq, isZone, rfl, filled, inUse⟩ := sound.first_linked isFirst
  have before := sound.zones z zone isZone inUse
  have placed := sound.placed z zone isZone
  obtain ⟨zone', pool', slot, takes, zoneSound, nfree, i, chunk_eq, notHeld, below, held_iff⟩ :=
    before.takeChunk filled
  have fresh := sound.not_allocated isZone inUse below notHeld
  have kept : ∀ ptr u second, heap.slab.zone z = some u → ptr = u.chunk second →
      (view.pool z).Held second →
        zone'.chunk second = u.chunk second ∧ pool'.Held second := by
    intro ptr u second isOther _ held
    obtain rfl : zone = u := Option.some.inj (isZone.symm.trans isOther)
    exact ⟨by rw [chunk_eq], (held_iff second).mpr (.inl held)⟩
  have new : ∀ slab after, slab.zone z = some zone' → z ∉ after.list none →
      after.pool z = pool' → Allocated slab after (zone.chunk slot) := by
    intro slab after isZone inUse pool_eq
    refine .chunk z zone' slot isZone inUse (by rw [chunk_eq]) ?_
    rw [pool_eq, held_iff]
    exact .inr rfl
  by_cases last : zone.nfree - 1 = 0
  · -- the zone leaves its list
    have freed : update view.list (some zone.zoneindex) rest none = view.list none :=
      update_of_ne (by simp) ..
    have members := fun zj y => @ChainTable.mem_removed_iff _ _ _ _ _ _ sound.table
      (some zone.zoneindex) z [] rest list_eq (some zj) y
    have table := sound.table.pop list_eq
    have outside : ∀ p, z ∉ update view.list (some zone.zoneindex) rest p :=
      fun p mem => ((@ChainTable.mem_removed_iff _ _ _ _ _ _ sound.table
        (some zone.zoneindex) z [] rest list_eq p z).mp mem).2 rfl
    have table := table.update outside none
    rw [← heads_zoneArray] at table
    have after := sound.setZone placed inUse table freed
      (fun zj => iff_of_false (outside (some zj)) (by omega))
      (fun zj y ne => (members zj y).trans (and_iff_left ne)) zoneSound fun _ _ => rfl
    refine ⟨zone.chunk slot, _, _, ?_, inv.cons after (freed ▸ inv.freed_le) fresh
      (new _ _ State.setZone_zone_self (freed ▸ inUse) (update_self ..))
      fun u allocated => allocated.setZone freed (kept u)⟩
    simp only [State.mallocFromZone, isZone]
    rw [if_neg (Nat.ne_of_gt filled), if_pos last, ← before.chunksize]
    exact takes _ rfl
  · have after := sound.setZone placed inUse sound.table rfl
      (fun zj => ?_) (fun _ _ _ => Iff.rfl) zoneSound fun _ _ => rfl
    · refine ⟨zone.chunk slot, _, _, ?_, inv.cons after inv.freed_le fresh
        (new _ _ State.setZone_zone_self inUse (update_self ..))
        fun u allocated => allocated.setZone rfl (kept u)⟩
      simp only [State.mallocFromZone, isZone]
      rw [if_neg (Nat.ne_of_gt filled), if_neg last, ← before.chunksize]
      exact takes _ rfl
    · rw [sound.linked]
      constructor
      · rintro ⟨u, isOther, otherIndex, -, -⟩
        obtain rfl : zone = u := Option.some.inj (isZone.symm.trans isOther)
        exact ⟨i.trans otherIndex, by omega⟩
      · rintro ⟨otherIndex, -⟩
        exact ⟨zone, isZone, i.symm.trans otherIndex, filled, inUse⟩

end MallocFromZone

section NewZone

variable {heap : Heap} {view : View} {z zi : Nat}

theorem setUpZone_erased (slab : State) (z zi n : Nat) :
    ({ slab with zone := update slab.zone z none }).setUpZone z zi n = slab.setUpZone z zi n := by
  simp [State.setUpZone, State.setZone]

theorem zoneSound_first {slab : State} (minimum : zallocMinZoneSize ≤ slab.zoneSize)
    (inRange : zi < nzones) (quarter : chunkSize zi ≤ slab.zoneSize / 4) :
    ZoneSound slab.zoneSize slab.cNext z
      { magic := zallocSlabMagic
        nfree := (slab.zoneSize - State.chunkOffset (chunkSize zi)) / chunkSize zi - 1
        nmax := (slab.zoneSize - State.chunkOffset (chunkSize zi)) / chunkSize zi
        baseptr := z + State.chunkOffset (chunkSize zi)
        uindex := 0
        chunksize := chunkSize zi
        zoneindex := zi
        freechunk := none } SlotPool.first := by
  have several := three_chunks inRange minimum quarter
  have room := Nat.div_mul_le_self (slab.zoneSize - State.chunkOffset (chunkSize zi))
    (chunkSize zi)
  have fits : State.chunkOffset (chunkSize zi) ≤ slab.zoneSize := by
    by_contra larger
    rw [Nat.sub_eq_zero_of_le (by omega), Nat.zero_div] at several
    omega
  exact
    { magic := rfl
      zoneindex_lt := inRange
      chunksize := rfl
      header := Nat.add_le_add_left (chunkOffset_bounds zi inRange).1 z
      room := by simp only; omega
      issued := rfl
      sound := SlotPool.first_sound (by simp only; omega)
      nfree := rfl
      freechunk := rfl }

theorem Inv.setUpZone (inv : Inv heap view) (isNone : heap.slab.zone z = none)
    (placed : Placed heap.slab view.holder z) (inRange : zi < nzones)
    (quarter : chunkSize zi ≤ heap.slab.zoneSize / 4) :
    ∃ after, Inv ⟨(heap.slab.setUpZone z zi (chunkSize zi)).2,
      (heap.slab.setUpZone z zi (chunkSize zi)).1 :: heap.live⟩ after := by
  have sound := inv.sound
  have zoneSound := @zoneSound_first z zi heap.slab sound.geometry.minimum inRange quarter
  have several := three_chunks inRange sound.geometry.minimum quarter
  have outside := sound.not_mem_of_none isNone
  have table := sound.table.push (some zi) outside
  rw [← heads_zoneArray] at table
  have freed : update view.list (some zi) (z :: view.list (some zi)) none =
      view.list none := update_of_ne (by simp) ..
  have linked : ∀ zj y, y ∈ update view.list (some zi) (z :: view.list (some zi))
      (some zj) ↔ y ∈ view.list (some zj) ∨ (y = z ∧ zj = zi) := by
    intro zj y
    rw [ChainTable.mem_pushed_iff, Option.some.injEq]
  have after := sound.setZone placed (outside none) table freed
    (fun zj => ?_) (fun zj y ne => ?_) zoneSound fun _ _ => rfl
  · refine ⟨_, inv.cons after (freed ▸ inv.freed_le) ?_ ?_ ?_⟩
    · intro allocated
      have holder_eq := zoneSound.holder_chunk sound.geometry placed
        (Nat.lt_of_lt_of_le (by decide : 0 < 3) several)
      rcases allocated.holder_cases sound with b | ⟨u, held, isSome, -⟩
      · exact nomatch holder_eq.symm.trans b
      · obtain rfl : z = u := by simpa using holder_eq.symm.trans held
        simp [isNone] at isSome
    · refine .chunk z _ 0 State.setZone_zone_self (freed ▸ outside none) rfl ?_
      simpa only [update_self] using SlotPool.held_first
    · intro u allocated
      refine allocated.setZone freed fun before slot isZone => ?_
      simp [isNone] at isZone
  · rw [linked]
    simp only [outside, false_or, true_and]
    constructor
    · rintro rfl
      exact ⟨rfl, by omega⟩
    · rintro ⟨rfl, -⟩
      rfl
  · rw [linked]
    simp [ne]

theorem Kept.dropFreed (kept : Kept heap view) {rest : List Nat}
    (list_eq : view.list none = z :: rest) :
    Kept ⟨{ heap.slab with
        zoneFree := heap.slab.zNext z
        zoneFreeCnt := heap.slab.zoneFreeCnt - 1
        zone := update heap.slab.zone z none }, heap.live⟩
      { view with list := update view.list none rest } := by
  have inv := kept.sound
  have members := fun p y => @ChainTable.mem_removed_iff _ _ _ _ _ _ inv.table none z []
    rest list_eq p y
  simp only [List.nil_append] at members
  have freed_iff : ∀ y, y ∈ rest ↔ y ∈ view.list none ∧ y ≠ z := by
    intro y
    simpa only [update_self] using members none y
  have table := inv.table.pop list_eq
  rw [← heads_zoneFree] at table
  have erased : ∀ y, y ≠ z → update heap.slab.zone z none y = heap.slab.zone y :=
    fun y ne => update_of_ne ne ..
  have ne_of_zone : ∀ y zone, update heap.slab.zone z none y = some zone → y ≠ z := by
    rintro y zone isZone rfl
    simp at isZone
  have after : Sound { heap.slab with
        zoneFree := heap.slab.zNext z
        zoneFreeCnt := heap.slab.zoneFreeCnt - 1
        zone := update heap.slab.zone z none }
      { view with list := update view.list none rest } :=
    { geometry := { inv.geometry with }
      pages := { inv.pages with }
      table := table
      linked := by
        intro zi y
        simp only [members, inv.linked]
        constructor
        · rintro ⟨⟨zone, isZone, i, filled, inUse⟩, ne⟩
          exact ⟨zone, (erased y ne).trans isZone, i, filled, fun both => inUse both.1⟩
        · rintro ⟨zone, isZone, i, filled, inUse⟩
          have ne := ne_of_zone y zone isZone
          rw [erased y ne] at isZone
          exact ⟨⟨zone, isZone, i, filled, fun freed => inUse ⟨freed, ne⟩⟩, ne⟩
      freed := by
        intro y mem
        obtain ⟨mem, ne⟩ := (freed_iff y).mp mem
        simp only [erased y ne]
        exact inv.freed y mem
      freedCount := by
        have count := inv.freedCount
        simp only [list_eq, List.length_cons] at count
        simp only [update_self, count, Nat.add_sub_cancel]
      placed := by
        intro y zone isZone
        have ne := ne_of_zone y zone isZone
        exact { inv.placed y zone ((erased y ne).symm.trans isZone) with }
      zones := by
        intro y zone isZone inUse
        have ne := ne_of_zone y zone isZone
        simp only [update_self, freed_iff] at inUse
        exact inv.zones y zone ((erased y ne).symm.trans isZone)
          fun freed => inUse ⟨freed, ne⟩ }
  refine ⟨after, fun ptr live => ?_, kept.nodup⟩
  cases kept.allocated ptr live with
  | chunk y zone slot isZone inUse a held =>
    have ne : y ≠ z := fun same => inUse (by simp [same, list_eq])
    refine .chunk y zone slot ((erased y ne).trans isZone) ?_ a held
    simp only [update_self, freed_iff]
    exact fun both => inUse both.1
  | block page count a pos large held =>
    exact .block page count a pos large held

end NewZone

section Pages

variable {heap : Heap} {view : View}

theorem Inv.rtPageAlloc (inv : Inv heap view) {npages : Nat} (pos : 0 < npages) :
    heap.slab.rtPageAlloc npages = (none, heap.slab) ∨ ∃ page rest, heap.slab.rtPageAlloc npages =
          (some (page * pageSize), { heap.slab with rtPageList := rest }) ∧
        heap.slab.startPage ≤ page ∧ page < heap.slab.endPage ∧
        (∀ off < npages, view.holder (page + off) = none) ∧
        ∀ holder n (kup : Nat → Memusage), n ≤ npages →
          Inv ⟨{ heap.slab with rtPageList := rest }.setMemusage (page * pageSize) n kup,
              heap.live⟩
            { view with
              holder := (⟨page, npages⟩ : Extent).fill (fun _ => some holder) view.holder } := by
  have sound := inv.sound
  have pages := sound.pages
  have notZero : npages ≠ 0 := by omega
  rw [State.rtPageAlloc, if_neg notZero]
  cases taken : Extents.take npages heap.slab.rtPageList with
  | none => exact .inl rfl
  | some found =>
    obtain ⟨page, rest⟩ := found
    obtain ⟨ordered, wereFree, free_iff⟩ := Extents.take_spec pages.ordered pos taken
    have within : ∀ unit, (⟨page, npages⟩ : Extent).Covers unit →
        heap.slab.startPage ≤ unit ∧ unit < heap.slab.endPage := fun unit covers =>
      ⟨pages.ordered.le_of_free (wereFree unit covers), pages.below unit (wereFree unit covers)⟩
    have first := within page ⟨Nat.le_refl _, by simp only [Extent.stop]; omega⟩
    refine .inr ⟨page, rest, rfl, first.1, first.2, fun off off_lt => ?_, ?_⟩
    · refine pages.apart _ (wereFree _ ⟨?_, ?_⟩)
      · simp only
        omega
      · simp only [Extent.stop]
        omega
    intro holder n kup count_le
    have free : PagesFree
        ({ heap.slab with rtPageList := rest }.setMemusage (page * pageSize) n kup)
        ((⟨page, npages⟩ : Extent).fill (fun _ => some holder) view.holder) := by
      refine ⟨ordered, fun unit free => pages.below unit ((free_iff unit).mp free).1, ?_, ?_⟩
      · intro unit held
        by_cases covers : (⟨page, npages⟩ : Extent).Covers unit
        · exact within unit covers
        · rw [Extent.fill_of_not_covers covers] at held
          exact pages.heldWithin unit held
      · intro unit free
        obtain ⟨free, outside⟩ := (free_iff unit).mp free
        rw [Extent.fill_of_not_covers outside]
        exact pages.apart unit free
    have keep : ∀ unit, view.holder unit ≠ none → heap.slab.startPage ≤ unit →
        (⟨page, npages⟩ : Extent).fill (fun _ => some holder) view.holder unit = view.holder unit ∧
          (heap.slab.setMemusage (page * pageSize) n kup).kup unit = heap.slab.kup unit := by
      intro unit held above
      have outside : ¬ (⟨page, npages⟩ : Extent).Covers unit :=
        fun covers => held (pages.apart unit (wereFree unit covers))
      refine ⟨Extent.fill_of_not_covers outside, ?_⟩
      rw [sound.geometry.kup_setMemusage first above]
      apply Extent.fill_of_not_covers
      simp only [Extent.Covers, Extent.stop] at *
      omega
    exact
      { sound := sound.setPages free (by simp) keep
        freed_le := inv.freed_le
        allocated := fun ptr live => (inv.allocated ptr live).setPages sound (by simp) keep
        nodup := inv.nodup }

end Pages

section Malloc

variable {heap : Heap} {view : View} {zi : Nat}

theorem Inv.mallocFromNewZone (inv : Inv heap view) (inRange : zi < nzones)
    (quarter : chunkSize zi ≤ heap.slab.zoneSize / 4) :
    ∃ s', Inv ⟨(heap.slab.mallocFromNewZone zi (chunkSize zi)).2,
      (heap.slab.mallocFromNewZone zi (chunkSize zi)).1.toList ++ heap.live⟩ s' := by
  have sound := inv.sound
  have geometry := sound.geometry
  cases isFirst : heap.slab.zoneFree with
  | some z =>
    have chain := sound.table.chain none
    simp only [State.heads, isFirst] at chain
    obtain ⟨rest, list_eq, -⟩ := chain.cases_some
    obtain ⟨zone, isZone⟩ := Option.isSome_iff_exists.mp (sound.freed z (by simp [list_eq]))
    have dropped : Inv _ _ :=
      { inv.toKept.dropFreed list_eq with
        freed_le := by
          have freed_le := inv.freed_le
          simp only [list_eq, List.length_cons, update_self] at freed_le ⊢
          omega }
    obtain ⟨s', inv⟩ := dropped.setUpZone (update_self ..)
      { sound.placed z zone isZone with } inRange quarter
    refine ⟨s', ?_⟩
    simp only [State.mallocFromNewZone, isFirst]
    have erased := setUpZone_erased { heap.slab with
      zoneFree := heap.slab.zNext z
      zoneFreeCnt := heap.slab.zoneFreeCnt - 1 } z zi (chunkSize zi)
    exact erased ▸ inv
  | none =>
    have pos := geometry.pageCnt_pos
    rw [geometry.pages] at pos
    rcases inv.rtPageAlloc pos with failed | ⟨page, rest, taken, above, below, free, claimed⟩
    · simp only [State.mallocFromNewZone, isFirst, failed]
      exact ⟨view, inv⟩
    · have inv := claimed (.zone (page * pageSize)) heap.slab.zonePageCnt (⟨.small, ·⟩)
        (Nat.le_of_eq geometry.pages)
      have page_eq : page * pageSize / pageSize = page :=
        Nat.mul_div_cancel page (by decide : 0 < pageSize)
      have isNone : heap.slab.zone (page * pageSize) = none := by
        cases isZone : heap.slab.zone (page * pageSize) with
        | none => rfl
        | some zone =>
          have held := sound.holder_zone isZone
          rw [page_eq] at held
          exact nomatch (free 0 pos).symm.trans held
      have placed : Placed ({ heap.slab with rtPageList := rest }.setMemusage (page * pageSize)
            heap.slab.zonePageCnt (⟨.small, ·⟩))
          ((⟨page, heap.slab.zoneSize / pageSize⟩ : Extent).fill
            (fun _ => some (.zone (page * pageSize))) view.holder) (page * pageSize) := by
        refine ⟨Nat.dvd_mul_left .., fun off off_lt => ?_⟩
        have off_lt : off < heap.slab.zoneSize / pageSize := geometry.pages ▸ off_lt
        have kup_eq := @Geometry.kup_setMemusage heap.slab geometry page
          heap.slab.zonePageCnt (page + off) (⟨.small, ·⟩) ⟨above, below⟩ (by omega)
        have covers : (⟨page, heap.slab.zoneSize / pageSize⟩ : Extent).Covers (page + off) := by
          simp only [Extent.Covers, Extent.stop]
          omega
        rw [page_eq]
        refine ⟨Extent.fill_of_covers covers, kup_eq.trans ?_⟩
        rw [geometry.pages, Extent.fill_of_covers covers, Nat.add_sub_cancel_left]
      obtain ⟨s', inv⟩ := inv.setUpZone isNone placed inRange quarter
      have result : heap.slab.mallocFromNewZone zi (chunkSize zi) =
          (some (({ heap.slab with rtPageList := rest }.setMemusage (page * pageSize)
              heap.slab.zonePageCnt (⟨.small, ·⟩)).setUpZone (page * pageSize) zi
                (chunkSize zi)).1,
            (({ heap.slab with rtPageList := rest }.setMemusage (page * pageSize)
              heap.slab.zonePageCnt (⟨.small, ·⟩)).setUpZone (page * pageSize) zi
                (chunkSize zi)).2) := by
        simp only [State.mallocFromNewZone, isFirst, taken]
      rw [result]
      exact ⟨s', inv⟩

theorem Inv.mallocLarge (inv : Inv heap view) (n : Nat) : ∃ s', Inv ⟨(heap.slab.mallocLarge n).2,
      (heap.slab.mallocLarge n).1.toList ++ heap.live⟩ s' := by
  have sound := inv.sound
  by_cases none : Word32.alignUp n pageSize / pageSize = 0
  · simp only [State.mallocLarge, none]
    exact ⟨view, inv⟩
  rcases inv.rtPageAlloc (Nat.pos_of_ne_zero none) with failed |
      ⟨page, rest, taken, above, below, free, claimed⟩
  · simp only [State.mallocLarge, failed]
    exact ⟨view, inv⟩
  · have inv' := claimed (.block (page * pageSize)) 1
      (fun _ => ⟨.large, Word32.alignUp n pageSize / pageSize⟩) (Nat.pos_of_ne_zero none)
    simp only [State.mallocLarge, taken]
    have pos : 0 < Word32.alignUp n pageSize / pageSize := Nat.pos_of_ne_zero none
    refine ⟨_, ⟨inv'.sound, ?_, List.nodup_cons.mpr ⟨?_, inv.nodup⟩⟩, inv'.freed_le⟩
    · intro ptr mem
      rcases List.mem_cons.mp mem with rfl | mem
      · refine .block page _ rfl pos ?_ fun off off_lt => ?_
        · have kup_eq := @Geometry.kup_setMemusage heap.slab sound.geometry page 1 page
            (fun _ => ⟨.large, Word32.alignUp n pageSize / pageSize⟩) ⟨above, below⟩ above
          refine kup_eq.trans (Extent.fill_of_covers ⟨Nat.le_refl _, ?_⟩)
          exact Nat.lt_succ_self page
        · have covers : (⟨page, Word32.alignUp n pageSize / pageSize⟩ : Extent).Covers
              (page + off) := by
            simp only [Extent.Covers, Extent.stop]
            omega
          exact @Extent.fill_of_covers _ _ (fun _ => some (.block (page * pageSize))) view.holder
            _ covers
      · exact inv'.allocated ptr mem
    · intro live
      have first := free 0 pos
      rw [Nat.add_zero, ← block_page (rfl : page * pageSize = page * pageSize)] at first
      rcases (inv.allocated _ live).holder_cases sound with held | ⟨u, held, -⟩
      · simp [first] at held
      · simp [first] at held

theorem Inv.rtMalloc (inv : Inv heap view) (n : Nat) :
    ∃ r slab s', heap.slab.rtMalloc n = some (r, slab) ∧ Inv ⟨slab, r.toList ++ heap.live⟩ s' := by
  have geometry := inv.sound.geometry
  unfold State.rtMalloc
  split_ifs with empty large
  · exact ⟨none, heap.slab, view, rfl, inv⟩
  · obtain ⟨s', inv⟩ := inv.mallocLarge n
    exact ⟨_, _, s', rfl, inv⟩
  · obtain ⟨inRange, size_eq, quarter, -⟩ := zoneindex_spec (Nat.pos_of_ne_zero empty)
      (Nat.lt_of_not_le large) geometry.limit.2 geometry.limitWhole
    simp only [if_neg (Nat.not_le.mpr inRange), size_eq]
    cases isFirst : heap.slab.zoneArray (zoneindex n).1 with
    | some z =>
      obtain ⟨chunk, slab, s', taken, inv⟩ := inv.mallocFromZone isFirst
      exact ⟨some chunk, slab, s', by simp [taken], inv⟩
    | none =>
      obtain ⟨s', inv⟩ := inv.mallocFromNewZone inRange (Nat.le_trans quarter geometry.limit.1)
      exact ⟨_, _, s', rfl, inv⟩

end Malloc

end RtThread.Slab
