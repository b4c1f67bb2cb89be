import RtThread.Slab.Basic

/-!
# The page allocator

Runs of pages are taken from the list and given back.
-/

open TransitionSystem

namespace RtThread.Slab

/-- The list, and the runs that `rt_page_alloc` has returned and that are not free again. -/
structure Pages where
  slab : State
  runs : List Extent

namespace Pages

inductive Event where
  | alloc (npages : Nat)
  | free (run : Extent)

def step (s : Pages) : Event → Option Pages
  | .alloc npages =>
    match s.slab.rtPageAlloc npages with
    | (none, _) => some s
    | (some addr, slab) => some ⟨slab, ⟨addr / pageSize, npages⟩ :: s.runs⟩
  | .free run =>
    if run ∈ s.runs then
      (s.slab.rtPageFree (run.start * pageSize) run.count).map fun slab => ⟨slab, s.runs.erase run⟩
    else none

def Initial (given : Extent) (s : Pages) : Prop :=
  given.stop * pageSize < 2 ^ 32 ∧ s.runs = [] ∧
    ∃ slab : State, slab.rtPageInit (given.start * pageSize) given.count = some s.slab

def system (given : Extent) : TransitionSystem Pages Event := ofFunction (Initial given) step

/-- The free pages and the runs are the pages of `given`, each once. -/
structure Accounted (given : Extent) (s : Pages) : Prop where
  given_pos : 0 < given.start
  apart : Extents.Apart 0 s.slab.rtPageList
  given_iff : ∀ page, given.Covers page ↔
    Extents.Free s.slab.rtPageList page ∨ ∃ run ∈ s.runs, run.Covers page
  notFree : ∀ run ∈ s.runs, ∀ page, run.Covers page → ¬ Extents.Free s.slab.rtPageList page
  filled : ∀ run ∈ s.runs, 0 < run.count
  disjoint : s.runs.Pairwise fun run other => ∀ page, run.Covers page → ¬ other.Covers page

variable {given run : Extent} {s after : Pages}

theorem Initial.accounted (init : Initial given s) : Accounted given s := by
  obtain ⟨-, noRuns, slab, isInit⟩ := init
  unfold State.rtPageInit State.rtPageFree at isInit
  obtain ⟨valid, isInit⟩ := Option.ite_none_left_eq_some.mp isInit
  simp only [Extents.release, Option.map_some, Option.some.injEq] at isInit
  obtain ⟨notZero, -, pos⟩ : given.start * pageSize ≠ 0 ∧ _ ∧ given.count ≠ 0 := by
    simpa only [not_or] using valid
  have start : given.start * pageSize / pageSize = given.start := Nat.mul_div_cancel _ (by decide)
  rw [start] at isInit
  have free : s.slab.rtPageList = [given] := isInit ▸ rfl
  have above : 0 < given.start := Nat.pos_of_mul_pos_right (Nat.pos_of_ne_zero notZero)
  refine ⟨above, ?_, ?_, ?_, ?_, ?_⟩
  · rw [free]
    exact ⟨above, Nat.pos_of_ne_zero pos, trivial⟩
  · simp [free, noRuns, Extents.Free]
  all_goals simp [noRuns]

theorem Accounted.alloc (accounted : Accounted given s) {npages : Nat}
    (ran : step s (.alloc npages) = some after) : Accounted given after := by
  simp only [step] at ran
  unfold State.rtPageAlloc at ran
  split_ifs at ran with zero
  · cases ran
    exact accounted
  cases taken : Extents.take npages s.slab.rtPageList with
  | none =>
    simp only [taken] at ran
    cases ran
    exact accounted
  | some found =>
    obtain ⟨page, rest⟩ := found
    simp only [taken, Nat.mul_div_cancel page (by decide : 0 < pageSize)] at ran
    cases ran
    have pos := Nat.pos_of_ne_zero zero
    obtain ⟨-, wereFree, freeIff⟩ := Extents.take_spec accounted.apart.ordered pos taken
    refine ⟨accounted.given_pos, accounted.apart.take pos taken, fun unit => ?_, ?_, ?_, ?_⟩
    · simp only [accounted.given_iff, freeIff, List.mem_cons, exists_eq_or_imp]
      by_cases covers : (⟨page, npages⟩ : Extent).Covers unit
      · simp [covers, wereFree unit covers]
      · simp [covers]
    · refine List.forall_mem_cons.mpr ⟨fun unit covers free =>
        ((freeIff unit).mp free).2 covers, ?_⟩
      exact fun run mem unit covers free =>
        accounted.notFree run mem unit covers ((freeIff unit).mp free).1
    · exact List.forall_mem_cons.mpr ⟨pos, accounted.filled⟩
    · refine List.pairwise_cons.mpr ⟨fun run mem unit covers inRun => ?_, accounted.disjoint⟩
      exact accounted.notFree run mem unit inRun (wereFree unit covers)

theorem Accounted.free (accounted : Accounted given s) (mem : run ∈ s.runs) :
    ∃ after, step s (.free run) = some after ∧ Accounted given after := by
  have pos := accounted.filled run mem
  have first : run.Covers run.start := ⟨Nat.le_refl _, Nat.lt_add_of_pos_right pos⟩
  have inside := (accounted.given_iff run.start).mpr (.inr ⟨run, mem, first⟩)
  have above : 0 < run.start := accounted.given_pos.trans_le inside.1
  obtain ⟨rest, released, -, freeIff⟩ := Extents.release_spec run accounted.apart.ordered
    (Nat.zero_le _) pos (accounted.notFree run mem)
  have valid : ¬ (run.start * pageSize = 0 ∨ run.start * pageSize % pageSize ≠ 0 ∨
      run.count = 0) := by
    simp [above.ne', pos.ne', pageSize]
  refine ⟨_, by rw [step, if_pos mem, State.rtPageFree, if_neg valid,
    Nat.mul_div_cancel _ (by decide : 0 < pageSize), released]; rfl, ?_⟩
  have moved := List.perm_cons_erase mem
  have apart := (moved.pairwise_iff fun apart other inOther covers => apart other covers inOther).mp
    accounted.disjoint
  obtain ⟨alone, apart⟩ := List.pairwise_cons.mp apart
  refine ⟨accounted.given_pos,
    accounted.apart.release above pos (accounted.notFree run mem) released, fun unit => ?_,
    fun other isOther unit covers free => ?_, fun other isOther => ?_, apart⟩
  · rw [accounted.given_iff, freeIff, or_assoc]
    refine or_congr_right ?_
    simp only [moved.mem_iff, List.mem_cons, exists_eq_or_imp]
  · rcases (freeIff unit).mp free with free | inRun
    · exact accounted.notFree other (List.mem_of_mem_erase isOther) unit covers free
    · exact alone other isOther unit inRun covers
  · exact accounted.filled other (List.mem_of_mem_erase isOther)

/-- In every run the list is sorted, with a gap between any two of its runs; with the runs
handed out it makes the pages of the heap, and each of them can be given back. -/
theorem pages_accounted {taken : List (Taken Pages Event)} {last : Pages}
    (run : (system given).Run taken last) :
    Accounted given last ∧ ∀ run ∈ last.runs, (step last (.free run)).isSome := by
  have base : ∀ s, Initial given s → Accounted given s := fun _ init => init.accounted
  have holds : Accounted given last := by
    refine run.invariant base (fun s e after holds ran => ?_)
    cases e with
    | alloc npages => exact holds.alloc ran
    | free run =>
      have mem : run ∈ s.runs := (Option.ite_none_right_eq_some.mp ran).1
      obtain ⟨other, freed, holds⟩ := holds.free mem
      cases freed.symm.trans ran
      exact holds
  refine ⟨holds, fun run mem => ?_⟩
  obtain ⟨after, freed, -⟩ := holds.free mem
  rw [freed]
  rfl

def fourPages : Pages where
  slab := { heapStart := 4096, heapEnd := 20480, zoneSize := 0, zoneLimit := 0, zonePageCnt := 0
            rtPageList := [⟨1, 4⟩], memusage := fun _ => ⟨.free, 0⟩, zoneArray := fun _ => none
            zoneFree := none, zoneFreeCnt := 0, zone := fun _ => none, zNext := fun _ => none
            cNext := fun _ => none }
  runs := []

theorem fourPages_accounted : Accounted ⟨1, 4⟩
    ((execute step fourPages [.alloc 1, .alloc 2, .free ⟨1, 1⟩]).get (by decide)) :=
  (pages_accounted (Run.executed _ _ ⟨by decide, rfl, fourPages.slab, rfl⟩ _)).1

variable {taken : List (Taken Pages Event)}

theorem run_accounted {last : Pages} (run : (system given).Run taken last) :
    Accounted given last := by
  have base : ∀ s, Initial given s → Accounted given s := fun _ init => init.accounted
  refine run.invariant base fun s e after holds ran => ?_
  cases e with
  | alloc npages => exact holds.alloc ran
  | free run =>
    obtain ⟨other, freed, holds⟩ := holds.free (Option.ite_none_right_eq_some.mp ran).1
    cases freed.symm.trans ran
    exact holds

/-- In every run pages are refused exactly if so many consecutive pages of the heap always meet a
run that is handed out. -/
theorem alloc_refused_iff {last : Pages} (run : (system given).Run taken last) {npages : Nat}
    (pos : 0 < npages) :
    (last.slab.rtPageAlloc npages).1 = none ↔
      ∀ first, (∀ page, (⟨first, npages⟩ : Extent).Covers page → given.Covers page) →
        ∃ run ∈ last.runs, ∃ page, (⟨first, npages⟩ : Extent).Covers page ∧ run.Covers page := by
  have accounted := run_accounted run
  unfold State.rtPageAlloc
  rw [if_neg pos.ne']
  cases found : Extents.take npages last.slab.rtPageList with
  | none =>
    refine iff_of_true rfl fun first inside => ?_
    by_contra! apart
    have allFree : ∀ page, (⟨first, npages⟩ : Extent).Covers page →
        Extents.Free last.slab.rtPageList page := by
      intro page covers
      refine ((accounted.given_iff page).mp (inside page covers)).resolve_right ?_
      rintro ⟨run, mem, own⟩
      exact apart run mem page covers own
    obtain ⟨extent, mem, above, below⟩ := accounted.apart.consecutive pos allFree
    have := Extents.lt_of_take_eq_none found mem
    simp only [Extent.stop] at below
    omega
  | some run =>
    have wereFree := (Extents.take_spec accounted.apart.ordered pos found).2.1
    refine iff_of_false (by simp) fun refused => ?_
    obtain ⟨other, mem, page, covers, own⟩ := refused run.1 fun page covers =>
      (accounted.given_iff page).mpr (.inl (wereFree page covers))
    exact accounted.notFree other mem page own (wereFree page covers)

theorem fourPages_refused :
    let s := (execute step fourPages [.alloc 1, .alloc 2, .free ⟨1, 1⟩]).get (by decide)
    (s.slab.rtPageAlloc 2).1 = none ↔
      ∀ first, (∀ page, (⟨first, 2⟩ : Extent).Covers page → (⟨1, 4⟩ : Extent).Covers page) →
        ∃ run ∈ s.runs, ∃ page, (⟨first, 2⟩ : Extent).Covers page ∧ run.Covers page :=
  alloc_refused_iff (Run.executed _ _ ⟨by decide, rfl, fourPages.slab, rfl⟩ _) (by decide)

end Pages

end RtThread.Slab
