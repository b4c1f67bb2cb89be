import RtThread.Dfs.Descriptors

/-!
# Reference counts of descriptors

The count of a descriptor is one for its being open and one for every reference that a call has
still to put.
-/

open TransitionSystem

namespace RtThread.Dfs

open Function (update_of_ne update_self update)

structure TableOk (fdt : FdTable) : Prop where
  slot : ∀ i d, fdt.fds i = some d →
    i < fdt.maxfd ∧ d < fdt.allocated ∧ fdt.magic d = true ∧ 0 < fdt.refCount d
  injective : ∀ i u d, fdt.fds i = some d → fdt.fds u = some d → i = u
  live : ∀ d, 0 < fdt.refCount d → ∃ i, fdt.fds i = some d
  freed_iff : ∀ d, d ∈ fdt.freed ↔ d < fdt.allocated ∧ fdt.refCount d = 0
  freedOnce : fdt.freed.Nodup
  fresh : ∀ d, fdt.allocated ≤ d → fdt.refCount d = 0

variable {i : Nat}

section Table

variable {fdt : FdTable} {dfsFdMax idx d : Nat} {console fd : Int}

def FdTable.withNew (fdt : FdTable) (maxfd idx : Nat) : FdTable :=
  { fdt with
    maxfd := maxfd
    fds := update fdt.fds idx (some fdt.allocated)
    refCount := update fdt.refCount fdt.allocated 1
    magic := update fdt.magic fdt.allocated true
    allocated := fdt.allocated + 1 }

theorem fdGet_cases (console : Int) (fdt : FdTable) (fd : Int) :
    fdGet console fdt fd = (none, fdt) ∨ ∃ i d, fdt.fds i = some d ∧ fdGet console fdt fd =
        (some d, { fdt with refCount := update fdt.refCount d (fdt.refCount d + 1) }) := by
  unfold fdGet
  dsimp only
  split
  · exact .inl rfl
  split
  · exact .inl rfl
  · rename_i d isFd
    split
    · exact .inl rfl
    · exact .inr ⟨_, d, isFd, rfl⟩

section

variable (tableOk : TableOk fdt)

include tableOk

theorem TableOk.findFree_cases (left idx : Nat) : findFree fdt left idx = idx + left ∨
      fdt.fds (findFree fdt left idx) = none ∧ findFree fdt left idx < idx + left := by
  induction left generalizing idx with
  | zero => exact .inl rfl
  | succ left ih =>
    unfold findFree
    split
    · next empty => exact .inr ⟨empty, by omega⟩
    · rename_i d isFd
      have pos := (tableOk.slot idx d isFd).2.2.2
      rw [if_neg (by omega)]
      rcases ih (idx + 1) with atEnd | ⟨empty, before⟩
      · exact .inl (by omega)
      · exact .inr ⟨empty, by omega⟩

theorem TableOk.fds_of_le (outside : fdt.maxfd ≤ i) : fdt.fds i = none := by
  cases isFd : fdt.fds i with
  | none => rfl
  | some d => exact absurd (tableOk.slot i d isFd).1 (Nat.not_lt_of_le outside)

theorem TableOk.grown : (fun i => if fdt.maxfd ≤ i then none else fdt.fds i) = fdt.fds := by
  funext i
  split
  · next outside => exact (tableOk.fds_of_le outside).symm
  · rfl

theorem TableOk.fdNew_cases (dfsFdMax : Nat) (grows callocs : Bool) : ∃ maxfd, fdt.maxfd ≤ maxfd ∧
      (fdNew dfsFdMax fdt grows callocs = (none, { fdt with maxfd := maxfd }) ∨
        ∃ idx, idx < maxfd ∧ fdt.fds idx = none ∧
          fdNew dfsFdMax fdt grows callocs = (some idx, fdt.withNew maxfd idx)) := by
  have found := tableOk.findFree_cases (fdt.maxfd - 0) 0
  simp only [Nat.sub_zero, Nat.zero_add] at found
  by_cases atEnd : findFree fdt fdt.maxfd 0 = fdt.maxfd
  · by_cases room : fdt.maxfd < dfsFdMax
    · cases grows with
      | false => exact ⟨fdt.maxfd, le_refl _, .inl (by simp [fdNew, fdAlloc, atEnd, room])⟩
      | true =>
        have empty : fdt.fds fdt.maxfd = none := tableOk.fds_of_le (le_refl _)
        have larger : fdt.maxfd < min (fdt.maxfd + 4) dfsFdMax := by omega
        refine ⟨min (fdt.maxfd + 4) dfsFdMax, Nat.le_of_lt larger, ?_⟩
        cases callocs with
        | false =>
          left
          simp [fdNew, fdAlloc, atEnd, room, tableOk.grown, empty]
        | true =>
          right
          refine ⟨fdt.maxfd, larger, empty, ?_⟩
          have ne : fdt.maxfd ≠ min (fdt.maxfd + 4) dfsFdMax := Nat.ne_of_lt larger
          simp [fdNew, fdAlloc, atEnd, room, tableOk.grown, empty, ne, FdTable.withNew]
    · exact ⟨fdt.maxfd, le_refl _, .inl (by simp [fdNew, fdAlloc, atEnd, room])⟩
  · obtain ⟨empty, inside⟩ := found.resolve_left atEnd
    refine ⟨fdt.maxfd, le_refl _, ?_⟩
    cases callocs with
    | false =>
      left
      simp [fdNew, fdAlloc, atEnd, inside, empty]
    | true =>
      right
      refine ⟨findFree fdt fdt.maxfd 0, inside, empty, ?_⟩
      simp [fdNew, fdAlloc, atEnd, inside, empty, FdTable.withNew]

theorem TableOk.fdGet_index (console : Int) (isFd : fdt.fds i = some d) :
    fdGet console fdt (i + dfsFdOffset) =
      (some d, { fdt with refCount := update fdt.refCount d (fdt.refCount d + 1) }) := by
  obtain ⟨inside, -, magic, -⟩ := tableOk.slot i d isFd
  have isIndex : fdIndex console (i + dfsFdOffset) = i := by
    unfold fdIndex
    rw [if_neg (by simp only [dfsFdOffset]; omega)]
    omega
  unfold fdGet
  rw [isIndex]
  simp [isFd, magic, inside]

end

theorem findFd_cases (fdt : FdTable) (d left i : Nat) : (findFd fdt d left i = none ∧
      ∀ u, i ≤ u → u < i + left → fdt.fds u ≠ some d) ∨
    ∃ found, findFd fdt d left i = some found ∧ fdt.fds found = some d := by
  induction left generalizing i with
  | zero => exact .inl ⟨rfl, fun u _ _ => by omega⟩
  | succ left ih =>
    unfold findFd
    by_cases here : fdt.fds i = some d
    · exact .inr ⟨i, if_pos here, here⟩
    · rw [if_neg here]
      rcases ih (i + 1) with ⟨nothing, others⟩ | found
      · refine .inl ⟨nothing, fun u notBefore inside => ?_⟩
        by_cases same : u = i
        · exact same ▸ here
        · exact others u (by omega) (by omega)
      · exact .inr found

section

variable (tableOk : TableOk fdt)

include tableOk

theorem TableOk.fdPut_cases (pos : 0 < fdt.refCount d) : (1 < fdt.refCount d ∧
      fdPut fdt d = { fdt with refCount := update fdt.refCount d (fdt.refCount d - 1) }) ∨
    ∃ i, fdt.refCount d = 1 ∧ fdt.fds i = some d ∧
      fdPut fdt d = { fdt with
          refCount := update fdt.refCount d 0
          fds := update fdt.fds i none
          freed := d :: fdt.freed } := by
  by_cases last : fdt.refCount d = 1
  · right
    have counted : update fdt.refCount d (fdt.refCount d - 1) = update fdt.refCount d 0 := by
      rw [last]
      rfl
    obtain ⟨i, isFd⟩ := tableOk.live d pos
    have inside := (tableOk.slot i d isFd).1
    rcases findFd_cases { fdt with refCount := update fdt.refCount d 0 } d fdt.maxfd 0 with
      ⟨-, others⟩ | ⟨found, isFound, foundIsFd⟩
    · exact absurd isFd (others i (Nat.zero_le _) (by omega))
    · refine ⟨found, last, foundIsFd, ?_⟩
      have zero : fdt.refCount d - 1 = 0 := by omega
      simp only [fdPut, counted, update_self, if_pos zero, isFound]
  · left
    refine ⟨by omega, ?_⟩
    have notLast : fdt.refCount d - 1 ≠ 0 := by omega
    simp only [fdPut, update_self, if_neg notLast]

theorem TableOk.counted {n : Int} (pos : 0 < fdt.refCount d) (stays : 0 < n) :
    TableOk { fdt with refCount := update fdt.refCount d n } where
  slot := by
    intro i u isFd
    obtain ⟨inside, allocated, magic, otherPositive⟩ := tableOk.slot i u isFd
    refine ⟨inside, allocated, magic, ?_⟩
    dsimp only
    by_cases same : u = d
    · rwa [same, update_self]
    · rwa [update_of_ne same]
  injective := tableOk.injective
  live := by
    intro u otherPositive
    dsimp only at otherPositive
    by_cases same : u = d
    · exact same ▸ tableOk.live d pos
    · rw [update_of_ne same] at otherPositive
      exact tableOk.live u otherPositive
  freed_iff := by
    intro u
    rw [tableOk.freed_iff]
    by_cases same : u = d
    · subst same
      simp only [update_self]
      omega
    · simp only [update_of_ne same]
  freedOnce := tableOk.freedOnce
  fresh := by
    intro u outside
    dsimp only
    by_cases same : u = d
    · subst same
      exact absurd (tableOk.fresh u outside) (by omega)
    · rw [update_of_ne same]
      exact tableOk.fresh u outside

theorem TableOk.released (isFd : fdt.fds i = some d) : TableOk
      { fdt with
        refCount := update fdt.refCount d 0
        fds := update fdt.fds i none
        freed := d :: fdt.freed } := by
  obtain ⟨-, allocated, -, pos⟩ := tableOk.slot i d isFd
  have kept : ∀ u d', update fdt.fds i none u = some d' →
      fdt.fds u = some d' ∧ d' ≠ d := by
    intro u d' isOther
    by_cases same : u = i
    · rw [same, update_self] at isOther
      contradiction
    · rw [update_of_ne same] at isOther
      refine ⟨isOther, ?_⟩
      rintro rfl
      exact same (tableOk.injective u i d' isOther isFd)
  constructor
  · intro u d' isOther
    obtain ⟨isOther, ne⟩ := kept u d' isOther
    simpa only [update_of_ne ne] using tableOk.slot u d' isOther
  · intro u another d' isOther isAnother
    exact tableOk.injective u another d' (kept u d' isOther).1 (kept another d' isAnother).1
  · intro d' isPositive
    dsimp only at isPositive ⊢
    by_cases same : d' = d
    · simp [same] at isPositive
    · rw [update_of_ne same] at isPositive
      obtain ⟨u, isOther⟩ := tableOk.live d' isPositive
      refine ⟨u, ?_⟩
      have ne : u ≠ i := by
        rintro rfl
        exact same (Option.some.inj (isOther.symm.trans isFd))
      rwa [update_of_ne ne]
  · intro d'
    rw [List.mem_cons, tableOk.freed_iff]
    by_cases same : d' = d
    · simp [same, allocated]
    · simp [same]
  · refine List.nodup_cons.mpr ⟨fun isFreed => ?_, tableOk.freedOnce⟩
    have zero := ((tableOk.freed_iff d).mp isFreed).2
    omega
  · intro d' outside
    have ne : d' ≠ d := by
      rintro rfl
      exact Nat.not_lt_of_le outside allocated
    dsimp only
    rw [update_of_ne ne]
    exact tableOk.fresh d' outside

theorem TableOk.enlarged {maxfd : Nat} (larger : fdt.maxfd ≤ maxfd) :
    TableOk { fdt with maxfd := maxfd } :=
  { tableOk with
    slot := fun i d isFd => by
      obtain ⟨inside, others⟩ := tableOk.slot i d isFd
      exact ⟨Nat.lt_of_lt_of_le inside larger, others⟩ }

theorem TableOk.withNew {maxfd idx : Nat} (larger : fdt.maxfd ≤ maxfd) (inside : idx < maxfd)
    (empty : fdt.fds idx = none) : TableOk (fdt.withNew maxfd idx) := by
  have known : ∀ i d, fdt.fds i = some d → i ≠ idx ∧ d ≠ fdt.allocated := by
    intro i d isFd
    constructor
    · rintro rfl
      rw [empty] at isFd
      contradiction
    · exact Nat.ne_of_lt (tableOk.slot i d isFd).2.1
  have cases : ∀ i d, (fdt.withNew maxfd idx).fds i = some d →
      (i = idx ∧ d = fdt.allocated) ∨ (fdt.fds i = some d ∧ d ≠ fdt.allocated) := by
    intro i d isFd
    unfold FdTable.withNew at isFd
    by_cases same : i = idx
    · simp only [same, update_self, Option.some.injEq] at isFd
      exact .inl ⟨same, isFd.symm⟩
    · simp only [update_of_ne same] at isFd
      exact .inr ⟨isFd, (known i d isFd).2⟩
  constructor
  · intro i d isFd
    rcases cases i d isFd with ⟨rfl, rfl⟩ | ⟨isOld, ne⟩
    · simp [FdTable.withNew, inside]
    · obtain ⟨oldInside, allocated, magic, pos⟩ := tableOk.slot i d isOld
      simp only [FdTable.withNew, update_of_ne ne]
      exact ⟨Nat.lt_of_lt_of_le oldInside larger, Nat.lt_succ_of_lt allocated, magic, pos⟩
  · intro i u d isFd isOther
    rcases cases i d isFd with ⟨rfl, rfl⟩ | ⟨isOld, ne⟩
    · rcases cases u _ isOther with ⟨rfl, -⟩ | ⟨-, ne⟩
      · rfl
      · exact absurd rfl ne
    · rcases cases u d isOther with ⟨-, rfl⟩ | ⟨isOtherOld, -⟩
      · exact absurd rfl ne
      · exact tableOk.injective i u d isOld isOtherOld
  · intro d pos
    by_cases same : d = fdt.allocated
    · exact ⟨idx, by simp [FdTable.withNew, same]⟩
    · simp only [FdTable.withNew, update_of_ne same] at pos ⊢
      obtain ⟨i, isFd⟩ := tableOk.live d pos
      exact ⟨i, by rwa [update_of_ne (known i d isFd).1]⟩
  · intro d
    change d ∈ fdt.freed ↔ d < fdt.allocated + 1 ∧ update fdt.refCount fdt.allocated 1 d = 0
    rw [tableOk.freed_iff]
    by_cases same : d = fdt.allocated
    · simp [same]
    · rw [update_of_ne same]
      omega
  · exact tableOk.freedOnce
  · intro d outside
    change fdt.allocated + 1 ≤ d at outside
    have ne : d ≠ fdt.allocated := by omega
    simp only [FdTable.withNew, update_of_ne ne]
    exact tableOk.fresh d (by omega)

end

end Table

def Activity.owed (d : Nat) : Activity → Nat
  | .idle => 0
  | .created _ => 0
  | .opening _ held => if held = d then 1 else 0
  | .openReturns _ held => if held = d then 1 else 0
  | .openFails held => if held = d then 2 else 0
  | .openFailed held => if held = d then 1 else 0
  | .closing held => if held = d then 1 else 0
  | .closeFails held => if held = d then 1 else 0
  | .closePuts held => if held = d then 2 else 0
  | .closeLast held => if held = d then 1 else 0
  | .working held => if held = d then 1 else 0

theorem Activity.holds_iff (activity : Activity) (d : Nat) :
    activity.Holds d ↔ 0 < activity.owed d := by
  cases activity <;> simp [Activity.Holds, Activity.owed] <;> split <;> simp_all

def Stage.counted {Thread : Type} : Stage Thread → Nat
  | .opening _ => 1
  | .isOpen => 1
  | .closing _ => 1
  | .closed => 0
  | .unallocated => 0

variable {Thread : Type} [Fintype Thread] [DecidableEq Thread]

def Tracks (fdt : FdTable) (stage : Nat → Stage Thread) (t : Thread) : Activity → Prop
  | .created i => ∃ d, fdt.fds i = some d ∧ stage d = .opening t
  | .opening i d => fdt.fds i = some d ∧ stage d = .opening t
  | .openReturns i d => fdt.fds i = some d ∧ stage d = .opening t
  | .closing d => stage d = .closing t
  | .closePuts d => stage d = .closed
  | .closeLast d => stage d = .closed
  | _ => True

/-- A descriptor that `open` has returned is open until `close` has put it. -/
def IsReturned (stage : Nat → Stage Thread) (activity : Thread → Activity) (d : Nat) : Prop :=
  stage d = .isOpen ∨ (∃ t, stage d = .closing t) ∨
    ∃ t, activity t = .closePuts d ∨ activity t = .closeLast d

structure Accounted (s : FdState Thread) : Prop where
  tableOk : TableOk s.fdt
  total : ∀ d, s.fdt.refCount d = ((s.stage d).counted + ∑ t, (s.activity t).owed d : Nat)
  tracks : ∀ t, Tracks s.fdt s.stage t (s.activity t)
  unallocated : ∀ d, s.fdt.allocated ≤ d → s.stage d = .unallocated
  returned : ∀ descriptor ∈ s.returned, s.fdt.fds descriptor.1 = some descriptor.2 ∧
      IsReturned s.stage s.activity descriptor.2
  returnedOnce : s.returned.Nodup
  putLive : s.misused = false

variable {s : FdState Thread} {t : Thread} {d : Nat} {next : Activity}

theorem Accounted.sound (acc : Accounted s) : s.Sound where
  numbers := by
    refine List.Nodup.map_on ?_ acc.returnedOnce
    intro a isFirst second isSecond same
    have firstFd := (acc.returned a isFirst).1
    have secondFd := (acc.returned second isSecond).1
    rw [same, secondFd] at firstFd
    exact Prod.ext same (Option.some.inj firstFd).symm
  objects := by
    refine List.Nodup.map_on ?_ acc.returnedOnce
    intro a isFirst second isSecond same
    have firstFd := (acc.returned a isFirst).1
    have secondFd := (acc.returned second isSecond).1
    rw [same] at firstFd
    exact Prod.ext (acc.tableOk.injective _ _ _ firstFd secondFd) same
  inTable := by
    intro descriptor isReturned
    have isFd := (acc.returned descriptor isReturned).1
    refine ⟨isFd, fun isFreed => ?_⟩
    have pos := (acc.tableOk.slot _ _ isFd).2.2.2
    have zero := ((acc.tableOk.freed_iff _).mp isFreed).2
    omega
  freedOnce := acc.tableOk.freedOnce
  unheld := by
    intro d isFreed t holds
    have zero := ((acc.tableOk.freed_iff d).mp isFreed).2
    rw [acc.total d] at zero
    have owed := (Activity.holds_iff _ _).mp holds
    have bound := le_sum (fun t => (s.activity t).owed d) t
    omega
  released := by
    intro d allocated isClosed unheld
    refine (acc.tableOk.freed_iff d).mpr ⟨allocated, ?_⟩
    have nobody : ∑ t, (s.activity t).owed d = 0 :=
      Finset.sum_eq_zero fun t _ =>
        Nat.eq_zero_of_not_pos fun owed => unheld t ((Activity.holds_iff _ _).mpr owed)
    rw [acc.total d, isClosed, nobody]
    rfl
  putLive := acc.putLive

variable {stage : Nat → Stage Thread}

theorem Accounted.change (acc : Accounted s) {fdt : FdTable}
    {returned : List (Nat × Nat)} (tableOk : TableOk fdt)
    (total : ∀ d, fdt.refCount d + (s.stage d).counted + (s.activity t).owed d =
      s.fdt.refCount d + (stage d).counted + next.owed d)
    (kept : ∀ i d, s.fdt.fds i = some d → (stage d).counted = 1 →
      fdt.fds i = some d) (stages : ∀ u, u ≠ t → ∀ d, (s.stage d = .opening u ∨
      s.stage d = .closing u ∨ s.stage d = .closed) → stage d = s.stage d)
    (tracks : Tracks fdt stage t next)
    (unallocated : ∀ d, fdt.allocated ≤ d → stage d = .unallocated)
    (isReturned : ∀ descriptor ∈ returned, fdt.fds descriptor.1 = some descriptor.2 ∧
      IsReturned stage (update s.activity t next) descriptor.2) (returnedOnce : returned.Nodup) :
    Accounted
      { fdt := fdt
        activity := update s.activity t next
        stage := stage
        returned := returned
        misused := false } where
  tableOk := tableOk
  total := by
    intro d
    have sum := sum_update_add (Activity.owed d) s.activity t next
    have before := acc.total d
    have change := total d
    dsimp only
    omega
  tracks := by
    intro u
    dsimp only
    by_cases same : u = t
    · subst same
      rw [update_self]
      exact tracks
    · rw [update_of_ne same]
      have before := acc.tracks u
      have keeps : ∀ i d, s.fdt.fds i = some d → s.stage d = .opening u →
          fdt.fds i = some d ∧ stage d = .opening u := by
        intro i d isFd isOpening
        have isSame := (stages u same d (.inl isOpening)).trans isOpening
        exact ⟨kept i d isFd (by rw [isSame]; rfl), isSame⟩
      cases isActivity : s.activity u with
      | created i =>
        rw [isActivity] at before
        obtain ⟨d, isFd, isOpening⟩ := before
        exact ⟨d, keeps i d isFd isOpening⟩
      | opening i d | openReturns i d =>
        rw [isActivity] at before
        exact keeps i d before.1 before.2
      | closing d =>
        rw [isActivity] at before
        exact (stages u same d (.inr (.inl before))).trans before
      | closePuts d | closeLast d =>
        rw [isActivity] at before
        exact (stages u same d (.inr (.inr before))).trans before
      | _ => trivial
  unallocated := unallocated
  returned := isReturned
  returnedOnce := returnedOnce
  putLive := rfl

omit [Fintype Thread] in
theorem IsReturned.kept (isReturned : IsReturned s.stage s.activity d) (same : stage d = s.stage d)
    (unrelated : s.activity t ≠ .closePuts d ∧ s.activity t ≠ .closeLast d) :
    IsReturned stage (update s.activity t next) d := by
  rcases isReturned with isOpen | ⟨u, isClosing⟩ | ⟨u, isClosing⟩
  · exact .inl (same.trans isOpen)
  · exact .inr (.inl ⟨u, same.trans isClosing⟩)
  · have ne : u ≠ t := by
      rintro rfl
      exact isClosing.elim unrelated.1 unrelated.2
    refine .inr (.inr ⟨u, ?_⟩)
    rwa [update_of_ne ne]

section

variable (acc : Accounted s)

include acc

omit [DecidableEq Thread] in
theorem Accounted.not_returned (isOpening : s.stage d = .opening t) {descriptor : Nat × Nat}
    (isReturned : descriptor ∈ s.returned) : descriptor.2 ≠ d := by
  rintro rfl
  rcases (acc.returned descriptor isReturned).2 with isOpen | ⟨u, isClosing⟩ |
    ⟨u, isClosing⟩
  · rw [isOpening] at isOpen
    contradiction
  · rw [isOpening] at isClosing
    contradiction
  · have isClosed : s.stage descriptor.2 = .closed := by
      have tracks := acc.tracks u
      rcases isClosing with isActivity | isActivity
      · rwa [isActivity] at tracks
      · rwa [isActivity] at tracks
    rw [isOpening] at isClosed
    contradiction

theorem Accounted.returned_kept
    (same : ∀ descriptor ∈ s.returned, stage descriptor.2 = s.stage descriptor.2)
    (unrelated : ∀ d, s.activity t ≠ .closePuts d ∧ s.activity t ≠ .closeLast d) :
    ∀ descriptor ∈ s.returned, s.fdt.fds descriptor.1 = some descriptor.2 ∧
      IsReturned stage (update s.activity t next) descriptor.2 :=
  fun descriptor isReturned =>
    ⟨(acc.returned descriptor isReturned).1,
      (acc.returned descriptor isReturned).2.kept (same descriptor isReturned) (unrelated _)⟩

theorem Accounted.get (isFd : s.fdt.fds i = some d)
    (owes : ∀ d', next.owed d' = (s.activity t).owed d' + if d' = d then 1 else 0)
    (counted : ∀ d', (stage d').counted = (s.stage d').counted)
    (stages : ∀ u, u ≠ t → ∀ d,
      (s.stage d = .opening u ∨ s.stage d = .closing u ∨ s.stage d = .closed) → stage d = s.stage d)
    (tracks : Tracks s.fdt stage t next)
    (unallocated : ∀ d, s.fdt.allocated ≤ d → stage d = .unallocated)
    (isReturned : ∀ descriptor ∈ s.returned, s.fdt.fds descriptor.1 = some descriptor.2 ∧
      IsReturned stage (update s.activity t next) descriptor.2) :
    Accounted
      { fdt := { s.fdt with
          refCount := update s.fdt.refCount d (s.fdt.refCount d + 1) }
        activity := update s.activity t next
        stage := stage
        returned := s.returned
        misused := s.misused } := by
  have pos := (acc.tableOk.slot i d isFd).2.2.2
  rw [acc.putLive]
  refine acc.change (acc.tableOk.counted pos (by omega)) ?_
    (fun _ _ isFd _ => isFd) stages ?_ unallocated isReturned acc.returnedOnce
  · intro d'
    have owed := owes d'
    rw [counted d']
    dsimp only
    by_cases same : d' = d
    · subst same
      rw [update_self]
      rw [if_pos rfl] at owed
      omega
    · rw [update_of_ne same]
      rw [if_neg same] at owed
      omega
  · cases next <;> exact tracks

theorem Accounted.put {ret : List (Nat × Nat)}
    (owes : ∀ d', (s.activity t).owed d' = next.owed d' + if d' = d then 1 else 0)
    (counted : ∀ d', (stage d').counted = (s.stage d').counted)
    (stages : ∀ u, u ≠ t → ∀ d,
      (s.stage d = .opening u ∨ s.stage d = .closing u ∨ s.stage d = .closed) → stage d = s.stage d)
    (tracks : ∀ fdt, Tracks fdt stage t next)
    (unallocated : ∀ d, s.fdt.allocated ≤ d → stage d = .unallocated)
    (isReturned : ∀ descriptor ∈ ret, s.fdt.fds descriptor.1 = some descriptor.2 ∧
      IsReturned stage (update s.activity t next) descriptor.2)
    (returnedOnce : ret.Nodup) : Accounted (s.put t d next stage ret) := by
  have owed : 1 ≤ (s.activity t).owed d := by
    rw [owes d, if_pos rfl]
    omega
  have bound := le_sum (fun t => (s.activity t).owed d) t
  have isTotal := acc.total d
  have pos : 0 < s.fdt.refCount d := by omega
  have notFreed : d ∉ s.fdt.freed := by
    intro isFreed
    have zero := ((acc.tableOk.freed_iff d).mp isFreed).2
    omega
  have misused : (s.misused || decide (d ∈ s.fdt.freed)) = false := by simp [acc.putLive, notFreed]
  unfold FdState.put
  rw [misused]
  rcases acc.tableOk.fdPut_cases pos with ⟨more, isPut⟩ | ⟨i, last, isFd, isPut⟩
  · rw [isPut]
    refine acc.change (acc.tableOk.counted pos (by omega)) ?_
      (fun _ _ isFd _ => isFd) stages (tracks _) unallocated isReturned returnedOnce
    intro d'
    have owed' := owes d'
    rw [counted d']
    dsimp only
    by_cases same : d' = d
    · subst same
      rw [update_self]
      rw [if_pos rfl] at owed'
      omega
    · rw [update_of_ne same]
      rw [if_neg same] at owed'
      omega
  · have notCounted : (stage d).counted = 0 := by
      rw [counted d]
      omega
    have keeps : ∀ u d', s.fdt.fds u = some d' → d' ≠ d →
        update s.fdt.fds i none u = some d' := by
      intro u d' isOther ne
      have otherIndex : u ≠ i := by
        rintro rfl
        exact ne (Option.some.inj (isOther.symm.trans isFd))
      rwa [update_of_ne otherIndex]
    rw [isPut]
    refine acc.change (acc.tableOk.released isFd) ?_ ?_ stages (tracks _) unallocated
      ?_ returnedOnce
    · intro d'
      have owed' := owes d'
      rw [counted d']
      dsimp only
      by_cases same : d' = d
      · subst same
        rw [update_self]
        rw [if_pos rfl] at owed'
        omega
      · rw [update_of_ne same]
        rw [if_neg same] at owed'
        omega
    · intro u d' isOther isCounted
      refine keeps u d' isOther ?_
      rintro rfl
      omega
    · intro descriptor isDescriptor
      obtain ⟨isEntry, stays⟩ := isReturned descriptor isDescriptor
      refine ⟨keeps _ _ isEntry ?_, stays⟩
      rintro rfl
      have nobody := sum_update_add (Activity.owed descriptor.2) s.activity t next
      have owedNext := owes descriptor.2
      rw [if_pos rfl] at owedNext
      rcases stays with isOpen | ⟨u, isClosing⟩ | ⟨u, isClosing⟩
      · rw [isOpen] at notCounted
        contradiction
      · rw [isClosing] at notCounted
        contradiction
      · have owesIt : (update s.activity t next u).owed descriptor.2 ≠ 0 := by
          rcases isClosing with isActivity | isActivity
          · simp [isActivity, Activity.owed]
          · simp [isActivity, Activity.owed]
        have within := le_sum
          (fun t' => (update s.activity t next t').owed descriptor.2) u
        omega

end

variable {dfsFdMax : Nat} {console : Int} {e : FdEvent Thread} {after : FdState Thread}

theorem Accounted.openNew (acc : Accounted s) (idle : s.activity t = .idle)
    {maxfd idx : Nat} (larger : s.fdt.maxfd ≤ maxfd) (inside : idx < maxfd)
    (empty : s.fdt.fds idx = none) :
    Accounted
      { s with
        fdt := s.fdt.withNew maxfd idx
        activity := update s.activity t (.created idx)
        stage := update s.stage s.fdt.allocated (.opening t) } := by
  have isNew := acc.unallocated s.fdt.allocated (le_refl _)
  have known : ∀ {i d}, s.fdt.fds i = some d →
      i ≠ idx ∧ d ≠ s.fdt.allocated := by
    intro i d isFd
    constructor
    · rintro rfl
      rw [empty] at isFd
      contradiction
    · exact Nat.ne_of_lt (acc.tableOk.slot i d isFd).2.1
  have keeps : ∀ {i d}, s.fdt.fds i = some d →
      (s.fdt.withNew maxfd idx).fds i = some d := by
    intro i d isFd
    simp only [FdTable.withNew]
    rwa [update_of_ne (known isFd).1]
  rw [acc.putLive]
  refine acc.change (acc.tableOk.withNew larger inside empty) ?_
    (fun _ _ isFd _ => keeps isFd) ?_ ?_ ?_ ?_ acc.returnedOnce
  · intro d
    simp only [FdTable.withNew, idle, Activity.owed]
    by_cases same : d = s.fdt.allocated
    · subst same
      have zero := acc.tableOk.fresh s.fdt.allocated (le_refl _)
      simp [isNew, zero, Stage.counted]
    · rw [update_of_ne same, update_of_ne same]
  · intro u _ d known
    have ne : d ≠ s.fdt.allocated := by
      rintro rfl
      rw [isNew] at known
      simp at known
    rw [update_of_ne ne]
  · exact ⟨s.fdt.allocated, by simp [FdTable.withNew], by simp⟩
  · intro d outside
    change s.fdt.allocated + 1 ≤ d at outside
    rw [update_of_ne (by omega)]
    exact acc.unallocated d (by omega)
  · intro descriptor isReturned
    obtain ⟨isFd, stays⟩ := acc.returned descriptor isReturned
    refine ⟨keeps isFd, stays.kept ?_ (by simp [idle])⟩
    rw [update_of_ne (known isFd).2]

omit [Fintype Thread] [DecidableEq Thread] in
theorem stages_update {stage : Stage Thread} (own : s.stage d = .opening t ∨
      s.stage d = .closing t ∨ s.stage d = .isOpen) : ∀ u, u ≠ t → ∀ d', (s.stage d' = .opening u ∨
      s.stage d' = .closing u ∨ s.stage d' = .closed) → update s.stage d stage d' = s.stage d' := by
  intro u ne d' relied
  have notSame : d' ≠ d := by
    rintro rfl
    rcases own with isOpening | isClosing | isOpen
    · simp [isOpening, Ne.symm ne] at relied
    · simp [isClosing, Ne.symm ne] at relied
    · simp [isOpen] at relied
  rw [update_of_ne notSame]

section

variable (acc : Accounted s)

include acc

omit [DecidableEq Thread] in
theorem Accounted.stage_unallocated {stage : Stage Thread} (allocated : s.stage d ≠ .unallocated) :
    ∀ d', s.fdt.allocated ≤ d' → update s.stage d stage d' = .unallocated := by
  intro d' outside
  have ne : d' ≠ d := by
    rintro rfl
    exact allocated (acc.unallocated d' outside)
  rw [update_of_ne ne]
  exact acc.unallocated d' outside

theorem Accounted.openFile {opens : Bool} (isOpening : s.activity t = .opening i d)
    (step : FdState.step dfsFdMax console s (.openFile t opens) = some after) :
    Accounted after := by
  have tracks := acc.tracks t
  rw [isOpening] at tracks
  simp only [FdState.step, isOpening] at step
  split at step
  · cases step
    rw [acc.putLive]
    refine acc.change acc.tableOk ?_ (fun _ _ isFd _ => isFd) (fun _ _ _ _ => rfl)
      tracks acc.unallocated (acc.returned_kept (fun _ _ => rfl) (by simp [isOpening]))
      acc.returnedOnce
    intro d'
    rw [isOpening]
    rfl
  · cases step
    rw [acc.putLive]
    refine acc.change acc.tableOk ?_ (fun _ _ isFd _ => isFd)
      (stages_update (.inl tracks.2)) trivial
      (acc.stage_unallocated (by simp [tracks.2]))
      (acc.returned_kept (fun descriptor isReturned => ?_) (by simp [isOpening]))
      acc.returnedOnce
    · intro d'
      rw [isOpening]
      by_cases same : d' = d
      · subst same
        simp [tracks.2, Stage.counted, Activity.owed]
        omega
      · rw [update_of_ne same]
        simp [Activity.owed, Ne.symm same]
    · rw [update_of_ne (acc.not_returned tracks.2 isReturned)]

theorem Accounted.closeFile {closes : Bool} (isClosing : s.activity t = .closing d)
    (step : FdState.step dfsFdMax console s (.closeFile t closes) = some after) :
    Accounted after := by
  have tracks := acc.tracks t
  rw [isClosing] at tracks
  change s.stage d = .closing t at tracks
  simp only [FdState.step, isClosing] at step
  split at step
  · cases step
    rw [acc.putLive]
    refine acc.change acc.tableOk ?_ (fun _ _ isFd _ => isFd)
      (stages_update (.inr (.inl tracks))) (update_self ..)
      (acc.stage_unallocated (by simp [tracks])) ?_ acc.returnedOnce
    · intro d'
      rw [isClosing]
      by_cases same : d' = d
      · subst same
        simp [tracks, Stage.counted, Activity.owed]
        omega
      · rw [update_of_ne same]
        simp [Activity.owed, Ne.symm same]
    · intro descriptor isReturned
      obtain ⟨isFd, stays⟩ := acc.returned descriptor isReturned
      refine ⟨isFd, ?_⟩
      by_cases same : descriptor.2 = d
      · exact .inr (.inr ⟨t, .inl (by rw [update_self, same])⟩)
      · exact stays.kept (update_of_ne same ..) (by simp [isClosing])
  · cases step
    rw [acc.putLive]
    refine acc.change acc.tableOk ?_ (fun _ _ isFd _ => isFd)
      (stages_update (.inr (.inl tracks))) trivial
      (acc.stage_unallocated (by simp [tracks])) ?_ acc.returnedOnce
    · intro d'
      rw [isClosing]
      by_cases same : d' = d
      · subst same
        simp [tracks, Stage.counted, Activity.owed]
      · rw [update_of_ne same]
        simp [Activity.owed]
    · intro descriptor isReturned
      obtain ⟨isFd, stays⟩ := acc.returned descriptor isReturned
      refine ⟨isFd, ?_⟩
      by_cases same : descriptor.2 = d
      · exact .inl (by rw [same, update_self])
      · exact stays.kept (update_of_ne same ..) (by simp [isClosing])

theorem Accounted.put_same
    (owes : ∀ d', (s.activity t).owed d' = next.owed d' + if d' = d then 1 else 0)
    (tracks : ∀ fdt, Tracks fdt s.stage t next)
    (unrelated : ∀ d, s.activity t ≠ .closePuts d ∧ s.activity t ≠ .closeLast d) :
    Accounted (s.put t d next s.stage s.returned) :=
  acc.put owes (fun _ => rfl) (fun _ _ _ _ => rfl) tracks acc.unallocated
    (acc.returned_kept (fun _ _ => rfl) unrelated) acc.returnedOnce

theorem Accounted.openReturns (returns : s.activity t = .openReturns i d) :
    Accounted (s.put t d .idle (update s.stage d .isOpen) ((i, d) :: s.returned)) := by
  have tracks := acc.tracks t
  rw [returns] at tracks
  obtain ⟨isFd, isOpening⟩ := tracks
  have others : ∀ descriptor ∈ s.returned, descriptor.2 ≠ d := fun _ isReturned =>
    acc.not_returned isOpening isReturned
  refine acc.put ?_ ?_ (stages_update (.inl isOpening)) (fun _ => trivial)
    (acc.stage_unallocated (by simp [isOpening])) ?_ ?_
  · intro d'
    rw [returns]
    simp [Activity.owed, eq_comm]
  · intro d'
    by_cases same : d' = d
    · simp [same, isOpening, Stage.counted]
    · rw [update_of_ne same]
  · intro descriptor isReturned
    rcases List.mem_cons.mp isReturned with rfl | earlier
    · exact ⟨isFd, .inl (update_self ..)⟩
    · refine acc.returned_kept (fun u isOther => ?_) (by simp [returns]) descriptor earlier
      rw [update_of_ne (others u isOther)]
  · exact List.nodup_cons.mpr
      ⟨fun earlier => others _ earlier rfl, acc.returnedOnce⟩

theorem Accounted.closePuts (puts : s.activity t = .closePuts d) :
    Accounted (s.put t d (.closeLast d) s.stage s.returned) := by
  have tracks := acc.tracks t
  rw [puts] at tracks
  refine acc.put ?_ (fun _ => rfl) (fun _ _ _ _ => rfl) (fun _ => tracks)
    acc.unallocated ?_ acc.returnedOnce
  · intro d'
    rw [puts]
    by_cases same : d' = d
    · simp [Activity.owed, same]
    · simp [Activity.owed, same, Ne.symm same]
  · intro descriptor isReturned
    obtain ⟨isFd, stays⟩ := acc.returned descriptor isReturned
    refine ⟨isFd, ?_⟩
    by_cases same : descriptor.2 = d
    · exact .inr (.inr ⟨t, .inr (by rw [update_self, same])⟩)
    · exact stays.kept rfl (by simp [puts, Ne.symm same])

theorem Accounted.closeLast (puts : s.activity t = .closeLast d) :
    Accounted (s.put t d .idle s.stage (s.returned.filter fun descriptor => descriptor.2 ≠ d)) := by
  refine acc.put ?_ (fun _ => rfl) (fun _ _ _ _ => rfl) (fun _ => trivial)
    acc.unallocated ?_ (acc.returnedOnce.filter _)
  · intro d'
    rw [puts]
    simp [Activity.owed, eq_comm]
  · intro descriptor isReturned
    obtain ⟨isEarlier, ne⟩ := List.mem_filter.mp isReturned
    obtain ⟨isFd, stays⟩ := acc.returned descriptor isEarlier
    refine ⟨isFd, stays.kept rfl ?_⟩
    have notSame : d ≠ descriptor.2 := fun same => by simp [same] at ne
    simp [puts, notSame]

theorem step_accounted (closesOpen : ClosesOpen console s e)
    (step : FdState.step dfsFdMax console s e = some after) : Accounted after := by
  cases e with
  | openNew t grows callocs =>
    simp only [FdState.step] at step
    split at step
    · rename_i idle
      obtain ⟨maxfd, larger, onlyLarger | ⟨idx, inside, empty, isNew⟩⟩ :=
        acc.tableOk.fdNew_cases dfsFdMax grows callocs
      · rw [onlyLarger] at step
        cases step
        exact { acc with tableOk := acc.tableOk.enlarged larger }
      · rw [isNew] at step
        have atNew : (s.fdt.withNew maxfd idx).fds idx = some s.fdt.allocated := by
          simp [FdTable.withNew]
        simp only [atNew] at step
        cases step
        exact acc.openNew idle larger inside empty
    · contradiction
  | openGet t =>
    simp only [FdState.step] at step
    split at step
    · rename_i i isCreated
      have tracks := acc.tracks t
      rw [isCreated] at tracks
      obtain ⟨d, isFd, isOpening⟩ := tracks
      rw [acc.tableOk.fdGet_index console isFd] at step
      cases step
      refine acc.get isFd ?_ (fun _ => rfl) (fun _ _ _ _ => rfl) ⟨isFd, isOpening⟩
        acc.unallocated (acc.returned_kept (fun _ _ => rfl) (by simp [isCreated]))
      intro d'
      rw [isCreated]
      simp [Activity.owed, eq_comm]
    · contradiction
  | openFile t opens =>
    cases isActivity : s.activity t with
    | opening i d => exact acc.openFile isActivity step
    | _ => simp [FdState.step, isActivity] at step
  | closeGet t fd =>
    simp only [FdState.step] at step
    split at step
    · rename_i idle
      rcases fdGet_cases console s.fdt fd with nothing | ⟨i, d, isFd, got⟩
      · rw [nothing] at step
        cases step
        exact acc
      · have isOpen : s.stage d = .isOpen := closesOpen d (by rw [got]; rfl)
        rw [got] at step
        cases step
        refine acc.get isFd ?_ ?_ (stages_update (.inr (.inr isOpen)))
          (update_self ..) (acc.stage_unallocated (by simp [isOpen])) ?_
        · intro d'
          rw [idle]
          simp [Activity.owed, eq_comm]
        · intro d'
          by_cases same : d' = d
          · simp [same, isOpen, Stage.counted]
          · rw [update_of_ne same]
        · intro descriptor isReturned
          obtain ⟨isEntry, stays⟩ := acc.returned descriptor isReturned
          refine ⟨isEntry, ?_⟩
          by_cases same : descriptor.2 = d
          · exact .inr (.inl ⟨t, by rw [same, update_self]⟩)
          · exact stays.kept (update_of_ne same ..) (by simp [idle])
    · contradiction
  | closeFile t closes =>
    cases isActivity : s.activity t with
    | closing d => exact acc.closeFile isActivity step
    | _ => simp [FdState.step, isActivity] at step
  | useGet t fd =>
    simp only [FdState.step] at step
    split at step
    · rename_i idle
      rcases fdGet_cases console s.fdt fd with nothing | ⟨i, d, isFd, got⟩
      · rw [nothing] at step
        cases step
        exact acc
      · rw [got] at step
        cases step
        refine acc.get isFd ?_ (fun _ => rfl) (fun _ _ _ _ => rfl) trivial
          acc.unallocated (acc.returned_kept (fun _ _ => rfl) (by simp [idle]))
        intro d'
        rw [idle]
        simp [Activity.owed, eq_comm]
    · contradiction
  | put t =>
    cases isActivity : s.activity t with
    | openReturns i d =>
      simp only [FdState.step, isActivity] at step
      exact Option.some.inj step ▸ acc.openReturns isActivity
    | closePuts d =>
      simp only [FdState.step, isActivity] at step
      exact Option.some.inj step ▸ acc.closePuts isActivity
    | closeLast d =>
      simp only [FdState.step, isActivity] at step
      exact Option.some.inj step ▸ acc.closeLast isActivity
    | openFails d =>
      simp only [FdState.step, isActivity] at step
      refine Option.some.inj step ▸ acc.put_same ?_ (fun _ => trivial)
        (by simp [isActivity])
      intro d'
      rw [isActivity]
      by_cases same : d' = d
      · simp [Activity.owed, same]
      · simp [Activity.owed, same, Ne.symm same]
    | openFailed d | closeFails d | working d =>
      simp only [FdState.step, isActivity] at step
      refine Option.some.inj step ▸ acc.put_same ?_ (fun _ => trivial)
        (by simp [isActivity])
      intro d'
      rw [isActivity]
      simp [Activity.owed, eq_comm]
    | _ => simp [FdState.step, isActivity] at step

end

/-- The descriptors are sound throughout a run in which `close` is called for open
descriptors only. -/
theorem descriptors_sound_throughout {taken : List (Taken (FdState Thread) (FdEvent Thread))}
    {last : FdState Thread} (run : (fdSystem dfsFdMax console).Run taken last)
    (every : EveryStep (ClosesOpen console) taken) : Throughout FdState.Sound taken last := by
  have base : ∀ s : FdState Thread, FdState.Initial s → Accounted s := by
    rintro s rfl
    refine ⟨⟨?_, ?_, ?_, ?_, ?_, ?_⟩, ?_, fun _ => trivial, fun _ _ => rfl, ?_, ?_, rfl⟩
    all_goals simp [Stage.counted, Activity.owed]
  have holds := run.throughout_of_everyStep base
    (fun _ _ _ acc closesOpen step => step_accounted acc closesOpen step) every
  exact holds.imp fun _ acc => acc.sound

def noDescriptors : FdState Bool where
  fdt := ⟨0, fun _ => none, fun _ => 0, fun _ => false, 0, []⟩
  activity := fun _ => .idle
  stage := fun _ => .unallocated
  returned := []
  misused := false

def openEvents (t : Bool) : List (FdEvent Bool) :=
  [.openNew t true true, .openGet t, .openFile t true, .put t]

theorem closed_under_read_sound :
    let events := openEvents true ++
      [.useGet false 3, .closeGet true 3, .closeFile true true, .put true, .put true, .put false]
    Throughout FdState.Sound
      (record (FdState.step 16 (-1)) [] noDescriptors events)
      ((execute (FdState.step 16 (-1)) noDescriptors events).get
        (by decide +kernel)) :=
  descriptors_sound_throughout (.execute (.start rfl) (Option.some_get _).symm) (by decide +kernel)

/-- Two threads close one descriptor, and the last `fd_put` is applied to a freed one. -/
theorem closed_twice_not_sound :
    ¬ ∀ (dfsFdMax : Nat) (console : Int) (taken : List (Taken (FdState Bool) (FdEvent Bool)))
      (last : FdState Bool), (fdSystem dfsFdMax console).Run taken last →
        Throughout FdState.Sound taken last := by
  intro claim
  let events := openEvents true ++
    [.closeGet true 3, .closeGet false 3, .closeFile true true, .closeFile false true,
      .put true, .put true, .put false, .put false]
  have run : (fdSystem 16 (-1)).Run _ _ :=
    .executed noDescriptors events (by rfl) (by decide +kernel)
  exact absurd (claim _ _ _ _ run).1.putLive (by decide +kernel)

end RtThread.Dfs
