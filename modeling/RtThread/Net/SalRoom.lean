import RtThread.Net.SalInterleaving

/-!
# Room for all sockets

Where nobody is making a socket, an entry that is not in use is free: as many sockets can be made
as the table may hold.
-/

open TransitionSystem

namespace RtThread.Sal

variable {Dev : Type} {Tid : Type} {providers : Providers Dev} {s : State Tid Dev}
  {world : World Dev} {t : Tid}

theorem Held.length_le {table : Table Dev} {live : List (Int × Nat)} (held : Held table live)
    (full : emptyEntry table = table.sockets.length) : table.sockets.length ≤ live.length := by
  have occupied (i : Nat) (below : i < table.sockets.length) :
      ∃ ref, table.occupant i = some ref := by
    have notEmpty : isEmptyEntry table table.sockets[i] = false := by
      have before : i < table.sockets.findIdx (isEmptyEntry table) := by rwa [← emptyEntry, full]
      exact List.not_of_lt_findIdx before
    have isStored : table.sockets[i]? = some table.sockets[i] := List.getElem?_eq_getElem below
    cases isEntry : table.sockets[i] with
    | none => simp [isEntry, isEmptyEntry] at notEmpty
    | some ref =>
      rw [isEntry] at notEmpty isStored
      obtain ⟨netdev, isNetdev⟩ := Option.isSome_iff_exists.mp
        (Option.isNone_eq_false_iff.mp notEmpty)
      obtain ⟨sock, isObject, hasNetdev⟩ := Option.bind_eq_some_iff.mp isNetdev
      exact ⟨ref, occupant_eq_some_iff.mpr
        ⟨sock, object_eq_some_iff.mpr ⟨isStored, isObject⟩, by simp [hasNetdev]⟩⟩
  have within : (List.range table.sockets.length).map
      (fun i : Nat => ((i : Int), (table.occupant i).getD 0)) ⊆ live := by
    intro e mem
    obtain ⟨i, isIndex, rfl⟩ := List.mem_map.mp mem
    obtain ⟨ref, isRef⟩ := occupied i (List.mem_range.mp isIndex)
    rw [isRef]
    exact (held.mem_iff _ _).mpr ⟨i, rfl, isRef⟩
  have nodup : ((List.range table.sockets.length).map
      (fun i : Nat => ((i : Int), (table.occupant i).getD 0))).Nodup := by
    refine List.Nodup.map_on ?_ List.nodup_range
    intro i _ u _ same
    have := congrArg Prod.fst same
    omega
  simpa using (List.subperm_of_subset nodup within).length_le

section Reopening

variable [DecidableEq Tid] [DecidableEq Dev] {domain type protocol : Int} {opening : Opening}

structure Quiet (s : State Tid Dev) : Prop where
  crash : s.world.crash = none
  calls : ∀ t, s.calls t = none

theorem Sound.getsEntry (inv : Sound s) (quiet : Quiet s)
    (room : s.world.live.length < salSocketsNum) (domain type protocol : Int) (t : Tid) :
    ∃ ref table idx, step providers s (.socketNew t domain type protocol ⟨true, some ref⟩) =
        some (Sal.setCall s t (some (.socket idx domain type protocol))
          { s.world with table }) ∧
      Sound (Sal.setCall s t (some (.socket idx domain type protocol))
        { s.world with table }) := by
  obtain ⟨ref, free⟩ := inv.fine.bounded
  have unused : (⟨true, some ref⟩ : Memory).Unused s.world.table := by
    rintro _ ⟨⟩
    simp [free ref (Nat.le_refl ref)]
  have isNew := inv.socketNew unused
  cases isResult : Sal.socketNew s.world.table ⟨true, some ref⟩ with
  | mk table r =>
    rw [isResult] at isNew
    cases r with
    | none =>
      cases isNew with
      | none lacks =>
        rcases lacks with impossible | impossible | ⟨full, noRoom⟩
        · simp at impossible
        · simp at impossible
        · have := inv.held.length_le full
          omega
    | some idx =>
      have undisturbed : Undisturbed s := fun u call isCall => by
        simp [quiet.calls u] at isCall
      refine ⟨ref, table, idx, ?_, inv.new undisturbed isNew _ rfl⟩
      simp only [step, quiet.crash, run, socketNewStep, quiet.calls t, unused, isResult,
        Option.isNone_none, and_self, if_true]

theorem Sound.fills (inv : Sound s) (noCrash : s.world.crash = none) {idx : Nat}
    (isCall : s.calls t = some (.socket idx domain type protocol))
    (others : ∀ u ≠ t, s.calls u = none)
    (usable : Usable providers s.world.network domain type protocol opening) :
    ∃ s', step providers s (.salSocket t opening) = some s' ∧ Sound s' ∧
      Quiet s' ∧ s'.world.network = s.world.network ∧
      s'.world.live.length = s.world.live.length + 1 := by
  obtain ⟨ref, sock, found, isMagic, -, isIndex⟩ := inv.reserved t _ isCall idx rfl
  have succeeds : ¬ (socketInit providers s.world.network domain type protocol sock).2 < 0 := by
    rw [(usable sock).1]
    decide
  obtain ⟨isRet, sock', -, changes⟩ :=
    salSocket_filled inv.fine found isMagic isIndex succeeds (usable sock).2
  obtain ⟨table, isResult⟩ : ∃ table, salSocket providers s.world.network s.world.table idx
      domain type protocol opening = (table, .ret (idx : Int)) := ⟨_, Prod.ext rfl isRet⟩
  rw [isResult] at changes
  have refound : table.object idx = some (ref, sock') := by
    rw [changes.object_eq, Function.update_self]
  have ran : step providers s (.salSocket t opening) = some (Sal.setCall s t none
        { s.world with table := table, live := ((idx : Int), ref) :: s.world.live }) := by
    simp only [step, noCrash, run, salSocketStep, isCall, isResult, created_index refound]
  have careful : Careful providers s (.salSocket t opening) := by
    intro call isCalled
    obtain rfl := Option.some.inj (isCall.symm.trans isCalled)
    exact fun found _ => .inr (usable found.2).2
  refine ⟨_, ran, step_sound inv careful ran, ⟨noCrash, fun u => ?_⟩, rfl, rfl⟩
  by_cases same : u = t
  · rw [same, setCall_self]
  · rw [setCall_of_ne _ same, others u same]

theorem Sound.opens (inv : Sound s) (quiet : Quiet s) (room : s.world.live.length < salSocketsNum)
    (usable : Usable providers s.world.network domain type protocol opening) (t : Tid) :
    ∃ ref s', execute (step providers) s (creation t domain type protocol opening ref) =
        some s' ∧ Sound s' ∧ Quiet s' ∧ s'.world.network = s.world.network ∧
      s'.world.live.length = s.world.live.length + 1 := by
  obtain ⟨ref, table, idx, entered, soundNew⟩ :=
    @Sound.getsEntry _ _ providers s _ _ inv quiet room domain type protocol t
  obtain ⟨s', filled, rest⟩ := @Sound.fills _ _ providers _ t _ _ domain type protocol opening
    soundNew quiet.crash idx (setCall_self ..)
    (fun u ne => by rw [setCall_of_ne _ ne, quiet.calls u]) usable
  refine ⟨ref, s', ?_, rest⟩
  rw [creation, execute, entered, Option.bind_some, execute, filled]
  rfl

theorem Sound.opensAll {n : Nat} (inv : Sound s) (quiet : Quiet s)
    (room : s.world.live.length + n ≤ salSocketsNum)
    (usable : Usable providers s.world.network domain type protocol opening) (t : Tid) :
    ∃ (refs : List Nat) (last : State Tid Dev), refs.length = n ∧ execute (step providers) s
        (refs.flatMap (creation t domain type protocol opening)) = some last ∧
      last.world.live.length = s.world.live.length + n := by
  induction n generalizing s with
  | zero => exact ⟨[], s, rfl, rfl, rfl⟩
  | succ n ih =>
    obtain ⟨ref, s', opened, sound', quiet', network_eq, length_eq⟩ :=
      inv.opens quiet (by omega) usable t
    obtain ⟨refs, last, isCount, executed, isLength⟩ :=
      ih sound' quiet' (by omega) (by rwa [network_eq])
    refine ⟨ref :: refs, last, by simp [isCount], ?_, by omega⟩
    rw [List.flatMap_cons, execute_append, opened]
    exact executed

theorem Sound.reopens (inv : Sound s) : Reopens providers s := by
  intro noCrash noLive idle t domain type protocol opening usable
  have none : s.world.live.length = 0 := by rw [noLive]; rfl
  obtain ⟨refs, last, isCount, executed, isLength⟩ :=
    @Sound.opensAll _ _ providers s _ _ domain type protocol opening salSocketsNum inv
      ⟨noCrash, idle⟩ (by omega) usable t
  exact ⟨refs, last, isCount, executed, by omega⟩

theorem Sound.correct (inv : Sound s) : Correct providers s where
  separate := inv.held.separate inv.fine
  unleaked _ _ sock found hasNetdev := (inv.held.mem_iff _ _).mpr
    ⟨_, rfl, occupant_eq_some_iff.mpr ⟨sock, found, hasNetdev⟩⟩
  noEmptySlot := inv.noEmptySlot
  reopens := inv.reopens

omit [DecidableEq Tid] [DecidableEq Dev] in
theorem Sound.looksUp (inv : Sound s) {e : Event Tid Dev} {s' : State Tid Dev}
    (careful : Careful providers s e) : LooksUp ⟨s, e, s'⟩ := by
  intro socket isLookup
  have named : Named s.world.table socket := by cases e <;> cases isLookup <;> exact careful
  obtain ⟨notEmpty, hasNetdev⟩ := named.found
  split
  · trivial
  · next isEmpty => exact notEmpty isEmpty
  · next ref sock isFound =>
    obtain ⟨i, rfl, found, isMagic⟩ := salGetSocket_found isFound
    exact (inv.held.mem_iff _ _).mpr ⟨i, rfl, occupant_eq_some_iff.mpr
      ⟨sock, found, hasNetdev i ref sock rfl found isMagic⟩⟩

/-- In a run whose steps meet the condition, the sockets of all threads stay apart, lookups find
nothing but sockets in use, and failures leave no entry taken. -/
theorem sockets_separate {taken : List (Taken (State Tid Dev) (Event Tid Dev))}
    {last : State Tid Dev} (run : (system providers).Run taken last)
    (careful : EveryStep (Careful providers) taken) :
    Throughout (Correct providers) taken last ∧ ∀ step ∈ taken, LooksUp step := by
  have throughout : Throughout Sound taken last :=
    run.throughout_of_everyStep (fun _ init => Initial.sound init)
      (fun _ _ _ inv careful ran => step_sound inv careful ran) careful
  refine ⟨throughout.imp fun _ inv => inv.correct, ?_⟩
  rintro ⟨before, e, s'⟩ mem
  exact (throughout.2 _ mem).looksUp (careful _ mem)

end Reopening

def loopback : Providers Unit where
  salUserData := fun _ => some ⟨2, 2, some fun _ => true⟩
  protoTls := none

def initialised : State Bool Unit where
  world :=
    { network := ⟨some (), [()], fun _ => true, fun _ => true, fun _ => 1⟩
      table := ⟨List.replicate 4 none, fun _ => none, []⟩
      live := []
      crash := none }
  calls := fun _ => none

theorem initialised_initial : Initial initialised := ⟨rfl, fun _ => rfl, rfl, rfl, fun _ => rfl⟩

def twoThreads : List (Event Bool Unit) :=
  [.socketNew false 2 1 0 ⟨true, some 100⟩, .salSocket false ⟨7, none⟩, .acceptBegin 0 8 false,
    .socketNew true 2 1 0 ⟨true, some 101⟩, .salSocket true ⟨9, none⟩,
    .acceptNew false ⟨true, some 102⟩ true, .salAccept false .zero true,
    .salClosesocket 1 ⟨true, true, true⟩]

theorem two_threads_separate : ∃ last, execute (step loopback) initialised twoThreads = some last ∧
      Throughout (Correct loopback) (record (step loopback) [] initialised twoThreads) last ∧
      ∀ taken ∈ record (step loopback) [] initialised twoThreads, LooksUp taken := by
  have isSome : (execute (step loopback) initialised twoThreads).isSome := by decide +kernel
  have executed := (Option.some_get isSome).symm
  have run : (system loopback).Run (record (step loopback) [] initialised twoThreads) _ :=
    .execute (.start initialised_initial) executed
  exact ⟨_, executed, sockets_separate run (by decide +kernel)⟩

/-- `sal_closesocket(0)` follows the null pointer of the first entry. -/
theorem empty_slot_touched : ¬ ∀ (taken : List (Taken (State Bool Unit) (Event Bool Unit)))
      (last : State Bool Unit), (system loopback).Run taken last →
        Throughout (Correct loopback) taken last ∧ ∀ step ∈ taken, LooksUp step := by
  intro claim
  have closed : step loopback initialised (.salClosesocket 0 ⟨true, true, true⟩) = some _ := rfl
  exact (claim _ _ ((Run.start initialised_initial).next closed)).1.1.noEmptySlot rfl

end RtThread.Sal
