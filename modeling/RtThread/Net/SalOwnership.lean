import RtThread.Net.SalMaking

/-!
# Who owns a provider's socket

`sal_bind`, `sal_shutdown` and `sal_closesocket` under the condition, and whole runs.
-/

open TransitionSystem

namespace RtThread.Sal

variable {Dev : Type} [DecidableEq Dev]

section Calls

variable {providers : Providers Dev} {network : Network Dev} {table after : Table Dev}
  {live : List (Int × Nat)} {i ref : Nat} {sock : SalSocket Dev} {world : World Dev}

theorem changeNetdev_settled {newNetdev : Dev} {binding : Binding} (ledger : Ledger table live)
    (found : table.object i = some (ref, sock)) (isLive : ((i : Int), ref) ∈ live)
    (isLawful : lawful (changeNetdev providers table i ref sock newNetdev binding).1.actions = true)
    (moves : present providers sock.netdev .closesocket = true →
      sock.userData = i ∧ binding.closed = true ∧
        present providers (some newNetdev) .socket = true ∧ 0 ≤ binding.newSocket) :
    Settled (held table live i) table
      (changeNetdev providers table i ref sock newNetdev binding).1 live := by
  have isHeld : held table live i = some sock := held_eq_some_iff.mpr ⟨ref, found, isLive⟩
  unfold changeNetdev at isLawful ⊢
  cases valid : netdevSocketopsValid providers sock.netdev .closesocket with
  | crash cause | missing => exact .silent ledger rfl
  | valid netdev ops =>
    obtain ⟨sameNumber, isClosed, isPresent, nonneg⟩ := moves (by rw [present, valid]; rfl)
    rw [valid] at isLawful
    have isNetdev := netdevSocketopsValid_eq valid
    cases validNew : netdevSocketopsValid providers (some newNetdev) .socket with
    | crash cause => simp [present, validNew, Valid.isValid] at isPresent
    | missing => simp [present, validNew, Valid.isValid] at isPresent
    | valid opened ops' =>
      obtain rfl := Option.some.inj (netdevSocketopsValid_eq validNew)
      rw [validNew] at isLawful
      dsimp only at isLawful ⊢
      rw [if_neg (Int.not_lt.mpr nonneg)] at isLawful ⊢
      obtain ⟨r, isResult, -⟩ := @bindTo_cases _
        (((table.record (.closed netdev i binding.closed)).record
          (.opened newNetdev binding.newSocket)).setObject ref
            { sock with netdev := some newNetdev, userData := binding.newSocket })
        providers (some newNetdev) binding.bound
      rw [isResult] at isLawful ⊢
      rw [isClosed] at isLawful ⊢
      have wasProvided : sock.provided = some (netdev, (i : Int)) := by
        rw [SalSocket.provided, isNetdev, Option.map_some, sameNumber]
      have isProvided : provided table live i = some (netdev, (i : Int)) := by
        rw [provided, isHeld, Option.bind_some, wasProvided]
      have fresh : ¬ isOpen (newNetdev, binding.newSocket)
          (.closed netdev (i : Int) true :: table.actions) = true :=
        (lawful_opened isLawful).1
      rw [isOpen_closed] at fresh
      have changes := ((record_fine (record_fine ledger.fine (.closed netdev i true))
        (.opened newNetdev binding.newSocket)).setObject found
          { sock with netdev := some newNetdev, userData := binding.newSocket })
      refine ⟨ledger.rebound isLive found changes.of_record.of_record wasProvided rfl rfl
        (by simpa using fresh) (fun resource => ?_) (fun _ => Iff.rfl),
        [.opened newNetdev binding.newSocket, .closed netdev i true], rfl,
        ledger.sockets.opened _ _ isProvided, .inl ?_, trivial⟩
      · refine (isOpen_opened nonneg).trans (or_congr_left (isOpen_closed.trans ?_))
        simp
      · rw [isHeld, Option.bind_some, wasProvided]

theorem salBind_settled {ipAddr : Nat} {binding : Binding} (ledger : Ledger table live)
    (isLawful : lawful (salBind providers network table i ipAddr binding).1.actions = true)
    (minds : ∀ ref sock, salGetSocket table i = .found ref sock →
      ((i : Int), ref) ∈ live ∧ Moves providers network i sock ipAddr binding) :
    Settled (held table live i) table
      (salBind providers network table i ipAddr binding).1 live := by
  unfold salBind at isLawful ⊢
  cases isFound : salGetSocket table i with
  | null | emptySlot => exact .silent ledger rfl
  | found ref sock =>
    obtain ⟨isLive, moves⟩ := minds ref sock isFound
    obtain ⟨u, same, found, -⟩ := salGetSocket_found isFound
    obtain rfl : i = u := by omega
    have stays : Settled (held table live i) table
        (bindTo providers table sock.netdev binding.bound).1 live := by
      obtain ⟨r, isResult, -⟩ := @bindTo_cases _ table providers sock.netdev binding.bound
      rw [isResult]
      exact .silent ledger rfl
    rw [isFound] at isLawful
    dsimp only at isLawful ⊢
    split
    · exact stays
    · next isAny =>
      rw [if_neg isAny] at isLawful
      cases isNew : netdevGetByIpaddr network ipAddr with
      | none => exact .silent ledger rfl
      | some newNetdev =>
        rw [isNew] at isLawful
        dsimp only at isLawful ⊢
        split
        · exact stays
        · next ne =>
          rw [if_neg ne] at isLawful
          exact changeNetdev_settled ledger found isLive isLawful
            (moves isAny newNetdev isNew ne)

def liveAfter (after : Table Dev) (i : Nat) (live : List (Int × Nat)) : List (Int × Nat) :=
  if (after.object i).isNone then live.filter (·.1 ≠ (i : Int)) else live

variable {closing : Closing}

theorem endSocket_settled {recorded : Table Dev} {action : Action Dev} {closes : Bool}
    {old : Dev × Int} (ledger : Ledger table live) (found : table.object i = some (ref, sock))
    (isLive : ((i : Int), ref) ∈ live) (wasProvided : sock.provided = some old)
    (fine : Fine recorded) (object_eq : recorded.object = table.object)
    (actions_eq : recorded.actions = action :: table.actions)
    (isOpen_iff : ∀ resource, isOpen resource (action :: table.actions) = true ↔
      isOpen resource table.actions = true ∧ (closes = true → resource ≠ old))
    (isSession_eq : ∀ session, isSession session (action :: table.actions) =
      isSession session table.actions) (proper : Proper (some sock) table.actions [action])
    (ends : Ends providers sock closes closing) :
    Settled (some sock) table (endSocket providers recorded i ref sock closing).1
      (liveAfter (endSocket providers recorded i ref sock closing).1 i live) := by
  have isFound : recorded.object i = some (ref, sock) := by rw [object_eq, found]
  have freed {before : Table Dev} (beforeFine : Fine before)
      (before_eq : before.object = table.object)
      (closed : ∀ resource, isOpen resource before.actions = true ↔
        isOpen resource table.actions = true ∧ resource ≠ old)
      (ended : ∀ session, isSession session before.actions = true ↔
        isSession session table.actions = true ∧ sock.userDataTls ≠ some session)
      (issued : ∃ issued, before.actions = issued ++ table.actions ∧
        Proper (some sock) table.actions issued) :
      Settled (some sock) table (before.free i ref)
        (liveAfter (before.free i ref) i live) := by
    have changes := beforeFine.free (show before.object i = some (ref, sock) by
      rw [before_eq, found])
    have overall : Changes table (before.free i ref) i none :=
      ⟨changes.fine, by rw [changes.object_eq, before_eq]⟩
    have isEmptied : ((before.free i ref).object i).isNone = true := by
      rw [overall.object_eq, Function.update_self]
      rfl
    rw [liveAfter, if_pos isEmptied]
    exact ⟨ledger.released isLive found overall wasProvided closed ended, issued⟩
  have tlsProper (succeeded : Bool) : Proper (some sock) table.actions
      [.tlsClosed sock.userDataTls succeeded, action] := by
    cases isTls : sock.userDataTls with
    | none => exact proper
    | some tls =>
      refine ⟨?_, isTls, proper⟩
      rw [List.singleton_append, isSession_eq]
      refine ledger.sessions.opened i tls ?_
      rw [session, held_eq_some_iff.mpr ⟨ref, found, isLive⟩]
      exact isTls
  rw [Ends] at ends
  rw [endSocket]
  split at ends
  · next both =>
    rw [if_pos both.1, if_pos both.2]
    split
    · next tlsClosed =>
      rw [tlsClosed] at ends
      refine freed (record_fine fine _) object_eq (fun resource => ?_) (fun session => ?_)
        ⟨[.tlsClosed sock.userDataTls closing.tlsClosed, action], by
          simp [Table.record, actions_eq], ?_⟩
      · rw [Table.record, actions_eq, isOpen, isOpen_iff, ends]
        simp
      · rw [Table.record, actions_eq, isSession_closed, isSession_eq, tlsClosed]
        simp
      · exact tlsProper _
    · next notClosed =>
      rw [Bool.not_eq_true] at notClosed
      rw [notClosed] at ends ⊢
      have kept : ((recorded.record (.tlsClosed sock.userDataTls false)).object i).isNone =
          false := by
        rw [record_object, isFound]
        rfl
      rw [liveAfter, kept]
      refine ⟨ledger.congr (record_fine fine _) object_eq (fun resource => ?_) fun session => ?_,
        [.tlsClosed sock.userDataTls false, action], by simp [Table.record, actions_eq], ?_⟩
      · rw [Table.record, actions_eq, isOpen, isOpen_iff, ends]
        simp
      · rw [Table.record, actions_eq, isSession_closed, isSession_eq]
        simp
      · exact tlsProper false
  · next notBoth =>
    obtain ⟨r, isResult⟩ := @endSocket_freed _ recorded ref sock providers i closing notBoth
    rw [endSocket] at isResult
    rw [isResult]
    refine freed fine object_eq (fun resource => ?_) (fun session => ?_)
      ⟨[action], actions_eq, proper⟩
    · rw [actions_eq, isOpen_iff, ends.1]
      simp
    · rw [actions_eq, isSession_eq, ends.2]
      simp

theorem Ledger.liveAfter_self (ledger : Ledger table live) (i : Nat) :
    liveAfter table i live = live := by
  rw [liveAfter]
  split
  · next isEmptied =>
    refine List.filter_eq_self.mpr fun e mem => ?_
    simp only [decide_not, Bool.not_eq_true', decide_eq_false_iff_not]
    intro same
    obtain ⟨u, sock, isIndex, isObject⟩ := ledger.entries e.1 e.2 mem
    obtain rfl : i = u := by omega
    simp [isObject] at isEmptied
  · rfl

theorem salShutdown_settled (ledger : Ledger table live)
    (minds : ∀ ref sock, salGetSocket table i = .found ref sock →
      ((i : Int), ref) ∈ live ∧ Ends providers sock closing.closes closing) :
    Settled (held table live i) table (salShutdown providers table i closing).1
      (liveAfter (salShutdown providers table i closing).1 i live) := by
  have unchanged : Settled (held table live i) table table (liveAfter table i live) := by
    rw [ledger.liveAfter_self]
    exact .silent ledger rfl
  unfold salShutdown
  cases isFound : salGetSocket table i with
  | null | emptySlot => exact unchanged
  | found ref sock =>
    obtain ⟨isLive, ends⟩ := minds ref sock isFound
    obtain ⟨u, same, found, -⟩ := salGetSocket_found isFound
    obtain rfl : i = u := by omega
    dsimp only
    cases valid : netdevSocketopsValid providers sock.netdev .shutdown with
    | crash cause => exact unchanged
    | missing => exact unchanged
    | valid netdev ops =>
      rw [held_eq_some_iff.mpr ⟨ref, found, isLive⟩]
      refine endSocket_settled ledger found isLive ?_ (record_fine ledger.fine _) rfl rfl
        (fun resource => isOpen_shutDown) (fun _ => rfl) trivial ends
      rw [SalSocket.provided, netdevSocketopsValid_eq valid, Option.map_some]

theorem salClosesocket_settled (ledger : Ledger table live)
    (minds : ∀ ref sock, salGetSocket table i = .found ref sock →
      ((i : Int), ref) ∈ live ∧ Ends providers sock closing.succeeded closing) :
    Settled (held table live i) table (salClosesocket providers table i closing).1
      (liveAfter (salClosesocket providers table i closing).1 i live) := by
  have unchanged : Settled (held table live i) table table (liveAfter table i live) := by
    rw [ledger.liveAfter_self]
    exact .silent ledger rfl
  unfold salClosesocket
  cases isFound : salGetSocket table i with
  | null | emptySlot => exact unchanged
  | found ref sock =>
    obtain ⟨isLive, ends⟩ := minds ref sock isFound
    obtain ⟨u, same, found, -⟩ := salGetSocket_found isFound
    obtain rfl : i = u := by omega
    dsimp only
    cases valid : netdevSocketopsValid providers sock.netdev .socket with
    | crash cause => exact unchanged
    | missing => exact unchanged
    | valid netdev ops =>
      have isHeld := held_eq_some_iff.mpr ⟨ref, found, isLive⟩
      have wasProvided : sock.provided = some (netdev, sock.userData) := by
        rw [SalSocket.provided, netdevSocketopsValid_eq valid, Option.map_some]
      rcases @closeProvider_cases _ table providers netdev sock.userData closing.succeeded with
        noOperation | closed
      · simp only [noOperation]
        exact unchanged
      · simp only [closed]
        rw [isHeld]
        refine endSocket_settled ledger found isLive wasProvided (record_fine ledger.fine _) rfl
          rfl (fun resource => isOpen_closed) (fun _ => rfl) ⟨?_, .inl wasProvided, trivial⟩ ends
        refine ledger.sockets.opened i _ ?_
        rw [provided, isHeld]
        exact wasProvided

omit [DecidableEq Dev] in
theorem salGetSocket_negative {socket : Int} (negative : socket < 0) :
    salGetSocket table socket = .null := if_pos (.inl negative)

theorem Ledger.released_eq (ledger : Ledger world.table world.live) {socket : Int}
    (negative : socket < 0) (r : Return) :
    world.released socket (world.table, r) = world.called (world.table, r) := by
  refine released_eq_called ?_
  rintro - ref mem
  obtain ⟨i, -, rfl, -⟩ := ledger.entries socket ref mem
  omega

omit [DecidableEq Dev] in
theorem Orderly.minds {e : CallEvent Dev} {socket : Int}
    (orderly : Orderly providers world e) (isSocket : e.socket = some socket) :
    ∀ ref sock, salGetSocket world.table socket = .found ref sock →
      Minds providers world socket ref sock e := by
  intro ref sock isFound
  refine orderly.2 socket isSocket (ref, sock) ?_
  rw [isFound]
  rfl

theorem callStep_settled {e : CallEvent Dev} {after : World Dev}
    (ledger : Ledger world.table world.live) (orderly : Orderly providers world e)
    (taken : callStep providers world e = some after) :
    Settled (e.owner world) world.table after.table after.live := by
  obtain ⟨enabled, taken⟩ := Option.ite_none_right_eq_some.mp taken
  simp only [Bool.and_eq_true] at enabled
  obtain ⟨⟨-, unused⟩, isLawful⟩ := enabled
  cases taken
  cases e with
  | network network => exact .silent ledger rfl
  | salSocket domain type protocol m opening =>
    exact wholeSocket_settled ledger unused isLawful orderly.1
  | salAccept socket newSocket m closed =>
    exact wholeAccept_settled ledger unused isLawful (orderly.minds rfl)
  | salBind socket ipAddr binding =>
    simp only [callOnce, called_table, called_live] at isLawful ⊢
    by_cases nonneg : 0 ≤ socket
    · obtain ⟨i, rfl⟩ := Int.eq_ofNat_of_zero_le nonneg
      exact salBind_settled ledger isLawful (orderly.minds rfl)
    · rw [salBind, salGetSocket_negative (by omega)]
      exact .silent ledger rfl
  | salShutdown socket closing =>
    by_cases nonneg : 0 ≤ socket
    · obtain ⟨i, rfl⟩ := Int.eq_ofNat_of_zero_le nonneg
      have settled := @salShutdown_settled _ _ providers _ _ i closing ledger
        (orderly.minds rfl)
      simp only [callOnce, World.released, called_table]
      exact settled
    · rw [callOnce, salShutdown, salGetSocket_negative (by omega), ledger.released_eq (by omega)]
      exact .silent ledger rfl
  | salClosesocket socket closing =>
    by_cases nonneg : 0 ≤ socket
    · obtain ⟨i, rfl⟩ := Int.eq_ofNat_of_zero_le nonneg
      have settled := @salClosesocket_settled _ _ providers _ _ i closing ledger
        (orderly.minds rfl)
      simp only [callOnce, World.released, called_table]
      exact settled
    · rw [callOnce, salClosesocket, salGetSocket_negative (by omega),
        ledger.released_eq (by omega)]
      exact .silent ledger rfl

theorem Start.ledger (start : Start world) : Ledger world.table world.live := by
  have nothing (i : Nat) : held world.table world.live i = none := by
    rw [start.live]
    exact held_none fun _ => List.not_mem_nil
  have noObject (i ref : Nat) : world.table.sockets[i]? ≠ some (some ref) := by
    simp [start.sockets, List.getElem?_replicate]
  refine ⟨⟨?_, fun i ref isStored => absurd isStored (noObject i ref),
    fun i u ref isStored => absurd isStored (noObject i ref),
    ⟨0, fun ref _ => start.objects ref⟩⟩, ?_, ?_, ?_, ?_⟩
  · rw [start.sockets]
    decide
  · simp [start.live]
  · intro i sock isHeld
    simp [nothing] at isHeld
  · refine ⟨fun i resource isProvided => ?_, fun resource isOpened => ?_,
      fun i u resource isProvided => ?_⟩
    · simp [provided, nothing] at isProvided
    · simp [start.actions, isOpen] at isOpened
    · simp [provided, nothing] at isProvided
  · refine ⟨fun i tls isTls => ?_, fun tls isOpened => ?_, fun i u tls isTls => ?_⟩
    · simp [session, nothing] at isTls
    · simp [start.actions, isSession] at isOpened
    · simp [session, nothing] at isTls

/-- In a run whose steps meet the condition, the sockets in use own all that is open, and each
call closes its own. -/
theorem sockets_owned {taken : List (Taken (World Dev) (CallEvent Dev))} {last : World Dev}
    (run : (calls providers).Run taken last) (orderly : EveryStep (Orderly providers) taken) :
    Throughout (fun world => Owned world.table world.live) taken last ∧
      ∀ step ∈ taken, ClosesOwn step := by
  have throughout : Throughout (fun world => Ledger world.table world.live) taken last :=
    run.throughout_of_everyStep (fun _ start => Start.ledger start)
      (fun _ _ _ ledger orderly ran => (callStep_settled ledger orderly ran).ledger) orderly
  refine ⟨throughout.imp fun _ ledger => ledger.owned, fun step mem => ?_⟩
  exact (callStep_settled (throughout.2 step mem) (orderly step mem)
    (run.step_of_mem mem)).issued

end Calls

def interfaces : Providers Bool where
  salUserData := fun second => some ⟨if second then 10 else 2, 0, some fun _ => true⟩
  protoTls := some ⟨true, true⟩

def booted : World Bool where
  network := ⟨some false, [false, true], fun _ => true, fun _ => true, fun second =>
    second.toNat + 1⟩
  table := ⟨List.replicate 4 none, fun _ => none, []⟩
  live := []
  crash := none

theorem booted_start : Start booted := ⟨rfl, fun _ => rfl, rfl, rfl⟩

def someCalls : List (CallEvent Bool) :=
  [.salSocket 2 1 256 ⟨true, some 100⟩ ⟨7, some 40⟩, .salSocket 10 1 0 ⟨true, some 101⟩ ⟨7, none⟩,
    .salBind 1 2 ⟨true, 0, 0⟩, .salAccept 1 8 ⟨true, some 102⟩ true,
    .salClosesocket 0 ⟨true, true, true⟩, .salShutdown 2 ⟨true, true, true⟩,
    .salClosesocket 1 ⟨true, true, true⟩]

theorem some_calls_owned : ∃ last, execute (callStep interfaces) booted someCalls = some last ∧
      Throughout (fun world => Owned world.table world.live)
        (record (callStep interfaces) [] booted someCalls) last ∧
      ∀ taken ∈ record (callStep interfaces) [] booted someCalls, ClosesOwn taken := by
  have isSome : (execute (callStep interfaces) booted someCalls).isSome := by decide +kernel
  have executed := (Option.some_get isSome).symm
  have run : (calls interfaces).Run (record (callStep interfaces) [] booted someCalls) _ :=
    .execute (.start booted_start) executed
  exact ⟨_, executed, sockets_owned run (by decide +kernel)⟩

def firstBound : World Bool :=
  (callStep interfaces booted (.salSocket 2 1 0 ⟨true, some 100⟩ ⟨7, none⟩)).get
    (by decide +kernel)

def secondBound : World Bool :=
  (callStep interfaces firstBound (.salBind 0 2 ⟨true, 3, 0⟩)).get (by decide +kernel)

theorem foreign_number_closed :
    ¬ ∀ (taken : List (Taken (World Bool) (CallEvent Bool))) (last : World Bool),
      (calls interfaces).Run taken last →
        Throughout (fun world => Owned world.table world.live) taken last ∧
          ∀ step ∈ taken, ClosesOwn step := by
  intro claim
  have first : callStep interfaces booted (.salSocket 2 1 0 ⟨true, some 100⟩ ⟨7, none⟩) =
      some firstBound := (Option.some_get _).symm
  have second : callStep interfaces firstBound (.salBind 0 2 ⟨true, 3, 0⟩) = some secondBound :=
    (Option.some_get _).symm
  have run := @Run.next _ _ (calls interfaces) _ _ _ _
    (@Run.next _ _ (calls interfaces) _ _ _ _ (.start booted_start) first) second
  obtain ⟨issued, actions_eq, proper⟩ := (claim _ _ run).2 _ List.mem_cons_self
  have after_eq : secondBound.table.actions =
      [.opened true 3, .closed false 0 true] ++ [.opened false 7] := by decide +kernel
  have before_eq : firstBound.table.actions = [.opened false 7] := by decide +kernel
  rw [after_eq, before_eq] at actions_eq
  rw [← List.append_cancel_right actions_eq, before_eq] at proper
  exact absurd proper.1 (by decide)

end RtThread.Sal
