import RtThread.Net.SalEffects
import RtThread.Net.SalLedger

/-!
# Sockets that are made

`sal_socket` and `sal_accept` leave the ledger right: where they fail nothing stays open.
-/

open Function (update_of_ne update_self)

namespace RtThread.Sal

variable {Dev : Type} [DecidableEq Dev]

variable {providers : Providers Dev} {network : Network Dev} {table after : Table Dev}
  {live : List (Int × Nat)} {i ref : Nat} {sock : SalSocket Dev} {world : World Dev}

structure Settled (owner : Option (SalSocket Dev)) (table after : Table Dev)
    (live : List (Int × Nat)) : Prop where
  ledger : Ledger after live
  issued : ∃ issued, after.actions = issued ++ table.actions ∧ Proper owner table.actions issued

variable {owner : Option (SalSocket Dev)} {netdev : Dev} {m : Memory}

theorem Settled.silent (ledger : Ledger after live)
    (actions_eq : after.actions = table.actions) : Settled owner table after live :=
  ⟨ledger, [], actions_eq, trivial⟩

omit [DecidableEq Dev] in
theorem sockopsProtoTlsValid_congr {sock' : SalSocket Dev} (same : sock.protocol = sock'.protocol)
    (op : SalProtoTls → Bool) :
    sockopsProtoTlsValid providers sock op = sockopsProtoTlsValid providers sock' op := by
  rw [sockopsProtoTlsValid, sockopsProtoTlsValid, isSocketProtoTls, isSocketProtoTls, same]

inductive Opens (table after : Table Dev) (sock : SalSocket Dev) (netdev : Dev) (number : Int) :
    Prop where
  | plain (noSession : sock.userDataTls = none)
      (actions_eq : after.actions = .opened netdev number :: table.actions)
  | tls {session : Nat} (isSession : sock.userDataTls = some session)
      (actions_eq : after.actions = .tlsOpened session :: .opened netdev number :: table.actions)

omit [DecidableEq Dev] in
theorem openSocket_cases {opening : Opening} (fine : Fine table)
    (found : table.object i = some (ref, sock)) (isIndex : sock.socket = i)
    (noTls : sock.userDataTls = none) (session : 0 ≤ opening.protoSocket →
      sockopsProtoTlsValid providers sock (·.socket) = true → opening.tls.isSome) :
    (∃ r, openSocket providers table ref sock opening = (table, r) ∧ ∀ v, r = .ret v → v < 0) ∨
    (∃ after sock' netdev, openSocket providers table ref sock opening =
        (after, .ret (i : Int)) ∧ Changes table after i (some (ref, sock')) ∧
      sock'.provided = some (netdev, opening.protoSocket) ∧ 0 ≤ opening.protoSocket ∧
      Opens table after sock' netdev opening.protoSocket) := by
  cases valid : netdevSocketopsValid providers sock.netdev .socket with
  | crash cause =>
    refine .inl ⟨.crash cause, ?_, fun v isRet => by simp at isRet⟩
    rw [openSocket, valid]
  | missing =>
    refine .inl ⟨.ret (-1), ?_, ?_⟩
    · rw [openSocket, valid]
    · rintro v ⟨⟩
      decide
  | valid netdev ops =>
    by_cases isOpened : 0 ≤ opening.protoSocket
    · have isNetdev := netdevSocketopsValid_eq valid
      rw [openSocket_valid valid isOpened, ← isIndex]
      rcases @keepSocket_cases _ (table.record (.opened netdev opening.protoSocket)) ref sock
        providers opening (session isOpened) with ⟨-, kept⟩ | ⟨tls, -, -, kept⟩
      · refine .inr ⟨_, { sock with userData := opening.protoSocket }, netdev, kept,
          ((record_fine fine _).setObject found _).of_record, ?_, isOpened, .plain noTls rfl⟩
        rw [SalSocket.provided, isNetdev, Option.map_some]
      · refine .inr ⟨_, { sock with userData := opening.protoSocket, userDataTls := some tls },
          netdev, kept,
          ((record_fine (record_fine fine _) _).setObject found _).of_record.of_record, ?_,
          isOpened, .tls rfl rfl⟩
        rw [SalSocket.provided, isNetdev, Option.map_some]
    · refine .inl ⟨.ret (-1), ?_, ?_⟩
      · rw [openSocket, valid]
        exact if_neg isOpened
      · rintro v ⟨⟩
        decide

omit [DecidableEq Dev] in
theorem salSocket_cases {domain type protocol : Int} {opening : Opening} (fine : Fine table)
    (found : table.object i = some (ref, sock)) (isMagic : sock.magic = salSocketMagic)
    (isIndex : sock.socket = i) (noTls : sock.userDataTls = none)
    (session : 0 ≤ opening.protoSocket →
      sockopsProtoTlsValid providers ({ SalSocket.zero with protocol } : SalSocket Dev)
        (·.socket) = true → opening.tls.isSome) :
    (∃ after r object, salSocket providers network table i domain type protocol opening =
        (after, r) ∧ after.actions = table.actions ∧ Changes table after i object ∧
      ∀ v, r = .ret v → v < 0) ∨
    (∃ after sock' netdev, salSocket providers network table i domain type protocol opening =
        (after, .ret (i : Int)) ∧ Changes table after i (some (ref, sock')) ∧
      sock'.provided = some (netdev, opening.protoSocket) ∧ 0 ≤ opening.protoSocket ∧
      Opens table after sock' netdev opening.protoSocket) := by
  have initialised := fine.setObject found
    (socketInit providers network domain type protocol sock).1
  rw [salSocket_found found isMagic]
  by_cases failed : (socketInit providers network domain type protocol sock).2 < 0
  · refine .inl ⟨_, _, _, if_pos failed, rfl, initialised, ?_⟩
    rintro v ⟨⟩
    decide
  · rw [if_neg failed]
    have succeeded : (socketInit providers network domain type protocol sock).2 = 0 := by
      rcases socketInit_netdev providers network domain type protocol sock with
        ⟨negative, -⟩ | ⟨isZero, -⟩
      · exact absurd negative failed
      · exact isZero
    obtain ⟨-, keepsIndex, keepsTls⟩ := socketInit_keeps providers network domain type protocol sock
    have isProtocol := ((socketInit_independent providers network domain type protocol sock
      sock).2 succeeded).2
    have refound : (table.setObject ref (socketInit providers network domain type protocol
        sock).1).object i = some (ref, (socketInit providers network domain type protocol
          sock).1) := by
      rw [initialised.object_eq, update_self]
    rcases @openSocket_cases _ providers _ i ref _ opening initialised.fine refound
      (keepsIndex.trans isIndex) (keepsTls.trans noTls) (fun isOpened asked =>
        session isOpened (by rwa [← sockopsProtoTlsValid_congr isProtocol])) with
      ⟨r, isResult, negative⟩ | ⟨after, sock', netdev, isResult, changes, rest⟩
    · exact .inl ⟨_, r, _, isResult, rfl, initialised, negative⟩
    · refine .inr ⟨after, sock', netdev, isResult, initialised.trans changes, rest.1, rest.2.1, ?_⟩
      cases rest.2.2 with
      | plain noSession actions_eq => exact .plain noSession actions_eq
      | tls isSession actions_eq => exact .tls isSession actions_eq

theorem Ledger.opens {middle : Table Dev} {number : Int}
    (ledger : Ledger table live) (middle_eq : middle.actions = table.actions)
    (changes : Changes table after i (some (ref, sock))) (absent : ∀ ref, ((i : Int), ref) ∉ live)
    (isProvided : sock.provided = some (netdev, number)) (nonneg : 0 ≤ number)
    (opens : Opens middle after sock netdev number) (isLawful : lawful after.actions = true) :
    Settled none table after (((i : Int), ref) :: live) := by
  have noSession : session table live i = none := by
    rw [session, held_none absent, Option.bind_none]
  cases opens with
  | plain isNone actions_eq =>
    rw [middle_eq] at actions_eq
    rw [actions_eq] at isLawful
    refine ⟨ledger.created changes absent isProvided (lawful_opened isLawful).1 (fun resource => ?_)
      ?_, [.opened netdev number], actions_eq, trivial⟩
    · rw [actions_eq, isOpen_opened nonneg]
    · rw [isNone]
      refine (ledger.sessions.without noSession).congr fun session => ?_
      rw [actions_eq]
      rfl
  | @tls tls isTls actions_eq =>
    rw [middle_eq] at actions_eq
    rw [actions_eq] at isLawful
    obtain ⟨fresh, isLawful⟩ := lawful_tlsOpened isLawful
    refine ⟨ledger.created changes absent isProvided (lawful_opened isLawful).1 (fun resource => ?_)
      ?_, [.tlsOpened tls, .opened netdev number], actions_eq, trivial⟩
    · rw [actions_eq]
      exact isOpen_opened nonneg
    · rw [isTls]
      refine ledger.sessions.acquire noSession fresh fun session => ?_
      rw [actions_eq, isSession_opened]
      rfl

omit [DecidableEq Dev] in
theorem unused_of_event (unused : ((m.calloc).bind table.objects).isNone = true) :
    ∀ ref ∈ m.calloc, table.objects ref = none := by
  intro ref isRef
  rw [Option.mem_def.mp isRef] at unused
  simpa using unused

theorem wholeSocket_settled {domain type protocol : Int} {opening : Opening}
    (ledger : Ledger world.table world.live)
    (unused : ((m.calloc).bind world.table.objects).isNone = true) (isLawful : lawful
      (wholeSocket providers world domain type protocol m opening).table.actions = true)
    (session : 0 ≤ opening.protoSocket →
      sockopsProtoTlsValid providers ({ SalSocket.zero with protocol } : SalSocket Dev)
        (·.socket) = true → opening.tls.isSome) :
    Settled none world.table (wholeSocket providers world domain type protocol m opening).table
      (wholeSocket providers world domain type protocol m opening).live := by
  have isNew := socketNew_cases ledger.fine (unused_of_event unused)
  cases isResult : socketNew world.table m with
  | mk table r =>
    rw [isResult] at isNew
    cases isNew with
    | none _ fine object_eq actions_eq =>
      have whole_eq : wholeSocket providers world domain type protocol m opening =
          world.called (table, .ret (-1)) := by
        simp only [wholeSocket, isResult]
      rw [whole_eq, called_table, called_live]
      refine .silent (ledger.congr fine object_eq (fun _ => ?_) fun _ => ?_) actions_eq
      · rw [actions_eq]
      · rw [actions_eq]
    | @some ref sock changes vacant actions_eq =>
      have whole_eq : wholeSocket providers world domain type protocol m opening =
          world.created (salSocket providers world.network table (emptyEntry world.table) domain
            type protocol opening) := by
        simp only [wholeSocket, isResult]
      rw [whole_eq] at isLawful ⊢
      have absent := ledger.absent vacant
      have found : table.object (emptyEntry world.table) =
          some (ref, sock.renew (emptyEntry world.table)) := by
        rw [changes.object_eq, update_self]
      rcases @salSocket_cases _ providers world.network table _ _ _ domain type protocol opening
        changes.fine found rfl rfl rfl session with
        ⟨after, r, object, isSocket, same, changes', negative⟩ |
        ⟨after, sock', netdev, isSocket, changes', isProvided, nonneg, opens⟩
      · rw [isSocket]
        obtain ⟨table_eq, live_eq⟩ := @created_failed _ world (after, r) negative
        rw [table_eq, live_eq]
        refine .silent (ledger.vacant (changes.trans changes') absent (fun _ => ?_) fun _ => ?_)
          (same.trans actions_eq)
        · rw [same, actions_eq]
        · rw [same, actions_eq]
      · have refound : after.object (emptyEntry world.table) = some (ref, sock') := by
          rw [changes'.object_eq, update_self]
        rw [isSocket, created_index refound] at isLawful ⊢
        exact ledger.opens actions_eq (changes.trans changes') absent isProvided nonneg opens
          isLawful

omit [DecidableEq Dev] in
theorem closeProvider_present {number : Int} {succeeded : Bool}
    (isPresent : present providers (some netdev) .closesocket = true) :
    closeProvider providers table netdev number succeeded =
      some (table.record (.closed netdev number succeeded)) := by
  refine if_pos ?_
  simp only [present, netdevSocketopsValid] at isPresent
  cases isFamily : providers.salUserData netdev with
  | none => simp [isFamily, Valid.isValid] at isPresent
  | some pf =>
    cases isOps : pf.sktOps with
    | none => simp [isFamily, isOps, Valid.isValid] at isPresent
    | some ops =>
      cases isOp : ops .closesocket with
      | false => simp [isFamily, isOps, isOp, Valid.isValid] at isPresent
      | true => simp [isOps, isOp]

theorem Settled.refused {owner : Option (SalSocket Dev)} {netdev : Dev} {number : Int}
    (ledger : (∀ resource, isOpen resource after.actions = true ↔
        isOpen resource table.actions = true) → (∀ session, isSession session after.actions = true ↔
        isSession session table.actions = true) → Ledger after live)
    (nonneg : 0 ≤ number) (isLawful : lawful after.actions = true) (actions_eq : after.actions =
      .closed netdev number true :: .opened netdev number :: table.actions) :
    Settled owner table after live := by
  rw [actions_eq] at isLawful
  have fresh := (lawful_opened isLawful).1
  refine ⟨ledger (fun resource => ?_) fun session => ?_,
    [.closed netdev number true, .opened netdev number], actions_eq, ?_, .inr ?_, trivial⟩
  · rw [actions_eq]
    exact isOpen_closed_opened nonneg fresh
  · rw [actions_eq, isSession, isSession]
  · exact (isOpen_opened nonneg).mpr (.inr rfl)
  · exact List.mem_cons_self

theorem salAccept_settled {middle : Table Dev} {newRef : Nat} {listening newSock : SalSocket Dev}
    {newSocket : Int} {closed : Bool} (ledger : Ledger world.table world.live)
    (changes : Changes world.table middle i (some (newRef, newSock)))
    (isMagic : newSock.magic = salSocketMagic) (noTls : newSock.userDataTls = none)
    (absent : ∀ ref, ((i : Int), ref) ∉ world.live)
    (actions_eq : middle.actions = .opened netdev newSocket :: world.table.actions)
    (isListening : middle.objects ref = some listening)
    (isLawful : lawful (world.created (salAccept providers world.network middle
      ⟨ref, netdev, newSocket⟩ i .zero closed)).table.actions = true)
    (accepts : 0 ≤ newSocket ∧ present providers (some netdev) .closesocket = true ∧
      closed = true ∧ ((socketInit providers world.network listening.domain listening.type
          listening.protocol .zero).2 < 0 ∨
        (socketInit providers world.network listening.domain listening.type
          listening.protocol .zero).1.netdev = some netdev)) : Settled owner world.table
      (world.created (salAccept providers world.network middle ⟨ref, netdev, newSocket⟩ i .zero
        closed)).table
      (world.created (salAccept providers world.network middle ⟨ref, netdev, newSocket⟩ i .zero
        closed)).live := by
  obtain ⟨nonneg, isPresent, rfl, outcome⟩ := accepts
  have found : middle.object i = some (newRef, newSock) := by rw [changes.object_eq, update_self]
  have ran := @salAccept_found _ middle i newRef providers world.network
    ⟨ref, netdev, newSocket⟩ .zero listening newSock true found isMagic (by rw [isListening]; rfl)
  obtain ⟨sameResult, sameNetdev⟩ := socketInit_independent providers world.network
    listening.domain listening.type listening.protocol newSock .zero
  obtain ⟨-, -, keepsTls⟩ := socketInit_keeps providers world.network listening.domain
    listening.type listening.protocol newSock
  generalize isInit : socketInit providers world.network listening.domain listening.type
    listening.protocol newSock = init at ran sameResult sameNetdev keepsTls
  rw [ran] at isLawful ⊢
  by_cases failed : init.2 < 0
  · rw [if_pos failed, discard, closeProvider_present isPresent] at isLawful ⊢
    have initialised := changes.fine.setObject found init.1
    have refound : ((middle.setObject newRef init.1).record (.closed netdev newSocket true)).object
        i = some (newRef, init.1) := by
      rw [record_object, initialised.object_eq, update_self]
    have wiped := ((record_fine initialised.fine (.closed netdev newSocket true)).setObject refound
      .zero).of_record
    exact .refused (ledger.vacant (changes.trans (initialised.trans wiped)) absent) nonneg isLawful
      (congrArg (List.cons (Action.closed netdev newSocket true)) actions_eq)
  · rw [if_neg failed] at isLawful ⊢
    have succeeded : init.2 = 0 := by
      rcases socketInit_netdev providers world.network listening.domain listening.type
        listening.protocol newSock with ⟨negative, -⟩ | ⟨isZero, -⟩
      · rw [isInit] at negative
        exact absurd negative failed
      · rwa [isInit] at isZero
    have isNetdev : init.1.netdev = some netdev := by
      rw [(sameNetdev succeeded).1]
      exact outcome.resolve_left (by rwa [← sameResult])
    have filled := changes.fine.setObject found { init.1 with userData := newSocket }
    have refound : (middle.setObject newRef { init.1 with userData := newSocket }).object i =
        some (newRef, { init.1 with userData := newSocket }) := by
      rw [filled.object_eq, update_self]
    rw [created_index refound] at isLawful ⊢
    have settled : Settled none world.table _ _ := ledger.opens
      (show world.table.actions = world.table.actions from rfl) (changes.trans filled) absent
      (show SalSocket.provided _ = some (netdev, newSocket) by
        rw [SalSocket.provided, isNetdev, Option.map_some]) nonneg
      (.plain (keepsTls.trans noTls) actions_eq) isLawful
    refine ⟨settled.ledger, [.opened netdev newSocket], actions_eq, trivial⟩

theorem wholeAccept_settled {socket newSocket : Int} {closed : Bool}
    (ledger : Ledger world.table world.live)
    (unused : ((m.calloc).bind world.table.objects).isNone = true)
    (isLawful : lawful (wholeAccept providers world socket newSocket m closed).table.actions = true)
    (minds : ∀ ref sock, salGetSocket world.table socket = .found ref sock →
      Accepts providers world.network sock newSocket closed) :
    Settled owner world.table (wholeAccept providers world socket newSocket m closed).table
      (wholeAccept providers world socket newSocket m closed).live := by
  rcases @salAcceptBegin_cases _ world.table providers world.network ledger.fine socket newSocket
    with ⟨r, isResult, -⟩ | ⟨ref, sock, netdev, isResult, isFound, isNetdev, isAccepted⟩
  · have whole_eq : wholeAccept providers world socket newSocket m closed =
        world.called (world.table, r) := by
      simp only [wholeAccept, isResult]
    rw [whole_eq, called_table, called_live]
    exact .silent ledger rfl
  · have accepts := (minds ref sock isFound).resolve_left isAccepted
    rw [isNetdev] at accepts
    obtain ⟨listeningIndex, rfl, found, -⟩ := salGetSocket_found isFound
    have isNew := socketNew_cases (record_fine ledger.fine (.opened netdev newSocket))
      (unused_of_event unused)
    cases isSocket : socketNew (world.table.record (.opened netdev newSocket)) m with
    | mk middle r =>
      rw [isSocket] at isNew
      cases isNew with
      | none _ fine object_eq actions_eq =>
        have whole_eq : wholeAccept providers world listeningIndex newSocket m closed =
            world.called (refuse providers middle ⟨ref, netdev, newSocket⟩ closed) := by
          simp only [wholeAccept, isResult, isSocket]
        obtain ⟨nonneg, isPresent, rfl, -⟩ := accepts
        rw [whole_eq, refuse, closeProvider_present isPresent, called_table] at isLawful
        rw [whole_eq, refuse, closeProvider_present isPresent, called_table, called_live]
        exact .refused (ledger.congr (record_fine fine _) object_eq) nonneg isLawful
          (congrArg (List.cons (Action.closed netdev newSocket true)) actions_eq)
      | @some newRef newSock changes vacant actions_eq =>
        have whole_eq : wholeAccept providers world listeningIndex newSocket m closed =
            world.created (salAccept providers world.network middle ⟨ref, netdev, newSocket⟩
              (emptyEntry world.table) .zero closed) := by
          simp only [wholeAccept, isResult, isSocket]
          rfl
        have ne : listeningIndex ≠ emptyEntry world.table := by
          rintro rfl
          have := vacant _ found
          simp [isNetdev] at this
        have changes : Changes world.table middle (emptyEntry world.table)
            (some (newRef, newSock.renew (emptyEntry world.table))) := changes.of_record
        have isListening : middle.object listeningIndex = some (ref, sock) := by
          rw [changes.object_eq, update_of_ne ne]
          exact found
        rw [whole_eq] at isLawful ⊢
        exact salAccept_settled ledger changes rfl rfl (ledger.absent vacant) actions_eq
          (object_eq_some_iff.mp isListening).2 isLawful accepts

end RtThread.Sal
