import RtThread.Net.SalTable

/-!
# What the calls do to a slot

Each function of the layer changes the object of at most one slot: that of its descriptor, or
the one that `socket_new` has found for it.
-/

namespace RtThread.Sal

variable {Dev : Type} {table after : Table Dev} {i u ref : Nat} {sock : SalSocket Dev}

section Interfaces

variable (providers : Providers Dev) (network : Network Dev)

theorem socketInit_netdev (family type protocol : Int) (sock : SalSocket Dev) :
    ((socketInit providers network family type protocol sock).2 < 0 ∧
        (socketInit providers network family type protocol sock).1.netdev = sock.netdev) ∨
      ((socketInit providers network family type protocol sock).2 = 0 ∧
        (socketInit providers network family type protocol sock).1.netdev ≠ none) := by
  unfold socketInit
  split
  · exact .inl ⟨by simp, rfl⟩
  · split
    · exact .inl ⟨by simp, rfl⟩
    · dsimp only
      split
      · exact .inl ⟨by simp, rfl⟩
      · split
        · exact .inr ⟨rfl, by simp⟩
        · split
          · exact .inl ⟨by simp, rfl⟩
          · exact .inr ⟨rfl, by simp⟩

theorem socketInit_keeps (family type protocol : Int) (sock : SalSocket Dev) :
    (socketInit providers network family type protocol sock).1.magic = sock.magic ∧
      (socketInit providers network family type protocol sock).1.socket = sock.socket ∧
      (socketInit providers network family type protocol sock).1.userDataTls =
        sock.userDataTls := by
  unfold socketInit
  split
  · exact ⟨rfl, rfl, rfl⟩
  · split
    · exact ⟨rfl, rfl, rfl⟩
    · dsimp only
      split
      · exact ⟨rfl, rfl, rfl⟩
      · split
        · exact ⟨rfl, rfl, rfl⟩
        · split
          · exact ⟨rfl, rfl, rfl⟩
          · exact ⟨rfl, rfl, rfl⟩

theorem socketInit_independent (family type protocol : Int) (sock sock' : SalSocket Dev) :
    (socketInit providers network family type protocol sock).2 =
        (socketInit providers network family type protocol sock').2 ∧
      ((socketInit providers network family type protocol sock).2 = 0 →
        (socketInit providers network family type protocol sock).1.netdev =
          (socketInit providers network family type protocol sock').1.netdev ∧
        (socketInit providers network family type protocol sock).1.protocol = protocol) := by
  unfold socketInit
  split
  · exact ⟨rfl, by simp⟩
  · split
    · exact ⟨rfl, by simp⟩
    · dsimp only
      split
      · exact ⟨rfl, by simp⟩
      · split
        · exact ⟨rfl, fun _ => ⟨rfl, rfl⟩⟩
        · split
          · exact ⟨rfl, by simp⟩
          · exact ⟨rfl, fun _ => ⟨rfl, rfl⟩⟩

end Interfaces

section Functions

variable {providers : Providers Dev} {network : Network Dev}

theorem salSocket_found {domain type protocol : Int} {opening : Opening}
    (found : table.object i = some (ref, sock)) (isMagic : sock.magic = salSocketMagic) :
    salSocket providers network table i domain type protocol opening =
      if (socketInit providers network domain type protocol sock).2 < 0 then
        (table.setObject ref (socketInit providers network domain type protocol sock).1, .ret (-1))
      else openSocket providers
          (table.setObject ref (socketInit providers network domain type protocol sock).1) ref
          (socketInit providers network domain type protocol sock).1 opening := by
  rw [salSocket, salGetSocket_index found isMagic]

theorem openSocket_valid {netdev : Dev} {ops : Op → Bool} {opening : Opening}
    (isValid : netdevSocketopsValid providers sock.netdev .socket = .valid netdev ops)
    (isOpened : 0 ≤ opening.protoSocket) : openSocket providers table ref sock opening =
      keepSocket providers (table.record (.opened netdev opening.protoSocket)) ref sock
        opening := by
  rw [openSocket, isValid]
  exact if_pos isOpened

theorem keepSocket_cases {opening : Opening}
    (session : sockopsProtoTlsValid providers sock (·.socket) = true → opening.tls.isSome) :
    (sockopsProtoTlsValid providers sock (·.socket) = false ∧
      keepSocket providers table ref sock opening =
        (table.setObject ref { sock with userData := opening.protoSocket }, .ret sock.socket)) ∨
    (∃ tls, opening.tls = some tls ∧ sockopsProtoTlsValid providers sock (·.socket) = true ∧
      keepSocket providers table ref sock opening = ((table.record (.tlsOpened tls)).setObject ref
            { sock with userData := opening.protoSocket, userDataTls := some tls },
          .ret sock.socket)) := by
  unfold keepSocket
  cases isTls : sockopsProtoTlsValid providers sock (·.socket) with
  | false => exact .inl ⟨rfl, rfl⟩
  | true =>
    obtain ⟨tls, isSession⟩ := Option.isSome_iff_exists.mp (session isTls)
    refine .inr ⟨tls, isSession, rfl, ?_⟩
    simp only [isSession, if_true]

theorem salAccept_found {accepted : Accepted Dev} {stale listening newSock : SalSocket Dev}
    {closed : Bool} (found : table.object i = some (ref, newSock))
    (isMagic : newSock.magic = salSocketMagic)
    (isListening : (table.objects accepted.sock).getD stale = listening) :
    salAccept providers network table accepted i stale closed =
      if (socketInit providers network listening.domain listening.type listening.protocol
          newSock).2 < 0 then
        discard providers (table.setObject ref (socketInit providers network listening.domain
          listening.type listening.protocol newSock).1) ref accepted closed
      else
        (table.setObject ref
          { (socketInit providers network listening.domain listening.type listening.protocol
              newSock).1 with userData := accepted.newSocket }, .ret i) := by
  rw [salAccept, salGetSocket_index found isMagic]
  simp only [isListening]

theorem closeProvider_cases (netdev : Dev) (number : Int) (succeeded : Bool) :
    closeProvider providers table netdev number succeeded = none ∨
      closeProvider providers table netdev number succeeded =
        some (table.record (.closed netdev number succeeded)) := by
  unfold closeProvider
  split
  · exact .inr rfl
  · exact .inl rfl

theorem endSocket_cases {socket : Int} {closing : Closing} :
    ∃ r ended, endSocket providers table socket ref sock closing = (ended, .ret r) ∧
      (ended = table.free socket ref ∨
        ended = (table.record (.tlsClosed sock.userDataTls closing.tlsClosed)).free socket ref ∨
        ended = table.record (.tlsClosed sock.userDataTls closing.tlsClosed)) := by
  unfold endSocket
  split
  · split
    · dsimp only
      split
      · exact ⟨_, _, rfl, .inr (.inl rfl)⟩
      · exact ⟨_, _, rfl, .inr (.inr rfl)⟩
    · exact ⟨_, _, rfl, .inl rfl⟩
  · exact ⟨_, _, rfl, .inl rfl⟩

theorem endSocket_freed {socket : Int} {closing : Closing}
    (noSession : ¬ (closing.succeeded = true ∧
      sockopsProtoTlsValid providers sock (·.closesocket) = true)) :
    ∃ r, endSocket providers table socket ref sock closing = (table.free socket ref, r) := by
  rw [endSocket]
  split
  · next succeeded =>
    rw [if_neg fun isValid => noSession ⟨succeeded, isValid⟩]
    exact ⟨_, rfl⟩
  · exact ⟨_, rfl⟩

inductive Touches (table : Table Dev) (socket : Int) (mayFree : Prop) :
    Table Dev × Return → Prop where
  | same {after : Table Dev} {result : Return} (fine : Fine after)
      (object_eq : after.object = table.object) (noEmptySlot : result ≠ .crash .emptySlot) :
      Touches table socket mayFree (after, result)
  | emptySlot (isEmpty : salGetSocket table socket = .emptySlot) :
      Touches table socket mayFree (table, .crash .emptySlot)
  | rebinds {after : Table Dev} {result : Return} {i ref : Nat} {sock sock' : SalSocket Dev}
      (isIndex : socket = i) (found : table.object i = some (ref, sock))
      (isMagic : sock.magic = salSocketMagic)
      (changes : Changes table after i (some (ref, sock'))) (hasNetdev : sock'.netdev ≠ none)
      (noEmptySlot : result ≠ .crash .emptySlot) : Touches table socket mayFree (after, result)
  | frees (may : mayFree) {after : Table Dev} {result : Return} {i ref : Nat} {sock : SalSocket Dev}
      (isIndex : socket = i) (found : table.object i = some (ref, sock))
      (isMagic : sock.magic = salSocketMagic) (changes : Changes table after i none)
      (noEmptySlot : result ≠ .crash .emptySlot) : Touches table socket mayFree (after, result)

theorem netdevSocketopsValid_crash {netdev : Option Dev} {op : Op} {cause : Crash}
    (isCrash : netdevSocketopsValid providers netdev op = .crash cause) : cause ≠ .emptySlot := by
  unfold netdevSocketopsValid at isCrash
  split at isCrash
  · cases isCrash
    simp
  · split at isCrash
    · split at isCrash <;> cases isCrash
    · cases isCrash
      simp

theorem netdevSocketopsValid_eq {netdev : Option Dev} {op : Op} {found : Dev} {ops : Op → Bool}
    (isValid : netdevSocketopsValid providers netdev op = .valid found ops) :
    netdev = some found := by
  unfold netdevSocketopsValid at isValid
  split at isValid
  · cases isValid
  · split at isValid
    · split at isValid
      · cases isValid
        rfl
      · cases isValid
    · cases isValid

theorem bindTo_cases (netdev : Option Dev) (bound : Int) :
    ∃ r, bindTo providers table netdev bound = (table, r) ∧ r ≠ .crash .emptySlot := by
  unfold bindTo
  split
  · next isCrash => exact ⟨_, rfl, by simpa using netdevSocketopsValid_crash isCrash⟩
  · exact ⟨_, rfl, by simp⟩
  · exact ⟨_, rfl, by simp⟩

theorem changeNetdev_touches {newNetdev : Dev} {binding : Binding} (fine : Fine table)
    (found : table.object i = some (ref, sock)) (isMagic : sock.magic = salSocketMagic) :
    Touches table i False (changeNetdev providers table i ref sock newNetdev binding) := by
  unfold changeNetdev
  split
  · next isCrash => exact .same fine rfl (by simpa using netdevSocketopsValid_crash isCrash)
  · exact .same fine rfl (by simp)
  · dsimp only
    split
    · next isCrash =>
      exact .same (record_fine fine _) rfl (by simpa using netdevSocketopsValid_crash isCrash)
    · exact .same (record_fine fine _) rfl (by simp)
    · split
      · exact .same (record_fine fine _) rfl (by simp)
      · next newNetdev _ _ _ =>
        obtain ⟨r, isResult, noEmptySlot⟩ := bindTo_cases (some newNetdev) binding.bound
        rw [isResult]
        refine .rebinds rfl found isMagic
          (((record_fine (record_fine fine _) _).setObject found _).of_record.of_record) ?_
          noEmptySlot
        simp

theorem salBind_touches [DecidableEq Dev] (fine : Fine table) (socket : Int) (ipAddr : Nat)
    (binding : Binding) :
    Touches table socket False (salBind providers network table socket ipAddr binding) := by
  unfold salBind
  split
  · exact .same fine rfl (by simp)
  · next isEmpty => exact .emptySlot isEmpty
  · next ref sock isFound =>
    obtain ⟨i, rfl, found, isMagic⟩ := salGetSocket_found isFound
    have bindTo_touches : Touches table i False
        (bindTo providers table sock.netdev binding.bound) := by
      obtain ⟨r, isResult, noEmptySlot⟩ := bindTo_cases sock.netdev binding.bound
      rw [isResult]
      exact .same fine rfl noEmptySlot
    split
    · exact bindTo_touches
    · split
      · exact .same fine rfl (by simp)
      · split
        · exact bindTo_touches
        · exact changeNetdev_touches fine found isMagic

theorem endSocket_touches {recorded : Table Dev} {closing : Closing} (fine : Fine recorded)
    (object_eq : recorded.object = table.object)
    (found : table.object i = some (ref, sock)) (isMagic : sock.magic = salSocketMagic) :
    Touches table i True (endSocket providers recorded i ref sock closing) := by
  have isFound : recorded.object i = some (ref, sock) := by rw [object_eq, found]
  obtain ⟨r, ended, isEnded, freed | closed | kept⟩ :=
    @endSocket_cases _ recorded ref sock providers i closing
  · rw [isEnded, freed]
    have changes := fine.free isFound
    exact .frees trivial rfl found isMagic
      ⟨changes.fine, by rw [changes.object_eq, object_eq]⟩ (by simp)
  · rw [isEnded, closed]
    have changes := (record_fine fine (.tlsClosed sock.userDataTls closing.tlsClosed)).free isFound
    refine .frees trivial rfl found isMagic ⟨changes.fine, ?_⟩ (by simp)
    rw [changes.object_eq, record_object, object_eq]
  · rw [isEnded, kept]
    exact .same (record_fine fine _) object_eq (by simp)

section

variable (fine : Fine table)

include fine

theorem salShutdown_touches (socket : Int) (closing : Closing) :
    Touches table socket True (salShutdown providers table socket closing) := by
  unfold salShutdown
  split
  · exact .same fine rfl (by simp)
  · next isEmpty => exact .emptySlot isEmpty
  · next ref sock isFound =>
    obtain ⟨i, rfl, found, isMagic⟩ := salGetSocket_found isFound
    split
    · next isCrash => exact .same fine rfl (by simpa using netdevSocketopsValid_crash isCrash)
    · exact .same fine rfl (by simp)
    · exact endSocket_touches (record_fine fine _) rfl found isMagic

theorem salClosesocket_touches (socket : Int) (closing : Closing) :
    Touches table socket True (salClosesocket providers table socket closing) := by
  unfold salClosesocket
  split
  · exact .same fine rfl (by simp)
  · next isEmpty => exact .emptySlot isEmpty
  · next ref sock isFound =>
    obtain ⟨i, rfl, found, isMagic⟩ := salGetSocket_found isFound
    split
    · next isCrash => exact .same fine rfl (by simpa using netdevSocketopsValid_crash isCrash)
    · exact .same fine rfl (by simp)
    · next netdev _ _ =>
      rcases @closeProvider_cases _ table providers netdev sock.userData closing.succeeded with
        noOperation | closed
      · rw [noOperation]
        exact .same fine rfl (by simp)
      · rw [closed]
        exact endSocket_touches (record_fine fine _) rfl found isMagic

theorem salOperation_touches (op : Op) (socket r : Int) :
    Touches table socket False (table, salOperation providers network table op socket r) := by
  unfold salOperation
  split
  · exact .same fine rfl (by simp)
  · next isEmpty => exact .emptySlot isEmpty
  · split
    · exact .same fine rfl (by simp)
    · split
      · exact .same fine rfl (by simp)
      · split
        · next isCrash => exact .same fine rfl (by simpa using netdevSocketopsValid_crash isCrash)
        · exact .same fine rfl (by simp)
        · exact .same fine rfl (by simp)

theorem salAcceptBegin_cases (socket newSocket : Int) :
    (∃ r, salAcceptBegin providers network table socket newSocket = (table, .inl r) ∧
      Touches table socket False (table, r)) ∨
    ∃ ref sock netdev, salAcceptBegin providers network table socket newSocket =
        (table.record (.opened netdev newSocket), .inr ⟨ref, netdev, newSocket⟩) ∧
      salGetSocket table socket = .found ref sock ∧ sock.netdev = some netdev ∧ newSocket ≠ -1 := by
  unfold salAcceptBegin
  split
  · exact .inl ⟨_, rfl, .same fine rfl (by simp)⟩
  · next isEmpty => exact .inl ⟨_, rfl, .emptySlot isEmpty⟩
  · next ref sock isFound =>
    split
    · exact .inl ⟨_, rfl, .same fine rfl (by simp)⟩
    · next netdev isNetdev =>
      split
      · split
        · next isCrash =>
          exact .inl ⟨_, rfl, .same fine rfl (by simpa using netdevSocketopsValid_crash isCrash)⟩
        · exact .inl ⟨_, rfl, .same fine rfl (by simp)⟩
        · next found _ isValid =>
          split
          · exact .inl ⟨_, rfl, .same fine rfl (by simp)⟩
          · next accepts =>
            obtain rfl := Option.some.inj (netdevSocketopsValid_eq isValid)
            exact .inr ⟨_, sock, _, rfl, isFound, isNetdev, accepts⟩
      · exact .inl ⟨_, rfl, .same fine rfl (by simp)⟩

end

end Functions

section Worlds

variable {world : World Dev}

@[simp] theorem called_table (r : Table Dev × Return) : (world.called r).table = r.1 := by
  obtain ⟨table, v | cause⟩ := r <;> rfl

@[simp] theorem called_live (r : Table Dev × Return) : (world.called r).live = world.live := by
  obtain ⟨table, v | cause⟩ := r <;> rfl

theorem created_index {after : Table Dev} {i ref : Nat} {sock : SalSocket Dev}
    (found : after.object i = some (ref, sock)) : world.created (after, .ret (i : Int)) =
      { world with table := after, live := ((i : Int), ref) :: world.live } := by
  have nonneg : ¬ (i : Int) < 0 := by omega
  simp [World.created, found, nonneg]

theorem created_failed {r : Table Dev × Return} (failed : ∀ value, r.2 = .ret value → value < 0) :
    (world.created r).table = r.1 ∧ (world.created r).live = world.live := by
  obtain ⟨table, value | cause⟩ := r
  · simp [World.created, failed value rfl]
  · exact ⟨rfl, rfl⟩

theorem released_eq_called {socket : Int} {result : Table Dev × Return}
    (absent : (result.1.object socket.toNat).isNone → ∀ ref, (socket, ref) ∉ world.live) :
    world.released socket result = world.called result := by
  rw [World.released]
  split
  · next isEmptied =>
    have all : world.live.filter (·.1 ≠ socket) = (world.called result).live := by
      rw [called_live]
      refine List.filter_eq_self.mpr fun e mem => ?_
      simp only [decide_not, Bool.not_eq_true', decide_eq_false_iff_not]
      rintro rfl
      exact absent isEmptied e.2 mem
    rw [all]
  · rw [← called_live result]

end Worlds

end RtThread.Sal
