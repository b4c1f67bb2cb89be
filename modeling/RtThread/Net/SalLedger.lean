import RtThread.Library.Ownership
import RtThread.Net.SalTable

/-!
# The sockets behind the sockets

Calls one after the other, over several network interfaces.  `Owned` says that the providers'
sockets that are open, and the sessions of the TLS layer, are exactly those of the sockets in
use.  A run keeps it as long as `sal_bind` stays with its network interface, or the two
descriptors are the same number, and as long as no call fails halfway.
-/

open Function (update_of_ne update_self update_idem update_eq_self)

section

open TransitionSystem

namespace RtThread.Sal

variable {Dev : Type} [DecidableEq Dev]

def isOpen (resource : Dev × Int) : List (Action Dev) → Bool
  | [] => false
  | .opened netdev number :: earlier =>
    ((netdev, number) = resource && 0 ≤ number) || isOpen resource earlier
  | .closed netdev number succeeded :: earlier =>
    !((netdev, number) = resource && succeeded) && isOpen resource earlier
  | .shutDown netdev number closes :: earlier =>
    !((netdev, number) = resource && closes) && isOpen resource earlier
  | .tlsOpened _ :: earlier | .tlsClosed _ _ :: earlier => isOpen resource earlier

def isSession (session : Nat) : List (Action Dev) → Bool
  | [] => false
  | .tlsOpened other :: earlier => other = session || isSession session earlier
  | .tlsClosed other succeeded :: earlier =>
    !(other = some session && succeeded) && isSession session earlier
  | .opened _ _ :: earlier | .closed _ _ _ :: earlier | .shutDown _ _ _ :: earlier =>
    isSession session earlier

def lawful : List (Action Dev) → Bool
  | [] => true
  | .opened netdev number :: earlier => !isOpen (netdev, number) earlier && lawful earlier
  | .tlsOpened session :: earlier => !isSession session earlier && lawful earlier
  | _ :: earlier => lawful earlier

inductive CallEvent (Dev : Type) where
  | network (network : Network Dev)
  | salSocket (domain type protocol : Int) (m : Memory) (opening : Opening)
  | salBind (socket : Int) (ipAddr : Nat) (binding : Binding)
  | salAccept (socket newSocket : Int) (m : Memory) (closed : Bool)
  | salShutdown (socket : Int) (closing : Closing)
  | salClosesocket (socket : Int) (closing : Closing)

section Steps

variable (providers : Providers Dev)

def wholeSocket (world : World Dev) (domain type protocol : Int) (m : Memory)
    (opening : Opening) : World Dev :=
  match socketNew world.table m with
  | (table, none) => world.called (table, .ret (-1))
  | (table, some idx) =>
    world.created (salSocket providers world.network table idx domain type protocol opening)

def wholeAccept (world : World Dev) (socket newSocket : Int) (m : Memory) (closed : Bool) :
    World Dev :=
  match salAcceptBegin providers world.network world.table socket newSocket with
  | (table, .inl result) => world.called (table, result)
  | (table, .inr accepted) =>
    match socketNew table m with
    | (table, none) => world.called (refuse providers table accepted closed)
    | (table, some idx) =>
      world.created (salAccept providers world.network table accepted idx .zero closed)

def callOnce (world : World Dev) : CallEvent Dev → World Dev
  | .network network => { world with network }
  | .salSocket domain type protocol m opening =>
    wholeSocket providers world domain type protocol m opening
  | .salBind socket ipAddr binding =>
    world.called (salBind providers world.network world.table socket ipAddr binding)
  | .salAccept socket newSocket m closed =>
    wholeAccept providers world socket newSocket m closed
  | .salShutdown socket closing =>
    world.released socket (salShutdown providers world.table socket closing)
  | .salClosesocket socket closing =>
    world.released socket (salClosesocket providers world.table socket closing)

def CallEvent.unused (world : World Dev) : CallEvent Dev → Bool
  | .salSocket _ _ _ m _ | .salAccept _ _ m _ =>
    ((m.calloc).bind world.table.objects).isNone
  | _ => true

/-- One call; providers and the TLS layer hand out what is not open. -/
def callStep (world : World Dev) (e : CallEvent Dev) : Option (World Dev) :=
  if world.crash.isNone && e.unused world &&
      lawful (callOnce providers world e).table.actions then
    some (callOnce providers world e)
  else none

structure Start (world : World Dev) : Prop where
  sockets : world.table.sockets = List.replicate (min socketTableStepLen salSocketsNum) none
  objects : ∀ ref, world.table.objects ref = none
  actions : world.table.actions = []
  live : world.live = []

def calls : TransitionSystem (World Dev) (CallEvent Dev) :=
  .ofFunction Start (callStep providers)

end Steps

def held (table : Table Dev) (live : List (Int × Nat)) (index : Nat) : Option (SalSocket Dev) :=
  (table.object index).bind fun found =>
    if ((index : Int), found.1) ∈ live then some found.2 else none

def SalSocket.provided (sock : SalSocket Dev) : Option (Dev × Int) :=
  sock.netdev.map fun netdev => (netdev, sock.userData)

def provided (table : Table Dev) (live : List (Int × Nat)) (index : Nat) : Option (Dev × Int) :=
  (held table live index).bind (·.provided)

def session (table : Table Dev) (live : List (Int × Nat)) (index : Nat) : Option Nat :=
  (held table live index).bind (·.userDataTls)

/-- Every socket in use has an open socket of its provider, and nothing else is open. -/
structure Owned (table : Table Dev) (live : List (Int × Nat)) : Prop where
  inUse : ∀ socket ref, (socket, ref) ∈ live → ∃ (index : Nat) (resource : Dev × Int),
    socket = index ∧ provided table live index = some resource ∧
      isOpen resource table.actions = true
  sockets : Exactly (isOpen · table.actions = true) (provided table live)
  sessions : Exactly (isSession · table.actions = true) (session table live)

def CallEvent.socket : CallEvent Dev → Option Int
  | .salBind socket _ _ | .salAccept socket _ _ _ | .salShutdown socket _
  | .salClosesocket socket _ => some socket
  | _ => none

/-- What is closed was open, and is owned: by the socket of the call, or it has just been
opened. -/
def Proper (owner : Option (SalSocket Dev)) (before : List (Action Dev)) :
    List (Action Dev) → Prop
  | [] => True
  | .closed netdev number _ :: earlier =>
    isOpen (netdev, number) (earlier ++ before) = true ∧
      (owner.bind (·.provided) = some (netdev, number) ∨ .opened netdev number ∈ earlier) ∧
      Proper owner before earlier
  | .tlsClosed (some session) _ :: earlier =>
    isSession session (earlier ++ before) = true ∧
      owner.bind (·.userDataTls) = some session ∧ Proper owner before earlier
  | _ :: earlier => Proper owner before earlier

def CallEvent.owner (world : World Dev) (e : CallEvent Dev) : Option (SalSocket Dev) :=
  match e.socket with
  | some (.ofNat index) => held world.table world.live index
  | _ => none

def ClosesOwn (step : Taken (World Dev) (CallEvent Dev)) : Prop :=
  ∃ issued, step.after.table.actions = issued ++ step.before.table.actions ∧
    Proper (step.event.owner step.before) step.before.table.actions issued

section Conditions

variable (providers : Providers Dev)

def present (netdev : Option Dev) (op : Op) : Bool :=
  (netdevSocketopsValid providers netdev op).isValid

/-- `sal_bind` keeps the network interface, or moves from a provider whose number is the
descriptor, without a failure. -/
def Moves (network : Network Dev) (socket : Int) (sock : SalSocket Dev) (ipAddr : Nat)
    (binding : Binding) : Prop :=
  ipAddr ≠ 0 → ∀ newNetdev ∈ netdevGetByIpaddr network ipAddr, sock.netdev ≠ some newNetdev →
    present providers sock.netdev .closesocket = true →
      sock.userData = socket ∧ binding.closed = true ∧
        present providers (some newNetdev) .socket = true ∧ 0 ≤ binding.newSocket

def Accepts (network : Network Dev) (sock : SalSocket Dev) (newSocket : Int) (closed : Bool) :
    Prop :=
  newSocket = -1 ∨
    (0 ≤ newSocket ∧ present providers sock.netdev .closesocket = true ∧ closed = true ∧
      ((socketInit providers network sock.domain sock.type sock.protocol .zero).2 < 0 ∨
        (socketInit providers network sock.domain sock.type sock.protocol .zero).1.netdev =
          sock.netdev))

def Ends (sock : SalSocket Dev) (closes : Bool) (closing : Closing) : Prop :=
  if closing.succeeded ∧ sockopsProtoTlsValid providers sock (·.closesocket) = true then
    closes = closing.tlsClosed
  else closes = true ∧ sock.userDataTls = none

def Minds (world : World Dev) (socket : Int) (ref : Nat) (sock : SalSocket Dev) :
    CallEvent Dev → Prop
  | .salBind _ ipAddr binding =>
    (socket, ref) ∈ world.live ∧ Moves providers world.network socket sock ipAddr binding
  | .salAccept _ newSocket _ closed =>
    Accepts providers world.network sock newSocket closed
  | .salShutdown _ closing =>
    (socket, ref) ∈ world.live ∧ Ends providers sock closing.closes closing
  | .salClosesocket _ closing =>
    (socket, ref) ∈ world.live ∧ Ends providers sock closing.succeeded closing
  | _ => True

def Sessions : CallEvent Dev → Prop
  | .salSocket _ _ protocol _ opening =>
    0 ≤ opening.protoSocket →
      sockopsProtoTlsValid providers ({ SalSocket.zero with protocol } : SalSocket Dev)
        (·.socket) = true → opening.tls.isSome
  | _ => True

def Orderly (world : World Dev) (e : CallEvent Dev) : Prop :=
  Sessions providers e ∧
    ∀ socket ∈ e.socket, ∀ found ∈ (salGetSocket world.table socket).found?,
      Minds providers world socket found.1 found.2 e

instance (network : Network Dev) (socket : Int) (sock : SalSocket Dev) (ipAddr : Nat)
    (binding : Binding) : Decidable (Moves providers network socket sock ipAddr binding) :=
  inferInstanceAs (Decidable (_ → ∀ newNetdev ∈ netdevGetByIpaddr network ipAddr, _ → _ → _))

instance (network : Network Dev) (sock : SalSocket Dev) (newSocket : Int) (closed : Bool) :
    Decidable (Accepts providers network sock newSocket closed) := instDecidableOr

instance (sock : SalSocket Dev) (closes : Bool) (closing : Closing) :
    Decidable (Ends providers sock closes closing) :=
  inferInstanceAs (Decidable (if closing.succeeded = true ∧
      sockopsProtoTlsValid providers sock (·.closesocket) = true then closes = closing.tlsClosed
    else closes = true ∧ sock.userDataTls = none))

instance (world : World Dev) (socket : Int) (ref : Nat) (sock : SalSocket Dev) :
    (e : CallEvent Dev) → Decidable (Minds providers world socket ref sock e)
  | .salBind .. => instDecidableAnd
  | .salAccept _ newSocket _ closed =>
    inferInstanceAs (Decidable (Accepts providers world.network sock newSocket closed))
  | .salShutdown .. => instDecidableAnd
  | .salClosesocket .. => instDecidableAnd
  | .network _ | .salSocket _ _ _ _ _ => .isTrue trivial

instance : (e : CallEvent Dev) → Decidable (Sessions providers e)
  | .salSocket .. => instDecidableForall
  | .network _ | .salBind _ _ _ | .salAccept _ _ _ _ | .salShutdown _ _ | .salClosesocket _ _ =>
    .isTrue trivial

instance (world : World Dev) (e : CallEvent Dev) :
    Decidable (Orderly providers world e) :=
  inferInstanceAs (Decidable (_ ∧ ∀ socket ∈ e.socket,
    ∀ found ∈ (salGetSocket world.table socket).found?, _))

end Conditions

end RtThread.Sal

end

namespace RtThread.Sal

variable {Dev : Type} [DecidableEq Dev]

section Ledger

variable {table after : Table Dev} {live live' : List (Int × Nat)} {index other ref : Nat}
  {sock sock' : SalSocket Dev} {object : Option (Nat × SalSocket Dev)}

omit [DecidableEq Dev] in
theorem held_eq_some_iff : held table live index = some sock ↔
    ∃ ref, table.object index = some (ref, sock) ∧ ((index : Int), ref) ∈ live := by
  simp only [held, Option.bind_eq_some_iff, Prod.exists]
  constructor
  · rintro ⟨ref, found, isObject, isLive⟩
    obtain ⟨mem, ⟨⟩⟩ := Option.ite_none_right_eq_some.mp isLive
    exact ⟨ref, isObject, mem⟩
  · rintro ⟨ref, isObject, mem⟩
    exact ⟨ref, sock, isObject, if_pos mem⟩

structure Ledger (table : Table Dev) (live : List (Int × Nat)) : Prop where
  fine : Fine table
  entries : ∀ socket ref, (socket, ref) ∈ live → ∃ (index : Nat) (sock : SalSocket Dev),
    socket = index ∧ table.object index = some (ref, sock)
  hasNetdev : ∀ index sock, held table live index = some sock → sock.netdev ≠ none
  sockets : Exactly (isOpen · table.actions = true) (provided table live)
  sessions : Exactly (isSession · table.actions = true) (session table live)

section

variable (ledger : Ledger table live)

include ledger

theorem Ledger.owned : Owned table live where
  inUse socket ref mem := by
    obtain ⟨index, sock, rfl, isObject⟩ := ledger.entries socket ref mem
    have isHeld : held table live index = some sock := held_eq_some_iff.mpr ⟨ref, isObject, mem⟩
    obtain ⟨netdev, isNetdev⟩ := Option.ne_none_iff_exists'.mp (ledger.hasNetdev index sock isHeld)
    have isProvided : provided table live index = some (netdev, sock.userData) := by
      rw [provided, isHeld, Option.bind_some, SalSocket.provided, isNetdev, Option.map_some]
    exact ⟨index, _, rfl, isProvided, ledger.sockets.opened _ _ isProvided⟩
  sockets := ledger.sockets
  sessions := ledger.sessions

theorem Ledger.update {held' : Option (SalSocket Dev)} (fine : Fine after)
    (entries : ∀ socket ref, (socket, ref) ∈ live' →
      ∃ (index : Nat) (sock : SalSocket Dev), socket = index ∧
    after.object index = some (ref, sock))
    (held_eq : held after live' = Function.update (held table live) index held')
    (hasNetdev : ∀ sock ∈ held', sock.netdev ≠ none)
    (sockets : Exactly (isOpen · after.actions = true)
      (Function.update (provided table live) index (held'.bind (·.provided))))
    (sessions : Exactly (isSession · after.actions = true)
      (Function.update (session table live) index (held'.bind (·.userDataTls)))) :
    Ledger after live' where
  fine := fine
  entries := entries
  hasNetdev other sock isHeld := by
    rw [held_eq] at isHeld
    by_cases same : other = index
    · subst same
      rw [update_self] at isHeld
      exact hasNetdev sock isHeld
    · rw [update_of_ne same] at isHeld
      exact ledger.hasNetdev other sock isHeld
  sockets := by
    have provided_eq : provided after live' =
        Function.update (provided table live) index (held'.bind (·.provided)) := by
      funext other
      by_cases same : other = index
      · subst same
        rw [provided, held_eq, update_self, update_self]
      · rw [provided, held_eq, update_of_ne same, update_of_ne same, provided]
    rwa [provided_eq]
  sessions := by
    have session_eq : session after live' =
        Function.update (session table live) index (held'.bind (·.userDataTls)) := by
      funext other
      by_cases same : other = index
      · subst same
        rw [session, held_eq, update_self, update_self]
      · rw [session, held_eq, update_of_ne same, update_of_ne same, session]
    rwa [session_eq]

theorem Ledger.keep (fine : Fine after)
    (entries : ∀ socket ref, (socket, ref) ∈ live → ∃ (index : Nat) (sock : SalSocket Dev), socket =
      index ∧ after.object index = some (ref, sock)) (held_eq : held after live = held table live)
    (isOpen_iff : ∀ resource, isOpen resource after.actions = true ↔
      isOpen resource table.actions = true)
    (isSession_iff : ∀ session, isSession session after.actions = true ↔
      isSession session table.actions = true) : Ledger after live where
  fine := fine
  entries := entries
  hasNetdev index sock isHeld := ledger.hasNetdev index sock (by rwa [← held_eq])
  sockets := by
    have provided_eq : provided after live = provided table live := by
      funext index
      rw [provided, held_eq, provided]
    rw [provided_eq]
    exact ledger.sockets.congr isOpen_iff
  sessions := by
    have session_eq : session after live = session table live := by
      funext index
      rw [session, held_eq, session]
    rw [session_eq]
    exact ledger.sessions.congr isSession_iff

theorem Ledger.congr (fine : Fine after) (object_eq : after.object = table.object)
    (isOpen_iff : ∀ resource, isOpen resource after.actions = true ↔
      isOpen resource table.actions = true)
    (isSession_iff : ∀ session, isSession session after.actions = true ↔
      isSession session table.actions = true) : Ledger after live := by
  refine ledger.keep fine ?_ ?_ isOpen_iff isSession_iff
  · rw [object_eq]
    exact ledger.entries
  · funext index
    rw [held, held, object_eq]

end

section

omit [DecidableEq Dev]

theorem held_absent (changes : Changes table after index object)
    (absent : ∀ ref, ((index : Int), ref) ∉ live) : held after live = held table live := by
  funext other
  refine Option.ext fun sock => ?_
  rw [held_eq_some_iff, held_eq_some_iff, changes.object_eq]
  by_cases same : other = index
  · subst same
    constructor
    · rintro ⟨ref, -, mem⟩
      exact absurd mem (absent ref)
    · rintro ⟨ref, -, mem⟩
      exact absurd mem (absent ref)
  · rw [update_of_ne same]

theorem held_add (changes : Changes table after index (some (ref, sock)))
    (absent : ∀ ref, ((index : Int), ref) ∉ live) : held after (((index : Int), ref) :: live) =
      Function.update (held table live) index (some sock) := by
  funext other
  refine Option.ext fun other' => ?_
  by_cases same : other = index
  · subst same
    rw [held_eq_some_iff, changes.object_eq, update_self, update_self]
    constructor
    · rintro ⟨_, isObject, -⟩
      cases isObject
      rfl
    · rintro isSock
      cases isSock
      exact ⟨ref, rfl, List.mem_cons_self⟩
  · rw [update_of_ne same, held_eq_some_iff, held_eq_some_iff, changes.object_eq, update_of_ne same]
    have ne : (other : Int) ≠ index := by omega
    simp [ne]

theorem held_rebind (changes : Changes table after index (some (ref, sock)))
    (isLive : ((index : Int), ref) ∈ live) :
    held after live = Function.update (held table live) index (some sock) := by
  funext other
  refine Option.ext fun other' => ?_
  by_cases same : other = index
  · subst same
    rw [held_eq_some_iff, changes.object_eq, update_self, update_self]
    constructor
    · rintro ⟨_, isObject, -⟩
      cases isObject
      rfl
    · rintro isSock
      cases isSock
      exact ⟨ref, rfl, isLive⟩
  · rw [update_of_ne same, held_eq_some_iff, held_eq_some_iff, changes.object_eq, update_of_ne same]

theorem held_remove (changes : Changes table after index none) :
    held after (live.filter (·.1 ≠ (index : Int))) =
      Function.update (held table live) index none := by
  funext other
  refine Option.ext fun other' => ?_
  by_cases same : other = index
  · subst same
    rw [held_eq_some_iff, changes.object_eq, update_self, update_self]
    simp
  · rw [update_of_ne same, held_eq_some_iff, held_eq_some_iff, changes.object_eq, update_of_ne same]
    have ne : (other : Int) ≠ index := by omega
    simp [ne]

theorem held_none (absent : ∀ ref, ((index : Int), ref) ∉ live) : held table live index = none := by
  rw [Option.eq_none_iff_forall_ne_some]
  intro sock isHeld
  obtain ⟨ref, -, mem⟩ := held_eq_some_iff.mp isHeld
  exact absent ref mem

end

section

variable (ledger : Ledger table live)

include ledger

theorem Ledger.absent (vacant : ∀ found ∈ table.object index, found.2.netdev = none) (ref : Nat) :
    ((index : Int), ref) ∉ live := by
  intro mem
  obtain ⟨other, sock, same, isObject⟩ := ledger.entries _ ref mem
  obtain rfl : index = other := by omega
  exact ledger.hasNetdev index sock (held_eq_some_iff.mpr ⟨ref, isObject, mem⟩)
    (vacant _ isObject)

theorem Ledger.vacant (changes : Changes table after index object)
    (absent : ∀ ref, ((index : Int), ref) ∉ live)
    (isOpen_iff : ∀ resource, isOpen resource after.actions = true ↔
      isOpen resource table.actions = true)
    (isSession_iff : ∀ session, isSession session after.actions = true ↔
      isSession session table.actions = true) :
    Ledger after live := by
  refine ledger.keep changes.fine (fun socket ref mem => ?_) (held_absent changes absent)
    isOpen_iff isSession_iff
  obtain ⟨other, sock, rfl, isObject⟩ := ledger.entries socket ref mem
  have ne : other ≠ index := by
    rintro rfl
    exact absent ref mem
  exact ⟨other, sock, rfl, by rwa [changes.object_eq, update_of_ne ne]⟩

theorem Ledger.created {new : Dev × Int} (changes : Changes table after index (some (ref, sock)))
    (absent : ∀ ref, ((index : Int), ref) ∉ live) (isProvided : sock.provided = some new)
    (fresh : ¬ isOpen new table.actions = true)
    (opens : ∀ resource, isOpen resource after.actions = true ↔
      isOpen resource table.actions = true ∨ resource = new)
    (sessions : Exactly (isSession · after.actions = true)
      (Function.update (session table live) index sock.userDataTls)) :
    
    Ledger after (((index : Int), ref) :: live) := by
  refine ledger.update changes.fine (fun socket other mem => ?_) (held_add changes absent)
    ?_ ?_ sessions
  · rcases List.mem_cons.mp mem with isNew | earlier
    · cases isNew
      exact ⟨index, sock, rfl, by rw [changes.object_eq, update_self]⟩
    · obtain ⟨e, sock', rfl, isObject⟩ := ledger.entries socket other earlier
      have ne : e ≠ index := by
        rintro rfl
        exact absent other earlier
      exact ⟨e, sock', rfl, by rwa [changes.object_eq, update_of_ne ne]⟩
  · rintro _ ⟨⟩ noNetdev
    simp [SalSocket.provided, noNetdev] at isProvided
  · rw [Option.bind_some, isProvided]
    refine ledger.sockets.acquire ?_ fresh opens
    rw [provided, held_none absent, Option.bind_none]

theorem Ledger.rebound {old new : Dev × Int} (isLive : ((index : Int), ref) ∈ live)
    (found : table.object index = some (ref, sock))
    (changes : Changes table after index (some (ref, sock')))
    (wasProvided : sock.provided = some old) (isProvided : sock'.provided = some new)
    (sameSession : sock'.userDataTls = sock.userDataTls)
    (fresh : ¬ (isOpen new table.actions = true ∧ new ≠ old))
    (opens : ∀ resource, isOpen resource after.actions = true ↔
      (isOpen resource table.actions = true ∧ resource ≠ old) ∨ resource = new)
    (isSession_iff : ∀ session, isSession session after.actions = true ↔
      isSession session table.actions = true) :
    Ledger after live := by
  have wasHeld : held table live index = some sock := held_eq_some_iff.mpr ⟨ref, found, isLive⟩
  refine ledger.update changes.fine (fun socket other mem => ?_)
    (held_rebind changes isLive) ?_ ?_ ?_
  · obtain ⟨e, stored, rfl, isObject⟩ := ledger.entries socket other mem
    by_cases same : e = index
    · subst same
      rw [found] at isObject
      cases isObject
      exact ⟨e, sock', rfl, by rw [changes.object_eq, update_self]⟩
    · exact ⟨e, stored, rfl, by rwa [changes.object_eq, update_of_ne same]⟩
  · rintro _ ⟨⟩ noNetdev
    simp [SalSocket.provided, noNetdev] at isProvided
  · rw [Option.bind_some, isProvided]
    have owned : provided table live index = some old := by
      rw [provided, wasHeld, Option.bind_some, wasProvided]
    have released : Exactly
        (fun resource => isOpen resource table.actions = true ∧ resource ≠ old)
        (Function.update (provided table live) index none) :=
      ledger.sockets.release owned fun _ => Iff.rfl
    have acquired := released.acquire (update_self ..) fresh opens
    rwa [update_idem] at acquired
  · have owned : session table live index = sock'.userDataTls := by
      rw [session, wasHeld, Option.bind_some, sameSession]
    rw [Option.bind_some, ← owned, update_eq_self]
    exact ledger.sessions.congr isSession_iff

theorem Ledger.released {old : Dev × Int} (isLive : ((index : Int), ref) ∈ live)
    (found : table.object index = some (ref, sock)) (changes : Changes table after index none)
    (wasProvided : sock.provided = some old)
    (closes : ∀ resource, isOpen resource after.actions = true ↔
      isOpen resource table.actions = true ∧ resource ≠ old)
    (ends : ∀ session, isSession session after.actions = true ↔
      isSession session table.actions = true ∧ sock.userDataTls ≠ some session) :
    
    Ledger after (live.filter (·.1 ≠ (index : Int))) := by
  have wasHeld : held table live index = some sock := held_eq_some_iff.mpr ⟨ref, found, isLive⟩
  refine ledger.update changes.fine (fun socket other mem => ?_) (held_remove changes)
    (by simp) ?_ ?_
  · obtain ⟨mem, notIndex⟩ := List.mem_filter.mp mem
    obtain ⟨e, stored, rfl, isObject⟩ := ledger.entries socket other mem
    have ne : e ≠ index := by
      rintro rfl
      simp at notIndex
    exact ⟨e, stored, rfl, by rwa [changes.object_eq, update_of_ne ne]⟩
  · rw [Option.bind_none]
    refine ledger.sockets.release ?_ closes
    rw [provided, wasHeld, Option.bind_some, wasProvided]
  · have owned : session table live index = sock.userDataTls := by
      rw [session, wasHeld, Option.bind_some]
    rw [Option.bind_none]
    cases isSession : sock.userDataTls with
    | none =>
      rw [isSession] at owned
      refine (ledger.sessions.without owned).congr fun session => ?_
      simp [ends, isSession]
    | some session =>
      rw [isSession] at owned
      refine ledger.sessions.release owned fun other => ?_
      rw [ends, isSession, ne_eq, Option.some.injEq, ← ne_eq, ne_comm]

end

end Ledger

section Actions

variable {actions : List (Action Dev)} {netdev : Dev} {number : Int} {resource : Dev × Int}
  {succeeded : Bool}

theorem isOpen_opened (nonneg : 0 ≤ number) :
    isOpen resource (.opened netdev number :: actions) = true ↔
      isOpen resource actions = true ∨ resource = (netdev, number) := by
  simp only [isOpen, nonneg, decide_true, Bool.and_true, Bool.or_eq_true, decide_eq_true_eq]
  rw [or_comm, @eq_comm _ resource]

theorem isOpen_closed : isOpen resource (.closed netdev number succeeded :: actions) = true ↔
    isOpen resource actions = true ∧ (succeeded = true → resource ≠ (netdev, number)) := by
  cases succeeded
  · simp [isOpen]
  · simp only [isOpen, Bool.and_true, Bool.and_eq_true, Bool.not_eq_true',
      decide_eq_false_iff_not, true_imp_iff]
    rw [and_comm, ne_comm]

theorem isOpen_shutDown : isOpen resource (.shutDown netdev number succeeded :: actions) = true ↔
    isOpen resource actions = true ∧ (succeeded = true → resource ≠ (netdev, number)) :=
  isOpen_closed

omit [DecidableEq Dev] in
theorem isSession_opened {session tls : Nat} :
    isSession session (.tlsOpened tls :: actions) = true ↔
      isSession session actions = true ∨ session = tls := by
  simp only [isSession, Bool.or_eq_true, decide_eq_true_eq]
  rw [or_comm, @eq_comm _ session]

omit [DecidableEq Dev] in
theorem isSession_closed {session : Nat} {tls : Option Nat} :
    isSession session (.tlsClosed tls succeeded :: actions) = true ↔
      isSession session actions = true ∧ (succeeded = true → tls ≠ some session) := by
  cases succeeded
  · simp [isSession]
  · simp only [isSession, Bool.and_true, Bool.and_eq_true, Bool.not_eq_true',
      decide_eq_false_iff_not, true_imp_iff]
    rw [and_comm]

theorem lawful_opened (isLawful : lawful (.opened netdev number :: actions) = true) :
    ¬ isOpen (netdev, number) actions = true ∧ lawful actions = true := by
  simpa [lawful] using isLawful

theorem isOpen_closed_opened (nonneg : 0 ≤ number)
    (fresh : ¬ isOpen (netdev, number) actions = true) :
    isOpen resource (.closed netdev number true :: .opened netdev number :: actions) = true ↔
      isOpen resource actions = true := by
  rw [isOpen_closed, isOpen_opened nonneg]
  constructor
  · rintro ⟨before | isNew, notNew⟩
    · exact before
    · exact absurd isNew (notNew rfl)
  · intro before
    refine ⟨.inl before, ?_⟩
    rintro - rfl
    exact fresh before

theorem lawful_tlsOpened {tls : Nat} (isLawful : lawful (.tlsOpened tls :: actions) = true) :
    ¬ isSession tls actions = true ∧ lawful actions = true := by
  simpa [lawful] using isLawful

end Actions

end RtThread.Sal
