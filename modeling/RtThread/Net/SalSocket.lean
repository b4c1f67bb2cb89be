import RtThread.Library.TransitionSystem

/-!
# The socket abstraction layer

The table of `sal_socket.c`: pointers to socket objects, which hold a descriptor of the provider.
-/

namespace RtThread.Sal

def salSocketMagic : Nat := 0x5A10

def salSocketsNum : Nat := 16

def socketTableStepLen : Nat := 4

def afMax : Int := 47

def sockMax : Int := 4

def protocolTls : Int := 256

def protocolDtls : Int := 257

inductive Op where
  | socket
  | closesocket
  | bind
  | listen
  | connect
  | accept
  | sendto
  | recvfrom
  | getsockopt
  | setsockopt
  | shutdown
  | getpeername
  | getsockname
  | ioctlsocket
  | poll

/-- `struct sal_proto_family`; an operation may be missing. -/
structure SalProtoFamily where
  family : Int
  secFamily : Int
  sktOps : Option (Op → Bool)

/-- The operations of `struct sal_proto_tls_ops` that are called here. -/
structure SalProtoTls where
  socket : Bool
  closesocket : Bool

/-- `sal_user_data` of each network interface, and `proto_tls`. -/
structure Providers (Dev : Type) where
  salUserData : Dev → Option SalProtoFamily
  protoTls : Option SalProtoTls

structure Network (Dev : Type) where
  netdevDefault : Option Dev
  netdevList : List Dev
  isUp : Dev → Bool
  isLinkUp : Dev → Bool
  ipAddr : Dev → Nat

structure SalSocket (Dev : Type) where
  magic : Nat
  socket : Int
  domain : Int
  type : Int
  protocol : Int
  netdev : Option Dev
  userData : Int
  userDataTls : Option Nat

def SalSocket.zero {Dev : Type} : SalSocket Dev := ⟨0, 0, 0, 0, 0, none, 0, none⟩

inductive Action (Dev : Type) where
  | opened (netdev : Dev) (number : Int)
  | closed (netdev : Dev) (number : Int) (succeeded : Bool)
  | shutDown (netdev : Dev) (number : Int) (closes : Bool)
  | tlsOpened (session : Nat)
  | tlsClosed (session : Option Nat) (succeeded : Bool)
deriving DecidableEq

/-- `socket_table`, the objects by their addresses, and what has been done. -/
structure Table (Dev : Type) where
  sockets : List (Option Nat)
  objects : Nat → Option (SalSocket Dev)
  actions : List (Action Dev)

inductive Crash where
  | emptySlot
  | noSocket
  | noNetdev
  | noFamily
  | noOperation

inductive Return where
  | ret (value : Int)
  | crash (cause : Crash)

namespace Table

variable {Dev : Type}

def setObject (table : Table Dev) (ref : Nat) (sock : SalSocket Dev) : Table Dev :=
  { table with objects := Function.update table.objects ref (some sock) }

def record (table : Table Dev) (action : Action Dev) : Table Dev :=
  { table with actions := action :: table.actions }

def free (table : Table Dev) (socket : Int) (ref : Nat) : Table Dev :=
  { table with
    sockets := table.sockets.set socket.toNat none
    objects := Function.update table.objects ref none }

def object (table : Table Dev) (i : Nat) : Option (Nat × SalSocket Dev) :=
  match table.sockets[i]? with
  | some (some ref) => (table.objects ref).map fun sock => (ref, sock)
  | _ => none

end Table

section Slots

variable {Dev : Type}

inductive Lookup (Dev : Type) where
  | null
  | emptySlot
  | found (ref : Nat) (sock : SalSocket Dev)

def Lookup.found? : Lookup Dev → Option (Nat × SalSocket Dev)
  | .found ref sock => some (ref, sock)
  | _ => none

def salGetSocket (table : Table Dev) (socket : Int) : Lookup Dev :=
  if socket < 0 ∨ socket ≥ table.sockets.length then .null
  else
    match table.object socket.toNat with
    | none => .emptySlot
    | some (ref, sock) => if sock.magic ≠ salSocketMagic then .null else .found ref sock

/-- What the allocations of one `socket_alloc` come to. -/
structure Memory where
  realloc : Bool
  calloc : Option Nat

def isEmptyEntry (table : Table Dev) : Option Nat → Bool
  | none => true
  | some ref => ((table.objects ref).bind (·.netdev)).isNone

def emptyEntry (table : Table Dev) : Nat := table.sockets.findIdx (isEmptyEntry table)

def grow (table : Table Dev) : Table Dev :=
  let cnt := min (table.sockets.length + socketTableStepLen) salSocketsNum
  { table with
    sockets := table.sockets ++ List.replicate (cnt - table.sockets.length) none }

/-- The end of `socket_alloc`; without memory it answers `max_socket`. -/
def allocateObject (table : Table Dev) (calloc : Option Nat) (idx : Nat) : Table Dev × Nat :=
  if table.sockets[idx]? = some none then
    match calloc with
    | none => (table, table.sockets.length)
    | some ref =>
      ({ table with
          sockets := table.sockets.set idx (some ref)
          objects := Function.update table.objects ref (some .zero) }, idx)
  else (table, idx)

def socketAlloc (table : Table Dev) (m : Memory) : Table Dev × Nat :=
  let idx := emptyEntry table
  if idx = table.sockets.length ∧ table.sockets.length < salSocketsNum then
    if m.realloc then allocateObject (grow table) m.calloc idx
    else (table, idx)
  else allocateObject table m.calloc idx

/-- What `socket_new` writes into the object. -/
def SalSocket.renew (sock : SalSocket Dev) (idx : Nat) : SalSocket Dev :=
  { sock with
    socket := idx
    magic := salSocketMagic
    netdev := none
    userData := 0
    userDataTls := none }

/-- `socket_new`; it answers no descriptor when it finds no entry. -/
def socketNew (table : Table Dev) (m : Memory) : Table Dev × Option Nat :=
  match socketAlloc table m with
  | (table, idx) =>
    if idx = table.sockets.length then (table, none)
    else
      match table.object idx with
      | none => (table, none)
      | some (ref, sock) => (table.setObject ref (sock.renew idx), some idx)

end Slots

section Interfaces

variable {Dev : Type} (providers : Providers Dev) (network : Network Dev)

/-- The tests of `netdev_get_by_family` but for the family. -/
def available (netdev : Dev) : Bool :=
  network.isUp netdev && network.isLinkUp netdev

def hasFamily (field : SalProtoFamily → Int) (family : Int) (netdev : Dev) : Bool :=
  (providers.salUserData netdev).any fun pf => pf.sktOps.isSome && field pf = family

def netdevGetByFamily (family : Int) : Option Dev :=
  match network.netdevList.find? fun netdev =>
      hasFamily providers (·.family) family netdev && available network netdev with
  | some netdev => some netdev
  | none =>
    network.netdevList.find? fun netdev =>
      hasFamily providers (·.secFamily) family netdev && available network netdev

def netdevGetByIpaddr (ipAddr : Nat) : Option Dev :=
  network.netdevList.find? fun netdev => network.ipAddr netdev = ipAddr

/-- The default interface, where `socket_init` may use it. -/
def suits (family : Int) (netdev : Dev) : Bool :=
  available network netdev &&
    (hasFamily providers (·.family) family netdev ||
      hasFamily providers (·.secFamily) family netdev)

def socketInit (family type protocol : Int) (sock : SalSocket Dev) : SalSocket Dev × Int :=
  if family < 0 ∨ family > afMax then (sock, -1)
  else if type < 0 ∨ type > sockMax then (sock, -2)
  else
    let sock := { sock with domain := family, type := type, protocol := protocol }
    match network.netdevDefault with
    | none => (sock, -3)
    | some default =>
      if suits providers network family default then ({ sock with netdev := some default }, 0)
      else
        match netdevGetByFamily providers network family with
        | none => (sock, -3)
        | some netdev => ({ sock with netdev := some netdev }, 0)

inductive Valid (Dev : Type) where
  | crash (cause : Crash)
  | missing
  | valid (netdev : Dev) (ops : Op → Bool)

def Valid.isValid : Valid Dev → Bool
  | .valid _ _ => true
  | _ => false

def netdevSocketopsValid (netdev : Option Dev) (op : Op) : Valid Dev :=
  match netdev with
  | none => .crash .noNetdev
  | some netdev =>
    match (providers.salUserData netdev).map (·.sktOps) with
    | some (some ops) => if ops op then .valid netdev ops else .missing
    | _ => .crash .noFamily

def isSocketProtoTls (sock : SalSocket Dev) : Bool :=
  sock.protocol = protocolTls || sock.protocol = protocolDtls

def sockopsProtoTlsValid (sock : SalSocket Dev) (op : SalProtoTls → Bool) : Bool :=
  providers.protoTls.any op && isSocketProtoTls sock

end Interfaces

section Calls

variable {Dev : Type} (providers : Providers Dev) (network : Network Dev)

/-- What the provider and the TLS layer answer to the end of `sal_socket`. -/
structure Opening where
  protoSocket : Int
  tls : Option Nat

/-- The end of `sal_socket`, with the provider's socket. -/
def keepSocket (table : Table Dev) (ref : Nat) (sock : SalSocket Dev) (opening : Opening) :
    Table Dev × Return :=
  if sockopsProtoTlsValid providers sock (·.socket) then
    match opening.tls with
    | none => (table, .ret (-1))
    | some session =>
      ((table.record (.tlsOpened session)).setObject ref
          { sock with userData := opening.protoSocket, userDataTls := some session },
        .ret sock.socket)
  else (table.setObject ref { sock with userData := opening.protoSocket }, .ret sock.socket)

def openSocket (table : Table Dev) (ref : Nat) (sock : SalSocket Dev) (opening : Opening) :
    Table Dev × Return :=
  match netdevSocketopsValid providers sock.netdev .socket with
  | .crash cause => (table, .crash cause)
  | .missing => (table, .ret (-1))
  | .valid netdev _ =>
    if opening.protoSocket ≥ 0 then
      keepSocket providers (table.record (.opened netdev opening.protoSocket)) ref sock opening
    else (table, .ret (-1))

def salSocket (table : Table Dev) (idx : Nat) (domain type protocol : Int) (opening : Opening) :
    Table Dev × Return :=
  match salGetSocket table idx with
  | .null => (table, .ret (-1))
  | .emptySlot => (table, .crash .emptySlot)
  | .found ref sock =>
    match socketInit providers network domain type protocol sock with
    | (sock, retval) =>
      let table := table.setObject ref sock
      if retval < 0 then (table, .ret (-1)) else openSocket providers table ref sock opening

/-- A connection that the provider has accepted for `sal_accept`. -/
structure Accepted (Dev : Type) where
  sock : Nat
  netdev : Dev
  newSocket : Int

/-- `sal_accept` up to the provider's answer. -/
def salAcceptBegin (table : Table Dev) (socket newSocket : Int) :
    Table Dev × (Return ⊕ Accepted Dev) :=
  match salGetSocket table socket with
  | .null => (table, .inl (.ret (-1)))
  | .emptySlot => (table, .inl (.crash .emptySlot))
  | .found ref sock =>
    match sock.netdev with
    | none => (table, .inl (.crash .noNetdev))
    | some netdev =>
      if available network netdev then
        match netdevSocketopsValid providers (some netdev) .accept with
        | .crash cause => (table, .inl (.crash cause))
        | .missing => (table, .inl (.ret (-1)))
        | .valid netdev _ =>
          if newSocket = -1 then (table, .inl (.ret (-1)))
          else (table.record (.opened netdev newSocket), .inr ⟨ref, netdev, newSocket⟩)
      else (table, .inl (.ret (-1)))

/-- A call of the provider's `closesocket`, which may be missing. -/
def closeProvider (table : Table Dev) (netdev : Dev) (number : Int) (succeeded : Bool) :
    Option (Table Dev) :=
  if ((providers.salUserData netdev).bind (·.sktOps)).any (· .closesocket) then
    some (table.record (.closed netdev number succeeded))
  else none

def refuse (table : Table Dev) (accepted : Accepted Dev) (closed : Bool) : Table Dev × Return :=
  match closeProvider providers table accepted.netdev accepted.newSocket closed with
  | none => (table, .crash .noOperation)
  | some table => (table, .ret (-1))

def discard (table : Table Dev) (ref : Nat) (accepted : Accepted Dev) (closed : Bool) :
    Table Dev × Return :=
  match closeProvider providers table accepted.netdev accepted.newSocket closed with
  | none => (table, .crash .noOperation)
  | some table => (table.setObject ref .zero, .ret (-1))

/-- `sal_accept` behind `socket_new`.  The object of the listening socket may have been freed
meanwhile; `stale` is what is then read from it. -/
def salAccept (table : Table Dev) (accepted : Accepted Dev) (idx : Nat) (stale : SalSocket Dev)
    (closed : Bool) : Table Dev × Return :=
  match salGetSocket table idx with
  | .null => (table, .crash .noSocket)
  | .emptySlot => (table, .crash .emptySlot)
  | .found ref newSock =>
    let sock := (table.objects accepted.sock).getD stale
    match socketInit providers network sock.domain sock.type sock.protocol newSock with
    | (newSock, retval) =>
      if retval < 0 then
        discard providers (table.setObject ref newSock) ref accepted closed
      else (table.setObject ref { newSock with userData := accepted.newSocket }, .ret idx)

structure Binding where
  closed : Bool
  newSocket : Int
  bound : Int

def bindTo (table : Table Dev) (netdev : Option Dev) (bound : Int) : Table Dev × Return :=
  match netdevSocketopsValid providers netdev .bind with
  | .crash cause => (table, .crash cause)
  | .missing => (table, .ret (-1))
  | .valid _ _ => (table, .ret bound)

/-- The change of the network interface in `sal_bind`.  The descriptor that is closed is
that of the table. -/
def changeNetdev (table : Table Dev) (socket : Int) (ref : Nat) (sock : SalSocket Dev)
    (newNetdev : Dev) (binding : Binding) : Table Dev × Return :=
  match netdevSocketopsValid providers sock.netdev .closesocket with
  | .crash cause => (table, .crash cause)
  | .missing => (table, .ret (-1))
  | .valid netdev _ =>
    let table := table.record (.closed netdev socket binding.closed)
    match netdevSocketopsValid providers (some newNetdev) .socket with
    | .crash cause => (table, .crash cause)
    | .missing => (table, .ret (-1))
    | .valid newNetdev _ =>
      if binding.newSocket < 0 then (table, .ret (-1))
      else
        bindTo providers
          ((table.record (.opened newNetdev binding.newSocket)).setObject ref
            { sock with netdev := some newNetdev, userData := binding.newSocket })
          (some newNetdev) binding.bound

/-- `sal_bind`; the address 0 is any address. -/
def salBind [DecidableEq Dev] (table : Table Dev) (socket : Int) (ipAddr : Nat)
    (binding : Binding) :
    Table Dev × Return :=
  match salGetSocket table socket with
  | .null => (table, .ret (-1))
  | .emptySlot => (table, .crash .emptySlot)
  | .found ref sock =>
    if ipAddr = 0 then bindTo providers table sock.netdev binding.bound
    else
      match netdevGetByIpaddr network ipAddr with
      | none => (table, .ret (-1))
      | some newNetdev =>
        if sock.netdev = some newNetdev then
          bindTo providers table sock.netdev binding.bound
        else changeNetdev providers table socket ref sock newNetdev binding

/-- What the provider and the TLS layer answer to `sal_shutdown` or `sal_closesocket`. -/
structure Closing where
  succeeded : Bool
  closes : Bool
  tlsClosed : Bool

/-- The common end of `sal_shutdown` and `sal_closesocket`. -/
def endSocket (table : Table Dev) (socket : Int) (ref : Nat) (sock : SalSocket Dev)
    (closing : Closing) : Table Dev × Return :=
  if closing.succeeded then
    if sockopsProtoTlsValid providers sock (·.closesocket) then
      let table := table.record (.tlsClosed sock.userDataTls closing.tlsClosed)
      if closing.tlsClosed then (table.free socket ref, .ret 0) else (table, .ret (-1))
    else (table.free socket ref, .ret 0)
  else (table.free socket ref, .ret (-1))

def salShutdown (table : Table Dev) (socket : Int) (closing : Closing) : Table Dev × Return :=
  match salGetSocket table socket with
  | .null => (table, .ret (-1))
  | .emptySlot => (table, .crash .emptySlot)
  | .found ref sock =>
    match netdevSocketopsValid providers sock.netdev .shutdown with
    | .crash cause => (table, .crash cause)
    | .missing => (table, .ret (-1))
    | .valid netdev _ =>
      endSocket providers (table.record (.shutDown netdev sock.userData closing.closes)) socket
        ref sock closing

/-- `sal_closesocket`, which tests for another operation than the one it calls. -/
def salClosesocket (table : Table Dev) (socket : Int) (closing : Closing) :
    Table Dev × Return :=
  match salGetSocket table socket with
  | .null => (table, .ret (-1))
  | .emptySlot => (table, .crash .emptySlot)
  | .found ref sock =>
    match netdevSocketopsValid providers sock.netdev .socket with
    | .crash cause => (table, .crash cause)
    | .missing => (table, .ret (-1))
    | .valid netdev _ =>
      match closeProvider providers table netdev sock.userData closing.succeeded with
      | none => (table, .crash .noOperation)
      | some table => endSocket providers table socket ref sock closing

/-- `SAL_NETDEV_IS_COMMONICABLE` stands in front of these operations. -/
def Op.commonicable : Op → Bool
  | .connect | .recvfrom | .sendto | .poll => true
  | _ => false

/-- The calls that only pass an operation on: `sal_listen`, `sal_connect`, `sal_sendto`,
`sal_recvfrom`, `sal_getsockopt`, `sal_setsockopt`, `sal_getpeername`, `sal_getsockname`,
`sal_ioctlsocket` and `sal_poll`. -/
def salOperation (table : Table Dev) (op : Op) (socket result : Int) : Return :=
  match salGetSocket table socket with
  | .null => .ret (-1)
  | .emptySlot => .crash .emptySlot
  | .found _ sock =>
    match sock.netdev with
    | none => .crash .noNetdev
    | some netdev =>
      if op.commonicable && !available network netdev then .ret (-1)
      else
        match netdevSocketopsValid providers (some netdev) op with
        | .crash cause => .crash cause
        | .missing => .ret (-1)
        | .valid _ _ => .ret result

end Calls

/-- The layer, with the sockets that calls have returned and no call has released: their
descriptors and objects. -/
structure World (Dev : Type) where
  network : Network Dev
  table : Table Dev
  live : List (Int × Nat)
  crash : Option Crash

namespace World

variable {Dev : Type}

def called (world : World Dev) : Table Dev × Return → World Dev
  | (table, .ret _) => { world with table }
  | (table, .crash cause) => { world with table, crash := some cause }

def created (world : World Dev) : Table Dev × Return → World Dev
  | (table, .ret value) =>
    match (if value < 0 then none else table.object value.toNat) with
    | none => { world with table }
    | some (ref, _) => { world with table, live := (value, ref) :: world.live }
  | (table, .crash cause) => { world with table, crash := some cause }

def released (world : World Dev) (socket : Int) (result : Table Dev × Return) : World Dev :=
  { world.called result with
    live := if (result.1.object socket.toNat).isNone then world.live.filter (·.1 ≠ socket)
      else world.live }

end World

end RtThread.Sal
