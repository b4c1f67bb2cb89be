import Mathlib.Algebra.Ring.Nat
import Mathlib.Data.List.FinRange
import RtThread.Library.TransitionSystem

/-!
# The receive list of an AT socket

Each receive notification appends one packet.
-/

namespace RtThread.At

/-- `struct at_recv_pkt`: `buff` has `bfsz_totle` bytes.  A packet with no unread byte is
deleted at once, and the callback asserts that none arrives empty. -/
structure AtRecvPkt where
  buff : List UInt8
  bfszIndex : Nat
  unread : bfszIndex < buff.length
  deriving DecidableEq

def AtRecvPkt.bfszTotle (pkt : AtRecvPkt) : Nat := pkt.buff.length

def AtRecvPkt.rest (pkt : AtRecvPkt) : List UInt8 := pkt.buff.drop pkt.bfszIndex

def content (rlist : List AtRecvPkt) : List UInt8 := rlist.flatMap AtRecvPkt.rest

def atRecvpktPut (rlist : List AtRecvPkt) (ptr : List UInt8) (nonempty : 0 < ptr.length) :
    List AtRecvPkt :=
  rlist ++ [⟨ptr, 0, nonempty⟩]

/-- `at_recvpkt_get` from a node on, with `len - content_pos` bytes still wanted: the bytes
copied and the list left behind.  The loop goes on through the `next` of a node that it has
just freed, which the allocator leaves as it was. -/
def atRecvpktGet : List AtRecvPkt → Nat → List UInt8 × List AtRecvPkt
  | [], _ => ([], [])
  | pkt :: rlist, len =>
    let pagePos := pkt.bfszTotle - pkt.bfszIndex
    if len ≤ pagePos then
      ((pkt.buff.drop pkt.bfszIndex).take len, if more : pkt.bfszIndex + len < pkt.buff.length then
          { pkt with bfszIndex := pkt.bfszIndex + len, unread := more } :: rlist
        else rlist)
    else
      let got := atRecvpktGet rlist (len - pagePos)
      ((pkt.buff.drop pkt.bfszIndex).take pagePos ++ got.1, got.2)

@[simp]
theorem content_nil : content [] = [] := rfl

@[simp]
theorem content_cons (pkt : AtRecvPkt) (rlist : List AtRecvPkt) :
    content (pkt :: rlist) = pkt.rest ++ content rlist := by
  simp [content]

@[simp]
theorem content_append (a second : List AtRecvPkt) :
    content (a ++ second) = content a ++ content second := by
  simp [content]

@[simp]
theorem AtRecvPkt.length_rest (pkt : AtRecvPkt) :
    pkt.rest.length = pkt.bfszTotle - pkt.bfszIndex := by
  simp [AtRecvPkt.rest, AtRecvPkt.bfszTotle]

@[simp]
theorem content_atRecvpktPut (rlist : List AtRecvPkt) (ptr : List UInt8)
    (nonempty : 0 < ptr.length) :
    content (atRecvpktPut rlist ptr nonempty) = content rlist ++ ptr := by
  simp [atRecvpktPut, AtRecvPkt.rest]

theorem atRecvpktGet_spec (rlist : List AtRecvPkt) (len : Nat) :
    (atRecvpktGet rlist len).1 = (content rlist).take len ∧
      content (atRecvpktGet rlist len).2 = (content rlist).drop len := by
  induction rlist generalizing len with
  | nil => simp [atRecvpktGet]
  | cons pkt rlist ih =>
    have restLength := pkt.length_rest
    rw [content_cons]
    by_cases within : len ≤ pkt.bfszTotle - pkt.bfszIndex
    · have inPacket : len ≤ pkt.rest.length := by omega
      rw [List.take_append_of_le_length inPacket, List.drop_append_of_le_length inPacket]
      simp only [atRecvpktGet, within, if_true]
      refine ⟨rfl, ?_⟩
      split_ifs with more
      · simp [AtRecvPkt.rest]
      · have all : pkt.rest.drop len = [] := by
          rw [List.drop_eq_nil_iff, restLength, AtRecvPkt.bfszTotle]
          omega
        simp [all]
    · have past : pkt.rest.length ≤ len := by omega
      obtain ⟨taken, left⟩ := ih (len - (pkt.bfszTotle - pkt.bfszIndex))
      simp only [atRecvpktGet, within, if_false, left]
      rw [List.take_append, List.drop_append, List.take_of_length_le past,
        List.drop_eq_nil_iff.mpr past, restLength, List.nil_append]
      refine ⟨?_, rfl⟩
      congr 1
      exact List.take_of_length_le (by rw [← restLength]; exact Nat.le_refl _)

inductive AtSocketState
  | none
  | listen
  | connect
  | closed
  deriving DecidableEq

inductive AtSocketType
  | invalid
  | tcp
  | udp
  deriving DecidableEq

/-- `struct at_socket`.  Of the magic word, the semaphore and the mutex the functions only
test whether they are there. -/
structure AtSocket where
  magic : Bool
  socket : Nat
  type : AtSocketType
  state : AtSocketState
  recvNotice : Bool
  recvLock : Bool
  recvpktList : List AtRecvPkt
  deriving DecidableEq

def AtSocket.zero : AtSocket := ⟨false, 0, .invalid, .none, false, false, []⟩

structure Table (n : Nat) where
  sockets : Fin n → AtSocket
  atDevOps : Bool
  atSlock : Bool

structure Creations where
  atSlock : Bool
  recvNotice : Bool
  recvLock : Bool

def sockStream : Int := 1
def sockDgram : Int := 2
def afInet : Int := 2
def afAt : Int := 45

namespace Table

variable {n : Nat}

def setSocket (table : Table n) (idx : Fin n) (sock : AtSocket) : Table n :=
  { table with sockets := Function.update table.sockets idx sock }

@[simp]
theorem sockets_setSocket (table : Table n) (idx : Fin n) (sock : AtSocket) :
    (table.setSocket idx sock).sockets = Function.update table.sockets idx sock := rfl

theorem setSocket_setSocket (table : Table n) (idx : Fin n) (a second : AtSocket) :
    (table.setSocket idx a).setSocket idx second = table.setSocket idx second := by
  simp [setSocket]

def atGetSocket (table : Table n) (socket : Int) : Option (Fin n) :=
  if within : 0 ≤ socket ∧ socket < n then
    let idx : Fin n := ⟨socket.toNat, by omega⟩
    if (table.sockets idx).magic then some idx else none
  else none

def emptyEntry (table : Table n) : Option (Fin n) :=
  (List.finRange n).find? fun idx => !(table.sockets idx).magic

def allocSocket (table : Table n) (creations : Creations) : Table n × Option (Fin n) :=
  if !table.atSlock && !creations.atSlock then (table, none)
  else
    let table := { table with atSlock := true }
    match table.emptyEntry with
    | none => (table, none)
    | some idx =>
      let sock : AtSocket :=
        { table.sockets idx with
          magic := true, socket := idx, state := .none, recvpktList := []
          recvNotice := creations.recvNotice }
      if !creations.recvNotice then (table.setSocket idx sock, none)
      else
        let sock := { sock with recvLock := creations.recvLock }
        if !creations.recvLock then (table.setSocket idx sock, none)
        else (table.setSocket idx sock, some idx)

def socketType (type : Int) : Option AtSocketType :=
  if type = sockStream then some .tcp else if type = sockDgram then some .udp else none

/-- `at_socket`: the table, the number returned and whether a socket was allocated, or `none`
where the assertion on the domain fails. -/
def atSocket (table : Table n) (domain type : Int) (creations : Creations) :
    Option (Table n × Int × Bool) :=
  if domain = afAt ∨ domain = afInet then
    match socketType type with
    | none => some (table, -1, false)
    | some socketType =>
      match table.allocSocket creations with
      | (table, none) => some (table, 0, false)
      | (table, some idx) =>
        let sock := { table.sockets idx with type := socketType }
        some (table.setSocket idx sock, sock.socket, true)
  else none

def freeSocket (table : Table n) (idx : Fin n) : Table n := table.setSocket idx .zero

def atClosesocket (table : Table n) (socket device : Int) : Table n × Int :=
  if !table.atDevOps then (table, -1)
  else
    match table.atGetSocket socket with
    | none => (table, -1)
    | some idx =>
      let lastState := (table.sockets idx).state
      let table := table.setSocket idx { table.sockets idx with state := .closed }
      if lastState = .connect ∧ device ≠ 0 then (table.freeSocket idx, -1)
      else (table.freeSocket idx, 0)

def atShutdown (table : Table n) (socket device : Int) : Table n × Int :=
  if !table.atDevOps then (table, -1)
  else
    match table.atGetSocket socket with
    | none => (table, -1)
    | some idx =>
      if (table.sockets idx).state = .connect ∧ device ≠ 0 then (table.freeSocket idx, -1)
      else (table.freeSocket idx, 0)

def atConnect (table : Table n) (socket device : Int) : Table n × Int :=
  if !table.atDevOps then (table, -1)
  else
    match table.atGetSocket socket with
    | none => (table, -1)
    | some idx =>
      if (table.sockets idx).state ≠ .none then (table, -1)
      else if device < 0 then (table, -1)
      else (table.setSocket idx { table.sockets idx with state := .connect }, 0)

def atRecvNoticeCb (table : Table n) (socket : Int) (buff : List UInt8)
    (nonempty : 0 < buff.length) : Table n :=
  match table.atGetSocket socket with
  | none => table
  | some idx =>
    let sock := table.sockets idx
    table.setSocket idx { sock with recvpktList := atRecvpktPut sock.recvpktList buff nonempty }

def atClosedNoticeCb (table : Table n) (socket : Int) : Table n :=
  match table.atGetSocket socket with
  | none => table
  | some idx => table.setSocket idx { table.sockets idx with state := .closed }

end Table

end RtThread.At
