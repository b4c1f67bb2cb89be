import RtThread.Net.SalSocket

/-!
# Threads that share the socket table

`sal_lock` is held by `socket_new` alone, so that `sal_socket` and `sal_accept` are interrupted
around it.  Every other call is one step.
-/

open TransitionSystem

namespace RtThread.Sal

variable {Dev : Type} {Tid : Type}

inductive Call (Dev : Type) where
  | socket (idx : Nat) (domain type protocol : Int)
  | accepted (accepted : Accepted Dev)
  | accepting (accepted : Accepted Dev) (idx : Nat)

def Call.filling : Call Dev → Option Nat
  | .socket idx _ _ _ => some idx
  | .accepted _ => none
  | .accepting _ idx => some idx

structure State (Tid Dev : Type) where
  world : World Dev
  calls : Tid → Option (Call Dev)

inductive Event (Tid Dev : Type) where
  | network (network : Network Dev)
  | socketNew (t : Tid) (domain type protocol : Int) (m : Memory)
  | salSocket (t : Tid) (opening : Opening)
  | acceptBegin (socket newSocket : Int) (t : Tid)
  | acceptNew (t : Tid) (m : Memory) (closed : Bool)
  | salAccept (t : Tid) (stale : SalSocket Dev) (closed : Bool)
  | salBind (socket : Int) (ipAddr : Nat) (binding : Binding)
  | salShutdown (socket : Int) (closing : Closing)
  | salClosesocket (socket : Int) (closing : Closing)
  | salOperation (op : Op) (socket result : Int)

def Event.lookup : Event Tid Dev → Option Int
  | .acceptBegin socket _ _ | .salBind socket _ _ | .salShutdown socket _
  | .salClosesocket socket _ | .salOperation _ socket _ => some socket
  | _ => none

section Steps

variable [DecidableEq Tid] (providers : Providers Dev)

def setCall (s : State Tid Dev) (t : Tid) (call : Option (Call Dev)) (world : World Dev) :
    State Tid Dev :=
  { world := world, calls := Function.update s.calls t call }

@[simp] theorem setCall_self (s : State Tid Dev) (t : Tid) (call : Option (Call Dev))
    (world : World Dev) : (setCall s t call world).calls t = call :=
  Function.update_self ..

theorem setCall_of_ne (s : State Tid Dev) {t u : Tid} (ne : u ≠ t)
    (call : Option (Call Dev)) (world : World Dev) : (setCall s t call world).calls u = s.calls u :=
  Function.update_of_ne ne ..

def Memory.Unused (m : Memory) (table : Table Dev) : Prop :=
  ∀ ref ∈ m.calloc, (table.objects ref).isNone

instance (m : Memory) (table : Table Dev) : Decidable (m.Unused table) :=
  inferInstanceAs (Decidable (∀ _ ∈ _, _))

def socketNewStep (s : State Tid Dev) (t : Tid) (domain type protocol : Int)
    (m : Memory) : Option (State Tid Dev) :=
  if (s.calls t).isNone ∧ m.Unused s.world.table then
    match socketNew s.world.table m with
    | (table, none) => some { s with world := s.world.called (table, .ret (-1)) }
    | (table, some idx) =>
      some (setCall s t (some (.socket idx domain type protocol)) { s.world with table })
  else none

def salSocketStep (s : State Tid Dev) (t : Tid) (opening : Opening) :
    Option (State Tid Dev) :=
  match s.calls t with
  | some (.socket idx domain type protocol) =>
    some (setCall s t none (s.world.created
      (salSocket providers s.world.network s.world.table idx domain type protocol
        opening)))
  | _ => none

def acceptBeginStep (s : State Tid Dev) (t : Tid) (socket newSocket : Int) :
    Option (State Tid Dev) :=
  if (s.calls t).isNone then
    match salAcceptBegin providers s.world.network s.world.table socket newSocket with
    | (table, .inl result) => some { s with world := s.world.called (table, result) }
    | (table, .inr accepted) =>
      some (setCall s t (some (.accepted accepted)) { s.world with table })
  else none

def acceptNewStep (s : State Tid Dev) (t : Tid) (m : Memory) (closed : Bool) :
    Option (State Tid Dev) :=
  match s.calls t with
  | some (.accepted accepted) =>
    if m.Unused s.world.table then
      match socketNew s.world.table m with
      | (table, none) =>
        some (setCall s t none (s.world.called (refuse providers table accepted closed)))
      | (table, some idx) =>
        some (setCall s t (some (.accepting accepted idx)) { s.world with table })
    else none
  | _ => none

def salAcceptStep (s : State Tid Dev) (t : Tid) (stale : SalSocket Dev) (closed : Bool) :
    Option (State Tid Dev) :=
  match s.calls t with
  | some (.accepting accepted idx) =>
    some (setCall s t none (s.world.created
      (salAccept providers s.world.network s.world.table accepted idx stale closed)))
  | _ => none

def run [DecidableEq Dev] (s : State Tid Dev) : Event Tid Dev → Option (State Tid Dev)
  | .network network => some { s with world := { s.world with network } }
  | .socketNew t domain type protocol m =>
    socketNewStep s t domain type protocol m
  | .salSocket t opening => salSocketStep providers s t opening
  | .acceptBegin socket newSocket t => acceptBeginStep providers s t socket newSocket
  | .acceptNew t m closed => acceptNewStep providers s t m closed
  | .salAccept t stale closed => salAcceptStep providers s t stale closed
  | .salBind socket ipAddr binding =>
    some { s with
      world := s.world.called
        (salBind providers s.world.network s.world.table socket ipAddr binding) }
  | .salShutdown socket closing =>
    some { s with
      world := s.world.released socket
        (salShutdown providers s.world.table socket closing) }
  | .salClosesocket socket closing =>
    some { s with
      world := s.world.released socket
        (salClosesocket providers s.world.table socket closing) }
  | .salOperation op socket result =>
    some { s with
      world := s.world.called (s.world.table,
        salOperation providers s.world.network s.world.table op socket result) }

def step [DecidableEq Dev] (s : State Tid Dev) (e : Event Tid Dev) : Option (State Tid Dev) :=
  match s.world.crash with
  | some _ => none
  | none => run providers s e

structure Initial (s : State Tid Dev) : Prop where
  sockets : s.world.table.sockets = List.replicate (min socketTableStepLen salSocketsNum) none
  objects : ∀ ref, s.world.table.objects ref = none
  live : s.world.live = []
  crash : s.world.crash = none
  calls : ∀ t, s.calls t = none

def system [DecidableEq Dev] : TransitionSystem (State Tid Dev) (Event Tid Dev) :=
  .ofFunction Initial (step providers)

end Steps

end RtThread.Sal
