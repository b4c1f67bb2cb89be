import Mathlib.Data.UInt
import RtThread.Library.Chain
import RtThread.Library.TextBuffer
import RtThread.Library.TransitionSystem
import RtThread.Kernel.Basic

/-!
# Network interface devices

The registry of `netdev.c`: a single list of devices that is rooted at its first device, and the
default device.
-/

namespace RtThread.NetdevList

def rtNameMax : Nat := 24

def netdevDnsServersNum : Nat := 2

/-- The bits that `netdev_register` clears: `NETDEV_FLAG_UP`, `NETDEV_FLAG_LINK_UP`,
`NETDEV_FLAG_INTERNET_UP` and `NETDEV_FLAG_DHCP`. -/
def flagsMask : UInt16 := 0x01 ||| 0x04 ||| 0x80 ||| 0x100

/-- `struct netdev`, with its list node.  Addresses are the numbers they stand for, pointers
are numbers or null. -/
structure Netdev (Device : Type) where
  next : Option Device
  name : List UInt8
  ipAddr : Nat
  netmask : Nat
  gw : Nat
  dnsServers : List Nat
  hwaddrLen : UInt8
  hwaddr : List UInt8
  flags : UInt16
  mtu : UInt16
  ops : Option Nat
  statusCallback : Option Nat
  addrCallback : Option Nat
  salUserData : Option Nat
  userData : Option Nat
deriving DecidableEq

abbrev Name : Type := { name : List UInt8 // (0 : UInt8) ∉ name }

/-- `netdev_list` and `netdev_default`, with the devices in memory. -/
structure Registry (Device : Type) where
  netdevs : Device → Netdev Device
  netdevList : Option Device
  netdevDefault : Option Device

section Strings

/-- `rt_strncmp`.  What stands behind a list is its terminator. -/
def rtStrncmp : List UInt8 → List UInt8 → Nat → UInt8
  | _, _, 0 => 0
  | cs, ct, count + 1 =>
    let result := cs.headD 0 - ct.headD 0
    if result ≠ 0 ∨ cs.headD 0 = 0 then result else rtStrncmp cs.tail ct.tail count

end Strings

section Lists

variable {Device : Type} [DecidableEq Device]

/-- The walk of `rt_slist_append` to the last node. -/
def lastFrom (netdevs : Device → Netdev Device) : Nat → Device → Option Device
  | 0, _ => none
  | fuel + 1, node =>
    match (netdevs node).next with
    | none => some node
    | some following => lastFrom netdevs fuel following

def setNext (netdevs : Device → Netdev Device) (node : Device) (next : Option Device) :
    Device → Netdev Device :=
  Function.update netdevs node { netdevs node with next := next }

def rtSlistAppend (fuel : Nat) (netdevs : Device → Netdev Device) (l n : Device) :
    Option (Device → Netdev Device) :=
  match lastFrom netdevs fuel l with
  | none => none
  | some node => some (setNext (setNext netdevs node (some n)) n none)

/-- The walk of `rt_slist_remove` to the node in front of `n`, or to the last one. -/
def inFrontOf (netdevs : Device → Netdev Device) (n : Device) : Nat → Device → Option Device
  | 0, _ => none
  | fuel + 1, node =>
    match (netdevs node).next with
    | none => some node
    | some following => if following = n then some node else inFrontOf netdevs n fuel following

def rtSlistRemove (fuel : Nat) (netdevs : Device → Netdev Device) (l n : Device) :
    Option (Device → Netdev Device) :=
  match inFrontOf netdevs n fuel l with
  | none => none
  | some node =>
    match (netdevs node).next with
    | none => some netdevs
    | some following => some (setNext netdevs node (netdevs following).next)

/-- `rt_memcpy` of a whole device: the memory, and the destination that it returns. -/
def rtMemcpy (netdevs : Device → Netdev Device) (dst src : Device) :
    (Device → Netdev Device) × Option Device :=
  (Function.update netdevs dst (netdevs src), some dst)

end Lists

section Registration

variable {Device : Type} [DecidableEq Device]

/-- A device as `netdev_register` cleans and fills it. -/
def cleaned (netdev : Netdev Device) (name : List UInt8) (userData : Option Nat) :
    Netdev Device :=
  { netdev with
    next := none
    name := name
    ipAddr := 0
    netmask := 0
    gw := 0
    dnsServers := List.replicate netdevDnsServersNum 0
    flags := netdev.flags &&& ~~~flagsMask
    statusCallback := none
    addrCallback := none
    userData := userData }

/-- `netdev_register`.  `rt_strncpy` is given the length of the name, so no terminator is
copied. -/
def netdevRegister (fuel : Nat) (registry : Registry Device) (netdev : Device) (name : Name)
    (userData : Option Nat) : Option (Registry Device) :=
  match TextBuffer.overwrite? (registry.netdevs netdev).name 0 name.1 with
  | none => none
  | some stored =>
    let netdevs := Function.update registry.netdevs netdev
      (cleaned (registry.netdevs netdev) stored userData)
    match registry.netdevList with
    | none =>
      some { netdevs := netdevs, netdevList := some netdev, netdevDefault := some netdev }
    | some first =>
      match rtSlistAppend fuel netdevs first netdev with
      | none => none
      | some netdevs => some { registry with netdevs := netdevs }

/-- The loop of `netdev_unregister`: the memory and the result.  The comparison with 0 is one
of the pointer that `rt_memcpy` returns. -/
def unregisterFrom (first netdev : Device) :
    Nat → (Device → Netdev Device) → Option Device → Option ((Device → Netdev Device) × RtErr)
  | _, netdevs, none => some (netdevs, .error)
  | 0, _, some _ => none
  | fuel + 1, netdevs, some cur =>
    match rtMemcpy netdevs cur netdev with
    | (netdevs, none) =>
      match rtSlistRemove fuel netdevs first cur with
      | none => none
      | some netdevs => some (netdevs, .eok)
    | (netdevs, some _) => unregisterFrom first netdev fuel netdevs (netdevs cur).next

def netdevUnregister (fuel : Nat) (registry : Registry Device) (netdev : Device) :
    Option (Registry Device × RtErr) :=
  match registry.netdevList with
  | none => some (registry, .error)
  | some first =>
    match unregisterFrom first netdev fuel registry.netdevs (some first) with
    | none => none
    | some (netdevs, result) => some ({ registry with netdevs := netdevs }, result)

def findByName (netdevs : Device → Netdev Device) (name : List UInt8) :
    Nat → Option Device → Option (Option Device)
  | _, none => some none
  | 0, some _ => none
  | fuel + 1, some node =>
    (TextBuffer.strlen? (netdevs node).name).bind fun length =>
      if rtStrncmp (netdevs node).name name length = 0 then some (some node)
      else findByName netdevs name fuel (netdevs node).next

omit [DecidableEq Device] in
theorem findByName_succ (netdevs : Device → Netdev Device) (name : List UInt8) (fuel : Nat)
    (n : Device) {length : Nat} (stored : TextBuffer.strlen? (netdevs n).name = some length) :
    findByName netdevs name (fuel + 1) (some n) =
      if rtStrncmp (netdevs n).name name length = 0 then some (some n)
      else findByName netdevs name fuel (netdevs n).next := by
  rw [findByName, stored, Option.bind_some]

def netdevGetByName (fuel : Nat) (registry : Registry Device) (name : Name) :
    Option (Option Device) :=
  findByName registry.netdevs name.1 fuel registry.netdevList

def netdevSetDefault (registry : Registry Device) (netdev : Option Device) : Registry Device :=
  match netdev with
  | none => registry
  | some netdev => { registry with netdevDefault := some netdev }

end Registration

end RtThread.NetdevList
