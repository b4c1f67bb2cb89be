import RtThread.Vbus.Channels
import RtThread.Vbus.PrioQueue
import RtThread.Vbus.Ring

/-!
# The transfer between two endpoints

Two endpoints run the same code, and the out ring of each is the in ring of the other.  A link is
one direction: the threads in `rt_vbus_post` and the out thread at its one end, the ring, and the
in thread at its other end.  Each step reads or writes one shared variable, or blocks that the
other end leaves alone.  The states of the channels change as they will.  `posted`, `pushed` and
`lost` are accounts: what has been put in the queue, what has been pushed to the lists of the
channels, and the channels of which a packet has been dropped.
-/

open Function (update)

namespace RtThread.Vbus.Transfer

/-- A thread in `rt_vbus_post`, with the data that are left. -/
structure Post where
  id : UInt8
  prio : UInt8
  data : List UInt8

inductive Out where
  /-- In `rt_prio_queue_pop`. -/
  | idle
  | popped (pkg : Pkg)
  /-- In front of `_bus_ring_space_nr`. -/
  | measuring (pkg : Pkg)
  | full (pkg : Pkg)
  | suspended (pkg : Pkg)
  /-- Behind `rt_schedule`. -/
  | resumed (pkg : Pkg)
  | writing (pkg : Pkg)
  /-- In front of the write of `put_idx`. -/
  | advancing (pkg : Pkg)
  /-- In front of the last `rt_vbus_tick`. -/
  | ticking
deriving DecidableEq

inductive In where
  /-- In `rt_sem_take`. -/
  | waiting
  | checking
  /-- Behind the reads of `id` and `len`. -/
  | reading (id : UInt8) (size : Nat)
  /-- In front of the `_ring_add_get_bnr` of a packet that goes to no list. -/
  | dropping (size : Nat)
  /-- In front of the write of `get_idx`, with the copy. -/
  | copied (pkg : Pkg)
  /-- In front of `rt_vbus_data_push`. -/
  | pushing (pkg : Pkg)
  /-- In front of the test of `blocked`. -/
  | testing
deriving DecidableEq

structure Link (Tid : Type) where
  call : Tid → Option Post
  queue : List Pkg
  out : Out
  ring : Ring
  inn : In
  /-- `_bus_in_sem` of the in thread. -/
  sem : Nat
  posted : List Pkg
  pushed : List Pkg
  lost : UInt8 → Bool

/-- The links by the endpoint that sends, the states of the channels at each endpoint, and whether
an interrupt to it is pending. -/
structure State (Tid : Type) where
  link : Bool → Link Tid
  chnStatus : Bool → UInt8 → ChnStatus
  irq : Bool → Bool

inductive Event (Tid : Type) where
  | status (side : Bool) (chnr : UInt8) (status : ChnStatus)
  | post (side : Bool) (t : Tid) (id prio : UInt8) (data : List UInt8)
  /-- `rt_prio_queue_push` of the next packet of a post. -/
  | push (side : Bool) (t : Tid)
  | fail (side : Bool) (t : Tid)
  /-- `rt_prio_queue_pop` of the out thread. -/
  | pop (side : Bool)
  | out (side : Bool)
  /-- `rt_vbus_isr` -/
  | isr (side : Bool)
  | inn (side : Bool)

def firstPrio (queue : List Pkg) : Option Nat :=
  (List.range PrioQueue.rtPrioQueuePrioMax).find? fun prio =>
    queue.any fun pkg => pkg.prio.toNat = prio

def popPkg (queue : List Pkg) : Option (Pkg × List Pkg) :=
  (firstPrio queue).bind fun prio =>
    (queue.find? fun pkg => pkg.prio.toNat = prio).map fun pkg =>
      (pkg, queue.eraseP fun pkg => pkg.prio.toNat = prio)

namespace Link

variable {Tid : Type} [DecidableEq Tid] (blkNr : Nat) (link : Link Tid)

def setCall (t : Tid) (call : Option Post) : Link Tid :=
  { link with call := update link.call t call }

/-- `rt_vbus_post`, up to its loop. -/
def post (status : UInt8 → ChnStatus) (t : Tid) (id prio : UInt8) (data : List UInt8) : Link Tid :=
  if channelNr ≤ id.toNat ∨ status id ≠ .established ∨ data = [] then link
  else link.setCall t (some ⟨id, prio, data⟩)

def push (t : Tid) : Option (Link Tid) :=
  (link.call t).bind fun call =>
    let pkg : Pkg := ⟨call.id, call.prio, call.data.take maxPktSz⟩
    let rest := call.data.drop maxPktSz
    if call.prio.toNat < PrioQueue.rtPrioQueuePrioMax ∧ link.queue.length < blkNr then
      some ({ link with queue := link.queue ++ [pkg], posted := link.posted ++ [pkg] }.setCall t
        (if rest = [] then none else some { call with data := rest }))
    else none

omit [DecidableEq Tid] in
def pop : Option (Link Tid) :=
  if link.out = .idle then
    (popPkg link.queue).map fun popped =>
      { link with queue := popped.2, out := .popped popped.1 }
  else none

def lose (chnr : UInt8) : Link Tid := { link with lost := update link.lost chnr true }

def outStep (status : UInt8 → ChnStatus) : Option (Link Tid) :=
  match link.out with
  | .idle | .suspended _ => none
  | .popped pkg =>
    some (if (status pkg.id).connected then { link with out := .measuring pkg }
      else { link.lose pkg.id with out := .idle })
  | .measuring pkg =>
    some { link with
      out := if link.ring.spaceNr blkNr < pkg.bnr then .full pkg else .writing pkg }
  | .full pkg =>
    some { link with ring := { link.ring with blocked := true }, out := .suspended pkg }
  | .resumed pkg =>
    some { link with ring := { link.ring with blocked := false }, out := .measuring pkg }
  | .writing pkg => some { link with ring := link.ring.write blkNr pkg, out := .advancing pkg }
  | .advancing pkg => some { link with ring := link.ring.addPutBnr blkNr pkg.bnr, out := .ticking }
  | .ticking => some { link with out := .idle }

/-- Whether this step calls `rt_vbus_tick`. -/
def outTicks : Bool :=
  match link.out with
  | .full _ | .ticking => true
  | _ => false

def innStep (status : UInt8 → ChnStatus) : Option (Link Tid) :=
  match link.inn with
  | .waiting =>
    if link.sem = 0 then none else some { link with sem := link.sem - 1, inn := .checking }
  | .checking =>
    some { link with
      inn := if link.ring.getIdx = link.ring.putIdx then .waiting
        else .reading link.ring.headId link.ring.headLen }
  | .reading id size =>
    some (if channelNr < id.toNat ∨ (status id).connected = false then
        { link.lose id with inn := .dropping size }
      else if id = 0 then { link with inn := .dropping size }
      else { link with
        inn := .copied ⟨id, link.ring.headQos, link.ring.read blkNr size⟩ })
  | .dropping size =>
    some { link with ring := link.ring.addGetBnr blkNr (len2bnr size), inn := .checking }
  | .copied pkg =>
    some { link with ring := link.ring.addGetBnr blkNr pkg.bnr, inn := .pushing pkg }
  | .pushing pkg => some { link with pushed := link.pushed ++ [pkg], inn := .testing }
  | .testing => some { link with inn := .checking }

/-- Whether this step calls `rt_vbus_tick`. -/
def innTicks : Bool := link.inn = .testing && link.ring.blocked

/-- `rt_vbus_resume_out_thread`, where `blocked` is set. -/
def resumeOut : Link Tid :=
  match link.out with
  | .suspended pkg => if link.ring.blocked then { link with out := .resumed pkg } else link
  | _ => link

end Link

namespace State

variable {Tid : Type} [DecidableEq Tid] (blkNr : Nat) (s : State Tid)

def setLink (side : Bool) (link : Link Tid) : State Tid :=
  { s with link := update s.link side link }

def tick (side ticks : Bool) : State Tid :=
  { s with irq := update s.irq side (s.irq side || ticks) }

def step : Event Tid → Option (State Tid)
  | .status side chnr status =>
    some { s with
      chnStatus := update s.chnStatus side
        (update (s.chnStatus side) chnr status) }
  | .post side t id prio data =>
    if (s.link side).call t = none then
      some (s.setLink side ((s.link side).post (s.chnStatus side) t id prio data))
    else none
  | .push side t => ((s.link side).push blkNr t).map (s.setLink side)
  | .fail side t =>
    if ((s.link side).call t).isSome then
      some (s.setLink side ((s.link side).setCall t none))
    else none
  | .pop side => (s.link side).pop.map (s.setLink side)
  | .out side =>
    ((s.link side).outStep blkNr (s.chnStatus side)).map fun link =>
      (s.setLink side link).tick (!side) (s.link side).outTicks
  | .isr side =>
    if s.irq side then
      some (({ s with irq := update s.irq side false }.setLink side
        (s.link side).resumeOut).setLink (!side)
          { s.link (!side) with sem := (s.link (!side)).sem + 1 })
    else none
  | .inn side =>
    ((s.link (!side)).innStep blkNr (s.chnStatus side)).map fun link =>
      (s.setLink (!side) link).tick (!side) (s.link (!side)).innTicks

omit [DecidableEq Tid] in
def Initial : Prop :=
  s.link = (fun _ => ⟨fun _ => none, [], .idle, ⟨0, 0, false, fun _ => 0⟩, .waiting, 0, [], [],
    fun _ => false⟩) ∧
  s.chnStatus = (fun _ chnr => if chnr = 0 then .established else .available) ∧
  s.irq = fun _ => false

def system : TransitionSystem (State Tid) (Event Tid) :=
  .ofFunction Initial fun s => s.step blkNr

end State

def packets (chnr prio : UInt8) (pkgs : List Pkg) : List Pkg :=
  pkgs.filter fun pkg => pkg.id = chnr && pkg.prio = prio

section

variable {Tid : Type} (blkNr : Nat)

def Link.Quiescent (link : Link Tid) : Prop :=
  link.queue = [] ∧ link.out = .idle ∧ link.ring.getIdx = link.ring.putIdx ∧ link.inn = .waiting

def Unread (ring : Ring) (p : Nat) : Prop :=
  ∃ offset < blkSz * ((ring.putIdx + blkNr - ring.getIdx) % blkNr),
    p = (blkSz * ring.getIdx + offset) % (blkSz * blkNr)

/-- The in thread is to test `blocked` before it sleeps. -/
def In.willTest : In → Bool
  | .pushing _ | .testing => true
  | _ => false

namespace Link

variable (link : Link Tid) (irq : Bool)

/-- Neither is an interrupt to the sender pending nor is one to come from the test of `blocked`. -/
def Silent : Prop := irq = false ∧ link.inn.willTest = false

def Left : Prop :=
  match link.out with
  | .suspended pkg => pkg.bnr ≤ link.ring.spaceNr blkNr ∧ link.Silent irq
  | _ => False

def OutAttended : Prop :=
  match link.out with
  | .full pkg => link.ring.spaceNr blkNr < pkg.bnr ∨ ¬ link.Silent irq
  | _ => True

def InAttended : Prop :=
  match link.inn, link.out with
  | .dropping size, .suspended pkg =>
    (link.ring.addGetBnr blkNr (len2bnr size)).spaceNr blkNr < pkg.bnr ∨ irq = true
  | _, _ => True

instance : Decidable (link.Silent irq) := instDecidableAnd

instance : Decidable (link.Left blkNr irq) := by
  unfold Left
  split <;> infer_instance

instance : Decidable (link.OutAttended blkNr irq) := by
  unfold OutAttended
  split <;> infer_instance

instance : Decidable (link.InAttended blkNr irq) := by
  unfold InAttended
  split <;> infer_instance

end Link

def State.Attended (s : State Tid) : Event Tid → Prop
  | .out side => (s.link side).OutAttended blkNr (s.irq side)
  | .inn side => (s.link (!side)).InAttended blkNr (s.irq (!side))
  | _ => True

instance (s : State Tid) (e : Event Tid) : Decidable (s.Attended blkNr e) := by
  unfold State.Attended
  split <;> infer_instance

open TransitionSystem

/-- A post is put in the queue packet by packet.  On every link the packets of a channel and a
priority are pushed once, in the order of their posts and with their bytes, as long as none is
dropped, which happens only on a channel that is not connected at one end; the indexes are within
the blocks, no unread block is overwritten, and no out thread is left. -/
structure Correct (taken : Taken (State Tid) (Event Tid)) : Prop where
  posts : ∀ side t call, taken.event = .push side t →
    (taken.before.link side).call t = some call →
      ∃ pkg, (taken.after.link side).posted = (taken.before.link side).posted ++ [pkg] ∧
        pkg.id = call.id ∧ pkg.prio = call.prio ∧
        pkg.data ++ ((taken.after.link side).call t).elim [] Post.data = call.data
  transfer : ∀ side chnr prio, chnr ≠ 0 → (taken.after.link side).lost chnr = false →
    packets chnr prio (taken.after.link side).pushed <+:
      packets chnr prio (taken.after.link side).posted
  complete : ∀ side chnr prio, chnr ≠ 0 → (taken.after.link side).lost chnr = false →
    (taken.after.link side).Quiescent →
      packets chnr prio (taken.after.link side).pushed =
        packets chnr prio (taken.after.link side).posted
  lost : ∀ side chnr, chnr.toNat < channelNr → (taken.after.link side).lost chnr = true →
    (taken.before.link side).lost chnr = true ∨
      ∃ endpoint, (taken.before.chnStatus endpoint chnr).connected = false
  indexes : ∀ side, (taken.after.link side).ring.putIdx < blkNr ∧
    (taken.after.link side).ring.getIdx < blkNr
  unread : ∀ side p, Unread blkNr (taken.before.link side).ring p →
    (taken.after.link side).ring.blks p = (taken.before.link side).ring.blks p
  awake : ∀ side, ¬ (taken.after.link side).Left blkNr (taken.after.irq side)

end

end RtThread.Vbus.Transfer
