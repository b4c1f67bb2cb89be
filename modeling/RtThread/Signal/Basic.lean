import Mathlib.Algebra.Ring.Nat
import RtThread.Kernel.Services
import RtThread.Library.TransitionSystem

/-!
# Signals

`rt_thread_kill` puts a signal both into the bits of `sig_pending` and at the end of
`si_list`; `rt_thread_handle_sig` decides by the bits and takes the head of the list.  The
section that looks for the signal, the allocation with the section that appends it, and
each delivery are steps of their own.  So is each turn of the loop that calls the handlers:
while a handler runs, interrupts are enabled and its thread may do anything, a delivery to
itself included.
-/

namespace RtThread.Signal

universe u v

def rtSigMax : Nat := 32

def rtSigInfoMax : Nat := 32

instance : NeZero rtSigMax := ⟨Nat.succ_ne_zero 31⟩

/-- A number that `sig_valid` accepts. -/
abbrev Signo := Fin rtSigMax

def sigValid (signo : Int) : Option Signo :=
  if valid : 0 ≤ signo ∧ signo < rtSigMax then some ⟨signo.toNat, by omega⟩ else none

def sigMask (signo : Signo) : BitVec 32 := 1#32 <<< signo.val

/-- An entry of `sig_vectors` that is not `RT_NULL`. -/
inductive Handler where
  | default
  | function (address : BitVec 32)

/-- The argument of `rt_signal_install`: `SIG_IGN`, `SIG_DFL` or a function. -/
inductive SigHandler where
  | ignore
  | default
  | function (address : BitVec 32)

/-- A call of `rt_thread_handle_sig`: not yet in its first section, or behind a section
that has removed a node of `signo`. -/
inductive Frame where
  | entered (cleanState : Bool)
  | handling (cleanState : Bool) (signo : Signo)
  deriving DecidableEq

/-- The signal fields of `struct rt_thread` and the signal bits of its `stat`.  A node of
`si_list` is its `si_signo`, and `frames` are the calls of `rt_thread_handle_sig` that the
thread is in, the innermost first. -/
structure SigThread where
  sigPending : BitVec 32
  sigMask : BitVec 32
  siList : List Signo
  sigVectors : Option (Signo → Option Handler)
  statSignal : Bool
  statSignalWait : Bool
  statSignalPending : Bool
  /-- The set of the `rt_signal_wait` the thread has suspended in. -/
  waitSet : Option (BitVec 32)
  frames : List Frame

/-- Who calls: a thread, or an interrupt handler above the thread `rt_thread_self`. -/
inductive Caller (Tid : Type u) where
  | thread (t : Tid)
  | interrupt (self : Tid)
  deriving DecidableEq

/-- A call that interrupts are enabled in: `rt_thread_kill` behind its first section, or
`_signal_deliver` before its section. -/
inductive Call (Tid : Type u) where
  | killing (caller : Caller Tid) (tid : Tid) (sig : Signo)
  | delivering (caller : Caller Tid) (tid : Tid)
  deriving DecidableEq

structure Invocation (Tid : Type u) where
  thread : Tid
  signo : Signo
  sigPending : BitVec 32
  sigMask : BitVec 32

/-- The signal fields of all threads, the calls under way, the free blocks of
`_rt_siginfo_pool` and the handlers called so far. -/
structure Records (Tid : Type u) where
  thread : Tid → SigThread
  calls : List (Call Tid)
  poolFree : Nat
  invoked : List (Invocation Tid)

structure State (Tid : Type u) (Obj : Type v) where
  kernel : Kernel Tid Obj
  records : Records Tid

inductive Action (Tid : Type u) where
  | install (t : Tid) (signo : Int) (handler : SigHandler)
  | mask (t : Tid) (signo : Int)
  | unmask (t : Tid) (signo : Int)
  | kill (caller : Caller Tid) (tid : Tid) (sig : Int)
  | append (caller : Caller Tid) (tid : Tid) (sig : Signo)
  | deliver (caller : Caller Tid) (tid : Tid)
  | switched (t : Tid)
  | enter (t : Tid)
  | back (t : Tid)
  | wait (t : Tid) (set : BitVec 32) (timeout : BitVec 32)
  | waitResumed (t : Tid)

namespace SigThread

/-- The test of `rt_thread_handle_sig` and its loop. -/
def Deliverable (thread : SigThread) : Prop := thread.sigPending &&& thread.sigMask ≠ 0

instance (thread : SigThread) : Decidable thread.Deliverable := instDecidableNot

def Executing (thread : SigThread) : Prop :=
  thread.waitSet = none ∧ ∀ cleanState ∈ [false, true],
    thread.frames.head? ≠ some (.entered cleanState)

instance (thread : SigThread) : Decidable thread.Executing := instDecidableAnd

def append (thread : SigThread) (sig : Signo) : SigThread :=
  { thread with
    siList := thread.siList ++ [sig]
    sigPending := thread.sigPending ||| Signal.sigMask sig }

/-- The end of `rt_thread_handle_sig`; without `clean_state`, `_signal_entry` clears the
bit of `stat` instead. -/
def endHandling (thread : SigThread) (outer : List Frame) : SigThread :=
  { thread with statSignal := false, frames := outer }

/-- The loop of `rt_thread_handle_sig`, from its test to the call of the handler or to its
end.  `sig_vectors` may be `RT_NULL`: then there is no handler to read. -/
def handleTurn (thread : SigThread) (cleanState : Bool) (outer : List Frame) :
    Option (SigThread × Option (Signo × Handler)) :=
  if thread.Deliverable then
    match thread.siList with
    | [] => some (thread.endHandling outer, none)
    | signo :: rest =>
      thread.sigVectors.map fun vectors =>
        ({ thread with
            siList := rest
            sigPending := thread.sigPending &&& ~~~ Signal.sigMask signo
            frames := .handling cleanState signo :: outer },
          (vectors signo).map fun handler => (signo, handler))
  else some (thread.endHandling outer, none)

def rtThreadHandleSig (thread : SigThread) (cleanState : Bool) (outer : List Frame) :
    Option (SigThread × Option (Signo × Handler)) :=
  if thread.Deliverable ∧ thread.statSignalWait = false then thread.handleTurn cleanState outer
  else
    some ({ thread with statSignal := thread.statSignal && cleanState, frames := outer }, none)

/-- The loop of `rt_signal_wait` over `si_list`, and what it removes. -/
def takeSignal (thread : SigThread) (set : BitVec 32) : SigThread × Option Signo :=
  match thread.siList.find? fun signo => Signal.sigMask signo &&& set ≠ 0 with
  | none => (thread, none)
  | some signo =>
    ({ thread with
        siList := thread.siList.erase signo
        sigPending := thread.sigPending &&& ~~~ Signal.sigMask signo },
      some signo)

end SigThread

variable {Tid : Type u} {Obj : Type v} [DecidableEq Tid]

def Caller.self : Caller Tid → Tid
  | .thread t => t
  | .interrupt self => self

namespace Records

def setThread (records : Records Tid) (t : Tid) (thread : SigThread) : Records Tid :=
  { records with thread := Function.update records.thread t thread }

@[simp] theorem setThread_thread (records : Records Tid) (t u : Tid) (thread : SigThread) :
    (records.setThread t thread).thread u = if u = t then thread else records.thread u := by
  simp [setThread, Function.update_apply]

def addCall (records : Records Tid) (call : Call Tid) : Records Tid :=
  { records with calls := call :: records.calls }

def endCall (records : Records Tid) (call : Call Tid) : Records Tid :=
  { records with calls := records.calls.erase call }

def afterTurn (records : Records Tid) (t : Tid)
    (outcome : SigThread × Option (Signo × Handler)) : Records Tid :=
  { records.setThread t outcome.1 with
    invoked := match outcome.2 with
      | none => records.invoked
      | some (signo, _) =>
        records.invoked ++ [⟨t, signo, (records.thread t).sigPending, (records.thread t).sigMask⟩] }

end Records

def rtThreadAllocSig : Signo → Option Handler := fun _ => some .default

def rtSignalInstall (thread : SigThread) (signo : Signo) (handler : SigHandler) : SigThread :=
  let vectors := thread.sigVectors.getD rtThreadAllocSig
  { thread with
    sigVectors := some (Function.update vectors signo
      (match handler with
        | .ignore => none
        | .default => some .default
        | .function address => some (.function address))) }

/-- The first section of `rt_thread_kill`: a signal that is pending already is not appended
again. -/
def rtThreadKill (records : Records Tid) (caller : Caller Tid) (tid : Tid) (sig : Signo) :
    Records Tid :=
  let thread := records.thread tid
  if thread.sigPending &&& sigMask sig ≠ 0 ∧ sig ∈ thread.siList then records
  else records.addCall (.killing caller tid sig)

/-- `rt_thread_kill` from `rt_mp_alloc` on. -/
def appendSignal (records : Records Tid) (tid : Tid) (sig : Signo) : Records Tid :=
  if records.poolFree = 0 then records
  else
    { records.setThread tid ((records.thread tid).append sig) with
      poolFree := records.poolFree - 1 }

def State.setThread (s : State Tid Obj) (t : Tid) (thread : SigThread) : State Tid Obj :=
  { s with records := s.records.setThread t thread }

def signalDeliver [DecidableEq Obj] (s : State Tid Obj) (caller : Caller Tid) (tid : Tid) :
    State Tid Obj :=
  let thread := s.records.thread tid
  if ¬ thread.Deliverable then s
  else if (s.kernel.thread tid).stat = .suspend then
    { kernel := s.kernel.rtThreadResume tid
      records := s.records.setThread tid
        { thread with statSignal := true, statSignalPending := true } }
  else if tid = caller.self then
    match caller with
    | .thread _ =>
      s.setThread tid
        { thread with statSignal := true, frames := .entered true :: thread.frames }
    | .interrupt _ => s.setThread tid { thread with statSignal := true }
  else if thread.statSignal = false then
    s.setThread tid
      { thread with
        statSignal := true
        statSignalPending := false
        frames := .entered false :: thread.frames }
  else s

/-- `rt_signal_wait` from the label `__done` on. -/
def takeWaited (records : Records Tid) (t : Tid) (thread : SigThread) (set : BitVec 32) :
    Records Tid :=
  let (thread, taken) := thread.takeSignal set
  { records.setThread t thread with poolFree := records.poolFree + taken.toList.length }

/-- `rt_signal_wait` up to its return or to `rt_schedule`. -/
def rtSignalWait (s : State Tid Obj) (t : Tid) (set timeout : BitVec 32) : State Tid Obj :=
  let thread := s.records.thread t
  if set = 0 then s
  else if thread.sigPending &&& set ≠ 0 then
    { s with records := takeWaited s.records t thread set }
  else if timeout = 0 then s
  else
    let kernel := s.kernel.rtThreadSuspend t
    { kernel := if timeout ≠ -1 then
        kernel.setThread t { kernel.thread t with timer := true }
      else kernel
      records := s.records.setThread t
        { thread with statSignalWait := true, waitSet := some set } }

/-- `rt_signal_wait` behind `rt_schedule`. -/
def signalWaitResumed (s : State Tid Obj) (t : Tid) (set : BitVec 32) : State Tid Obj :=
  let thread := { s.records.thread t with statSignalWait := false, waitSet := none }
  if (s.kernel.thread t).error = .etimeout then
    { kernel := s.kernel.setError t .eok
      records := s.records.setThread t thread }
  else { s with records := takeWaited s.records t thread set }

namespace State

def Ready (s : State Tid Obj) (t : Tid) : Prop := (s.kernel.thread t).stat = .ready

instance (s : State Tid Obj) (t : Tid) : Decidable (s.Ready t) :=
  inferInstanceAs (Decidable (_ = _))

def Acts (s : State Tid Obj) (t : Tid) : Prop :=
  s.Ready t ∧ (s.records.thread t).Executing

instance (s : State Tid Obj) (t : Tid) : Decidable (s.Acts t) := instDecidableAnd

def CallerActs (s : State Tid Obj) : Caller Tid → Prop
  | .thread t => s.Acts t
  | .interrupt self => s.Ready self

instance (s : State Tid Obj) : (caller : Caller Tid) → Decidable (s.CallerActs caller)
  | .thread t => inferInstanceAs (Decidable (s.Acts t))
  | .interrupt self => inferInstanceAs (Decidable (s.Ready self))

end State

def rtSignalMask (thread : SigThread) (signo : Signo) : SigThread :=
  { thread with sigMask := thread.sigMask &&& ~~~ sigMask signo }

/-- `rt_signal_unmask` up to `_signal_deliver`. -/
def rtSignalUnmask (records : Records Tid) (t : Tid) (signo : Signo) : Records Tid :=
  let thread := records.thread t
  let thread := { thread with sigMask := thread.sigMask ||| sigMask signo }
  if thread.Deliverable then (records.setThread t thread).addCall (.delivering (.thread t) t)
  else records.setThread t thread

/-- `rt_thread_handle_sig` behind a handler: the node is released and `error` set. -/
def handlerReturned (s : State Tid Obj) (t : Tid) : State Tid Obj :=
  { kernel := s.kernel.setError t .eintr
    records := { s.records with poolFree := s.records.poolFree + 1 } }

variable [DecidableEq Obj]

/-- One step of the signal functions.  The macro `sig_mask` is defined for valid signals
only, and `rt_schedule` looks for `RT_THREAD_STAT_SIGNAL_PENDING` when it returns. -/
def act (s : State Tid Obj) : Action Tid → Option (State Tid Obj)
  | .install t signo handler =>
    if s.Acts t then
      some (match sigValid signo with
        | some signo => s.setThread t (rtSignalInstall (s.records.thread t) signo handler)
        | none => s)
    else none
  | .mask t signo =>
    if s.Acts t then
      (sigValid signo).map fun signo =>
        s.setThread t (rtSignalMask (s.records.thread t) signo)
    else none
  | .unmask t signo =>
    if s.Acts t then
      (sigValid signo).map fun signo =>
        { s with records := rtSignalUnmask s.records t signo }
    else none
  | .kill caller tid sig =>
    if s.CallerActs caller then
      some (match sigValid sig with
        | some sig => { s with records := rtThreadKill s.records caller tid sig }
        | none => s)
    else none
  | .append caller tid sig =>
    if .killing caller tid sig ∈ s.records.calls then
      let records := s.records.endCall (.killing caller tid sig)
      some { s with
        records := (appendSignal records tid sig).addCall (.delivering caller tid) }
    else none
  | .deliver caller tid =>
    if .delivering caller tid ∈ s.records.calls then
      some (signalDeliver
        { s with records := s.records.endCall (.delivering caller tid) } caller tid)
    else none
  | .switched t =>
    let thread := s.records.thread t
    if s.Ready t ∧ thread.statSignalPending = true then
      some (s.setThread t
        { thread with statSignalPending := false, frames := .entered true :: thread.frames })
    else none
  | .enter t =>
    let thread := s.records.thread t
    match thread.frames with
    | .entered cleanState :: outer =>
      if s.Ready t then
        (thread.rtThreadHandleSig cleanState outer).map fun outcome =>
          { s with records := s.records.afterTurn t outcome }
      else none
    | _ => none
  | .back t =>
    let thread := s.records.thread t
    match thread.frames with
    | .handling cleanState _ :: outer =>
      if s.Acts t then
        (thread.handleTurn cleanState outer).map fun outcome =>
          let s := handlerReturned s t
          { s with records := s.records.afterTurn t outcome }
      else none
    | _ => none
  | .wait t set timeout => if s.Acts t then some (rtSignalWait s t set timeout) else none
  | .waitResumed t =>
    match (s.records.thread t).waitSet with
    | some set => if s.Ready t then some (signalWaitResumed s t set) else none
    | none => none

/-- A signal function, or whatever else suspends a thread and lets it go on. -/
inductive Event (Tid : Type u) where
  | act (action : Action Tid)
  | suspend (t : Tid)
  | resume (t : Tid)
  | timeout (t : Tid)

def step (s : State Tid Obj) : Event Tid → Option (State Tid Obj)
  | .act action => act s action
  | .suspend t =>
    if s.Acts t then some { s with kernel := s.kernel.rtThreadSuspend t } else none
  | .resume t => some { s with kernel := s.kernel.rtThreadResume t }
  | .timeout t =>
    if (s.kernel.thread t).stat = .suspend ∧ (s.kernel.thread t).timer then
      some { s with kernel := s.kernel.rtThreadTimeout t }
    else none

def initThread : SigThread where
  sigPending := 0
  sigMask := 0
  siList := []
  sigVectors := none
  statSignal := false
  statSignalWait := false
  statSignalPending := false
  waitSet := none
  frames := []

def initRecords : Records Tid where
  thread _ := initThread
  calls := []
  poolFree := rtSigInfoMax
  invoked := []

/-- After `rt_system_signal_init`, before any thread has used a signal. -/
structure Initial (s : State Tid Obj) : Prop where
  wellFormed : s.kernel.WellFormed
  records_eq : s.records = initRecords

def system : TransitionSystem (State Tid Obj) (Event Tid) :=
  TransitionSystem.ofFunction Initial step

end RtThread.Signal
