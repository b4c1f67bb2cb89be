import RtThread.Library.Counting
import RtThread.Library.TransitionSystem

/-!
# The descriptor table

The functions `fd_new`, `fd_get` and `fd_put` of the device file system each hold its lock.
`open`, `close`, `read` and `write` call them one after another, and do their work on the
file in between, so that the calls of several threads mix at these places.
-/

open Function (update)

namespace RtThread.Dfs

abbrev dfsFdOffset : Nat := 3

/-- `struct dfs_fdtable` with the descriptors that its entries point to.  The descriptors
allocated so far are those below `allocated`; `freed` lists the calls of `rt_free`. -/
structure FdTable where
  maxfd : Nat
  fds : Nat → Option Nat
  refCount : Nat → Int
  magic : Nat → Bool
  allocated : Nat
  freed : List Nat

def findFree (fdt : FdTable) : Nat → Nat → Nat
  | 0, idx => idx
  | left + 1, idx =>
    match fdt.fds idx with
    | none => idx
    | some d => if fdt.refCount d = 0 then idx else findFree fdt left (idx + 1)

/-- `grows` and `callocs` say whether `rt_realloc` and `rt_calloc` get memory. -/
def fdAlloc (dfsFdMax : Nat) (fdt : FdTable) (startfd : Nat) (grows callocs : Bool) :
    Nat × FdTable :=
  let idx := findFree fdt (fdt.maxfd - startfd) startfd
  if idx = fdt.maxfd ∧ fdt.maxfd < dfsFdMax ∧ grows = false then (idx, fdt)
  else
    let fdt :=
      if idx = fdt.maxfd ∧ fdt.maxfd < dfsFdMax then
        { fdt with
          maxfd := min (fdt.maxfd + 4) dfsFdMax
          fds := fun index => if fdt.maxfd ≤ index then none else fdt.fds index }
      else fdt
    if idx < fdt.maxfd ∧ fdt.fds idx = none then
      if callocs then
        (idx, { fdt with
            fds := update fdt.fds idx (some fdt.allocated)
            refCount := update fdt.refCount fdt.allocated 0
            magic := update fdt.magic fdt.allocated false
            allocated := fdt.allocated + 1 })
      else (fdt.maxfd, fdt)
    else (idx, fdt)

def fdNew (dfsFdMax : Nat) (fdt : FdTable) (grows callocs : Bool) : Option Nat × FdTable :=
  let (idx, fdt) := fdAlloc dfsFdMax fdt 0 grows callocs
  if idx = fdt.maxfd then (none, fdt)
  else
    match fdt.fds idx with
    | none => (none, fdt)
    | some d =>
      (some idx, { fdt with
          refCount := update fdt.refCount d 1
          magic := update fdt.magic d true })

def fdIndex (console fd : Int) : Int :=
  (if 0 ≤ fd ∧ fd ≤ 2 then console else fd) - dfsFdOffset

def fdGet (console : Int) (fdt : FdTable) (fd : Int) : Option Nat × FdTable :=
  let index := fdIndex console fd
  if index < 0 ∨ fdt.maxfd ≤ index then (none, fdt)
  else
    match fdt.fds index.toNat with
    | none => (none, fdt)
    | some d =>
      if fdt.magic d = false then (none, fdt)
      else (some d, { fdt with refCount := update fdt.refCount d (fdt.refCount d + 1) })

def findFd (fdt : FdTable) (d : Nat) : Nat → Nat → Option Nat
  | 0, _ => none
  | left + 1, index => if fdt.fds index = some d then some index else findFd fdt d left (index + 1)

def fdPut (fdt : FdTable) (d : Nat) : FdTable :=
  let fdt := { fdt with refCount := update fdt.refCount d (fdt.refCount d - 1) }
  if fdt.refCount d = 0 then
    match findFd fdt d fdt.maxfd 0 with
    | none => fdt
    | some index =>
      { fdt with fds := update fdt.fds index none, freed := d :: fdt.freed }
  else fdt

inductive Activity where
  | idle
  /-- `open`, after `fd_new`. -/
  | created (index : Nat)
  /-- `open`, in `dfs_file_open`. -/
  | opening (index d : Nat)
  | openReturns (index d : Nat)
  | openFails (d : Nat)
  | openFailed (d : Nat)
  /-- `close`, in `dfs_file_close`. -/
  | closing (d : Nat)
  | closeFails (d : Nat)
  | closePuts (d : Nat)
  | closeLast (d : Nat)
  /-- `read`, `write` and the other calls that hold a reference while they work. -/
  | working (d : Nat)

inductive Stage (Thread : Type) where
  | opening (t : Thread)
  | isOpen
  | closing (t : Thread)
  | closed
  | unallocated
deriving DecidableEq

variable {Thread : Type} [DecidableEq Thread]

/-- The table, the calls that are under way, the descriptors (by index and object) that
`open` has returned and that are not closed yet, and whether `fd_put` has been applied to
`NULL` or to a freed descriptor. -/
structure FdState (Thread : Type) where
  fdt : FdTable
  activity : Thread → Activity
  stage : Nat → Stage Thread
  returned : List (Nat × Nat)
  misused : Bool

inductive FdEvent (Thread : Type) where
  /-- `open`: `fd_new`, `fd_get` and the result of `dfs_file_open`. -/
  | openNew (t : Thread) (grows callocs : Bool)
  | openGet (t : Thread)
  | openFile (t : Thread) (opens : Bool)
  /-- `close`: `fd_get` and the result of `dfs_file_close`. -/
  | closeGet (t : Thread) (fd : Int)
  | closeFile (t : Thread) (closes : Bool)
  /-- `read` and `write`: `fd_get`. -/
  | useGet (t : Thread) (fd : Int)
  /-- The next `fd_put` of any of them. -/
  | put (t : Thread)

def FdState.put (s : FdState Thread) (t : Thread) (d : Nat) (next : Activity)
    (stage : Nat → Stage Thread) (returned : List (Nat × Nat)) : FdState Thread :=
  { fdt := fdPut s.fdt d
    activity := update s.activity t next
    stage := stage
    returned := returned
    misused := s.misused || d ∈ s.fdt.freed }

def FdState.step (dfsFdMax : Nat) (console : Int) (s : FdState Thread) :
    FdEvent Thread → Option (FdState Thread)
  | .openNew t grows callocs =>
    match s.activity t with
    | .idle =>
      match fdNew dfsFdMax s.fdt grows callocs with
      | (none, fdt) => some { s with fdt := fdt }
      | (some index, fdt) =>
        some
          { s with
            fdt := fdt
            activity := update s.activity t (.created index)
            stage :=
              match fdt.fds index with
              | none => s.stage
              | some d => update s.stage d (.opening t) }
    | _ => none
  | .openGet t =>
    match s.activity t with
    | .created index =>
      match fdGet console s.fdt (index + dfsFdOffset) with
      -- `dfs_file_open(NULL, ..)` fails, and `fd_put(NULL)` follows
      | (none, fdt) =>
        some
          { s with
            fdt := fdt
            activity := update s.activity t .idle
            misused := true }
      | (some d, fdt) =>
        some
          { s with
            fdt := fdt
            activity := update s.activity t (.opening index d) }
    | _ => none
  | .openFile t opens =>
    match s.activity t with
    | .opening index d =>
      if opens then
        some { s with activity := update s.activity t (.openReturns index d) }
      else
        some
          { s with
            activity := update s.activity t (.openFails d)
            stage := update s.stage d .closed }
    | _ => none
  | .closeGet t fd =>
    match s.activity t with
    | .idle =>
      match fdGet console s.fdt fd with
      | (none, fdt) => some { s with fdt := fdt }
      | (some d, fdt) =>
        some
          { s with
            fdt := fdt
            activity := update s.activity t (.closing d)
            stage := update s.stage d (.closing t) }
    | _ => none
  | .closeFile t closes =>
    match s.activity t with
    | .closing d =>
      if closes then
        some
          { s with
            activity := update s.activity t (.closePuts d)
            stage := update s.stage d .closed }
      else
        some
          { s with
            activity := update s.activity t (.closeFails d)
            stage := update s.stage d .isOpen }
    | _ => none
  | .useGet t fd =>
    match s.activity t with
    | .idle =>
      match fdGet console s.fdt fd with
      | (none, fdt) => some { s with fdt := fdt }
      | (some d, fdt) =>
        some
          { s with
            fdt := fdt
            activity := update s.activity t (.working d) }
    | _ => none
  | .put t =>
    match s.activity t with
    | .openReturns index d =>
      some (s.put t d .idle (update s.stage d .isOpen)
        ((index, d) :: s.returned))
    | .openFails d => some (s.put t d (.openFailed d) s.stage s.returned)
    | .openFailed d => some (s.put t d .idle s.stage s.returned)
    | .closeFails d => some (s.put t d .idle s.stage s.returned)
    | .closePuts d => some (s.put t d (.closeLast d) s.stage s.returned)
    | .closeLast d =>
      some (s.put t d .idle s.stage
        (s.returned.filter fun descriptor => descriptor.2 ≠ d))
    | .working d => some (s.put t d .idle s.stage s.returned)
    | _ => none

def FdState.Initial (s : FdState Thread) : Prop :=
  s =
    { fdt := ⟨0, fun _ => none, fun _ => 0, fun _ => false, 0, []⟩
      activity := fun _ => .idle
      stage := fun _ => .unallocated
      returned := []
      misused := false }

def fdSystem (dfsFdMax : Nat) (console : Int) :
    TransitionSystem (FdState Thread) (FdEvent Thread) :=
  TransitionSystem.ofFunction FdState.Initial (FdState.step dfsFdMax console)

def Activity.Holds (activity : Activity) (d : Nat) : Prop :=
  match activity with
  | .idle => False
  | .created _ => False
  | .opening _ held => held = d
  | .openReturns _ held => held = d
  | .openFails held => held = d
  | .openFailed held => held = d
  | .closing held => held = d
  | .closeFails held => held = d
  | .closePuts held => held = d
  | .closeLast held => held = d
  | .working held => held = d

/-- The descriptors that are open have numbers and objects of their own; what is freed is
freed once, and nobody holds it; what is closed and not held is freed. -/
structure FdState.Sound (s : FdState Thread) : Prop where
  numbers : (s.returned.map Prod.fst).Nodup
  objects : (s.returned.map Prod.snd).Nodup
  inTable : ∀ descriptor ∈ s.returned,
    s.fdt.fds descriptor.1 = some descriptor.2 ∧ descriptor.2 ∉ s.fdt.freed
  freedOnce : s.fdt.freed.Nodup
  unheld : ∀ d ∈ s.fdt.freed, ∀ t, ¬(s.activity t).Holds d
  released : ∀ d < s.fdt.allocated, s.stage d = .closed →
    (∀ t, ¬(s.activity t).Holds d) → d ∈ s.fdt.freed
  putLive : s.misused = false

/-- `close` is called for open descriptors only: `open` has returned them, and no other
`close` works on them. -/
def ClosesOpen (console : Int) (s : FdState Thread) : FdEvent Thread → Prop
  | .closeGet _ fd => ∀ d ∈ (fdGet console s.fdt fd).1, s.stage d = .isOpen
  | _ => True

instance (console : Int) (s : FdState Thread) :
    (e : FdEvent Thread) → Decidable (ClosesOpen console s e)
  | .openNew _ _ _ => .isTrue trivial
  | .openGet _ => .isTrue trivial
  | .openFile _ _ => .isTrue trivial
  | .closeGet _ _ => inferInstanceAs (Decidable (∀ _ ∈ _, _ = _))
  | .closeFile _ _ => .isTrue trivial
  | .useGet _ _ => .isTrue trivial
  | .put _ => .isTrue trivial

end RtThread.Dfs
