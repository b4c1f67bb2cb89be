import RtThread.Ipc.Semaphore
import RtThread.Library.Notice

/-!
# The receive notices of the AT parsers

Every AT client and the AT server read their device byte by byte; when there is none,
`at_client_getchar` and `at_server_gerchar` reset `rx_notice` and take it.  The handler of a
device stores bytes, and then calls the receive indication, which releases `rx_notice`.
-/

namespace RtThread.At.RxNotice

open TransitionSystem
open Function (update_of_ne update_self update)

/-- The functions that are set with `rt_device_set_rx_indicate`. -/
inductive RxIndicate where
  | atClientRxInd
  | atRxInd
  deriving DecidableEq

/-- Those who read: the clients of `at_client_table`, and the server. -/
inductive Reader (Client : Type) where
  | client (idx : Client)
  | server
  deriving DecidableEq

/-- The devices of the clients and of the server, each with the indication that
`at_client_init` and `at_server_init` set on it. -/
structure Wiring (Client Device : Type) where
  clientDevice : Client → Device
  serverDevice : Device
  rxIndicate : Device → RxIndicate
  ofClient : ∀ idx, rxIndicate (clientDevice idx) = .atClientRxInd
  ofServer : rxIndicate serverDevice = .atRxInd
  onlyServer : ∀ dev, rxIndicate dev = .atRxInd → dev = serverDevice

/-- Where a reader is in `at_client_getchar` or `at_server_gerchar`. -/
inductive Place where
  | outside
  /-- In front of `rt_device_read`. -/
  | reading (timeout : Int)
  /-- In front of `rt_sem_control`. -/
  | resetting (timeout : Int)
  /-- In front of `rt_sem_take`. -/
  | taking (timeout : Int)
  /-- In `rt_sem_take`, behind `rt_ipc_list_suspend`, with the `error` of the thread as `code`. -/
  | inTake (timeout : Int) (code : RtErr)
  deriving DecidableEq

/-- The bytes a device holds, how many of its handlers have stored bytes and not called the
indication, and for each reader its `rx_notice`, its place and what it returned last. -/
structure State (Client Device : Type) where
  unread : Device → List UInt8
  handlers : Device → Nat
  rxNotice : Reader Client → NoticeSemaphore
  place : Reader Client → Place
  returned : Reader Client → Except RtErr UInt8

inductive Event (Client Device : Type) where
  | arrive (dev : Device) (bytes : List UInt8) (dropped : Nat)
  | indicate (dev : Device) (size : Nat)
  /-- `at_client_getchar` with a timeout in milliseconds, or `at_server_gerchar`. -/
  | getchar (reader : Reader Client) (timeout : Int)
  | proceed (reader : Reader Client)
  | expire (reader : Reader Client)

variable {Client Device : Type}

def rtTickFromMillisecond (tickPerSecond : Int) (ms : Int) : Int :=
  if ms < 0 then -1
  else tickPerSecond * (ms / 1000) + (tickPerSecond * (ms % 1000) + 999) / 1000

def Wiring.device (wiring : Wiring Client Device) : Reader Client → Device
  | .client idx => wiring.clientDevice idx
  | .server => wiring.serverDevice

section Steps

variable [DecidableEq Client] [DecidableEq Device]
variable (wiring : Wiring Client Device) (tickPerSecond : Int)

def atClientRxInd (rxNotice : Reader Client → NoticeSemaphore) (dev : Device) (size : Nat) :
    Reader Client → NoticeSemaphore
  | .client idx =>
    if wiring.clientDevice idx = dev ∧ 0 < size then (rxNotice (.client idx)).rtSemRelease
    else rxNotice (.client idx)
  | .server => rxNotice .server

def atRxInd (rxNotice : Reader Client → NoticeSemaphore) (size : Nat) :
    Reader Client → NoticeSemaphore
  | .client idx => rxNotice (.client idx)
  | .server => if 0 < size then (rxNotice .server).rtSemRelease else rxNotice .server

def rxIndicate (rxNotice : Reader Client → NoticeSemaphore) (dev : Device) (size : Nat) :
    Reader Client → NoticeSemaphore :=
  match wiring.rxIndicate dev with
  | .atClientRxInd => atClientRxInd wiring rxNotice dev size
  | .atRxInd => atRxInd rxNotice size

def State.setPlace (s : State Client Device) (reader : Reader Client) (place : Place) :
    State Client Device :=
  { s with place := update s.place reader place }

def State.setNotice (s : State Client Device) (reader : Reader Client)
    (sem : NoticeSemaphore) : State Client Device :=
  { s with rxNotice := update s.rxNotice reader sem }

def State.return (s : State Client Device) (reader : Reader Client)
    (result : Except RtErr UInt8) : State Client Device :=
  { s.setPlace reader .outside with
    returned := update s.returned reader result }

/-- `rt_device_read` of one byte: the byte is returned, or the loop is entered. -/
def deviceRead (s : State Client Device) (reader : Reader Client) (timeout : Int) :
    State Client Device :=
  match s.unread (wiring.device reader) with
  | [] => s.setPlace reader (.resetting timeout)
  | ch :: rest =>
    { s with
      unread := update s.unread (wiring.device reader) rest }.return reader (.ok ch)

/-- Behind `rt_sem_take`: the client returns an error, the server does not look at it. -/
def taken (s : State Client Device) (reader : Reader Client) (timeout : Int)
    (result : RtErr) : State Client Device :=
  match reader with
  | .client idx =>
    if result ≠ .eok then s.return (.client idx) (.error result)
    else s.setPlace (.client idx) (.reading timeout)
  | .server => s.setPlace .server (.reading timeout)

def waitTime (timeout : Int) : Reader Client → Int
  | .client _ => rtTickFromMillisecond tickPerSecond timeout
  | .server => -1

def proceed (s : State Client Device) (reader : Reader Client) :
    Option (State Client Device) :=
  match s.place reader with
  | .outside => none
  | .reading timeout => some (deviceRead wiring s reader timeout)
  | .resetting timeout =>
    some ((s.setNotice reader (s.rxNotice reader).rtSemReset).setPlace reader
      (.taking timeout))
  | .taking timeout =>
    match (s.rxNotice reader).rtSemTake (waitTime tickPerSecond timeout reader) with
    | (sem, some result) => some (taken (s.setNotice reader sem) reader timeout result)
    | (sem, none) => some ((s.setNotice reader sem).setPlace reader (.inTake timeout .eok))
  | .inTake timeout code =>
    if (s.rxNotice reader).suspended then none
    else some (taken s reader timeout code)

def expire (s : State Client Device) (reader : Reader Client) :
    Option (State Client Device) :=
  match s.place reader with
  | .inTake timeout _ =>
    if (s.rxNotice reader).suspended ∧ 0 < waitTime tickPerSecond timeout reader then
      some ((s.setNotice reader (s.rxNotice reader).rtThreadTimeout).setPlace reader
        (.inTake timeout .etimeout))
    else none
  | _ => none

def step (s : State Client Device) : Event Client Device → Option (State Client Device)
  | .arrive dev bytes dropped =>
    if bytes ≠ [] then
      some { s with
        unread := update s.unread dev ((s.unread dev ++ bytes).drop dropped)
        handlers := update s.handlers dev (s.handlers dev + 1) }
    else none
  | .indicate dev size =>
    if 0 < s.handlers dev ∧ 0 < size then
      some { s with
        handlers := update s.handlers dev (s.handlers dev - 1)
        rxNotice := rxIndicate wiring s.rxNotice dev size }
    else none
  | .getchar reader timeout =>
    if s.place reader = .outside then some (s.setPlace reader (.reading timeout))
    else none
  | .proceed reader => proceed wiring tickPerSecond s reader
  | .expire reader => expire tickPerSecond s reader

end Steps

structure Initial (s : State Client Device) : Prop where
  rxNotice : ∀ reader, s.rxNotice reader = ⟨0, false⟩
  place : ∀ reader, s.place reader = .outside

def system [DecidableEq Client] [DecidableEq Device] (wiring : Wiring Client Device)
    (tickPerSecond : Int) : TransitionSystem (State Client Device) (Event Client Device) :=
  ofFunction Initial (step wiring tickPerSecond)

section Claim

variable (wiring : Wiring Client Device)

def State.Blocked (s : State Client Device) (reader : Reader Client) : Prop :=
  (∃ timeout code, s.place reader = .inTake timeout code) ∧
    (s.rxNotice reader).suspended = true

/-- While a reader is blocked without a token its device has no unread byte, except while
the handler that has stored it is in front of the indication. -/
def NoLostByte (s : State Client Device) : Prop :=
  ∀ reader, s.Blocked reader → (s.rxNotice reader).value = 0 →
    s.handlers (wiring.device reader) = 0 → s.unread (wiring.device reader) = []

def Place.IsTaking : Place → Prop
  | .taking _ => True
  | _ => False

def Place.IsResetting : Place → Prop
  | .resetting _ => True
  | _ => False

/-- `rx_notice` is reset only when the device has no unread byte, or an indication is still
to come, and its count does not wrap between the reset and the take. -/
def NoticeKept (s : State Client Device) : Event Client Device → Prop
  | .indicate dev _ =>
    ∀ reader, wiring.device reader = dev → (s.place reader).IsTaking →
      (s.rxNotice reader).value ≠ 0xffff
  | .proceed reader =>
    (s.place reader).IsResetting →
      s.unread (wiring.device reader) ≠ [] → s.handlers (wiring.device reader) ≠ 0
  | _ => True

def phaseOf (place : Place) (sem : NoticeSemaphore) : Notice.Phase :=
  match place with
  | .taking _ => .armed
  | .inTake _ _ => if sem.suspended then .waiting else .working
  | _ => .working

def State.notice (s : State Client Device) (reader : Reader Client) : Notice where
  phase := phaseOf (s.place reader) (s.rxNotice reader)
  notices := (s.rxNotice reader).value
  stored := s.unread (wiring.device reader) ≠ []
  owed := s.handlers (wiring.device reader) ≠ 0

structure ReaderSound (s : State Client Device) (reader : Reader Client) : Prop where
  value_lt : (s.rxNotice reader).value < 0x10000
  suspended : (s.rxNotice reader).suspended = true →
    ∃ timeout code, s.place reader = .inTake timeout code
  notice : (s.notice wiring reader).Sound

def Sound (s : State Client Device) : Prop := ∀ reader, ReaderSound wiring s reader

variable {wiring} {s after : State Client Device}

theorem Initial.sound (init : Initial s) : Sound wiring s := fun reader => {
  value_lt := by simp [init.rxNotice]
  suspended := fun isSuspended => by simp [init.rxNotice] at isSuspended
  notice := .of_working (by simp [State.notice, phaseOf, init.place]) }

theorem Sound.noLostByte (inv : Sound wiring s) : NoLostByte wiring s := by
  rintro reader ⟨⟨timeout, code, place⟩, suspended⟩ none settled
  have waits : (s.notice wiring reader).phase = .waiting := by
    simp [State.notice, phaseOf, place, suspended]
  exact not_not.mp ((inv reader).notice.nothing_stored waits none (not_not_intro settled))

end Claim

section StepLemmas

variable {wiring : Wiring Client Device} {s after : State Client Device}
variable {reader : Reader Client} {tick : Int}

theorem ReaderSound.of_frame (inv : ReaderSound wiring s reader)
    (rxNotice : after.rxNotice reader = s.rxNotice reader)
    (place : after.place reader = s.place reader)
    (moves : Notice.Step (s.notice wiring reader) (after.notice wiring reader)) :
    ReaderSound wiring after reader where
  value_lt := rxNotice ▸ inv.value_lt
  suspended isSuspended := by
    rw [place]
    exact inv.suspended (rxNotice ▸ isSuspended)
  notice := moves.sound inv.notice

theorem ReaderSound.of_working (value_lt : (after.rxNotice reader).value < 0x10000)
    (suspended : (after.rxNotice reader).suspended = false)
    (place : ¬ (after.place reader).IsTaking) : ReaderSound wiring after reader where
  value_lt := value_lt
  suspended isSuspended := by simp [suspended] at isSuspended
  notice := .of_working (by
    simp only [State.notice, phaseOf, suspended]
    cases isPlace : after.place reader with
    | taking timeout =>
      rw [isPlace] at place
      exact absurd trivial place
    | _ => rfl)

section

variable (inv : ReaderSound wiring s reader)

include inv

theorem ReaderSound.not_suspended
    (outside : ∀ timeout code, s.place reader ≠ .inTake timeout code) :
    (s.rxNotice reader).suspended = false := by
  by_contra isSuspended
  obtain ⟨timeout, code, p⟩ := inv.suspended (by simpa using isSuspended)
  exact outside timeout code p

theorem ReaderSound.rtSemRelease
    (kept : (s.place reader).IsTaking → (s.rxNotice reader).value ≠ 0xffff)
    (rxNotice : after.rxNotice reader = (s.rxNotice reader).rtSemRelease)
    (place : after.place reader = s.place reader) : ReaderSound wiring after reader := by
  have value_lt := inv.value_lt
  by_cases isSuspended : (s.rxNotice reader).suspended = true
  · obtain ⟨timeout, code, isPlace⟩ := inv.suspended isSuspended
    refine .of_working ?_ ?_ ?_
    · simp [rxNotice, NoticeSemaphore.rtSemRelease, isSuspended, value_lt]
    · simp [rxNotice, NoticeSemaphore.rtSemRelease, isSuspended]
    · simp [place, isPlace, Place.IsTaking]
  · have counts : (s.rxNotice reader).rtSemRelease =
        { s.rxNotice reader with value := ((s.rxNotice reader).value + 1) % 0x10000 } := by
      simp [NoticeSemaphore.rtSemRelease, isSuspended]
    rw [counts] at rxNotice
    have bounded : (after.rxNotice reader).value < 0x10000 := by
      rw [rxNotice]
      exact Nat.mod_lt _ (by decide)
    by_cases taking : (s.place reader).IsTaking
    · have noWrap := kept taking
      refine ⟨bounded, fun suspended => absurd suspended (by simpa [rxNotice] using isSuspended),
        Notice.Step.sound inv.notice (.keep ?_ ?_ ?_)⟩
      · simp [State.notice, phaseOf, isSuspended]
        split <;> simp
      · simp [State.notice, phaseOf, place, rxNotice]
      · intro _
        simp only [State.notice, rxNotice]
        rw [Nat.mod_eq_of_lt (by omega)]
        exact Nat.succ_ne_zero _
    · exact .of_working bounded (by simpa [rxNotice] using isSuspended) (by simpa [place])

theorem ReaderSound.bystander (rxNotice : after.rxNotice reader = s.rxNotice reader)
    (place : after.place reader = s.place reader) (handlers : after.handlers = s.handlers)
    (unread : after.unread (wiring.device reader) ≠ [] → s.unread (wiring.device reader) ≠ []) :
    ReaderSound wiring after reader :=
  inv.of_frame rxNotice place (.remove (by simp only [State.notice, rxNotice, place])
    (by simp only [State.notice, rxNotice]) unread
    (by simp only [State.notice, handlers, imp_self]))

end

variable [DecidableEq Device]

theorem rxIndicate_self {rxNotice : Reader Client → NoticeSemaphore} {n : Nat}
    (pos : 0 < n) : rxIndicate wiring rxNotice (wiring.device reader) n reader =
      (rxNotice reader).rtSemRelease := by
  cases reader with
  | client idx => simp [rxIndicate, Wiring.device, wiring.ofClient, atClientRxInd, pos]
  | server => simp [rxIndicate, Wiring.device, wiring.ofServer, atRxInd, pos]

theorem rxIndicate_other {rxNotice : Reader Client → NoticeSemaphore} {dev : Device} {n : Nat}
    (other : wiring.device reader ≠ dev) :
    rxIndicate wiring rxNotice dev n reader = rxNotice reader := by
  unfold rxIndicate
  cases isCallback : wiring.rxIndicate dev with
  | atClientRxInd =>
    cases reader with
    | client idx => exact if_neg fun same => other same.1
    | server => rfl
  | atRxInd =>
    cases reader with
    | client idx => rfl
    | server => exact absurd (wiring.onlyServer dev isCallback).symm other

variable [DecidableEq Client]

/-- What a step of `proceed` leaves alone: everything of the other readers. -/
structure Frame (reader : Reader Client) (s after : State Client Device) : Prop where
  handlers : after.handlers = s.handlers
  unread : ∀ dev, after.unread dev ≠ [] → s.unread dev ≠ []
  rxNotice : ∀ other, other ≠ reader → after.rxNotice other = s.rxNotice other
  place : ∀ other, other ≠ reader → after.place other = s.place other

omit [DecidableEq Device] in
theorem frame_taken (timeout : Int) (code : RtErr) :
    Frame reader s (taken s reader timeout code) := by
  unfold taken
  split
  · split
    · exact ⟨rfl, fun _ => id, fun _ _ => rfl, fun _ u => update_of_ne u ..⟩
    · exact ⟨rfl, fun _ => id, fun _ _ => rfl, fun _ u => update_of_ne u ..⟩
  · exact ⟨rfl, fun _ => id, fun _ _ => rfl, fun _ u => update_of_ne u ..⟩

theorem frame_deviceRead (timeout : Int) : Frame reader s (deviceRead wiring s reader timeout) := by
  unfold deviceRead
  split
  · exact ⟨rfl, fun _ => id, fun _ _ => rfl, fun _ u => update_of_ne u ..⟩
  · rename_i ch rest stored
    refine ⟨rfl, fun dev unread => ?_, fun _ _ => rfl, fun _ u => update_of_ne u ..⟩
    by_cases own : dev = wiring.device reader
    · simp [own, stored]
    · simpa [State.return, State.setPlace, own] using unread

omit [DecidableEq Device] in
theorem Frame.setNotice (sem : NoticeSemaphore)
    (frame : Frame reader (s.setNotice reader sem) after) : Frame reader s after where
  handlers := frame.handlers
  unread := frame.unread
  rxNotice other ne := (frame.rxNotice other ne).trans (update_of_ne ne ..)
  place := frame.place

omit [DecidableEq Device] in
theorem frame_setPlace (p : Place) : Frame reader s (s.setPlace reader p) :=
  ⟨rfl, fun _ => id, fun _ _ => rfl, fun _ u => update_of_ne u ..⟩

theorem frame_proceed (proceeded : proceed wiring tick s reader = some after) :
    Frame reader s after := by
  unfold proceed at proceeded
  split at proceeded
  · cases proceeded
  · cases proceeded
    exact frame_deviceRead _
  · cases proceeded
    exact (frame_setPlace _).setNotice
  · split at proceeded
    · cases proceeded
      exact (frame_taken _ _).setNotice
    · cases proceeded
      exact (frame_setPlace _).setNotice
  · obtain ⟨-, ⟨⟩⟩ := Option.ite_none_left_eq_some.mp proceeded
    exact frame_taken _ _

omit [DecidableEq Device] in
theorem taken_working (value_lt : (s.rxNotice reader).value < 0x10000)
    (suspended : (s.rxNotice reader).suspended = false) (timeout : Int) (code : RtErr) :
    ReaderSound wiring (taken s reader timeout code) reader := by
  unfold taken
  split
  · split
    · exact .of_working value_lt suspended (by simp [State.return, State.setPlace, Place.IsTaking])
    · exact .of_working value_lt suspended (by simp [State.setPlace, Place.IsTaking])
  · exact .of_working value_lt suspended (by simp [State.setPlace, Place.IsTaking])

theorem proceed_self (inv : ReaderSound wiring s reader)
    (kept : NoticeKept wiring s (.proceed reader))
    (proceeded : proceed wiring tick s reader = some after) : ReaderSound wiring after reader := by
  have value_lt := inv.value_lt
  have running := inv.not_suspended
  unfold proceed at proceeded
  split at proceeded
  · cases proceeded
  · rename_i timeout place
    cases proceeded
    have notSuspended := running (by simp [place])
    unfold deviceRead
    split
    · exact .of_working value_lt notSuspended (by simp [State.setPlace, Place.IsTaking])
    · exact .of_working value_lt notSuspended
        (by simp [State.return, State.setPlace, Place.IsTaking])
  · rename_i timeout place
    cases proceeded
    refine ⟨?_, ?_, ?_⟩
    · simp [State.setPlace, State.setNotice, NoticeSemaphore.rtSemReset]
    · simp [State.setPlace, State.setNotice, NoticeSemaphore.rtSemReset]
    · exact Notice.Step.sound inv.notice (.forget (kept (by simp [place, Place.IsResetting])) id id)
  · rename_i timeout place
    have notSuspended := running (by simp [place])
    split at proceeded
    · rename_i sem result took
      cases proceeded
      have kind : sem.value < 0x10000 ∧ sem.suspended = false := by
        unfold NoticeSemaphore.rtSemTake at took
        split at took
        · obtain ⟨rfl, -⟩ := Prod.mk.inj took
          exact ⟨by simp only; omega, notSuspended⟩
        · split at took
          · obtain ⟨rfl, -⟩ := Prod.mk.inj took
            exact ⟨value_lt, notSuspended⟩
          · simp at took
      exact taken_working (by simpa [State.setNotice] using kind.1)
        (by simpa [State.setNotice] using kind.2) _ _
    · rename_i sem suspended
      cases proceeded
      have isNone : (s.rxNotice reader).value = 0 ∧
          sem = { s.rxNotice reader with suspended := true } := by
        unfold NoticeSemaphore.rtSemTake at suspended
        split at suspended
        · simp at suspended
        · rename_i none
          split at suspended
          · simp at suspended
          · exact ⟨Nat.eq_zero_of_not_pos none, (Prod.mk.inj suspended).1.symm⟩
      obtain ⟨none, rfl⟩ := isNone
      refine ⟨?_, ?_, Notice.Step.sound inv.notice (.wait ?_ none id id)⟩
      · simpa [State.setPlace, State.setNotice] using value_lt
      · exact fun _ => ⟨timeout, .eok, update_self ..⟩
      · simp [State.notice, phaseOf, place]
  · rename_i timeout code place
    obtain ⟨woken, ⟨⟩⟩ := Option.ite_none_left_eq_some.mp proceeded
    exact taken_working value_lt (by simpa using woken) _ _

section

variable (inv : Sound wiring s)

include inv

theorem arrive_sound {dev : Device} {bytes : List UInt8} {dropped : Nat}
    (arrived : step wiring tick s (.arrive dev bytes dropped) = some after) :
    Sound wiring after := by
  intro reader
  obtain ⟨-, ⟨⟩⟩ := Option.ite_none_right_eq_some.mp arrived
  by_cases own : wiring.device reader = dev
  · refine (inv reader).of_frame rfl rfl (.store rfl rfl ?_)
    simp [State.notice, own]
  · refine (inv reader).of_frame rfl rfl (.remove rfl rfl ?_ ?_)
    · simp [State.notice, own]
    · simp [State.notice, own]

theorem indicate_sound {dev : Device} {n : Nat} (kept : NoticeKept wiring s (.indicate dev n))
    (indicated : step wiring tick s (.indicate dev n) = some after) : Sound wiring after := by
  intro reader
  obtain ⟨called, ⟨⟩⟩ := Option.ite_none_right_eq_some.mp indicated
  by_cases own : wiring.device reader = dev
  · subst own
    exact (inv reader).rtSemRelease (kept reader rfl) (rxIndicate_self called.2) rfl
  · refine (inv reader).of_frame (rxIndicate_other own) rfl (.remove ?_ ?_ id ?_)
    · simp only [State.notice, rxIndicate_other own]
    · simp only [State.notice, rxIndicate_other own]
    · simp [State.notice, own]

theorem getchar_sound {timeout : Int}
    (entered : step wiring tick s (.getchar reader timeout) = some after) : Sound wiring after := by
  intro u
  obtain ⟨outside, ⟨⟩⟩ := Option.ite_none_right_eq_some.mp entered
  by_cases same : u = reader
  · subst same
    refine .of_working (inv u).value_lt ((inv u).not_suspended ?_) ?_
    · simp [outside]
    · simp [State.setPlace, Place.IsTaking]
  · exact (inv u).bystander rfl (update_of_ne same ..) rfl id

theorem proceed_sound (kept : NoticeKept wiring s (.proceed reader))
    (proceeded : proceed wiring tick s reader = some after) : Sound wiring after := by
  intro u
  by_cases same : u = reader
  · subst same
    exact proceed_self (inv u) kept proceeded
  · have frame := frame_proceed proceeded
    exact (inv u).bystander (frame.rxNotice u same) (frame.place u same)
      frame.handlers (frame.unread _)

omit [DecidableEq Device] in
theorem expire_sound (expired : expire tick s reader = some after) : Sound wiring after := by
  intro u
  unfold expire at expired
  split at expired
  · split at expired
    · cases expired
      by_cases same : u = reader
      · subst same
        refine .of_working ?_ ?_ ?_
        · simpa [State.setPlace, State.setNotice, NoticeSemaphore.rtThreadTimeout]
            using (inv u).value_lt
        · simp [State.setPlace, State.setNotice, NoticeSemaphore.rtThreadTimeout]
        · simp [State.setPlace, Place.IsTaking]
      · exact (inv u).bystander (update_of_ne same ..)
          (update_of_ne same ..) rfl id
    · cases expired
  · cases expired

theorem step_sound {e : Event Client Device} (kept : NoticeKept wiring s e)
    (ran : step wiring tick s e = some after) : Sound wiring after := by
  cases e with
  | arrive dev bytes dropped => exact arrive_sound inv ran
  | indicate dev n => exact indicate_sound inv kept ran
  | getchar reader timeout => exact getchar_sound inv ran
  | proceed reader => exact proceed_sound inv kept ran
  | expire reader => exact expire_sound inv ran

end

end StepLemmas

/-- A run whose resets forget no notice leaves no byte behind. -/
theorem bytes_noticed [DecidableEq Client] [DecidableEq Device] {wiring : Wiring Client Device}
    {tickPerSecond : Int} {taken : List (Taken (State Client Device) (Event Client Device))}
    {last : State Client Device} (run : (system wiring tickPerSecond).Run taken last)
    (kept : EveryStep (NoticeKept wiring) taken) : Throughout (NoLostByte wiring) taken last :=
  (run.throughout_of_everyStep (fun _ => Initial.sound)
    (fun _ _ _ inv kept ran => step_sound inv kept ran) kept).imp
    fun _ => Sound.noLostByte

section Decidability

instance : (place : Place) → Decidable place.IsTaking
  | .taking _ => .isTrue trivial
  | .outside | .reading _ | .resetting _ | .inTake _ _ => inferInstanceAs (Decidable False)

instance : (place : Place) → Decidable place.IsResetting
  | .resetting _ => .isTrue trivial
  | .outside | .reading _ | .taking _ | .inTake _ _ => inferInstanceAs (Decidable False)

theorem forall_reader_iff {holds : Reader Client → Prop} :
    (∀ reader, holds reader) ↔ (∀ idx, holds (.client idx)) ∧ holds .server :=
  ⟨fun all => ⟨fun idx => all _, all _⟩, fun both reader => by
    cases reader with
    | client idx => exact both.1 idx
    | server => exact both.2⟩

instance [Fintype Client] (holds : Reader Client → Prop) [DecidablePred holds] :
    Decidable (∀ reader, holds reader) :=
  decidable_of_iff _ forall_reader_iff.symm

instance [Fintype Client] [DecidableEq Device] (wiring : Wiring Client Device)
    (s : State Client Device) :
    (e : Event Client Device) → Decidable (NoticeKept wiring s e)
  | .indicate dev _ => inferInstanceAs (Decidable (∀ _, _))
  | .proceed _ => instDecidableForall
  | .arrive _ _ _ | .getchar _ _ | .expire _ => .isTrue trivial

end Decidability

def twoDevices : Wiring Unit Bool where
  clientDevice := fun _ => true
  serverDevice := false
  rxIndicate := fun dev => if dev then .atClientRxInd else .atRxInd
  ofClient := fun _ => rfl
  ofServer := rfl
  onlyServer := by decide

def idle : State Unit Bool where
  unread := fun _ => []
  handlers := fun _ => 0
  rxNotice := fun _ => ⟨0, false⟩
  place := fun _ => .outside
  returned := fun _ => .error .eok

def awaitedByte : List (Event Unit Bool) :=
  [.getchar .server 0, .proceed .server, .proceed .server, .proceed .server,
    .arrive false [65] 0, .indicate false 1, .proceed .server, .proceed .server]

theorem awaited_byte_noticed : ∃ last, execute (step twoDevices 1000) idle awaitedByte = some last ∧
      Throughout (NoLostByte twoDevices) (record (step twoDevices 1000) [] idle awaitedByte)
        last := by
  have isSome : (execute (step twoDevices 1000) idle awaitedByte).isSome := by decide +kernel
  have executed := (Option.some_get isSome).symm
  have run : (system twoDevices 1000).Run (record (step twoDevices 1000) [] idle awaitedByte) _ :=
    .execute (.start ⟨fun _ => rfl, fun _ => rfl⟩) executed
  exact ⟨_, executed, bytes_noticed run (by decide +kernel)⟩

def lastByte : List (Event Unit Bool) :=
  [.getchar (.client ()) 1000, .proceed (.client ()), .arrive true [10] 0, .indicate true 1,
    .proceed (.client ()), .proceed (.client ())]

def missed : State Unit Bool :=
  (execute (step twoDevices 1000) idle lastByte).get (by decide +kernel)

theorem last_byte_missed :
    ¬ ∀ (taken : List (Taken (State Unit Bool) (Event Unit Bool))) (last : State Unit Bool),
      (system twoDevices 1000).Run taken last → Throughout (NoLostByte twoDevices) taken last := by
  intro claim
  have run : (system twoDevices 1000).Run (record (step twoDevices 1000) [] idle lastByte) missed :=
    .execute (.start ⟨fun _ => rfl, fun _ => rfl⟩) (Option.some_get _).symm
  have blocked : missed.Blocked (.client ()) := ⟨⟨1000, .eok, by decide +kernel⟩, by decide +kernel⟩
  have none := (claim _ _ run).1 (.client ()) blocked (by decide +kernel) (by decide +kernel)
  exact absurd none (by decide +kernel)

end RtThread.At.RxNotice
