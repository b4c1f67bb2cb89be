import RtThread.At.SocketTable

/-!
# The byte stream of an AT socket

Any number of threads call `at_recvfrom` on a connected socket, while the device reports
data and the close.  The notifications and the calls are interleaved between any two
accesses to the socket; only what runs under `recv_lock` is one step.
-/

namespace RtThread.At

open TransitionSystem

variable {Tid : Type} [DecidableEq Tid]

/-- Where a thread is in `at_recvfrom`.  The wait is timed where the socket has a receive
timeout. -/
inductive RecvPhase
  | outside
  | recvpktGet (len : Nat) (dontwait : Bool)
  | closedTest (len : Nat) (dontwait : Bool)
  | connectTest (len : Nat) (dontwait : Bool)
  | semTake (len : Nat) (timed : Bool)
  | asleep (len : Nat) (timed : Bool)
  | woken (len : Nat) (timed : Bool)
  | recvpktGetAgain (len : Nat) (timed : Bool)
  | returned (result : Int) (mem : List UInt8)
  deriving DecidableEq

def RecvPhase.Free : RecvPhase → Prop
  | .outside | .returned _ _ => True
  | _ => False

/-- A socket and the calls on it.  `pending` counts the notifications that have not released
the semaphore yet; `value` is a `rt_uint16_t`.  The last three fields record the bytes of the
notifications, the bytes handed to the callers, in the order they leave the receive list, and
how many bytes had been delivered when the peer closed. -/
structure Stream (Tid : Type) where
  state : AtSocketState
  recvTimeout : Int
  recvpktList : List AtRecvPkt
  value : Nat
  suspended : List Tid
  pending : Nat
  phase : Tid → RecvPhase
  delivered : List UInt8
  received : List UInt8
  closedAt : Option Nat

inductive StreamEvent (Tid : Type)
  | recvNotice (buff : List UInt8) (nonempty : 0 < buff.length)
  | closedNotice
  | release
  | recvfrom (t : Tid) (len : Nat) (positive : 0 < len) (dontwait : Bool)
  | proceed (t : Tid)
  | timeout (t : Tid)

namespace Stream

def setPhase (stream : Stream Tid) (t : Tid) (phase : RecvPhase) : Stream Tid :=
  { stream with phase := Function.update stream.phase t phase }

/-- The return of `at_recvfrom`: the bytes copied, if any, make the result. -/
def exit (stream : Stream Tid) (t : Tid) (result : Int) (mem : List UInt8) : Stream Tid :=
  let result := if 0 < mem.length then (mem.length : Int) else result
  stream.setPhase t (.returned result mem)

/-- `at_recvpkt_get` under the lock: out with the bytes, or on to the next phase without. -/
def recvpktGet (stream : Stream Tid) (t : Tid) (len : Nat) (otherwise : RecvPhase) :
    Stream Tid :=
  let got := atRecvpktGet stream.recvpktList len
  let after := { stream with recvpktList := got.2, received := stream.received ++ got.1 }
  if 0 < got.1.length then after.exit t 0 got.1 else after.setPhase t otherwise

def semRelease (stream : Stream Tid) : Stream Tid :=
  match stream.suspended with
  | [] => { stream with value := (stream.value + 1) % 2 ^ 16 }
  | t :: suspended =>
    match stream.phase t with
    | .asleep len timed => { stream with suspended }.setPhase t (.woken len timed)
    | _ => { stream with suspended }

def proceed (stream : Stream Tid) (t : Tid) : Option (Stream Tid) :=
  match stream.phase t with
  | .outside | .asleep _ _ | .returned _ _ => none
  | .recvpktGet len dontwait => some (stream.recvpktGet t len (.closedTest len dontwait))
  | .closedTest len dontwait =>
    some (if stream.state = .closed then stream.exit t 0 []
      else stream.setPhase t (.connectTest len dontwait))
  | .connectTest len dontwait =>
    some (if stream.state ≠ .connect then stream.exit t (-1) []
      else if dontwait then stream.exit t 0 []
      else stream.setPhase t (.semTake len (decide (0 < stream.recvTimeout))))
  | .semTake len timed =>
    some (if 0 < stream.value then
        { stream with value := stream.value - 1 }.setPhase t (.woken len timed)
      else
        { stream with suspended := stream.suspended ++ [t] }.setPhase t (.asleep len timed))
  | .woken len timed =>
    some (if stream.state = .connect then stream.setPhase t (.recvpktGetAgain len timed)
      else stream.exit t 0 [])
  | .recvpktGetAgain len timed => some (stream.recvpktGet t len (.semTake len timed))

def step (stream : Stream Tid) : StreamEvent Tid → Option (Stream Tid)
  | .recvNotice buff nonempty =>
    some { stream with
      recvpktList := atRecvpktPut stream.recvpktList buff nonempty
      pending := stream.pending + 1
      delivered := stream.delivered ++ buff }
  | .closedNotice =>
    some { stream with
      state := .closed
      pending := stream.pending + 1
      closedAt := stream.closedAt.or (some stream.delivered.length) }
  | .release =>
    if 0 < stream.pending then some { stream with pending := stream.pending - 1 }.semRelease
    else none
  | .recvfrom t len _ dontwait =>
    match stream.phase t with
    | .outside | .returned _ _ => some (stream.setPhase t (.recvpktGet len dontwait))
    | _ => none
  | .proceed t => stream.proceed t
  | .timeout t =>
    match stream.phase t with
    | .asleep _ true =>
      some ({ stream with suspended := stream.suspended.filter (· ≠ t) }.exit t (-1) [])
    | _ => none

def Initial (stream : Stream Tid) : Prop :=
  stream.state = .connect ∧ stream.recvpktList = [] ∧ stream.suspended = [] ∧
    stream.pending = 0 ∧ (∀ t, stream.phase t = .outside) ∧ stream.delivered = [] ∧
    stream.received = [] ∧ stream.closedAt = none

def system (Tid : Type) [DecidableEq Tid] : TransitionSystem (Stream Tid) (StreamEvent Tid) :=
  ofFunction Initial step

def oneCall (t : Tid) (len : Nat) (positive : 0 < len) (dontwait : Bool) :
    List (StreamEvent Tid) :=
  [.recvfrom t len positive dontwait, .proceed t]

/-- The stream is delivered in order, further calls deliver all of it, and a result of 0 marks
its end. -/
structure Faithful (stream : Stream Tid) : Prop where
  inOrder : stream.received <+: stream.delivered
  eventually : ∀ t, (stream.phase t).Free → ∀ len, ∀ positive : 0 < len, ∀ dontwait,
    ∃ count after, execute step stream
        (List.replicate count (oneCall t len positive dontwait)).flatten = some after ∧
      after.received = stream.delivered
  endOfStream : ∀ t mem, stream.phase t = .returned 0 mem → stream.state = .closed ∧
    ∃ count ∈ stream.closedAt, count ≤ stream.received.length

def Drained (stream : Stream Tid) : Prop :=
  ∀ count ∈ stream.closedAt, count ≤ stream.received.length

instance (stream : Stream Tid) : Decidable stream.Drained := by
  unfold Drained
  cases stream.closedAt with
  | none => exact isTrue nofun
  | some count =>
    exact decidable_of_iff (count ≤ stream.received.length) (by simp)

/-- A call finds the socket closed only when all that came before the close has been received,
and a call that must not wait does not find the connection open with nothing to read. -/
def Timely (stream : Stream Tid) : StreamEvent Tid → Prop
  | .proceed t =>
    match stream.phase t with
    | .closedTest _ _ => stream.state = .closed → stream.Drained
    | .connectTest _ dontwait => stream.state = .connect → dontwait = false
    | .woken _ _ => stream.state = .closed → stream.Drained
    | _ => True
  | _ => True

instance (stream : Stream Tid) (e : StreamEvent Tid) : Decidable (stream.Timely e) := by
  cases e <;> unfold Timely
  case proceed t => dsimp only; split <;> infer_instance
  all_goals infer_instance

/-- The bytes received and those still in the list are the bytes delivered, and the time of the
close is known. -/
structure Sound (stream : Stream Tid) : Prop where
  conserved : stream.received ++ content stream.recvpktList = stream.delivered
  state : stream.state = .connect ∧ stream.closedAt = none ∨
    stream.state = .closed ∧ stream.closedAt.isSome

def Ended (stream : Stream Tid) : Prop :=
  stream.state = .closed ∧ ∃ count ∈ stream.closedAt, count ≤ stream.received.length

structure Grown (before after : Stream Tid) : Prop where
  closed : before.state = .closed → after.state = .closed
  closedAt : ∀ count ∈ before.closedAt, count ∈ after.closedAt
  received : before.received.length ≤ after.received.length

variable {stream after : Stream Tid} {t : Tid}

section

omit [DecidableEq Tid]

theorem Initial.sound (initial : Initial stream) : stream.Sound := by
  obtain ⟨connected, none, -, -, -, delivered, received, notZero⟩ := initial
  exact ⟨by simp [none, delivered, received], .inl ⟨connected, notZero⟩⟩

theorem Grown.ended (grown : Grown stream after) (ended : stream.Ended) : after.Ended := by
  obtain ⟨closed, n, isCount, received⟩ := ended
  exact ⟨grown.closed closed, n, grown.closedAt n isCount, Nat.le_trans received grown.received⟩

theorem Sound.ended_iff (sound : stream.Sound) (closed : stream.state = .closed) :
    stream.Ended ↔ stream.Drained := by
  rcases sound.state with ⟨connected, -⟩ | ⟨-, known⟩
  · rw [connected] at closed
    exact nomatch closed
  · obtain ⟨n, isCount⟩ := Option.isSome_iff_exists.mp known
    simp [Ended, Drained, closed, isCount]

end

theorem phase_exit_self (r : Int) : (stream.exit t r []).phase t = .returned r [] := by
  simp [exit, setPhase]

theorem phase_setPhase_ne {phase : RecvPhase} (notZero : ∀ mem, phase ≠ .returned 0 mem)
    (mem : List UInt8) : (stream.setPhase t phase).phase t ≠ .returned 0 mem := by
  simpa [setPhase] using notZero mem

theorem phase_setPhase_of_ne {phase : RecvPhase} {u : Tid} (isOther : u ≠ t) :
    (stream.setPhase t phase).phase u = stream.phase u := by
  simp [setPhase, isOther]

section Get

variable {len : Nat} {otherwise : RecvPhase}

theorem received_recvpktGet : (stream.recvpktGet t len otherwise).received =
      stream.received ++ (content stream.recvpktList).take len := by
  rw [← (atRecvpktGet_spec stream.recvpktList len).1]
  simp only [recvpktGet]
  split_ifs <;> rfl

theorem content_recvpktGet : content (stream.recvpktGet t len otherwise).recvpktList =
      (content stream.recvpktList).drop len := by
  rw [← (atRecvpktGet_spec stream.recvpktList len).2]
  simp only [recvpktGet]
  split_ifs <;> rfl

theorem recvpktGet_frame : (stream.recvpktGet t len otherwise).state = stream.state ∧
      (stream.recvpktGet t len otherwise).closedAt = stream.closedAt ∧
      (stream.recvpktGet t len otherwise).delivered = stream.delivered := by
  simp only [recvpktGet]
  split_ifs <;> exact ⟨rfl, rfl, rfl⟩

theorem phase_recvpktGet_ne (notZero : ∀ mem, otherwise ≠ .returned 0 mem) (mem : List UInt8) :
    (stream.recvpktGet t len otherwise).phase t ≠ .returned 0 mem := by
  simp only [recvpktGet]
  split_ifs with some
  · simp only [exit]
    refine phase_setPhase_ne (fun mem isZero => ?_) mem
    have := (RecvPhase.returned.inj isZero).1
    omega
  · exact phase_setPhase_ne notZero mem

theorem phase_recvpktGet_of_ne {u : Tid} (isOther : u ≠ t) :
    (stream.recvpktGet t len otherwise).phase u = stream.phase u := by
  simp only [recvpktGet]
  split_ifs <;> exact phase_setPhase_of_ne isOther

theorem Sound.recvpktGet (sound : stream.Sound) : (stream.recvpktGet t len otherwise).Sound := by
  obtain ⟨state, closedAt, delivered⟩ := @recvpktGet_frame _ _ stream t len otherwise
  refine ⟨?_, by rw [state, closedAt]; exact sound.state⟩
  rw [received_recvpktGet, content_recvpktGet, delivered, List.append_assoc,
    List.take_append_drop, sound.conserved]

theorem grown_recvpktGet : Grown stream (stream.recvpktGet t len otherwise) := by
  obtain ⟨state, closedAt, -⟩ := @recvpktGet_frame _ _ stream t len otherwise
  refine ⟨fun closed => state.trans closed, fun n isCount => closedAt ▸ isCount, ?_⟩
  rw [received_recvpktGet, List.length_append]
  exact Nat.le_add_right _ _

end Get

structure Idle (stream : Stream Tid) (t : Tid) (after : Stream Tid) : Prop where
  received : after.received = stream.received
  recvpktList : after.recvpktList = stream.recvpktList
  delivered : after.delivered = stream.delivered
  state : after.state = stream.state
  closedAt : after.closedAt = stream.closedAt
  others : ∀ u, u ≠ t → after.phase u = stream.phase u

theorem idle_setPhase (phase : RecvPhase) : Idle stream t (stream.setPhase t phase) :=
  ⟨rfl, rfl, rfl, rfl, rfl, fun _ isOther => phase_setPhase_of_ne isOther⟩

section

omit [DecidableEq Tid]

theorem Idle.sound (idle : Idle stream t after) (sound : stream.Sound) : after.Sound :=
  ⟨by rw [idle.received, idle.recvpktList, idle.delivered, sound.conserved],
    by rw [idle.state, idle.closedAt]; exact sound.state⟩

theorem Idle.grown (idle : Idle stream t after) : Grown stream after :=
  ⟨fun closed => idle.state.trans closed, fun _ isCount => idle.closedAt ▸ isCount,
    Nat.le_of_eq (by rw [idle.received])⟩

theorem Idle.ended_iff (idle : Idle stream t after) : after.Ended ↔ stream.Ended := by
  simp only [Ended, idle.state, idle.closedAt, idle.received]

end

inductive Proceeded (stream : Stream Tid) (t : Tid) (after : Stream Tid) : Prop
  | on :
      after.Sound → Grown stream after → (∀ mem, after.phase t ≠ .returned 0 mem) →
      (∀ u, u ≠ t → after.phase u = stream.phase u) →
      stream.Timely (.proceed t) → Proceeded stream t after
  | zero :
      Idle stream t after → after.phase t = .returned 0 [] →
      (stream.Timely (.proceed t) ↔ stream.Ended) → Proceeded stream t after

theorem Sound.proceed (sound : stream.Sound) (step : stream.proceed t = some after) :
    Proceeded stream t after := by
  unfold Stream.proceed at step
  split at step
  case h_1 | h_2 | h_3 => exact nomatch step
  case h_4 len dontwait isPhase =>
    cases step
    refine .on sound.recvpktGet grown_recvpktGet (phase_recvpktGet_ne nofun)
      (fun _ => phase_recvpktGet_of_ne) ?_
    simp only [Timely, isPhase]
  case h_5 len dontwait isPhase =>
    cases step
    split_ifs with closed
    · refine .zero (idle_setPhase _) (phase_exit_self 0) ?_
      simp only [Timely, isPhase, closed, true_imp_iff]
      exact (sound.ended_iff closed).symm
    · refine .on ((idle_setPhase _).sound sound) (idle_setPhase _).grown (phase_setPhase_ne nofun)
        (idle_setPhase _).others ?_
      simp only [Timely, isPhase, closed, false_imp_iff]
  case h_6 len dontwait isPhase =>
    cases step
    split_ifs with notConnected atOnce
    · refine .on ((idle_setPhase _).sound sound) (idle_setPhase _).grown (fun mem => ?_)
        (idle_setPhase _).others ?_
      · rw [phase_exit_self]
        simp
      · simp only [Timely, isPhase, notConnected, false_imp_iff]
    · have connected : stream.state = .connect := by simpa using notConnected
      refine .zero (idle_setPhase _) (phase_exit_self 0) ?_
      simp [Timely, isPhase, connected, atOnce, Ended]
    · refine .on ((idle_setPhase _).sound sound) (idle_setPhase _).grown (phase_setPhase_ne nofun)
        (idle_setPhase _).others ?_
      simp [Timely, isPhase, atOnce]
  case h_7 len timed isPhase =>
    cases step
    have timely : stream.Timely (.proceed t) := by simp only [Timely, isPhase]
    split_ifs with token
    · exact .on ⟨sound.conserved, sound.state⟩ ⟨id, fun _ => id, Nat.le_refl _⟩
        (phase_setPhase_ne nofun) (fun _ => phase_setPhase_of_ne) timely
    · exact .on ⟨sound.conserved, sound.state⟩ ⟨id, fun _ => id, Nat.le_refl _⟩
        (phase_setPhase_ne nofun) (fun _ => phase_setPhase_of_ne) timely
  case h_8 len timed isPhase =>
    cases step
    split_ifs with connected
    · refine .on ((idle_setPhase _).sound sound) (idle_setPhase _).grown (phase_setPhase_ne nofun)
        (idle_setPhase _).others ?_
      simp [Timely, isPhase, connected]
    · have closed : stream.state = .closed :=
        (sound.state.resolve_left fun still => connected still.1).1
      refine .zero (idle_setPhase _) (phase_exit_self 0) ?_
      simp only [Timely, isPhase, closed, true_imp_iff]
      exact (sound.ended_iff closed).symm
  case h_9 len timed isPhase =>
    cases step
    refine .on sound.recvpktGet grown_recvpktGet (phase_recvpktGet_ne nofun)
      (fun _ => phase_recvpktGet_of_ne) ?_
    simp only [Timely, isPhase]

structure Kept (stream after : Stream Tid) : Prop where
  sound : after.Sound
  grown : Grown stream after
  phase : ∀ t mem, after.phase t = .returned 0 mem → stream.phase t = .returned 0 mem

section

variable (sound : stream.Sound)

include sound

theorem Sound.setPhase_kept {phase : RecvPhase} (notZero : ∀ mem, phase ≠ .returned 0 mem) :
    Kept stream (stream.setPhase t phase) := by
  refine ⟨(idle_setPhase phase).sound sound, (idle_setPhase phase).grown, fun u mem isZero => ?_⟩
  by_cases isOther : u = t
  · subst isOther
    exact absurd isZero (phase_setPhase_ne notZero mem)
  · rwa [phase_setPhase_of_ne isOther] at isZero

omit [DecidableEq Tid] in
theorem Sound.recvNotice_kept (buff : List UInt8) (nonempty : 0 < buff.length) (pending : Nat) :
    Kept stream
      { stream with
        recvpktList := atRecvpktPut stream.recvpktList buff nonempty, pending
        delivered := stream.delivered ++ buff } := by
  refine ⟨⟨?_, sound.state⟩, ⟨id, fun _ => id, Nat.le_refl _⟩, fun _ _ => id⟩
  simp only [content_atRecvpktPut]
  rw [← List.append_assoc, sound.conserved]

omit [DecidableEq Tid] in
theorem Sound.closedNotice_kept (pending : Nat) : Kept stream
      { stream with
        state := .closed, pending
        closedAt := stream.closedAt.or (some stream.delivered.length) } := by
  refine ⟨⟨sound.conserved, .inr ⟨rfl, by simp⟩⟩, ⟨fun _ => rfl, fun n isCount => ?_,
    Nat.le_refl _⟩, fun _ _ => id⟩
  rw [Option.mem_def] at isCount
  simp [isCount]

theorem Sound.semRelease_kept (pending : Nat) : Kept stream { stream with pending }.semRelease := by
  unfold semRelease
  split
  · exact ⟨⟨sound.conserved, sound.state⟩, ⟨id, fun _ => id, Nat.le_refl _⟩, fun _ _ => id⟩
  · rename_i t suspended isSuspended
    have popped : Sound { stream with pending, suspended } := ⟨sound.conserved, sound.state⟩
    split
    · obtain ⟨sound, ⟨closed, closedAt, received⟩, phase⟩ :=
        @Sound.setPhase_kept _ _ _ t popped (.woken _ _) nofun
      exact ⟨sound, ⟨closed, closedAt, received⟩, phase⟩
    · exact ⟨popped, ⟨id, fun _ => id, Nat.le_refl _⟩, fun _ _ => id⟩

variable {e : StreamEvent Tid}

theorem Sound.step (step : stream.step e = some after) :
    (∃ t, e = .proceed t ∧ Proceeded stream t after) ∨ Kept stream after ∧ stream.Timely e := by
  cases e with
  | recvNotice buff nonempty =>
    cases step
    exact .inr ⟨sound.recvNotice_kept buff nonempty _, trivial⟩
  | closedNotice =>
    cases step
    exact .inr ⟨sound.closedNotice_kept _, trivial⟩
  | release =>
    obtain ⟨-, isAfter⟩ := Option.ite_none_right_eq_some.mp step
    cases isAfter
    exact .inr ⟨sound.semRelease_kept _, trivial⟩
  | recvfrom t len pos dontwait =>
    refine .inr ⟨?_, trivial⟩
    simp only [Stream.step] at step
    split at step
    · cases step
      exact sound.setPhase_kept nofun
    · cases step
      exact sound.setPhase_kept nofun
    · exact nomatch step
  | proceed t => exact .inl ⟨t, rfl, sound.proceed step⟩
  | timeout t =>
    refine .inr ⟨?_, trivial⟩
    simp only [Stream.step] at step
    split at step
    · cases step
      have popped : Sound { stream with suspended := stream.suspended.filter (· ≠ t) } :=
        ⟨sound.conserved, sound.state⟩
      obtain ⟨sound, ⟨closed, closedAt, received⟩, phase⟩ :=
        @Sound.setPhase_kept _ _ _ t popped (.returned (-1) []) (by simp)
      exact ⟨sound, ⟨closed, closedAt, received⟩, phase⟩
    · exact nomatch step

theorem Sound.preserved (step : stream.step e = some after) : after.Sound := by
  rcases sound.step step with ⟨t, -, on | zero⟩ | ⟨kept, -⟩
  · assumption
  · exact Idle.sound (by assumption) sound
  · exact kept.sound

end

section Eventually

theorem execute_oneCall {len : Nat} (pos : 0 < len) (dontwait : Bool)
    (free : (stream.phase t).Free) (nonempty : content stream.recvpktList ≠ []) :
    ∃ after, execute step stream (oneCall t len pos dontwait) = some after ∧ (after.phase t).Free ∧
      after.received = stream.received ++ (content stream.recvpktList).take len ∧
      content after.recvpktList = (content stream.recvpktList).drop len := by
  have called : stream.step (.recvfrom t len pos dontwait) =
      some (stream.setPhase t (.recvpktGet len dontwait)) := by
    simp only [Stream.step]
    split
    · rfl
    · rfl
    · rename_i notOutside notReturned
      cases phase : stream.phase t with
      | outside => exact absurd phase notOutside
      | returned r mem => exact absurd phase (notReturned r mem)
      | _ => simp [RecvPhase.Free] at free
  have isEntered : (stream.setPhase t (.recvpktGet len dontwait)).phase t =
      .recvpktGet len dontwait := by
    simp [setPhase]
  have proceeded : (stream.setPhase t (.recvpktGet len dontwait)).step (.proceed t) =
      some ((stream.setPhase t (.recvpktGet len dontwait)).recvpktGet t len
        (.closedTest len dontwait)) := by
    simp only [Stream.step, Stream.proceed, isEntered]
  have executed : execute step stream (oneCall t len pos dontwait) =
      some ((stream.setPhase t (.recvpktGet len dontwait)).recvpktGet t len
        (.closedTest len dontwait)) := by
    simp only [oneCall, execute, called, proceeded, Option.bind_some]
  refine ⟨_, executed, ?_, @received_recvpktGet _ _ (stream.setPhase t _) t len _,
    @content_recvpktGet _ _ (stream.setPhase t _) t len _⟩
  have got : 0 < (atRecvpktGet stream.recvpktList len).1.length := by
    have : (content stream.recvpktList).length ≠ 0 := by simpa using nonempty
    rw [(atRecvpktGet_spec stream.recvpktList len).1, List.length_take]
    omega
  simp [Stream.recvpktGet, got, Stream.exit, setPhase, RecvPhase.Free]

theorem execute_calls {len : Nat} (pos : 0 < len) (dontwait : Bool) (free : (stream.phase t).Free) :
    ∃ n after, execute step stream
        (List.replicate n (oneCall t len pos dontwait)).flatten = some after ∧
      after.received = stream.received ++ content stream.recvpktList := by
  induction size : (content stream.recvpktList).length using Nat.strong_induction_on
    generalizing stream with
  | _ left ih =>
    by_cases none : content stream.recvpktList = []
    · exact ⟨0, stream, rfl, by simp [none]⟩
    · obtain ⟨next, called, nextFree, received, rest⟩ := execute_oneCall pos dontwait free none
      have shorter : (content next.recvpktList).length < left := by
        have : (content stream.recvpktList).length ≠ 0 := by simpa using none
        rw [rest, List.length_drop]
        omega
      obtain ⟨n, after, executed, all⟩ := ih _ shorter nextFree rfl
      refine ⟨n + 1, after, ?_, ?_⟩
      · rw [List.replicate_succ, List.flatten_cons, execute_append, called]
        exact executed
      · rw [all, received, rest, List.append_assoc, List.take_append_drop]

end Eventually

theorem Sound.faithful_iff (sound : stream.Sound) :
    stream.Faithful ↔ ∀ t mem, stream.phase t = .returned 0 mem → stream.Ended := by
  refine ⟨fun faithful => faithful.endOfStream, fun ends => ⟨?_, ?_, ends⟩⟩
  · exact ⟨_, sound.conserved⟩
  · intro t free len pos dontwait
    obtain ⟨n, after, executed, all⟩ := execute_calls pos dontwait free
    exact ⟨n, after, executed, all.trans sound.conserved⟩

theorem Faithful.step_iff {e : StreamEvent Tid} (sound : stream.Sound) (faithful : stream.Faithful)
    (step : stream.step e = some after) : after.Faithful ↔ stream.Timely e := by
  have ends := sound.faithful_iff.mp faithful
  rw [(sound.preserved step).faithful_iff]
  rcases sound.step step with ⟨t, rfl, proceeded⟩ | ⟨kept, timely⟩
  · cases proceeded with
    | on _ grown notZero others timely =>
      refine iff_of_true (fun u mem isZero => ?_) timely
      by_cases isOther : u = t
      · subst isOther
        exact absurd isZero (notZero mem)
      · rw [others u isOther] at isZero
        exact grown.ended (ends u mem isZero)
    | zero idle isZero timely =>
      rw [timely, ← idle.ended_iff]
      refine ⟨fun ends => ends t [] isZero, fun ended _ _ _ => ended⟩
  · exact iff_of_true
      (fun t mem isZero => kept.grown.ended (ends t mem (kept.phase t mem isZero))) timely

end Stream

/-- The byte stream is faithful in every state of a run exactly if all its steps are timely. -/
theorem stream_faithful_iff {taken : List (Taken (Stream Tid) (StreamEvent Tid))}
    {last : Stream Tid} (run : (Stream.system Tid).Run taken last) :
    Throughout Stream.Faithful taken last ↔ EveryStep Stream.Timely taken := by
  refine run.throughout_iff_everyStep (fun _ initial => Stream.Initial.sound initial)
    (fun _ _ _ sound step => Stream.Sound.preserved sound step)
    (fun state initial => (Stream.Initial.sound initial).faithful_iff.mpr ?_)
    (fun _ _ _ sound faithful step => Stream.Faithful.step_iff sound faithful step)
  intro t mem isZero
  obtain ⟨-, -, -, -, outside, -⟩ := initial
  simp [outside t] at isZero

def connected : Stream (Fin 2) :=
  ⟨.connect, 0, [], 0, [], 0, fun _ => .outside, [], [], none⟩

theorem connected_initial : connected.Initial := ⟨rfl, rfl, rfl, rfl, fun _ => rfl, rfl, rfl, rfl⟩

theorem awaited_stream_faithful :
    ∃ taken, ∃ last : Stream (Fin 2), (Stream.system (Fin 2)).Run taken last ∧
      last.received = [1, 2, 3] ∧ last.phase 0 = .returned 0 [] ∧
      Throughout Stream.Faithful taken last := by
  let events : List (StreamEvent (Fin 2)) :=
    [.recvfrom 0 2 (by decide) false, .proceed 0, .proceed 0, .proceed 0, .proceed 0,
      .recvNotice [1, 2, 3] (by decide), .release, .proceed 0, .proceed 0,
      .recvfrom 0 2 (by decide) false, .proceed 0, .closedNotice, .release,
      .recvfrom 0 2 (by decide) true, .proceed 0, .proceed 0]
  have run : (Stream.system (Fin 2)).Run _ _ :=
    .executed connected events connected_initial (by decide +kernel)
  exact ⟨_, _, run, by decide +kernel, by decide +kernel,
    (stream_faithful_iff run).mpr (by decide +kernel)⟩

/-- A thread that is about to wait gets data and the close before it runs on: it finds the
socket closed and returns 0, with the data still in the list. -/
theorem data_before_close_missed :
    ¬ ∀ taken, ∀ last : Stream (Fin 2), (Stream.system (Fin 2)).Run taken last →
      Throughout Stream.Faithful taken last := by
  intro claim
  let events : List (StreamEvent (Fin 2)) :=
    [.recvfrom 0 2 (by decide) false, .proceed 0, .proceed 0, .proceed 0, .proceed 0,
      .recvNotice [1, 2, 3] (by decide), .release, .closedNotice, .release, .proceed 0]
  have run : (Stream.system (Fin 2)).Run _ _ :=
    .executed connected events connected_initial (by decide +kernel)
  obtain ⟨-, n, isCount, received⟩ := (claim _ _ run).1.endOfStream 0 [] (by decide +kernel)
  have three : n = 3 := (Option.some.inj isCount).symm
  subst three
  exact absurd received (by decide +kernel)

end RtThread.At
