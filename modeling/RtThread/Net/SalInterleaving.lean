import RtThread.Net.SalThreads
import RtThread.Net.SalEffects
import Mathlib.Data.Fintype.Basic

/-!
# Sockets of several threads

`Sound` says that the sockets in use are those whose object has a network interface, and that each
entry that a thread is filling is filled by this thread alone.
-/

open Function (update_self update_eq_self)
open TransitionSystem

namespace RtThread.Sal

variable {Dev : Type} {Tid : Type}

section Conditions

variable [DecidableEq Tid] [DecidableEq Dev] (providers : Providers Dev)

def Unleaked (world : World Dev) : Prop :=
  ∀ i ref sock, world.table.object i = some (ref, sock) → sock.netdev ≠ none →
    ((i : Int), ref) ∈ world.live

/-- Everything behind `socket_init` goes well. -/
def Completes (opening : Opening) (sock : SalSocket Dev) : Prop :=
  (netdevSocketopsValid providers sock.netdev .socket).isValid = true ∧ 0 ≤ opening.protoSocket ∧
    (sockopsProtoTlsValid providers sock (·.socket) = true → opening.tls.isSome)

instance (opening : Opening) (sock : SalSocket Dev) :
    Decidable (Completes providers opening sock) :=
  inferInstanceAs (Decidable (_ ∧ _ ∧ _))

/-- `sal_socket` succeeds once it has an entry. -/
def Usable (network : Network Dev) (domain type protocol : Int) (opening : Opening) : Prop :=
  ∀ sock, (socketInit providers network domain type protocol sock).2 = 0 ∧
    Completes providers opening (socketInit providers network domain type protocol sock).1

/-- One call of `sal_socket` that is not interrupted. -/
def creation (t : Tid) (domain type protocol : Int) (opening : Opening) (ref : Nat) :
    List (Event Tid Dev) :=
  [.socketNew t domain type protocol ⟨true, some ref⟩, .salSocket t opening]

def Reopens (s : State Tid Dev) : Prop :=
  s.world.crash = none → s.world.live = [] → (∀ t, s.calls t = none) →
    ∀ (t : Tid) (domain type protocol : Int) (opening : Opening),
      Usable providers s.world.network domain type protocol opening →
      ∃ (refs : List Nat) (last : State Tid Dev), refs.length = salSocketsNum ∧
        execute (step providers) s
          (refs.flatMap (creation t domain type protocol opening)) = some last ∧
        last.world.live.length = salSocketsNum

structure Correct (s : State Tid Dev) : Prop where
  separate : Separate s.world.live
  unleaked : Unleaked s.world
  noEmptySlot : s.world.crash ≠ some .emptySlot
  reopens : Reopens providers s

/-- A lookup touches no empty slot, and finds nothing but sockets in use. -/
def LooksUp (step : Taken (State Tid Dev) (Event Tid Dev)) : Prop :=
  ∀ socket ∈ step.event.lookup, match salGetSocket step.before.world.table socket with
    | .null => True
    | .emptySlot => False
    | .found ref _ => (socket, ref) ∈ step.before.world.live

def Named (table : Table Dev) (socket : Int) : Prop :=
  socket < 0 ∨ socket ≥ table.sockets.length ∨
    ∃ found ∈ table.object socket.toNat, found.2.magic ≠ salSocketMagic ∨ found.2.netdev ≠ none

def Undisturbed (s : State Tid Dev) : Prop :=
  ∀ t, ∀ call ∈ s.calls t, call.filling ≠ some (emptyEntry s.world.table)

/-- `sal_socket` fails in `socket_init` or not at all. -/
def Settles (world : World Dev) (opening : Opening) : Call Dev → Prop
  | .socket idx domain type protocol =>
    ∀ found ∈ world.table.object idx,
      (socketInit providers world.network domain type protocol found.2).2 < 0 ∨
        Completes providers opening
          (socketInit providers world.network domain type protocol found.2).1
  | _ => True

instance (world : World Dev) (opening : Opening) :
    (call : Call Dev) → Decidable (Settles providers world opening call)
  | .socket idx domain type protocol => inferInstanceAs (Decidable (∀ _ ∈ _, _))
  | .accepted _ | .accepting _ _ => .isTrue trivial

/-- No empty entry and none that is being filled is asked for, nobody takes an entry that is being
filled, and `sal_socket` does not fail behind `socket_init`. -/
def Careful (s : State Tid Dev) : Event Tid Dev → Prop
  | .socketNew _ _ _ _ _ | .acceptNew _ _ _ => Undisturbed s
  | .salSocket t opening => ∀ call ∈ s.calls t, Settles providers s.world opening call
  | .acceptBegin socket _ _ | .salBind socket _ _ | .salShutdown socket _
  | .salClosesocket socket _ | .salOperation _ socket _ => Named s.world.table socket
  | .network _ | .salAccept _ _ _ => True

instance (table : Table Dev) (socket : Int) : Decidable (Named table socket) :=
  inferInstanceAs (Decidable (_ ∨ _ ∨ ∃ found ∈ table.object socket.toNat, _ ∨ _))

instance [Fintype Tid] (s : State Tid Dev) : Decidable (Undisturbed s) :=
  inferInstanceAs (Decidable (∀ t, ∀ call ∈ s.calls t, _))

instance [Fintype Tid] (s : State Tid Dev) :
    (e : Event Tid Dev) → Decidable (Careful providers s e)
  | .socketNew _ _ _ _ _ | .acceptNew _ _ _ => inferInstanceAs (Decidable (Undisturbed s))
  | .salSocket t opening => inferInstanceAs (Decidable (∀ _ ∈ _, _))
  | .acceptBegin socket _ _ | .salBind socket _ _ | .salShutdown socket _
  | .salClosesocket socket _ | .salOperation _ socket _ =>
    inferInstanceAs (Decidable (Named s.world.table socket))
  | .network _ | .salAccept _ _ _ => .isTrue trivial

end Conditions

variable {i : Nat} {m : Memory} {opening : Opening} {socket : Int} {r : Table Dev × Return}
  {s' : State Tid Dev} {sock : SalSocket Dev} {table : Table Dev}

section Invariant

variable {providers : Providers Dev} {s : State Tid Dev}
  {world : World Dev} {t : Tid}

structure Sound (s : State Tid Dev) : Prop where
  fine : Fine s.world.table
  held : Held s.world.table s.world.live
  reserved : ∀ t, ∀ call ∈ s.calls t, ∀ i ∈ call.filling, Reserved s.world.table i
  alone : ∀ t u, ∀ call ∈ s.calls t, ∀ other ∈ s.calls u,
    ∀ i ∈ call.filling, i ∈ other.filling → t = u
  noEmptySlot : s.world.crash ≠ some .emptySlot

theorem Sound.ofWorld (inv : Sound s) (fine : Fine world.table) (held : Held world.table world.live)
    (keeps : ∀ i, Reserved s.world.table i → Reserved world.table i)
    (noEmptySlot : world.crash ≠ some .emptySlot) : Sound { s with world } where
  fine := fine
  held := held
  reserved t call isCall i isFilling := keeps i (inv.reserved t call isCall i isFilling)
  alone := inv.alone
  noEmptySlot := noEmptySlot

theorem Sound.setCall [DecidableEq Tid] (inv : Sound s) {call : Option (Call Dev)}
    (fine : Fine world.table) (held : Held world.table world.live)
    (keeps : ∀ i, Reserved s.world.table i →
      (∃ u ≠ t, ∃ other ∈ s.calls u, i ∈ other.filling) → Reserved world.table i)
    (own : ∀ called ∈ call, ∀ i ∈ called.filling, Reserved world.table i ∧
      ∀ u ≠ t, ∀ other ∈ s.calls u, i ∉ other.filling)
    (noEmptySlot : world.crash ≠ some .emptySlot) : Sound (setCall s t call world) where
  fine := fine
  held := held
  reserved u called isCall i isFilling := by
    by_cases same : u = t
    · subst same
      rw [setCall_self] at isCall
      exact (own called isCall i isFilling).1
    · rw [setCall_of_ne _ same] at isCall
      exact keeps i (inv.reserved u called isCall i isFilling)
        ⟨u, same, called, isCall, isFilling⟩
  alone u v called isCall other isOther i isFilling otherFilling := by
    by_cases first : u = t
    · by_cases second : v = t
      · rw [first, second]
      · subst first
        rw [setCall_self] at isCall
        rw [setCall_of_ne _ second] at isOther
        exact absurd otherFilling ((own called isCall i isFilling).2 v second other isOther)
    · by_cases second : v = t
      · subst second
        rw [setCall_of_ne _ first] at isCall
        rw [setCall_self] at isOther
        exact absurd isFilling ((own other isOther i otherFilling).2 u first called isCall)
      · rw [setCall_of_ne _ first] at isCall
        rw [setCall_of_ne _ second] at isOther
        exact inv.alone u v called isCall other isOther i isFilling otherFilling
  noEmptySlot := noEmptySlot

theorem Initial.sound (init : Initial s) : Sound s where
  fine :=
    { length_le := by rw [init.sockets]; decide
      backed := fun i ref isStored => by
        simp [init.sockets, List.getElem?_replicate] at isStored
      apart := fun i u ref isStored => by
        simp [init.sockets, List.getElem?_replicate] at isStored
      bounded := ⟨0, fun ref _ => init.objects ref⟩ }
  held := by
    have empty (i : Nat) : s.world.table.occupant i = none := by
      simp only [Table.occupant, Table.object, init.objects]
      split <;> simp
    rw [init.live]
    exact ⟨List.nodup_nil, fun socket ref => by simp [empty]⟩
  reserved t call isCall := by simp [init.calls t] at isCall
  alone t _ call isCall := by simp [init.calls t] at isCall
  noEmptySlot := by simp [init.crash]

theorem Named.found (named : Named table socket) : salGetSocket table socket ≠ .emptySlot ∧
      ∀ (i ref : Nat) sock, socket = i → table.object i = some (ref, sock) →
        sock.magic = salSocketMagic → sock.netdev ≠ none := by
  constructor
  · rw [salGetSocket]
    split
    · simp
    · next inside =>
      obtain ⟨found, isFound, -⟩ := (named.resolve_left (by omega)).resolve_left (by omega)
      rw [isFound]
      dsimp only
      split <;> simp
  · rintro i ref sock rfl isObject isMagic
    have below : i < table.sockets.length :=
      (List.getElem?_eq_some_iff.mp (object_eq_some_iff.mp isObject).1).1
    obtain ⟨found, isFound, wiped | hasNetdev⟩ :=
      (named.resolve_left (by omega)).resolve_left (by omega)
    · rw [Int.toNat_natCast, isObject] at isFound
      cases isFound
      exact absurd isMagic wiped
    · rw [Int.toNat_natCast, isObject] at isFound
      cases isFound
      exact hasNetdev

theorem crash_called (noCrash : world.crash ≠ some .emptySlot)
    (noEmptySlot : r.2 ≠ .crash .emptySlot) : (world.called r).crash ≠ some .emptySlot := by
  obtain ⟨table, v | cause⟩ := r
  · exact noCrash
  · simpa [World.called] using noEmptySlot

theorem Reserved.ne_occupied {u ref : Nat} (reserved : Reserved table u)
    (found : table.object i = some (ref, sock)) (hasNetdev : sock.netdev ≠ none) : u ≠ i := by
  rintro rfl
  have := reserved.vacant
  rw [occupant_eq_some_iff.mpr ⟨sock, found, hasNetdev⟩] at this
  simp at this

theorem Sound.keeping (inv : Sound s) (fine : Fine r.1)
    (same : r.1.occupant = s.world.table.occupant)
    (keeps : ∀ i, Reserved s.world.table i → Reserved r.1 i)
    (noEmptySlot : r.2 ≠ .crash .emptySlot) : Sound { s with world := s.world.called r } := by
  refine inv.ofWorld ?_ ?_ ?_ (crash_called inv.noEmptySlot noEmptySlot)
  · rwa [called_table]
  · rw [called_table, called_live]
    exact inv.held.congr same
  · rwa [called_table]

theorem Sound.called (inv : Sound s) {mayFree : Prop} (named : Named s.world.table socket)
    (touches : Touches s.world.table socket mayFree r)
    (kept : mayFree → ∀ i : Nat, socket = i → r.1.object i ≠ none) :
    Sound { s with world := s.world.called r } := by
  obtain ⟨notEmpty, hasNetdev⟩ := named.found
  cases touches with
  | same fine object_eq noEmptySlot =>
    refine inv.keeping fine (occupant_congr object_eq) (fun i reserved => ?_) noEmptySlot
    simpa only [Reserved, object_eq] using reserved
  | emptySlot isEmpty => exact absurd isEmpty notEmpty
  | rebinds isIndex found isMagic changes hasNetdev' noEmptySlot =>
    have before := hasNetdev _ _ _ isIndex found isMagic
    refine inv.keeping changes.fine ?_ (fun u reserved => ?_) noEmptySlot
    · rw [changes.occupant, Option.bind_some, occupies,
        if_pos (Option.isSome_iff_ne_none.mpr hasNetdev'),
        ← occupant_eq_some_iff.mpr ⟨_, found, before⟩, update_eq_self]
    · exact reserved.of_changes changes (reserved.ne_occupied found before)
  | frees may isIndex _ _ changes _ =>
    refine absurd ?_ (kept may _ isIndex)
    rw [changes.object_eq, update_self]

theorem Sound.released (inv : Sound s)
    (named : Named s.world.table socket) (touches : Touches s.world.table socket True r) :
    Sound { s with world := s.world.released socket r } := by
  by_cases isEmptied : (r.1.object socket.toNat).isNone
  · obtain ⟨notEmpty, hasNetdev⟩ := named.found
    cases touches with
    | same fine object_eq noEmptySlot =>
      rw [released_eq_called]
      · refine inv.keeping fine (occupant_congr object_eq) (fun i reserved => ?_) noEmptySlot
        simpa only [Reserved, object_eq] using reserved
      · rintro - ref mem
        obtain ⟨i, rfl, isOccupied⟩ := (inv.held.mem_iff _ _).mp mem
        obtain ⟨sock, found, -⟩ := occupant_eq_some_iff.mp isOccupied
        simp [object_eq, found] at isEmptied
    | emptySlot isEmpty => exact absurd isEmpty notEmpty
    | rebinds isIndex _ _ changes =>
      subst isIndex
      simp [changes.object_eq] at isEmptied
    | frees _ isIndex found isMagic changes noEmptySlot =>
      have before := hasNetdev _ _ _ isIndex found isMagic
      subst isIndex
      refine inv.ofWorld ?_ ?_ (fun u reserved => ?_)
        (crash_called inv.noEmptySlot noEmptySlot)
      · simpa only [World.released, called_table] using changes.fine
      · simp only [World.released, called_table]
        rw [if_pos isEmptied]
        exact inv.held.remove changes.occupant
      · simp only [World.released, called_table]
        exact reserved.of_changes changes (reserved.ne_occupied found before)
  · rw [released_eq_called fun isNone => absurd isNone isEmptied]
    refine inv.called named touches fun _ i isIndex isNone => isEmptied ?_
    simp [isIndex, isNone]

section Making

variable [DecidableEq Tid]

theorem Sound.idle (inv : Sound s) (fine : Fine r.1)
    (same : r.1.occupant = s.world.table.occupant) (keeps : ∀ i, Reserved s.world.table i →
      (∃ u ≠ t, ∃ other ∈ s.calls u, i ∈ other.filling) → Reserved r.1 i)
    (noEmptySlot : r.2 ≠ .crash .emptySlot) : Sound (Sal.setCall s t none (s.world.called r)) := by
  refine inv.setCall ?_ ?_ ?_ (by simp) (crash_called inv.noEmptySlot noEmptySlot)
  · rwa [called_table]
  · rw [called_table, called_live]
    exact inv.held.congr same
  · rwa [called_table]

theorem Sound.new (inv : Sound s) {s' : Table Dev}
    (undisturbed : Undisturbed s) (isNew : New s.world.table m s' (some i))
    (call : Call Dev) (isFilling : call.filling = some i) :
    Sound (Sal.setCall s t (some call) { s.world with table := s' }) := by
  cases isNew with
  | some changes vacant actions_eq =>
    have noOccupant : s.world.table.occupant (emptyEntry s.world.table) = none := by
      rw [Table.occupant, Option.bind_eq_none_iff]
      intro found isFound
      simp [occupies, vacant found isFound]
    refine inv.setCall changes.fine (inv.held.congr ?_) ?_ ?_ inv.noEmptySlot
    · rw [changes.occupant, Option.bind_some, occupies]
      simp only [SalSocket.renew, Option.isSome_none, Bool.false_eq_true, if_false]
      rw [← noOccupant, update_eq_self]
    · rintro other reserved ⟨u, -, otherCall, isCall, otherFilling⟩
      refine reserved.of_changes changes ?_
      rintro rfl
      exact undisturbed u otherCall isCall otherFilling
    · rintro called isCalled other otherFilling
      cases isCalled
      obtain rfl : other = emptyEntry s.world.table := by
        rw [isFilling] at otherFilling
        exact (Option.some.inj otherFilling).symm
      refine ⟨⟨_, _, by rw [changes.object_eq, update_self], rfl, rfl, rfl⟩, ?_⟩
      exact fun u _ otherCall isCall => undisturbed u otherCall isCall

theorem Sound.filled (inv : Sound s) {call : Call Dev} {ref : Nat} (isCall : s.calls t = some call)
    (isFilling : call.filling = some i) (changes : Changes s.world.table r.1 i (some (ref, sock)))
    (noEmptySlot : r.2 ≠ .crash .emptySlot) (outcome : (r.2 = .ret i ∧ sock.netdev ≠ none) ∨
      ((∀ value, r.2 = .ret value → value < 0) ∧ sock.netdev = none)) :
    Sound (Sal.setCall s t none (s.world.created r)) := by
  have reserved := inv.reserved t call isCall i isFilling
  have keeps (other : Nat) (otherReserved : Reserved s.world.table other)
      (elsewhere : ∃ u ≠ t, ∃ called ∈ s.calls u, other ∈ called.filling) :
      Reserved r.1 other := by
    refine otherReserved.of_changes changes ?_
    rintro rfl
    obtain ⟨u, ne, called, isCalled, otherFilling⟩ := elsewhere
    exact ne (inv.alone u t called isCalled call isCall other otherFilling isFilling)
  obtain ⟨s', value | cause⟩ := r
  · rcases outcome with ⟨isIndex, hasNetdev⟩ | ⟨negative, noNetdev⟩
    · obtain rfl : value = (i : Int) := by simpa using isIndex
      rw [created_index (show s'.object i = some (ref, sock) by
        rw [changes.object_eq, update_self])]
      refine inv.setCall changes.fine ?_ keeps (by simp) inv.noEmptySlot
      refine inv.held.add reserved.vacant ?_
      rw [changes.occupant, Option.bind_some, occupies,
        if_pos (Option.isSome_iff_ne_none.mpr hasNetdev)]
    · have created : s.world.created (s', .ret value) = s.world.called (s', .ret value) := by
        simp [World.created, World.called, negative value rfl]
      rw [created]
      refine inv.idle changes.fine ?_ keeps noEmptySlot
      rw [changes.occupant, Option.bind_some, occupies]
      simp only [noNetdev, Option.isSome_none, Bool.false_eq_true, if_false]
      rw [← reserved.vacant, update_eq_self]
  · rcases outcome with ⟨isIndex, -⟩ | ⟨-, noNetdev⟩
    · simp at isIndex
    · refine inv.idle changes.fine ?_ keeps noEmptySlot
      rw [changes.occupant, Option.bind_some, occupies]
      simp only [noNetdev, Option.isSome_none, Bool.false_eq_true, if_false]
      rw [← reserved.vacant, update_eq_self]

theorem openSocket_filled {ref : Nat}
    (fine : Fine table) (found : table.object i = some (ref, sock))
    (completes : Completes providers opening sock) (isIndex : sock.socket = i) :
    (openSocket providers table ref sock opening).2 = .ret i ∧
      ∃ sock' : SalSocket Dev, sock'.netdev = sock.netdev ∧
        Changes table (openSocket providers table ref sock opening).1 i (some (ref, sock')) := by
  obtain ⟨isValid, isOpened, session⟩ := completes
  cases valid : netdevSocketopsValid providers sock.netdev .socket with
  | crash cause | missing => simp [valid, Valid.isValid] at isValid
  | valid netdev ops =>
    rw [openSocket_valid valid isOpened]
    rcases @keepSocket_cases _ (table.record (.opened netdev opening.protoSocket)) ref sock
      providers opening session with ⟨-, kept⟩ | ⟨tls, -, -, kept⟩
    · rw [kept]
      exact ⟨congrArg _ isIndex, { sock with userData := opening.protoSocket }, rfl,
        ((record_fine fine _).setObject found _).of_record⟩
    · rw [kept]
      exact ⟨congrArg _ isIndex,
        { sock with userData := opening.protoSocket, userDataTls := some tls }, rfl,
        ((record_fine (record_fine fine _) _).setObject found _).of_record.of_record⟩

theorem salSocket_filled {network : Network Dev} {ref : Nat} {domain type protocol : Int}
    (fine : Fine table) (found : table.object i = some (ref, sock))
    (isMagic : sock.magic = salSocketMagic) (isIndex : sock.socket = i)
    (succeeds : ¬ (socketInit providers network domain type protocol sock).2 < 0)
    (completes : Completes providers opening
      (socketInit providers network domain type protocol sock).1) :
    (salSocket providers network table i domain type protocol opening).2 = .ret i ∧
      ∃ sock' : SalSocket Dev, sock'.netdev ≠ none ∧
        Changes table (salSocket providers network table i domain type protocol opening).1 i
          (some (ref, sock')) := by
  obtain ⟨-, keepsIndex, -⟩ := socketInit_keeps providers network domain type protocol sock
  have initialised := fine.setObject found
    (socketInit providers network domain type protocol sock).1
  have hasNetdev : (socketInit providers network domain type protocol sock).1.netdev ≠ none := by
    rcases socketInit_netdev providers network domain type protocol sock with
      ⟨failed, -⟩ | ⟨-, hasNetdev⟩
    · exact absurd failed succeeds
    · exact hasNetdev
  have refound : (table.setObject ref (socketInit providers network domain type protocol
      sock).1).object i = some (ref, (socketInit providers network domain type protocol
        sock).1) := by
    rw [initialised.object_eq, update_self]
  obtain ⟨isRet, sock', sameNetdev, changes⟩ :=
    openSocket_filled initialised.fine refound completes (keepsIndex.trans isIndex)
  rw [salSocket_found found isMagic, if_neg succeeds]
  exact ⟨isRet, sock', sameNetdev ▸ hasNetdev, initialised.trans changes⟩

theorem salSocketStep_sound (inv : Sound s) (careful : Careful providers s (.salSocket t opening))
    (taken : salSocketStep providers s t opening = some s') : Sound s' := by
  rw [salSocketStep] at taken
  split at taken
  · next idx domain type protocol isCall =>
    cases taken
    obtain ⟨ref, sock, found, isMagic, noNetdev, isIndex⟩ := inv.reserved t _ isCall idx rfl
    have outcome := careful _ isCall _ found
    by_cases failed : (socketInit providers s.world.network domain type protocol sock).2 < 0
    · have noNetdev' : (socketInit providers s.world.network domain type protocol
          sock).1.netdev = none := by
        rcases socketInit_netdev providers s.world.network domain type protocol sock with
          ⟨-, kept⟩ | ⟨succeeded, -⟩
        · rw [kept, noNetdev]
        · omega
      rw [salSocket_found found isMagic, if_pos failed]
      refine inv.filled isCall rfl (inv.fine.setObject found _) (by simp)
        (.inr ⟨?_, noNetdev'⟩)
      rintro v ⟨⟩
      decide
    · obtain ⟨isRet, sock', hasNetdev, changes⟩ := salSocket_filled inv.fine found isMagic
        isIndex failed (outcome.resolve_left failed)
      exact inv.filled isCall rfl changes (by simp [isRet]) (.inl ⟨isRet, hasNetdev⟩)
  · simp at taken

theorem salAcceptStep_sound {stale : SalSocket Dev} {closed : Bool}
    (inv : Sound s) (taken : salAcceptStep providers s t stale closed = some s') : Sound s' := by
  rw [salAcceptStep] at taken
  split at taken
  · next accepted idx isCall =>
    cases taken
    obtain ⟨ref, sock, found, isMagic, noNetdev, isIndex⟩ := inv.reserved t _ isCall idx rfl
    rw [salAccept_found found isMagic rfl]
    generalize (s.world.table.objects accepted.sock).getD stale = listening
    have initialised := inv.fine.setObject found (socketInit providers s.world.network
      listening.domain listening.type listening.protocol sock).1
    rcases socketInit_netdev providers s.world.network listening.domain listening.type
      listening.protocol sock with ⟨failed, kept⟩ | ⟨succeeded, hasNetdev⟩
    · rw [if_pos failed, discard]
      rcases closeProvider_cases accepted.netdev accepted.newSocket closed with isNone | isSome
      · rw [isNone]
        refine inv.filled isCall rfl initialised (by simp) (.inr ⟨?_, kept.trans noNetdev⟩)
        rintro v ⟨⟩
      · rw [isSome]
        have refound : ((s.world.table.setObject ref (socketInit providers s.world.network
            listening.domain listening.type listening.protocol sock).1).record
              (.closed accepted.netdev accepted.newSocket closed)).object idx =
                some (ref, (socketInit providers s.world.network listening.domain
                  listening.type listening.protocol sock).1) := by
          rw [record_object, initialised.object_eq, update_self]
        have wiped := (record_fine initialised.fine _).setObject refound .zero
        refine inv.filled isCall rfl (initialised.trans wiped.of_record) (by simp)
          (.inr ⟨?_, rfl⟩)
        rintro v ⟨⟩
        decide
    · rw [if_neg (by omega)]
      exact inv.filled isCall rfl (inv.fine.setObject found _) (by simp)
        (.inl ⟨rfl, hasNetdev⟩)
  · simp at taken

omit [DecidableEq Tid] in
theorem Sound.socketNew (inv : Sound s) (unused : m.Unused s.world.table) :
    New s.world.table m (Sal.socketNew s.world.table m).1 (Sal.socketNew s.world.table m).2 :=
  socketNew_cases inv.fine fun ref isRef => Option.isNone_iff_eq_none.mp (unused ref isRef)

theorem socketNewStep_sound {domain type protocol : Int}
    (inv : Sound s) (undisturbed : Undisturbed s)
    (taken : socketNewStep s t domain type protocol m = some s') : Sound s' := by
  obtain ⟨enabled, taken⟩ := Option.ite_none_right_eq_some.mp taken
  have isNew := inv.socketNew enabled.2
  split at taken
  · next isNone =>
    rw [isNone] at isNew
    cases taken
    cases isNew with
    | none _ fine object_eq =>
      refine inv.keeping fine (occupant_congr object_eq) (fun i reserved => ?_) (by simp)
      simpa only [Reserved, object_eq] using reserved
  · next isSome =>
    rw [isSome] at isNew
    cases taken
    exact inv.new undisturbed isNew _ rfl

theorem acceptNewStep_sound {closed : Bool} (inv : Sound s) (undisturbed : Undisturbed s)
    (taken : acceptNewStep providers s t m closed = some s') : Sound s' := by
  rw [acceptNewStep] at taken
  split at taken
  · next accepted isCall =>
    obtain ⟨unused, taken⟩ := Option.ite_none_right_eq_some.mp taken
    have isNew := inv.socketNew unused
    split at taken
    · next table isNone =>
      rw [isNone] at isNew
      cases taken
      cases isNew with
      | none _ fine object_eq =>
        rw [refuse]
        rcases closeProvider_cases accepted.netdev accepted.newSocket closed with
          noOperation | isClosed
        · rw [noOperation]
          refine inv.idle fine (occupant_congr object_eq) (fun i reserved _ => ?_)
            (by simp)
          simpa only [Reserved, object_eq] using reserved
        · rw [isClosed]
          refine inv.idle (record_fine fine _) (occupant_congr object_eq)
            (fun i reserved _ => ?_) (by simp)
          simpa only [Reserved, record_object, object_eq] using reserved
    · next isSome =>
      rw [isSome] at isNew
      cases taken
      exact inv.new undisturbed isNew _ rfl
  · simp at taken

theorem acceptBeginStep_sound {newSocket : Int} (inv : Sound s) (named : Named s.world.table socket)
    (taken : acceptBeginStep providers s t socket newSocket = some s') : Sound s' := by
  obtain ⟨-, taken⟩ := Option.ite_none_right_eq_some.mp taken
  rcases @salAcceptBegin_cases _ s.world.table providers s.world.network inv.fine
    socket newSocket with ⟨r, isResult, touches⟩ |
    ⟨ref, sock, netdev, isResult, -⟩
  · rw [isResult] at taken
    cases taken
    exact inv.called named touches fun impossible => impossible.elim
  · rw [isResult] at taken
    cases taken
    refine inv.setCall (record_fine inv.fine _) (inv.held.congr rfl)
      (fun i reserved _ => reserved) ?_ inv.noEmptySlot
    rintro call isCall i isFilling
    cases isCall
    simp [Call.filling] at isFilling

theorem step_sound [DecidableEq Dev] {e : Event Tid Dev} (inv : Sound s)
    (careful : Careful providers s e) (taken : step providers s e = some s') : Sound s' := by
  rw [step] at taken
  split at taken
  · simp at taken
  · cases e with
    | network network =>
      cases taken
      exact inv.ofWorld inv.fine inv.held (fun _ reserved => reserved) inv.noEmptySlot
    | socketNew t domain type protocol m => exact socketNewStep_sound inv careful taken
    | salSocket t opening => exact salSocketStep_sound inv careful taken
    | acceptBegin socket newSocket t => exact acceptBeginStep_sound inv careful taken
    | acceptNew t m closed => exact acceptNewStep_sound inv careful taken
    | salAccept t stale closed => exact salAcceptStep_sound inv taken
    | salBind socket ipAddr binding =>
      cases taken
      exact inv.called careful (salBind_touches inv.fine socket ipAddr binding)
        fun impossible => impossible.elim
    | salShutdown socket closing =>
      cases taken
      exact inv.released careful (salShutdown_touches inv.fine socket closing)
    | salClosesocket socket closing =>
      cases taken
      exact inv.released careful (salClosesocket_touches inv.fine socket closing)
    | salOperation op socket r =>
      cases taken
      exact inv.called careful (salOperation_touches inv.fine op socket r)
        fun impossible => impossible.elim

end Making

end Invariant

end RtThread.Sal
