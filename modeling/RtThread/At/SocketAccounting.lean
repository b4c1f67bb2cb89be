import RtThread.At.SocketTable

/-!
# Which sockets are in use

A slot is in use exactly while its number is out, as long as no call fails after it has
claimed its slot, and none reports its failure by the number of a socket.
-/

namespace RtThread.At

open TransitionSystem

variable {n : Nat}

/-- The table, the numbers that successful calls returned and that were not closed since, and
all the numbers that failed calls returned. -/
structure Sockets (n : Nat) where
  table : Table n
  opened : List Int
  refused : List Int

inductive SocketCall
  | register
  | socket (domain type : Int) (creations : Creations)
  | closesocket (socket device : Int)
  | shutdown (socket device : Int)
  | connect (socket device : Int)
  | recvNotice (socket : Int) (buff : List UInt8) (nonempty : 0 < buff.length)
  | closedNotice (socket : Int)

namespace Sockets

/-- A call that closes a socket does so once there is a device, whatever the device answers. -/
def close (s : Sockets n) (socket : Int) (table : Table n) : Sockets n :=
  { s with
    table
    opened :=
      if s.table.atDevOps then s.opened.filter (· ≠ socket) else s.opened }

def step (s : Sockets n) : SocketCall → Option (Sockets n)
  | .register => some { s with table := { s.table with atDevOps := true } }
  | .socket domain type creations =>
    (s.table.atSocket domain type creations).map fun (table, number, allocated) =>
      if allocated then { s with table, opened := number :: s.opened }
      else { s with table, refused := number :: s.refused }
  | .closesocket socket device =>
    some (s.close socket (s.table.atClosesocket socket device).1)
  | .shutdown socket device => some (s.close socket (s.table.atShutdown socket device).1)
  | .connect socket device =>
    some { s with table := (s.table.atConnect socket device).1 }
  | .recvNotice socket buff nonempty =>
    some { s with table := s.table.atRecvNoticeCb socket buff nonempty }
  | .closedNotice socket => some { s with table := s.table.atClosedNoticeCb socket }

def Initial (s : Sockets n) : Prop :=
  (∀ idx, s.table.sockets idx = .zero) ∧ s.table.atDevOps = false ∧
    s.table.atSlock = false ∧ s.opened = [] ∧ s.refused = []

def system (n : Nat) : TransitionSystem (Sockets n) SocketCall := ofFunction Initial step

def plainSocket : SocketCall := .socket afAt sockStream ⟨true, true, true⟩

structure Accounted (s : Sockets n) : Prop where
  inUse_iff : ∀ slot : Fin n, (s.table.sockets slot).magic = true ↔ ((slot : Nat) : Int) ∈ s.opened
  refused_invalid : ∀ number ∈ s.refused, s.table.atGetSocket number = none
  reusable : s.opened = [] → ∃ after, execute step s (List.replicate n plainSocket) = some after ∧
      ∀ slot : Fin n, ((slot : Nat) : Int) ∈ after.opened

/-- A call to `at_socket` of a supported type fails at most for want of the lock of the table.
Otherwise it gets an empty entry, whose number no failed call has returned, and both the
semaphore and the mutex. -/
def Clean (s : Sockets n) : SocketCall → Prop
  | .socket _ type creations =>
    Table.socketType type = none ∨
      (s.table.atSlock = false ∧ creations.atSlock = false) ∨
      (creations.recvNotice = true ∧ creations.recvLock = true ∧
        ∃ idx ∈ s.table.emptyEntry, ((idx : Nat) : Int) ∉ s.refused)
  | _ => True

instance (s : Sockets n) (call : SocketCall) : Decidable (s.Clean call) := by
  cases call <;> unfold Clean <;> infer_instance

end Sockets

namespace Table

variable {table after : Table n} {idx : Fin n} {number device : Int}

theorem atGetSocket_eq_some_iff : table.atGetSocket number = some idx ↔
      number = (idx : Nat) ∧ (table.sockets idx).magic = true := by
  unfold atGetSocket
  constructor
  · intro found
    simp only at found
    split_ifs at found with within valid
    cases found
    exact ⟨(Int.toNat_of_nonneg within.1).symm, valid⟩
  · rintro ⟨rfl, valid⟩
    have within : (0 : Int) ≤ (idx : Nat) ∧ ((idx : Nat) : Int) < n := by omega
    have same : (⟨((idx : Nat) : Int).toNat, by omega⟩ : Fin n) = idx := Fin.ext (by simp)
    simp only [within, and_self, dite_true, same, valid, if_true]

theorem atGetSocket_eq_none_iff : table.atGetSocket number = none ↔
      ∀ idx : Fin n, number = (idx : Nat) → (table.sockets idx).magic = false := by
  rw [Option.eq_none_iff_forall_ne_some]
  refine forall_congr' fun idx => ?_
  rw [Ne, atGetSocket_eq_some_iff, not_and, Bool.not_eq_true]

theorem emptyEntry_free (found : table.emptyEntry = some idx) :
    (table.sockets idx).magic = false := by
  simpa using List.find?_some found

theorem emptyEntry_eq_none_iff :
    table.emptyEntry = none ↔ ∀ idx, (table.sockets idx).magic = true := by
  simp [emptyEntry]

theorem allocSocket_cases (table : Table n) (creations : Creations) :
    (table.atSlock = false ∧ creations.atSlock = false ∧
      table.allocSocket creations = (table, none)) ∨
    ((table.atSlock = true ∨ creations.atSlock = true) ∧ ((table.emptyEntry = none ∧
        table.allocSocket creations = ({ table with atSlock := true }, none)) ∨
      ∃ (idx : Fin n) (sock : AtSocket),
        table.emptyEntry = some idx ∧ sock.magic = true ∧ sock.socket = idx ∧
        ((¬ (creations.recvNotice = true ∧ creations.recvLock = true) ∧
          table.allocSocket creations = ({ table with atSlock := true }.setSocket idx sock, none)) ∨
        (creations.recvNotice = true ∧ creations.recvLock = true ∧
          table.allocSocket creations =
            ({ table with atSlock := true }.setSocket idx sock, some idx))))) := by
  have sameEntry : ({ table with atSlock := true } : Table n).emptyEntry = table.emptyEntry := rfl
  by_cases locked : (!table.atSlock && !creations.atSlock) = true
  · have both : table.atSlock = false ∧ creations.atSlock = false := by simpa using locked
    exact .inl ⟨both.1, both.2, by simp only [allocSocket, locked, if_true]⟩
  · have lock : table.atSlock = true ∨ creations.atSlock = true := by
      cases held : table.atSlock <;> cases made : creations.atSlock <;> simp_all
    refine .inr ⟨lock, ?_⟩
    simp only [allocSocket, locked, sameEntry]
    cases table.emptyEntry with
    | none => exact .inl ⟨rfl, rfl⟩
    | some idx =>
      refine .inr ⟨idx, ?_⟩
      cases creations.recvNotice with
      | false => exact ⟨_, rfl, rfl, rfl, .inl ⟨by simp, rfl⟩⟩
      | true =>
        cases creations.recvLock with
        | false => exact ⟨_, rfl, rfl, rfl, .inl ⟨by simp, rfl⟩⟩
        | true => exact ⟨_, rfl, rfl, rfl, .inr ⟨rfl, rfl, rfl⟩⟩

theorem atClosesocket_cases (table : Table n) (number device : Int) :
    ((table.atDevOps = false ∨ table.atGetSocket number = none) ∧
      (table.atClosesocket number device).1 = table) ∨
    ∃ idx, table.atDevOps = true ∧ table.atGetSocket number = some idx ∧
      (table.atClosesocket number device).1 = table.freeSocket idx := by
  unfold atClosesocket
  cases registered : table.atDevOps with
  | false => exact .inl ⟨.inl rfl, rfl⟩
  | true =>
    cases found : table.atGetSocket number with
    | none => exact .inl ⟨.inr rfl, rfl⟩
    | some idx =>
      refine .inr ⟨idx, rfl, rfl, ?_⟩
      simp only [Bool.not_true, Bool.false_eq_true, if_false]
      split_ifs <;> simp [freeSocket, setSocket]

theorem atShutdown_cases (table : Table n) (number device : Int) :
    ((table.atDevOps = false ∨ table.atGetSocket number = none) ∧
      (table.atShutdown number device).1 = table) ∨
    ∃ idx, table.atDevOps = true ∧ table.atGetSocket number = some idx ∧
      (table.atShutdown number device).1 = table.freeSocket idx := by
  unfold atShutdown
  cases registered : table.atDevOps with
  | false => exact .inl ⟨.inl rfl, rfl⟩
  | true =>
    cases found : table.atGetSocket number with
    | none => exact .inl ⟨.inr rfl, rfl⟩
    | some idx =>
      refine .inr ⟨idx, rfl, rfl, ?_⟩
      simp only [Bool.not_true, Bool.false_eq_true, if_false]
      split_ifs <;> rfl

def SameMagic (table after : Table n) : Prop :=
  after.atSlock = table.atSlock ∧ ∀ idx, (after.sockets idx).magic = (table.sockets idx).magic

theorem sameMagic_setSocket {sock : AtSocket} (same : sock.magic = (table.sockets idx).magic) :
    table.SameMagic (table.setSocket idx sock) := by
  refine ⟨rfl, fun u => ?_⟩
  by_cases isIdx : u = idx
  · rw [isIdx, sockets_setSocket, Function.update_self, same]
  · rw [sockets_setSocket, Function.update_of_ne isIdx]

theorem sameMagic_refl (table : Table n) : table.SameMagic table := ⟨rfl, fun _ => rfl⟩

theorem sameMagic_atConnect (table : Table n) (number device : Int) :
    table.SameMagic (table.atConnect number device).1 := by
  unfold atConnect
  split
  · exact sameMagic_refl table
  · split
    · exact sameMagic_refl table
    · split_ifs
      · exact sameMagic_refl table
      · exact sameMagic_refl table
      · exact sameMagic_setSocket rfl

theorem sameMagic_atRecvNoticeCb (table : Table n) (number : Int) (buff : List UInt8)
    (nonempty : 0 < buff.length) : table.SameMagic (table.atRecvNoticeCb number buff nonempty) := by
  unfold atRecvNoticeCb
  cases table.atGetSocket number with
  | none => exact sameMagic_refl table
  | some idx => exact sameMagic_setSocket rfl

theorem sameMagic_atClosedNoticeCb (table : Table n) (number : Int) :
    table.SameMagic (table.atClosedNoticeCb number) := by
  unfold atClosedNoticeCb
  cases table.atGetSocket number with
  | none => exact sameMagic_refl table
  | some idx => exact sameMagic_setSocket rfl

end Table

namespace Sockets

open Table

variable {s after : Sockets n}

/-- What `at_socket` does to the sockets and to the numbers returned. -/
inductive Outcome (s : Sockets n) (type : Int) (creations : Creations) : Sockets n → Prop
  | unsupported :
      socketType type = none →
      Outcome s type creations { s with refused := -1 :: s.refused }
  | unlocked :
      s.table.atSlock = false → creations.atSlock = false →
      Outcome s type creations { s with refused := 0 :: s.refused }
  | full :
      socketType type ≠ none → (s.table.atSlock = true ∨ creations.atSlock = true) →
      s.table.emptyEntry = none →
      Outcome s type creations
        { s with
          table := { s.table with atSlock := true }, refused := 0 :: s.refused }
  | leaked {idx : Fin n} {sock : AtSocket} :
      socketType type ≠ none → (s.table.atSlock = true ∨ creations.atSlock = true) →
      s.table.emptyEntry = some idx → sock.magic = true →
      ¬ (creations.recvNotice = true ∧ creations.recvLock = true) →
      Outcome s type creations
        { s with
          table := { s.table with atSlock := true }.setSocket idx sock
          refused := 0 :: s.refused }
  | allocated {idx : Fin n} {sock : AtSocket} :
      socketType type ≠ none → (s.table.atSlock = true ∨ creations.atSlock = true) →
      s.table.emptyEntry = some idx → sock.magic = true →
      creations.recvNotice = true → creations.recvLock = true →
      Outcome s type creations
        { s with
          table := { s.table with atSlock := true }.setSocket idx sock
          opened := (idx : Nat) :: s.opened }

theorem step_socket {domain type : Int} {creations : Creations}
    (ran : s.step (.socket domain type creations) = some after) :
    Outcome s type creations after := by
  simp only [step, atSocket] at ran
  split_ifs at ran
  · cases supported : socketType type with
    | none =>
      simp only [supported, Option.map_some, Option.some.injEq] at ran
      subst ran
      exact .unsupported supported
    | some kind =>
      have isSupported : socketType type ≠ none := by simp [supported]
      simp only [supported] at ran
      rcases allocSocket_cases s.table creations with
        ⟨held, made, result⟩ | ⟨lock, ⟨e, result⟩ | ⟨idx, sock, e, magic, number, made⟩⟩
      · simp only [result, Option.map_some, Option.some.injEq] at ran
        subst ran
        exact .unlocked held made
      · simp only [result, Option.map_some, Option.some.injEq] at ran
        subst ran
        exact .full isSupported lock e
      · rcases made with ⟨failed, result⟩ | ⟨notice, made, result⟩
        · simp only [result, Option.map_some, Option.some.injEq] at ran
          subst ran
          exact .leaked isSupported lock e magic failed
        · simp only [result, Option.map_some, sockets_setSocket, Function.update_self,
            setSocket_setSocket, number, Option.some.injEq] at ran
          subst ran
          exact .allocated isSupported lock e magic notice made
  · simp at ran

/-- The lock is there before the first slot is claimed, and a failed call returns one of two
numbers. -/
structure Sound (s : Sockets n) : Prop where
  locked : s.table.atSlock = false → ∀ idx, (s.table.sockets idx).magic = false
  refused : ∀ number ∈ s.refused, number = 0 ∨ number = -1

theorem Initial.sound (init : Initial s) : s.Sound := by
  obtain ⟨zero, -, -, -, refused⟩ := init
  exact ⟨fun _ idx => by simp [zero, AtSocket.zero], by simp [refused]⟩

theorem Sound.freed (inv : s.Sound) (idx : Fin n) (opened : List Int) :
    Sound { s with table := s.table.freeSocket idx, opened } := by
  refine ⟨fun noLock u => ?_, inv.refused⟩
  by_cases isIdx : u = idx
  · simp [freeSocket, isIdx, AtSocket.zero]
  · rw [freeSocket, sockets_setSocket, Function.update_of_ne isIdx]
    exact inv.locked noLock u

variable {table : Table n}

theorem Sound.sameMagic (inv : s.Sound) (same : s.table.SameMagic table) : Sound { s with table } :=
  ⟨fun noLock idx => by
    rw [same.2 idx]
    exact inv.locked (same.1 ▸ noLock) idx, inv.refused⟩

theorem Sound.step {call : SocketCall} (inv : s.Sound)
    (ran : s.step call = some after) : after.Sound := by
  have consed : ∀ number : Int, (number = 0 ∨ number = -1) →
      ∀ u ∈ number :: s.refused, u = 0 ∨ u = -1 :=
    fun number isNumber => List.forall_mem_cons.mpr ⟨isNumber, inv.refused⟩
  cases call with
  | register =>
    cases ran
    exact ⟨inv.locked, inv.refused⟩
  | socket domain type creations =>
    cases step_socket ran with
    | unsupported => exact ⟨inv.locked, consed _ (.inr rfl)⟩
    | unlocked => exact ⟨inv.locked, consed _ (.inl rfl)⟩
    | full | leaked => exact ⟨nofun, consed _ (.inl rfl)⟩
    | allocated => exact ⟨nofun, inv.refused⟩
  | closesocket socket device =>
    cases ran
    rcases atClosesocket_cases s.table socket device with ⟨-, same⟩ | ⟨idx, -, -, freed⟩
    · rw [close, same]
      exact ⟨inv.locked, inv.refused⟩
    · rw [close, freed]
      exact inv.freed idx _
  | shutdown socket device =>
    cases ran
    rcases atShutdown_cases s.table socket device with ⟨-, same⟩ | ⟨idx, -, -, freed⟩
    · rw [close, same]
      exact ⟨inv.locked, inv.refused⟩
    · rw [close, freed]
      exact inv.freed idx _
  | connect socket device =>
    cases ran
    exact inv.sameMagic (sameMagic_atConnect _ _ _)
  | recvNotice socket buff nonempty =>
    cases ran
    exact inv.sameMagic (sameMagic_atRecvNoticeCb _ _ _ _)
  | closedNotice socket =>
    cases ran
    exact inv.sameMagic (sameMagic_atClosedNoticeCb _ _)

section Reusable

theorem emptyEntry_least {idx u : Fin n} (found : table.emptyEntry = some idx) (below : u < idx) :
    (table.sockets u).magic = true := by
  obtain ⟨-, i, bound, isIdx, earlier⟩ := List.find?_eq_some_iff_getElem.mp found
  rw [List.getElem_finRange] at isIdx
  have before := earlier u (by rw [← isIdx] at below; exact below)
  simpa using before

theorem step_plainSocket {idx : Fin n} (entry : s.table.emptyEntry = some idx) :
    ∃ sock : AtSocket, sock.magic = true ∧ s.step plainSocket = some
      { s with
        table := { s.table with atSlock := true }.setSocket idx sock
        opened := (idx : Nat) :: s.opened } := by
  have entry : ({ s.table with atSlock := true } : Table n).emptyEntry = some idx := entry
  refine ⟨⟨true, idx, .tcp, .none, true, true, []⟩, rfl, ?_⟩
  simp [step, plainSocket, atSocket, allocSocket, socketType, entry,
    setSocket_setSocket]

theorem execute_plainSockets (k : Nat) (fits : k ≤ n)
    (inUse : ∀ idx : Fin n, (s.table.sockets idx).magic = true ↔ (idx : Nat) < n - k)
    (opened : ∀ idx : Fin n, (idx : Nat) < n - k → ((idx : Nat) : Int) ∈ s.opened) :
    ∃ after, execute step s (List.replicate k plainSocket) = some after ∧
      ∀ slot : Fin n, ((slot : Nat) : Int) ∈ after.opened := by
  induction k generalizing s with
  | zero => exact ⟨s, rfl, fun slot => opened slot slot.isLt⟩
  | succ k ih =>
    have free : ∃ idx : Fin n, s.table.emptyEntry = some idx ∧ (idx : Nat) = n - (k + 1) := by
      have next : n - (k + 1) < n := by omega
      cases entry : s.table.emptyEntry with
      | none =>
        have all := emptyEntry_eq_none_iff.mp entry ⟨n - (k + 1), next⟩
        exact absurd ((inUse _).mp all) (Nat.lt_irrefl _)
      | some idx =>
        refine ⟨idx, rfl, ?_⟩
        have notBelow : ¬ (idx : Nat) < n - (k + 1) := by
          rw [← inUse, emptyEntry_free entry]
          simp
        by_contra u
        have below : (⟨n - (k + 1), next⟩ : Fin n) < idx := by
          rw [Fin.lt_def]
          simp only
          omega
        exact absurd ((inUse _).mp (emptyEntry_least entry below)) (Nat.lt_irrefl _)
    obtain ⟨idx, entry, isNext⟩ := free
    obtain ⟨sock, magic, ran⟩ := step_plainSocket entry
    have below : ∀ u : Fin n, (u : Nat) < n - k ↔ u = idx ∨
        (u : Nat) < n - (k + 1) := by
      intro u
      omega
    obtain ⟨after, executed, all⟩ := @ih
      { s with
        table := { s.table with atSlock := true }.setSocket idx sock
        opened := (idx : Nat) :: s.opened }
      (by omega)
      (by
        intro u
        rw [below]
        by_cases isIdx : u = idx
        · simp [isIdx, magic]
        · rw [sockets_setSocket, Function.update_of_ne isIdx, inUse]
          simp [isIdx])
      (by
        intro u isBelow
        rcases (below u).mp isBelow with rfl | isBelow
        · exact List.mem_cons_self
        · exact List.mem_cons_of_mem _ (opened u isBelow))
    refine ⟨after, ?_, all⟩
    simpa [List.replicate_succ, execute, ran] using executed

end Reusable

theorem accounts_iff : s.Accounted ↔
      (∀ slot : Fin n, (s.table.sockets slot).magic = true ↔ ((slot : Nat) : Int) ∈ s.opened) ∧
      ∀ number ∈ s.refused, s.table.atGetSocket number = none := by
  constructor
  · exact fun acc => ⟨acc.inUse_iff, acc.refused_invalid⟩
  · rintro ⟨inUse, refused⟩
    refine ⟨inUse, refused, fun noneOpened => ?_⟩
    refine execute_plainSockets n (Nat.le_refl n) (fun idx => ?_) (fun idx isBelow => ?_)
    · simp [inUse, noneOpened]
    · simp at isBelow

theorem Initial.accounted (init : Initial s) : s.Accounted := by
  obtain ⟨zero, -, -, opened, refused⟩ := init
  rw [accounts_iff]
  refine ⟨fun slot => ?_, by simp [refused]⟩
  simp [zero, AtSocket.zero, opened]

section

variable (acc : s.Accounted)

include acc

theorem Accounted.sameMagic
    (same : ∀ idx, (table.sockets idx).magic = (s.table.sockets idx).magic) :
    Accounted { s with table } := by
  refine accounts_iff.mpr ⟨fun slot => ?_, fun number isRefused => ?_⟩
  · rw [same]
    exact acc.inUse_iff slot
  · have invalid := atGetSocket_eq_none_iff.mp (acc.refused_invalid number isRefused)
    exact atGetSocket_eq_none_iff.mpr fun idx isIdx => by rw [same, invalid idx isIdx]

theorem Accounted.refuse_iff (same : table.sockets = s.table.sockets)
    (number : Int) : Accounted { s with table, refused := number :: s.refused } ↔
      s.table.atGetSocket number = none := by
  have sameGet : ∀ u, table.atGetSocket u = s.table.atGetSocket u :=
    fun u => by simp only [atGetSocket, same]
  rw [accounts_iff]
  constructor
  · exact fun after => by rw [← sameGet]; exact after.2 number List.mem_cons_self
  · intro invalid
    refine ⟨fun slot => by rw [same]; exact acc.inUse_iff slot, ?_⟩
    exact List.forall_mem_cons.mpr ⟨by rw [sameGet, invalid],
      fun u isRefused => by rw [sameGet]; exact acc.refused_invalid u isRefused⟩

theorem Accounted.close {socket : Int}
    (cases : ((s.table.atDevOps = false ∨ s.table.atGetSocket socket = none) ∧ table = s.table) ∨
      ∃ idx, s.table.atDevOps = true ∧ s.table.atGetSocket socket = some idx ∧
    table = s.table.freeSocket idx) : (s.close socket table).Accounted := by
  have inUse := acc.inUse_iff
  rcases cases with ⟨notClosed, rfl⟩ | ⟨idx, registered, found, rfl⟩
  · refine accounts_iff.mpr ⟨fun slot => ?_, acc.refused_invalid⟩
    simp only [Sockets.close]
    split_ifs with registered
    · have invalid := atGetSocket_eq_none_iff.mp (notClosed.resolve_left (by simp [registered]))
      rw [inUse, List.mem_filter, decide_eq_true_eq]
      refine ⟨fun isOpen => ⟨isOpen, fun isSlot => ?_⟩, And.left⟩
      rw [← inUse, invalid slot isSlot.symm] at isOpen
      simp at isOpen
    · exact inUse slot
  · obtain ⟨isNumber, -⟩ := atGetSocket_eq_some_iff.mp found
    have magic : ∀ slot, ((s.table.freeSocket idx).sockets slot).magic = true ↔
        slot ≠ idx ∧ (s.table.sockets slot).magic = true := by
      intro slot
      rw [freeSocket, sockets_setSocket]
      by_cases isIdx : slot = idx
      · simp [isIdx, AtSocket.zero]
      · simp [isIdx]
    simp only [Sockets.close, registered, if_true]
    refine accounts_iff.mpr ⟨fun slot => ?_, fun number isRefused => ?_⟩
    · rw [magic, inUse, List.mem_filter, decide_eq_true_eq, isNumber, and_comm]
      refine and_congr_right fun _ => not_congr ?_
      omega
    · have invalid := atGetSocket_eq_none_iff.mp (acc.refused_invalid number isRefused)
      refine atGetSocket_eq_none_iff.mpr fun slot isSlot => ?_
      rw [← Bool.not_eq_true, magic, invalid slot isSlot]
      simp

theorem Accounted.not_leaked {idx : Fin n} (entry : s.table.emptyEntry = some idx)
    (claimed : (table.sockets idx).magic = true) (refused : List Int) :
    ¬ Accounted { s with table, refused } := by
  intro after
  have isOpen := (after.inUse_iff idx).mp claimed
  have := (acc.inUse_iff idx).mpr isOpen
  rw [emptyEntry_free entry] at this
  simp at this

theorem Accounted.allocated_iff {idx : Fin n} {sock : AtSocket} (magic : sock.magic = true) :
    Accounted
      { s with
        table := { s.table with atSlock := true }.setSocket idx sock
        opened := (idx : Nat) :: s.opened } ↔ ((idx : Nat) : Int) ∉ s.refused := by
  have isMagic : ∀ slot,
      ((({ s.table with atSlock := true } : Table n).setSocket idx sock).sockets slot).magic =
          true ↔ slot = idx ∨ (s.table.sockets slot).magic = true := by
    intro slot
    by_cases isIdx : slot = idx
    · simp [isIdx, magic]
    · simp [isIdx]
  rw [accounts_iff]
  constructor
  · rintro ⟨-, invalid⟩ isRefused
    have := atGetSocket_eq_none_iff.mp (invalid _ isRefused) idx rfl
    rw [← Bool.not_eq_true, isMagic] at this
    exact this (.inl rfl)
  · intro fresh
    refine ⟨fun slot => ?_, fun number isRefused => ?_⟩
    · rw [isMagic, acc.inUse_iff, List.mem_cons, Fin.ext_iff, Int.natCast_inj]
    · have invalid := atGetSocket_eq_none_iff.mp (acc.refused_invalid number isRefused)
      refine atGetSocket_eq_none_iff.mpr fun slot isSlot => ?_
      rw [← Bool.not_eq_true, isMagic, invalid slot isSlot]
      rintro (rfl | wrong)
      · exact fresh (isSlot ▸ isRefused)
      · simp at wrong

end

theorem Accounted.step_iff [NeZero n] {call : SocketCall} (inv : s.Sound)
    (acc : s.Accounted) (ran : s.step call = some after) : after.Accounted ↔ s.Clean call := by
  cases call with
  | register =>
    cases ran
    exact iff_of_true (acc.sameMagic fun _ => rfl) trivial
  | socket domain type creations =>
    simp only [Clean]
    cases step_socket ran with
    | unsupported notSupported =>
      refine iff_of_true ((acc.refuse_iff rfl (-1)).mpr ?_) (.inl notSupported)
      exact atGetSocket_eq_none_iff.mpr fun idx isIdx => by omega
    | unlocked held made =>
      refine iff_of_true ((acc.refuse_iff rfl 0).mpr ?_) (.inr (.inl ⟨held, made⟩))
      exact atGetSocket_eq_none_iff.mpr fun idx _ => inv.locked held idx
    | full supported lock entry =>
      have same : ({ s.table with atSlock := true } : Table n).sockets = s.table.sockets := rfl
      rw [acc.refuse_iff same 0, atGetSocket_eq_none_iff]
      refine iff_of_false (fun invalid => ?_) ?_
      · have := invalid 0 (by simp)
        rw [emptyEntry_eq_none_iff.mp entry] at this
        simp at this
      · simp only [supported, entry, false_or, reduceCtorEq, Option.mem_def, false_and,
          exists_false, and_false, or_false]
        rintro ⟨held, made⟩
        simp [held, made] at lock
    | leaked supported lock entry magic failed =>
      refine iff_of_false (acc.not_leaked entry (by simp [magic]) _) ?_
      simp only [supported, false_or]
      rintro (⟨held, made⟩ | ⟨notice, made, -⟩)
      · simp [held, made] at lock
      · exact failed ⟨notice, made⟩
    | allocated supported lock entry magic notice made =>
      rw [acc.allocated_iff magic]
      have notLocked : ¬ (s.table.atSlock = false ∧ creations.atSlock = false) := by
        rintro ⟨held, made⟩
        simp [held, made] at lock
      simp [supported, notLocked, notice, made, entry]
  | closesocket socket device =>
    cases ran
    exact iff_of_true (acc.close (atClosesocket_cases _ _ _)) trivial
  | shutdown socket device =>
    cases ran
    exact iff_of_true (acc.close (atShutdown_cases _ _ _)) trivial
  | connect socket device =>
    cases ran
    exact iff_of_true (acc.sameMagic (sameMagic_atConnect _ _ _).2) trivial
  | recvNotice socket buff nonempty =>
    cases ran
    exact iff_of_true (acc.sameMagic (sameMagic_atRecvNoticeCb _ _ _ _).2) trivial
  | closedNotice socket =>
    cases ran
    exact iff_of_true (acc.sameMagic (sameMagic_atClosedNoticeCb _ _).2) trivial

end Sockets

/-- The slots in use are the numbers out, and no failed call returns a valid number, exactly
in the runs whose calls are all clean. -/
theorem sockets_accounted_iff [NeZero n] {taken : List (Taken (Sockets n) SocketCall)}
    {last : Sockets n} (run : (Sockets.system n).Run taken last) :
    Throughout Sockets.Accounted taken last ↔ EveryStep Sockets.Clean taken :=
  run.throughout_iff_everyStep (fun _ init => Sockets.Initial.sound init)
    (fun _ _ _ inv ran => Sockets.Sound.step inv ran)
    (fun _ init => Sockets.Initial.accounted init)
    (fun _ _ _ inv acc ran => Sockets.Accounted.step_iff inv acc ran)

def noSockets : Sockets 2 := ⟨⟨fun _ => .zero, false, false⟩, [], []⟩

theorem noSockets_initial : noSockets.Initial := ⟨fun _ => rfl, rfl, rfl, rfl, rfl⟩

theorem reopened_sockets_accounted :
    ∃ taken, ∃ last : Sockets 2, (Sockets.system 2).Run taken last ∧ last.opened = [0, 1] ∧
      Throughout Sockets.Accounted taken last := by
  let calls : List SocketCall :=
    [.register, .socket afAt 7 ⟨true, true, true⟩, Sockets.plainSocket, Sockets.plainSocket,
      .connect 0 0, .closesocket 0 (-1), .shutdown 0 0, Sockets.plainSocket]
  have run : (Sockets.system 2).Run _ _ :=
    .executed noSockets calls noSockets_initial (by decide +kernel)
  exact ⟨_, _, run, by decide +kernel, (sockets_accounted_iff run).mpr (by decide +kernel)⟩

/-- The creation of the semaphore fails after the slot has been claimed. -/
theorem claimed_slot_leaked : ¬ ∀ taken, ∀ last : Sockets 2, (Sockets.system 2).Run taken last →
      Throughout Sockets.Accounted taken last := by
  intro claim
  let calls : List SocketCall := [.socket afAt sockStream ⟨true, false, true⟩]
  have run : (Sockets.system 2).Run _ _ :=
    .executed noSockets calls noSockets_initial (by decide +kernel)
  exact absurd ((claim _ _ run).1.inUse_iff 0) (by decide +kernel)

end RtThread.At
