import Mathlib.Data.List.Nodup
import RtThread.Net.SalSocket

/-!
# The slots of the socket table

Every slot holds an object of its own.
-/

open Function (update update_of_ne update_self update_idem update_eq_self)

namespace RtThread.Sal

variable {Dev : Type} {table after : Table Dev} {index other ref : Nat} {sock : SalSocket Dev}

structure Fine (table : Table Dev) : Prop where
  length_le : table.sockets.length ≤ salSocketsNum
  backed : ∀ index ref : Nat, table.sockets[index]? = some (some ref) → (table.objects ref).isSome
  apart : ∀ index other ref : Nat, table.sockets[index]? = some (some ref) →
    table.sockets[other]? = some (some ref) → index = other
  bounded : ∃ bound, ∀ ref : Nat, bound ≤ ref → table.objects ref = none

structure Changes (table after : Table Dev) (index : Nat)
    (object : Option (Nat × SalSocket Dev)) : Prop where
  fine : Fine after
  object_eq : after.object = update table.object index object

theorem object_eq_some_iff : table.object index = some (ref, sock) ↔
    table.sockets[index]? = some (some ref) ∧ table.objects ref = some sock := by
  rw [Table.object]
  split
  · next stored isStored =>
    simp only [Option.map_eq_some_iff, Prod.mk.injEq, isStored, Option.some.injEq]
    constructor
    · rintro ⟨_, isObject, rfl, rfl⟩
      exact ⟨rfl, isObject⟩
    · rintro ⟨rfl, isObject⟩
      exact ⟨sock, isObject, rfl, rfl⟩
  · next noSlot =>
    constructor
    · simp
    · rintro ⟨isStored, -⟩
      exact absurd isStored (noSlot ref)

theorem Fine.apart_object (fine : Fine table) {sock' : SalSocket Dev}
    (found : table.object index = some (ref, sock))
    (otherFound : table.object other = some (ref, sock')) : index = other :=
  fine.apart index other ref (object_eq_some_iff.mp found).1 (object_eq_some_iff.mp otherFound).1

theorem bounded_update {objects : Nat → Option (SalSocket Dev)}
    (bounded : ∃ bound, ∀ ref : Nat, bound ≤ ref → objects ref = none) (ref : Nat)
    (v : Option (SalSocket Dev)) :
    ∃ bound, ∀ other : Nat, bound ≤ other → update objects ref v other = none := by
  obtain ⟨bound, free⟩ := bounded
  refine ⟨max bound (ref + 1), fun other above => ?_⟩
  rw [update_of_ne (by omega)]
  exact free other (by omega)

theorem record_fine (fine : Fine table) (action : Action Dev) : Fine (table.record action) :=
  ⟨fine.length_le, fine.backed, fine.apart, fine.bounded⟩

@[simp] theorem record_object (action : Action Dev) :
    (table.record action).object = table.object := rfl

theorem object_update (fine : Fine table) (found : table.object index = some (ref, sock))
    (sock' : SalSocket Dev) :
    (table.setObject ref sock').object = update table.object index (some (ref, sock')) := by
  have isStored := (object_eq_some_iff.mp found).1
  funext other
  by_cases same : other = index
  · subst same
    rw [update_self]
    exact object_eq_some_iff.mpr ⟨isStored, by simp [Table.setObject]⟩
  · rw [update_of_ne same]
    simp only [Table.object, Table.setObject]
    split
    · next stored otherStored =>
      have ne : stored ≠ ref := by
        rintro rfl
        exact same (fine.apart other index stored otherStored isStored)
      rw [update_of_ne ne]
    · rfl

theorem Fine.setObject (fine : Fine table) (found : table.object index = some (ref, sock))
    (sock' : SalSocket Dev) :
    Changes table (table.setObject ref sock') index (some (ref, sock')) where
  fine :=
    { length_le := fine.length_le
      backed := fun index stored isStored => by
        by_cases same : stored = ref
        · simp [Table.setObject, same]
        · simpa [Table.setObject, update_of_ne same] using
            fine.backed index stored isStored
      apart := fine.apart
      bounded := bounded_update fine.bounded ref _ }
  object_eq := object_update fine found sock'

theorem Changes.trans {middle : Table Dev} {object object' : Option (Nat × SalSocket Dev)}
    (a : Changes table middle index object) (second : Changes middle after index object') :
    Changes table after index object' :=
  ⟨second.fine, by rw [second.object_eq, a.object_eq, update_idem]⟩

variable {object : Option (Nat × SalSocket Dev)}

theorem Changes.of_record {action : Action Dev}
    (changes : Changes (table.record action) after index object) :
    Changes table after index object := ⟨changes.fine, changes.object_eq⟩

theorem Fine.free (fine : Fine table) (found : table.object index = some (ref, sock)) :
    Changes table (table.free index ref) index none := by
  have isStored := (object_eq_some_iff.mp found).1
  have stored_of {other stored : Nat}
      (otherStored : (table.free index ref).sockets[other]? = some (some stored)) :
      other ≠ index ∧ table.sockets[other]? = some (some stored) := by
    simp only [Table.free, List.getElem?_set] at otherStored
    split at otherStored
    · split at otherStored <;> simp at otherStored
    · next ne => exact ⟨fun same => ne same.symm, otherStored⟩
  constructor
  · refine ⟨by simpa [Table.free] using fine.length_le, ?_, ?_, bounded_update fine.bounded ref _⟩
    · intro other stored otherStored
      obtain ⟨ne, keptStored⟩ := stored_of otherStored
      have notFreed : stored ≠ ref := by
        rintro rfl
        exact ne (fine.apart other index stored keptStored isStored)
      simpa [Table.free, update_of_ne notFreed] using fine.backed other stored keptStored
    · intro a second stored firstStored secondStored
      exact fine.apart a second stored (stored_of firstStored).2 (stored_of secondStored).2
  · funext other
    by_cases same : other = index
    · subst same
      rw [update_self, Option.eq_none_iff_forall_ne_some]
      rintro ⟨stored, object⟩ isObject
      exact (stored_of (object_eq_some_iff.mp isObject).1).1 rfl
    · rw [update_of_ne same]
      refine Option.ext fun ⟨stored, object⟩ => ?_
      rw [object_eq_some_iff, object_eq_some_iff]
      have kept : (table.free index ref).sockets[other]? = table.sockets[other]? := by
        simp [Table.free, Ne.symm same]
      rw [kept]
      refine and_congr_right fun otherStored => ?_
      have notFreed : stored ≠ ref := by
        rintro rfl
        exact same (fine.apart other index stored otherStored isStored)
      simp [Table.free, update_of_ne notFreed]

theorem salGetSocket_index (found : table.object index = some (ref, sock))
    (isMagic : sock.magic = salSocketMagic) : salGetSocket table index = .found ref sock := by
  have below : index < table.sockets.length :=
    (List.getElem?_eq_some_iff.mp (object_eq_some_iff.mp found).1).1
  rw [salGetSocket, if_neg (by omega)]
  simp [found, isMagic]

theorem salGetSocket_found {socket : Int} (isFound : salGetSocket table socket = .found ref sock) :
    ∃ index : Nat, socket = index ∧ table.object index = some (ref, sock) ∧
      sock.magic = salSocketMagic := by
  rw [salGetSocket] at isFound
  split at isFound
  · cases isFound
  · next inside =>
    split at isFound
    · cases isFound
    · next stored object isObject =>
      split at isFound
      · cases isFound
      · next isMagic =>
        cases isFound
        exact ⟨socket.toNat, by omega, isObject, not_not.mp isMagic⟩

theorem emptyEntry_le : emptyEntry table ≤ table.sockets.length := List.findIdx_le_length

theorem emptyEntry_empty {e : Option Nat} (isEntry : table.sockets[emptyEntry table]? = some e) :
    isEmptyEntry table e = true := by
  obtain ⟨inside, rfl⟩ := List.getElem?_eq_some_iff.mp isEntry
  exact List.findIdx_getElem

theorem grow_fine (fine : Fine table) : Fine (grow table) ∧ (grow table).object = table.object := by
  have stored_of {other stored : Nat}
      (isStored : (grow table).sockets[other]? = some (some stored)) :
      table.sockets[other]? = some (some stored) := by
    simp only [grow, List.getElem?_append] at isStored
    split at isStored
    · exact isStored
    · simp [List.getElem?_replicate] at isStored
  have stored_iff (other stored : Nat) : (grow table).sockets[other]? = some (some stored) ↔
      table.sockets[other]? = some (some stored) := by
    refine ⟨stored_of, fun isStored => ?_⟩
    have below := (List.getElem?_eq_some_iff.mp isStored).1
    simpa [grow, List.getElem?_append, below] using isStored
  constructor
  · refine ⟨?_, ?_, ?_, fine.bounded⟩
    · have := fine.length_le
      simp only [grow, List.length_append, List.length_replicate]
      omega
    · exact fun other stored isStored => fine.backed other stored (stored_of isStored)
    · exact fun a second stored isFirst isSecond =>
        fine.apart a second stored (stored_of isFirst) (stored_of isSecond)
  · funext other
    refine Option.ext fun ⟨stored, object⟩ => ?_
    rw [object_eq_some_iff, object_eq_some_iff, stored_iff]
    rfl

theorem Fine.allocate (fine : Fine table) (isEmpty : table.sockets[index]? = some none)
    (unused : table.objects ref = none) :
    Changes table
      { table with
        sockets := table.sockets.set index (some ref)
        objects := update table.objects ref (some .zero) }
      index (some (ref, .zero)) := by
  have notStored (other : Nat) : table.sockets[other]? ≠ some (some ref) := by
    intro isStored
    have := fine.backed other ref isStored
    simp [unused] at this
  have below := (List.getElem?_eq_some_iff.mp isEmpty).1
  have entries (other : Nat) : (table.sockets.set index (some ref))[other]? =
      if other = index then some (some ref) else table.sockets[other]? := by
    by_cases same : other = index
    · simp [same, below]
    · simp [same, Ne.symm same]
  constructor
  · refine ⟨by simpa using fine.length_le, ?_, ?_, bounded_update fine.bounded ref _⟩
    · intro other stored isStored
      by_cases same : stored = ref
      · simp [same]
      · dsimp only at isStored ⊢
        rw [update_of_ne same]
        rw [entries] at isStored
        split at isStored
        · simp only [Option.some.injEq] at isStored
          exact absurd isStored.symm same
        · exact fine.backed other stored isStored
    · intro a second stored isFirst isSecond
      rw [entries] at isFirst isSecond
      split at isFirst
      · next isIndex =>
        split at isSecond
        · next alsoIndex => rw [isIndex, alsoIndex]
        · simp only [Option.some.injEq] at isFirst
          subst isFirst
          exact absurd isSecond (notStored second)
      · split at isSecond
        · simp only [Option.some.injEq] at isSecond
          subst isSecond
          exact absurd isFirst (notStored a)
        · exact fine.apart a second stored isFirst isSecond
  · funext other
    refine Option.ext fun ⟨stored, object⟩ => ?_
    rw [object_eq_some_iff, entries]
    by_cases same : other = index
    · subst same
      rw [if_pos rfl, update_self]
      simp only [Option.some.injEq]
      constructor
      · rintro ⟨rfl, isObject⟩
        simpa using isObject
      · rintro ⟨rfl, rfl⟩
        simp
    · rw [if_neg same, update_of_ne same, object_eq_some_iff]
      refine and_congr_right fun isStored => ?_
      have notRef : stored ≠ ref := by
        rintro rfl
        exact notStored other isStored
      dsimp only
      rw [update_of_ne notRef]

def Lacks (table : Table Dev) (m : Memory) : Prop :=
  m.realloc = false ∨ m.calloc = none ∨
    (emptyEntry table = table.sockets.length ∧ salSocketsNum ≤ table.sockets.length)

inductive New (table : Table Dev) (m : Memory) : Table Dev → Option Nat → Prop where
  | none {after : Table Dev} (lacks : Lacks table m) (fine : Fine after)
      (object_eq : after.object = table.object) (actions_eq : after.actions = table.actions) :
      New table m after none
  | some {after : Table Dev} {ref : Nat} {sock : SalSocket Dev}
      (changes : Changes table after (emptyEntry table) (some (ref, sock.renew (emptyEntry table))))
      (vacant : ∀ found ∈ table.object (emptyEntry table), found.2.netdev = none)
      (actions_eq : after.actions = table.actions) :
      New table m after (some (emptyEntry table))

theorem emptyEntry_vacant : ∀ found ∈ table.object (emptyEntry table), found.2.netdev = none := by
  rintro ⟨ref, sock⟩ isFound
  obtain ⟨isStored, isObject⟩ := object_eq_some_iff.mp isFound
  have isEmpty := emptyEntry_empty isStored
  simpa [isEmptyEntry, isObject] using isEmpty

theorem allocateObject_cases (fine : Fine table) {calloc : Option Nat}
    (unused : ∀ ref ∈ calloc, table.objects ref = none) (index : Nat) :
    (allocateObject table calloc index = (table, table.sockets.length) ∧ calloc = none) ∨
      (allocateObject table calloc index = (table, index) ∧ table.sockets[index]? ≠ some none) ∨
      ∃ after ref, allocateObject table calloc index = (after, index) ∧
        Changes table after index (some (ref, .zero)) ∧ after.actions = table.actions ∧
        index < after.sockets.length := by
  unfold allocateObject
  split
  · next isEmpty =>
    have below := (List.getElem?_eq_some_iff.mp isEmpty).1
    cases calloc with
    | none => exact .inl ⟨rfl, rfl⟩
    | some ref =>
      exact .inr (.inr ⟨_, ref, rfl, fine.allocate isEmpty (unused ref rfl), rfl, by simpa⟩)
  · next notEmpty => exact .inr (.inl ⟨rfl, notEmpty⟩)

theorem Changes.setObject {object : SalSocket Dev}
    (changes : Changes table after index (some (ref, object))) (sock : SalSocket Dev) :
    Changes table (after.setObject ref sock) index (some (ref, sock)) := by
  have found : after.object index = some (ref, object) := by rw [changes.object_eq, update_self]
  exact changes.trans (changes.fine.setObject found sock)

theorem socketNew_changes {m : Memory} {object : SalSocket Dev}
    (alloc : socketAlloc table m = (after, emptyEntry table))
    (changes : Changes table after (emptyEntry table) (some (ref, object)))
    (below : emptyEntry table < after.sockets.length) (actions_eq : after.actions = table.actions) :
    New table m (socketNew table m).1 (socketNew table m).2 := by
  have found : after.object (emptyEntry table) = some (ref, object) := by
    rw [changes.object_eq, update_self]
  have ran : socketNew table m =
      (after.setObject ref (object.renew (emptyEntry table)), some (emptyEntry table)) := by
    simp only [socketNew, alloc, found, if_neg (Nat.ne_of_lt below)]
  rw [ran]
  exact .some (changes.setObject _) emptyEntry_vacant actions_eq

theorem socketNew_none {m : Memory} (alloc : socketAlloc table m = (after, after.sockets.length))
    (lacks : Lacks table m) (fine : Fine after) (object_eq : after.object = table.object)
    (actions_eq : after.actions = table.actions) :
    New table m (socketNew table m).1 (socketNew table m).2 := by
  have ran : socketNew table m = (after, none) := by simp only [socketNew, alloc, if_true]
  rw [ran]
  exact .none lacks fine object_eq actions_eq

theorem socketNew_cases (fine : Fine table) {m : Memory}
    (unused : ∀ ref ∈ m.calloc, table.objects ref = none) :
    New table m (socketNew table m).1 (socketNew table m).2 := by
  by_cases isFull : emptyEntry table = table.sockets.length ∧ table.sockets.length < salSocketsNum
  · by_cases isReallocated : m.realloc
    · obtain ⟨growFine, growObject⟩ := grow_fine fine
      have alloc : socketAlloc table m =
          allocateObject (grow table) m.calloc (emptyEntry table) := by
        rw [socketAlloc, if_pos isFull, if_pos isReallocated]
      rcases allocateObject_cases growFine unused (emptyEntry table) with
        ⟨same, noMemory⟩ | ⟨-, notEmpty⟩ | ⟨after, ref, allocated, changes, actions_eq, below⟩
      · exact socketNew_none (alloc.trans same) (.inr (.inl noMemory)) growFine growObject rfl
      · refine absurd ?_ notEmpty
        rw [isFull.1]
        simp only [grow, List.getElem?_append_right (Nat.le_refl _)]
        rw [List.getElem?_replicate, if_pos (by simp only [socketTableStepLen]; omega)]
      · have overall : Changes table after (emptyEntry table) (some (ref, .zero)) :=
          ⟨changes.fine, by rw [changes.object_eq, growObject]⟩
        exact socketNew_changes (alloc.trans allocated) overall below actions_eq
    · refine @socketNew_none _ table table m ?_ (.inl (by simpa using isReallocated)) fine rfl rfl
      rw [socketAlloc, if_pos isFull, if_neg isReallocated, isFull.1]
  · have alloc : socketAlloc table m = allocateObject table m.calloc (emptyEntry table) := by
      rw [socketAlloc, if_neg isFull]
    rcases allocateObject_cases fine unused (emptyEntry table) with
      ⟨same, noMemory⟩ | ⟨same, notEmpty⟩ | ⟨after, ref, allocated, changes, actions_eq, below⟩
    · exact socketNew_none (alloc.trans same) (.inr (.inl noMemory)) fine rfl rfl
    · by_cases atEnd : emptyEntry table = table.sockets.length
      · have full : salSocketsNum ≤ table.sockets.length :=
          Nat.le_of_not_lt fun room => isFull ⟨atEnd, room⟩
        refine @socketNew_none _ table table m ?_ (.inr (.inr ⟨atEnd, full⟩)) fine rfl rfl
        rw [alloc, same, atEnd]
      · have below : emptyEntry table < table.sockets.length :=
          Nat.lt_of_le_of_ne emptyEntry_le atEnd
        obtain ⟨ref, isStored⟩ : ∃ ref, table.sockets[emptyEntry table]? = some (some ref) := by
          rw [List.getElem?_eq_getElem below] at notEmpty ⊢
          obtain ⟨ref, isRef⟩ := Option.ne_none_iff_exists'.mp fun isNone =>
            notEmpty (congrArg some isNone)
          exact ⟨ref, congrArg some isRef⟩
        obtain ⟨sock, isObject⟩ := Option.isSome_iff_exists.mp (fine.backed _ _ isStored)
        have found : table.object (emptyEntry table) = some (ref, sock) :=
          object_eq_some_iff.mpr ⟨isStored, isObject⟩
        have changes : Changes table table (emptyEntry table) (some (ref, sock)) :=
          ⟨fine, by rw [← found, update_eq_self]⟩
        exact socketNew_changes (alloc.trans same) changes below rfl
    · exact socketNew_changes (alloc.trans allocated) changes below actions_eq

def Separate (live : List (Int × Nat)) : Prop :=
  (live.map Prod.fst).Nodup ∧ (live.map Prod.snd).Nodup

variable {table after : Table Dev} {index other ref : Nat} {live : List (Int × Nat)}

def occupies (found : Nat × SalSocket Dev) : Option Nat :=
  if found.2.netdev.isSome then some found.1 else none

def Table.occupant (table : Table Dev) (index : Nat) : Option Nat :=
  (table.object index).bind occupies

theorem occupant_eq_some_iff : table.occupant index = some ref ↔
    ∃ sock, table.object index = some (ref, sock) ∧ sock.netdev ≠ none := by
  simp only [Table.occupant, Option.bind_eq_some_iff, Prod.exists]
  constructor
  · rintro ⟨stored, sock, isObject, isRef⟩
    obtain ⟨hasNetdev, ⟨⟩⟩ := Option.ite_none_right_eq_some.mp isRef
    exact ⟨sock, isObject, Option.isSome_iff_ne_none.mp hasNetdev⟩
  · rintro ⟨sock, isObject, hasNetdev⟩
    exact ⟨ref, sock, isObject, if_pos (Option.isSome_iff_ne_none.mpr hasNetdev)⟩

theorem Changes.occupant (changes : Changes table after index object) :
    after.occupant = update table.occupant index (object.bind occupies) := by
  funext other
  by_cases same : other = index
  · subst same
    simp [Table.occupant, changes.object_eq]
  · simp [Table.occupant, changes.object_eq, update_of_ne same]

theorem occupant_congr (object_eq : after.object = table.object) :
    after.occupant = table.occupant := by
  funext index
  rw [Table.occupant, Table.occupant, object_eq]

structure Held (table : Table Dev) (live : List (Int × Nat)) : Prop where
  nodup : live.Nodup
  mem_iff : ∀ socket ref, (socket, ref) ∈ live ↔
    ∃ index : Nat, socket = index ∧ table.occupant index = some ref

section

variable (held : Held table live)

include held

theorem Held.congr (same : after.occupant = table.occupant) :
    Held after live := ⟨held.nodup, fun socket ref => by rw [same, held.mem_iff]⟩

theorem Held.add (vacant : table.occupant index = none)
    (occupied : after.occupant = update table.occupant index (some ref)) :
    Held after (((index : Int), ref) :: live) := by
  constructor
  · refine List.nodup_cons.mpr ⟨fun mem => ?_, held.nodup⟩
    obtain ⟨other, same, isOccupied⟩ := (held.mem_iff _ _).mp mem
    obtain rfl : index = other := by omega
    simp [vacant] at isOccupied
  · intro socket stored
    simp only [List.mem_cons, Prod.mk.injEq, held.mem_iff, occupied]
    constructor
    · rintro (⟨rfl, rfl⟩ | ⟨other, rfl, isOccupied⟩)
      · exact ⟨index, rfl, update_self ..⟩
      · have ne : other ≠ index := by
          rintro rfl
          simp [vacant] at isOccupied
        exact ⟨other, rfl, by rwa [update_of_ne ne]⟩
    · rintro ⟨other, rfl, isOccupied⟩
      by_cases same : other = index
      · subst same
        rw [update_self] at isOccupied
        exact .inl ⟨rfl, (Option.some.inj isOccupied).symm⟩
      · rw [update_of_ne same] at isOccupied
        exact .inr ⟨other, rfl, isOccupied⟩

theorem Held.remove (emptied : after.occupant = update table.occupant index none) :
    Held after (live.filter (·.1 ≠ (index : Int))) := by
  refine ⟨held.nodup.filter _, fun socket stored => ?_⟩
  simp only [List.mem_filter, decide_eq_true_eq, held.mem_iff, emptied]
  constructor
  · rintro ⟨⟨other, rfl, isOccupied⟩, notIndex⟩
    have ne : other ≠ index := by omega
    exact ⟨other, rfl, by rwa [update_of_ne ne]⟩
  · rintro ⟨other, rfl, isOccupied⟩
    have ne : other ≠ index := by
      rintro rfl
      simp at isOccupied
    rw [update_of_ne ne] at isOccupied
    exact ⟨⟨other, rfl, isOccupied⟩, by omega⟩

theorem Held.separate (fine : Fine table) : Separate live := by
  constructor
  · refine List.Nodup.map_on ?_ held.nodup
    rintro ⟨socket, ref⟩ isFirst ⟨_, stored⟩ isSecond rfl
    obtain ⟨index, rfl, isOccupied⟩ := (held.mem_iff _ _).mp isFirst
    obtain ⟨other, same, otherOccupied⟩ := (held.mem_iff _ _).mp isSecond
    obtain rfl : index = other := by dsimp only at same; omega
    rw [isOccupied] at otherOccupied
    rw [Option.some.inj otherOccupied]
  · refine List.Nodup.map_on ?_ held.nodup
    rintro ⟨socket, ref⟩ isFirst ⟨other, _⟩ isSecond rfl
    obtain ⟨index, rfl, isOccupied⟩ := (held.mem_iff _ _).mp isFirst
    obtain ⟨index', rfl, otherOccupied⟩ := (held.mem_iff _ _).mp isSecond
    obtain ⟨sock, found, -⟩ := occupant_eq_some_iff.mp isOccupied
    obtain ⟨sock', otherFound, -⟩ := occupant_eq_some_iff.mp otherOccupied
    rw [fine.apart_object found otherFound]

end

def Reserved (table : Table Dev) (index : Nat) : Prop :=
  ∃ ref sock, table.object index = some (ref, sock) ∧ sock.magic = salSocketMagic ∧
    sock.netdev = none ∧ sock.socket = index

theorem Reserved.vacant (reserved : Reserved table index) : table.occupant index = none := by
  obtain ⟨ref, sock, found, -, noNetdev, -⟩ := reserved
  simp [Table.occupant, found, occupies, noNetdev]

theorem Reserved.of_changes (reserved : Reserved table other)
    (changes : Changes table after index object) (ne : other ≠ index) : Reserved after other := by
  obtain ⟨ref, sock, found, rest⟩ := reserved
  exact ⟨ref, sock, by rwa [changes.object_eq, update_of_ne ne], rest⟩

end RtThread.Sal
