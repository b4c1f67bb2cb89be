import RtThread.Dfs.Ramfs
import RtThread.Library.TransitionSystem

/-!
# The names of the files in memory

Files are created, unlinked and renamed by paths that begin with slashes.  A name is kept
without them when a file is created, and as it is when a file is renamed, in an array that
may be too short for its terminator.
-/

open Function (update update_of_ne update_self)

namespace RtThread.Dfs

open TransitionSystem

variable {Id : Type} [DecidableEq Id]

/-- The file system, the entries in allocated memory, whether the root has been freed, the
name that each entry was last created or renamed under, and whether the last call failed. -/
structure Names (Id : Type) where
  ramfs : Ramfs Id
  live : List Id
  rootFreed : Bool
  given : RamfsEntry Id → List Char
  failed : Bool

inductive NameCall (Id : Type) where
  | openFile (path : CString) (flags : OpenFlags) (alloc : Option Id)
  | unlink (path : CString)
  | rename (oldpath newpath : CString)

namespace Names

def step (behind : RamfsDirent → List Char) (names : Names Id) :
    NameCall Id → Option (Names Id)
  | .openFile path flags alloc =>
    if ∀ id ∈ alloc, id ∉ names.live then
      match names.ramfs.dfsRamfsOpen behind path flags alloc with
      | (ramfs, .error _) => some { names with ramfs, failed := true }
      | (ramfs, .ok file) =>
        match file.data with
        | .root => some { names with ramfs, failed := false }
        | .file id =>
          if id ∈ names.live then some { names with ramfs, failed := false }
          else some { names with
            ramfs, live := id :: names.live, failed := false
            given := update names.given (.file id) (stripped path) }
    else none
  | .unlink path =>
    match names.ramfs.dfsRamfsUnlink behind path with
    | (ramfs, .error _) => some { names with ramfs, failed := true }
    | (ramfs, .ok .root) => some { names with ramfs, rootFreed := true, failed := false }
    | (ramfs, .ok (.file id)) =>
      some { names with ramfs, live := names.live.filter (· ≠ id), failed := false }
  | .rename oldpath newpath =>
    match names.ramfs.dfsRamfsRename behind oldpath newpath with
    | (ramfs, .error _) => some { names with ramfs, failed := true }
    | (ramfs, .ok entry) =>
      some { names with
        ramfs, failed := false
        given := update names.given entry (stripped newpath) }

def Initial (names : Names Id) : Prop :=
  names.ramfs.list = [] ∧ names.live = [] ∧ names.rootFreed = false ∧ names.given .root = []

def system (behind : RamfsDirent → List Char) (Id : Type) [DecidableEq Id] :
    TransitionSystem (Names Id) (NameCall Id) :=
  ofFunction Initial (step behind)

/-- The entries are the existing files under distinct terminated names, and a path finds the
entry that was given its name. -/
structure Consistent (behind : RamfsDirent → List Char) (names : Names Id) : Prop where
  rootKept : names.rootFreed = false
  entries : names.ramfs.list.Nodup ∧ ∀ id, id ∈ names.ramfs.list ↔ id ∈ names.live
  terminated : ∀ id ∈ names.ramfs.list, '\x00' ∈ (names.ramfs.dirent id).name
  distinct : ∀ id ∈ names.ramfs.list, ∀ u ∈ names.ramfs.list,
    CString.ofMemory (names.ramfs.dirent id).name =
      CString.ofMemory (names.ramfs.dirent u).name → id = u
  found : ∀ path entry, names.ramfs.dfsRamfsLookup behind path = some entry ↔
    names.ramfs.Holds entry ∧ stripped path = names.given entry

def KeptByError (step : Taken (Names Id) (NameCall Id)) : Prop :=
  step.after.failed = true →
    step.after.ramfs = step.before.ramfs ∧ step.after.live = step.before.live

/-- Files are created under short names, the root is not unlinked, and a rename that succeeds
is one of a file to a short name without a slash in front. -/
def Proper (behind : RamfsDirent → List Char) (names : Names Id) : NameCall Id → Prop
  | .openFile path flags alloc =>
    flags.directory = false → names.ramfs.Creates behind path flags alloc →
      (stripped path).length < ramfsNameMax
  | .unlink path => stripped path ≠ []
  | .rename oldpath newpath =>
    names.ramfs.dfsRamfsLookup behind newpath = none →
      ∀ entry ∈ names.ramfs.dfsRamfsLookup behind oldpath,
        entry ≠ .root ∧ newpath.chars.length < ramfsNameMax ∧ newpath.chars.head? ≠ some '/'

instance (behind : RamfsDirent → List Char) (names : Names Id) (call : NameCall Id) :
    Decidable (names.Proper behind call) := by
  cases call <;> unfold Proper
  · unfold Ramfs.Creates
    infer_instance
  · infer_instance
  · infer_instance

end Names

section Memory

theorem ofMemory_append {m : List Char} (terminated : '\x00' ∈ m) (rest : List Char) :
    CString.ofMemory (m ++ rest) = CString.ofMemory m := by
  apply CString.ext
  simp only [CString.ofMemory]
  rw [List.takeWhile_append, if_neg]
  intro all
  have same : m.takeWhile (· ≠ '\x00') = m :=
    List.IsPrefix.eq_of_length (List.takeWhile_prefix _) all
  rw [← same] at terminated
  exact (CString.ofMemory m).terminated terminated

theorem mem_strncpy {chars : List Char} (noNul : '\x00' ∉ chars) {n : Nat} :
    '\x00' ∈ strncpy chars n ↔ chars.length < n := by
  have notTaken : '\x00' ∉ chars.take n := fun isNul => noNul (List.mem_of_mem_take isNul)
  simp only [strncpy, List.mem_append, notTaken, false_or, List.mem_replicate, and_true]
  omega

theorem ofMemory_strncpy {chars : List Char} (noNul : '\x00' ∉ chars) {n : Nat}
    (fits : chars.length < n) : (CString.ofMemory (strncpy chars n)).chars = chars := by
  obtain ⟨rest, eq⟩ := Nat.exists_eq_add_of_lt fits
  simp only [CString.ofMemory, strncpy, List.take_of_length_le (Nat.le_of_lt fits)]
  rw [List.takeWhile_append_of_pos]
  · simp
  · intro c isChar
    have : c ≠ '\x00' := fun isNul => noNul (isNul ▸ isChar)
    simpa using this

theorem stripped_noNul (path : CString) : '\x00' ∉ stripped path := fun isNul =>
  path.terminated ((List.dropWhile_sublist _).subset isNul)

theorem head?_stripped (path : CString) : (stripped path).head? ≠ some '/' := by
  intro isSlash
  have := List.head?_dropWhile_not (fun c => decide (c = '/')) path.chars
  rw [stripped] at isSlash
  simp [isSlash] at this

theorem stripped_eq_self {path : CString} (noSlash : path.chars.head? ≠ some '/') :
    stripped path = path.chars := by
  unfold stripped
  cases chars : path.chars with
  | nil => rfl
  | cons c rest =>
    rw [chars] at noSlash
    have : ¬ c = '/' := by simpa using noSlash
    simp [this]

end Memory

namespace Ramfs

variable {behind : RamfsDirent → List Char} {ramfs : Ramfs Id} {path : CString}
  {flags : OpenFlags} {alloc : Option Id}

def nameOf (ramfs : Ramfs Id) (id : Id) : List Char :=
  (CString.ofMemory (ramfs.dirent id).name).chars

structure Named (ramfs : Ramfs Id) : Prop where
  terminated : ∀ id ∈ ramfs.list, '\x00' ∈ (ramfs.dirent id).name
  distinct : ∀ id ∈ ramfs.list, ∀ u ∈ ramfs.list, ramfs.nameOf id = ramfs.nameOf u →
    id = u

section

omit [DecidableEq Id]

theorem lookup_root_iff : ramfs.dfsRamfsLookup behind path = some .root ↔ stripped path = [] := by
  simp [dfsRamfsLookup]

theorem Named.lookup_file_iff (named : ramfs.Named) {id : Id} :
    ramfs.dfsRamfsLookup behind path = some (.file id) ↔
      stripped path ≠ [] ∧ id ∈ ramfs.list ∧ ramfs.nameOf id = stripped path := by
  have isName : ∀ u ∈ ramfs.list,
      (CString.ofMemory ((ramfs.dirent u).name ++ behind (ramfs.dirent u))).chars =
        ramfs.nameOf u := fun u mem => by
    rw [ofMemory_append (named.terminated u mem), nameOf]
  simp only [dfsRamfsLookup]
  split_ifs with root
  · simp [root]
  · rw [Option.map_eq_some_iff]
    simp only [RamfsEntry.file.injEq, exists_eq_right, ne_eq, root, not_false_eq_true, true_and]
    constructor
    · intro found
      have mem := List.mem_of_find?_eq_some found
      have same := List.find?_some found
      rw [isName id mem, decide_eq_true_eq] at same
      exact ⟨mem, same⟩
    · rintro ⟨mem, same⟩
      cases found : ramfs.list.find? fun u => decide ((CString.ofMemory
          ((ramfs.dirent u).name ++ behind (ramfs.dirent u))).chars = stripped path) with
      | none =>
        have ne := List.find?_eq_none.mp found id mem
        rw [isName id mem, decide_eq_true_eq] at ne
        exact absurd same ne
      | some u =>
        have otherIn := List.mem_of_find?_eq_some found
        have otherSame := List.find?_some found
        rw [isName u otherIn, decide_eq_true_eq] at otherSame
        rw [named.distinct u otherIn id mem (otherSame.trans same.symm)]

theorem Named.lookup_none (named : ramfs.Named) (absent : ramfs.dfsRamfsLookup behind path = none) :
    stripped path ≠ [] ∧ ∀ id ∈ ramfs.list, ramfs.nameOf id ≠ stripped path := by
  have notRoot : stripped path ≠ [] := fun root => by
    rw [lookup_root_iff.mpr root] at absent
    exact nomatch absent
  refine ⟨notRoot, fun id mem same => ?_⟩
  rw [named.lookup_file_iff.mpr ⟨notRoot, mem, same⟩] at absent
  exact nomatch absent

end

/-- What `dfs_ramfs_open` does to the names: nothing, or it adds a file. -/
inductive OpenedName (ramfs : Ramfs Id) (path : CString) (alloc : Option Id) (creates : Prop) :
    Ramfs Id × Except RamfsError (RamfsFd Id) → Prop
  | refused {error : RamfsError} : ¬ creates →
      OpenedName ramfs path alloc creates (ramfs, .error error)
  | present {after : Ramfs Id} {file : RamfsFd Id} : ¬ creates →
      ramfs.Holds file.data → after.list = ramfs.list →
      (∀ id, (after.dirent id).name = (ramfs.dirent id).name) →
      OpenedName ramfs path alloc creates (after, .ok file)
  | created {after : Ramfs Id} {file : RamfsFd Id} {id : Id} : creates → id ∈ alloc →
      file.data = .file id → after.list = id :: ramfs.list →
      (after.dirent id).name = strncpy (stripped path) ramfsNameMax →
      (∀ u, u ≠ id → (after.dirent u).name = (ramfs.dirent u).name) →
      OpenedName ramfs path alloc creates (after, .ok file)

theorem set_names {e : RamfsEntry Id} {dirent : RamfsDirent}
    (same : dirent.name = (ramfs.get e).name) : (ramfs.set e dirent).list = ramfs.list ∧
      ∀ id, ((ramfs.set e dirent).dirent id).name = (ramfs.dirent id).name := by
  cases e with
  | root => exact ⟨rfl, fun _ => rfl⟩
  | file id =>
    refine ⟨rfl, fun u => ?_⟩
    by_cases isId : u = id
    · simp [set, isId, same, get]
    · simp [set, isId]

theorem truncated_names (ramfs : Ramfs Id) (e : RamfsEntry Id) (trunc : Bool) :
    (if trunc then ramfs.set e { ramfs.get e with data := none, size := 0 }
      else ramfs).list = ramfs.list ∧
    ∀ id, ((if trunc then ramfs.set e { ramfs.get e with data := none, size := 0 }
      else ramfs).dirent id).name = (ramfs.dirent id).name := by
  cases trunc with
  | true => exact set_names rfl
  | false => exact ⟨rfl, fun _ => rfl⟩

theorem openedName (behind : RamfsDirent → List Char) (ramfs : Ramfs Id) (path : CString)
    (flags : OpenFlags) (alloc : Option Id) : OpenedName ramfs path alloc
      (flags.directory = false ∧ ramfs.Creates behind path flags alloc)
      (ramfs.dfsRamfsOpen behind path flags alloc) := by
  unfold dfsRamfsOpen
  cases directory : flags.directory with
  | true =>
    have notCreated : ¬ (true = false ∧ ramfs.Creates behind path flags alloc) := nofun
    rw [if_pos rfl]
    cases flags.creat with
    | true => exact .refused notCreated
    | false =>
      rw [if_neg Bool.false_ne_true]
      cases found : ramfs.dfsRamfsLookup behind path with
      | none => exact .refused notCreated
      | some e => exact .present notCreated (holds_of_lookup found) rfl fun _ => rfl
  | false =>
    rcases openEntry_cases behind ramfs path flags alloc with
      ⟨notCreated, error, isEntry⟩ | ⟨notCreated, e, held, isEntry⟩ |
        ⟨creates, id, isAlloc, isEntry⟩
    · rw [isEntry]
      exact .refused fun creates => notCreated creates.2
    · rw [isEntry]
      obtain ⟨list, names⟩ := truncated_names ramfs e flags.trunc
      exact .present (fun creates => notCreated creates.2) held list names
    · rw [isEntry]
      obtain ⟨list, names⟩ := truncated_names
        { ramfs.set (.file id) ⟨strncpy (stripped path) ramfsNameMax, none, 0⟩ with
          list := id :: ramfs.list } (.file id) flags.trunc
      refine .created ⟨rfl, creates⟩ isAlloc rfl list ?_ fun u isOther => ?_
      · rw [names]
        simp [set]
      · rw [names]
        simp [set, isOther]

end Ramfs

namespace Names

variable {behind : RamfsDirent → List Char} {names after : Names Id}

/-- The names given are those in the entries, which the list holds. -/
structure Sound (names : Names Id) : Prop where
  named : names.ramfs.Named
  rootKept : names.rootFreed = false
  nodup : names.ramfs.list.Nodup
  live : ∀ id, id ∈ names.ramfs.list ↔ id ∈ names.live
  given : ∀ id ∈ names.ramfs.list, names.given (.file id) = names.ramfs.nameOf id
  nonempty : ∀ id ∈ names.ramfs.list, names.ramfs.nameOf id ≠ []
  root : names.given .root = []

omit [DecidableEq Id] in
theorem Sound.consistent (inv : names.Sound) : names.Consistent behind := by
  refine ⟨inv.rootKept, ⟨inv.nodup, inv.live⟩, inv.named.terminated, ?_, ?_⟩
  · intro id mem u otherIn same
    exact inv.named.distinct id mem u otherIn (congrArg CString.chars same)
  · intro path e
    cases e with
    | root => rw [Ramfs.lookup_root_iff, inv.root]; exact (and_iff_right trivial).symm
    | file id =>
      rw [inv.named.lookup_file_iff]
      constructor
      · rintro ⟨-, mem, same⟩
        exact ⟨mem, by rw [inv.given id mem, same]⟩
      · rintro ⟨mem, same⟩
        rw [inv.given id mem] at same
        exact ⟨by rw [same]; exact inv.nonempty id mem, mem, same.symm⟩

omit [DecidableEq Id] in
theorem Consistent.named (consistent : names.Consistent behind) : names.ramfs.Named :=
  ⟨consistent.terminated, fun id mem u otherIn same =>
    consistent.distinct id mem u otherIn (CString.ext same)⟩

section

variable (inv : names.Sound)

include inv

omit [DecidableEq Id] in
theorem Sound.sameNames {ramfs : Ramfs Id} (failed : Bool) (list : ramfs.list = names.ramfs.list)
    (same : ∀ id, (ramfs.dirent id).name = (names.ramfs.dirent id).name) :
    Sound { names with ramfs, failed } := by
  have sameName : ∀ id, ramfs.nameOf id = names.ramfs.nameOf id := fun id => by
    rw [Ramfs.nameOf, same, Ramfs.nameOf]
  refine ⟨⟨?_, ?_⟩, inv.rootKept, ?_, ?_, ?_, ?_, inv.root⟩
  · intro id mem
    rw [same]
    exact inv.named.terminated id (list ▸ mem)
  · intro id mem u otherIn equal
    rw [sameName, sameName] at equal
    exact inv.named.distinct id (list ▸ mem) u (list ▸ otherIn) equal
  · rw [list]
    exact inv.nodup
  · intro id
    rw [list]
    exact inv.live id
  · intro id mem
    rw [sameName]
    exact inv.given id (list ▸ mem)
  · intro id mem
    rw [sameName]
    exact inv.nonempty id (list ▸ mem)

theorem Sound.created {ramfs : Ramfs Id} {path : CString} {id : Id} {failed : Bool}
    (absent : names.ramfs.dfsRamfsLookup behind path = none) (fresh : id ∉ names.live)
    (list : ramfs.list = id :: names.ramfs.list)
    (new : (ramfs.dirent id).name = strncpy (stripped path) ramfsNameMax)
    (others : ∀ u, u ≠ id → (ramfs.dirent u).name = (names.ramfs.dirent u).name)
    (short : (stripped path).length < ramfsNameMax) : Sound { names with
      ramfs, live := id :: names.live, failed
      given := update names.given (.file id) (stripped path) } := by
  obtain ⟨notRoot, unlike⟩ := inv.named.lookup_none absent
  have notIn : id ∉ names.ramfs.list := fun mem => fresh ((inv.live id).mp mem)
  have isNew : ramfs.nameOf id = stripped path := by
    rw [Ramfs.nameOf, new, ofMemory_strncpy (stripped_noNul path) short]
  have sameName : ∀ u ∈ names.ramfs.list, ramfs.nameOf u = names.ramfs.nameOf u :=
    fun u mem => by
      rw [Ramfs.nameOf, others u fun same => notIn (same ▸ mem), Ramfs.nameOf]
  have ne : ∀ u ∈ names.ramfs.list, u ≠ id := fun u mem same => notIn (same ▸ mem)
  refine ⟨⟨?_, ?_⟩, inv.rootKept, ?_, ?_, ?_, ?_, ?_⟩
  · simp only [list, List.forall_mem_cons]
    refine ⟨by rw [new, mem_strncpy (stripped_noNul path)]; exact short, ?_⟩
    intro u mem
    rw [others u (ne u mem)]
    exact inv.named.terminated u mem
  · simp only [list, List.forall_mem_cons]
    refine ⟨⟨fun _ => trivial, fun u mem same => ?_⟩, fun u mem =>
      ⟨fun same => ?_, fun third thirdIn same => ?_⟩⟩
    · rw [isNew, sameName u mem] at same
      exact absurd same.symm (unlike u mem)
    · rw [isNew, sameName u mem] at same
      exact absurd same (unlike u mem)
    · rw [sameName u mem, sameName third thirdIn] at same
      exact inv.named.distinct u mem third thirdIn same
  · rw [list]
    exact List.nodup_cons.mpr ⟨notIn, inv.nodup⟩
  · intro u
    rw [list, List.mem_cons, List.mem_cons, inv.live]
  · simp only [list, List.forall_mem_cons, update_self, isNew, true_and]
    intro u mem
    rw [update_of_ne (by simpa using ne u mem), sameName u mem]
    exact inv.given u mem
  · simp only [list, List.forall_mem_cons, isNew]
    exact ⟨notRoot, fun u mem => by
      rw [sameName u mem]
      exact inv.nonempty u mem⟩
  · simpa using inv.root

theorem Sound.unlinked (id : Id) (failed : Bool) : Sound { names with
      ramfs := { names.ramfs with list := names.ramfs.list.erase id }
      live := names.live.filter (· ≠ id), failed } := by
  have inBefore : ∀ u ∈ names.ramfs.list.erase id, u ∈ names.ramfs.list :=
    fun u mem => List.mem_of_mem_erase mem
  refine ⟨⟨?_, ?_⟩, inv.rootKept, inv.nodup.erase id, ?_, ?_, ?_, inv.root⟩
  · exact fun u mem => inv.named.terminated u (inBefore u mem)
  · exact fun u mem third thirdIn same =>
      inv.named.distinct u (inBefore u mem) third (inBefore third thirdIn) same
  · intro u
    rw [inv.nodup.mem_erase_iff, List.mem_filter, inv.live, decide_eq_true_eq, and_comm]
  · exact fun u mem => inv.given u (inBefore u mem)
  · exact fun u mem => inv.nonempty u (inBefore u mem)

theorem Sound.renamed {newpath : CString} {id : Id} {failed : Bool}
    (absent : names.ramfs.dfsRamfsLookup behind newpath = none)
    (short : newpath.chars.length < ramfsNameMax) (noSlash : newpath.chars.head? ≠ some '/') :
    Sound { names with
      ramfs := names.ramfs.set (.file id)
        { names.ramfs.dirent id with name := strncpy newpath.chars ramfsNameMax }
      failed, given := update names.given (.file id) (stripped newpath) } := by
  obtain ⟨notRoot, unlike⟩ := inv.named.lookup_none absent
  have isName := stripped_eq_self noSlash
  generalize isRamfs : names.ramfs.set (.file id)
    { names.ramfs.dirent id with name := strncpy newpath.chars ramfsNameMax } = ramfs
  have list : ramfs.list = names.ramfs.list := by rw [← isRamfs]; rfl
  have new : (ramfs.dirent id).name = strncpy newpath.chars ramfsNameMax := by
    rw [← isRamfs]
    simp [Ramfs.set]
  have others : ∀ u, u ≠ id →
      (ramfs.dirent u).name = (names.ramfs.dirent u).name := fun u isOther => by
    rw [← isRamfs]
    simp [Ramfs.set, isOther]
  have isNew : ramfs.nameOf id = stripped newpath := by
    rw [Ramfs.nameOf, new, ofMemory_strncpy newpath.terminated short, isName]
  have sameName : ∀ u, u ≠ id → ramfs.nameOf u = names.ramfs.nameOf u :=
    fun u isOther => by rw [Ramfs.nameOf, others u isOther, Ramfs.nameOf]
  refine ⟨⟨?_, ?_⟩, inv.rootKept, ?_, ?_, ?_, ?_, ?_⟩
  · intro u mem
    by_cases isId : u = id
    · rw [isId, new, mem_strncpy newpath.terminated]
      exact short
    · rw [others u isId]
      exact inv.named.terminated u (list ▸ mem)
  · intro u mem third thirdIn same
    rw [list] at mem thirdIn
    by_cases isId : u = id <;> by_cases thirdIs : third = id
    · rw [isId, thirdIs]
    · rw [isId, isNew, sameName third thirdIs] at same
      exact absurd same.symm (unlike third thirdIn)
    · rw [thirdIs, isNew, sameName u isId] at same
      exact absurd same (unlike u mem)
    · rw [sameName u isId, sameName third thirdIs] at same
      exact inv.named.distinct u mem third thirdIn same
  · rw [list]
    exact inv.nodup
  · intro u
    rw [list, inv.live]
  · intro u mem
    rw [list] at mem
    by_cases isId : u = id
    · simp only [isId, update_self, isNew]
    · simp only [sameName u isId]
      rw [update_of_ne (by simpa using isId)]
      exact inv.given u mem
  · intro u mem
    rw [list] at mem
    by_cases isId : u = id
    · rw [isId, isNew]
      exact notRoot
    · rw [sameName u isId]
      exact inv.nonempty u mem
  · simpa using inv.root

end

theorem keptByError {call : NameCall Id} (ran : names.step behind call = some after) :
    KeptByError ⟨names, call, after⟩ := by
  cases call with
  | openFile path flags alloc =>
    obtain ⟨-, isAfter⟩ := Option.ite_none_right_eq_some.mp ran
    have openedName := Ramfs.openedName behind names.ramfs path flags alloc
    generalize names.ramfs.dfsRamfsOpen behind path flags alloc = r at isAfter openedName
    have succeeds : ∀ ramfs file, r = (ramfs, .ok file) → after.failed = false := by
      rintro ramfs file rfl
      simp only at isAfter
      split at isAfter
      · rw [← Option.some.inj isAfter]
      · split_ifs at isAfter <;> rw [← Option.some.inj isAfter]
    cases openedName with
    | refused =>
      cases isAfter
      exact fun _ => ⟨rfl, rfl⟩
    | present | created => exact fun failed => nomatch (succeeds _ _ rfl).symm.trans failed
  | unlink path =>
    simp only [step, Ramfs.dfsRamfsUnlink] at ran
    rcases found : names.ramfs.dfsRamfsLookup behind path with _ | _ | id
    all_goals
      simp only [found, Option.some.injEq] at ran
      subst ran
    · exact fun _ => ⟨rfl, rfl⟩
    · exact nofun
    · exact nofun
  | rename oldpath newpath =>
    simp only [step, Ramfs.dfsRamfsRename] at ran
    rcases absent : names.ramfs.dfsRamfsLookup behind newpath with _ | e
    · rcases found : names.ramfs.dfsRamfsLookup behind oldpath with _ | e
      all_goals
        simp only [absent, found, Option.some.injEq] at ran
        subst ran
      · exact fun _ => ⟨rfl, rfl⟩
      · exact nofun
    · simp only [absent, Option.some.injEq] at ran
      subst ran
      exact fun _ => ⟨rfl, rfl⟩

section

variable (inv : names.Sound)

include inv

theorem Sound.step_openFile {path : CString} {flags : OpenFlags} {alloc : Option Id}
    (ran : names.step behind (.openFile path flags alloc) = some after) :
    (names.Proper behind (.openFile path flags alloc) → after.Sound) ∧
      (after.Consistent behind → names.Proper behind (.openFile path flags alloc)) := by
  obtain ⟨fresh, isAfter⟩ := Option.ite_none_right_eq_some.mp ran
  have openedName := Ramfs.openedName behind names.ramfs path flags alloc
  generalize names.ramfs.dfsRamfsOpen behind path flags alloc = result at isAfter openedName
  cases openedName with
  | refused notCreated =>
    cases isAfter
    exact ⟨fun _ => inv.sameNames true rfl fun _ => rfl,
      fun _ file creates => absurd ⟨file, creates⟩ notCreated⟩
  | @present ramfs file notCreated held list same =>
    have isAfter : after = { names with ramfs, failed := false } := by
      cases data : file.data with
      | root => simpa [data] using isAfter.symm
      | file id =>
        rw [data] at held
        have alive : id ∈ names.live := (inv.live id).mp held
        simpa [data, alive] using isAfter.symm
    subst isAfter
    exact ⟨fun _ => inv.sameNames false list same,
      fun _ file creates => absurd ⟨file, creates⟩ notCreated⟩
  | @created ramfs file id creates isAlloc data list new others =>
    have notAlive := fresh id isAlloc
    simp only [data, notAlive, if_false, Option.some.injEq] at isAfter
    subst isAfter
    refine ⟨fun proper => inv.created creates.2.1 notAlive list new others
      (proper creates.1 creates.2), fun consistent _ _ => ?_⟩
    have terminated := consistent.terminated id (by rw [list]; exact List.mem_cons_self)
    simp only [new] at terminated
    exact (mem_strncpy (stripped_noNul path)).mp terminated

theorem Sound.step_unlink {path : CString} (ran : names.step behind (.unlink path) = some after) :
    (names.Proper behind (.unlink path) → after.Sound) ∧
      (after.Consistent behind → names.Proper behind (.unlink path)) := by
  simp only [step, Ramfs.dfsRamfsUnlink] at ran
  cases found : names.ramfs.dfsRamfsLookup behind path with
  | none =>
    simp only [found, Option.some.injEq] at ran
    subst ran
    refine ⟨fun _ => inv.sameNames true rfl fun _ => rfl, fun _ root => ?_⟩
    rw [Ramfs.lookup_root_iff.mpr root] at found
    exact nomatch found
  | some e =>
    cases e with
    | root =>
      simp only [found, Option.some.injEq] at ran
      subst ran
      have root : stripped path = [] := Ramfs.lookup_root_iff.mp found
      exact ⟨fun proper => absurd root proper, fun consistent => nomatch consistent.rootKept⟩
    | file id =>
      simp only [found, Option.some.injEq] at ran
      subst ran
      exact ⟨fun _ => inv.unlinked id false, fun _ => (inv.named.lookup_file_iff.mp found).1⟩

theorem Sound.step_rename {oldpath newpath : CString}
    (ran : names.step behind (.rename oldpath newpath) = some after) :
    (names.Proper behind (.rename oldpath newpath) → after.Sound) ∧
      (after.Consistent behind → names.Proper behind (.rename oldpath newpath)) := by
  simp only [step, Ramfs.dfsRamfsRename] at ran
  cases absent : names.ramfs.dfsRamfsLookup behind newpath with
  | some e =>
    simp only [absent, Option.some.injEq] at ran
    subst ran
    refine ⟨fun _ => inv.sameNames true rfl fun _ => rfl, fun _ none => ?_⟩
    simp [absent] at none
  | none =>
    cases found : names.ramfs.dfsRamfsLookup behind oldpath with
    | none =>
      simp only [absent, found, Option.some.injEq] at ran
      subst ran
      refine ⟨fun _ => inv.sameNames true rfl fun _ => rfl, fun _ _ e isEntry => ?_⟩
      simp [found] at isEntry
    | some e =>
      simp only [absent, found, Option.some.injEq] at ran
      subst ran
      have notRoot := (inv.named.lookup_none absent).1
      refine ⟨fun proper => ?_, fun consistent _ u isOther => ?_⟩
      · obtain ⟨notRoot, short, noSlash⟩ := proper absent e found
        cases e with
        | root => exact absurd rfl notRoot
        | file id =>
          exact inv.renamed absent short noSlash
      · rw [found] at isOther
        cases isOther
        have finds := (consistent.found newpath e).mpr
          ⟨Ramfs.holds_set.mpr (Ramfs.holds_of_lookup found),
            (update_self e (stripped newpath) names.given).symm⟩
        have held := (consistent.found newpath e).mp finds
        have named := consistent.named
        cases e with
        | root => exact absurd (Ramfs.lookup_root_iff.mp finds) notRoot
        | file id =>
          have new : ((names.ramfs.set (.file id)
              { names.ramfs.dirent id with
                name := strncpy newpath.chars ramfsNameMax }).dirent id).name =
                strncpy newpath.chars ramfsNameMax := by
            simp [Ramfs.set]
          have terminated := consistent.terminated id held.1
          have short : newpath.chars.length < ramfsNameMax :=
            (mem_strncpy newpath.terminated).mp (new ▸ terminated)
          refine ⟨by simp, short, fun slash => ?_⟩
          have same : (CString.ofMemory (strncpy newpath.chars ramfsNameMax)).chars =
              stripped newpath := by
            rw [← new]
            exact (named.lookup_file_iff.mp finds).2.2
          rw [ofMemory_strncpy newpath.terminated short] at same
          exact head?_stripped newpath (by rw [← same]; exact slash)

theorem Sound.step {call : NameCall Id} (ran : names.step behind call = some after) :
    (names.Proper behind call → after.Sound) ∧
      (after.Consistent behind → names.Proper behind call) := by
  cases call with
  | openFile path flags alloc => exact inv.step_openFile ran
  | unlink path => exact inv.step_unlink ran
  | rename oldpath newpath => exact inv.step_rename ran

end

omit [DecidableEq Id] in
theorem Initial.sound (init : Initial names) : names.Sound := by
  obtain ⟨list, live, rootKept, root⟩ := init
  exact ⟨⟨by simp [list], by simp [list]⟩, rootKept, by simp [list], by simp [list, live],
    by simp [list], by simp [list], root⟩

end Names

/-- The names are consistent in every state of a run, and failed calls change nothing, exactly
if all calls are proper. -/
theorem ramfs_names_iff (behind : RamfsDirent → List Char)
    {taken : List (Taken (Names Id) (NameCall Id))} {last : Names Id}
    (run : (Names.system behind Id).Run taken last) :
    (Throughout (Names.Consistent behind) taken last ∧ ∀ step ∈ taken, Names.KeptByError step) ↔
      EveryStep (Names.Proper behind) taken := by
  have kept : ∀ step ∈ taken, Names.KeptByError step :=
    (@Run.everyTaken_iff_everyStep _ _ (Names.system behind Id) (fun _ => True)
      Names.KeptByError (fun _ _ => True) (fun _ _ => trivial) (fun _ _ _ _ _ _ => trivial)
      (fun _ _ _ _ ran => iff_of_true (Names.keptByError ran) trivial) _ _ run).mpr
      fun _ _ => trivial
  rw [and_iff_left kept]
  exact @Run.throughout_iff_everyStep_while _ _ (Names.system behind Id) Names.Sound
    (Names.Consistent behind) (Names.Proper behind)
    (fun _ init => ⟨Names.Initial.sound init, (Names.Initial.sound init).consistent⟩)
    (fun _ _ _ inv _ proper ran => (Names.Sound.step inv ran).1 proper)
    (fun _ _ _ inv _ ran => ⟨(Names.Sound.step inv ran).2,
      fun proper => ((Names.Sound.step inv ran).1 proper).consistent⟩) _ _ run

def noNames : Names (Fin 3) :=
  ⟨⟨⟨['.'], none, 0⟩, [], fun _ => ⟨[], none, 0⟩⟩, [], false, fun _ => [], false⟩

theorem noNames_initial : noNames.Initial := ⟨rfl, rfl, rfl, rfl⟩

def pathOf (name : List Char) (noNul : '\x00' ∉ name) : CString :=
  ⟨'/' :: name, by simpa using noNul⟩

theorem created_names_consistent :
    ∃ taken, ∃ last : Names (Fin 3), (Names.system (fun _ => []) (Fin 3)).Run taken last ∧
      last.ramfs.list = [1, 0] ∧ Throughout (Names.Consistent fun _ => []) taken last := by
  let flags : OpenFlags := ⟨false, true, false, true, false⟩
  let a := pathOf ['a'] (by decide)
  let b := pathOf ['b'] (by decide)
  let c := pathOf ['c'] (by decide)
  let calls : List (NameCall (Fin 3)) :=
    [.openFile a flags (some 0), .openFile b flags (some 1), .openFile a flags none,
      .unlink b, .openFile c flags (some 1), .rename a c, .rename b b, .unlink b]
  have run : (Names.system (fun _ => []) (Fin 3)).Run _ _ :=
    .executed noNames calls noNames_initial (by decide +kernel)
  exact ⟨_, _, run, by decide +kernel, ((ramfs_names_iff _ run).mpr (by decide +kernel)).1⟩

/-- A file is renamed to "/b": the slash is stored with the name, and nothing is found there. -/
theorem renamed_file_lost :
    ¬ ∀ taken, ∀ last : Names (Fin 3), (Names.system (fun _ => []) (Fin 3)).Run taken last →
      Throughout (Names.Consistent fun _ => []) taken last ∧
        ∀ step ∈ taken, Names.KeptByError step := by
  intro claim
  let calls : List (NameCall (Fin 3)) :=
    [.openFile (pathOf ['a'] (by decide)) ⟨false, true, false, false, false⟩ (some 0),
      .rename (pathOf ['a'] (by decide)) (pathOf ['b'] (by decide))]
  have run : (Names.system (fun _ => []) (Fin 3)).Run _ _ :=
    .executed noNames calls noNames_initial (by decide +kernel)
  have found := (claim _ _ run).1.1.found (pathOf ['b'] (by decide)) (.file 0)
  exact absurd found (by decide +kernel)

end RtThread.Dfs
