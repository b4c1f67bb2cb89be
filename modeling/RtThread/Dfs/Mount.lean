import RtThread.Dfs.FileOperations
import RtThread.Library.TransitionSystem

/-!
# Mounting and unmounting

`dfs_mount` and `dfs_unmount` fill and clear the entries of the filesystem table.  The
device, the filesystem and the allocator may refuse what they are asked for.
-/

open TransitionSystem

namespace RtThread.Dfs

variable {Device : Type}

/-- The arguments of `dfs_mount`, and what the calls in it return.  `device` is `none` when
there is no such device, and `some none` for a filesystem without one. -/
structure MountRequest (Device : Type) where
  device : Option (Option Device)
  path : CString
  filesystemtype : CString
  normalized : Bool
  checkNormalized : Bool
  checkDuplicated : Bool
  opens : Bool
  deviceOpens : Bool
  mounts : Bool

def findType (types : List (Option FilesystemOps)) (filesystemtype : CString) :
    Option FilesystemOps :=
  types.findSome? fun ops => ops.filter fun ops => ops.name = filesystemtype

/-- The path is the root or `/dev`, or opens as a directory. -/
def directoryOpens (table : Table Device) (workingDirectory fullpath : CString)
    (request : MountRequest Device) : Bool :=
  if fullpath ≠ slash ∧ fullpath ≠ ⟨['/', 'd', 'e', 'v'], by decide⟩ then
    match dfsFileOpen table workingDirectory fullpath request.checkNormalized
        request.checkDuplicated with
    | .handed _ _ _ => request.opens
    | _ => false
  else true

/-- The loop of `dfs_mount` over the table: the first entry that is not in use, unless an
entry has the path as it was passed. -/
def findEntry (path : CString) : Table Device → Nat → Option Nat → Option (Option Nat)
  | [], _, fs => some fs
  | none :: rest, i, fs => findEntry path rest (i + 1) (fs.or (some i))
  | some iter :: rest, i, fs =>
    if iter.path = path then none else findEntry path rest (i + 1) fs

def dfsMount (types : List (Option FilesystemOps)) (table : Table Device)
    (workingDirectory : CString) (request : MountRequest Device) : Table Device × Bool :=
  match request.device with
  | none => (table, false)
  | some devId =>
    match findType types request.filesystemtype with
    | none => (table, false)
    | some ops =>
      if ops.mount = false then (table, false)
      else
        match fullPath request.normalized workingDirectory request.path with
        | none => (table, false)
        | some fullpath =>
          if directoryOpens table workingDirectory fullpath request = false then
            (table, false)
          else
            match findEntry request.path table 0 none with
            | none => (table, false)
            | some none => (table, false)
            | some (some i) =>
              let registered := table.set i (some ⟨devId, fullpath, ops⟩)
              if devId.isSome ∧ request.deviceOpens = false then
                (registered.set i none, false)
              else if request.mounts = false then (registered.set i none, false)
              else (registered, true)

def findMounted (fullpath : CString) : Table Device → Option (Nat × Filesystem Device)
  | [] => none
  | none :: rest => (findMounted fullpath rest).map fun found => (found.1 + 1, found.2)
  | some iter :: rest =>
    if iter.path = fullpath then some (0, iter)
    else (findMounted fullpath rest).map fun found => (found.1 + 1, found.2)

def dfsUnmount (table : Table Device) (workingDirectory specialfile : CString)
    (normalized unmounts : Bool) : Table Device × Bool :=
  match fullPath normalized workingDirectory specialfile with
  | none => (table, false)
  | some fullpath =>
    match findMounted fullpath table with
    | none => (table, false)
    | some (i, fs) =>
      if fs.ops.unmount = false ∨ unmounts = false then (table, false)
      else (table.set i none, true)

inductive MountEvent (Device : Type) where
  | mount (request : MountRequest Device)
  | unmount (specialfile : CString) (normalized unmounts : Bool)

/-- A call that has returned: the table before it, and whether it returned 0. -/
structure Call (Device : Type) where
  event : MountEvent Device
  before : Table Device
  succeeded : Bool

structure MountState (Device : Type) where
  table : Table Device
  workingDirectory : CString
  last : Option (Call Device)

def MountState.step (types : List (Option FilesystemOps)) (s : MountState Device)
    (event : MountEvent Device) : Option (MountState Device) :=
  let (table, succeeded) :=
    match event with
    | .mount request => dfsMount types s.table s.workingDirectory request
    | .unmount specialfile normalized unmounts =>
      dfsUnmount s.table s.workingDirectory specialfile normalized unmounts
  some { s with table := table, last := some ⟨event, s.table, succeeded⟩ }

def MountState.Initial (s : MountState Device) : Prop :=
  ∃ entries workingDirectory, s = ⟨List.replicate entries none, workingDirectory, none⟩

def mountSystem (types : List (Option FilesystemOps)) :
    TransitionSystem (MountState Device) (MountEvent Device) :=
  ofFunction MountState.Initial (MountState.step types)

def Removes (before after : Table Device) (path : CString) : Prop :=
  ∃ i fs, before[i]? = some (some fs) ∧ fs.path = path ∧
    (∀ u fs', before[u]? = some (some fs') → fs'.path = path → u = i) ∧
    after = before.set i none

/-- The table of mounts as it should be, and what the last call did to it. -/
structure MountState.Sound (s : MountState Device) : Prop where
  wellFormed : WellFormed s.table
  failed : ∀ call ∈ s.last, call.succeeded = false → s.table = call.before
  unmounted : ∀ call ∈ s.last, call.succeeded = true →
    ∀ specialfile normalized unmounts, call.event = .unmount specialfile normalized unmounts →
      ∃ path, fullPath normalized s.workingDirectory specialfile = some path ∧
        Removes call.before s.table path

/-- All that `dfs_mount` checks or asks for succeeds. -/
structure Registers (types : List (Option FilesystemOps)) (table : Table Device)
    (workingDirectory : CString) (request : MountRequest Device) (fullpath : CString) : Prop where
  device : ∃ devId, request.device = some devId ∧ (devId.isSome → request.deviceOpens = true)
  type : ∃ ops, findType types request.filesystemtype = some ops ∧ ops.mount = true
  path : fullPath request.normalized workingDirectory request.path = some fullpath
  directory : directoryOpens table workingDirectory fullpath request = true
  room : none ∈ table
  notMounted : ∀ fs, some fs ∈ table → fs.path ≠ request.path
  mounts : request.mounts = true

/-- Nothing is mounted with a relative path, and no path that has an entry is mounted again
in another spelling. -/
def Canonical (types : List (Option FilesystemOps)) (s : MountState Device) :
    MountEvent Device → Prop
  | .mount request => ∀ fullpath,
      Registers types s.table s.workingDirectory request fullpath →
        fullpath.Normalized ∧
          ((∃ fs, some fs ∈ s.table ∧ fs.path = fullpath) → request.path = fullpath)
  | .unmount _ _ _ => True

variable {types : List (Option FilesystemOps)} {table : Table Device}
  {workingDirectory path fullpath : CString} {request : MountRequest Device}

theorem findEntry_cases (path : CString) (table : Table Device) (i : Nat) (fs : Option Nat) :
    (findEntry path table i fs = none ∧ ∃ iter, some iter ∈ table ∧ iter.path = path) ∨
    ((∀ iter, some iter ∈ table → iter.path ≠ path) ∧
      ∃ found, findEntry path table i fs = some found ∧ (found = none ↔ fs = none ∧ none ∉ table) ∧
        ∀ p, found = some p → fs = some p ∨
          ∃ offset, p = i + offset ∧ table[offset]? = some none) := by
  induction table generalizing i fs with
  | nil => exact .inr ⟨by simp, fs, rfl, by simp, fun p isPlace => .inl isPlace⟩
  | cons slot rest ih =>
    match slot with
    | none =>
      rcases ih (i + 1) (fs.or (some i)) with
        ⟨isNone, iter, mounted, same⟩ | ⟨others, found, isFound, none_iff, places⟩
      · exact .inl ⟨isNone, iter, List.mem_cons_of_mem _ mounted, same⟩
      · refine .inr ⟨by simpa using others, found, isFound, ?_, ?_⟩
        · rw [none_iff]
          cases fs <;> simp
        · intro p isPlace
          rcases places p isPlace with early | ⟨offset, isOffset, empty⟩
          · cases fs with
            | none => exact .inr ⟨0, by simpa using early.symm, rfl⟩
            | some a => exact .inl (by simpa using early)
          · exact .inr ⟨offset + 1, by omega, empty⟩
    | some iter =>
      simp only [findEntry]
      by_cases same : iter.path = path
      · exact .inl ⟨if_pos same, iter, List.mem_cons_self .., same⟩
      · rw [if_neg same]
        rcases ih (i + 1) fs with
          ⟨isNone, iter, mounted, same⟩ | ⟨others, found, isFound, none_iff, places⟩
        · exact .inl ⟨isNone, iter, List.mem_cons_of_mem _ mounted, same⟩
        · refine .inr ⟨?_, found, isFound, by simpa using none_iff, ?_⟩
          · intro u mounted
            rcases List.mem_cons.mp mounted with isFirst | later
            · exact Option.some.inj isFirst ▸ same
            · exact others u later
          · intro p isPlace
            rcases places p isPlace with early | ⟨offset, isOffset, empty⟩
            · exact .inl early
            · exact .inr ⟨offset + 1, by omega, empty⟩

theorem dfsMount_cases (types : List (Option FilesystemOps)) (table : Table Device)
    (workingDirectory : CString) (request : MountRequest Device) :
    (dfsMount types table workingDirectory request = (table, false) ∧
      ∀ fullpath, ¬Registers types table workingDirectory request fullpath) ∨
    ∃ fullpath i fs, Registers types table workingDirectory request fullpath ∧
      table[i]? = some none ∧ fs.path = fullpath ∧
      dfsMount types table workingDirectory request = (table.set i (some fs), true) := by
  unfold dfsMount
  split
  · rename_i missing
    refine .inl ⟨rfl, fun fullpath registers => ?_⟩
    obtain ⟨devId, found, -⟩ := registers.device
    rw [missing] at found
    contradiction
  · next devId isDevice =>
  split
  · rename_i noType
    refine .inl ⟨rfl, fun fullpath registers => ?_⟩
    obtain ⟨ops, found, -⟩ := registers.type
    rw [noType] at found
    contradiction
  · next ops isType =>
  split
  · rename_i noMount
    refine .inl ⟨rfl, fun fullpath registers => ?_⟩
    obtain ⟨u, found, mounts⟩ := registers.type
    obtain rfl := Option.some.inj (isType.symm.trans found)
    rw [noMount] at mounts
    contradiction
  · next hasMount =>
  split
  · rename_i noPath
    refine .inl ⟨rfl, fun fullpath registers => ?_⟩
    have found := registers.path
    rw [noPath] at found
    contradiction
  · next fullpath isPath =>
  have only : ∀ u, Registers types table workingDirectory request u → fullpath = u :=
    fun u registers => Option.some.inj (isPath.symm.trans registers.path)
  split
  · rename_i closed
    refine .inl ⟨rfl, fun u registers => ?_⟩
    obtain rfl := only u registers
    have opens := registers.directory
    rw [closed] at opens
    contradiction
  · next opens =>
  rcases findEntry_cases request.path table 0 none with
    ⟨isNone, iter, mounted, same⟩ | ⟨others, found, isFound, none_iff, places⟩
  · rw [isNone]
    exact .inl ⟨rfl, fun u registers => registers.notMounted iter mounted same⟩
  · rw [isFound]
    cases found with
    | none =>
      refine .inl ⟨rfl, fun u registers => ?_⟩
      exact (none_iff.mp rfl).2 registers.room
    | some i =>
      have empty : table[i]? = some none := by
        rcases places i rfl with early | ⟨offset, isOffset, empty⟩
        · contradiction
        · rw [isOffset, Nat.zero_add]
          exact empty
      have restored : ∀ fs, (table.set i (some fs)).set i none = table := by
        intro fs
        obtain ⟨inside, value⟩ := List.getElem?_eq_some_iff.mp empty
        rw [List.set_set, ← value, List.set_getElem_self]
      dsimp only
      rw [restored]
      split
      · rename_i deviceFails
        refine .inl ⟨rfl, fun u registers => ?_⟩
        obtain ⟨u, isOther, deviceOpens⟩ := registers.device
        obtain rfl := Option.some.inj (isDevice.symm.trans isOther)
        have opens := deviceOpens deviceFails.1
        rw [deviceFails.2] at opens
        contradiction
      split
      · rename_i mountFails
        refine .inl ⟨rfl, fun u registers => ?_⟩
        have mounts := registers.mounts
        rw [mountFails] at mounts
        contradiction
      · rename_i deviceOpens mounts
        refine .inr ⟨fullpath, i, ⟨devId, fullpath, ops⟩, ?_, empty, rfl, rfl⟩
        exact
          { device := ⟨devId, isDevice, fun isSome => by simpa [isSome] using deviceOpens⟩
            type := ⟨ops, isType, by simpa using hasMount⟩
            path := isPath
            directory := by simpa using opens
            room := List.mem_of_getElem? empty
            notMounted := others
            mounts := by simpa using mounts }

theorem findMounted_cases (fullpath : CString) (table : Table Device) :
    (findMounted fullpath table = none ∧ ∀ fs, some fs ∈ table → fs.path ≠ fullpath) ∨
    ∃ i fs, findMounted fullpath table = some (i, fs) ∧ table[i]? = some (some fs) ∧
      fs.path = fullpath := by
  induction table with
  | nil => exact .inl ⟨rfl, by simp⟩
  | cons slot rest ih =>
    match slot with
    | none =>
      rcases ih with ⟨nothing, others⟩ | ⟨i, fs, isFound, mounted, same⟩
      · exact .inl ⟨by simp [findMounted, nothing], by simpa using others⟩
      · exact .inr ⟨i + 1, fs, by simp [findMounted, isFound], mounted, same⟩
    | some iter =>
      by_cases isPath : iter.path = fullpath
      · exact .inr ⟨0, iter, by simp [findMounted, isPath], rfl, isPath⟩
      · rcases ih with ⟨nothing, others⟩ | ⟨i, fs, isFound, mounted, same⟩
        · exact .inl ⟨by simp [findMounted, isPath, nothing], by simpa [isPath] using others⟩
        · exact .inr ⟨i + 1, fs, by simp [findMounted, isPath, isFound], mounted, same⟩

theorem dfsUnmount_cases (table : Table Device) (workingDirectory specialfile : CString)
    (norm unmounts : Bool) :
    (dfsUnmount table workingDirectory specialfile norm unmounts = (table, false) ∧
      ∀ path i fs, fullPath norm workingDirectory specialfile = some path →
        findMounted path table = some (i, fs) → ¬(fs.ops.unmount = true ∧ unmounts = true)) ∨
    ∃ path i fs, fullPath norm workingDirectory specialfile = some path ∧
      findMounted path table = some (i, fs) ∧ fs.ops.unmount = true ∧ unmounts = true ∧
      dfsUnmount table workingDirectory specialfile norm unmounts = (table.set i none, true) := by
  unfold dfsUnmount
  cases isPath : fullPath norm workingDirectory specialfile with
  | none => exact .inl ⟨rfl, fun path i fs found => absurd found (by simp)⟩
  | some path =>
    dsimp only
    cases isFound : findMounted path table with
    | none =>
      refine .inl ⟨rfl, fun u i fs same found => ?_⟩
      rw [← Option.some.inj same, isFound] at found
      contradiction
    | some e =>
      obtain ⟨i, fs⟩ := e
      by_cases refuses : fs.ops.unmount = false ∨ unmounts = false
      · refine .inl ⟨if_pos refuses, fun u index' fs' same found => ?_⟩
        rw [← Option.some.inj same, isFound] at found
        obtain ⟨-, rfl⟩ := Prod.mk.inj (Option.some.inj found)
        simpa [Decidable.or_iff_not_imp_left] using refuses
      · have both : fs.ops.unmount = true ∧ unmounts = true := by simpa using refuses
        exact .inr ⟨path, i, fs, rfl, isFound, both.1, both.2, if_neg refuses⟩

theorem findMounted_spec {i : Nat} {fs : Filesystem Device}
    (found : findMounted path table = some (i, fs)) :
    table[i]? = some (some fs) ∧ fs.path = path := by
  rcases findMounted_cases path table with ⟨nothing, -⟩ | ⟨p, u, isFound, mounted, same⟩
  · rw [nothing] at found
    contradiction
  · obtain ⟨rfl, rfl⟩ := Prod.mk.inj (Option.some.inj (isFound.symm.trans found))
    exact ⟨mounted, same⟩

theorem getElem?_set_some {slot : Option (Filesystem Device)} {i u : Nat}
    {fs : Filesystem Device} (mounted : (table.set i slot)[u]? = some (some fs)) :
    (u = i ∧ slot = some fs) ∨ (u ≠ i ∧ table[u]? = some (some fs)) := by
  rw [List.getElem?_set] at mounted
  split at mounted
  · rename_i same
    obtain ⟨-, mounted⟩ := Option.ite_none_right_eq_some.mp mounted
    exact .inl ⟨same.symm, Option.some.inj mounted⟩
  · next ne => exact .inr ⟨Ne.symm ne, mounted⟩

theorem WellFormed.clear (wf : WellFormed table) (i : Nat) : WellFormed (table.set i none) where
  normalized := by
    intro fs mounted
    obtain ⟨p, mounted⟩ := List.mem_iff_getElem?.mp mounted
    rcases getElem?_set_some mounted with ⟨-, isNone⟩ | ⟨-, mounted⟩
    · contradiction
    · exact wf.normalized fs (List.mem_of_getElem? mounted)
  distinct := by
    intro p u fs fs' mounted otherMounted
    rcases getElem?_set_some mounted with ⟨-, isNone⟩ | ⟨-, mounted⟩
    · contradiction
    rcases getElem?_set_some otherMounted with ⟨-, isNone⟩ | ⟨-, otherMounted⟩
    · contradiction
    exact wf.distinct p u fs fs' mounted otherMounted

theorem WellFormed.set_iff (wf : WellFormed table) {i : Nat}
    (fs : Filesystem Device) (empty : table[i]? = some none) : WellFormed (table.set i (some fs)) ↔
      fs.path.Normalized ∧ ∀ u, some u ∈ table → u.path ≠ fs.path := by
  have inside := (List.getElem?_eq_some_iff.mp empty).1
  have isNew : (table.set i (some fs))[i]? = some (some fs) := by
    simp [List.getElem?_set_self inside]
  have kept : ∀ {p : Nat} {u : Filesystem Device}, table[p]? = some (some u) →
      p ≠ i ∧ (table.set i (some fs))[p]? = some (some u) := by
    intro p u mounted
    have ne : p ≠ i := by
      rintro rfl
      exact absurd (empty.symm.trans mounted) (by simp)
    exact ⟨ne, by rw [List.getElem?_set_ne (Ne.symm ne), mounted]⟩
  constructor
  · intro after
    refine ⟨after.normalized fs (List.mem_of_getElem? isNew), fun u mounted same => ?_⟩
    obtain ⟨p, mounted⟩ := List.mem_iff_getElem?.mp mounted
    obtain ⟨ne, stays⟩ := kept mounted
    exact ne (after.distinct p i u fs stays isNew same)
  · rintro ⟨norm, others⟩
    constructor
    · intro u mounted
      obtain ⟨p, mounted⟩ := List.mem_iff_getElem?.mp mounted
      rcases getElem?_set_some mounted with ⟨-, isFs⟩ | ⟨-, mounted⟩
      · exact Option.some.inj isFs ▸ norm
      · exact wf.normalized u (List.mem_of_getElem? mounted)
    · intro p u fs' fs'' mounted otherMounted same
      rcases getElem?_set_some mounted with ⟨isIndex, isFs⟩ | ⟨-, mounted⟩
      · cases isFs
        rcases getElem?_set_some otherMounted with ⟨otherIsIndex, -⟩ | ⟨-, otherMounted⟩
        · rw [isIndex, otherIsIndex]
        · exact absurd same.symm (others fs'' (List.mem_of_getElem? otherMounted))
      · rcases getElem?_set_some otherMounted with ⟨-, isFs⟩ | ⟨-, otherMounted⟩
        · cases isFs
          exact absurd same (others fs' (List.mem_of_getElem? mounted))
        · exact wf.distinct p u fs' fs'' mounted otherMounted same

variable {s after : MountState Device} {event : MountEvent Device}
  {last : Option (Call Device)}

theorem MountState.Sound.of_failed (wellFormed : WellFormed table) (event : MountEvent Device) :
    MountState.Sound ⟨table, workingDirectory, some ⟨event, table, false⟩⟩ where
  wellFormed := wellFormed
  failed := by
    rintro call isCall -
    rw [← Option.some.inj isCall]
  unmounted := by
    rintro call isCall succeeded
    rw [← Option.some.inj isCall] at succeeded
    contradiction

theorem mount_sound_iff (inv : MountState.Sound ⟨table, workingDirectory, last⟩)
    (request : MountRequest Device) : MountState.Sound
        { table := (dfsMount types table workingDirectory request).1
          workingDirectory := workingDirectory
          last := some ⟨.mount request, table,
            (dfsMount types table workingDirectory request).2⟩ } ↔
      Canonical types ⟨table, workingDirectory, last⟩ (.mount request) := by
  rcases dfsMount_cases types table workingDirectory request with
    ⟨failed, never⟩ | ⟨fullpath, i, fs, registers, empty, rfl, registered⟩
  · rw [failed]
    exact ⟨fun _ fullpath registers => absurd registers (never fullpath),
      fun _ => .of_failed inv.wellFormed _⟩
  · rw [registered]
    have setIff := inv.wellFormed.set_iff fs empty
    constructor
    · intro after fullpath otherRegisters
      obtain rfl : fs.path = fullpath :=
        Option.some.inj (registers.path.symm.trans otherRegisters.path)
      obtain ⟨norm, others⟩ := setIff.mp after.wellFormed
      exact ⟨norm, fun ⟨u, mounted, same⟩ => absurd same (others u mounted)⟩
    · intro canonical
      obtain ⟨norm, sameSpelling⟩ := canonical fs.path registers
      exact
        { wellFormed := by
            refine setIff.mpr ⟨norm, fun u mounted same => ?_⟩
            have spelled := sameSpelling ⟨u, mounted, same⟩
            exact registers.notMounted u mounted (same.trans spelled.symm)
          failed := by
            rintro call isCall failed
            rw [← Option.some.inj isCall] at failed
            contradiction
          unmounted := by
            rintro call isCall - specialfile norm unmounts isUnmount
            rw [← Option.some.inj isCall] at isUnmount
            contradiction }

theorem unmount_sound (wellFormed : WellFormed table) (specialfile : CString)
    (norm unmounts : Bool) : MountState.Sound
      { table := (dfsUnmount table workingDirectory specialfile norm unmounts).1
        workingDirectory := workingDirectory
        last := some ⟨.unmount specialfile norm unmounts, table,
          (dfsUnmount table workingDirectory specialfile norm unmounts).2⟩ } := by
  rcases dfsUnmount_cases table workingDirectory specialfile norm unmounts with
    ⟨failed, -⟩ | ⟨path, i, fs, isPath, isFound, -, -, cleared⟩
  · rw [failed]
    exact .of_failed wellFormed _
  · obtain ⟨mounted, same⟩ := findMounted_spec isFound
    rw [cleared]
    exact
      { wellFormed := wellFormed.clear i
        failed := by
          rintro call isCall failed
          rw [← Option.some.inj isCall] at failed
          contradiction
        unmounted := by
          rintro call isCall - specialfile' normalized' unmounts' isUnmount
          rw [← Option.some.inj isCall] at isUnmount ⊢
          obtain ⟨rfl, rfl, rfl⟩ := MountEvent.unmount.inj isUnmount
          refine ⟨path, isPath, i, fs, mounted, same, ?_, rfl⟩
          intro u fs' otherMounted otherSame
          exact wellFormed.distinct u i fs' fs otherMounted mounted
            (otherSame.trans same.symm) }

theorem sound_iff_canonical (inv : s.Sound) (step : (mountSystem types).step s event after) :
    after.Sound ↔ Canonical types s event := by
  cases step
  cases event with
  | mount request => exact mount_sound_iff inv request
  | unmount specialfile norm unmounts =>
    exact ⟨fun _ => trivial, fun _ => unmount_sound inv.wellFormed specialfile _ _⟩

/-- The table of mounts is sound throughout a run just when all of its mounts are canonical. -/
theorem sound_throughout_iff {taken : List (Taken (MountState Device) (MountEvent Device))}
    {last : MountState Device} (run : (mountSystem types).Run taken last) :
    Throughout MountState.Sound taken last ↔ EveryStep (Canonical types) taken := by
  have base : ∀ s : MountState Device, MountState.Initial s → s.Sound := by
    rintro s ⟨entries, workingDirectory, rfl⟩
    refine ⟨⟨?_, ?_⟩, by simp, by simp⟩
    · intro fs mounted
      exact absurd (List.eq_of_mem_replicate mounted) (by simp)
    · intro i u fs fs' mounted
      exact absurd (List.eq_of_mem_replicate (List.mem_of_getElem? mounted)) (by simp)
  exact run.throughout_iff_everyStep (fun _ _ => trivial) (fun _ _ _ _ _ => trivial) base
    fun _ _ _ _ inv step => sound_iff_canonical inv step

def rootRequest (path : CString) : MountRequest Nat where
  device := some none
  path := path
  filesystemtype := sdOps.name
  normalized := true
  checkNormalized := true
  checkDuplicated := true
  opens := true
  deviceOpens := true
  mounts := true

def unmounted : MountState Nat := ⟨[none, none], slash, none⟩

theorem unmounted_initial : unmounted.Initial := ⟨2, slash, rfl⟩

theorem mounting_root_sound :
    let events := [.mount (rootRequest slash), .unmount slash true true]
    Throughout MountState.Sound
      (record (MountState.step [some sdOps]) [] unmounted events)
      ((execute (MountState.step [some sdOps]) unmounted events).get
        (by decide +kernel)) := by
  refine (sound_throughout_iff
    (Run.executed _ _ unmounted_initial _)).mpr ?_
  intro taken isTaken
  rcases List.mem_cons.mp isTaken with rfl | isTaken
  · trivial
  · obtain rfl := List.mem_singleton.mp isTaken
    intro fullpath registers
    obtain rfl : slash = fullpath := Option.some.inj (Eq.trans (by decide +kernel) registers.path)
    refine ⟨⟨[], by simp, rfl⟩, ?_⟩
    rintro ⟨fs, mounted, -⟩
    simp [unmounted] at mounted

/-- The root is mounted a second time when it is spelled `//`. -/
theorem spelled_twice_not_sound : ¬ ∀ (types : List (Option FilesystemOps))
      (taken : List (Taken (MountState Nat) (MountEvent Nat)))
      (last : MountState Nat), (mountSystem types).Run taken last →
        Throughout MountState.Sound taken last := by
  intro claim
  let events := [MountEvent.mount (rootRequest slash),
    .mount (rootRequest ⟨['/', '/'], by decide⟩)]
  have run : (mountSystem [some sdOps]).Run _ _ :=
    .executed unmounted events unmounted_initial (by decide +kernel)
  have distinct := (claim _ _ _ run).1.wellFormed.distinct 0 1 ⟨none, slash, sdOps⟩
    ⟨none, slash, sdOps⟩ (by decide +kernel) (by decide +kernel) rfl
  exact absurd distinct (by decide)

end RtThread.Dfs
