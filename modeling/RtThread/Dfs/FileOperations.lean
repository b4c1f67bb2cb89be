import RtThread.Dfs.Filesystem

/-!
# Dispatch of file operations

The operations of `dfs_file.c` that take paths hand them to the filesystem that is mounted
over them, with the names below its mount point.
-/

namespace RtThread.Dfs

open LexicalPath (follow)

inductive Errno where
  | einval
  | enoent
  | enomem
  | enosys
  | ebusy
  | exdev
  | enotdir
  | enodev
  | enospc
  | failed
deriving DecidableEq

/-- A file descriptor, with its place in the filesystem table and the name below it. -/
structure DfsFd where
  path : Option CString
  fs : Option Nat
  fops : Bool
deriving DecidableEq

variable {Device : Type}

/-- What an operation returns itself, or what it hands to an operation of a filesystem. -/
inductive Outcome (Device : Type) where
  | returned (error : Option Errno)
  | handed (i : Nat) (fs : Filesystem Device) (paths : List (Option CString))
  | fault
deriving DecidableEq

/-- `dfs_normalize_path(NULL, path)`.  After the read in front of the string, which
`dfsNormalizePath` has no result for, the function goes on and returns the root. -/
def fullPath (allocated : Bool) (workingDirectory path : CString) : Option CString :=
  match dfsNormalizePath allocated workingDirectory none path with
  | some result => result
  | none => some ⟨['/'], by decide⟩

def slash : CString := ⟨['/'], by decide⟩

def fdIsOpen (table : Table Device) (fds : List (Option DfsFd)) (allocated : Bool)
    (workingDirectory pathname : CString) : Bool :=
  match fullPath allocated workingDirectory pathname with
  | none => false
  | some fullpath =>
    match dfsFilesystemLookup table fullpath with
    | none => false
    | some (i, fs) =>
      let mountpath :=
        if fs.path.chars = ['/'] then fullpath else fullpath.drop fs.path.chars.length
      fds.any fun fd =>
        match fd with
        | none => false
        | some fd => fd.fops && fd.fs == some i && fd.path == some mountpath

def fdPath (fs : Filesystem Device) (fullpath : CString) (duplicated : Bool) : Option CString :=
  if fs.ops.fullpath then some fullpath
  else if duplicated then
    match dfsSubdir fs.path fullpath with
    | none => some slash
    | some subdir => some subdir
  else none

def dfsFileOpen (table : Table Device) (workingDirectory path : CString)
    (normalized duplicated : Bool) : Outcome Device :=
  match fullPath normalized workingDirectory path with
  | none => .returned (some .enomem)
  | some fullpath =>
    match dfsFilesystemLookup table fullpath with
    | none => .returned (some .enoent)
    | some (i, fs) =>
      if fs.ops.openFile = false then .returned (some .enosys)
      else .handed i fs [fdPath fs fullpath duplicated]

def dfsFileUnlink (table : Table Device) (fds : List (Option DfsFd))
    (workingDirectory path : CString) (normalized checked : Bool) : Outcome Device :=
  match fullPath normalized workingDirectory path with
  | none => .returned (some .einval)
  | some fullpath =>
    match dfsFilesystemLookup table fullpath with
    | none => .returned (some .enoent)
    | some (i, fs) =>
      if fdIsOpen table fds checked workingDirectory fullpath then .returned (some .ebusy)
      else if fs.ops.unlink then
        if fs.ops.fullpath = false then
          match dfsSubdir fs.path fullpath with
          | none => .handed i fs [some slash]
          | some subdir => .handed i fs [some subdir]
        else .handed i fs [some fullpath]
      else .returned (some .enosys)

def dfsFileStat (table : Table Device) (workingDirectory path : CString) (normalized : Bool) :
    Outcome Device :=
  match fullPath normalized workingDirectory path with
  | none => .returned (some .failed)
  | some fullpath =>
    match dfsFilesystemLookup table fullpath with
    | none => .returned (some .enoent)
    | some (i, fs) =>
      if fullpath = slash ∨ dfsSubdir fs.path fullpath = none then .returned none
      else if fs.ops.stat = false then .returned (some .enosys)
      else if fs.ops.fullpath then .handed i fs [some fullpath]
      else .handed i fs [dfsSubdir fs.path fullpath]

def dfsFileRename (table : Table Device) (workingDirectory oldpath newpath : CString)
    (oldNormalized newNormalized : Bool) : Outcome Device :=
  match fullPath oldNormalized workingDirectory oldpath with
  | none => .returned (some .enoent)
  | some oldfullpath =>
    match fullPath newNormalized workingDirectory newpath with
    | none => .returned (some .enoent)
    | some newfullpath =>
      match dfsFilesystemLookup table oldfullpath, dfsFilesystemLookup table newfullpath with
      | some (oldIndex, oldfs), some (newIndex, newfs) =>
        if oldIndex = newIndex then
          if oldfs.ops.rename = false then .returned (some .enosys)
          else if oldfs.ops.fullpath then
            .handed oldIndex oldfs [some oldfullpath, some newfullpath]
          else
            .handed oldIndex oldfs
              [dfsSubdir oldfs.path oldfullpath, dfsSubdir newfs.path newfullpath]
        else .returned (some .exdev)
      -- both are `NULL`, and `oldfs->ops` is read
      | none, none => .fault
      | _, _ => .returned (some .exdev)

inductive Operation where
  | fileOpen (path : CString) (normalized duplicated : Bool)
  | fileUnlink (path : CString) (normalized checked : Bool)
  | fileStat (path : CString) (normalized : Bool)
  | fileRename (oldpath newpath : CString) (oldNormalized newNormalized : Bool)

def Operation.paths : Operation → List CString
  | .fileOpen path _ _ => [path]
  | .fileUnlink path _ _ => [path]
  | .fileStat path _ => [path]
  | .fileRename oldpath newpath _ _ => [oldpath, newpath]

def Operation.perform (table : Table Device) (fds : List (Option DfsFd))
    (workingDirectory : CString) : Operation → Outcome Device
  | .fileOpen path normalized duplicated =>
    dfsFileOpen table workingDirectory path normalized duplicated
  | .fileUnlink path normalized checked =>
    dfsFileUnlink table fds workingDirectory path normalized checked
  | .fileStat path normalized => dfsFileStat table workingDirectory path normalized
  | .fileRename oldpath newpath oldNormalized newNormalized =>
    dfsFileRename table workingDirectory oldpath newpath oldNormalized newNormalized

/-- What is handed to the filesystem names `path` below the mount point. -/
structure Resolves (mount path : CString) (handed : Option CString) (below : CString) : Prop where
  isHanded : handed = some below
  rooted : below.chars.head? = some '/'
  resolves : follow (slashed.moves (mount.chars ++ below.chars)) [] = some (namesOf path)
  mountPoint : path = mount → below = slash

/-- The filesystem with the longest mount path is asked, for the names below it. -/
structure Dispatches (table : Table Device) (fds : List (Option DfsFd)) (workingDirectory : CString)
    (operation : Operation) : Prop where
  lookup : ∀ path ∈ operation.paths, FindsLongest table path
  handed : ∀ i fs paths, operation.perform table fds workingDirectory = .handed i fs paths →
    fs.ops.fullpath = false →
      List.Forall₂ (fun path handed => ∃ below, Resolves fs.path path handed below)
        operation.paths paths

/-- The mount point of the filesystem itself is not renamed, and an open gets the memory for
the name below. -/
def Passes (table : Table Device) : Operation → Prop
  | .fileOpen path normalized duplicated =>
    normalized = true → duplicated = false → ∀ i fs,
      dfsFilesystemLookup table path = some (i, fs) → fs.ops.openFile = true →
        fs.ops.fullpath = true
  | .fileRename oldpath newpath oldNormalized newNormalized =>
    oldNormalized = true → newNormalized = true → ∀ i fs,
      dfsFilesystemLookup table oldpath = some (i, fs) →
      dfsFilesystemLookup table newpath = some (i, fs) →
        fs.ops.rename = true → fs.ops.fullpath = false →
          oldpath ≠ fs.path ∧ newpath ≠ fs.path
  | _ => True

variable {table : Table Device} {mount path : CString}

theorem fullPath_normalized (norm : path.Normalized) (allocated : Bool)
    (workingDirectory : CString) :
    fullPath allocated workingDirectory path = if allocated then some path else none := by
  obtain ⟨proper, chars⟩ := norm.exists_names
  cases allocated with
  | false => rfl
  | true =>
    unfold fullPath
    rw [dfsNormalizePath_fixed proper chars]
    rfl

theorem dfsSubdir_same (mount : CString) : dfsSubdir mount mount = none := by
  simp [dfsSubdir]

theorem resolves_slash (norm : mount.Normalized) : Resolves mount mount (some slash) slash where
  isHanded := rfl
  rooted := rfl
  resolves := by
    obtain ⟨proper, chars⟩ := norm.exists_names
    have followed : follow
      (slashed.moves (slashed.render (namesOf mount) ++ slashed.render [])) [] =
        some (namesOf mount ++ []) := slashed.follow_render_append proper (by simp)
    rw [← chars, List.append_nil] at followed
    exact followed
  mountPoint := fun _ => rfl

theorem exists_dfsSubdir {later : List (List Char)} (mountNormalized : mount.Normalized)
    (norm : path.Normalized) (split : namesOf mount ++ later = namesOf path)
    (nonempty : later ≠ []) :
    ∃ below, dfsSubdir mount path = some below ∧ below.chars = slashed.render later := by
  obtain ⟨mountProper, mountChars⟩ := mountNormalized.exists_names
  obtain ⟨proper, chars⟩ := norm.exists_names
  rw [← split] at proper chars
  have properLater : ∀ name ∈ later, slashed.Proper name := fun name isName =>
    proper name (List.mem_append_right _ isName)
  have longer : mount.chars.length ≠ path.chars.length := by
    rw [mountChars, chars]
    exact Nat.ne_of_lt (slashed.length_render_lt properLater nonempty)
  unfold dfsSubdir
  rw [if_neg longer]
  by_cases isRoot : namesOf mount = []
  · rw [isRoot] at mountChars chars
    have one : mount.chars.length = 1 := by rw [mountChars]; rfl
    have notSlash : path.chars[1]? ≠ some '/' := by
      rw [chars]
      exact slashed.getElem?_one_render properLater nonempty
    refine ⟨path.drop 0, ?_, chars⟩
    simp [one, notSlash]
  · rw [slashed.render_append_render isRoot nonempty, ← mountChars] at chars
    have isSlash : path.chars[mount.chars.length]? = some '/' := by
      rw [chars, List.getElem?_append_right (le_refl _), Nat.sub_self]
      rfl
    refine ⟨path.drop mount.chars.length, by simp [isSlash], ?_⟩
    simp [CString.drop, chars]

theorem exists_resolves_dfsSubdir (mountNormalized : mount.Normalized)
    (norm : path.Normalized) (isPrefix : namesOf mount <+: namesOf path)
    (u : path ≠ mount) : ∃ below, Resolves mount path (dfsSubdir mount path) below := by
  obtain ⟨mountProper, mountChars⟩ := mountNormalized.exists_names
  obtain ⟨proper, chars⟩ := norm.exists_names
  obtain ⟨later, split⟩ := isPrefix
  have nonempty : later ≠ [] := by
    rintro rfl
    rw [List.append_nil] at split
    exact u (CString.ext (by rw [chars, mountChars, split]))
  obtain ⟨below, isBelow, belowChars⟩ := exists_dfsSubdir mountNormalized norm split nonempty
  have properLater : ∀ name ∈ later, slashed.Proper name := fun name isName =>
    proper name (split ▸ List.mem_append_right _ isName)
  refine ⟨below, isBelow, by rw [belowChars]; rfl, ?_, fun same => absurd same u⟩
  rw [belowChars, mountChars, slashed.follow_render_append mountProper properLater, split]

variable {fds : List (Option DfsFd)} {workingDirectory : CString} {i : Nat}
  {fs : Filesystem Device}

def Outcome.Below (outcome : Outcome Device) (paths : List CString) : Prop :=
  ∀ i fs handed, outcome = .handed i fs handed → fs.ops.fullpath = false →
    List.Forall₂ (fun path handed => ∃ below, Resolves fs.path path handed below) paths handed

theorem Outcome.below_returned (error : Option Errno) (paths : List CString) :
    (Outcome.returned error : Outcome Device).Below paths := by
  intro i fs handed isHanded
  contradiction

theorem Outcome.below_handed {handed : Option CString} :
    (Outcome.handed i fs [handed]).Below [path] ↔
      (fs.ops.fullpath = false → ∃ below, Resolves fs.path path handed below) := by
  constructor
  · intro isBelow below
    simpa using isBelow i fs [handed] rfl below
  · intro resolves index' fs' handed' isHanded below
    obtain ⟨-, rfl, rfl⟩ := Outcome.handed.inj isHanded
    simpa using resolves below

theorem exists_resolves_dfsSubdir_iff (mountNormalized : mount.Normalized)
    (norm : path.Normalized) (isPrefix : namesOf mount <+: namesOf path) :
    (∃ below, Resolves mount path (dfsSubdir mount path) below) ↔ path ≠ mount := by
  constructor
  · rintro ⟨below, resolves⟩ rfl
    have handed := resolves.isHanded
    rw [dfsSubdir_same] at handed
    contradiction
  · exact exists_resolves_dfsSubdir mountNormalized norm isPrefix

theorem Outcome.below_handed_two {oldpath newpath : CString}
    {oldHanded newHanded : Option CString} :
    (Outcome.handed i fs [oldHanded, newHanded]).Below [oldpath, newpath] ↔
      (fs.ops.fullpath = false → (∃ below, Resolves fs.path oldpath oldHanded below) ∧
        ∃ below, Resolves fs.path newpath newHanded below) := by
  constructor
  · intro isBelow below
    simpa using isBelow i fs [oldHanded, newHanded] rfl below
  · intro resolves index' fs' handed' isHanded below
    obtain ⟨-, rfl, rfl⟩ := Outcome.handed.inj isHanded
    simpa using resolves below

section

variable (wf : WellFormed table)

include wf

theorem lookup_spec (norm : path.Normalized)
    (found : dfsFilesystemLookup table path = some (i, fs)) :
    
    fs.path.Normalized ∧ namesOf fs.path <+: namesOf path := by
  have isLongest := (dfsFilesystemLookup_findsLongest wf norm).found i fs found
  exact ⟨wf.normalized fs (List.mem_of_getElem? isLongest.mounted), isLongest.isPrefix⟩

theorem exists_resolves_fdPath (norm : path.Normalized)
    (found : dfsFilesystemLookup table path = some (i, fs)) (below : fs.ops.fullpath = false) :
    ∃ below, Resolves fs.path path (fdPath fs path true) below := by
  obtain ⟨mountNormalized, isPrefix⟩ := lookup_spec wf norm found
  by_cases same : path = fs.path
  · refine ⟨slash, ?_⟩
    simp only [fdPath, below, same, dfsSubdir_same]
    exact resolves_slash mountNormalized
  · obtain ⟨name, resolves⟩ := exists_resolves_dfsSubdir mountNormalized norm isPrefix same
    refine ⟨name, ?_⟩
    simp only [fdPath, below, resolves.isHanded]
    exact { resolves with isHanded := rfl }

theorem dfsFileOpen_below_iff (isNormalized : path.Normalized) (workingDirectory : CString)
    (norm duplicated : Bool) :
    (dfsFileOpen table workingDirectory path norm duplicated).Below [path] ↔
      Passes table (.fileOpen path norm duplicated) := by
  unfold dfsFileOpen Passes
  rw [fullPath_normalized isNormalized]
  cases norm with
  | false => simp [Outcome.below_returned]
  | true =>
    cases found : dfsFilesystemLookup table path with
    | none => simp [found, Outcome.below_returned]
    | some e =>
      obtain ⟨i, fs⟩ := e
      cases opens : fs.ops.openFile with
      | false => simp [found, opens, Outcome.below_returned]
      | true =>
        have resolves := exists_resolves_fdPath wf isNormalized found
        cases duplicated with
        | false =>
          have nothing (below : fs.ops.fullpath = false) :
              ¬∃ name, Resolves fs.path path (fdPath fs path false) name := by
            rintro ⟨name, resolves⟩
            simpa [fdPath, below] using resolves.isHanded
          cases isFull : fs.ops.fullpath with
          | false => simpa [found, opens, isFull, Outcome.below_handed] using nothing isFull
          | true => simp [found, opens, isFull, Outcome.below_handed]
        | true => simpa [found, opens, Outcome.below_handed] using resolves

theorem dfsFileUnlink_below (isNormalized : path.Normalized) (fds : List (Option DfsFd))
    (workingDirectory : CString) (norm checked : Bool) :
    (dfsFileUnlink table fds workingDirectory path norm checked).Below [path] := by
  unfold dfsFileUnlink
  rw [fullPath_normalized isNormalized]
  cases norm with
  | false => exact Outcome.below_returned _ _
  | true =>
    simp only [if_true]
    cases found : dfsFilesystemLookup table path with
    | none => exact Outcome.below_returned _ _
    | some e =>
      have resolves := exists_resolves_fdPath wf isNormalized found
      dsimp only
      split
      · exact Outcome.below_returned _ _
      split
      · split
        · rename_i below
          simp only [fdPath, below] at resolves
          split
          · rename_i isSame
            rw [isSame] at resolves
            exact Outcome.below_handed.mpr fun _ => resolves trivial
          · rename_i subdir isSubdir
            rw [isSubdir] at resolves
            exact Outcome.below_handed.mpr fun _ => resolves trivial
        · next full => exact Outcome.below_handed.mpr fun below => absurd below full
      · exact Outcome.below_returned _ _

theorem dfsFileStat_below (isNormalized : path.Normalized) (workingDirectory : CString)
    (norm : Bool) : (dfsFileStat table workingDirectory path norm).Below [path] := by
  unfold dfsFileStat
  rw [fullPath_normalized isNormalized]
  cases norm with
  | false => exact Outcome.below_returned _ _
  | true =>
    simp only [if_true]
    cases found : dfsFilesystemLookup table path with
    | none => exact Outcome.below_returned _ _
    | some e =>
      obtain ⟨mountNormalized, isPrefix⟩ := lookup_spec wf isNormalized found
      dsimp only
      split
      · exact Outcome.below_returned _ _
      · rename_i notRoot
        split
        · exact Outcome.below_returned _ _
        split
        · next full => exact Outcome.below_handed.mpr fun below => absurd full (by simp [below])
        · refine Outcome.below_handed.mpr fun _ => ?_
          refine exists_resolves_dfsSubdir mountNormalized isNormalized isPrefix ?_
          rintro rfl
          exact notRoot (.inr (dfsSubdir_same _))

theorem dfsFileRename_below_iff {oldpath newpath : CString} (oldIsNormalized : oldpath.Normalized)
    (newIsNormalized : newpath.Normalized) (workingDirectory : CString)
    (oldNormalized newNormalized : Bool) :
    (dfsFileRename table workingDirectory oldpath newpath oldNormalized newNormalized).Below
        [oldpath, newpath] ↔
      Passes table (.fileRename oldpath newpath oldNormalized newNormalized) := by
  unfold dfsFileRename Passes
  rw [fullPath_normalized oldIsNormalized, fullPath_normalized newIsNormalized]
  cases oldNormalized with
  | false => simp [Outcome.below_returned]
  | true =>
  cases newNormalized with
  | false => simp [Outcome.below_returned]
  | true =>
  have fault : (Outcome.fault : Outcome Device).Below [oldpath, newpath] := by
    intro i fs handed isHanded
    contradiction
  cases oldFound : dfsFilesystemLookup table oldpath with
  | none =>
    cases newFound : dfsFilesystemLookup table newpath with
    | none => simpa [oldFound, newFound] using fault
    | some newEntry => simp [oldFound, newFound, Outcome.below_returned]
  | some oldEntry =>
    obtain ⟨oldIndex, oldfs⟩ := oldEntry
    cases newFound : dfsFilesystemLookup table newpath with
    | none => simp [oldFound, newFound, Outcome.below_returned]
    | some newEntry =>
      obtain ⟨newIndex, newfs⟩ := newEntry
      by_cases same : oldIndex = newIndex
      · subst same
        have oldMounted := ((dfsFilesystemLookup_findsLongest wf
          oldIsNormalized).found _ _ oldFound).mounted
        have newMounted := ((dfsFilesystemLookup_findsLongest wf
          newIsNormalized).found _ _ newFound).mounted
        obtain rfl : oldfs = newfs := by simpa [oldMounted] using newMounted
        obtain ⟨mountNormalized, oldPrefix⟩ := lookup_spec wf oldIsNormalized oldFound
        obtain ⟨-, newPrefix⟩ := lookup_spec wf newIsNormalized newFound
        have oldResolves := exists_resolves_dfsSubdir_iff mountNormalized oldIsNormalized oldPrefix
        have newResolves := exists_resolves_dfsSubdir_iff mountNormalized newIsNormalized newPrefix
        cases renames : oldfs.ops.rename with
        | false => simp [oldFound, newFound, renames, Outcome.below_returned]
        | true =>
          cases isFull : oldfs.ops.fullpath with
          | false =>
            simp [oldFound, newFound, renames, isFull, Outcome.below_handed_two,
              oldResolves, newResolves]
          | true =>
            simp [oldFound, newFound, renames, isFull, Outcome.below_handed_two]
      · simp [oldFound, newFound, same, Ne.symm same, Outcome.below_returned]

end

/-- A file operation is dispatched to the names below the longest mount path, just when it
does not rename the mount point itself or open without memory for the name. -/
theorem dispatches_iff (wf : WellFormed table) (fds : List (Option DfsFd))
    (workingDirectory : CString) (op : Operation) (norm : ∀ path ∈ op.paths, path.Normalized) :
    Dispatches table fds workingDirectory op ↔ Passes table op := by
  have lookup : ∀ path ∈ op.paths, FindsLongest table path := fun path isPath =>
    dfsFilesystemLookup_findsLongest wf (norm path isPath)
  have below : Dispatches table fds workingDirectory op ↔
      (op.perform table fds workingDirectory).Below op.paths :=
    ⟨fun dispatches => dispatches.handed, fun handed => ⟨lookup, handed⟩⟩
  rw [below]
  cases op with
  | fileOpen path isNormalized duplicated =>
    exact dfsFileOpen_below_iff wf (norm path (by simp [Operation.paths])) _ _ _
  | fileUnlink path isNormalized checked =>
    have isBelow := dfsFileUnlink_below wf (norm path (by simp [Operation.paths]))
      fds workingDirectory isNormalized checked
    exact ⟨fun _ => trivial, fun _ => isBelow⟩
  | fileStat path isNormalized =>
    have isBelow := dfsFileStat_below wf (norm path (by simp [Operation.paths]))
      workingDirectory isNormalized
    exact ⟨fun _ => trivial, fun _ => isBelow⟩
  | fileRename oldpath newpath oldNormalized newNormalized =>
    exact dfsFileRename_below_iff wf (norm oldpath (by simp [Operation.paths]))
      (norm newpath (by simp [Operation.paths])) _ _ _

def sdOps : FilesystemOps where
  name := ⟨['e', 'l', 'm'], by decide⟩
  fullpath := false
  mount := true
  unmount := true
  openFile := true
  unlink := true
  stat := true
  rename := true

def sdTable : Table Nat := [none, some ⟨some 0, ⟨['/', 's', 'd'], by decide⟩, sdOps⟩]

theorem sdTable_wellFormed : WellFormed sdTable where
  normalized := by
    intro fs mounted
    obtain rfl : fs = ⟨some 0, ⟨['/', 's', 'd'], by decide⟩, sdOps⟩ := by
      simpa [sdTable] using mounted
    refine ⟨[['s', 'd']], ?_, rfl⟩
    intro name isName
    obtain rfl := List.mem_singleton.mp isName
    constructor <;> decide
  distinct := by
    intro i u fs fs' mounted otherMounted _
    match i, u with
    | 1, 1 => rfl
    | 0, _ => simp [sdTable] at mounted
    | i + 2, _ => simp [sdTable] at mounted
    | 1, 0 => simp [sdTable] at otherMounted
    | 1, u + 2 => simp [sdTable] at otherMounted

theorem below_sd_normalized (c : Char) (notSlash : c ≠ '/') (notDot : c ≠ '.')
    (notNul : '\x00' ∉ ['/', 's', 'd', '/', c]) :
    CString.Normalized ⟨['/', 's', 'd', '/', c], notNul⟩ := by
  refine ⟨[['s', 'd'], [c]], ?_, rfl⟩
  intro name isName
  rcases List.mem_cons.mp isName with rfl | isName
  · constructor <;> decide
  · obtain rfl := List.mem_singleton.mp isName
    exact ⟨by simp, by simpa using notDot, by simp, by simpa using Ne.symm notSlash⟩

theorem rename_below_sd_dispatches : Dispatches sdTable [] slash
      (.fileRename ⟨['/', 's', 'd', '/', 'a'], by decide⟩ ⟨['/', 's', 'd', '/', 'b'], by decide⟩
        true true) := by
  refine (dispatches_iff sdTable_wellFormed _ _ _ ?_).mpr ?_
  · intro path isPath
    rcases List.mem_cons.mp isPath with rfl | isPath
    · exact below_sd_normalized 'a' (by decide) (by decide) (by decide)
    · obtain rfl := List.mem_singleton.mp isPath
      exact below_sd_normalized 'b' (by decide) (by decide) (by decide)
  · intro _ _ i fs found _ _ _
    obtain ⟨rfl, rfl⟩ : 1 = i ∧
        (⟨some 0, ⟨['/', 's', 'd'], by decide⟩, sdOps⟩ : Filesystem Nat) = fs := by
      simpa using (Option.some.inj (Eq.trans (by decide +kernel) found) : (1, _) = (i, fs))
    decide

/-- Renaming the mount point `/sd` hands no name to the filesystem. -/
theorem rename_mount_point_not_dispatches :
    ¬ ∀ (table : Table Nat) (fds : List (Option DfsFd)) (workingDirectory : CString)
      (op : Operation), WellFormed table → (∀ path ∈ op.paths, path.Normalized) →
        Dispatches table fds workingDirectory op := by
  intro claim
  have dispatches := claim sdTable [] slash
    (.fileRename ⟨['/', 's', 'd'], by decide⟩ ⟨['/', 's', 'd', '/', 'a'], by decide⟩ true true)
    sdTable_wellFormed (by
      intro path isPath
      rcases List.mem_cons.mp isPath with rfl | isPath
      · exact sdTable_wellFormed.normalized _ (List.mem_of_getElem? (i := 1) rfl)
      · obtain rfl := List.mem_singleton.mp isPath
        exact below_sd_normalized 'a' (by decide) (by decide) (by decide))
  have handed : List.Forall₂ _ _ _ :=
    dispatches.handed 1 ⟨some 0, ⟨['/', 's', 'd'], by decide⟩, sdOps⟩
      [none, some ⟨['/', 'a'], by decide⟩] (by decide +kernel) rfl
  obtain ⟨⟨below, resolves⟩, -⟩ := List.forall₂_cons.mp handed
  exact absurd resolves.isHanded (by simp)

end RtThread.Dfs
