import RtThread.Dfs.NormalizedPath

/-!
# The table of mounted filesystems

`dfs_filesystem_lookup` of the device file system finds the filesystem that a path belongs
to, and `dfs_subdir` the name of the path below the mount point.
-/

namespace RtThread.Dfs

open LexicalPath (follow)

/-- Which operations a filesystem type implements, and the flag `DFS_FS_FLAG_FULLPATH`. -/
structure FilesystemOps where
  name : CString
  fullpath : Bool
  mount : Bool
  unmount : Bool
  openFile : Bool
  unlink : Bool
  stat : Bool
  rename : Bool
deriving DecidableEq

structure Filesystem (Device : Type) where
  devId : Option Device
  path : CString
  ops : FilesystemOps
deriving DecidableEq

/-- `filesystem_table`.  An entry is zero, or has both a path and operations. -/
abbrev Table (Device : Type) := List (Option (Filesystem Device))

section Lookup

variable {Device : Type}

/-- The tests of `dfs_filesystem_lookup` but for the length: `strncmp`, then the separator. -/
def prefixes (fspath path : List Char) : Bool :=
  path.take fspath.length = fspath ∧
    ¬(1 < fspath.length ∧ fspath.length < path.length ∧ path[fspath.length]? ≠ some '/')

def lookupFrom (path : CString) :
    Table Device → Nat → Option (Nat × Filesystem Device) → Nat →
      Option (Nat × Filesystem Device)
  | [], _, fs, _ => fs
  | none :: rest, i, fs, prefixlen => lookupFrom path rest (i + 1) fs prefixlen
  | some iter :: rest, i, fs, prefixlen =>
    if prefixlen ≤ iter.path.chars.length ∧ prefixes iter.path.chars path.chars then
      lookupFrom path rest (i + 1) (some (i, iter)) iter.path.chars.length
    else lookupFrom path rest (i + 1) fs prefixlen

def dfsFilesystemLookup (table : Table Device) (path : CString) :
    Option (Nat × Filesystem Device) :=
  lookupFrom path table 0 none 0

def CString.drop (filename : CString) (count : Nat) : CString where
  chars := filename.chars.drop count
  terminated := fun inside => filename.terminated (List.mem_of_mem_drop inside)

/-- `NULL` when both are the same path.  `directory` is in front of `filename`. -/
def dfsSubdir (directory filename : CString) : Option CString :=
  if directory.chars.length = filename.chars.length then none
  else
    let dir := directory.chars.length
    if filename.chars[dir]? ≠ some '/' ∧ dir ≠ 0 then some (filename.drop (dir - 1))
    else some (filename.drop dir)

def namesOf (path : CString) : List (List Char) :=
  (follow (slashed.moves path.chars) []).getD []

def CString.Normalized (path : CString) : Prop := slashed.Normalized path.chars

/-- The mount paths are normalised, and no two entries have the same one. -/
structure WellFormed (table : Table Device) : Prop where
  normalized : ∀ fs, some fs ∈ table → fs.path.Normalized
  distinct : ∀ (i u : Nat) (fs fs' : Filesystem Device), table[i]? = some (some fs) →
    table[u]? = some (some fs') → fs.path = fs'.path → i = u

/-- The entry with the longest path that is a prefix of `path`, component by component. -/
structure IsLongest (table : Table Device) (path : CString) (i : Nat)
    (fs : Filesystem Device) : Prop where
  mounted : table[i]? = some (some fs)
  isPrefix : namesOf fs.path <+: namesOf path
  longest : ∀ u, some u ∈ table → namesOf u.path <+: namesOf path →
    (namesOf u.path).length ≤ (namesOf fs.path).length

structure FindsLongest (table : Table Device) (path : CString) : Prop where
  found : ∀ i fs, dfsFilesystemLookup table path = some (i, fs) →
    IsLongest table path i fs
  none_iff : dfsFilesystemLookup table path = none ↔
    ∀ fs, some fs ∈ table → ¬namesOf fs.path <+: namesOf path

variable {table : Table Device} {path : CString} {i prefixlen : Nat}
  {found : Option (Nat × Filesystem Device)}

theorem CString.Normalized.exists_names (norm : path.Normalized) :
    (∀ name ∈ namesOf path, slashed.Proper name) ∧ path.chars = slashed.render (namesOf path) := by
  obtain ⟨names, proper, isPath⟩ := norm
  have same : namesOf path = names := by
    unfold namesOf
    rw [isPath, slashed.follow_render proper]
    rfl
  rw [same]
  exact ⟨proper, isPath⟩

theorem lookupFrom_spec (path : CString) (table : Table Device) (i : Nat)
    (found : Option (Nat × Filesystem Device)) (prefixlen : Nat) :
    (lookupFrom path table i found prefixlen = found ∧
      ∀ fs, some fs ∈ table → prefixes fs.path.chars path.chars →
        fs.path.chars.length < prefixlen) ∨
    ∃ p fs, lookupFrom path table i found prefixlen = some (i + p, fs) ∧
      table[p]? = some (some fs) ∧ prefixes fs.path.chars path.chars ∧
      prefixlen ≤ fs.path.chars.length ∧ ∀ u, some u ∈ table → prefixes u.path.chars path.chars →
        u.path.chars.length ≤ fs.path.chars.length := by
  induction table generalizing i found prefixlen with
  | nil => exact .inl ⟨rfl, by simp⟩
  | cons slot rest ih =>
    match slot with
    | none =>
      simp only [lookupFrom, List.mem_cons, reduceCtorEq, false_or]
      rcases ih (i + 1) found prefixlen with unchanged | ⟨p, fs, isFs, at_, rest⟩
      · exact .inl unchanged
      · exact .inr ⟨p + 1, fs, by rw [isFs]; congr 2; omega, at_, rest⟩
    | some iter =>
      simp only [lookupFrom, List.mem_cons, Option.some.injEq]
      by_cases accepted : prefixlen ≤ iter.path.chars.length ∧ prefixes iter.path.chars path.chars
      · rw [if_pos accepted]
        right
        rcases ih (i + 1) (some (i, iter)) iter.path.chars.length with
          ⟨kept, shorter⟩ | ⟨p, fs, isFs, at_, isPrefix, longer, longest⟩
        · refine ⟨0, iter, kept, rfl, accepted.2, accepted.1, ?_⟩
          rintro u (rfl | later) otherPrefix
          · exact le_refl _
          · exact Nat.le_of_lt (shorter u later otherPrefix)
        · refine ⟨p + 1, fs, by rw [isFs]; congr 2; omega, at_, isPrefix,
            accepted.1.trans longer, ?_⟩
          rintro u (rfl | later) otherPrefix
          · exact longer
          · exact longest u later otherPrefix
      · rw [if_neg accepted]
        rcases ih (i + 1) found prefixlen with
          ⟨kept, shorter⟩ | ⟨p, fs, isFs, at_, isPrefix, longer, longest⟩
        · refine .inl ⟨kept, ?_⟩
          rintro u (rfl | later) otherPrefix
          · exact Nat.lt_of_not_le fun longer => accepted ⟨longer, otherPrefix⟩
          · exact shorter u later otherPrefix
        · refine .inr ⟨p + 1, fs, by rw [isFs]; congr 2; omega, at_, isPrefix, longer, ?_⟩
          rintro u (rfl | later) otherPrefix
          · have short : u.path.chars.length < prefixlen :=
              Nat.lt_of_not_le fun longer => accepted ⟨longer, otherPrefix⟩
            exact Nat.le_of_lt (Nat.lt_of_lt_of_le short longer)
          · exact longest u later otherPrefix

theorem dfsFilesystemLookup_mounted {fs : Filesystem Device}
    (found : dfsFilesystemLookup table path = some (i, fs)) : table[i]? = some (some fs) := by
  rcases lookupFrom_spec path table 0 none 0 with
    ⟨nothing, -⟩ | ⟨p, u, isOther, mounted, -⟩
  · rw [dfsFilesystemLookup, nothing] at found
    contradiction
  · rw [Nat.zero_add] at isOther
    obtain ⟨rfl, rfl⟩ : p = i ∧ u = fs := by simpa [dfsFilesystemLookup, isOther] using found
    exact mounted

theorem prefixes_iff {mount : CString} (mountNormalized : mount.Normalized)
    (norm : path.Normalized) :
    prefixes mount.chars path.chars ↔ namesOf mount <+: namesOf path := by
  obtain ⟨mountProper, mountChars⟩ := mountNormalized.exists_names
  obtain ⟨proper, chars⟩ := norm.exists_names
  by_cases isRoot : namesOf mount = []
  · rw [isRoot] at mountChars ⊢
    simp [prefixes, mountChars, chars, LexicalPath.Format.render]
  · have long := slashed.two_le_length_render mountProper isRoot
    rw [slashed.prefix_iff mountProper proper isRoot, ← mountChars, ← chars]
    rw [← mountChars] at long
    simp only [prefixes, decide_eq_true_eq]
    constructor
    · rintro ⟨taken, separated⟩
      have split := List.take_append_drop mount.chars.length path.chars
      rw [taken] at split
      refine ⟨path.chars.drop mount.chars.length, split.symm, ?_⟩
      by_cases same : path.chars.length ≤ mount.chars.length
      · exact .inl (List.drop_eq_nil_of_le same)
      · right
        rw [List.head?_drop]
        by_contra notSlash
        exact separated ⟨long, Nat.lt_of_not_le same, notSlash⟩
    · rintro ⟨rest, split, ends⟩
      refine ⟨by rw [split, List.take_left], ?_⟩
      rintro ⟨-, longer, notSlash⟩
      rw [← List.head?_drop, split, List.drop_left] at notSlash
      refine ends.elim (fun empty => ?_) notSlash
      rw [split, empty, List.append_nil] at longer
      exact Nat.lt_irrefl _ longer

theorem names_length_le {a second : CString} (firstNormalized : a.Normalized)
    (secondNormalized : second.Normalized) (firstPrefix : namesOf a <+: namesOf path)
    (secondPrefix : namesOf second <+: namesOf path)
    (shorter : a.chars.length ≤ second.chars.length) :
    (namesOf a).length ≤ (namesOf second).length := by
  by_contra longer
  obtain ⟨later, split⟩ :=
    List.prefix_of_prefix_length_le secondPrefix firstPrefix (Nat.le_of_not_le longer)
  obtain ⟨proper, chars⟩ := firstNormalized.exists_names
  have some : later ≠ [] := by
    rintro rfl
    rw [List.append_nil] at split
    exact longer (split ▸ le_refl _)
  have lt : (slashed.render (namesOf second)).length < (slashed.render (namesOf a)).length := by
    rw [← split] at proper ⊢
    exact slashed.length_render_lt (fun name isName => proper name (List.mem_append_right _ isName))
      some
  rw [← chars, ← secondNormalized.exists_names.2] at lt
  exact Nat.not_lt_of_le shorter lt

theorem dfsFilesystemLookup_findsLongest (wf : WellFormed table)
    (norm : path.Normalized) : FindsLongest table path := by
  have iff : ∀ fs, some fs ∈ table →
      (prefixes fs.path.chars path.chars ↔ namesOf fs.path <+: namesOf path) :=
    fun fs mounted => prefixes_iff (wf.normalized fs mounted) norm
  rcases lookupFrom_spec path table 0 none 0 with
    ⟨nothing, shorter⟩ | ⟨p, fs, isFs, mounted, isPrefix, -, longest⟩
  · constructor
    · intro i fs found
      rw [dfsFilesystemLookup, nothing] at found
      contradiction
    · refine ⟨fun _ fs mounted above => ?_, fun _ => nothing⟩
      exact Nat.not_lt_zero _ (shorter fs mounted ((iff fs mounted).mpr above))
  · have inTable : some fs ∈ table := List.mem_of_getElem? mounted
    have isLongest : IsLongest table path p fs :=
      { mounted := mounted
        isPrefix := (iff fs inTable).mp isPrefix
        longest := fun u otherMounted above =>
          names_length_le (wf.normalized u otherMounted)
            (wf.normalized fs inTable) above ((iff fs inTable).mp isPrefix)
            (longest u otherMounted ((iff u otherMounted).mpr above)) }
    constructor
    · intro i u found
      obtain ⟨rfl, rfl⟩ : p = i ∧ fs = u := by simpa [dfsFilesystemLookup, isFs] using found
      exact isLongest
    · simp only [dfsFilesystemLookup, isFs, reduceCtorEq, false_iff]
      exact fun nothing => nothing fs inTable isLongest.isPrefix

end Lookup

end RtThread.Dfs
