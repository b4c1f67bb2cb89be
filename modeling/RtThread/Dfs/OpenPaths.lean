import RtThread.Dfs.FileOperations

/-!
# Is a file open

`fd_is_open` of the device file system looks for a path among the descriptors, and
`dfs_file_unlink` asks it before it removes a file.
-/

namespace RtThread.Dfs


variable {Device : Type} {table : Table Device}

structure OpenedFd (table : Table Device) where
  workingDirectory : CString
  path : CString
  duplicated : Bool
  fullpath : CString
  index : Nat
  fs : Filesystem Device
  kept : Option CString
  based : Based workingDirectory none path
  normalized : fullPath true workingDirectory path = some fullpath
  opens : dfsFileOpen table workingDirectory path true duplicated = .handed index fs [kept]

/-- An entry of the descriptor table.  A descriptor that is closed, or is not of a file, has
no path. -/
inductive FdSlot (table : Table Device) where
  | empty
  | pathless (fs : Option Nat) (fops : Bool)
  | opened (file : OpenedFd table)

def FdSlot.fd : FdSlot table → Option DfsFd
  | .empty => none
  | .pathless fs fops => some ⟨none, fs, fops⟩
  | .opened file => some ⟨file.kept, some file.index, true⟩

def IsOpen (slots : List (FdSlot table)) (fullpath : CString) : Prop :=
  ∃ file, FdSlot.opened file ∈ slots ∧ file.fullpath = fullpath

/-- A descriptor is open on the path that `pathname` normalises to. -/
def IsOpenAt (slots : List (FdSlot table)) (workingDirectory pathname : CString) : Prop :=
  ∃ fullpath, fullPath true workingDirectory pathname = some fullpath ∧ IsOpen slots fullpath

structure Recognised (slots : List (FdSlot table)) (allocated : Bool) (index : Nat)
    (fs : Filesystem Device) (fullpath : CString) : Prop where
  checks : IsOpen slots fullpath → allocated = true
  copied : fs.ops.fullpath = false → IsOpen slots fullpath →
    ∃ file, FdSlot.opened file ∈ slots ∧ file.fullpath = fullpath ∧ file.duplicated = true
  below : fs.ops.fullpath = false → fs.path ≠ slash → IsOpen slots fullpath → fullpath ≠ fs.path
  -- the whole name is kept, and what follows the mount path is compared
  repeated : fs.ops.fullpath = true → fs.path ≠ slash → allocated = true →
    (IsOpen slots fullpath ↔ ∃ file, FdSlot.opened file ∈ slots ∧ file.index = index ∧
      fullpath.chars = fs.path.chars ++ file.fullpath.chars)

def Recognises (slots : List (FdSlot table)) (allocated : Bool)
    (workingDirectory pathname : CString) : Prop :=
  ∀ fullpath index fs, fullPath true workingDirectory pathname = some fullpath →
    dfsFilesystemLookup table fullpath = some (index, fs) →
      Recognised slots allocated index fs fullpath

section Normalization

variable {m after : List Char} {dst : Nat} {c : Char} {workingDirectory path fullpath : CString}

theorem finish_head (first : m[0]? = some c) (notNul : c ≠ '\x00') (pos : dst ≠ 0)
    (finished : finish m dst = some after) : after[0]? = some c := by
  obtain ⟨dst, rfl⟩ := Nat.exists_eq_succ_of_ne_zero pos
  have kept {p : Nat} {before later : List Char} (pos : p ≠ 0)
      (head : before[0]? = some c) (stores : store before p '\x00' = some later) :
      later[0]? = some c := by
    obtain ⟨-, ⟨⟩⟩ := Option.ite_none_right_eq_some.mp stores
    rw [List.getElem?_set_ne pos, head]
  obtain ⟨stored, isStored, finished⟩ := Option.bind_eq_some_iff.mp finished
  obtain ⟨last, -, finished⟩ := Option.bind_eq_some_iff.mp finished
  have ends (closed : List Char) (head : closed[0]? = some c)
      (finished : (closed[0]?.bind fun c =>
        if c = '\x00' then (store closed 0 '/').bind fun closed => store closed 1 '\x00'
        else some closed) = some after) : after[0]? = some c := by
    rw [head, Option.bind_some, if_neg notNul] at finished
    exact Option.some.inj finished ▸ head
  have storedHead := kept (Nat.succ_ne_zero dst) first isStored
  split at finished
  · rename_i slash
    obtain ⟨closed, isClosed, finished⟩ := Option.bind_eq_some_iff.mp finished
    exact ends closed (kept slash.1 storedHead isClosed) finished
  · exact ends stored storedHead finished

theorem Written.head {others : List Char} {later : List (List Char)}
    (written : Written m dst ((c :: others) :: later)) : (m.take dst)[0]? = some c := by
  rcases written.text with text | ⟨front, name, isLast, nonempty, text⟩
  · simp [text, LexicalPath.Format.spell]
  · rw [text]
    cases front with
    | nil | cons a front =>
      obtain ⟨rfl, -⟩ := List.cons.inj isLast
      rfl

theorem dfsNormalizePath_rooted (based : Based workingDirectory none path)
    (normalizes : dfsNormalizePath true workingDirectory none path = some (some fullpath))
    (rooted : fullpath.chars.head? = some '/') : fullpath.Normalized := by
  obtain ⟨rest, -, cases⟩ := dfsNormalizePath_cases based
  split at cases
  · simp [cases] at normalizes
  · rename_i last ends
    obtain ⟨m, dst, written, outcome⟩ := cases
    rw [outcome] at normalizes
    obtain ⟨after, finished, isPath⟩ := Option.map_eq_some_iff.mp normalizes
    cases isPath
    rcases slashed.follow_root_cases ends with ⟨names, rfl, proper⟩ | proper
    · obtain ⟨again, isAgain, chars⟩ := written.finish
      rw [finished] at isAgain
      cases isAgain
      exact ⟨names, proper, chars⟩
    · exfalso
      cases last with
      | nil =>
        have nothing : m.take dst = [] := by
          rcases written.text with text | ⟨front, name, isLast, -⟩
          · exact text
          · simp at isLast
        rcases List.take_eq_nil_iff.mp nothing with empty | empty
        · simp [empty, finish] at finished
        · simpa [empty] using written.inside
      | cons name later =>
        obtain ⟨first, others, rfl⟩ :=
          List.exists_cons_of_ne_nil (proper name (List.mem_cons_self ..)).nonempty
        have isName := written.areNames _ (List.mem_cons_self ..)
        have notNul : first ≠ '\x00' := fun same =>
          isName.terminated (same ▸ List.mem_cons_self ..)
        have notSlash : first ≠ '/' := fun same =>
          isName.separated (same ▸ List.mem_cons_self ..)
        have head := written.head
        have pos : dst ≠ 0 := by
          rintro rfl
          simp at head
        rw [List.getElem?_take_of_lt (Nat.pos_of_ne_zero pos)] at head
        have first := finish_head head notNul pos finished
        obtain ⟨rest, rfl⟩ := List.head?_eq_some_iff.mp (List.head?_eq_getElem?.trans first)
        simp [CString.ofMemory, notNul, notSlash] at rooted

theorem slash_normalized : slash.Normalized := ⟨[], by simp, rfl⟩

theorem fullPath_rooted (based : Based workingDirectory none path)
    (normalizes : fullPath true workingDirectory path = some fullpath)
    (rooted : fullpath.chars.head? = some '/') : fullpath.Normalized := by
  unfold fullPath at normalizes
  cases result : dfsNormalizePath true workingDirectory none path with
  | none =>
    obtain rfl : slash = fullpath := by simpa [result, slash] using normalizes
    exact slash_normalized
  | some result' =>
    obtain rfl : result' = some fullpath := by simpa [result] using normalizes
    exact dfsNormalizePath_rooted based result rooted

end Normalization

section Names

variable {workingDirectory path fullpath u : CString} {index : Nat} {fs : Filesystem Device}
  {later : List (List Char)}

theorem exists_below (mounts : ∀ fs, some fs ∈ table → fs.path.Normalized)
    (based : Based workingDirectory none path)
    (normalizes : fullPath true workingDirectory path = some fullpath)
    (found : dfsFilesystemLookup table fullpath = some (index, fs)) :
    fs.path.Normalized ∧ fullpath.Normalized ∧
      ∃ later, namesOf fs.path ++ later = namesOf fullpath := by
  have mounted : fs.path.Normalized :=
    mounts fs (List.mem_of_getElem? (dfsFilesystemLookup_mounted found))
  have isPrefix : prefixes fs.path.chars fullpath.chars := by
    rcases lookupFrom_spec fullpath table 0 none 0 with
      ⟨nothing, -⟩ | ⟨p, u, isOther, -, isPrefix, -⟩
    · rw [dfsFilesystemLookup, nothing] at found
      contradiction
    · obtain ⟨-, rfl⟩ : 0 + p = index ∧ u = fs := by
        simpa [dfsFilesystemLookup, isOther] using found
      exact isPrefix
  have rooted : fullpath.chars.head? = some '/' := by
    have taken : fullpath.chars.take fs.path.chars.length = fs.path.chars :=
      (of_decide_eq_true isPrefix).1
    rw [← List.take_append_drop fs.path.chars.length fullpath.chars, taken, mounted.exists_names.2]
    rfl
  have norm := fullPath_rooted based normalizes rooted
  exact ⟨mounted, norm, (prefixes_iff mounted norm).mp isPrefix⟩

theorem OpenedFd.found (file : OpenedFd table) :
    dfsFilesystemLookup table file.fullpath = some (file.index, file.fs) ∧
      fdPath file.fs file.fullpath file.duplicated = file.kept := by
  have opens := file.opens
  rw [dfsFileOpen, file.normalized] at opens
  cases found : dfsFilesystemLookup table file.fullpath with
  | none => simp [found] at opens
  | some e =>
    obtain ⟨index, fs⟩ := e
    simp only [found] at opens
    split at opens
    · contradiction
    · obtain ⟨rfl, rfl, kept⟩ := Outcome.handed.inj opens
      exact ⟨rfl, List.singleton_inj.mp kept⟩

def mountpath (fs : Filesystem Device) (fullpath : CString) : CString :=
  if fs.path.chars = ['/'] then fullpath else fullpath.drop fs.path.chars.length

theorem names_iff (norm : fullpath.Normalized) (otherNormalized : u.Normalized) :
    fullpath = u ↔ namesOf fullpath = namesOf u := by
  refine ⟨congrArg _, fun same => CString.ext ?_⟩
  rw [norm.exists_names.2, otherNormalized.exists_names.2, same]

theorem exists_fdPath (mounted : fs.path.Normalized) (norm : fullpath.Normalized)
    (split : namesOf fs.path ++ later = namesOf fullpath) (part : fs.ops.fullpath = false) :
    ∃ name, fdPath fs fullpath true = some name ∧ name.chars = slashed.render later := by
  by_cases isMount : later = []
  · have same : fullpath = fs.path := by
      rw [names_iff norm mounted, ← split, isMount, List.append_nil]
    refine ⟨slash, ?_, by rw [isMount]; rfl⟩
    simp [fdPath, part, same, dfsSubdir_same]
  · obtain ⟨below, isBelow, chars⟩ := exists_dfsSubdir mounted norm split isMount
    exact ⟨below, by simp [fdPath, part, isBelow], chars⟩

theorem mountpath_chars (mounted : fs.path.Normalized) (norm : fullpath.Normalized)
    (split : namesOf fs.path ++ later = namesOf fullpath) : (mountpath fs fullpath).chars =
      if fs.path ≠ slash ∧ later = [] then [] else slashed.render later := by
  have chars := norm.exists_names.2
  have mountChars := mounted.exists_names.2
  rw [← split] at chars
  by_cases isRoot : fs.path = slash
  · have nothing : namesOf slash = [] := by decide +kernel
    rw [isRoot, nothing, List.nil_append] at chars
    simp [mountpath, isRoot, slash, chars]
  · have notRoot : fs.path.chars ≠ ['/'] := fun same => isRoot (CString.ext same)
    have someNames : namesOf fs.path ≠ [] := by
      intro nothing
      rw [nothing] at mountChars
      exact notRoot mountChars
    rw [mountpath, if_neg notRoot]
    by_cases isMount : later = []
    · rw [isMount, List.append_nil, ← mountChars] at chars
      simp [CString.drop, isRoot, isMount, chars]
    · rw [slashed.render_append_render someNames isMount, ← mountChars] at chars
      simp [CString.drop, isMount, chars]

theorem kept_whole_iff (whole : fs.ops.fullpath = true) (duplicated : Bool)
    (mounted : fs.path.Normalized) (norm : fullpath.Normalized)
    (below : namesOf fs.path <+: namesOf fullpath) :
    fdPath fs u duplicated = some (mountpath fs fullpath) ↔ if fs.path = slash then u = fullpath
      else fullpath.chars = fs.path.chars ++ u.chars := by
  have isKept : fdPath fs u duplicated = some u := by simp [fdPath, whole]
  rw [isKept, Option.some.injEq]
  by_cases isRoot : fs.path = slash
  · simp [mountpath, isRoot, slash]
  · have notRoot : fs.path.chars ≠ ['/'] := fun same => isRoot (CString.ext same)
    have isPrefix := (prefixes_iff mounted norm).mpr below
    have taken : fullpath.chars.take fs.path.chars.length = fs.path.chars :=
      (of_decide_eq_true isPrefix).1
    rw [mountpath, if_neg notRoot, if_neg isRoot]
    constructor
    · rintro rfl
      conv_lhs => rw [← List.take_append_drop fs.path.chars.length fullpath.chars, taken]
      rfl
    · intro twice
      exact CString.ext (by simp [CString.drop, twice])

theorem kept_part_iff (part : fs.ops.fullpath = false) (duplicated : Bool)
    (mounted : fs.path.Normalized) (norm : fullpath.Normalized) (otherNormalized : u.Normalized)
    (below : namesOf fs.path <+: namesOf fullpath) (otherBelow : namesOf fs.path <+: namesOf u) :
    fdPath fs u duplicated = some (mountpath fs fullpath) ↔
      duplicated = true ∧ u = fullpath ∧ (fs.path ≠ slash → fullpath ≠ fs.path) := by
  obtain ⟨later, split⟩ := below
  obtain ⟨otherLater, otherSplit⟩ := otherBelow
  cases duplicated with
  | false => simp [fdPath, part]
  | true =>
    obtain ⟨name, isKept, chars⟩ := exists_fdPath mounted otherNormalized otherSplit part
    have compared := mountpath_chars mounted norm split
    have same : u = fullpath ↔ otherLater = later := by
      rw [names_iff otherNormalized norm, ← split, ← otherSplit, List.append_right_inj]
    have isMount : fullpath ≠ fs.path ↔ later ≠ [] := by simp [names_iff norm mounted, ← split]
    have isLater : slashed.render otherLater = slashed.render later ↔ otherLater = later := by
      have proper : ∀ name ∈ later, slashed.Proper name := fun name isName =>
        norm.exists_names.1 name (split ▸ List.mem_append_right _ isName)
      have otherProper : ∀ name ∈ otherLater, slashed.Proper name := fun name isName =>
        otherNormalized.exists_names.1 name (otherSplit ▸ List.mem_append_right _ isName)
      refine ⟨fun rendered => ?_, congrArg _⟩
      have followed := slashed.follow_render otherProper
      rw [rendered, slashed.follow_render proper] at followed
      exact (Option.some.inj followed).symm
    rw [isKept, Option.some.injEq, CString.ext_iff, chars, compared, same, isMount]
    split
    · rename_i empty
      simp [LexicalPath.Format.render, empty]
    · rename_i compares
      rw [isLater]
      exact ⟨fun same => ⟨rfl, same, fun notRoot empty => compares ⟨notRoot, empty⟩⟩,
        fun kept => kept.2.1⟩

theorem kept_iff (found : dfsFilesystemLookup table fullpath = some (index, fs))
    (mounts : ∀ fs, some fs ∈ table → fs.path.Normalized) (based : Based workingDirectory none path)
    (normalizes : fullPath true workingDirectory path = some fullpath) (file : OpenedFd table)
    (same : file.index = index) : file.kept = some (mountpath fs fullpath) ↔ if fs.ops.fullpath then
        if fs.path = slash then file.fullpath = fullpath
        else fullpath.chars = fs.path.chars ++ file.fullpath.chars
      else file.duplicated = true ∧ file.fullpath = fullpath ∧
        (fs.path ≠ slash → fullpath ≠ fs.path) := by
  obtain ⟨fileFound, isKept⟩ := file.found
  have isMounted := dfsFilesystemLookup_mounted found
  have fileMounted := dfsFilesystemLookup_mounted fileFound
  rw [same, isMounted] at fileMounted
  obtain rfl : fs = file.fs := by simpa using fileMounted
  obtain ⟨mounted, norm, below⟩ := exists_below mounts based normalizes found
  obtain ⟨-, fileNormalized, fileBelow⟩ := exists_below mounts file.based file.normalized fileFound
  rw [← isKept]
  split
  · next whole => exact kept_whole_iff whole _ mounted norm below
  · rename_i part
    exact kept_part_iff (Bool.eq_false_of_not_eq_true part) _ mounted norm fileNormalized
      below fileBelow

end Names

section Finding

variable {slots : List (FdSlot table)} {workingDirectory pathname fullpath : CString} {index : Nat}
  {fs : Filesystem Device} {allocated : Bool}

theorem fullPath_eq_some_iff : fullPath allocated workingDirectory pathname = some fullpath ↔
      allocated = true ∧ fullPath true workingDirectory pathname = some fullpath := by
  cases allocated <;> simp [fullPath, dfsNormalizePath]

theorem fdIsOpen_iff (normalizes : fullPath true workingDirectory pathname = some fullpath)
    (found : dfsFilesystemLookup table fullpath = some (index, fs)) :
    fdIsOpen table (slots.map FdSlot.fd) allocated workingDirectory pathname = true ↔
      allocated = true ∧ ∃ file, FdSlot.opened file ∈ slots ∧ file.index = index ∧
        file.kept = some (mountpath fs fullpath) := by
  cases allocated with
  | false => simp [fdIsOpen, fullPath, dfsNormalizePath]
  | true =>
    simp only [fdIsOpen, normalizes, found, List.any_map, List.any_eq_true, true_and]
    constructor
    · rintro ⟨slot, isSlot, finds⟩
      cases slot with
      | empty => contradiction
      | pathless fs fops => simp [FdSlot.fd] at finds
      | opened file =>
        refine ⟨file, isSlot, ?_⟩
        simpa [FdSlot.fd, mountpath] using finds
    · rintro ⟨file, isSlot, same, kept⟩
      refine ⟨.opened file, isSlot, ?_⟩
      simp [FdSlot.fd, same, kept, mountpath]

theorem found_index (found : dfsFilesystemLookup table fullpath = some (index, fs))
    (file : OpenedFd table) (same : file.fullpath = fullpath) : file.index = index := by
  have fileFound := file.found.1
  rw [same, found] at fileFound
  exact (congrArg Prod.fst (Option.some.inj fileFound)).symm

theorem finds_iff_recognised (mounts : ∀ fs, some fs ∈ table → fs.path.Normalized)
    (based : Based workingDirectory none pathname)
    (normalizes : fullPath true workingDirectory pathname = some fullpath)
    (found : dfsFilesystemLookup table fullpath = some (index, fs)) :
    (fdIsOpen table (slots.map FdSlot.fd) allocated workingDirectory pathname = true ↔
      IsOpen slots fullpath) ↔ Recognised slots allocated index fs fullpath := by
  have kept := kept_iff found mounts based normalizes
  have indexed (file : OpenedFd table) (same : file.fullpath = fullpath) : file.index = index :=
    found_index found file same
  rw [fdIsOpen_iff normalizes found]
  cases whole : fs.ops.fullpath with
  | true =>
    simp only [whole] at kept
    by_cases isRoot : fs.path = slash
    · simp only [isRoot] at kept
      have finds : (∃ file, FdSlot.opened file ∈ slots ∧ file.index = index ∧
          file.kept = some (mountpath fs fullpath)) ↔ IsOpen slots fullpath :=
        exists_congr fun file => and_congr_right fun _ =>
          ⟨fun ⟨same, isKept⟩ => (kept file same).mp isKept,
            fun same => ⟨indexed file same, (kept file (indexed file same)).mpr same⟩⟩
      rw [finds]
      constructor
      · intro agrees
        exact ⟨fun isOpen => (agrees.mpr isOpen).1, by simp [whole], by simp [whole],
          fun _ notRoot => absurd isRoot notRoot⟩
      · exact fun recognised => ⟨And.right, fun isOpen => ⟨recognised.checks isOpen, isOpen⟩⟩
    · simp only [isRoot] at kept
      have finds : (∃ file, FdSlot.opened file ∈ slots ∧ file.index = index ∧
          file.kept = some (mountpath fs fullpath)) ↔
            ∃ file, FdSlot.opened file ∈ slots ∧ file.index = index ∧
              fullpath.chars = fs.path.chars ++ file.fullpath.chars :=
        exists_congr fun file => and_congr_right fun _ => and_congr_right (kept file)
      rw [finds]
      constructor
      · intro agrees
        exact ⟨fun isOpen => (agrees.mpr isOpen).1, by simp [whole], by simp [whole],
          fun _ _ isAllocated => ⟨fun isOpen => (agrees.mpr isOpen).2,
            fun twice => agrees.mp ⟨isAllocated, twice⟩⟩⟩
      · intro recognised
        refine ⟨fun ⟨isAllocated, twice⟩ => ?_, fun isOpen => ?_⟩
        · exact (recognised.repeated whole isRoot isAllocated).mpr twice
        · have isAllocated := recognised.checks isOpen
          exact ⟨isAllocated, (recognised.repeated whole isRoot isAllocated).mp isOpen⟩
  | false =>
    simp only [whole] at kept
    constructor
    · intro agrees
      refine ⟨fun isOpen => (agrees.mpr isOpen).1, fun _ isOpen => ?_, fun _ notRoot isOpen => ?_,
        by simp [whole]⟩
      · obtain ⟨-, file, isSlot, same, isKept⟩ := agrees.mpr isOpen
        obtain ⟨duplicated, isPath, -⟩ := (kept file same).mp isKept
        exact ⟨file, isSlot, isPath, duplicated⟩
      · obtain ⟨-, file, -, same, isKept⟩ := agrees.mpr isOpen
        exact ((kept file same).mp isKept).2.2 notRoot
    · intro recognised
      constructor
      · rintro ⟨-, file, isSlot, same, isKept⟩
        exact ⟨file, isSlot, ((kept file same).mp isKept).2.1⟩
      · intro isOpen
        obtain ⟨file, isSlot, isPath, duplicated⟩ := recognised.copied whole isOpen
        have same := indexed file isPath
        refine ⟨recognised.checks isOpen, file, isSlot, same, (kept file same).mpr ?_⟩
        exact ⟨duplicated, isPath, fun notRoot => recognised.below whole notRoot isOpen⟩

theorem exists_found_of_fdIsOpen {fds : List (Option DfsFd)}
    (finds : fdIsOpen table fds allocated workingDirectory pathname = true) :
    ∃ fullpath index fs, fullPath true workingDirectory pathname = some fullpath ∧
      dfsFilesystemLookup table fullpath = some (index, fs) := by
  unfold fdIsOpen at finds
  split at finds
  · contradiction
  next fullpath normal =>
    split at finds
    · contradiction
    · next index fs found => exact ⟨fullpath, index, fs, (fullPath_eq_some_iff.mp normal).2, found⟩

theorem exists_found_of_isOpenAt (isOpen : IsOpenAt slots workingDirectory pathname) :
    ∃ fullpath index fs, fullPath true workingDirectory pathname = some fullpath ∧
      dfsFilesystemLookup table fullpath = some (index, fs) := by
  obtain ⟨fullpath, normalizes, file, -, rfl⟩ := isOpen
  exact ⟨_, _, _, normalizes, file.found.1⟩

theorem dfsFileUnlink_handed {fds : List (Option DfsFd)} {norm : Bool}
    {paths : List (Option CString)} (mounts : ∀ fs, some fs ∈ table → fs.path.Normalized)
    (based : Based workingDirectory none pathname)
    (handed : dfsFileUnlink table fds workingDirectory pathname norm allocated =
      .handed index fs paths) : fdIsOpen table fds allocated workingDirectory pathname = false := by
  unfold dfsFileUnlink at handed
  split at handed
  · contradiction
  next fullpath normal =>
    have normalizes := (fullPath_eq_some_iff.mp normal).2
    split at handed
    · contradiction
    next index fs found =>
      split at handed
      · contradiction
      next closed =>
        have fixed := fullPath_normalized (exists_below mounts based normalizes found).2.1
        cases allocated with
        | false => simp [fdIsOpen, fullPath, dfsNormalizePath]
        | true => simpa [fdIsOpen, normalizes, fixed] using closed

/-- A path is found open just when it is, if and only if its filesystem keeps the name that is
compared; and then no open file is removed. -/
theorem fdIsOpen_agrees_iff (mounts : ∀ fs, some fs ∈ table → fs.path.Normalized)
    (slots : List (FdSlot table)) (workingDirectory pathname : CString)
    (based : Based workingDirectory none pathname) (allocated : Bool) :
    ((fdIsOpen table (slots.map FdSlot.fd) allocated workingDirectory pathname = true ↔
        IsOpenAt slots workingDirectory pathname) ↔
      Recognises slots allocated workingDirectory pathname) ∧
    (Recognises slots allocated workingDirectory pathname →
      ∀ norm index fs paths, dfsFileUnlink table (slots.map FdSlot.fd) workingDirectory
          pathname norm allocated = .handed index fs paths →
        ¬IsOpenAt slots workingDirectory pathname) := by
  have agrees : (fdIsOpen table (slots.map FdSlot.fd) allocated workingDirectory pathname = true ↔
      IsOpenAt slots workingDirectory pathname) ↔
        Recognises slots allocated workingDirectory pathname := by
    by_cases looked : ∃ fullpath index fs, fullPath true workingDirectory pathname = some fullpath ∧
          dfsFilesystemLookup table fullpath = some (index, fs)
    · obtain ⟨fullpath, index, fs, normalizes, found⟩ := looked
      have isOpenAt : IsOpenAt slots workingDirectory pathname ↔ IsOpen slots fullpath := by
        simp [IsOpenAt, normalizes]
      have recognises : Recognises slots allocated workingDirectory pathname ↔
          Recognised slots allocated index fs fullpath := by
        refine ⟨fun recognises => recognises fullpath index fs normalizes found, ?_⟩
        intro recognised fullpath' index' fs' normalizes' found'
        obtain rfl : fullpath = fullpath' := by simpa [normalizes] using normalizes'
        obtain ⟨rfl, rfl⟩ : index = index' ∧ fs = fs' := by simpa [found] using found'
        exact recognised
      rw [isOpenAt, recognises]
      exact finds_iff_recognised mounts based normalizes found
    · refine iff_of_true (iff_of_false ?_ ?_) ?_
      · exact fun finds => looked (exists_found_of_fdIsOpen finds)
      · exact fun isOpen => looked (exists_found_of_isOpenAt isOpen)
      · exact fun fullpath index fs normalizes found =>
          absurd ⟨fullpath, index, fs, normalizes, found⟩ looked
  refine ⟨agrees, fun recognises norm index fs paths handed isOpen => ?_⟩
  have finds := (agrees.mpr recognises).mpr isOpen
  rw [dfsFileUnlink_handed mounts based handed] at finds
  contradiction

end Finding

theorem mount_terminated : '\x00' ∉ ['/', 's', 'd'] := by decide

theorem file_terminated : '\x00' ∉ ['/', 'a'] := by decide

def sdPath : CString := ⟨['/', 's', 'd', '/', 'a'], by decide⟩

def sdFile : OpenedFd sdTable where
  workingDirectory := slash
  path := sdPath
  duplicated := true
  fullpath := sdPath
  index := 1
  fs := ⟨some 0, ⟨['/', 's', 'd'], mount_terminated⟩, sdOps⟩
  kept := some ⟨['/', 'a'], file_terminated⟩
  based := .inl rfl
  normalized := by decide +kernel
  opens := by decide +kernel

theorem sdFile_agrees :
    fdIsOpen sdTable [some ⟨some ⟨['/', 'a'], by decide⟩, some 1, true⟩] true slash sdPath = true ↔
      IsOpenAt [.opened sdFile] slash sdPath := by
  refine (fdIsOpen_agrees_iff sdTable_wellFormed.normalized [.opened sdFile] slash sdPath
    (.inl rfl) true).1.mpr ?_
  intro fullpath index fs normalizes found
  obtain rfl : sdPath = fullpath := Option.some.inj (sdFile.normalized.symm.trans normalizes)
  obtain ⟨rfl, rfl⟩ : 1 = index ∧ sdFile.fs = fs := by
    simpa [sdFile] using sdFile.found.1.symm.trans found
  exact ⟨fun _ => rfl, fun _ _ => ⟨sdFile, by simp, rfl, rfl⟩, fun _ _ _ => by decide,
    fun whole => absurd whole (by decide)⟩

def wholeTable : Table Nat :=
  [none, some ⟨some 0, ⟨['/', 's', 'd'], mount_terminated⟩, { sdOps with fullpath := true }⟩]

def wholeFile : OpenedFd wholeTable where
  workingDirectory := slash
  path := sdPath
  duplicated := true
  fullpath := sdPath
  index := 1
  fs := ⟨some 0, ⟨['/', 's', 'd'], mount_terminated⟩, { sdOps with fullpath := true }⟩
  kept := some sdPath
  based := .inl rfl
  normalized := by decide +kernel
  opens := by decide +kernel

/-- With `DFS_FS_FLAG_FULLPATH`, `/sd/a` is not found open when it is. -/
theorem whole_name_not_found :
    ¬ ∀ (table : Table Nat) (slots : List (FdSlot table)) (workingDirectory pathname : CString),
      (∀ fs, some fs ∈ table → fs.path.Normalized) → Based workingDirectory none pathname →
        (fdIsOpen table (slots.map FdSlot.fd) true workingDirectory pathname = true ↔
          IsOpenAt slots workingDirectory pathname) := by
  intro claim
  have mounts : ∀ fs, some fs ∈ wholeTable → fs.path.Normalized := by
    intro fs mounted
    obtain rfl : fs = wholeFile.fs := by simpa [wholeTable, wholeFile] using mounted
    exact sdTable_wellFormed.normalized sdFile.fs (List.mem_of_getElem? (i := 1) rfl)
  have finds := (claim wholeTable [.opened wholeFile] slash sdPath mounts (.inl rfl)).mpr
    ⟨sdPath, wholeFile.normalized, wholeFile, by simp, rfl⟩
  have missed : fdIsOpen wholeTable [FdSlot.fd (.opened wholeFile)] true slash sdPath = false := by
    decide +kernel
  rw [List.map_singleton, missed] at finds
  contradiction

end RtThread.Dfs
