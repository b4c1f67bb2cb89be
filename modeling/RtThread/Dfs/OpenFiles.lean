import Mathlib.Data.Fintype.Basic
import RtThread.Dfs.Mount

/-!
# Open files and their mounts

An open file keeps a pointer into the filesystem table.  Every mount gets a number of its
own here, so that an entry that is used again is told from the one that was opened.
-/

open TransitionSystem

namespace RtThread.Dfs

variable {Device Handle : Type}

structure OpenFile where
  fd : DfsFd
  mount : Nat
deriving DecidableEq

/-- The files are those of `dfs_file_open`, by the descriptors that its callers pass.
`accessed` is the file that the last call has read or written. -/
structure FilesState (Device Handle : Type) where
  table : Table Device
  workingDirectory : CString
  mounts : Nat
  mountOf : Nat → Nat
  files : Handle → Option OpenFile
  accessed : Option OpenFile

inductive FilesEvent (Device Handle : Type) where
  | mount (request : MountRequest Device)
  | unmount (specialfile : CString) (normalized unmounts : Bool)
  | fileOpen (handle : Handle) (path : CString) (normalized duplicated opens : Bool)
  | fileClose (handle : Handle) (closes : Bool)
  | fileAccess (handle : Handle)

def numbered (before after : Table Device) (mounts : Nat) (mountOf : Nat → Nat) : Nat → Nat :=
  fun i =>
    if (before[i]?.bind id).isNone ∧ (after[i]?.bind id).isSome then mounts
    else mountOf i

variable [DecidableEq Handle]

/-- What `dfs_file_open` keeps of the filesystem in the descriptor. -/
def openFile (s : FilesState Device Handle) (path : CString)
    (normalized duplicated opens : Bool) : Option OpenFile :=
  match dfsFileOpen s.table s.workingDirectory path normalized duplicated with
  | .handed i _ [name] =>
    if opens then some ⟨⟨name, some i, true⟩, s.mountOf i⟩ else none
  | _ => none

/-- One call.  A descriptor is opened when it is closed, and read, written and closed when it
is open. -/
def FilesState.step (types : List (Option FilesystemOps)) (s : FilesState Device Handle) :
    FilesEvent Device Handle → Option (FilesState Device Handle)
  | .mount request =>
    let table := (dfsMount types s.table s.workingDirectory request).1
    some
      { s with
        table := table
        mounts := s.mounts + 1
        mountOf := numbered s.table table s.mounts s.mountOf
        accessed := none }
  | .unmount specialfile normalized unmounts =>
    some
      { s with
        table := (dfsUnmount s.table s.workingDirectory specialfile normalized unmounts).1
        accessed := none }
  | .fileOpen handle path normalized duplicated opens =>
    match s.files handle with
    | some _ => none
    | none =>
      some
        { s with
          files := Function.update s.files handle
            (openFile s path normalized duplicated opens)
          accessed := none }
  | .fileClose handle closes =>
    match s.files handle with
    | none => none
    | some _ =>
      some
        { s with
          files := if closes then Function.update s.files handle none else s.files
          accessed := none }
  | .fileAccess handle =>
    match s.files handle with
    | none => none
    | some file => some { s with accessed := some file }

def FilesState.Initial (s : FilesState Device Handle) : Prop :=
  ∃ entries workingDirectory mountOf,
    s = ⟨List.replicate entries none, workingDirectory, 0, mountOf, fun _ => none, none⟩

def filesSystem (types : List (Option FilesystemOps)) :
    TransitionSystem (FilesState Device Handle) (FilesEvent Device Handle) :=
  ofFunction FilesState.Initial (FilesState.step types)

def IsMounted (s : FilesState Device Handle) (file : OpenFile) : Prop :=
  ∃ i fs, file.fd.fs = some i ∧ s.table[i]? = some (some fs) ∧
    s.mountOf i = file.mount

/-- All open files are on the mounts that they were opened under, and so was the file that
was read or written last. -/
structure FilesState.Pinned (s : FilesState Device Handle) : Prop where
  files : ∀ handle file, s.files handle = some file → IsMounted s file
  accessed : ∀ file ∈ s.accessed, IsMounted s file

def Unused (s : FilesState Device Handle) : FilesEvent Device Handle → Prop
  | .unmount specialfile normalized unmounts =>
    ∀ entry ∈ (fullPath normalized s.workingDirectory specialfile).bind
        fun path => findMounted path s.table,
      entry.2.ops.unmount = true → unmounts = true →
        ∀ handle, ∀ file ∈ s.files handle, file.fd.fs ≠ some entry.1
  | _ => True

omit [DecidableEq Handle] in
instance [Fintype Handle] (s : FilesState Device Handle) :
    (e : FilesEvent Device Handle) → Decidable (Unused s e)
  | .mount _ => .isTrue trivial
  | .unmount _ _ _ => inferInstanceAs (Decidable (∀ _ ∈ _, _ → _ → ∀ _, ∀ _ ∈ _, _))
  | .fileOpen _ _ _ _ _ => .isTrue trivial
  | .fileClose _ _ => .isTrue trivial
  | .fileAccess _ => .isTrue trivial

variable {types : List (Option FilesystemOps)} {s after : FilesState Device Handle}
  {e : FilesEvent Device Handle} {file : OpenFile}

omit [DecidableEq Handle] in
theorem IsMounted.kept (isMounted : IsMounted s file) (kept : ∀ i fs, s.table[i]? = some (some fs) →
      after.table[i]? = some (some fs) ∧ after.mountOf i = s.mountOf i) : IsMounted after file := by
  obtain ⟨i, fs, isIndex, mounted, isMount⟩ := isMounted
  obtain ⟨stays, sameMount⟩ := kept i fs mounted
  exact ⟨i, fs, isIndex, stays, sameMount.trans isMount⟩

theorem numbered_of_mounted {before table : Table Device} {i mounts : Nat} {mountOf : Nat → Nat}
    {fs : Filesystem Device} (mounted : before[i]? = some (some fs)) :
    numbered before table mounts mountOf i = mountOf i := by
  simp [numbered, mounted]

theorem dfsFileOpen_handed {table : Table Device} {workingDirectory path : CString}
    {norm duplicated : Bool} {i : Nat} {fs : Filesystem Device} {paths : List (Option CString)}
    (handed : dfsFileOpen table workingDirectory path norm duplicated = .handed i fs paths) :
    table[i]? = some (some fs) := by
  unfold dfsFileOpen at handed
  split at handed
  · contradiction
  split at handed
  · contradiction
  next found =>
    split at handed
    · contradiction
    · obtain ⟨rfl, rfl, -⟩ := Outcome.handed.inj handed
      exact dfsFilesystemLookup_mounted found

omit [DecidableEq Handle] in
theorem openFile_isMounted {path : CString} {norm duplicated opens : Bool}
    (opened : openFile s path norm duplicated opens = some file) : IsMounted s file := by
  unfold openFile at opened
  split at opened
  · rename_i i fs name handed
    obtain ⟨-, ⟨⟩⟩ := Option.ite_none_right_eq_some.mp opened
    exact ⟨i, fs, rfl, dfsFileOpen_handed handed, rfl⟩
  · contradiction

omit [DecidableEq Handle] in
theorem unmount_pinned_iff (pinned : s.Pinned) (specialfile : CString) (norm unmounts : Bool) :
    FilesState.Pinned
        { s with
          table := (dfsUnmount s.table s.workingDirectory specialfile norm unmounts).1
          accessed := none } ↔
      Unused s (.unmount specialfile norm unmounts) := by
  rcases dfsUnmount_cases s.table s.workingDirectory specialfile norm unmounts with
    ⟨failed, refused⟩ | ⟨path, i, fs, isPath, isFound, hasUnmount, succeeds, cleared⟩
  · rw [failed]
    refine ⟨fun _ e isEntry hasUnmount succeeds => ?_, fun _ => ?_⟩
    · obtain ⟨path, isPath, isFound⟩ := Option.bind_eq_some_iff.mp isEntry
      exact absurd ⟨hasUnmount, succeeds⟩ (refused path e.1 e.2 isPath isFound)
    · exact ⟨pinned.files, by simp⟩
  · have isEntry : (fullPath norm s.workingDirectory specialfile).bind
        (fun path => findMounted path s.table) = some (i, fs) := by
      rw [isPath, Option.bind_some, isFound]
    rw [cleared]
    constructor
    · intro after e isOther _ _ handle file isOpen isIndex
      obtain rfl := Option.some.inj (isEntry.symm.trans isOther)
      obtain ⟨p, u, isPlace, mounted, -⟩ := after.files handle file isOpen
      obtain rfl : p = i := Option.some.inj (isPlace.symm.trans isIndex)
      rcases getElem?_set_some mounted with ⟨-, isNone⟩ | ⟨ne, -⟩
      · contradiction
      · exact ne rfl
    · intro unused
      refine ⟨fun handle file isOpen => ?_, by simp⟩
      obtain ⟨p, u, isPlace, mounted, isMount⟩ := pinned.files handle file isOpen
      have ne : i ≠ p := by
        rintro rfl
        exact unused (i, fs) isEntry hasUnmount succeeds handle file isOpen isPlace
      exact ⟨p, u, isPlace, by simpa only [List.getElem?_set_ne ne] using mounted, isMount⟩

theorem pinned_iff_unused (pinned : s.Pinned) (step : (filesSystem types).step s e after) :
    after.Pinned ↔ Unused s e := by
  change FilesState.step types s e = some after at step
  cases e with
  | mount request =>
    cases step
    refine ⟨fun _ => trivial, fun _ => ⟨fun handle file isOpen => ?_, by simp⟩⟩
    refine (pinned.files handle file isOpen).kept fun i fs mounted => ?_
    refine ⟨?_, numbered_of_mounted mounted⟩
    rcases dfsMount_cases types s.table s.workingDirectory request with
      ⟨failed, -⟩ | ⟨fullpath, p, new, -, empty, -, registered⟩
    · simpa only [failed] using mounted
    · have ne : p ≠ i := by
        rintro rfl
        exact absurd (empty.symm.trans mounted) (by simp)
      simpa only [registered, List.getElem?_set_ne ne] using mounted
  | unmount specialfile norm unmounts =>
    cases step
    exact unmount_pinned_iff pinned specialfile norm unmounts
  | fileOpen handle path norm duplicated opens =>
    simp only [FilesState.step] at step
    split at step
    · contradiction
    · cases step
      refine ⟨fun _ => trivial, fun _ => ⟨fun u file isOpen => ?_, by simp⟩⟩
      dsimp only at isOpen
      by_cases same : u = handle
      · subst same
        rw [Function.update_self] at isOpen
        exact openFile_isMounted isOpen
      · rw [Function.update_of_ne same] at isOpen
        exact pinned.files u file isOpen
  | fileClose handle closes =>
    simp only [FilesState.step] at step
    split at step
    · contradiction
    · cases step
      refine ⟨fun _ => trivial, fun _ => ⟨fun u file isOpen => ?_, by simp⟩⟩
      dsimp only at isOpen
      split at isOpen
      · by_cases same : u = handle
        · subst same
          rw [Function.update_self] at isOpen
          contradiction
        · rw [Function.update_of_ne same] at isOpen
          exact pinned.files u file isOpen
      · exact pinned.files u file isOpen
  | fileAccess handle =>
    simp only [FilesState.step] at step
    split at step
    · contradiction
    · rename_i file isOpen
      cases step
      refine ⟨fun _ => trivial, fun _ => ⟨pinned.files, fun accessed isAccessed => ?_⟩⟩
      cases isAccessed
      exact pinned.files handle file isOpen

/-- Open files stay on their mounts throughout a run just when no filesystem is unmounted
with open files on it. -/
theorem pinned_throughout_iff
    {taken : List (Taken (FilesState Device Handle) (FilesEvent Device Handle))}
    {last : FilesState Device Handle} (run : (filesSystem types).Run taken last) :
    Throughout FilesState.Pinned taken last ↔ EveryStep Unused taken := by
  have base : ∀ s : FilesState Device Handle, FilesState.Initial s → s.Pinned := by
    rintro s ⟨entries, workingDirectory, mountOf, rfl⟩
    exact ⟨fun handle file isOpen => by simp at isOpen, by simp⟩
  exact run.throughout_iff_everyStep (fun _ _ => trivial) (fun _ _ _ _ _ => trivial) base
    fun _ _ _ _ pinned step => pinned_iff_unused pinned step

def closedFiles : FilesState Nat Bool := ⟨[none, none], slash, 0, fun _ => 0, fun _ => none, none⟩

theorem closedFiles_initial : closedFiles.Initial := ⟨2, slash, fun _ => 0, rfl⟩

theorem closed_before_unmount_pinned :
    let events : List (FilesEvent Nat Bool) := [.mount (rootRequest slash),
      .fileOpen true ⟨['/', 'a'], by decide⟩ true true true, .fileAccess true, .fileClose true true,
      .unmount slash true true]
    Throughout FilesState.Pinned
      (record (FilesState.step [some sdOps]) [] closedFiles events)
      ((execute (FilesState.step [some sdOps]) closedFiles events).get
        (by decide +kernel)) := by
  exact (pinned_throughout_iff
    (Run.executed _ _ closedFiles_initial _)).mpr
      (by decide +kernel)

/-- A file is open on the root when that is unmounted. -/
theorem unmounted_under_file_not_pinned : ¬ ∀ (types : List (Option FilesystemOps))
      (taken : List (Taken (FilesState Nat Bool) (FilesEvent Nat Bool)))
      (last : FilesState Nat Bool), (filesSystem types).Run taken last →
        Throughout FilesState.Pinned taken last := by
  intro claim
  let events : List (FilesEvent Nat Bool) := [.mount (rootRequest slash),
    .fileOpen true ⟨['/', 'a'], by decide⟩ true true true, .unmount slash true true]
  have run : (filesSystem [some sdOps]).Run _ _ :=
    .executed closedFiles events closedFiles_initial (by decide +kernel)
  obtain ⟨i, fs, isIndex, mounted, -⟩ := (claim _ _ _ run).1.files true
    ⟨⟨some ⟨['/', 'a'], by decide⟩, some 0, true⟩, 0⟩ (by decide +kernel)
  obtain rfl : 0 = i := Option.some.inj isIndex
  exact absurd (Option.isSome_iff_exists.mpr ⟨fs, congrArg (Option.bind · id) mounted⟩)
    (by decide +kernel)

end RtThread.Dfs
