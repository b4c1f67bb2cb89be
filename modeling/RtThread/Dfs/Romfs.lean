import Mathlib.Data.List.Nodup
import RtThread.Dfs.Filesystem

/-!
# The lookup of the ROM file system

`dfs_romfs_lookup` goes down the tables of directory entries.
-/

namespace RtThread.Dfs.Romfs

def romfsDirentFile : UInt32 := 0
def romfsDirentDir : UInt32 := 1

/-- `struct romfs_dirent`.  The data of a directory is the table of its entries; the bytes of a
file are left out, as the lookup does not follow them. -/
inductive RomfsDirent where
  | mk (type : UInt32) (name : CString) (data : Option (List RomfsDirent)) (size : UInt32)

namespace RomfsDirent

def type : RomfsDirent → UInt32
  | mk type _ _ _ => type

def name : RomfsDirent → CString
  | mk _ name _ _ => name

def data : RomfsDirent → Option (List RomfsDirent)
  | mk _ _ data _ => data

def size : RomfsDirent → UInt32
  | mk _ _ _ size => size

end RomfsDirent

def checkDirent (dirent : RomfsDirent) : Bool :=
  (dirent.type = romfsDirentFile ∨ dirent.type = romfsDirentDir) ∧ dirent.size ≠ 0xffffffff

/-- "skip ///", then "get the end position of this subpath". -/
def nextSubpath (subpathEnd : List Char) : List Char × List Char :=
  let subpath := subpathEnd.dropWhile (· = '/')
  (subpath, subpath.dropWhile (· ≠ '/'))

/-- "search in folder": the entry whose name is the first `length` characters of `subpath`. -/
def searchFolder (subpath : List Char) (length : Nat) :
    List RomfsDirent → Nat → Option (Option RomfsDirent)
  | _, 0 => some none
  | [], _ + 1 => none
  | dirent :: rest, count + 1 =>
    if ¬ checkDirent dirent then some none
    else if dirent.name.chars.length = length ∧
        dirent.name.chars.take length = subpath.take length then some (some dirent)
    else searchFolder subpath length rest count

theorem nextSubpath_shorter {subpathEnd : List Char} (more : (nextSubpath subpathEnd).1 ≠ []) :
    (nextSubpath subpathEnd).2.length < subpathEnd.length := by
  have shorter := (List.dropWhile_suffix (l := subpathEnd) (· = '/')).length_le
  have isHead := List.head_dropWhile_not (· = '/') more
  change (List.dropWhile _ (List.dropWhile _ subpathEnd)).length < _
  change List.dropWhile _ subpathEnd ≠ [] at more
  obtain ⟨a, rest, isCons⟩ := List.exists_cons_of_ne_nil more
  rw [isCons] at shorter ⊢
  have separated : a ≠ '/' := by simpa [isCons] using isHead
  rw [List.dropWhile_cons_of_pos (by simpa using separated)]
  exact Nat.lt_of_le_of_lt (List.dropWhile_suffix _).length_le shorter

/-- The loop of `dfs_romfs_lookup`, in the table `dirent` with `direntSize` entries. -/
def lookupIn (dirent : Option (List RomfsDirent)) (direntSize : UInt32)
    (subpath subpathEnd : List Char) : Option (Option (RomfsDirent × UInt32)) :=
  match dirent with
  | none => some none
  | some table =>
    match searchFolder subpath (subpath.length - subpathEnd.length) table direntSize.toNat with
    | none => none
    | some none => some none
    | some (some found) =>
      if more : (nextSubpath subpathEnd).1 = [] then some (some (found, found.size))
      else if found.type = romfsDirentDir then
        have := nextSubpath_shorter more
        lookupIn found.data found.size (nextSubpath subpathEnd).1 (nextSubpath subpathEnd).2
      else some none
termination_by subpathEnd.length

def dfsRomfsLookup (rootDirent : RomfsDirent) (path : CString) :
    Option (Option (RomfsDirent × UInt32)) :=
  if ¬ checkDirent rootDirent then some none
  else if path.chars = ['/'] then some (some (rootDirent, rootDirent.size))
  else
    lookupIn rootDirent.data rootDirent.size (nextSubpath path.chars).1 (nextSubpath path.chars).2

/-- A tree whose directories have as many entries as their size says, of distinct names. -/
inductive RomfsTree : RomfsDirent → Prop where
  | file {dirent : RomfsDirent} : dirent.type = romfsDirentFile → dirent.size ≠ 0xffffffff →
      RomfsTree dirent
  | directory {dirent : RomfsDirent} : dirent.type = romfsDirentDir → dirent.size ≠ 0xffffffff →
      (∀ entries, dirent.data = some entries → dirent.size.toNat = entries.length) →
      (∀ entries, dirent.data = some entries → (entries.map RomfsDirent.name).Nodup) →
      (∀ entries, dirent.data = some entries → ∀ entry ∈ entries, RomfsTree entry) →
      RomfsTree dirent

def RomfsDirent.HasEntry (directory : RomfsDirent) (name : List Char) (entry : RomfsDirent) :
    Prop :=
  ∃ entries, directory.data = some entries ∧ entry ∈ entries ∧ entry.name.chars = name

/-- The names lead from a directory entry to another. -/
inductive RomfsReaches : RomfsDirent → List (List Char) → RomfsDirent → Prop where
  | here {dirent : RomfsDirent} : RomfsReaches dirent [] dirent
  | enter {directory entry last : RomfsDirent} {name : List Char} {names : List (List Char)} :
      directory.type = romfsDirentDir → directory.HasEntry name entry →
      RomfsReaches entry names last → RomfsReaches directory (name :: names) last

/-- A name does not exist, or one that is not the last is a file. -/
inductive RomfsFails : RomfsDirent → List (List Char) → Prop where
  | file {dirent : RomfsDirent} {name : List Char} {names : List (List Char)} :
      dirent.type = romfsDirentFile → RomfsFails dirent (name :: names)
  | missing {directory : RomfsDirent} {name : List Char} {names : List (List Char)} :
      directory.type = romfsDirentDir → (∀ entry, ¬ directory.HasEntry name entry) →
      RomfsFails directory (name :: names)
  | enter {directory entry : RomfsDirent} {name : List Char} {names : List (List Char)} :
      directory.type = romfsDirentDir → directory.HasEntry name entry →
      RomfsFails entry names → RomfsFails directory (name :: names)

variable {dirent directory found : RomfsDirent} {name : List Char} {names : List (List Char)}
  {entries : List RomfsDirent}

theorem RomfsTree.checkDirent (tree : RomfsTree dirent) : checkDirent dirent = true := by
  cases tree with
  | file isFile size => simp [Romfs.checkDirent, isFile, size]
  | directory isDirectory size _ _ _ => simp [Romfs.checkDirent, isDirectory, size]

theorem RomfsTree.type_of_ne (tree : RomfsTree dirent) (notDir : dirent.type ≠ romfsDirentDir) :
    dirent.type = romfsDirentFile := by
  cases tree with
  | file isFile _ => exact isFile
  | directory isDirectory _ _ _ _ => exact absurd isDirectory notDir

theorem searchFolder_eq_find? {subpath : List Char} (valid : ∀ e ∈ entries, checkDirent e)
    (isName : subpath.take name.length = name) :
    searchFolder subpath name.length entries entries.length =
      some (entries.find? fun e => e.name.chars = name) := by
  induction entries with
  | nil => rfl
  | cons e entries ih =>
    obtain ⟨first, valid⟩ := List.forall_mem_cons.mp valid
    rw [List.length_cons, searchFolder, if_neg (not_not.mpr first), isName, ih valid]
    by_cases same : e.name.chars = name
    · rw [if_pos ⟨by rw [same], by rw [← same, List.take_length]⟩,
        List.find?_cons_of_pos (by simpa using same)]
    · have u : ¬ (e.name.chars.length = name.length ∧
          e.name.chars.take name.length = name) := by
        rintro ⟨sameLength, taken⟩
        exact same (by rw [← taken, ← sameLength, List.take_length])
      rw [if_neg u, List.find?_cons_of_neg (by simpa using same)]

def behindName (names : List (List Char)) : List Char :=
  if names = [] then [] else slashed.render names

theorem render_cons (name : List Char) (names : List (List Char)) :
    slashed.render (name :: names) = '/' :: (name ++ behindName names) := by
  rw [LexicalPath.Format.render, behindName]
  split
  · rename_i none
    rw [none, List.intercalate_singleton, List.append_nil]
  · rename_i some
    rw [List.intercalate_cons_of_ne_nil some, LexicalPath.Format.render, List.append_assoc]
    rfl

theorem nextSubpath_render (proper : slashed.Proper name) :
    nextSubpath (slashed.render (name :: names)) =
      (name ++ behindName names, behindName names) := by
  have separated : ∀ c ∈ name, c ≠ '/' := fun c isIn same => proper.separated (by
    rw [same] at isIn
    exact isIn)
  obtain ⟨a, rest, isCons⟩ := List.exists_cons_of_ne_nil proper.nonempty
  have start : (slashed.render (name :: names)).dropWhile (· = '/') = name ++ behindName names := by
    rw [render_cons, isCons, List.dropWhile_cons_of_pos (by simp), List.cons_append,
      List.dropWhile_cons_of_neg]
    simpa using separated a (isCons ▸ List.mem_cons_self)
  have stop : (name ++ behindName names).dropWhile (· ≠ '/') = behindName names := by
    rw [List.dropWhile_append_of_pos fun c isIn => by simpa using separated c isIn, behindName]
    split
    · rfl
    · exact List.dropWhile_cons_of_neg (by decide)
  rw [nextSubpath, start, stop]

/-- What a lookup of the names from `dirent` on has to give. -/
def Finds (dirent : RomfsDirent) (names : List (List Char))
    (result : Option (Option (RomfsDirent × UInt32))) : Prop :=
  (∃ entry, result = some (some (entry, entry.size)) ∧ RomfsReaches dirent names entry ∧
    ¬ RomfsFails dirent names ∧ ∀ u, RomfsReaches dirent names u → u = entry) ∨
  (result = some none ∧ RomfsFails dirent names ∧ ∀ entry, ¬ RomfsReaches dirent names entry)

theorem finds_here : Finds dirent [] (some (some (dirent, dirent.size))) := by
  refine .inl ⟨dirent, rfl, .here, fun fails => ?_, fun u reaches => ?_⟩
  · cases fails
  · cases reaches
    rfl

theorem finds_file (isFile : dirent.type = romfsDirentFile) :
    Finds dirent (name :: names) (some none) := by
  refine .inr ⟨rfl, .file isFile, fun e reaches => ?_⟩
  cases reaches with
  | enter isDir _ _ => exact absurd (isFile.symm.trans isDir) (by decide)

theorem finds_missing (isDir : directory.type = romfsDirentDir)
    (missing : ∀ e, ¬ directory.HasEntry name e) : Finds directory (name :: names) (some none) := by
  refine .inr ⟨rfl, .missing isDir missing, fun e reaches => ?_⟩
  cases reaches with
  | enter _ has _ => exact missing _ has

section

variable (tree : RomfsTree directory)

include tree

theorem RomfsTree.table (isDir : directory.type = romfsDirentDir)
    (data : directory.data = some entries) : directory.size.toNat = entries.length ∧
      (entries.map RomfsDirent.name).Nodup ∧ ∀ e ∈ entries, RomfsTree e := by
  cases tree with
  | file isFile _ => exact absurd (isFile.symm.trans isDir) (by decide)
  | directory _ _ n distinct inner =>
    exact ⟨n entries data, distinct entries data, inner entries data⟩

theorem RomfsTree.hasEntry_unique (isDir : directory.type = romfsDirentDir) {u : RomfsDirent}
    (has : directory.HasEntry name found) (hasOther : directory.HasEntry name u) : u = found := by
  obtain ⟨entries, data, isEntry, isName⟩ := has
  obtain ⟨_, data', isEntry', isName'⟩ := hasOther
  obtain rfl := Option.some.inj (data.symm.trans data')
  have distinct := (tree.table isDir data).2.1
  exact List.inj_on_of_nodup_map distinct isEntry' isEntry
    (CString.ext (isName'.trans isName.symm))

theorem RomfsTree.entry (isDir : directory.type = romfsDirentDir)
    (has : directory.HasEntry name found) : RomfsTree found := by
  obtain ⟨entries, data, isEntry, _⟩ := has
  exact (tree.table isDir data).2.2 found isEntry

theorem RomfsTree.finds_enter (isDir : directory.type = romfsDirentDir)
    (has : directory.HasEntry name found) {r : Option (Option (RomfsDirent × UInt32))}
    (finds : Finds found names r) : Finds directory (name :: names) r := by
  have same : ∀ u, directory.HasEntry name u → u = found := fun _ => tree.hasEntry_unique isDir has
  rcases finds with ⟨e, isResult, reaches, notFails, unique⟩ | ⟨isResult, fails, never⟩
  · refine .inl ⟨e, isResult, .enter isDir has reaches, fun fails => ?_, fun u later => ?_⟩
    · cases fails with
      | file isFile => exact absurd (isFile.symm.trans isDir) (by decide)
      | missing _ missing => exact missing _ has
      | enter _ hasOther fails => exact notFails (same _ hasOther ▸ fails)
    · cases later with
      | enter _ hasOther reaches => exact unique u (same _ hasOther ▸ reaches)
  · refine .inr ⟨isResult, .enter isDir has fails, fun e reaches => ?_⟩
    cases reaches with
    | enter _ hasOther reaches => exact never e (same _ hasOther ▸ reaches)

theorem RomfsTree.lookupIn_turn (isDir : directory.type = romfsDirentDir) (name : List Char)
    (rest : List Char) : (lookupIn directory.data directory.size (name ++ rest) rest = some none ∧
      ∀ e, ¬ directory.HasEntry name e) ∨ ∃ found, directory.HasEntry name found ∧
      lookupIn directory.data directory.size (name ++ rest) rest =
        if (nextSubpath rest).1 = [] then some (some (found, found.size))
        else if found.type = romfsDirentDir then
          lookupIn found.data found.size (nextSubpath rest).1 (nextSubpath rest).2
        else some none := by
  rw [lookupIn.eq_def]
  cases data : directory.data with
  | none =>
    refine .inl ⟨rfl, ?_⟩
    rintro e ⟨entries, isTable, _⟩
    exact absurd (data.symm.trans isTable).symm (Option.some_ne_none _)
  | some entries =>
    obtain ⟨size, -, inner⟩ := tree.table isDir data
    have search := searchFolder_eq_find? (fun e isEntry => (inner e isEntry).checkDirent)
      (@List.take_left _ name rest)
    have length : (name ++ rest).length - rest.length = name.length := by simp
    simp only [length, size, search]
    cases found : entries.find? fun e => e.name.chars = name with
    | none =>
      refine .inl ⟨rfl, ?_⟩
      rintro e ⟨_, isTable, isEntry, isName⟩
      obtain rfl := Option.some.inj (data.symm.trans isTable)
      exact absurd isName (by simpa using List.find?_eq_none.mp found e isEntry)
    | some e =>
      have isName : e.name.chars = name := by simpa using List.find?_some found
      exact .inr ⟨e, ⟨entries, data, List.mem_of_find?_eq_some found, isName⟩,
        by simp only [dite_eq_ite]⟩

theorem lookupIn_finds (isDir : directory.type = romfsDirentDir)
    (proper : ∀ u ∈ names, slashed.Proper u) : Finds directory (name :: names)
      (lookupIn directory.data directory.size (name ++ behindName names) (behindName names)) := by
  induction names generalizing directory name with
  | nil =>
    rcases tree.lookupIn_turn isDir name (behindName []) with ⟨result, missing⟩ |
      ⟨found, has, result⟩
    · exact result ▸ finds_missing isDir missing
    · rw [result, if_pos (show (nextSubpath (behindName [])).1 = [] from rfl)]
      exact tree.finds_enter isDir has finds_here
  | cons next names ih =>
    obtain ⟨nextProper, later⟩ := List.forall_mem_cons.mp proper
    have behind : behindName (next :: names) = slashed.render (next :: names) :=
      if_neg (List.cons_ne_nil _ _)
    have more : next ++ behindName names ≠ [] := by simp [nextProper.nonempty]
    rcases tree.lookupIn_turn isDir name (behindName (next :: names)) with ⟨result, missing⟩ |
      ⟨found, has, result⟩
    · exact result ▸ finds_missing isDir missing
    · rw [behind, nextSubpath_render nextProper, if_neg more] at result
      rw [behind, result]
      have inner := tree.entry isDir has
      by_cases isDir' : found.type = romfsDirentDir
      · rw [if_pos isDir']
        exact tree.finds_enter isDir has (ih inner isDir' later)
      · rw [if_neg isDir']
        exact tree.finds_enter isDir has (finds_file (inner.type_of_ne isDir'))

end

/-- `dfs_romfs_lookup` from the root of a tree: the entry that the names of a normalised path
lead to with its size, and `NULL` when a name is missing or a file has to be entered. -/
theorem dfsRomfsLookup_follows {root : RomfsDirent} (tree : RomfsTree root)
    (isDir : root.type = romfsDirentDir) {path : CString} {names : List (List Char)}
    (proper : ∀ name ∈ names, slashed.Proper name) (chars : path.chars = slashed.render names) :
    (∀ e n, dfsRomfsLookup root path = some (some (e, n)) ↔
      RomfsReaches root names e ∧ n = e.size) ∧
    (dfsRomfsLookup root path = some none ↔ RomfsFails root names) := by
  have finds : Finds root names (dfsRomfsLookup root path) := by
    rw [dfsRomfsLookup, if_neg (not_not.mpr tree.checkDirent), chars]
    cases names with
    | nil =>
      exact finds_here
    | cons name names =>
      obtain ⟨first, later⟩ := List.forall_mem_cons.mp proper
      rw [nextSubpath_render first, if_neg]
      · exact lookupIn_finds tree isDir later
      · rw [render_cons]
        simp [first.nonempty]
  rcases finds with ⟨e, result, reaches, notFails, unique⟩ | ⟨result, fails, never⟩
  · rw [result]
    refine ⟨fun u n => ⟨?_, ?_⟩, ⟨fun impossible => ?_, fun fails => absurd fails notFails⟩⟩
    · rintro ⟨⟩
      exact ⟨reaches, rfl⟩
    · rintro ⟨reachesOther, rfl⟩
      rw [unique u reachesOther]
    · exact absurd (Option.some.inj impossible) (Option.some_ne_none _)
  · rw [result]
    refine ⟨fun u n => ⟨fun impossible => ?_, fun ⟨reaches, _⟩ => absurd reaches
      (never u)⟩, ⟨fun _ => fails, fun _ => rfl⟩⟩
    exact absurd (Option.some.inj impossible).symm (Option.some_ne_none _)

def rcFile : RomfsDirent := .mk romfsDirentFile ⟨['r', 'c'], by decide⟩ none 4

def etcDirectory : RomfsDirent :=
  .mk romfsDirentDir ⟨['e', 't', 'c'], by decide⟩ (some [rcFile]) 1

def smallRoot : RomfsDirent :=
    .mk romfsDirentDir ⟨['r', 'o', 'o', 't'], by decide⟩ (some [etcDirectory]) 1

theorem romfsTree_singleton {inner : RomfsDirent} (tree : RomfsTree inner) (name : CString) :
    RomfsTree (.mk romfsDirentDir name (some [inner]) 1) := by
  refine .directory rfl (by decide : (1 : UInt32) ≠ 0xffffffff) ?_ ?_ ?_
  all_goals
    rintro _ ⟨⟩
  · rfl
  · exact List.nodup_singleton _
  · rintro e isEntry
    rw [List.mem_singleton.mp isEntry]
    exact tree

theorem smallRoot_lookup :
    dfsRomfsLookup smallRoot ⟨['/', 'e', 't', 'c', '/', 'r', 'c'], by decide⟩ =
      some (some (rcFile, 4)) := by
  have file : RomfsTree rcFile := .file rfl (show (4 : UInt32) ≠ 0xffffffff by decide)
  have tree : RomfsTree smallRoot := romfsTree_singleton (romfsTree_singleton file _) _
  have proper : ∀ name ∈ [['e', 't', 'c'], ['r', 'c']], slashed.Proper name := by
    simp only [List.forall_mem_cons, List.not_mem_nil, false_implies, implies_true, and_true]
    exact ⟨⟨by decide, by decide, by decide, by decide⟩, ⟨by decide, by decide, by decide,
      by decide⟩⟩
  exact ((dfsRomfsLookup_follows tree rfl proper rfl).1 rcFile 4).mpr
    ⟨.enter rfl ⟨_, rfl, List.mem_singleton_self _, rfl⟩
      (.enter rfl ⟨_, rfl, List.mem_singleton_self _, rfl⟩ .here), rfl⟩

end RtThread.Dfs.Romfs
