import RtThread.Dfs.Normalize
import RtThread.Library.GrowableArray

/-!
# The memory file system

A file is an entry in the list of the root, with its name and one block of memory.
-/

namespace RtThread.Dfs

open GrowableArray

def ramfsNameMax : Nat := 32

/-- `struct ramfs_dirent`: the array of its name, and the block behind `data`, if any. -/
structure RamfsDirent where
  name : List Char
  data : Option (List UInt8)
  size : Nat

/-- What `dfs_ramfs_lookup` points to. -/
inductive RamfsEntry (Id : Type) where
  | root
  | file (id : Id)
deriving DecidableEq

/-- `struct dfs_ramfs`.  `list` holds the entries in the order of the list of the root. -/
structure Ramfs (Id : Type) where
  root : RamfsDirent
  list : List Id
  dirent : Id → RamfsDirent

/-- The flags of `open` that the file system looks at. -/
structure OpenFlags where
  directory : Bool
  creat : Bool
  wronly : Bool
  trunc : Bool
  append : Bool

/-- The `data`, `size` and `pos` of an open `struct dfs_fd`. -/
structure RamfsFd (Id : Type) where
  data : RamfsEntry Id
  size : Nat
  pos : Nat
  pos_le : pos ≤ size

inductive RamfsError where
  | eio
  | enoent
  | enospc
  | enomem
  | eexist

/-- `strncpy`: at most `count` characters, and zeros up to `count`. -/
def strncpy (src : List Char) (count : Nat) : List Char :=
  src.take count ++ List.replicate (count - src.length) '\x00'

def stripped (path : CString) : List Char := path.chars.dropWhile (· = '/')

/-- `memcpy` out of a block, where the length is not 0.  It has no result when it leaves the
block. -/
def copyOut (data : Option (List UInt8)) (pos length : Nat) : Option (List UInt8) :=
  if 0 < length then
    data.bind fun b =>
      if pos + length ≤ b.length then some (read b pos length) else none
  else some []

/-- `memcpy` into a block, where there is something to copy. -/
def copyIn (data : Option (List UInt8)) (pos : Nat) (buf : List UInt8) :
    Option (Option (List UInt8)) :=
  if 0 < buf.length then
    data.bind fun b =>
      if pos + buf.length ≤ b.length then some (some (overwrite b pos buf)) else none
  else some data

namespace Ramfs

variable {Id : Type} [DecidableEq Id]

omit [DecidableEq Id] in
def get (ramfs : Ramfs Id) : RamfsEntry Id → RamfsDirent
  | .root => ramfs.root
  | .file id => ramfs.dirent id

def set (ramfs : Ramfs Id) (entry : RamfsEntry Id) (dirent : RamfsDirent) : Ramfs Id :=
  match entry with
  | .root => { ramfs with root := dirent }
  | .file id => { ramfs with dirent := Function.update ramfs.dirent id dirent }

omit [DecidableEq Id] in
def Holds (ramfs : Ramfs Id) : RamfsEntry Id → Prop
  | .root => True
  | .file id => id ∈ ramfs.list

instance (ramfs : Ramfs Id) (entry : RamfsEntry Id) : Decidable (ramfs.Holds entry) := by
  cases entry <;> unfold Holds <;> infer_instance

omit [DecidableEq Id] in
/-- `dfs_ramfs_lookup`.  The comparison reads on behind the array of a name that is not
terminated; `behind` is what lies there. -/
def dfsRamfsLookup (behind : RamfsDirent → List Char) (ramfs : Ramfs Id) (path : CString) :
    Option (RamfsEntry Id) :=
  let subpath := stripped path
  if subpath = [] then some .root
  else
    (ramfs.list.find? fun id =>
      (CString.ofMemory ((ramfs.dirent id).name ++ behind (ramfs.dirent id))).chars = subpath).map
      .file

/-- `dfs_ramfs_read`: the bytes copied and the descriptor, or none when memory outside of the
block is read. -/
def dfsRamfsRead (ramfs : Ramfs Id) (file : RamfsFd Id) (count : Nat) :
    Option (List UInt8 × RamfsFd Id) :=
  let length := min count (file.size - file.pos)
  (copyOut (ramfs.get file.data).data file.pos length).map fun bytes =>
    (bytes, { file with
      pos := file.pos + length
      pos_le := by have := file.pos_le; omega })

/-- `dfs_ramfs_write`: the file system, the descriptor and the result.  `realloc` is none when
`rt_memheap_realloc` gets no memory, and else what is in the part of the block that it adds. -/
def dfsRamfsWrite (ramfs : Ramfs Id) (fd : RamfsFd Id) (buf : List UInt8)
    (realloc : Option (Nat → UInt8)) : Option (Ramfs Id × RamfsFd Id × Nat) :=
  let dirent := ramfs.get fd.data
  if grows : fd.size < buf.length + fd.pos then
    match realloc with
    | none => some (ramfs, fd, 0)
    | some fresh =>
      let size := fd.pos + buf.length
      let ptr := resized (dirent.data.getD []) size fresh
      (copyIn (some ptr) fd.pos buf).map fun data =>
        (ramfs.set fd.data { dirent with data, size },
          { fd with size, pos := fd.pos + buf.length, pos_le := Nat.le_refl _ }, buf.length)
  else
    (copyIn dirent.data fd.pos buf).map fun data =>
      (ramfs.set fd.data { dirent with data },
        { fd with pos := fd.pos + buf.length, pos_le := by omega }, buf.length)

/-- `dfs_ramfs_lseek`, for the offsets that `lseek` passes. -/
def dfsRamfsLseek (file : RamfsFd Id) (offset : Nat) : RamfsFd Id × Except RamfsError Nat :=
  if within : offset ≤ file.size then
    ({ file with pos := offset, pos_le := within }, .ok offset)
  else (file, .error .eio)

def opened (ramfs : Ramfs Id) (entry : RamfsEntry Id) (flags : OpenFlags) : RamfsFd Id :=
  let size := (ramfs.get entry).size
  { data := entry, size
    pos := if flags.append then size else 0
    pos_le := by split <;> omega }

/-- The entry that `dfs_ramfs_open` opens for a file, created if it has to be in the memory
`alloc` that `rt_memheap_alloc` finds. -/
def openEntry (behind : RamfsDirent → List Char) (ramfs : Ramfs Id) (path : CString)
    (flags : OpenFlags) (alloc : Option Id) : Ramfs Id × Except RamfsError (RamfsEntry Id) :=
  match ramfs.dfsRamfsLookup behind path with
  | some .root => (ramfs, .error .enoent)
  | some (.file id) => (ramfs, .ok (.file id))
  | none =>
    if flags.creat || flags.wronly then
      match alloc with
      | none => (ramfs, .error .enomem)
      | some id =>
        let dirent : RamfsDirent := ⟨strncpy (stripped path) ramfsNameMax, none, 0⟩
        ({ ramfs.set (.file id) dirent with list := id :: ramfs.list }, .ok (.file id))
    else (ramfs, .error .enoent)

def dfsRamfsOpen (behind : RamfsDirent → List Char) (ramfs : Ramfs Id) (path : CString)
    (flags : OpenFlags) (alloc : Option Id) : Ramfs Id × Except RamfsError (RamfsFd Id) :=
  if flags.directory then
    if flags.creat then (ramfs, .error .enospc)
    else
      match ramfs.dfsRamfsLookup behind path with
      | none => (ramfs, .error .enoent)
      | some entry => (ramfs, .ok (ramfs.opened entry flags))
  else
    match ramfs.openEntry behind path flags alloc with
    | (ramfs, .error error) => (ramfs, .error error)
    | (ramfs, .ok entry) =>
      let after :=
        if flags.trunc then ramfs.set entry { ramfs.get entry with data := none, size := 0 }
        else ramfs
      (after, .ok (after.opened entry flags))

/-- `dfs_ramfs_unlink`, with the entry that is freed.  Taking the root out of its list leaves
the list of the root empty. -/
def dfsRamfsUnlink (behind : RamfsDirent → List Char) (ramfs : Ramfs Id) (path : CString) :
    Ramfs Id × Except RamfsError (RamfsEntry Id) :=
  match ramfs.dfsRamfsLookup behind path with
  | none => (ramfs, .error .enoent)
  | some .root => ({ ramfs with list := [] }, .ok .root)
  | some (.file id) => ({ ramfs with list := ramfs.list.erase id }, .ok (.file id))

def dfsRamfsRename (behind : RamfsDirent → List Char) (ramfs : Ramfs Id)
    (oldpath newpath : CString) : Ramfs Id × Except RamfsError (RamfsEntry Id) :=
  match ramfs.dfsRamfsLookup behind newpath with
  | some _ => (ramfs, .error .eexist)
  | none =>
    match ramfs.dfsRamfsLookup behind oldpath with
    | none => (ramfs, .error .enoent)
    | some entry =>
      (ramfs.set entry
        { ramfs.get entry with name := strncpy newpath.chars ramfsNameMax }, .ok entry)

section Set

variable {ramfs : Ramfs Id} {entry u : RamfsEntry Id} {dirent : RamfsDirent}

@[simp]
theorem get_set_self : (ramfs.set entry dirent).get entry = dirent := by
  cases entry <;> simp [set, get]

theorem get_set_of_ne (isOther : u ≠ entry) : (ramfs.set entry dirent).get u = ramfs.get u := by
  cases entry with
  | root =>
    cases u with
    | root => exact absurd rfl isOther
    | file id => rfl
  | file id =>
    cases u with
    | root => rfl
    | file id' =>
      have differ : id' ≠ id := fun same => isOther (by rw [same])
      simp [set, get, differ]

@[simp]
theorem list_set : (ramfs.set entry dirent).list = ramfs.list := by
  cases entry <;> rfl

theorem holds_set : (ramfs.set entry dirent).Holds u ↔ ramfs.Holds u := by
  cases u <;> simp [Holds]

end Set

variable {behind : RamfsDirent → List Char} {ramfs : Ramfs Id} {path : CString}

omit [DecidableEq Id] in
theorem holds_of_lookup {entry : RamfsEntry Id}
    (found : ramfs.dfsRamfsLookup behind path = some entry) : ramfs.Holds entry := by
  simp only [dfsRamfsLookup] at found
  split_ifs at found
  · cases found
    trivial
  · obtain ⟨id, isId, rfl⟩ := Option.map_eq_some_iff.mp found
    exact List.mem_of_find?_eq_some isId

def Creates (behind : RamfsDirent → List Char) (ramfs : Ramfs Id) (path : CString)
    (flags : OpenFlags) (alloc : Option Id) : Prop :=
  ramfs.dfsRamfsLookup behind path = none ∧ (flags.creat || flags.wronly) = true ∧
    alloc.isSome = true

theorem openEntry_cases (behind : RamfsDirent → List Char) (ramfs : Ramfs Id) (path : CString)
    (flags : OpenFlags) (alloc : Option Id) :
    (¬ ramfs.Creates behind path flags alloc ∧
      ∃ error, ramfs.openEntry behind path flags alloc = (ramfs, .error error)) ∨
    (¬ ramfs.Creates behind path flags alloc ∧ ∃ entry, ramfs.Holds entry ∧
      ramfs.openEntry behind path flags alloc = (ramfs, .ok entry)) ∨
    (ramfs.Creates behind path flags alloc ∧
      ∃ id ∈ alloc, ramfs.openEntry behind path flags alloc =
        ({ ramfs.set (.file id) ⟨strncpy (stripped path) ramfsNameMax, none, 0⟩ with
          list := id :: ramfs.list }, .ok (.file id))) := by
  unfold openEntry Creates
  cases found : ramfs.dfsRamfsLookup behind path with
  | some entry =>
    cases entry with
    | root => exact .inl ⟨nofun, _, rfl⟩
    | file id => exact .inr (.inl ⟨nofun, _, holds_of_lookup found, rfl⟩)
  | none =>
    cases wanted : flags.creat || flags.wronly with
    | false => exact .inl ⟨nofun, _, rfl⟩
    | true =>
      cases alloc with
      | none => exact .inl ⟨nofun, _, rfl⟩
      | some id => exact .inr (.inr ⟨⟨rfl, rfl, rfl⟩, id, rfl, rfl⟩)

end Ramfs

end RtThread.Dfs
