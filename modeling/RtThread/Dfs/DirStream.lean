import Mathlib.Algebra.Ring.Int.Defs
import Mathlib.Algebra.Ring.Nat
import RtThread.Dfs.Ramfs

/-!
# Directory streams

`opendir`, `readdir`, `telldir`, `seekdir` and `rewinddir` on the root of a memory file system or
on a directory of a read-only one.
-/

namespace RtThread.Dfs

def rtNameMax : Nat := 24

def dfsPathMax : Nat := 256

def sizeofDirent : Nat := 4 + dfsPathMax

def dirBufSize : Nat := 512

inductive DirentType where
  | unknown
  | reg
  | dir
deriving DecidableEq

/-- `struct dirent`, with the string that is read from `d_name`. -/
structure Dirent where
  dType : DirentType
  dNamlen : Nat
  dReclen : Nat
  dName : CString
deriving DecidableEq

def Dirent.zero : Dirent := ⟨.unknown, 0, 0, ⟨[], by simp⟩⟩

/-- What `dfs_romfs_getdents` reads of a `struct romfs_dirent`. -/
structure RomfsDirent where
  isDir : Bool
  name : CString

inductive DirFiles (Id : Type) where
  | ramfs (fs : Ramfs Id)
  | romfs (entries : List RomfsDirent)

def DirFiles.count {Id : Type} : DirFiles Id → Nat
  | .ramfs fs => fs.list.length
  | .romfs entries => entries.length

/-- The smaller of the sizes of `struct ramfs_dirent` and `struct romfs_dirent`. -/
def sizeofEntry : Nat := 16

/-- The `size` of a descriptor: the bytes of the root, or the entries of the directory. -/
def DirFiles.size {Id : Type} : DirFiles Id → Nat
  | .ramfs fs => fs.root.size
  | .romfs entries => entries.length

/-- A directory whose entries and whose data are in memory. -/
structure Directory (Id : Type) where
  files : DirFiles Id
  inMemory : files.count * sizeofEntry ≤ 2 ^ 32
  size_lt : files.size < 2 ^ 31

/-- A `DIR` with the position of its descriptor; `buf` gives the record at an offset. -/
structure Stream where
  pos : Int
  buf : Nat → Dirent
  num : Nat
  cur : Nat

def toUnsigned (value : Int) : Nat := (value % 2 ^ 32).toNat

def toSigned (value : Nat) : Int := (BitVec.ofNat 32 value).toInt

/-- The record of a file of the memory file system; behind the name, `d_name` is cleared. -/
def ramfsRecord (dirent : RamfsDirent) : Dirent :=
  ⟨.reg, rtNameMax, sizeofDirent, CString.ofMemory (dirent.name.take ramfsNameMax)⟩

def romfsRecord (dirent : RomfsDirent) : Dirent :=
  ⟨if dirent.isDir then .dir else .reg, dirent.name.chars.length % 256, sizeofDirent, dirent.name⟩

/-- What `getdents` gives: its result, the position behind it, and the records it stores. -/
structure Dents where
  result : Int
  pos : Int
  records : List Dirent

/-- The loop of `dfs_ramfs_getdents`, from the entry `i` of the list on. -/
def ramfsLoop (last : Nat) : List RamfsDirent → Nat → Int → List Dirent → Int × List Dirent
  | [], _, pos, records => (pos, records)
  | dirent :: rest, i, pos, records =>
    if i < last then
      if toUnsigned pos ≤ i then
        ramfsLoop last rest (i + 1) (pos + 1) (records ++ [ramfsRecord dirent])
      else ramfsLoop last rest (i + 1) pos records
    else (pos, records)

/-- `dfs_ramfs_getdents` on the root. -/
def dfsRamfsGetdents {Id : Type} (fs : Ramfs Id) (pos : Int) (count : Nat) : Dents :=
  let count := count / sizeofDirent
  if count = 0 then ⟨-22, pos, []⟩
  else
    let filled := ramfsLoop (toUnsigned (pos + count)) (fs.list.map fs.dirent) 0 pos []
    ⟨filled.2.length * sizeofDirent, filled.1, filled.2⟩

/-- The loop of `dfs_romfs_getdents`, for so many more records.  It has no result when an entry
outside of the directory is read, or a name has no room in `d_name`. -/
def romfsLoop (entries : List RomfsDirent) : Nat → Int → List Dirent → Option (Int × List Dirent)
  | 0, pos, records => some (pos, records)
  | count + 1, pos, records =>
    if toUnsigned pos < entries.length then
      match entries[pos.toNat]? with
      | none => none
      | some dirent =>
        if dirent.name.chars.length < dfsPathMax then
          romfsLoop entries count (pos + 1) (records ++ [romfsRecord dirent])
        else none
    else some (pos, records)

def dfsRomfsGetdents (entries : List RomfsDirent) (pos : Int) (count : Nat) : Option Dents :=
  let count := count / sizeofDirent
  if count = 0 then some ⟨-22, pos, []⟩
  else
    (romfsLoop entries count pos []).map fun filled =>
      ⟨filled.2.length * sizeofDirent, filled.1, filled.2⟩

namespace Directory

variable {Id : Type} (dir : Directory Id)

def count : Nat := dir.files.count

def size : Nat := dir.files.size

def dfsFileGetdents (pos : Int) (nbytes : Nat) : Option Dents :=
  match dir.files with
  | .ramfs fs => some (dfsRamfsGetdents fs pos nbytes)
  | .romfs entries => dfsRomfsGetdents entries pos nbytes

/-- `dfs_file_lseek`: the position behind it, and its result.  In `dfs_ramfs_lseek` the numbers
are compared as signed ones, in `dfs_romfs_lseek` as unsigned ones. -/
def dfsFileLseek (pos offset : Int) : Int × Int :=
  let inside : Bool := match dir.files with
    | .ramfs _ => offset ≤ toSigned dir.size
    | .romfs _ => toUnsigned offset ≤ dir.size
  if inside then (offset, offset) else (pos, -5)

def opendir : Stream := ⟨0, fun _ => .zero, 0, 0⟩

def readdir (stream : Stream) : Option (Stream × Option Dirent) :=
  let cur :=
    if stream.num ≠ 0 then stream.cur + (stream.buf stream.cur).dReclen else stream.cur
  if stream.num = 0 ∨ stream.num ≤ cur then
    (dir.dfsFileGetdents stream.pos (dirBufSize - 1)).map fun dents =>
      if dents.result ≤ 0 then ({ stream with cur, pos := dents.pos }, none)
      else
        let buf := fun offset => (dents.records[offset / sizeofDirent]?).getD (stream.buf offset)
        (⟨dents.pos, buf, dents.result.toNat, 0⟩, some (buf 0))
  else some ({ stream with cur }, some (stream.buf cur))

def telldir (stream : Stream) : Int := stream.pos - stream.num + stream.cur

def seekdir (stream : Stream) (offset : Int) : Stream :=
  let sought := dir.dfsFileLseek stream.pos offset
  if 0 ≤ sought.2 then { stream with pos := sought.1, num := 0, cur := 0 }
  else { stream with pos := sought.1 }

def rewinddir (stream : Stream) : Stream := dir.seekdir stream 0

def readMany : Nat → Stream → Option (List (Option Dirent))
  | 0, _ => some []
  | count + 1, stream =>
    (dir.readdir stream).bind fun read => (readMany count read.1).map (read.2 :: ·)

def records : List Dirent :=
  match dir.files with
  | .ramfs fs => (fs.list.map fs.dirent).map ramfsRecord
  | .romfs entries => entries.map romfsRecord

/-- A stream that `opendir` and calls of `readdir` and `rewinddir` lead to. -/
inductive Reached : Stream → Prop where
  | opened : Reached opendir
  | rewound {stream : Stream} : Reached stream → Reached (dir.rewinddir stream)
  | read {stream after : Stream} {entry : Option Dirent} : Reached stream →
      dir.readdir stream = some (after, entry) → Reached after

/-- From `opendir` or `rewinddir` on, `readdir` returns every entry once and then NULL; and
`seekdir` to the position that `telldir` tells does not change what it returns next. -/
structure StreamCorrect : Prop where
  opened : ∀ count, dir.readMany count opendir =
    some ((dir.records.map some ++ List.replicate count none).take count)
  rewound : ∀ stream, dir.Reached stream → ∀ count, dir.readMany count (dir.rewinddir stream) =
    some ((dir.records.map some ++ List.replicate count none).take count)
  roundTrip : ∀ stream, dir.Reached stream →
    (dir.readdir (dir.seekdir stream (telldir stream))).map (·.2) = (dir.readdir stream).map (·.2)

/-- The directories whose streams are right: those of the memory file system with at most one
entry, and the read-only ones with fewer entries than a record has bytes. -/
def IsShort : Prop :=
  match dir.files with
  | .ramfs fs => fs.list.length ≤ 1
  | .romfs entries => entries.length < sizeofDirent ∧
      ∀ dirent ∈ entries, dirent.name.chars.length < dfsPathMax

end Directory

theorem toUnsigned_natCast {v : Nat} (small : v < 2 ^ 32) : toUnsigned (v : Int) = v := by
  unfold toUnsigned
  omega

theorem toUnsigned_neg {v : Int} (negative : v < 0) (small : -(2 ^ 31) ≤ v) :
    2 ^ 31 ≤ toUnsigned v := by
  unfold toUnsigned
  omega

theorem ramfsLoop_eq {target : Nat} (small : target + 1 < 2 ^ 32) (dirents : List RamfsDirent)
    (i : Nat) (before : i ≤ target) :
    ramfsLoop (target + 1) dirents i target [] = match dirents[target - i]? with
      | some dirent => ((target : Int) + 1, [ramfsRecord dirent])
      | none => ((target : Int), []) := by
  induction dirents generalizing i with
  | nil => rfl
  | cons dirent rest ih =>
    have unsigned : toUnsigned (target : Int) = target := toUnsigned_natCast (by omega)
    unfold ramfsLoop
    rw [if_pos (by omega), unsigned]
    rcases Nat.lt_or_ge i target with earlier | reached
    · rw [if_neg (by omega), ih (i + 1) (by omega)]
      have same : (dirent :: rest)[target - i]? = rest[target - (i + 1)]? := by
        rw [List.getElem?_cons, if_neg (by omega), Nat.sub_sub]
      rw [same]
    · obtain rfl : i = target := by omega
      rw [if_pos le_rfl, Nat.sub_self]
      cases rest with
      | nil => rfl
      | cons next more =>
        unfold ramfsLoop
        rw [if_neg (by omega)]
        rfl

theorem ramfsLoop_negative {pos : Int} (negative : pos < 0) (small : -(2 ^ 31) ≤ pos) (last : Nat)
    (dirents : List RamfsDirent) (i : Nat) (inMemory : i + dirents.length ≤ 2 ^ 31) :
    ramfsLoop last dirents i pos [] = (pos, []) := by
  have large := toUnsigned_neg negative small
  induction dirents generalizing i with
  | nil => rfl
  | cons dirent rest ih =>
    simp only [List.length_cons] at inMemory
    unfold ramfsLoop
    rw [if_neg (by omega : ¬ toUnsigned pos ≤ i), ih (i + 1) (by omega), ite_self]

variable {i : Nat} {stream : Stream}

namespace Directory

variable {Id : Type} {dir : Directory Id}

theorem count_le (dir : Directory Id) : dir.count ≤ 2 ^ 28 := by
  have inMemory := dir.inMemory
  simp only [sizeofEntry] at inMemory
  simp only [count]
  omega

theorem records_length (dir : Directory Id) : dir.records.length = dir.count := by
  unfold records count DirFiles.count
  split <;> simp

/-- The entry at this position has a name that `d_name` has room for. -/
def Fits (dir : Directory Id) (i : Nat) : Prop :=
  match dir.files with
  | .ramfs _ => True
  | .romfs entries =>
    ∀ dirent, entries[i]? = some dirent → dirent.name.chars.length < dfsPathMax

theorem dfsFileGetdents_eq (inside : i ≤ dir.count) (fits : dir.Fits i) :
    dir.dfsFileGetdents i (dirBufSize - 1) = match dir.records[i]? with
      | some record => some ⟨sizeofDirent, (i : Int) + 1, [record]⟩
      | none => some ⟨0, i, []⟩ := by
  have small := dir.count_le
  have one : (dirBufSize - 1) / sizeofDirent = 1 := by decide
  unfold dfsFileGetdents records
  unfold Fits at fits
  split
  · rename_i fs isRamfs
    simp only [dfsRamfsGetdents, one]
    have last : toUnsigned ((i : Int) + (1 : Nat)) = i + 1 := toUnsigned_natCast (by omega)
    rw [last, ramfsLoop_eq (by omega) _ 0 (Nat.zero_le _), Nat.sub_zero, List.getElem?_map,
      List.getElem?_map]
    cases isEntry : fs.list[i]? with
    | none | some id => simp [isEntry]
  · rename_i entries isRomfs
    simp only [isRomfs] at inside small fits
    simp only [dfsRomfsGetdents, one, Nat.one_ne_zero, if_false, romfsLoop]
    rw [toUnsigned_natCast (by omega), Int.toNat_natCast, List.getElem?_map]
    rcases Nat.lt_or_ge i entries.length with below | atEnd
    · rw [if_pos below, List.getElem?_eq_getElem below]
      have room := fits entries[i] (List.getElem?_eq_getElem below)
      simp [room]
    · rw [if_neg (by omega), List.getElem?_eq_none atEnd]
      simp

theorem lt_count_of_not_fits (long : ¬ dir.Fits i) : i < dir.count := by
  unfold Fits at long
  unfold count DirFiles.count
  split at long
  · exact absurd trivial long
  · rename_i entries isRomfs
    by_contra outside
    refine long fun dirent isEntry => ?_
    rw [List.getElem?_eq_none (Nat.le_of_not_lt outside)] at isEntry
    simp at isEntry

theorem dfsFileGetdents_long (long : ¬ dir.Fits i) :
    dir.dfsFileGetdents i (dirBufSize - 1) = none := by
  have below := lt_count_of_not_fits long
  have small := dir.count_le
  have one : (dirBufSize - 1) / sizeofDirent = 1 := by decide
  unfold Fits at long
  unfold dfsFileGetdents
  unfold count DirFiles.count at below small
  split at long
  · exact absurd trivial long
  · rename_i entries isRomfs
    simp only [isRomfs] at below small ⊢
    simp only [List.getElem?_eq_getElem below, Option.some.injEq, forall_eq'] at long
    simp only [dfsRomfsGetdents, one, romfsLoop]
    rw [toUnsigned_natCast (by omega), Int.toNat_natCast, if_pos below,
      List.getElem?_eq_getElem below]
    simp [long]

/-- The stream in front of the entry `i`: nothing is in the buffer, or the entry before it,
or that has been passed at the end of the directory. -/
inductive Shape (dir : Directory Id) : Nat → Stream → Prop where
  | fresh (buf : Nat → Dirent) : (buf sizeofDirent).dReclen = 0 → Shape dir 0 ⟨0, buf, 0, 0⟩
  | filled (i : Nat) (buf : Nat → Dirent) : i < dir.count → (buf 0).dReclen = sizeofDirent →
      (buf sizeofDirent).dReclen = 0 →
      Shape dir (i + 1) ⟨(i : Int) + 1, buf, sizeofDirent, 0⟩
  | ended (buf : Nat → Dirent) : 0 < dir.count → (buf sizeofDirent).dReclen = 0 →
      Shape dir dir.count ⟨dir.count, buf, sizeofDirent, sizeofDirent⟩

theorem Shape.index_le (shape : dir.Shape i stream) : i ≤ dir.count := by
  cases shape <;> omega

theorem Shape.buf_zero (shape : dir.Shape i stream) : (stream.buf sizeofDirent).dReclen = 0 := by
  cases shape <;> assumption

theorem records_dReclen {record : Dirent}
    (isRecord : dir.records[i]? = some record) : record.dReclen = sizeofDirent := by
  unfold records at isRecord
  split at isRecord
  · rw [List.getElem?_map] at isRecord
    obtain ⟨dirent, -, rfl⟩ := Option.map_eq_some_iff.mp isRecord
    rfl
  · rw [List.getElem?_map] at isRecord
    obtain ⟨dirent, -, rfl⟩ := Option.map_eq_some_iff.mp isRecord
    rfl

def filledBuf (record : Dirent) (buf : Nat → Dirent) : Nat → Dirent :=
  fun offset => ([record][offset / sizeofDirent]?).getD (buf offset)

theorem readdir_passed (cur : Nat) (pos : stream.pos = i)
    (passed : (if stream.num ≠ 0 then stream.cur + (stream.buf stream.cur).dReclen
      else stream.cur) = cur) (atEnd : stream.num = 0 ∨ stream.num ≤ cur) (inside : i ≤ dir.count)
    (fits : dir.Fits i) :
    dir.readdir stream = match dir.records[i]? with
      | some record => some (⟨(i : Int) + 1, filledBuf record stream.buf, sizeofDirent, 0⟩,
          some record)
      | none => some ({ stream with cur }, none) := by
  unfold readdir
  simp only [passed]
  rw [if_pos atEnd, pos, dfsFileGetdents_eq inside fits]
  cases dir.records[i]? with
  | none => simp
  | some record => rfl

theorem Shape.passed {i : Nat} {stream : Stream} (shape : dir.Shape i stream) :
    ∃ cur, stream.pos = i ∧
      (if stream.num ≠ 0 then stream.cur + (stream.buf stream.cur).dReclen else stream.cur) = cur ∧
      (stream.num = 0 ∨ stream.num ≤ cur) ∧
      (i = dir.count → dir.Shape dir.count { stream with cur }) := by
  cases shape with
  | fresh buf zero =>
    refine ⟨0, rfl, rfl, .inl rfl, fun isEnd => ?_⟩
    rw [← isEnd]
    exact .fresh buf zero
  | filled i buf below reclen zero =>
    have passed : 0 + (buf 0).dReclen = sizeofDirent := by rw [reclen, Nat.zero_add]
    refine ⟨sizeofDirent, by simp, passed, .inr le_rfl, fun isEnd => ?_⟩
    have pos : (i : Int) + 1 = dir.count := by exact_mod_cast isEnd
    simp only [pos]
    exact .ended buf (by omega) zero
  | ended buf positive zero =>
    have passed : sizeofDirent + (buf sizeofDirent).dReclen = sizeofDirent := by
      rw [zero, Nat.add_zero]
    exact ⟨sizeofDirent, rfl, passed, .inr le_rfl, fun _ => .ended buf positive zero⟩

theorem Shape.readdir_below (shape : dir.Shape i stream)
    (fits : dir.Fits i) (below : i < dir.count) : ∃ buf record, dir.records[i]? = some record ∧
      dir.readdir stream = some (⟨(i : Int) + 1, buf, sizeofDirent, 0⟩, some record) ∧
      dir.Shape (i + 1) ⟨(i : Int) + 1, buf, sizeofDirent, 0⟩ ∧ (buf 0).dReclen = sizeofDirent := by
  obtain ⟨cur, pos, passed, atEnd, -⟩ := shape.passed
  obtain ⟨record, isRecord⟩ : ∃ record, dir.records[i]? = some record :=
    ⟨_, List.getElem?_eq_getElem (by rw [records_length]; exact below)⟩
  have isRead := readdir_passed cur pos passed atEnd shape.index_le fits
  rw [isRecord] at isRead
  have reclen := records_dReclen isRecord
  exact ⟨_, record, isRecord, isRead, .filled i _ below reclen shape.buf_zero, reclen⟩

theorem Shape.readdir_eq (shape : dir.Shape i stream) (fits : dir.Fits i) :
    ∃ s', dir.readdir stream = some (s', dir.records[i]?) ∧
      dir.Shape (min (i + 1) dir.count) s' := by
  have inside := shape.index_le
  rcases Nat.lt_or_ge i dir.count with below | atCount
  · obtain ⟨buf, record, isRecord, isRead, filled, -⟩ := shape.readdir_below fits below
    rw [isRecord, Nat.min_eq_left below]
    exact ⟨_, isRead, filled⟩
  · obtain ⟨cur, pos, passed, atEnd, ended⟩ := shape.passed
    have isRead := readdir_passed cur pos passed atEnd inside fits
    rw [List.getElem?_eq_none (by rw [records_length]; exact atCount)] at isRead ⊢
    rw [Nat.min_eq_right (by omega)]
    exact ⟨_, isRead, ended (by omega)⟩

end Directory

end RtThread.Dfs
