import RtThread.Dfs.DirStream

/-!
# Which directory streams are right

The streams of a directory return every entry once.
-/

namespace RtThread.Dfs.Directory

variable {Id : Type} {dir : Directory Id}

theorem size_nonneg (dir : Directory Id) :
    0 ≤ toSigned dir.size ∧ toSigned dir.size = dir.size := by
  have small := dir.size_lt
  change dir.size < 2 ^ 31 at small
  have below : 2 * (BitVec.ofNat 32 dir.size).toNat < 2 ^ 32 := by
    rw [BitVec.toNat_ofNat]
    omega
  unfold toSigned
  rw [BitVec.toInt_eq_toNat_of_lt below, BitVec.toNat_ofNat]
  omega

theorem rewinddir_eq (stream : Stream) : dir.rewinddir stream = ⟨0, stream.buf, 0, 0⟩ := by
  unfold rewinddir seekdir dfsFileLseek
  have nonneg := dir.size_nonneg
  cases files : dir.files with
  | ramfs fs => simp [nonneg.1]
  | romfs entries => simp [toUnsigned]

variable {i : Nat} {stream : Stream}

theorem rewinddir_shape (shape : dir.Shape i stream) : dir.Shape 0 (dir.rewinddir stream) := by
  rw [rewinddir_eq]
  exact .fresh _ shape.buf_zero

theorem opendir_shape (dir : Directory Id) : dir.Shape 0 opendir := .fresh _ rfl

theorem Reached.shape (fits : ∀ i, dir.Fits i)
    (reached : dir.Reached stream) : ∃ i, dir.Shape i stream := by
  induction reached with
  | opened => exact ⟨0, opendir_shape dir⟩
  | rewound _ ih =>
    obtain ⟨i, shape⟩ := ih
    exact ⟨0, rewinddir_shape shape⟩
  | read _ isRead ih =>
    obtain ⟨i, shape⟩ := ih
    obtain ⟨s', isAfter, afterShape⟩ := shape.readdir_eq (fits i)
    rw [isAfter] at isRead
    obtain ⟨rfl, -⟩ : s' = _ ∧ _ := by simpa using isRead
    exact ⟨_, afterShape⟩

theorem readMany_eq (fits : ∀ i, dir.Fits i) (n : Nat) (shape : dir.Shape i stream) :
    dir.readMany n stream = some ((List.range n).map fun k => dir.records[i + k]?) := by
  induction n generalizing i stream with
  | zero => rfl
  | succ n ih =>
    obtain ⟨s', isRead, afterShape⟩ := shape.readdir_eq (fits i)
    rw [readMany, isRead, Option.bind_some, ih afterShape, Option.map_some,
      List.range_succ_eq_map, List.map_cons, List.map_map]
    congr 3
    funext k
    rcases Nat.lt_or_ge i dir.count with below | atEnd
    · rw [Nat.min_eq_left below, Function.comp_apply, Nat.succ_eq_add_one]
      congr 1
      omega
    · have length := records_length dir
      rw [List.getElem?_eq_none (by omega), Function.comp_apply, List.getElem?_eq_none (by omega)]

theorem range_map_getElem? (records : List Dirent) (n : Nat) :
    ((List.range n).map fun k => records[0 + k]?) =
      (records.map some ++ List.replicate n none).take n := by
  refine List.ext_getElem (by simp) fun k below _ => ?_
  rw [List.getElem_map, List.getElem_range, List.getElem_take, Nat.zero_add]
  rcases Nat.lt_or_ge k records.length with inside | outside
  · rw [List.getElem_append_left (by simpa using inside), List.getElem_map,
      List.getElem?_eq_getElem inside]
  · rw [List.getElem_append_right (by simpa using outside), List.getElem_replicate,
      List.getElem?_eq_none outside]

theorem readdir_empty (inside : i ≤ dir.count) (fits : dir.Fits i) (buf : Nat → Dirent) :
    (dir.readdir ⟨i, buf, 0, 0⟩).map (·.2) = some dir.records[i]? := by
  rw [readdir_passed 0 rfl rfl (.inl rfl) inside fits]
  cases dir.records[i]? <;> rfl

theorem Shape.readdir_map (shape : dir.Shape i stream)
    (fits : dir.Fits i) : (dir.readdir stream).map (·.2) = some dir.records[i]? := by
  obtain ⟨s', isRead, -⟩ := shape.readdir_eq fits
  rw [isRead]
  rfl

theorem seekdir_inside {offset : Nat} (stream : Stream) (inside : offset ≤ dir.size) :
    dir.seekdir stream offset = ⟨offset, stream.buf, 0, 0⟩ := by
  have small := dir.size_lt
  change dir.size < 2 ^ 31 at small
  have signed := dir.size_nonneg
  unfold seekdir dfsFileLseek
  cases files : dir.files with
  | ramfs fs =>
    have within : (offset : Int) ≤ toSigned dir.size := by omega
    simp [within]
  | romfs entries =>
    have unsigned : toUnsigned (offset : Int) = offset := toUnsigned_natCast (by omega)
    simp [unsigned, inside]

theorem seekdir_outside {offset : Nat} (stream : Stream) (outside : dir.size < offset)
    (small : offset < 2 ^ 32) : dir.seekdir stream offset = stream := by
  have signed := dir.size_nonneg
  unfold seekdir dfsFileLseek
  cases files : dir.files with
  | ramfs fs =>
    have beyond : ¬ (offset : Int) ≤ toSigned dir.size := by omega
    simp [beyond]
  | romfs entries =>
    have unsigned : toUnsigned (offset : Int) = offset := toUnsigned_natCast (by omega)
    simp [unsigned, Nat.not_le.mpr outside]

theorem seekdir_negative_romfs {entries : List RomfsDirent} (isRomfs : dir.files = .romfs entries)
    (stream : Stream) {offset : Int} (negative : offset < 0) (small : -(2 ^ 31) ≤ offset) :
    dir.seekdir stream offset = stream := by
  have size_lt := dir.size_lt
  change dir.size < 2 ^ 31 at size_lt
  have large := toUnsigned_neg negative small
  have beyond : ¬ toUnsigned offset ≤ dir.size := by omega
  simp [seekdir, dfsFileLseek, isRomfs, beyond]

theorem seekdir_negative_ramfs {fs : Ramfs Id} (isRamfs : dir.files = .ramfs fs) (stream : Stream)
    {offset : Int} (negative : offset < 0) :
    dir.seekdir stream offset = { stream with pos := offset } := by
  have signed := dir.size_nonneg
  have inside : offset ≤ toSigned dir.size := by omega
  simp [seekdir, dfsFileLseek, isRamfs, inside, Int.not_le.mpr negative]

theorem readdir_negative {fs : Ramfs Id} (isRamfs : dir.files = .ramfs fs) {pos : Int}
    (negative : pos < 0) (small : -(2 ^ 31) ≤ pos) {buf : Nat → Dirent}
    (reclen : (buf 0).dReclen = sizeofDirent) :
    (dir.readdir ⟨pos, buf, sizeofDirent, 0⟩).map (·.2) = some none := by
  have count_le := dir.count_le
  simp only [count, isRamfs, DirFiles.count] at count_le
  have passed : 0 + (buf 0).dReclen = sizeofDirent := by rw [reclen, Nat.zero_add]
  have one : (dirBufSize - 1) / sizeofDirent = 1 := by decide
  have nonzero : sizeofDirent ≠ 0 := by decide
  unfold readdir dfsFileGetdents
  simp only [isRamfs, dfsRamfsGetdents, one, nonzero, ne_eq, passed]
  rw [ramfsLoop_negative negative small _ _ 0 (by simp; omega)]
  simp

theorem isShort_fits (isShort : dir.IsShort) (i : Nat) : dir.Fits i := by
  unfold IsShort at isShort
  unfold Fits
  split
  · trivial
  · rename_i entries isRomfs
    rw [isRomfs] at isShort
    exact fun dirent isEntry => isShort.2 dirent (List.mem_of_getElem? isEntry)

theorem roundTrip_of_isShort (isShort : dir.IsShort) (shape : dir.Shape i stream) :
    (dir.readdir (dir.seekdir stream (telldir stream))).map (·.2) =
      (dir.readdir stream).map (·.2) := by
  have fits := isShort_fits isShort
  have length := records_length dir
  rw [shape.readdir_map (fits i)]
  cases shape with
  | fresh buf zero =>
    have told : telldir ⟨0, buf, 0, 0⟩ = ((0 : Nat) : Int) := rfl
    rw [told, seekdir_inside _ (Nat.zero_le _)]
    exact readdir_empty (Nat.zero_le _) (fits 0) buf
  | ended buf pos zero =>
    have told : telldir ⟨dir.count, buf, sizeofDirent, sizeofDirent⟩ = (dir.count : Int) := by
      simp [telldir]
    rw [told]
    rcases Nat.lt_or_ge dir.size dir.count with outside | inside
    · have small := dir.count_le
      rw [seekdir_outside _ outside (by omega)]
      exact (Shape.ended buf pos zero).readdir_map (fits _)
    · rw [seekdir_inside _ inside]
      exact readdir_empty le_rfl (fits _) buf
  | filled i buf below reclen zero =>
    have told : telldir ⟨(i : Int) + 1, buf, sizeofDirent, 0⟩ =
        (i : Int) + 1 - sizeofDirent := by simp [telldir]
    have sizeEq : (sizeofDirent : Int) = 260 := rfl
    unfold IsShort at isShort
    cases files : dir.files with
    | romfs entries =>
      rw [files] at isShort
      have few : dir.count < 260 := by
        simp only [count, files]
        exact isShort.1
      rw [seekdir_negative_romfs files _ (by omega) (by omega)]
      exact (Shape.filled i buf below reclen zero).readdir_map (fits _)
    | ramfs fs =>
      have single : dir.count ≤ 1 := by simpa only [count, files, DirFiles.count] using isShort
      rw [seekdir_negative_ramfs files _ (by omega), List.getElem?_eq_none (by omega)]
      exact readdir_negative files (by omega) (by omega) reclen

theorem reached_filled (i : Nat) (below : i < dir.count) (fits : ∀ u ≤ i, dir.Fits u) :
    ∃ buf, dir.Reached ⟨(i : Int) + 1, buf, sizeofDirent, 0⟩ ∧
      dir.Shape (i + 1) ⟨(i : Int) + 1, buf, sizeofDirent, 0⟩ ∧ (buf 0).dReclen = sizeofDirent := by
  obtain ⟨stream, reached, shape⟩ : ∃ stream, dir.Reached stream ∧ dir.Shape i stream := by
    induction i with
    | zero => exact ⟨_, .opened, opendir_shape dir⟩
    | succ i ih =>
      obtain ⟨stream, reached, shape⟩ := ih (by omega) fun u before => fits u (by omega)
      obtain ⟨buf, record, -, isRead, filled, -⟩ :=
        shape.readdir_below (fits i (by omega)) (by omega)
      exact ⟨_, reached.read isRead, filled⟩
  obtain ⟨buf, record, -, isRead, filled, reclen⟩ := shape.readdir_below (fits i le_rfl) below
  exact ⟨buf, reached.read isRead, filled, reclen⟩

theorem readMany_long (long : ¬ dir.Fits i) (before : ∀ u < i, dir.Fits u) (n : Nat) {start : Nat}
    (shape : dir.Shape start stream) (reaches : start + n = i) :
    dir.readMany (n + 1) stream = none := by
  have inside := lt_count_of_not_fits long
  induction n generalizing start stream with
  | zero =>
    obtain rfl : start = i := reaches
    obtain ⟨cur, pos, passed, atEnd, -⟩ := shape.passed
    have failed : dir.readdir stream = none := by
      unfold readdir
      simp only [passed]
      rw [if_pos atEnd, pos, dfsFileGetdents_long long]
      rfl
    rw [readMany, failed]
    rfl
  | succ n ih =>
    obtain ⟨buf, record, -, isRead, filled, -⟩ :=
      shape.readdir_below (before start (by omega)) (by omega)
    rw [readMany, isRead, Option.bind_some, ih filled (by omega)]
    rfl

theorem StreamCorrect.fits (correct : dir.StreamCorrect) (i : Nat) : dir.Fits i := by
  induction i using Nat.strongRecOn with
  | ind i before =>
    by_contra long
    have none := readMany_long long before i (opendir_shape dir) (Nat.zero_add _)
    rw [correct.opened] at none
    simp at none

theorem StreamCorrect.isShort (correct : dir.StreamCorrect) : dir.IsShort := by
  have fits := correct.fits
  have length := records_length dir
  unfold IsShort
  cases files : dir.files with
  | ramfs fs =>
    by_contra long
    have many : 1 < dir.count := by
      simp only [count, files]
      exact Nat.lt_of_not_le long
    obtain ⟨buf, reached, shape, reclen⟩ := reached_filled 0 (by omega) fun u _ => fits u
    have trip := correct.roundTrip _ reached
    have told : telldir ⟨((0 : Nat) : Int) + 1, buf, sizeofDirent, 0⟩ = -259 := rfl
    rw [told, seekdir_negative_ramfs files _ (by omega), readdir_negative files (by omega)
      (by omega) reclen, shape.readdir_map (fits _), List.getElem?_eq_getElem (by omega)] at trip
    simp at trip
  | romfs entries =>
    refine ⟨?_, fun dirent inDir => ?_⟩
    · by_contra long
      have many : 260 ≤ dir.count := by
        simp only [count, files]
        exact Nat.le_of_not_lt long
      have sizeEq : dir.size = dir.count := by
        simp only [size, count, files, DirFiles.count, DirFiles.size]
      obtain ⟨buf, reached, shape, -⟩ := reached_filled (dir.count - 1) (by omega) fun u _ => fits u
      have trip := correct.roundTrip _ reached
      have told : telldir ⟨((dir.count - 1 : Nat) : Int) + 1, buf, sizeofDirent, 0⟩ =
          ((dir.count - 260 : Nat) : Int) := by
        have sizeEq : (sizeofDirent : Int) = 260 := rfl
        simp only [telldir]
        omega
      rw [told, seekdir_inside _ (by omega), readdir_empty (by omega) (fits _),
        shape.readdir_map (fits _), List.getElem?_eq_getElem (by omega),
        List.getElem?_eq_none (by omega)] at trip
      simp at trip
    · obtain ⟨i, isEntry⟩ := List.mem_iff_getElem?.mp inDir
      have room := fits i
      unfold Fits at room
      rw [files] at room
      exact room dirent isEntry

/-- The streams of a directory are right exactly if it is short. -/
theorem streamCorrect_iff (dir : Directory Id) : dir.StreamCorrect ↔ dir.IsShort := by
  refine ⟨StreamCorrect.isShort, fun isShort => ?_⟩
  have fits := isShort_fits isShort
  refine ⟨fun count => ?_, fun stream reached count => ?_, fun stream reached => ?_⟩
  · rw [readMany_eq fits count (opendir_shape dir), range_map_getElem?]
  · obtain ⟨i, shape⟩ := reached.shape fits
    rw [readMany_eq fits count (rewinddir_shape shape), range_map_getElem?]
  · obtain ⟨i, shape⟩ := reached.shape fits
    exact roundTrip_of_isShort isShort shape

def twoFiles : Directory Bool where
  files := .ramfs ⟨⟨[], none, 0⟩, [false, true], fun id => ⟨if id then ['b'] else ['a'], none, 0⟩⟩
  inMemory := by decide
  size_lt := by decide

/-- Behind the first file, going back to the position that was told skips the second one. -/
theorem seekdir_skips_entry : ¬ twoFiles.StreamCorrect := by
  intro correct
  have isRead : ∃ s', twoFiles.readdir opendir = some s' := ⟨_, rfl⟩
  obtain ⟨s', isRead⟩ := isRead
  have trip := correct.roundTrip _ (.read .opened isRead)
  obtain rfl : _ = s' := Option.some.inj isRead
  revert trip
  decide

end RtThread.Dfs.Directory
