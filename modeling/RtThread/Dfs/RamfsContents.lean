import RtThread.Dfs.Ramfs
import RtThread.Library.TransitionSystem

/-!
# The contents of the files in memory

Any number of descriptors, several of them on one file, read and write it.  The file is the
growable array of its bytes as long as the size that a descriptor remembers does not matter.
-/

namespace RtThread.Dfs

open GrowableArray TransitionSystem
open Option (map_some mem_def map_eq_some_iff)

variable {Id Fd : Type} [DecidableEq Id] [DecidableEq Fd]

inductive FileResult where
  | opened (error : Option RamfsError)
  | bytes (buf : List UInt8)
  | written (count : Nat)
  | position (result : Except RamfsError Nat)
  | closed

/-- The file system, its open descriptors, whether memory outside of a block has been used,
and the result of the last call. -/
structure Files (Id Fd : Type) where
  ramfs : Ramfs Id
  fd : Fd → Option (RamfsFd Id)
  fault : Bool
  result : FileResult

inductive FileCall (Id Fd : Type) where
  | openFile (fd : Fd) (path : CString) (flags : OpenFlags) (alloc : Option Id)
  | read (fd : Fd) (count : Nat)
  | write (fd : Fd) (buf : List UInt8) (realloc : Option (Nat → UInt8))
  | lseek (fd : Fd) (offset : Nat)
  | close (fd : Fd)

def RamfsDirent.contents (dirent : RamfsDirent) : List UInt8 :=
  (dirent.data.getD []).take dirent.size

namespace Files

def setFd (files : Files Id Fd) (fd : Fd) (file : Option (RamfsFd Id)) (result : FileResult) :
    Files Id Fd :=
  { files with fd := Function.update files.fd fd file, result }

omit [DecidableEq Id] in
@[simp]
theorem fd_setFd (files : Files Id Fd) (fd : Fd) (file : Option (RamfsFd Id)) (r : FileResult) :
    (files.setFd fd file r).fd = Function.update files.fd fd file := rfl

/-- One call.  `open` uses a descriptor that is not open, and memory that no entry has; the
other calls need an open descriptor. -/
def step (behind : RamfsDirent → List Char) (files : Files Id Fd) :
    FileCall Id Fd → Option (Files Id Fd)
  | .openFile fd path flags alloc =>
    if files.fd fd = none ∧ ∀ id ∈ alloc, id ∉ files.ramfs.list then
      match files.ramfs.dfsRamfsOpen behind path flags alloc with
      | (ramfs, .error error) => some { files with ramfs, result := .opened (some error) }
      | (ramfs, .ok file) =>
        some ({ files with ramfs }.setFd fd (some file) (.opened none))
    else none
  | .read fd count =>
    (files.fd fd).map fun file =>
      match files.ramfs.dfsRamfsRead file count with
      | none => { files with fault := true }
      | some (buf, file) => files.setFd fd (some file) (.bytes buf)
  | .write fd buf realloc =>
    (files.fd fd).map fun file =>
      match files.ramfs.dfsRamfsWrite file buf realloc with
      | none => { files with fault := true }
      | some (ramfs, file, count) =>
        { files with ramfs }.setFd fd (some file) (.written count)
  | .lseek fd offset =>
    (files.fd fd).map fun file =>
      let moved := Ramfs.dfsRamfsLseek file offset
      files.setFd fd (some moved.1) (.position moved.2)
  | .close fd => (files.fd fd).map fun _ => files.setFd fd none .closed

def Initial (files : Files Id Fd) : Prop :=
  files.ramfs.list = [] ∧ files.ramfs.root.data = none ∧ files.ramfs.root.size = 0 ∧
    (∀ fd, files.fd fd = none) ∧ files.fault = false

def system (behind : RamfsDirent → List Char) (Id Fd : Type) [DecidableEq Id] [DecidableEq Fd] :
    TransitionSystem (Files Id Fd) (FileCall Id Fd) :=
  ofFunction Initial (step behind)

def SameContents (before after : Files Id Fd) (except : Option (RamfsEntry Id)) : Prop :=
  ∀ entry, before.ramfs.Holds entry → some entry ≠ except →
    (after.ramfs.get entry).contents = (before.ramfs.get entry).contents

/-- What a call has to do to the bytes of the files, and to hand out of them. -/
def Correct (step : Taken (Files Id Fd) (FileCall Id Fd)) : Prop :=
  step.after.fault = false ∧
  match step.event with
  | .openFile fd _ flags _ =>
    match step.after.fd fd with
    | none => SameContents step.before step.after none
    | some file =>
      SameContents step.before step.after (some file.data) ∧
      (step.after.ramfs.get file.data).contents =
        (if step.before.ramfs.Holds file.data ∧ (flags.trunc = false ∨ flags.directory = true)
          then (step.before.ramfs.get file.data).contents else []) ∧
      file.pos = if flags.append then (step.after.ramfs.get file.data).contents.length else 0
  | .read fd count =>
    SameContents step.before step.after none ∧
    ∀ file ∈ step.before.fd fd,
      let buf := GrowableArray.read (step.before.ramfs.get file.data).contents file.pos count
      step.after.result = .bytes buf ∧
      ∃ moved ∈ step.after.fd fd, moved.data = file.data ∧ moved.pos = file.pos + buf.length
  | .write fd buf realloc =>
    ∀ file ∈ step.before.fd fd, (0 < buf.length ∧ realloc = none ∧ step.after.result = .written 0 ∧
        SameContents step.before step.after none) ∨
      (step.after.result = .written buf.length ∧
        SameContents step.before step.after (some file.data) ∧
        GrowableArray.Written (step.before.ramfs.get file.data).contents file.pos buf
          (step.after.ramfs.get file.data).contents ∧
        ∃ moved ∈ step.after.fd fd, moved.data = file.data ∧ moved.pos = file.pos + buf.length)
  | .lseek _ _ | .close _ => SameContents step.before step.after none

/-- The size that the descriptor remembers makes no difference to the access. -/
def Current (files : Files Id Fd) : FileCall Id Fd → Prop
  | .read fd count =>
    ∀ file ∈ files.fd fd, min count (file.size - file.pos) =
      min count ((files.ramfs.get file.data).size - file.pos)
  | .write fd buf realloc =>
    ∀ file ∈ files.fd fd, if file.size < buf.length + file.pos then
        realloc.isSome → (files.ramfs.get file.data).size ≤ file.pos + buf.length
      else file.pos + buf.length ≤ (files.ramfs.get file.data).size
  | _ => True

instance (files : Files Id Fd) (call : FileCall Id Fd) : Decidable (files.Current call) := by
  cases call <;> unfold Current <;> infer_instance

/-- The size of an entry is that of its block, and the descriptors are those of entries. -/
structure Sound (files : Files Id Fd) : Prop where
  size : ∀ entry, files.ramfs.Holds entry →
    ((files.ramfs.get entry).data.getD []).length = (files.ramfs.get entry).size
  held : ∀ fd file, files.fd fd = some file → files.ramfs.Holds file.data
  fault : files.fault = false

end Files

section Copies

variable {data : Option (List UInt8)} {pos length : Nat} {buf : List UInt8}

theorem copyOut_eq : copyOut data pos length =
    if length = 0 ∨ pos + length ≤ (data.getD []).length then
      some (GrowableArray.read (data.getD []) pos length) else none := by
  unfold copyOut
  by_cases nothing : length = 0
  · simp [nothing, GrowableArray.read]
  · cases data with
    | none | some b => simp [nothing]

theorem copyIn_eq : copyIn data pos buf = if buf = [] then some data
    else if pos + buf.length ≤ (data.getD []).length then
      some (some (overwrite (data.getD []) pos buf)) else none := by
  unfold copyIn
  by_cases nothing : buf = []
  · simp [nothing]
  · cases data with
    | none | some b => simp [nothing]

theorem copyIn_within (within : pos + buf.length ≤ (data.getD []).length) :
    ∃ after, copyIn data pos buf = some after ∧
      after.getD [] = overwrite (data.getD []) pos buf := by
  rw [copyIn_eq]
  split_ifs with nothing
  · exact ⟨data, rfl, by simp [nothing, overwrite]⟩
  · exact ⟨_, rfl, rfl⟩

end Copies

variable {flags : OpenFlags} {path : CString} {alloc : Option Id} {e : RamfsEntry Id}

namespace Files

variable {behind : RamfsDirent → List Char} {files after : Files Id Fd} {fd : Fd}
  {file : RamfsFd Id}

omit [DecidableEq Id] [DecidableEq Fd] in
theorem Sound.contents_eq (inv : files.Sound) {entry : RamfsEntry Id}
    (held : files.ramfs.Holds entry) :
    (files.ramfs.get entry).contents = (files.ramfs.get entry).data.getD [] := by
  rw [RamfsDirent.contents, ← inv.size entry held, List.take_length]

omit [DecidableEq Id] [DecidableEq Fd] in
theorem Sound.length_contents (inv : files.Sound) {entry : RamfsEntry Id}
    (held : files.ramfs.Holds entry) :
    (files.ramfs.get entry).contents.length = (files.ramfs.get entry).size := by
  rw [inv.contents_eq held, inv.size entry held]

omit [DecidableEq Id] in
theorem Sound.setFd (inv : files.Sound) {r : FileResult} {moved : Option (RamfsFd Id)}
    (held : ∀ file ∈ moved, files.ramfs.Holds file.data) : (files.setFd fd moved r).Sound := by
  refine ⟨inv.size, fun u file isFile => ?_, inv.fault⟩
  by_cases isFd : u = fd
  · rw [fd_setFd, isFd, Function.update_self] at isFile
    exact held file isFile
  · rw [fd_setFd, Function.update_of_ne isFd] at isFile
    exact inv.held u file isFile

section Read

omit [DecidableEq Id] [DecidableEq Fd] in
theorem Sound.read_of_current (inv : files.Sound) (isOpen : files.fd fd = some file) {n : Nat}
    (same : min n (file.size - file.pos) = min n ((files.ramfs.get file.data).size - file.pos)) :
    ∃ moved, files.ramfs.dfsRamfsRead file n =
        some (GrowableArray.read (files.ramfs.get file.data).contents file.pos n, moved) ∧
      moved.data = file.data ∧ moved.pos = file.pos +
        (GrowableArray.read (files.ramfs.get file.data).contents file.pos n).length := by
  have held := inv.held fd file isOpen
  have size := inv.size _ held
  have inBlock : min n (file.size - file.pos) = 0 ∨
      file.pos + min n (file.size - file.pos) ≤
        ((files.ramfs.get file.data).data.getD []).length := by omega
  have sameBytes : GrowableArray.read ((files.ramfs.get file.data).data.getD []) file.pos
      (min n (file.size - file.pos)) =
        GrowableArray.read (files.ramfs.get file.data).contents file.pos n := by
    rw [inv.contents_eq held, same, ← size]
    simp only [GrowableArray.read]
    rw [← List.length_drop, ← List.take_eq_take_min]
  refine ⟨{ file with
    pos := file.pos + min n (file.size - file.pos)
    pos_le := by have := file.pos_le; omega }, ?_, rfl, ?_⟩
  · simp only [Ramfs.dfsRamfsRead, copyOut_eq, inBlock, if_true, map_some, sameBytes]
  · rw [length_read, inv.length_contents held, ← same]

omit [DecidableEq Id] [DecidableEq Fd] in
theorem Sound.current_of_read (inv : files.Sound) (isOpen : files.fd fd = some file)
    {n : Nat} {moved : RamfsFd Id} (read : files.ramfs.dfsRamfsRead file n =
      some (GrowableArray.read (files.ramfs.get file.data).contents file.pos n, moved)) :
    min n (file.size - file.pos) = min n ((files.ramfs.get file.data).size - file.pos) := by
  have held := inv.held fd file isOpen
  simp only [Ramfs.dfsRamfsRead, copyOut_eq] at read
  split_ifs at read with inBlock
  · simp only [map_some, Option.some.injEq, Prod.mk.injEq] at read
    have lengths := congrArg List.length read.1
    rw [length_read, length_read, inv.length_contents held] at lengths
    omega
  · simp at read

theorem Sound.step_read (inv : files.Sound) {n : Nat}
    (ran : files.step behind (.read fd n) = some after) :
    (Correct ⟨files, .read fd n, after⟩ ↔ files.Current (.read fd n)) ∧
      (files.Current (.read fd n) → after.Sound) := by
  obtain ⟨file, isOpen, isAfter⟩ := map_eq_some_iff.mp ran
  simp only [Correct, Current, isOpen, mem_def, Option.some.injEq, forall_eq']
  constructor
  · constructor
    · rintro ⟨noFault, -, isResult, -⟩
      cases read : files.ramfs.dfsRamfsRead file n with
      | none =>
        simp only [read] at isAfter
        simp [← isAfter] at noFault
      | some got =>
        obtain ⟨buf, moved⟩ := got
        simp only [read] at isAfter
        simp only [← isAfter, Files.setFd, FileResult.bytes.injEq] at isResult
        rw [isResult] at read
        exact inv.current_of_read isOpen read
    · intro same
      obtain ⟨moved, read, data, pos⟩ := inv.read_of_current isOpen same
      simp only [read] at isAfter
      subst isAfter
      exact ⟨inv.fault, fun _ _ _ => rfl, rfl, moved, by simp, data, pos⟩
  · intro same
    obtain ⟨moved, read, data, -⟩ := inv.read_of_current isOpen same
    simp only [read] at isAfter
    subst isAfter
    refine inv.setFd fun u isOther => ?_
    cases isOther
    exact data ▸ inv.held fd file isOpen

end Read

section Write

omit [DecidableEq Fd] in
theorem Sound.set (inv : files.Sound) {dirent : RamfsDirent}
    (sized : (dirent.data.getD []).length = dirent.size) :
    Sound { files with ramfs := files.ramfs.set e dirent } := by
  refine ⟨fun u held => ?_, fun fd file isFile => ?_, inv.fault⟩
  · by_cases isEntry : u = e
    · simpa [isEntry] using sized
    · rw [Ramfs.get_set_of_ne isEntry]
      exact inv.size u (Ramfs.holds_set.mp held)
  · exact Ramfs.holds_set.mpr (inv.held fd file isFile)

omit [DecidableEq Fd] in
theorem sameContents_set {dirent : RamfsDirent}
    (isRamfs : after.ramfs = files.ramfs.set e dirent) : SameContents files after (some e) := by
  intro u _ isOther
  rw [isRamfs, Ramfs.get_set_of_ne fun same => isOther (by rw [same])]

theorem Sound.write_stored (inv : files.Sound) (isOpen : files.fd fd = some file)
    {buf : List UInt8} {dirent : RamfsDirent} {moved : RamfsFd Id} {e : RamfsEntry Id}
    (data : moved.data = file.data) (sized : (dirent.data.getD []).length = dirent.size) :
    Sound ({ files with ramfs := files.ramfs.set e dirent }.setFd fd (some moved)
      (.written buf.length)) := by
  refine (inv.set sized).setFd fun u isOther => ?_
  cases isOther
  rw [data]
  exact Ramfs.holds_set.mpr (inv.held fd file isOpen)

omit [DecidableEq Fd] in
theorem copyIn_resized (b buf : List UInt8) (pos : Nat) (fresh : Nat → UInt8) :
    ∃ data, copyIn (some (resized b (pos + buf.length) fresh)) pos buf = some data ∧
      data.getD [] = overwrite (resized b (pos + buf.length) fresh) pos buf ∧
      (data.getD []).length = pos + buf.length := by
  have within : pos + buf.length ≤
      ((some (resized b (pos + buf.length) fresh)).getD []).length := by simp
  obtain ⟨data, copied, isData⟩ := copyIn_within within
  exact ⟨data, copied, isData, by rw [isData, length_overwrite within]; simp⟩

section

variable (inv : files.Sound)

include inv

section

variable (isOpen : files.fd fd = some file)

include isOpen

theorem Sound.step_write_grown {buf : List UInt8} {fresh : Nat → UInt8}
    (grows : file.size < buf.length + file.pos)
    (ran : files.step behind (.write fd buf (some fresh)) = some after) :
    (Correct ⟨files, .write fd buf (some fresh), after⟩ ↔
        (files.ramfs.get file.data).size ≤ file.pos + buf.length) ∧ after.Sound := by
  have held := inv.held fd file isOpen
  obtain ⟨data, copied, isData, length⟩ := copyIn_resized
    ((files.ramfs.get file.data).data.getD []) buf file.pos fresh
  simp only [step, isOpen, map_some, Ramfs.dfsRamfsWrite, grows, dite_true, copied,
    Option.some.injEq] at ran
  have sound' := @Sound.write_stored _ _ _ _ files fd file inv isOpen buf
    { files.ramfs.get file.data with data, size := file.pos + buf.length }
    { file with
      size := file.pos + buf.length, pos := file.pos + buf.length, pos_le := Nat.le_refl _ }
    file.data rfl length
  rw [ran] at sound'
  have isRamfs : after.ramfs = files.ramfs.set file.data
      { files.ramfs.get file.data with data, size := file.pos + buf.length } := by
    rw [← ran]
    rfl
  have contents : (after.ramfs.get file.data).contents =
      overwrite (resized (files.ramfs.get file.data).contents (file.pos + buf.length) fresh)
        file.pos buf := by
    rw [sound'.contents_eq (by rw [isRamfs]; exact Ramfs.holds_set.mpr held), isRamfs,
      Ramfs.get_set_self, inv.contents_eq held]
    exact isData
  refine ⟨?_, sound'⟩
  simp only [Correct, isOpen, mem_def, Option.some.injEq, forall_eq', contents,
    reduceCtorEq, false_and, and_false, false_or]
  constructor
  · rintro ⟨-, -, -, ⟨-, grown, -, -⟩, -⟩
    rw [length_overwrite (by simp), length_resized, inv.length_contents held] at grown
    exact grown
  · intro enough
    refine ⟨sound'.fault, by rw [← ran]; rfl, sameContents_set isRamfs,
      written_resized (by rw [inv.length_contents held]; exact enough), ?_⟩
    rw [← ran]
    exact ⟨{ file with
      size := file.pos + buf.length, pos := file.pos + buf.length, pos_le := Nat.le_refl _ },
      by simp, rfl, rfl⟩

theorem Sound.step_write_refused {buf : List UInt8} (grows : file.size < buf.length + file.pos)
    (ran : files.step behind (.write fd buf none) = some after) :
    Correct ⟨files, .write fd buf none, after⟩ ∧ after.Sound := by
  simp only [step, isOpen, map_some, Ramfs.dfsRamfsWrite, grows,
    Option.some.injEq] at ran
  subst ran
  have pos_le := file.pos_le
  refine ⟨⟨inv.fault, fun u isOther => .inl ⟨by
    rw [isOpen] at isOther
    cases isOther
    omega, rfl, rfl, fun _ _ _ => rfl⟩⟩, inv.setFd fun u isOther => ?_⟩
  cases isOther
  exact inv.held fd file isOpen

theorem Sound.step_write_within {buf : List UInt8} {realloc : Option (Nat → UInt8)}
    (fits : ¬ file.size < buf.length + file.pos)
    (ran : files.step behind (.write fd buf realloc) = some after) :
    (Correct ⟨files, .write fd buf realloc, after⟩ ↔
        file.pos + buf.length ≤ (files.ramfs.get file.data).size) ∧
      (file.pos + buf.length ≤ (files.ramfs.get file.data).size → after.Sound) := by
  have held := inv.held fd file isOpen
  have size := inv.size _ held
  have toSound : ∀ data, copyIn (files.ramfs.get file.data).data file.pos buf = some data →
      (data.getD []).length = (files.ramfs.get file.data).size → after.Sound ∧
        after.ramfs = files.ramfs.set file.data { files.ramfs.get file.data with data } ∧
        after.result = .written buf.length ∧
        ∃ moved ∈ after.fd fd, moved.data = file.data ∧ moved.pos = file.pos + buf.length := by
    intro data copied length
    simp only [step, isOpen, map_some, Ramfs.dfsRamfsWrite, fits, copied,
      Option.some.injEq] at ran
    rw [← ran]
    refine ⟨@Sound.write_stored _ _ _ _ files fd file inv isOpen buf
      { files.ramfs.get file.data with data } _ file.data rfl length, rfl, rfl,
      { file with pos := file.pos + buf.length, pos_le := by omega }, by simp, rfl, rfl⟩
  have correct : file.pos + buf.length ≤ (files.ramfs.get file.data).size →
      Correct ⟨files, .write fd buf realloc, after⟩ ∧ after.Sound := by
    intro within
    have inBlock : file.pos + buf.length ≤
        ((files.ramfs.get file.data).data.getD []).length := by rw [size]; exact within
    obtain ⟨data, copied, isData⟩ := copyIn_within inBlock
    have length : (data.getD []).length = (files.ramfs.get file.data).size := by
      rw [isData, length_overwrite inBlock, size]
    obtain ⟨sound', isRamfs, isResult, isMoved⟩ := toSound data copied length
    refine ⟨⟨sound'.fault, fun u isOther => ?_⟩, sound'⟩
    rw [isOpen] at isOther
    cases isOther
    refine .inr ⟨isResult, sameContents_set isRamfs, ?_, isMoved⟩
    have contents : (after.ramfs.get file.data).contents =
        overwrite (files.ramfs.get file.data).contents file.pos buf := by
      rw [sound'.contents_eq (by rw [isRamfs]; exact Ramfs.holds_set.mpr held), isRamfs,
        Ramfs.get_set_self, inv.contents_eq held]
      exact isData
    simp only [contents]
    exact written_overwrite (by rw [inv.length_contents held]; exact within)
  refine ⟨⟨fun isCorrect => ?_, fun within => (correct within).1⟩, fun within => (correct within).2⟩
  by_contra beyond
  obtain ⟨noFault, spec⟩ := isCorrect
  by_cases nothing : buf = []
  · -- An empty write beyond the end of the file leaves the file as short as it was.
    have copied : copyIn (files.ramfs.get file.data).data file.pos buf =
        some (files.ramfs.get file.data).data := by simp [copyIn, nothing]
    obtain ⟨sound', isRamfs, -⟩ := toSound _ copied size
    rcases spec file isOpen with ⟨positive, -⟩ | ⟨-, -, ⟨covers, -, -, -⟩, -⟩
    · simp [nothing] at positive
    · have contents : (after.ramfs.get file.data).contents =
          (files.ramfs.get file.data).contents := by
        rw [isRamfs, Ramfs.get_set_self]
      simp only [contents] at covers
      rw [inv.length_contents held] at covers
      exact beyond covers
  · have copied : copyIn (files.ramfs.get file.data).data file.pos buf = none := by
      rw [copyIn_eq, if_neg nothing, if_neg (by omega)]
    simp only [step, isOpen, map_some, Ramfs.dfsRamfsWrite, fits, copied,
      Option.some.injEq] at ran
    simp [← ran] at noFault

end

theorem Sound.step_write {buf : List UInt8} {realloc : Option (Nat → UInt8)}
    (ran : files.step behind (.write fd buf realloc) = some after) :
    (Correct ⟨files, .write fd buf realloc, after⟩ ↔ files.Current (.write fd buf realloc)) ∧
      (files.Current (.write fd buf realloc) → after.Sound) := by
  obtain ⟨file, isOpen, -⟩ := map_eq_some_iff.mp ran
  simp only [Current, isOpen, mem_def, Option.some.injEq, forall_eq']
  by_cases grows : file.size < buf.length + file.pos
  · simp only [grows]
    cases realloc with
    | none =>
      obtain ⟨correct, inv⟩ := inv.step_write_refused isOpen grows ran
      simp [correct, inv]
    | some fresh =>
      obtain ⟨correct, inv⟩ := inv.step_write_grown isOpen grows ran
      simp [correct, inv]
  · simp only [grows]
    exact inv.step_write_within isOpen grows ran

end

end Write

section Open

section

variable (inv : files.Sound)

include inv

theorem Sound.opened_correct {ramfs : Ramfs Id} (held : ramfs.Holds e)
    (soundAfter : Sound { files with ramfs })
    (others : ∀ u, files.ramfs.Holds u → u ≠ e →
      (ramfs.get u).contents = (files.ramfs.get u).contents)
    (contents : (ramfs.get e).contents = if files.ramfs.Holds e ∧
      (flags.trunc = false ∨ flags.directory = true) then (files.ramfs.get e).contents else []) :
    Correct ⟨files, .openFile fd path flags alloc,
      { files with ramfs }.setFd fd (some (ramfs.opened e flags)) (.opened none)⟩ ∧
    Sound ({ files with ramfs }.setFd fd (some (ramfs.opened e flags)) (.opened none)) := by
  have length : (ramfs.get e).contents.length = (ramfs.get e).size :=
    soundAfter.length_contents held
  refine ⟨⟨inv.fault, ?_⟩, soundAfter.setFd fun u isOther => ?_⟩
  · simp only [fd_setFd, Function.update_self]
    refine ⟨fun u isHeld isOther => others u isHeld fun same => isOther ?_, contents, ?_⟩
    · rw [same]
      rfl
    · exact congrArg (fun n => if flags.append then n else 0) length.symm
  · cases isOther
    exact held

omit [DecidableEq Fd] in
theorem Sound.created {id : Id} (fresh : id ∉ files.ramfs.list) (name : List Char) :
    Sound { files with
      ramfs := { files.ramfs.set (.file id) ⟨name, none, 0⟩ with
        list := id :: files.ramfs.list } } := by
  refine ⟨fun u held => ?_, fun fd file isFile => ?_, inv.fault⟩
  · by_cases isNew : u = .file id
    · subst isNew
      simp [Ramfs.get, Ramfs.set]
    · have before : files.ramfs.Holds u := by
        cases u with
        | root => trivial
        | file id' =>
          rcases List.mem_cons.mp held with rfl | held
          · exact absurd rfl isNew
          · exact held
      have same := @Ramfs.get_set_of_ne _ _ files.ramfs (.file id) u ⟨name, none, 0⟩ isNew
      have size := inv.size u before
      rw [← same] at size
      cases u <;> exact size
  · have held := inv.held fd file isFile
    cases entry : file.data with
    | root => trivial
    | file id' =>
      rw [entry] at held
      exact List.mem_cons_of_mem _ held

theorem Sound.finished {ramfs : Ramfs Id} (isFile : flags.directory = false) (held : ramfs.Holds e)
    (soundAfter : Sound { files with ramfs })
    (others : ∀ u, files.ramfs.Holds u → u ≠ e →
      (ramfs.get u).contents = (files.ramfs.get u).contents)
    (contents : (ramfs.get e).contents =
      if files.ramfs.Holds e then (files.ramfs.get e).contents else []) {last : Ramfs Id}
    (isLast : last = if flags.trunc then ramfs.set e { ramfs.get e with data := none, size :=
      0 } else ramfs) :
    Correct ⟨files, .openFile fd path flags alloc,
      { files with ramfs := last }.setFd fd (some (last.opened e flags)) (.opened none)⟩ ∧
    Sound ({ files with ramfs := last }.setFd fd (some (last.opened e flags))
      (.opened none)) := by
  subst isLast
  cases trunc : flags.trunc with
  | true =>
    refine inv.opened_correct (Ramfs.holds_set.mpr held) (soundAfter.set rfl)
      (fun u isHeld isOther => ?_) ?_
    · simp only [if_true]
      rw [Ramfs.get_set_of_ne isOther]
      exact others u isHeld isOther
    · simp [trunc, isFile, RamfsDirent.contents]
  | false =>
    refine inv.opened_correct held soundAfter others ?_
    simpa [trunc] using contents

theorem Sound.step_openFile (ran : files.step behind (.openFile fd path flags alloc) = some after) :
    Correct ⟨files, .openFile fd path flags alloc, after⟩ ∧ after.Sound := by
  obtain ⟨⟨isFree, fresh⟩, isAfter⟩ := Option.ite_none_right_eq_some.mp ran
  have refused : ∀ error, after =
      { files with ramfs := files.ramfs, result := .opened (some error) } →
      Correct ⟨files, .openFile fd path flags alloc, after⟩ ∧ after.Sound := by
    rintro error rfl
    refine ⟨⟨inv.fault, ?_⟩, inv.size, inv.held, inv.fault⟩
    simp only [isFree]
    exact fun _ _ _ => rfl
  unfold Ramfs.dfsRamfsOpen at isAfter
  cases directory : flags.directory with
  | true =>
    simp only [directory, if_true] at isAfter
    cases creat : flags.creat with
    | true =>
      simp only [creat, if_true, Option.some.injEq] at isAfter
      exact refused _ isAfter.symm
    | false =>
      cases found : files.ramfs.dfsRamfsLookup behind path with
      | none =>
        simp only [creat, found, Bool.false_eq_true, if_false, Option.some.injEq] at isAfter
        exact refused _ isAfter.symm
      | some e =>
        simp only [creat, found, Bool.false_eq_true, if_false, Option.some.injEq] at isAfter
        subst isAfter
        have held := Ramfs.holds_of_lookup found
        exact inv.opened_correct held ⟨inv.size, inv.held, inv.fault⟩
          (fun _ _ _ => rfl) (by simp [held, directory])
  | false =>
    simp only [directory, Bool.false_eq_true, if_false] at isAfter
    rcases Ramfs.openEntry_cases behind files.ramfs path flags alloc with
      ⟨-, error, isEntry⟩ | ⟨-, e, held, isEntry⟩ | ⟨-, id, isAlloc, isEntry⟩
    · simp only [isEntry, Option.some.injEq] at isAfter
      exact refused _ isAfter.symm
    · simp only [isEntry, Option.some.injEq] at isAfter
      subst isAfter
      exact inv.finished directory held ⟨inv.size, inv.held, inv.fault⟩
        (fun _ _ _ => rfl) (by simp [held]) rfl
    · simp only [isEntry, Option.some.injEq] at isAfter
      subst isAfter
      have isNew : id ∉ files.ramfs.list := fresh id isAlloc
      refine inv.finished directory List.mem_cons_self (inv.created isNew _)
        (fun u _ isOther => ?_) ?_ rfl
      · have same := @Ramfs.get_set_of_ne _ _ files.ramfs (.file id) u
          ⟨strncpy (stripped path) ramfsNameMax, none, 0⟩ isOther
        rw [← same]
        cases u <;> rfl
      · have notHeld : ¬ files.ramfs.Holds (.file id) := isNew
        rw [if_neg notHeld]
        simp [Ramfs.get, Ramfs.set, RamfsDirent.contents]

end

end Open

theorem Sound.step (inv : files.Sound) {call : FileCall Id Fd}
    (ran : files.step behind call = some after) :
    (Correct ⟨files, call, after⟩ ↔ files.Current call) ∧ (files.Current call → after.Sound) := by
  cases call with
  | openFile fd path flags alloc =>
    obtain ⟨correct, inv⟩ := inv.step_openFile ran
    exact ⟨iff_of_true correct trivial, fun _ => inv⟩
  | read fd n => exact inv.step_read ran
  | write fd buf realloc => exact inv.step_write ran
  | lseek fd offset =>
    obtain ⟨file, isOpen, rfl⟩ := map_eq_some_iff.mp ran
    refine ⟨iff_of_true ⟨inv.fault, fun _ _ _ => rfl⟩ trivial, fun _ => inv.setFd ?_⟩
    intro u isOther
    cases isOther
    simp only [Ramfs.dfsRamfsLseek]
    split_ifs <;> exact inv.held fd file isOpen
  | close fd =>
    obtain ⟨file, isOpen, rfl⟩ := map_eq_some_iff.mp ran
    exact ⟨iff_of_true ⟨inv.fault, fun _ _ _ => rfl⟩ trivial, fun _ => inv.setFd nofun⟩

omit [DecidableEq Id] [DecidableEq Fd] in
theorem Initial.sound (init : Initial files) : files.Sound := by
  obtain ⟨empty, noData, noSize, closed, fault⟩ := init
  refine ⟨fun e held => ?_, fun fd file isFile => by simp [closed] at isFile, fault⟩
  cases e with
  | root => simp [Ramfs.get, noData, noSize]
  | file id => simp [Ramfs.Holds, empty] at held

end Files

/-- Every call of a run treats the files as arrays of bytes exactly if the sizes remembered
make no difference to any of them. -/
theorem ramfs_contents_iff (behind : RamfsDirent → List Char)
    {taken : List (Taken (Files Id Fd) (FileCall Id Fd))} {last : Files Id Fd}
    (run : (Files.system behind Id Fd).Run taken last) :
    (∀ step ∈ taken, Files.Correct step) ↔ EveryStep Files.Current taken :=
  run.everyTaken_iff_everyStep (fun _ init => Files.Initial.sound init)
    (fun _ _ _ inv current ran => (Files.Sound.step inv ran).2 current)
    (fun _ _ _ inv ran => (Files.Sound.step inv ran).1)

def emptyFiles : Files (Fin 2) (Fin 2) :=
  ⟨⟨⟨['.'], none, 0⟩, [], fun _ => ⟨[], none, 0⟩⟩, fun _ => none, false, .closed⟩

theorem emptyFiles_initial : emptyFiles.Initial := ⟨rfl, rfl, rfl, fun _ => rfl, rfl⟩

def pathA : CString := ⟨['/', 'a'], by decide⟩

def creating (trunc : Bool) : OpenFlags := ⟨false, true, true, trunc, false⟩

theorem reopened_file_correct : ∃ taken, ∃ last : Files (Fin 2) (Fin 2),
      (Files.system (fun _ => []) (Fin 2) (Fin 2)).Run taken last ∧
      (last.ramfs.dirent 0).contents = [1, 9, 3] ∧ ∀ step ∈ taken, Files.Correct step := by
  let calls : List (FileCall (Fin 2) (Fin 2)) :=
    [.openFile 0 pathA (creating true) (some 0), .write 0 [1, 2, 3] (some fun _ => 0),
      .openFile 1 pathA (creating false) none, .lseek 1 1, .write 1 [9] none, .read 1 8,
      .write 0 [4] none, .close 1]
  have run : (Files.system (fun _ => []) (Fin 2) (Fin 2)).Run _ _ :=
    .executed emptyFiles calls emptyFiles_initial (by decide +kernel)
  exact ⟨_, _, run, by decide +kernel, (ramfs_contents_iff _ run).mpr (by decide +kernel)⟩

/-- Two descriptors are opened on a new file.  Four bytes are written through one; a write of
one byte through the other makes the file one byte long. -/
theorem stale_size_shrinks_file : ¬ ∀ taken, ∀ last : Files (Fin 2) (Fin 2),
      (Files.system (fun _ => []) (Fin 2) (Fin 2)).Run taken last →
        ∀ step ∈ taken, Files.Correct step := by
  intro claim
  let calls : List (FileCall (Fin 2) (Fin 2)) :=
    [.openFile 0 pathA (creating false) (some 0), .openFile 1 pathA (creating false) none,
      .write 0 [1, 2, 3, 4] (some fun _ => 0), .write 1 [5] (some fun _ => 0)]
  have run : (Files.system (fun _ => []) (Fin 2) (Fin 2)).Run _ _ :=
    .executed emptyFiles calls emptyFiles_initial (by decide +kernel)
  have every := (run.everyTaken_iff_everyStep (fun _ init => Files.Initial.sound init)
    (fun _ _ _ inv current ran => (Files.Sound.step inv ran).2 current)
    (fun _ _ _ inv ran => (Files.Sound.step inv ran).1)).mp (claim _ _ run)
  exact absurd every (by decide +kernel)

end RtThread.Dfs
