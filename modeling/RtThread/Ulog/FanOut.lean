import RtThread.Ulog.Basic

/-!
# What the backends are given

A log with colors begins with the color header of its level and ends with `CSI_END`; a log is
never longer than the buffer.
-/

namespace RtThread.Ulog

open List (length_take length_append length_nil length_cons)
open Option (map_eq_some_iff bind_eq_some_iff bind_eq_bind)

/-- The first bytes of the line are `header`, and the line stands inside the buffer. -/
structure Line.Carries (header : List UInt8) (line : Line) : Prop where
  sized : line.buffer.length = ulogLineBufSize
  within : line.length ≤ ulogLineBufSize
  behind : header.length ≤ line.length
  begins : line.buffer.take header.length = header

variable {header : List UInt8} {line after : Line} {bytes src : List UInt8}

variable {buffer tag : List UInt8} {level i : Nat}

theorem Line.Carries.start (sized : buffer.length = ulogLineBufSize) :
    Line.Carries [] { buffer := buffer, length := 0 } :=
  ⟨sized, Nat.zero_le _, Nat.zero_le _, rfl⟩

theorem store_eq_some (stored : line.store bytes = some after) :
    line.length + bytes.length ≤ line.buffer.length ∧ after.length = line.length ∧
      after.buffer = line.buffer.take line.length ++ bytes ++
        line.buffer.drop (line.length + bytes.length) := by
  unfold Line.store TextBuffer.overwrite? at stored
  split at stored
  · rename_i inside
    cases stored
    exact ⟨inside, rfl, rfl⟩
  · simp at stored

section

variable (carries : line.Carries header)

include carries

theorem Line.Carries.store (stored : line.store bytes = some after) :
    after.Carries header ∧ after.length = line.length := by
  obtain ⟨inside, same, buffer⟩ := store_eq_some stored
  obtain ⟨sized, within, behind, begins⟩ := carries
  refine ⟨⟨?_, same ▸ within, same ▸ behind, ?_⟩, same⟩
  · simp only [buffer, length_append, length_take, List.length_drop]
    omega
  · rw [buffer, List.append_assoc, List.take_append_of_le_length (by simp; omega), List.take_take,
      Nat.min_eq_left behind, begins]

theorem Line.Carries.extend {n : Nat} (extended : line.extend bytes n = some after)
    (counted : n ≤ bytes.length) : after.Carries header ∧ after.length = line.length + n := by
  obtain ⟨stored, isStored, rfl⟩ := map_eq_some_iff.mp extended
  obtain ⟨kept, same⟩ := carries.store isStored
  have inside := (store_eq_some isStored).1
  have sized := carries.sized
  refine ⟨⟨kept.sized, ?_, Nat.le_add_right_of_le kept.behind, kept.begins⟩, by simp [same]⟩
  simp only [same]
  omega

theorem Line.Carries.ulogStrcpy (copied : ulogStrcpy line src = some after) :
    after.Carries header ∧ after.length ≤ line.length + src.length := by
  obtain ⟨kept, length⟩ := carries.extend copied le_rfl
  refine ⟨kept, ?_⟩
  simp only [length, length_take]
  omega

end

theorem ulogStrcpy_take (room : line.length + src.length ≤ ulogLineBufSize)
    (copied : ulogStrcpy line src = some after) :
    after.buffer.take after.length = line.buffer.take line.length ++ src ∧
      after.length = line.length + src.length := by
  have whole : src.take (ulogLineBufSize - line.length) = src := List.take_of_length_le (by omega)
  simp only [Ulog.ulogStrcpy, whole] at copied
  obtain ⟨stored, isStored, rfl⟩ := map_eq_some_iff.mp copied
  obtain ⟨inside, same, buffer⟩ := store_eq_some isStored
  have front : (line.buffer.take line.length ++ src).length = line.length + src.length := by
    simp only [length_append, length_take]
    omega
  refine ⟨?_, by simp [same]⟩
  simp only [same, buffer]
  rw [← front, List.take_left]

theorem Line.Carries.whole (carries : line.Carries header) :
    line.Carries (line.buffer.take line.length) := by
  have length : (line.buffer.take line.length).length = line.length := by
    rw [length_take, carries.sized, Nat.min_eq_left carries.within]
  exact ⟨carries.sized, carries.within, length.le, by rw [length]⟩

def colorHeader (level : Nat) : Option (List UInt8) := (colorOutputInfo level).map (csiStart ++ ·)

theorem colorHeader_length (colored : colorHeader level = some header) : header.length = 5 := by
  obtain ⟨color, isColor, rfl⟩ := map_eq_some_iff.mp colored
  unfold colorOutputInfo at isColor
  split at isColor <;> cases isColor <;> rfl

theorem formatColor_carries (sized : buffer.length = ulogLineBufSize)
    (formatted : formatColor { buffer := buffer, length := 0 } level = some line) :
    line.Carries ((colorHeader level).getD []) := by
  unfold formatColor at formatted
  cases isColor : colorOutputInfo level with
  | none =>
    rw [isColor] at formatted
    cases formatted
    simpa [colorHeader, isColor] using Line.Carries.start sized
  | some color =>
    rw [isColor] at formatted
    obtain ⟨started, start, colored⟩ := bind_eq_some_iff.mp formatted
    have header : colorHeader level = some (csiStart ++ color) := by simp [colorHeader, isColor]
    have short : color.length = 3 := by simpa [csiStart] using colorHeader_length header
    obtain ⟨kept, -⟩ := (Line.Carries.start sized).ulogStrcpy start
    obtain ⟨first, length⟩ := ulogStrcpy_take (show 0 + csiStart.length ≤ _ by decide) start
    have room : started.length + color.length ≤ ulogLineBufSize := by
      rw [length, short]
      exact show 0 + csiStart.length + 3 ≤ _ by decide
    obtain ⟨second, -⟩ := ulogStrcpy_take room colored
    have whole := (kept.ulogStrcpy colored).1.whole
    rw [second, first] at whole
    simpa [header] using whole

theorem formatHead_carries {tick : Nat} (sized : buffer.length = ulogLineBufSize)
    (formatted : formatHead { buffer := buffer, length := 0 } level tag tick = some line) :
    line.Carries ((colorHeader level).getD []) := by
  simp only [formatHead, bind_eq_bind, bind_eq_some_iff] at formatted
  obtain ⟨colored, color, timed, time, spaced, space, leveled, info, tagged, isTag,
    colon⟩ := formatted
  obtain ⟨carries, -⟩ := (formatColor_carries sized color).extend time (by simp)
  obtain ⟨carries, -⟩ := carries.ulogStrcpy space
  obtain ⟨text, -, info⟩ := bind_eq_some_iff.mp info
  obtain ⟨carries, -⟩ := carries.ulogStrcpy info
  obtain ⟨carries, -⟩ := carries.ulogStrcpy isTag
  exact (carries.ulogStrcpy colon).1

theorem messageLength_bounds (length : Nat) (fmtResult : Option Nat) :
    messageLength length fmtResult ≤ 250 ∧
      (length ≤ messageLength length fmtResult ∨ 250 ≤ messageLength length fmtResult) := by
  simp only [messageLength, ulogLineBufSize, csiEnd, ulogNewlineSign, length_cons,
    length_nil]
  cases fmtResult with
  | none => simp
  | some n =>
    by_cases fits : length + n ≤ 256
    · simp only [fits, ↓reduceIte]
      constructor <;> split <;> omega
    · simp [fits]

theorem formatMessage_carries {message : Formatted} (carries : line.Carries header)
    (short : header.length ≤ 250) (formatted : formatMessage line message = some after) :
    after.Carries header ∧ after.length ≤ 250 := by
  obtain ⟨stored, isStored, rfl⟩ := map_eq_some_iff.mp formatted
  obtain ⟨kept, -⟩ := carries.store isStored
  obtain ⟨room, longer⟩ :=
    messageLength_bounds line.length (vsnprintf (ulogLineBufSize - line.length) message).2
  have behind := carries.behind
  refine ⟨⟨kept.sized, room.trans (by decide), ?_, kept.begins⟩, room⟩
  simp only
  omega

theorem ulogFormater_colored {tick : Nat} {newline : Bool}
    {message : Formatted} (sized : buffer.length = ulogLineBufSize)
    (formatted : ulogFormater buffer level tag newline message tick = some line) :
    line.buffer.length = ulogLineBufSize ∧ line.length ≤ ulogLineBufSize ∧
      ∀ header, colorHeader level = some header →
        ∃ body, line.buffer.take line.length = header ++ body ++ csiEnd := by
  simp only [ulogFormater, bind_eq_bind, bind_eq_some_iff] at formatted
  obtain ⟨begun, head, spoken, message, ended, newline, formatted⟩ := formatted
  have short : ((colorHeader level).getD []).length ≤ 250 := by
    cases colored : colorHeader level with
    | none => simp
    | some header => simp [colorHeader_length colored]
  obtain ⟨carries, room⟩ := formatMessage_carries (formatHead_carries sized head) short message
  have ended : ended.Carries ((colorHeader level).getD []) ∧ ended.length ≤ 252 := by
    unfold formatNewline at newline
    split at newline
    · obtain ⟨carries, length⟩ := carries.ulogStrcpy newline
      simp only [ulogNewlineSign, length_cons, length_nil] at length
      exact ⟨carries, by omega⟩
    · cases newline
      exact ⟨carries, by omega⟩
  obtain ⟨carries, room⟩ := ended
  cases isColor : colorOutputInfo level with
  | none =>
    rw [isColor] at formatted
    cases formatted
    exact ⟨carries.sized, carries.within, by simp [colorHeader, isColor]⟩
  | some color =>
    rw [isColor] at formatted
    obtain ⟨last, -⟩ := carries.ulogStrcpy formatted
    refine ⟨last.sized, last.within, fun header colored => ?_⟩
    obtain ⟨whole, -⟩ := ulogStrcpy_take (by
      simp only [csiEnd, ulogLineBufSize, length_cons, length_nil]
      omega) formatted
    rw [colored] at carries
    obtain ⟨body, split⟩ : header <+: ended.buffer.take ended.length := by
      have begins : ended.buffer.take header.length <+: ended.buffer.take ended.length :=
        List.take_prefix_take_left carries.behind
      have isHeader : ended.buffer.take header.length = header := carries.begins
      rwa [isHeader] at begins
    exact ⟨body, by rw [whole, ← split]⟩

theorem foldlM_carries {cells : List Nat} {write : Line → Nat → Option Line}
    (kept : ∀ line after j, line.Carries header → write line j = some after → after.Carries header)
    (carries : line.Carries header) (written : cells.foldlM write line = some after) :
    after.Carries header := by
  induction cells generalizing line with
  | nil =>
    cases written
    exact carries
  | cons j cells ih =>
    simp only [List.foldlM_cons, bind_eq_bind, bind_eq_some_iff] at written
    obtain ⟨middle, a, rest⟩ := written
    exact ih (kept _ _ _ carries a) rest

theorem hexCell_carries {j : Nat} (carries : line.Carries header)
    (written : hexCell line bytes i j = some after) : after.Carries header := by
  obtain ⟨middle, a, rest⟩ := bind_eq_some_iff.mp written
  obtain ⟨carries, -⟩ := carries.ulogStrcpy a
  split at rest
  · exact (carries.ulogStrcpy rest).1
  · cases rest
    exact carries

theorem charCell_carries {j : Nat} (carries : line.Carries header)
    (written : charCell line bytes i j = some after) : after.Carries header := by
  unfold charCell at written
  split at written
  · exact (carries.ulogStrcpy written).1
  · cases written
    exact carries

theorem hexdumpHead_carries (carries : line.Carries [])
    (written : hexdumpHead line tag i = some after) : after.Carries [] := by
  unfold hexdumpHead at written
  split at written
  · simp only [bind_eq_bind, bind_eq_some_iff] at written
    obtain ⟨a, isFirst, second, isSecond, third⟩ := written
    exact (((carries.ulogStrcpy isFirst).1.ulogStrcpy isSecond).1.ulogStrcpy third).1
  · exact ((Line.Carries.start carries.sized).extend written (by simp)).1

theorem hexdumpLine_carries {width : Nat} (carries : line.Carries [])
    (written : hexdumpLine line tag width bytes i = some after) : after.Carries [] := by
  simp only [hexdumpLine, bind_eq_bind, bind_eq_some_iff] at written
  obtain ⟨headed, head, ranged, range, dumped, cells, spaced, space, shown, chars, newline⟩ :=
    written
  obtain ⟨carries, -⟩ := (hexdumpHead_carries carries head).extend range (by simp)
  have carries := foldlM_carries (fun _ _ _ => hexCell_carries) carries cells
  obtain ⟨carries, -⟩ := carries.ulogStrcpy space
  have carries := foldlM_carries (fun _ _ _ => charCell_carries) carries chars
  have carries : Line.Carries [] (if shown.length + ulogNewlineSign.length > ulogLineBufSize then
      { shown with length := ulogLineBufSize - ulogNewlineSign.length } else shown) := by
    split
    · exact ⟨carries.sized, by simp only; omega, Nat.zero_le _, rfl⟩
    · exact carries
  exact (carries.ulogStrcpy newline).1

def Log.content (log : Log) : List UInt8 := log.buffer.take log.size

/-- A log stands inside the buffer; if its level has a color, which raw logs have not, it
begins with the color header and ends with `CSI_END`. -/
structure Log.Formed (log : Log) : Prop where
  sized : log.buffer.length = ulogLineBufSize
  within : log.size ≤ ulogLineBufSize
  raw : log.isRaw = true → colorHeader log.level = none
  colored : ∀ header, colorHeader log.level = some header →
    ∃ body, log.content = header ++ body ++ csiEnd

theorem formed_raw (sized : buffer.length = ulogLineBufSize) {size : Nat}
    (within : size ≤ ulogLineBufSize) :
    Log.Formed { level := logLvlDbg, tag := none, isRaw := true, buffer := buffer, size := size } :=
  ⟨sized, within, fun _ => rfl, fun _ colored => by cases colored⟩

theorem hexdumpFrom_formed {width rounds : Nat} {logs : List Log}
    (carries : line.Carries []) (dumped : hexdumpFrom tag width bytes rounds line i = some logs) :
    ∀ log ∈ logs, log.Formed := by
  induction rounds generalizing line i logs with
  | zero =>
    cases dumped
    simp
  | succ rounds ih =>
    rw [hexdumpFrom] at dumped
    split at dumped
    · split at dumped
      · cases dumped
      · rename_i line' isLine
        have carries := hexdumpLine_carries carries isLine
        obtain ⟨rest, isRest, rfl⟩ := map_eq_some_iff.mp dumped
        intro log mem
        rcases List.mem_cons.mp mem with rfl | later
        · exact formed_raw carries.sized carries.within
        · exact ih carries isRest log later
    · cases dumped
      simp

theorem logsOf_formed {call : Call} {logs : List Log} (sized : buffer.length = ulogLineBufSize)
    (handed : logsOf buffer call = some logs) : ∀ log ∈ logs, log.Formed := by
  cases call with
  | voutput level tag newline message tick =>
    obtain ⟨-, handed⟩ := Option.ite_none_right_eq_some.mp handed
    obtain ⟨line, formatted, rfl⟩ := map_eq_some_iff.mp handed
    obtain ⟨sized, within, colored⟩ := ulogFormater_colored sized formatted
    intro log mem
    obtain rfl := List.mem_singleton.mp mem
    exact Log.Formed.mk sized within (fun raw => by cases raw) colored
  | raw message =>
    obtain ⟨log, isLog, rfl⟩ := map_eq_some_iff.mp handed
    obtain ⟨line, stored, rfl⟩ := map_eq_some_iff.mp isLog
    intro log mem
    obtain rfl := List.mem_singleton.mp mem
    obtain ⟨carries, -⟩ := (Line.Carries.start sized).store stored
    refine formed_raw carries.sized ?_
    split
    · split
      · assumption
      · exact le_rfl
    · exact le_rfl
  | hexdump tag width bytes rounds => exact hexdumpFrom_formed (.start sized) handed

/-- The slice that a backend should be given: the whole log, or the log between its color header
and `CSI_END`. -/
def Log.sliceFor (log : Log) (backend : Backend) : Nat × Nat :=
  match backend.supportColor, colorHeader log.level with
  | false, some header => (header.length, log.size - header.length - csiEnd.length)
  | _, _ => (0, log.size)

def Output.slice (output : Output) : Nat × Nat := (output.start, output.size)

/-- Each backend is called once, in the order of registration, with its slice of the log. -/
def FannedOut (backends : List Backend) (log : Log) (outputs : Option (List Output)) : Prop :=
  ∃ calls, outputs = some calls ∧ calls.map Output.backend = backends ∧
    ∀ call ∈ calls, call.level = log.level ∧ call.tag = log.tag ∧ call.isRaw = log.isRaw ∧
      call.slice = log.sliceFor call.backend

/-- All backends support colors; or the log has colors and no backend follows one without
color support; or it has none and the string at the null pointer is empty. -/
def Separable (nullLength : Option Nat) (backends : List Backend) (level : Nat) : Prop :=
  (∀ backend ∈ backends, backend.supportColor = true) ∨
    if colorHeader level = none then nullLength = some 0
    else ∀ backend ∈ backends.dropLast, backend.supportColor = true

instance (nullLength : Option Nat) (backends : List Backend) (level : Nat) :
    Decidable (Separable nullLength backends level) := instDecidableOr

section Slices

variable {log : Log} {nullLength : Option Nat} {start : Nat} {backend : Backend}
  {backends : List Backend}

theorem Log.Formed.size_colored (formed : log.Formed)
    (colored : colorHeader log.level = some header) : header.length + csiEnd.length ≤ log.size := by
  obtain ⟨body, content⟩ := formed.colored header colored
  have length := congrArg List.length content
  have within := formed.within
  rw [Log.content, length_take, formed.sized, Nat.min_eq_left within] at length
  simp only [length_append] at length
  omega

/-- What the slice for a backend is: it stands inside the buffer, it is the whole log if the
backend supports colors or the log has none, and otherwise what stands between the color header
and `CSI_END`. -/
structure Log.Sliced (log : Log) (backend : Backend) : Prop where
  inside : (log.sliceFor backend).1 + (log.sliceFor backend).2 ≤ ulogLineBufSize
  whole : backend.supportColor = true ∨ log.isRaw = true ∨ colorHeader log.level = none →
    log.sliceFor backend = (0, log.size)
  between : backend.supportColor = false → ∀ header, colorHeader log.level = some header →
    log.content = header ++
      (log.buffer.drop (log.sliceFor backend).1).take (log.sliceFor backend).2 ++ csiEnd

theorem Log.Formed.sliced (formed : log.Formed) (backend : Backend) : log.Sliced backend := by
  have within := formed.within
  cases supported : backend.supportColor with
  | true =>
    have whole : log.sliceFor backend = (0, log.size) := by simp [Log.sliceFor, supported]
    exact ⟨by simpa [whole] using within, fun _ => whole, by simp [supported]⟩
  | false =>
    cases colored : colorHeader log.level with
    | none =>
      have whole : log.sliceFor backend = (0, log.size) := by
        simp [Log.sliceFor, colored]
      exact ⟨by simpa [whole] using within, fun _ => whole, by simp [colored]⟩
    | some header =>
      have slice : log.sliceFor backend =
          (header.length, log.size - header.length - csiEnd.length) := by
        simp [Log.sliceFor, supported, colored]
      have size := formed.size_colored colored
      have notRaw : log.isRaw ≠ true := fun raw => by
        cases colored.symm.trans (formed.raw raw)
      refine ⟨by rw [slice]; simp only; omega, by simp [supported, notRaw, colored], ?_⟩
      rintro - u isOther
      obtain rfl := Option.some.inj (colored.symm.trans isOther)
      obtain ⟨body, content⟩ := formed.colored header colored
      have length : body.length = log.size - header.length - csiEnd.length := by
        have length := congrArg List.length content
        rw [Log.content, length_take, formed.sized, Nat.min_eq_left within] at length
        simp only [length_append] at length
        omega
      have between : ((log.buffer.take log.size).drop header.length).take body.length = body := by
        rw [← Log.content, content, List.append_assoc, List.drop_left, List.take_left]
      rw [List.drop_take, List.take_take, Nat.min_eq_left (by omega)] at between
      rw [slice, ← length, between, content]

theorem fannedOut_nil : FannedOut [] log (outputFrom nullLength log start []) :=
  ⟨[], rfl, rfl, by simp⟩

theorem fannedOut_cons {outputs : Option (List Output)} {output : Output}
    (isBackend : output.backend = backend)
    (same : output.level = log.level ∧ output.tag = log.tag ∧ output.isRaw = log.isRaw) :
    FannedOut (backend :: backends) log (outputs.map (output :: ·)) ↔
      output.slice = log.sliceFor backend ∧ FannedOut backends log outputs := by
  constructor
  · rintro ⟨calls, isCalls, called, slices⟩
    obtain ⟨rest, isRest, rfl⟩ := map_eq_some_iff.mp isCalls
    obtain ⟨-, rest'⟩ := List.cons.inj called
    obtain ⟨head, tail⟩ := List.forall_mem_cons.mp slices
    exact ⟨isBackend ▸ head.2.2.2, rest, isRest, rest', tail⟩
  · rintro ⟨slice, calls, rfl, called, slices⟩
    refine ⟨output :: calls, rfl, by rw [List.map_cons, isBackend, called], ?_⟩
    exact List.forall_mem_cons.mpr
      ⟨⟨same.1, same.2.1, same.2.2, by rw [slice, isBackend]⟩, slices⟩

theorem fannedOut_supported (supported : backend.supportColor = true) :
    FannedOut (backend :: backends) log (outputFrom nullLength log start (backend :: backends)) ↔
      start = 0 ∧ FannedOut backends log (outputFrom nullLength log start backends) := by
  have whole : log.sliceFor backend = (0, log.size) := by simp [Log.sliceFor, supported]
  simp only [outputFrom, supported]
  refine Iff.trans (fannedOut_cons ?_ ?_) ?_
  · rfl
  · exact ⟨rfl, rfl, rfl⟩
  · simp [Output.slice, whole]

theorem fannedOut_colored (formed : log.Formed) (colored : colorHeader log.level = some header)
    (unsupported : backend.supportColor = false) :
    FannedOut (backend :: backends) log (outputFrom nullLength log start (backend :: backends)) ↔
      start = 0 ∧
        FannedOut backends log (outputFrom nullLength log (start + header.length) backends) := by
  have size := formed.size_colored colored
  have within := formed.within
  have slice : log.sliceFor backend =
    (header.length, log.size - header.length - csiEnd.length) := by
    simp [Log.sliceFor, unsupported, colored]
  obtain ⟨color, isColor, rfl⟩ := map_eq_some_iff.mp colored
  have info : colorInfoLen nullLength log.level = some color.length := by
    simp [colorInfoLen, isColor]
  have three : color.length = 2 + 1 := by simpa [csiStart] using colorHeader_length colored
  have wrapped : Word32.sub log.size (csiStart.length + color.length + csiEnd.length) =
      log.size - (csiStart.length + color.length) - csiEnd.length := by
    rw [length_append] at size
    rw [Word32.sub_eq (by omega) (within.trans_lt (by decide)), Nat.sub_add_eq]
  rw [outputFrom]
  simp only [unsupported, info, three]
  rw [three] at wrapped
  refine Iff.trans (fannedOut_cons ?_ ?_) ?_
  · rfl
  · exact ⟨rfl, rfl, rfl⟩
  · simp [Output.slice, slice, wrapped, three]

theorem fannedOut_colorless (colorless : colorHeader log.level = none)
    (unsupported : backend.supportColor = false) :
    FannedOut (backend :: backends) log (outputFrom nullLength log start (backend :: backends)) ↔
      nullLength = some 0 ∧ start = 0 ∧
        FannedOut backends log (outputFrom nullLength log start backends) := by
  have whole : log.sliceFor backend = (0, log.size) := by
    simp [Log.sliceFor, colorless]
  have info : colorInfoLen nullLength log.level = nullLength := by
    have isColor : colorOutputInfo log.level = none := by simpa [colorHeader] using colorless
    simp [colorInfoLen, isColor]
  cases nullLength with
  | none => simp [FannedOut, outputFrom, unsupported, info]
  | some n =>
    cases n with
    | zero | succ n =>
      simp only [outputFrom, unsupported, info]
      refine Iff.trans (fannedOut_cons ?_ ?_) ?_
      · rfl
      · exact ⟨rfl, rfl, rfl⟩
      · simp [Output.slice, whole]

end Slices

variable {log : Log} {nullLength : Option Nat}

theorem fannedOut_colored_iff (formed : log.Formed) (colored : colorHeader log.level = some header)
    (backends : List Backend) (start : Nat) :
    FannedOut backends log (outputFrom nullLength log start backends) ↔
      backends = [] ∨ start = 0 ∧ ∀ backend ∈ backends.dropLast, backend.supportColor = true := by
  induction backends generalizing start with
  | nil => simpa using fannedOut_nil
  | cons backend backends ih =>
    have moved : header.length ≠ 0 := by simp [colorHeader_length colored]
    cases supported : backend.supportColor with
    | true =>
      rw [fannedOut_supported supported, ih]
      cases backends with
      | nil => simp
      | cons second backends => simp [supported]
    | false =>
      rw [fannedOut_colored formed colored supported, ih]
      cases backends with
      | nil => simp
      | cons second backends => simp [supported, moved]

theorem fannedOut_colorless_iff (colorless : colorHeader log.level = none)
    (backends : List Backend) (start : Nat) :
    FannedOut backends log (outputFrom nullLength log start backends) ↔ backends = [] ∨ start = 0 ∧
        ((∀ backend ∈ backends, backend.supportColor = true) ∨ nullLength = some 0) := by
  induction backends generalizing start with
  | nil => simpa using fannedOut_nil
  | cons backend backends ih =>
    cases supported : backend.supportColor with
    | true =>
      rw [fannedOut_supported supported, ih]
      cases backends with
      | nil | cons second backends => simp [supported]
    | false =>
      rw [fannedOut_colorless colorless supported, ih]
      cases backends with
      | nil => simp [supported, and_comm]
      | cons second backends =>
        simp only [List.forall_mem_cons, supported]
        tauto

/-- For a log that `ulog_voutput`, `ulog_raw` or `ulog_hexdump` hands over, each backend is given
its slice of the log exactly if the backends are separable at its level. -/
theorem fannedOut_iff_separable {buffer : List UInt8} {call : Call} {logs : List Log}
    (nullLength : Option Nat) (backends : List Backend)
    (sized : buffer.length = ulogLineBufSize) (handed : logsOf buffer call = some logs)
    (mem : log ∈ logs) : (∀ backend, log.Sliced backend) ∧
      (FannedOut backends log (ulogOutputToAllBackend nullLength backends log) ↔
        Separable nullLength backends log.level) := by
  have formed := logsOf_formed sized handed log mem
  refine ⟨formed.sliced, ?_⟩
  unfold ulogOutputToAllBackend Separable
  cases colored : colorHeader log.level with
  | none =>
    rw [fannedOut_colorless_iff colored]
    cases backends <;> simp
  | some header =>
    rw [fannedOut_colored_iff formed colored]
    have fewer : (∀ backend ∈ backends, backend.supportColor = true) →
        ∀ backend ∈ backends.dropLast, backend.supportColor = true :=
      fun all backend mem => all backend (List.dropLast_subset _ mem)
    cases backends with
    | nil => simp
    | cons backend backends => simpa using fewer

def clearBuffer : List UInt8 := List.replicate ulogLineBufSize 0

/-- `LOG_I("hi")` with the tag `t`. -/
def greeting : Call := .voutput 6 [116] true (.text [104, 105]) 42

def greetingLog : Log :=
  ((logsOf clearBuffer greeting).bind List.head?).get (by decide +kernel)

theorem greetingLog_handed : logsOf clearBuffer greeting = some [greetingLog] := by
  decide +kernel

theorem greeting_fannedOut :
    let backends : List Backend := [⟨0, true⟩, ⟨1, false⟩]
    FannedOut backends greetingLog (ulogOutputToAllBackend none backends greetingLog) :=
  (fannedOut_iff_separable none [⟨0, true⟩, ⟨1, false⟩] (by decide +kernel) greetingLog_handed
    (List.mem_singleton_self _)).2.mpr (by decide +kernel)

/-- Behind a backend without color support, the next one is given the log without its header, and
as many bytes behind its end. -/
theorem fanOut_moved :
    ¬ ∀ (nullLength : Option Nat) (backends : List Backend) (buffer : List UInt8) (call : Call)
      (logs : List Log), buffer.length = ulogLineBufSize → logsOf buffer call = some logs →
        ∀ log ∈ logs, FannedOut backends log (ulogOutputToAllBackend nullLength backends log) := by
  intro claim
  have fanned := claim none [⟨0, false⟩, ⟨1, true⟩] clearBuffer greeting _ (by decide +kernel)
    greetingLog_handed greetingLog (List.mem_singleton_self _)
  have formed := logsOf_formed (by decide +kernel) greetingLog_handed greetingLog
    (List.mem_singleton_self _)
  have colored : colorHeader greetingLog.level = some (csiStart ++ fGreen) := by decide +kernel
  have second := ((fannedOut_colored formed colored rfl).mp fanned).2
  have moved := ((fannedOut_supported rfl).mp second).1
  exact absurd moved (by decide)

end RtThread.Ulog
