import RtThread.Finsh.Session

/-!
# The history of the shell

The history rows hold the last few lines that were entered, those the same as the line before
them left out; the up and the down key recall one after the other.
-/

open TransitionSystem

namespace RtThread.Finsh

open TextBuffer

def collapsed (lines : List (List UInt8)) : List (List UInt8) :=
  lines.foldl (fun kept line => if kept.getLast? = some line then kept else kept ++ [line]) []

def lastFew (entries : List (List UInt8)) : List (List UInt8) :=
  entries.drop (entries.length - finshHistoryLines)

/-- The entries of the lines that `msh_exec` was called with; empty lines make none. -/
def FinshShell.entries (shell : FinshShell) : List (List UInt8) :=
  collapsed ((shell.executed.map fun call => call.1.take call.2).filter (· ≠ []))

/-- The entry that the keys have recalled last since the last line was entered, among `count`. -/
def nextRecalled (count : Nat) (recalled : Option Nat) : Key → Option Nat
  | .up => if count = 0 then none else some (recalled.getD count - 1)
  | .down => if count = 0 then none else some (min (recalled.getD count + 1) (count - 1))
  | .enter => none
  | _ => recalled

def nextUnedited (recalled : Option Nat) (unedited : Bool) : Key → Bool
  | .up => if recalled = some 0 then unedited else true
  | .down => true
  | .ignored => unedited
  | _ => false

structure Recalling where
  shell : FinshShell
  recalled : Option Nat
  unedited : Bool

def Recalling.start : Recalling := ⟨.empty, none, false⟩

def Recalling.step (s : Recalling) (input : Input) : Option Recalling :=
  let key := (decode s.shell.stat input.ch).2
  (s.shell.finshThreadEntry input.surroundings input.ch).map fun shell =>
    { shell
      recalled := nextRecalled s.shell.historyCount s.recalled key
      unedited := nextUnedited s.recalled s.unedited key }

def recallings : TransitionSystem Recalling Input :=
  .ofFunction (· = .start) Recalling.step

def KeepsShort (s : Recalling) (input : Input) : Prop :=
  Fits input.surroundings (s.shell.line.take s.shell.linePosition)
    (decode s.shell.stat input.ch).2

instance (s : Recalling) (input : Input) : Decidable (KeepsShort s input) :=
  inferInstanceAs (Decidable (Fits _ _ _))

/-- The history is the last few entries, and the line the recalled one. -/
structure KeepsHistory (s : Recalling) : Prop where
  count : s.shell.historyCount = min s.shell.entries.length finshHistoryLines
  rows : ∀ i < s.shell.historyCount,
    s.shell.row i = padded finshCmdSize ((lastFew s.shell.entries).getD i [])
  within : s.shell.currentHistory ≤ s.shell.historyCount
  browsing : s.shell.currentHistory = s.recalled.getD s.shell.historyCount
  recalled : ∀ i, s.recalled = some i → i < s.shell.historyCount ∧
    (s.unedited → s.shell.line.take s.shell.linePosition = (lastFew s.shell.entries).getD i [])

variable {editor : Editor} {recalled : Option Nat} {unedited : Bool}

theorem length_lastFew (entries : List (List UInt8)) :
    (lastFew entries).length = min entries.length finshHistoryLines := by
  rw [lastFew, List.length_drop]
  omega

theorem getLast?_lastFew (entries : List (List UInt8)) :
    (lastFew entries).getLast? = entries.getLast? := by
  rw [lastFew, List.getLast?_drop]
  split
  · rename_i few
    have none : entries = [] := List.eq_nil_of_length_eq_zero (by
      rw [finshHistoryLines] at few
      omega)
    rw [none]
    rfl
  · rfl

theorem lastFew_concat (entries : List (List UInt8)) (line : List UInt8) :
    lastFew (entries ++ [line]) =
      if (lastFew entries).length < finshHistoryLines then lastFew entries ++ [line]
      else (lastFew entries).tail ++ [line] := by
  rw [length_lastFew, lastFew, lastFew, List.length_append, List.length_singleton, List.tail_drop]
  split
  · rename_i few
    have all : entries.length - finshHistoryLines = 0 := by omega
    have room : entries.length + 1 - finshHistoryLines = 0 := by omega
    rw [all, room]
    rfl
  · rename_i full
    have more : entries.length + 1 - finshHistoryLines =
        entries.length - finshHistoryLines + 1 := by omega
    rw [more, List.drop_append_of_le_length (by rw [finshHistoryLines] at full ⊢; omega)]

theorem collapsed_concat (lines : List (List UInt8)) (line : List UInt8) :
    collapsed (lines ++ [line]) = if (collapsed lines).getLast? = some line then collapsed lines
      else collapsed lines ++ [line] := by
  rw [collapsed, List.foldl_concat]
  rfl

def Editor.entries (editor : Editor) : List (List UInt8) :=
  collapsed (editor.executed.filter (· ≠ []))

theorem remember_lastFew (lines : List (List UInt8)) (line : List UInt8) :
    Editor.remember line (lastFew (collapsed (lines.filter (· ≠ [])))) =
      lastFew (collapsed ((lines ++ [line]).filter (· ≠ []))) := by
  rw [Editor.remember, List.filter_append]
  by_cases empty : line = []
  · simp [empty]
  · have kept : [line].filter (· ≠ []) = [line] := by simp [empty]
    rw [kept, collapsed_concat, getLast?_lastFew]
    by_cases same : (collapsed (lines.filter (· ≠ []))).getLast? = some line
    · rw [if_pos (.inr same), if_pos same]
    · rw [if_neg (not_or.mpr ⟨empty, same⟩), if_neg same, lastFew_concat]

structure Remembers (editor : Editor) (recalled : Option Nat) (unedited : Bool) : Prop where
  history : editor.history = lastFew editor.entries
  browsing : editor.browsing = recalled.getD editor.history.length
  recalled : ∀ i, recalled = some i → i < editor.history.length ∧
    (unedited → editor.text = editor.history.getD i [])

theorem remembers_none (history : editor.history = lastFew editor.entries)
    (browsing : editor.browsing = editor.history.length) : Remembers editor none unedited :=
  ⟨history, browsing, fun _ impossible => absurd impossible.symm (Option.some_ne_none _)⟩

theorem Remembers.recallLine (remembers : Remembers editor recalled unedited) {i : Nat}
    (within : i < editor.history.length) : Remembers (editor.recallLine i) (some i) true where
  history := remembers.history
  browsing := rfl
  recalled := by
    rintro _ ⟨⟩
    exact ⟨within, fun _ => List.append_nil _⟩

theorem Remembers.edited (remembers : Remembers editor recalled unedited)
    (before after : List UInt8) : Remembers { editor with before, after } recalled false where
  history := remembers.history
  browsing := remembers.browsing
  recalled i isRecalled :=
    ⟨(remembers.recalled i isRecalled).1, fun impossible => absurd impossible (by decide)⟩

theorem Remembers.limited (remembers : Remembers editor recalled false) :
    Remembers editor.limited recalled false := by
  rw [Editor.limited]
  split
  · exact remembers
  · exact remembers.edited [] []

section

variable (remembers : Remembers editor recalled unedited)

include remembers

theorem Remembers.up (env : Surroundings) : Remembers (editor.press env .up)
      (nextRecalled editor.history.length recalled .up) (nextUnedited recalled unedited .up) := by
  have browsing := remembers.browsing
  rw [Editor.press, nextRecalled, nextUnedited, ← browsing]
  cases recalled with
  | none =>
    change editor.browsing = editor.history.length at browsing
    by_cases empty : editor.history.length = 0
    · rw [if_neg (by omega), if_pos empty]
      exact remembers_none remembers.history browsing
    · rw [if_pos (by omega), if_neg empty]
      exact remembers.recallLine (by omega)
  | some i =>
    change editor.browsing = i at browsing
    have within := (remembers.recalled i rfl).1
    rw [if_neg (show ¬ editor.history.length = 0 by omega), browsing]
    cases i with
    | zero =>
      exact remembers
    | succ i =>
      exact remembers.recallLine (Nat.lt_of_succ_lt within)

theorem Remembers.down (env : Surroundings) : Remembers (editor.press env .down)
      (nextRecalled editor.history.length recalled .down)
      (nextUnedited recalled unedited .down) := by
  have browsing := remembers.browsing
  rw [Editor.press, nextRecalled, nextUnedited, ← browsing]
  by_cases more : editor.browsing + 1 < editor.history.length
  · rw [if_pos more, if_neg (by omega), Nat.min_eq_left (by omega)]
    exact remembers.recallLine more
  · rw [if_neg more]
    by_cases empty : editor.history = []
    · have isNone : recalled = none := Option.eq_none_iff_forall_ne_some.mpr
        fun i isRecalled => by
          have within := (remembers.recalled i isRecalled).1
          rw [empty] at within
          exact Nat.not_lt_zero _ within
      rw [if_neg (not_not.mpr empty), if_pos (by rw [empty]; rfl)]
      exact remembers_none remembers.history (by rw [browsing, isNone]; rfl)
    · have pos := List.length_pos_iff.mpr empty
      rw [if_pos empty, if_neg (Nat.ne_of_gt pos), Nat.min_eq_right (by omega)]
      exact remembers.recallLine (Nat.sub_one_lt (Nat.ne_of_gt pos))

theorem Remembers.press (env : Surroundings) (key : Key) : Remembers (editor.press env key)
      (nextRecalled editor.history.length recalled key) (nextUnedited recalled unedited key) := by
  cases key with
  | ignored => exact remembers
  | up => exact remembers.up env
  | down => exact remembers.down env
  | left | right | backspace => exact remembers.edited _ _
  | tab | character ch => exact (remembers.edited _ _).limited
  | enter =>
    refine remembers_none ?_ rfl
    rw [Editor.press, remembers.history]
    exact remember_lastFew _ _

end

variable {s after : Recalling}

def Recalls (s : Recalling) : Prop :=
  ∃ editor, Represents s.shell editor ∧ Remembers editor s.recalled s.unedited

theorem Represents.entries_eq {shell : FinshShell} (rep : Represents shell editor) :
    shell.entries = editor.entries := by
  have texts : (shell.executed.map fun call => call.1.take call.2) = editor.executed := by
    rw [rep.executed, List.map_map]
    exact List.map_id'' (fun text => take_padded) _
  rw [FinshShell.entries, texts, Editor.entries]

theorem Recalls.keepsHistory (recalls : Recalls s) : KeepsHistory s := by
  obtain ⟨editor, rep, history, browsing, recalled⟩ := recalls
  have sameEntries := rep.entries_eq
  have text : s.shell.line.take s.shell.linePosition = editor.text := by
    rw [rep.line, rep.position, take_padded]
  refine ⟨?_, ?_, ?_, ?_, ?_⟩
  · rw [rep.count, history, length_lastFew, sameEntries]
  · intro i within
    rw [rep.count] at within
    rw [rep.row_eq within, sameEntries, ← history]
  · rw [rep.browsing, rep.count]
    exact rep.within
  · rw [rep.browsing, rep.count, browsing]
  · rw [rep.count, text, sameEntries, ← history]
    exact recalled

theorem Recalls.step {input : Input} (recalls : Recalls s) (short : KeepsShort s input)
    (step : s.step input = some after) : Recalls after := by
  obtain ⟨editor, rep, remembers⟩ := recalls
  obtain ⟨shell, result, rfl⟩ := Option.map_eq_some_iff.mp step
  have text : s.shell.line.take s.shell.linePosition = editor.text := by
    rw [rep.line, rep.position, take_padded]
  have begins : Represents { s.shell with stat := (decode s.shell.stat input.ch).1 }
      { editor with stat := (decode s.shell.stat input.ch).1 } :=
    { rep with stat := rfl }
  rw [KeepsShort, text] at short
  obtain ⟨_, pressed, represents'⟩ := begins.press (fun _ => decode_character) short
  rw [← finshThreadEntry_eq, result] at pressed
  cases pressed
  rw [Recalls, rep.count]
  have begun : Remembers { editor with stat := (decode s.shell.stat input.ch).1 }
      s.recalled s.unedited := ⟨remembers.history, remembers.browsing, remembers.recalled⟩
  exact ⟨_, represents', begun.press input.surroundings (decode s.shell.stat input.ch).2⟩

/-- As long as no line fills the command buffer, the history rows are the last few of the entered
lines, and the keys recall one next to the one recalled before, up to the first and the last. -/
theorem history_kept_throughout {taken : List (Taken Recalling Input)}
    {last : Recalling} (run : recallings.Run taken last) (short : EveryStep KeepsShort taken) :
    Throughout KeepsHistory taken last := by
  have base : ∀ s, recallings.initial s → Recalls s := by
    rintro _ rfl
    exact ⟨.empty, represents_empty, remembers_none rfl rfl⟩
  exact (run.throughout_of_everyStep base (fun _ _ _ recalls short step =>
    recalls.step short step) short).imp fun _ recalls => recalls.keepsHistory

theorem recalled_twice_history_kept :
    ∃ taken last, recallings.Run taken last ∧ last.shell.entries = [[0x61], [0x62]] ∧
      last.recalled = some 0 ∧ Throughout KeepsHistory taken last := by
  let events : List Input :=
    [0x61, 0x0d, 0x62, 0x0d, 0x62, 0x0d, 0x1b, 0x5b, 0x41, 0x1b, 0x5b, 0x41].map (⟨·, onlyLs⟩)
  have run : recallings.Run _ _ := .executed .start events (by rfl) (by decide +kernel)
  exact ⟨_, _, run, by decide +kernel, by decide +kernel,
    history_kept_throughout run (by decide +kernel)⟩

end RtThread.Finsh
