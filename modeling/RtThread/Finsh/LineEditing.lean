import RtThread.Finsh.Editor

/-!
# The shell against the ideal line editor

As long as the text fits, every key leads the shell to the line, the cursor and the history of the
ideal editor.
-/

namespace RtThread.Finsh

open TextBuffer

/-- The shell holds what the editor does, with zeros behind every text. -/
structure Represents (shell : FinshShell) (editor : Editor) : Prop where
  stat : shell.stat = editor.stat
  line : shell.line = padded finshCmdSize editor.text
  position : shell.linePosition = editor.text.length
  curpos : shell.lineCurpos = editor.before.length
  fits : editor.text.length < finshCmdSize
  nonzero : 0 ∉ editor.text
  rows : ∃ spare, shell.cmdHistory = editor.history.map (padded finshCmdSize) ++ spare ∧
    editor.history.length + spare.length = finshHistoryLines
  count : shell.historyCount = editor.history.length
  entries : ∀ entry ∈ editor.history, entry.length < finshCmdSize ∧ 0 ∉ entry
  browsing : shell.currentHistory = editor.browsing
  within : editor.browsing ≤ editor.history.length
  executed : shell.executed =
    editor.executed.map fun text => (padded finshCmdSize text, text.length)
  finished : ∀ text ∈ editor.executed, text.length < finshCmdSize

theorem represents_empty : Represents .empty .empty where
  stat := rfl
  line := rfl
  position := rfl
  curpos := rfl
  fits := by decide
  nonzero := List.not_mem_nil
  rows := ⟨_, rfl, rfl⟩
  count := rfl
  entries := by simp [Editor.empty]
  browsing := rfl
  within := Nat.le_refl 0
  executed := rfl
  finished := by simp [Editor.empty]

/-- An operation of the shell ends, in a state that represents `editor`. -/
def LeadsTo (result : Option FinshShell) (editor : Editor) : Prop :=
  ∃ shell, result = some shell ∧ Represents shell editor

namespace Represents

variable {shell : FinshShell} {editor : Editor}

section

variable (represents : Represents shell editor)

include represents

theorem retype (before after : List UInt8) (fits : (before ++ after).length < finshCmdSize)
    (nonzero : 0 ∉ before ++ after) : Represents
      { shell with
        line := padded finshCmdSize (before ++ after)
        linePosition := (before ++ after).length
        lineCurpos := before.length }
      { editor with before, after } :=
  { represents with line := rfl, position := rfl, curpos := rfl, fits, nonzero }

theorem row_eq {i : Nat} (within : i < editor.history.length) :
    shell.row i = padded finshCmdSize (editor.history.getD i []) := by
  obtain ⟨spare, rows, _⟩ := represents.rows
  have inMap : i < (editor.history.map (padded finshCmdSize)).length := by simpa using within
  simp [FinshShell.row, rows, List.getElem?_append_left inMap, within]

theorem recallLine {i : Nat} (within : i < editor.history.length) :
    LeadsTo (shell.recallLine i) (editor.recallLine i) := by
  have entry := represents.entries (editor.history.getD i [])
    (by simp [within])
  have text : (editor.recallLine i).text = editor.history.getD i [] := List.append_nil _
  have after : shell.recallLine i = some
      { shell with
        currentHistory := i
        line := padded finshCmdSize (editor.recallLine i).text
        linePosition := (editor.recallLine i).text.length
        lineCurpos := (editor.recallLine i).before.length } := by
    rw [FinshShell.recallLine, represents.row_eq within, measured,
      strlen?_padded entry.1 entry.2, text]
    rfl
  exact ⟨_, after, { represents with
    line := rfl, position := rfl, curpos := rfl, browsing := rfl
    fits := text ▸ entry.1, nonzero := text ▸ entry.2, within := Nat.le_of_lt within }⟩

theorem up : LeadsTo shell.upKey
      (if 0 < editor.browsing then editor.recallLine (editor.browsing - 1) else editor) := by
  rw [FinshShell.upKey, represents.browsing]
  have within := represents.within
  split
  · next positive => exact represents.recallLine (by omega)
  · exact ⟨shell, rfl, represents⟩

theorem down : LeadsTo shell.downKey
      (if editor.browsing + 1 < editor.history.length then editor.recallLine (editor.browsing + 1)
        else if editor.history ≠ [] then editor.recallLine (editor.history.length - 1)
        else editor) := by
  rw [FinshShell.downKey, represents.browsing, represents.count]
  split
  · next within => exact represents.recallLine within
  · by_cases nonempty : editor.history = []
    · rw [if_neg (by simp [nonempty]), if_neg (by simp [nonempty])]
      exact ⟨shell, rfl, represents⟩
    · have positive := List.length_pos_iff.mpr nonempty
      rw [if_pos (Nat.ne_of_gt positive), if_pos nonempty]
      exact represents.recallLine (by omega)

theorem storeHistory (rows : List (List UInt8)) (i : Nat) :
    shell.storeHistory rows i = some (rows.set i (padded finshCmdSize editor.text)) := by
  have copied : overwrite? (List.replicate finshCmdSize 0) 0 editor.text =
      some (padded finshCmdSize editor.text) :=
    @extend_padded _ _ finshCmdSize [] [] editor.text (Nat.zero_le _)
      (Nat.le_of_lt represents.fits)
  rw [FinshShell.storeHistory, represents.line, represents.position, take_padded, copied]
  rfl

end

end Represents

theorem foldl_move (rows : List (List UInt8)) {n : Nat} (within : n < rows.length) :
    (List.range n).foldl (fun rows i => rows.set i (rows.getD (i + 1) [])) rows =
      rows.tail.take n ++ rows.drop n := by
  induction n with
  | zero => simp
  | succ n ih =>
    rw [List.range_succ, List.foldl_append, ih (Nat.lt_of_succ_lt within)]
    have length_eq : (rows.tail.take n).length = n := by
      simp only [List.length_take, List.length_tail]
      omega
    have atNext : (rows.tail.take n ++ rows.drop n).getD (n + 1) [] = rows[n + 1] := by
      simp [List.getElem?_append_right, length_eq, within]
    have dropped : rows.drop n = rows[n] :: rows.drop (n + 1) := List.drop_eq_getElem_cons _
    have taken : rows.tail.take (n + 1) = rows.tail.take n ++ [rows[n + 1]] := by
      rw [List.take_add_one]
      simp
    rw [List.foldl_cons, List.foldl_nil, atNext, dropped, taken]
    rw [List.set_append_right _ _ (Nat.le_of_eq length_eq), length_eq, Nat.sub_self,
      List.set_cons_zero, List.append_assoc]
    rfl

namespace Represents

variable {shell : FinshShell} {editor : Editor}

section

variable (represents : Represents shell editor)

include represents

theorem store_next (room : editor.history.length < finshHistoryLines) :
    ∃ spare, shell.cmdHistory.set editor.history.length (padded finshCmdSize editor.text) =
        (editor.history ++ [editor.text]).map (padded finshCmdSize) ++ spare ∧
      (editor.history ++ [editor.text]).length + spare.length = finshHistoryLines := by
  obtain ⟨spare, rows, lengths⟩ := represents.rows
  cases spare with
  | nil => exact absurd room (by simp at lengths; omega)
  | cons a spare =>
    refine ⟨spare, ?_, ?_⟩
    · rw [rows, List.set_append_right _ _ (by simp)]
      simp
    · simp only [List.length_append, List.length_cons, List.length_nil] at lengths ⊢
      omega

theorem store_last (full : editor.history.length = finshHistoryLines) :
    shell.moveHistory.set (finshHistoryLines - 1) (padded finshCmdSize editor.text) =
      (editor.history.tail ++ [editor.text]).map (padded finshCmdSize) := by
  obtain ⟨spare, rows, lengths⟩ := represents.rows
  have noSpare : spare = [] := List.eq_nil_of_length_eq_zero (by omega)
  have rows_eq : shell.cmdHistory = editor.history.map (padded finshCmdSize) := by
    rw [rows, noSpare, List.append_nil]
  have within : finshHistoryLines - 1 < shell.cmdHistory.length := by
    rw [rows_eq, List.length_map, full]
    decide
  have tail_length : shell.cmdHistory.tail.length = finshHistoryLines - 1 := by
    rw [rows_eq, List.length_tail, List.length_map, full]
  have dropped : shell.cmdHistory.drop (finshHistoryLines - 1) =
      [shell.cmdHistory[finshHistoryLines - 1]] := by
    rw [List.drop_eq_getElem_cons within, List.drop_eq_nil_of_le]
    rw [rows_eq, List.length_map, full]
    decide
  rw [FinshShell.moveHistory, foldl_move _ within, ← tail_length, List.take_length, tail_length,
    dropped, List.set_append_right _ _ (Nat.le_of_eq tail_length), tail_length, Nat.sub_self,
    List.set_cons_zero, rows_eq, List.map_append, List.map_tail]
  rfl

theorem row_last_eq_iff (nonempty : editor.history ≠ []) :
    shell.row (editor.history.length - 1) = shell.line ↔
      editor.history.getLast? = some editor.text := by
  have positive := List.length_pos_iff.mpr nonempty
  have entry := represents.entries (editor.history.getLast nonempty) (List.getLast_mem nonempty)
  have last : editor.history.getD (editor.history.length - 1) [] =
      editor.history.getLast nonempty := by
    rw [List.getLast_eq_getElem, List.getD_eq_getElem?_getD, List.getElem?_eq_getElem (by omega),
      Option.getD_some]
  rw [represents.row_eq (by omega), represents.line, last,
    padded_injective entry.2 represents.nonzero, List.getLast?_eq_some_getLast nonempty,
    Option.some.injEq]

theorem pushed_eq (nonempty : editor.text ≠ []) :
    ∃ rows, shell.pushed = some (rows, (Editor.remember editor.text editor.history).length) ∧
      ∃ spare, rows = (Editor.remember editor.text editor.history).map (padded finshCmdSize) ++
          spare ∧
        (Editor.remember editor.text editor.history).length + spare.length = finshHistoryLines := by
  obtain ⟨spare, rows, lengths⟩ := represents.rows
  rw [FinshShell.pushed, represents.count, Editor.remember]
  by_cases full : finshHistoryLines ≤ editor.history.length
  · have exactly : editor.history.length = finshHistoryLines := by omega
    have some_history : editor.history ≠ [] := by
      intro isEmpty
      rw [isEmpty] at exactly
      exact absurd exactly (by decide)
    have same := represents.row_last_eq_iff some_history
    rw [exactly] at same
    by_cases isLast : editor.history.getLast? = some editor.text
    · rw [if_pos full, if_neg (not_not.mpr (same.mpr isLast)), if_pos (.inr isLast)]
      exact ⟨_, rfl, spare, rows, lengths⟩
    · have length_eq : (editor.history.tail ++ [editor.text]).length = finshHistoryLines := by
        simp only [List.length_append, List.length_tail, exactly]
        rfl
      rw [if_pos full, if_pos (isLast ∘ same.mp), if_neg (not_or.mpr ⟨nonempty, isLast⟩),
        if_neg (Nat.not_lt.mpr full), represents.storeHistory, length_eq]
      exact ⟨_, rfl, [], by rw [represents.store_last exactly, List.append_nil], rfl⟩
  · have room : editor.history.length < finshHistoryLines := Nat.lt_of_not_le full
    rw [if_neg full]
    by_cases isLast : editor.history.getLast? = some editor.text
    · have some_history : editor.history ≠ [] := by
        intro isEmpty
        rw [isEmpty] at isLast
        exact absurd isLast.symm (Option.some_ne_none _)
      have positive := List.length_pos_iff.mpr some_history
      have same := (represents.row_last_eq_iff some_history).mpr isLast
      rw [if_neg (not_or.mpr ⟨Nat.ne_of_gt positive, not_not.mpr same⟩), if_pos (.inr isLast)]
      exact ⟨_, rfl, spare, rows, lengths⟩
    · have stored : editor.history.length = 0 ∨
          shell.row (editor.history.length - 1) ≠ shell.line := by
        rcases Nat.eq_zero_or_pos editor.history.length with none | positive
        · exact .inl none
        · exact .inr (isLast ∘ (represents.row_last_eq_iff (List.length_pos_iff.mp positive)).mp)
      rw [if_pos stored, if_neg (not_or.mpr ⟨nonempty, isLast⟩), if_pos room,
        represents.storeHistory, List.length_append, List.length_singleton]
      obtain ⟨spare, next, lengths⟩ := represents.store_next room
      exact ⟨_, rfl, spare, next, by simpa using lengths⟩

end

theorem mem_remember {line entry : List UInt8} {history : List (List UInt8)}
    (mem : entry ∈ Editor.remember line history) : entry = line ∨ entry ∈ history := by
  rw [Editor.remember] at mem
  split at mem
  · exact .inr mem
  · split at mem
    · rcases List.mem_append.mp mem with earlier | isLine
      · exact .inr earlier
      · exact .inl (List.mem_singleton.mp isLine)
    · rcases List.mem_append.mp mem with earlier | isLine
      · exact .inr (List.mem_of_mem_tail earlier)
      · exact .inl (List.mem_singleton.mp isLine)

section

variable (represents : Represents shell editor)

include represents

theorem pushHistory : LeadsTo shell.shellPushHistory
      { editor with
        history := Editor.remember editor.text editor.history
        browsing := (Editor.remember editor.text editor.history).length } := by
  have entries : ∀ entry ∈ Editor.remember editor.text editor.history,
      entry.length < finshCmdSize ∧ 0 ∉ entry := by
    intro entry mem
    rcases mem_remember mem with rfl | earlier
    · exact ⟨represents.fits, represents.nonzero⟩
    · exact represents.entries entry earlier
  by_cases empty : editor.text = []
  · have noText : shell.linePosition = 0 := by
      rw [represents.position, empty]
      rfl
    have remembered : Editor.remember editor.text editor.history = editor.history := by
      rw [Editor.remember, if_pos (.inl empty)]
    rw [FinshShell.shellPushHistory, if_neg (not_not.mpr noText), remembered]
    exact ⟨_, rfl, { represents with browsing := represents.count, within := Nat.le_refl _ }⟩
  · have someText : shell.linePosition ≠ 0 := by
      rw [represents.position]
      exact Nat.ne_of_gt (List.length_pos_iff.mpr empty)
    obtain ⟨rows, pushed, rows_eq⟩ := represents.pushed_eq empty
    rw [FinshShell.shellPushHistory, if_pos someText, pushed]
    exact ⟨_, rfl, { represents with
      rows := rows_eq, count := rfl, entries, browsing := rfl, within := Nat.le_refl _ }⟩

section

variable (env : Surroundings)

include env

theorem enter : LeadsTo shell.enterKey (editor.press env .enter) := by
  obtain ⟨remembered, pushed, after⟩ := represents.pushHistory
  have call : (remembered.line, remembered.linePosition) =
      (padded finshCmdSize editor.text, editor.text.length) :=
    Prod.ext after.line after.position
  have executed : remembered.executed ++ [(remembered.line, remembered.linePosition)] =
      (editor.executed ++ [editor.text]).map
        fun text => (padded finshCmdSize text, text.length) := by
    rw [call, after.executed, List.map_append]
    rfl
  have finished : ∀ text ∈ editor.executed ++ [editor.text], text.length < finshCmdSize := by
    intro text mem
    rcases List.mem_append.mp mem with earlier | isText
    · exact represents.finished text earlier
    · rw [List.mem_singleton.mp isText]
      exact represents.fits
  rw [FinshShell.enterKey, pushed]
  exact ⟨_, rfl, { after with
    line := rfl, position := rfl, curpos := rfl, fits := Nat.zero_lt_succ 79, nonzero :=
      List.not_mem_nil
    executed, finished }⟩

theorem left : Represents shell.leftKey (editor.press env .left) := by
  have same : (editor.press env .left).text = editor.text := by
    rcases List.eq_nil_or_concat editor.before with empty | ⟨before, last, split⟩
    · simp [Editor.press, Editor.text, empty]
    · simp [Editor.press, Editor.text, split]
  have moved : shell.leftKey = { shell with lineCurpos := editor.before.length - 1 } := by
    rw [FinshShell.leftKey, represents.curpos]
    split
    · rfl
    · rename_i atStart
      have unmoved : editor.before.length - 1 = shell.lineCurpos := by
        rw [represents.curpos, not_not.mp atStart]
      rw [unmoved]
  rw [moved]
  exact { represents with
    line := same ▸ represents.line, position := same ▸ represents.position
    curpos := List.length_dropLast.symm
    fits := same ▸ represents.fits, nonzero := same ▸ represents.nonzero }

theorem right : Represents shell.rightKey (editor.press env .right) := by
  cases after : editor.after with
  | nil =>
    have atEnd : shell.lineCurpos = shell.linePosition := by
      rw [represents.curpos, represents.position, Editor.text, after, List.append_nil]
    have unchanged : editor.press env .right = editor := by
      simp only [Editor.press, after, List.head?_nil, Option.toList_none, List.append_nil,
        List.tail_nil]
      rw [← after]
    rw [FinshShell.rightKey, if_neg (by omega), unchanged]
    exact represents
  | cons c rest =>
    have inside : shell.lineCurpos < shell.linePosition := by
      rw [represents.curpos, represents.position, Editor.text, after, List.length_append,
        List.length_cons]
      omega
    have same : (editor.press env .right).text = editor.text := by
      simp [Editor.press, Editor.text, after]
    have cursor : shell.lineCurpos + 1 = (editor.press env .right).before.length := by
      simp [Editor.press, after, represents.curpos]
    rw [FinshShell.rightKey, if_pos inside]
    exact { represents with
      line := same ▸ represents.line, position := same ▸ represents.position, curpos := cursor
      fits := same ▸ represents.fits, nonzero := same ▸ represents.nonzero }

theorem backspace : LeadsTo shell.backspaceKey (editor.press env .backspace) := by
  rcases List.eq_nil_or_concat editor.before with empty | ⟨before, last, split⟩
  · have atStart : shell.lineCurpos = 0 := by
      rw [represents.curpos, empty]
      rfl
    have unchanged : editor.press env .backspace = editor := by
      simp only [Editor.press, empty, List.dropLast_nil]
      rw [← empty]
    rw [FinshShell.backspaceKey, if_pos atStart, unchanged]
    exact ⟨shell, rfl, represents⟩
  · have text : editor.text = before ++ last :: editor.after := by simp [Editor.text, split]
    have curpos : shell.lineCurpos = before.length + 1 := by simp [represents.curpos, split]
    have position : shell.linePosition = before.length + editor.after.length + 1 := by
      rw [represents.position, text, List.length_append, List.length_cons]
      omega
    have fits := represents.fits
    have nonzero := represents.nonzero
    rw [text] at fits nonzero
    have erased : (if before.length < before.length + editor.after.length then
        (memmove? (padded finshCmdSize (before ++ last :: editor.after)) before.length
          (before.length + 1) (before.length + editor.after.length - before.length)).bind
            (overwrite? · (before.length + editor.after.length) [0])
        else overwrite? (padded finshCmdSize (before ++ last :: editor.after))
          (before.length + editor.after.length) [0]) =
          some (padded finshCmdSize (before ++ editor.after)) := by
      rw [Nat.add_sub_cancel_left]
      split
      · exact erase_padded last (Nat.le_of_lt fits)
      · rename_i atEnd
        have none : editor.after = [] := List.eq_nil_of_length_eq_zero (by omega)
        rw [none] at fits ⊢
        rw [List.append_nil]
        exact erase_last_padded last (Nat.le_of_lt fits)
    have result : editor.press env .backspace = { editor with before } := by
      simp [Editor.press, split]
    have shorter : (before ++ editor.after).length < finshCmdSize := by
      simp only [List.length_append, List.length_cons] at fits ⊢
      omega
    have nonzero' : 0 ∉ before ++ editor.after := by
      simp only [List.mem_append, List.mem_cons, not_or] at nonzero ⊢
      exact ⟨nonzero.1, nonzero.2.2⟩
    refine ⟨_, ?_, result ▸ represents.retype before editor.after shorter nonzero'⟩
    rw [FinshShell.backspaceKey, if_neg (by omega), represents.line, text, position, curpos]
    simp only [Nat.add_sub_cancel, erased, Option.map_some, List.length_append]

end

theorem stored (ch : UInt8) : (if shell.lineCurpos < shell.linePosition then
      (memmove? shell.line (shell.lineCurpos + 1) shell.lineCurpos
        (shell.linePosition - shell.lineCurpos)).bind (overwrite? · shell.lineCurpos [ch])
      else overwrite? shell.line shell.linePosition [ch]) =
      some (padded finshCmdSize (editor.before ++ ch :: editor.after)) := by
  have text : editor.text = editor.before ++ editor.after := rfl
  have fits := represents.fits
  rw [text] at fits
  have position : shell.linePosition = editor.before.length + editor.after.length := by
    rw [represents.position, text, List.length_append]
  rw [represents.line, represents.curpos, position, text, Nat.add_sub_cancel_left]
  split
  · exact insert_padded ch fits
  · rename_i atEnd
    have none : editor.after = [] := List.eq_nil_of_length_eq_zero (by omega)
    rw [none, List.append_nil] at fits
    have longer : (editor.before ++ [ch]).length ≤ finshCmdSize := by
      rw [List.length_append, List.length_singleton]
      exact fits
    rw [none, List.append_nil]
    have extended := @extend_padded _ _ finshCmdSize editor.before [] [ch] (Nat.zero_le 1) longer
    rwa [List.append_nil] at extended

theorem normalCharacter_eq (ch : UInt8) : shell.normalCharacter ch = some
      (if finshCmdSize ≤ editor.text.length + 1 then
        { shell with
          line := padded finshCmdSize (editor.before ++ ch :: editor.after)
          linePosition := 0
          lineCurpos := 0 }
      else
        { shell with
          line := padded finshCmdSize (editor.before ++ ch :: editor.after)
          linePosition := editor.text.length + 1
          lineCurpos := editor.before.length + 1 }) := by
  have below : ¬ finshCmdSize ≤ shell.linePosition := by
    rw [represents.position]
    exact Nat.not_le.mpr represents.fits
  rw [FinshShell.normalCharacter, if_neg below, represents.stored]
  simp only [Option.map_some, represents.position, represents.curpos]

theorem character (env : Surroundings) {ch : UInt8} (ordinary : ch ≠ 0)
    (room : editor.text.length + 1 < finshCmdSize) :
    LeadsTo (shell.normalCharacter ch) (editor.press env (.character ch)) := by
  have typed : (editor.before ++ [ch]) ++ editor.after = editor.before ++ ch :: editor.after := by
    simp
  have length_eq : ((editor.before ++ [ch]) ++ editor.after).length = editor.text.length + 1 := by
    rw [typed, Editor.text, List.length_append, List.length_append, List.length_cons]
    omega
  have nonzero : 0 ∉ (editor.before ++ [ch]) ++ editor.after := by
    have earlier := represents.nonzero
    simp only [Editor.text, List.mem_append, List.mem_singleton, not_or] at earlier ⊢
    exact ⟨⟨earlier.1, ordinary.symm⟩, earlier.2⟩
  have fits : ((editor.before ++ [ch]) ++ editor.after).length < finshCmdSize := by rwa [length_eq]
  have result : editor.press env (.character ch) =
      { editor with before := editor.before ++ [ch] } :=
    if_pos fits
  refine ⟨_, ?_, result ▸ represents.retype (editor.before ++ [ch]) editor.after fits nonzero⟩
  rw [represents.normalCharacter_eq, if_neg (Nat.not_le.mpr room), length_eq, typed,
    List.length_append, List.length_singleton]

theorem tab {env : Surroundings} (room : (completed env editor.text).length < finshCmdSize) :
    LeadsTo (shell.tabKey env) (editor.press env .tab) := by
  have nonzero : 0 ∉ completed env editor.text := zero_notMem_completed represents.nonzero
  have same : completed env editor.text ++ [] = completed env editor.text := List.append_nil _
  have fits : (completed env editor.text ++ []).length < finshCmdSize := by rwa [same]
  have result : editor.press env .tab =
      { editor with before := completed env editor.text, after := [] } :=
    if_pos fits
  refine ⟨_, ?_, result ▸ represents.retype (completed env editor.text) [] fits
    (same.symm ▸ nonzero)⟩
  rw [FinshShell.tabKey, represents.line, mshAutoComplete_eq represents.nonzero represents.fits,
    if_pos room, same]
  rfl

end

end Represents

end RtThread.Finsh
