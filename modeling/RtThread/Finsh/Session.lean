import RtThread.Library.TransitionSystem
import RtThread.Finsh.LineEditing

/-!
# Sessions at the shell

A session feeds the same bytes to the shell and to the ideal line editor.
-/

open TransitionSystem

namespace RtThread.Finsh

open TextBuffer

def FinshShell.press (shell : FinshShell) (surroundings : Surroundings) : Key → Option FinshShell
  | .ignored => some shell
  | .up => shell.upKey
  | .down => shell.downKey
  | .left => some shell.leftKey
  | .right => some shell.rightKey
  | .tab => shell.tabKey surroundings
  | .backspace => shell.backspaceKey
  | .enter => shell.enterKey
  | .character ch => shell.normalCharacter ch

theorem ordinary_eq (shell : FinshShell) (surroundings : Surroundings) (ch : UInt8) :
    shell.ordinary surroundings ch = shell.press surroundings (plainKey ch) := by
  simp only [FinshShell.ordinary, plainKey]
  repeat' split
  all_goals rfl

theorem finshThreadEntry_eq (shell : FinshShell) (surroundings : Surroundings) (ch : UInt8) :
    shell.finshThreadEntry surroundings ch =
      FinshShell.press { shell with stat := (decode shell.stat ch).1 } surroundings
        (decode shell.stat ch).2 := by
  obtain ⟨stat, currentHistory, historyCount, cmdHistory, line, linePosition, lineCurpos,
    executed⟩ := shell
  cases stat <;> simp only [FinshShell.finshThreadEntry, decode, ordinary_eq] <;>
    repeat' split
  all_goals rfl

theorem plainKey_character {ch typed : UInt8} (key : plainKey ch = .character typed) :
    typed ≠ 0 := by
  rw [plainKey] at key
  repeat' split at key
  all_goals first
    | exact Key.noConfusion key
    | skip
  next ordinary _ _ _ =>
    obtain rfl := Key.character.inj key
    exact fun isZero => ordinary (.inl isZero)

theorem decode_character {stat : InputStat} {ch typed : UInt8}
    (key : (decode stat ch).2 = .character typed) : typed ≠ 0 := by
  have cases_eq : (decode stat ch).2 = plainKey ch ∨ (decode stat ch).2 = .ignored ∨
      (decode stat ch).2 = .up ∨ (decode stat ch).2 = .down ∨ (decode stat ch).2 = .left ∨
      (decode stat ch).2 = .right := by
    cases stat <;> simp only [decode] <;> repeat' split
    all_goals simp
  rcases cases_eq with plain | u | u | u | u | u
  · exact plainKey_character (plain ▸ key)
  all_goals exact Key.noConfusion (u.symm.trans key)

variable {shell : FinshShell} {editor : Editor} {surroundings : Surroundings} {key : Key}

theorem Represents.press (rep : Represents shell editor)
    (ordinary : ∀ ch, key = .character ch → ch ≠ 0) (fits : Fits surroundings editor.text key) :
    LeadsTo (shell.press surroundings key) (editor.press surroundings key) := by
  cases key with
  | ignored => exact ⟨shell, rfl, rep⟩
  | up => exact rep.up
  | down => exact rep.down
  | left => exact ⟨_, rfl, rep.left surroundings⟩
  | right => exact ⟨_, rfl, rep.right surroundings⟩
  | tab => exact rep.tab fits
  | backspace => exact rep.backspace surroundings
  | enter => exact rep.enter surroundings
  | character ch => exact rep.character surroundings (ordinary ch rfl) fits

theorem Represents.press_of_not_fits (rep : Represents shell editor)
    (ordinary : ∀ ch, key = .character ch → ch ≠ 0)
    (exceeds : ¬ Fits surroundings editor.text key) :
    ∀ s' ∈ shell.press surroundings key, s'.line[s'.linePosition]? ≠ some 0 := by
  intro s' result
  cases key with
  | tab =>
    have tooLong : ¬ (completed surroundings editor.text).length < finshCmdSize := exceeds
    have outside : shell.tabKey surroundings = none := by
      rw [FinshShell.tabKey, rep.line, mshAutoComplete_eq rep.nonzero rep.fits, if_neg tooLong]
      rfl
    exact absurd (outside ▸ result) (Option.not_mem_none s')
  | character ch =>
    have full : ¬ editor.text.length + 1 < finshCmdSize := exceeds
    rw [FinshShell.press, rep.normalCharacter_eq, if_pos (Nat.not_lt.mp full)] at result
    cases result
    intro terminated
    have member := List.mem_of_getElem? terminated
    have noRoom : finshCmdSize - (editor.before ++ ch :: editor.after).length = 0 := by
      have length_eq : editor.text.length = editor.before.length + editor.after.length :=
        List.length_append
      simp only [List.length_append, List.length_cons]
      omega
    have earlier := rep.nonzero
    simp only [padded, noRoom, List.replicate_zero, List.append_nil, Editor.text,
      List.mem_append, List.mem_cons, not_or] at member earlier
    rcases member with before | isZero | behind
    · exact earlier.1 before
    · exact ordinary ch rfl isZero.symm
    · exact earlier.2 behind
  | ignored | up | down | left | right | backspace | enter => exact absurd trivial exceeds

/-- The shell and the ideal editor; `outside` when an access has left the line. -/
structure Session where
  shell : FinshShell
  editor : Editor
  outside : Bool

structure Input where
  ch : UInt8
  surroundings : Surroundings

def Session.start : Session := ⟨.empty, .empty, false⟩

/-- After an access outside the line nothing is known. -/
def Session.step (session : Session) (input : Input) : Option Session :=
  let editor := session.editor.received input.surroundings input.ch
  if session.outside then none
  else
    match session.shell.finshThreadEntry input.surroundings input.ch with
    | some shell => some ⟨shell, editor, false⟩
    | none => some ⟨session.shell, editor, true⟩

def sessions : TransitionSystem Session Input :=
  .ofFunction (· = .start) Session.step

/-- The line holds the text of the ideal editor, terminated inside the buffer, and so did
every line that `msh_exec` was called with. -/
structure EditsExactly (session : Session) : Prop where
  curpos : session.shell.lineCurpos ≤ session.shell.linePosition
  position : session.shell.linePosition < finshCmdSize
  terminated : session.shell.line[session.shell.linePosition]? = some 0
  text : session.shell.line.take session.shell.linePosition = session.editor.text
  inside : session.outside = false
  executed : ∀ call ∈ session.shell.executed, call.1[call.2]? = some 0

def InputFits (session : Session) (input : Input) : Prop :=
  Fits input.surroundings session.editor.text (decode session.editor.stat input.ch).2

instance (session : Session) (input : Input) : Decidable (InputFits session input) :=
  inferInstanceAs (Decidable (Fits _ _ _))

structure InStep (session : Session) : Prop where
  represents : Represents session.shell session.editor
  inside : session.outside = false

variable {session : Session} {input : Input}

theorem InStep.editsExactly (inStep : InStep session) : EditsExactly session := by
  obtain ⟨rep, inside⟩ := inStep
  have text_length : session.editor.text.length =
      session.editor.before.length + session.editor.after.length := List.length_append
  refine ⟨?_, ?_, ?_, ?_, inside, ?_⟩
  · rw [rep.curpos, rep.position, text_length]
    exact Nat.le_add_right _ _
  · rw [rep.position]
    exact rep.fits
  · rw [rep.line, rep.position]
    exact getElem?_padded rep.fits
  · rw [rep.line, rep.position]
    exact take_padded
  · intro call mem
    rw [rep.executed, List.mem_map] at mem
    obtain ⟨text, isText, rfl⟩ := mem
    exact getElem?_padded (rep.finished text isText)

theorem InStep.begin (inStep : InStep session) (stat : InputStat) :
    Represents { session.shell with stat } { session.editor with stat } :=
  { inStep.represents with stat := rfl }

theorem Session.step_eq_some {s' : Session} (step : session.step input = some s') :
    s'.editor = session.editor.received input.surroundings input.ch ∧
      ((session.shell.finshThreadEntry input.surroundings input.ch = some s'.shell ∧
        s'.outside = false) ∨ (session.shell.finshThreadEntry input.surroundings input.ch = none ∧
        s'.outside = true)) := by
  obtain ⟨-, step⟩ := Option.ite_none_left_eq_some.mp step
  split at step
  · rename_i shell r
    cases step
    exact ⟨rfl, .inl ⟨r, rfl⟩⟩
  · rename_i r
    cases step
    exact ⟨rfl, .inr ⟨r, rfl⟩⟩

theorem InStep.step {s' : Session} (inStep : InStep session)
    (fits : InputFits session input) (step : session.step input = some s') : InStep s' := by
  obtain ⟨shell, result, rep⟩ :=
    (inStep.begin (decode session.editor.stat input.ch).1).press
      (fun _ => decode_character) fits
  rw [← inStep.represents.stat, ← finshThreadEntry_eq] at result
  obtain ⟨editor, ⟨taken, inside⟩ | ⟨stuck, _⟩⟩ := Session.step_eq_some step
  · obtain rfl := Option.some.inj (result.symm.trans taken)
    exact ⟨editor ▸ rep, inside⟩
  · exact absurd (result.symm.trans stuck) (Option.some_ne_none _)

theorem InStep.not_editsExactly {s' : Session} (inStep : InStep session)
    (exceeds : ¬ InputFits session input) (step : session.step input = some s') :
    ¬ EditsExactly s' := by
  intro edits
  have unterminated :=
    (inStep.begin (decode session.editor.stat input.ch).1).press_of_not_fits
      (fun _ => decode_character) exceeds
  rw [← inStep.represents.stat, ← finshThreadEntry_eq] at unterminated
  obtain ⟨_, ⟨taken, _⟩ | ⟨_, outside⟩⟩ := Session.step_eq_some step
  · exact unterminated s'.shell taken edits.terminated
  · exact absurd (edits.inside.symm.trans outside) Bool.false_ne_true

/-- The shell edits exactly as the ideal editor does throughout a session exactly when no
byte of it makes a text that fills the command buffer. -/
theorem edits_exactly_throughout_iff {taken : List (Taken Session Input)}
    {last : Session} (run : sessions.Run taken last) : Throughout EditsExactly taken last ↔
      EveryStep InputFits taken := by
  have base : ∀ session, sessions.initial session → InStep session ∧ EditsExactly session := by
    rintro _ rfl
    have inStep : InStep .start := ⟨represents_empty, rfl⟩
    exact ⟨inStep, inStep.editsExactly⟩
  refine run.throughout_iff_everyStep_while base ?_ ?_
  · exact fun session input s' inStep _ fits step => inStep.step fits step
  · intro session input s' inStep _ step
    refine ⟨fun edits => ?_, fun fits => (inStep.step fits step).editsExactly⟩
    exact Decidable.not_not.mp fun exceeds => inStep.not_editsExactly exceeds step edits

/-- A table with the command `ls` alone, and nothing to be opened. -/
def onlyLs : Surroundings where
  syscallTable := [⟨cmdPrefix ++ [0x6c, 0x73], by decide⟩]
  outOfMemory := false
  getcwd := ⟨[slash], by decide⟩
  readdir := fun _ => none

theorem completed_and_recalled_edits_exactly :
    ∃ taken last, sessions.Run taken last ∧ last.shell.executed.length = 1 ∧
      last.editor.text = [0x6c, 0x73] ∧ Throughout EditsExactly taken last := by
  let events : List Input :=
    [0x6c, 0x09, 0x0d, 0x1b, 0x5b, 0x41, 0x1b, 0x5b, 0x44, 0x61, 0x08].map (⟨·, onlyLs⟩)
  have run : sessions.Run _ _ := .executed .start events (by rfl) (by decide +kernel)
  exact ⟨_, _, run, by decide +kernel, by decide +kernel,
    (edits_exactly_throughout_iff run).mpr (by decide +kernel)⟩

/-- A line of as many characters as the buffer has is not cleared. -/
theorem filled_line_not_edits_exactly : ¬ ∀ taken last, sessions.Run taken last →
      Throughout EditsExactly taken last := by
  intro claim
  let events : List Input := List.replicate finshCmdSize ⟨0x61, onlyLs⟩
  have run : sessions.Run _ _ := .executed .start events (by rfl) (by decide +kernel)
  exact absurd (claim _ _ run).1.terminated (by decide +kernel)

end RtThread.Finsh
