import Mathlib.Data.List.Basic

/-!
# Labelled transition systems and their runs

A run records every step it takes, newest first, so that statements about whole
histories are statements about a list.  The two rules at the end are the ones the
models use: an inductive invariant holds in every reachable state, and a property
whose preservation is decided by a condition on each step holds throughout a run
exactly when every step of the run meets that condition.
-/

section

universe u v

/-- A transition system whose steps are labelled with events. -/
structure TransitionSystem (State : Type u) (Event : Type v) where
  initial : State → Prop
  step : State → Event → State → Prop

namespace TransitionSystem

/-- One step of a run: the state it starts in, its label, the state it ends in. -/
structure Taken (State : Type u) (Event : Type v) where
  before : State
  event : Event
  after : State

variable {State : Type u} {Event : Type v}

/-- `system.Run taken last`: the steps `taken` (newest first) lead from an initial
state to `last`. -/
inductive Run (system : TransitionSystem State Event) :
    List (Taken State Event) → State → Prop where
  | start {s : State} : system.initial s → Run system [] s
  | next {taken : List (Taken State Event)} {s after : State} {event : Event} :
      Run system taken s → system.step s event after →
      Run system (⟨s, event, after⟩ :: taken) after

def Reachable (system : TransitionSystem State Event) (s : State) : Prop :=
  ∃ taken, system.Run taken s

/-- `property` holds in every state a run passes through, the last one included. -/
def Throughout (property : State → Prop) (taken : List (Taken State Event))
    (last : State) : Prop :=
  property last ∧ ∀ step ∈ taken, property step.before

theorem Throughout.imp {property other : State → Prop}
    (implies : ∀ s, property s → other s) {taken : List (Taken State Event)}
    {last : State} (throughout : Throughout property taken last) : Throughout other taken last :=
  ⟨implies _ throughout.1, fun step mem => implies _ (throughout.2 step mem)⟩

instance (property : State → Prop) [∀ s, Decidable (property s)]
    (taken : List (Taken State Event)) (last : State) :
    Decidable (Throughout property taken last) := instDecidableAnd

/-- Every step of a run meets `condition`, a condition on the state before the step
and on its event. -/
def EveryStep (condition : State → Event → Prop)
    (taken : List (Taken State Event)) : Prop :=
  ∀ step ∈ taken, condition step.before step.event

instance (condition : State → Event → Prop) [∀ s event, Decidable (condition s event)]
    (taken : List (Taken State Event)) : Decidable (EveryStep condition taken) :=
  inferInstanceAs (Decidable (∀ _ ∈ _, _))

def ofFunction (initial : State → Prop) (step : State → Event → Option State) :
    TransitionSystem State Event where
  initial := initial
  step s event after := step s event = some after

def execute (step : State → Event → Option State) : State → List Event → Option State
  | s, [] => some s
  | s, event :: events => (step s event).bind fun after => execute step after events

theorem execute_append {step : State → Event → Option State} (a second : List Event)
    (s : State) : execute step s (a ++ second) =
      (execute step s a).bind fun middle => execute step middle second := by
  induction a generalizing s with
  | nil => rfl
  | cons e a ih =>
    rw [List.cons_append, execute, execute, Option.bind_assoc]
    exact congrArg _ (funext fun s' => ih s')

/-- The steps that `execute` takes, put in front of those already taken. -/
def record (step : State → Event → Option State) (taken : List (Taken State Event)) :
    State → List Event → List (Taken State Event)
  | _, [] => taken
  | s, event :: events =>
    match step s event with
    | some after => record step (⟨s, event, after⟩ :: taken) after events
    | none => taken

variable {system : TransitionSystem State Event}

theorem Run.reachable {taken : List (Taken State Event)} {s : State}
    (run : system.Run taken s) : system.Reachable s := ⟨taken, run⟩

theorem Run.step_of_mem {taken : List (Taken State Event)} {last : State}
    (run : system.Run taken last) {step : Taken State Event} (mem : step ∈ taken) :
    system.step step.before step.event step.after := by
  induction run with
  | start _ => simp at mem
  | next _ ran ih =>
    rcases List.mem_cons.mp mem with rfl | earlier
    · exact ran
    · exact ih earlier

theorem Run.invariant {property : State → Prop} (base : ∀ s, system.initial s → property s)
    (preserved : ∀ s e s', property s → system.step s e s' → property s')
    {taken : List (Taken State Event)} {last : State} (run : system.Run taken last) :
    property last := by
  induction run with
  | start isInitial => exact base _ isInitial
  | next _ taken ih => exact preserved _ _ _ ih taken

theorem Reachable.invariant {property : State → Prop} (base : ∀ s, system.initial s → property s)
    (preserved : ∀ s e s', property s → system.step s e s' → property s')
    {s : State} (reachable : system.Reachable s) : property s := by
  obtain ⟨taken, run⟩ := reachable
  exact run.invariant base preserved

theorem Run.throughout_iff_everyStep_while {inv property : State → Prop}
    {cond : State → Event → Prop} (base : ∀ s, system.initial s → inv s ∧ property s)
    (kept : ∀ s e s', inv s → property s → cond s e → system.step s e s' → inv s')
    (exact : ∀ s e s', inv s → property s → system.step s e s' → (property s' ↔ cond s e))
    {taken : List (Taken State Event)} {last : State} (run : system.Run taken last) :
    Throughout property taken last ↔ EveryStep cond taken := by
  suffices both : (EveryStep cond taken → inv last) ∧
      (Throughout property taken last ↔ EveryStep cond taken) from both.2
  induction run with
  | start isInitial =>
    obtain ⟨holds, atStart⟩ := base _ isInitial
    simp [Throughout, EveryStep, holds, atStart]
  | @next taken s s' e earlier step ih =>
    obtain ⟨invLast, throughoutIff⟩ := ih
    have both : EveryStep cond (⟨s, e, s'⟩ :: taken) ↔
        cond s e ∧ EveryStep cond taken := List.forall_mem_cons
    refine ⟨?_, ?_⟩
    · intro every
      obtain ⟨meets, every⟩ := both.mp every
      exact kept _ _ _ (invLast every) (throughoutIff.mpr every).1 meets step
    · have split : Throughout property (⟨s, e, s'⟩ :: taken) s' ↔
          property s' ∧ Throughout property taken s :=
        and_congr_right fun _ => List.forall_mem_cons
      rw [split, both, throughoutIff]
      refine and_congr_left fun every => ?_
      exact exact _ _ _ (invLast every) (throughoutIff.mpr every).1 step

theorem Run.throughout_iff_everyStep {inv property : State → Prop} {cond : State → Event → Prop}
    (invBase : ∀ s, system.initial s → inv s) (invPreserved : ∀ s e s', inv s →
      system.step s e s' → inv s') (base : ∀ s, system.initial s → property s)
    (exact : ∀ s e s', inv s → property s → system.step s e s' → (property s' ↔ cond s e))
    {taken : List (Taken State Event)} {last : State} (run : system.Run taken last) :
    Throughout property taken last ↔ EveryStep cond taken :=
  run.throughout_iff_everyStep_while (fun s init => ⟨invBase s init, base s init⟩)
    (fun s e s' holds _ _ => invPreserved s e s' holds) exact

theorem Run.everyTaken_iff_everyStep {inv : State → Prop} {correct : Taken State Event → Prop}
    {cond : State → Event → Prop} (base : ∀ s, system.initial s → inv s)
    (kept : ∀ s e s', inv s → cond s e → system.step s e s' → inv s')
    (exact : ∀ s e s', inv s → system.step s e s' → (correct ⟨s, e, s'⟩ ↔ cond s e))
    {taken : List (Taken State Event)} {last : State} (run : system.Run taken last) :
    (∀ step ∈ taken, correct step) ↔ EveryStep cond taken := by
  suffices both : (EveryStep cond taken → inv last) ∧
      ((∀ step ∈ taken, correct step) ↔ EveryStep cond taken) from both.2
  induction run with
  | start isInitial => simp [EveryStep, base _ isInitial]
  | @next taken s s' e earlier step ih =>
    obtain ⟨invLast, correctIff⟩ := ih
    have both : EveryStep cond (⟨s, e, s'⟩ :: taken) ↔
        cond s e ∧ EveryStep cond taken := List.forall_mem_cons
    refine ⟨?_, ?_⟩
    · intro every
      obtain ⟨meets, every⟩ := both.mp every
      exact kept _ _ _ (invLast every) meets step
    · rw [both, List.forall_mem_cons, correctIff]
      exact and_congr_left fun every => exact _ _ _ (invLast every) step

theorem Run.throughout_of_assumed {property assumed : State → Prop}
    (base : ∀ s, system.initial s → property s)
    (preserved : ∀ s e s', property s → assumed s' → system.step s e s' → property s')
    {taken : List (Taken State Event)} {last : State} (run : system.Run taken last)
    (assumption : Throughout assumed taken last) : Throughout property taken last := by
  induction run with
  | start isInitial => exact ⟨base _ isInitial, by simp⟩
  | @next taken s s' e earlier step ih =>
    obtain ⟨atLast, before⟩ := assumption
    obtain ⟨atState, before⟩ := List.forall_mem_cons.mp before
    obtain ⟨holds, throughout⟩ := ih ⟨atState, before⟩
    exact ⟨preserved _ _ _ holds atLast step, List.forall_mem_cons.mpr ⟨holds, throughout⟩⟩

theorem Run.throughout_of_everyStep {property : State → Prop} {cond : State → Event → Prop}
    (base : ∀ s, system.initial s → property s)
    (preserved : ∀ s e s', property s → cond s e → system.step s e s' → property s')
    {taken : List (Taken State Event)} {last : State} (run : system.Run taken last)
    (every : EveryStep cond taken) : Throughout property taken last := by
  induction run with
  | start isInitial => exact ⟨base _ isInitial, by simp⟩
  | @next taken s s' e earlier step ih =>
    obtain ⟨meets, every⟩ := List.forall_mem_cons.mp every
    obtain ⟨holds, throughout⟩ := ih every
    exact ⟨preserved _ _ _ holds meets step, List.forall_mem_cons.mpr ⟨holds, throughout⟩⟩

theorem Run.execute {init : State → Prop} {step : State → Event → Option State}
    {events : List Event} {taken : List (Taken State Event)} {s last : State}
    (run : (ofFunction init step).Run taken s)
    (result : TransitionSystem.execute step s events = some last) :
    (ofFunction init step).Run (record step taken s events) last := by
  induction events generalizing taken s with
  | nil =>
    simp only [TransitionSystem.execute, Option.some.injEq] at result
    subst result
    exact run
  | cons e events ih =>
    simp only [TransitionSystem.execute, Option.bind_eq_some_iff] at result
    obtain ⟨s', ran, rest⟩ := result
    simp only [record, ran]
    exact ih (run.next ran) rest

theorem Run.executed {init : State → Prop} {step : State → Event → Option State} (s : State)
    (events : List Event) (isInitial : init s)
    (ran : (TransitionSystem.execute step s events).isSome) :
    (ofFunction init step).Run (record step [] s events)
      ((TransitionSystem.execute step s events).get ran) :=
  .execute (.start isInitial) (Option.some_get ran).symm

end TransitionSystem

end

/-!
## Machines that answer operations

A machine takes operations one after another and answers each.
-/

section

universe u v w

namespace Machine

variable {State Abstract : Type u} {Operation : Type v} {Answer : Type w}

/-- The state after a list of operations, and the answers to them in order. -/
def run (perform : State → Operation → State × Answer) (s : State) :
    List Operation → State × List Answer
  | [] => (s, [])
  | operation :: operations =>
    let (after, answer) := perform s operation
    let (last, answers) := run perform after operations
    (last, answer :: answers)

theorem run_simulates {perform : State → Operation → State × Answer}
    {specified : Abstract → Operation → Abstract × Answer} {related : State → Abstract → Prop}
    (forward : ∀ s abstract op, related s abstract →
      related (perform s op).1 (specified abstract op).1 ∧
        (perform s op).2 = (specified abstract op).2)
    (operations : List Operation) {s : State} {abstract : Abstract} (start : related s abstract) :
    related (run perform s operations).1 (run specified abstract operations).1 ∧
      (run perform s operations).2 = (run specified abstract operations).2 := by
  induction operations generalizing s abstract with
  | nil => exact ⟨start, rfl⟩
  | cons op operations ih =>
    obtain ⟨afterRelated, sameAnswer⟩ := forward s abstract op start
    obtain ⟨lastRelated, sameAnswers⟩ := ih afterRelated
    refine ⟨lastRelated, ?_⟩
    simp only [run]
    rw [sameAnswer, sameAnswers]

end Machine

end
