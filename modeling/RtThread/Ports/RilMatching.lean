import RtThread.Ports.RilPort
import Mathlib.Data.Fintype.Basic

/-!
# A getter and the response to its own request

The mutex is held from the request until its response has been taken from the semaphore, so that a
value which has been copied comes from the right response.
-/

open Function (update_of_ne update_self)
open TransitionSystem

namespace RtThread.Ril

open Option (bind_eq_some_iff some_get ite_none_right_eq_some)

/-- `rt_nb_cfun_set_get` in its other direction asks for nothing. -/
def Getter.sets : Getter → Bool
  | .cfun direction _ _ => direction = 1
  | _ => false

/-- What the getter asks for is among the parameters. -/
def Getter.finds : Getter → CmdParam → Bool
  | .cgpaddr _, .cgpaddr cidAddr => (cidAddr.find? fun entry => entry.1 = 1).isSome
  | .apn _ _, .cgdcont pdpContext => !pdpContext.isEmpty
  | _, _ => true

def Provides (getter : Getter) : Response → Prop
  | .success (some param) => getter.finds param = true
  | _ => False

def Carries (getter : Getter) : Response → Prop
  | .success (some param) => getter.finds param = true
  | .success none => getter.sets = true
  | _ => False

instance (getter : Getter) : (response : Response) → Decidable (Provides getter response)
  | .success (some param) => inferInstanceAs (Decidable (getter.finds param = true))
  | .success none | .failure | .null => inferInstanceAs (Decidable False)

instance (getter : Getter) : (response : Response) → Decidable (Carries getter response)
  | .success (some param) => inferInstanceAs (Decidable (getter.finds param = true))
  | .success none => inferInstanceAs (Decidable (getter.sets = true))
  | .failure | .null => inferInstanceAs (Decidable False)

def Call.Answered (call : Call) : Prop :=
  match call.callback with
  | .done response => Carries call.getter response
  | _ => False

instance : (call : Call) → Decidable call.Answered
  | ⟨getter, _, .done response⟩ => inferInstanceAs (Decidable (Carries getter response))
  | ⟨_, _, .none⟩ | ⟨_, _, .owed⟩ | ⟨_, _, .begun _⟩ => inferInstanceAs (Decidable False)

def Reports : Getter → Response → Prop
  | .csq out, .success (some (.csq quality)) => out = quality
  | .cesq _ signal, .success (some (.cesq quality)) => signal = quality
  | .cfun direction _ status, .success (some (.cfun functionality)) =>
    direction = 0 → status = functionality
  | .cgpaddr ipAddr, .success (some (.cgpaddr cidAddr)) =>
    ∃ entry, cidAddr.find? (fun entry => entry.1 = 1) = some entry ∧
      (cString entry.2 ++ [0]) <+: ipAddr
  | .cclk buffer, .success (some (.cclk time)) =>
    buffer = rtStrncpy (fun i => time.getD i 0) buffer.length
  | .apn _ apnName, .success (some (.cgdcont (context :: _))) =>
    apnName = rtStrncpy (fun i => if i < rtNbMaxApnName then context i else 0) apnName.length
  | .cereg _ cereg, .success (some (.cereg registration)) => cereg = registration
  | _, _ => True

/-- A call that returns says `RT_EOK` exactly if the response to its request carried what was
asked for, and then reports it. -/
def Matched {Tid : Type} (step : Taken (State Tid) (Event Tid)) : Prop :=
  match step.event with
  | .ret t => ∀ call ∈ step.before.calls t,
      (returnsOk step.before call = true ↔ call.Answered) ∧
      (returnsOk step.before call = true →
        ∀ response, call.callback = .done response → Reports call.getter response)
  | _ => True

def Getter.hasRoom : Getter → Response → Bool
  | .cgpaddr ipAddr, .success (some (.cgpaddr cidAddr)) =>
    (cidAddr.find? fun entry => entry.1 = 1).all fun entry =>
      ipAddr[(cString entry.2).length]? = some 0
  | .apn _ apnName, .success (some (.cgdcont (context :: _))) =>
    decide (apnName.length ≤ rtNbMaxApnName ∨ ∃ i < rtNbMaxApnName, context i = 0)
  | _, _ => true

def Testing (call : Call) : Prop := call.phase = .leaving true ∧ call.getter.tests = true

instance (call : Call) : Decidable (Testing call) := instDecidableAnd

def Call.Provided (call : Call) : Prop :=
  match call.callback with
  | .begun response => Provides call.getter response
  | _ => False

instance : (call : Call) → Decidable call.Provided
  | ⟨getter, _, .begun response⟩ => inferInstanceAs (Decidable (Provides getter response))
  | ⟨_, _, .none⟩ | ⟨_, _, .owed⟩ | ⟨_, _, .done _⟩ => inferInstanceAs (Decidable False)

section Clean

variable {Tid : Type}

/-- A response to a getter that does not test the result carries what was asked for, the
buffers have room, and no callback changes the result word in front of another call's test. -/
def Clean (s : State Tid) : Event Tid → Prop
  | .begin t response => ∀ call ∈ s.calls t,
      (call.getter.tests = false → Carries call.getter response) ∧
      call.getter.hasRoom response = true ∧
      ∀ u, ∀ other ∈ s.calls u, Testing other → other.Answered
  | .deliver t => ∀ call ∈ s.calls t,
      ∀ u, ∀ other ∈ s.calls u, Testing other → (other.Answered ↔ call.Provided)
  | _ => True

instance [Fintype Tid] (s : State Tid) : (e : Event Tid) → Decidable (Clean s e)
  | .begin t response => inferInstanceAs (Decidable (∀ _ ∈ _, _))
  | .deliver t => inferInstanceAs (Decidable (∀ _ ∈ _, _))
  | .call _ _ | .take _ | .request _ _ | .wake _ | .unlock _ | .ret _ => .isTrue trivial

end Clean

variable {quality : SignalQuality} {getter : Getter} {response : Response}

theorem rtStrncpy_congr {source other : Nat → UInt8} {n : Nat}
    (agree : ∀ i < n, (∀ j < i, source j ≠ 0) → source i = other i) :
    rtStrncpy source n = rtStrncpy other n := by
  induction n generalizing source other with
  | zero => rfl
  | succ n ih =>
    have first : source 0 = other 0 := agree 0 (Nat.succ_pos n) (by simp)
    rw [rtStrncpy, rtStrncpy, first]
    split
    · rfl
    · next nonzero =>
      rw [ih fun i below before => ?_]
      refine agree (i + 1) (Nat.succ_lt_succ below) fun j behind => ?_
      cases j with
      | zero => exact fun zero => nonzero (first.symm.trans zero)
      | succ j => exact before j (Nat.lt_of_succ_lt_succ behind)

@[simp] theorem length_rtStrncpy (source : Nat → UInt8) (n : Nat) :
    (rtStrncpy source n).length = n := by
  induction n generalizing source with
  | zero => rfl
  | succ n ih =>
    rw [rtStrncpy]
    split <;> simp [ih]

theorem prefix_memcpy {ipAddr text : List UInt8} (terminated : ipAddr[text.length]? = some 0) :
    (text ++ [0]) <+: memcpy ipAddr text := by
  have below := (List.getElem?_eq_some_iff.mp terminated).1
  refine ⟨ipAddr.drop (text.length + 1), ?_⟩
  rw [memcpy, List.append_assoc, List.drop_eq_getElem_cons below,
    (List.getElem?_eq_some_iff.mp terminated).2]
  rfl

structure Filled (before : Getter) (response : Response) (quality : SignalQuality)
    (after : Getter) (result : CmdResult) : Prop where
  tests : after.tests = before.tests
  carries : Carries after response ↔ Carries before response
  verdict : result = .ok ↔ Provides before response
  reports : Carries before response → Reports (after.copyOut quality) response

@[simp] theorem tests_copyOut : (getter.copyOut quality).tests = getter.tests := by
  cases getter <;> rfl

@[simp] theorem carries_copyOut :
    Carries (getter.copyOut quality) response ↔ Carries getter response := by
  have sets : (getter.copyOut quality).sets = getter.sets := by cases getter <;> rfl
  have finds : ∀ param, (getter.copyOut quality).finds param ↔ getter.finds param := by
    intro param
    cases getter <;> cases param <;> rfl
  rcases response with _ | _ | _ | param
  · rfl
  · rfl
  · rw [Carries, sets, Carries]
  · exact finds param

theorem carries_iff_provides (tests : getter.tests = true) :
    Carries getter response ↔ Provides getter response := by
  have notSets : getter.sets = false := by cases getter <;> simp_all [Getter.tests, Getter.sets]
  rcases response with _ | _ | _ | param
  · rfl
  · rfl
  · simp [Carries, Provides, notSets]
  · rfl

theorem filled_none (without : ∀ param, response ≠ .success (some param)) :
    Filled getter response quality getter .generalError where
  tests := rfl
  carries := .rfl
  verdict := by
    rcases response with _ | _ | _ | param
    · simp [Provides]
    · simp [Provides]
    · simp [Provides]
    · exact absurd rfl (without param)
  reports _ := by
    rcases response with _ | _ | _ | param
    · cases getter <;> trivial
    · cases getter <;> trivial
    · cases getter <;> trivial
    · exact absurd rfl (without param)

theorem filled_some {param : CmdParam} (takes : getter.takes param = true)
    (room : getter.hasRoom (.success (some param)) = true) :
    Filled getter (.success (some param)) (cmdParamCb quality getter param).1
      (cmdParamCb quality getter param).2.1 (cmdParamCb quality getter param).2.2 := by
  cases getter <;> cases param <;> simp only [Getter.takes, Bool.false_eq_true] at takes
  case csq.csq => exact ⟨rfl, .rfl, iff_of_true rfl rfl, fun _ => rfl⟩
  case cesq.cesq => exact ⟨rfl, .rfl, iff_of_true rfl rfl, fun _ => rfl⟩
  case cereg.cereg => exact ⟨rfl, .rfl, iff_of_true rfl rfl, fun _ => rfl⟩
  case cfun.cfun direction _ status functionality =>
      exact ⟨rfl, .rfl, iff_of_true rfl rfl, fun _ isGet => by simp [isGet]⟩
  case cclk.cclk buffer time =>
      refine ⟨rfl, .rfl, iff_of_true rfl rfl, fun _ => ?_⟩
      simp [cmdParamCb, Getter.copyOut, Reports]
  case cgpaddr.cgpaddr ipAddr cidAddr =>
      cases isFound : cidAddr.find? fun e => e.1 = 1 with
      | none =>
        have absent : ¬ Getter.finds (.cgpaddr ipAddr) (.cgpaddr cidAddr) := by
          simp [Getter.finds, isFound]
        simp only [cmdParamCb, isFound]
        exact ⟨rfl, .rfl, iff_of_false (by simp) absent, fun found => absurd found absent⟩
      | some e =>
        simp only [cmdParamCb, isFound]
        refine ⟨rfl, .rfl, iff_of_true rfl ?_, fun _ => ⟨e, isFound, ?_⟩⟩
        · simp [Provides, Getter.finds, isFound]
        · exact prefix_memcpy (by simpa [Getter.hasRoom, isFound] using room)
  case apn.cgdcont name apnName pdpContext =>
      cases pdpContext with
      | nil =>
        exact ⟨rfl, .rfl, iff_of_false (by simp [cmdParamCb]) Bool.false_ne_true,
          fun found => absurd found Bool.false_ne_true⟩
      | cons context more =>
        refine ⟨rfl, .rfl, iff_of_true rfl (by simp [Provides, Getter.finds]), fun _ => ?_⟩
        simp only [cmdParamCb, Getter.copyOut, Reports, length_rtStrncpy]
        refine rtStrncpy_congr fun i below before => ?_
        by_cases inside : i < rtNbMaxApnName
        · simp [inside]
        · exfalso
          rcases of_decide_eq_true room with short | ⟨stop, isInside, isZero⟩
          · exact inside (Nat.lt_of_lt_of_le below short)
          · exact before stop (by omega) (by simp [isInside, isZero])

theorem filled_callback (expects : getter.expects response = true)
    (room : getter.hasRoom response = true) :
    Filled getter response (riRequestCommonCb quality getter response).1
      (riRequestCommonCb quality getter response).2.1
      (riRequestCommonCb quality getter response).2.2 := by
  rcases response with _ | _ | _ | param
  · exact filled_none (by simp)
  · exact filled_none (by simp)
  · exact filled_none (by simp)
  · exact filled_some expects room

section Runs

variable {Tid : Type} {s after : State Tid} {t u : Tid} {call : Call}

/-- The call has got its response; what `seen` holds is reported if it should be. -/
def Settled (s : State Tid) (call : Call) (seen : Getter) : Prop :=
  ∃ response, call.callback = .done response ∧
    (call.getter.tests = true → (s.result = .ok ↔ Carries call.getter response)) ∧
    (call.getter.tests = false → Carries call.getter response) ∧
    (Carries call.getter response → Reports seen response)

def Waits (s : State Tid) (call : Call) : Prop :=
  match call.callback with
  | .none | .owed => s.sem = 0
  | .begun response => s.sem = 0 ∧ call.getter.expects response = true ∧
      call.getter.hasRoom response = true ∧
        (call.getter.tests = false → Carries call.getter response)
  | .done _ => s.sem = 1 ∧ Settled s call (call.getter.copyOut s.quality)

def CallOk (s : State Tid) (t : Tid) (call : Call) : Prop :=
  match call.phase with
  | .entered => s.owner ≠ some t ∧ call.callback = .none
  | .locked | .refused => s.owner = some t ∧ s.sem = 0 ∧ call.callback = .none
  | .waiting => s.owner = some t ∧ Waits s call
  | .woken => s.owner = some t ∧ s.sem = 0 ∧ Settled s call call.getter
  | .leaving true => s.owner ≠ some t ∧ Settled s call call.getter
  | .leaving false => s.owner ≠ some t ∧ call.callback = .none

structure Sound (s : State Tid) : Prop where
  free : s.owner = none → s.sem = 0
  held : ∀ t, s.owner = some t → s.calls t ≠ none
  calls : ∀ t call, s.calls t = some call → CallOk s t call

theorem Settled.answered_iff {seen : Getter} (settled : Settled s call seen)
    (tests : call.getter.tests = true) : call.Answered ↔ s.result = .ok := by
  obtain ⟨response, isDone, verdict, -, -⟩ := settled
  rw [verdict tests, Call.Answered, isDone]

theorem CallOk.bystander (ok : CallOk s t call) (notOwner : s.owner ≠ some t)
    (notAfter : after.owner ≠ some t)
    (sameResult : Testing call → (after.result = .ok ↔ s.result = .ok)) : CallOk after t call := by
  obtain ⟨getter, phase, callback⟩ := call
  cases phase with
  | entered => exact ⟨notAfter, ok.2⟩
  | locked | waiting | refused | woken => exact absurd ok.1 notOwner
  | leaving success =>
    cases success with
    | false => exact ⟨notAfter, ok.2⟩
    | true =>
      obtain ⟨-, response, isDone, verdict, settled⟩ := ok
      exact ⟨notAfter, response, isDone,
        fun tests => (sameResult ⟨rfl, tests⟩).trans (verdict tests), settled⟩

theorem CallOk.testing (ok : CallOk s t call) (isTesting : Testing call) :
    Settled s call call.getter := by
  obtain ⟨getter, phase, callback⟩ := call
  obtain ⟨rfl, -⟩ := isTesting
  exact ok.2

theorem CallOk.owed {getter : Getter} {phase : Phase} (ok : CallOk s t ⟨getter, phase, .owed⟩) :
    phase = .waiting ∧ s.owner = some t ∧ s.sem = 0 := by
  cases phase with
  | entered => exact absurd ok.2 (by simp)
  | locked | refused => exact absurd ok.2.2 (by simp)
  | waiting => exact ⟨rfl, ok.1, ok.2⟩
  | woken =>
    obtain ⟨-, -, response, isDone, -⟩ := ok
    exact absurd isDone (by simp)
  | leaving success =>
    cases success with
    | false => exact absurd ok.2 (by simp)
    | true =>
      obtain ⟨-, response, isDone, -⟩ := ok
      exact absurd isDone (by simp)

theorem CallOk.begun {getter : Getter} {phase : Phase} {response : Response}
    (ok : CallOk s t ⟨getter, phase, .begun response⟩) :
    phase = .waiting ∧ s.owner = some t ∧ s.sem = 0 ∧ getter.expects response = true ∧
      getter.hasRoom response = true ∧ (getter.tests = false → Carries getter response) := by
  cases phase with
  | entered => exact absurd ok.2 (by simp)
  | locked | refused => exact absurd ok.2.2 (by simp)
  | waiting => exact ⟨rfl, ok⟩
  | woken =>
    obtain ⟨-, -, other, isDone, -⟩ := ok
    exact absurd isDone (by simp)
  | leaving success =>
    cases success with
    | false => exact absurd ok.2 (by simp)
    | true =>
      obtain ⟨-, other, isDone, -⟩ := ok
      exact absurd isDone (by simp)

variable [DecidableEq Tid]

section

variable (inv : Sound s)

include inv

theorem Sound.update {new : Option Call} (isAfter : after.calls = Function.update s.calls t new)
    (owner : s.owner = some t ∨ s.owner = none)
    (ownerAfter : after.owner = some t ∨ after.owner = none)
    (free : after.owner = none → after.sem = 0) (held : after.owner = some t → new ≠ none)
    (own : ∀ call, new = some call → CallOk after t call)
    (sameResult : ∀ u, u ≠ t → ∀ call, s.calls u = some call → Testing call →
      (after.result = .ok ↔ s.result = .ok)) : Sound after where
  free := free
  held := by
    intro u isOwner
    obtain rfl : u = t := by
      rcases ownerAfter with isT | isNone
      · simpa using isOwner.symm.trans isT
      · simp [isNone] at isOwner
    rw [isAfter, update_self]
    exact held isOwner
  calls := by
    intro u call isCall
    rw [isAfter] at isCall
    by_cases same : u = t
    · subst same
      rw [update_self] at isCall
      exact own call isCall
    · rw [update_of_ne same] at isCall
      refine (inv.calls u call isCall).bystander ?_ ?_ (sameResult u same call isCall)
      · rcases owner with isT | isNone
        · simpa [isT] using Ne.symm same
        · simp [isNone]
      · rcases ownerAfter with isT | isNone
        · simpa [isT] using Ne.symm same
        · simp [isNone]

theorem Sound.setCall {new : Option Call} (notOwner : s.owner ≠ some t)
    (own : ∀ call, new = some call → CallOk s t call) : Sound (s.setCall t new) where
  free := inv.free
  held := by
    intro u isOwner
    have ne : u ≠ t := fun same => notOwner (same ▸ isOwner)
    rw [State.setCall_calls, update_of_ne ne]
    exact inv.held u isOwner
  calls := by
    intro u call isCall
    rw [State.setCall_calls] at isCall
    by_cases same : u = t
    · subst same
      rw [update_self] at isCall
      exact own call isCall
    · rw [update_of_ne same] at isCall
      exact inv.calls u call isCall

theorem Sound.enter {getter : Getter} (ran : callStep s t getter = some after) : Sound after := by
  rw [callStep] at ran
  cases isCall : s.calls t with
  | some call => simp [isCall] at ran
  | none =>
    have notOwner : s.owner ≠ some t := fun isOwner => inv.held t isOwner isCall
    simp only [isCall] at ran
    split at ran
    · cases ran
      exact inv.setCall notOwner (by rintro _ ⟨⟩; exact ⟨notOwner, rfl⟩)
    · cases ran
      exact inv

section

variable (isCall : s.calls t = some call)

include isCall

theorem Sound.ret (ran : retStep s t call = some after) : Sound after := by
  have ok := inv.calls t call isCall
  obtain ⟨getter, phase, callback⟩ := call
  cases phase <;> simp only [retStep, Option.some.injEq, reduceCtorEq] at ran
  case leaving success =>
      subst ran
      have notOwner : s.owner ≠ some t := by
        cases success with
        | true | false => exact ok.1
      exact inv.setCall notOwner (by simp)

theorem Sound.take (ran : takeStep s t call = some after) : Sound after := by
  have ok := inv.calls t call isCall
  obtain ⟨getter, phase, callback⟩ := call
  obtain ⟨enters, ran⟩ := ite_none_right_eq_some.mp ran
  obtain ⟨rfl, isFree⟩ := enters
  cases ran
  exact inv.update rfl (.inr isFree) (.inl rfl) (by simp) (by simp)
    (by rintro _ ⟨⟩; exact ⟨rfl, inv.free isFree, ok.2⟩) fun _ _ _ _ _ => .rfl

theorem Sound.request {accepted : Bool} (ran : requestStep s t call accepted = some after) :
    Sound after := by
  have ok := inv.calls t call isCall
  obtain ⟨getter, phase, callback⟩ := call
  obtain ⟨isLocked, ran⟩ := ite_none_right_eq_some.mp ran
  obtain rfl : phase = .locked := isLocked
  obtain ⟨isOwner, noSem, rfl⟩ := ok
  have rest : ∀ new, CallOk s t new → Sound (s.setCall t (some new)) := by
    intro new ok
    exact inv.update rfl (.inl isOwner) (.inl isOwner) (by simp [State.setCall, isOwner])
      (by simp) (by rintro _ ⟨⟩; exact ok) fun _ _ _ _ _ => .rfl
  split at ran
  · split at ran
    · cases ran
      exact rest _ ⟨isOwner, noSem⟩
    · cases ran
      exact rest _ ⟨isOwner, noSem, rfl⟩
  · cases ran
    exact rest _ ⟨isOwner, noSem⟩

theorem Sound.begin {response : Response} (clean : Clean s (.begin t response))
    (ran : beginStep s t call response = some after) : Sound after := by
  have ok := inv.calls t call isCall
  obtain ⟨carries, room, testing⟩ := clean call isCall
  obtain ⟨getter, phase, callback⟩ := call
  cases callback <;> simp only [beginStep, reduceCtorEq] at ran
  case owed =>
      obtain ⟨expects, ran⟩ := ite_none_right_eq_some.mp ran
      obtain ⟨rfl, isOwner, noSem⟩ := ok.owed
      cases ran
      refine inv.update rfl (.inl isOwner) (.inl isOwner) (by simp [isOwner, State.setCall])
        (by simp) ?_ ?_
      · rintro _ ⟨⟩
        exact ⟨isOwner, noSem, expects, room, carries⟩
      · intro u _ other isOther isTesting
        refine iff_of_true rfl ?_
        have settled := (inv.calls u other isOther).testing isTesting
        exact (settled.answered_iff isTesting.2).mp (testing u other isOther isTesting)

theorem Sound.deliver (clean : Clean s (.deliver t)) (ran : deliverStep s t call = some after) :
    Sound after := by
  have ok := inv.calls t call isCall
  have same := clean call isCall
  obtain ⟨getter, phase, callback⟩ := call
  cases callback <;> simp only [deliverStep, Option.some.injEq, reduceCtorEq] at ran
  case begun response =>
      obtain ⟨rfl, isOwner, noSem, expects, room, carries⟩ := ok.begun
      have filled := @filled_callback s.quality _ _ expects room
      subst ran
      refine inv.update rfl (.inl isOwner) (.inl isOwner) (by simp [isOwner, State.setCall])
        (by simp) ?_ ?_
      · rintro _ ⟨⟩
        refine ⟨isOwner, by simp [noSem], response, rfl, fun tests => ?_, fun tests => ?_,
          fun found => filled.reports (filled.carries.mp found)⟩
        · have wasTesting := filled.tests.symm.trans tests
          exact filled.verdict.trans
            ((carries_iff_provides wasTesting).symm.trans filled.carries.symm)
        · exact filled.carries.mpr (carries (filled.tests.symm.trans tests))
      · intro u _ other isOther isTesting
        have settled := (inv.calls u other isOther).testing isTesting
        rw [← settled.answered_iff isTesting.2, same u other isOther isTesting]
        exact filled.verdict

theorem Sound.wake (ran : wakeStep s t call = some after) : Sound after := by
  have ok := inv.calls t call isCall
  obtain ⟨getter, phase, callback⟩ := call
  obtain ⟨wakes, ran⟩ := ite_none_right_eq_some.mp ran
  obtain ⟨isWaiting, someSem⟩ := wakes
  obtain rfl : phase = .waiting := isWaiting
  obtain ⟨isOwner, waits⟩ := ok
  cases ran
  cases callback with
  | none | owed => exact absurd waits (Nat.ne_of_gt someSem)
  | begun response => exact absurd waits.1 (Nat.ne_of_gt someSem)
  | done response =>
    obtain ⟨oneSem, other, isDone, verdict, carries, reports⟩ := waits
    refine inv.update rfl (.inl isOwner) (.inl isOwner) (by simp [isOwner, State.setCall])
      (by simp) ?_ fun _ _ _ _ _ => .rfl
    rintro _ ⟨⟩
    exact ⟨isOwner, by simp [oneSem], other, isDone,
      fun tests => (verdict (tests_copyOut.symm.trans tests)).trans carries_copyOut.symm,
      fun tests => carries_copyOut.mpr (carries (tests_copyOut.symm.trans tests)),
      fun found => reports (carries_copyOut.mp found)⟩

theorem Sound.unlock (ran : unlockStep s t call = some after) : Sound after := by
  have ok := inv.calls t call isCall
  obtain ⟨getter, phase, callback⟩ := call
  cases phase <;> simp only [unlockStep, Option.some.injEq, reduceCtorEq] at ran
  case woken =>
      obtain ⟨isOwner, noSem, settled⟩ := ok
      subst ran
      exact inv.update rfl (.inl isOwner) (.inr rfl) (fun _ => noSem) (by simp)
        (by rintro _ ⟨⟩; exact ⟨by simp, settled⟩) fun _ _ _ _ _ => .rfl
  case refused =>
      obtain ⟨isOwner, noSem, none⟩ := ok
      subst ran
      exact inv.update rfl (.inl isOwner) (.inr rfl) (fun _ => noSem) (by simp)
        (by rintro _ ⟨⟩; exact ⟨by simp, none⟩) fun _ _ _ _ _ => .rfl

end

theorem Sound.step {e : Event Tid} (clean : Clean s e) (ran : Ril.step s e = some after) :
    Sound after := by
  cases e with
  | call t getter => exact inv.enter ran
  | take t =>
    obtain ⟨call, isCall, ran⟩ := bind_eq_some_iff.mp ran
    exact inv.take isCall ran
  | request t accepted =>
    obtain ⟨call, isCall, ran⟩ := bind_eq_some_iff.mp ran
    exact inv.request isCall ran
  | begin t response =>
    obtain ⟨call, isCall, ran⟩ := bind_eq_some_iff.mp ran
    exact inv.begin isCall clean ran
  | deliver t =>
    obtain ⟨call, isCall, ran⟩ := bind_eq_some_iff.mp ran
    exact inv.deliver isCall clean ran
  | wake t =>
    obtain ⟨call, isCall, ran⟩ := bind_eq_some_iff.mp ran
    exact inv.wake isCall ran
  | unlock t =>
    obtain ⟨call, isCall, ran⟩ := bind_eq_some_iff.mp ran
    exact inv.unlock isCall ran
  | ret t =>
    obtain ⟨call, isCall, ran⟩ := bind_eq_some_iff.mp ran
    exact inv.ret isCall ran

theorem Sound.matched {e : Event Tid} (ran : Ril.step s e = some after) :
    Matched ⟨s, e, after⟩ := by
  cases e with
  | ret t =>
    intro call isCall
    have ok := inv.calls t call isCall
    obtain ⟨found, isFound, ran⟩ := bind_eq_some_iff.mp ran
    obtain rfl : found = call := by simpa using isFound.symm.trans isCall
    obtain ⟨getter, phase, callback⟩ := found
    cases phase <;> simp only [retStep, reduceCtorEq] at ran
    case leaving success =>
        cases success with
        | false =>
          have none : callback = .none := ok.2
          simp [returnsOk, Call.Answered, none]
        | true =>
          obtain ⟨-, response, isDone, verdict, carries, reports⟩ := ok
          obtain rfl : callback = .done response := isDone
          have exact : returnsOk s ⟨getter, .leaving true, .done response⟩ = true ↔
              Carries getter response := by
            cases tests : getter.tests with
            | true => simpa [returnsOk, tests] using verdict tests
            | false => simpa [returnsOk, tests] using carries tests
          refine ⟨exact, fun isOk other isOther => ?_⟩
          obtain rfl : response = other := by simpa using isOther
          exact reports (exact.mp isOk)
  | _ => trivial

end

omit [DecidableEq Tid] in
theorem Initial.sound (init : Initial s) : Sound s where
  free := fun _ => init.2.2
  held t isOwner := by simp [init.2.1] at isOwner
  calls t call isCall := by simp [init.1 t] at isCall

/-- In a run whose steps meet the condition, every getter that returns reports the response to
its own request. -/
theorem getters_matched {taken : List (Taken (State Tid) (Event Tid))} {last : State Tid}
    (run : (system Tid).Run taken last) (clean : EveryStep Clean taken) :
    ∀ step ∈ taken, Matched step := by
  have throughout : Throughout Sound taken last :=
    run.throughout_of_everyStep (fun _ init => Initial.sound init)
      (fun _ _ _ inv clean ran => inv.step clean ran) clean
  intro step mem
  exact (throughout.2 step mem).matched (run.step_of_mem mem)

end Runs

def idle : State Bool where
  calls := fun _ => none
  owner := none
  sem := 0
  inited := true
  quality := ⟨99, 99⟩
  result := .ok

def request (t : Bool) (response : Response) : List (Event Bool) :=
  [.take t, .request t true, .begin t response, .deliver t, .wake t, .unlock t]

def address : Response := .success (some (.cgpaddr [(0, [49]), (1, [49, 48, 46, 50])]))

def twoGetters : List (Event Bool) :=
  [.call false (.cgpaddr (List.replicate 65 0)), .call true (.csq ⟨0, 0⟩)] ++
    request false address ++
    [.ret false] ++ request true (.success (some (.csq ⟨17, 3⟩))) ++ [.ret true]

theorem two_getters_matched : (execute step idle twoGetters).isSome ∧
      ∀ taken ∈ record step [] idle twoGetters, Matched taken := by
  have isSome : (execute step idle twoGetters).isSome := by decide +kernel
  have run : (system Bool).Run (record step [] idle twoGetters) _ :=
    .execute (.start ⟨fun _ => rfl, rfl, rfl⟩) (some_get isSome).symm
  exact ⟨isSome, getters_matched run (by decide +kernel)⟩

/-- The library reports a failure, and `rt_nb_csq_get` returns `RT_EOK` with the values that
the globals have held all along. -/
def failedRequest : List (Event Bool) :=
  .call false (.csq ⟨0, 0⟩) :: request false .failure

def failed : State Bool :=
  (execute step idle failedRequest).get (by decide +kernel)

theorem failed_request_ok :
    ¬ ∀ (taken : List (Taken (State Bool) (Event Bool))) (last : State Bool),
      (system Bool).Run taken last → ∀ step ∈ taken, Matched step := by
  intro claim
  have run : (system Bool).Run (record step [] idle failedRequest) failed :=
    .execute (.start ⟨fun _ => rfl, rfl, rfl⟩) (some_get _).symm
  have isSome : (step failed (.ret false)).isSome := by decide +kernel
  have ret : step failed (.ret false) = some _ := (some_get isSome).symm
  have matched : Matched ⟨failed, .ret false, _⟩ := claim _ _ (run.next ret) _ List.mem_cons_self
  have isCall : (failed.calls false).isSome := by decide +kernel
  have ne : ∀ call ∈ failed.calls false, ¬ (returnsOk failed call = true ↔ call.Answered) := by
    decide +kernel
  exact ne _ (some_get isCall).symm (matched _ (some_get isCall).symm).1

end RtThread.Ril
