import RtThread.Drivers.Alarm

/-!
# The alarm that is programmed

When no call is in progress and an alarm is started, the current alarm comes first from now on and
the device is set to it.
-/

open Function (update_of_ne update_self update_idem update_eq_self)

namespace RtThread.Alarm

universe u

variable {Id : Type u}

structure RtAlarm.Valid (alarm : RtAlarm) : Prop where
  inited : alarm.start = true → alarm.inited = true
  inDay : alarm.inited = true →
    InDay alarm.wktime.tmSec alarm.wktime.tmMin alarm.wktime.tmHour

def Frame.isRest : Frame Id → Bool
  | .scan .. => false
  | .select => false
  | .modify .. => true
  | .delete _ => true

namespace State

def Valid (s : State Id) : Prop := ∀ id, (s.alarm id).Valid

def Quiet (s : State Id) : Prop := ∀ frame ∈ s.stack, frame.isRest = true

instance (s : State Id) : Decidable s.Quiet :=
  inferInstanceAs (Decidable (∀ frame ∈ s.stack, frame.isRest = true))

def Started (s : State Id) (id : Id) : Prop := id ∈ s.head ∧ (s.alarm id).start = true

def Programmed (s : State Id) : Prop :=
  ∃ current ∈ s.current, s.Started current ∧
    (∀ other ∈ s.head, (s.alarm other).start = true →
      s.ahead current ≤ s.ahead other) ∧
    s.wkalarm = s.request current

def Settled (s : State Id) : Prop :=
  ∀ id ∈ s.head, (s.alarm id).start = true → s.Programmed

def FirstProgrammed (s : State Id) : Prop := s.stack = [] → s.Settled

variable [DecidableEq Id]

instance (s : State Id) (id : Id) : Decidable (s.Started id) := instDecidableAnd

instance (s : State Id) : Decidable s.Programmed :=
  inferInstanceAs (Decidable (∃ current ∈ s.current, s.Started current ∧
    (∀ other ∈ s.head, (s.alarm other).start = true →
      s.ahead current ≤ s.ahead other) ∧
    s.wkalarm = s.request current))

instance (s : State Id) : Decidable s.FirstProgrammed :=
  inferInstanceAs (Decidable (s.stack = [] → ∀ id ∈ s.head,
    (s.alarm id).start = true → s.Programmed))

def NoOther (s : State Id) (id : Id) : Prop :=
  ∀ other ∈ s.head, other ≠ id → (s.alarm other).start = false

instance (s : State Id) (id : Id) : Decidable (s.NoOther id) :=
  inferInstanceAs (Decidable (∀ other ∈ s.head, other ≠ id →
    (s.alarm other).start = false))

def NoneStarted (s : State Id) : Prop :=
  ∀ id ∈ s.head, (s.alarm id).start = false

instance (s : State Id) : Decidable s.NoneStarted :=
  inferInstanceAs (Decidable (∀ id ∈ s.head, (s.alarm id).start = false))

def Keeps (rtc : Rtc) (s : State Id) (id : Id) : Prop :=
  ∃ held ∈ rtc.set (s.request id), ∃ read ∈ rtc.get held, held = { read with enable := true } ∧
      ∀ other ∈ s.head, other ≠ id → (s.alarm other).start = true →
        CyclicDistance.ahead (24 * 3600) s.secNow
          (read.tmSec + read.tmMin * 60 + read.tmHour * 3600) ≤ s.ahead other

instance (rtc : Rtc) (s : State Id) (id : Id) : Decidable (s.Keeps rtc id) :=
  inferInstanceAs (Decidable (∃ held ∈ rtc.set (s.request id), ∃ read ∈ rtc.get held,
    held = { read with enable := true } ∧
      ∀ other ∈ s.head, other ≠ id → (s.alarm other).start = true →
        CyclicDistance.ahead (24 * 3600) s.secNow
          (read.tmSec + read.tmMin * 60 + read.tmHour * 3600) ≤ s.ahead other))

/-- The state in which `rt_alarm_start` compares its alarm with the current one. -/
def begun (s : State Id) (id : Id) : State Id :=
  s.setAlarm id { (s.setUp id).1 with start := true }

def StartSound (rtc : Rtc) (s : State Id) (id : Id) : Prop :=
  (s.setUp id).2 = true → (s.alarm id).start = false →
    (s.current = none → (s.begun id).Keeps rtc id) ∧
      ∀ old ∈ s.current, (s.Started old →
          ((s.begun id).secAlarm id ≠ s.secNow ∨ s.secAlarm old = s.secNow) ∧
            ((s.begun id).ahead id < s.ahead old → (s.begun id).Keeps rtc id)) ∧
          (¬ s.Started old →
            Overtakes s.secNow ((s.begun id).secAlarm old)
                ((s.begun id).secAlarm id) ∧
              (s.begun id).Keeps rtc id)

instance (rtc : Rtc) (s : State Id) (id : Id) : Decidable (s.StartSound rtc id) :=
  inferInstanceAs (Decidable ((s.setUp id).2 = true → (s.alarm id).start = false →
    (s.current = none → (s.begun id).Keeps rtc id) ∧
      ∀ old ∈ s.current, (s.Started old →
          ((s.begun id).secAlarm id ≠ s.secNow ∨ s.secAlarm old = s.secNow) ∧
            ((s.begun id).ahead id < s.ahead old → (s.begun id).Keeps rtc id)) ∧
          (¬ s.Started old →
            Overtakes s.secNow ((s.begun id).secAlarm old)
                ((s.begun id).secAlarm id) ∧
              (s.begun id).Keeps rtc id)))

def StopSound (rtc : Rtc) (s : State Id) (id : Id) : Prop :=
  s.current = some id → (s.alarm id).start = true →
    (rtc.set { s.request id with enable := false }).isSome ∨ s.NoOther id

instance (rtc : Rtc) (s : State Id) (id : Id) : Decidable (s.StopSound rtc id) :=
  inferInstanceAs (Decidable (_ → _ → _ ∨ _))

/-- `alarm_update` finds the first of the started alarms among those that it considers, or
considers none that would come before the current one. -/
def SelectSound (rtc : Rtc) (s : State Id) : Prop :=
  s.NoneStarted ∨
    (∃ id ∈ s.head, s.Candidate id ∧ s.secAlarm id ≠ s.secNow ∧
      (∀ other ∈ s.head, (s.alarm other).start = true →
        s.ahead id ≤ s.ahead other) ∧ s.Keeps rtc id) ∨
    ((∀ id ∈ s.head, s.Candidate id → s.secAlarm id = s.secNow) ∧
      s.Programmed)

instance (rtc : Rtc) (s : State Id) : Decidable (s.SelectSound rtc) :=
  inferInstanceAs (Decidable (s.NoneStarted ∨
    (∃ id ∈ s.head, s.Candidate id ∧ s.secAlarm id ≠ s.secNow ∧
      (∀ other ∈ s.head, (s.alarm other).start = true →
        s.ahead id ≤ s.ahead other) ∧ s.Keeps rtc id) ∨
    ((∀ id ∈ s.head, s.Candidate id → s.secAlarm id = s.secNow) ∧
      s.Programmed)))

def ClockSound (s : State Id) (now : Tm) : Prop :=
  s.NoneStarted ∨ ∃ current ∈ s.current,
    CyclicDistance.ahead (24 * 3600) s.secNow (alarmMkdaysec now) ≤ s.ahead current

instance (s : State Id) (now : Tm) : Decidable (s.ClockSound now) := instDecidableOr

def ProceedSound (rtc : Rtc) (s : State Id) : Prop :=
  match s.stack with
  | .select :: _ => s.SelectSound rtc
  | .modify id _ :: _ =>
    s.current = some id → (s.alarm id).start = true → s.NoOther id
  | .delete id :: _ => s.current = some id → s.NoOther id
  | _ => True

instance (rtc : Rtc) (s : State Id) : Decidable (s.ProceedSound rtc) :=
  match stack_eq : s.stack with
  | .select :: _ =>
    decidable_of_iff (s.SelectSound rtc) (by simp [ProceedSound, stack_eq])
  | .modify id _ :: _ =>
    decidable_of_iff
      (s.current = some id → (s.alarm id).start = true → s.NoOther id)
      (by simp [ProceedSound, stack_eq])
  | .delete id :: _ =>
    decidable_of_iff (s.current = some id → s.NoOther id)
      (by simp [ProceedSound, stack_eq])
  | [] => .isTrue (by simp [ProceedSound, stack_eq])
  | .scan .. :: _ => .isTrue (by simp [ProceedSound, stack_eq])

end State

variable [DecidableEq Id]

/-- The condition on a step, which matters only where no update goes on around it. -/
def Sound (rtc : Rtc) (s : State Id) : Event Id → Prop
  | .start id => s.Quiet → s.StartSound rtc id
  | .stop id => s.Quiet → s.StopSound rtc id
  | .modify id _ => s.Quiet → s.StopSound rtc id
  | .serve => s.Quiet → s.NoneStarted
  | .clock now => s.Quiet → s.ClockSound now.val
  | .proceed => { s with stack := s.stack.tail }.Quiet → s.ProceedSound rtc
  | _ => True

instance (rtc : Rtc) (s : State Id) : (e : Event Id) → Decidable (Sound rtc s e)
  | .start _ => instDecidableForall
  | .stop _ => instDecidableForall
  | .modify .. => instDecidableForall
  | .serve => instDecidableForall
  | .clock _ => instDecidableForall
  | .proceed => instDecidableForall
  | .create .. => .isTrue trivial
  | .delete _ => .isTrue trivial
  | .update => .isTrue trivial

section Valid

variable {rtc : Rtc} {mktime : Tm → Int} {s : State Id} {id : Id} {alarm : RtAlarm}

namespace State

omit [DecidableEq Id] in
theorem Valid.timed (valid : s.Valid) (started : (s.alarm id).start = true) :
    s.Timed id := (valid id).inDay ((valid id).inited started)

theorem Valid.setAlarm (valid : s.Valid) (validAlarm : alarm.Valid) :
    (s.setAlarm id alarm).Valid := by
  intro other
  by_cases same : other = id
  · subst same
    simpa only [State.setAlarm, update_self] using validAlarm
  · simpa only [State.setAlarm, update_of_ne same] using valid other

omit [DecidableEq Id] in
theorem valid_stopped (valid : alarm.Valid) : { alarm with start := false }.Valid :=
  ⟨fun started => absurd started (by simp), valid.inDay⟩

theorem Valid.alarmSet (valid : s.Valid) : (s.alarmSet rtc id).1.Valid := by
  unfold State.alarmSet
  cases rtc.set (s.request id) with
  | none => exact valid
  | some held =>
    simp only
    split_ifs with stopped
    · exact valid
    · cases isRead : rtc.get held with
      | none => exact valid
      | some read =>
        exact Valid.setAlarm valid ⟨(valid id).inited, fun _ => rtc.get_inDay held read isRead⟩

theorem Valid.enable (valid : s.Valid) : (s.enable rtc id).Valid := by
  unfold State.enable
  have set := @Valid.alarmSet _ _ rtc s id valid
  simp only
  split_ifs
  · exact set
  · exact set

end State

theorem orNow_bounds {v low high now : Int} (within : low ≤ now ∧ now ≤ high) :
    low ≤ orNow v low high now ∧ orNow v low high now ≤ high := by
  unfold orNow
  split_ifs <;> omega

theorem alarmSetup_valid {wktime now : Tm} (inDay : InDay now.tmSec now.tmMin now.tmHour)
    (stopped : alarm.start = false) (notInited : alarm.inited = false) :
    (alarmSetup alarm wktime now).1.Valid := by
  have sec := @orNow_bounds wktime.tmSec 0 59 now.tmSec inDay.1
  have min := @orNow_bounds wktime.tmMin 0 59 now.tmMin inDay.2.1
  have hour := @orNow_bounds wktime.tmHour 0 23 now.tmHour inDay.2.2
  have kept : ∀ setup : Tm, (setupDate alarm.kind setup now).1.tmSec = setup.tmSec ∧
      (setupDate alarm.kind setup now).1.tmMin = setup.tmMin ∧
      (setupDate alarm.kind setup now).1.tmHour = setup.tmHour := by
    intro setup
    unfold setupDate
    cases alarm.kind <;> exact ⟨rfl, rfl, rfl⟩
  simp only [alarmSetup]
  split_ifs with invalid last
  · exact ⟨fun started => by simp [stopped] at started, fun inited => by simp [notInited] at inited⟩
  · refine ⟨fun started => by simp [stopped] at started, fun _ => ?_⟩
    simp only [kept] at last ⊢
    exact ⟨by decide, min, hour⟩
  · refine ⟨fun started => by simp [stopped] at started, fun _ => ?_⟩
    simp only [kept]
    exact ⟨sec, min, hour⟩

namespace State

omit [DecidableEq Id] in
theorem Valid.setUp (valid : s.Valid) : (s.setUp id).1.Valid := by
  unfold State.setUp
  simp only
  split_ifs with inited
  · exact valid id
  · have notInited : (s.alarm id).inited = false := by simpa using inited
    have stopped : (s.alarm id).start = false := by
      by_contra started
      exact inited ((valid id).inited (by simpa using started))
    exact alarmSetup_valid s.now.property stopped notInited

omit [DecidableEq Id] in
theorem inited_of_setUp (isSetUp : (s.setUp id).2 = true) : (s.setUp id).1.inited = true := by
  unfold State.setUp at isSetUp ⊢
  simp only at isSetUp ⊢
  split_ifs at isSetUp ⊢ with inited
  · exact inited
  · simp only [alarmSetup] at isSetUp ⊢
    split_ifs at isSetUp ⊢ <;> rfl

section

variable (valid : s.Valid)

include valid

theorem Valid.begun (isSetUp : (s.setUp id).2 = true) : (s.begun id).Valid :=
  valid.setAlarm ⟨fun _ => inited_of_setUp isSetUp, valid.setUp.inDay⟩

theorem Valid.alarmWakeup (now : Tm) : (s.alarmWakeup rtc mktime id now).1.Valid := by
  simp only [State.alarmWakeup]
  split_ifs
  · exact Valid.alarmSet (valid.setAlarm (valid_stopped (valid id)))
  · exact valid
  · exact valid

omit [DecidableEq Id] in
theorem Valid.alarmUpdate : s.alarmUpdate.Valid := by
  unfold State.alarmUpdate
  split_ifs
  · exact valid
  · exact valid

theorem Valid.rtAlarmStart : (s.rtAlarmStart rtc id).Valid := by
  have setUp : (s.setAlarm id (s.setUp id).1).Valid := valid.setAlarm valid.setUp
  simp only [State.rtAlarmStart]
  split_ifs with nothing
  · exact setUp
  · have begun : ((s.setAlarm id (s.setUp id).1).setAlarm id
        { (s.setUp id).1 with start := true }).Valid :=
      setUp.setAlarm ⟨fun _ => inited_of_setUp (by simpa using (not_or.mp nothing).1),
        valid.setUp.inDay⟩
    split
    · exact begun.enable
    · split_ifs
      · exact begun.enable
      · exact begun

theorem Valid.rtAlarmStop : (s.rtAlarmStop rtc id).Valid := by
  have stopped : (s.setAlarm id { s.alarm id with start := false }).Valid :=
    valid.setAlarm (valid_stopped (valid id))
  simp only [State.rtAlarmStop]
  split_ifs
  · exact valid
  · exact Valid.alarmUpdate (Valid.alarmSet stopped)
  · exact Valid.alarmSet stopped
  · exact stopped

theorem Valid.rtAlarmDelete : (s.rtAlarmDelete rtc id).Valid := by
  have stopped : (s.setAlarm id { s.alarm id with start := false }).Valid :=
    valid.setAlarm (valid_stopped (valid id))
  simp only [State.rtAlarmDelete]
  split_ifs
  · exact Valid.alarmUpdate (Valid.alarmSet stopped)
  · exact stopped

theorem Valid.modifyRest (setup : RtAlarmSetup) : (s.modifyRest id setup).Valid :=
  valid.setAlarm (alarmSetup_valid s.now.property rfl rfl)

theorem Valid.proceed {after : State Id} (ran : s.proceed rtc mktime = some after) :
    after.Valid := by
  unfold State.proceed at ran
  split at ran
  · exact nomatch ran
  · cases ran
    exact valid
  · split at ran
    · exact nomatch ran
    · cases ran
      exact valid
    · cases ran
      exact Valid.alarmWakeup valid _
  · simp only at ran
    split at ran
    · cases ran
      exact valid
    · cases ran
      exact Valid.enable valid
  · cases ran
    exact Valid.modifyRest valid _
  · cases ran
    exact valid

end

end State

theorem valid_step {e : Event Id} {after : State Id} (valid : s.Valid)
    (ran : step rtc mktime s e = some after) : after.Valid := by
  cases e with
  | create id callback setup =>
    obtain ⟨-, isAfter⟩ := Option.ite_none_right_eq_some.mp ran
    cases isAfter
    exact valid.setAlarm ⟨fun started => absurd started (by simp),
      fun inited => absurd inited (by simp)⟩
  | start id =>
    obtain ⟨-, isAfter⟩ := Option.ite_none_right_eq_some.mp ran
    cases isAfter
    exact valid.rtAlarmStart
  | stop id =>
    obtain ⟨-, isAfter⟩ := Option.ite_none_right_eq_some.mp ran
    cases isAfter
    exact valid.rtAlarmStop
  | modify id setup =>
    obtain ⟨-, isAfter⟩ := Option.ite_none_right_eq_some.mp ran
    cases isAfter
    exact State.Valid.rtAlarmStop valid
  | delete id =>
    obtain ⟨-, isAfter⟩ := Option.ite_none_right_eq_some.mp ran
    cases isAfter
    exact valid.rtAlarmDelete
  | serve =>
    obtain ⟨-, isAfter⟩ := Option.ite_none_right_eq_some.mp ran
    cases isAfter
    exact valid
  | update =>
    obtain ⟨-, isAfter⟩ := Option.ite_none_right_eq_some.mp ran
    cases isAfter
    exact valid.alarmUpdate
  | proceed => exact valid.proceed ran
  | clock now =>
    cases ran
    exact valid

end Valid

section Settled

variable {rtc : Rtc} {mktime : Tm → Int} {s after : State Id} {id : Id}

namespace State

section

omit [DecidableEq Id]

theorem NoneStarted.settled (noneStarted : s.NoneStarted) : s.Settled := by
  intro id mem started
  simp [noneStarted id mem] at started

theorem Programmed.settled (programmed : s.Programmed) : s.Settled := fun _ _ _ => programmed

theorem Programmed.congr (programmed : s.Programmed)
    (current_eq : after.current = s.current) (wkalarm_eq : after.wkalarm = s.wkalarm)
    (now_eq : after.now = s.now) (kept : ∀ current ∈ s.current, s.Started current →
      current ∈ after.head ∧ after.alarm current = s.alarm current)
    (fewer : ∀ other ∈ after.head, (after.alarm other).start = true →
      other ∈ s.head ∧ after.alarm other = s.alarm other) : after.Programmed := by
  obtain ⟨current, isCurrent, started, first, set⟩ := programmed
  obtain ⟨stillIn, alarm_eq⟩ := kept current isCurrent started
  have ahead_eq : ∀ other, after.alarm other = s.alarm other →
      after.ahead other = s.ahead other := by
    intro other alarm_eq
    simp only [ahead, secNow, secAlarm, now_eq, alarm_eq]
  refine ⟨current, current_eq ▸ isCurrent, ⟨stillIn, alarm_eq ▸ started.2⟩, ?_, ?_⟩
  · intro other mem isStarted
    obtain ⟨wasIn, other_eq⟩ := fewer other mem isStarted
    rw [ahead_eq current alarm_eq, ahead_eq other other_eq]
    exact first other wasIn (other_eq ▸ isStarted)
  · simp only [wkalarm_eq, set, request, alarm_eq]

end

theorem Keeps.enable (keeps : s.Keeps rtc id) (started : s.Started id) :
    (s.enable rtc id).Programmed := by
  obtain ⟨held, isHeld, read, isRead, held_eq, a⟩ := keeps
  have isHeld : rtc.set (s.request id) = some held := isHeld
  have isRead : rtc.get held = some read := isRead
  simp only [State.enable, State.alarmSet, isHeld, started.2, isRead, if_true,
    Bool.true_eq_false, if_false]
  refine ⟨id, rfl, ⟨started.1, by simp [State.setAlarm]⟩, ?_, ?_⟩
  · intro other mem isStarted
    by_cases same : other = id
    · subst same
      exact Int.le_refl _
    · have other_eq : ∀ alarm : RtAlarm, Function.update s.alarm id alarm other =
          s.alarm other := fun _ => update_of_ne same ..
      simp only [State.setAlarm, other_eq] at isStarted
      have le := a other mem same isStarted
      simpa only [State.ahead, State.secNow, State.secAlarm, State.setAlarm,
        update_self, other_eq, alarmMkdaysec] using le
  · simp only [State.request, State.setAlarm, update_self, held_eq]

theorem setAlarm_setAlarm (a second : RtAlarm) :
    (s.setAlarm id a).setAlarm id second = s.setAlarm id second := by
  simp only [State.setAlarm, update_idem]

omit [DecidableEq Id] in
theorem setUp_start (s : State Id) (id : Id) : (s.setUp id).1.start = (s.alarm id).start := by
  simp only [State.setUp]
  split_ifs
  · rfl
  · simp only [alarmSetup]
    split_ifs <;> rfl

omit [DecidableEq Id] in
theorem Valid.setUp_of_started (valid : s.Valid) (started : (s.alarm id).start = true) :
    s.setUp id = (s.alarm id, true) := by
  simp only [State.setUp, (valid id).inited started, if_true]

theorem rtAlarmStart_cases (valid : s.Valid) :
    ((s.alarm id).start = true ∧ s.rtAlarmStart rtc id = s) ∨
      ((s.alarm id).start = false ∧ (s.setUp id).2 = false ∧
        s.rtAlarmStart rtc id = s.setAlarm id (s.setUp id).1) ∨
      ((s.alarm id).start = false ∧ (s.setUp id).2 = true ∧ ((s.current = none ∧
            s.rtAlarmStart rtc id = (s.begun id).enable rtc id) ∨ ∃ old, s.current = some old ∧
            s.rtAlarmStart rtc id = if Overtakes s.secNow ((s.begun id).secAlarm old)
                  ((s.begun id).secAlarm id) then (s.begun id).enable rtc id else s.begun id)) := by
  have start_eq := s.setUp_start id
  cases started : (s.alarm id).start with
  | true =>
    left
    refine ⟨rfl, ?_⟩
    have setUp_eq := valid.setUp_of_started started
    simp only [State.rtAlarmStart, setUp_eq, started, or_true, if_true, State.setAlarm,
      update_eq_self]
  | false =>
    right
    rw [started] at start_eq
    cases isSetUp : (s.setUp id).2 with
    | false =>
      left
      refine ⟨rfl, rfl, ?_⟩
      simp only [State.rtAlarmStart, isSetUp, true_or, if_true]
    | true =>
      right
      refine ⟨rfl, rfl, ?_⟩
      cases current_eq : s.current with
      | none =>
        left
        refine ⟨rfl, ?_⟩
        simp only [State.rtAlarmStart, isSetUp, start_eq, Bool.true_eq_false,
          Bool.false_eq_true, or_self, if_false, setAlarm_setAlarm]
        have begun_current : (s.begun id).current = none := current_eq
        unfold State.begun at begun_current ⊢
        simp only [begun_current]
      | some old =>
        right
        refine ⟨old, rfl, ?_⟩
        simp only [State.rtAlarmStart, isSetUp, start_eq, setAlarm_setAlarm]
        have begun_current : (s.begun id).current = some old := current_eq
        unfold State.begun at begun_current ⊢
        simp only [begun_current]
        rfl

theorem begun_alarm {other : Id} (ne : other ≠ id) :
    (s.begun id).alarm other = s.alarm other := update_of_ne ne ..

theorem begun_ahead {other : Id} (ne : other ≠ id) : (s.begun id).ahead other = s.ahead other := by
  simp only [ahead, secAlarm, begun_alarm ne]
  rfl

theorem begun_started (mem : id ∈ s.head) : (s.begun id).Started id :=
  ⟨mem, by simp [State.begun, State.setAlarm]⟩

omit [DecidableEq Id] in
theorem settled_alarmUpdate (quiet : s.alarmUpdate.Quiet) : s.alarmUpdate.Settled := by
  unfold alarmUpdate at quiet ⊢
  split_ifs at quiet ⊢ with empty
  · intro id mem
    simp [empty] at mem
  · exact absurd (quiet _ List.mem_cons_self) (by simp [Frame.isRest])

theorem alarmSet_stopped (stopped : (s.alarm id).start = false) :
    s.alarmSet rtc id = match rtc.set (s.request id) with
      | none => (s, false)
      | some held => ({ s with wkalarm := held }, true) := by
  unfold alarmSet
  cases rtc.set (s.request id) with
  | none => rfl
  | some held => simp only [stopped, if_true]

omit [DecidableEq Id] in
theorem request_eq_of_ahead_eq {a second : Id} (timedFirst : s.Timed a)
    (timedSecond : s.Timed second) (firstStarted : (s.alarm a).start = true)
    (secondStarted : (s.alarm second).start = true) (equal : s.ahead a = s.ahead second) :
    s.request a = s.request second := by
  have firstCases := s.ahead_cases timedFirst
  have secondCases := s.ahead_cases timedSecond
  have firstBounds : 0 ≤ s.secAlarm a ∧ s.secAlarm a < 24 * 3600 := alarmMkdaysec_bounds timedFirst
  have secondBounds : 0 ≤ s.secAlarm second ∧ s.secAlarm second < 24 * 3600 :=
    alarmMkdaysec_bounds timedSecond
  have same : s.secAlarm a = s.secAlarm second := by omega
  obtain ⟨⟨_, _⟩, ⟨_, _⟩, _, _⟩ := timedFirst
  obtain ⟨⟨_, _⟩, ⟨_, _⟩, _, _⟩ := timedSecond
  simp only [secAlarm, alarmMkdaysec] at same
  simp only [request, firstStarted, secondStarted, RtRtcWkalarm.mk.injEq, true_and]
  omega

theorem settled_select (valid : s.Valid) (inv : s.SelectSound rtc) :
    (match s.nextAlarm with | none => s | some id => s.enable rtc id).Settled := by
  have timed : ∀ id, (s.alarm id).start = true → s.Timed id := fun id => valid.timed
  rcases inv with noneStarted | ⟨a, firstIn, candidate, notNow, isFirst, keeps⟩ |
      ⟨onlyDue, programmed⟩
  · cases isNext : s.nextAlarm with
    | none => exact noneStarted.settled
    | some id =>
      obtain ⟨mem, candidate, -⟩ := nextAlarm_spec timed isNext
      exact absurd candidate.1 (by simp [noneStarted id mem])
  · cases isNext : s.nextAlarm with
    | none => exact absurd (due_of_nextAlarm_eq_none timed isNext a firstIn candidate) notNow
    | some id =>
      obtain ⟨mem, idCandidate, -, least⟩ := nextAlarm_spec timed isNext
      have equal : s.ahead id = s.ahead a :=
        Int.le_antisymm (least a firstIn candidate notNow)
          (isFirst id mem idCandidate.1)
      refine (Keeps.enable ?_ ⟨mem, idCandidate.1⟩).settled
      obtain ⟨held, isHeld, read, isRead, held_eq, before⟩ := keeps
      have request_eq := request_eq_of_ahead_eq (timed id idCandidate.1)
        (timed a candidate.1) idCandidate.1 candidate.1 equal
      refine ⟨held, request_eq ▸ isHeld, read, isRead, held_eq, ?_⟩
      intro other otherIn ne started
      by_cases same : other = a
      · rw [same, ← equal]
        exact before id mem (fun isFirst => ne (same.trans isFirst.symm))
          idCandidate.1
      · exact before other otherIn same started
  · cases isNext : s.nextAlarm with
    | none => exact programmed.settled
    | some id =>
      obtain ⟨mem, candidate, notNow, -⟩ := nextAlarm_spec timed isNext
      exact absurd (onlyDue id mem candidate) notNow

section

variable (settled : s.Settled)

include settled

theorem Settled.setAlarm {alarm : RtAlarm} (stopped : alarm.start = false)
    (harmless : s.current = some id → (s.alarm id).start = true → s.NoOther id) :
    (s.setAlarm id alarm).Settled := by
  intro other mem started
  have ne : other ≠ id := by
    rintro rfl
    simp [State.setAlarm, stopped] at started
  have other_eq : (s.setAlarm id alarm).alarm other = s.alarm other := update_of_ne ne ..
  rw [other_eq] at started
  refine (settled other mem started).congr rfl rfl rfl ?_ ?_
  · intro current isCurrent isStarted
    refine ⟨isStarted.1, update_of_ne ?_ ..⟩
    rintro rfl
    have := harmless isCurrent isStarted.2 other mem ne
    simp [this] at started
  · intro third isIn isStarted
    refine ⟨isIn, update_of_ne ?_ ..⟩
    rintro rfl
    simp [State.setAlarm, stopped] at isStarted

theorem Settled.rtAlarmStart (valid : s.Valid) (mem : id ∈ s.head) (inv : s.StartSound rtc id) :
    (s.rtAlarmStart rtc id).Settled := by
  rcases @rtAlarmStart_cases _ _ rtc s id valid with
    ⟨-, result⟩ | ⟨stopped, -, result⟩ | ⟨stopped, isSetUp, cases⟩
  · rwa [result]
  · rw [result]
    refine settled.setAlarm (s.setUp_start id ▸ stopped) ?_
    intro _ started
    simp [stopped] at started
  obtain ⟨alone, against⟩ := inv isSetUp stopped
  have started := begun_started mem
  rcases cases with ⟨isNone, result⟩ | ⟨old, isSome, result⟩
  · rw [result]
    exact ((alone isNone).enable started).settled
  · rw [result]
    obtain ⟨valid_old, stale⟩ := against old isSome
    by_cases oldStarted : s.Started old
    · obtain ⟨notNow, keeps⟩ := valid_old oldStarted
      obtain ⟨current, isCurrent, -, first, set⟩ := settled old oldStarted.1 oldStarted.2
      obtain rfl : old = current := Option.some.inj (isSome.symm.trans isCurrent)
      have ne : old ≠ id := by
        rintro rfl
        simp [oldStarted.2] at stopped
      have oldAlarm := @begun_alarm _ _ s id old ne
      have timedNew : (s.begun id).Timed id := (valid.begun isSetUp).timed started.2
      have timedOld : (s.begun id).Timed old :=
        (valid.begun isSetUp).timed (oldAlarm ▸ oldStarted.2)
      have oldAhead := @begun_ahead _ _ s id old ne
      split_ifs with overtakes
      · refine ((keeps ?_).enable started).settled
        rcases eq_or_ne ((s.begun id).secAlarm id) s.secNow with due | later
        · have oldDue : (s.begun id).secAlarm old = s.secNow := by
            rcases notNow with notDue | oldDue
            · exact absurd due notDue
            · rw [← oldDue, secAlarm, oldAlarm]
              rfl
          unfold Overtakes at overtakes
          omega
        · rw [← oldAhead]
          exact (overtakes_iff timedOld timedNew later).mp overtakes
      · apply Programmed.settled
        have notBefore : s.ahead old ≤ (s.begun id).ahead id := by
          rcases eq_or_ne ((s.begun id).secAlarm id) s.secNow with due | later
          · have oldDue : s.secAlarm old = s.secNow := by
              rcases notNow with notDue | oldDue
              · exact absurd due notDue
              · exact oldDue
            have zero : s.ahead old = 0 := by
              rw [ahead, oldDue, CyclicDistance.ahead, Int.sub_self]
              rfl
            rw [zero]
            exact CyclicDistance.ahead_nonneg (by decide)
          · rw [← oldAhead]
            exact Int.not_lt.mp fun less =>
              overtakes ((overtakes_iff timedOld timedNew later).mpr less)
        refine ⟨old, isSome, ⟨oldStarted.1, oldAlarm ▸ oldStarted.2⟩, ?_, ?_⟩
        · intro other otherIn otherStarted
          rw [oldAhead]
          by_cases same : other = id
          · rw [same]
            exact notBefore
          · have otherAlarm := @begun_alarm _ _ s id other same
            rw [begun_ahead same]
            exact first other otherIn (otherAlarm ▸ otherStarted)
        · have set : s.wkalarm = (s.begun id).request old := by
            rw [set, request, request, oldAlarm]
          exact set
    · obtain ⟨overtakes, keeps⟩ := stale oldStarted
      rw [if_pos overtakes]
      exact (keeps.enable started).settled

theorem Settled.rtAlarmStop (inv : s.StopSound rtc id) (quiet : (s.rtAlarmStop rtc id).Quiet) :
    (s.rtAlarmStop rtc id).Settled := by
  simp only [State.rtAlarmStop] at quiet ⊢
  split_ifs at quiet ⊢ with stopped isCurrent isSet
  · exact settled
  · exact settled_alarmUpdate quiet
  · have started : (s.alarm id).start = true := by simpa using stopped
    have request_eq : (s.setAlarm id { s.alarm id with start := false }).request id =
        { s.request id with enable := false } := by
      simp only [request, State.setAlarm, update_self]
    have isStopped : ((s.setAlarm id { s.alarm id with start := false }).alarm id).start =
        false := by
      simp only [State.setAlarm, update_self]
    have rejected : rtc.set { s.request id with enable := false } = none := by
      cases isHeld : rtc.set { s.request id with enable := false } with
      | none => rfl
      | some held =>
        refine absurd ?_ isSet
        rw [alarmSet_stopped isStopped, request_eq, isHeld]
    rcases inv isCurrent started with accepted | alone
    · simp [rejected] at accepted
    · apply NoneStarted.settled
      rw [alarmSet_stopped isStopped, request_eq, rejected]
      intro other mem
      by_cases same : other = id
      · simp only [same, State.setAlarm, update_self]
      · simp only [State.setAlarm, update_of_ne same]
        exact alone other mem same
  · exact settled.setAlarm rfl fun current => absurd current isCurrent

theorem Settled.rtAlarmDelete (quiet : (s.rtAlarmDelete rtc id).Quiet) :
    (s.rtAlarmDelete rtc id).Settled := by
  simp only [State.rtAlarmDelete] at quiet ⊢
  split_ifs at quiet ⊢ with isCurrent
  · exact settled_alarmUpdate quiet
  · have same : { s with stack := .delete id :: s.stack }.Settled := settled
    exact same.setAlarm rfl fun current => absurd current isCurrent

theorem Settled.modifyRest (setup : RtAlarmSetup)
    (inv : s.current = some id → (s.alarm id).start = true → s.NoOther id) :
    (s.modifyRest id setup).Settled := by
  refine settled.setAlarm ?_ inv
  simp only [alarmSetup]
  split_ifs <;> rfl

theorem Settled.remove (rest : List (Frame Id)) (inv : s.current = some id → s.NoOther id) :
    { s with stack := rest, head := s.head.filter (· ≠ id) }.Settled := by
  intro other mem started
  obtain ⟨wasIn, ne⟩ := List.mem_filter.mp mem
  have ne : other ≠ id := by simpa using ne
  refine (settled other wasIn started).congr rfl rfl rfl ?_ ?_
  · intro current isCurrent isStarted
    refine ⟨List.mem_filter.mpr ⟨isStarted.1, ?_⟩, rfl⟩
    by_contra same
    obtain rfl : current = id := by simpa using same
    have := inv isCurrent other wasIn ne
    simp [this] at started
  · intro third isIn _
    exact ⟨(List.mem_filter.mp isIn).1, rfl⟩

omit [DecidableEq Id] in
theorem Settled.clock (now : { time : Tm // InDay time.tmSec time.tmMin time.tmHour })
    (inv : s.ClockSound now.val) : { s with now }.Settled := by
  rcases inv with noneStarted | ⟨current, isCurrent, notPast⟩
  · have same : { s with now }.NoneStarted := noneStarted
    exact same.settled
  · intro id mem started
    obtain ⟨other, isOther, isStarted, a, set⟩ := settled id mem started
    obtain rfl : current = other := Option.some.inj (isCurrent.symm.trans isOther)
    refine ⟨current, isCurrent, isStarted, ?_, set⟩
    intro third isIn thirdStarted
    exact CyclicDistance.ahead_le_advance (by decide) notPast (a third isIn thirdStarted)

end

theorem alarmSet_stack (id : Id) : (s.alarmSet rtc id).1.stack = s.stack := by
  unfold alarmSet
  cases rtc.set (s.request id) with
  | none => rfl
  | some held =>
    simp only
    split_ifs
    · rfl
    · cases rtc.get held <;> rfl

theorem enable_stack (id : Id) : (s.enable rtc id).stack = s.stack := by
  simp only [enable]
  split_ifs
  · exact alarmSet_stack id
  · exact alarmSet_stack id

theorem rtAlarmStart_stack (valid : s.Valid) : (s.rtAlarmStart rtc id).stack = s.stack := by
  rcases @rtAlarmStart_cases _ _ rtc s id valid with
    ⟨-, result⟩ | ⟨-, -, result⟩ | ⟨-, -, ⟨-, result⟩ | ⟨old, -, result⟩⟩
  · rw [result]
  · rw [result]
    rfl
  · rw [result, enable_stack]
    rfl
  · rw [result]
    split_ifs
    · rw [enable_stack]
      rfl
    · rfl

theorem Settled.proceed (settled : s.Quiet → s.Settled) (valid : s.Valid)
    (inv : { s with stack := s.stack.tail }.Quiet → s.ProceedSound rtc)
    (ran : s.proceed rtc mktime = some after) (quiet : after.Quiet) : after.Settled := by
  have top : ∀ frame rest, s.stack = frame :: rest → frame.isRest = true →
      (∀ other ∈ rest, other.isRest = true) → s.Quiet := by
    intro frame rest stack_eq isRest others other mem
    rw [stack_eq] at mem
    rcases List.mem_cons.mp mem with rfl | mem
    · exact isRest
    · exact others other mem
  unfold State.proceed at ran
  split at ran
  case h_1 => exact nomatch ran
  case h_2 position now rest stack_eq =>
      cases ran
      exact absurd (quiet _ List.mem_cons_self) (by simp [Frame.isRest])
  case h_3 position now rest stack_eq =>
      split at ran
      · exact nomatch ran
      · cases ran
        exact absurd (quiet _ List.mem_cons_self) (by simp [Frame.isRest])
      · cases ran
        exact absurd (quiet _ List.mem_cons_self) (by simp [Frame.isRest])
  case h_4 rest stack_eq =>
      simp only [stack_eq, State.ProceedSound] at inv
      have result := @settled_select _ _ rtc { s with stack := rest } valid
      simp only at ran
      cases isNext : { s with stack := rest }.nextAlarm with
      | none =>
        rw [isNext] at ran result
        cases ran
        exact result (inv quiet)
      | some id =>
        rw [isNext] at ran result
        cases ran
        have stack_eq := @enable_stack _ _ rtc { s with stack := rest } id
        refine result (inv fun frame mem => quiet frame ?_)
        rw [stack_eq]
        exact mem
  case h_5 id setup rest stack_eq =>
      cases ran
      simp only [stack_eq, State.ProceedSound] at inv
      have settled := settled (top _ _ stack_eq rfl quiet)
      have same : { s with stack := rest }.Settled := settled
      exact same.modifyRest setup (inv quiet)
  case h_6 id rest stack_eq =>
      cases ran
      simp only [stack_eq, State.ProceedSound] at inv
      exact (settled (top _ _ stack_eq rfl quiet)).remove rest (inv quiet)

end State

section Stack

omit [DecidableEq Id] in
theorem State.quiet_of_subset {before : State Id} (subset : before.stack ⊆ after.stack)
    (quiet : after.Quiet) : before.Quiet := fun frame mem => quiet frame (subset mem)

omit [DecidableEq Id] in
theorem State.subset_alarmUpdate : s.stack ⊆ s.alarmUpdate.stack := by
  unfold State.alarmUpdate
  split_ifs
  · exact List.Subset.refl _
  · exact List.subset_cons_self _ _

theorem State.subset_rtAlarmStop : s.stack ⊆ (s.rtAlarmStop rtc id).stack := by
  have stack_eq : ((s.setAlarm id { s.alarm id with start := false }).alarmSet rtc
      id).1.stack = s.stack := State.alarmSet_stack id
  have update := @State.subset_alarmUpdate _ { ((s.setAlarm id
    { s.alarm id with start := false }).alarmSet rtc id).1 with current := none }
  simp only [State.rtAlarmStop]
  intro frame mem
  split_ifs
  · exact mem
  · exact update (stack_eq.symm ▸ mem)
  · exact (stack_eq.symm ▸ mem)
  · exact mem

theorem State.subset_rtAlarmDelete : s.stack ⊆ (s.rtAlarmDelete rtc id).stack := by
  have stack_eq : (({ s with stack := .delete id :: s.stack }.setAlarm id
      { s.alarm id with start := false }).alarmSet rtc id).1.stack =
        .delete id :: s.stack := State.alarmSet_stack id
  have update := @State.subset_alarmUpdate _ { (({ s with
    stack := .delete id :: s.stack }.setAlarm id
      { s.alarm id with start := false }).alarmSet rtc id).1 with current := none }
  simp only [State.rtAlarmDelete]
  intro frame mem
  have inStack : frame ∈ .delete id :: s.stack := List.mem_cons_of_mem _ mem
  split_ifs
  · exact update (stack_eq.symm ▸ inStack)
  · exact inStack

end Stack

theorem settled_step {e : Event Id} (valid : s.Valid)
    (settled : s.Quiet → s.Settled) (inv : Sound rtc s e)
    (ran : step rtc mktime s e = some after) (quiet : after.Quiet) : after.Settled := by
  cases e with
  | create id callback setup =>
    obtain ⟨⟨-, fresh⟩, isAfter⟩ := Option.ite_none_right_eq_some.mp ran
    cases isAfter
    intro other mem started
    have ne : other ≠ id := by
      rintro rfl
      simp [State.rtAlarmCreate, State.setAlarm] at started
    have wasIn : other ∈ s.head := (List.mem_cons.mp mem).resolve_left ne
    have same : ∀ third, third ≠ id → (s.rtAlarmCreate id callback setup).alarm third =
        s.alarm third := fun third ne => update_of_ne ne ..
    rw [same other ne] at started
    refine (settled quiet other wasIn started).congr rfl rfl rfl ?_ ?_
    · intro current _ isStarted
      refine ⟨List.mem_cons_of_mem id isStarted.1, same current ?_⟩
      rintro rfl
      exact fresh isStarted.1
    · intro third isIn isStarted
      have ne : third ≠ id := by
        rintro rfl
        simp [State.rtAlarmCreate, State.setAlarm] at isStarted
      exact ⟨(List.mem_cons.mp isIn).resolve_left ne, same third ne⟩
  | start id =>
    obtain ⟨⟨-, mem⟩, isAfter⟩ := Option.ite_none_right_eq_some.mp ran
    cases isAfter
    have quiet : s.Quiet := by
      unfold State.Quiet at quiet ⊢
      rwa [State.rtAlarmStart_stack valid] at quiet
    exact (settled quiet).rtAlarmStart valid mem (inv quiet)
  | stop id =>
    obtain ⟨-, isAfter⟩ := Option.ite_none_right_eq_some.mp ran
    cases isAfter
    have before := State.quiet_of_subset State.subset_rtAlarmStop quiet
    exact (settled before).rtAlarmStop (inv before) quiet
  | modify id setup =>
    obtain ⟨-, isAfter⟩ := Option.ite_none_right_eq_some.mp ran
    cases isAfter
    have before : s.Quiet := fun frame mem =>
      State.quiet_of_subset State.subset_rtAlarmStop quiet frame (List.mem_cons_of_mem _ mem)
    have same : { s with stack := .modify id setup :: s.stack }.Settled := settled before
    exact same.rtAlarmStop (inv before) quiet
  | delete id =>
    obtain ⟨-, isAfter⟩ := Option.ite_none_right_eq_some.mp ran
    cases isAfter
    exact (settled (State.quiet_of_subset State.subset_rtAlarmDelete quiet)).rtAlarmDelete quiet
  | serve =>
    obtain ⟨-, isAfter⟩ := Option.ite_none_right_eq_some.mp ran
    cases isAfter
    have same : { s with serving := true, current := none }.NoneStarted := inv quiet
    exact same.settled
  | update =>
    obtain ⟨-, isAfter⟩ := Option.ite_none_right_eq_some.mp ran
    cases isAfter
    exact State.settled_alarmUpdate quiet
  | proceed => exact State.Settled.proceed settled valid inv ran quiet
  | clock now =>
    cases ran
    exact (settled quiet).clock now (inv quiet)

end Settled

open TransitionSystem

/-- In a run whose steps all meet the condition the first of the started alarms is programmed
whenever no call is in progress. -/
theorem first_alarm_programmed_throughout {rtc : Rtc} {mktime : Tm → Int}
    {taken : List (Taken (State Id) (Event Id))} {last : State Id}
    (run : (system rtc mktime).Run taken last) (every : EveryStep (Sound rtc) taken) :
    Throughout State.FirstProgrammed taken last := by
  have base : ∀ s : State Id, Initial s →
      s.Valid ∧ (s.Quiet → s.Settled) := by
    rintro s ⟨empty, -, -, -, fresh⟩
    refine ⟨fun id => ⟨fun started => ?_, fun inited => ?_⟩, fun _ id mem => ?_⟩
    · simp [(fresh id).1] at started
    · simp [(fresh id).2] at inited
    · simp [empty] at mem
  have kept := run.throughout_of_everyStep base
    (fun _ _ _ inv sound ran =>
      ⟨valid_step inv.1 ran, settled_step inv.1 inv.2 sound ran⟩) every
  refine kept.imp fun s inv empty => inv.2 ?_
  intro frame mem
  simp [empty] at mem

def timeOfDay (tmHour tmMin tmSec : Int) : Tm := ⟨tmSec, tmMin, tmHour, 1, 0, 120, 3⟩

def atNine : State (Fin 2) where
  head := []
  alarm _ := ⟨false, false, .other, false, timeOfDay 0 0 0⟩
  current := none
  wkalarm := ⟨false, 0, 0, 0⟩
  now := ⟨timeOfDay 9 0 0, by decide⟩
  serving := false
  stack := []

theorem second_rings_first_programmed :
    ∃ taken, ∃ last : State (Fin 2), (system Rtc.plain alarmMkdaysec).Run taken last ∧
      last.current = some 0 ∧ Throughout State.FirstProgrammed taken last := by
  let events : List (Event (Fin 2)) :=
    [.serve, .create 0 false ⟨.daily, timeOfDay 10 0 0⟩, .start 0,
      .create 1 true ⟨.oneshot, timeOfDay 9 30 0⟩, .start 1,
      .clock ⟨timeOfDay 9 30 0, by decide⟩, .update, .proceed, .stop 1, .proceed, .proceed,
      .proceed, .proceed]
  have run : (system Rtc.plain alarmMkdaysec).Run _ _ :=
    .executed atNine events ⟨rfl, rfl, rfl, rfl, fun _ => ⟨rfl, rfl⟩⟩ (by decide +kernel)
  exact ⟨_, _, run, by decide +kernel, first_alarm_programmed_throughout run (by decide +kernel)⟩

/-- An alarm that has rung once is set to a later time and started again.  It is still the
current one, and nothing tells the device. -/
theorem rung_alarm_not_programmed :
    ¬ ∀ taken, ∀ last : State (Fin 2), (system Rtc.plain alarmMkdaysec).Run taken last →
      Throughout State.FirstProgrammed taken last := by
  intro claim
  let events : List (Event (Fin 2)) :=
    [.serve, .create 0 false ⟨.oneshot, timeOfDay 10 0 0⟩, .start 0,
      .clock ⟨timeOfDay 10 0 0, by decide⟩, .update, .proceed, .proceed, .proceed,
      .modify 0 ⟨.oneshot, timeOfDay 11 0 0⟩, .proceed, .start 0]
  have run : (system Rtc.plain alarmMkdaysec).Run _ _ :=
    .executed atNine events ⟨rfl, rfl, rfl, rfl, fun _ => ⟨rfl, rfl⟩⟩ (by decide +kernel)
  exact absurd (claim _ _ run).1 (by decide +kernel)

end RtThread.Alarm
