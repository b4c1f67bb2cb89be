import RtThread.Library.TransitionSystem
import RtThread.Library.Cyclic

/-!
# RTC alarms

The alarm service over one RTC device.  An update of the alarms goes through the list,
wakes the alarms that are due, which may call back into the service, and then chooses the
next alarm.  The calls that wait for an update to end are kept on a stack, so that a
callback can start, stop, modify and delete alarms as any caller can.
-/

namespace RtThread.Alarm

universe u

/-- `struct tm`, as far as the service reads it. -/
structure Tm where
  tmSec : Int
  tmMin : Int
  tmHour : Int
  tmMday : Int
  tmMon : Int
  tmYear : Int
  tmWday : Int
  deriving DecidableEq

structure RtRtcWkalarm where
  enable : Bool
  tmSec : Int
  tmMin : Int
  tmHour : Int
  deriving DecidableEq

def InDay (tmSec tmMin tmHour : Int) : Prop :=
  (0 ≤ tmSec ∧ tmSec ≤ 59) ∧ (0 ≤ tmMin ∧ tmMin ≤ 59) ∧ 0 ≤ tmHour ∧ tmHour ≤ 23

instance (tmSec tmMin tmHour : Int) : Decidable (InDay tmSec tmMin tmHour) := instDecidableAnd

/-- The RTC device: what it holds after `RT_DEVICE_CTRL_RTC_SET_ALARM`, and what
`RT_DEVICE_CTRL_RTC_GET_ALARM` reads from that.  Either may fail; what is read is a time of
day, perhaps of a lower precision. -/
structure Rtc where
  set : RtRtcWkalarm → Option RtRtcWkalarm
  get : RtRtcWkalarm → Option RtRtcWkalarm
  get_inDay : ∀ held, ∀ read ∈ get held, InDay read.tmSec read.tmMin read.tmHour

def Rtc.plain : Rtc where
  set := some
  get held := if InDay held.tmSec held.tmMin held.tmHour then some held else none
  get_inDay := by
    intro held read isRead
    obtain ⟨inDay, isHeld⟩ := Option.ite_none_right_eq_some.mp isRead
    exact Option.some.inj isHeld ▸ inDay

def rtRtcYearsMax : Int := 137

def rtAlarmDelay : Int := 2

def rtAlarmTmNow : Int := -1

/-- `flag & 0xFF00`. -/
inductive Kind where
  | oneshot
  | daily
  | weekly
  | monthly
  | yearly
  | other
  deriving DecidableEq

/-- `struct rt_alarm`: the bits `RT_ALARM_STATE_START` and `RT_ALARM_STATE_INITED` of its
flag, whether it has a callback, and its time. -/
structure RtAlarm where
  start : Bool
  inited : Bool
  kind : Kind
  callback : Bool
  wktime : Tm

structure RtAlarmSetup where
  kind : Kind
  wktime : Tm

def alarmMkdaysec (time : Tm) : Int := time.tmSec + time.tmMin * 60 + time.tmHour * 3600

def toUint32 (value : Int) : Int := value % 2 ^ 32

def withinDelay (secNow secAlarm : Int) : Bool := toUint32 (secNow - secAlarm) ≤ rtAlarmDelay

def justPast (secNow secAlarm : Int) : Bool :=
  withinDelay secNow secAlarm && decide (toUint32 secAlarm ≤ toUint32 secNow)

/-- The tests of `alarm_wakeup` for a started alarm, with the `mktime` of the C library. -/
def isDue (mktime : Tm → Int) (alarm : RtAlarm) (now : Tm) : Bool :=
  let secAlarm := alarmMkdaysec alarm.wktime
  let secNow := alarmMkdaysec now
  match alarm.kind with
  | .oneshot => justPast (mktime now) (mktime alarm.wktime)
  | .daily => justPast secNow secAlarm
  | .weekly =>
    justPast (secNow + now.tmWday * 24 * 3600) (secAlarm + alarm.wktime.tmWday * 24 * 3600)
  | .monthly => decide (alarm.wktime.tmMday = now.tmMday) && withinDelay secNow secAlarm
  | .yearly =>
    decide (alarm.wktime.tmMday = now.tmMday) && decide (alarm.wktime.tmMon = now.tmMon) &&
      withinDelay secNow secAlarm
  | .other => false

def daysOfYearMonth (tmYear tmMon : Int) : Int :=
  let year := tmYear + 1900
  if tmMon = 1 then
    28 + (if (year % 4 = 0 ∧ year % 100 ≠ 0) ∨ year % 400 = 0 then 1 else 0)
  else if (tmMon ≤ 6 ∧ tmMon % 2 = 0) ∨ (6 < tmMon ∧ tmMon % 2 = 1) then 31
  else 30

def isValidDate (date : Tm) : Bool :=
  decide (¬ (date.tmYear < 0 ∨ rtRtcYearsMax < date.tmYear) ∧
    ¬ (date.tmMon < 0 ∨ 11 < date.tmMon) ∧
    ¬ (date.tmMday < 1 ∨ daysOfYearMonth date.tmYear date.tmMon < date.tmMday))

/-- A value outside of its range is a "don't care" value, set to now. -/
def orNow (value low high now : Int) : Int := if high < value ∨ value < low then now else value

def lastMday (tmMon : Int) : Int :=
  if tmMon = 1 then 29
  else if (tmMon ≤ 6 ∧ tmMon % 2 = 0) ∨ (6 < tmMon ∧ tmMon % 2 = 1) then 31
  else 30

/-- The switch of `alarm_setup`; `none` where it leaves with an error. -/
def setupDate (kind : Kind) (setup now : Tm) : Tm × Bool :=
  match kind with
  | .daily => (setup, true)
  | .oneshot =>
    let setup :=
      { setup with
        tmYear := if setup.tmYear = rtAlarmTmNow then now.tmYear else setup.tmYear
        tmMon := if setup.tmMon = rtAlarmTmNow then now.tmMon else setup.tmMon
        tmMday := if setup.tmMday = rtAlarmTmNow then now.tmMday else setup.tmMday }
    (setup, isValidDate setup)
  | .weekly => ({ setup with tmWday := orNow setup.tmWday 0 6 now.tmWday }, true)
  | .monthly => ({ setup with tmMday := orNow setup.tmMday 1 31 now.tmMday }, true)
  | .yearly =>
    let setup := { setup with tmMon := orNow setup.tmMon 0 11 now.tmMon }
    ({ setup with tmMday := orNow setup.tmMday 1 (lastMday setup.tmMon) now.tmMday }, true)
  | .other => (setup, false)

def alarmSetup (alarm : RtAlarm) (wktime now : Tm) : RtAlarm × Bool :=
  let setup :=
    { wktime with
      tmSec := orNow wktime.tmSec 0 59 now.tmSec
      tmMin := orNow wktime.tmMin 0 59 now.tmMin
      tmHour := orNow wktime.tmHour 0 23 now.tmHour }
  let (setup, valid) := setupDate alarm.kind setup now
  if valid = false then ({ alarm with wktime := setup }, false)
  else
    let setup :=
      if setup.tmHour = 23 ∧ setup.tmMin = 59 ∧ setup.tmSec = 59 then
        { setup with tmSec := 60 - rtAlarmDelay }
      else setup
    ({ alarm with wktime := setup, inited := true }, true)

/-- A call that has begun: `alarm_update` behind `position` of its list, inside the callback
of the alarm there if `calling`; `alarm_update` after its first loop; the rest of
`rt_alarm_control` and of `rt_alarm_delete`. -/
inductive Frame (Id : Type u) where
  | scan (position : Option Id) (now : Tm) (calling : Bool)
  | select
  | modify (id : Id) (setup : RtAlarmSetup)
  | delete (id : Id)

/-- The container, the alarms, the alarm that the device holds, the time, whether the service
thread has begun, and the calls in progress, the innermost first. -/
structure State (Id : Type u) where
  head : List Id
  alarm : Id → RtAlarm
  current : Option Id
  wkalarm : RtRtcWkalarm
  now : { time : Tm // InDay time.tmSec time.tmMin time.tmHour }
  serving : Bool
  stack : List (Frame Id)

variable {Id : Type u} [DecidableEq Id]

namespace State

def setAlarm (s : State Id) (id : Id) (alarm : RtAlarm) : State Id :=
  { s with alarm := Function.update s.alarm id alarm }

def secNow (s : State Id) : Int := alarmMkdaysec s.now.val

def secAlarm (s : State Id) (id : Id) : Int := alarmMkdaysec (s.alarm id).wktime

def request (s : State Id) (id : Id) : RtRtcWkalarm :=
  let alarm := s.alarm id
  ⟨alarm.start, alarm.wktime.tmSec, alarm.wktime.tmMin, alarm.wktime.tmHour⟩

def alarmSet (rtc : Rtc) (s : State Id) (id : Id) : State Id × Bool :=
  match rtc.set (s.request id) with
  | none => (s, false)
  | some held =>
    let s := { s with wkalarm := held }
    let alarm := s.alarm id
    if alarm.start = false then (s, true)
    else
      match rtc.get held with
      | none => (s, false)
      | some read =>
        let wktime :=
          { alarm.wktime with
            tmSec := read.tmSec
            tmMin := read.tmMin
            tmHour := read.tmHour }
        (s.setAlarm id { alarm with wktime }, true)

def alarmWakeup (rtc : Rtc) (mktime : Tm → Int) (s : State Id) (id : Id) (now : Tm) :
    State Id × Bool :=
  let alarm := s.alarm id
  if alarm.start && isDue mktime alarm now then
    if alarm.kind = .oneshot then
      (((s.setAlarm id { alarm with start := false }).alarmSet rtc id).1, alarm.callback)
    else (s, alarm.callback)
  else (s, false)

def alarmUpdate (s : State Id) : State Id :=
  if s.head = [] then s
  else { s with stack := .scan none s.now.val false :: s.stack }

end State

/-- The variables of the second loop of `alarm_update`. -/
structure Search (Id : Type u) where
  secNext : Int
  almNext : Option Id
  secPrev : Int
  almPrev : Option Id

namespace State

/-- An alarm that the second loop of `alarm_update` considers. -/
def Candidate (s : State Id) (id : Id) : Prop :=
  (s.alarm id).start = true ∧ s.current ≠ some id

instance (s : State Id) (id : Id) : Decidable (s.Candidate id) := instDecidableAnd

def searchRound (s : State Id) (search : Search Id) (id : Id) : Search Id :=
  if s.Candidate id then
    let secTmp := s.secAlarm id - s.secNow
    if 0 < secTmp then
      if secTmp < search.secNext then { search with secNext := secTmp, almNext := some id }
      else search
    else if secTmp < search.secPrev then { search with secPrev := secTmp, almPrev := some id }
    else search
  else search

/-- The alarm that `alarm_update` enables: the nearest after now, or else the first of the
day. -/
def nextAlarm (s : State Id) : Option Id :=
  let search := s.head.foldl s.searchRound ⟨24 * 3600, none, 0, none⟩
  if search.secNext < 24 * 3600 then search.almNext
  else if search.secPrev < 0 then search.almPrev
  else none

def enable (rtc : Rtc) (s : State Id) (id : Id) : State Id :=
  let (s, isSet) := s.alarmSet rtc id
  if isSet then { s with current := some id } else s

/-- The tests of `rt_alarm_start` against the current alarm. -/
def Overtakes (secNow secOld secNew : Int) : Prop :=
  (secNew < secOld ∧ secNow < secNew) ∨ (secNow < secNew ∧ secOld < secNow) ∨
    (secNew < secOld ∧ secOld < secNow)

instance (secNow secOld secNew : Int) : Decidable (Overtakes secNow secOld secNew) :=
  instDecidableOr

/-- The alarm as `rt_alarm_start` sets it up, and whether it goes on. -/
def setUp (s : State Id) (id : Id) : RtAlarm × Bool :=
  let alarm := s.alarm id
  if alarm.inited then (alarm, true) else alarmSetup alarm alarm.wktime s.now.val

def rtAlarmStart (rtc : Rtc) (s : State Id) (id : Id) : State Id :=
  let (alarm, isSetUp) := s.setUp id
  let s := s.setAlarm id alarm
  if isSetUp = false ∨ alarm.start = true then s
  else
    let s := s.setAlarm id { alarm with start := true }
    match s.current with
    | none => s.enable rtc id
    | some old =>
      if Overtakes s.secNow (s.secAlarm old) (s.secAlarm id) then
        s.enable rtc id
      else s

def rtAlarmStop (rtc : Rtc) (s : State Id) (id : Id) : State Id :=
  let alarm := s.alarm id
  if alarm.start = false then s
  else
    let s := s.setAlarm id { alarm with start := false }
    if s.current = some id then
      let (s, isSet) := s.alarmSet rtc id
      let s := { s with current := none }
      if isSet then s.alarmUpdate else s
    else s

/-- `rt_alarm_control` with `RT_ALARM_CTRL_MODIFY`, up to the return of `rt_alarm_stop`. -/
def rtAlarmControl (rtc : Rtc) (s : State Id) (id : Id) (setup : RtAlarmSetup) : State Id :=
  { s with stack := .modify id setup :: s.stack }.rtAlarmStop rtc id

def modifyRest (s : State Id) (id : Id) (setup : RtAlarmSetup) : State Id :=
  let alarm :=
    { s.alarm id with
      start := false
      inited := false
      kind := setup.kind
      wktime := setup.wktime }
  s.setAlarm id (alarmSetup alarm alarm.wktime s.now.val).1

/-- `rt_alarm_delete`, up to the removal from the list. -/
def rtAlarmDelete (rtc : Rtc) (s : State Id) (id : Id) : State Id :=
  let s :=
    { s with stack := .delete id :: s.stack }.setAlarm id
      { s.alarm id with start := false }
  if s.current = some id then
    { (s.alarmSet rtc id).1 with current := none }.alarmUpdate
  else s

def rtAlarmCreate (s : State Id) (id : Id) (callback : Bool) (setup : RtAlarmSetup) :
    State Id :=
  { s.setAlarm id
      { start := false
        inited := false
        kind := setup.kind
        callback
        wktime := setup.wktime } with
    head := id :: s.head }

def next (s : State Id) : Option Id → Option (Option Id)
  | none => some s.head.head?
  | some id =>
    if id ∈ s.head then some (s.head.dropWhile (· ≠ id)).tail.head? else none

/-- The innermost call goes on: a callback returns, or its caller does its next part. -/
def proceed (rtc : Rtc) (mktime : Tm → Int) (s : State Id) : Option (State Id) :=
  match s.stack with
  | [] => none
  | .scan position now true :: rest =>
    some { s with stack := .scan position now false :: rest }
  | .scan position now false :: rest =>
    match s.next position with
    | none => none
    | some none => some { s with stack := .select :: rest }
    | some (some id) =>
      let (s, calling) := s.alarmWakeup rtc mktime id now
      some { s with stack := .scan (some id) now calling :: rest }
  | .select :: rest =>
    let s := { s with stack := rest }
    match s.nextAlarm with
    | none => some s
    | some id => some (s.enable rtc id)
  | .modify id setup :: rest => some ({ s with stack := rest }.modifyRest id setup)
  | .delete id :: rest =>
    some { s with stack := rest, head := s.head.filter (· ≠ id) }

def isOpen (s : State Id) : Bool :=
  match s.stack with
  | [] => true
  | .scan _ _ calling :: _ => calling
  | _ => false

end State

inductive Event (Id : Type u) where
  | create (id : Id) (callback : Bool) (setup : RtAlarmSetup)
  | start (id : Id)
  | stop (id : Id)
  | modify (id : Id) (setup : RtAlarmSetup)
  | delete (id : Id)
  | serve
  | update
  | proceed
  | clock (now : { time : Tm // InDay time.tmSec time.tmMin time.tmHour })

/-- One step.  The calls take an alarm that has been created and not been deleted. -/
def step (rtc : Rtc) (mktime : Tm → Int) (s : State Id) : Event Id → Option (State Id)
  | .create id callback setup =>
    if s.isOpen = true ∧ id ∉ s.head then some (s.rtAlarmCreate id callback setup) else none
  | .start id =>
    if s.isOpen = true ∧ id ∈ s.head then some (s.rtAlarmStart rtc id) else none
  | .stop id => if s.isOpen = true ∧ id ∈ s.head then some (s.rtAlarmStop rtc id) else none
  | .modify id setup =>
    if s.isOpen = true ∧ id ∈ s.head then some (s.rtAlarmControl rtc id setup) else none
  | .delete id =>
    if s.isOpen = true ∧ id ∈ s.head then some (s.rtAlarmDelete rtc id) else none
  | .serve =>
    if s.serving = false then some { s with serving := true, current := none } else none
  | .update =>
    if s.stack = [] ∧ s.serving = true then some s.alarmUpdate else none
  | .proceed => s.proceed rtc mktime
  | .clock now => some { s with now }

def Initial (s : State Id) : Prop :=
  s.head = [] ∧ s.current = none ∧ s.stack = [] ∧ s.serving = false ∧
    ∀ id, (s.alarm id).start = false ∧ (s.alarm id).inited = false

def system (rtc : Rtc) (mktime : Tm → Int) : TransitionSystem (State Id) (Event Id) :=
  .ofFunction Initial (step rtc mktime)

variable {Id : Type u}

theorem alarmMkdaysec_bounds {time : Tm} (inDay : InDay time.tmSec time.tmMin time.tmHour) :
    0 ≤ alarmMkdaysec time ∧ alarmMkdaysec time < 24 * 3600 := by
  obtain ⟨⟨_, _⟩, ⟨_, _⟩, _, _⟩ := inDay
  unfold alarmMkdaysec
  omega

namespace State

variable {s : State Id}

def ahead (s : State Id) (id : Id) : Int :=
  CyclicDistance.ahead (24 * 3600) s.secNow (s.secAlarm id)

def Timed (s : State Id) (id : Id) : Prop :=
  let time := (s.alarm id).wktime
  InDay time.tmSec time.tmMin time.tmHour

theorem secNow_bounds (s : State Id) : 0 ≤ s.secNow ∧ s.secNow < 24 * 3600 :=
  alarmMkdaysec_bounds s.now.property

theorem ahead_cases (s : State Id) {id : Id} (timed : s.Timed id) :
    (s.secNow ≤ s.secAlarm id ∧ s.ahead id = s.secAlarm id - s.secNow) ∨ (s.secAlarm id < s.secNow ∧
        s.ahead id = s.secAlarm id - s.secNow + 24 * 3600) := by
  have nowBounds := s.secNow_bounds
  have bounds : 0 ≤ s.secAlarm id ∧ s.secAlarm id < 24 * 3600 := alarmMkdaysec_bounds timed
  rcases Int.lt_or_le (s.secAlarm id) s.secNow with behind | notBehind
  · exact .inr ⟨behind, CyclicDistance.ahead_of_lt (by omega) behind⟩
  · exact .inl ⟨notBehind, CyclicDistance.ahead_of_le (by omega) notBehind⟩

theorem overtakes_iff {old new : Id} (timedOld : s.Timed old) (timedNew : s.Timed new)
    (later : s.secAlarm new ≠ s.secNow) :
    Overtakes s.secNow (s.secAlarm old) (s.secAlarm new) ↔ s.ahead new < s.ahead old := by
  have oldBounds : 0 ≤ s.secAlarm old ∧ s.secAlarm old < 24 * 3600 := alarmMkdaysec_bounds timedOld
  have newBounds : 0 ≤ s.secAlarm new ∧ s.secAlarm new < 24 * 3600 := alarmMkdaysec_bounds timedNew
  unfold Overtakes
  rcases s.ahead_cases timedOld with ⟨oldAhead, oldEq⟩ | ⟨oldBehind, oldEq⟩ <;>
    rcases s.ahead_cases timedNew with ⟨newAhead, newEq⟩ | ⟨newBehind, newEq⟩ <;>
      rw [oldEq, newEq] <;> omega

/-- What the second loop of `alarm_update` has found among the alarms `seen`. -/
structure Found (s : State Id) (seen : List Id) (search : Search Id) : Prop where
  next : (search.secNext = 24 * 3600 ∧ search.almNext = none) ∨
    ∃ id ∈ seen, search.almNext = some id ∧ s.Candidate id ∧
      search.secNext = s.secAlarm id - s.secNow ∧ 0 < search.secNext
  next_le : ∀ id ∈ seen, s.Candidate id → 0 < s.secAlarm id - s.secNow →
    search.secNext ≤ s.secAlarm id - s.secNow
  prev : (search.secPrev = 0 ∧ search.almPrev = none) ∨
    ∃ id ∈ seen, search.almPrev = some id ∧ s.Candidate id ∧
      search.secPrev = s.secAlarm id - s.secNow ∧ search.secPrev < 0
  prev_le : ∀ id ∈ seen, s.Candidate id → s.secAlarm id - s.secNow ≤ 0 →
    search.secPrev ≤ s.secAlarm id - s.secNow

theorem Found.skip {seen : List Id} {search : Search Id} (found : s.Found seen search) {id : Id}
    (notNext : s.Candidate id → 0 < s.secAlarm id - s.secNow →
      search.secNext ≤ s.secAlarm id - s.secNow)
    (notPrev : s.Candidate id → s.secAlarm id - s.secNow ≤ 0 →
      search.secPrev ≤ s.secAlarm id - s.secNow) : s.Found (seen ++ [id]) search where
  next := found.next.imp_right fun ⟨other, isSeen, rest⟩ =>
    ⟨other, List.mem_append_left _ isSeen, rest⟩
  next_le := by
    intro other mem candidate
    rcases List.mem_append.mp mem with isSeen | isNew
    · exact found.next_le other isSeen candidate
    · obtain rfl := List.mem_singleton.mp isNew
      exact notNext candidate
  prev := found.prev.imp_right fun ⟨other, isSeen, rest⟩ =>
    ⟨other, List.mem_append_left _ isSeen, rest⟩
  prev_le := by
    intro other mem candidate
    rcases List.mem_append.mp mem with isSeen | isNew
    · exact found.prev_le other isSeen candidate
    · obtain rfl := List.mem_singleton.mp isNew
      exact notPrev candidate

variable [DecidableEq Id]

theorem Found.searchRound {seen : List Id} {search : Search Id} (found : s.Found seen search)
    (id : Id) : s.Found (seen ++ [id]) (s.searchRound search id) := by
  simp only [State.searchRound]
  split_ifs with candidate ahead nearer a
  · -- the nearest so far
    refine ⟨.inr ⟨id, by simp, rfl, candidate, rfl, ahead⟩, ?_, ?_, ?_⟩
    · intro other mem isCandidate isAhead
      rcases List.mem_append.mp mem with isSeen | isNew
      · exact Int.le_trans (Int.le_of_lt nearer) (found.next_le other isSeen isCandidate isAhead)
      · obtain rfl := List.mem_singleton.mp isNew
        exact Int.le_refl _
    · exact found.prev.imp_right fun ⟨other, isSeen, rest⟩ =>
        ⟨other, List.mem_append_left _ isSeen, rest⟩
    · intro other mem isCandidate behind
      rcases List.mem_append.mp mem with isSeen | isNew
      · exact found.prev_le other isSeen isCandidate behind
      · obtain rfl := List.mem_singleton.mp isNew
        omega
  · exact found.skip (fun _ _ => by omega) (fun _ behind => by omega)
  · -- the first of the day so far
    refine ⟨?_, ?_, .inr ⟨id, by simp, rfl, candidate, rfl, ?_⟩, ?_⟩
    · exact found.next.imp_right fun ⟨other, isSeen, rest⟩ =>
        ⟨other, List.mem_append_left _ isSeen, rest⟩
    · intro other mem isCandidate isAhead
      rcases List.mem_append.mp mem with isSeen | isNew
      · exact found.next_le other isSeen isCandidate isAhead
      · obtain rfl := List.mem_singleton.mp isNew
        exact absurd isAhead ahead
    · have nonpos : search.secPrev ≤ 0 := by
        rcases found.prev with ⟨zero, -⟩ | ⟨_, -, -, -, -, negative⟩ <;> omega
      simp only
      omega
    · intro other mem isCandidate behind
      rcases List.mem_append.mp mem with isSeen | isNew
      · exact Int.le_trans (Int.le_of_lt a) (found.prev_le other isSeen isCandidate behind)
      · obtain rfl := List.mem_singleton.mp isNew
        exact Int.le_refl _
  · exact found.skip (fun _ isAhead => absurd isAhead ahead) (fun _ _ => by omega)
  · exact found.skip (fun isCandidate => absurd isCandidate candidate)
      (fun isCandidate => absurd isCandidate candidate)

theorem found_head (s : State Id) (seen : List Id) :
    s.Found seen (seen.foldl s.searchRound ⟨24 * 3600, none, 0, none⟩) := by
  induction seen using List.reverseRecOn with
  | nil => exact ⟨.inl ⟨rfl, rfl⟩, by simp, .inl ⟨rfl, rfl⟩, by simp⟩
  | append_singleton seen id ih =>
    rw [List.foldl_append]
    exact ih.searchRound id

theorem nextAlarm_spec (timed : ∀ id, (s.alarm id).start = true → s.Timed id) {id : Id}
    (isNext : s.nextAlarm = some id) : id ∈ s.head ∧ s.Candidate id ∧ s.secAlarm id ≠ s.secNow ∧
      ∀ other ∈ s.head, s.Candidate other → s.secAlarm other ≠ s.secNow →
        s.ahead id ≤ s.ahead other := by
  have found := s.found_head s.head
  simp only [nextAlarm] at isNext
  split_ifs at isNext with some_ahead some_behind
  · rcases found.next with ⟨atEnd, -⟩ | ⟨next, isIn, isAlm, candidate, secNext, pos⟩
    · omega
    · obtain rfl : next = id := Option.some.inj (isAlm.symm.trans isNext)
      refine ⟨isIn, candidate, by omega, ?_⟩
      intro other otherIn otherCandidate notNow
      have le := found.next_le other otherIn otherCandidate
      have nextCases := s.ahead_cases (timed next candidate.1)
      have otherCases := s.ahead_cases (timed other otherCandidate.1)
      have otherBounds : 0 ≤ s.secAlarm other ∧ s.secAlarm other < 24 * 3600 :=
        alarmMkdaysec_bounds (timed other otherCandidate.1)
      have nextBounds : 0 ≤ s.secAlarm next ∧ s.secAlarm next < 24 * 3600 :=
        alarmMkdaysec_bounds (timed next candidate.1)
      omega
  · rcases found.prev with ⟨atZero, -⟩ | ⟨prev, isIn, isAlm, candidate, secPrev, negative⟩
    · omega
    · obtain rfl : prev = id := Option.some.inj (isAlm.symm.trans isNext)
      refine ⟨isIn, candidate, by omega, ?_⟩
      intro other otherIn otherCandidate notNow
      have next_le := found.next_le other otherIn otherCandidate
      have le := found.prev_le other otherIn otherCandidate
      have prevCases := s.ahead_cases (timed prev candidate.1)
      have otherCases := s.ahead_cases (timed other otherCandidate.1)
      omega

theorem due_of_nextAlarm_eq_none (timed : ∀ id, (s.alarm id).start = true → s.Timed id)
    (isNone : s.nextAlarm = none) : ∀ id ∈ s.head, s.Candidate id → s.secAlarm id = s.secNow := by
  intro id isIn candidate
  have found := s.found_head s.head
  have next_le := found.next_le id isIn candidate
  have prev_le := found.prev_le id isIn candidate
  have bounds : 0 ≤ s.secAlarm id ∧ s.secAlarm id < 24 * 3600 :=
    alarmMkdaysec_bounds (timed id candidate.1)
  have nowBounds := s.secNow_bounds
  simp only [nextAlarm] at isNone
  split_ifs at isNone with some_ahead some_behind
  · rcases found.next with ⟨atEnd, -⟩ | ⟨next, -, isAlm, -⟩
    · omega
    · exact nomatch isNone.symm.trans isAlm
  · rcases found.prev with ⟨atZero, -⟩ | ⟨prev, -, isAlm, -⟩
    · omega
    · exact nomatch isNone.symm.trans isAlm
  · omega

end State

end RtThread.Alarm
