import RtThread.Dfs.SelectCalls

/-!
# Calls to select in a run

Every call to `select` tracks its call to `poll`; so each one that returns has its result from
the last examination of all its descriptors, behind the timeout if none had an answer.
-/

open Function (update_self update_eq_self)

namespace RtThread.Dfs.Select

open Poll
open Option (map_eq_some_iff mem_unique not_mem_none some_get map_some)

universe u v

variable {Tid : Type u} {Queue : Type v}

/-- Each call to `select` is in a call to `poll` that it made. -/
def AllTrack (tickPerSecond : Nat) (selecting : Tid → Option Selecting)
    (call : Tid → Option (Poll.Call Tid Queue)) : Prop :=
  ∀ t, ∀ one ∈ selecting t, ∃ own ∈ call t, Tracks tickPerSecond one own

/-- How a call has returned: without memory, or behind its call to `poll`. -/
def Settled (tickPerSecond : Nat) (returned : Returned) : Prop :=
  (∃ request : Request, returned = request.failed) ∨
    ∃ selecting fds elapsed num, returned = selecting.returned fds elapsed num ∧
      Polled selecting fds num ∧ (num = 0 →
        ∃ limit ∈ rtTickFromMillisecond tickPerSecond selecting.request.msec, limit ≤ elapsed)

variable {t : Tid}

section

variable [DecidableEq Tid] {tickPerSecond : Nat} {selecting : Tid → Option Selecting}
  {call : Tid → Option (Poll.Call Tid Queue)}

section

variable (allTrack : AllTrack tickPerSecond selecting call)

include allTrack

theorem AllTrack.update (t : Tid) (next : Option Selecting) (own : Option (Poll.Call Tid Queue))
    (tracks : ∀ one ∈ next, ∃ called ∈ own, Tracks tickPerSecond one called) :
    AllTrack tickPerSecond (Function.update selecting t next) (Function.update call t own) := by
  intro other
  by_cases isT : other = t
  · subst isT
    simpa using tracks
  · simpa [isT] using allTrack other

theorem AllTrack.update_call {own next : Poll.Call Tid Queue} (called : call t = some own)
    (tracks : ∀ one, Tracks tickPerSecond one own → Tracks tickPerSecond one next) :
    AllTrack tickPerSecond selecting (Function.update call t (some next)) := by
  have updated := allTrack.update t (selecting t) (some next) fun one isOne => by
    obtain ⟨_, isOwn, tracked⟩ := allTrack t one isOne
    obtain rfl := mem_unique called isOwn
    exact ⟨next, rfl, tracks one tracked⟩
  rwa [update_eq_self] at updated

omit [DecidableEq Tid] in
theorem AllTrack.none (idle : call t = none) : selecting t = none := by
  cases isOne : selecting t with
  | none => rfl
  | some one =>
    obtain ⟨own, isOwn, -⟩ := allTrack t one isOne
    rw [idle] at isOwn
    exact absurd isOwn (not_mem_none own)

end

end

namespace State

variable [DecidableEq Tid] [DecidableEq Queue] {tickPerSecond : Nat} {s after : State Tid Queue}

structure Invariant (tickPerSecond : Nat) (s : State Tid Queue) : Prop where
  allTrack : AllTrack tickPerSecond s.selecting s.poll.call
  settled : ∀ returned ∈ s.returned, Settled tickPerSecond returned

section

variable (inv : s.Invariant tickPerSecond)

include inv

variable {call : Poll.Call Tid Queue}

theorem Invariant.pollAdd (called : s.poll.call t = some call) (pollfd : Pollfd) (q : Queue)
    (allocated : Bool) :
    AllTrack tickPerSecond s.selecting (s.poll.pollAdd t call pollfd q allocated).call := by
  unfold Poll.State.pollAdd
  split_ifs
  · exact inv.allTrack.update_call called fun _ tracks => tracks.congr _ _
  · exact inv.allTrack.update_call called fun _ tracks => tracks.congr _ _
  · exact inv.allTrack

theorem Invariant.wakeup (q : Queue) (key : UInt32) :
    AllTrack tickPerSecond s.selecting (s.poll.wakeup q key).call := by
  unfold Poll.State.wakeup
  split
  · exact inv.allTrack
  · rename_i e _
    cases e with
    | wait number => exact inv.allTrack
    | node t i own =>
      cases called : s.poll.call t with
      | none =>
        have same := update_eq_self t s.poll.call
        rw [called] at same
        change AllTrack tickPerSecond s.selecting
          (Function.update s.poll.call t ((s.poll.call t).map Poll.Call.wake))
        rw [called, Option.map_none, same]
        exact inv.allTrack
      | some call =>
        change AllTrack tickPerSecond s.selecting
          (Function.update s.poll.call t ((s.poll.call t).map Poll.Call.wake))
        rw [called, map_some]
        exact inv.allTrack.update_call called fun _ tracks => tracks.wake

omit [DecidableEq Queue] in
theorem Invariant.ended {num : Nat} (called : s.poll.call t = some call)
    (isLeaving : call.phase = .leaving num) :
    (s.proceeded t (s.poll.setCall t none)).Invariant tickPerSecond := by
  have gone : (s.poll.setCall t none).call t = none := update_self ..
  unfold State.proceeded
  rw [called, gone]
  cases isOne : s.selecting t with
  | none =>
    refine ⟨?_, inv.settled⟩
    have updated := inv.allTrack.update t none none (by simp)
    have same := update_eq_self t s.selecting
    rw [isOne] at same
    rwa [same] at updated
  | some one =>
    obtain ⟨own, isOwn, tracks⟩ := inv.allTrack t one isOne
    obtain rfl := mem_unique called isOwn
    simp only [isLeaving]
    refine ⟨inv.allTrack.update t none none (by simp), ?_⟩
    intro ret isReturned
    rcases List.mem_cons.mp isReturned with rfl | earlier
    · refine .inr ⟨one, call.fds, call.elapsed, num, rfl, tracks.polled isLeaving, fun zero => ?_⟩
      have due := (tracks.leaving num isLeaving).2 zero
      unfold Poll.Call.Due at due
      rwa [tracks.timeout] at due
    · exact inv.settled ret earlier

omit [DecidableEq Queue] in
theorem Invariant.proceed (called : s.poll.call t = some call) {poll : Poll.State Tid Queue}
    (proceeded : s.poll.proceed t call = some poll) :
    (s.proceeded t poll).Invariant tickPerSecond := by
  have still : ∀ next : Poll.Call Tid Queue, poll.call = Function.update s.poll.call t (some next) →
      (∀ one, Tracks tickPerSecond one call → Tracks tickPerSecond one next) →
        (s.proceeded t poll).Invariant tickPerSecond := by
    intro next isNext tracks
    have goesOn : s.proceeded t poll = { s with poll } := by
      unfold State.proceeded
      rw [isNext, update_self]
      cases s.selecting t <;> cases s.poll.call t <;> rfl
    rw [goesOn]
    refine ⟨?_, inv.settled⟩
    change AllTrack tickPerSecond s.selecting poll.call
    rw [isNext]
    exact inv.allTrack.update_call called tracks
  unfold Poll.State.proceed at proceeded
  split at proceeded
  · rename_i n num isExamining
    obtain ⟨atEnd, proceeded⟩ := Option.ite_none_right_eq_some.mp proceeded
    cases proceeded
    exact still _ rfl fun _ tracks => tracks.concluded (atEnd ▸ isExamining)
  · cases proceeded
    exact still _ rfl fun _ tracks => tracks.waits
  · simp at proceeded
  · rename_i isWoken
    cases proceeded
    exact still _ rfl fun _ tracks => tracks.reexamine (tracks.woken isWoken)
  · rename_i num isLeaving
    split at proceeded
    · cases proceeded
      exact inv.ended called isLeaving
    · rename_i i _
      cases proceeded
      exact still _ rfl fun _ tracks => tracks.congr i call.offers

theorem Invariant.select {request : Request} {allocated : Bool}
    (ran : s.step tickPerSecond (.select t request allocated) = some after) :
    after.Invariant tickPerSecond := by
  simp only [step] at ran
  split at ran
  · rename_i idle
    split_ifs at ran
    · cases ran
      refine ⟨inv.allTrack, fun ret isReturned => ?_⟩
      rcases List.mem_cons.mp isReturned with rfl | earlier
      · exact .inl ⟨request, rfl⟩
      · exact inv.settled ret earlier
    · simp only [Poll.State.step, idle, map_some, Option.some.injEq] at ran
      subst ran
      refine ⟨inv.allTrack.update t _ _ fun one isOne => ?_, inv.settled⟩
      cases isOne
      exact ⟨_, rfl, Tracks.init tickPerSecond request _⟩
  · simp at ran

theorem Invariant.examined {file : Option (Option Int32)} {poll : Poll.State Tid Queue}
    (ran : s.poll.step tickPerSecond (.examined t file) = some poll) :
    AllTrack tickPerSecond (s.answered t file) poll.call := by
  simp only [Poll.State.step, Poll.State.examine] at ran
  unfold State.answered
  split at ran
  · rename_i call called
    split at ran
    · rename_i n num isExamining
      obtain ⟨pollfd, isNext, rfl⟩ := map_eq_some_iff.mp ran
      simp only [called, isExamining, isNext]
      refine inv.allTrack.update t _ _ fun one isOne => ?_
      obtain ⟨before, isBefore, rfl⟩ := map_eq_some_iff.mp isOne
      obtain ⟨own, isOwn, tracks⟩ := inv.allTrack t before isBefore
      obtain rfl := mem_unique called isOwn
      exact ⟨_, rfl, tracks.answered isExamining isNext file⟩
    · simp at ran
  · simp at ran

theorem Invariant.step {e : Event Tid Queue} (ran : s.step tickPerSecond e = some after) :
    after.Invariant tickPerSecond := by
  cases e with
  | select t request allocated => exact inv.select ran
  | poll e =>
    obtain ⟨poll, isPoll, rfl⟩ := map_eq_some_iff.mp ran
    cases e with
    | poll t fds msec =>
      simp only [Poll.State.step] at isPoll
      split at isPoll
      · rename_i idle
        cases isPoll
        have updated := inv.allTrack.update t none
          (some (Poll.Call.init tickPerSecond fds msec)) (by simp)
        have same := update_eq_self t s.selecting
        rw [inv.allTrack.none idle] at same
        rw [same] at updated
        exact ⟨updated, inv.settled⟩
      · simp at isPoll
    | pollAdd t q allocated =>
      obtain ⟨call, n, num, pollfd, called, -, rfl⟩ := Poll.State.examine_eq_some isPoll
      exact ⟨inv.pollAdd called pollfd q allocated, inv.settled⟩
    | examined t file => exact ⟨inv.examined isPoll, inv.settled⟩
    | proceed t =>
      obtain ⟨call, called, proceeded⟩ := Option.bind_eq_some_iff.mp isPoll
      exact inv.proceed called proceeded
    | wakeup q key =>
      cases isPoll
      exact ⟨inv.wakeup q key, inv.settled⟩
    | tick =>
      cases isPoll
      refine ⟨fun t one isOne => ?_, inv.settled⟩
      obtain ⟨own, isOwn, tracks⟩ := inv.allTrack t one isOne
      exact ⟨own.tick, map_eq_some_iff.mpr ⟨own, isOwn, rfl⟩, tracks.tick⟩
    | waitAdd q number | waitRemove q number =>
      cases isPoll
      exact ⟨inv.allTrack, inv.settled⟩

end

/-- In every run, a call to `select` that has returned is correct exactly if what its
descriptors show can be expressed in its sets, where the ticks of the wait cover the timeout. -/
theorem select_correct_iff (reachable : (system tickPerSecond).Reachable s)
    {ret : Returned} (isReturned : ret ∈ s.returned)
    (covered : ret.selecting.request.Covered tickPerSecond) : ret.Correct tickPerSecond ↔
      (ret.allocated = true → ret.selecting.Expressed) := by
  have inv : s.Invariant tickPerSecond := by
    refine reachable.invariant (fun a init => ?_)
      fun _ _ _ holds ran => holds.step ran
    obtain ⟨-, idle, none⟩ := init
    refine ⟨fun t one isOne => ?_, fun ret isReturned => ?_⟩
    · rw [idle t] at isOne
      exact absurd isOne (not_mem_none one)
    · rw [none] at isReturned
      exact absurd isReturned List.not_mem_nil
  rcases inv.settled ret isReturned with ⟨request, rfl⟩ |
      ⟨selecting, fds, elapsed, num, rfl, polled, due⟩
  · refine ⟨fun _ isAllocated => absurd isAllocated Bool.false_ne_true, fun _ => ?_⟩
    exact {
      failed := fun _ => ⟨rfl, rfl⟩
      total := fun isAllocated => absurd isAllocated Bool.false_ne_true
      sound := fun isAllocated => absurd isAllocated Bool.false_ne_true
      complete := fun isAllocated => absurd isAllocated Bool.false_ne_true
      timeout := fun zero => absurd (show (-1 : Int) = 0 from zero) (by decide) }
  · refine ⟨fun correct _ => Selecting.expressed_of_correct polled correct, fun expressed => ?_⟩
    refine Selecting.correct_of_expressed polled (fun zero => ?_) (expressed rfl)
    obtain ⟨limit, isLimit, passed⟩ := due zero
    cases isTimeout : selecting.request.timeout with
    | none => simp [Request.msec, isTimeout, rtTickFromMillisecond] at isLimit
    | some timeout =>
      refine ⟨timeout, isTimeout, (covered timeout isTimeout limit isLimit).trans ?_⟩
      change (limit : Int) * 1000000 ≤ (elapsed : Int) * 1000000
      omega

def idle : State Unit Unit := ⟨⟨fun _ => [], fun _ => none⟩, fun _ => none, []⟩

def readRequest (timeout : Option Timeval) : Request where
  nfds := 1
  sets := ⟨some (fdSet 0 fun _ => 0), none, none⟩
  timeout

def untilAnswered (timeout : Option Timeval) (file : Option (Option Int32)) :
    List (Event Unit Unit) :=
  [.select () (readRequest timeout) true, .poll (.examined () file), .poll (.proceed ()),
    .poll (.proceed ())]

theorem reachable_of_execute {events : List (Event Unit Unit)} {last : State Unit Unit}
    (executed : TransitionSystem.execute (step 100) idle events = some last) :
    (system 100).Reachable last := by
  have init : Initial idle := ⟨⟨fun _ => rfl, fun _ => rfl⟩, fun _ => rfl, rfl⟩
  have run : (system 100).Run _ last := .execute (.start init) executed
  exact run.reachable

def found : State Unit Unit :=
  (TransitionSystem.execute (step 100) idle
    (untilAnswered (some ⟨1, 500000⟩) (some (some pollin)))).get (by decide +kernel)

def reading : Returned := found.returned.head (by decide +kernel)

theorem reading_answer : reading.selecting.request.nfds.toInt = 1 ∧
    reading.selecting.files (.ofNat 0) = some (some pollin) := by
  decide +kernel

theorem select_finds_input : reading ∈ found.returned ∧ reading.Correct 100 := by
  have reachable : (system 100).Reachable found :=
    reachable_of_execute (some_get (by decide +kernel)).symm
  have isReturned : reading ∈ found.returned := List.head_mem _
  obtain ⟨one, file⟩ := reading_answer
  refine ⟨isReturned, (select_correct_iff reachable isReturned ?_).mpr fun _ => ?_⟩
  · intro timeout isTimeout limit isLimit
    have asked : reading.selecting.request.timeout = some ⟨1, 500000⟩ ∧
        rtTickFromMillisecond 100 reading.selecting.request.msec = some 150 := by
      decide +kernel
    rw [asked.2] at isLimit
    cases isTimeout
    cases isLimit
    decide
  · have zero : ∀ cond fd, reading.selecting.Requested cond fd → fd = 0 := by
      intro cond fd requested
      have inside := requested.1
      omega
    have quiet : ∀ mask, pollin &&& mask = 0 → ¬ reading.selecting.Shows mask 0 := by
      rintro mask apart ⟨other, isOther, shows⟩
      rw [file] at isOther
      cases isOther
      exact shows apart
    constructor
    case hangUp =>
      intro cond fd requested hungUp
      obtain rfl := zero cond fd requested
      exact absurd hungUp (quiet _ (by decide))
    case error =>
      intro cond fd requested inError
      obtain rfl := zero cond fd requested
      exact absurd inError (quiet _ (by decide))
    case failing =>
      intro cond fd requested failing
      obtain rfl := zero cond fd requested
      rcases failing with closed | failing
      · rw [file] at closed
        simp at closed
      · exact absurd failing (quiet _ (by decide))

def closed : State Unit Unit :=
  (TransitionSystem.execute (step 100) idle (untilAnswered none none)).get (by decide +kernel)

/-- A descriptor that is not open is reported as a timeout, though there is none. -/
theorem bad_descriptor_times_out : ¬ ∀ (last : State Unit Unit), (system 100).Reachable last →
      ∀ ret ∈ last.returned, ret.Correct 100 := by
  intro claim
  have reachable : (system 100).Reachable closed :=
    reachable_of_execute (some_get (by decide +kernel)).symm
  have correct := claim closed reachable _ (List.head_mem (by decide +kernel))
  obtain ⟨timeout, isTimeout, -⟩ := (correct.timeout (by decide +kernel)).1
  exact absurd isTimeout (not_mem_none timeout)

end State

end RtThread.Dfs.Select
