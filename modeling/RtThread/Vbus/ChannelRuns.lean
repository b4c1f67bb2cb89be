import RtThread.Vbus.ChannelSteps

/-!
# Runs of the channels

Under the condition on its steps a run keeps the invariant, and each of its steps is lawful.
-/

namespace RtThread.Vbus

universe u

open TransitionSystem

namespace State

variable {Tid : Type u} {s after : State Tid} {t : Tid}

variable {chnr : Nat}

theorem firstAvailable_eq (first : s.firstAvailable = some chnr) (ne : chnr ≠ 0) :
    isChannel chnr = true ∧ (s.chnStatus chnr).connected = false := by
  have available : s.chnStatus chnr = .available := by simpa using List.find?_some first
  have below : chnr < channelNr := List.mem_range.mp (List.mem_of_find?_eq_some first)
  exact ⟨by simp [isChannel, ne, below], by rw [available]; rfl⟩

theorem permitted_of_chn0Actor {dp : List UInt8} {actor : Actor}
    (found : s.chn0Actor dp = some actor) (admissible : s.Admissible actor) :
    s.Permitted actor := by
  unfold chn0Actor at found
  split at found
  · obtain ⟨slot, _, found⟩ := Option.bind_eq_some_iff.mp found
    cases slot with
    | none =>
      cases found
      trivial
    | some i =>
      dsimp only at found
      cases first : s.firstAvailable with
      | none =>
        simp only [first] at found
        cases found
        trivial
      | some chnr =>
        simp only [first] at found
        split_ifs at found with zero
        cases found
        exact ⟨admissible, firstAvailable_eq first zero⟩
  · dsimp only at found
    cases found
    split_ifs with channel
    · exact channel
    · trivial
  · obtain ⟨slot, _, found⟩ := Option.bind_eq_some_iff.mp found
    cases slot with
    | none =>
      cases found
      trivial
    | some i =>
      dsimp only at found
      cases found
      split_ifs at admissible ⊢ with channel available
      · exact ⟨admissible.1, admissible.2, channel⟩
      · trivial
      · trivial
  · split at found
    · obtain ⟨slot, _, found⟩ := Option.bind_eq_some_iff.mp found
      cases slot with
      | none =>
        cases found
        trivial
      | some i =>
        cases found
        exact admissible
    · dsimp only at found
      cases found
      split_ifs at admissible ⊢ with channel
      · exact ⟨channel, fun _ => admissible⟩
      · trivial
    · cases found
      trivial
  · split_ifs at found
    · obtain ⟨slot, _, found⟩ := Option.bind_eq_some_iff.mp found
      cases slot with
      | none | some i =>
        cases found
        trivial
    · cases found
      trivial
  · dsimp only at found
    cases found
    split_ifs with suspends
    · exact ⟨(Bool.and_eq_true _ _ ▸ suspends).1, by simp [ChnStatus.connected]⟩
    · trivial
  · dsimp only at found
    cases found
    split_ifs with resumes
    · exact ⟨(Bool.and_eq_true _ _ ▸ resumes).1, by simp [ChnStatus.connected]⟩
    · trivial
  · cases found
    trivial

theorem permitted_of_busIn {id : Nat} {dp : List UInt8} {n : Nat} {actor : Actor}
    (found : s.busIn id dp n = some actor) (admissible : s.Admissible actor) :
    s.Permitted actor := by
  unfold busIn at found
  split_ifs at found
  · exact permitted_of_chn0Actor found admissible
  · cases found
    trivial

variable [DecidableEq Tid]

theorem Inv.step (inv : s.Inv) {e : Event Tid} (sound : s.Sound e)
    (ran : s.step e = some after) : after.Inv := by
  cases e with
  | receive id dp size =>
    obtain ⟨within, admissible⟩ := sound
    simp only [State.step] at ran
    split_ifs at ran
    · cases ran
      exact inv
    · obtain ⟨actor, found, rfl⟩ := Option.map_eq_some_iff.mp ran
      exact inv.setActor (permitted_of_busIn found (admissible actor found))
  | act posted => exact inv.act ran
  | request t req allocated =>
    simp only [State.step] at ran
    split_ifs at ran with idle
    cases ran
    exact inv.requestChn idle req allocated
  | posted t succeeded =>
    simp only [State.step] at ran
    cases place : s.call t with
    | posting i =>
      simp only [place] at ran
      cases ran
      refine inv.setCall (fun n owes => ?_) (by split_ifs <;> simp) (fun j here => ?_)
        (by split_ifs <;> simp [Call.closing])
      · split_ifs at owes
        · simpa [Owes, State.setCall, place] using owes
        · simp [Owes, State.setCall] at owes
      · split_ifs at here <;> simpa [Call.slot, place] using here
    | _ => simp [place] at ran
  | expire t =>
    simp only [State.step] at ran
    cases place : s.call t with
    | waiting i =>
      simp only [place] at ran
      split_ifs at ran
      cases ran
      refine inv.setCall (fun n owes => ?_) (by simp) (fun j here => ?_)
        (by simp [Call.closing])
      · simp [Owes, State.setCall] at owes
      · simpa [Call.slot, place] using here
    | _ => simp [place] at ran
  | proceed t => exact inv.proceed sound ran
  | close t chnr =>
    simp only [State.step] at ran
    split_ifs at ran with starts
    cases ran
    refine inv.setCall (fun n owes => ?_) (by simp) (by simp [Call.slot])
      (by simp [Call.closing, starts.2])
    simp [Owes, State.setCall] at owes

section

omit [DecidableEq Tid]

theorem Initial.inv (init : s.Initial) : s.Inv := by
  obtain ⟨chnStatus, sess, actor, call, inBounds, held⟩ := init
  refine ⟨⟨?_, ?_⟩, inBounds, ?_, ?_, ?_, ?_, ?_⟩
  · simp [call, Call.slot]
  · simp [call, Call.slot]
  · simp [chnStatus]
  · simp [held]
  · intro t chnr owes
    simp [Owes, call] at owes
  · simp [call, Call.closing]
  · rw [actor]
    trivial

theorem closed_of_setStatus {n chnr : Nat} {status : ChnStatus} (channel : isChannel n = true)
    (wasOpen : (s.chnStatus chnr).connected = true)
    (closed : ((s.setStatus n status).chnStatus chnr).connected = false) :
    chnr = n ∧ status.connected = false := by
  rw [setStatus_channel channel] at closed
  by_cases same : chnr = n
  · subst same
    exact ⟨rfl, by simpa using closed⟩
  · simp [same, wasOpen] at closed

theorem Inv.closes_of_act (inv : s.Inv) {posted : Bool} (ran : s.act posted = some after)
    (wasOpen : (s.chnStatus chnr).connected = true)
    (closed : (after.chnStatus chnr).connected = false) : s.actor = .disable chnr := by
  have permitted := inv.permitted
  unfold State.act at ran
  cases actor : s.actor with
  | idle => simp [actor] at ran
  | answer | enable i n | takeSession i n | takeNumber i n | ackSet i n | assign i n | refuse i
  | complete i =>
    simp only [actor] at ran
    cases ran
    exact absurd (closed.symm.trans wasOpen) (by decide)
  | establish i n =>
    rw [actor] at permitted
    simp only [actor] at ran
    cases ran
    have written := (closed_of_setStatus permitted.2.2.1 wasOpen closed).2
    exact absurd written (by decide)
  | disable n =>
    rw [actor] at permitted
    simp only [actor] at ran
    cases ran
    rw [(closed_of_setStatus permitted wasOpen closed).1]
  | write n status =>
    rw [actor] at permitted
    simp only [actor] at ran
    cases ran
    obtain ⟨rfl, written⟩ := closed_of_setStatus permitted.1 wasOpen closed
    exact absurd ((permitted.2 written).symm.trans wasOpen) (by decide)

end

theorem Inv.closes_of_proceed (inv : s.Inv) (sound : s.Sound (.proceed t))
    (ran : s.proceed t = some after) (wasOpen : (s.chnStatus chnr).connected = true)
    (closed : (after.chnStatus chnr).connected = false) :
    s.call t = .closeFree chnr ∨ s.call t = .closeSend chnr := by
  unfold State.proceed at ran
  cases place : s.call t with
  | none | posting i => simp [place] at ran
  | waiting i | woken i =>
    simp only [place] at ran
    split_ifs at ran
    cases ran
    exact absurd (closed.symm.trans wasOpen) (by decide)
  | failed i err | detaching i n | close n | closeWait n =>
    simp only [place] at ran
    cases ran
    exact absurd (closed.symm.trans wasOpen) (by decide)
  | clearing i n =>
    simp only [place] at ran
    cases ran
    split_ifs at closed <;> exact absurd (closed.symm.trans wasOpen) (by decide)
  | freeing i n err =>
    obtain ⟨lower, upper, notOpen⟩ : 0 ≤ n ∧ n < channelNr ∧
        (s.chnStatus n.toNat).connected = false := by
      simpa only [Sound, place] using sound
    obtain ⟨number, rfl⟩ := Int.eq_ofNat_of_zero_le lower
    simp only [place] at ran
    cases ran
    have channel := inv.isChannel_of_closed (by exact_mod_cast upper) notOpen
    obtain rfl := (closed_of_setStatus channel wasOpen closed).1
    exact absurd (notOpen.symm.trans wasOpen) (by decide)
  | closeFree n =>
    have channel := inv.closing t n (by rw [place]; rfl)
    simp only [place] at ran
    cases ran
    exact .inl (by rw [(closed_of_setStatus channel wasOpen closed).1])
  | closeSend n =>
    have channel := inv.closing t n (by rw [place]; rfl)
    simp only [place] at ran
    cases ran
    exact .inr (by rw [(closed_of_setStatus channel wasOpen closed).1])

theorem Inv.closes (inv : s.Inv) {e : Event Tid} (sound : s.Sound e) (ran : s.step e = some after)
    (wasOpen : (s.chnStatus chnr).connected = true)
    (closed : (after.chnStatus chnr).connected = false) : s.Closes chnr e := by
  cases e with
  | receive id dp size =>
    simp only [State.step, if_neg sound.1] at ran
    split_ifs at ran
    · cases ran
      exact absurd (closed.symm.trans wasOpen) (by decide)
    · obtain ⟨actor, _, rfl⟩ := Option.map_eq_some_iff.mp ran
      exact absurd (closed.symm.trans wasOpen) (by decide)
  | act posted => exact inv.closes_of_act ran wasOpen closed
  | request t req allocated =>
    simp only [State.step] at ran
    split_ifs at ran
    cases ran
    have same : (s.requestChn t req allocated).chnStatus = s.chnStatus := by
      unfold State.requestChn
      split
      · rfl
      · dsimp only
        split_ifs <;> rfl
    rw [same] at closed
    exact absurd (closed.symm.trans wasOpen) (by decide)
  | posted t succeeded | expire t =>
    simp only [State.step] at ran
    split at ran
    · split_ifs at ran <;> cases ran <;>
        exact absurd (closed.symm.trans wasOpen) (by decide)
    · simp at ran
  | proceed t => exact inv.closes_of_proceed sound ran wasOpen closed
  | close t n =>
    simp only [State.step] at ran
    split_ifs at ran
    cases ran
    exact absurd (closed.symm.trans wasOpen) (by decide)

omit [DecidableEq Tid] in
theorem Inv.notHeld_of_returns (inv : s.Inv) {e : Event Tid} (returns : s.Returns chnr e) :
    s.held chnr = false := by
  cases e with
  | proceed t =>
    obtain ⟨i, place, _⟩ := returns
    exact (inv.exclusive t chnr (by simp [Owes, place])).1
  | _ => exact returns.elim

theorem Inv.lawful (inv : s.Inv) {e : Event Tid} (sound : s.Sound e) (ran : s.step e = some after) :
    Lawful ⟨s, e, after⟩ where
  inBounds := (inv.step sound ran).inBounds
  channel0 := (inv.step sound ran).channel0
  closed _ := inv.closes sound ran
  returned _ := inv.notHeld_of_returns

/-- In every run of steps that meet the condition, every step is lawful. -/
theorem channels_lawful {taken : List (Taken (State Tid) (Event Tid))} {last : State Tid}
    (run : (system : TransitionSystem (State Tid) (Event Tid)).Run taken last)
    (sound : EveryStep State.Sound taken) : ∀ step ∈ taken, Lawful step := by
  have throughout := run.throughout_of_everyStep (fun _ => Initial.inv)
    (fun _ _ _ inv sound ran => inv.step sound ran) sound
  intro step mem
  exact (throughout.2 step mem).lawful (sound step mem)
    (run.step_of_mem mem)

def initialised : State Unit where
  chnStatus chnr := if chnr = 0 then .established else .available
  sess _ := ⟨0, .available, false, none⟩
  actor := .idle
  call _ := .none
  inBounds := true
  held _ := false

theorem initialised_initial : initialised.Initial := ⟨rfl, rfl, rfl, rfl, rfl, rfl⟩

def requested : List (Event Unit) := [.request () ⟨[97], false⟩ true, .posted () true]

def handshake : List (Event Unit) :=
  requested ++ [.receive 0 [2, 97, 0, 1] 4, .act true, .act true, .act true, .act true] ++
    List.replicate 4 (.proceed ()) ++ [.close () 1, .proceed (), .proceed (), .proceed ()]

theorem handshake_lawful : ∃ last, execute (fun s => s.step) initialised handshake = some last ∧
      ∀ taken ∈ record (fun s => s.step) [] initialised handshake, Lawful taken := by
  have isSome : (execute (fun s => s.step) initialised handshake).isSome := by decide +kernel
  have executed := (Option.some_get isSome).symm
  exact ⟨_, executed,
    channels_lawful (.execute (.start initialised_initial) executed) (by decide +kernel)⟩

def expired : List (Event Unit) := requested ++ [.expire (), .proceed (), .proceed ()]

theorem timeout_frees_channel0 :
    ¬ ∀ (taken : List (Taken (State Unit) (Event Unit))) (last : State Unit),
      system.Run taken last → ∀ step ∈ taken, Lawful step := by
  intro claim
  have isSome : (execute (fun s => s.step) initialised expired).isSome := by decide +kernel
  have executed := (Option.some_get isSome).symm
  have run : system.Run (record (fun s => s.step) [] initialised expired) _ :=
    .execute (.start initialised_initial) executed
  have channel0 := (claim _ _ run _ List.mem_cons_self).channel0
  exact absurd channel0 (by decide +kernel)

end State

end RtThread.Vbus
