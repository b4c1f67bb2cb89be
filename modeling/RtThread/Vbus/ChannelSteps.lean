import RtThread.Vbus.ChannelInvariant

/-!
# The steps of the in thread and of the calls

Each step is that of one thread.
-/

open Function (update update_of_ne update_self)

namespace RtThread.Vbus.State

universe u

variable {Tid : Type u} {s after : State Tid}

theorem Inv.inThread (inv : s.Inv) (call : after.call = s.call)
    (st : ∀ i, (after.sess i).st = .available → (s.sess i).st = .available)
    (statuses : after.inBounds = true ∧ after.chnStatus 0 = .established ∧
      ∀ chnr, after.held chnr = true → (after.chnStatus chnr).connected = true)
    (exclusive : after.Exclusive) (permitted : after.Permitted after.actor) : after.Inv where
  owner := by simpa only [call] using inv.owner
  taken := fun t i slot available => inv.taken t i (call ▸ slot) (st i available)
  inBounds := statuses.1
  channel0 := statuses.2.1
  open_of_held := statuses.2.2
  exclusive := exclusive
  closing := by simpa only [call] using inv.closing
  permitted := permitted

variable {actor : Actor} {i chnr : Nat} {session : Session} {status : ChnStatus}

theorem Inv.setActor (inv : s.Inv) (permitted : s.Permitted actor) : (s.setActor actor).Inv := by
  refine inv.inThread rfl (fun _ => id) ⟨inv.inBounds, inv.channel0, inv.open_of_held⟩
    inv.exclusive ?_
  cases actor <;> exact permitted

theorem Inv.setSess_setActor (inv : s.Inv)
    (st : session.st = .available → (s.sess i).st = .available)
    (returns : ∀ t chnr, (s.setSess i session).Owes t chnr → s.Owes t chnr)
    (permitted : (s.setSess i session).Permitted actor) :
    ((s.setSess i session).setActor actor).Inv := by
  refine inv.inThread rfl (fun j => ?_) ⟨inv.inBounds, inv.channel0, inv.open_of_held⟩
    (fun t chnr owes => ?_) (by cases actor <;> exact permitted)
  · by_cases same : j = i
    · subst same
      simpa only [State.setActor, setSess_sess_self] using st
    · simp only [State.setActor, setSess_sess_of_ne same, imp_self]
  · obtain ⟨notHeld, unique⟩ := inv.exclusive t chnr (returns t chnr owes)
    exact ⟨notHeld, fun t' owes' => unique t' (returns t' chnr owes')⟩

theorem Pending.setSess (pending : s.Pending i)
    (done : session.done = false) : (s.setSess i session).Pending i :=
  ⟨by rw [setSess_sess_self, done], pending.2⟩

theorem Fresh.setSess (fresh : s.Fresh chnr)
    (pending : s.Pending i) (done : session.done = false) : (s.setSess i session).Fresh chnr :=
  ⟨fresh.1, fun t owes => fresh.2 t (owes_of_setSess pending done owes)⟩

theorem Inv.setStatus_setActor (inv : s.Inv) (channel : isChannel chnr = true)
    (permitted : (s.setStatus chnr status).Permitted actor) :
    ((s.setStatus chnr status).setActor actor).Inv := by
  have unchanged : s.setStatus chnr status = _ := setStatus_channel channel status
  refine inv.inThread ?_ ?_ (inv.write channel status) ?_ (by cases actor <;> exact permitted)
  · rw [unchanged]
    rfl
  · rw [unchanged]
    exact fun _ => id
  · rw [unchanged]
    intro t other owes
    obtain ⟨notHeld, unique⟩ := inv.exclusive t other owes
    refine ⟨Bool.eq_false_iff.mpr fun held => ?_, unique⟩
    exact Bool.eq_false_iff.mp notHeld (held_update held).1

theorem Fresh.setStatus {other : Nat} (channel : isChannel chnr = true)
    (fresh : s.Fresh other) : (s.setStatus chnr status).Fresh other := by
  rw [setStatus_channel channel]
  exact ⟨Bool.eq_false_iff.mpr fun held => Bool.eq_false_iff.mp fresh.1 (held_update held).1,
    fresh.2⟩

theorem owes_complete {t : Tid} (owes : (s.setSess i { s.sess i with done := true }).Owes t chnr) :
    s.Owes t chnr ∨ ((s.call t).slot = some i ∧ (s.sess i).chnr = chnr) := by
  unfold Owes at owes ⊢
  dsimp only [State.setSess] at owes
  cases call : s.call t with
  | posting j | waiting j =>
    simp only [call] at owes
    by_cases same : j = i
    · subst same
      simp only [update_self, true_and] at owes
      exact .inr ⟨rfl, owes⟩
    · simp only [update_of_ne same] at owes
      exact .inl owes
  | woken j =>
    simp only [call] at owes
    by_cases same : j = i
    · subst same
      simp only [update_self] at owes
      exact .inl owes
    · simp only [update_of_ne same] at owes
      exact .inl owes
  | detaching j ret | clearing j ret =>
    simp only [call] at owes
    exact .inl owes
  | _ => simp [call] at owes

theorem Inv.complete (inv : s.Inv) (permitted : s.Permitted (.complete i)) :
    ((s.setSess i { s.sess i with done := true }).setActor .idle).Inv := by
  refine inv.inThread rfl (fun j => ?_) ⟨inv.inBounds, inv.channel0, inv.open_of_held⟩
    (fun t chnr owes => ?_) trivial
  · by_cases same : j = i
    · subst same
      simp only [State.setActor, setSess_sess_self, imp_self]
    · simp only [State.setActor, setSess_sess_of_ne same, imp_self]
  · have returns : ∀ u, (s.setSess i { s.sess i with done := true }).Owes u chnr →
        s.Owes u chnr ∨ ((s.call u).slot = some i ∧ (s.sess i).chnr = chnr) :=
      fun _ => owes_complete
    rcases returns t owes with before | ⟨slot, number⟩
    · obtain ⟨notHeld, unique⟩ := inv.exclusive t chnr before
      refine ⟨notHeld, fun t' owes' => ?_⟩
      rcases returns t' owes' with before' | ⟨_, number⟩
      · exact unique t' before'
      · exact absurd before ((permitted chnr number).2.2 t)
    · have fresh := (permitted chnr number).2
      refine ⟨fresh.1, fun t' owes' => ?_⟩
      rcases returns t' owes' with before' | ⟨slot', _⟩
      · exact absurd before' (fresh.2 t')
      · exact inv.owner t t' i slot slot'

theorem Inv.act (inv : s.Inv) {posted : Bool} (step : s.act posted = some after) : after.Inv := by
  have permitted := inv.permitted
  unfold State.act at step
  cases actor : s.actor with
  | idle => simp [actor] at step
  | answer =>
    simp only [actor, Option.some.injEq] at step
    subst step
    exact inv.setActor trivial
  | enable i chnr | ackSet i chnr =>
    rw [actor] at permitted
    simp only [actor, Option.some.injEq] at step
    subst step
    refine inv.setActor ?_
    cases posted with
    | true => exact permitted
    | false => trivial
  | takeSession i chnr =>
    rw [actor] at permitted
    obtain ⟨pending, channel, closed⟩ := permitted
    simp only [actor, Option.some.injEq] at step
    subst step
    exact inv.setSess_setActor (fun no => by simp at no)
      (fun _ _ => owes_of_setSess pending pending.1)
      ⟨pending.setSess pending.1, channel, closed⟩
  | takeNumber i chnr =>
    rw [actor] at permitted
    obtain ⟨pending, channel, closed⟩ := permitted
    simp only [actor, Option.some.injEq] at step
    subst step
    exact inv.setSess_setActor id (fun _ _ => owes_of_setSess pending pending.1)
      ⟨channel, fun _ => closed⟩
  | assign i chnr =>
    rw [actor] at permitted
    obtain ⟨pending, fresh, channel⟩ := permitted
    simp only [actor, Option.some.injEq] at step
    subst step
    refine inv.setSess_setActor id (fun _ _ => owes_of_setSess pending pending.1)
      ⟨pending.setSess pending.1, fresh.setSess pending pending.1, channel, ?_⟩
    rw [setSess_sess_self]
  | establish i chnr =>
    rw [actor] at permitted
    obtain ⟨pending, fresh, channel, number⟩ := permitted
    simp only [actor, Option.some.injEq] at step
    subst step
    refine inv.setStatus_setActor channel fun other same => ?_
    have written : s.setStatus chnr .established = _ := setStatus_channel channel .established
    have sess : (s.setStatus chnr .established).sess = s.sess := by rw [written]
    have call : (s.setStatus chnr .established).call = s.call := by rw [written]
    obtain rfl : other = chnr := by
      rw [sess, number] at same
      exact_mod_cast same.symm
    exact ⟨⟨by rw [sess, pending.1], by rw [call]; exact pending.2⟩, fresh.setStatus channel⟩
  | refuse i =>
    simp only [actor, Option.some.injEq] at step
    subst step
    refine inv.setSess_setActor id (fun _ _ => owes_of_negative (show (-8 : Int) < 0 by decide))
      fun chnr number => ?_
    rw [setSess_sess_self] at number
    dsimp only at number
    omega
  | complete i =>
    rw [actor] at permitted
    simp only [actor, Option.some.injEq] at step
    subst step
    exact inv.complete permitted
  | disable chnr =>
    rw [actor] at permitted
    simp only [actor, Option.some.injEq] at step
    subst step
    exact inv.setStatus_setActor permitted trivial
  | write chnr status =>
    rw [actor] at permitted
    simp only [actor, Option.some.injEq] at step
    subst step
    exact inv.setStatus_setActor permitted.1 trivial

variable [DecidableEq Tid] {t : Tid} {call : Call}

theorem moved_cases (moved : after.call = update s.call t call)
    (u : Tid) : (u = t ∧ after.call u = call) ∨ (u ≠ t ∧ after.call u = s.call u) := by
  rw [moved]
  by_cases same : u = t
  · exact .inl ⟨same, by rw [same, update_self]⟩
  · exact .inr ⟨same, update_of_ne same _ _⟩

theorem quiet_of_call (moved : after.call = update s.call t call) (actor : after.actor = s.actor)
    (chnr : ∀ i, (after.sess i).chnr = (s.sess i).chnr)
    (done : ∀ i, (after.sess i).done = true → (s.sess i).done = true)
    (owes : ∀ n, after.Owes t n → s.Owes t n)
    (woken : ∀ i, call = .woken i → (s.sess i).done = true)
    (held : ∀ n, after.held n = true → s.held n = true ∨ ∃ u, s.Owes u n ∧ ¬ after.Owes u n)
    (connected : ∀ n, (after.chnStatus n).connected = true → (s.chnStatus n).connected = true) :
    Quiet s after where
  actor := actor
  chnr := chnr
  owes := by
    intro u n returns
    rcases moved_cases moved u with ⟨same, _⟩ | ⟨_, here⟩
    · exact same ▸ owes n (same ▸ returns)
    · unfold Owes at returns ⊢
      rw [here] at returns
      cases place : s.call u with
      | posting i | waiting i =>
        simp only [place] at returns
        exact ⟨done i returns.1, (chnr i).symm.trans returns.2⟩
      | woken i =>
        simp only [place] at returns
        exact (chnr i).symm.trans returns
      | detaching _ ret | clearing _ ret => simpa only [place] using returns
      | _ => simp [place] at returns
  held := held
  connected := connected
  pending := by
    rintro i ⟨notDone, notWoken⟩
    refine ⟨Bool.eq_false_iff.mpr fun isDone => ?_, fun u here => ?_⟩
    · exact Bool.eq_false_iff.mp notDone (done i isDone)
    · rcases moved_cases moved u with ⟨_, place⟩ | ⟨_, place⟩
      · exact Bool.eq_false_iff.mp notDone (woken i (place.symm.trans here))
      · exact notWoken u (place.symm.trans here)

theorem Owned.of_call (owned : s.Owned) (moved : after.call = update s.call t call)
    (slot : ∀ i, call.slot = some i → ((s.call t).slot = some i ∨ (s.sess i).st = .available) ∧
        (after.sess i).st ≠ .available) (st : ∀ i, (after.sess i).st = .available →
      (s.sess i).st = .available ∨ (s.call t).slot = some i) : after.Owned := by
  have excludes : ∀ u i, u ≠ t → (s.call u).slot = some i → call.slot ≠ some i := by
    intro u i ne here taken
    rcases (slot i taken).1 with before | available
    · exact ne (owned.owner t u i before here)
    · exact owned.taken u i here available
  constructor
  · intro u u' i here here'
    rcases moved_cases moved u with ⟨same, place⟩ | ⟨ne, place⟩ <;>
      rcases moved_cases moved u' with ⟨same', place'⟩ | ⟨differs', place'⟩ <;>
      rw [place] at here <;> rw [place'] at here'
    · exact same'.trans same.symm
    · exact absurd here (excludes u' i differs' here')
    · exact absurd here' (excludes u i ne here)
    · exact owned.owner u u' i here here'
  · intro u i here available
    rcases moved_cases moved u with ⟨same, place⟩ | ⟨ne, place⟩ <;> rw [place] at here
    · exact (slot i here).2 available
    · rcases st i available with before | own
      · exact owned.taken u i here before
      · exact ne (owned.owner t u i own here)

theorem Inv.of_call (inv : s.Inv) (moved : after.call = update s.call t call)
    (quiet : Quiet s after) (owned : after.Owned)
    (statuses : after.inBounds = true ∧ after.chnStatus 0 = .established ∧
      ∀ chnr, after.held chnr = true → (after.chnStatus chnr).connected = true)
    (closing : ∀ chnr, call.closing = some chnr → isChannel chnr = true) : after.Inv where
  toOwned := owned
  inBounds := statuses.1
  channel0 := statuses.2.1
  open_of_held := statuses.2.2
  exclusive := quiet.exclusive inv.exclusive
  permitted := quiet.permitted inv.permitted
  closing := by
    intro u chnr here
    rcases moved_cases moved u with ⟨_, place⟩ | ⟨_, place⟩ <;> rw [place] at here
    · exact closing chnr here
    · exact inv.closing u chnr here

theorem Inv.setCall (inv : s.Inv) (owes : ∀ n, (s.setCall t call).Owes t n → s.Owes t n)
    (woken : ∀ i, call ≠ .woken i) (slot : ∀ i, call.slot = some i → (s.call t).slot = some i)
    (closing : ∀ n, call.closing = some n → isChannel n = true) : (s.setCall t call).Inv := by
  refine inv.of_call rfl ?_ ?_ ⟨inv.inBounds, inv.channel0, inv.open_of_held⟩ closing
  · exact quiet_of_call rfl rfl (fun _ => rfl) (fun _ => id) owes
      (fun i no => absurd no (woken i)) (fun _ => .inl) (fun _ => id)
  · exact inv.toOwned.of_call rfl
      (fun i here => ⟨.inl (slot i here), inv.taken t i (slot i here)⟩) (fun _ => .inl)

omit [DecidableEq Tid] in
theorem setSess_forall (property : Session → Nat → Prop) (here : property session i)
    (others : ∀ j, property (s.sess j) j) : ∀ j, property ((s.setSess i session).sess j) j := by
  intro j
  by_cases same : j = i
  · subst same
    rw [setSess_sess_self]
    exact here
  · rw [setSess_sess_of_ne same]
    exact others j

theorem Inv.setSess_setCall (inv : s.Inv) (chnr : session.chnr = (s.sess i).chnr)
    (done : session.done = true → (s.sess i).done = true)
    (owes : ∀ n, ((s.setSess i session).setCall t call).Owes t n → s.Owes t n)
    (woken : ∀ j, call = .woken j → (s.sess j).done = true)
    (slot : ∀ j, call.slot = some j → j = i ∧ session.st ≠ .available ∧
      ((s.call t).slot = some i ∨ (s.sess i).st = .available))
    (st : session.st = .available → (s.sess i).st = .available ∨ (s.call t).slot = some i)
    (closing : call.closing = none) : ((s.setSess i session).setCall t call).Inv := by
  refine inv.of_call rfl ?_ ?_ ⟨inv.inBounds, inv.channel0, inv.open_of_held⟩
    (fun _ here => by simp [closing] at here)
  · refine quiet_of_call rfl rfl ?_ ?_ owes woken (fun _ => .inl) (fun _ => id)
    · exact setSess_forall (fun session j => session.chnr = (s.sess j).chnr) chnr
        fun _ => rfl
    · exact setSess_forall (fun session j => session.done = true → (s.sess j).done = true)
        done fun _ => id
  · refine inv.toOwned.of_call rfl ?_ ?_
    · intro j here
      obtain ⟨rfl, taken, free⟩ := slot j here
      refine ⟨free, ?_⟩
      rw [State.setCall, setSess_sess_self]
      exact taken
    · exact setSess_forall (fun session j => session.st = .available →
        (s.sess j).st = .available ∨ (s.call t).slot = some j) st fun _ => .inl

theorem Inv.setStatus_setCall (inv : s.Inv) (channel : isChannel chnr = true)
    (notOpen : status.connected = false) (owes : ∀ n, (s.setCall t call).Owes t n → s.Owes t n)
    (woken : ∀ i, call ≠ .woken i) (slot : ∀ i, call.slot = some i → (s.call t).slot = some i)
    (closing : ∀ n, call.closing = some n → isChannel n = true) :
    ((s.setStatus chnr status).setCall t call).Inv := by
  have statuses := inv.write channel status
  have unchanged : s.setStatus chnr status = _ := setStatus_channel channel status
  rw [unchanged] at statuses ⊢
  refine inv.of_call rfl ?_ ?_ statuses closing
  · refine quiet_of_call rfl rfl (fun _ => rfl) (fun _ => id) owes
      (fun i no => absurd no (woken i)) (fun n held => .inl (held_update held).1) ?_
    intro n connected
    rcases connected_update connected with before | ⟨_, isOpen⟩
    · exact before
    · rw [notOpen] at isOpen
      exact absurd isOpen (by decide)
  · exact inv.toOwned.of_call rfl
      (fun i here => ⟨.inl (slot i here), inv.taken t i (slot i here)⟩) (fun _ => .inl)

variable {Tid : Type u} [DecidableEq Tid] {s after : State Tid} {t : Tid}

variable {i : Nat}

omit [DecidableEq Tid] in
theorem available_of_freeSlot (free : s.freeSlot = some i) : (s.sess i).st = .available := by
  simpa using List.find?_some free

theorem Inv.requestChn (inv : s.Inv) (idle : s.call t = .none) (req : Request)
    (allocated : Bool) : (s.requestChn t req allocated).Inv := by
  unfold State.requestChn
  cases slot : s.freeSlot with
  | none => exact inv
  | some i =>
    have free := available_of_freeSlot slot
    split_ifs with server m
    · refine inv.setSess_setCall rfl (by simp) (fun n owes => ?_) (by simp) (fun j here => ?_)
        (by simp) rfl
      · simp [Owes, State.setCall, State.setSess] at owes
      · obtain rfl : i = j := by simpa [Call.slot] using here
        exact ⟨rfl, by simp, .inr free⟩
    · refine inv.setSess_setCall rfl (by simp) (fun n owes => ?_) (by simp) (fun j here => ?_)
        (by simp) rfl
      · simp [Owes, State.setCall, State.setSess] at owes
      · obtain rfl : i = j := by simpa [Call.slot] using here
        exact ⟨rfl, by simp, .inr free⟩
    · have written : State.Inv ((s.setSess i
          { s.sess i with done := false, req := some req }).setCall t .none) :=
        inv.setSess_setCall rfl (by simp)
          (fun n owes => by simp [Owes, State.setCall] at owes) (by simp) (by simp [Call.slot])
          (fun _ => .inl free) rfl
      rwa [State.setCall, Function.update_eq_self_iff.mpr idle.symm] at written

theorem Inv.wake (inv : s.Inv) (place : s.call t = .waiting i) (done : (s.sess i).done = true) :
    ((s.setSess i { s.sess i with done := false }).setCall t (.woken i)).Inv := by
  have own : (s.call t).slot = some i := by rw [place]; rfl
  have taken := inv.taken t i own
  refine inv.setSess_setCall rfl (by simp) (fun n owes => ?_) (fun j here => ?_) (fun j here => ?_)
    (fun no => absurd no taken) rfl
  · simpa [Owes, State.setCall, State.setSess, place, done] using owes
  · obtain rfl : i = j := by simpa using here
    exact done
  · obtain rfl : i = j := by simpa [Call.slot] using here
    exact ⟨rfl, taken, .inl own⟩

omit [DecidableEq Tid] in
theorem Inv.isChannel_of_closed (inv : s.Inv) {chnr : Nat} (upper : chnr < channelNr)
    (closed : (s.chnStatus chnr).connected = false) : isChannel chnr = true := by
  have ne : chnr ≠ 0 := by
    rintro rfl
    rw [inv.channel0] at closed
    exact absurd closed (by decide)
  simp [isChannel, ne, upper]

omit [DecidableEq Tid] in
theorem Failure.code_ne (err : Failure) (n : Nat) : err.code ≠ n := by
  cases err <;> simp only [Failure.code] <;> omega

theorem Inv.free (inv : s.Inv) {chnr : Int} {err : Failure}
    (place : s.call t = .freeing i chnr err) (sound : s.Sound (.proceed t)) :
    ((s.setStatus chnr .available).setCall t (.detaching i err.code)).Inv := by
  obtain ⟨lower, upper, closed⟩ : 0 ≤ chnr ∧ chnr < channelNr ∧
      (s.chnStatus chnr.toNat).connected = false := by
    simpa only [Sound, place] using sound
  obtain ⟨number, rfl⟩ := Int.eq_ofNat_of_zero_le lower
  have channel := inv.isChannel_of_closed (by exact_mod_cast upper) closed
  refine inv.setStatus_setCall channel rfl (fun n owes => ?_) (by simp) (fun j here => ?_)
    (by simp [Call.closing])
  · simp [Owes, State.setCall, Failure.code_ne] at owes
  · simpa [Call.slot, place] using here

theorem Inv.clear (inv : s.Inv) {chnr : Int} {held : Nat → Bool}
    (place : s.call t = .clearing i chnr)
    (holds : ∀ n, held n = true → s.held n = true ∨
      (n : Int) = chnr ∧ (s.chnStatus n).connected = true) :
    State.Inv { (s.setSess i { s.sess i with req := none }).setCall t .none with held } := by
  have moved : ((s.setSess i { s.sess i with req := none }).setCall t .none).call =
    update s.call t .none := rfl
  refine inv.of_call moved ?_ ?_ ⟨inv.inBounds, inv.channel0, fun n here => ?_⟩
    (by simp [Call.closing])
  · refine quiet_of_call moved rfl
      (setSess_forall (fun session j => session.chnr = (s.sess j).chnr) rfl fun _ => rfl)
      (setSess_forall (fun session j => session.done = true → (s.sess j).done = true)
        id fun _ => id) (fun n owes => ?_) (by simp) (fun n here => ?_) (fun _ => id)
    · simp [Owes, State.setCall] at owes
    · refine (holds n here).imp_right fun ⟨number, _⟩ => ⟨t, ?_, fun owes => ?_⟩
      · simp [Owes, place, number]
      · simp [Owes, State.setCall] at owes
  · refine inv.toOwned.of_call moved (by simp [Call.slot]) ?_
    exact setSess_forall (fun session j => session.st = .available →
      (s.sess j).st = .available ∨ (s.call t).slot = some j) .inl fun _ => .inl
  · rcases holds n here with before | ⟨_, isOpen⟩
    · exact inv.open_of_held n before
    · exact isOpen

theorem Inv.proceed (inv : s.Inv) (sound : s.Sound (.proceed t))
    (step : s.proceed t = some after) : after.Inv := by
  unfold State.proceed at step
  cases place : s.call t with
  | none | posting i => simp [place] at step
  | waiting i =>
    simp only [place] at step
    split_ifs at step with done
    cases step
    exact inv.wake place done
  | failed i err =>
    simp only [place] at step
    cases step
    refine inv.setCall (fun n owes => ?_) (by split_ifs <;> simp) (fun j here => ?_)
      (by split_ifs <;> simp [Call.closing])
    · split_ifs at owes <;> simp [Owes, State.setCall, Failure.code_ne] at owes
    · split_ifs at here <;> simpa [Call.slot, place] using here
  | freeing i chnr err =>
    simp only [place] at step
    cases step
    exact inv.free place sound
  | woken i =>
    simp only [place] at step
    split_ifs at step
    cases step
    refine inv.setCall (fun n owes => ?_) (by simp) (fun j here => ?_) (by simp [Call.closing])
    · simpa [Owes, State.setCall, place] using owes
    · simpa [Call.slot, place] using here
  | detaching i chnr =>
    simp only [place] at step
    cases step
    have own : (s.call t).slot = some i := by rw [place]; rfl
    refine inv.setSess_setCall rfl id (fun n owes => ?_) (by simp) (by simp [Call.slot])
      (fun _ => .inr own) rfl
    simpa [Owes, State.setCall, State.setSess, place] using owes
  | clearing i chnr =>
    simp only [place] at step
    cases step
    split_ifs with ret
    · refine inv.clear place fun n here => ?_
      by_cases same : n = chnr.toNat
      · subst same
        exact .inr ⟨Int.toNat_of_nonneg (Int.le_of_lt ret), by simpa using here⟩
      · exact .inl (by simpa [same] using here)
    · exact inv.clear place fun _ => .inl
  | close chnr =>
    simp only [place] at step
    cases step
    have channel := inv.closing t chnr (by rw [place]; rfl)
    refine inv.setCall (fun n owes => ?_) (by split_ifs <;> simp)
      (by split_ifs <;> simp [Call.slot]) ?_
    · split_ifs at owes <;> simp [Owes, State.setCall] at owes
    · split_ifs <;> simp [Call.closing, channel]
  | closeFree chnr =>
    simp only [place] at step
    cases step
    have channel := inv.closing t chnr (by rw [place]; rfl)
    refine inv.setStatus_setCall channel rfl (fun n owes => ?_) (by simp) (by simp [Call.slot])
      (by simp [Call.closing])
    simp [Owes, State.setCall] at owes
  | closeSend chnr =>
    simp only [place] at step
    cases step
    have channel := inv.closing t chnr (by rw [place]; rfl)
    refine inv.setStatus_setCall channel rfl (fun n owes => ?_) (by simp) (by simp [Call.slot])
      (by simp [Call.closing, channel])
    simp [Owes, State.setCall] at owes
  | closeWait chnr =>
    simp only [place] at step
    cases step
    refine inv.setCall (fun n owes => ?_) (by simp) (by simp [Call.slot]) (by simp [Call.closing])
    simp [Owes, State.setCall] at owes

end RtThread.Vbus.State
