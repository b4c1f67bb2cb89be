import RtThread.Vbus.TransferSteps

/-!
# The effects of the steps on one link

What a step of the two threads drops and writes, and whom it leaves suspended.
-/

namespace RtThread.Vbus.Transfer

variable {Tid : Type} {blkNr : Nat} {link after : Link Tid} {unread : List Pkg}

variable {status : UInt8 → ChnStatus} {irq : Bool}

theorem Link.outStep_lost {chnr : UInt8} (ran : link.outStep blkNr status = some after)
    (lost : after.lost chnr = true) : link.lost chnr = true ∨ (status chnr).connected = false := by
  unfold Link.outStep at ran
  cases place : link.out with
  | idle | suspended pkg => simp [place] at ran
  | popped pkg =>
    simp only [place] at ran
    cases ran
    split_ifs at lost with connected
    · exact .inl lost
    · by_cases same : chnr = pkg.id
      · subst same
        exact .inr (Bool.eq_false_iff.mpr connected)
      · exact .inl (by simpa [lose, same] using lost)
  | _ =>
    simp only [place] at ran
    cases ran
    exact .inl lost

theorem Link.innStep_lost {chnr : UInt8}
    (channel : chnr.toNat < channelNr) (ran : link.innStep blkNr status = some after)
    (lost : after.lost chnr = true) : link.lost chnr = true ∨ (status chnr).connected = false := by
  unfold Link.innStep at ran
  cases place : link.inn with
  | waiting =>
    simp only [place] at ran
    split_ifs at ran
    cases ran
    exact .inl lost
  | reading id n =>
    simp only [place] at ran
    cases ran
    split_ifs at lost with closed zero
    · by_cases same : chnr = id
      · subst same
        exact .inr (closed.resolve_left (by omega))
      · exact .inl (by simpa [lose, same] using lost)
    · exact .inl lost
    · exact .inl lost
  | _ =>
    simp only [place] at ran
    cases ran
    exact .inl lost

theorem used_eq {ring : Ring} (holds : ring.Holds blkNr unread) :
    (ring.putIdx + blkNr - ring.getIdx) % blkNr = total unread := by
  obtain ⟨get_lt, put_eq, fits, _⟩ := holds
  rw [put_eq]
  rcases CircularBuffer.mod_cases (by omega : ring.getIdx + total unread < 2 * blkNr) with
    ⟨low, equal⟩ | ⟨high, equal⟩
  · have used : ring.getIdx + total unread + blkNr - ring.getIdx = total unread + blkNr := by omega
    rw [equal, used, Nat.add_mod_right, Nat.mod_eq_of_lt fits]
  · have used : ring.getIdx + total unread - blkNr + blkNr - ring.getIdx = total unread := by omega
    rw [equal, used, Nat.mod_eq_of_lt fits]

theorem Link.innStep_blks
    (ran : link.innStep blkNr status = some after) : after.ring.blks = link.ring.blks := by
  unfold Link.innStep at ran
  cases inn : link.inn with
  | waiting =>
    simp only [inn] at ran
    split_ifs at ran
    cases ran
    rfl
  | reading id n =>
    simp only [inn] at ran
    cases ran
    split_ifs <;> rfl
  | _ =>
    simp only [inn] at ran
    cases ran
    rfl

structure Link.Kept (blkNr : Nat) (before after : Link Tid) (closed : UInt8 → Prop) : Prop where
  carries : ∃ unread, after.Carries blkNr unread
  lost : ∀ chnr, chnr.toNat < channelNr → after.lost chnr = true →
    before.lost chnr = true ∨ closed chnr
  unread : ∀ place, Unread blkNr before.ring place → after.ring.blks place = before.ring.blks place

theorem Link.Carries.kept {closed : UInt8 → Prop} (carries : after.Carries blkNr unread)
    (ring : after.ring = link.ring) (lost : after.lost = link.lost) :
    Link.Kept blkNr link after closed where
  carries := ⟨unread, carries⟩
  lost _ _ isLost := .inl (lost ▸ isLost)
  unread _ _ := by rw [ring]

theorem Link.Kept.imp {closed more : UInt8 → Prop} (kept : Link.Kept blkNr link after closed)
    (implies : ∀ chnr, closed chnr → more chnr) : Link.Kept blkNr link after more where
  carries := kept.carries
  lost chnr channel isLost := (kept.lost chnr channel isLost).imp_right (implies chnr)
  unread := kept.unread

theorem Link.left_congr (out : after.out = link.out) (ring : after.ring = link.ring)
    (inn : after.inn = link.inn) : after.Left blkNr irq ↔ link.Left blkNr irq := by
  simp only [Link.Left, Link.Silent, out, ring, inn]

theorem Link.not_left_of_ne (running : ∀ pkg, link.out ≠ .suspended pkg) :
    ¬ link.Left blkNr irq := by
  unfold Link.Left
  cases p : link.out with
  | suspended pkg => exact absurd p (running pkg)
  | _ => exact id

theorem Link.not_left_or (ticks : Bool) (awake : ¬ link.Left blkNr irq) :
    ¬ link.Left blkNr (irq || ticks) := by
  unfold Link.Left at awake ⊢
  cases place : link.out with
  | suspended pkg =>
    simp only [place, Link.Silent, Bool.or_eq_false_iff] at awake ⊢
    exact fun left => awake ⟨left.1, left.2.1.1, left.2.2⟩
  | _ => exact id

theorem Link.outStep_left (ran : link.outStep blkNr status = some after) :
    ¬ after.Left blkNr irq ↔ link.OutAttended blkNr irq := by
  unfold Link.outStep at ran
  cases place : link.out with
  | idle | suspended pkg => simp [place] at ran
  | full pkg =>
    simp only [place] at ran
    cases ran
    simp only [Link.Left, Link.OutAttended, place, not_and_or, not_le]
    rfl
  | popped pkg | measuring pkg =>
    simp only [place] at ran
    cases ran
    simp only [Link.OutAttended, place, iff_true]
    refine Link.not_left_of_ne fun u => ?_
    split_ifs <;> simp
  | _ =>
    simp only [place] at ran
    cases ran
    simp only [Link.OutAttended, place, iff_true]
    exact Link.not_left_of_ne fun u => by simp

theorem Link.innStep_out (ran : link.innStep blkNr status = some after) : after.out = link.out := by
  unfold Link.innStep at ran
  cases inn : link.inn with
  | waiting =>
    simp only [inn] at ran
    split_ifs at ran
    cases ran
    rfl
  | reading id n =>
    simp only [inn] at ran
    cases ran
    split_ifs <;> rfl
  | _ =>
    simp only [inn] at ran
    cases ran
    rfl

section

variable (carries : link.Carries blkNr unread)

include carries

theorem Link.Carries.outStep_unread {p : Nat} (isUnread : Unread blkNr link.ring p)
    (ran : link.outStep blkNr status = some after) : after.ring.blks p = link.ring.blks p := by
  have inv := carries.out
  unfold Link.outStep at ran
  cases out : link.out with
  | idle | suspended pkg => simp [out] at ran
  | popped pkg =>
    simp only [out] at ran
    cases ran
    split_ifs <;> rfl
  | writing pkg =>
    rw [out] at inv
    simp only [out] at ran
    cases ran
    obtain ⟨offset, below, rfl⟩ := isUnread
    rw [used_eq carries.holds] at below
    exact carries.holds.write_unread inv below
  | _ =>
    simp only [out] at ran
    cases ran
    rfl

theorem Link.Carries.kept_outStep (ran : link.outStep blkNr status = some after) :
    Link.Kept blkNr link after fun chnr => (status chnr).connected = false where
  carries := carries.outStep ran
  lost _ _ := Link.outStep_lost ran
  unread _ isUnread := carries.outStep_unread isUnread ran

theorem Link.Carries.kept_innStep (ran : link.innStep blkNr status = some after) :
    Link.Kept blkNr link after fun chnr => (status chnr).connected = false where
  carries := carries.innStep ran
  lost _ channel := Link.innStep_lost channel ran
  unread _ _ := by rw [Link.innStep_blks ran]

theorem Link.Carries.innStep_left (awake : ¬ link.Left blkNr irq)
    (ran : link.innStep blkNr status = some after) :
    ¬ after.Left blkNr (irq || link.innTicks) ↔ link.InAttended blkNr irq := by
  have sameOut := Link.innStep_out ran
  cases out : link.out with
  | suspended pkg =>
    have blocked : link.ring.blocked = true := by
      have inv := carries.out
      rwa [out] at inv
    simp only [Link.Left, out, sameOut, Link.Silent] at awake ⊢
    unfold Link.innStep at ran
    cases inn : link.inn with
    | waiting =>
      simp only [inn] at ran
      split_ifs at ran
      cases ran
      simpa [Link.InAttended, Link.innTicks, inn, In.willTest] using awake
    | checking =>
      simp only [inn] at ran
      cases ran
      split_ifs <;> simpa [Link.InAttended, Link.innTicks, inn, In.willTest] using awake
    | reading id n =>
      simp only [inn] at ran
      cases ran
      split_ifs <;>
        simpa [Link.InAttended, Link.innTicks, Link.lose, inn, In.willTest] using awake
    | dropping n =>
      simp only [inn] at ran
      cases ran
      simp only [Link.InAttended, Link.innTicks, inn, out, In.willTest, not_and_or]
      simp
    | copied u | pushing u =>
      simp only [inn] at ran
      cases ran
      simp [Link.InAttended, inn, In.willTest]
    | testing =>
      simp [Link.InAttended, Link.innTicks, inn, blocked]
  | _ =>
    rw [out] at sameOut
    have running : ¬ after.Left blkNr (irq || link.innTicks) :=
      Link.not_left_of_ne fun pkg => by simp [sameOut]
    simp only [running]
    unfold Link.InAttended
    cases inn : link.inn <;> simp [out]

end

open TransitionSystem
open Option (map_eq_some_iff some_get)

variable {Tid : Type} {blkNr : Nat} {s after : State Tid}

structure Inv (blkNr : Nat) (s : State Tid) : Prop where
  carries : ∀ side, ∃ unread, (s.link side).Carries blkNr unread
  awake : ∀ side, ¬ (s.link side).Left blkNr (s.irq side)

theorem State.setLink_self (side : Bool) (link : Link Tid) :
    (s.setLink side link).link side = link := Function.update_self ..

variable {side : Bool} {e : Event Tid}

theorem State.setLink_of_ne {u : Bool} (ne : u ≠ side) (link : Link Tid) :
    (s.setLink side link).link u = s.link u := Function.update_of_ne ne ..

def State.Closed (s : State Tid) (chnr : UInt8) : Prop :=
  ∃ endpoint, (s.chnStatus endpoint chnr).connected = false

theorem Inv.unmoved (inv : Inv blkNr s) (side : Bool) :
    Link.Kept blkNr (s.link side) (s.link side) s.Closed := by
  obtain ⟨unread, carries⟩ := inv.carries side
  exact carries.kept rfl rfl

theorem Inv.kept_setLink (inv : Inv blkNr s) {link : Link Tid}
    (kept : Link.Kept blkNr (s.link side) link s.Closed) :
    ∀ u, Link.Kept blkNr (s.link u) ((s.setLink side link).link u) s.Closed := by
  intro u
  by_cases same : u = side
  · subst same
    rwa [State.setLink_self]
  · rw [State.setLink_of_ne same]
    exact inv.unmoved u

theorem isr_links (side : Bool) (irq : Bool → Bool) (link link' : Link Tid) :
    (({ s with irq }.setLink side link).setLink (!side) link').link side = link ∧
      (({ s with irq }.setLink side link).setLink (!side) link').link (!side) = link' := by
  have ne : side ≠ !side := by simp
  refine ⟨?_, State.setLink_self _ _⟩
  rw [State.setLink_of_ne ne, State.setLink_self]

theorem forall_sides {property : Bool → Prop} (side : Bool) (here : property side)
    (there : property (!side)) : ∀ u, property u := by
  intro u
  rcases Bool.eq_or_eq_not u side with rfl | rfl
  · exact here
  · exact there

variable [DecidableEq Tid]

theorem Inv.kept (inv : Inv blkNr s) (ran : s.step blkNr e = some after) :
    ∀ side, Link.Kept blkNr (s.link side) (after.link side) s.Closed := by
  cases e with
  | status side chnr status =>
    cases ran
    exact inv.unmoved
  | post side t id prio data =>
    simp only [State.step] at ran
    split_ifs at ran
    cases ran
    obtain ⟨unread, carries⟩ := inv.carries side
    obtain ⟨_, ring, _, lost⟩ := (s.link side).post_same t (s.chnStatus side) id prio data
    exact inv.kept_setLink ((carries.post _ id prio data).kept ring lost)
  | push side t =>
    obtain ⟨link, pushed, rfl⟩ := map_eq_some_iff.mp ran
    obtain ⟨unread, carries⟩ := inv.carries side
    obtain ⟨call, pkg, rest, _, _, _, _, _, same⟩ := Link.push_eq pushed
    refine inv.kept_setLink ((carries.pushPost pushed).kept ?_ ?_)
    · rw [same]
      rfl
    · rw [same]
      rfl
  | fail side t =>
    simp only [State.step] at ran
    split_ifs at ran
    cases ran
    obtain ⟨unread, carries⟩ := inv.carries side
    exact inv.kept_setLink ((carries.setCall none).kept rfl rfl)
  | pop side =>
    obtain ⟨link, popped, rfl⟩ := map_eq_some_iff.mp ran
    obtain ⟨unread, carries⟩ := inv.carries side
    have carried := carries.pop popped
    unfold Link.pop at popped
    split_ifs at popped
    obtain ⟨taken, _, rfl⟩ := map_eq_some_iff.mp popped
    exact inv.kept_setLink (carried.kept rfl rfl)
  | out side =>
    obtain ⟨link, moved, rfl⟩ := map_eq_some_iff.mp ran
    obtain ⟨unread, carries⟩ := inv.carries side
    exact inv.kept_setLink ((carries.kept_outStep moved).imp fun _ closed => ⟨side, closed⟩)
  | isr side =>
    simp only [State.step] at ran
    split_ifs at ran
    cases ran
    obtain ⟨unread, carries⟩ := inv.carries side
    obtain ⟨unread', carries'⟩ := inv.carries (!side)
    refine forall_sides side ?_ ?_
    · rw [(isr_links side _ _ _).1]
      exact carries.resumeOut.kept Link.resumeOut_same.1 Link.resumeOut_same.2
    · rw [(isr_links side _ _ _).2]
      exact (carries'.setSem _).kept rfl rfl
  | inn side =>
    obtain ⟨link, moved, rfl⟩ := map_eq_some_iff.mp ran
    obtain ⟨unread, carries⟩ := inv.carries (!side)
    exact inv.kept_setLink ((carries.kept_innStep moved).imp fun _ closed => ⟨side, closed⟩)

section

omit [DecidableEq Tid]

theorem Inv.awake_setLink (inv : Inv blkNr s) {link : Link Tid}
    (awake : ¬ link.Left blkNr (s.irq side)) :
    ∀ u, ¬ ((s.setLink side link).link u).Left blkNr (s.irq u) := by
  intro u
  by_cases same : u = side
  · subst same
    rwa [State.setLink_self]
  · rw [State.setLink_of_ne same]
    exact inv.awake u

theorem tick_self (side ticks : Bool) : (s.tick side ticks).irq side =
    (s.irq side || ticks) := Function.update_self ..

theorem tick_not (side ticks : Bool) : (s.tick (!side) ticks).irq side = s.irq side :=
  Function.update_of_ne (by simp) ..

end

theorem Inv.awake_iff (inv : Inv blkNr s) (ran : s.step blkNr e = some after) :
    (∀ side, ¬ (after.link side).Left blkNr (after.irq side)) ↔ s.Attended blkNr e := by
  cases e with
  | status side chnr status =>
    cases ran
    exact iff_of_true inv.awake trivial
  | post side t id prio data =>
    simp only [State.step] at ran
    split_ifs at ran
    cases ran
    obtain ⟨out, ring, inn, _⟩ := (s.link side).post_same t (s.chnStatus side) id prio data
    refine iff_of_true (inv.awake_setLink ?_) trivial
    rw [Link.left_congr out ring inn]
    exact inv.awake side
  | push side t =>
    obtain ⟨link, pushed, rfl⟩ := map_eq_some_iff.mp ran
    obtain ⟨call, pkg, rest, _, _, _, _, _, rfl⟩ := Link.push_eq pushed
    exact iff_of_true (inv.awake_setLink (inv.awake side)) trivial
  | fail side t =>
    simp only [State.step] at ran
    split_ifs at ran
    cases ran
    exact iff_of_true (inv.awake_setLink (inv.awake side)) trivial
  | pop side =>
    obtain ⟨link, popped, rfl⟩ := map_eq_some_iff.mp ran
    unfold Link.pop at popped
    split_ifs at popped
    obtain ⟨taken, _, rfl⟩ := map_eq_some_iff.mp popped
    exact iff_of_true (inv.awake_setLink (Link.not_left_of_ne fun pkg => by simp)) trivial
  | out side =>
    obtain ⟨link, moved, rfl⟩ := map_eq_some_iff.mp ran
    have ne : (!side) ≠ side := by simp
    rw [State.Attended, ← Link.outStep_left moved]
    refine ⟨fun awake => ?_, fun awake => forall_sides side ?_ ?_⟩
    · have here := awake side
      rwa [tick_not, State.tick, State.setLink_self] at here
    · rwa [tick_not, State.tick, State.setLink_self]
    · rw [tick_self, State.tick, State.setLink_of_ne ne]
      exact Link.not_left_or _ (inv.awake (!side))
  | isr side =>
    simp only [State.step] at ran
    split_ifs at ran
    cases ran
    obtain ⟨unread, carries⟩ := inv.carries side
    refine iff_of_true (forall_sides side ?_ ?_) trivial
    · rw [(isr_links side _ _ _).1]
      exact Link.not_left_of_ne carries.resumeOut_ne
    · rw [(isr_links side _ _ _).2]
      have irq : Function.update s.irq side false (!side) = s.irq (!side) :=
        Function.update_of_ne (by simp) ..
      have awake := inv.awake (!side)
      rw [← irq] at awake
      exact awake
  | inn side =>
    obtain ⟨link, moved, rfl⟩ := map_eq_some_iff.mp ran
    obtain ⟨unread, carries⟩ := inv.carries (!side)
    have ne : side ≠ !side := by simp
    rw [State.Attended, ← carries.innStep_left (inv.awake (!side)) moved]
    refine ⟨fun awake => ?_, fun awake => forall_sides side ?_ ?_⟩
    · have there := awake (!side)
      rwa [tick_self, State.tick, State.setLink_self] at there
    · rw [tick_not, State.tick, State.setLink_of_ne ne]
      exact inv.awake side
    · rwa [tick_self, State.tick, State.setLink_self]

theorem Inv.posts (ran : s.step blkNr e = some after)
    {t : Tid} {call : Post} (isPush : e = .push side t) (p : (s.link side).call t = some call) :
    ∃ pkg, (after.link side).posted = (s.link side).posted ++ [pkg] ∧
      pkg.id = call.id ∧ pkg.prio = call.prio ∧
      pkg.data ++ ((after.link side).call t).elim [] Post.data = call.data := by
  subst isPush
  obtain ⟨link, pushed, rfl⟩ := map_eq_some_iff.mp ran
  obtain ⟨found, pkg, rest, isCall, id, prio, _, data, rfl⟩ := Link.push_eq pushed
  obtain rfl : found = call := Option.some.inj (isCall.symm.trans p)
  rw [State.setLink_self]
  refine ⟨pkg, rfl, id, prio, ?_⟩
  simpa [Link.setCall] using data

theorem Inv.correct_iff (inv : Inv blkNr s) (ran : s.step blkNr e = some after) :
    Correct blkNr ⟨s, e, after⟩ ↔ s.Attended blkNr e := by
  rw [← inv.awake_iff ran]
  have kept := inv.kept ran
  refine ⟨fun correct => correct.awake, fun awake => ?_⟩
  refine ⟨fun side t call => Inv.posts ran, ?_, ?_, fun side => (kept side).lost, ?_,
    fun side => (kept side).unread, awake⟩
  · intro side chnr prio channel isKept
    obtain ⟨unread, carries⟩ := (kept side).carries
    exact carries.transfer channel isKept
  · intro side chnr prio channel isKept
    obtain ⟨unread, carries⟩ := (kept side).carries
    exact carries.complete channel isKept
  · intro side
    obtain ⟨unread, carries⟩ := (kept side).carries
    exact ⟨carries.holds.put_lt, carries.holds.get_lt⟩

theorem Inv.step (inv : Inv blkNr s)
    (attended : s.Attended blkNr e) (ran : s.step blkNr e = some after) : Inv blkNr after where
  carries side := (inv.kept ran side).carries
  awake := (inv.awake_iff ran).mpr attended

omit [DecidableEq Tid] in
theorem Initial.inv (pos : 0 < blkNr) (init : s.Initial) : Inv blkNr s := by
  obtain ⟨link, _, _⟩ := init
  refine ⟨fun side => ⟨[], ?_⟩, fun side => ?_⟩
  · rw [link]
    refine ⟨⟨pos, ?_, pos, trivial⟩, by simp [Out.hand], trivial, trivial, ?_⟩
    · simp
    · simp [In.hand, Out.hand]
  · rw [link]
    exact Link.not_left_of_ne fun pkg => by simp

/-- All steps of a run are correct exactly if all meet their condition. -/
theorem transfer_correct_iff (enough : 8 ≤ blkNr) {taken : List (Taken (State Tid) (Event Tid))}
    {last : State Tid} (run : (State.system blkNr).Run taken last) :
    (∀ step ∈ taken, Correct blkNr step) ↔ EveryStep (State.Attended blkNr) taken :=
  run.everyTaken_iff_everyStep (fun _ => Initial.inv (by omega))
    (fun _ _ _ inv attended ran => inv.step attended ran)
    (fun _ _ _ inv ran => inv.correct_iff ran)

def initialised : State Unit where
  link _ :=
    ⟨fun _ => none, [], .idle, ⟨0, 0, false, fun _ => 0⟩, .waiting, 0, [], [], fun _ => false⟩
  chnStatus _ chnr := if chnr = 0 then .established else .available
  irq _ := false

theorem initialised_initial : initialised.Initial := ⟨rfl, rfl, rfl⟩

def posted (data : List UInt8) : List (Event Unit) :=
  [.status true 1 .established, .status false 1 .established, .post true () 1 0 data,
    .push true (), .pop true] ++ List.replicate 5 (.out true)

def received : List (Event Unit) := .isr false :: List.replicate 7 (.inn false)

theorem transfer_of_three_bytes :
    ∃ last, execute (fun s => s.step 8) initialised (posted [1, 2, 3] ++ received) = some last ∧
      ∀ taken ∈ record (fun s => s.step 8) [] initialised (posted [1, 2, 3] ++ received),
        Correct 8 taken := by
  have isSome : (execute (fun s => s.step 8) initialised
      (posted [1, 2, 3] ++ received)).isSome := by decide +kernel
  have executed := (some_get isSome).symm
  exact ⟨_, executed, (transfer_correct_iff (by decide)
    (.execute (.start initialised_initial) executed)).mpr (by decide +kernel)⟩

def overtaken : List (Event Unit) :=
  posted (List.replicate 504 0) ++ [.push true (), .pop true, .out true, .out true] ++ received ++
    [.out true]

theorem wake_up_lost : ¬ ∀ (taken : List (Taken (State Unit) (Event Unit))) (last : State Unit),
      (State.system 8).Run taken last → ∀ step ∈ taken, Correct 8 step := by
  intro claim
  have isSome : (execute (fun s => s.step 8) initialised overtaken).isSome := by decide +kernel
  have executed := (some_get isSome).symm
  have run : (State.system 8).Run (record (fun s => s.step 8) [] initialised overtaken) _ :=
    .execute (.start initialised_initial) executed
  have left : ∃ taken ∈ record (fun s => s.step 8) [] initialised overtaken,
      (taken.after.link true).Left 8 (taken.after.irq true) := by decide +kernel
  obtain ⟨taken, mem, left⟩ := left
  exact (claim _ _ run taken mem).awake true left

end RtThread.Vbus.Transfer
