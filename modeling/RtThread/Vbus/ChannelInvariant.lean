import RtThread.Vbus.Channels

/-!
# The invariant of the channels

A slot has one owner, a number that is to be returned is that of no other open session, and what
the in thread goes on with is as admissible as when its packet came.
-/

open Function (update update_of_ne update_self)

namespace RtThread.Vbus

universe u

def Call.slot : Call → Option Nat
  | .posting i | .waiting i | .failed i _ | .freeing i _ _ | .woken i | .detaching i _ => some i
  | _ => Option.none

def Call.closing : Call → Option Nat
  | .close chnr | .closeFree chnr | .closeSend chnr | .closeWait chnr => some chnr
  | _ => Option.none

namespace State

variable {Tid : Type u} (s : State Tid)

def Permitted : Actor → Prop
  | .enable i chnr | .takeSession i chnr | .takeNumber i chnr =>
    s.Pending i ∧ isChannel chnr = true ∧ (s.chnStatus chnr).connected = false
  | .ackSet i chnr | .assign i chnr => s.Pending i ∧ s.Fresh chnr ∧ isChannel chnr = true
  | .establish i chnr => s.Pending i ∧ s.Fresh chnr ∧ isChannel chnr = true ∧
      (s.sess i).chnr = chnr
  | .complete i => ∀ chnr : Nat, (s.sess i).chnr = chnr → s.Pending i ∧ s.Fresh chnr
  | .disable chnr => isChannel chnr = true
  | .write chnr status => isChannel chnr = true ∧
      (status.connected = false → (s.chnStatus chnr).connected = false)
  | _ => True

/-- The slots of two calls differ, and that of a call is not available. -/
structure Owned : Prop where
  owner : ∀ t t' i, (s.call t).slot = some i → (s.call t').slot = some i → t' = t
  taken : ∀ t i, (s.call t).slot = some i → (s.sess i).st ≠ .available

def Exclusive : Prop :=
  ∀ t chnr, s.Owes t chnr → s.held chnr = false ∧ ∀ t', s.Owes t' chnr → t' = t

structure Inv : Prop extends State.Owned s where
  inBounds : s.inBounds = true
  channel0 : s.chnStatus 0 = .established
  open_of_held : ∀ chnr, s.held chnr = true → (s.chnStatus chnr).connected = true
  exclusive : s.Exclusive
  closing : ∀ t chnr, (s.call t).closing = some chnr → isChannel chnr = true
  permitted : s.Permitted s.actor

end State

variable {chnr : Nat} {session : Session}

theorem lt_of_isChannel (channel : State.isChannel chnr = true) : 0 < chnr ∧ chnr < channelNr := by
  simp only [State.isChannel, Bool.and_eq_true, decide_eq_true_eq] at channel
  exact ⟨Nat.pos_of_ne_zero channel.1, channel.2⟩

namespace State

variable {Tid : Type u} {s : State Tid}

theorem setStatus_eq {chnr : Int} (lower : 0 ≤ chnr) (upper : chnr < channelNr)
    (status : ChnStatus) : s.setStatus chnr status = { s with
        chnStatus := update s.chnStatus chnr.toNat status
        held := update s.held chnr.toNat
          (s.held chnr.toNat && status.connected) } := by
  rw [setStatus, if_pos ⟨lower, upper⟩]

theorem setStatus_channel (channel : isChannel chnr = true) (status : ChnStatus) :
    s.setStatus chnr status = { s with
        chnStatus := update s.chnStatus chnr status
        held := update s.held chnr (s.held chnr && status.connected) } := by
  have bounds := lt_of_isChannel channel
  rw [setStatus_eq (Int.natCast_nonneg _) (by exact_mod_cast bounds.2), Int.toNat_natCast]

theorem connected_update {other : Nat} {status : ChnStatus}
    (holds : (update s.chnStatus chnr status other).connected = true) :
    (s.chnStatus other).connected = true ∨ (other = chnr ∧ status.connected = true) := by
  by_cases same : other = chnr
  · subst same
    rw [update_self] at holds
    exact .inr ⟨rfl, holds⟩
  · rw [update_of_ne same] at holds
    exact .inl holds

theorem held_update {other : Nat} {status : ChnStatus}
    (holds : update s.held chnr (s.held chnr && status.connected) other = true) :
    s.held other = true ∧ (other = chnr → status.connected = true) := by
  by_cases same : other = chnr
  · subst same
    rw [update_self, Bool.and_eq_true] at holds
    exact ⟨holds.1, fun _ => holds.2⟩
  · rw [update_of_ne same] at holds
    exact ⟨holds, fun equal => absurd equal same⟩

theorem Inv.write (inv : s.Inv) (channel : isChannel chnr = true) (status : ChnStatus) :
    (s.setStatus chnr status).inBounds = true ∧
      (s.setStatus chnr status).chnStatus 0 = .established ∧
      ∀ other, (s.setStatus chnr status).held other = true →
        ((s.setStatus chnr status).chnStatus other).connected = true := by
  have bounds := lt_of_isChannel channel
  rw [setStatus_channel channel]
  refine ⟨inv.inBounds, ?_, fun other holds => ?_⟩
  · exact (update_of_ne (Nat.ne_of_lt bounds.1) _ _).trans inv.channel0
  · obtain ⟨held, connected⟩ := held_update holds
    by_cases same : other = chnr
    · subst same
      simpa using connected rfl
    · simpa [same] using inv.open_of_held other held

theorem owes_of_setSess {i : Nat} {t : Tid} (pending : s.Pending i)
    (done : session.done = false) (owes : (s.setSess i session).Owes t chnr) : s.Owes t chnr := by
  unfold Owes at owes ⊢
  dsimp only [setSess] at owes
  cases call : s.call t with
  | posting j | waiting j =>
    simp only [call] at owes
    by_cases same : j = i
    · subst same
      simp [done] at owes
    · simpa only [update_of_ne same] using owes
  | woken j =>
    have ne : j ≠ i := fun same => pending.2 t (same ▸ call)
    simpa only [call, update_of_ne ne] using owes
  | detaching _ ret | clearing _ ret => simpa only [call] using owes
  | _ => simp [call] at owes

theorem owes_of_negative {i : Nat} {t : Tid}
    (negative : session.chnr < 0) (owes : (s.setSess i session).Owes t chnr) : s.Owes t chnr := by
  have ne : session.chnr ≠ chnr := by omega
  unfold Owes at owes ⊢
  dsimp only [setSess] at owes
  cases call : s.call t with
  | posting j | waiting j | woken j =>
    simp only [call] at owes
    by_cases same : j = i
    · subst same
      simp [ne] at owes
    · simpa only [update_of_ne same] using owes
  | detaching _ ret | clearing _ ret => simpa only [call] using owes
  | _ => simp [call] at owes

theorem setSess_sess_self {i : Nat} : (s.setSess i session).sess i = session := update_self ..

theorem setSess_sess_of_ne {i j : Nat} (ne : j ≠ i) :
    (s.setSess i session).sess j = s.sess j := update_of_ne ne _ _

structure Quiet (before after : State Tid) : Prop where
  actor : after.actor = before.actor
  chnr : ∀ i, (after.sess i).chnr = (before.sess i).chnr
  owes : ∀ t chnr, after.Owes t chnr → before.Owes t chnr
  held : ∀ chnr, after.held chnr = true →
    before.held chnr = true ∨ ∃ t, before.Owes t chnr ∧ ¬ after.Owes t chnr
  connected : ∀ chnr, (after.chnStatus chnr).connected = true →
    (before.chnStatus chnr).connected = true
  pending : ∀ i, before.Pending i → after.Pending i

variable {after : State Tid}

section

variable (quiet : Quiet s after)

include quiet

theorem Quiet.fresh (fresh : s.Fresh chnr) : after.Fresh chnr := by
  refine ⟨Bool.eq_false_iff.mpr fun held => ?_, fun t owes => fresh.2 t (quiet.owes t chnr owes)⟩
  rcases quiet.held chnr held with before | ⟨t, owes, _⟩
  · exact Bool.eq_false_iff.mp fresh.1 before
  · exact fresh.2 t owes

theorem Quiet.closed (closed : (s.chnStatus chnr).connected = false) :
    (after.chnStatus chnr).connected = false :=
  Bool.eq_false_iff.mpr fun connected =>
    Bool.eq_false_iff.mp closed (quiet.connected chnr connected)

theorem Quiet.exclusive (exclusive : s.Exclusive) : after.Exclusive := by
  intro t chnr owes
  obtain ⟨notHeld, unique⟩ := exclusive t chnr (quiet.owes t chnr owes)
  refine ⟨Bool.eq_false_iff.mpr fun held => ?_, fun t' owes' => unique t' (quiet.owes _ _ owes')⟩
  rcases quiet.held chnr held with before | ⟨t', owes', ret⟩
  · exact Bool.eq_false_iff.mp notHeld before
  · exact ret (unique t' owes' ▸ owes)

theorem Quiet.permitted (permitted : s.Permitted s.actor) : after.Permitted after.actor := by
  rw [quiet.actor]
  revert permitted
  cases s.actor with
  | idle | answer | refuse i | disable chnr => exact id
  | enable i chnr | takeSession i chnr | takeNumber i chnr =>
    exact fun ⟨pending, channel, closed⟩ =>
      ⟨quiet.pending i pending, channel, quiet.closed closed⟩
  | ackSet i chnr | assign i chnr =>
    exact fun ⟨pending, fresh, channel⟩ => ⟨quiet.pending i pending, quiet.fresh fresh, channel⟩
  | establish i chnr =>
    exact fun ⟨pending, fresh, channel, number⟩ =>
      ⟨quiet.pending i pending, quiet.fresh fresh, channel, (quiet.chnr i).trans number⟩
  | complete i =>
    intro completes chnr number
    obtain ⟨pending, fresh⟩ := completes chnr ((quiet.chnr i).symm.trans number)
    exact ⟨quiet.pending i pending, quiet.fresh fresh⟩
  | write chnr status =>
    exact fun ⟨channel, closed⟩ => ⟨channel, fun status => quiet.closed (closed status)⟩

end

end State

end RtThread.Vbus
