import Mathlib.Data.Fintype.Basic
import RtThread.Dfs.Poll

/-!
# A poll sleeps until something changes

A call that has not been woken has all its nodes in their queues, so it may sleep; one that has
been woken never sleeps again.
-/

open Function (update update_self)

namespace RtThread.Dfs.Poll

open TransitionSystem
open Option (mem_unique map_eq_some_iff some_get ne_none_iff_exists')

universe u v

variable {Tid : Type u} {Queue : Type v}

def Vigilant (q : Queue → List (Entry Tid)) (call : Call Tid Queue) : Prop :=
  ∀ timer, call.phase = .asleep timer →
    ¬ call.Due ∧ ∀ offer ∈ call.offers, ∃ entry ∈ offer.node, entry ∈ q offer.queue

def Call.Prompted (call : Call Tid Queue) : Prop :=
  (call.fresh = true ∨ call.Due) ∧ call.overdue = false

instance (call : Call Tid Queue) : Decidable call.Prompted := instDecidableAnd

/-- What one step does to the calls: it begins an examination only where something has
prompted one, their number is bounded by the wake-ups, and who sleeps is vigilant. -/
def Lawful (taken : Taken (State Tid Queue) (Event Tid Queue)) : Prop :=
  (∀ t call, taken.after.call t = some call →
    call.examinations ≤ call.wakeups + 2 ∧ Vigilant taken.after.queue call) ∧
  ∀ t previous call, taken.before.call t = some previous → taken.after.call t = some call →
    previous.examinations < call.examinations → previous.Prompted

def Call.staysAsleep (call : Call Tid Queue) : Bool :=
  match call.phase with
  | .asleep (some left) => 1 < left
  | _ => false

/-- A call that comes to wait after a wake-up has been prompted again; one that goes to sleep
does so before its timeout, with all its nodes; and one that stays asleep has its timer stand
no later than its timeout. -/
def Timely (s : State Tid Queue) : Event Tid Queue → Prop
  | .proceed t => ∀ call ∈ s.call t, call.phase = .waiting →
      if call.triggered then call.Prompted
      else call.timeout ≠ some 0 → ¬ call.Due ∧ ∀ offer ∈ call.offers, offer.node ≠ none
  | .tick => ∀ t, ∀ call ∈ s.call t, call.staysAsleep = true →
      call.timeout ≠ some (call.elapsed + 1)
  | _ => True

instance [Fintype Tid] [DecidableEq Queue] (s : State Tid Queue) (e : Event Tid Queue) :
    Decidable (Timely s e) := by
  cases e <;> unfold Timely <;> infer_instance

/-- How the account of a call agrees with its fields. -/
structure Sound (q : Queue → List (Entry Tid)) (t : Tid) (call : Call Tid Queue) : Prop where
  owned : ∀ offer ∈ call.offers, ∀ entry ∈ offer.node, ∃ i key, entry = .node t i key
  linked : call.triggered = false → (∀ num, call.phase ≠ .leaving num) →
    ∀ offer ∈ call.offers, ∀ entry ∈ offer.node, entry ∈ q offer.queue
  fresh : call.fresh = true → call.triggered = true
  counted : call.examinations + call.fresh.toNat ≤ call.wakeups + 1 + call.overdue.toNat
  overdue : call.overdue = true → call.Due
  once : call.triggered = false → call.istimeout = false → call.overdue = false
  waiting : call.phase = .waiting → call.istimeout = false
  asleep : ∀ timer, call.phase = .asleep timer →
    call.triggered = false ∧ call.istimeout = false ∧ (timer = none ↔ call.timeout = none) ∧
      ∀ left ∈ timer, 0 < left ∧ ∀ limit ∈ call.timeout, limit ≤ call.elapsed + left
  woken : call.phase = .woken → call.Prompted
  vigilant : Vigilant q call

variable {num tickPerSecond : Nat} {e : Event Tid Queue}

namespace Sound

variable {q after : Queue → List (Entry Tid)} {t : Tid} {call : Call Tid Queue}

theorem relinked (inv : Sound q t call)
    (kept : call.triggered = false → (∀ num, call.phase ≠ .leaving num) →
      ∀ name i key, .node t i key ∈ q name → .node t i key ∈ after name) : Sound after t call := by
  have linked : call.triggered = false → (∀ num, call.phase ≠ .leaving num) →
      ∀ offer ∈ call.offers, ∀ e ∈ offer.node, e ∈ after offer.queue := by
    intro untriggered stays offer offered e isNode
    obtain ⟨i, key, rfl⟩ := inv.owned offer offered e isNode
    exact kept untriggered stays _ _ _ (inv.linked untriggered stays offer offered _ isNode)
  refine { inv with linked, vigilant := fun timer isAsleep => ?_ }
  obtain ⟨notDue, held⟩ := inv.vigilant timer isAsleep
  refine ⟨notDue, fun offer offered => ?_⟩
  obtain ⟨e, isNode, -⟩ := held offer offered
  exact ⟨e, isNode, linked (inv.asleep timer isAsleep).1 (by simp [isAsleep]) offer offered
    e isNode⟩

theorem bounded (inv : Sound q t call) : call.examinations ≤ call.wakeups + 2 := by
  have counted := inv.counted
  have := Bool.toNat_le call.overdue
  omega

theorem init (q : Queue → List (Entry Tid)) (t : Tid) (tickPerSecond : Nat) (fds : List Pollfd)
    (msec : Int32) : Sound q t (.init tickPerSecond fds msec) where
  owned := by simp [Call.init]
  linked := by simp [Call.init]
  fresh := nofun
  counted := by simp [Call.init]
  overdue := nofun
  once := by simp [Call.init]
  waiting := nofun
  asleep := nofun
  woken := nofun
  vigilant := nofun

section

variable (inv : Sound q t call)

include inv

theorem answered {n : Nat} (examining : call.phase = .examining n num) (pollfd : Pollfd)
    (mask : Int32) : Sound q t (call.answered n num pollfd mask) where
  owned := inv.owned
  linked untriggered _ := inv.linked untriggered (by simp [examining])
  fresh := inv.fresh
  counted := inv.counted
  overdue := inv.overdue
  once := inv.once
  waiting := nofun
  asleep := nofun
  woken := nofun
  vigilant := nofun

theorem concluded {n : Nat} (examining : call.phase = .examining n num) :
    Sound q t (call.concluded num) := by
  have phase : (call.concluded num).phase = .leaving num ∨
      (call.concluded num).phase = .waiting ∧ call.istimeout = false := by
    unfold Call.concluded
    split_ifs with ends
    · exact .inl rfl
    · exact .inr ⟨rfl, by simp_all⟩
  constructor
  case owned => exact inv.owned
  case linked => exact fun untriggered _ => inv.linked untriggered (by simp [examining])
  case fresh => exact inv.fresh
  case counted => exact inv.counted
  case overdue => exact inv.overdue
  case once => exact inv.once
  case waiting =>
    intro isWaiting
    rcases phase with leaving | ⟨-, notTimeout⟩
    · simp [leaving] at isWaiting
    · exact notTimeout
  case asleep => rcases phase with leaving | ⟨waiting, -⟩ <;> simp [*]
  case woken => rcases phase with leaving | ⟨waiting, -⟩ <;> simp [*]
  case vigilant =>
    intro timer isAsleep
    rcases phase with leaving | ⟨waiting, -⟩ <;> simp [*] at isAsleep

theorem reexamine (prompted : call.Prompted) (stays : ∀ num, call.phase ≠ .leaving num) :
    Sound q t call.reexamine where
  owned := inv.owned
  linked untriggered _ := inv.linked untriggered stays
  fresh := nofun
  counted := by
    have counted := inv.counted
    obtain ⟨cause, notOverdue⟩ := prompted
    simp only [notOverdue, Bool.toNat_false] at counted
    by_cases due : call.Due
    · simp [Call.reexamine, due]
      omega
    · rcases cause with isFresh | isDue
      · simp only [isFresh, Bool.toNat_true] at counted
        simp [Call.reexamine]
        omega
      · exact absurd isDue due
  overdue isOverdue := of_decide_eq_true isOverdue
  once untriggered notTimeout := by
    have untriggered : call.triggered = false := untriggered
    simp [Call.reexamine, untriggered] at notTimeout
  waiting := nofun
  asleep := nofun
  woken := nofun
  vigilant := nofun

theorem wake : Sound q t call.wake where
  owned := inv.owned
  linked := nofun
  fresh _ := rfl
  counted := by
    have counted := inv.counted
    simp only [Call.wake, Bool.toNat_true]
    omega
  overdue := inv.overdue
  once := nofun
  waiting isWaiting := by
    refine inv.waiting ?_
    revert isWaiting
    simp only [Call.wake]
    split <;> simp_all
  asleep timer isAsleep := by
    simp only [Call.wake] at isAsleep
    split at isAsleep
    · simp at isAsleep
    · next other => exact absurd isAsleep (other timer)
  woken isWoken := by
    refine ⟨.inl rfl, ?_⟩
    simp only [Call.wake] at isWoken
    split at isWoken
    · rename_i timer isAsleep
      obtain ⟨untriggered, notTimeout, -⟩ := inv.asleep timer isAsleep
      exact inv.once untriggered notTimeout
    · exact (inv.woken isWoken).2
  vigilant timer isAsleep := by
    simp only [Call.wake] at isAsleep
    split at isAsleep
    · simp at isAsleep
    · next other => exact absurd isAsleep (other timer)

theorem prompted_of_waits (waiting : call.phase = .waiting)
    (timely : call.triggered = true → call.Prompted)
    (begins : call.examinations < call.waits.examinations) : call.Prompted := by
  unfold Call.waits at begins
  split_ifs at begins with sleeps
  · exact absurd begins (Nat.lt_irrefl _)
  · cases triggered : call.triggered with
    | true => exact timely triggered
    | false =>
      have noTimeout : call.timeout = some 0 := by simpa [triggered] using sleeps
      exact ⟨.inr ⟨0, noTimeout, Nat.zero_le _⟩, inv.once triggered (inv.waiting waiting)⟩

theorem waits (waiting : call.phase = .waiting)
    (timely : if call.triggered then call.Prompted else call.timeout ≠ some 0 → ¬ call.Due ∧
      ∀ offer ∈ call.offers, offer.node ≠ none) : Sound q t call.waits := by
  have prompts : call.triggered = true → call.Prompted := fun triggered => by
    simpa only [triggered, if_true] using timely
  have stays : ∀ num, call.phase ≠ .leaving num := by simp [waiting]
  by_cases sleeps : call.timeout ≠ some 0 ∧ call.triggered = false
  · obtain ⟨hasTimeout, untriggered⟩ := sleeps
    simp only [untriggered] at timely
    obtain ⟨notDue, allocated⟩ := timely hasTimeout
    rw [show call.waits = { call with phase := .asleep call.timeout } from
      if_pos ⟨hasTimeout, untriggered⟩]
    refine ⟨inv.owned, fun _ _ => inv.linked untriggered stays, inv.fresh, inv.counted,
      inv.overdue, inv.once, nofun, ?_, nofun, ?_⟩
    · rintro timer isTimer
      obtain rfl := Phase.asleep.inj isTimer
      refine ⟨untriggered, inv.waiting waiting, Iff.rfl, fun left isLeft => ⟨?_, ?_⟩⟩
      · have : left ≠ 0 := fun isZero => hasTimeout (isZero ▸ isLeft)
        omega
      · intro limit isLimit
        obtain rfl := mem_unique isLeft isLimit
        omega
    · refine fun _ _ => ⟨notDue, fun offer offered => ?_⟩
      obtain ⟨e, isNode⟩ := ne_none_iff_exists'.mp (allocated offer offered)
      exact ⟨e, isNode, inv.linked untriggered stays offer offered e isNode⟩
  · have begins : call.waits = call.reexamine := if_neg sleeps
    rw [begins]
    refine inv.reexamine (inv.prompted_of_waits waiting prompts ?_) stays
    rw [begins]
    exact Nat.lt_succ_self _

theorem tick (timely : call.staysAsleep = true → call.timeout ≠ some (call.elapsed + 1)) :
    Sound q t call.tick := by
  have due : call.Due → call.tick.Due := by
    rintro ⟨limit, isLimit, passed⟩
    exact ⟨limit, isLimit, Nat.le_succ_of_le passed⟩
  have prompted : call.Prompted → call.tick.Prompted := And.imp_left (Or.imp_right due)
  have notDue : ∀ timer, call.phase = .asleep timer → call.timeout ≠ some (call.elapsed + 1) →
      ¬ call.tick.Due := by
    rintro timer isAsleep notNext ⟨limit, isLimit, passed⟩
    rcases Nat.le_succ_iff.mp passed with earlier | rfl
    · exact (inv.vigilant timer isAsleep).1 ⟨limit, isLimit, earlier⟩
    · exact notNext isLimit
  have asleep : ∀ timer, call.tick.phase = .asleep timer →
      (timer = none ∧ call.phase = .asleep none) ∨
        ∃ left, 1 < left ∧ timer = some (left - 1) ∧ call.phase = .asleep (some left) := by
    intro timer isAsleep
    simp only [Call.tick] at isAsleep
    split at isAsleep
    · rename_i left sleeps
      split_ifs at isAsleep with more
      exact .inr ⟨left, more, (Phase.asleep.inj isAsleep).symm, sleeps⟩
    · rename_i other
      cases timer with
      | none => exact .inl ⟨rfl, isAsleep⟩
      | some left => exact absurd isAsleep (other left)
  constructor
  case owned => exact inv.owned
  case linked =>
    intro untriggered stays
    refine inv.linked untriggered fun num leaving => stays num ?_
    simp [Call.tick, leaving]
  case fresh => exact inv.fresh
  case counted => exact inv.counted
  case overdue => exact fun isOverdue => due (inv.overdue isOverdue)
  case once => exact inv.once
  case waiting =>
    intro isWaiting
    simp only [Call.tick] at isWaiting
    split at isWaiting
    · split_ifs at isWaiting
    · exact inv.waiting isWaiting
  case asleep =>
    intro timer isAsleep
    rcases asleep timer isAsleep with ⟨rfl, sleeps⟩ | ⟨left, more, rfl, sleeps⟩
    · obtain ⟨untriggered, notTimeout, noTimer, -⟩ := inv.asleep _ sleeps
      exact ⟨untriggered, notTimeout, noTimer, by simp⟩
    · obtain ⟨untriggered, notTimeout, noTimer, stands⟩ := inv.asleep _ sleeps
      refine ⟨untriggered, notTimeout, by simpa [Call.tick] using noTimer, fun rest isRest => ?_⟩
      cases isRest
      refine ⟨by omega, fun limit isLimit => ?_⟩
      have := (stands left rfl).2 limit isLimit
      show limit ≤ call.elapsed + 1 + (left - 1)
      omega
  case woken =>
    intro isWoken
    simp only [Call.tick] at isWoken
    split at isWoken
    · rename_i left sleeps
      split_ifs at isWoken with more
      obtain ⟨untriggered, notTimeout, noTimer, stands⟩ := inv.asleep _ sleeps
      obtain ⟨limit, isLimit⟩ :=
        ne_none_iff_exists'.mp fun noTimeout => by simpa using noTimer.mpr noTimeout
      refine ⟨.inr ⟨limit, isLimit, ?_⟩, inv.once untriggered notTimeout⟩
      have := (stands left rfl).2 limit isLimit
      show limit ≤ call.elapsed + 1
      omega
    · exact prompted (inv.woken isWoken)
  case vigilant =>
    intro timer isAsleep
    rcases asleep timer isAsleep with ⟨rfl, sleeps⟩ | ⟨left, more, rfl, sleeps⟩
    · have noTimeout := (inv.asleep _ sleeps).2.2.1.mp rfl
      exact ⟨notDue _ sleeps (by simp [noTimeout]), (inv.vigilant _ sleeps).2⟩
    · have stays : call.staysAsleep = true := by simp [Call.staysAsleep, sleeps, more]
      exact ⟨notDue _ sleeps (timely stays), (inv.vigilant _ sleeps).2⟩

theorem offered {n : Nat} (examining : call.phase = .examining n num) (name : Queue)
    (node : Option (Entry Tid)) (nodes : Nat) (kept : ∀ name, ∀ e ∈ q name, e ∈ after name)
    (added : ∀ e ∈ node, (∃ i key, e = .node t i key) ∧ e ∈ after name) :
    Sound after t { call with nodes, offers := ⟨name, node⟩ :: call.offers } where
  owned := List.forall_mem_cons.mpr ⟨fun e isNode => (added e isNode).1, inv.owned⟩
  linked untriggered _ :=
    List.forall_mem_cons.mpr ⟨fun e isNode => (added e isNode).2,
      fun offer offered e isNode => kept _ e
        (inv.linked untriggered (by simp [examining]) offer offered e isNode)⟩
  fresh := inv.fresh
  counted := inv.counted
  overdue := inv.overdue
  once := inv.once
  waiting := inv.waiting
  asleep _ isAsleep := nomatch examining.symm.trans isAsleep
  woken isWoken := nomatch examining.symm.trans isWoken
  vigilant _ isAsleep := nomatch examining.symm.trans isAsleep

theorem tornDown (leaving : call.phase = .leaving num) (after : Queue → List (Entry Tid))
    (nodes : Nat) : Sound after t { call with nodes } where
  owned := inv.owned
  linked _ stays := absurd leaving (stays num)
  fresh := inv.fresh
  counted := inv.counted
  overdue := inv.overdue
  once := inv.once
  waiting := inv.waiting
  asleep _ isAsleep := nomatch leaving.symm.trans isAsleep
  woken isWoken := nomatch leaving.symm.trans isWoken
  vigilant _ isAsleep := nomatch leaving.symm.trans isAsleep

end

end Sound

namespace State

variable [DecidableEq Tid] [DecidableEq Queue] {s after : State Tid Queue}

def AllSound (s : State Tid Queue) : Prop :=
  ∀ t, ∀ call ∈ s.call t, Sound s.queue t call

def Justified (s after : State Tid Queue) : Prop :=
  ∀ t, ∀ previous ∈ s.call t, ∀ call ∈ after.call t,
    previous.examinations < call.examinations → previous.Prompted

omit [DecidableEq Queue] in
theorem update_sound {t : Tid} {next : Option (Call Tid Queue)}
    {q : Queue → List (Entry Tid)} (sounds : AllSound s)
    (kept : ∀ other ≠ t, ∀ name i key, Entry.node other i key ∈ s.queue name →
      Entry.node other i key ∈ q name) (inv : ∀ call ∈ next, Sound q t call)
    (prompted : ∀ previous ∈ s.call t, ∀ call ∈ next,
      previous.examinations < call.examinations → previous.Prompted) :
    AllSound ⟨q, update s.call t next⟩ ∧ Justified s ⟨q, update s.call t next⟩ := by
  constructor
  · intro other call called
    by_cases isT : other = t
    · subst isT
      exact inv call (by simpa using called)
    · have called : s.call other = some call := by simpa [isT] using called
      exact (sounds other call called).relinked fun _ _ => kept other isT
  · intro other previous isPrevious call called begins
    by_cases isT : other = t
    · subst isT
      exact prompted previous isPrevious call (by simpa using called) begins
    · have called : s.call other = some call := by simpa [isT] using called
      obtain rfl := mem_unique isPrevious called
      exact absurd begins (Nat.lt_irrefl _)

omit [DecidableEq Queue] in
theorem update_call_sound {t : Tid} {call next : Call Tid Queue}
    {q : Queue → List (Entry Tid)} (sounds : AllSound s) (called : s.call t = some call)
    (kept : ∀ other ≠ t, ∀ name i key, Entry.node other i key ∈ s.queue name →
      Entry.node other i key ∈ q name) (inv : Sound q t next)
    (prompted : call.examinations < next.examinations → call.Prompted) :
    AllSound ⟨q, update s.call t (some next)⟩ ∧ Justified s ⟨q, update s.call t (some next)⟩ := by
  refine update_sound sounds kept (fun other isNext => ?_)
    fun previous isPrevious other isNext begins => ?_
  · cases isNext
    exact inv
  · cases isNext
    obtain rfl := mem_unique isPrevious called
    exact prompted begins

omit [DecidableEq Tid] [DecidableEq Queue] in
theorem queues_sound {q : Queue → List (Entry Tid)} (sounds : AllSound s)
    (kept : ∀ t name i key, Entry.node t i key ∈ s.queue name → Entry.node t i key ∈ q name) :
    AllSound ⟨q, s.call⟩ ∧ Justified s ⟨q, s.call⟩ := by
  refine ⟨fun t call called => (sounds t call called).relinked fun _ _ => kept t,
    fun t previous isPrevious call called begins => ?_⟩
  obtain rfl := mem_unique isPrevious called
  exact absurd begins (Nat.lt_irrefl _)

omit [DecidableEq Tid] in
theorem mem_update_append {q : Queue → List (Entry Tid)} {name other : Queue}
    {e added : Entry Tid} (mem : e ∈ q other) : e ∈ update q name (q name ++ [added]) other := by
  by_cases same : other = name
  · subst same
    simp [mem]
  · simpa [same] using mem

theorem mem_update_erase {q : Queue → List (Entry Tid)} {name other : Queue}
    {e removed : Entry Tid} (stays : e ≠ removed) (mem : e ∈ q other) :
    e ∈ update q name ((q name).erase removed) other := by
  by_cases same : other = name
  · subst same
    simpa [List.mem_erase_of_ne stays] using mem
  · simpa [same] using mem

omit [DecidableEq Tid] [DecidableEq Queue] in
theorem examine_eq_some {t : Tid} {answer : Call Tid Queue → Nat → Nat → Pollfd → State Tid Queue}
    (examined : s.examine t answer = some after) :
    ∃ call n num pollfd, s.call t = some call ∧ call.phase = .examining n num ∧
      answer call n num pollfd = after := by
  unfold examine at examined
  split at examined
  · rename_i call called
    split at examined
    · rename_i n num phase
      obtain ⟨pollfd, -, answered⟩ := map_eq_some_iff.mp examined
      exact ⟨call, n, num, pollfd, called, phase, answered⟩
    · simp at examined
  · simp at examined

section

variable (sounds : AllSound s)

include sounds

omit [DecidableEq Queue] in
theorem proceed_sound {t : Tid} {call : Call Tid Queue} (called : s.call t = some call)
    (timely : Timely s (.proceed t)) (proceeded : s.proceed t call = some after) :
    AllSound after ∧ Justified s after := by
  have inv := sounds t call called
  unfold proceed at proceeded
  split at proceeded
  · rename_i n num examining
    obtain ⟨-, proceeded⟩ := Option.ite_none_right_eq_some.mp proceeded
    cases proceeded
    exact update_call_sound sounds called (fun _ _ _ _ _ => id) (inv.concluded examining)
      fun begins => absurd begins (Nat.lt_irrefl _)
  · rename_i waiting
    cases proceeded
    have timely := timely call called waiting
    refine update_call_sound sounds called (fun _ _ _ _ _ => id) (inv.waits waiting timely)
      (inv.prompted_of_waits waiting fun triggered => ?_)
    simpa only [triggered, if_true] using timely
  · simp at proceeded
  · rename_i woken
    cases proceeded
    have prompted := inv.woken woken
    exact update_call_sound sounds called (fun _ _ _ _ _ => id)
      (inv.reexamine prompted (by simp [woken])) fun _ => prompted
  · rename_i num leaving
    split at proceeded
    · cases proceeded
      exact update_sound sounds (fun _ _ _ _ _ => id) nofun fun _ _ => nofun
    · rename_i i nodes
      cases proceeded
      refine (update_call_sound sounds called ?_ (inv.tornDown leaving _ i)
        fun begins => absurd begins (Nat.lt_irrefl _) : _)
      intro other isOther name number key mem
      simpa [removeNode, isOther] using mem

theorem wakeup_sound (name : Queue) (key : UInt32) :
    AllSound (s.wakeup name key) ∧ Justified s (s.wakeup name key) := by
  unfold wakeup
  split
  · exact queues_sound sounds fun _ _ _ _ => id
  · rename_i e found
    cases e with
    | wait number =>
      exact queues_sound sounds fun _ _ _ _ => mem_update_erase nofun
    | node t i own =>
      refine (update_sound sounds ?_ ?_ ?_ : _)
      · intro other isOther _ _ _
        exact mem_update_erase fun same => isOther (Entry.node.inj same).1
      · intro call isCall
        obtain ⟨previous, called, rfl⟩ := map_eq_some_iff.mp isCall
        exact (sounds t previous called).wake.relinked nofun
      · intro previous isPrevious call isCall begins
        obtain ⟨_, called, rfl⟩ := map_eq_some_iff.mp isCall
        obtain rfl := mem_unique isPrevious called
        exact absurd begins (Nat.lt_irrefl _)

theorem pollAdd_sound {t : Tid} {call : Call Tid Queue} {n : Nat} (called : s.call t = some call)
    (examining : call.phase = .examining n num) (pollfd : Pollfd) (name : Queue)
    (allocated : Bool) :
    AllSound (s.pollAdd t call pollfd name allocated) ∧
      Justified s (s.pollAdd t call pollfd name allocated) := by
  unfold pollAdd
  split_ifs
  · let node := Entry.node t call.nodes pollfd.key
    have kept : ∀ other, ∀ e ∈ s.queue other,
        e ∈ update s.queue name (s.queue name ++ [node]) other :=
      fun _ _ => mem_update_append
    have added : ∀ e ∈ some node, (∃ i key, e = .node t i key) ∧
        e ∈ update s.queue name (s.queue name ++ [node]) name := by
      intro e isNode
      cases isNode
      exact ⟨⟨_, _, rfl⟩, by simp⟩
    exact (update_call_sound sounds called (fun _ _ other _ _ => kept other _)
      ((sounds t call called).offered examining name (some node) (call.nodes + 1) kept added)
      fun begins => absurd begins (Nat.lt_irrefl _) : _)
  · exact update_call_sound sounds called (fun _ _ _ _ _ => id)
      ((sounds t call called).offered examining name none _ (fun _ _ => id) nofun)
      fun begins => absurd begins (Nat.lt_irrefl _)
  · exact queues_sound sounds fun _ _ _ _ => id

theorem step_sound (timely : Timely s e) (ran : s.step tickPerSecond e = some after) :
    AllSound after ∧ Justified s after := by
  cases e with
  | poll t fds msec =>
    simp only [step] at ran
    split at ran
    · rename_i idle
      cases ran
      refine update_sound sounds (fun _ _ _ _ _ => id) (fun call isCall => ?_)
        fun _ isPrevious => nomatch idle.symm.trans isPrevious
      cases isCall
      exact Sound.init _ _ _ _ _
    · simp at ran
  | pollAdd t name allocated =>
    obtain ⟨call, n, num, pollfd, called, examining, rfl⟩ := examine_eq_some ran
    exact pollAdd_sound sounds called examining pollfd name allocated
  | examined t file =>
    obtain ⟨call, n, num, pollfd, called, examining, rfl⟩ := examine_eq_some ran
    exact update_call_sound sounds called (fun _ _ _ _ _ => id)
      ((sounds t call called).answered examining _ _)
      fun begins => absurd begins (Nat.lt_irrefl _)
  | proceed t =>
    obtain ⟨call, called, proceeded⟩ := Option.bind_eq_some_iff.mp ran
    exact proceed_sound sounds called timely proceeded
  | wakeup name key =>
    cases ran
    exact wakeup_sound sounds name key
  | tick =>
    cases ran
    refine ⟨fun t call isCall => ?_, fun t previous isPrevious call isCall begins => ?_⟩
    · obtain ⟨previous, called, rfl⟩ := map_eq_some_iff.mp isCall
      exact (sounds t previous called).tick (timely t previous called)
    · obtain ⟨_, called, rfl⟩ := map_eq_some_iff.mp isCall
      obtain rfl := mem_unique isPrevious called
      exact absurd begins (Nat.lt_irrefl _)
  | waitAdd name number =>
    cases ran
    exact queues_sound sounds fun _ _ _ _ => mem_update_append
  | waitRemove name number =>
    cases ran
    exact queues_sound sounds fun _ _ _ _ => mem_update_erase nofun

end

theorem timely_of_lawful
    (ran : s.step tickPerSecond e = some after) (lawful : Lawful ⟨s, e, after⟩) : Timely s e := by
  obtain ⟨vigilant, prompted⟩ := lawful
  cases e with
  | proceed t =>
    intro call called waiting
    obtain ⟨_, isCall, proceeded⟩ := Option.bind_eq_some_iff.mp ran
    obtain rfl := mem_unique called isCall
    simp only [proceed, waiting, Option.some.injEq] at proceeded
    subst proceeded
    have next : (s.setCall t (some call.waits)).call t = some call.waits := update_self ..
    split_ifs with triggered
    · refine prompted t call _ called next ?_
      simp [Call.waits, triggered, Call.reexamine]
    · intro hasTimeout
      have sleeps : call.waits = { call with phase := .asleep call.timeout } :=
        if_pos ⟨hasTimeout, by simpa using triggered⟩
      obtain ⟨notDue, held⟩ := (vigilant t _ next).2 call.timeout (by rw [sleeps])
      rw [sleeps] at notDue held
      refine ⟨notDue, fun offer offered => ?_⟩
      obtain ⟨entry, isNode, -⟩ := held offer offered
      exact ne_none_iff_exists'.mpr ⟨entry, isNode⟩
  | tick =>
    intro t call called stays isNext
    cases ran
    obtain ⟨left, sleeps, more⟩ : ∃ left, call.phase = .asleep (some left) ∧ 1 < left := by
      unfold Call.staysAsleep at stays
      split at stays
      · next left sleeps => exact ⟨left, sleeps, by simpa using stays⟩
      · simp at stays
    have next : (s.call t).map Call.tick = some call.tick :=
      map_eq_some_iff.mpr ⟨call, called, rfl⟩
    refine ((vigilant t _ next).2 (some (left - 1)) ?_).1 ⟨_, isNext, Nat.le_refl _⟩
    simp [Call.tick, sleeps, more]
  | _ => trivial

theorem lawful_iff_timely (sounds : AllSound s) (ran : s.step tickPerSecond e = some after) :
    Lawful ⟨s, e, after⟩ ↔ Timely s e := by
  refine ⟨timely_of_lawful ran, fun timely => ?_⟩
  obtain ⟨sounds, justified⟩ := step_sound sounds timely ran
  exact ⟨fun t call called => ⟨(sounds t call called).bounded, (sounds t call called).vigilant⟩,
    fun t previous call isPrevious called => justified t previous isPrevious call called⟩

/-- In a run, each examination is prompted and each sleeper is vigilant exactly if all its
steps are timely. -/
theorem poll_sleeps_iff {tickPerSecond : Nat}
    {taken : List (Taken (State Tid Queue) (Event Tid Queue))} {last : State Tid Queue}
    (run : (system tickPerSecond).Run taken last) :
    (∀ step ∈ taken, Lawful step) ↔ EveryStep Timely taken :=
  run.everyTaken_iff_everyStep
    (fun s init => show AllSound s from
      fun t _ called => nomatch (init.2 t).symm.trans called)
    (fun _ _ _ sounds timely ran => (step_sound sounds timely ran).1)
    (fun _ _ _ sounds ran => lawful_iff_timely sounds ran)

def idle : State (Fin 2) (Fin 1) := ⟨fun _ => [], fun _ => none⟩

def untilWoken {Tid Queue : Type} (t : Tid) (q : Queue) : List (Event Tid Queue) :=
  [.poll t [⟨3, 1, 0⟩] 1000, .pollAdd t q true, .examined t (some (some 0)), .proceed t,
    .proceed t, .tick, .wakeup q 1, .proceed t]

theorem woken_poll_finds_input :
    ∃ (taken : List (Taken (State (Fin 2) (Fin 1)) (Event (Fin 2) (Fin 1))))
      (last : State (Fin 2) (Fin 1)), (system 100).Run taken last ∧
        ∀ step ∈ taken, Lawful step := by
  let events : List (Event (Fin 2) (Fin 1)) := untilWoken 0 0 ++
    [.examined 0 (some (some 1)), .proceed 0, .proceed 0, .proceed 0]
  have run : (system 100).Run _ _ :=
    .executed idle events ⟨fun _ => rfl, fun _ => rfl⟩ (by decide +kernel)
  exact ⟨_, _, run, (poll_sleeps_iff run).mpr (by decide +kernel)⟩

/-- Another thread takes the input first.  The call examines its descriptor again and again,
without sleeping. -/
theorem consumed_input_spins :
    ¬ ∀ (taken : List (Taken (State (Fin 2) (Fin 1)) (Event (Fin 2) (Fin 1))))
      (last : State (Fin 2) (Fin 1)), (system 100).Run taken last →
        ∀ step ∈ taken, Lawful step := by
  intro claim
  let events : List (Event (Fin 2) (Fin 1)) := untilWoken 0 0 ++
    [.examined 0 (some (some 0)), .proceed 0, .proceed 0]
  have run : (system 100).Run _ _ :=
    .executed idle events ⟨fun _ => rfl, fun _ => rfl⟩ (by decide +kernel)
  have prompted := (claim _ _ run _ (List.head_mem (by decide +kernel))).2 0 _ _
    (some_get (by decide +kernel)).symm (some_get (by decide +kernel)).symm
    (by decide +kernel)
  exact absurd prompted (by decide +kernel)

end State

end RtThread.Dfs.Poll
