import RtThread.Dfs.Poll
import RtThread.Library.Words

/-!
# select

A call to `select` asks `poll` for the descriptors of its three sets, and sets the bits of what
is ready.  The sets are the words that `nfds` covers.  The calls run over the system of `poll`;
an account keeps what each descriptor answers when it is examined.
-/

open Function (update)

namespace RtThread.Dfs.Select

open Poll WordSet

universe u v

abbrev FdSet := Nat → BitVec 32

def fdIsset (fd : Nat) (set : FdSet) : Bool :=
  set (fd / 32) &&& (BitVec.ofNat 32 1 <<< (fd % 32)) ≠ 0

def fdSet (fd : Nat) (set : FdSet) : FdSet :=
  update set (fd / 32) (set (fd / 32) ||| BitVec.ofNat 32 1 <<< (fd % 32))

/-- The loop of `fdszero` clears a word for each `n` below `nfds`, in steps of its bits. -/
def fdszero (set : FdSet) (nfds : Int32) : FdSet :=
  fun word => if (word : Int) * 32 < nfds.toInt then 0 else set word

/-- The sets of a call; `none` is `RT_NULL`. -/
structure Sets where
  readfds : Option FdSet
  writefds : Option FdSet
  exceptfds : Option FdSet

structure Timeval where
  tvSec : Int32
  tvUsec : Int32
  deriving DecidableEq

structure Request where
  nfds : Int32
  sets : Sets
  timeout : Option Timeval

def monitored (set : Option FdSet) (fd : Nat) : Bool := set.any (fdIsset fd)

namespace Request

def watched (request : Request) : List Nat :=
  (List.range request.nfds.toInt.toNat).filter fun fd =>
    monitored request.sets.readfds fd || monitored request.sets.writefds fd ||
      monitored request.sets.exceptfds fd

def entry (request : Request) (fd : Nat) : Pollfd where
  fd := .ofNat fd
  events := (if monitored request.sets.readfds fd then pollin.toInt16 else 0) |||
    (if monitored request.sets.writefds fd then pollout.toInt16 else 0)
  revents := 0

def pollset (request : Request) : List Pollfd := request.watched.map request.entry

def msec (request : Request) : Int32 :=
  match request.timeout with
  | some timeout => timeout.tvSec * 1000 + timeout.tvUsec / 1000
  | none => -1

end Request

/-- One of the three checks on an entry: the set and `ret` after it. -/
def report (mask : Int32) (pollfd : Pollfd) (set : Option FdSet) (ret : Nat) :
    Option FdSet × Nat :=
  match set with
  | none => (none, ret)
  | some set =>
    if pollfd.revents.toInt32 &&& mask ≠ 0 then
      (some (fdSet pollfd.fd.toInt.toNat set), ret + 1)
    else (some set, ret)

def convert : List Pollfd → Sets → Nat → Sets × Nat
  | [], sets, ret => (sets, ret)
  | pollfd :: rest, sets, ret =>
    let read := report (pollin ||| pollhup) pollfd sets.readfds ret
    let write := report pollout pollfd sets.writefds read.2
    let except := report pollerr pollfd sets.exceptfds write.2
    convert rest ⟨read.1, write.1, except.1⟩ except.2

def Sets.zero (sets : Sets) (nfds : Int32) : Sets where
  readfds := sets.readfds.map (fdszero · nfds)
  writefds := sets.writefds.map (fdszero · nfds)
  exceptfds := sets.exceptfds.map (fdszero · nfds)

/-- What a descriptor answers: what `fd_get` finds, with the mask of its `fops->poll`, if
any. -/
abbrev Files := Int32 → Option (Option Int32)

structure Selecting where
  request : Request
  files : Files

/-- A call that has returned, with the answers of the last examination and the ticks since the
call. -/
structure Returned where
  selecting : Selecting
  allocated : Bool
  elapsed : Nat
  result : Int
  sets : Sets

/-- What follows behind `poll`, which has returned `num`. -/
def Selecting.returned (selecting : Selecting) (fds : List Pollfd) (elapsed num : Nat) :
    Returned :=
  let request := selecting.request
  let zero := request.sets.zero request.nfds
  let converted := if 0 < num then convert fds zero 0 else (zero, 0)
  ⟨selecting, true, elapsed, converted.2, converted.1⟩

def Request.failed (request : Request) : Returned :=
  ⟨⟨request, fun _ => none⟩, false, 0, -1, request.sets⟩

structure State (Tid : Type u) (Queue : Type v) where
  poll : Poll.State Tid Queue
  selecting : Tid → Option Selecting
  returned : List Returned

inductive Event (Tid : Type u) (Queue : Type v) where
  | select (t : Tid) (request : Request) (allocated : Bool)
  | poll (e : Poll.Event Tid Queue)

namespace State

variable {Tid : Type u} {Queue : Type v} [DecidableEq Tid] [DecidableEq Queue]

def answered (s : State Tid Queue) (t : Tid) (file : Option (Option Int32)) :
    Tid → Option Selecting :=
  match s.poll.call t with
  | some call =>
    match call.phase with
    | .examining n _ =>
      match call.fds[n]? with
      | some pollfd =>
        update s.selecting t ((s.selecting t).map fun selecting =>
          { selecting with files := update selecting.files pollfd.fd file })
      | none => s.selecting
    | _ => s.selecting
  | none => s.selecting

/-- The call to `poll` goes on, and `select` with it where it ends. -/
def proceeded (s : State Tid Queue) (t : Tid) (poll : Poll.State Tid Queue) :
    State Tid Queue :=
  match s.selecting t, s.poll.call t, poll.call t with
  | some selecting, some call, none =>
    match call.phase with
    | .leaving num =>
      { poll
        selecting := update s.selecting t none
        returned := selecting.returned call.fds call.elapsed num :: s.returned }
    | _ => { s with poll }
  | _, _, _ => { s with poll }

def step (tickPerSecond : Nat) (s : State Tid Queue) :
    Event Tid Queue → Option (State Tid Queue)
  | .select t request allocated =>
    match s.poll.call t with
    | none =>
      if request.pollset ≠ [] ∧ allocated = false then
        some { s with returned := request.failed :: s.returned }
      else
        (s.poll.step tickPerSecond (.poll t request.pollset request.msec)).map fun poll =>
          { s with
            poll
            selecting :=
              update s.selecting t (some ⟨request, fun _ => none⟩) }
    | some _ => none
  | .poll e =>
    (s.poll.step tickPerSecond e).map fun poll =>
      match e with
      | .examined t file => { s with poll, selecting := s.answered t file }
      | .proceed t => s.proceeded t poll
      | _ => { s with poll }

def Initial (s : State Tid Queue) : Prop :=
  s.poll.Initial ∧ (∀ t, s.selecting t = none) ∧ s.returned = []

def system (tickPerSecond : Nat) : TransitionSystem (State Tid Queue) (Event Tid Queue) :=
  .ofFunction Initial (step tickPerSecond)

end State

inductive Condition where
  | read
  | write
  | except

def Sets.get (sets : Sets) : Condition → Option FdSet
  | .read => sets.readfds
  | .write => sets.writefds
  | .except => sets.exceptfds

/-- The conditions of `poll` that make a descriptor ready; a read does not block at a hang-up. -/
def Condition.mask : Condition → Int32
  | .read => pollin ||| pollhup
  | .write => pollout
  | .except => pollerr

def covered (nfds : Int32) : Nat := (nfds.toInt.toNat + 31) / 32 * 32

def bits (set : Option FdSet) (nfds : Int32) : Nat :=
  match set with
  | none => 0
  | some set => count set (covered nfds)

def Sets.total (sets : Sets) (nfds : Int32) : Nat :=
  bits sets.readfds nfds + bits sets.writefds nfds + bits sets.exceptfds nfds

namespace Selecting

def Requested (selecting : Selecting) (condition : Condition) (fd : Nat) : Prop :=
  (fd : Int) < selecting.request.nfds.toInt ∧
    monitored (selecting.request.sets.get condition) fd = true

def Shows (selecting : Selecting) (mask : Int32) (fd : Nat) : Prop :=
  ∃ file ∈ selecting.files (.ofNat fd), file.getD pollmaskDefault &&& mask ≠ 0

def Ready (selecting : Selecting) (condition : Condition) (fd : Nat) : Prop :=
  selecting.Shows condition.mask fd

def Failing (selecting : Selecting) (fd : Nat) : Prop :=
  selecting.files (.ofNat fd) = none ∨ selecting.Shows (pollerr ||| pollhup) fd

/-- A hang-up or an error of a watched descriptor is requested itself, where it has a set; and
where a watched descriptor fails, a requested condition is ready. -/
structure Expressed (selecting : Selecting) : Prop where
  hangUp : ∀ condition fd, selecting.Requested condition fd → selecting.Shows pollhup fd →
    selecting.request.sets.readfds ≠ none → selecting.Requested .read fd
  error : ∀ condition fd, selecting.Requested condition fd → selecting.Shows pollerr fd →
    selecting.request.sets.exceptfds ≠ none → selecting.Requested .except fd
  failing : ∀ condition fd, selecting.Requested condition fd → selecting.Failing fd →
    ∃ other fd, selecting.Requested other fd ∧ selecting.Ready other fd

end Selecting

namespace Returned

def Reported (returned : Returned) (condition : Condition) (fd : Nat) : Prop :=
  fd < covered returned.selecting.request.nfds ∧
    monitored (returned.sets.get condition) fd = true

def TimedOut (returned : Returned) (tickPerSecond : Nat) : Prop :=
  ∃ timeout ∈ returned.selecting.request.timeout,
    (timeout.tvSec.toInt * 1000000 + timeout.tvUsec.toInt) * tickPerSecond ≤
      (returned.elapsed : Int) * 1000000

/-- The sets and the result of a call agree with what its descriptors answered last.  Without
memory nothing is done. -/
structure Correct (returned : Returned) (tickPerSecond : Nat) : Prop where
  failed : returned.allocated = false →
    returned.result = -1 ∧ returned.sets = returned.selecting.request.sets
  total : returned.allocated = true →
    returned.result = returned.sets.total returned.selecting.request.nfds
  sound : returned.allocated = true → ∀ condition fd, returned.Reported condition fd →
    returned.selecting.Requested condition fd ∧ returned.selecting.Ready condition fd
  complete : returned.allocated = true → ∀ condition fd,
    returned.selecting.Requested condition fd → returned.selecting.Ready condition fd →
      returned.Reported condition fd
  timeout : returned.result = 0 → returned.TimedOut tickPerSecond ∧
    ∀ condition fd, returned.selecting.Requested condition fd →
      ¬ returned.selecting.Ready condition fd ∧ ¬ returned.selecting.Failing fd

end Returned

/-- The ticks that `poll` waits are no fewer than those of the timeout. -/
def Request.Covered (request : Request) (tickPerSecond : Nat) : Prop :=
  ∀ timeout ∈ request.timeout, ∀ limit ∈ rtTickFromMillisecond tickPerSecond request.msec,
    (timeout.tvSec.toInt * 1000000 + timeout.tvUsec.toInt) * tickPerSecond ≤ (limit : Int) * 1000000

open Poll WordSet

theorem and_or_eq_zero (mask a second : Int32) :
    mask &&& (a ||| second) = 0 ↔ mask &&& a = 0 ∧ mask &&& second = 0 := by
  rw [← Int32.toBitVec_inj, ← Int32.toBitVec_inj, ← Int32.toBitVec_inj]
  simp [BitVec.and_or_distrib_left]

theorem toInt16_and (mask small : Int32) (isSmall : small &&& 0x7fff = small) :
    mask.toInt16.toInt32 &&& small = mask &&& small := by
  have high : ∀ p, 15 ≤ p → small.toBitVec.getLsbD p = false := by
    intro p beyond
    have large : 0x7fff < 2 ^ p :=
      Nat.lt_of_lt_of_le (by decide : 0x7fff < 2 ^ 15) (Nat.pow_le_pow_right (by decide) beyond)
    have outside : (0x7fff : Int32).toBitVec.getLsbD p = false := by
      change (BitVec.ofNat 32 0x7fff).getLsbD p = false
      rw [BitVec.getLsbD_ofNat, Nat.testBit_lt_two_pow large, Bool.and_false]
    rw [← isSmall, Int32.toBitVec_and, BitVec.getLsbD_and, outside, Bool.and_false]
  rw [← Int32.toBitVec_inj]
  refine BitVec.eq_of_getLsbD_eq fun p inside => ?_
  rw [Int32.toBitVec_and, Int32.toBitVec_and, BitVec.getLsbD_and, BitVec.getLsbD_and]
  rcases Nat.lt_or_ge p 15 with low | beyond
  · have short : p < 16 := by omega
    rw [Int16.toBitVec_toInt32, Int32.toBitVec_toInt16, BitVec.getLsbD_signExtend,
      BitVec.getLsbD_signExtend]
    simp [inside, short]
  · rw [high p beyond, Bool.and_false, Bool.and_false]

theorem Condition.mask_small (cond : Condition) : cond.mask &&& 0x7fff = cond.mask := by
  cases cond <;> rfl

theorem fdIsset_eq (fd : Nat) (set : FdSet) : fdIsset fd set = has set fd := by
  have inside : fd % 32 < 32 := Nat.mod_lt fd (by decide)
  have bit : ∀ p < 32, (set (fd / 32) &&& (BitVec.ofNat 32 1 <<< (fd % 32))).getLsbD p =
      (has set fd && decide (p = fd % 32)) := by
    intro p below
    rw [BitVec.getLsbD_and, BitMask.getLsbD_one_shiftLeft below]
    by_cases same : p = fd % 32
    · subst same
      rfl
    · simp [same]
  unfold fdIsset
  cases isMember : has set fd with
  | true =>
    refine decide_eq_true fun zero => ?_
    have one := bit (fd % 32) inside
    rw [zero, isMember] at one
    simp at one
  | false =>
    refine decide_eq_false (not_not.mpr (BitVec.eq_of_getLsbD_eq fun p below => ?_))
    rw [bit p below, isMember]
    simp

theorem monitored_some (set : FdSet) (fd : Nat) : monitored (some set) fd = has set fd :=
  fdIsset_eq fd set

theorem has_fdszero (set : FdSet) {nfds : Int32} {fd : Nat} (inside : fd < covered nfds) :
    has (fdszero set nfds) fd = false := by
  unfold covered at inside
  have cleared : ((fd / 32 : Nat) : Int) * 32 < nfds.toInt := by omega
  unfold has fdszero
  rw [if_pos cleared]
  exact BitVec.getLsbD_zero

theorem count_fdszero (set : FdSet) (nfds : Int32) : count (fdszero set nfds) (covered nfds) = 0 :=
  count_eq_zero fun _ below => has_fdszero set below

def number (pollfd : Pollfd) : Nat := pollfd.fd.toInt.toNat

def marked (mask : Int32) (fds : List Pollfd) : List Nat :=
  (fds.filter fun pollfd => pollfd.revents.toInt32 &&& mask ≠ 0).map number

def growth (mask : Int32) (fds : List Pollfd) (set : Option FdSet) : Nat :=
  match set with
  | none => 0
  | some _ => (marked mask fds).length

theorem report_cons (mask : Int32) (pollfd : Pollfd) (fds : List Pollfd) (set : Option FdSet)
    (ret : Nat) : (report mask pollfd set ret).1.map (insertAll · (marked mask fds)) =
        set.map (insertAll · (marked mask (pollfd :: fds))) ∧
      (report mask pollfd set ret).2 + growth mask fds (report mask pollfd set ret).1 =
        ret + growth mask (pollfd :: fds) set := by
  cases set with
  | none => exact ⟨rfl, rfl⟩
  | some set =>
    unfold report
    by_cases shows : pollfd.revents.toInt32 &&& mask ≠ 0
    · have isMarked : marked mask (pollfd :: fds) = number pollfd :: marked mask fds := by
        simp [marked, shows]
      simp only [shows, isMarked, if_true, ne_eq, not_false_eq_true]
      refine ⟨rfl, ?_⟩
      simp only [growth, isMarked, List.length_cons]
      omega
    · have isMarked : marked mask (pollfd :: fds) = marked mask fds := by
        simp [marked, shows]
      simp only [if_neg shows, isMarked, growth, and_self]

theorem convert_eq (fds : List Pollfd) (sets : Sets) (ret : Nat) :
    convert fds sets ret = (⟨sets.readfds.map (insertAll · (marked (pollin ||| pollhup) fds)),
        sets.writefds.map (insertAll · (marked pollout fds)),
        sets.exceptfds.map (insertAll · (marked pollerr fds))⟩,
      ret + growth (pollin ||| pollhup) fds sets.readfds + growth pollout fds sets.writefds +
        growth pollerr fds sets.exceptfds) := by
  induction fds generalizing sets ret with
  | nil =>
    have kept : ∀ set : Option FdSet, set.map (insertAll · []) = set := fun set => by
      cases set <;> rfl
    have zero : ∀ mask set, growth mask [] set = 0 := fun mask set => by cases set <;> rfl
    simp [convert, marked, kept, zero]
  | cons pollfd fds ih =>
    have read := report_cons (pollin ||| pollhup) pollfd fds sets.readfds ret
    have write := report_cons pollout pollfd fds sets.writefds
      (report (pollin ||| pollhup) pollfd sets.readfds ret).2
    have except := report_cons pollerr pollfd fds sets.exceptfds
      (report pollout pollfd sets.writefds
        (report (pollin ||| pollhup) pollfd sets.readfds ret).2).2
    rw [convert, ih]
    simp only [read.1, write.1, except.1, Prod.mk.injEq, true_and]
    omega

def Selecting.answer (selecting : Selecting) (fd : Nat) : Pollfd :=
  { selecting.request.entry fd with
    revents := (doPollfd (selecting.request.entry fd) (selecting.files (.ofNat fd))).toInt16 }

/-- The entries of the descriptors hold their last answers, and `num` says whether there was
one. -/
structure Polled (selecting : Selecting) (fds : List Pollfd) (num : Nat) : Prop where
  fds_eq : fds = selecting.request.watched.map selecting.answer
  num_eq_zero_iff : num = 0 ↔ ∀ fd ∈ selecting.request.watched,
    doPollfd (selecting.request.entry fd) (selecting.files (.ofNat fd)) = 0

theorem Request.mem_watched (request : Request) (fd : Nat) : fd ∈ request.watched ↔
    (fd : Int) < request.nfds.toInt ∧ ∃ cond, monitored (request.sets.get cond) fd = true := by
  have inside : fd < request.nfds.toInt.toNat ↔ (fd : Int) < request.nfds.toInt := by omega
  simp only [watched, List.mem_filter, List.mem_range, Bool.or_eq_true, inside]
  refine and_congr_right fun _ => ⟨?_, ?_⟩
  · rintro ((isRead | isWrite) | isExcept)
    · exact ⟨.read, isRead⟩
    · exact ⟨.write, isWrite⟩
    · exact ⟨.except, isExcept⟩
  · rintro ⟨cond, isMonitored⟩
    cases cond with
    | read => exact .inl (.inl isMonitored)
    | write => exact .inl (.inr isMonitored)
    | except => exact .inr isMonitored

theorem Request.watched_nodup (request : Request) : request.watched.Nodup :=
  List.nodup_range.filter _

theorem Request.lt_of_watched {request : Request} {fd : Nat} (isWatched : fd ∈ request.watched) :
    fd < 2 ^ 31 ∧ fd < covered request.nfds := by
  have inside := ((request.mem_watched fd).mp isWatched).1
  have bound := request.nfds.toInt_lt
  unfold covered
  omega

theorem number_answer {selecting : Selecting} {fd : Nat}
    (isWatched : fd ∈ selecting.request.watched) : number (selecting.answer fd) = fd := by
  have small := (Request.lt_of_watched isWatched).1
  unfold number Selecting.answer Request.entry
  rw [Int32.toInt_ofNat_of_lt small, Int.toNat_natCast]

theorem marked_answers (selecting : Selecting) (mask : Int32) :
    marked mask (selecting.request.watched.map selecting.answer) =
      selecting.request.watched.filter fun fd =>
        (selecting.answer fd).revents.toInt32 &&& mask ≠ 0 := by
  unfold marked
  rw [List.filter_map, List.map_map]
  have numbers : ∀ fd ∈ selecting.request.watched.filter
      ((fun pollfd : Pollfd => decide (pollfd.revents.toInt32 &&& mask ≠ 0)) ∘ selecting.answer),
      (number ∘ selecting.answer) fd = fd := by
    intro fd isMarked
    exact number_answer (List.mem_filter.mp isMarked).1
  rw [List.map_congr_left numbers, List.map_id']
  rfl

namespace Selecting

variable {selecting : Selecting} {fds : List Pollfd} {elapsed num : Nat}

theorem returned_eq (polled : Polled selecting fds num) (elapsed : Nat) :
    (∀ cond, (selecting.returned fds elapsed num).sets.get cond =
        (selecting.request.sets.get cond).map fun set =>
          insertAll (fdszero set selecting.request.nfds) (marked cond.mask fds)) ∧
      (selecting.returned fds elapsed num).result =
        growth (pollin ||| pollhup) fds selecting.request.sets.readfds +
          growth pollout fds selecting.request.sets.writefds +
          growth pollerr fds selecting.request.sets.exceptfds := by
  have cleared : ∀ mask set, growth mask fds (Option.map (fdszero · selecting.request.nfds) set) =
      growth mask fds set := fun mask set => by cases set <;> rfl
  rcases Nat.eq_zero_or_pos num with zero | pos
  · have silent : ∀ cond : Condition, marked cond.mask fds = [] := by
      intro cond
      rw [polled.fds_eq, marked_answers, List.filter_eq_nil_iff]
      intro fd isWatched
      have quiet := polled.num_eq_zero_iff.mp zero fd isWatched
      simp [answer, quiet]
    have none : ∀ (cond : Condition) set, growth cond.mask fds set = 0 := by
      intro cond set
      cases set with
      | none => rfl
      | some set => rw [growth, silent, List.length_nil]
    constructor
    · intro cond
      rw [silent]
      subst zero
      cases cond <;> rfl
    · rw [show pollin ||| pollhup = Condition.read.mask from rfl,
        show pollout = Condition.write.mask from rfl,
        show pollerr = Condition.except.mask from rfl, none, none, none]
      subst zero
      rfl
  · have converted : (selecting.returned fds elapsed num).sets =
        (convert fds (selecting.request.sets.zero selecting.request.nfds) 0).1 ∧
        (selecting.returned fds elapsed num).result =
          (convert fds (selecting.request.sets.zero selecting.request.nfds) 0).2 := by
      simp [returned, pos]
    rw [convert_eq] at converted
    constructor
    · intro cond
      rw [converted.1]
      cases cond <;> simp [Sets.zero] <;> rfl
    · rw [converted.2]
      simp [Sets.zero, cleared]

end Selecting

end RtThread.Dfs.Select
