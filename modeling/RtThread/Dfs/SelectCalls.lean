import RtThread.Dfs.Select
import RtThread.Dfs.PollSleep

/-!
# When the sets agree with the answers

The result of a call counts the bits it leaves.
-/

open Function (update update_of_ne update_self)

namespace RtThread.Dfs.Select

open Poll WordSet

/-- The conditions that `poll` is asked for on behalf of two sets. -/
def wantedFor (read write : Bool) : Int32 :=
  (((if read then pollin.toInt16 else 0) ||| (if write then pollout.toInt16 else 0)).toInt32 |||
    pollerr) ||| pollhup

theorem wanted_entry (request : Request) (fd : Nat) : (request.entry fd).wanted =
    wantedFor (monitored request.sets.readfds fd) (monitored request.sets.writefds fd) := rfl

theorem wantedFor_and_mask (read write : Bool) (cond : Condition) :
    wantedFor read write &&& cond.mask =
      match cond with
      | .read => if read then pollin ||| pollhup else pollhup
      | .write => if write then pollout else 0
      | .except => pollerr := by
  revert read write cond
  rintro (_ | _) (_ | _) (_ | _ | _) <;> decide

theorem wantedFor_eq (read write : Bool) : wantedFor read write =
    ((if read then pollin ||| pollhup else 0) ||| (if write then pollout else 0)) |||
      (pollerr ||| pollhup) := by
  revert read write
  decide

variable {fd : Nat}

theorem doPollfd_entry (request : Request) (small : fd < 2 ^ 31) (file : Option (Option Int32)) :
    doPollfd (request.entry fd) file =
      match file with
      | none => pollnval
      | some mask => mask.getD pollmaskDefault &&& (request.entry fd).wanted := by
  have nonneg : 0 ≤ (request.entry fd).fd := by
    unfold Request.entry
    rw [Int32.le_iff_toInt_le, Int32.toInt_ofNat_of_lt small]
    exact Int.natCast_nonneg fd
  cases file with
  | none | some mask => simp only [doPollfd, if_pos nonneg]

namespace Selecting

variable {selecting : Selecting} {fds : List Pollfd} {num : Nat}

def Signals (selecting : Selecting) (condition : Condition) (fd : Nat) : Prop :=
  selecting.Requested condition fd ∧ selecting.Ready condition fd ∨
    condition = .read ∧ selecting.Shows pollhup fd ∨
    condition = .except ∧ selecting.Shows pollerr fd

theorem revents_and_mask_iff (isWatched : fd ∈ selecting.request.watched) (cond : Condition) :
    (selecting.answer fd).revents.toInt32 &&& cond.mask ≠ 0 ↔ selecting.Signals cond fd := by
  obtain ⟨inside, -⟩ := (selecting.request.mem_watched fd).mp isWatched
  have isRequested : selecting.Requested cond fd ↔
      monitored (selecting.request.sets.get cond) fd = true := and_iff_right inside
  unfold answer Signals
  rw [toInt16_and _ _ cond.mask_small,
    doPollfd_entry _ (Request.lt_of_watched isWatched).1, isRequested]
  unfold Ready Shows
  cases isFile : selecting.files (.ofNat fd) with
  | none =>
    have apart : pollnval &&& cond.mask = 0 := by cases cond <;> rfl
    simp [apart]
  | some file =>
    simp only [Int32.and_assoc, wanted_entry, wantedFor_and_mask]
    cases cond with
    | read =>
      have both := and_or_eq_zero (file.getD pollmaskDefault) pollin pollhup
      cases isRead : monitored selecting.request.sets.readfds fd <;>
        simp [Sets.get, isRead]
      tauto
    | write =>
      cases isWrite : monitored selecting.request.sets.writefds fd <;>
        simp [Condition.mask, Sets.get, isWrite]
    | except => simp [Condition.mask]

theorem doPollfd_eq_zero_iff (isWatched : fd ∈ selecting.request.watched) :
    doPollfd (selecting.request.entry fd) (selecting.files (.ofNat fd)) = 0 ↔
      (∀ cond, selecting.Requested cond fd → ¬ selecting.Ready cond fd) ∧
        ¬ selecting.Failing fd := by
  obtain ⟨inside, -⟩ := (selecting.request.mem_watched fd).mp isWatched
  have isRequested : ∀ cond, selecting.Requested cond fd ↔
      monitored (selecting.request.sets.get cond) fd = true :=
    fun cond => and_iff_right inside
  rw [doPollfd_entry _ (Request.lt_of_watched isWatched).1]
  unfold Ready Failing Shows
  cases isFile : selecting.files (.ofNat fd) with
  | none => simp [pollnval]
  | some file =>
    have failing := and_or_eq_zero (file.getD pollmaskDefault) pollerr pollhup
    have reading := and_or_eq_zero (file.getD pollmaskDefault) pollin pollhup
    have conditions : ∀ property : Condition → Prop, (∀ cond, property cond) ↔
        property .read ∧ property .write ∧ property .except := by
      refine fun property => ⟨fun all => ⟨all _, all _, all _⟩, fun all cond => ?_⟩
      cases cond with
      | read => exact all.1
      | write => exact all.2.1
      | except => exact all.2.2
    simp only [wanted_entry, wantedFor_eq, and_or_eq_zero, conditions, isRequested, Sets.get]
    cases monitored selecting.request.sets.readfds fd <;>
      cases monitored selecting.request.sets.writefds fd <;>
      simp <;> tauto

theorem reported_iff (polled : Polled selecting fds num) (elapsed : Nat) (cond : Condition)
    (fd : Nat) : (selecting.returned fds elapsed num).Reported cond fd ↔
      selecting.request.sets.get cond ≠ none ∧ fd ∈ selecting.request.watched ∧
        selecting.Signals cond fd := by
  have sets := (returned_eq polled elapsed).1 cond
  have nfds : (selecting.returned fds elapsed num).selecting.request.nfds =
    selecting.request.nfds := rfl
  unfold Returned.Reported
  rw [sets, nfds]
  cases isSet : selecting.request.sets.get cond with
  | none => simp [monitored]
  | some set =>
    simp only [Option.map_some, monitored_some, has_insertAll (by decide : 0 < 32), ne_eq,
      reduceCtorEq, not_false_eq_true, true_and, Bool.or_eq_true, decide_eq_true_eq]
    rw [polled.fds_eq, marked_answers, List.mem_filter, decide_eq_true_eq]
    constructor
    · rintro ⟨inside, old | ⟨isWatched, shows⟩⟩
      · rw [has_fdszero set inside] at old
        exact absurd old Bool.false_ne_true
      · exact ⟨isWatched, (revents_and_mask_iff isWatched cond).mp shows⟩
    · rintro ⟨isWatched, signals⟩
      exact ⟨(Request.lt_of_watched isWatched).2,
        .inr ⟨isWatched, (revents_and_mask_iff isWatched cond).mpr signals⟩⟩

theorem result_eq_total (polled : Polled selecting fds num) (elapsed : Nat) :
    (selecting.returned fds elapsed num).result =
      (selecting.returned fds elapsed num).sets.total selecting.request.nfds := by
  obtain ⟨sets, result⟩ := returned_eq polled elapsed
  have counted : ∀ cond : Condition,
      bits ((selecting.returned fds elapsed num).sets.get cond) selecting.request.nfds =
        growth cond.mask fds (selecting.request.sets.get cond) := by
    intro cond
    rw [sets cond]
    cases selecting.request.sets.get cond with
    | none => rfl
    | some set =>
      have markedWatched : ∀ fd ∈ marked cond.mask fds, fd ∈ selecting.request.watched := by
        intro fd isMarked
        rw [polled.fds_eq, marked_answers] at isMarked
        exact (List.mem_filter.mp isMarked).1
      have nodup : (marked cond.mask fds).Nodup := by
        rw [polled.fds_eq, marked_answers]
        exact selecting.request.watched_nodup.filter _
      have inside : ∀ fd ∈ marked cond.mask fds, fd < covered selecting.request.nfds :=
        fun fd isMarked => (Request.lt_of_watched (markedWatched fd isMarked)).2
      simp only [Option.map_some, bits, growth]
      have fresh : ∀ fd ∈ marked cond.mask fds,
          has (fdszero set selecting.request.nfds) fd = false :=
        fun fd isMarked => has_fdszero set (inside fd isMarked)
      rw [count_insertAll (by decide) nodup fresh inside, count_fdszero, Nat.zero_add]
  rw [result, Sets.total]
  exact congrArg Nat.cast (congrArg₂ (· + ·)
    (congrArg₂ (· + ·) (counted .read).symm (counted .write).symm) (counted .except).symm)

theorem bits_eq_zero_iff (set : Option FdSet) (nfds : Int32) :
    bits set nfds = 0 ↔ ∀ fd < covered nfds, monitored set fd = false := by
  cases set with
  | none => simp [bits, monitored]
  | some set =>
    simp only [monitored_some]
    exact ⟨fun zero _ => has_of_count_eq_zero zero, fun none => count_eq_zero none⟩

theorem result_eq_zero_iff (polled : Polled selecting fds num) (elapsed : Nat) :
    (selecting.returned fds elapsed num).result = 0 ↔
      ∀ cond fd, ¬ (selecting.returned fds elapsed num).Reported cond fd := by
  have none : ∀ cond, bits ((selecting.returned fds elapsed num).sets.get cond)
      selecting.request.nfds = 0 ↔
        ∀ fd, ¬ (selecting.returned fds elapsed num).Reported cond fd := by
    intro cond
    rw [bits_eq_zero_iff]
    refine forall_congr' fun fd => ?_
    rw [← Bool.not_eq_true]
    exact not_and.symm
  have read := none .read
  have write := none .write
  have except := none .except
  simp only [Sets.get] at read write except
  rw [result_eq_total polled, Sets.total]
  constructor
  · intro zero cond
    cases cond with
    | read => exact read.mp (by omega)
    | write => exact write.mp (by omega)
    | except => exact except.mp (by omega)
  · intro silent
    have readZero := read.mpr (silent .read)
    have writeZero := write.mpr (silent .write)
    have exceptZero := except.mpr (silent .except)
    omega

theorem Requested.watched {cond : Condition} (requested : selecting.Requested cond fd) :
    fd ∈ selecting.request.watched ∧ selecting.request.sets.get cond ≠ none := by
  refine ⟨(selecting.request.mem_watched fd).mpr ⟨requested.1, cond, requested.2⟩, ?_⟩
  intro isNull
  have isSet := requested.2
  rw [isNull] at isSet
  exact Bool.false_ne_true isSet

theorem Shows.ready_read (hungUp : selecting.Shows pollhup fd) : selecting.Ready .read fd := by
  obtain ⟨file, isFile, shows⟩ := hungUp
  exact ⟨file, isFile, fun zero => shows ((and_or_eq_zero _ _ _).mp zero).2⟩

section

variable (polled : Polled selecting fds num)

include polled

theorem reported_of_ready (elapsed : Nat) {cond : Condition}
    (requested : selecting.Requested cond fd) (ready : selecting.Ready cond fd) :
    (selecting.returned fds elapsed num).Reported cond fd :=
  (reported_iff polled elapsed cond fd).mpr
    ⟨requested.watched.2, requested.watched.1, .inl ⟨requested, ready⟩⟩

theorem expressed_of_correct {elapsed tickPerSecond : Nat}
    (correct : (selecting.returned fds elapsed num).Correct tickPerSecond) :
    selecting.Expressed where
  hangUp condition fd requested hungUp isSet :=
    (correct.sound rfl .read fd ((reported_iff polled elapsed .read fd).mpr
      ⟨isSet, requested.watched.1, .inr (.inl ⟨rfl, hungUp⟩)⟩)).1
  error condition fd requested inError isSet :=
    (correct.sound rfl .except fd ((reported_iff polled elapsed .except fd).mpr
      ⟨isSet, requested.watched.1, .inr (.inr ⟨rfl, inError⟩)⟩)).1
  failing condition fd requested failing := by
    by_contra nothing
    have silent : ∀ other fd, ¬ (selecting.returned fds elapsed num).Reported other fd :=
      fun other fd reported => nothing ⟨other, fd, correct.sound rfl other fd reported⟩
    have zero := (result_eq_zero_iff polled elapsed).mpr silent
    exact ((correct.timeout zero).2 condition fd requested).2 failing

theorem correct_of_expressed {elapsed tickPerSecond : Nat}
    (due : num = 0 → (selecting.returned fds elapsed num).TimedOut tickPerSecond)
    (expressed : selecting.Expressed) :
    (selecting.returned fds elapsed num).Correct tickPerSecond where
  failed isFailed := absurd isFailed.symm Bool.false_ne_true
  total _ := result_eq_total polled elapsed
  sound _ cond fd reported := by
    obtain ⟨isSet, isWatched, signals⟩ := (reported_iff polled elapsed cond fd).mp reported
    obtain ⟨inside, other, isMonitored⟩ := (selecting.request.mem_watched fd).mp isWatched
    have requested : selecting.Requested other fd := ⟨inside, isMonitored⟩
    rcases signals with ready | ⟨rfl, hungUp⟩ | ⟨rfl, inError⟩
    · exact ready
    · exact ⟨expressed.hangUp other fd requested hungUp isSet, hungUp.ready_read⟩
    · exact ⟨expressed.error other fd requested inError isSet, inError⟩
  complete _ cond fd requested ready := reported_of_ready polled elapsed requested ready
  timeout zero := by
    have silent := (result_eq_zero_iff polled elapsed).mp zero
    have quiet : ∀ cond fd, selecting.Requested cond fd →
        ¬ selecting.Ready cond fd ∧ ¬ selecting.Failing fd := by
      refine fun cond fd requested => ⟨fun ready => ?_, fun failing => ?_⟩
      · exact silent cond fd (reported_of_ready polled elapsed requested ready)
      · obtain ⟨other, found, requested, ready⟩ := expressed.failing cond fd requested failing
        exact silent other found (reported_of_ready polled elapsed requested ready)
    refine ⟨due (polled.num_eq_zero_iff.mpr fun fd isWatched => ?_), quiet⟩
    obtain ⟨inside, cond, isMonitored⟩ := (selecting.request.mem_watched fd).mp isWatched
    exact (doPollfd_eq_zero_iff isWatched).mpr
      ⟨fun other requested => (quiet other fd requested).1,
        (quiet cond fd ⟨inside, isMonitored⟩).2⟩

end

end Selecting

open Poll

universe u v

variable {Tid : Type u} {Queue : Type v}

def asked (pollfd : Pollfd) : Pollfd := { pollfd with revents := 0 }

/-- The entries hold the answers, of which `num` are not 0. -/
def Examined (files : Files) (fds : List Pollfd) (num : Nat) : Prop :=
  (∀ pollfd ∈ fds, pollfd.revents = (doPollfd pollfd (files pollfd.fd)).toInt16) ∧
    (num = 0 ↔ ∀ pollfd ∈ fds, doPollfd pollfd (files pollfd.fd) = 0)

/-- The call to `poll` that a call to `select` makes. -/
structure Tracks (tickPerSecond : Nat) (selecting : Selecting) (call : Poll.Call Tid Queue) :
    Prop where
  fds : call.fds.map asked = selecting.request.pollset
  timeout : call.timeout = rtTickFromMillisecond tickPerSecond selecting.request.msec
  istimeout : call.istimeout = true → call.Due
  asleep : ∀ left, call.phase = .asleep (some left) →
    ∃ limit ∈ call.timeout, limit ≤ call.elapsed + left
  woken : call.phase = .woken → call.triggered = true ∨ call.Due
  examining : ∀ n num, call.phase = .examining n num →
    Examined selecting.files (call.fds.take n) num
  leaving : ∀ num, call.phase = .leaving num →
    Examined selecting.files call.fds num ∧ (num = 0 → call.Due)

theorem examined_nil (files : Files) : Examined files [] 0 := by simp [Examined]

variable {num : Nat}

theorem Examined.answered {files : Files} {fds : List Pollfd} (examined : Examined files fds num)
    {pollfd : Pollfd} (apart : ∀ other ∈ fds, other.fd ≠ pollfd.fd) (file : Option (Option Int32)) :
    Examined (update files pollfd.fd file)
      (fds ++ [{ pollfd with revents := (doPollfd pollfd file).toInt16 }])
      (if doPollfd pollfd file = 0 then num else num + 1) := by
  obtain ⟨revents, isZero⟩ := examined
  have last : ∀ s' : Int16, doPollfd { pollfd with revents := s' }
      (update files pollfd.fd file pollfd.fd) = doPollfd pollfd file := by
    intro s'
    rw [update_self]
    rfl
  have others : ∀ other ∈ fds, update files pollfd.fd file other.fd = files other.fd :=
    fun other isOther => update_of_ne (apart other isOther) _ _
  constructor
  · intro other isOther
    rcases List.mem_append.mp isOther with earlier | isLast
    · rw [others other earlier]
      exact revents other earlier
    · obtain rfl := List.mem_singleton.mp isLast
      rw [last]
  · have earlier : (∀ other ∈ fds,
        doPollfd other (update files pollfd.fd file other.fd) = 0) ↔ num = 0 := by
      rw [isZero]
      exact forall₂_congr fun other isOther => by rw [others other isOther]
    simp only [List.mem_append, List.mem_singleton, or_imp, forall_and, forall_eq, last, earlier]
    split_ifs with silent <;> simp [silent]

theorem pollset_nodup (request : Request) : (request.pollset.map Pollfd.fd).Nodup := by
  unfold Request.pollset
  rw [List.map_map]
  refine request.watched_nodup.map_on fun a isFirst second isSecond same => ?_
  have small := (Request.lt_of_watched isFirst).1
  have otherSmall := (Request.lt_of_watched isSecond).1
  have values := congrArg Int32.toInt same
  change (Int32.ofNat a).toInt = (Int32.ofNat second).toInt at values
  rw [Int32.toInt_ofNat_of_lt small, Int32.toInt_ofNat_of_lt otherSmall] at values
  exact_mod_cast values

namespace Tracks

variable {tickPerSecond : Nat} {selecting : Selecting} {call : Poll.Call Tid Queue}

theorem init (tickPerSecond : Nat) (request : Request) (files : Files) :
    Tracks tickPerSecond ⟨request, files⟩
      (Poll.Call.init tickPerSecond request.pollset request.msec : Poll.Call Tid Queue) where
  fds := by
    simp only [Poll.Call.init, Request.pollset, List.map_map]
    rfl
  timeout := rfl
  istimeout isTimeout := by
    have now : request.msec = 0 := by simpa [Poll.Call.init] using isTimeout
    refine ⟨0, ?_, Nat.zero_le _⟩
    simp [Poll.Call.init, now, rtTickFromMillisecond]
  asleep _ isAsleep := by simp [Poll.Call.init] at isAsleep
  woken isWoken := by simp [Poll.Call.init] at isWoken
  examining n num isExamining := by
    obtain ⟨rfl, rfl⟩ : 0 = n ∧ 0 = num := by simpa [Poll.Call.init] using isExamining
    exact examined_nil files
  leaving _ isLeaving := by simp [Poll.Call.init] at isLeaving

section

variable (tracks : Tracks tickPerSecond selecting call)

include tracks

theorem fds_nodup : (call.fds.map Pollfd.fd).Nodup := by
  have same : call.fds.map Pollfd.fd = (call.fds.map asked).map Pollfd.fd := by
    rw [List.map_map]
    rfl
  rw [same, tracks.fds]
  exact pollset_nodup _

theorem answered {n : Nat} (isExamining : call.phase = .examining n num) {pollfd : Pollfd}
    (isNext : call.fds[n]? = some pollfd) (file : Option (Option Int32)) : Tracks tickPerSecond
      { selecting with files := update selecting.files pollfd.fd file }
      (call.answered n num pollfd (doPollfd pollfd file)) where
  fds := by
    obtain ⟨inside, rfl⟩ := List.getElem?_eq_some_iff.mp isNext
    rw [← tracks.fds]
    refine List.ext_getElem (by simp [Poll.Call.answered]) fun i below _ => ?_
    simp only [Poll.Call.answered, List.getElem_map, List.getElem_set]
    split_ifs with same
    · subst same
      rfl
    · rfl
  timeout := tracks.timeout
  istimeout := tracks.istimeout
  asleep _ isAsleep := by simp [Poll.Call.answered] at isAsleep
  woken isWoken := by simp [Poll.Call.answered] at isWoken
  examining m count isPhase := by
    obtain ⟨rfl, rfl⟩ : n + 1 = m ∧
        (if doPollfd pollfd file = 0 then num else num + 1) = count := by
      simpa [Poll.Call.answered] using isPhase
    obtain ⟨inside, -⟩ := List.getElem?_eq_some_iff.mp isNext
    have taken : (call.answered n num pollfd (doPollfd pollfd file)).fds.take (n + 1) =
        call.fds.take n ++ [{ pollfd with revents := (doPollfd pollfd file).toInt16 }] := by
      simp only [Poll.Call.answered]
      rw [List.take_add_one, List.take_set_of_le le_rfl, List.getElem?_set_self inside]
      rfl
    have apart : ∀ other ∈ call.fds.take n, other.fd ≠ pollfd.fd := by
      have nodup := tracks.fds_nodup.sublist ((List.take_sublist (n + 1) call.fds).map Pollfd.fd)
      rw [List.take_add_one, isNext, List.map_append] at nodup
      intro other isOther
      exact (List.nodup_append.mp nodup).2.2 _ (List.mem_map_of_mem isOther) _ (by simp)
    rw [taken]
    exact (tracks.examining n num isExamining).answered apart file
  leaving _ isLeaving := by simp [Poll.Call.answered] at isLeaving

theorem concluded (isExamining : call.phase = .examining call.fds.length num) :
    Tracks tickPerSecond selecting (call.concluded num) := by
  have examined := tracks.examining _ _ isExamining
  rw [List.take_length] at examined
  have phase : (call.concluded num).phase = .leaving num ∧ (num = 0 → call.Due) ∨
      (call.concluded num).phase = .waiting := by
    unfold Poll.Call.concluded
    split_ifs with ends
    · refine .inl ⟨rfl, fun zero => tracks.istimeout ?_⟩
      simpa [zero] using ends
    · exact .inr rfl
  refine ⟨tracks.fds, tracks.timeout, tracks.istimeout, ?_, ?_, ?_, ?_⟩ <;>
    rcases phase with ⟨leaving, due⟩ | waiting
  · simp [leaving]
  · simp [waiting]
  · simp [leaving]
  · simp [waiting]
  · simp [leaving]
  · simp [waiting]
  · intro n isLeaving
    obtain rfl : num = n := by simpa [leaving] using isLeaving
    exact ⟨examined, due⟩
  · simp [waiting]

theorem reexamine (prompted : call.triggered = true ∨ call.Due) :
    Tracks tickPerSecond selecting call.reexamine where
  fds := tracks.fds
  timeout := tracks.timeout
  istimeout isTimeout := by
    rcases prompted with triggered | due
    · exact tracks.istimeout (by simpa [Poll.Call.reexamine, triggered] using isTimeout)
    · exact due
  asleep _ isAsleep := by simp [Poll.Call.reexamine] at isAsleep
  woken isWoken := by simp [Poll.Call.reexamine] at isWoken
  examining n num isExamining := by
    obtain ⟨rfl, rfl⟩ : 0 = n ∧ 0 = num := by simpa [Poll.Call.reexamine] using isExamining
    exact examined_nil _
  leaving _ isLeaving := by simp [Poll.Call.reexamine] at isLeaving

theorem waits : Tracks tickPerSecond selecting call.waits := by
  unfold Poll.Call.waits
  split_ifs with sleeps
  · refine ⟨tracks.fds, tracks.timeout, tracks.istimeout, fun left isAsleep => ?_, by simp, by simp,
      by simp⟩
    have isLimit : call.timeout = some left := by simpa using isAsleep
    exact ⟨left, isLimit, Nat.le_add_left ..⟩
  · refine tracks.reexamine ?_
    rcases Bool.eq_false_or_eq_true call.triggered with triggered | untriggered
    · exact .inl triggered
    · have now : call.timeout = some 0 := by
        by_contra later
        exact sleeps ⟨later, untriggered⟩
      exact .inr ⟨0, now, Nat.zero_le _⟩

theorem wake : Tracks tickPerSecond selecting call.wake := by
  have phase : call.wake.phase = .woken ∨ call.wake.phase = call.phase := by
    unfold Poll.Call.wake
    split
    · exact .inl rfl
    · exact .inr rfl
  refine ⟨tracks.fds, tracks.timeout, tracks.istimeout, fun left isAsleep => ?_,
    fun _ => .inl rfl, fun n num isExamining => ?_, fun num isLeaving => ?_⟩ <;>
    rcases phase with woken | same
  · simp [woken] at isAsleep
  · exact tracks.asleep left (same ▸ isAsleep)
  · simp [woken] at isExamining
  · exact tracks.examining n num (same ▸ isExamining)
  · simp [woken] at isLeaving
  · exact tracks.leaving num (same ▸ isLeaving)

end

theorem due_tick (due : call.Due) : call.tick.Due := by
  obtain ⟨limit, isLimit, passed⟩ := due
  exact ⟨limit, isLimit, Nat.le_succ_of_le passed⟩

theorem tick_phase (call : Poll.Call Tid Queue) :
    (call.tick.phase = call.phase ∧ ∀ left, call.phase ≠ .asleep (some left)) ∨
      ∃ left, call.phase = .asleep (some left) ∧
        (call.tick.phase = .asleep (some (left - 1)) ∧ 1 < left ∨
          call.tick.phase = .woken ∧ left ≤ 1) := by
  unfold Poll.Call.tick
  split
  · rename_i left isAsleep
    refine .inr ⟨left, isAsleep, ?_⟩
    split_ifs with more
    · exact .inl ⟨rfl, more⟩
    · exact .inr ⟨rfl, Nat.le_of_not_lt more⟩
  · rename_i other
    exact .inl ⟨rfl, fun left isAsleep => other left isAsleep⟩

section

variable (tracks : Tracks tickPerSecond selecting call)

include tracks

theorem tick : Tracks tickPerSecond selecting call.tick := by
  have istimeout : call.tick.istimeout = true → call.tick.Due :=
    fun isTimeout => due_tick (tracks.istimeout isTimeout)
  rcases tick_phase call with ⟨same, awake⟩ | ⟨left, isAsleep, next⟩
  · refine ⟨tracks.fds, tracks.timeout, istimeout, fun left isAsleep => ?_, fun isWoken => ?_,
      fun n num isExamining => tracks.examining n num (same ▸ isExamining),
      fun num isLeaving => ?_⟩
    · exact absurd (same ▸ isAsleep) (awake left)
    · exact (tracks.woken (same ▸ isWoken)).imp id due_tick
    · obtain ⟨examined, due⟩ := tracks.leaving num (same ▸ isLeaving)
      exact ⟨examined, fun zero => due_tick (due zero)⟩
  · obtain ⟨limit, isLimit, later⟩ := tracks.asleep left isAsleep
    refine ⟨tracks.fds, tracks.timeout, istimeout, fun rest isRest => ?_, fun isWoken => ?_,
      fun n num isExamining => ?_, fun num isLeaving => ?_⟩ <;>
      rcases next with ⟨stays, more⟩ | ⟨wakes, few⟩
    · obtain rfl : left - 1 = rest := by simpa [stays] using isRest
      refine ⟨limit, isLimit, ?_⟩
      change limit ≤ call.elapsed + 1 + (left - 1)
      omega
    · simp [wakes] at isRest
    · simp [stays] at isWoken
    · refine .inr ⟨limit, isLimit, ?_⟩
      change limit ≤ call.elapsed + 1
      omega
    · simp [stays] at isExamining
    · simp [wakes] at isExamining
    · simp [stays] at isLeaving
    · simp [wakes] at isLeaving

theorem congr (nodes : Nat) (offers : List (Offer Tid Queue)) :
    Tracks tickPerSecond selecting { call with nodes, offers } :=
  ⟨tracks.fds, tracks.timeout, tracks.istimeout, tracks.asleep, tracks.woken, tracks.examining,
    tracks.leaving⟩

theorem polled (isLeaving : call.phase = .leaving num) : Polled selecting call.fds num := by
  obtain ⟨⟨revents, isZero⟩, -⟩ := tracks.leaving num isLeaving
  constructor
  case fds_eq =>
    have own : call.fds.map (fun pollfd => { asked pollfd with
        revents := (doPollfd (asked pollfd) (selecting.files (asked pollfd).fd)).toInt16 }) =
          call.fds := by
      refine (List.map_congr_left fun pollfd isEntry => ?_).trans (List.map_id _)
      have answer := revents pollfd isEntry
      cases pollfd
      simp only [asked, id_eq, Pollfd.mk.injEq, true_and]
      exact answer.symm
    have split := List.map_map (f := asked) (l := call.fds)
      (g := fun pollfd => { pollfd with
        revents := (doPollfd pollfd (selecting.files pollfd.fd)).toInt16 })
    rw [← own]
    refine split.symm.trans ?_
    rw [tracks.fds, Request.pollset, List.map_map]
    rfl
  case num_eq_zero_iff =>
    have asks : (∀ pollfd ∈ call.fds, doPollfd pollfd (selecting.files pollfd.fd) = 0) ↔
        ∀ pollfd ∈ call.fds.map asked, doPollfd pollfd (selecting.files pollfd.fd) = 0 := by
      rw [List.forall_mem_map]
      rfl
    rw [isZero, asks, tracks.fds, Request.pollset, List.forall_mem_map]
    rfl

end

end Tracks

end RtThread.Dfs.Select
