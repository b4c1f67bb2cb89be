import Mathlib.Data.List.Sort
import RtThread.Ports.OnenetObjects

/-!
# The answer to a discovery

`onenet_discover_rsp` against an arbitrary table, from the work array it has allocated to the
reports it makes.
-/

namespace RtThread.OnenetTable

/-- The calls of `qs_cis_discover_rsp`, as slots and `more` flags, and whether `str_res` is
freed. -/
structure Discovery where
  reports : List (Nat × Bool)
  freed : Bool

/-- The second loop of `onenet_discover_rsp`, where `qs_cis_discover_rsp` returns `RT_EOK` for the
slots of `accepted`. -/
def reportLoop (accepted : Nat → Bool) : List Nat → Discovery
  | [] => ⟨[], true⟩
  | i :: rest =>
    if accepted i then
      ⟨(i, !rest.isEmpty) :: (reportLoop accepted rest).reports, (reportLoop accepted rest).freed⟩
    else ⟨[(i, !rest.isEmpty)], false⟩

/-- `onenet_discover_rsp`, once it has its memory; `none` if it writes behind it. -/
def discoverRsp (onenet : Onenet) (objid : Int) (accepted : Nat → Bool) : Option Discovery :=
  (onenetDiscoverRsp onenet objid).map (reportLoop accepted)

variable (onenet : Onenet) (objid : Int) (accepted : Nat → Bool)

def Registered (i : Nat) : Prop :=
  (onenet.slot i).userStatus = true ∧ (onenet.slot i).objid = objid

def moreFlags (slots : List Nat) : List Bool :=
  List.replicate (slots.length - 1) true ++ (slots.head?.map fun _ => false).toList

/-- Each distinct resource id of the object is reported once, in the order of the table. -/
structure Reported (reports : List (Nat × Bool)) : Prop where
  sorted : (reports.map (·.1)).Pairwise (· < ·)
  registered : ∀ i ∈ reports.map (·.1), Registered onenet objid i
  once : ((reports.map (·.1)).map fun i => (onenet.slot i).resid).Nodup
  every : ∀ i, Registered onenet objid i →
    ∃ j ∈ reports.map (·.1), (onenet.slot j).resid = (onenet.slot i).resid
  more : reports.map (·.2) = moreFlags (reports.map (·.1))

/-- The answer stays in its memory, gives it back and reports what it should, unless a report is
refused. -/
def Discovers : Prop :=
  ∃ answer, discoverRsp onenet objid accepted = some answer ∧ answer.freed = true ∧
    ((∀ report ∈ answer.reports, accepted report.1 = true) →
      Reported onenet objid answer.reports)

/-- The first slot that holds this resource, of those that are looked at. -/
def IsFirst (i : Nat) : Prop :=
  (i : Int) < onenet.devLen ∧ Registered onenet objid i ∧
    ∀ j < i, Registered onenet objid j → (onenet.slot j).resid ≠ (onenet.slot i).resid

instance (i : Nat) : Decidable (Registered onenet objid i) := instDecidableAnd

instance (i : Nat) : Decidable (IsFirst onenet objid i) := instDecidableAnd

/-- At most two resources, whose first slots are accepted; and of the slots that are looked at for
the object, those are no first ones that have the number of an earlier first one as resource. -/
structure Plain : Prop where
  few : ((List.range onenet.devLen.toNat).filter (IsFirst onenet objid ·)).length ≤ strResRoom
  unlike : ∀ i < onenet.devLen.toNat, (onenet.slot i).objid = objid →
    (IsFirst onenet objid i ↔ ∀ j < i, IsFirst onenet objid j → (j : Int) ≠ (onenet.slot i).resid)
  every : ∀ i, Registered onenet objid i →
    ∃ j, IsFirst onenet objid j ∧ (onenet.slot j).resid = (onenet.slot i).resid
  accepted : ∀ i, IsFirst onenet objid i → accepted i = true

/-- The slots that the first loop stores before it gets to slot `n`. -/
def kept : Nat → List Nat
  | 0 => []
  | n + 1 =>
    if (onenet.slot n).objid = objid ∧ ∀ i ∈ kept n, (i : Int) ≠ (onenet.slot n).resid then
      kept n ++ [n]
    else kept n

variable {onenet objid accepted} {n i : Nat}

theorem kept_of_stored (isStored : (onenet.slot n).objid = objid ∧
    ∀ i ∈ kept onenet objid n, (i : Int) ≠ (onenet.slot n).resid) :
    kept onenet objid (n + 1) = kept onenet objid n ++ [n] := if_pos isStored

theorem kept_of_passed (isPassed : ¬ ((onenet.slot n).objid = objid ∧
    ∀ i ∈ kept onenet objid n, (i : Int) ≠ (onenet.slot n).resid)) :
    kept onenet objid (n + 1) = kept onenet objid n := if_neg isPassed

theorem mem_kept : i ∈ kept onenet objid n ↔ i < n ∧ (onenet.slot i).objid = objid ∧
    ∀ j ∈ kept onenet objid i, (j : Int) ≠ (onenet.slot i).resid := by
  induction n with
  | zero => simp [kept]
  | succ n ih =>
    rw [Nat.lt_succ_iff_lt_or_eq, or_and_right, ← ih, kept]
    split
    · next isStored =>
      rw [List.mem_append, List.mem_singleton]
      exact or_congr_right ⟨fun same => ⟨same, same ▸ isStored⟩, And.left⟩
    · next isPassed =>
      refine (or_iff_left ?_).symm
      rintro ⟨rfl, isStored⟩
      exact isPassed isStored

theorem kept_length_le (onenet : Onenet) (objid : Int) (n k : Nat) :
    (kept onenet objid n).length ≤ (kept onenet objid (n + k)).length := by
  induction k with
  | zero => exact Nat.le_refl _
  | succ k ih =>
    rw [← Nat.add_assoc, kept]
    split
    · rw [List.length_append]
      exact Nat.le_add_right_of_le ih
    · exact ih

theorem kept_sorted (n : Nat) : (kept onenet objid n).Pairwise (· < ·) := by
  induction n with
  | zero => exact .nil
  | succ n ih =>
    rw [kept]
    split
    · refine List.pairwise_append.mpr ⟨ih, List.pairwise_singleton .., fun i mem j isLast => ?_⟩
      rw [List.mem_singleton.mp isLast]
      exact (mem_kept.mp mem).1
    · exact ih

theorem discoverFrom_kept {status : Bool} {m : Nat} (k : Nat)
    (fresh : kept onenet objid m = [] → status = true)
    (room : (kept onenet objid m).length ≤ strResRoom) :
    discoverFrom onenet objid status (kept onenet objid m) (List.range' m k) =
      if (kept onenet objid (m + k)).length ≤ strResRoom then some (kept onenet objid (m + k))
      else none := by
  induction k generalizing m status with
  | zero => rw [List.range'_zero, discoverFrom, Nat.add_zero, if_pos room]
  | succ k ih =>
    have isNew : unlike (onenet.slot m).resid status ((kept onenet objid m).map Int.ofNat) = true ↔
        ∀ i ∈ kept onenet objid m, (i : Int) ≠ (onenet.slot m).resid := by
      rw [unlike_eq (fun empty => fresh (List.map_eq_nil_iff.mp empty))]
      simp
    rw [List.range'_succ, discoverFrom, Nat.add_comm k, ← Nat.add_assoc]
    by_cases isObject : objid = (onenet.slot m).objid
    · rw [if_pos isObject]
      by_cases stores : ∀ i ∈ kept onenet objid m, (i : Int) ≠ (onenet.slot m).resid
      · have next := kept_of_stored ⟨isObject.symm, stores⟩
        have longer := kept_length_le onenet objid (m + 1) k
        rw [next, List.length_append, List.length_singleton] at longer
        rw [if_pos (isNew.mpr stores)]
        split
        · rw [← next]
          refine ih (fun empty => ?_) ?_
          · simp
          · rw [next]
            simpa
        · rw [if_neg (by omega)]
      · have next := kept_of_passed fun isStored => stores isStored.2
        rw [if_neg (isNew.not.mpr stores), ← next]
        refine ih (fun empty => absurd ?_ stores) (next ▸ room)
        simp [← next, empty]
    · have next := kept_of_passed fun isStored => isObject isStored.1.symm
      rw [if_neg isObject, ← next]
      exact ih (next ▸ fresh) (next ▸ room)

theorem onenetDiscoverRsp_eq : onenetDiscoverRsp onenet objid =
    if (kept onenet objid onenet.devLen.toNat).length ≤ strResRoom then
      some (kept onenet objid onenet.devLen.toNat) else none := by
  have loop : discoverFrom onenet objid true (kept onenet objid 0) _ = _ :=
    discoverFrom_kept onenet.devLen.toNat (fun _ => rfl) (Nat.zero_le _)
  rwa [Nat.zero_add, ← List.range_eq_range'] at loop

variable {slots : List Nat}

theorem reportLoop_freed :
    (reportLoop accepted slots).freed = true ↔ ∀ i ∈ slots, accepted i = true := by
  induction slots with
  | nil => simp [reportLoop]
  | cons i rest ih =>
    rw [reportLoop, List.forall_mem_cons, ← ih]
    split <;> simp [*]

theorem reportLoop_reports (all : ∀ i ∈ slots, accepted i = true) :
    (reportLoop accepted slots).reports.map (·.1) = slots ∧
      (reportLoop accepted slots).reports.map (·.2) = moreFlags slots := by
  induction slots with
  | nil => exact ⟨rfl, rfl⟩
  | cons i rest ih =>
    obtain ⟨isFirst, all⟩ := List.forall_mem_cons.mp all
    obtain ⟨sameSlots, flags⟩ := ih all
    rw [reportLoop, if_pos isFirst]
    refine ⟨congrArg (i :: ·) sameSlots, ?_⟩
    rw [List.map_cons, flags]
    cases rest <;> simp [moreFlags, List.replicate_succ]

theorem kept_eq_filter (unlike : ∀ i < onenet.devLen.toNat, (onenet.slot i).objid = objid →
      (IsFirst onenet objid i ↔
        ∀ j < i, IsFirst onenet objid j → (j : Int) ≠ (onenet.slot i).resid))
    (le : n ≤ onenet.devLen.toNat) :
    kept onenet objid n = (List.range n).filter (IsFirst onenet objid ·) := by
  induction n with
  | zero => rfl
  | succ n ih =>
    rw [List.range_succ, List.filter_append, ← ih (by omega)]
    have stores : ((onenet.slot n).objid = objid ∧
        ∀ i ∈ kept onenet objid n, (i : Int) ≠ (onenet.slot n).resid) ↔
          IsFirst onenet objid n := by
      rw [ih (by omega)]
      simp only [List.mem_filter, List.mem_range, decide_eq_true_eq, and_imp]
      exact ⟨fun ⟨isObject, others⟩ => (unlike n le isObject).mpr others,
        fun isFirst => ⟨isFirst.2.1.2, (unlike n le isFirst.2.1.2).mp isFirst⟩⟩
    by_cases isFirst : IsFirst onenet objid n
    · rw [kept_of_stored (stores.mpr isFirst)]
      simp [isFirst]
    · rw [kept_of_passed (stores.not.mpr isFirst)]
      simp [isFirst]

/-- What is stored is what should be, if it is to be right. -/
theorem mem_kept_iff_isFirst
    (registered : ∀ i ∈ kept onenet objid onenet.devLen.toNat, Registered onenet objid i)
    (once : ((kept onenet objid onenet.devLen.toNat).map fun i => (onenet.slot i).resid).Nodup)
    (every : ∀ i, Registered onenet objid i →
      ∃ j ∈ kept onenet objid onenet.devLen.toNat, (onenet.slot j).resid = (onenet.slot i).resid) :
    i ∈ kept onenet objid onenet.devLen.toNat ↔ IsFirst onenet objid i := by
  have same {j k : Nat} (jKept : j ∈ kept onenet objid onenet.devLen.toNat)
      (kKept : k ∈ kept onenet objid onenet.devLen.toNat)
      (resid : (onenet.slot j).resid = (onenet.slot k).resid) : j = k :=
    List.inj_on_of_nodup_map once jKept kKept resid
  -- A slot that is passed has a resource that no later slot can be stored for.
  have passed {j k : Nat} (isObject : (onenet.slot j).objid = objid) (lt : j < k)
      (kKept : k ∈ kept onenet objid onenet.devLen.toNat)
      (resid : (onenet.slot j).resid = (onenet.slot k).resid) :
      j ∈ kept onenet objid onenet.devLen.toNat := by
    obtain ⟨inside, -, others⟩ := mem_kept.mp kKept
    refine mem_kept.mpr ⟨by omega, isObject, fun i mem => resid ▸ others i ?_⟩
    obtain ⟨before, stored⟩ := mem_kept.mp mem
    exact mem_kept.mpr ⟨by omega, stored⟩
  constructor
  · intro mem
    refine ⟨by have := (mem_kept.mp mem).1; omega, registered i mem, fun j lt isOther resid => ?_⟩
    exact Nat.ne_of_lt lt (same (passed isOther.2 lt mem resid) mem resid)
  · rintro ⟨_, isObject, first⟩
    obtain ⟨j, jKept, resid⟩ := every i isObject
    rcases Nat.lt_trichotomy j i with lt | rfl | gt
    · exact absurd resid (first j lt (registered j jKept))
    · exact jKept
    · exact passed isObject.2 gt jKept resid.symm

theorem plain_of_discovers (discovers : Discovers onenet objid accepted) :
    Plain onenet objid accepted := by
  obtain ⟨_, result, freed, reported⟩ := discovers
  rw [discoverRsp, onenetDiscoverRsp_eq] at result
  obtain ⟨slots, stored, rfl⟩ := Option.map_eq_some_iff.mp result
  obtain ⟨few, ⟨⟩⟩ := Option.ite_none_right_eq_some.mp stored
  have accept := reportLoop_freed.mp freed
  obtain ⟨sameSlots, -⟩ := reportLoop_reports accept
  have right := reported fun report mem => accept _ (sameSlots ▸ List.mem_map_of_mem mem)
  have members (i : Nat) := mem_kept_iff_isFirst (i := i) (sameSlots ▸ right.registered)
    (sameSlots ▸ right.once) (sameSlots ▸ right.every)
  have inside {i : Nat} (isFirst : IsFirst onenet objid i) : i < onenet.devLen.toNat := by
    have := isFirst.1
    omega
  have whole : kept onenet objid onenet.devLen.toNat =
      (List.range onenet.devLen.toNat).filter (IsFirst onenet objid ·) := by
    refine (kept_sorted _).eq_of_mem_iff (List.pairwise_lt_range.filter _) fun i => ?_
    rw [members, List.mem_filter, List.mem_range, decide_eq_true_eq]
    exact ⟨fun isFirst => ⟨inside isFirst, isFirst⟩, And.right⟩
  refine ⟨whole ▸ few, fun i lt isObject => ?_, fun i isObject => ?_,
    fun i isFirst => accept i ((members i).mpr isFirst)⟩
  · rw [← members, mem_kept, and_iff_right lt, and_iff_right isObject]
    refine forall_congr' fun j => ⟨fun others less isFirst => others ?_, fun others mem => ?_⟩
    · have isStored := mem_kept.mp ((members j).mpr isFirst)
      exact mem_kept.mpr ⟨less, isStored.2⟩
    · have isStored := mem_kept.mp mem
      exact others isStored.1
        ((members j).mp (mem_kept.mpr ⟨Nat.lt_trans isStored.1 lt, isStored.2⟩))
  · obtain ⟨j, mem, resid⟩ := right.every i isObject
    exact ⟨j, (members j).mp (sameSlots ▸ mem), resid⟩

theorem Plain.discovers (plain : Plain onenet objid accepted) :
    Discovers onenet objid accepted := by
  unfold Discovers discoverRsp
  rw [onenetDiscoverRsp_eq]
  have slots := kept_eq_filter plain.unlike (Nat.le_refl _)
  have members {i : Nat} (mem : i ∈ kept onenet objid onenet.devLen.toNat) :
      IsFirst onenet objid i := by
    rw [slots] at mem
    exact of_decide_eq_true (List.mem_filter.mp mem).2
  rw [if_pos (slots ▸ plain.few)]
  have accept := fun i mem => plain.accepted i (members (i := i) mem)
  obtain ⟨sameSlots, flags⟩ := reportLoop_reports accept
  refine ⟨_, rfl, reportLoop_freed.mpr accept, fun _ => ⟨?_, ?_, ?_, fun i isObject => ?_, ?_⟩⟩
  · rw [sameSlots]
    exact kept_sorted _
  · rw [sameSlots]
    exact fun i mem => (members mem).2.1
  · rw [sameSlots]
    refine List.Nodup.map_on (fun i iKept j jKept resid => ?_) ((kept_sorted _).imp Nat.ne_of_lt)
    rcases Nat.lt_trichotomy i j with lt | same | gt
    · exact absurd resid ((members jKept).2.2 i lt (members iKept).2.1)
    · exact same
    · exact absurd resid.symm ((members iKept).2.2 j gt (members jKept).2.1)
  · obtain ⟨j, isFirst, resid⟩ := plain.every i isObject
    refine ⟨j, ?_, resid⟩
    rw [sameSlots, slots]
    have := isFirst.1
    exact List.mem_filter.mpr ⟨List.mem_range.mpr (by omega), decide_eq_true isFirst⟩
  · rw [flags, sameSlots]

/-- A discovery is answered as it should be exactly for the plain objects. -/
theorem discovers_iff : Discovers onenet objid accepted ↔ Plain onenet objid accepted :=
  ⟨plain_of_discovers, Plain.discovers⟩

def twoInstances : Onenet :=
  (nbOnenetObjectInit (nbOnenetObjectInit nbOnenetInitEnvironment 3311 0 5850).1 3311 1 5850).1

/-- It is reported twice: its id is compared with the numbers of slots. -/
theorem two_instances_misreported :
    ¬ ∀ onenet objid accepted, Discovers onenet objid accepted := fun claim => by
  have plain := plain_of_discovers (claim twoInstances 3311 fun _ => true)
  exact absurd ((plain.unlike 1 (by decide) (by decide)).mpr (by decide)) (by decide)

end RtThread.OnenetTable
