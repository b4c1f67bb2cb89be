import RtThread.Ports.OnenetTable
import Mathlib.Data.List.Dedup
import Mathlib.Data.Int.Order.Basic

/-!
# What the table of OneNET holds

The handlers look at the first `dev_len` slots, so that the streams in use have to be in front.
-/

open TransitionSystem

namespace RtThread.OnenetTable

def Onenet.used (onenet : Onenet) : List OnenetStream := onenet.streamTable.filter (·.userStatus)

structure Finds (onenet : Onenet) (stream : OnenetStream) : Prop where
  read : ∃ i ∈ onenetReadRsp onenet stream.objid stream.insid stream.resid, onenet.slot i = stream
  write : ∃ i ∈ onenetWriteRsp onenet stream.objid stream.insid stream.resid, onenet.slot i = stream
  execute : ∃ i ∈ onenetExecuteRsp onenet stream.objid stream.insid stream.resid,
    onenet.slot i = stream
  discover : ∃ strRes ∈ onenetDiscoverRsp onenet stream.objid, ∃ i ∈ strRes,
    (onenet.slot i).userStatus = true ∧ (onenet.slot i).objid = stream.objid ∧
      (onenet.slot i).resid = stream.resid

structure FindsOnlyUsed (onenet : Onenet) : Prop where
  read : ∀ objid insid resid, ∀ i ∈ onenetReadRsp onenet objid insid resid,
    (onenet.slot i).userStatus = true
  write : ∀ objid insid resid, ∀ i ∈ onenetWriteRsp onenet objid insid resid,
    (onenet.slot i).userStatus = true
  execute : ∀ objid insid resid, ∀ i ∈ onenetExecuteRsp onenet objid insid resid,
    (onenet.slot i).userStatus = true
  discover : ∀ objid, ∀ strRes ∈ onenetDiscoverRsp onenet objid, ∀ i ∈ strRes,
    (onenet.slot i).userStatus = true

structure Consistent (s : State) : Prop where
  devLen : s.onenet.devLen = s.onenet.used.length
  objcount : s.counted = true →
    s.onenet.objcount = (s.onenet.used.map OnenetStream.objid).dedup.length
  finds : ∀ stream ∈ s.onenet.used, Finds s.onenet stream
  only : FindsOnlyUsed s.onenet

def RemovesObject (before after : Onenet) (stream : Nat) : Prop :=
  after.streamTable = before.streamTable.map fun u =>
    if u.userStatus && u.objid = (before.slot stream).objid then cleared else u

def Correct (step : Taken State Event) : Prop :=
  Consistent step.after ∧
    match step.event with
    | .deleteObject stream => RemovesObject step.before.onenet step.after.onenet stream
    | _ => True

/-- The slots of an object are those from `first` on. -/
def FromOn (onenet : Onenet) (objid : Int) (first : Nat) : Prop :=
  ∀ i < nbOnenetObjectMaxNum, (onenet.slot i).objid = objid ↔ first ≤ i

instance (onenet : Onenet) (objid : Int) (first : Nat) : Decidable (FromOn onenet objid first) :=
  inferInstanceAs (Decidable (∀ i < nbOnenetObjectMaxNum, _))

/-- A new stream is at most the second one of its object, and its resource id is not the index of
the other one.  A deletion is of the last slot, and the slots of its object, only this one if the
objects have been counted, are the last ones of the table. -/
def Fits (s : State) : Event → Prop
  | .objectInit objid _ resid => s.onenet.used.length < nbOnenetObjectMaxNum →
      (s.onenet.used.filter (·.objid = objid)).length < strResRoom ∧
      ∀ i < nbOnenetObjectMaxNum, (s.onenet.slot i).userStatus = true →
        (s.onenet.slot i).objid = objid → (i : Int) ≠ resid
  | .createObject => True
  | .deleteObject stream => stream + 1 = nbOnenetObjectMaxNum ∧
      ∃ first < nbOnenetObjectMaxNum, FromOn s.onenet (s.onenet.slot stream).objid first ∧
        (s.counted = true → first + 1 = nbOnenetObjectMaxNum)

instance (s : State) : (e : Event) → Decidable (Fits s e)
  | .objectInit .. => instDecidableForall
  | .createObject => .isTrue trivial
  | .deleteObject _ => instDecidableAnd

theorem unlike_true {v : Int} {str : List Int} : unlike v true str = true ↔ v ∉ str := by
  induction str with
  | nil => simp [unlike]
  | cons stored rest ih =>
    by_cases same : stored = v
    · simp [unlike, same]
    · simp [unlike, same, ih, Ne.symm same]

theorem unlike_eq {v : Int} {status : Bool} {str : List Int}
    (fresh : str = [] → status = true) : unlike v status str = true ↔ v ∉ str := by
  cases str with
  | nil => rw [fresh rfl, unlike_true]
  | cons stored rest => simpa only [unlike] using @unlike_true v (stored :: rest)

theorem createFrom_spec {status : Bool} {str : List Int} {streams : List OnenetStream}
    (fresh : str = [] → status = true) (nodup : str.Nodup) : (createFrom status str streams).Nodup ∧
      ∀ objid, objid ∈ createFrom status str streams ↔
        objid ∈ str ∨ ∃ stream ∈ streams, stream.userStatus = true ∧ stream.objid = objid := by
  induction streams generalizing status str with
  | nil => simp [createFrom, nodup]
  | cons stream streams ih =>
    rw [createFrom]
    split
    · next isUsed =>
      split
      · next isNew =>
        have absent := (unlike_eq fresh).mp isNew
        obtain ⟨nodup, members⟩ := @ih true (str ++ [stream.objid]) (by simp)
          (List.nodup_append.mpr ⟨nodup, by simp, fun id inStr u isLast same =>
            absent (List.mem_singleton.mp isLast ▸ same ▸ inStr)⟩)
        refine ⟨nodup, fun objid => (members objid).trans ?_⟩
        simp [isUsed, or_assoc, @eq_comm _ objid]
      · next isOld =>
        have inStr : stream.objid ∈ str := by simpa using (unlike_eq fresh).not.mp isOld
        obtain ⟨nodup, members⟩ := @ih false str
          (fun empty => absurd inStr (by simp [empty])) nodup
        refine ⟨nodup, fun objid => (members objid).trans ?_⟩
        constructor
        · rintro (inside | ⟨u, later, isObject⟩)
          · exact .inl inside
          · exact .inr ⟨u, List.mem_cons_of_mem _ later, isObject⟩
        · rintro (inside | ⟨u, mem, isObject⟩)
          · exact .inl inside
          · rcases List.mem_cons.mp mem with rfl | later
            · exact .inl (isObject.2 ▸ inStr)
            · exact .inr ⟨u, later, isObject⟩
    · next notUsed =>
      obtain ⟨nodup, members⟩ := ih fresh nodup
      refine ⟨nodup, fun objid => (members objid).trans ?_⟩
      simp [notUsed]

theorem length_createFrom (streams : List OnenetStream) : (createFrom true [] streams).length =
      ((streams.filter (·.userStatus)).map OnenetStream.objid).dedup.length := by
  obtain ⟨nodup, members⟩ := @createFrom_spec true [] streams (fun _ => rfl) .nil
  refine ((List.perm_ext_iff_of_nodup nodup (List.nodup_dedup _)).mpr fun objid => ?_).length_eq
  rw [members]
  simp [and_assoc]

theorem discoverFrom_eq {onenet : Onenet} {objid : Int} {strRes rest : List Nat}
    (unlikely : ∀ i ∈ rest, (onenet.slot i).objid = objid →
      ∀ j ∈ strRes, (j : Int) ≠ (onenet.slot i).resid)
    (apart : rest.Pairwise fun j i => (onenet.slot j).objid = objid →
      (onenet.slot i).objid = objid → (j : Int) ≠ (onenet.slot i).resid)
    (room : strRes.length + (rest.filter fun i => (onenet.slot i).objid = objid).length ≤
      strResRoom) : discoverFrom onenet objid true strRes rest =
      some (strRes ++ rest.filter fun i => (onenet.slot i).objid = objid) := by
  induction rest generalizing strRes with
  | nil => simp [discoverFrom]
  | cons i rest ih =>
    obtain ⟨first, apart⟩ := List.pairwise_cons.mp apart
    have later : ∀ i ∈ rest, (onenet.slot i).objid = objid →
        ∀ j ∈ strRes, (j : Int) ≠ (onenet.slot i).resid :=
      fun u inRest => unlikely u (List.mem_cons_of_mem _ inRest)
    rw [discoverFrom]
    by_cases isObject : (onenet.slot i).objid = objid
    · have isNew : unlike (onenet.slot i).resid true (strRes.map Int.ofNat) = true := by
        refine unlike_true.mpr fun stored => ?_
        obtain ⟨j, inStrRes, same⟩ := List.mem_map.mp stored
        exact unlikely i List.mem_cons_self isObject j inStrRes same
      rw [List.filter_cons_of_pos (by simpa using isObject)] at room ⊢
      rw [List.length_cons] at room
      rw [if_pos isObject.symm, if_pos isNew, if_pos (by omega), ih _ apart]
      · simp
      · simp only [List.length_append, List.length_singleton]
        omega
      · intro u inRest isOther j inStrRes
        rcases List.mem_append.mp inStrRes with earlier | isLast
        · exact later u inRest isOther j earlier
        · obtain rfl := List.mem_singleton.mp isLast
          exact first u inRest isObject isOther
    · rw [List.filter_cons_of_neg (by simpa using isObject)] at room ⊢
      rw [if_neg (Ne.symm isObject)]
      exact ih later apart room

structure Compact (s : State) (used : List OnenetStream) : Prop where
  table : s.onenet.streamTable = used ++ List.replicate (nbOnenetObjectMaxNum - used.length) cleared
  short : used.length ≤ nbOnenetObjectMaxNum
  inUse : ∀ stream ∈ used, stream.userStatus = true
  devLen : s.onenet.devLen = used.length
  objcount : s.counted = true →
    s.onenet.objcount = (used.map OnenetStream.objid).dedup.length
  few : ∀ objid : Int, (used.filter (·.objid = objid)).length ≤ strResRoom
  apart : ∀ (i j : Nat) (first second : OnenetStream), i < j → used[i]? = some first →
    used[j]? = some second → first.objid = second.objid → (i : Int) ≠ second.resid

namespace Compact

variable {s : State} {used : List OnenetStream}

section

variable (compact : Compact s used)

include compact

theorem used_eq : s.onenet.used = used := by
  rw [Onenet.used, compact.table, List.filter_append, List.filter_eq_self.mpr compact.inUse,
    List.filter_eq_nil_iff.mpr, List.append_nil]
  intro stream mem
  simp [List.eq_of_mem_replicate mem, cleared]

theorem scanned_eq : s.onenet.scanned = List.range used.length := by
  rw [Onenet.scanned, compact.devLen, Int.toNat_natCast]

theorem slot_eq {i : Nat} (inside : i < used.length) : s.onenet.slot i = used[i] := by
  rw [Onenet.slot, compact.table, List.getD_eq_getElem?_getD, List.getElem?_append_left inside,
    List.getElem?_eq_getElem inside, Option.getD_some]

theorem map_slot : (List.range used.length).map s.onenet.slot = used := by
  refine List.ext_getElem (by simp) fun i _ inside => ?_
  rw [List.getElem_map, List.getElem_range, compact.slot_eq inside]

theorem slot_used {i : Nat} (inside : i < used.length) : (s.onenet.slot i).userStatus = true := by
  rw [compact.slot_eq inside]
  exact compact.inUse _ (List.getElem_mem inside)

theorem slot_free {i : Nat} (outside : used.length ≤ i) : s.onenet.slot i = cleared := by
  rw [Onenet.slot, compact.table, List.getD_eq_getElem?_getD,
    List.getElem?_append_right outside, List.getElem?_replicate]
  split <;> rfl

theorem find_resource {stream : OnenetStream} (mem : stream ∈ used) : ∃ i, s.onenet.scanned.find?
        (s.onenet.isResource stream.objid stream.insid stream.resid) = some i ∧
      s.onenet.slot i = stream := by
  obtain ⟨k, inside, rfl⟩ := List.getElem_of_mem mem
  have some : (s.onenet.scanned.find?
      (s.onenet.isResource used[k].objid used[k].insid used[k].resid)).isSome := by
    refine List.find?_isSome.mpr ⟨k, ?_, ?_⟩
    · rw [compact.scanned_eq]
      exact List.mem_range.mpr inside
    · simp [Onenet.isResource, compact.slot_eq inside]
  obtain ⟨i, isFound⟩ := Option.isSome_iff_exists.mp some
  refine ⟨i, isFound, ?_⟩
  have isResource := List.find?_some isFound
  have scanned := List.mem_of_find?_eq_some isFound
  rw [compact.scanned_eq, List.mem_range] at scanned
  have isUsed := compact.slot_used scanned
  have kUsed := compact.inUse _ mem
  simp only [Onenet.isResource] at isResource
  generalize s.onenet.slot i = found at *
  generalize used[k] = stream at *
  cases found
  cases stream
  simp_all

theorem discovers (objid : Int) : onenetDiscoverRsp s.onenet objid =
      some ((List.range used.length).filter fun i => (s.onenet.slot i).objid = objid) := by
  rw [onenetDiscoverRsp, compact.scanned_eq, discoverFrom_eq (by simp), List.nil_append]
  · refine List.Pairwise.imp_of_mem ?_ List.pairwise_lt_range
    intro j i inJ inI before isJ isI
    rw [List.mem_range] at inJ inI
    rw [compact.slot_eq inJ] at isJ
    rw [compact.slot_eq inI] at isI ⊢
    exact compact.apart j i _ _ before (List.getElem?_eq_getElem inJ)
      (List.getElem?_eq_getElem inI) (isJ.trans isI.symm)
  · have few := compact.few objid
    rw [← compact.map_slot, List.filter_map, List.length_map] at few
    rw [List.length_nil, Nat.zero_add]
    exact few

theorem finds {stream : OnenetStream} (mem : stream ∈ used) : Finds s.onenet stream where
  read := by
    obtain ⟨i, isFound, isStream⟩ := compact.find_resource mem
    have scanned := List.mem_of_find?_eq_some isFound
    rw [onenetReadRsp]
    split
    · exact ⟨i, List.mem_filter.mpr ⟨scanned, by simp [isStream]⟩, isStream⟩
    · split
      · exact ⟨i, List.mem_filter.mpr ⟨scanned, by simp [isStream]⟩, isStream⟩
      · exact ⟨i, by simp [isFound], isStream⟩
  write := compact.find_resource mem
  execute := compact.find_resource mem
  discover := by
    obtain ⟨i, isFound, isStream⟩ := compact.find_resource mem
    have scanned := List.mem_of_find?_eq_some isFound
    rw [compact.scanned_eq] at scanned
    refine ⟨_, compact.discovers stream.objid, i,
      List.mem_filter.mpr ⟨scanned, by simp [isStream]⟩, ?_⟩
    simp [isStream, compact.inUse stream mem]

theorem only : FindsOnlyUsed s.onenet := by
  have scanned : ∀ i ∈ s.onenet.scanned, (s.onenet.slot i).userStatus = true := by
    intro i mem
    rw [compact.scanned_eq, List.mem_range] at mem
    exact compact.slot_used mem
  refine ⟨?_, ?_, ?_, ?_⟩
  · intro objid insid resid i found
    refine scanned i ?_
    rw [onenetReadRsp] at found
    split at found
    · exact (List.mem_filter.mp found).1
    · split at found
      · exact (List.mem_filter.mp found).1
      · exact List.mem_of_find?_eq_some (by simpa using found)
  · exact fun objid insid resid i found => scanned i (List.mem_of_find?_eq_some found)
  · exact fun objid insid resid i found => scanned i (List.mem_of_find?_eq_some found)
  · intro objid strRes isStrRes i mem
    obtain rfl := Option.some.inj ((compact.discovers objid).symm.trans isStrRes)
    exact compact.slot_used (List.mem_range.mp (List.mem_filter.mp mem).1)

theorem consistent : Consistent s where
  devLen := by rw [compact.used_eq, compact.devLen]
  objcount counted := by rw [compact.used_eq, compact.objcount counted]
  finds stream mem := compact.finds (compact.used_eq ▸ mem)
  only := compact.only

theorem findIdx?_eq : s.onenet.streamTable.findIdx? (fun stream => !stream.userStatus) =
      if used.length < nbOnenetObjectMaxNum then some used.length else none := by
  have inUse : used.findIdx? (fun stream => !stream.userStatus) = none :=
    List.findIdx?_eq_none_iff.mpr fun stream mem => by simp [compact.inUse stream mem]
  rw [compact.table, List.findIdx?_append, inUse, Option.none_or, List.findIdx?_replicate]
  by_cases room : used.length < nbOnenetObjectMaxNum
  · simp [room, cleared, Nat.sub_ne_zero_of_lt room]
  · simp [room, Nat.sub_eq_zero_of_le (Nat.le_of_not_lt room)]

theorem set_table (room : used.length < nbOnenetObjectMaxNum) (stream : OnenetStream) :
    s.onenet.streamTable.set used.length stream = (used ++ [stream]) ++
        List.replicate (nbOnenetObjectMaxNum - (used ++ [stream]).length) cleared := by
  obtain ⟨free, isFree⟩ := Nat.exists_eq_add_of_lt room
  have isBefore : nbOnenetObjectMaxNum - used.length = free + 1 := by omega
  have isAfter : nbOnenetObjectMaxNum - (used ++ [stream]).length = free := by
    simp only [List.length_append, List.length_singleton]
    omega
  rw [compact.table, isBefore, isAfter, List.set_append_right _ _ (Nat.le_refl _), Nat.sub_self,
    List.replicate_succ, List.set_cons_zero, List.append_assoc, List.singleton_append]

theorem objectInit {objid insid resid : Int} {s' : State}
    (fits : Fits s (.objectInit objid insid resid))
    (ran : step s (.objectInit objid insid resid) = some s') : ∃ left, Compact s' left := by
  rw [step, nbOnenetObjectInit, compact.findIdx?_eq] at ran
  by_cases room : used.length < nbOnenetObjectMaxNum
  · simp only [room, if_true, Option.some.injEq] at ran
    subst ran
    obtain ⟨few, unlikely⟩ := fits (compact.used_eq.symm ▸ room)
    rw [compact.used_eq] at few
    refine ⟨used ++ [⟨objid, insid, resid, true⟩], compact.set_table room _, ?_, ?_, ?_, by simp,
      ?_, ?_⟩
    · simpa using Nat.succ_le_of_lt room
    · intro stream mem
      rcases List.mem_append.mp mem with earlier | isNew
      · exact compact.inUse stream earlier
      · rw [List.mem_singleton.mp isNew]
    · simp [compact.devLen]
    · intro u
      by_cases same : objid = u
      · subst same
        simpa using Nat.succ_le_of_lt few
      · simpa [same] using compact.few u
    · intro i j first second before isFirst isSecond same
      have jBelow := (List.getElem?_eq_some_iff.mp isSecond).1
      simp only [List.length_append, List.length_singleton] at jBelow
      have iBelow : i < used.length := by omega
      rw [List.getElem?_append_left iBelow] at isFirst
      by_cases isNew : j = used.length
      · subst isNew
        simp only [List.getElem?_concat_length, Option.some.injEq] at isSecond
        subst isSecond
        have isSlot := compact.slot_eq iBelow
        rw [(List.getElem?_eq_some_iff.mp isFirst).2] at isSlot
        exact unlikely i (Nat.lt_trans iBelow room) (compact.slot_used iBelow)
          (by rw [isSlot]; exact same)
      · rw [List.getElem?_append_left (by omega)] at isSecond
        exact compact.apart i j first second before isFirst isSecond same
  · simp only [room, if_false, Option.isNone_none, Bool.and_true, Option.some.injEq] at ran
    subst ran
    exact ⟨used, compact⟩

theorem createObject : Compact { onenet := onenetCreateObject s.onenet, counted := true } used where
  table := compact.table
  short := compact.short
  inUse := compact.inUse
  devLen := compact.devLen
  objcount _ := by
    rw [onenetCreateObject, length_createFrom]
    have isUsed := compact.used_eq
    rw [Onenet.used] at isUsed
    rw [isUsed]
  few := compact.few
  apart := compact.apart

end

end Compact

section Deletion

variable {onenet : Onenet} {stream first : Nat}

theorem delete_front (fromOn : FromOn onenet (onenet.slot stream).objid first)
    (inside : first ≤ nbOnenetObjectMaxNum) :
    (List.range first).foldl (deleteStep stream) onenet = onenet := by
  have skips : ∀ i ∈ List.range first, deleteStep stream onenet i = onenet := by
    intro i mem
    have before := List.mem_range.mp mem
    refine if_neg fun same => ?_
    exact Nat.not_le.mpr before ((fromOn i (Nat.lt_of_lt_of_le before inside)).mp same)
  generalize List.range first = front at skips
  induction front with
  | nil => rfl
  | cons i front ih =>
    rw [List.foldl_cons, skips i List.mem_cons_self]
    exact ih fun u later => skips u (List.mem_cons_of_mem _ later)

/-- The table once `count` of the object's slots have been cleared. -/
def clearedTo (onenet : Onenet) (first count : Nat) : Onenet where
  streamTable := onenet.streamTable.take first ++
    (List.replicate count cleared ++ onenet.streamTable.drop (first + count))
  devLen := onenet.devLen - count
  objcount := onenet.objcount - count
  inscount := onenet.inscount

theorem slot_clearedTo {n i : Nat} (short : first ≤ onenet.streamTable.length)
    (behind : first + n ≤ i) : (clearedTo onenet first n).slot i = onenet.slot i := by
  have takes : (onenet.streamTable.take first).length = first := by simp [short]
  rw [Onenet.slot, clearedTo, Onenet.slot, List.getD_eq_getElem?_getD, List.getD_eq_getElem?_getD,
    List.getElem?_append_right (by omega), List.getElem?_append_right (by simp; omega),
    List.getElem?_drop]
  congr 2
  simp only [List.length_replicate]
  omega

theorem deleteStep_clearedTo {n : Nat} (full : onenet.streamTable.length = nbOnenetObjectMaxNum)
    (isLast : stream + 1 = nbOnenetObjectMaxNum) (inside : first + n < nbOnenetObjectMaxNum)
    (fromOn : FromOn onenet (onenet.slot stream).objid first) :
    deleteStep stream (clearedTo onenet first n) (first + n) = clearedTo onenet first (n + 1) := by
  have takes : (onenet.streamTable.take first).length = first := by simp; omega
  have isObject := (fromOn (first + n) inside).mpr (Nat.le_add_right ..)
  rw [deleteStep, slot_clearedTo (by omega) (Nat.le_refl _), slot_clearedTo (by omega) (by omega),
    if_pos isObject]
  have below : first + n < onenet.streamTable.length := by omega
  simp only [clearedTo, Onenet.mk.injEq, and_true]
  refine ⟨?_, by omega, by omega⟩
  rw [List.set_append_right _ _ (by omega), takes, Nat.add_sub_cancel_left,
    List.set_append_right _ _ (by simp), List.length_replicate, Nat.sub_self,
    List.drop_eq_getElem_cons below, List.set_cons_zero, List.replicate_succ',
    List.append_assoc, List.singleton_append, Nat.add_assoc]

theorem nbOnenetDeleteObject_eq (full : onenet.streamTable.length = nbOnenetObjectMaxNum)
    (isLast : stream + 1 = nbOnenetObjectMaxNum) (inside : first < nbOnenetObjectMaxNum)
    (fromOn : FromOn onenet (onenet.slot stream).objid first) :
    nbOnenetDeleteObject onenet stream = clearedTo onenet first (nbOnenetObjectMaxNum - first) := by
  have upTo : ∀ n, first + n ≤ nbOnenetObjectMaxNum →
      (List.range (first + n)).foldl (deleteStep stream) onenet = clearedTo onenet first n := by
    intro n
    induction n with
    | zero =>
      intro bound
      rw [Nat.add_zero, delete_front fromOn bound]
      simp [clearedTo]
    | succ n ih =>
      intro bound
      rw [← Nat.add_assoc, List.range_succ, List.foldl_append, ih (by omega)]
      exact deleteStep_clearedTo full isLast (by omega) fromOn
  have all := upTo (nbOnenetObjectMaxNum - first) (by omega)
  rwa [Nat.add_sub_cancel' (Nat.le_of_lt inside)] at all

end Deletion

namespace Compact

variable {s : State} {used : List OnenetStream} {stream first : Nat}

section

variable (compact : Compact s used)

include compact

theorem full (isLast : stream + 1 = nbOnenetObjectMaxNum)
    (isUsed : (s.onenet.slot stream).userStatus = true) :
    used.length = nbOnenetObjectMaxNum ∧ s.onenet.streamTable = used := by
  have inside : stream < used.length := by
    by_contra outside
    rw [compact.slot_free (Nat.le_of_not_lt outside)] at isUsed
    exact absurd isUsed (by decide)
  have short := compact.short
  have isFull : used.length = nbOnenetObjectMaxNum := by omega
  refine ⟨isFull, ?_⟩
  rw [compact.table, isFull, Nat.sub_self, List.replicate_zero, List.append_nil]

section

variable (isFull : used.length = nbOnenetObjectMaxNum)
  (fromOn : FromOn s.onenet (s.onenet.slot stream).objid first)

include isFull fromOn

theorem mem_take {u : OnenetStream} (left : u ∈ used.take first) :
    u.objid ≠ (s.onenet.slot stream).objid := by
  obtain ⟨i, below, rfl⟩ := List.getElem_of_mem left
  rw [List.length_take] at below
  rw [List.getElem_take, ← compact.slot_eq (by omega)]
  exact fun same => absurd ((fromOn i (by omega)).mp same) (by omega)

theorem mem_drop {u : OnenetStream} (removed : u ∈ used.drop first) :
    u.objid = (s.onenet.slot stream).objid := by
  obtain ⟨i, below, rfl⟩ := List.getElem_of_mem removed
  rw [List.length_drop] at below
  rw [List.getElem_drop, ← compact.slot_eq (by omega)]
  exact (fromOn _ (by omega)).mpr (Nat.le_add_right ..)

theorem map_removed : (used.map fun u =>
        if u.userStatus && u.objid = (s.onenet.slot stream).objid then cleared else u) =
      used.take first ++ List.replicate (nbOnenetObjectMaxNum - first) cleared := by
  conv_lhs => rw [← List.take_append_drop first used]
  rw [List.map_append]
  congr 1
  · refine (List.map_congr_left fun u left => ?_).trans (List.map_id _)
    simp [compact.mem_take isFull fromOn left]
  · refine List.eq_replicate_iff.mpr ⟨by simp [isFull], fun u removed => ?_⟩
    obtain ⟨before, isRemoved, rfl⟩ := List.mem_map.mp removed
    simp [compact.mem_drop isFull fromOn isRemoved,
      compact.inUse before (List.mem_of_mem_drop isRemoved)]

end

end

theorem length_dedup_concat {ids : List Int} {id : Int} (absent : id ∉ ids) :
    (ids ++ [id]).dedup.length = ids.dedup.length + 1 := by
  have perm : (ids ++ [id]).Perm (id :: ids) := List.perm_append_singleton id ids
  rw [perm.dedup.length_eq, List.dedup_cons_of_notMem absent, List.length_cons]

theorem deleteObject (compact : Compact s used) {s' : State} (fits : Fits s (.deleteObject stream))
    (ran : step s (.deleteObject stream) = some s') :
    (∃ left, Compact s' left) ∧ RemovesObject s.onenet s'.onenet stream := by
  obtain ⟨isLast, first, inside, fromOn, single⟩ := fits
  rw [step] at ran
  split at ran
  · next isUsed =>
    obtain rfl := Option.some.inj ran
    obtain ⟨isFull, isTable⟩ := compact.full isLast isUsed
    have deleted := nbOnenetDeleteObject_eq (isTable ▸ isFull) isLast inside fromOn
    have takes : (used.take first).length = first := by simp; omega
    have table : (nbOnenetDeleteObject s.onenet stream).streamTable =
        used.take first ++ List.replicate (nbOnenetObjectMaxNum - first) cleared := by
      rw [deleted, clearedTo, isTable, Nat.add_sub_cancel' (Nat.le_of_lt inside),
        List.drop_eq_nil_of_le (Nat.le_of_eq isFull), List.append_nil]
    refine ⟨⟨used.take first, ?_, ?_, ?_, ?_, ?_, ?_, ?_⟩, ?_⟩
    · rw [takes]
      exact table
    · omega
    · exact fun u left => compact.inUse u (List.mem_of_mem_take left)
    · simp only [deleted, clearedTo, compact.devLen]
      omega
    · intro counted
      have isNine := single counted
      have split : used = used.take first ++ [s.onenet.slot stream] := by
        conv_lhs => rw [← List.take_append_drop first used]
        rw [List.drop_eq_getElem_cons (by omega), List.drop_eq_nil_of_le (by omega)]
        have same : stream = first := by omega
        subst same
        rw [compact.slot_eq (by omega)]
      have count := compact.objcount counted
      rw [split, List.map_append, List.map_singleton, length_dedup_concat] at count
      · simp only [deleted, clearedTo]
        omega
      · intro present
        obtain ⟨u, left, same⟩ := List.mem_map.mp present
        exact compact.mem_take isFull fromOn left same
    · intro objid
      have few := compact.few objid
      have sublist : ((used.take first).filter (·.objid = objid)).Sublist
          (used.filter (·.objid = objid)) := (List.take_sublist first used).filter _
      exact Nat.le_trans sublist.length_le few
    · intro i j one two before isOne isTwo
      rw [List.getElem?_take] at isOne isTwo
      split at isTwo
      · rw [if_pos (by omega)] at isOne
        exact compact.apart i j one two before isOne isTwo
      · simp at isTwo
    · exact table.trans ((compact.map_removed isFull fromOn).symm.trans
        (congrArg _ isTable.symm))
  · simp at ran

end Compact

theorem compact_start : Compact ⟨nbOnenetInitEnvironment, false⟩ [] where
  table := rfl
  short := Nat.zero_le _
  inUse := by simp
  devLen := rfl
  objcount := by simp
  few := by simp
  apart := by simp

theorem compact_step {s s' : State} {e : Event} {used : List OnenetStream}
    (compact : Compact s used) (fits : Fits s e) (ran : step s e = some s') :
    (∃ left, Compact s' left) ∧ Correct ⟨s, e, s'⟩ := by
  cases e with
  | objectInit objid insid resid =>
    obtain ⟨left, compact⟩ := compact.objectInit fits ran
    exact ⟨⟨left, compact⟩, compact.consistent, trivial⟩
  | createObject =>
    obtain rfl := Option.some.inj ran
    exact ⟨⟨used, compact.createObject⟩, compact.createObject.consistent, trivial⟩
  | deleteObject stream =>
    obtain ⟨⟨left, compact⟩, removes⟩ := compact.deleteObject fits ran
    exact ⟨⟨left, compact⟩, compact.consistent, removes⟩

/-- In a run whose steps meet the condition, every step leaves a table whose counters are right
and in which the handlers find exactly the streams in use. -/
theorem object_table_correct {taken : List (Taken State Event)} {last : State}
    (run : system.Run taken last) (fits : EveryStep Fits taken) : ∀ step ∈ taken, Correct step := by
  have throughout : Throughout (fun s => ∃ used, Compact s used) taken last := by
    refine run.throughout_of_everyStep ?_ ?_ fits
    · rintro s rfl
      exact ⟨[], compact_start⟩
    · rintro s e s' ⟨used, compact⟩ fits ran
      exact (compact_step compact fits ran).1
  intro step mem
  obtain ⟨used, compact⟩ := throughout.2 step mem
  exact (compact_step compact (fits step mem) (run.step_of_mem mem)).2

def pairs : List Event :=
  ((List.range 10).map fun i => Event.objectInit (3300 + i / 2) (i % 2) (5700 + i)) ++
    [.deleteObject 9, .createObject]

def fresh : State := ⟨nbOnenetInitEnvironment, false⟩

theorem pairs_correct : (execute step fresh pairs).isSome ∧
    ∀ taken ∈ record step [] fresh pairs, Correct taken := by
  have isSome : (execute step fresh pairs).isSome := by decide +kernel
  have run : system.Run (record step [] fresh pairs) _ :=
    .execute (.start rfl) (Option.some_get isSome).symm
  exact ⟨isSome, object_table_correct run (by decide +kernel)⟩

def onlyStream : List Event := [.objectInit 3311 0 5850, .createObject]

theorem only_stream_deleted :
    ¬ ∀ (taken : List (Taken State Event)) (last : State), system.Run taken last →
      ∀ step ∈ taken, Correct step := by
  intro claim
  have isSome : (execute step fresh (onlyStream ++ [.deleteObject 0])).isSome := by decide +kernel
  have run : system.Run (record step [] fresh (onlyStream ++ [.deleteObject 0])) _ :=
    .execute (.start rfl) (Option.some_get isSome).symm
  have devLen : ∀ taken ∈ record step [] fresh (onlyStream ++ [.deleteObject 0]),
      taken.after.onenet.devLen = taken.after.onenet.used.length :=
    fun taken mem => (claim _ _ run taken mem).1.devLen
  exact absurd devLen (by decide +kernel)

end RtThread.OnenetTable
