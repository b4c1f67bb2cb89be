import RtThread.Kernel.Services
import RtThread.Scheduler.Basic

/-!
# The scheduler on links refines the one on lists

The thread functions on links do to the lists that the links represent what the kernel
services do to their lists of threads.
-/

namespace RtThread.Scheduler

universe u v

/-- `stat` as the kernel services see it. -/
def statBits : ThreadStat → BitVec 8
  | .init => threadInit
  | .ready => threadReady
  | .suspend => threadSuspend
  | .close => threadClose

theorem statBits_injective {stat other : ThreadStat} (same : statBits stat = statBits other) :
    stat = other := by
  cases stat <;> cases other <;> first | rfl | (revert same; decide)

theorem masked_or (new : ThreadStat) (stat : BitVec 8) :
    (statBits new ||| (stat &&& ~~~threadStatMask)) &&& threadStatMask = statBits new := by
  revert stat
  cases new <;> decide +kernel

theorem masked_statBits (new : ThreadStat) : statBits new &&& threadStatMask = statBits new := by
  cases new <;> decide

variable {Tid : Type u} {Obj : Type v} [DecidableEq Tid] [DecidableEq Obj]

section Frames

variable (cfg : Config) (s : State Tid Obj) (t : Tid)

@[simp] theorem rtScheduleRemoveThread_links :
    (rtScheduleRemoveThread cfg s t).links = (s.unlink t).links := by
  simp only [rtScheduleRemoveThread]
  split
  · split
    · split <;> rfl
    · rfl
  · rfl

@[simp] theorem rtScheduleRemoveThread_thread :
    (rtScheduleRemoveThread cfg s t).thread = s.thread := by
  simp only [rtScheduleRemoveThread]
  split
  · split
    · split <;> rfl
    · rfl
  · rfl

theorem rtScheduleInsertThread_links : (rtScheduleInsertThread cfg s t).links =
      s.links.insertBefore (.head (s.thread t).home) (.entry t) := by
  simp only [rtScheduleInsertThread]
  split <;> rfl

theorem rtScheduleInsertThread_thread :
    (rtScheduleInsertThread cfg s t).thread = Function.update s.thread t
        { s.thread t with
          stat := threadReady ||| ((s.thread t).stat &&& ~~~threadStatMask) } := by
  simp only [rtScheduleInsertThread]
  split <;> rfl

end Frames

structure Tcb.Agrees (tcb : Tcb) (thread : Thread) : Prop where
  stat : tcb.maskedStat = statBits thread.stat
  priority : thread.currentPriority = tcb.currentPriority.toNat
  initPriority : thread.initPriority = tcb.initPriority.toNat
  error : thread.error = tcb.error

structure Refines (s : State Tid Obj) (k : Kernel Tid Obj) : Prop where
  links : s.links.Represents k.queue
  thread : ∀ t, (s.thread t).Agrees (k.thread t)

variable {cfg : Config} {s after : State Tid Obj} {k : Kernel Tid Obj} {t : Tid}

namespace Refines

section

variable (refines : Refines s k)

include refines

omit [DecidableEq Tid] [DecidableEq Obj] in
theorem congr (links : after.links = s.links) (thread : after.thread = s.thread) :
    Refines after k := by
  refine ⟨?_, ?_⟩
  · rw [links]
    exact refines.links
  · rw [thread]
    exact refines.thread

omit [DecidableEq Tid] [DecidableEq Obj] in
theorem stat_iff (t : Tid) (stat : ThreadStat) :
    (s.thread t).maskedStat = statBits stat ↔ (k.thread t).stat = stat := by
  rw [(refines.thread t).stat]
  constructor
  · exact statBits_injective
  · exact congrArg statBits

omit [DecidableEq Obj] in
theorem setThread {tcb : Tcb} {thread : Thread} (agrees : tcb.Agrees thread) :
    Refines (s.setThread t tcb) (k.setThread t thread) := by
  refine ⟨refines.links, ?_⟩
  intro other
  by_cases same : other = t
  · subst same
    simpa using agrees
  · simpa [same] using refines.thread other

theorem unlink (t : Tid) : Refines (s.unlink t) (k.unlink t) :=
  ⟨refines.links.remove t, refines.thread⟩

theorem insertBefore (head : ListHead Obj) (fresh : ∀ head, t ∉ k.queue head) :
    Refines (s.insertBefore head t) (k.setQueue head (k.queue head ++ [t])) :=
  ⟨refines.links.insertBefore_head fresh, refines.thread⟩

theorem insertAfter (head : ListHead Obj) (fresh : ∀ head, t ∉ k.queue head) :
    Refines (s.insertAfter head t) (k.setQueue head (t :: k.queue head)) :=
  ⟨refines.links.insertAfter_head fresh, refines.thread⟩

theorem rtScheduleRemoveThread (t : Tid) :
    Refines (rtScheduleRemoveThread cfg s t) (k.unlink t) := by
  apply (refines.unlink t).congr
  · simp
  · simp

theorem rtScheduleInsertThread (fresh : ∀ head, t ∉ k.queue head) :
    Refines (rtScheduleInsertThread cfg s t) (k.rtScheduleInsertThread t) := by
  have agrees := refines.thread t
  have home : ((s.thread t).home : ListHead Obj) = .ready (k.thread t).currentPriority := by
    rw [Tcb.home, agrees.priority]
  have marked : Refines
      (s.setThread t { s.thread t with
        stat := threadReady ||| ((s.thread t).stat &&& ~~~threadStatMask) })
      (k.setThread t { k.thread t with stat := .ready }) :=
    refines.setThread ⟨masked_or .ready _, agrees.priority, agrees.initPriority, agrees.error⟩
  have linked := marked.insertBefore (.ready (k.thread t).currentPriority) fresh
  apply linked.congr
  · rw [rtScheduleInsertThread_links, home]
    rfl
  · rw [rtScheduleInsertThread_thread]
    rfl

end

end Refines

end RtThread.Scheduler

namespace RtThread.Scheduler

open BitMask (getLsbD_one_shiftLeft)

universe u v

variable {Tid : Type u} {Obj : Type v}

structure Bitmap (cfg : Config) (group : BitVec 32) (table : Nat → BitVec 8)
    (q : ListHead Obj → List Tid) : Prop where
  oneLevel : cfg.priorityMax ≤ 32 → ∀ priority < 32,
    (group.getLsbD priority = true ↔ q (.ready priority) ≠ [])
  readyTable : 32 < cfg.priorityMax → ∀ priority < 256,
    ((table (priority / 8)).getLsbD (priority % 8) = true ↔ q (.ready priority) ≠ [])
  readyGroup : 32 < cfg.priorityMax → ∀ number < 32,
    (group.getLsbD number = true ↔ table number ≠ 0)

def Tcb.Masked (cfg : Config) (thread : Tcb) : Prop := priorityAttribute cfg thread = thread

variable {cfg : Config} {group : BitVec 32} {table : Nat → BitVec 8}
  {q queue' : ListHead Obj → List Tid} {thread : Tcb}

theorem and_not_zero {width : Nat} (value : BitVec width) :
    value &&& ~~~(0 : BitVec width) = value := by
  simp

theorem masked_priorityAttribute (cfg : Config) (thread : Tcb) :
    (priorityAttribute cfg thread).Masked cfg := by
  unfold Tcb.Masked priorityAttribute
  split <;> rfl

theorem Tcb.Masked.oneLevel (masked : thread.Masked cfg) (small : cfg.priorityMax ≤ 32) :
    thread.numberMask = 1#32 <<< thread.currentPriority.toNat := by
  rw [Tcb.Masked, priorityAttribute, if_neg (Nat.not_lt.mpr small)] at masked
  exact (congrArg Tcb.numberMask masked).symm

theorem Tcb.Masked.twoLevel (masked : thread.Masked cfg) (large : 32 < cfg.priorityMax) :
    thread.number.toNat = thread.currentPriority.toNat / 8 ∧
      thread.numberMask = 1#32 <<< (thread.currentPriority.toNat / 8) ∧
      thread.highMask = 1#8 <<< (thread.currentPriority.toNat % 8) := by
  have shifted : (thread.currentPriority >>> 3).toNat = thread.currentPriority.toNat / 8 := by
    simp [Nat.shiftRight_eq_div_pow]
  have low : (thread.currentPriority &&& 0x07).toNat = thread.currentPriority.toNat % 8 := by
    exact Nat.and_two_pow_sub_one_eq_mod _ 3
  rw [Tcb.Masked, priorityAttribute, if_pos large] at masked
  refine ⟨?_, ?_, ?_⟩
  · rw [← shifted]
    exact congrArg BitVec.toNat (congrArg Tcb.number masked).symm
  · rw [← shifted]
    exact (congrArg Tcb.numberMask masked).symm
  · rw [← low]
    exact (congrArg Tcb.highMask masked).symm

def SameElsewhere (q queue' : ListHead Obj → List Tid) (home : Nat) : Prop :=
  ∀ priority, priority ≠ home → (queue' (.ready priority) = [] ↔ q (.ready priority) = [])

namespace Bitmap

theorem congr (bitmap : Bitmap cfg group table q)
    (same : ∀ priority, (queue' (.ready priority) = [] ↔ q (.ready priority) = [])) :
    Bitmap cfg group table queue' := by
  refine ⟨?_, ?_, bitmap.readyGroup⟩
  · intro small priority inside
    rw [bitmap.oneLevel small priority inside, not_iff_not, same]
  · intro large priority inside
    rw [bitmap.readyTable large priority inside, not_iff_not, same]

def setTable (cfg : Config) (table : Nat → BitVec 8) (thread : Tcb) : Nat → BitVec 8 :=
  if 32 < cfg.priorityMax then
    Function.update table thread.number.toNat (table thread.number.toNat ||| thread.highMask)
  else table

theorem set (bitmap : Bitmap cfg group table q) (masked : thread.Masked cfg)
    (linked : queue' (.ready thread.currentPriority.toNat) ≠ [])
    (elsewhere : SameElsewhere q queue' thread.currentPriority.toNat) :
    Bitmap cfg (group ||| thread.numberMask) (setTable cfg table thread) queue' := by
  refine ⟨?_, ?_, ?_⟩
  · intro small priority inside
    rw [BitVec.getLsbD_or, masked.oneLevel small, getLsbD_one_shiftLeft inside]
    by_cases home : priority = thread.currentPriority.toNat
    · subst home
      simpa using linked
    · have before := bitmap.oneLevel small priority inside
      simpa [home, elsewhere priority home] using before
  · intro large priority inside
    obtain ⟨isNumber, -, isHigh⟩ := masked.twoLevel large
    have before := bitmap.readyTable large priority inside
    have inByte : priority % 8 < 8 := Nat.mod_lt _ (by decide)
    rw [setTable, if_pos large, isNumber, isHigh, Function.update_apply]
    by_cases home : priority = thread.currentPriority.toNat
    · subst home
      simpa [getLsbD_one_shiftLeft inByte] using linked
    · split
      · rename_i sameByte
        have otherBit : priority % 8 ≠ thread.currentPriority.toNat % 8 := by omega
        rw [BitVec.getLsbD_or, getLsbD_one_shiftLeft inByte]
        rw [sameByte] at before
        simpa [otherBit, elsewhere priority home] using before
      · simpa [elsewhere priority home] using before
  · intro large number inside
    obtain ⟨isNumber, isMask, isHigh⟩ := masked.twoLevel large
    have before := bitmap.readyGroup large number inside
    rw [BitVec.getLsbD_or, isMask, getLsbD_one_shiftLeft inside, setTable, if_pos large, isNumber,
      Function.update_apply]
    by_cases own : number = thread.currentPriority.toNat / 8
    · have nonzero : table (thread.currentPriority.toNat / 8) ||| thread.highMask ≠ 0 := by
        intro isZero
        have bit := congrArg (BitVec.getLsbD · (thread.currentPriority.toNat % 8)) isZero
        simp [isHigh, getLsbD_one_shiftLeft (Nat.mod_lt _ (by decide : 0 < 8))] at bit
      simpa [own] using nonzero
    · simpa [own] using before

def clearTable (cfg : Config) (table : Nat → BitVec 8) (thread : Tcb) : Nat → BitVec 8 :=
  if 32 < cfg.priorityMax then
    Function.update table thread.number.toNat (table thread.number.toNat &&& ~~~thread.highMask)
  else table

def clearGroup (cfg : Config) (group : BitVec 32) (table : Nat → BitVec 8) (thread : Tcb) :
    BitVec 32 :=
  if 32 < cfg.priorityMax ∧ clearTable cfg table thread thread.number.toNat ≠ 0 then group
  else group &&& ~~~thread.numberMask

theorem clear (bitmap : Bitmap cfg group table q) (masked : thread.Masked cfg)
    (unlinked : queue' (.ready thread.currentPriority.toNat) = [])
    (elsewhere : SameElsewhere q queue' thread.currentPriority.toNat) :
    Bitmap cfg (clearGroup cfg group table thread) (clearTable cfg table thread) queue' := by
  refine ⟨?_, ?_, ?_⟩
  · intro small priority inside
    rw [clearGroup, if_neg (by omega), BitVec.getLsbD_and, BitVec.getLsbD_not,
      masked.oneLevel small, getLsbD_one_shiftLeft inside]
    by_cases home : priority = thread.currentPriority.toNat
    · subst home
      simpa using unlinked
    · have before := bitmap.oneLevel small priority inside
      simpa [home, inside, elsewhere priority home] using before
  · intro large priority inside
    obtain ⟨isNumber, -, isHigh⟩ := masked.twoLevel large
    have before := bitmap.readyTable large priority inside
    have inByte : priority % 8 < 8 := Nat.mod_lt _ (by decide)
    rw [clearTable, if_pos large, isNumber, isHigh, Function.update_apply]
    by_cases home : priority = thread.currentPriority.toNat
    · subst home
      simpa using unlinked
    · split
      · rename_i sameByte
        have otherBit : priority % 8 ≠ thread.currentPriority.toNat % 8 := by omega
        rw [BitVec.getLsbD_and, BitVec.getLsbD_not, getLsbD_one_shiftLeft inByte]
        rw [sameByte] at before
        simpa [otherBit, inByte, elsewhere priority home] using before
      · simpa [elsewhere priority home] using before
  · intro large number inside
    obtain ⟨isNumber, isMask, isHigh⟩ := masked.twoLevel large
    have before := bitmap.readyGroup large number inside
    have cleared : ∀ other, clearTable cfg table thread other =
        if other = thread.currentPriority.toNat / 8 then
          table (thread.currentPriority.toNat / 8) &&& ~~~thread.highMask
        else table other := by
      intro other
      rw [clearTable, if_pos large, isNumber, Function.update_apply]
    have groupBit : (clearGroup cfg group table thread).getLsbD number =
        (group.getLsbD number && !(decide (number = thread.currentPriority.toNat / 8) &&
          decide (clearTable cfg table thread (thread.currentPriority.toNat / 8) = 0))) := by
      rw [clearGroup, isNumber]
      split
      · next others => simp only [decide_eq_false others.2, Bool.and_false, Bool.not_false,
          Bool.and_true]
      · rename_i none
        have isZero : clearTable cfg table thread (thread.currentPriority.toNat / 8) = 0 := by
          simpa [large] using none
        rw [BitVec.getLsbD_and, BitVec.getLsbD_not, isMask, getLsbD_one_shiftLeft inside]
        simp [isZero, inside]
    rw [groupBit]
    by_cases own : number = thread.currentPriority.toNat / 8
    · subst own
      have zero : table (thread.currentPriority.toNat / 8) = 0 →
          clearTable cfg table thread (thread.currentPriority.toNat / 8) = 0 := by
        intro isZero
        simp [cleared, isZero]
      cases bit : group.getLsbD (thread.currentPriority.toNat / 8) with
      | false =>
        have isZero : table (thread.currentPriority.toNat / 8) = 0 := by simpa [bit] using before
        simp [zero isZero]
      | true => simp
    · rw [show clearTable cfg table thread number = table number by rw [cleared, if_neg own]]
      simpa [own] using before

end Bitmap

section Operations

variable [DecidableEq Tid] [DecidableEq Obj] {s : State Tid Obj} {k : Kernel Tid Obj}
  {t : Tid}

def State.Bitmap (cfg : Config) (s : State Tid Obj) (q : ListHead Obj → List Tid) :
    Prop :=
  Scheduler.Bitmap cfg s.readyPriorityGroup s.readyTable q

theorem rtScheduleInsertThread_bits (cfg : Config) (s : State Tid Obj) (t : Tid) :
    (rtScheduleInsertThread cfg s t).readyPriorityGroup =
        s.readyPriorityGroup ||| (s.thread t).numberMask ∧
      (rtScheduleInsertThread cfg s t).readyTable =
        Bitmap.setTable cfg s.readyTable (s.thread t) := by
  simp only [rtScheduleInsertThread, Bitmap.setTable]
  split <;> exact ⟨rfl, rfl⟩

theorem rtScheduleRemoveThread_bits (cfg : Config) (s : State Tid Obj) (t : Tid) :
    (rtScheduleRemoveThread cfg s t).readyPriorityGroup =
        (if (s.unlink t).IsEmpty (s.thread t).home then
          Bitmap.clearGroup cfg s.readyPriorityGroup s.readyTable (s.thread t)
        else s.readyPriorityGroup) ∧
      (rtScheduleRemoveThread cfg s t).readyTable = (if (s.unlink t).IsEmpty (s.thread t).home then
          Bitmap.clearTable cfg s.readyTable (s.thread t) else s.readyTable) := by
  simp only [rtScheduleRemoveThread, Bitmap.clearGroup, Bitmap.clearTable]
  by_cases isEmpty : (s.unlink t).IsEmpty (s.thread t).home
  · by_cases large : 32 < cfg.priorityMax
    · by_cases isZero : s.readyTable (s.thread t).number.toNat &&&
        ~~~(s.thread t).highMask = 0#8 <;> simp [isEmpty, large, isZero]
    · simp [isEmpty, large]
  · simp [isEmpty]

theorem State.Bitmap.insertThread (bitmap : s.Bitmap cfg k.queue)
    (refines : Refines s k) (masked : (s.thread t).Masked cfg) :
    (rtScheduleInsertThread cfg s t).Bitmap cfg (k.rtScheduleInsertThread t).queue := by
  have priority := (refines.thread t).priority
  obtain ⟨group, table⟩ := rtScheduleInsertThread_bits cfg s t
  rw [State.Bitmap, group, table]
  apply Scheduler.Bitmap.set bitmap masked
  · simp [Kernel.rtScheduleInsertThread, priority]
  · intro other apart
    simp [Kernel.rtScheduleInsertThread, priority, apart]

theorem State.Bitmap.removeThread (bitmap : s.Bitmap cfg k.queue) (refines : Refines s k)
    (home : ∀ priority, t ∈ k.queue (.ready priority) →
      priority = (s.thread t).currentPriority.toNat) (masked : (s.thread t).Masked cfg ∨
      ((s.thread t).numberMask = 0 ∧ (s.thread t).highMask = 0 ∧
        ∀ priority, t ∉ k.queue (.ready priority))) :
    (rtScheduleRemoveThread cfg s t).Bitmap cfg (k.unlink t).queue := by
  obtain ⟨group, table⟩ := rtScheduleRemoveThread_bits cfg s t
  have isEmpty : (s.unlink t).IsEmpty (s.thread t).home ↔
      (k.unlink t).queue (s.thread t).home = [] :=
    (refines.unlink t).links.next_head_eq_iff _
  have elsewhere : SameElsewhere k.queue (k.unlink t).queue
      (s.thread t).currentPriority.toNat := by
    intro priority apart
    have outside : t ∉ k.queue (.ready priority) := fun linked => apart (home priority linked)
    rw [Kernel.unlink_queue, List.erase_of_not_mem outside]
  rw [State.Bitmap, group, table]
  rcases masked with masked | ⟨noNumber, noHigh, outside⟩
  · split
    · next empty => exact bitmap.clear masked (isEmpty.mp empty) elsewhere
    · rename_i linked
      apply Scheduler.Bitmap.congr bitmap
      intro priority
      by_cases own : priority = (s.thread t).currentPriority.toNat
      · subst own
        rw [isEmpty] at linked
        refine iff_of_false linked fun before => linked ?_
        rw [Kernel.unlink_queue, Tcb.home, before]
        rfl
      · exact elsewhere priority own
  · -- without masks no bit changes
    have sameTable : Scheduler.Bitmap.clearTable cfg s.readyTable (s.thread t) = s.readyTable := by
      rw [Scheduler.Bitmap.clearTable, noHigh, and_not_zero, Function.update_eq_self, ite_self]
    have sameGroup : Scheduler.Bitmap.clearGroup cfg s.readyPriorityGroup s.readyTable
        (s.thread t) = s.readyPriorityGroup := by
      rw [Scheduler.Bitmap.clearGroup, noNumber, and_not_zero, ite_self]
    rw [sameTable, sameGroup, ite_self, ite_self]
    apply Scheduler.Bitmap.congr bitmap
    intro priority
    rw [Kernel.unlink_queue, List.erase_of_not_mem (outside priority)]

end Operations

section Choice

variable {s : State Tid Obj}

theorem State.Bitmap.highestReadyPriority_eq (bitmap : s.Bitmap cfg q) {priority : Nat}
    (inTable : priority < cfg.priorityMax) (ready : q (.ready priority) ≠ [])
    (lower : ∀ other < priority, q (.ready other) = []) :
    highestReadyPriority cfg s = priority := by
  have limit := cfg.priorityMax_le
  rw [highestReadyPriority]
  split
  · rename_i large
    have bits := bitmap.readyTable large
    have group := bitmap.readyGroup large
    have isSet := (bits priority (by omega)).mpr ready
    have lowestGroup : IsLowestBit s.readyPriorityGroup (priority / 8) := by
      constructor
      · rw [group _ (by omega)]
        intro isZero
        simp [isZero] at isSet
      · intro number below
        have isZero : s.readyTable number = 0 := by
          apply BitVec.eq_of_getLsbD_eq
          intro p inside
          have bit := bits (8 * number + p) (by omega)
          rw [show (8 * number + p) / 8 = number by omega,
            show (8 * number + p) % 8 = p by omega] at bit
          have empty := lower (8 * number + p) (by omega)
          simpa [empty] using bit
        simpa [isZero] using group number (by omega)
    have lowestTable : IsLowestBit ((s.readyTable (priority / 8)).setWidth 32)
        (priority % 8) := by
      constructor
      · rw [BitVec.getLsbD_setWidth]
        simp [isSet]
        omega
      · intro p below
        have bit := bits (8 * (priority / 8) + p) (by omega)
        rw [show (8 * (priority / 8) + p) / 8 = priority / 8 by omega,
          show (8 * (priority / 8) + p) % 8 = p by omega] at bit
        have empty := lower (8 * (priority / 8) + p) (by omega)
        simp [empty] at bit
        simp [bit]
    have numberEq : Word32.sub (priority / 8 + 1) 1 = priority / 8 :=
      Word32.sub_eq (by omega) (by omega)
    simp only [rtFfs_eq lowestGroup, numberEq, rtFfs_eq lowestTable]
    rw [Word32.add_eq (by omega), Word32.sub_eq (by omega) (by omega)]
    omega
  · rename_i small
    have bits := bitmap.oneLevel (Nat.le_of_not_lt small)
    have lowest : IsLowestBit s.readyPriorityGroup priority := by
      constructor
      · exact (bits priority (by omega)).mpr ready
      · intro other below
        simpa [lower other below] using bits other (by omega)
    rw [rtFfs_eq lowest]
    exact Word32.sub_eq (by omega) (by omega)

theorem toThread_eq (bitmap : s.Bitmap cfg q) (rep : s.links.Represents q) {p : Nat}
    (inTable : p < cfg.priorityMax) (ready : q (.ready p) ≠ [])
    (lower : ∀ other < p, q (.ready other) = []) : toThread cfg s = (q (.ready p)).head? := by
  have chosen := bitmap.highestReadyPriority_eq inTable ready lower
  simp only [toThread, chosen, rep.next_head]
  cases list : q (.ready p) with
  | nil => exact absurd list ready
  | cons a rest => rfl

end Choice

end RtThread.Scheduler
