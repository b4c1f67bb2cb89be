import RtThread.Scheduler.Bitmap

/-!
# The invariant of the scheduler

The links hold the lists of a well-formed kernel, the bitmap stands for its priority lists, and
the masks of every thread that can become ready belong to its priority.
-/

namespace RtThread.Scheduler

universe u v

variable {cfg : Config}

theorem masked_iff {thread : Tcb} : thread.Masked cfg ↔ if 32 < cfg.priorityMax then
      thread.number = thread.currentPriority >>> 3 ∧
        thread.numberMask = 1#32 <<< (thread.currentPriority >>> 3).toNat ∧
        thread.highMask = 1#8 <<< (thread.currentPriority &&& 0x07).toNat
    else thread.numberMask = 1#32 <<< thread.currentPriority.toNat := by
  cases thread
  rw [Tcb.Masked, priorityAttribute]
  split
  · simp only [Tcb.mk.injEq]
    grind
  · simp only [Tcb.mk.injEq]
    grind

theorem Tcb.Masked.congr {thread other : Tcb} (masked : thread.Masked cfg)
    (currentPriority : other.currentPriority = thread.currentPriority)
    (number : other.number = thread.number) (numberMask : other.numberMask = thread.numberMask)
    (highMask : other.highMask = thread.highMask) : other.Masked cfg := by
  rw [masked_iff] at masked ⊢
  rw [currentPriority, number, numberMask, highMask]
  exact masked

/-- A thread has its masks, or has never been started up and is not ready. -/
structure Tcb.Sound (cfg : Config) (thread : Tcb) : Prop where
  masked : thread.Masked cfg ∨ (thread.numberMask = 0 ∧ thread.highMask = 0 ∧
    (thread.maskedStat = threadInit ∨ thread.maskedStat = threadClose))
  initPriority : thread.initPriority.toNat < cfg.priorityMax

theorem Tcb.Sound.congr {thread other : Tcb} (inv : thread.Sound cfg)
    (currentPriority : other.currentPriority = thread.currentPriority)
    (number : other.number = thread.number) (numberMask : other.numberMask = thread.numberMask)
    (highMask : other.highMask = thread.highMask)
    (initPriority : other.initPriority = thread.initPriority)
    (stat : other.maskedStat = thread.maskedStat ∨ thread.Masked cfg ∨
      other.maskedStat = threadClose) : other.Sound cfg := by
  refine ⟨?_, ?_⟩
  · rw [numberMask, highMask]
    have kept : thread.Masked cfg → other.Masked cfg := fun masked =>
      masked.congr currentPriority number numberMask highMask
    rcases inv.masked with masked | ⟨noNumber, noHigh, isStat⟩
    · exact .inl (kept masked)
    · rcases stat with sameStat | masked | closed
      · rw [sameStat]
        exact .inr ⟨noNumber, noHigh, isStat⟩
      · exact .inl (kept masked)
      · exact .inr ⟨noNumber, noHigh, .inr closed⟩
  · rw [initPriority]
    exact inv.initPriority

theorem Tcb.Sound.ofReady {thread : Tcb} (inv : thread.Sound cfg)
    (stat : thread.maskedStat = threadReady ∨ thread.maskedStat = threadSuspend) :
    thread.Masked cfg := by
  rcases inv.masked with masked | ⟨-, -, isStat⟩
  · exact masked
  · rcases stat with isReady | isSuspended <;> rcases isStat with isInit | isClosed <;>
      simp_all [threadReady, threadSuspend, threadInit, threadClose]

theorem priorityAttribute_frame (cfg : Config) (thread : Tcb) :
    (priorityAttribute cfg thread).stat = thread.stat ∧
      (priorityAttribute cfg thread).currentPriority = thread.currentPriority ∧
      (priorityAttribute cfg thread).initPriority = thread.initPriority ∧
      (priorityAttribute cfg thread).error = thread.error := by
  unfold priorityAttribute
  split <;> exact ⟨rfl, rfl, rfl, rfl⟩

theorem Tcb.Sound.priorityAttribute {thread : Tcb} (inv : thread.Sound cfg) (p : BitVec 8) :
    (priorityAttribute cfg { thread with currentPriority := p }).Sound cfg := by
  refine ⟨.inl (masked_priorityAttribute cfg _), ?_⟩
  rw [(priorityAttribute_frame cfg _).2.2.1]
  exact inv.initPriority

theorem Tcb.Agrees.priorityAttribute {tcb : Tcb} {thread : Thread} (agrees : tcb.Agrees thread)
    (cfg : Config) (p : BitVec 8) : (priorityAttribute cfg { tcb with currentPriority := p }).Agrees
      { thread with currentPriority := p.toNat } := by
  obtain ⟨stat, currentPriority, initPriority, error⟩ :=
    priorityAttribute_frame cfg { tcb with currentPriority := p }
  refine ⟨?_, ?_, ?_, ?_⟩
  · rw [Tcb.maskedStat, stat]
    exact agrees.stat
  · rw [currentPriority]
  · rw [initPriority]
    exact agrees.initPriority
  · rw [error]
    exact agrees.error

variable {Tid : Type u} {Obj : Type v} [DecidableEq Tid] [DecidableEq Obj]
  {s after : State Tid Obj} {k : Kernel Tid Obj} {t : Tid}

structure Tracks (cfg : Config) (s : State Tid Obj) (k : Kernel Tid Obj) : Prop where
  refines : Refines s k
  bitmap : s.Bitmap cfg k.queue
  sound : ∀ t, (s.thread t).Sound cfg

namespace Tracks

section

variable (tracks : Tracks cfg s k)

include tracks

omit [DecidableEq Tid] [DecidableEq Obj] in
theorem congr (links : after.links = s.links) (thread : after.thread = s.thread)
    (group : after.readyPriorityGroup = s.readyPriorityGroup)
    (table : after.readyTable = s.readyTable) : Tracks cfg after k := by
  refine ⟨tracks.refines.congr links thread, ?_, ?_⟩
  · rw [State.Bitmap, group, table]
    exact tracks.bitmap
  · rw [thread]
    exact tracks.sound

omit [DecidableEq Obj] in
theorem setThread (t : Tid) (tcb : Tcb) (thread : Thread) (agrees : tcb.Agrees thread)
    (inv : tcb.Sound cfg) : Tracks cfg (s.setThread t tcb) (k.setThread t thread) := by
  refine ⟨tracks.refines.setThread agrees, tracks.bitmap, ?_⟩
  intro other
  rw [State.setThread_thread]
  split
  · exact inv
  · exact tracks.sound other

omit [DecidableEq Obj] in
theorem setTcb (t : Tid) (tcb : Tcb) (agrees : tcb.Agrees (k.thread t)) (inv : tcb.Sound cfg) :
    Tracks cfg (s.setThread t tcb) k := by
  have same : k.setThread t (k.thread t) = k := by simp [Kernel.setThread]
  have changed := tracks.setThread t tcb _ agrees inv
  rwa [same] at changed

theorem removeThread
    (ready : ∀ p, t ∈ k.queue (.ready p) → (k.thread t).currentPriority = p ∧
      (s.thread t).Masked cfg) : Tracks cfg (rtScheduleRemoveThread cfg s t) (k.unlink t) := by
  refine ⟨tracks.refines.rtScheduleRemoveThread t, ?_, ?_⟩
  · apply tracks.bitmap.removeThread tracks.refines
    · intro p linked
      rw [← (tracks.refines.thread t).priority]
      exact (ready p linked).1.symm
    · rcases (tracks.sound t).masked with masked | ⟨noNumber, noHigh, -⟩
      · exact .inl masked
      · by_cases linked : ∃ p, t ∈ k.queue (.ready p)
        · obtain ⟨p, linked⟩ := linked
          exact .inl (ready p linked).2
        · exact .inr ⟨noNumber, noHigh, fun p inList => linked ⟨p, inList⟩⟩
  · rw [rtScheduleRemoveThread_thread]
    exact tracks.sound

theorem insertThread (fresh : ∀ head, t ∉ k.queue head) (masked : (s.thread t).Masked cfg) :
    Tracks cfg (rtScheduleInsertThread cfg s t) (k.rtScheduleInsertThread t) := by
  refine ⟨tracks.refines.rtScheduleInsertThread fresh,
    tracks.bitmap.insertThread tracks.refines masked, ?_⟩
  intro other
  rw [rtScheduleInsertThread_thread, Function.update_apply]
  split
  · exact (tracks.sound t).congr rfl rfl rfl rfl rfl (.inr (.inl masked))
  · exact tracks.sound other

theorem unlink (outside : ∀ priority, t ∉ k.queue (.ready priority)) :
    Tracks cfg (s.unlink t) (k.unlink t) := by
  refine ⟨tracks.refines.unlink t, ?_, tracks.sound⟩
  apply Bitmap.congr tracks.bitmap
  intro priority
  rw [Kernel.unlink_queue, List.erase_of_not_mem (outside priority)]

omit [DecidableEq Tid] in
theorem setQueue {head : ListHead Obj} {threads : List Tid}
    (notReady : ∀ priority, head ≠ .ready priority)
    (refines : Refines after (k.setQueue head threads)) (thread : after.thread = s.thread)
    (group : after.readyPriorityGroup = s.readyPriorityGroup)
    (table : after.readyTable = s.readyTable) : Tracks cfg after (k.setQueue head threads) := by
  refine ⟨refines, ?_, ?_⟩
  · rw [State.Bitmap, group, table]
    apply Bitmap.congr tracks.bitmap
    intro priority
    rw [Kernel.setQueue_queue, if_neg (notReady priority).symm]
  · rw [thread]
    exact tracks.sound

end

end Tracks

structure Invariant (cfg : Config) (s : State Tid Obj) (k : Kernel Tid Obj) : Prop
    extends Tracks cfg s k where
  wellFormed : k.WellFormed

end RtThread.Scheduler
