import RtThread.Scheduler.Invariant

/-!
# The calls keep the invariant

One lemma for each call: it names the kernel service that the call refines.
-/

namespace RtThread.Scheduler

open Option (ite_none_right_eq_some map_eq_some_iff bind_eq_some_iff)

universe u v

variable {cfg : Config} {Tid : Type u} {Obj : Type v} [DecidableEq Tid] [DecidableEq Obj]
  {s after : State Tid Obj} {k : Kernel Tid Obj} {t : Tid}

namespace Invariant

section

variable (inv : Invariant cfg s k)

include inv

omit [DecidableEq Tid] [DecidableEq Obj] in
theorem linked {p : Nat} (inList : t ∈ k.queue (.ready p)) :
    (k.thread t).currentPriority = p ∧ (s.thread t).Masked cfg := by
  obtain ⟨isReady, isPriority⟩ := (inv.wellFormed.ready t p).mp inList
  refine ⟨isPriority, (inv.sound t).ofReady (.inl ?_)⟩
  exact (inv.refines.stat_iff t .ready).mpr isReady

omit [DecidableEq Obj] in
theorem fresh_unlink (head : ListHead Obj) : t ∉ (k.unlink t).queue head := by
  rw [Kernel.unlink_queue, (inv.wellFormed.nodup head).mem_erase_iff]
  simp

omit [DecidableEq Tid] [DecidableEq Obj] in
theorem congr (links : after.links = s.links) (thread : after.thread = s.thread)
    (group : after.readyPriorityGroup = s.readyPriorityGroup)
    (table : after.readyTable = s.readyTable) : Invariant cfg after k :=
  { inv.toTracks.congr links thread group table with wellFormed := inv.wellFormed }

omit [DecidableEq Obj] in
theorem rtSchedule (scheduled : rtSchedule cfg s = some after) : Invariant cfg after k := by
  unfold Scheduler.rtSchedule at scheduled
  split at scheduled
  · rw [map_eq_some_iff] at scheduled
    obtain ⟨target, -, rfl⟩ := scheduled
    split
    · exact inv.congr rfl rfl rfl rfl
    · exact inv
  · cases scheduled
    exact inv

end

omit [DecidableEq Obj] in
theorem rtTimerStop (tracks : Tracks cfg s k)
    (stopped : rtTimerStop s t = some after) : Tracks cfg after k := by
  obtain ⟨-, ⟨⟩⟩ := ite_none_right_eq_some.mp stopped
  have agrees := tracks.refines.thread t
  apply tracks.setTcb
  · exact ⟨agrees.stat, agrees.priority, agrees.initPriority, agrees.error⟩
  · exact (tracks.sound t).congr rfl rfl rfl rfl rfl (.inl rfl)

section

variable (inv : Invariant cfg s k)

include inv

theorem rtThreadSuspend {r : RtErr} (suspended : rtThreadSuspend cfg s t = some (after, r)) :
    Invariant cfg after (k.rtThreadSuspend t) := by
  refine { (?_ : Tracks cfg after (k.rtThreadSuspend t)) with
    wellFormed := inv.wellFormed.rtThreadSuspend t }
  have isReady := inv.refines.stat_iff t .ready
  simp only [Scheduler.rtThreadSuspend] at suspended
  obtain ⟨-, suspended⟩ := ite_none_right_eq_some.mp suspended
  split at suspended
  · rename_i notReady
    obtain ⟨rfl, -⟩ := suspended
    have refused : (k.thread t).stat ≠ .ready := fun ready => notReady (isReady.mpr ready)
    rw [Kernel.rtThreadSuspend, if_pos refused]
    exact inv.toTracks
  · rename_i ready
    rw [map_eq_some_iff] at suspended
    obtain ⟨stopped, stops, isAfter⟩ := suspended
    obtain ⟨rfl, -⟩ := Prod.mk.inj isAfter
    have ready := not_not.mp ready
    have agrees := inv.refines.thread t
    have masked := (inv.sound t).ofReady (.inl ready)
    rw [Kernel.rtThreadSuspend, if_neg (not_not.mpr (isReady.mp ready))]
    have marked := inv.toTracks.setThread t
      { s.thread t with
        stat := threadSuspend ||| ((s.thread t).stat &&& ~~~threadStatMask) }
      { k.thread t with stat := .suspend, timer := false }
      ⟨masked_or .suspend _, agrees.priority, agrees.initPriority, agrees.error⟩
      ((inv.sound t).congr rfl rfl rfl rfl rfl (.inr (.inl masked)))
    apply rtTimerStop (marked.removeThread ?_) stops
    intro p inList
    obtain ⟨isPriority, -⟩ := inv.linked inList
    simp only [Kernel.setThread_thread, State.setThread_thread]
    exact ⟨isPriority, masked.congr rfl rfl rfl rfl⟩

omit [DecidableEq Tid] [DecidableEq Obj] in
theorem not_ready (notReady : (k.thread t).stat ≠ .ready) (p : Nat) : t ∉ k.queue (.ready p) :=
  fun inList => notReady ((inv.wellFormed.ready t p).mp inList).1

omit [DecidableEq Tid] [DecidableEq Obj] in
theorem unlisted (notReady : (k.thread t).stat ≠ .ready)
    (notSuspended : (k.thread t).stat ≠ .suspend) (notClosed : (k.thread t).stat ≠ .close)
    (head : ListHead Obj) : t ∉ k.queue head := by
  cases head with
  | ready p => exact inv.not_ready notReady p
  | wait list => exact fun inList => notSuspended (inv.wellFormed.waiting t list inList)
  | defunct => exact fun inList => notClosed (inv.wellFormed.defunct t inList)

theorem rtThreadResume {r : RtErr} (resumed : rtThreadResume cfg s t = some (after, r)) :
    Invariant cfg after (k.rtThreadResume t) := by
  refine { (?_ : Tracks cfg after (k.rtThreadResume t)) with
    wellFormed := inv.wellFormed.rtThreadResume t }
  have isSuspended := inv.refines.stat_iff t .suspend
  obtain ⟨-, resumed⟩ := ite_none_right_eq_some.mp resumed
  split at resumed
  · rename_i notSuspended
    obtain ⟨rfl, -⟩ := resumed
    have refused : (k.thread t).stat ≠ .suspend := fun suspended =>
      notSuspended (isSuspended.mpr suspended)
    rw [Kernel.rtThreadResume, if_pos refused]
    exact inv.toTracks
  · rename_i suspended
    rw [map_eq_some_iff] at resumed
    obtain ⟨stopped, stops, isAfter⟩ := resumed
    obtain ⟨rfl, -⟩ := Prod.mk.inj isAfter
    have suspended := not_not.mp suspended
    have stat := isSuspended.mp suspended
    have masked := (inv.sound t).ofReady (.inr suspended)
    have outside := inv.not_ready (t := t) (by simp [stat])
    rw [Kernel.rtThreadResume, if_neg (not_not.mpr stat)]
    obtain ⟨-, ⟨⟩⟩ := ite_none_right_eq_some.mp stops
    have agrees := inv.refines.thread t
    have unlinked := (inv.toTracks.unlink outside).setThread t
      { (s.unlink t).thread t with timerActivated := false }
      { k.thread t with timer := false }
      ⟨agrees.stat, agrees.priority, agrees.initPriority, agrees.error⟩
      ((inv.sound t).congr rfl rfl rfl rfl rfl (.inl rfl))
    apply unlinked.insertThread
    · exact fun head => inv.fresh_unlink head
    · rw [State.setThread_thread, if_pos rfl]
      exact masked.congr rfl rfl rfl rfl

end

def startup (k : Kernel Tid Obj) (t : Tid) : Kernel Tid Obj :=
  (k.setThread t { k.thread t with
    stat := .suspend
    currentPriority := (k.thread t).initPriority }).rtThreadResume t

section

variable (inv : Invariant cfg s k)

include inv

theorem rtThreadStartup (started : rtThreadStartup cfg s t = some after) :
    Invariant cfg after (startup k t) := by
  simp only [Scheduler.rtThreadStartup] at started
  obtain ⟨admitted, started⟩ := ite_none_right_eq_some.mp started
  rw [bind_eq_some_iff] at started
  obtain ⟨⟨resumed, r⟩, resumes, started⟩ := started
  have agrees := inv.refines.thread t
  have isInit := (inv.refines.stat_iff t .init).mp admitted.1
  have suspended : Invariant cfg
      (s.setThread t { priorityAttribute cfg
        { s.thread t with currentPriority := (s.thread t).initPriority } with
          stat := threadSuspend })
      (k.setThread t { k.thread t with
        stat := .suspend
        currentPriority := (k.thread t).initPriority }) := by
    have calculated := agrees.priorityAttribute cfg (s.thread t).initPriority
    rw [← agrees.initPriority] at calculated
    have sound := (inv.sound t).priorityAttribute (s.thread t).initPriority
    have masked := masked_priorityAttribute cfg
      { s.thread t with currentPriority := (s.thread t).initPriority }
    have tracks := inv.toTracks.setThread t
      { priorityAttribute cfg
        { s.thread t with currentPriority := (s.thread t).initPriority } with
          stat := threadSuspend }
      { k.thread t with
        stat := .suspend
        currentPriority := (k.thread t).initPriority }
      ⟨masked_statBits .suspend, calculated.priority, calculated.initPriority, calculated.error⟩
      (sound.congr rfl rfl rfl rfl rfl (.inr (.inl masked)))
    refine { tracks with wellFormed := ?_ }
    apply inv.wellFormed.move t none
    · intro other apart
      simp [apart]
    · intro other head
      have outside : ∀ head, t ∉ k.queue head := inv.unlisted (by simp [isInit])
        (by simp [isInit]) (by simp [isInit])
      simp only [Kernel.setThread_queue]
      grind
    · exact inv.wellFormed.nodup
    · simp
    · simp
    · simp
  have invariant' := suspended.rtThreadResume resumes
  split at started
  · exact invariant'.rtSchedule started
  · cases started
    exact invariant'

theorem rtThreadTimeout (expired : rtThreadTimeout cfg s t = some after) :
    Invariant cfg after (k.rtThreadTimeout t) := by
  obtain ⟨admitted, expired⟩ := ite_none_right_eq_some.mp expired
  have agrees := inv.refines.thread t
  have stat := (inv.refines.stat_iff t .suspend).mp admitted.1
  have masked := (inv.sound t).ofReady (.inr admitted.1)
  have outside := inv.not_ready (t := t) (by simp [stat])
  have marked := inv.toTracks.setThread t
    { s.thread t with error := .etimeout }
    { k.thread t with error := .etimeout, timer := false }
    ⟨agrees.stat, agrees.priority, agrees.initPriority, rfl⟩
    ((inv.sound t).congr rfl rfl rfl rfl rfl (.inl rfl))
  have inserted := (marked.unlink (t := t) outside).insertThread (t := t)
    (fun head => inv.fresh_unlink head) (by
      rw [State.unlink_thread, State.setThread_thread, if_pos rfl]
      exact masked.congr rfl rfl rfl rfl)
  have invariant' : Invariant cfg _ (k.rtThreadTimeout t) :=
    { inserted with wellFormed := inv.wellFormed.rtThreadTimeout t }
  exact invariant'.rtSchedule expired

theorem changePriority {p : BitVec 8} (changed : changePriority cfg s t p = some after) :
    Invariant cfg after (k.changePriority t p.toNat) := by
  refine { (?_ : Tracks cfg after (k.changePriority t p.toNat)) with
    wellFormed := inv.wellFormed.changePriority t p.toNat }
  have agrees := inv.refines.thread t
  simp only [Scheduler.changePriority] at changed
  obtain ⟨-, changed⟩ := ite_none_right_eq_some.mp changed
  split at changed
  · rename_i ready
    cases changed
    have stat := (inv.refines.stat_iff t .ready).mp ready
    rw [Kernel.changePriority, if_pos stat]
    have removed := inv.toTracks.removeThread (t := t) fun _ => inv.linked
    have changed := removed.setThread t
      (priorityAttribute cfg
        { (rtScheduleRemoveThread cfg s t).thread t with currentPriority := p })
      { k.thread t with currentPriority := p.toNat }
      (by simpa using agrees.priorityAttribute cfg p)
      (by simpa using (inv.sound t).priorityAttribute p)
    apply changed.insertThread
    · exact fun head => inv.fresh_unlink head
    · rw [State.setThread_thread, if_pos rfl]
      exact masked_priorityAttribute cfg _
  · rename_i notReady
    cases changed
    have stat : (k.thread t).stat ≠ .ready := fun isReady =>
      notReady ((inv.refines.stat_iff t .ready).mpr isReady)
    rw [Kernel.changePriority, if_neg stat]
    apply inv.toTracks.setThread
    · exact agrees.priorityAttribute cfg p
    · exact (inv.sound t).priorityAttribute p

theorem rtThreadYield (yielded : rtThreadYield cfg s = some after) :
    ∃ kernel', Invariant cfg after kernel' ∧ kernel'.thread = k.thread := by
  simp only [Scheduler.rtThreadYield, bind_eq_some_iff] at yielded
  obtain ⟨t, -, yielded⟩ := yielded
  split at yielded
  · rename_i ready
    have agrees := inv.refines.thread t
    have stat := (inv.refines.stat_iff t .ready).mp ready.1
    have home : ((s.thread t).home : ListHead Obj) = .ready (k.thread t).currentPriority := by
      rw [Tcb.home, agrees.priority]
    rw [home] at yielded
    have sameThread : (((k.setThread t (k.thread t)).unlink
        t).rtScheduleInsertThread t).thread = k.thread := by
      funext other
      by_cases same : other = t
      · subst same
        simp [← stat]
      · simp [same]
    have moved : Invariant cfg
        ((s.unlink t).insertBefore (.ready (k.thread t).currentPriority) t)
        (((k.setThread t (k.thread t)).unlink t).rtScheduleInsertThread t) := by
      refine { refines := ⟨?_, ?_⟩, bitmap := ?_, sound := inv.sound,
               wellFormed := inv.wellFormed.insertReady }
      · have relinked := (inv.refines.unlink t).insertBefore
          (.ready (k.thread t).currentPriority) fun head => inv.fresh_unlink head
        have sameQueue : (((k.setThread t (k.thread t)).unlink
            t).rtScheduleInsertThread t).queue = ((k.unlink t).setQueue
              (.ready (k.thread t).currentPriority)
              ((k.unlink t).queue (.ready (k.thread t).currentPriority) ++ [t])).queue := by
          simp [Kernel.rtScheduleInsertThread, Kernel.setQueue, Kernel.setThread]
        rw [sameQueue]
        exact relinked.links
      · rw [sameThread]
        exact inv.refines.thread
      · apply Bitmap.congr inv.bitmap
        intro p
        have inList := (inv.wellFormed.ready t (k.thread t).currentPriority).mpr
          ⟨stat, rfl⟩
        by_cases own : p = (k.thread t).currentPriority
        · subst own
          simp [Kernel.rtScheduleInsertThread, List.ne_nil_of_mem inList]
        · have outside : t ∉ k.queue (.ready p) := fun inOther =>
            own ((inv.wellFormed.ready t p).mp inOther).2.symm
          simp [Kernel.rtScheduleInsertThread, own, List.erase_of_not_mem outside]
    exact ⟨_, moved.rtSchedule yielded, sameThread⟩
  · cases yielded
    exact ⟨k, inv, rfl⟩

end

def closed (k : Kernel Tid Obj) (t : Tid) : Kernel Tid Obj :=
  (k.unlink t).setThread t { k.thread t with stat := .close }

def defunct (k : Kernel Tid Obj) (t : Tid) : Kernel Tid Obj :=
  (closed k t).setQueue .defunct (t :: (closed k t).queue .defunct)

omit [DecidableEq Obj] in
theorem closed_thread (k : Kernel Tid Obj) (t other : Tid) : (closed k t).thread other =
      if other = t then { k.thread t with stat := .close } else k.thread other := by
  simp [closed]

omit [DecidableEq Obj] in
theorem closed_wellFormed (wf : k.WellFormed) : (closed k t).WellFormed := by
  apply wf.move t none
  · intro other apart
    simp [closed_thread, apart]
  · intro other head
    simp [closed, wf.mem_erase]
  · intro head
    simpa [closed] using (wf.nodup head).erase t
  · simp [closed_thread]
  · simp
  · simp

theorem defunct_wellFormed (wf : k.WellFormed) : (defunct k t).WellFormed := by
  apply wf.move t (some .defunct)
  · intro other apart
    simp [defunct, closed_thread, apart]
  · intro other head
    by_cases home : head = .defunct
    · subst home
      simp [defunct, closed, wf.mem_erase]
    · simp [defunct, closed, wf.mem_erase, home, Ne.symm home]
  · intro head
    by_cases home : head = .defunct
    · subst home
      simp [defunct, closed, wf.mem_erase, (wf.nodup _).erase t]
    · simpa [defunct, closed, home] using (wf.nodup head).erase t
  · simp [defunct, closed_thread]
  · simp
  · simp [defunct, closed_thread]

end Invariant

def Closes (cfg : Config) (k : Kernel Tid Obj) (t : Tid) (after : State Tid Obj) : Prop :=
  ∃ kernel', Invariant cfg after kernel' ∧ kernel'.thread = (Invariant.closed k t).thread

namespace Tracks

omit [DecidableEq Obj] in
theorem timerDetach (tracks : Tracks cfg s k)
    (detached : rtTimerDetach s t = some after) : Tracks cfg after k := by
  obtain ⟨-, ⟨⟩⟩ := ite_none_right_eq_some.mp detached
  have agrees := tracks.refines.thread t
  apply tracks.setTcb
  · exact ⟨agrees.stat, agrees.priority, agrees.initPriority, agrees.error⟩
  · exact (tracks.sound t).congr rfl rfl rfl rfl rfl (.inl rfl)

omit [DecidableEq Obj] in
theorem setClosed (tracks : Tracks cfg s (k.unlink t)) :
    Tracks cfg (s.setThread t { s.thread t with stat := threadClose }) (Invariant.closed k t) := by
  have agrees := tracks.refines.thread t
  apply tracks.setThread
  · exact ⟨masked_statBits .close, agrees.priority, agrees.initPriority, agrees.error⟩
  · exact (tracks.sound t).congr rfl rfl rfl rfl rfl (.inr (.inr (masked_statBits .close)))

theorem insertDefunct (tracks : Tracks cfg s (Invariant.closed k t))
    (wellFormed : k.WellFormed) : Closes cfg k t (s.insertAfter .defunct t) := by
  have fresh : ∀ head, t ∉ (Invariant.closed k t).queue head := by
    intro head
    simp [Invariant.closed, wellFormed.mem_erase]
  refine ⟨Invariant.defunct k t, ?_, rfl⟩
  have linked := tracks.setQueue (by simp) (tracks.refines.insertAfter .defunct fresh) rfl rfl rfl
  exact { linked with wellFormed := Invariant.defunct_wellFormed wellFormed }

theorem dispose (tracks : Tracks cfg s (Invariant.closed k t))
    (wellFormed : k.WellFormed) : Closes cfg k t (dispose s t) := by
  simp only [Scheduler.dispose]
  split
  · have agrees := tracks.refines.thread t
    have detached := tracks.setTcb t { s.thread t with type := 0 }
      ⟨agrees.stat, agrees.priority, agrees.initPriority, agrees.error⟩
      ((tracks.sound t).congr rfl rfl rfl rfl rfl (.inl rfl))
    exact ⟨_, { detached with wellFormed := Invariant.closed_wellFormed wellFormed }, rfl⟩
  · exact tracks.insertDefunct wellFormed

end Tracks

namespace Invariant

section

variable (inv : Invariant cfg s k)

include inv

theorem close (closing : close cfg s t = some after) : Tracks cfg after (closed k t) := by
  simp only [Scheduler.close, map_eq_some_iff] at closing
  obtain ⟨detached, detach, rfl⟩ := closing
  have removed : Tracks cfg (if (s.thread t).maskedStat ≠ threadInit then
      rtScheduleRemoveThread cfg s t else s) (k.unlink t) := by
    split
    · exact inv.toTracks.removeThread fun _ => inv.linked
    · rename_i isInit
      have stat := (inv.refines.stat_iff t .init).mp (not_not.mp isInit)
      have outside := inv.unlisted (t := t) (by simp [stat]) (by simp [stat])
        (by simp [stat])
      have same : k.unlink t = k := by simp [Kernel.unlink, List.erase_of_not_mem (outside _)]
      rw [same]
      exact inv.toTracks
  exact (removed.timerDetach detach).setClosed

theorem rtThreadDetach (detached : rtThreadDetach cfg s t = some after) : Closes cfg k t after := by
  obtain ⟨-, detached⟩ := ite_none_right_eq_some.mp detached
  rw [map_eq_some_iff] at detached
  obtain ⟨closing, closes, rfl⟩ := detached
  exact (inv.close closes).dispose inv.wellFormed

theorem rtThreadDelete (deleted : rtThreadDelete cfg s t = some after) : Closes cfg k t after := by
  obtain ⟨-, deleted⟩ := ite_none_right_eq_some.mp deleted
  rw [map_eq_some_iff] at deleted
  obtain ⟨closing, closes, rfl⟩ := deleted
  exact (inv.close closes).insertDefunct inv.wellFormed

theorem rtThreadExit (exited : rtThreadExit cfg s = some after) : ∃ t, Closes cfg k t after := by
  simp only [Scheduler.rtThreadExit, bind_eq_some_iff] at exited
  obtain ⟨t, -, detached, detach, exited⟩ := exited
  have removed := inv.toTracks.removeThread (t := t) fun _ => inv.linked
  have tracks := removed.setClosed.timerDetach detach
  obtain ⟨kernel', invariant', thread⟩ := tracks.dispose inv.wellFormed
  exact ⟨t, kernel', invariant'.rtSchedule exited, thread⟩

theorem rtIpcListSuspend {list : Obj} (ready : (s.thread t).maskedStat = threadReady)
    (suspended : rtIpcListSuspend cfg s list t = some after) :
    Invariant cfg after (k.rtIpcListSuspend list t .fifo) := by
  simp only [Scheduler.rtIpcListSuspend, map_eq_some_iff] at suspended
  obtain ⟨⟨middle, r⟩, suspends, rfl⟩ := suspended
  have stat := (inv.refines.stat_iff t .ready).mp ready
  have invariant' := inv.rtThreadSuspend suspends
  have fresh : ∀ head, t ∉ (k.rtThreadSuspend t).queue head := by
    intro head
    simp [Kernel.rtThreadSuspend, stat, inv.wellFormed.mem_erase]
  have linked := invariant'.toTracks.setQueue (by simp)
    (invariant'.refines.insertBefore (.wait list) fresh) rfl rfl rfl
  exact { linked with wellFormed := inv.wellFormed.rtIpcListSuspend stat list .fifo }

omit [DecidableEq Obj] in
theorem rtExitCritical (exited : rtExitCritical cfg s = some after) : Invariant cfg after k := by
  simp only [Scheduler.rtExitCritical] at exited
  split at exited
  · have unlocked : Invariant cfg { s with schedulerLockNest := 0 } k := inv.congr rfl rfl rfl rfl
    split at exited
    · exact unlocked.rtSchedule exited
    · cases exited
      exact unlocked
  · cases exited
    exact inv.congr rfl rfl rfl rfl

omit [DecidableEq Obj] in
theorem rtTimerStart (started : rtTimerStart s t = some after) : Invariant cfg after k := by
  obtain ⟨-, ⟨⟩⟩ := ite_none_right_eq_some.mp started
  have agrees := inv.refines.thread t
  have changed := inv.toTracks.setTcb t { s.thread t with timerActivated := true }
    ⟨agrees.stat, agrees.priority, agrees.initPriority, agrees.error⟩
    ((inv.sound t).congr rfl rfl rfl rfl rfl (.inl rfl))
  exact { changed with wellFormed := inv.wellFormed }

end

end Invariant

end RtThread.Scheduler
