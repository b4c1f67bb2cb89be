import RtThread.Library.Ownership
import RtThread.Vbus.PrioQueueLists

/-!
# The blocks of the priority queue

Every block of the pool is free, or an item that is queued, or in the hands of one call.
-/

open Function (update update_of_ne update_self update_eq_self)

namespace RtThread.PrioQueue

open MemPool

universe u

inductive Home (Tid : Type u) where
  | free
  | queued
  | held (t : Tid)

def Call.holds : Call → Option Nat
  | .filling _ _ item | .linking _ _ item | .copying item _ | .freeing item => some item
  | _ => none

def IsItem (pool : RtMempool) (address : Nat) : Prop :=
  ∃ k < pool.blockTotalCount,
    address = pool.startAddress + k * Word32.add pool.blockSize pointerSize + pointerSize

def freeNext (header : Nat → Header) (b : Nat) : Option Nat :=
  match header b with
  | .next rest => rest
  | .pool => none

variable {Tid : Type u}

def isAt (free : List Nat) (queued : List Item) (holds : Tid → Option Nat) :
    Home Tid → Nat → Prop
  | .free, address => address ∈ free.map (· + pointerSize)
  | .queued, address => ∃ item ∈ queued, item.item = address
  | .held t, address => holds t = some address

structure Blocks (pool : RtMempool) (queued : List Item) (holds : Tid → Option Nat)
    (free : List Nat) : Prop where
  chain : Chain (freeNext pool.header) pool.blockList free
  nodup : free.Nodup
  count : pool.blockFreeCount = free.length
  homed : Homed (IsItem pool) (isAt free queued holds)

def Conserved (pool : RtMempool) (queued : List Item) (holds : Tid → Option Nat) : Prop :=
  ∃ free, Blocks pool queued holds free

section Moves

variable {pool after : RtMempool} {queued : List Item} {holds : Tid → Option Nat} {t : Tid}
  {address : Nat}

section

variable (conserved : Conserved pool queued holds)

include conserved

theorem Conserved.congr (header : after.header = pool.header)
    (blockList : after.blockList = pool.blockList)
    (count : after.blockFreeCount = pool.blockFreeCount)
    (total : after.blockTotalCount = pool.blockTotalCount)
    (start : after.startAddress = pool.startAddress) (size : after.blockSize = pool.blockSize) :
    Conserved after queued holds := by
  obtain ⟨free, blocks⟩ := conserved
  have sameItems : IsItem after = IsItem pool := by
    funext address
    simp only [IsItem, total, start, size]
  refine ⟨free, ?_, blocks.nodup, count.trans blocks.count, sameItems ▸ blocks.homed⟩
  rw [header, blockList]
  exact blocks.chain

theorem Conserved.held_unique {other : Tid} (held : holds t = some address)
    (alsoHeld : holds other = some address) : t = other := by
  obtain ⟨free, blocks⟩ := conserved
  have isHeld : isAt free queued holds (.held t) address := held
  have isAlsoHeld : isAt free queued holds (.held other) address := alsoHeld
  simpa using blocks.homed.unique isHeld isAlsoHeld

theorem Conserved.not_queued (held : holds t = some address) : ∀ x ∈ queued, x.item ≠ address := by
  obtain ⟨free, blocks⟩ := conserved
  have isHeld : isAt free queued holds (.held t) address := held
  intro x inQueue isItem
  have isQueued : isAt free queued holds .queued address := ⟨x, inQueue, isItem⟩
  simpa using blocks.homed.unique isQueued isHeld

end

variable [DecidableEq Tid]

theorem update_some_iff {taken : Nat} (idle : holds t = none) (notHeld : ∀ u, holds u ≠ some taken)
    (u : Tid) : update holds t (some taken) u = some address ↔
      (address ≠ taken ∧ holds u = some address) ∨ (address = taken ∧ u = t) := by
  by_cases isThread : u = t
  · subst isThread
    simp [idle, eq_comm]
  · by_cases same : address = taken
    · subst same
      simp [isThread, notHeld u]
    · simp [isThread, same]

theorem update_none_iff {given : Nat} (held : holds t = some given)
    (notHeld : ∀ u, u ≠ t → holds u ≠ some given) (u : Tid) :
    update holds t none u = some address ↔ address ≠ given ∧ holds u = some address := by
  by_cases isThread : u = t
  · subst isThread
    simp [held, eq_comm]
  · by_cases same : address = given
    · subst same
      simp [isThread, notHeld u isThread]
    · simp [isThread, same]

section

variable (conserved : Conserved pool queued holds)

include conserved

theorem Conserved.take (taken : takeBlock pool = some (after, address)) (idle : holds t = none) :
    Conserved after queued (update holds t (some address)) := by
  obtain ⟨free, blocks⟩ := conserved
  unfold takeBlock at taken
  split at taken
  · simp at taken
  · next b isFirst =>
    split at taken
    · rename_i rest isLink
      obtain ⟨rfl, rfl⟩ : _ = after ∧ b + pointerSize = address := by simpa using taken
      have chain := blocks.chain
      rw [isFirst] at chain
      obtain ⟨left, rfl, leftChain⟩ := chain.cases_some
      have fresh := (List.nodup_cons.mp blocks.nodup).1
      have atFree : isAt (b :: left) queued holds .free (b + pointerSize) := by simp [isAt]
      refine ⟨left, ?_, (List.nodup_cons.mp blocks.nodup).2, ?_, ?_⟩
      · have nextEq : freeNext pool.header b = rest := by simp [freeNext, isLink]
        rw [nextEq] at leftChain
        refine leftChain.congr fun n inLeft => ?_
        have ne : n ≠ b := fun equal => fresh (equal ▸ inLeft)
        simp only [freeNext, update_of_ne ne]
      · have := blocks.count
        simp only [List.length_cons] at this
        dsimp only
        omega
      · refine blocks.homed.move (.held t) (blocks.homed.resource _ _ atFree) fun home other => ?_
        cases home with
        | free =>
          have notLeft : b + pointerSize ∉ left.map (· + pointerSize) := by simpa using fresh
          by_cases same : other = b + pointerSize
          · subst same
            simpa [isAt] using notLeft
          · simp [isAt, same]
        | queued =>
          have notQueued : ¬ isAt (b :: left) queued holds .queued (b + pointerSize) :=
            blocks.homed.not_at atFree (by simp)
          by_cases same : other = b + pointerSize
          · subst same
            simpa [isAt] using notQueued
          · simp [isAt, same]
        | held u =>
          refine (update_some_iff idle (fun u => ?_) u).trans (by simp [isAt])
          exact blocks.homed.not_at atFree (by simp : Home.held u ≠ .free)
    · simp at taken

theorem Conserved.give (held : holds t = some address) : Conserved
      { pool with
        blockFreeCount := pool.blockFreeCount + 1
        header := update pool.header (address - pointerSize) (.next pool.blockList)
        blockList := some (address - pointerSize) } queued (update holds t none) := by
  obtain ⟨free, blocks⟩ := conserved
  have isHeld : isAt free queued holds (.held t) address := held
  obtain ⟨k, below, isAddress⟩ := blocks.homed.resource _ _ isHeld
  obtain ⟨b, rfl⟩ : ∃ b, address = b + pointerSize := ⟨_, isAddress⟩
  rw [Nat.add_sub_cancel]
  have fresh : b ∉ free := by
    intro inFree
    have atFree : isAt free queued holds .free (b + pointerSize) := List.mem_map_of_mem inFree
    exact absurd atFree (blocks.homed.not_at isHeld (by simp))
  refine ⟨b :: free, ?_, List.nodup_cons.mpr ⟨fresh, blocks.nodup⟩, ?_, ?_⟩
  · have nextEq : freeNext (update pool.header b (.next pool.blockList)) =
        update (freeNext pool.header) b pool.blockList := by
      funext n
      by_cases same : n = b
      · subst same
        simp [freeNext]
      · simp [freeNext, same]
    rw [nextEq]
    exact blocks.chain.push fresh
  · simp [blocks.count]
  · refine blocks.homed.move .free (blocks.homed.resource _ _ isHeld) fun home other => ?_
    cases home with
    | free =>
      by_cases same : other = b + pointerSize
      · subst same
        simp [isAt]
      · simp [isAt, same]
    | queued =>
      have notQueued : ¬ isAt free queued holds .queued (b + pointerSize) :=
        blocks.homed.not_at isHeld (by simp)
      by_cases same : other = b + pointerSize
      · subst same
        simpa [isAt] using notQueued
      · simp [isAt, same]
    | held u =>
      refine (update_none_iff held (fun u ne => ?_) u).trans (by simp [isAt])
      exact blocks.homed.not_at isHeld (by simpa using ne : Home.held u ≠ .held t)

theorem Conserved.push {x : Item} (held : holds t = some x.item) :
    Conserved pool (queued ++ [x]) (update holds t none) := by
  obtain ⟨free, blocks⟩ := conserved
  have isHeld : isAt free queued holds (.held t) x.item := held
  refine ⟨free, blocks.chain, blocks.nodup, blocks.count,
    blocks.homed.move .queued (blocks.homed.resource _ _ isHeld) fun home other => ?_⟩
  cases home with
  | free =>
    have notFree : ¬ isAt free queued holds .free x.item := blocks.homed.not_at isHeld (by simp)
    by_cases same : other = x.item
    · subst same
      simpa [isAt] using notFree
    · simp [isAt, same]
  | queued =>
    by_cases same : other = x.item
    · subst same
      simp [isAt]
    · simp [isAt, same, Ne.symm same]
  | held u =>
    refine (update_none_iff held (fun u ne => ?_) u).trans (by simp [isAt])
    exact blocks.homed.not_at isHeld (by simpa using ne : Home.held u ≠ .held t)

theorem Conserved.pop {x : Item} (inQueue : x ∈ queued) (idle : holds t = none) :
    Conserved pool (queued.filter fun other => other.item ≠ x.item)
      (update holds t (some x.item)) := by
  obtain ⟨free, blocks⟩ := conserved
  have isQueued : isAt free queued holds .queued x.item := ⟨x, inQueue, rfl⟩
  refine ⟨free, blocks.chain, blocks.nodup, blocks.count,
    blocks.homed.move (.held t) (blocks.homed.resource _ _ isQueued) fun home other => ?_⟩
  cases home with
  | free =>
    have notFree : ¬ isAt free queued holds .free x.item := blocks.homed.not_at isQueued (by simp)
    by_cases same : other = x.item
    · subst same
      simpa [isAt] using notFree
    · simp [isAt, same]
  | queued =>
    by_cases same : other = x.item
    · subst same
      simp [isAt]
    · have kept (member : Item) : (member ∈ queued ∧ member.item ≠ x.item) ∧
          member.item = other ↔ member ∈ queued ∧ member.item = other := by
        refine ⟨fun both => ⟨both.1.1, both.2⟩, fun both => ⟨⟨both.1, ?_⟩, both.2⟩⟩
        rw [both.2]
        exact same
      simp only [isAt, List.mem_filter, decide_eq_true_eq, kept]
      simp [same]
  | held u =>
    refine (update_some_iff idle (fun u => ?_) u).trans (by simp [isAt])
    exact blocks.homed.not_at isQueued (by simp : Home.held u ≠ .queued)

end

end Moves

end RtThread.PrioQueue

namespace RtThread.PrioQueue

open MemPool

universe u

/-- The pops so far: each took what came next, and no two took the same item. -/
structure Log (queued : List Item) (pushes : Nat) (popped : List Pop) : Prop where
  next : ∀ pop ∈ popped, ∃ item, pop.item = some item ∧ IsNext pop.queued item
  gone : ∀ pop ∈ popped, ∀ item, pop.item = some item →
    item.serial < pushes ∧ ∀ other ∈ queued, other.serial ≠ item.serial
  once : popped.Pairwise fun first second => ∀ item other, first.item = some item →
    second.item = some other → item.serial ≠ other.serial

def IsData (popped : List Pop) (item : Option Item) (data : Bytes) : Prop :=
  (∃ pop ∈ popped, pop.item = item) ∧ ∃ taken, item = some taken ∧ data = taken.data

def Call.Sound (que : RtPrioQueue) (popped : List Pop) : Call → Prop
  | .allocSuspended prio data _ _ | .allocRetrying prio data _ | .filling prio data _ =>
    prio < rtPrioQueuePrioMax ∧ data.length = que.itemSz
  | .linking prio data item =>
    prio < rtPrioQueuePrioMax ∧ que.bytes item = data ∧ que.next item = none
  | .copying item taken => IsData popped taken (que.bytes item)
  | .popSuspended _ | .popRetrying _ | .freeing _ => True

def State.holds {Tid : Type u} (s : State Tid) (t : Tid) : Option Nat :=
  (s.call t).bind Call.holds

structure Inv {Tid : Type u} (s : State Tid) : Prop where
  threads : Threads s.kernel s.call
  lists : Lists s.que s.queued s.pushes
  blocks : Conserved s.que.pool s.queued s.holds
  calls : ∀ t call, s.call t = some call → call.Sound s.que s.popped
  log : Log s.queued s.pushes s.popped
  returned : ∀ result ∈ s.returned, IsData s.popped result.1 result.2
  enough : Enough s.kernel s.call s.queued.length

/-- The queue's data are right, nothing is lost or popped twice, and no item waits for a popper
that is suspended. -/
structure Correct {Tid : Type u} (s : State Tid) : Prop where
  bitmap : ∀ prio < rtPrioQueuePrioMax,
    (s.que.bitmap.getLsbD prio = true ↔ itemsOf s.queued prio ≠ [])
  list : ∀ prio, Chain s.que.next (s.que.head prio) (itemsOf s.queued prio)
  tail : ∀ prio, itemsOf s.queued prio ≠ [] →
    s.que.tail prio = (itemsOf s.queued prio).getLast?
  log : Log s.queued s.pushes s.popped
  returned : ∀ result ∈ s.returned, IsData s.popped result.1 result.2
  blocks : Conserved s.que.pool s.queued s.holds
  enough : Enough s.kernel s.call s.queued.length

theorem Inv.correct {Tid : Type u} {s : State Tid} (inv : Inv s) : Correct s where
  bitmap := inv.lists.bitmap
  list := inv.lists.table.chain
  tail := inv.lists.tail
  log := inv.log
  returned := inv.returned
  blocks := inv.blocks
  enough := inv.enough

section Frames

variable {Tid : Type u} {que after : RtPrioQueue} {popped more : List Pop}

theorem IsData.mono {x : Option Item} {data : Bytes} (isData : IsData popped x data)
    (grows : popped ⊆ more) : IsData more x data := by
  obtain ⟨⟨pop, isPop, isItem⟩, taken⟩ := isData
  exact ⟨⟨pop, grows isPop, isItem⟩, taken⟩

theorem Call.Sound.mono {call : Call} (inv : call.Sound que popped)
    (itemSz : after.itemSz = que.itemSz) (grows : popped ⊆ more)
    (bytes : ∀ item, call.holds = some item → after.bytes item = que.bytes item)
    (next : ∀ item, call.holds = some item → after.next item = que.next item) :
    call.Sound after more := by
  cases call with
  | allocSuspended | allocRetrying | filling => exact ⟨inv.1, inv.2.trans itemSz.symm⟩
  | linking prio data item =>
    exact ⟨inv.1, (bytes item rfl).trans inv.2.1, (next item rfl).trans inv.2.2⟩
  | copying item taken =>
    simp only [Call.Sound, bytes item rfl]
    exact IsData.mono inv grows
  | popSuspended | popRetrying | freeing => trivial

theorem bytes_congr (data : after.data = que.data) (itemSz : after.itemSz = que.itemSz)
    (x : Nat) : after.bytes x = que.bytes x := by
  simp only [RtPrioQueue.bytes, data, itemSz]

variable [DecidableEq Tid] {s : State Tid} {t : Tid}

variable {new : Option Call}

theorem holds_update (s : State Tid) {after : State Tid} (call : after.call = update s.call t new) :
    after.holds = update s.holds t (new.bind Call.holds) := by
  funext u
  by_cases same : u = t
  · subst same
    simp [State.holds, call]
  · simp [State.holds, call, same]

theorem calls_update {call : Tid → Option Call} {inv : Call → Prop}
    (others : ∀ u, u ≠ t → ∀ other, call u = some other → inv other)
    (newSound : ∀ made, new = some made → inv made) :
    ∀ u other, update call t new u = some other → inv other := by
  intro u other isCall
  by_cases same : u = t
  · subst same
    rw [update_self] at isCall
    exact newSound other isCall
  · rw [update_of_ne same] at isCall
    exact others u same other isCall

theorem Inv.quiet (inv : Inv s) {after : State Tid} (n : Nat)
    (que : after.que = { s.que with pool := { s.que.pool with suspendThreadCount := n } })
    (queued : after.queued = s.queued) (pushes : after.pushes = s.pushes)
    (popped : after.popped = s.popped) (ret : after.returned = s.returned)
    (call : after.call = update s.call t new) (threads : Threads after.kernel after.call)
    (holds : new.bind Call.holds = s.holds t)
    (sound : ∀ made, new = some made → made.Sound s.que s.popped)
    (enough : Enough after.kernel after.call s.queued.length) : Inv after := by
  have sameHolds : after.holds = s.holds := by rw [holds_update s call, holds, update_eq_self]
  have lists := inv.lists
  refine ⟨threads, ?_, ?_, ?_, ?_, ?_, ?_⟩
  · rw [que, queued, pushes]
    exact ⟨lists.table, lists.bitmap, lists.tail, lists.data, lists.prio_lt, lists.order,
      lists.serial_lt⟩
  · rw [que, queued, sameHolds]
    exact inv.blocks.congr rfl rfl rfl rfl rfl rfl
  · rw [call, que, popped]
    have keep (made : Call) (before : made.Sound s.que s.popped) :
        made.Sound { s.que with pool := { s.que.pool with suspendThreadCount := n } }
          s.popped :=
      before.mono rfl (fun _ => id) (fun _ _ => rfl) fun _ _ => rfl
    exact calls_update (fun u _ other isCall => keep other (inv.calls u other isCall))
      fun made isNew => keep made (sound made isNew)
  · rw [queued, pushes, popped]
    exact inv.log
  · rw [ret, popped]
    exact inv.returned
  · rw [queued]
    exact enough

end Frames

end RtThread.PrioQueue
