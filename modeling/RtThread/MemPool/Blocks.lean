import RtThread.Library.Chain
import RtThread.MemPool.Basic

/-!
# The blocks of a memory pool

A block is in the chain from `block_list`, or it is live and its header points to the pool.
-/

open Function (update update_of_ne update_self)
open TransitionSystem

namespace RtThread.MemPool

universe u

def Header.link : Header → Option Nat
  | .next b => b
  | .pool => none

/-- The headers of the blocks that `rt_mp_init` lays out. -/
def laidOut (alignSize start size blockSize : Nat) : List Nat :=
  let stride := Word32.add (Word32.alignUp blockSize alignSize) pointerSize
  (List.range (Word32.maskDown size alignSize / stride)).map fun offset => start + offset * stride

/-- The blocks in the chain and the live ones are `blocks`, and they are counted. -/
structure Conserved (blocks : List Nat) (mp : RtMempool) (live : List Nat) : Prop where
  free : ∃ free, Chain (fun b => (mp.header b).link) mp.blockList free ∧
    free.length = mp.blockFreeCount ∧ (∀ b ∈ free, mp.header b ≠ .pool) ∧
    (free ++ live.map (· - pointerSize)).Perm blocks
  nodup : live.Nodup
  pool : ∀ b ∈ live, mp.header (b - pointerSize) = .pool

def Outcome.block : Outcome → Option Nat
  | .returned b => b
  | .suspended => none

variable {Tid : Type u} [DecidableEq Tid]

def given (s : State Tid) : Event Tid → Option Nat
  | .alloc caller time => (rtMpAlloc s caller time).bind fun result => result.2.block
  | .retry t =>
    match s.call t with
    | some (.retrying time) => (allocLoop s (some t) time).bind fun result => result.2.block
    | _ => none
  | _ => none

def liveAfter (s : State Tid) (live : List Nat) : Event Tid → List Nat
  | .free _ b => live.erase b
  | e => (given s e).toList ++ live

def live : List (Taken (State Tid) (Event Tid)) → List Nat
  | [] => []
  | step :: taken => liveAfter step.before (live taken) step.event

def FreesLive : List (Taken (State Tid) (Event Tid)) → Prop
  | [] => True
  | step :: taken =>
    (match step.event with
      | .free _ b => b ∈ live taken
      | _ => True) ∧ FreesLive taken

/-- What `rt_mp_free` does before it looks for a waiter. -/
def linkBlock (mp : RtMempool) (b : Nat) : RtMempool :=
  { mp with
    blockFreeCount := mp.blockFreeCount + 1
    header := update mp.header (b - pointerSize) (.next mp.blockList)
    blockList := some (b - pointerSize) }

variable {blocks alive : List Nat} {mp : RtMempool}

theorem Conserved.takeBlock (conserved : Conserved blocks mp alive) (distinct : blocks.Nodup)
    {after : RtMempool} {b : Nat} (taken : takeBlock mp = some (after, b)) :
    Conserved blocks after (b :: alive) := by
  obtain ⟨⟨free, chain, counted, linked, all⟩, nodup, pool⟩ := conserved
  unfold MemPool.takeBlock at taken
  split at taken
  · cases taken
  · rename_i p isFirst
    split at taken
    · rename_i next isNext
      cases taken
      rw [isFirst] at chain
      obtain ⟨others, rfl, rest⟩ := chain.cases_some
      rw [isNext] at rest
      have once := all.nodup_iff.mpr distinct
      obtain ⟨notFree, once⟩ := List.nodup_cons.mp once
      obtain ⟨notFree, notLive⟩ := not_or.mp (fun mem => notFree (List.mem_append.mpr mem))
      have kept (q : Nat) (mem : q ∈ others) : update mp.header p .pool q = mp.header q :=
        update_of_ne (ne_of_mem_of_not_mem mem notFree) ..
      refine ⟨⟨others, rest.congr fun q mem => congrArg Header.link (kept q mem), ?_,
        fun q mem isPool => linked q (List.mem_cons_of_mem _ mem) ((kept q mem).symm.trans isPool),
        ?_⟩, List.nodup_cons.mpr ⟨fun mem => notLive ?_, nodup⟩, fun c mem => ?_⟩
      · simp only [← counted, List.length_cons, Nat.add_sub_cancel]
      · simpa using List.perm_middle.trans all
      · exact List.mem_map.mpr ⟨_, mem, Nat.add_sub_cancel ..⟩
      · rcases List.mem_cons.mp mem with rfl | mem
        · rw [Nat.add_sub_cancel]
          exact update_self ..
        · refine (update_of_ne (fun same => notLive ?_) ..).trans (pool c mem)
          exact same ▸ List.mem_map_of_mem mem
    · cases taken

theorem Conserved.linkBlock (conserved : Conserved blocks mp alive) (distinct : blocks.Nodup)
    {b : Nat} (isLive : b ∈ alive) : Conserved blocks (linkBlock mp b) (alive.erase b) := by
  obtain ⟨⟨free, chain, counted, linked, all⟩, nodup, pool⟩ := conserved
  have moved := (List.perm_cons_erase isLive).map (· - pointerSize)
  have perm : ((b - pointerSize) :: free ++ (alive.erase b).map (· - pointerSize)).Perm blocks :=
    List.perm_middle.symm.trans ((moved.symm.append_left free).trans all)
  obtain ⟨notIn, -⟩ := List.nodup_cons.mp (perm.nodup_iff.mpr distinct)
  obtain ⟨notFree, notLive⟩ := not_or.mp (fun mem => notIn (List.mem_append.mpr mem))
  have kept (q : Nat) (mem : q ∈ free) :
      update mp.header (b - pointerSize) (.next mp.blockList) q = mp.header q :=
    update_of_ne (ne_of_mem_of_not_mem mem notFree) ..
  refine ⟨⟨(b - pointerSize) :: free, ⟨rfl, ?_⟩, congrArg (· + 1) counted, ?_, perm⟩,
    nodup.erase b, fun c mem => ?_⟩
  · simp only [MemPool.linkBlock, update_self, Header.link]
    exact chain.congr fun q mem => congrArg Header.link (kept q mem)
  · intro q mem isPool
    rcases List.mem_cons.mp mem with rfl | mem
    · simp [MemPool.linkBlock] at isPool
    · exact linked q mem ((kept q mem).symm.trans isPool)
  · refine (update_of_ne (fun same => notLive ?_) ..).trans (pool c (List.mem_of_mem_erase mem))
    exact same ▸ List.mem_map_of_mem mem

variable {s after : State Tid} {e : Event Tid}

theorem allocLoop_conserved (conserved : Conserved blocks s.mp alive) (distinct : blocks.Nodup)
    {c : Option Tid} {time : BitVec 32} {outcome : Outcome}
    (result : allocLoop s c time = some (after, outcome)) :
    Conserved blocks after.mp (outcome.block.toList ++ alive) := by
  unfold allocLoop at result
  split at result
  · split at result
    · cases result
      rw [leave_mp]
      exact conserved
    · split at result
      · cases result
      · cases result
        exact ⟨conserved.free, conserved.nodup, conserved.pool⟩
  · split at result
    · cases result
    · rename_i mp b taken
      cases result
      rw [leave_mp]
      exact conserved.takeBlock distinct taken

theorem step_conserved (conserved : Conserved blocks s.mp alive) (distinct : blocks.Nodup)
    (isLive : ∀ c b, e = .free c b → b ∈ alive) (ran : step s e = some after) :
    Conserved blocks after.mp (liveAfter s alive e) := by
  cases e with
  | alloc c time =>
    obtain ⟨-, ran⟩ := Option.ite_none_right_eq_some.mp ran
    obtain ⟨⟨_, outcome⟩, result, rfl⟩ := Option.map_eq_some_iff.mp ran
    simpa only [liveAfter, given, result, Option.bind_some] using
      allocLoop_conserved conserved distinct result
  | free c b =>
    obtain ⟨-, ran⟩ := Option.ite_none_right_eq_some.mp ran
    have linked := conserved.linkBlock distinct (isLive c b rfl)
    unfold rtMpFree at ran
    simp only at ran
    obtain ⟨-, ran⟩ := Option.ite_none_left_eq_some.mp ran
    split at ran
    · split at ran
      · cases ran
      · cases ran
        exact ⟨linked.free, linked.nodup, linked.pool⟩
    · cases ran
      exact linked
  | resumed t =>
    simp only [step] at ran
    split at ran
    · obtain ⟨-, ⟨⟩⟩ := Option.ite_none_right_eq_some.mp ran
      unfold allocResumed
      split
      · simpa [liveAfter, given] using conserved
      · exact conserved
    · cases ran
  | retry t =>
    simp only [step] at ran
    split at ran
    · rename_i time isCall
      obtain ⟨-, ran⟩ := Option.ite_none_right_eq_some.mp ran
      obtain ⟨⟨_, outcome⟩, result, rfl⟩ := Option.map_eq_some_iff.mp ran
      simpa only [liveAfter, given, isCall, result, Option.bind_some] using
        allocLoop_conserved conserved distinct result
    · cases ran
  | timeout t =>
    obtain ⟨-, ⟨⟩⟩ := Option.ite_none_right_eq_some.mp ran
    exact conserved
  | tick =>
    cases ran
    exact conserved

theorem linkBlocks_apply (header : Nat → Header) (start : Nat) {stride n offset : Nat}
    (pos : 0 < stride) (inside : offset < n) :
    linkBlocks header start stride n (start + offset * stride) =
      .next (some (start + (offset + 1) * stride)) := by
  induction n with
  | zero => omega
  | succ n ih =>
    rw [linkBlocks]
    rcases Nat.lt_succ_iff_lt_or_eq.mp inside with earlier | rfl
    · rw [update_of_ne, ih earlier]
      exact fun same => earlier.ne (Nat.eq_of_mul_eq_mul_right pos (Nat.add_left_cancel same))
    · exact update_self ..

theorem link_last (header : Nat → Header) (start : Nat) {stride n offset : Nat} (pos : 0 < stride)
    (inside : offset < n) :
    update (linkBlocks header start stride n) (start + (n - 1) * stride) (.next none)
        (start + offset * stride) =
      .next (if offset + 1 = n then none else some (start + (offset + 1) * stride)) := by
  split
  · rename_i last
    rw [show n - 1 = offset by omega]
    exact update_self ..
  · rw [update_of_ne, linkBlocks_apply header start pos inside]
    intro same
    have := Nat.eq_of_mul_eq_mul_right pos (Nat.add_left_cancel same)
    omega

theorem chain_laidOut (header : Nat → Header) (start : Nat) {stride n : Nat} (pos : 0 < stride)
    {j : Nat} (le : j ≤ n) :
    Chain (fun b => (update (linkBlocks header start stride n) (start + (n - 1) * stride)
        (.next none) b).link) (if j = 0 then none else some (start + (n - j) * stride))
      ((List.range' (n - j) j).map fun offset => start + offset * stride) := by
  induction j with
  | zero => rfl
  | succ j ih =>
    have next : n - (j + 1) + 1 = n - j := by omega
    rw [List.range'_succ, List.map_cons, if_neg (Nat.succ_ne_zero j), next]
    refine ⟨rfl, ?_⟩
    simp only [link_last header start pos (show n - (j + 1) < n by omega), next]
    convert ih (by omega) using 1
    simp only [Header.link]
    exact if_congr (by omega) rfl rfl

theorem rtMpInit_conserved {alignSize start n blockSize : Nat} {header : Nat → Header}
    (isInit : rtMpInit alignSize header start n blockSize = some mp) :
    (laidOut alignSize start n blockSize).Nodup ∧
      Conserved (laidOut alignSize start n blockSize) mp [] := by
  obtain ⟨room, ⟨⟩⟩ := Option.ite_none_left_eq_some.mp isInit
  unfold laidOut
  dsimp only
  generalize Word32.add (Word32.alignUp blockSize alignSize) pointerSize = stride at *
  have pos : 0 < stride := Nat.pos_of_ne_zero fun zero => room (by rw [zero, Nat.div_zero])
  generalize Word32.maskDown n alignSize / stride = total at *
  have inj : Function.Injective fun offset => start + offset * stride := fun a b same =>
    Nat.eq_of_mul_eq_mul_right pos (Nat.add_left_cancel same)
  have chain := chain_laidOut header start pos (Nat.le_refl total)
  rw [Nat.sub_self, if_neg room, Nat.zero_mul, Nat.add_zero, ← List.range_eq_range'] at chain
  refine ⟨List.nodup_range.map inj, ⟨_, chain, by simp, fun b mem isPool => ?_, by simp⟩,
    List.nodup_nil, by simp⟩
  obtain ⟨offset, inside, rfl⟩ := List.mem_map.mp mem
  cases (link_last header start pos (List.mem_range.mp inside)).symm.trans isPool

variable {alignSize start n blockSize : Nat} {taken : List (Taken (State Tid) (Event Tid))}
  {last : State Tid}

/-- In every run the chain and the live blocks are the blocks of the pool, and what
`rt_mp_free` does to the chain for one of them keeps it so. -/
theorem blocks_conserved (run : (system alignSize start n blockSize).Run taken last)
    (frees : FreesLive taken) :
    Conserved (laidOut alignSize start n blockSize) last.mp (live taken) ∧
      ∀ b ∈ live taken, Conserved (laidOut alignSize start n blockSize) (linkBlock last.mp b)
        ((live taken).erase b) := by
  suffices holds : (laidOut alignSize start n blockSize).Nodup ∧
      Conserved (laidOut alignSize start n blockSize) last.mp (live taken) from
    ⟨holds.2, fun b isLive => holds.2.linkBlock holds.1 isLive⟩
  induction run with
  | start init =>
    obtain ⟨-, -, -, header, isInit⟩ := init
    exact rtMpInit_conserved isInit
  | next earlier ran ih =>
    obtain ⟨now, frees⟩ := frees
    obtain ⟨distinct, conserved⟩ := ih frees
    refine ⟨distinct, step_conserved conserved distinct ?_ ran⟩
    rintro c b rfl
    exact now

theorem handed_block_conserved :
    let events : List (Event (Fin 2)) :=
      [.alloc (some 1) 0, .alloc (some 0) 10, .free (some 1) 4, .resumed 0, .retry 0]
    Conserved (laidOut 4 0 12 8) ((execute step (fresh 2) events).get (by decide)).mp [4] :=
  (blocks_conserved (Run.executed _ _ fresh_initial _)
    (by exact And.intro trivial <| And.intro trivial <| And.intro List.mem_cons_self <|
      And.intro trivial <| And.intro trivial trivial)).1

theorem run_conserved (run : (system alignSize start n blockSize).Run taken last)
    (frees : FreesLive taken) :
    (laidOut alignSize start n blockSize).Nodup ∧
      Conserved (laidOut alignSize start n blockSize) last.mp (live taken) := by
  induction run with
  | start init =>
    obtain ⟨-, -, -, header, isInit⟩ := init
    exact rtMpInit_conserved isInit
  | next earlier ran ih =>
    obtain ⟨distinct, conserved⟩ := ih frees.2
    refine ⟨distinct, step_conserved conserved distinct ?_ ran⟩
    rintro c b rfl
    exact frees.1

theorem Conserved.counts (conserved : Conserved blocks mp alive) :
    mp.blockFreeCount + alive.length = blocks.length := by
  obtain ⟨free, -, counted, -, all⟩ := conserved.free
  rw [← counted, ← all.length_eq, List.length_append, List.length_map]

theorem Conserved.takes (conserved : Conserved blocks mp alive) (left : mp.blockFreeCount ≠ 0) :
    ∃ after b, MemPool.takeBlock mp = some (after, b) := by
  obtain ⟨free, chain, counted, linked, -⟩ := conserved.free
  cases free with
  | nil => exact absurd counted.symm left
  | cons p rest =>
    cases isNext : mp.header p with
    | next q => exact ⟨_, _, by simp only [MemPool.takeBlock, chain.1, isNext]; rfl⟩
    | pool => exact absurd isNext (linked p List.mem_cons_self)

/-- In every run a call gets a block that is not live as long as there is one, and a call that
does not wait is refused only when all blocks are live. -/
theorem alloc_serves (run : (system alignSize start n blockSize).Run taken last)
    (frees : FreesLive taken) (caller : Option Tid) (time : BitVec 32) :
    ((live taken).length < (laidOut alignSize start n blockSize).length →
      ∃ after b, rtMpAlloc last caller time = some (after, .returned (some b)) ∧
        b ∉ live taken ∧ b - pointerSize ∈ laidOut alignSize start n blockSize) ∧
    ((rtMpAlloc last caller 0).map Prod.snd = some (.returned none) ↔
      (live taken).length = (laidOut alignSize start n blockSize).length) := by
  obtain ⟨distinct, conserved⟩ := run_conserved run frees
  have counts := conserved.counts
  unfold rtMpAlloc allocLoop
  by_cases empty : last.mp.blockFreeCount = 0
  · simp only [if_pos empty]
    exact ⟨fun fewer => by omega, iff_of_true rfl (by omega)⟩
  · obtain ⟨after, b, taken⟩ := conserved.takes empty
    have conserved := conserved.takeBlock distinct taken
    obtain ⟨free, -, -, -, all⟩ := conserved.free
    simp only [if_neg empty, taken]
    refine ⟨fun _ => ⟨_, b, rfl, (List.nodup_cons.mp conserved.nodup).1, ?_⟩, ?_⟩
    · exact all.mem_iff.mp (by simp)
    · exact iff_of_false (by simp) (by omega)

theorem third_block_served : let events : List (Event (Fin 2)) :=
      [.alloc (some 1) 0, .alloc (some 0) 10, .free (some 1) 4, .resumed 0, .retry 0]
    let s := (execute step (fresh 2) events).get (by decide)
    (rtMpAlloc s (some 1) 0).map Prod.snd = some (.returned none) ↔
      (live (record step [] (fresh 2) events)).length = (laidOut 4 0 12 8).length :=
  (alloc_serves (Run.executed _ _ fresh_initial _)
    (by exact And.intro trivial <| And.intro trivial <| And.intro List.mem_cons_self <|
      And.intro trivial <| And.intro trivial trivial) _ 0).2

end RtThread.MemPool
