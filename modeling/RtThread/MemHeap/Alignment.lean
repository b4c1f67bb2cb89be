import RtThread.MemHeap.Resize

/-!
# The alignment of a memory heap

`RT_MEMHEAP_MINIALLOC` is applied behind the rounding, so an item that is cut off behind a small
area need not lie at a multiple of `RT_ALIGN_SIZE`.
-/

open TransitionSystem

namespace RtThread.MemHeap

variable {cfg : Config} {heap after : Heap} {bs blocks' : List Block} {free : List Nat}
  {cut : Nat → Prop}

def answer (cfg : Config) (heap : Heap) : Event → Option Nat
  | .alloc size => (rtMemheapAlloc cfg heap size).bind Prod.snd
  | .realloc ptr newsize => (rtMemheapRealloc cfg heap ptr newsize).bind Prod.snd
  | .free _ | .store _ _ => none

def call (cfg : Config) (heap : Heap) : Event → Option Heap
  | .alloc size => (rtMemheapAlloc cfg heap size).map Prod.fst
  | .realloc ptr newsize =>
    if heap.Admits ptr then (rtMemheapRealloc cfg heap ptr newsize).map Prod.fst else none
  | event => step cfg heap event

/-- The calls on a pool that lies at a multiple of `RT_ALIGN_SIZE`. -/
def calls (cfg : Config) : TransitionSystem Heap Event :=
  ofFunction
    (fun heap => Initial cfg heap ∧ cfg.alignSize ∣ heap.pool.blockList) (call cfg)

/-- The call cuts a block behind an area whose size is no multiple of `RT_ALIGN_SIZE`. -/
def CutsUnaligned (cfg : Config) (heap : Heap) : Event → Prop
  | .alloc size =>
    ¬cfg.alignSize ∣ cfg.request size ∧ Splits cfg heap (cfg.request size) = true
  | .realloc (some ptr) newsize =>
    newsize ≠ 0 ∧ ¬cfg.alignSize ∣ cfg.request newsize ∧ ¬Keeps cfg heap ptr newsize
  | _ => False

instance (heap : Heap) : (event : Event) → Decidable (CutsUnaligned cfg heap event)
  | .alloc _ => instDecidableAnd
  | .realloc (some _) _ => inferInstanceAs (Decidable (_ ∧ _ ∧ _))
  | .realloc none _ | .free _ | .store _ _ => .isFalse id

def Aligned (cfg : Config) (bs : List Block) : Prop :=
  ∀ b ∈ bs, cfg.alignSize ∣ b.start

theorem Config.dvd_rtAlign (cfg : Config) (n : Nat) : cfg.alignSize ∣ cfg.rtAlign n :=
  Word32.dvd_alignUp n (by have := cfg.alignBits_lt; omega)

theorem Config.dvd_userArea {b : Block} (aligned : cfg.alignSize ∣ b.start) :
    cfg.alignSize ∣ userArea cfg b :=
  Nat.dvd_add aligned (cfg.dvd_rtAlign _)

/-- A request that is rounded twice is at least as large as `RT_MEMHEAP_MINIALLOC` before the
second rounding. -/
theorem Config.dvd_request_request (cfg : Config) (size : Nat) :
    cfg.alignSize ∣ cfg.request (cfg.request size) := by
  have minimal := cfg.minialloc_le_request size
  have rounded : cfg.request size ≤ cfg.rtAlign (cfg.request size) :=
    (Word32.le_alignUp (cfg.request_noWrap size) (by have := cfg.alignBits_lt; omega)).1
  rw [show cfg.request (cfg.request size) = cfg.rtAlign (cfg.request size) from
    if_neg (by omega)]
  exact cfg.dvd_rtAlign _

theorem Recut.aligned (recut : Recut bs blocks' cut) (aligned : Aligned cfg bs)
    (cuts : ∀ p, cut p → cfg.alignSize ∣ p) : Aligned cfg blocks' := by
  intro b mem
  rcases recut b mem with isCut | ⟨old, inBlocks, same⟩
  · exact cuts _ isCut
  · rw [← same]
    exact aligned old inBlocks

theorem Handed.aligned {r : Option Nat} (handed : Handed cfg bs cut r) (aligned : Aligned cfg bs)
    (cuts : ∀ p, cut p → cfg.alignSize ∣ p) : ∀ ptr ∈ r, cfg.alignSize ∣ ptr := by
  intro ptr isResult
  obtain ⟨b, rfl, recut⟩ := handed ptr isResult
  exact Config.dvd_userArea (recut.aligned aligned cuts b (List.mem_singleton_self b))

theorem reallocCuts_aligned (aligned : Aligned cfg bs) (shape : Shape cfg heap bs free)
    {ptr : Option Nat} {n : Nat} (admitted : heap.Admits ptr)
    (fitting : ¬CutsUnaligned cfg heap (.realloc ptr n)) (p : Nat)
    (isCut : ReallocCuts cfg heap bs ptr n p) : cfg.alignSize ∣ p := by
  rcases isCut with ⟨old, inBlocks, rfl⟩ | ⟨pos, live, rfl, moves, rfl⟩
  · exact Nat.dvd_add (Config.dvd_userArea (aligned old inBlocks)) (cfg.dvd_request_request n)
  · obtain ⟨front, b, rear, rfl, -, rfl, -⟩ := shape.ofLive admitted
    refine Nat.dvd_add (Config.dvd_userArea (aligned b (by simp))) ?_
    by_contra unaligned
    exact fitting ⟨pos, unaligned, moves⟩

theorem call_aligned (shape : Shape cfg heap bs free) (aligned : Aligned cfg bs)
    {e : Event} (fitting : ¬GrowthWraps cfg heap e ∧ ¬CutsUnaligned cfg heap e)
    (ran : call cfg heap e = some after) :
    (∃ blocks' free', Shape cfg after blocks' free' ∧ Aligned cfg blocks') ∧
      ∀ ptr ∈ answer cfg heap e, cfg.alignSize ∣ ptr := by
  cases e with
  | alloc n =>
    obtain ⟨⟨heap', r⟩, ret, rfl⟩ := Option.map_eq_some_iff.mp ran
    simp only [answer, ret]
    rcases rtMemheapAlloc_shape shape ret with ⟨rfl, rfl⟩ |
      ⟨taken, blocks', free', rfl, mem, -, shape', -, recut⟩
    · exact ⟨⟨bs, free, shape, aligned⟩, by simp⟩
    · have aligned' : Aligned cfg blocks' := by
        refine recut.aligned aligned ?_
        rintro _ ⟨splits, old, inBlocks, rfl⟩
        refine Nat.dvd_add (Config.dvd_userArea (aligned old inBlocks)) ?_
        by_contra unaligned
        exact fitting.2 ⟨unaligned, splits⟩
      refine ⟨⟨blocks', free', shape', aligned'⟩, ?_⟩
      rintro _ ⟨⟩
      exact Config.dvd_userArea (aligned' taken mem)
  | realloc ptr newsize =>
    obtain ⟨admitted, ran⟩ := Option.ite_none_right_eq_some.mp ran
    obtain ⟨⟨heap', r⟩, ret, rfl⟩ := Option.map_eq_some_iff.mp ran
    simp only [answer, ret]
    obtain ⟨blocks', free', shape', recut, handed⟩ :=
      rtMemheapRealloc_shape shape admitted fitting.1 ret
    have cuts := reallocCuts_aligned aligned shape admitted fitting.2
    exact ⟨⟨blocks', free', shape', recut.aligned aligned cuts⟩, handed.aligned aligned cuts⟩
  | free ptr =>
    obtain ⟨admitted, ran⟩ := Option.ite_none_right_eq_some.mp ran
    obtain ⟨blocks', free', shape', recut⟩ := rtMemheapFree_shape shape admitted ran
    exact ⟨⟨blocks', free', shape', recut.aligned aligned fun _ => False.elim⟩, by simp [answer]⟩
  | store a v =>
    exact ⟨⟨bs, free, store_shape shape ran, aligned⟩, by simp [answer]⟩

/-- The pointers that are handed out are multiples of `RT_ALIGN_SIZE` as long as no call cuts
behind an area that is none. -/
theorem pointers_aligned {taken : List (TransitionSystem.Taken Heap Event)} {last : Heap}
    (run : (calls cfg).Run taken last) (every : EveryStep
      (fun heap e => ¬GrowthWraps cfg heap e ∧ ¬CutsUnaligned cfg heap e) taken) : EveryStep
      (fun heap e => ∀ ptr ∈ answer cfg heap e, cfg.alignSize ∣ ptr) taken := by
  have base : ∀ heap, (calls cfg).initial heap →
      ∃ bs free, Shape cfg heap bs free ∧ Aligned cfg bs := by
    rintro heap ⟨init, aligned⟩
    refine ⟨_, _, initial_shape init, fun b mem => ?_⟩
    rw [List.mem_singleton.mp mem]
    exact aligned
  have shapes := run.throughout_of_everyStep base
    (fun _ _ _ ⟨_, _, shape, aligned⟩ fitting ran =>
      (call_aligned shape aligned fitting ran).1) every
  intro taken mem
  obtain ⟨bs, free, shape, aligned⟩ := shapes.2 taken mem
  exact (call_aligned shape aligned (every taken mem) (run.step_of_mem mem)).2

theorem resizing_aligned :
    let events : List Event := [.alloc 16, .alloc 40, .free (some 4160), .realloc (some 4120) 60,
      .store 4120 7, .realloc (some 4120) 16]
    EveryStep (fun heap e => ∀ ptr ∈ answer align8 heap e, 8 ∣ ptr)
      (record (call align8) [] smallPool events) :=
  pointers_aligned
    (Run.execute (.start ⟨smallPool_initial, by decide⟩)
      (Option.some_get (by decide +kernel)).symm)
    (by decide +kernel)

/-- The block behind one of four bytes lies 12 bytes behind it. -/
theorem small_request_not_aligned :
    ¬ ∀ (taken : List (TransitionSystem.Taken Heap Event)) (last : Heap),
      (calls align8).Run taken last → EveryStep
        (fun heap e => ∀ ptr ∈ answer align8 heap e, align8.alignSize ∣ ptr) taken := by
  intro claim
  let events : List Event := [.alloc 4, .alloc 16]
  have run : (calls align8).Run _ _ :=
    .executed smallPool events ⟨smallPool_initial, by decide⟩ (by decide +kernel)
  exact absurd (claim _ _ run) (by decide +kernel)

end RtThread.MemHeap
