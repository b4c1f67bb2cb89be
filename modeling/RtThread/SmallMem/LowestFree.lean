import RtThread.SmallMem.Resize

/-!
# The lowest free block

`lfree` is meant to be the lowest free block.
-/

open TransitionSystem

namespace RtThread.SmallMem

variable {cfg : Config} {heap after : Heap} {bs : List Block}

/-- `lfree` is the lowest free block, or `heap_end` when no block is free. -/
def LowestFree (cfg : Config) (heap : Heap) : Prop :=
  ∃ bs, Tiles heap.headers cfg.sizeofStructMem 0 0 bs heap.heapEnd ∧
    heap.lfree = lowestFree heap.heapEnd bs

/-- A block whose end is cut off lies behind `lfree`, or in front of a free block. -/
def KeepsLowest (cfg : Config) (heap : Heap) : Event → Prop
  | .realloc (some rmem) newsize =>
    CutsOff cfg heap rmem newsize →
      heap.lfree < heap.headerOf cfg rmem ∨
        (heap.header (heap.header (heap.headerOf cfg rmem)).next).used = 0
  | _ => True

instance (cfg : Config) (heap : Heap) : (e : Event) → Decidable (KeepsLowest cfg heap e)
  | .realloc (some _) _ => instDecidableForall
  | .realloc none _ | .malloc _ | .free _ => .isTrue trivial

theorem Shape.lowestFree_iff (shape : Shape cfg heap bs) :
    LowestFree cfg heap ↔ Lowest heap bs := by
  constructor
  · rintro ⟨others, tiles, lowest⟩
    rwa [Tiles.unique cfg.gap_pos tiles shape.cut] at lowest
  · exact fun lowest => ⟨bs, shape.cut, lowest⟩

theorem Keeps.lowestFree (keeps : Keeps cfg heap bs after) (lowest : Lowest heap bs) :
    LowestFree cfg after := by
  obtain ⟨blocks', shape', stays⟩ := keeps
  exact shape'.lowestFree_iff.mpr (stays lowest)

theorem step_lowestFree_iff (shape : Shape cfg heap bs) (lowest : Lowest heap bs) {e : Event}
    (ran : step cfg heap e = some after) : LowestFree cfg after ↔ KeepsLowest cfg heap e := by
  cases e with
  | malloc n =>
    obtain ⟨-, ran⟩ := Option.ite_none_right_eq_some.mp ran
    rw [Option.map_eq_some_iff] at ran
    obtain ⟨⟨allocated, r⟩, ret, rfl⟩ := ran
    exact iff_of_true ((rtMalloc_keeps shape ret).1.lowestFree lowest) trivial
  | free rmem =>
    obtain ⟨admitted, ran⟩ := Option.ite_none_right_eq_some.mp ran
    exact iff_of_true ((rtFree_keeps shape admitted ran).lowestFree lowest) trivial
  | realloc rmem newsize =>
    obtain ⟨admitted, ran⟩ := Option.ite_none_right_eq_some.mp ran
    rw [Option.map_eq_some_iff] at ran
    obtain ⟨⟨resized, r⟩, ret, rfl⟩ := ran
    cases rmem with
    | none =>
      have keeps := rtRealloc_keeps shape admitted.1 (by simp) ret
      exact iff_of_true (keeps.lowestFree lowest) trivial
    | some rmem =>
      by_cases cuts : CutsOff cfg heap rmem newsize
      · obtain ⟨front, b, rear, rfl, used, isHeader, fits, shrunk⟩ :=
          rtRealloc_cutsOff shape admitted.1 cuts ret
        have decided := shrink_lowest shape used fits (cfg.dvd_rtAlign newsize) lowest
          shrunk
        rw [← shape.cut.header_block.1, isHeader] at decided
        simp only [KeepsLowest, cuts, forall_const]
        exact decided
      · have keeps := rtRealloc_keeps shape admitted.1 (by simpa using cuts) ret
        exact iff_of_true (keeps.lowestFree lowest) fun cutsOff => absurd cutsOff cuts

/-- `lfree` is the lowest free block throughout a run exactly when every call meets the
condition. -/
theorem lowestFree_throughout_iff {taken : List (TransitionSystem.Taken Heap Event)} {last : Heap}
    (run : (system cfg).Run taken last) : Throughout (LowestFree cfg) taken last ↔
      EveryStep (KeepsLowest cfg) taken := by
  have invBase : ∀ heap, Initial cfg heap → ∃ bs, Shape cfg heap bs :=
    fun _ init => ⟨_, (initial_shape init).1⟩
  have invPreserved : ∀ heap e after, (∃ bs, Shape cfg heap bs) →
      (system cfg).step heap e after → ∃ bs, Shape cfg after bs :=
    fun _ _ _ ⟨_, shape⟩ ran => step_shape shape ran
  apply run.throughout_iff_everyStep invBase invPreserved
  · intro heap init
    exact ⟨_, (initial_shape init).1.cut, (initial_shape init).2⟩
  · rintro heap e after ⟨bs, shape⟩ holds ran
    exact step_lowestFree_iff shape (shape.lowestFree_iff.mp holds) ran

theorem shrunk_last_lowestFree : Throughout (LowestFree word4) (record (step word4) [] smallHeap
        [.malloc 40, .realloc (some 4108) 8, .free (some 4108)]) ((execute (step word4) smallHeap
        [.malloc 40, .realloc (some 4108) 8, .free (some 4108)]).get (by decide)) :=
  (lowestFree_throughout_iff (Run.executed _ _ smallHeap_initial _)).mpr (by decide)

/-- The end that is cut off lies between used blocks: `lfree` stays behind them. -/
theorem shrunk_first_not_lowestFree :
    ¬ ∀ (taken : List (TransitionSystem.Taken Heap Event)) (last : Heap),
      (system word4).Run taken last → Throughout (LowestFree word4) taken last := by
  intro claim
  have run := Run.execute
    (.start smallHeap_initial : (system word4).Run [] smallHeap)
    (Option.some_get (by decide : (execute (step word4) smallHeap
      [.malloc 40, .malloc 40, .realloc (some 4108) 8]).isSome)).symm
  obtain ⟨bs, tiles, lowest⟩ := (claim _ _ run).1
  rw [Tiles.unique word4.gap_pos tiles (by decide : Tiles _ _ _ _
    [⟨0, 20, true⟩, ⟨20, 52, false⟩, ⟨52, 104, true⟩, ⟨104, 244, false⟩] _)] at lowest
  revert lowest
  decide

end RtThread.SmallMem
