import Mathlib.Data.List.Chain

/-!
# Adjacent blocks with headers

A region cut into blocks, each starting with a header that gives the start of the next block, the
start of the previous one and whether the block is in use.
-/

structure Block where
  start : Nat
  stop : Nat
  used : Bool
  deriving DecidableEq

structure Headers where
  next : Nat → Nat
  prev : Nat → Nat
  used : Nat → Bool

/-- From `start` to `stop` the headers cut the region into `bs`, each of at least
`gap`; `before` is the block in front of the first. -/
def Tiles (headers : Headers) (gap : Nat) : Nat → Nat → List Block → Nat → Prop
  | _, start, [], stop => start = stop
  | before, start, b :: rest, stop =>
    b.start = start ∧ headers.next start = b.stop ∧ headers.prev start = before ∧
      headers.used start = b.used ∧ start + gap ≤ b.stop ∧
      Tiles headers gap start b.stop rest stop

namespace Tiles

instance decidable (headers : Headers) (gap : Nat) :
    ∀ (before start : Nat) (bs : List Block) (stop : Nat),
      Decidable (Tiles headers gap before start bs stop)
  | _, start, [], stop => inferInstanceAs (Decidable (start = stop))
  | before, start, b :: rest, stop =>
    have := decidable headers gap start b.stop rest stop
    instDecidableAnd

variable {headers u : Headers} {gap before start stop : Nat} {bs : List Block}

section

variable (tiles : Tiles headers gap before start bs stop)

include tiles

theorem le : start ≤ stop := by
  induction bs generalizing before start with
  | nil => exact Nat.le_of_eq tiles
  | cons b rest ih =>
    obtain ⟨-, -, -, -, room, tiles⟩ := tiles
    have := ih tiles
    omega

theorem length_le (pos : 0 < gap) : bs.length ≤ stop - start := by
  induction bs generalizing before start with
  | nil => exact Nat.zero_le _
  | cons b rest ih =>
    obtain ⟨-, -, -, -, room, tiles⟩ := tiles
    have inside := tiles.le
    have := ih tiles
    simp only [List.length_cons]
    omega

theorem closed {holds : Nat → Prop} (begins : holds start)
    (next : ∀ p, holds p → holds (headers.next p)) : (∀ b ∈ bs, holds b.start) ∧ holds stop := by
  induction bs generalizing before start with
  | nil => exact ⟨by simp, (show start = stop from tiles) ▸ begins⟩
  | cons b rest ih =>
    obtain ⟨rfl, isNext, -, -, -, tiles⟩ := tiles
    obtain ⟨inRest, atStop⟩ := ih tiles (isNext ▸ next _ begins)
    exact ⟨List.forall_mem_cons.mpr ⟨begins, inRest⟩, atStop⟩

end

def last (before : Nat) : List Block → Nat
  | [] => before
  | b :: rest => last b.start rest

@[simp] theorem last_concat (before : Nat) (bs : List Block) (b : Block) :
    last before (bs ++ [b]) = b.start := by
  induction bs generalizing before with
  | nil => rfl
  | cons a rest ih => exact ih a.start

theorem last_append (before : Nat) (front rear : List Block) :
    last before (front ++ rear) = last (last before front) rear := by
  induction front generalizing before with
  | nil => rfl
  | cons a rest ih => exact ih a.start

theorem last_of_ne_nil (filled : bs ≠ []) (before u : Nat) : last before bs = last u bs := by
  cases bs with
  | nil => exact absurd rfl filled
  | cons b rest => rfl

theorem append_iff {front rear : List Block} : Tiles headers gap before start (front ++ rear) stop ↔
      ∃ middle, Tiles headers gap before start front middle ∧
        Tiles headers gap (last before front) middle rear stop := by
  induction front generalizing before start with
  | nil => simp [Tiles, last]
  | cons b rest ih =>
    simp only [List.cons_append, Tiles, ih]
    constructor
    · rintro ⟨rfl, next, prev, used, room, middle, front, rear⟩
      exact ⟨middle, ⟨rfl, next, prev, used, room, front⟩, rear⟩
    · rintro ⟨middle, ⟨rfl, next, prev, used, room, front⟩, rear⟩
      exact ⟨rfl, next, prev, used, room, middle, front, rear⟩

section

variable (tiles : Tiles headers gap before start bs stop)

include tiles

theorem mem_bounds {b : Block} (mem : b ∈ bs) :
    start ≤ b.start ∧ b.start + gap ≤ b.stop ∧ b.stop ≤ stop := by
  induction bs generalizing before start with
  | nil => simp at mem
  | cons a rest ih =>
    obtain ⟨rfl, -, -, -, room, tiles⟩ := tiles
    have inside := tiles.le
    rcases List.mem_cons.mp mem with rfl | inRest
    · exact ⟨Nat.le_refl _, room, inside⟩
    · obtain ⟨above, own, below⟩ := ih tiles inRest
      exact ⟨by omega, own, below⟩

theorem relink_starts {before' : Nat} (pos : 0 < gap)
    (next : ∀ b ∈ bs, u.next b.start = headers.next b.start)
    (used : ∀ b ∈ bs, u.used b.start = headers.used b.start)
    (prev : ∀ b ∈ bs, b.start ≠ start → u.prev b.start = headers.prev b.start)
    (first : start < stop → u.prev start = before') : Tiles u gap before' start bs stop := by
  induction bs generalizing before before' start with
  | nil => exact tiles
  | cons b rest ih =>
    obtain ⟨rfl, isNext, -, isUsed, room, tiles⟩ := tiles
    have inside := tiles.le
    refine ⟨rfl, (next b List.mem_cons_self).trans isNext, first (by omega),
      (used b List.mem_cons_self).trans isUsed, room, ?_⟩
    apply ih tiles
    · exact fun later mem => next later (List.mem_cons_of_mem _ mem)
    · exact fun later mem => used later (List.mem_cons_of_mem _ mem)
    · intro later mem _
      have above := (tiles.mem_bounds mem).1
      exact prev later (List.mem_cons_of_mem _ mem) (by omega)
    · intro more
      cases rest with
      | nil => exact absurd tiles (by simp only [Tiles]; omega)
      | cons second others =>
        obtain ⟨isStart, -, isPrev, -⟩ := tiles
        rw [← isStart] at isPrev ⊢
        exact (prev second (by simp) (by omega)).trans isPrev

theorem pairwise : bs.Pairwise fun a second => a.stop ≤ second.start := by
  induction bs generalizing before start with
  | nil => exact List.Pairwise.nil
  | cons b rest ih =>
    obtain ⟨-, -, -, -, -, tiles⟩ := tiles
    refine List.pairwise_cons.mpr ⟨?_, ih tiles⟩
    intro later mem
    exact (tiles.mem_bounds mem).1

theorem pairwise_start (pos : 0 < gap) : bs.Pairwise fun a second => a.start < second.start := by
  apply tiles.pairwise.imp_of_mem
  intro a second inBlocks _ ordered
  have := tiles.mem_bounds inBlocks
  omega

theorem apart {a second : Block} (inBlocks : a ∈ bs) (inBlocks' : second ∈ bs) :
    a = second ∨ a.stop ≤ second.start ∨ second.stop ≤ a.start := by
  by_cases same : a = second
  · exact .inl same
  · have symmetric : Std.Symm fun a second : Block =>
        a.stop ≤ second.start ∨ second.stop ≤ a.start := ⟨fun _ _ => Or.symm⟩
    have ordered := tiles.pairwise.imp (S := fun a second : Block =>
      a.stop ≤ second.start ∨ second.stop ≤ a.start) .inl
    exact .inr (ordered.forall inBlocks inBlocks' same)

end

theorem unique {blocks' : List Block} (pos : 0 < gap)
    (tiles : Tiles headers gap before start bs stop)
    (tiles' : Tiles headers gap before start blocks' stop) : bs = blocks' := by
  induction bs generalizing before start blocks' with
  | nil =>
    cases blocks' with
    | nil => rfl
    | cons b rest =>
      obtain ⟨-, -, -, -, room, rest⟩ := tiles'
      have := rest.le
      simp only [Tiles] at tiles
      omega
  | cons b rest ih =>
    cases blocks' with
    | nil =>
      obtain ⟨-, -, -, -, room, rest⟩ := tiles
      have := rest.le
      simp only [Tiles] at tiles'
      omega
    | cons block' rest' =>
      obtain ⟨isStart, isNext, -, isUsed, -, rest⟩ := tiles
      obtain ⟨isStart', isNext', -, isUsed', -, rest'⟩ := tiles'
      have same : b = block' := by
        cases b
        cases block'
        simp_all
      subst same
      rw [ih rest rest']

theorem focus (tiles : Tiles headers gap before start bs stop) {b : Block} (mem : b ∈ bs) :
    ∃ front rear, bs = front ++ b :: rear ∧ Tiles headers gap before start front b.start ∧
      headers.next b.start = b.stop ∧ headers.prev b.start = last before front ∧
      headers.used b.start = b.used ∧ b.start + gap ≤ b.stop ∧
      Tiles headers gap b.start b.stop rear stop := by
  obtain ⟨front, rear, rfl⟩ := List.append_of_mem mem
  obtain ⟨middle, frontTiles, rearTiles⟩ := append_iff.mp tiles
  obtain ⟨rfl, next, prev, used, room, rearTiles⟩ := rearTiles
  exact ⟨front, rear, rfl, frontTiles, next, prev, used, room, rearTiles⟩

theorem replace_starts {front middle rear : List Block} {a second : Nat} {before' : Nat}
    (pos : 0 < gap) (frontTiles : Tiles headers gap before start front a)
    (middleTiles : Tiles u gap (last before front) a middle second)
    (rearTiles : Tiles headers gap before' second rear stop)
    (next : ∀ b, b ∈ front ∨ b ∈ rear → u.next b.start = headers.next b.start)
    (used : ∀ b, b ∈ front ∨ b ∈ rear → u.used b.start = headers.used b.start)
    (prev : ∀ b, b ∈ front ∨ b ∈ rear → b.start ≠ second → u.prev b.start = headers.prev b.start)
    (behind : second < stop → u.prev second = last (last before front) middle) :
    Tiles u gap before start (front ++ (middle ++ rear)) stop := by
  have below := middleTiles.le
  have notSecond : ∀ b ∈ front, b.start ≠ second := by
    intro b mem
    have := frontTiles.mem_bounds mem
    omega
  apply append_iff.mpr
  refine ⟨a, ?_, append_iff.mpr ⟨second, middleTiles, ?_⟩⟩
  · apply frontTiles.relink_starts pos
    · exact fun b mem => next b (.inl mem)
    · exact fun b mem => used b (.inl mem)
    · exact fun b mem _ => prev b (.inl mem) (notSecond b mem)
    · intro more
      cases front with
      | nil => exact absurd frontTiles (by simp only [Tiles]; omega)
      | cons b rest =>
        obtain ⟨isStart, -, isPrev, -⟩ := frontTiles
        rw [← isStart] at isPrev ⊢
        exact (prev b (by simp) (notSecond b (by simp))).trans isPrev
  · apply rearTiles.relink_starts pos
    · exact fun b mem => next b (.inr mem)
    · exact fun b mem => used b (.inr mem)
    · exact fun b mem => prev b (.inr mem)
    · exact behind

theorem replace {front middle rear : List Block} {a second : Nat} {before' : Nat} (pos : 0 < gap)
    (frontTiles : Tiles headers gap before start front a)
    (middleTiles : Tiles u gap (last before front) a middle second)
    (rearTiles : Tiles headers gap before' second rear stop)
    (next : ∀ p, p < a ∨ second ≤ p → p < stop → u.next p = headers.next p)
    (used : ∀ p, p < a ∨ second ≤ p → p < stop → u.used p = headers.used p)
    (prev : ∀ p, p < a ∨ second < p → p < stop → u.prev p = headers.prev p)
    (behind : second < stop → u.prev second = last (last before front) middle) :
    Tiles u gap before start (front ++ (middle ++ rear)) stop := by
  have below := middleTiles.le
  have inside := rearTiles.le
  have outside : ∀ b, b ∈ front ∨ b ∈ rear →
      (b.start < a ∨ second ≤ b.start) ∧ b.start < stop := by
    rintro b (inFront | inRear)
    · have := frontTiles.mem_bounds inFront
      omega
    · have := rearTiles.mem_bounds inRear
      omega
  apply replace_starts pos frontTiles middleTiles rearTiles
  · exact fun b mem => next _ (outside b mem).1 (outside b mem).2
  · exact fun b mem => used _ (outside b mem).1 (outside b mem).2
  · intro b mem notSecond
    have := (outside b mem).1
    exact prev _ (by omega) (outside b mem).2
  · exact behind

end Tiles
