import RtThread.Library.Tiling
import Mathlib.Algebra.Ring.Nat

/-!
# Used and free blocks of a tiling

Lists of blocks as an allocator sees them: the blocks in use and the space they take, the
lowest free block, and what merging two free neighbours does to these.
-/

def usedBlocks (blocks : List Block) : List Block := blocks.filter (·.used)

def spaceOf (blocks : List Block) : Nat := (blocks.map fun b => b.stop - b.start).sum

def freeBlocks (blocks : List Block) : List Block := blocks.filter (!·.used)

def roomOf (gap : Nat) (blocks : List Block) : Nat :=
  (blocks.map fun b => b.stop - b.start - gap).sum

/-- The start of the lowest free block, or `stop` when no block is free. -/
def lowestFree (stop : Nat) : List Block → Nat
  | [] => stop
  | b :: rest => if b.used then lowestFree stop rest else b.start

def FreeAt (stop : Nat) (blocks : List Block) (p : Nat) : Prop :=
  p = stop ∨ ∃ b ∈ blocks, b.used = false ∧ b.start = p

def Isolated (blocks : List Block) : Prop :=
  blocks.IsChain fun first second => first.used = true ∨ second.used = true

section Lists

variable {stop : Nat} {front rear blocks : List Block}

@[simp] theorem usedBlocks_nil : usedBlocks [] = [] := rfl

@[simp] theorem usedBlocks_cons (b : Block) (rest : List Block) :
    usedBlocks (b :: rest) = if b.used then b :: usedBlocks rest else usedBlocks rest := by
  simp [usedBlocks, List.filter_cons]

@[simp] theorem usedBlocks_append (front rear : List Block) :
    usedBlocks (front ++ rear) = usedBlocks front ++ usedBlocks rear := List.filter_append ..

theorem mem_usedBlocks {b : Block} :
    b ∈ usedBlocks blocks ↔ b ∈ blocks ∧ b.used = true := List.mem_filter

@[simp] theorem spaceOf_nil : spaceOf [] = 0 := rfl

@[simp] theorem spaceOf_cons (b : Block) (rest : List Block) :
    spaceOf (b :: rest) = b.stop - b.start + spaceOf rest := rfl

@[simp] theorem spaceOf_append (front rear : List Block) :
    spaceOf (front ++ rear) = spaceOf front + spaceOf rear := by
  simp [spaceOf]

@[simp] theorem freeBlocks_nil : freeBlocks [] = [] := rfl

@[simp] theorem freeBlocks_cons (b : Block) (rest : List Block) :
    freeBlocks (b :: rest) = if b.used then freeBlocks rest else b :: freeBlocks rest := by
  cases used : b.used <;> simp [freeBlocks, used]

@[simp] theorem freeBlocks_append (front rear : List Block) :
    freeBlocks (front ++ rear) = freeBlocks front ++ freeBlocks rear := List.filter_append ..

theorem mem_freeBlocks {b : Block} : b ∈ freeBlocks blocks ↔ b ∈ blocks ∧ b.used = false := by
  simp [freeBlocks]

@[simp] theorem roomOf_nil (gap : Nat) : roomOf gap [] = 0 := rfl

@[simp] theorem roomOf_cons (gap : Nat) (b : Block) (rest : List Block) :
    roomOf gap (b :: rest) = b.stop - b.start - gap + roomOf gap rest := rfl

@[simp] theorem roomOf_append (gap : Nat) (front rear : List Block) :
    roomOf gap (front ++ rear) = roomOf gap front + roomOf gap rear := by
  simp [roomOf]

theorem isolated_iff {b : Block} : Isolated (front ++ b :: rear) ↔ Isolated front ∧ Isolated rear ∧
      (b.used = true ∨ (∀ last ∈ front.getLast?, last.used = true) ∧
        ∀ a ∈ rear.head?, a.used = true) := by
  unfold Isolated
  rw [List.isChain_append, List.isChain_cons]
  simp only [List.head?_cons, Option.mem_def, Option.some.injEq]
  constructor
  · rintro ⟨front, ⟨behind, rear⟩, before⟩
    refine ⟨front, rear, ?_⟩
    by_cases used : b.used = true
    · exact .inl used
    · refine .inr ⟨fun last isLast => ?_, fun a isFirst => ?_⟩
      · exact (before last isLast b rfl).resolve_right used
      · exact (behind a isFirst).resolve_left used
  · rintro ⟨front, rear, neighbours⟩
    refine ⟨front, ⟨fun a isFirst => ?_, rear⟩, ?_⟩
    · exact neighbours.imp_right fun used => used.2 a isFirst
    · rintro last isLast _ rfl
      exact neighbours.symm.imp_left fun used => used.1 last isLast

theorem isolated_cons_iff {b : Block} :
    Isolated (b :: rear) ↔ Isolated rear ∧ (b.used = true ∨ ∀ a ∈ rear.head?, a.used = true) := by
  have whole : Isolated ([] ++ b :: rear) ↔ _ := isolated_iff
  simpa [Isolated] using whole

theorem freeAt_lowestFree (stop : Nat) (blocks : List Block) :
    FreeAt stop blocks (lowestFree stop blocks) := by
  induction blocks with
  | nil => exact .inl rfl
  | cons b rest ih =>
    cases used : b.used with
    | false => exact .inr ⟨b, List.mem_cons_self, used, by simp [lowestFree, used]⟩
    | true =>
      simp only [lowestFree, used]
      rcases ih with atStop | ⟨u, mem, free, isStart⟩
      · exact .inl atStop
      · exact .inr ⟨u, List.mem_cons_of_mem _ mem, free, isStart⟩

theorem FreeAt.mono {stop p : Nat} {blocks others : List Block} (freeAt : FreeAt stop blocks p)
    (kept : ∀ b ∈ blocks, b.used = false → ∃ u ∈ others, u.used = false ∧ u.start = b.start) :
    FreeAt stop others p := by
  rcases freeAt with atStop | ⟨b, mem, free, rfl⟩
  · exact .inl atStop
  · exact .inr (kept b mem free)

theorem lowestFree_append (stop : Nat) (front rear : List Block) :
    lowestFree stop (front ++ rear) = lowestFree (lowestFree stop rear) front := by
  induction front with
  | nil => rfl
  | cons b rest ih =>
    simp only [List.cons_append, lowestFree, ih]

theorem lowestFree_of_used (allUsed : ∀ b ∈ blocks, b.used = true) :
    lowestFree stop blocks = stop := by
  induction blocks with
  | nil => rfl
  | cons b rest ih =>
    rw [lowestFree, if_pos (allUsed b List.mem_cons_self)]
    exact ih fun u mem =>
      allUsed u (List.mem_cons_of_mem _ mem)

theorem lowestFree_of_free {b : Block} (mem : b ∈ blocks) (free : b.used = false) (stop u : Nat) :
    lowestFree stop blocks = lowestFree u blocks := by
  induction blocks with
  | nil => simp at mem
  | cons a rest ih =>
    cases used : a.used with
    | false => simp [lowestFree, used]
    | true =>
      simp only [lowestFree, used]
      rcases List.mem_cons.mp mem with rfl | inRest
      · simp [free] at used
      · exact ih inRest

theorem used_or_free (blocks : List Block) :
    (∀ b ∈ blocks, b.used = true) ∨ ∃ b ∈ blocks, b.used = false := by
  by_cases anyFree : ∃ b ∈ blocks, b.used = false
  · exact .inr anyFree
  · refine .inl fun b mem => ?_
    cases used : b.used with
    | false => exact absurd ⟨b, mem, used⟩ anyFree
    | true => rfl

end Lists

namespace Tiles

variable {headers : Headers} {gap before start stop : Nat} {front rear blocks : List Block}

theorem spaceOf_usedBlocks_le (tiles : Tiles headers gap before start blocks stop) :
    spaceOf (usedBlocks blocks) ≤ stop - start := by
  induction blocks generalizing before start with
  | nil => simp
  | cons b rest ih =>
    obtain ⟨rfl, -, -, -, room, tiles⟩ := tiles
    have inside := tiles.le
    have below := ih tiles
    rw [usedBlocks_cons]
    split
    · rw [spaceOf_cons]
      omega
    · omega

theorem roomOf_freeBlocks_le (tiles : Tiles headers gap before start blocks stop) :
    roomOf gap (freeBlocks blocks) ≤ stop - start := by
  induction blocks generalizing before start with
  | nil => simp
  | cons b rest ih =>
    obtain ⟨rfl, -, -, -, room, tiles⟩ := tiles
    have inside := tiles.le
    have below := ih tiles
    rw [freeBlocks_cons]
    split
    · omega
    · rw [roomOf_cons]
      omega

theorem spaceOf_usedBlocks_add_le {b : Block}
    (tiles : Tiles headers gap before start (front ++ b :: rear) stop) (free : b.used = false) :
    spaceOf (usedBlocks (front ++ b :: rear)) + (b.stop - b.start) ≤ stop - start := by
  obtain ⟨middle, frontTiles, rfl, -, -, -, room, rearTiles⟩ := append_iff.mp tiles
  have inFront := frontTiles.spaceOf_usedBlocks_le
  have inRear := rearTiles.spaceOf_usedBlocks_le
  have below := frontTiles.le
  have inside := rearTiles.le
  rw [usedBlocks_append, usedBlocks_cons, spaceOf_append, free]
  simp only [Bool.false_eq_true, if_false]
  omega

section

variable (tiles : Tiles headers gap before start blocks stop)

include tiles

theorem lowestFree_lt {b : Block} (mem : b ∈ blocks) (free : b.used = false) (pos : 0 < gap)
    (bound : Nat) : lowestFree bound blocks < stop := by
  rw [lowestFree_of_free mem free bound stop]
  rcases freeAt_lowestFree stop blocks with atStop | ⟨lowest, inBlocks, -, isStart⟩
  · exfalso
    induction blocks generalizing before start with
    | nil => simp at mem
    | cons a rest ih =>
      obtain ⟨rfl, -, -, -, room, tiles⟩ := tiles
      have inside := tiles.le
      cases used : a.used with
      | false =>
        simp only [lowestFree, used] at atStop
        simp at atStop
        omega
      | true =>
        simp only [lowestFree, used] at atStop
        rcases List.mem_cons.mp mem with rfl | inRest
        · simp [free] at used
        · exact ih tiles inRest atStop
  · have := tiles.mem_bounds inBlocks
    omega

theorem le_lowestFree : start ≤ lowestFree stop blocks := by
  rcases freeAt_lowestFree stop blocks with atStop | ⟨b, mem, -, isStart⟩
  · rw [atStop]
    exact tiles.le
  · rw [← isStart]
    exact (tiles.mem_bounds mem).1

theorem used_of_le_lowestFree (pos : 0 < gap) {bound : Nat}
    (above : stop ≤ lowestFree bound blocks) :
    ∀ b ∈ blocks, b.used = true := by
  rcases used_or_free blocks with allUsed | ⟨b, mem, free⟩
  · exact allUsed
  · have := tiles.lowestFree_lt mem free pos bound
    omega

end

end Tiles

structure Merged (stop : Nat) (blocks : List Block) (pointer : Nat) (blocks' : List Block)
    (pointer' : Nat) : Prop where
  used : usedBlocks blocks' = usedBlocks blocks
  starts : ∀ block' ∈ blocks', ∃ b ∈ blocks, b.start = block'.start
  freeAt : FreeAt stop blocks pointer → FreeAt stop blocks' pointer'
  lowest : pointer = lowestFree stop blocks → pointer' = lowestFree stop blocks'

namespace Merged

theorem refl (stop : Nat) (blocks : List Block) (pointer : Nat) :
    Merged stop blocks pointer blocks pointer :=
  ⟨rfl, fun b mem => ⟨b, mem, rfl⟩, id, id⟩

theorem trans {stop pointer pointer' pointer'' : Nat} {blocks blocks' blocks'' : List Block}
    (a : Merged stop blocks pointer blocks' pointer')
    (second : Merged stop blocks' pointer' blocks'' pointer'') :
    Merged stop blocks pointer blocks'' pointer'' where
  used := second.used.trans a.used
  starts := by
    intro block'' membership''
    obtain ⟨block', membership', isStart'⟩ := second.starts block'' membership''
    obtain ⟨b, mem, isStart⟩ := a.starts block' membership'
    exact ⟨b, mem, isStart.trans isStart'⟩
  freeAt freeAt := second.freeAt (a.freeAt freeAt)
  lowest lowest := second.lowest (a.lowest lowest)

theorem pair {headers : Headers} {gap before start stop : Nat} {front rear : List Block}
    {a second : Block} (tiles : Tiles headers gap before start (front ++ a :: second :: rear) stop)
    (pos : 0 < gap) (firstFree : a.used = false) (secondFree : second.used = false)
    (pointer : Nat) : Merged stop (front ++ a :: second :: rear) pointer
      (front ++ { a with stop := second.stop } :: rear)
      (if pointer = second.start then a.start else pointer) where
  used := by simp [firstFree, secondFree]
  starts := by
    intro b mem
    rcases List.mem_append.mp mem with inFront | inRest
    · exact ⟨b, by simp [inFront], rfl⟩
    · rcases List.mem_cons.mp inRest with rfl | inRear
      · exact ⟨a, by simp, rfl⟩
      · exact ⟨b, by simp [inRear], rfl⟩
  freeAt := by
    intro freeAt
    split
    · exact .inr ⟨{ a with stop := second.stop }, by simp, firstFree, rfl⟩
    · rename_i notSecond
      rcases freeAt with atStop | ⟨b, mem, free, rfl⟩
      · exact .inl atStop
      · right
        rcases List.mem_append.mp mem with inFront | inRest
        · exact ⟨b, by simp [inFront], free, rfl⟩
        · rcases List.mem_cons.mp inRest with rfl | inRest
          · exact ⟨{ b with stop := second.stop }, by simp, free, rfl⟩
          · rcases List.mem_cons.mp inRest with rfl | inRear
            · exact absurd rfl notSecond
            · exact ⟨b, by simp [inRear], free, rfl⟩
  lowest := by
    rintro rfl
    obtain ⟨middle, frontTiles, rfl, -, -, -, room, isStart, -⟩ := Tiles.append_iff.mp tiles
    have below : lowestFree a.start front ≤ a.start := by
      rcases used_or_free front with allUsed | ⟨b, mem, free⟩
      · exact Nat.le_of_eq (lowestFree_of_used allUsed)
      · exact Nat.le_of_lt (frontTiles.lowestFree_lt mem free pos _)
    simp only [lowestFree_append, lowestFree, firstFree, Bool.false_eq_true, if_false]
    rw [if_neg (by omega)]

end Merged
