import Mathlib.Data.List.Cycle

/-!
# Intrusive circular lists

Every node carries a forward and a backward link, and a list is the ring of nodes reached from one
of them.
-/

universe u v

@[ext]
structure Links (Node : Type u) where
  next : Node → Node
  prev : Node → Node

namespace Links

variable {Node : Type u}

def Adjacent (links : Links Node) (before after : Node) : Prop :=
  links.next before = after ∧ links.prev after = before

/-- The nodes of `ring` are distinct and linked in its order. -/
def IsRing (links : Links Node) (ring : Cycle Node) : Prop :=
  ring.Nodup ∧ ring.Chain links.Adjacent

variable {links : Links Node} {n node : Node} {rest : List Node}

theorem isRing_cons_iff : links.IsRing (n :: rest : List Node) ↔
      (n :: rest).Nodup ∧ (n :: (rest ++ [n])).IsChain links.Adjacent := by
  simp [IsRing]

def Alone (links : Links Node) (node : Node) : Prop :=
  links.next node = node ∧ links.prev node = node

theorem isRing_singleton_iff : links.IsRing ([n] : List Node) ↔ links.Alone n := by
  rw [isRing_cons_iff]
  simp [Adjacent, Alone]

theorem next_mem_of_isChain {last : Node} (chain : (n :: (rest ++ [last])).IsChain links.Adjacent) :
    ∀ other ∈ n :: rest, links.next other ∈ rest ++ [last] := by
  induction rest generalizing n with
  | nil =>
    intro other mem
    obtain rfl := List.mem_singleton.mp mem
    have adjacent : links.Adjacent other last := by simpa using chain
    exact List.mem_singleton.mpr adjacent.1
  | cons a rest ih =>
    obtain ⟨adjacent, chain⟩ := List.isChain_cons_cons.mp chain
    intro other mem
    rcases List.mem_cons.mp mem with rfl | inRest
    · rw [adjacent.1]
      exact List.mem_cons_self
    · exact List.mem_cons_of_mem _ (ih chain other inRest)

theorem exists_iterate_of_isChain (chain : (node :: rest).IsChain links.Adjacent) :
    ∀ other ∈ node :: rest, ∃ n, links.next^[n] node = other := by
  induction rest generalizing node with
  | nil =>
    intro other mem
    exact ⟨0, (List.mem_singleton.mp mem).symm⟩
  | cons a rest ih =>
    obtain ⟨adjacent, chain⟩ := List.isChain_cons_cons.mp chain
    intro other mem
    rcases List.mem_cons.mp mem with rfl | inRest
    · exact ⟨0, rfl⟩
    · obtain ⟨n, reached⟩ := ih chain other inRest
      refine ⟨n + 1, ?_⟩
      rw [Function.iterate_succ_apply, adjacent.1, reached]

theorem IsRing.exists_iterate_iff
    (isRing : links.IsRing (node :: rest : List Node)) (other : Node) :
    (∃ n, links.next^[n] node = other) ↔ other ∈ node :: rest := by
  have chain := (isRing_cons_iff.mp isRing).2
  constructor
  · rintro ⟨n, rfl⟩
    induction n with
    | zero => exact List.mem_cons_self
    | succ n ih =>
      rw [Function.iterate_succ_apply']
      have inRing := next_mem_of_isChain chain _ ih
      simpa [or_comm] using inRing
  · intro mem
    apply exists_iterate_of_isChain chain
    exact List.mem_append_left _ mem

theorem exists_iterate_congr {next other : Node → Node} {target : Node}
    (agree : ∀ node, node ≠ target → next node = other node) {start : Node}
    (reached : ∃ n, next^[n] start = target) : ∃ n, other^[n] start = target := by
  obtain ⟨n, reached⟩ := reached
  induction n generalizing start with
  | zero => exact ⟨0, reached⟩
  | succ n ih =>
    by_cases same : start = target
    · exact ⟨0, same⟩
    · rw [Function.iterate_succ_apply, agree start same] at reached
      obtain ⟨m, reached⟩ := ih reached
      exact ⟨m + 1, reached⟩

variable [DecidableEq Node]

def setNext (links : Links Node) (node target : Node) : Links Node :=
  { links with next := Function.update links.next node target }

def setPrev (links : Links Node) (node target : Node) : Links Node :=
  { links with prev := Function.update links.prev node target }

@[simp] theorem setNext_next (links : Links Node) (n target other : Node) :
    (links.setNext n target).next other = if other = n then target else links.next other := by
  simp [setNext, Function.update_apply]

@[simp] theorem setNext_prev (links : Links Node) (n target : Node) :
    (links.setNext n target).prev = links.prev := rfl

@[simp] theorem setPrev_prev (links : Links Node) (n target other : Node) :
    (links.setPrev n target).prev other = if other = n then target else links.prev other := by
  simp [setPrev, Function.update_apply]

@[simp] theorem setPrev_next (links : Links Node) (n target : Node) :
    (links.setPrev n target).next = links.next := rfl

def insertAfter (links : Links Node) (p node : Node) : Links Node :=
  let links := links.setPrev (links.next p) node
  let links := links.setNext node (links.next p)
  let links := links.setNext p node
  links.setPrev node p

def insertBefore (links : Links Node) (p node : Node) : Links Node :=
  let links := links.setNext (links.prev p) node
  let links := links.setPrev node (links.prev p)
  let links := links.setPrev p node
  links.setNext node p

def remove (links : Links Node) (node : Node) : Links Node :=
  let links := links.setPrev (links.next node) (links.prev node)
  let links := links.setNext (links.prev node) (links.next node)
  let links := links.setPrev node node
  links.setNext node (links.prev node)

def unlink (links : Links Node) (node : Node) : Links Node :=
  let links := links.setPrev (links.next node) (links.prev node)
  links.setNext (links.prev node) (links.next node)

section

omit [DecidableEq Node]

theorem IsRing.congr {other : Links Node} {ring : Cycle Node} (isRing : links.IsRing ring)
    (agree : ∀ n ∈ ring, other.next n = links.next n ∧ other.prev n = links.prev n) :
    other.IsRing ring := by
  induction ring using Cycle.induction_on with
  | nil => exact isRing
  | cons n rest _ =>
    refine ⟨isRing.1, isRing.2.imp_of_mem_imp ?_⟩
    rintro before s' beforeMem afterMem ⟨forward, backward⟩
    have inRing : ∀ x ∈ n :: (rest ++ [n]), x ∈ ((n :: rest : List Node) : Cycle Node) := by
      intro x mem
      simpa [or_comm] using mem
    exact ⟨(agree _ (inRing _ beforeMem)).1.trans forward,
      (agree _ (inRing _ afterMem)).2.trans backward⟩

theorem isChain_adjacent_transport {other : Links Node} {nodes : List Node}
    (nodup : nodes.Nodup) (chain : nodes.IsChain links.Adjacent)
    (forward : ∀ n ∈ nodes, nodes.getLast? ≠ some n → other.next n = links.next n)
    (backward : ∀ n ∈ nodes, nodes.head? ≠ some n → other.prev n = links.prev n) :
    nodes.IsChain other.Adjacent := by
  rw [List.isChain_iff_forall_rel_of_append_cons_cons] at chain ⊢
  intro before s' front back split
  obtain ⟨toAfter, toBefore⟩ := chain split
  subst split
  refine ⟨(forward before (by simp) ?_).trans toAfter, (backward s' (by simp) ?_).trans toBefore⟩
  · intro isLast
    have inBack : before ∈ s' :: back := by
      apply List.mem_of_getLast?
      simpa using isLast
    have := (List.nodup_append.mp nodup).2.1
    exact (List.nodup_cons.mp this).1 inBack
  · intro isHead
    have inFront : s' ∈ front ++ [before] := by
      cases front with
      | nil | cons a front => simp at isHead; simp [isHead]
    have disjoint := (List.nodup_append.mp (by simpa using nodup :
      ((front ++ [before]) ++ s' :: back).Nodup)).2.2
    exact disjoint _ inFront _ List.mem_cons_self rfl

theorem IsRing.rotate {front back : List Node} (isRing : links.IsRing (front ++ back : List Node)) :
    links.IsRing (back ++ front : List Node) := by
  have same : ((back ++ front : List Node) : Cycle Node) = (front ++ back : List Node) :=
    Cycle.coe_eq_coe.mpr List.isRotated_append
  rwa [same]

theorem IsRing.prev_eq_getLast (isRing : links.IsRing (node :: rest : List Node)) :
    links.Adjacent ((node :: rest).getLast (List.cons_ne_nil _ _)) node := by
  have chain := (isRing_cons_iff.mp isRing).2
  rw [← List.cons_append, ← List.dropLast_append_getLast (List.cons_ne_nil node rest),
    List.append_assoc, List.singleton_append, List.isChain_split] at chain
  simpa using chain.2

theorem IsRing.links_mem {ring : List Node} (isRing : links.IsRing (ring : Cycle Node))
    (mem : n ∈ ring) : links.next n ∈ ring ∧ links.prev n ∈ ring := by
  obtain ⟨front, back, rfl⟩ := List.append_of_mem mem
  have read : links.IsRing (n :: (back ++ front) : List Node) := IsRing.rotate isRing
  have next_mem := next_mem_of_isChain (isRing_cons_iff.mp read).2 n List.mem_cons_self
  have prev_mem : links.prev n ∈ n :: (back ++ front) := by
    rw [read.prev_eq_getLast.2]
    exact List.getLast_mem _
  constructor
  · simp only [List.mem_append, List.mem_cons] at next_mem ⊢
    tauto
  · simp only [List.mem_append, List.mem_cons] at prev_mem ⊢
    tauto

end

theorem insertAfter_eq_insertBefore {p : Node}
    (back : links.prev (links.next p) = p) (fresh : n ≠ p) (fresh' : n ≠ links.next p) :
    links.insertAfter p n = links.insertBefore (links.next p) n := by
  simp only [insertAfter, insertBefore]
  ext other
  · simp only [setPrev_next, setNext_next]
    grind
  · simp only [setPrev_prev, setNext_prev]
    grind

theorem IsRing.insertBefore {p : Node} (isRing : links.IsRing (p :: rest : List Node))
    (fresh : n ∉ p :: rest) : (links.insertBefore p n).IsRing (p :: (rest ++ [n]) : List Node) := by
  set last := (p :: rest).getLast (List.cons_ne_nil _ _) with lastDef
  have lastAdjacent : links.Adjacent last p := isRing.prev_eq_getLast
  have lastMem : last ∈ p :: rest := List.getLast_mem _
  have lastIs : (p :: rest).getLast? = some last := List.getLast?_eq_some_getLast _
  obtain ⟨nodup, chain⟩ := isRing_cons_iff.mp isRing
  have notLast : n ≠ last := fun equal => fresh (equal ▸ lastMem)
  have inner : (p :: rest).IsChain (links.insertBefore p n).Adjacent := by
    have unclosed : ((p :: rest) ++ [p]).IsChain links.Adjacent := by simpa using chain
    refine isChain_adjacent_transport nodup (List.isChain_append.mp unclosed).1 ?_ ?_
    · intro other mem isNotLast
      have : other ≠ last := fun equal => isNotLast (equal ▸ lastIs)
      have : other ≠ n := fun equal => fresh (equal ▸ mem)
      simp_all [Links.insertBefore, Adjacent]
    · intro other mem isNotFirst
      have : other ≠ p := by simpa [eq_comm] using isNotFirst
      have : other ≠ n := fun equal => fresh (equal ▸ mem)
      simp_all [Links.insertBefore]
  have toNode : (links.insertBefore p n).Adjacent last n := by
    have := notLast.symm
    simp_all [Links.insertBefore, Adjacent]
  have toPlace : (links.insertBefore p n).Adjacent n p := by simp_all [Links.insertBefore, Adjacent]
  refine isRing_cons_iff.mpr ⟨?_, ?_⟩
  · rw [← List.cons_append]
    exact List.nodup_append.mpr ⟨nodup, List.nodup_singleton _, by
      intro other mem other' membership'
      rw [List.mem_singleton.mp membership']
      exact fun equal => fresh (equal ▸ mem)⟩
  · have : p :: (rest ++ [n] ++ [p]) = (p :: rest) ++ [n, p] := by simp
    rw [this, List.isChain_append]
    refine ⟨inner, by simpa using toPlace, ?_⟩
    intro x isLast y isHead
    rw [lastIs] at isLast
    simp only [Option.mem_def, Option.some.injEq, List.head?_cons] at isLast isHead
    subst isLast isHead
    exact toNode

theorem IsRing.insertAfter {p : Node} (isRing : links.IsRing (p :: rest : List Node))
    (fresh : n ∉ p :: rest) : (links.insertAfter p n).IsRing (p :: n :: rest : List Node) := by
  obtain ⟨nodup, chain⟩ := isRing_cons_iff.mp isRing
  cases rest with
  | nil =>
    have alone : links.next p = p ∧ links.prev p = p := by simpa [Adjacent] using chain
    have notPlace : n ≠ p := by simpa using fresh
    rw [insertAfter_eq_insertBefore (by rw [alone.1, alone.2]) notPlace (by rwa [alone.1]), alone.1]
    exact isRing.insertBefore fresh
  | cons a rest =>
    have adjacent : links.Adjacent p a := by simpa using (List.isChain_cons_cons.mp chain).1
    rw [insertAfter_eq_insertBefore (by rw [adjacent.1, adjacent.2])
      (fun equal => fresh (by simp [equal])) (fun equal => fresh (by simp [equal, adjacent.1])),
      adjacent.1]
    have read : links.IsRing (a :: (rest ++ [p]) : List Node) :=
      IsRing.rotate (by simpa using isRing : links.IsRing ([p] ++ a :: rest : List Node))
    have absent : n ∉ a :: (rest ++ [p]) := by simp_all
    have inserted := read.insertBefore absent
    exact IsRing.rotate (by simpa using inserted :
      (links.insertBefore a n).IsRing (a :: rest ++ [p, n] : List Node))

theorem IsRing.remove (isRing : links.IsRing (n :: rest : List Node)) (others : rest ≠ []) :
    (links.remove n).IsRing rest := by
  obtain ⟨a, more, rfl⟩ := List.exists_cons_of_ne_nil others
  obtain ⟨nodup, chain⟩ := isRing_cons_iff.mp isRing
  have lastAdjacent := isRing.prev_eq_getLast
  set last := (a :: more).getLast (List.cons_ne_nil _ _) with lastDef
  have lastMem : last ∈ a :: more := List.getLast_mem _
  have lastIs : (a :: more).getLast? = some last := List.getLast?_eq_some_getLast _
  obtain ⟨fresh, nodupRest⟩ := List.nodup_cons.mp nodup
  have notFirst : a ≠ n := fun equal => fresh (equal ▸ List.mem_cons_self)
  have notLast : last ≠ n := fun equal => fresh (equal ▸ lastMem)
  obtain ⟨toFirst, chainRest⟩ : links.Adjacent n a ∧
      (a :: (more ++ [n])).IsChain links.Adjacent := by
    simpa using chain
  have inner : (a :: more).IsChain (links.remove n).Adjacent := by
    have unclosed : ((a :: more) ++ [n]).IsChain links.Adjacent := by simpa using chainRest
    refine isChain_adjacent_transport nodupRest (List.isChain_append.mp unclosed).1 ?_ ?_
    · intro other mem isNotLast
      have : other ≠ last := fun equal => isNotLast (equal ▸ lastIs)
      have : other ≠ n := fun equal => fresh (equal ▸ mem)
      simp_all [Links.remove, Adjacent]
    · intro other mem isNotFirst
      have : other ≠ a := by simpa [eq_comm] using isNotFirst
      have : other ≠ n := fun equal => fresh (equal ▸ mem)
      simp_all [Links.remove, Adjacent]
  have closing : (links.remove n).Adjacent last a := by simp_all [Links.remove, Adjacent]
  refine isRing_cons_iff.mpr ⟨nodupRest, ?_⟩
  rw [← List.cons_append, List.isChain_append]
  refine ⟨inner, by simp, ?_⟩
  intro x isLast y isHead
  rw [lastIs] at isLast
  simp only [Option.mem_def, Option.some.injEq, List.head?_cons] at isLast isHead
  subst isLast isHead
  exact closing

theorem IsRing.unlink (isRing : links.IsRing (n :: rest : List Node)) (others : rest ≠ []) :
    (links.unlink n).IsRing rest := by
  have fresh := (List.nodup_cons.mp isRing.1).1
  refine (isRing.remove others).congr fun other mem => ?_
  have notNode : other ≠ n := fun equal => fresh (equal ▸ Cycle.mem_coe_iff.mp mem)
  simp [Links.remove, Links.unlink, notNode]

theorem IsRing.unlink_of_mem {a : Node} (isRing : links.IsRing (a :: rest : List Node))
    (mem : n ∈ rest) : (links.unlink n).IsRing (a :: rest.erase n : List Node) := by
  obtain ⟨front, back, rfl⟩ := List.append_of_mem mem
  have fresh : n ∉ front := by
    intro inFront
    have nodup := (List.nodup_cons.mp isRing.1).2
    exact (List.nodup_append.mp nodup).2.2 n inFront n List.mem_cons_self rfl
  have read : links.IsRing ((n :: back) ++ (a :: front) : List Node) :=
    IsRing.rotate (isRing : links.IsRing ((a :: front) ++ (n :: back) : List Node))
  have unlinked := (IsRing.unlink read (by simp)).rotate
  rwa [List.erase_append_right _ fresh, List.erase_cons_head]

end Links
