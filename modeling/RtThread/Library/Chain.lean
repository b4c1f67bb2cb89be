import Mathlib.Data.List.Nodup

/-!
# Singly linked chains

Nodes linked through a `next` pointer and ended by a null pointer.
-/

open Function (update_of_ne update_self update_eq_self)

section

universe u

variable {Node : Type u}

/-- The chain of `next` pointers from `start` runs through `nodes`, in this order. -/
def Chain (next : Node → Option Node) : Option Node → List Node → Prop
  | start, [] => start = none
  | start, node :: rest => start = some node ∧ Chain next (next node) rest

/-- Walk along the pointers to the first node that meets `stop`, if there is one. -/
def walk (next : Node → Option Node) (stop : Node → Bool) :
    Nat → Option Node → Option (Option Node)
  | _, none => some none
  | 0, some _ => none
  | fuel + 1, some node => if stop node then some (some node) else walk next stop fuel (next node)

def nodesFrom (next : Node → Option Node) : Nat → Option Node → List Node
  | _, none => []
  | 0, some _ => []
  | fuel + 1, some node => node :: nodesFrom next fuel (next node)

variable {n : Node}

namespace Chain

variable {next : Node → Option Node} {start : Option Node} {nodes : List Node}

theorem eq_none_iff (chain : Chain next start nodes) : start = none ↔ nodes = [] := by
  cases nodes with
  | nil => exact iff_of_true chain rfl
  | cons n rest => simp [chain.1]

theorem cases_some (chain : Chain next (some n) nodes) :
    ∃ rest, nodes = n :: rest ∧ Chain next (next n) rest := by
  cases nodes with
  | nil => exact absurd chain (by simp [Chain])
  | cons a rest =>
    obtain ⟨isFirst, chain⟩ := chain
    obtain rfl : n = a := by simpa using isFirst
    exact ⟨rest, rfl, chain⟩

section

variable (chain : Chain next start nodes)

include chain

theorem unique {others : List Node} (other : Chain next start others) : nodes = others := by
  induction nodes generalizing start others with
  | nil => exact (other.eq_none_iff.mp chain).symm
  | cons a rest ih =>
    obtain ⟨isFirst, chain⟩ := chain
    rw [isFirst] at other
    obtain ⟨more, rfl, otherRest⟩ := other.cases_some
    rw [ih chain otherRest]

theorem congr {other : Node → Option Node} (agree : ∀ n ∈ nodes, other n = next n) :
    Chain other start nodes := by
  induction nodes generalizing start with
  | nil => exact chain
  | cons first rest ih =>
    obtain ⟨isFirst, chain⟩ := chain
    refine ⟨isFirst, ?_⟩
    rw [agree first List.mem_cons_self]
    apply ih chain
    intro n mem
    exact agree n (List.mem_cons_of_mem first mem)

theorem start_eq_head? : start = nodes.head? := by
  cases nodes with
  | nil => exact chain
  | cons n rest => exact chain.1

theorem walk_eq (stop : Node → Bool) {fuel : Nat} (enough : nodes.length ≤ fuel) :
    walk next stop fuel start = some (nodes.find? stop) := by
  induction nodes generalizing start fuel with
  | nil =>
    obtain rfl : start = none := chain
    cases fuel <;> rfl
  | cons n rest ih =>
    obtain ⟨rfl, chain⟩ := chain
    cases fuel with
    | zero => simp at enough
    | succ fuel =>
      by_cases stops : stop n = true
      · simp [walk, stops]
      · simpa [walk, stops] using ih chain (by simpa using enough)

theorem nodesFrom_eq {fuel : Nat} (enough : nodes.length ≤ fuel) :
    nodesFrom next fuel start = nodes := by
  induction nodes generalizing start fuel with
  | nil =>
    obtain rfl : start = none := chain
    cases fuel <;> rfl
  | cons n rest ih =>
    obtain ⟨rfl, chain⟩ := chain
    cases fuel with
    | zero => simp at enough
    | succ fuel => rw [nodesFrom, ih chain (by simpa using enough)]

end

theorem next_of_append {front rest : List Node} {last : Node}
    (chain : Chain next start (front ++ rest)) (isLast : front.getLast? = some last) :
    Chain next (next last) rest := by
  induction front generalizing start with
  | nil => simp at isLast
  | cons a more ih =>
    cases more with
    | nil =>
      obtain rfl : a = last := by simpa using isLast
      exact chain.2
    | cons second others => exact ih chain.2 (by simpa using isLast)

theorem next_getLast? (chain : Chain next start nodes) {last : Node}
    (isLast : nodes.getLast? = some last) : next last = none := by
  induction nodes generalizing start with
  | nil => simp at isLast
  | cons a rest ih =>
    cases rest with
    | nil =>
      obtain rfl : a = last := by simpa using isLast
      exact chain.2
    | cons second more => exact ih chain.2 (by simpa using isLast)

variable [DecidableEq Node]

theorem update (chain : Chain next start nodes) {n : Node} (outside : n ∉ nodes)
    (target : Option Node) : Chain (Function.update next n target) start nodes := by
  apply chain.congr
  intro other mem
  have ne : other ≠ n := fun equal => outside (equal ▸ mem)
  rw [update_of_ne ne]

theorem push (chain : Chain next start nodes) (outside : n ∉ nodes) :
    Chain (Function.update next n start) (some n) (n :: nodes) := by
  refine ⟨rfl, ?_⟩
  rw [update_self]
  exact chain.update outside start

theorem redirect {front rest others : List Node} {last : Node} {target : Option Node}
    (chain : Chain next start (front ++ rest)) (nodup : front.Nodup)
    (isLast : front.getLast? = some last) (behind : Chain next target others)
    (outside : last ∉ others) :
    Chain (Function.update next last target) start (front ++ others) := by
  induction front generalizing start with
  | nil => simp at isLast
  | cons a more ih =>
    obtain ⟨isFirst, chain⟩ := chain
    obtain ⟨fresh, nodup⟩ := List.nodup_cons.mp nodup
    refine ⟨isFirst, ?_⟩
    cases more with
    | nil =>
      obtain rfl : a = last := by simpa using isLast
      rw [update_self]
      exact behind.update outside _
    | cons second others =>
      have isLast' : (second :: others).getLast? = some last := by simpa using isLast
      have ne : a ≠ last := fun equal => fresh (equal ▸ List.mem_of_getLast? isLast')
      rw [update_of_ne ne]
      exact ih chain nodup isLast'

theorem append (chain : Chain next start nodes) (nodup : nodes.Nodup) {last : Node}
    (isLast : nodes.getLast? = some last) (outside : n ∉ nodes) (isNull : next n = none) :
    Chain (Function.update next last (some n)) start (nodes ++ [n]) := by
  have chain : Chain next start (nodes ++ []) := by rwa [List.append_nil]
  refine chain.redirect nodup isLast ⟨rfl, isNull⟩ fun mem => ?_
  exact outside (List.mem_singleton.mp mem ▸ List.mem_of_getLast? isLast)

theorem insert {front rest : List Node} {last : Node} (chain : Chain next start (front ++ rest))
    (nodup : (front ++ rest).Nodup) (isLast : front.getLast? = some last)
    (outside : n ∉ front ++ rest) (linked : next n = next last) :
    Chain (Function.update next last (some n)) start (front ++ n :: rest) := by
  obtain ⟨nodup, -, apart⟩ := List.nodup_append.mp nodup
  have inFront := List.mem_of_getLast? isLast
  refine chain.redirect nodup isLast ⟨rfl, linked ▸ chain.next_of_append isLast⟩ fun mem => ?_
  rcases List.mem_cons.mp mem with rfl | mem
  · exact outside (List.mem_append_left _ inFront)
  · exact apart _ inFront _ mem rfl

theorem unlink {front rest : List Node} {last : Node}
    (chain : Chain next start (front ++ n :: rest)) (nodup : (front ++ n :: rest).Nodup)
    (isLast : front.getLast? = some last) :
    Chain (Function.update next last (next n)) start (front ++ rest) := by
  obtain ⟨nodup, -, apart⟩ := List.nodup_append.mp nodup
  refine chain.redirect nodup isLast (chain.next_of_append isLast).2 fun mem => ?_
  exact apart _ (List.mem_of_getLast? isLast) _ (List.mem_cons_of_mem _ mem) rfl

omit [DecidableEq Node] in
theorem ofNumbered {n : Nat → Node} {total : Nat}
    (links : ∀ k, k + 1 < total → next (n k) = some (n (k + 1)))
    (last : ∀ k, k + 1 = total → next (n k) = none) (count first : Nat)
    (reaches : first + (count + 1) = total) :
    Chain next (some (n first)) ((List.range' first (count + 1)).map n) := by
  induction count generalizing first with
  | zero => exact ⟨rfl, last first reaches⟩
  | succ count ih =>
    refine ⟨rfl, ?_⟩
    rw [links first (by omega)]
    exact ih (first + 1) (by omega)

end Chain

end

/-!
## Several chains over one set of nodes

Chains that share the `next` pointer of their nodes, one for each index.
-/

section

universe u v

variable {Index : Type u} {Node : Type v}

/-- `head` and `next` link the nodes of every `list index`, and no node twice. -/
structure ChainTable (next : Node → Option Node) (head : Index → Option Node)
    (list : Index → List Node) : Prop where
  chain : ∀ i, Chain next (head i) (list i)
  nodup : ∀ i, (list i).Nodup
  disjoint : ∀ i other node, node ∈ list i → node ∈ list other → i = other

variable {i : Index} {n : Node}

namespace ChainTable

variable {next : Node → Option Node} {head : Index → Option Node} {list : Index → List Node}

theorem head_eq_none_iff (table : ChainTable next head list) (i : Index) :
    head i = none ↔ list i = [] := (table.chain i).eq_none_iff

theorem update [DecidableEq Node] (table : ChainTable next head list) {n : Node}
    (outside : ∀ i, n ∉ list i) (target : Option Node) :
    ChainTable (Function.update next n target) head list :=
  ⟨fun i => (table.chain i).update (outside i) target, table.nodup, table.disjoint⟩

variable [DecidableEq Index]

theorem shrink (table : ChainTable next head list) {start : Option Node} {nodes : List Node}
    {next' : Node → Option Node} {head' : Index → Option Node} (part : nodes.Sublist (list i))
    (head_eq : head' = Function.update head i start) (chain : Chain next' start nodes)
    (agree : ∀ n, n ∉ list i → next' n = next n) :
    ChainTable next' head' (Function.update list i nodes) := by
  subst head_eq
  have within : ∀ other n, n ∈ Function.update list i nodes other →
      n ∈ list other := by
    intro other n mem
    by_cases same : other = i
    · subst same
      rw [update_self] at mem
      exact part.subset mem
    · rwa [update_of_ne same] at mem
  refine ⟨?_, ?_, ?_⟩
  · intro other
    by_cases same : other = i
    · subst same
      rwa [update_self, update_self]
    · rw [update_of_ne same, update_of_ne same]
      apply (table.chain other).congr
      intro n mem
      exact agree n fun inside => same (table.disjoint _ _ _ mem inside)
  · intro other
    by_cases same : other = i
    · subst same
      rw [update_self]
      exact part.nodup (table.nodup other)
    · rw [update_of_ne same]
      exact table.nodup other
  · intro a second n inFirst inSecond
    exact table.disjoint _ _ n (within _ _ inFirst) (within _ _ inSecond)

theorem pop (table : ChainTable next head list) {rest : List Node} (list_eq : list i = n :: rest) :
    ChainTable next (Function.update head i (next n)) (Function.update list i rest) := by
  have chain := table.chain i
  rw [list_eq] at chain
  exact table.shrink (list_eq ▸ List.sublist_cons_self _ _) rfl chain.2 fun _ _ => rfl

variable [DecidableEq Node]

section

variable (table : ChainTable next head list)

include table

omit [DecidableEq Node] in
theorem extend {next' : Node → Option Node} {head' : Index → Option Node} {nodes : List Node}
    (outside : ∀ other, n ∉ list other) (perm : nodes.Perm (n :: list i))
    (chain : Chain next' (head' i) nodes)
    (others : ∀ other ≠ i, Chain next' (head' other) (list other)) :
    ChainTable next' head' (Function.update list i nodes) := by
  have cases_mem (other : Index) (member : Node)
      (mem : member ∈ Function.update list i nodes other) :
      (other = i ∧ member = n) ∨ member ∈ list other := by
    by_cases same : other = i
    · subst same
      rw [update_self, perm.mem_iff, List.mem_cons] at mem
      exact mem.imp_left fun equal => ⟨rfl, equal⟩
    · rw [update_of_ne same] at mem
      exact .inr mem
  refine ⟨?_, ?_, ?_⟩
  · intro other
    by_cases same : other = i
    · subst same
      rwa [update_self]
    · rw [update_of_ne same]
      exact others other same
  · intro other
    by_cases same : other = i
    · subst same
      rw [update_self]
      exact perm.nodup_iff.mpr (List.nodup_cons.mpr ⟨outside other, table.nodup other⟩)
    · rw [update_of_ne same]
      exact table.nodup other
  · intro a second member inFirst inSecond
    rcases cases_mem _ _ inFirst with ⟨isFirst, isNode⟩ | inFirst
    · rcases cases_mem _ _ inSecond with ⟨isSecond, -⟩ | inSecond
      · rw [isFirst, isSecond]
      · exact absurd (isNode ▸ inSecond) (outside second)
    · rcases cases_mem _ _ inSecond with ⟨-, isNode⟩ | inSecond
      · exact absurd (isNode ▸ inFirst) (outside a)
      · exact table.disjoint _ _ member inFirst inSecond

theorem push (i : Index) (outside : ∀ other, n ∉ list other) :
    ChainTable (Function.update next n (head i)) (Function.update head i (some n))
      (Function.update list i (n :: list i)) := by
  refine table.extend outside (List.Perm.refl _) ?_ fun other ne => ?_
  · rw [update_self]
    exact (table.chain i).push (outside i)
  · rw [update_of_ne ne]
    exact (table.chain other).update (outside other) _

theorem single (outside : ∀ other, n ∉ list other) (isNull : next n = none) (empty : list i = []) :
    ChainTable next (Function.update head i (some n)) (Function.update list i (list i ++ [n])) := by
  have pushed := table.push i outside
  have headEmpty : head i = none := (table.head_eq_none_iff i).mpr empty
  rw [headEmpty, ← isNull, update_eq_self, empty] at pushed
  rwa [empty, List.nil_append]

theorem append {last : Node} (outside : ∀ other, n ∉ list other) (isNull : next n = none)
    (isLast : (list i).getLast? = some last) : ChainTable (Function.update next last (some n)) head
      (Function.update list i (list i ++ [n])) := by
  have inList := List.mem_of_getLast? isLast
  refine table.extend outside (List.perm_append_singleton ..) ?_ fun other ne => ?_
  · exact (table.chain i).append (table.nodup i) isLast (outside i) isNull
  · exact (table.chain other).update (fun inOther => ne (table.disjoint _ _ _ inOther inList)) _

theorem removeBehind {last : Node} {front rest : List Node} (list_eq : list i = front ++ n :: rest)
    (isLast : front.getLast? = some last) : ChainTable (Function.update next last (next n)) head
      (Function.update list i (front ++ rest)) := by
  have chain := table.chain i
  have nodup := table.nodup i
  rw [list_eq] at chain nodup
  refine table.shrink ?_ (update_eq_self i head).symm
    (chain.unlink nodup isLast) ?_
  · rw [list_eq]
    exact (List.Sublist.refl front).append (List.sublist_cons_self n rest)
  · intro other outside
    have ne : other ≠ last := by
      rintro rfl
      rw [list_eq] at outside
      exact outside (List.mem_append_left _ (List.mem_of_getLast? isLast))
    exact update_of_ne ne _ _

omit [DecidableEq Node] in
theorem mem_removed_iff {i : Index} {n : Node} {front rest : List Node}
    (list_eq : list i = front ++ n :: rest) {other : Index} {member : Node} :
    member ∈ Function.update list i (front ++ rest) other ↔ member ∈ list other ∧ member ≠ n := by
  have nodup := table.nodup i
  have inList : n ∈ list i := by simp [list_eq]
  by_cases same : other = i
  · subst same
    rw [list_eq] at nodup
    have fresh := (List.nodup_middle.mp nodup).notMem
    rw [update_self, list_eq]
    constructor
    · intro mem
      refine ⟨?_, fun equal => fresh (equal ▸ mem)⟩
      simp only [List.mem_append, List.mem_cons] at mem ⊢
      exact mem.imp_right .inr
    · rintro ⟨mem, ne⟩
      simpa [ne] using mem
  · rw [update_of_ne same]
    refine ⟨fun mem => ⟨mem, ?_⟩, fun both => both.1⟩
    rintro rfl
    exact same (table.disjoint _ _ _ mem inList)

end

omit [DecidableEq Node] in
theorem mem_pushed_iff {other : Index} {member : Node} :
    member ∈ Function.update list i (n :: list i) other ↔
      member ∈ list other ∨ (member = n ∧ other = i) := by
  by_cases same : other = i
  · subst same
    simp [or_comm]
  · simp [same]

end ChainTable

end
