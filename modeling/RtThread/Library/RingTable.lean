import RtThread.Library.Ring

/-!
# Lists with heads

A table of circular lists: every list has a head node of its own, and each entry is in at most one
list.
-/

open Function (update)

universe u v

inductive RingNode (Head : Type u) (Entry : Type v) where
  | head : Head → RingNode Head Entry
  | entry : Entry → RingNode Head Entry
  deriving DecidableEq

namespace Links

variable {Head : Type u} {Entry : Type v}

def ringOf (lists : Head → List Entry) (head : Head) : List (RingNode Head Entry) :=
  .head head :: (lists head).map .entry

/-- The links hold exactly the lists `lists`; an entry of no list points to itself. -/
structure Represents (links : Links (RingNode Head Entry)) (lists : Head → List Entry) :
    Prop where
  ring : ∀ head, links.IsRing (ringOf lists head)
  disjoint : ∀ entry head other, entry ∈ lists head → entry ∈ lists other → head = other
  alone : ∀ entry, (∀ head, entry ∉ lists head) → links.Alone (.entry entry)

/-- The node a list is entered after when the entries `front` are passed: the last of
them, or the head. -/
def placeOf (head : Head) (front : List Entry) : RingNode Head Entry :=
  (front.getLast?.map .entry).getD (.head head)

@[simp] theorem placeOf_nil (head : Head) : placeOf head ([] : List Entry) = .head head := rfl

@[simp] theorem placeOf_concat (head : Head) (front : List Entry) (last : Entry) :
    placeOf head (front ++ [last]) = .entry last := by
  simp [placeOf]

variable {head home : Head} {back front : List Entry} {n : Entry}

theorem mem_ringOf_head {lists : Head → List Entry} {other : Head} :
    RingNode.head other ∈ ringOf lists head ↔ other = head := by
  simp [ringOf]

theorem mem_ringOf_entry {lists : Head → List Entry} {e : Entry} :
    RingNode.entry e ∈ ringOf lists head ↔ e ∈ lists head := by
  simp [ringOf]

namespace Represents

variable {links : Links (RingNode Head Entry)} {lists : Head → List Entry}

section

variable (rep : links.Represents lists)

include rep

theorem nodup (head : Head) : (lists head).Nodup := by
  have := (isRing_cons_iff.mp (rep.ring head)).1
  exact ((List.nodup_cons.mp this).2).of_map

theorem next_head (head : Head) :
    links.next (.head head) = ((lists head).head?.map .entry).getD (.head head) := by
  have chain := (isRing_cons_iff.mp (rep.ring head)).2
  cases list : lists head with
  | nil | cons e rest => simp_all [Adjacent]

theorem next_head_eq_iff (head : Head) :
    links.next (.head head) = .head head ↔ lists head = [] := by
  rw [rep.next_head]
  cases lists head <;> simp

theorem ring_at {e : Entry} (split : lists head = front ++ e :: back) : links.IsRing (.entry e ::
      (back.map .entry ++ .head head :: front.map .entry) : List (RingNode Head Entry)) := by
  have isRing := rep.ring head
  simp only [ringOf, split, List.map_append, ← List.cons_append] at isRing
  exact isRing.rotate

theorem next_placeOf (split : lists head = front ++ back) :
    links.next (placeOf head front) = (back.head?.map .entry).getD (.head head) := by
  rcases List.eq_nil_or_concat' front with rfl | ⟨front, last, rfl⟩
  · rw [placeOf_nil, rep.next_head, split, List.nil_append]
  · have isRing := rep.ring_at (by simpa using split)
    have chain := (isRing_cons_iff.mp isRing).2
    rw [placeOf_concat]
    cases back with
    | nil | cons e back => simp_all [Adjacent]

theorem prev_head (head : Head) : links.prev (.head head) = placeOf head (lists head) := by
  have adjacent := (rep.ring head).prev_eq_getLast
  rcases List.eq_nil_or_concat' (lists head) with empty | ⟨front, last, split⟩
  · simp_all [Adjacent]
  · simp_all [Adjacent]

theorem placeOf_eq_prev_head_iff (split : lists head = front ++ back) :
    placeOf head front = links.prev (.head head) ↔ back = [] := by
  have nodup := rep.nodup head
  rw [rep.prev_head, split]
  rcases List.eq_nil_or_concat' back with rfl | ⟨back, last, rfl⟩
  · simp
  · rw [← List.append_assoc, placeOf_concat]
    rcases List.eq_nil_or_concat' front with rfl | ⟨front, e, rfl⟩
    · simp
    · rw [split] at nodup
      have ne : e ≠ last := by
        apply (List.nodup_append.mp nodup).2.2
        · simp
        · simp
      simpa using ne

theorem exists_iterate_iff (head : Head) (e : Entry) :
    (∃ n, links.next^[n] (.head head) = .entry e) ↔ e ∈ lists head := by
  rw [(rep.ring head).exists_iterate_iff]
  exact mem_ringOf_entry

end

variable [DecidableEq Head] [DecidableEq Entry]

theorem remove (rep : links.Represents lists) (entry : Entry) :
    (links.remove (.entry entry)).Represents fun head => (lists head).erase entry := by
  by_cases linked : ∃ head, entry ∈ lists head
  · obtain ⟨home, mem⟩ := linked
    obtain ⟨front, back, split⟩ := List.append_of_mem mem
    have nodupHome := rep.nodup home
    have erased : (lists home).erase entry = front ++ back := by
      rw [split] at nodupHome ⊢
      have : entry ∉ front := fun inFront =>
        (List.nodup_append.mp nodupHome).2.2 _ inFront _ List.mem_cons_self rfl
      rw [List.erase_append_right _ this, List.erase_cons_head]
    have atEntry := rep.ring_at split
    have homeRing := (atEntry.remove (by simp)).rotate
    have elsewhere : ∀ head, head ≠ home → entry ∉ lists head := fun head ne inHead =>
      ne (rep.disjoint entry head home inHead mem)
    -- the two neighbours of the entry lie in its own ring
    have nextMem : links.next (.entry entry) ∈ ringOf lists home := by
      have adjacent := (isRing_cons_iff.mp atEntry).2
      rcases back with _ | ⟨s', back⟩
      · simp_all [Adjacent, ringOf]
      · simp_all [Adjacent, ringOf]
    have prevMem : links.prev (.entry entry) ∈ ringOf lists home := by
      have adjacent := atEntry.prev_eq_getLast
      rcases List.eq_nil_or_concat front with rfl | ⟨front, last, rfl⟩
      · simp_all [Adjacent, ringOf]
      · simp_all [Adjacent, ringOf]
    have agree : ∀ n, n ∉ ringOf lists home →
        (links.remove (.entry entry)).next n = links.next n ∧
        (links.remove (.entry entry)).prev n = links.prev n := by
      intro n outside
      have notNext : n ≠ links.next (.entry entry) := fun equal => outside (equal ▸ nextMem)
      have notPrev : n ≠ links.prev (.entry entry) := fun equal => outside (equal ▸ prevMem)
      have notEntry : n ≠ .entry entry := fun equal =>
        outside (equal ▸ mem_ringOf_entry.mpr mem)
      simp [Links.remove, notNext, notPrev, notEntry]
    refine ⟨?_, ?_, ?_⟩
    · intro head
      by_cases same : head = home
      · subst same
        simpa [ringOf, erased] using homeRing
      · rw [ringOf, List.erase_of_not_mem (elsewhere head same)]
        refine (rep.ring head).congr fun n inRing => agree n fun inHome => ?_
        cases n with
        | head other =>
          have := mem_ringOf_head.mp (Cycle.mem_coe_iff.mp inRing)
          exact same (this.symm.trans (mem_ringOf_head.mp inHome))
        | entry other =>
          exact same (rep.disjoint other head home
            (mem_ringOf_entry.mp (Cycle.mem_coe_iff.mp inRing)) (mem_ringOf_entry.mp inHome))
    · intro other head head' inHead inHead'
      exact rep.disjoint other head head' (List.mem_of_mem_erase inHead)
        (List.mem_of_mem_erase inHead')
    · intro other unlinked
      by_cases same : other = entry
      · subst same
        constructor <;> simp [Links.remove]
      · have outside : ∀ head, other ∉ lists head := fun head inHead =>
          unlinked head ((List.mem_erase_of_ne same).mpr inHead)
        have kept := agree (.entry other) (fun inHome => outside _ (mem_ringOf_entry.mp inHome))
        have alone := rep.alone other outside
        exact ⟨kept.1.trans alone.1, kept.2.trans alone.2⟩
  · have outside : ∀ head, entry ∉ lists head := fun head inHead => linked ⟨head, inHead⟩
    have alone := rep.alone entry outside
    have same : links.remove (.entry entry) = links := by
      ext n
      · simp only [Links.remove, setNext_next, setPrev_next, setPrev_prev]
        grind [Alone]
      · simp only [Links.remove, setPrev_prev, setNext_prev]
        grind [Alone]
    have unchanged : (fun head => (lists head).erase entry) = lists :=
      funext fun head => List.erase_of_not_mem (outside head)
    rw [same, unchanged]
    exact rep

omit [DecidableEq Head] [DecidableEq Entry] in
theorem replace (rep : links.Represents lists) {other : Links (RingNode Head Entry)}
    {lists' : Head → List Entry} (home : Head) (n : Entry) (fresh : ∀ head, n ∉ lists head)
    (homeList : ∀ entry, entry ∈ lists' home ↔ entry = n ∨ entry ∈ lists home)
    (elsewhere : ∀ head, head ≠ home → lists' head = lists head)
    (homeRing : other.IsRing (ringOf lists' home))
    (agree : ∀ p, p ∉ ringOf lists home → p ≠ .entry n →
      other.next p = links.next p ∧ other.prev p = links.prev p) : other.Represents lists' := by
  have memIff : ∀ entry head, entry ∈ lists' head ↔
      (entry = n ∧ head = home) ∨ entry ∈ lists head := by
    intro entry head
    by_cases same : head = home
    · subst same
      simp [homeList]
    · simp [elsewhere head same, same]
  refine ⟨?_, ?_, ?_⟩
  · intro head
    by_cases same : head = home
    · subst same
      exact homeRing
    · rw [ringOf, elsewhere head same]
      refine (rep.ring head).congr fun p inRing => ?_
      have inRing := Cycle.mem_coe_iff.mp inRing
      cases p with
      | head other =>
        refine agree _ (fun inHome => ?_) (by simp)
        exact same ((mem_ringOf_head.mp inRing).symm.trans (mem_ringOf_head.mp inHome))
      | entry entry =>
        have inList := mem_ringOf_entry.mp inRing
        refine agree _ (fun inHome => ?_) (fun equal => ?_)
        · exact same (rep.disjoint entry head home inList (mem_ringOf_entry.mp inHome))
        · obtain rfl : entry = n := by simpa using equal
          exact fresh head inList
  · intro entry head head' inHead inHead'
    rw [memIff] at inHead inHead'
    rcases inHead with ⟨rfl, rfl⟩ | inHead <;> rcases inHead' with ⟨equal, rfl⟩ | inHead'
    · rfl
    · exact absurd inHead' (fresh head')
    · exact absurd (equal ▸ inHead) (fresh head)
    · exact rep.disjoint entry head head' inHead inHead'
  · intro entry unlinked
    have outside : ∀ head, entry ∉ lists head := fun head inHead =>
      unlinked head ((memIff entry head).mpr (Or.inr inHead))
    have notNode : entry ≠ n := fun equal =>
      unlinked home ((memIff entry home).mpr (Or.inl ⟨equal, rfl⟩))
    have kept := agree (.entry entry) (fun inHome => outside _ (mem_ringOf_entry.mp inHome))
      (by simpa using notNode)
    have alone := rep.alone entry outside
    exact ⟨kept.1.trans alone.1, kept.2.trans alone.2⟩

theorem insertBefore_agree {home : List (RingNode Head Entry)} {at_ n : RingNode Head Entry}
    {rest : List (RingNode Head Entry)} (isRing : links.IsRing (at_ :: rest : List _))
    (sameNodes : ∀ p, p ∈ home ↔ p ∈ at_ :: rest) (p : RingNode Head Entry)
    (outside : p ∉ home) (notNode : p ≠ n) : (links.insertBefore at_ n).next p = links.next p ∧
      (links.insertBefore at_ n).prev p = links.prev p := by
  have lastAdjacent := isRing.prev_eq_getLast
  have lastMem : (at_ :: rest).getLast (List.cons_ne_nil _ _) ∈ home :=
    (sameNodes _).mpr (List.getLast_mem _)
  rw [← lastAdjacent.2] at lastMem
  have notAt : p ≠ at_ := fun equal =>
    outside ((sameNodes _).mpr (equal ▸ List.mem_cons_self))
  have notLast : p ≠ links.prev at_ := fun equal => outside (equal ▸ lastMem)
  simp [Links.insertBefore, notAt, notLast, notNode]

section

variable (rep : links.Represents lists)

include rep

theorem insertBefore_head (fresh : ∀ head, n ∉ lists head) :
    (links.insertBefore (.head home) (.entry n)).Represents
      (update lists home (lists home ++ [n])) := by
  have homeRing := rep.ring home
  have freshNode : RingNode.entry n ∉ ringOf lists home :=
    fun mem => fresh home (mem_ringOf_entry.mp mem)
  refine rep.replace home n fresh (by simp [or_comm]) (by simp +contextual) ?_ ?_
  · have inserted := homeRing.insertBefore freshNode
    simpa [ringOf] using inserted
  · exact insertBefore_agree homeRing fun _ => Iff.rfl

theorem insertAfter_placeOf (split : lists home = front ++ back) (fresh : ∀ head, n ∉ lists head) :
    (links.insertAfter (placeOf home front) (.entry n)).Represents
      (update lists home (front ++ n :: back)) := by
  have freshNode : RingNode.entry n ∉ ringOf lists home :=
    fun mem => fresh home (mem_ringOf_entry.mp mem)
  have placeMem : placeOf home front ∈ ringOf lists home := by
    rcases List.eq_nil_or_concat' front with rfl | ⟨front, last, rfl⟩
    · exact mem_ringOf_head.mpr rfl
    · rw [placeOf_concat]
      exact mem_ringOf_entry.mpr (by simp [split])
  have nextMem : links.next (placeOf home front) ∈ ringOf lists home := by
    rw [rep.next_placeOf split, ringOf, split]
    cases back <;> simp
  refine rep.replace home n fresh (by simp [split, or_left_comm])
    (by simp +contextual) ?_ ?_
  · rcases List.eq_nil_or_concat' front with rfl | ⟨front, last, rfl⟩
    · simpa [ringOf, split] using (rep.ring home).insertAfter freshNode
    · have atLast := rep.ring_at (by simpa using split)
      have absent : RingNode.entry n ∉ (.entry last ::
          (back.map .entry ++ .head home :: front.map .entry) : List (RingNode Head Entry)) := by
        simpa [ringOf, split, and_assoc, or_comm] using freshNode
      have inserted : (links.insertAfter (.entry last) (.entry n)).IsRing
          (((.entry last :: .entry n :: back.map .entry) ++
            .head home :: front.map .entry : List (RingNode Head Entry))) := by
        simpa using atLast.insertAfter absent
      simpa [ringOf] using inserted.rotate
  · intro p outside notNode
    have notPlace : p ≠ placeOf home front := fun equal => outside (equal ▸ placeMem)
    have notNext : p ≠ links.next (placeOf home front) := fun equal =>
      outside (equal ▸ nextMem)
    simp [Links.insertAfter, notPlace, notNext, notNode]

theorem insertAfter_head (fresh : ∀ head, n ∉ lists head) :
    (links.insertAfter (.head home) (.entry n)).Represents (update lists home (n :: lists home)) :=
  rep.insertAfter_placeOf (List.nil_append _).symm fresh

theorem insertAfter_prev_head (fresh : ∀ head, n ∉ lists head) :
    (links.insertAfter (links.prev (.head home)) (.entry n)).Represents
      (update lists home (lists home ++ [n])) := by
  rw [rep.prev_head]
  exact rep.insertAfter_placeOf (List.append_nil _).symm fresh

end

end Represents

def selfLinked : Links (RingNode Head Entry) where
  next node := node
  prev node := node

theorem represents_selfLinked :
    (selfLinked : Links (RingNode Head Entry)).Represents fun _ => [] where
  ring _ := isRing_singleton_iff.mpr ⟨rfl, rfl⟩
  disjoint _ _ _ mem := by simp at mem
  alone _ _ := ⟨rfl, rfl⟩

end Links
