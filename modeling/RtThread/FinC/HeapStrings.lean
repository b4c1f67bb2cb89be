import RtThread.FinC.HeapAllocation
import RtThread.FinC.Variables

/-!
# The strings of a line

`finsh_node_new_string` allocates the string of a literal.  The collector keeps what the
variables point to and knows nothing of the nodes of the tree, so that the strings of a line
survive the parsing exactly if no literal needs a collection while an earlier one is
referenced by its node only.
-/

open TransitionSystem

namespace RtThread.FinshHeap

open FinC (FinshVar FinshType finshVarInit finshVarInsert)

structure Literal where
  text : List UInt8
  nonzero : ∀ byte ∈ text, byte ≠ 0
  fits : NoWrap (text.length + 1)

/-- A `FINSH_NODE_VALUE_STRING`, with what has been copied. -/
structure StringNode where
  ptr : Nat
  text : List UInt8

/-- The heap, the variables with the data that their values point to, and the string nodes of
the line, newest first. -/
structure Shell where
  heap : Heap
  globalVariable : List FinshVar
  value : Nat → Option Nat
  strings : List StringNode

/-- The test of `finsh_heap_gc`. -/
def Shell.referenced (shell : Shell) (data : Nat) : Bool :=
  shell.globalVariable.zipIdx.any fun (var, entry) =>
    decide (var.type ≠ .unknown) && decide (shell.value entry = some data)

/-- `finsh_node_new_string`; without memory the code writes through a null pointer. -/
def finshNodeNewString (shell : Shell) (text : List UInt8) : Option Shell :=
  match finshHeapAllocate shell.referenced shell.heap (text.length + 1) with
  | some (heap, some ptr) =>
    let bytes := store (store heap.bytes ptr text) (ptr + text.length) [0]
    some { shell with heap := { heap with bytes }, strings := ⟨ptr, text⟩ :: shell.strings }
  | _ => none

inductive LineEvent where
  | string (literal : Literal)
  | declare (name : List Char) (type : FinshType)
  | execute (globalVariable : List FinshVar) (value : Nat → Option Nat) (bytes : Nat → UInt8)

def lineStep (shell : Shell) : LineEvent → Option Shell
  | .string literal => finshNodeNewString shell literal.text
  | .declare name type =>
    some
      { shell with
        globalVariable :=
          (finshVarInsert shell.globalVariable name type).getD shell.globalVariable }
  | .execute globalVariable value bytes =>
    some { heap := { shell.heap with bytes }, globalVariable, value, strings := [] }

def lineSystem : TransitionSystem Shell LineEvent :=
  .ofFunction
    (fun shell => ∃ m value, shell = ⟨finshHeapInit m, finshVarInit, value, []⟩) lineStep

def allocatedData (heap : Heap) : List Nat :=
  (nodesFrom heap.next finshHeapMax heap.allocateList).map finshBlockGetData

structure Intact (shell : Shell) : Prop where
  separate : shell.strings.Pairwise fun first second =>
    first.ptr + first.text.length < second.ptr ∨ second.ptr + second.text.length < first.ptr
  contents : ∀ node ∈ shell.strings, ∀ i < node.text.length + 1,
    shell.heap.bytes (node.ptr + i) = (node.text ++ [0]).getD i 0

/-- The step releases nothing that is referenced, and leaves the strings intact. -/
structure CollectsSafely (step : Taken Shell LineEvent) : Prop where
  keeps : ∀ data ∈ allocatedData step.before.heap,
    step.before.referenced data ∨ data ∈ step.before.strings.map StringNode.ptr →
      data ∈ allocatedData step.after.heap
  intact : Intact step.after

/-- A literal finds a long free block, or the variables reference all strings of the line. -/
def FitsOrReferenced (shell : Shell) : LineEvent → Prop
  | .string literal => ¬ Collects shell.heap (literal.text.length + 1) ∨
      ∀ node ∈ shell.strings, shell.referenced node.ptr
  | _ => True

instance (shell : Shell) : (e : LineEvent) → Decidable (FitsOrReferenced shell e)
  | .string _ => instDecidableOr
  | .declare _ _ => .isTrue trivial
  | .execute _ _ _ => .isTrue trivial

structure Reads (shell : Shell) (bs : List HeapBlock) : Prop where
  holds : Holds shell.heap bs
  owner : ∀ node ∈ shell.strings, ∃ b ∈ usedBlocks bs,
    finshBlockGetData b.start = node.ptr ∧ node.text.length + 1 ≤ b.length
  distinct : (shell.strings.map StringNode.ptr).Nodup
  contents : ∀ node ∈ shell.strings, ∀ i < node.text.length + 1,
    shell.heap.bytes (node.ptr + i) = (node.text ++ [0]).getD i 0

variable {shell after : Shell} {bs : List HeapBlock}

theorem Holds.allocatedData_eq {heap : Heap} (holds : Holds heap bs) :
    allocatedData heap = (usedBlocks bs).map fun b => finshBlockGetData b.start := by
  rw [allocatedData, holds.used.nodesFrom_eq holds.tiled.short, starts_false, List.map_map]
  rfl

theorem Reads.intact (reads : Reads shell bs) : Intact shell where
  separate := by
    refine List.Pairwise.imp_of_mem ?_ (List.pairwise_map.mp reads.distinct)
    intro a second isFirst isSecond ne
    obtain ⟨owner, isOwner, ownerData, ownerRoom⟩ := reads.owner a isFirst
    obtain ⟨u, isOther, otherData, otherRoom⟩ := reads.owner second isSecond
    rw [← ownerData, ← otherData] at ne ⊢
    rcases reads.holds.tiled.data_separate isOwner isOther ne ownerRoom otherRoom with
      before | behind
    · exact .inl before
    · exact .inr behind
  contents := reads.contents

section Bytes

variable {bytes : Nat → UInt8} {start address : Nat} {cells text : List UInt8}

theorem store_outside (outside : address < start ∨ start + cells.length ≤ address) :
    store bytes start cells address = bytes address := by
  rw [store]
  split
  · rw [List.getD_eq_default]
    omega
  · rfl

theorem store_inside {i : Nat} (inside : i < cells.length) (default : UInt8) :
    store bytes start cells (start + i) = cells.getD i default := by
  rw [store, if_pos (Nat.le_add_right ..), Nat.add_sub_cancel_left,
    List.getD_eq_getElem _ _ inside, List.getD_eq_getElem _ _ inside]

theorem terminated_inside {i : Nat} (inside : i < text.length + 1) :
    store (store bytes start text) (start + text.length) [0] (start + i) =
      (text ++ [0]).getD i 0 := by
  by_cases isText : i < text.length
  · rw [store_outside (.inl (by omega)), store_inside isText 0, List.getD_append _ _ _ _ isText]
  · obtain rfl : i = text.length := by omega
    have isNul := @store_inside (store bytes start text) (start + text.length) [0] 0 (by simp) 0
    simpa using isNul

theorem terminated_outside (outside : address < start ∨ start + (text.length + 1) ≤ address) :
    store (store bytes start text) (start + text.length) [0] address = bytes address := by
  rw [store_outside (by simp only [List.length_singleton]; omega), store_outside (by omega)]

end Bytes

theorem Holds.withBytes {heap : Heap} (holds : Holds heap bs) (bytes : Nat → UInt8) :
    Holds { heap with bytes } bs where
  tiled := holds.tiled
  length := holds.length
  free := holds.free
  used := holds.used
  top := holds.top
  apart := holds.apart

def keptBlocks (shell : Shell) (size : Nat) (bs : List HeapBlock) : List HeapBlock :=
  (usedBlocks bs).filter fun b =>
    decide (¬ Collects shell.heap size) || isReferenced shell.referenced b

theorem mem_keptBlocks {n : Nat} {b : HeapBlock} : b ∈ keptBlocks shell n bs ↔ b ∈ usedBlocks bs ∧
      (¬ Collects shell.heap n ∨ shell.referenced (finshBlockGetData b.start) = true) := by
  simp [keptBlocks, isReferenced]

structure Added (shell : Shell) (literal : Literal) (bs : List HeapBlock) (after : Shell)
    (ptr : Nat) (left : List HeapBlock) : Prop where
  strings : after.strings = ⟨ptr, literal.text⟩ :: shell.strings
  holds : Holds after.heap left
  used : (usedBlocks left).Perm
    (allocatedBlock (finshBlockGetHeader ptr) (literal.text.length + 1) ::
      keptBlocks shell (literal.text.length + 1) bs)
  behind : headerSize ≤ ptr
  outside : ∀ address, address < ptr ∨ ptr + heapAlignSize (literal.text.length + 1) ≤ address →
    after.heap.bytes address = shell.heap.bytes address
  inside : ∀ i < literal.text.length + 1,
    after.heap.bytes (ptr + i) = (literal.text ++ [0]).getD i 0

theorem finshNodeNewString_spec (holds : Holds shell.heap bs) {literal : Literal}
    (ran : finshNodeNewString shell literal.text = some after) :
    ∃ ptr left, Added shell literal bs after ptr left := by
  obtain ⟨heap, left, answer, allocated, holds, used, behind, bytes⟩ :=
    @finshHeapAllocate_spec _ _ shell.referenced _ holds literal.fits
  cases answer with
  | none => simp [finshNodeNewString, allocated] at ran
  | some ptr =>
    simp only [finshNodeNewString, allocated, Option.some.injEq] at ran
    subst ran
    have fits := literal.fits.le
    refine ⟨ptr, left, rfl, holds.withBytes _, used, behind ptr rfl, fun address outside => ?_,
      fun i inside => terminated_inside inside⟩
    have outsideText : address < ptr ∨ ptr + (literal.text.length + 1) ≤ address := by omega
    refine (terminated_outside outsideText).trans ?_
    rw [bytes]
    exact store_outside (by simpa using outside)

namespace Added

variable {literal : Literal} {ptr : Nat} {left : List HeapBlock}

section

variable (added : Added shell literal bs after ptr left)

include added

theorem own : allocatedBlock (finshBlockGetHeader ptr) (literal.text.length + 1) ∈ usedBlocks left ∧
      finshBlockGetData (finshBlockGetHeader ptr) = ptr :=
  ⟨added.used.mem_iff.mpr List.mem_cons_self, Nat.sub_add_cancel added.behind⟩

theorem nodup : ((usedBlocks left).map fun b => finshBlockGetData b.start).Nodup := by
  have nodup : (starts false left).Nodup := added.holds.tiled.nodup
  rw [starts_false] at nodup
  have shifted := nodup.map (f := finshBlockGetData) fun _ _ => Nat.add_right_cancel
  rwa [List.map_map] at shifted

theorem fresh {b : HeapBlock} (isKept : b ∈ keptBlocks shell (literal.text.length + 1) bs) :
    finshBlockGetData b.start ≠ ptr := by
  have perm := added.used.map fun b => finshBlockGetData b.start
  have absent := (List.nodup_cons.mp (perm.nodup_iff.mp added.nodup)).1
  intro same
  refine absent (List.mem_map.mpr ⟨b, isKept, ?_⟩)
  exact same.trans added.own.2.symm

theorem apart {b : HeapBlock} (isKept : b ∈ keptBlocks shell (literal.text.length + 1) bs) {n : Nat}
    (room : n ≤ b.length) : finshBlockGetData b.start + n ≤ ptr ∨
      ptr + heapAlignSize (literal.text.length + 1) ≤ finshBlockGetData b.start := by
  obtain ⟨isOwn, data⟩ := added.own
  have isUsed := added.used.mem_iff.mpr (List.mem_cons_of_mem _ isKept)
  have ne := added.fresh isKept
  have separate := added.holds.tiled.data_separate isUsed isOwn
    (by simpa only [allocatedBlock, data] using ne) room le_rfl
  simpa only [allocatedBlock, data] using separate

theorem mem_allocatedData {data : Nat} : data ∈ allocatedData after.heap ↔ data = ptr ∨
      ∃ b ∈ keptBlocks shell (literal.text.length + 1) bs, finshBlockGetData b.start = data := by
  have perm := added.used.map fun b => finshBlockGetData b.start
  rw [added.holds.allocatedData_eq, perm.mem_iff, List.map_cons, List.mem_cons, List.mem_map]
  exact or_congr_left (by rw [allocatedBlock, added.own.2])

end

end Added

variable {literal : Literal} {ptr : Nat} {left : List HeapBlock}

section

variable (reads : Reads shell bs)

include reads

theorem Reads.owner_kept (fits : FitsOrReferenced shell (.string literal)) {n : StringNode}
    (isString : n ∈ shell.strings) : ∃ b ∈ keptBlocks shell (literal.text.length + 1) bs,
      finshBlockGetData b.start = n.ptr ∧ n.text.length + 1 ≤ b.length := by
  obtain ⟨b, isUsed, data, room⟩ := reads.owner n isString
  refine ⟨b, mem_keptBlocks.mpr ⟨isUsed, fits.imp_right fun every => ?_⟩, data, room⟩
  rw [data]
  exact every n isString

theorem Reads.add (fits : FitsOrReferenced shell (.string literal))
    (added : Added shell literal bs after ptr left) : Reads after left where
  holds := added.holds
  owner := by
    rw [added.strings]
    intro n isString
    rcases List.mem_cons.mp isString with rfl | earlier
    · exact ⟨_, added.own.1, added.own.2, literal.fits.le⟩
    · obtain ⟨b, isKept, owns⟩ := reads.owner_kept fits earlier
      exact ⟨b, added.used.mem_iff.mpr (List.mem_cons_of_mem _ isKept), owns⟩
  distinct := by
    rw [added.strings, List.map_cons]
    refine List.nodup_cons.mpr ⟨fun repeated => ?_, reads.distinct⟩
    obtain ⟨n, isString, same⟩ := List.mem_map.mp repeated
    obtain ⟨b, isKept, data, -⟩ := reads.owner_kept fits isString
    exact added.fresh isKept (data.trans same)
  contents := by
    rw [added.strings]
    intro n isString i inside
    rcases List.mem_cons.mp isString with rfl | earlier
    · exact added.inside i inside
    · obtain ⟨b, isKept, data, room⟩ := reads.owner_kept fits earlier
      have apart := added.apart isKept room
      rw [added.outside _ (by omega)]
      exact reads.contents n earlier i inside

theorem collectsSafely_string_iff (ran : lineStep shell (.string literal) = some after) :
    CollectsSafely ⟨shell, .string literal, after⟩ ↔ FitsOrReferenced shell (.string literal) := by
  obtain ⟨ptr, left, added⟩ := finshNodeNewString_spec reads.holds ran
  constructor
  · intro safely
    by_contra notFits
    obtain ⟨collects, some⟩ := not_or.mp notFits
    obtain ⟨n, some⟩ := not_forall.mp some
    obtain ⟨isString, notReferenced⟩ := Classical.not_imp.mp some
    obtain ⟨b, isUsed, data, -⟩ := reads.owner n isString
    have stays : n.ptr ∈ allocatedData after.heap := by
      refine safely.keeps n.ptr ?_ (.inr (List.mem_map_of_mem isString))
      rw [reads.holds.allocatedData_eq]
      exact List.mem_map.mpr ⟨b, isUsed, data⟩
    rcases added.mem_allocatedData.mp stays with isNew | ⟨u, isKept, otherData⟩
    · have separate := safely.intact.separate
      rw [added.strings] at separate
      have apart := (List.pairwise_cons.mp separate).1 n isString
      simp only at apart
      omega
    · rcases (mem_keptBlocks.mp isKept).2 with notCollects | isReferenced
      · exact collects notCollects
      · exact notReferenced (otherData ▸ isReferenced)
  · intro fits
    refine ⟨fun data isAllocated referenced => ?_, (reads.add fits added).intact⟩
    refine added.mem_allocatedData.mpr (.inr ?_)
    rcases referenced with isReferenced | isString
    · rw [reads.holds.allocatedData_eq] at isAllocated
      obtain ⟨b, isUsed, rfl⟩ := List.mem_map.mp isAllocated
      exact ⟨b, mem_keptBlocks.mpr ⟨isUsed, .inr isReferenced⟩, rfl⟩
    · obtain ⟨n, isNode, rfl⟩ := List.mem_map.mp isString
      obtain ⟨b, isKept, data, -⟩ := reads.owner_kept fits isNode
      exact ⟨b, isKept, data⟩

theorem Reads.execute (globalVariable : List FinshVar) (v : Nat → Option Nat)
    (bytes : Nat → UInt8) :
    Reads ⟨{ shell.heap with bytes }, globalVariable, v, []⟩ bs where
  holds := reads.holds.withBytes bytes
  owner := by simp
  distinct := .nil
  contents := by simp

theorem Reads.declare (globalVariable : List FinshVar) :
    Reads { shell with globalVariable } bs where
  holds := reads.holds
  owner := reads.owner
  distinct := reads.distinct
  contents := reads.contents

end

theorem reads_start (m : Heap) (v : Nat → Option Nat) : Reads ⟨finshHeapInit m, finshVarInit, v, []⟩
      [⟨0, finshHeapMax - headerSize, true⟩] where
  holds := (kept_start m).holds
  owner := by simp
  distinct := .nil
  contents := by simp

theorem reads_step {e : LineEvent} (reads : Reads shell bs) (fits : FitsOrReferenced shell e)
    (ran : lineStep shell e = some after) : ∃ left, Reads after left := by
  cases e with
  | string literal =>
    obtain ⟨ptr, left, added⟩ := finshNodeNewString_spec reads.holds ran
    exact ⟨left, reads.add fits added⟩
  | declare name type =>
    cases ran
    exact ⟨bs, reads.declare _⟩
  | execute globalVariable v bytes =>
    cases ran
    exact ⟨bs, reads.execute globalVariable v bytes⟩

theorem collectsSafely_iff {e : LineEvent} (reads : Reads shell bs)
    (ran : lineStep shell e = some after) :
    CollectsSafely ⟨shell, e, after⟩ ↔ FitsOrReferenced shell e := by
  cases e with
  | string literal => exact collectsSafely_string_iff reads ran
  | declare name type =>
    cases ran
    exact iff_of_true ⟨fun _ isAllocated _ => isAllocated, (reads.declare _).intact⟩ trivial
  | execute globalVariable v bytes =>
    cases ran
    exact iff_of_true ⟨fun _ isAllocated _ => isAllocated,
      (reads.execute globalVariable v bytes).intact⟩ trivial

/-- The parsing of every line of a run is safe exactly if each literal finds a long free block or
the variables reference all earlier strings of its line. -/
theorem strings_safe_iff {taken : List (Taken Shell LineEvent)} {last : Shell}
    (run : lineSystem.Run taken last) :
    (∀ step ∈ taken, CollectsSafely step) ↔ EveryStep FitsOrReferenced taken := by
  refine @Run.everyTaken_iff_everyStep _ _ _ (fun shell => ∃ bs, Reads shell bs) _ _
    ?_ ?_ ?_ _ _ run
  · rintro shell ⟨m, v, rfl⟩
    exact ⟨_, reads_start m v⟩
  · rintro shell e after ⟨bs, reads⟩ fits ran
    exact reads_step reads fits ran
  · rintro shell e after ⟨bs, reads⟩ ran
    exact collectsSafely_iff reads ran

def letters (n : Nat) (fits : NoWrap ((List.replicate n (97 : UInt8)).length + 1)) : Literal where
  text := List.replicate n 97
  nonzero := by
    intro byte mem
    rw [List.eq_of_mem_replicate mem]
    decide
  fits := fits

def started : Shell := ⟨zeroed.heap, finshVarInit, fun _ => none, []⟩

def shortStrings : List LineEvent :=
  [.string (letters 20 (by decide)), .string (letters 30 (by decide))]

theorem short_strings_safe : ∃ last, execute lineStep started shortStrings = some last ∧
      ∀ step ∈ record lineStep [] started shortStrings, CollectsSafely step := by
  have isSome : (execute lineStep started shortStrings).isSome := by decide +kernel
  have run : lineSystem.Run (record lineStep [] started shortStrings) _ :=
    .execute (.start ⟨_, _, rfl⟩) (Option.some_get isSome).symm
  exact ⟨_, (Option.some_get isSome).symm, (strings_safe_iff run).mpr (by decide +kernel)⟩

def longStrings : List LineEvent :=
  [.string (letters 60 (by decide)), .string (letters 44 (by decide))]

theorem long_strings_overlap :
    ¬ ∀ (taken : List (Taken Shell LineEvent)) (last : Shell), lineSystem.Run taken last →
      ∀ step ∈ taken, CollectsSafely step := by
  intro claim
  have run : lineSystem.Run (record lineStep [] started longStrings)
      ((execute lineStep started longStrings).get (by decide +kernel)) :=
    .execute (.start ⟨_, _, rfl⟩) (Option.some_get _).symm
  have every := (strings_safe_iff run).mp (claim _ _ run)
  exact absurd every (by decide +kernel)

end RtThread.FinshHeap
