import Mathlib.Tactic.IntervalCases

/-!
# Memory functions

`rt_memset`, `rt_memcpy` and `rt_memmove` with their loops over words, on addresses of 32
bits.
-/

namespace RtThread.Kservice

open BitVec (toNat_add lt_def toNat_ofNat eq_of_toNat_eq toNat_sub setWidth_eq ofNat_toNat)

abbrev Address := BitVec 32

abbrev Bytes := Address → BitVec 8

/-- The four bytes of a word, in the order of the memory. -/
abbrev Word := Nat → BitVec 8

def loadWord (m : Bytes) (a : Address) : Word := fun i => m (a + BitVec.ofNat 32 i)

def storeWord (m : Bytes) (a : Address) (w : Word) : Bytes := fun x =>
  if (x - a).toNat < 4 then w (x - a).toNat else m x

/-- `while (count >= size)` around `step`, which takes `size` off `count`. -/
def loop {State : Type} (size : Nat) (step : State → State) (count : Nat) (s : State) :
    State × Nat :=
  if 0 < size ∧ size ≤ count then loop size step (count - size) (step s) else (s, count)
termination_by count
decreasing_by omega

def setByte (d : BitVec 32) (s : Bytes × Address) : Bytes × Address :=
  (Function.update s.1 s.2 (d.setWidth 8), s.2 + 1)

def wordOf (buffer : BitVec 32) : Word := fun i => (buffer >>> (8 * i)).setWidth 8

def setWord (buffer : BitVec 32) (s : Bytes × Address) : Bytes × Address :=
  (storeWord s.1 s.2 (wordOf buffer), s.2 + 4)

def rtMemset (m : Bytes) (s : Address) (c : BitVec 32) (count : Nat) : Bytes :=
  let d := c &&& 0xff
  if 4 ≤ count ∧ s &&& 3 = 0 then
    let buffer := (d <<< 8) ||| d
    let buffer := buffer ||| (buffer <<< 16)
    let set := setWord buffer
    let big := loop 16 (fun s => set (set (set (set s)))) count (m, s)
    let little := loop 4 set big.2 big.1
    (loop 1 (setByte d) little.2 little.1).1.1
  else (loop 1 (setByte d) count (m, s)).1.1

structure Copying where
  m : Bytes
  dst : Address
  src : Address

def copyByte (s : Copying) : Copying :=
  ⟨Function.update s.m s.dst (s.m s.src), s.dst + 1, s.src + 1⟩

def copyWord (s : Copying) : Copying :=
  ⟨storeWord s.m s.dst (loadWord s.m s.src), s.dst + 4, s.src + 4⟩

/-- `rt_memcpy`; its comparisons of `len` are unsigned. -/
def rtMemcpy (m : Bytes) (dst src : Address) (count : Nat) : Bytes :=
  let start : Copying := ⟨m, dst, src⟩
  if 16 ≤ count ∧ (src &&& 3) ||| (dst &&& 3) = 0 then
    let big := loop 16 (fun s => copyWord (copyWord (copyWord (copyWord s)))) count start
    let little := loop 4 copyWord big.2 big.1
    (loop 1 copyByte little.2 little.1).1.m
  else (loop 1 copyByte count start).1.m

def copyByteBack (s : Copying) : Copying :=
  ⟨Function.update s.m (s.dst - 1) (s.m (s.src - 1)), s.dst - 1, s.src - 1⟩

def rtMemmove (m : Bytes) (dest src : Address) (n : BitVec 32) : Bytes :=
  if src < dest ∧ dest < src + n then
    (loop 1 copyByteBack n.toNat ⟨m, dest + n, src + n⟩).1.m
  else (loop 1 copyByte n.toNat ⟨m, dest, src⟩).1.m

/-- `rt_memset` and `rt_memcpy` byte by byte. -/
def byteSet (m : Bytes) (s : Address) (c : BitVec 32) (count : Nat) : Bytes :=
  (loop 1 (setByte c) count (m, s)).1.1

def byteCopy (m : Bytes) (dst src : Address) (count : Nat) : Bytes :=
  (loop 1 copyByte count ⟨m, dst, src⟩).1.m

def replaced (m : Bytes) (a : Address) (value : Nat → BitVec 8) (count : Nat) : Bytes := fun x =>
  if (x - a).toNat < count then value (x - a).toNat else m x

theorem replaced_replaced (m : Bytes) (a : Address) (value : Nat → BitVec 8) {k size : Nat}
    (room : k + size ≤ 2 ^ 32) :
    replaced (replaced m a value k) (a + BitVec.ofNat 32 k) (fun i => value (k + i)) size =
      replaced m a value (k + size) := by
  funext x
  have distance : (x - (a + BitVec.ofNat 32 k)).toNat =
    ((x - a).toNat + (2 ^ 32 - k)) % 2 ^ 32 := by
    simp only [toNat_sub, toNat_add, toNat_ofNat]
    omega
  unfold replaced
  by_cases before : (x - a).toNat < k
  · rw [if_neg (by omega), if_pos before, if_pos (by omega)]
  · by_cases inside : (x - a).toNat < k + size
    · rw [if_pos (by omega), if_pos inside]
      exact congrArg value (by omega)
    · rw [if_neg (by omega), if_neg before, if_neg inside]

theorem replaced_zero (m : Bytes) (a : Address) (value : Nat → BitVec 8) :
    replaced m a value 0 = m := rfl

theorem replaced_front (m : Bytes) (a : Address) (value : Nat → BitVec 8) {k : Nat}
    (room : k + 1 ≤ 2 ^ 32) :
    replaced (replaced m (a + 1) (fun i => value (i + 1)) k) a (fun _ => value 0) 1 =
      replaced m a value (k + 1) := by
  funext x
  have distance : (x - (a + 1)).toNat = ((x - a).toNat + (2 ^ 32 - 1)) % 2 ^ 32 := by
    simp only [toNat_sub]
    change (2 ^ 32 - (a.toNat + 1) % 2 ^ 32 + x.toNat) % 2 ^ 32 = _
    omega
  unfold replaced
  by_cases front : (x - a).toNat < 1
  · rw [if_pos front, if_pos (by omega), show (x - a).toNat = 0 by omega]
  · rw [if_neg front]
    by_cases inside : (x - a).toNat < k + 1
    · rw [if_pos (by omega), if_pos inside]
      exact congrArg value (by omega)
    · rw [if_neg (by omega), if_neg inside]

theorem update_eq_replaced (m : Bytes) (a : Address) (b : BitVec 8) :
    Function.update m a b = replaced m a (fun _ => b) 1 := by
  funext x
  by_cases same : x = a
  · simp [same, replaced]
  · have apart : (x - a).toNat ≠ 0 := fun zero => same <| by
      simpa using BitVec.sub_eq_iff_eq_add.mp (eq_of_toNat_eq (y := 0) zero)
    rw [Function.update_of_ne same, replaced, if_neg (by omega)]

theorem loop_eq {State : Type} {size total : Nat} (pos : 0 < size) {step : State → State}
    (f : Nat → State) (steps : ∀ k, k + size ≤ total → step (f k) = f (k + size)) {count k : Nat}
    (fits : k + count = total) :
    loop size step count (f k) = (f (total - count % size), count % size) := by
  induction count using Nat.strongRecOn generalizing k with
  | ind count ih =>
    rw [loop]
    by_cases more : size ≤ count
    · rw [if_pos ⟨pos, more⟩, steps k (by omega), ih (count - size) (by omega) (by omega),
        ← Nat.mod_eq_sub_mod more]
    · rw [if_neg (fun both => more both.2), Nat.mod_eq_of_lt (by omega)]
      congr 2
      omega

theorem loops_eq {State : Type} {total : Nat} (f : Nat → State) {word byte : State → State}
    (words : ∀ k, k + 4 ≤ total → word (f k) = f (k + 4))
    (bytes : ∀ k, k + 1 ≤ total → byte (f k) = f (k + 1)) :
    let big := loop 16 (fun s => word (word (word (word s)))) total (f 0)
    let little := loop 4 word big.2 big.1
    (loop 1 byte little.2 little.1).1 = f total := by
  have four (k : Nat) (room : k + 16 ≤ total) : word (word (word (word (f k)))) = f (k + 16) := by
    rw [words _ (by omega), words _ (by omega), words _ (by omega), words _ (by omega)]
  dsimp only
  rw [loop_eq (by decide) f four (Nat.zero_add _)]
  rw [loop_eq (by decide) f words (by omega)]
  rw [loop_eq (by decide) f bytes (by omega), Nat.mod_one]
  rfl

def setUpTo (m : Bytes) (s : Address) (c : BitVec 8) (k : Nat) : Bytes × Address :=
  (replaced m s (fun _ => c) k, s + BitVec.ofNat 32 k)

theorem add_add (s : Address) (k n : Nat) :
    s + BitVec.ofNat 32 k + BitVec.ofNat 32 n = s + BitVec.ofNat 32 (k + n) := by
  rw [BitVec.add_assoc, BitVec.ofNat_add]

theorem low_byte (c : BitVec 32) : c &&& 0xff = (c.setWidth 8).setWidth 32 := by
  apply eq_of_toNat_eq
  rw [BitVec.toNat_and, BitVec.toNat_setWidth, BitVec.toNat_setWidth]
  change c.toNat &&& (2 ^ 8 - 1) = _
  rw [Nat.and_two_pow_sub_one_eq_mod]
  omega

theorem wordOf_buffer (b : BitVec 8) {i : Nat} (inside : i < 4) : let d := b.setWidth 32
    let buffer := (d <<< 8) ||| d
    wordOf (buffer ||| (buffer <<< 16)) i = b := by
  revert b
  interval_cases i <;> decide

section Set

variable (m : Bytes) (s : Address) (c : BitVec 32) {k : Nat}

theorem setByte_eq (room : k + 1 ≤ 2 ^ 32) :
    setByte c (setUpTo m s (c.setWidth 8) k) = setUpTo m s (c.setWidth 8) (k + 1) := by
  rw [setByte, setUpTo, setUpTo, update_eq_replaced]
  exact Prod.ext (replaced_replaced m s (fun _ => c.setWidth 8) room) (add_add s k 1)

theorem setWord_eq (room : k + 4 ≤ 2 ^ 32) : let d := c &&& 0xff
    let buffer := (d <<< 8) ||| d
    setWord (buffer ||| (buffer <<< 16)) (setUpTo m s (c.setWidth 8) k) =
      setUpTo m s (c.setWidth 8) (k + 4) := by
  dsimp only
  rw [setWord, setUpTo, setUpTo, ← add_add, ← replaced_replaced m s _ room, low_byte]
  refine Prod.ext (funext fun x => ?_) rfl
  simp only [storeWord, replaced]
  split
  · exact wordOf_buffer _ ‹_›
  · rfl

theorem byteSet_eq {count : Nat} (bounded : count ≤ 2 ^ 32) :
    byteSet m s c count = replaced m s (fun _ => c.setWidth 8) count := by
  have start : (m, s) = setUpTo m s (c.setWidth 8) 0 := by simp [setUpTo, replaced_zero]
  rw [byteSet, start, loop_eq (by decide) _ (fun k room => setByte_eq m s c (k := k) (by omega))
    (Nat.zero_add _), Nat.mod_one]
  rfl

theorem rtMemset_eq {count : Nat} (bounded : count ≤ 2 ^ 32) :
    rtMemset m s c count = byteSet m s c count := by
  have low : setByte (c &&& 0xff) = setByte c := by
    funext st
    have byte : ((c.setWidth 8).setWidth 32).setWidth 8 = c.setWidth 8 := by simp
    rw [setByte, setByte, low_byte, byte]
  unfold rtMemset
  dsimp only
  rw [low]
  split
  · have start : (m, s) = setUpTo m s (c.setWidth 8) 0 := by simp [setUpTo, replaced_zero]
    rw [byteSet_eq m s c bounded, start]
    exact congrArg Prod.fst (loops_eq _ (fun k room => setWord_eq m s c (k := k) (by omega))
      fun k room => setByte_eq m s c (by omega))
  · rfl

end Set

theorem replaced_congr {m : Bytes} {a : Address} {value value' : Nat → BitVec 8} {count : Nat}
    (same : ∀ i < count, value i = value' i) :
    replaced m a value count = replaced m a value' count := by
  funext x
  unfold replaced
  split
  · exact same _ ‹_›
  · rfl

theorem replaced_outside {m : Bytes} {a x : Address} {value : Nat → BitVec 8} {count : Nat}
    (outside : ∀ i < count, a + BitVec.ofNat 32 i ≠ x) : replaced m a value count x = m x := by
  refine if_neg fun below => outside _ below ?_
  rw [ofNat_toNat, setWidth_eq, BitVec.add_comm, BitVec.sub_add_cancel]

def Disjoint (dst src : Address) (count : Nat) : Prop :=
  ∀ i < count, ∀ j < count, dst + BitVec.ofNat 32 i ≠ src + BitVec.ofNat 32 j

def copied (m : Bytes) (dst src : Address) (k : Nat) : Copying :=
  ⟨replaced m dst (fun i => m (src + BitVec.ofNat 32 i)) k, dst + BitVec.ofNat 32 k,
    src + BitVec.ofNat 32 k⟩

section Copy

variable {m : Bytes} {dst src : Address} {k count : Nat}

theorem copied_add (size : Nat) (room : k + size ≤ 2 ^ 32)
    (intact : ∀ i < k, ∀ j < size, dst + BitVec.ofNat 32 i ≠ src + BitVec.ofNat 32 (k + j)) :
    replaced (copied m dst src k).m (copied m dst src k).dst
      (fun j => (copied m dst src k).m ((copied m dst src k).src + BitVec.ofNat 32 j)) size =
      (copied m dst src (k + size)).m := by
  dsimp only [copied]
  rw [← replaced_replaced m dst _ room]
  refine replaced_congr fun j inside => ?_
  rw [add_add]
  exact replaced_outside fun i earlier => intact i earlier j inside

theorem copyWord_eq (apart : Disjoint dst src count) (bounded : count ≤ 2 ^ 32)
    (room : k + 4 ≤ count) : copyWord (copied m dst src k) = copied m dst src (k + 4) := by
  have next : storeWord (copied m dst src k).m (copied m dst src k).dst
      (loadWord (copied m dst src k).m (copied m dst src k).src) = (copied m dst src (k + 4)).m :=
    copied_add 4 (by omega) fun i earlier j inside => apart i (by omega) (k + j) (by omega)
  rw [copyWord, next]
  exact congrArg₂ (Copying.mk _) (add_add dst k 4) (add_add src k 4)

theorem copyByte_eq (room : k + 1 ≤ 2 ^ 32)
    (intact : ∀ i < k, dst + BitVec.ofNat 32 i ≠ src + BitVec.ofNat 32 k) :
    copyByte (copied m dst src k) = copied m dst src (k + 1) := by
  have next := copied_add (m := m) 1 room fun i earlier j inside => by
    rw [Nat.lt_one_iff.mp inside]
    exact intact i earlier
  have first (j : Nat) (inside : j < 1) : (copied m dst src k).m (copied m dst src k).src =
      (copied m dst src k).m ((copied m dst src k).src + BitVec.ofNat 32 j) := by
    rw [Nat.lt_one_iff.mp inside]
    simp
  rw [copyByte, update_eq_replaced, replaced_congr first, next]
  exact congrArg₂ (Copying.mk _) (add_add dst k 1) (add_add src k 1)

theorem copied_zero : copied m dst src 0 = ⟨m, dst, src⟩ := by simp [copied, replaced_zero]

theorem byteCopy_eq (bounded : count ≤ 2 ^ 32)
    (intact : ∀ j < count, ∀ i < j, dst + BitVec.ofNat 32 i ≠ src + BitVec.ofNat 32 j) :
    byteCopy m dst src count = (copied m dst src count).m := by
  rw [byteCopy, ← copied_zero, loop_eq (by decide) _ (fun k room => copyByte_eq (k := k) (by omega)
    (intact k (by omega))) (Nat.zero_add _), Nat.mod_one]
  rfl

theorem rtMemcpy_eq (bounded : count ≤ 2 ^ 32) (apart : Disjoint dst src count) :
    rtMemcpy m dst src count = byteCopy m dst src count := by
  unfold rtMemcpy
  split
  · rw [byteCopy_eq bounded fun j inside i earlier => apart i (by omega) j inside, ← copied_zero]
    exact congrArg Copying.m (loops_eq _ (fun k room => copyWord_eq apart bounded room)
      fun k room => copyByte_eq (by omega) fun i earlier => apart i (by omega) k (by omega))
  · rfl

def copiedBack (m : Bytes) (dst src : Address) (count k : Nat) : Copying :=
  ⟨replaced m (dst + BitVec.ofNat 32 (count - k))
      (fun i => m (src + BitVec.ofNat 32 (count - k + i))) k,
    dst + BitVec.ofNat 32 (count - k), src + BitVec.ofNat 32 (count - k)⟩

theorem copyByteBack_eq (room : k + 1 ≤ count) (bounded : count ≤ 2 ^ 32)
    (intact : ∀ i < count, count - k ≤ i →
      dst + BitVec.ofNat 32 i ≠ src + BitVec.ofNat 32 (count - (k + 1))) :
    copyByteBack (copiedBack m dst src count k) = copiedBack m dst src count (k + 1) := by
  have next : count - k = count - (k + 1) + 1 := by omega
  have back (a : Address) : a + BitVec.ofNat 32 (count - k) =
      a + BitVec.ofNat 32 (count - (k + 1)) + 1 := by
    rw [next, ← add_add]
    rfl
  have kept : (copiedBack m dst src count k).m (src + BitVec.ofNat 32 (count - (k + 1))) =
      m (src + BitVec.ofNat 32 (count - (k + 1))) := by
    dsimp only [copiedBack]
    refine replaced_outside fun i inside => ?_
    rw [add_add]
    exact intact _ (by omega) (by omega)
  rw [copyByteBack, update_eq_replaced]
  dsimp only [copiedBack] at *
  rw [back, back, BitVec.add_sub_cancel, BitVec.add_sub_cancel, ← back, kept, back]
  refine congrArg (Copying.mk · _ _) (Eq.trans ?_ (replaced_front m _ _ (by omega)))
  simp only [next, Nat.add_assoc, Nat.add_comm 1, Nat.add_zero]

/-- A pointer past the end of the region is above those into it. -/
def Region (a : Address) (count : BitVec 32) : Prop := a.toNat + count.toNat < 2 ^ 32

theorem Region.place {a : Address} {n : BitVec 32} (region : Region a n) {i : Nat}
    (inside : i ≤ n.toNat) : (a + BitVec.ofNat 32 i).toNat = a.toNat + i := by
  unfold Region at region
  rw [toNat_add, toNat_ofNat]
  omega

theorem rtMemmove_eq {n : BitVec 32} (target : Region dst n) (source : Region src n) :
    rtMemmove m dst src n = (copied m dst src n.toNat).m := by
  have apart {i j : Nat} (below : i < n.toNat) (inside : j < n.toNat)
      (same : dst + BitVec.ofNat 32 i = src + BitVec.ofNat 32 j) :
      dst.toNat + i = src.toNat + j := by
    rw [← target.place below.le, same, source.place inside.le]
  have past : (src + n).toNat = src.toNat + n.toNat := by simpa using source.place le_rfl
  unfold rtMemmove
  split
  · rename_i backward
    have start : copiedBack m dst src n.toNat 0 = ⟨m, dst + n, src + n⟩ := by
      simp [copiedBack, replaced_zero]
    have steps (k : Nat) (room : k + 1 ≤ n.toNat) :
        copyByteBack (copiedBack m dst src n.toNat k) = copiedBack m dst src n.toNat (k + 1) := by
      refine copyByteBack_eq room n.isLt.le fun i inside late same => ?_
      have := apart inside (by omega) same
      have := lt_def.mp backward.1
      omega
    rw [← start, loop_eq (by decide) _ steps (Nat.zero_add _), Nat.mod_one]
    simp only [copiedBack, copied, Nat.sub_zero, Nat.sub_self, Nat.zero_add]
    congr 1
    exact BitVec.add_zero dst
  · rename_i forward
    refine byteCopy_eq n.isLt.le fun j inside i earlier same => forward ?_
    have := apart (by omega) inside same
    rw [lt_def, lt_def, past]
    omega

end Copy

/-- Outside the destination nothing changes, and `rt_memmove` copies every byte as it was. -/
theorem memory_functions (m : Bytes) (dst src : Address) (c n : BitVec 32) :
    rtMemset m dst c n.toNat = byteSet m dst c n.toNat ∧
    (∀ x, n.toNat ≤ (x - dst).toNat → rtMemset m dst c n.toNat x = m x) ∧
    (Disjoint dst src n.toNat → rtMemcpy m dst src n.toNat = byteCopy m dst src n.toNat ∧
      ∀ x, n.toNat ≤ (x - dst).toNat → rtMemcpy m dst src n.toNat x = m x) ∧
    (Region dst n → Region src n → ∀ x, rtMemmove m dst src n x =
      if (x - dst).toNat < n.toNat then m (src + (x - dst)) else m x) := by
  refine ⟨rtMemset_eq m dst c n.isLt.le, fun x outside => ?_, fun apart => ?_,
    fun target source x => ?_⟩
  · rw [rtMemset_eq m dst c n.isLt.le, byteSet_eq m dst c n.isLt.le]
    exact if_neg outside.not_gt
  · have same := rtMemcpy_eq (m := m) n.isLt.le apart
    refine ⟨same, fun x outside => ?_⟩
    rw [same, byteCopy_eq n.isLt.le fun j inside i earlier => apart i (by omega) j inside]
    exact if_neg outside.not_gt
  · rw [rtMemmove_eq target source]
    simp only [copied, replaced, ofNat_toNat, setWidth_eq]

theorem memory_functions_shifted :
    let m : Bytes := fun x => x.setWidth 8
    rtMemcpy m 8 0 3 = byteCopy m 8 0 3 ∧ rtMemmove m 1 0 3 2 = 1 := by
  refine ⟨((memory_functions _ 8 0 7 3).2.2.1 ?_).1, ?_⟩
  · unfold Disjoint
    decide
  · exact (memory_functions _ 1 0 7 3).2.2.2 (by unfold Region; decide) (by unfold Region; decide) 2

end RtThread.Kservice
