import RtThread.Kservice.Print

/-!
# Truncated output

What `rt_vsnprintf` leaves in a buffer, against the output into an unlimited one.
-/

namespace RtThread.Kservice

variable {Out : Type} (put : Out → Char → Out) {strings : BitVec 32 → List Char}

def Emits (write : ∀ {Out : Type}, (Out → Char → Out) → Out → Out) : Prop :=
  ∃ text : List Char, ∀ {Out : Type} (put : Out → Char → Out) (out : Out),
    write put out = text.foldl put out

theorem Emits.comp {a second : ∀ {Out : Type}, (Out → Char → Out) → Out → Out}
    (emits : Emits second) (before : Emits a) : Emits fun put out => second put (a put out) := by
  obtain ⟨front, isFront⟩ := before
  obtain ⟨back, isBack⟩ := emits
  refine ⟨front ++ back, fun put out => ?_⟩
  rw [List.foldl_append, ← isFront, ← isBack]

theorem emits_put (ch : Char) : Emits fun put out => put out ch := ⟨[ch], fun _ _ => rfl⟩

theorem fill_eq (ch : Char) (n : Nat) (out : Out) :
    fill put ch n out = (List.replicate n ch).foldl put out := by
  induction n generalizing out with
  | zero => rfl
  | succ n ih => exact ih _

theorem printNumber_shape (num : BitVec 32) (base : Nat) (s precision : Int) (type : NumberType) :
    ∃ front zeros back, ∀ {Out : Type} (put : Out → Char → Out) (out : Out),
      printNumber put out num base s precision type =
        (List.replicate front ' ' ++ (signOf num type).toList ++ List.replicate zeros '0' ++
          (if precision = 0 then [] else (tmpOf (magnitude num type) base type.large).reverse) ++
          List.replicate back ' ').foldl put out := by
  generalize isTmp : tmpOf (magnitude num type) base type.large = tmp
  have digits {Out : Type} (put : Out → Char → Out) (out : Out) :
      (if precision = 0 then out else tmp.reverse.foldl put out) =
        (if precision = 0 then [] else tmp.reverse).foldl put out := by
    split <;> rfl
  generalize isRoom : s - max precision tmp.length = room
  let size := room - (signOf num type).toList.length
  let zeros := (max precision tmp.length - tmp.length).toNat
  by_cases left : type.left
  · refine ⟨0, zeros, size.toNat, fun put out => ?_⟩
    simp only [printNumber, isTmp, isRoom, digits]
    generalize (if precision = 0 then [] else tmp.reverse) = text
    cases sign : signOf num type <;> simp [left, sign, fill_eq, size, zeros]
  · by_cases zeropad : type.zeropad
    · refine ⟨0, size.toNat + zeros, 0, fun put out => ?_⟩
      simp only [printNumber, isTmp, isRoom, digits]
      rw [← List.replicate_append_replicate]
      cases sign : signOf num type <;>
        simp [left, zeropad, sign, fill_eq, padding, size, zeros, -List.replicate_append_replicate]
    · have front : (if 0 < room then room - 1 else room).toNat = room.toNat - 1 := by
        split <;> omega
      refine ⟨size.toNat, zeros, 0, fun put out => ?_⟩
      simp only [printNumber, isTmp, isRoom, digits]
      generalize (if precision = 0 then [] else tmp.reverse) = text
      cases sign : signOf num type <;>
        simp [left, zeropad, sign, fill_eq, padding, front, size, zeros]

theorem convert_emits (strings : BitVec 32 → List Char) (d : Directive) (letter : Option Char)
    (arg : BitVec 32) : Emits fun put out => convert put strings out d letter arg := by
  have fills (ch : Char) (n : Nat) : Emits fun put out => fill put ch n out :=
    ⟨_, fun put out => fill_eq put ch n out⟩
  have number (num : BitVec 32) (base : Nat) (s : Int) (type : NumberType) :
      Emits fun put out => printNumber put out num base s d.precision type :=
    have ⟨_, _, _, shape⟩ := printNumber_shape num base s d.precision type
    ⟨_, shape⟩
  unfold convert
  split
  · exact emits_put '%'
  · by_cases left : d.flags.left
    · simp only [putChar, left, if_true]
      exact (fills ' ' _).comp (emits_put _)
    · simp only [putChar, left, Bool.false_eq_true, if_false]
      exact (fills ' ' _).comp ((emits_put _).comp (fills ' ' _))
  · have text (s : List Char) : Emits fun put out => s.foldl put out := ⟨s, fun _ _ => rfl⟩
    by_cases left : d.flags.left
    · simp only [putString, left, if_true]
      exact (fills ' ' _).comp (text _)
    · simp only [putString, left, Bool.false_eq_true, if_false]
      exact (fills ' ' _).comp ((text _).comp (fills ' ' _))
  · split
    · exact number arg 16 8 _
    · exact number arg 16 d.fieldWidth _
  · exact emits_put '%'
  · split
    · exact number ..
    · exact (emits_put _).comp (emits_put '%')

theorem format_emits (strings : BitVec 32 → List Char) :
    ∀ (fmt : List Char) (args : Args), Emits fun put out => format put strings out fmt args
  | [], args => ⟨[], fun put out => by simp [format]⟩
  | ch :: fmt, args => by
    by_cases plain : ch ≠ '%'
    · have rest := (format_emits strings fmt args).comp (emits_put ch)
      simpa only [format, if_pos plain] using rest
    · have shorter := parse_length fmt args
      have rest := (format_emits strings (parse fmt args).fmt.tail
        (if takesArg (parse fmt args).fmt.head? then (parse fmt args).args.tail
          else (parse fmt args).args)).comp
        (convert_emits strings (parse fmt args).directive (parse fmt args).fmt.head?
          (parse fmt args).args.head)
      simpa only [format, if_neg plain] using rest
termination_by fmt => fmt.length
decreasing_by
  · simp
  · simp only [List.length_tail, List.length_cons]
    omega

theorem format_eq (out : Out) (fmt : List Char) (args : Args) :
    format put strings out fmt args = (output strings fmt args).foldl put out := by
  obtain ⟨text, emits⟩ := format_emits strings fmt args
  have whole : output strings fmt args = text := (emits _ _).trans (by simp [← List.flatMap_def])
  exact whole ▸ emits put out

def stored (m : Nat → Char) (stores : List (Nat × Char)) : Nat → Char :=
  stores.foldl (fun m store => Function.update m store.1 store.2) m

theorem stored_concat (m : Nat → Char) (stores : List (Nat × Char)) (store : Nat × Char) :
    stored m (stores ++ [store]) = Function.update (stored m stores) store.1 store.2 := by
  simp [stored]

theorem stored_outside {m : Nat → Char} {stores : List (Nat × Char)} {a : Nat}
    (outside : ∀ store ∈ stores, store.1 ≠ a) : stored m stores a = m a := by
  induction stores using List.reverseRecOn with
  | nil => rfl
  | append_singleton stores store ih =>
    rw [stored_concat, Function.update_of_ne (outside store (by simp)).symm]
    exact ih fun u mem => outside u (by simp [mem])

theorem stored_of_mem {m : Nat → Char} {stores : List (Nat × Char)} {a : Nat} {ch : Char}
    (mem : (a, ch) ∈ stores) (only : ∀ store ∈ stores, store.1 = a → store.2 = ch) :
    stored m stores a = ch := by
  induction stores using List.reverseRecOn with
  | nil => cases mem
  | append_singleton stores store ih =>
    rw [stored_concat]
    by_cases last : store.1 = a
    · rw [← last, Function.update_self, only store (by simp) last]
    · rw [Function.update_of_ne (Ne.symm last)]
      refine ih ?_ fun u mem => only u (by simp [mem])
      rcases List.mem_append.mp mem with mem | mem
      · exact mem
      · exact absurd (congrArg Prod.fst (List.mem_singleton.mp mem).symm) last

/-- What `rt_vsnprintf` owes a buffer of `size` characters: the length of the whole
output, no store outside, and as much of the output as fits before a final null. -/
structure Truncates (text : List Char) (buf size : Nat) (run : Int × List (Nat × Char)) :
    Prop where
  length : run.1 = text.length
  inside : ∀ store ∈ run.2, buf ≤ store.1 ∧ store.1 < buf + size
  contents : 0 < size → ∀ m k ch, (text.take (size - 1) ++ [nul])[k]? = some ch →
    stored m run.2 (buf + k) = ch

/-- The output has a length that `rt_int32_t` holds and ends below the end of the
address space, by one more character where `buf + size` does not. -/
def Fits (length buf size : Nat) : Prop :=
  length < 2 ^ 31 ∧ (size = 0 → buf + length ≤ 2 ^ 32) ∧ (0 < size → buf + length < 2 ^ 32) ∧
    (2 ^ 32 ≤ buf + size → buf + length + 1 < 2 ^ 32)

def textRun (text : List Char) (buf size : Nat) : Int × List (Nat × Char) :=
  let (last, size) := bufferEnd buf size
  let cur := text.foldl (Cursor.put last) ⟨buf, []⟩
  (Int.bmod (cur.str - buf) (2 ^ 32),
    if 0 < size then cur.stores ++ [(if cur.str < last then cur.str else last - 1, nul)]
    else cur.stores)

def placed (last buf : Nat) (text : List Char) : List (Nat × Char) :=
  ((text.zipIdx buf).map fun p => (p.2 % 2 ^ 32, p.1)).filter (·.1 < last)

theorem mem_placed {last buf a : Nat} {text : List Char} {ch : Char} :
    (a, ch) ∈ placed last buf text ↔
      ∃ k, text[k]? = some ch ∧ (buf + k) % 2 ^ 32 = a ∧ a < last := by
  rw [placed, List.mem_filter, List.mem_map]
  refine ⟨?_, ?_⟩
  · rintro ⟨⟨⟨ch', p⟩, mem, same⟩, below⟩
    obtain ⟨rfl, rfl⟩ := Prod.mk.inj same
    obtain ⟨behind, isCh⟩ := List.mk_mem_zipIdx_iff_le_and_getElem?_sub.mp mem
    exact ⟨p - buf, isCh, by rw [Nat.add_sub_cancel' behind], of_decide_eq_true below⟩
  · rintro ⟨k, isCh, rfl, below⟩
    refine ⟨⟨(ch, buf + k), ?_, rfl⟩, decide_eq_true below⟩
    exact List.mk_mem_zipIdx_iff_le_and_getElem?_sub.mpr ⟨Nat.le_add_right .., by simpa using isCh⟩

theorem foldl_put (last i : Nat) (stores : List (Nat × Char)) (text : List Char) :
    text.foldl (Cursor.put last) ⟨i % 2 ^ 32, stores⟩ =
      ⟨(i + text.length) % 2 ^ 32, stores ++ placed last i text⟩ := by
  induction text generalizing i stores with
  | nil => simp [placed]
  | cons ch text ih =>
    rw [List.foldl_cons, Cursor.put, Nat.mod_add_mod, ih, List.length_cons]
    dsimp only [placed]
    rw [List.zipIdx_cons, List.map_cons, List.filter_cons]
    split <;> simp_all [Nat.add_assoc, Nat.add_comm 1]

section Run

variable {buf size last room : Nat} {text : List Char} (inside : buf < 2 ^ 32)

include inside in
theorem textRun_eq (ends : bufferEnd buf size = (last, room)) :
    textRun text buf size = (Int.bmod text.length (2 ^ 32), placed last buf text ++
      if 0 < room then [(if (buf + text.length) % 2 ^ 32 < last then
        (buf + text.length) % 2 ^ 32 else last - 1, nul)] else []) := by
  have run := foldl_put last buf [] text
  rw [Nat.mod_eq_of_lt inside] at run
  simp only [textRun, ends, run, List.nil_append]
  refine Prod.ext ?_ ?_
  · dsimp only
    rw [Int.natCast_emod, Int.emod_sub_bmod]
    simp
  · dsimp only
    split <;> simp

variable (bounded : size < 2 ^ 32)
include inside bounded

theorem bufferEnd_eq : bufferEnd buf size =
    if buf + size < 2 ^ 32 then (buf + size, size) else (2 ^ 32 - 1, 2 ^ 32 - 1 - buf) := by
  unfold bufferEnd
  split_ifs <;> first | omega | rfl | (rw [Nat.mod_eq_of_lt ‹_›])

theorem Fits.ends (fits : Fits text.length buf size) (sized : 0 < size) :
    ∃ last room, bufferEnd buf size = (last, room) ∧ 0 < room ∧ last ≤ buf + size ∧
      buf + min text.length (size - 1) < last ∧
      (if (buf + text.length) % 2 ^ 32 < last then (buf + text.length) % 2 ^ 32 else last - 1) =
        buf + min text.length (size - 1) := by
  obtain ⟨-, -, below, wrapped⟩ := fits
  rw [bufferEnd_eq inside bounded, Nat.mod_eq_of_lt (below sized)]
  by_cases whole : buf + size < 2 ^ 32
  · refine ⟨_, _, if_pos whole, sized, le_rfl, by omega, ?_⟩
    split <;> omega
  · refine ⟨_, _, if_neg whole, by omega, by omega, by omega, ?_⟩
    rw [if_pos (by omega)]
    omega

theorem Fits.truncates (fits : Fits text.length buf size) :
    Truncates text buf size (textRun text buf size) := by
  have short := fits.1
  have ret : Int.bmod text.length (2 ^ 32) = text.length := by
    rw [Int.bmod_eq_emod]
    split <;> omega
  by_cases sized : 0 < size
  · obtain ⟨last, room, ends, some, low, full, isNul⟩ := fits.ends inside bounded sized
    have space (k : Nat) (inText : k ≤ text.length) : (buf + k) % 2 ^ 32 = buf + k :=
      Nat.mod_eq_of_lt (by have := fits.2.2.1 sized; omega)
    rw [textRun_eq inside ends, ret, isNul, if_pos some]
    refine ⟨rfl, fun ⟨a, ch⟩ mem => ?_, fun _ m k ch isCh => ?_⟩
    · rcases List.mem_append.mp mem with mem | mem
      · obtain ⟨k, isCh, rfl, below⟩ := mem_placed.mp mem
        have inText := (List.getElem?_eq_some_iff.mp isCh).1
        rw [space k inText.le] at *
        omega
      · obtain ⟨rfl, -⟩ := Prod.mk.inj (List.mem_singleton.mp mem)
        omega
    · have length : (text.take (size - 1)).length = min text.length (size - 1) := by
        rw [List.length_take, Nat.min_comm]
      rw [stored_concat]
      by_cases earlier : k < min text.length (size - 1)
      · rw [List.getElem?_append_left (length ▸ earlier), List.getElem?_take,
          if_pos (by omega)] at isCh
        rw [Function.update_of_ne (by dsimp only; omega)]
        refine stored_of_mem (mem_placed.mpr ⟨k, isCh, space k (by omega), by omega⟩) ?_
        rintro ⟨a, u⟩ mem rfl
        obtain ⟨i, isOther, same, -⟩ := mem_placed.mp mem
        have inText := (List.getElem?_eq_some_iff.mp isOther).1
        obtain rfl : i = k := by omega
        exact Option.some.inj (isOther.symm.trans isCh)
      · rw [List.getElem?_append_right (by omega), List.getElem?_singleton] at isCh
        obtain ⟨guard, ⟨⟩⟩ := Option.ite_none_right_eq_some.mp isCh
        obtain rfl : k = min text.length (size - 1) := by omega
        exact Function.update_self ..
  · obtain rfl : size = 0 := by omega
    have below := fits.2.1 rfl
    rw [textRun_eq inside (by rw [bufferEnd_eq inside bounded, if_pos (by omega)]), ret]
    refine ⟨rfl, fun ⟨a, ch⟩ mem => ?_, fun some => absurd some sized⟩
    obtain ⟨k, isCh, rfl, low⟩ := mem_placed.mp (by simpa using mem)
    have inText := (List.getElem?_eq_some_iff.mp isCh).1
    rw [Nat.mod_eq_of_lt (by omega)] at low
    omega

theorem Truncates.fits (truncates : Truncates text buf size (textRun text buf size)) :
    Fits text.length buf size := by
  obtain ⟨last, room, ends⟩ : ∃ last room, bufferEnd buf size = (last, room) := ⟨_, _, rfl⟩
  have isEnds := ends.symm.trans (bufferEnd_eq inside bounded)
  rw [textRun_eq inside ends] at truncates
  obtain ⟨ret, within, contents⟩ := truncates
  have short : text.length < 2 ^ 31 := by
    rw [Int.bmod_eq_emod] at ret
    split at ret <;> omega
  have wrapped (wraps : 2 ^ 32 ≤ buf + size) : buf + text.length + 1 < 2 ^ 32 := by
    rw [if_neg (by omega)] at isEnds
    obtain ⟨rfl, rfl⟩ := Prod.mk.inj isEnds
    by_contra long
    obtain ⟨ch, isCh⟩ : ∃ ch, (text.take (size - 1) ++ [nul])[2 ^ 32 - 1 - buf]? = some ch := by
      refine ⟨_, List.getElem?_eq_getElem ?_⟩
      rw [List.length_append, List.length_take, List.length_singleton]
      omega
    obtain ⟨u, ne⟩ : ∃ u, u ≠ ch := by
      by_cases isNul : ch = nul
      · exact ⟨'a', isNul ▸ by decide⟩
      · exact ⟨nul, Ne.symm isNul⟩
    have left := contents (by omega) (fun _ => u) _ ch isCh
    rw [stored_outside] at left
    · exact ne left
    · rintro ⟨a, ch⟩ mem
      rcases List.mem_append.mp mem with mem | mem
      · obtain ⟨k, -, -, low⟩ := mem_placed.mp mem
        omega
      · split at mem
        · obtain ⟨rfl, -⟩ := Prod.mk.inj (List.mem_singleton.mp mem)
          split <;> omega
        · cases mem
  have noWrap (above : 0 < buf) (some : 0 < last) : buf + text.length ≤ 2 ^ 32 := by
    by_contra long
    have isCh := List.getElem?_eq_getElem (l := text) (i := 2 ^ 32 - buf) (by omega)
    have zero : (buf + (2 ^ 32 - buf)) % 2 ^ 32 = 0 := by omega
    have mem := mem_placed.mpr ⟨_, isCh, zero, some⟩
    have : buf ≤ 0 := (within _ (List.mem_append_left _ mem)).1
    omega
  refine ⟨short, fun isZero => ?_, fun sized => ?_, wrapped⟩
  · by_contra long
    rw [if_pos (by omega)] at isEnds
    exact long (noWrap (by omega) (by injection isEnds; omega))
  · by_contra long
    by_cases whole : buf + size < 2 ^ 32
    · rw [if_pos whole] at isEnds
      obtain ⟨rfl, rfl⟩ := Prod.mk.inj isEnds
      have isZero : (buf + text.length) % 2 ^ 32 = 0 := by omega
      rw [isZero, if_pos sized, if_pos (by omega)] at within
      have : buf ≤ 0 := (within _ (List.mem_append_right _ List.mem_cons_self)).1
      omega
    · have := wrapped (by omega)
      omega

end Run

theorem rtVsnprintf_eq (strings : BitVec 32 → List Char) (buf size : BitVec 32) (fmt : List Char)
    (args : Args) : rtVsnprintf strings buf size fmt args =
      textRun (output strings fmt args) buf.toNat size.toNat := by
  simp only [rtVsnprintf, format_eq]
  rfl

/-- The output is truncated as it should be just when it fits below the end of the
address space and its length into the result. -/
theorem truncates_iff (strings : BitVec 32 → List Char) (buf size : BitVec 32) (fmt : List Char)
    (args : Args) : Truncates (output strings fmt args) buf.toNat size.toNat
        (rtVsnprintf strings buf size fmt args) ↔
      Fits (output strings fmt args).length buf.toNat size.toNat := by
  rw [rtVsnprintf_eq]
  exact ⟨fun truncates => truncates.fits buf.isLt size.isLt,
    fun fits => fits.truncates buf.isLt size.isLt⟩

/-- The arguments of `%*c!`: the greatest width, and a character. -/
def widest : Args := fun i => if i = 0 then 0x7FFFFFFF else 0x78

theorem widest_length : (output (fun _ => []) ['%', '*', 'c', '!'] widest).length = 2 ^ 31 := by
  have parsed : parse ['*', 'c', '!'] widest =
      ⟨⟨{}, 2147483647, -1, none⟩, ['c', '!'], widest.tail⟩ := rfl
  rw [output, format, if_neg (by decide)]
  simp only [parsed, List.head?_cons, List.tail_cons, convert, putChar, fill_eq]
  simp [format, -List.reduceReplicate]

/-- More characters than `rt_int32_t` counts: the length comes out negative. -/
theorem widest_not_truncated : ¬ Truncates (output (fun _ => []) ['%', '*', 'c', '!'] widest)
    0x20000000 16 (rtVsnprintf (fun _ => []) 0x20000000 16 ['%', '*', 'c', '!'] widest) := by
  rw [rtVsnprintf_eq]
  intro truncates
  have short := (truncates.fits (by decide) (by decide)).1
  rw [widest_length] at short
  exact absurd short (by decide)

end RtThread.Kservice
