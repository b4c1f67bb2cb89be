import RtThread.Kservice.Truncation

/-!
# Numerals

What the integer conversions print, read back in the base of the conversion.
-/

namespace RtThread.Kservice

open List (replicate cons_append head?_cons mem_cons_self)

def digitValue (ch : Char) : Option Nat :=
  if ch.isDigit then some (ch.toNat - '0'.toNat)
  else if 'a' ≤ ch ∧ ch ≤ 'f' then some (ch.toNat - 'a'.toNat + 10)
  else if 'A' ≤ ch ∧ ch ≤ 'F' then some (ch.toNat - 'A'.toNat + 10)
  else none

def readDigits (base : Nat) (digits : List Char) : Option Nat :=
  digits.foldl (fun number ch => number.bind fun n =>
    ((digitValue ch).filter (· < base)).map (base * n + ·)) (some 0)

/-- A numeral between blanks; the empty one denotes 0. -/
def readNumeral (base : Nat) (text : List Char) : Option Int :=
  let text := text.dropWhile (· = ' ')
  let digits := if text.head? = some '-' ∨ text.head? = some '+' then text.tail else text
  if (digits.dropWhile (· ≠ ' ')).all (· = ' ') then
    (readDigits base (digits.takeWhile (· ≠ ' '))).map fun n : Nat =>
      if text.head? = some '-' then -(n : Int) else n
  else none

def valueOf (num : BitVec 32) (sign : Bool) : Int := if sign then num.toInt else num.toNat

theorem readDigits_concat (base : Nat) (digits : List Char) (ch : Char) :
    readDigits base (digits ++ [ch]) = (readDigits base digits).bind fun n =>
      ((digitValue ch).filter (· < base)).map (base * n + ·) := by
  simp [readDigits]

variable {base : Nat}

theorem readDigits_zeros (pos : 0 < base) (zeros : Nat) (digits : List Char) :
    readDigits base (replicate zeros '0' ++ digits) = readDigits base digits := by
  have zero : digitValue '0' = some 0 := by decide
  induction zeros with
  | zero => rfl
  | succ zeros ih =>
    rw [← ih]
    simp [readDigits, List.replicate_succ, zero, Option.filter, pos]

def digitChar (large : Bool) (d : Nat) : Char :=
  (if large then largeDigits else smallDigits).getD d '0'

theorem digitValue_digitChar {large : Bool} {d : Nat} (hex : d < 16) :
    digitValue (digitChar large d) = some d := by
  revert large d
  decide

theorem digitChar_plain {large : Bool} {d : Nat} (hex : d < 16) :
    digitChar large d ≠ ' ' ∧ digitChar large d ≠ '-' ∧ digitChar large d ≠ '+' := by
  revert large d
  decide

theorem tmpDigits_eq (base n : Nat) :
    tmpDigits base n = Nat.digits (if base = 10 then 10 else 16) n := by
  induction n using Nat.strongRecOn with
  | ind n ih =>
    rw [tmpDigits]
    split
    · rename_i zero
      rw [zero, Nat.digits_zero]
    · rename_i pos
      rw [ih _ (divide_lt pos base), divide]
      by_cases ten : base = 10
      · simp only [if_pos ten]
        exact (Nat.digits_def' (by decide) (Nat.pos_of_ne_zero pos)).symm
      · simp only [if_neg ten]
        exact (Nat.digits_def' (by decide) (Nat.pos_of_ne_zero pos)).symm

theorem readDigits_reverse (base : Nat) (large : Bool) {digits : List Nat}
    (hex : ∀ d ∈ digits, d < 16) : readDigits base (digits.map (digitChar large)).reverse =
      if ∀ d ∈ digits, d < base then some (Nat.ofDigits base digits) else none := by
  induction digits with
  | nil => simp [readDigits]
  | cons d digits ih =>
    rw [List.map_cons, List.reverse_cons, readDigits_concat,
      ih fun d mem => hex d (List.mem_cons_of_mem _ mem),
      digitValue_digitChar (hex d mem_cons_self), Nat.ofDigits_cons]
    by_cases below : d < base
    · by_cases all : ∀ d ∈ digits, d < base
      · simp [below, if_pos all, Nat.add_comm]
      · simp [below, if_neg all]
    · simp [below, Option.filter]

theorem readNumeral_padded (base front back : Nat) {sign : Option Char} {body : List Char}
    (isSign : ∀ ch, sign = some ch → ch = '-' ∨ ch = '+' ∨ ch = ' ')
    (plain : ∀ ch ∈ body, ch ≠ ' ' ∧ ch ≠ '-' ∧ ch ≠ '+') :
    readNumeral base (replicate front ' ' ++ sign.toList ++ body ++ replicate back ' ') =
      (readDigits base body).map fun n : Nat => if sign = some '-' then -(n : Int) else n := by
  have blanks (n : Nat) (text : List Char) :
      (replicate n ' ' ++ text).dropWhile (· = ' ') = text.dropWhile (· = ' ') := by
    induction n with
    | zero => rfl
    | succ n ih => exact ih
  have noBlank : ∀ ch ∈ body, decide (ch ≠ ' ') = true := fun ch mem => by simp [(plain ch mem).1]
  have taken : (body ++ replicate back ' ').takeWhile (· ≠ ' ') = body := by
    rw [List.takeWhile_append_of_pos noBlank]
    cases back <;> simp
  have dropped : ((body ++ replicate back ' ').dropWhile (· ≠ ' ')).all (· = ' ') := by
    rw [List.dropWhile_append_of_pos noBlank]
    cases back <;> simp
  have unsigned (front : Nat) : readNumeral base (replicate front ' ' ++
      (body ++ replicate back ' ')) = (readDigits base body).map fun n : Nat => (n : Int) := by
    rw [readNumeral, blanks]
    cases body with
    | nil => simp
    | cons ch body =>
      obtain ⟨noBlank, noMinus, noPlus⟩ := plain ch mem_cons_self
      rw [cons_append, List.dropWhile_cons_of_neg (by simpa using noBlank), ← cons_append]
      simp only [cons_append, head?_cons, Option.some.injEq, noMinus, noPlus, or_self,
        if_false]
      rw [← cons_append, taken, if_pos dropped]
  cases sign with
  | none => simpa using unsigned front
  | some ch =>
    have signed (minus : ch = '-' ∨ ch = '+') : readNumeral base (replicate front ' ' ++
        (ch :: (body ++ replicate back ' '))) =
        (readDigits base body).map fun n : Nat => if ch = '-' then -(n : Int) else n := by
      have noBlank : ch ≠ ' ' := by rintro rfl; simp at minus
      rw [readNumeral, blanks, List.dropWhile_cons_of_neg (by simpa using noBlank)]
      simp only [head?_cons, Option.some.injEq, minus, if_true, List.tail_cons]
      rw [taken, if_pos dropped]
    obtain rfl | rfl | rfl := isSign ch rfl
    · simpa using signed (.inl rfl)
    · simpa using signed (.inr rfl)
    · simpa [List.replicate_succ'] using unsigned (front + 1)

theorem signOf_cases (num : BitVec 32) (type : NumberType) {ch : Char}
    (isSign : signOf num type = some ch) : ch = '-' ∨ ch = '+' ∨ ch = ' ' := by
  unfold signOf at isSign
  split_ifs at isSign <;> cases isSign <;> simp

theorem magnitude_spec (num : BitVec 32) (type : NumberType) :
    (magnitude num type).toNat = (valueOf num type.sign).natAbs ∧
      (signOf num type = some '-' ↔ valueOf num type.sign < 0) := by
  cases sign : type.sign
  · simp [magnitude, signOf, valueOf, sign]
  · have isNeg : num.slt 0 = true ↔ num.toInt < 0 := by
      simp [BitVec.slt]
    have value := BitVec.toInt_eq_toNat_cond num
    by_cases negative : num.toInt < 0
    · simp only [magnitude, signOf, valueOf, sign, isNeg, negative]
      split at value <;> simp <;> omega
    · simp only [magnitude, signOf, valueOf, isNeg]
      split at value <;> split_ifs <;> simp <;> omega

theorem ofDigits_octal_iff (n : Nat) :
    (∀ d ∈ Nat.digits 16 n, d < 8) ∧ Nat.ofDigits 8 (Nat.digits 16 n) = n ↔ n < 8 := by
  refine ⟨fun ⟨octal, same⟩ => ?_, fun small => ?_⟩
  · by_contra large
    rw [Nat.digits_def' (by decide) (by omega)] at octal same
    have low := octal _ mem_cons_self
    have rest := Nat.ofDigits_monotone (Nat.digits 16 (n / 16)) (show 8 ≤ 16 by decide)
    rw [Nat.ofDigits_digits] at rest
    rw [Nat.ofDigits_cons] at same
    omega
  · rcases Nat.eq_zero_or_pos n with rfl | pos
    · simp
    · rw [Nat.digits_of_lt 16 n pos.ne' (by omega)]
      simpa using small

theorem readDigits_tmp (isBase : base = 8 ∨ base = 10 ∨ base = 16)
    (num : BitVec 32) (large : Bool) :
    readDigits base (tmpOf num base large).reverse = some num.toNat ↔
      (base = 8 → num.toNat < 8) := by
  by_cases zero : num = 0
  · have pos : 0 < base := by omega
    have isZero : digitValue '0' = some 0 := by decide
    simp [tmpOf, zero, readDigits, isZero, pos]
  · rw [tmpOf, if_neg zero, tmpDigits_eq]
    rw [show ((if large then largeDigits else smallDigits).getD · '0') = digitChar large from rfl,
      readDigits_reverse base large fun d mem =>
        (Nat.digits_lt_base (by split <;> decide) mem).trans_le
        (by split <;> decide), Option.ite_none_right_eq_some, Option.some.injEq]
    obtain rfl | rfl | rfl := isBase
    · simpa using ofDigits_octal_iff num.toNat
    · simpa [Nat.ofDigits_digits] using fun d mem => Nat.digits_lt_base (by decide) mem
    · simpa [Nat.ofDigits_digits] using fun d mem => Nat.digits_lt_base (by decide) mem

theorem convert_integer {flags : Flags} {letter : Char} {type : NumberType}
    (integer : integerType flags letter = some (base, type)) {Out : Type} (put : Out → Char → Out)
    (strings : BitVec 32 → List Char) (out : Out) {d : Directive} (isFlags : d.flags = flags)
    (arg : BitVec 32) : convert put strings out d (some letter) arg =
      printNumber put out (argument d.qualifier type.sign arg) base d.fieldWidth d.precision
        type := by
  unfold integerType at integer
  subst isFlags
  split at integer <;> cases integer <;> rfl

theorem tmpOf_plain (num : BitVec 32) (base : Nat) (large : Bool) {ch : Char}
    (mem : ch ∈ tmpOf num base large) : ch ≠ ' ' ∧ ch ≠ '-' ∧ ch ≠ '+' := by
  unfold tmpOf at mem
  split at mem
  · rw [List.mem_singleton.mp mem]
    decide
  · obtain ⟨d, isDigit, rfl⟩ := List.mem_map.mp mem
    rw [tmpDigits_eq] at isDigit
    exact digitChar_plain ((Nat.digits_lt_base (by split <;> decide) isDigit).trans_le
      (by split <;> decide))

theorem integerType_base {flags : Flags} {letter : Char} {type : NumberType}
    (integer : integerType flags letter = some (base, type)) :
    (base = 8 ∧ type.sign = false) ∨ base = 10 ∨ base = 16 := by
  unfold integerType at integer
  split at integer <;> cases integer <;> simp

/-- A conversion prints its argument just when it is not octal from 8 on, and has no
precision 0 for a number other than 0. -/
theorem reads_back_iff (strings : BitVec 32 → List Char) {fmt : List Char} {args : Args}
    {letter : Char} {base : Nat} {type : NumberType} (single : (parse fmt args).fmt = [letter])
    (integer : integerType (parse fmt args).directive.flags letter = some (base, type)) :
    let value := valueOf (argument (parse fmt args).directive.qualifier type.sign
      (parse fmt args).args.head) type.sign
    readNumeral base (output strings ('%' :: fmt) args) = some value ↔
      (base = 8 → value < 8) ∧ ((parse fmt args).directive.precision = 0 → value = 0) := by
  generalize isNum : argument (parse fmt args).directive.qualifier type.sign
    (parse fmt args).args.head = num
  have isBase := integerType_base integer
  have emitted : output strings ('%' :: fmt) args = printNumber (fun text ch => text ++ [ch]) []
      num base (parse fmt args).directive.fieldWidth (parse fmt args).directive.precision type := by
    rw [output, format, if_neg (by simp)]
    simp only [single, head?_cons, List.tail_cons, convert_integer integer _ _ _ rfl, isNum]
    rw [format]
  obtain ⟨front, zeros, back, shape⟩ := printNumber_shape num base
    (parse fmt args).directive.fieldWidth (parse fmt args).directive.precision type
  generalize (parse fmt args).directive.precision = precision at *
  let digits := if precision = 0 then [] else (tmpOf (magnitude num type) base type.large).reverse
  have plain : ∀ ch ∈ replicate zeros '0' ++ digits, ch ≠ ' ' ∧ ch ≠ '-' ∧ ch ≠ '+' := by
    intro ch mem
    rcases List.mem_append.mp mem with mem | mem
    · rw [List.eq_of_mem_replicate mem]
      decide
    · dsimp only [digits] at mem
      split at mem
      · cases mem
      · exact tmpOf_plain _ _ _ (List.mem_reverse.mp mem)
  have read := readNumeral_padded base front back (fun ch => signOf_cases num type) plain
  rw [← List.append_assoc (_ ++ _), readDigits_zeros (by omega)] at read
  obtain ⟨mag, minus⟩ := magnitude_spec num type
  have text (text : List Char) : text.foldl (fun text ch => text ++ [ch]) [] = text := by
    simp [← List.flatMap_def]
  have unsigned (octal : base = 8) : 0 ≤ valueOf num type.sign := by
    rcases isBase with ⟨-, noSign⟩ | ten | hex
    · simp [valueOf, noSign]
    · omega
    · omega
  dsimp only
  generalize valueOf num type.sign = value at *
  have signed (number : Option Nat) : (number.map fun n : Nat =>
      if signOf num type = some '-' then -(n : Int) else n) = some value ↔
      number = some value.natAbs := by
    simp only [minus]
    cases number with
    | none => simp
    | some n =>
      rw [Option.map_some, Option.some.injEq, Option.some.injEq]
      split <;> omega
  rw [emitted, shape, text, read, signed]
  by_cases isZero : precision = 0
  · have nothing : readDigits base digits = some 0 := by
      simp [digits, isZero, readDigits]
    rw [nothing, Option.some.injEq]
    omega
  · have tmp := @readDigits_tmp base (by omega) (magnitude num type) type.large
    rw [mag] at tmp
    rw [show digits = _ from if_neg isZero, tmp]
    omega

theorem reads_back_negative : (parse ['+', '5', 'd'] (Stream'.const (-42))).fmt = ['d'] ∧
      (readNumeral 10 (output (fun _ => []) ['%', '+', '5', 'd'] (Stream'.const (-42))) =
        some (-42) ↔ ((10 : Nat) = 8 → (-42 : Int) < 8) ∧ ((-1 : Int) = 0 → (-42 : Int) = 0)) :=
  ⟨rfl, @reads_back_iff (fun _ => []) ['+', '5', 'd'] (Stream'.const (-42)) 'd' 10
    { plus := true, sign := true } rfl rfl⟩

/-- `%o` prints 8 as it stands, which is no octal numeral. -/
theorem octal_eight :
    ¬ readNumeral 8 (output (fun _ => []) ['%', 'o'] (Stream'.const 8)) = some 8 := by
  have digits : tmpDigits 8 8 = [8] := by simp [tmpDigits_eq]
  have printed : output (fun _ => []) ['%', 'o'] (Stream'.const 8) = ['8'] := by
    rw [output, format, if_neg (by decide)]
    change format _ _ (printNumber _ [] 8 8 (-1) (-1) {}) [] _ = _
    rw [format]
    simp [printNumber, padding, signOf, magnitude, tmpOf, digits, smallDigits, fill]
  rw [printed]
  decide

end RtThread.Kservice
