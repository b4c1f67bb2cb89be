import Mathlib.Logic.Function.Iterate
import RtThread.Zmodem.Subpacket

/-!
# Reading what has been sent

The reader takes back every character that was sent with its escape, and the frame end between
the characters and their check sum.
-/

namespace RtThread.Zmodem

open PrefixCode

/-- A line without its flow control. -/
def content (line : List Byte) : List Byte := line.filter fun byte => !isFlow byte

theorem flow_cases {byte : Byte} (flow : isFlow byte = true) :
    byte = 0o23 ∨ byte = 0o223 ∨ byte = 0o21 ∨ byte = 0o221 := by
  simpa [isFlow, or_assoc] using flow

theorem zreadByte_flow {noise : List Byte} (flow : ∀ byte ∈ noise, isFlow byte = true)
    (line : List Byte) : zreadByte (noise ++ line) = zreadByte line ∧
      zreadEscaped 0 (noise ++ line) = zreadEscaped 0 line := by
  induction noise with
  | nil => exact ⟨rfl, rfl⟩
  | cons byte noise ih =>
    obtain ⟨plainly, escaped⟩ := ih fun other mem => flow other (List.mem_cons_of_mem _ mem)
    rw [← plainly, ← escaped]
    obtain rfl | rfl | rfl | rfl := flow_cases (flow byte List.mem_cons_self) <;>
      exact ⟨rfl, rfl⟩

theorem content_eq_cons {line rest : List Byte} {byte : Byte}
    (shown : content line = byte :: rest) : ∃ noise later, line = noise ++ byte :: later ∧
      (∀ byte ∈ noise, isFlow byte = true) ∧ content later = rest := by
  obtain ⟨noise, later, rfl, flow, -, shown⟩ := List.filter_eq_cons_iff.mp shown
  exact ⟨noise, later, rfl, by simpa using flow, shown⟩

/-- Bytes without flow control that are read as `res`. -/
structure ReadsAs (sent : List Byte) (res : Short) : Prop where
  short : (∃ byte, sent = [byte]) ∨ ∃ byte, sent = [zdle, byte]
  noFlow : ∀ byte ∈ sent, isFlow byte = false
  inverse : ∀ rest, zreadByte (sent ++ rest) = some (res, rest)

theorem ReadsAs.shown {sent line rest : List Byte} {res : Short} (reads : ReadsAs sent res)
    (shown : content line = sent ++ rest) :
    ∃ later, zreadByte line = some (res, later) ∧ content later = rest := by
  obtain ⟨⟨byte, rfl⟩ | ⟨byte, rfl⟩, -, inverse⟩ := reads
  · obtain ⟨noise, later, rfl, flow, isRest⟩ := content_eq_cons shown
    exact ⟨later, (zreadByte_flow flow _).1.trans (inverse later), isRest⟩
  · obtain ⟨noise, escaped, rfl, flow, shown⟩ := content_eq_cons shown
    obtain ⟨noise', later, rfl, flow', isRest⟩ := content_eq_cons shown
    have reading : zreadByte (zdle :: (noise' ++ byte :: later)) =
        zreadByte (zdle :: byte :: later) := (zreadByte_flow flow' _).2
    exact ⟨later, (zreadByte_flow flow _).1.trans (reading.trans (inverse later)), isRest⟩

theorem zreadByte_zsendZdleChar (ch : Byte) (rest : List Byte) :
    zreadByte (zsendZdleChar ch ++ rest) = some (ch.setWidth 16, rest) := by
  unfold zsendZdleChar
  by_cases isRubout : ch = 0o377
  · subst isRubout
    rfl
  by_cases isZdle : ch = zdle
  · subst isZdle
    rfl
  by_cases flow : isFlow ch = true
  · rw [if_neg isRubout, if_neg isZdle, if_pos flow]
    simp only [isFlow, Bool.or_eq_true, decide_eq_true_eq] at flow
    obtain ((rfl | rfl) | rfl) | rfl := flow <;> rfl
  · rw [if_neg isRubout, if_neg isZdle, if_neg flow, List.singleton_append, zreadByte]
    by_cases printing : ch &&& 0o140 ≠ 0
    · rw [if_pos printing]
    · rw [if_neg printing, if_neg isZdle, if_neg flow]

theorem readsAs_char (ch : Byte) : ReadsAs (zsendZdleChar ch) (ch.setWidth 16) := by
  have inverse := zreadByte_zsendZdleChar ch
  unfold zsendZdleChar at inverse ⊢
  split_ifs at inverse ⊢ with isRubout isZdle flow
  · exact ⟨.inl ⟨ch, rfl⟩, by simp [isRubout, isFlow], inverse⟩
  · exact ⟨.inr ⟨_, rfl⟩, by rw [isZdle]; decide, inverse⟩
  · refine ⟨.inr ⟨_, rfl⟩, ?_, inverse⟩
    obtain rfl | rfl | rfl | rfl := flow_cases flow <;> decide
  · exact ⟨.inl ⟨ch, rfl⟩, by simpa using flow, inverse⟩

variable {frameend : Byte}

def wire (res : Short) : List Byte :=
  if isSpecial res then [zdle, res.setWidth 8] else zsendZdleChar (res.setWidth 8)

def frame (chars : List Byte) (frameend : Byte) (crc : List Byte) : List Short :=
  chars.map (·.setWidth 16) ++ (frameend.setWidth 16 ||| gotor) :: crc.map (·.setWidth 16)

theorem isSpecial_char (ch : Byte) : isSpecial (ch.setWidth 16) = false := by
  have low : ch.setWidth 16 &&& ~~~ (0o377 : Short) = 0 := by
    refine BitVec.eq_of_getLsbD_eq fun p _ => ?_
    have mask : (~~~ (0o377 : Short)) = BitVec.ofNat 16 0xff00 := by decide
    rw [mask, BitVec.getLsbD_and, BitVec.getLsbD_setWidth]
    rcases Nat.lt_or_ge p 8 with inside | outside
    · have masked : ∀ low < 8, (BitVec.ofNat 16 0xff00).getLsbD low = false := by decide
      rw [masked p inside]
      simp
    · rw [BitVec.getLsbD_of_ge ch p outside]
      simp
  unfold isSpecial
  rw [low]
  rfl

theorem setWidth_char (ch : Byte) : (ch.setWidth 16).setWidth 8 = ch := by
  rw [BitVec.setWidth_setWidth_of_le ch (by decide), BitVec.setWidth_eq]

theorem wire_char (ch : Byte) : wire (ch.setWidth 16) = zsendZdleChar ch := by
  rw [wire, isSpecial_char, setWidth_char]
  rfl

theorem wire_ne_nil (res : Short) : wire res ≠ [] := by
  unfold wire zsendZdleChar
  split_ifs <;> simp

theorem flatMap_wire (chars : List Byte) :
    (chars.map (·.setWidth 16)).flatMap wire = chars.flatMap zsendZdleChar := by
  rw [List.flatMap_map]
  exact congrArg (chars.flatMap ·) (funext wire_char)

section

variable (isEnd : isFrameend frameend = true)

include isEnd

theorem zreadByte_frameend (rest : List Byte) :
    zreadByte (zdle :: frameend :: rest) = some (frameend.setWidth 16 ||| gotor, rest) := by
  simp only [isFrameend, Bool.or_eq_true, decide_eq_true_eq] at isEnd
  obtain ((rfl | rfl) | rfl) | rfl := isEnd <;> rfl

theorem frameend_cases :
    frameend = zcrce ∨ frameend = zcrcg ∨ frameend = zcrcq ∨ frameend = zcrcw := by
  simpa [isFrameend, or_assoc] using isEnd

theorem wire_frameend : wire (frameend.setWidth 16 ||| gotor) = [zdle, frameend] := by
  obtain rfl | rfl | rfl | rfl := frameend_cases isEnd <;> rfl

theorem readsAs_frame {chars crc : List Byte} {res : Short}
    (isRes : res ∈ frame chars frameend crc) : ReadsAs (wire res) res := by
  simp only [frame, List.mem_append, List.mem_cons, List.mem_map] at isRes
  obtain ⟨ch, -, rfl⟩ | rfl | ⟨ch, -, rfl⟩ := isRes
  · rw [wire_char]
    exact readsAs_char ch
  · rw [wire_frameend isEnd]
    refine ⟨.inr ⟨frameend, rfl⟩, ?_, zreadByte_frameend isEnd⟩
    obtain rfl | rfl | rfl | rfl := frameend_cases isEnd <;> decide
  · rw [wire_char]
    exact readsAs_char ch

/-- A line is read as the results that its bytes show behind their flow control. -/
theorem zreadBytes_shown {chars crc line : List Byte}
    (shown : content line = (frame chars frameend crc).flatMap wire) :
    zreadBytes line = frame chars frameend crc := by
  have long : (frame chars frameend crc).length ≤ line.length := by
    refine Nat.le_trans (length_le_flatMap _ wire_ne_nil) ?_
    rw [← shown]
    exact List.length_filter_le _ line
  obtain ⟨reads, isLength⟩ := Nat.exists_eq_add_of_le long
  obtain ⟨later, isRest, read⟩ := readMany_shown (fun _ isRes _ _ =>
    (readsAs_frame isEnd isRes).shown) reads (shown.trans (List.append_nil _).symm)
  have done : readMany zreadByte reads later = [] := by
    have flow : ∀ byte ∈ later, isFlow byte = true := by
      simpa using List.filter_eq_nil_iff.mp isRest
    have nothing : zreadByte later = none := by
      rw [← List.append_nil later, (zreadByte_flow flow []).1]
      rfl
    cases reads with
    | zero => rfl
    | succ reads => rw [readMany, nothing]
  rw [zreadBytes, isLength, read, done, List.append_nil]

end

def charsOf (mode : CrcMode) (behind : Byte) (buf : List Byte) : List Byte :=
  match mode with
  | .crc16 => buf
  | .crc32 => buf
  | .crc32Rle => rleChars (buf.tail ++ [behind]) 0 (buf.headD behind)

def senderCrc16 (chars : List Byte) (frameend : Byte) : BitVec 32 :=
  updcrc16 (frameend.setWidth 32)
    (chars.foldl (fun crc char => updcrc16 (char.setWidth 32) crc) 0)

def senderCrc32 (chars : List Byte) (frameend : Byte) : BitVec 32 :=
  updcrc32 (frameend.setWidth 32)
    (chars.foldl (fun crc char => updcrc32 (char.setWidth 32) crc) 0xffffffff)

def crcOf (mode : CrcMode) (chars : List Byte) (frameend : Byte) : List Byte :=
  match mode with
  | .crc16 =>
    let crc := updcrc16 0 (updcrc16 0 (senderCrc16 chars frameend))
    [(crc >>> 8).setWidth 8, crc.setWidth 8]
  | .crc32 | .crc32Rle => crcChars 4 (~~~ senderCrc32 chars frameend)

section

variable (isEnd : isFrameend frameend = true)

include isEnd

theorem zsendBinData_wire (mode : CrcMode) (behind : Byte) (buf : List Byte) :
    zsendBinData mode behind buf frameend = (frame (charsOf mode behind buf) frameend
      (crcOf mode (charsOf mode behind buf) frameend)).flatMap wire ++
        if frameend = zcrcw then [xon] else [] := by
  rw [frame, List.flatMap_append, List.flatMap_cons, flatMap_wire, flatMap_wire,
    wire_frameend isEnd]
  unfold zsendBinData
  split_ifs
  · cases mode <;> simp [zsendCrc16, zsendCrc32, charsOf, crcOf, senderCrc16, senderCrc32]
  · cases mode <;> simp [zsendCrc16, zsendCrc32, charsOf, crcOf, senderCrc16, senderCrc32]

theorem content_zsendBinData (mode : CrcMode) (behind : Byte) (buf : List Byte) :
    content (zsendBinData mode behind buf frameend) = (frame (charsOf mode behind buf) frameend
      (crcOf mode (charsOf mode behind buf) frameend)).flatMap wire := by
  rw [zsendBinData_wire isEnd, content, List.filter_append, List.filter_eq_self.mpr ?_]
  · split_ifs
    · exact List.append_nil _
    · exact List.append_nil _
  · intro byte sent
    obtain ⟨res, isRes, mem⟩ := List.mem_flatMap.mp sent
    rw [(readsAs_frame isEnd isRes).noFlow byte mem]
    rfl

theorem zreadBytes_zsendBinData (mode : CrcMode) (behind : Byte) (buf : List Byte) :
    zreadBytes (zsendBinData mode behind buf frameend) = frame (charsOf mode behind buf) frameend
        (crcOf mode (charsOf mode behind buf) frameend) :=
  zreadBytes_shown isEnd (content_zsendBinData isEnd mode behind buf)

end

theorem index_setWidth (crc : BitVec 32) :
    ((crc >>> 8) &&& 255).toNat = (((crc.setWidth 16) >>> 8) &&& 255).toNat := by
  have low : ∀ n : Nat, n &&& 255 = n % 256 := fun n => Nat.and_two_pow_sub_one_eq_mod n 8
  rw [BitVec.toNat_and, BitVec.toNat_and, BitVec.toNat_ushiftRight, BitVec.toNat_ushiftRight,
    BitVec.toNat_setWidth]
  simp only [BitVec.reduceToNat, low]
  omega

theorem setWidth_updcrc16 (cp crc : BitVec 32) :
    (updcrc16 cp crc).setWidth 16 = updcrc16 (cp.setWidth 16) (crc.setWidth 16) := by
  unfold updcrc16
  rw [index_setWidth]
  ext p inside
  have wide : p < 32 := by omega
  simp

def receiverCrc {width : Nat} (check : Check width) (chars : List Byte) : BitVec width :=
  chars.foldl (fun crc char => check.update (char.setWidth 16) crc) check.init

theorem setWidth_foldl (chars : List Byte) (crc : BitVec 32) :
    (chars.foldl (fun crc char => updcrc16 (char.setWidth 32) crc) crc).setWidth 16 =
      chars.foldl (fun crc char => check16.update (char.setWidth 16) crc) (crc.setWidth 16) := by
  induction chars generalizing crc with
  | nil => rfl
  | cons char chars ih =>
    rw [List.foldl_cons, List.foldl_cons, ih, setWidth_updcrc16,
      BitVec.setWidth_setWidth_of_le char (by decide)]
    rfl

theorem xor_zero {width : Nat} (v : BitVec width) : v ^^^ 0 = v := BitVec.xor_zero

theorem residue16 (crc : BitVec 16) : let sent := updcrc16 0 (updcrc16 0 crc)
    updcrc16 ((sent.setWidth 8).setWidth 16)
      (updcrc16 (((sent >>> 8).setWidth 8).setWidth 16) crc) = 0 := by
  intro sent
  have shifted : updcrc16 (((sent >>> 8).setWidth 8).setWidth 16) crc =
      updcrc16 0 crc ^^^ ((sent >>> 8).setWidth 8).setWidth 16 := by
    unfold updcrc16
    rw [xor_zero]
  have index : (updcrc16 0 crc ^^^ ((sent >>> 8).setWidth 8).setWidth 16) >>> 8 =
      updcrc16 0 crc >>> 8 := by
    grind
  have own : sent = (crctab.getD ((updcrc16 0 crc >>> 8) &&& 255).toNat 0).setWidth 16 ^^^
      updcrc16 0 crc <<< 8 := by
    change updcrc16 0 (updcrc16 0 crc) = _
    rw [updcrc16, xor_zero]
  have split : ((sent >>> 8).setWidth 8).setWidth 16 <<< 8 ^^^ (sent.setWidth 8).setWidth 16 =
      sent := by
    ext p inside
    grind
  rw [shifted, updcrc16, index, BitVec.shiftLeft_xor_distrib, ← BitVec.xor_assoc, ← own,
    BitVec.xor_assoc, split, BitVec.xor_self]
  rfl

theorem and_byte (v : BitVec 32) (p : Nat) :
    (v &&& 0xff).getLsbD p = (v.getLsbD p && decide (p < 8)) := by
  have mask : (0xff : BitVec 32).getLsbD p = decide (p < 8) := by
    change (BitVec.ofNat 32 (2 ^ 8 - 1)).getLsbD p = _
    rw [BitVec.getLsbD_ofNat, Nat.testBit_two_pow_sub_one]
    by_cases low : p < 8
    · simp
      omega
    · simp [low]
  rw [BitVec.getLsbD_and, mask]

theorem shift_and (v : BitVec 32) : (v >>> 8) &&& (0x00ffffff : BitVec 32) = v >>> 8 := by
  refine BitVec.eq_of_toNat_eq ?_
  rw [BitVec.toNat_and, BitVec.toNat_ushiftRight, Nat.shiftRight_eq_div_pow]
  refine (Nat.and_two_pow_sub_one_eq_mod (v.toNat / 2 ^ 8) 24).trans ?_
  exact Nat.mod_eq_of_lt (by omega)

theorem updcrc32_complement {part sent : BitVec 32} (rest : BitVec 32)
    (complement : ∀ p < 8, sent.getLsbD p = !part.getLsbD p) :
    updcrc32 ((sent.setWidth 8).setWidth 32) (rest ^^^ part) =
      updcrc32 0xff rest ^^^ (part >>> 8) := by
  have index : ((rest ^^^ part) ^^^ (sent.setWidth 8).setWidth 32) &&& 0xff =
      (rest ^^^ 0xff) &&& 0xff := by
    refine BitVec.eq_of_getLsbD_eq fun p inside => ?_
    have mask : (0xff : BitVec 32).getLsbD p = decide (p < 8) := by
      have own := and_byte 0xff p
      rw [BitVec.and_self] at own
      rw [own]
      by_cases low : p < 8
      · have ones : ∀ low < 8, (0xff : BitVec 32).getLsbD low = true := by decide
        rw [ones p low, Bool.true_and]
      · rw [decide_eq_false low, Bool.and_false]
    rw [and_byte, and_byte, BitVec.getLsbD_xor, BitVec.getLsbD_xor, BitVec.getLsbD_xor, mask,
      BitVec.getLsbD_setWidth, BitVec.getLsbD_setWidth]
    by_cases low : p < 8
    · rw [complement p low]
      simp [low, inside]
    · simp [low]
  unfold updcrc32
  rw [index, shift_and, shift_and, BitVec.ushiftRight_xor_distrib, BitVec.xor_assoc]

def residue32 : BitVec 32 := updcrc32 0xff (updcrc32 0xff (updcrc32 0xff (updcrc32 0xff 0)))

theorem residue32_eq : residue32 = 0xdebb20e3 := by decide +kernel

theorem foldl_crcChars (n : Nat) (rest part sent : BitVec 32)
    (complement : ∀ p < 8 * n, sent.getLsbD p = !part.getLsbD p) :
    (crcChars n sent).foldl (fun crc char => updcrc32 (char.setWidth 32) crc) (rest ^^^ part) =
      (updcrc32 0xff)^[n] rest ^^^ (part >>> (8 * n)) := by
  induction n generalizing rest part sent with
  | zero => simp [crcChars]
  | succ n ih =>
    have low : ∀ p < 8, sent.getLsbD p = !part.getLsbD p := fun p inside => complement p (by omega)
    have high : ∀ p < 8 * n, (sent >>> 8).getLsbD p = !(part >>> 8).getLsbD p := by
      intro p inside
      rw [BitVec.getLsbD_ushiftRight, BitVec.getLsbD_ushiftRight]
      exact complement (8 + p) (by omega)
    have shifts : 8 * (n + 1) = 8 + 8 * n := by omega
    rw [crcChars, List.foldl_cons, updcrc32_complement rest low,
      ih _ _ _ high, Function.iterate_succ_apply, shifts, BitVec.shiftRight_add]

theorem residue32_of_sent (crc : BitVec 32) :
    (crcChars 4 (~~~ crc)).foldl (fun crc char => updcrc32 (char.setWidth 32) crc) crc =
      residue32 := by
  have complement : ∀ p < 8 * 4, (~~~ crc).getLsbD p = !crc.getLsbD p := by
    intro p inside
    simp [inside]
  have shifted := foldl_crcChars 4 0 crc (~~~ crc) complement
  have zero : (0 : BitVec 32) ^^^ crc = crc := BitVec.zero_xor
  have gone : crc >>> (8 * 4) = 0 := by
    refine BitVec.eq_of_toNat_eq ?_
    rw [BitVec.toNat_ushiftRight, Nat.shiftRight_eq_div_pow]
    exact Nat.div_eq_of_lt crc.isLt
  rw [zero, gone, xor_zero] at shifted
  exact shifted

end RtThread.Zmodem
