import RtThread.Zmodem.SubpacketCrc

/-!
# The round trip of a subpacket

With a check sum of 16 bits a subpacket is received as it was sent.
-/

namespace RtThread.Zmodem

variable {frameend : Byte}

theorem frameend_result (isEnd : isFrameend frameend = true) :
    isSpecial (frameend.setWidth 16 ||| gotor) = true ∧
      isGotcrc (frameend.setWidth 16 ||| gotor) = true ∧
      (frameend.setWidth 16 ||| gotor) &&& 0o377 = frameend.setWidth 16 ∧
      frameend.setWidth 16 ||| gotor ≠ -rtError := by
  obtain rfl | rfl | rfl | rfl := frameend_cases isEnd <;> decide

section

variable {width : Nat} {check : Check width} {last : Int} {stores : List Byte}
  {crc : BitVec width} {results : List Short}

theorem zrecData_char (char : Byte) (count : Nat) (room : stores.length ≤ last) :
    zrecData check last (char.setWidth 16 :: results) stores crc none count =
      zrecData check last results (stores ++ [char]) (check.update (char.setWidth 16) crc) none
        count := by
  rw [zrecData, if_neg (by omega)]
  simp only [isSpecial_char, Bool.false_eq_true, if_false, setWidth_char]

theorem zrecData_chars (chars : List Byte) (room : stores.length + chars.length ≤ last + 1) :
    zrecData check last (chars.map (·.setWidth 16) ++ results) stores crc none 0 =
      zrecData check last results (stores ++ chars)
        (chars.foldl (fun crc char => check.update (char.setWidth 16) crc) crc) none 0 := by
  induction chars generalizing stores crc with
  | nil => simp
  | cons char chars ih =>
    rw [List.length_cons] at room
    rw [List.map_cons, List.cons_append, zrecData_char char 0 (by omega),
      ih (by rw [List.length_append, List.length_singleton]; omega),
      List.append_assoc, List.singleton_append, List.foldl_cons]

theorem zrecData_frameend (isEnd : isFrameend frameend = true) (room : stores.length ≤ last) :
    zrecData check last ((frameend.setWidth 16 ||| gotor) :: results) stores crc none 0 =
      zrecData check last results stores (check.update (frameend.setWidth 16) crc)
        (some (frameend.setWidth 16 ||| gotor)) 0 := by
  obtain ⟨special, gotcrc, low, -⟩ := frameend_result isEnd
  rw [zrecData, if_neg (by omega)]
  simp only [special, gotcrc, if_true, low]

theorem zrecData_crc (chars : List Byte) {c : Short} {n : Nat} (room : stores.length ≤ last)
    (nonempty : chars ≠ []) (all : n + chars.length = check.bytes) :
    zrecData check last (chars.map (·.setWidth 16)) stores crc (some c) n = if check.isWrong
          (chars.foldl (fun crc char => check.update (char.setWidth 16) crc) crc) then
        ⟨some (-rtError), stores⟩ else ⟨some c, stores⟩ := by
  induction chars generalizing crc n with
  | nil => exact absurd rfl nonempty
  | cons char chars ih =>
    rw [List.length_cons] at all
    rw [List.map_cons, zrecData, if_neg (by omega), List.foldl_cons]
    simp only [isSpecial_char, Bool.false_eq_true, if_false]
    cases chars with
    | nil =>
      have isLast : ¬ n + 1 < check.bytes := by
        rw [List.length_nil] at all
        omega
      rw [if_neg isLast, List.foldl_nil]
    | cons next chars =>
      have more : n + 1 < check.bytes := by
        rw [List.length_cons] at all
        omega
      rw [if_pos more]
      exact ih (List.cons_ne_nil next chars) (by omega)

theorem zrecData_full (flag : Option Short) (n : Nat) (full : last < stores.length) :
    (zrecData check last results stores crc flag n).result = some (-rtError) := by
  unfold zrecData
  rw [if_pos full]

end

theorem residue16_of_sent (chars : List Byte) (frameend : Byte) :
    (crcOf .crc16 chars frameend).foldl (fun crc char => check16.update (char.setWidth 16) crc)
      ((senderCrc16 chars frameend).setWidth 16) = 0 := by
  have sent : ∀ crc : BitVec 32, (updcrc16 0 (updcrc16 0 crc)).setWidth 16 =
      updcrc16 0 (updcrc16 0 (crc.setWidth 16)) := by
    intro crc
    rw [setWidth_updcrc16, setWidth_updcrc16]
    rfl
  have high : ∀ crc : BitVec 32, (crc >>> 8).setWidth 8 = ((crc.setWidth 16) >>> 8).setWidth 8 := by
    intro crc
    ext p inside
    have narrow : 8 + p < 16 := by omega
    simp [narrow]
  have low : ∀ crc : BitVec 32, crc.setWidth 8 = (crc.setWidth 16).setWidth 8 := fun crc =>
    (BitVec.setWidth_setWidth_of_le crc (by decide)).symm
  simp only [crcOf]
  rw [high, low, sent]
  exact residue16 _

theorem roundTrip_crc16 (transfer : Transfer) (behind : Byte) (p : Int) (c : Short) :
    transfer.RoundTrip .crc16 behind p c := by
  obtain ⟨payload, len, frameend, pos, short, fits, isEnd⟩ := transfer
  have room : payload.length ≤ (len.toNat : Int) := by exact_mod_cast fits
  have register : (senderCrc16 payload frameend).setWidth 16 =
      check16.update (frameend.setWidth 16) (receiverCrc check16 payload) := by
    unfold senderCrc16
    rw [setWidth_updcrc16, setWidth_foldl, BitVec.setWidth_setWidth_of_le frameend (by decide)]
    rfl
  have right : check16.isWrong 0 = false := by decide
  have received : zgetData .crc16 p c len (zsendBinData .crc16 behind payload frameend) =
      ⟨some (frameend.setWidth 16 ||| gotor), payload⟩ := by
    unfold zgetData zrecData16
    simp only [zreadBytes_zsendBinData isEnd .crc16 behind payload, charsOf, frame]
    have nonempty : crcOf .crc16 payload frameend ≠ [] := List.cons_ne_nil _ _
    rw [zrecData_chars payload (by simp; omega), List.nil_append, zrecData_frameend isEnd room,
      zrecData_crc _ room nonempty rfl, ← receiverCrc, ← register, residue16_of_sent, right]
    rfl
  refine ⟨?_, ?_, ?_⟩
  · rw [received]
  · rw [received, Received.rxcount, BitVec.toNat_ofNat, Nat.mod_eq_of_lt]
    exact Nat.lt_trans short (by decide)
  · rw [received]

theorem check32_update (char : Byte) (crc : BitVec 32) :
    check32.update (char.setWidth 16) crc = updcrc32 (char.setWidth 32) crc := by
  change updcrc32 ((char.setWidth 16).setWidth 32) crc = _
  rw [BitVec.setWidth_setWidth (by decide)]

theorem update_residue (crc : BitVec 32) :
    (crcChars 4 (~~~ crc)).foldl (fun crc char => check32.update (char.setWidth 16) crc) crc =
      0xdebb20e3 := by
  simp only [check32_update]
  rw [residue32_of_sent, residue32_eq]

theorem zrecData_rejects (last : Int) (chars : List Byte)
    (isEnd : isFrameend frameend = true) (stores : List Byte) (crc : BitVec 32) :
    (zrecData check32 last (frame chars frameend (crcChars 4 (~~~ check32.update
        (frameend.setWidth 16)
        (chars.foldl (fun crc char => check32.update (char.setWidth 16) crc) crc)))) stores crc
      none 0).result = some (-rtError) := by
  induction chars generalizing stores crc with
  | nil =>
    rcases Int.lt_or_le last stores.length with full | room
    · exact zrecData_full none 0 full
    · have wrong : check32.isWrong 0xdebb20e3 = true := by decide
      have nonempty : ∀ crc : BitVec 32, crcChars 4 crc ≠ [] := fun _ => List.cons_ne_nil _ _
      rw [frame, List.map_nil, List.nil_append, zrecData_frameend isEnd room,
        zrecData_crc _ room (nonempty _) rfl, List.foldl_nil, update_residue, wrong]
      rfl
  | cons char chars ih =>
    rcases Int.lt_or_le last stores.length with full | room
    · exact zrecData_full none 0 full
    · rw [frame, List.map_cons, List.cons_append, zrecData_char char 0 room]
      exact ih _ _

theorem zrecRle_flag (last : Int) (results : List Short) (stores : List Byte) (crc : BitVec 32)
    (c : Short) (n : Nat) : zrecRle last results stores crc c true n =
      zrecData check32 last results stores crc (some c) n := by
  induction results generalizing crc c n with
  | nil =>
    rw [zrecRle, zrecData]
  | cons res results ih =>
    rw [zrecRle, zrecData]
    simp only [ih, if_true]

theorem zrecRle_frameend {last : Int} (isEnd : isFrameend frameend = true)
    (results : List Short) (stores : List Byte) (crc : BitVec 32) (c : Short) :
    zrecRle last ((frameend.setWidth 16 ||| gotor) :: results) stores crc c false 0 =
      zrecData check32 last ((frameend.setWidth 16 ||| gotor) :: results) stores crc none 0 := by
  obtain ⟨special, gotcrc, -, -⟩ := frameend_result isEnd
  rw [zrecRle, zrecData]
  simp only [special, if_true, zrecRle_flag]

theorem zrecRle_rejects {last : Int} (chars : List Byte)
    (isEnd : isFrameend frameend = true) (stores : List Byte) (crc : BitVec 32) (c : Short) :
    (zrecRle last (frame chars frameend (crcChars 4 (~~~ check32.update (frameend.setWidth 16)
        (chars.foldl (fun crc char => check32.update (char.setWidth 16) crc) crc)))) stores crc
      c false 0).result = some (-rtError) := by
  induction chars generalizing stores crc c with
  | nil =>
    have rejected := zrecData_rejects last [] isEnd stores crc
    rw [frame, List.map_nil, List.nil_append] at rejected ⊢
    rwa [zrecRle_frameend isEnd]
  | cons char chars ih =>
    rw [frame, List.map_cons, List.cons_append, zrecRle]
    simp only [isSpecial_char, Bool.false_eq_true, if_false]
    split_ifs
    all_goals first | rfl | exact ih _ _ _

theorem result_crc32 (transfer : Transfer) {mode : CrcMode} (long : mode ≠ .crc16)
    (behind : Byte) (p : Int) (c : Short) : (zgetData mode p c transfer.len
      (zsendBinData mode behind transfer.payload transfer.frameend)).result = some (-rtError) := by
  cases mode with
  | crc16 => exact absurd rfl long
  | crc32 =>
    unfold zgetData zrecData32
    simp only [zreadBytes_zsendBinData transfer.isFrameend .crc32 behind transfer.payload]
    exact zrecData_rejects _ _ transfer.isFrameend _ _
  | crc32Rle =>
    unfold zgetData zrecData32r
    simp only [zreadBytes_zsendBinData transfer.isFrameend .crc32Rle behind transfer.payload]
    exact zrecRle_rejects _ transfer.isFrameend _ _ c

theorem roundTrip_iff (transfer : Transfer) (mode : CrcMode) (behind : Byte) (p : Int)
    (c : Short) : transfer.RoundTrip mode behind p c ↔ mode = .crc16 := by
  constructor
  · intro received
    by_contra long
    have rejected := result_crc32 transfer long behind p c
    rw [received.1] at rejected
    exact (frameend_result transfer.isFrameend).2.2.2 (Option.some.inj rejected)
  · rintro rfl
    exact roundTrip_crc16 transfer behind p c

theorem plain_special {res : Short} (special : isSpecial res = true) (results : List Short) :
    plain (res :: results) = [] := by
  simp [plain, special]

theorem plain_char {res : Short} (char : isSpecial res = false) (results : List Short) :
    plain (res :: results) = res :: plain results := by
  simp [plain, char]

section

variable {width : Nat} (check : Check width) (last : Int)

theorem zrecData_stores_flag (results : List Short) (stores : List Byte) (crc : BitVec width)
    (c : Short) (n : Nat) :
    (zrecData check last results stores crc (some c) n).stores = stores := by
  induction results generalizing crc c n with
  | nil =>
    rw [zrecData]
    split_ifs <;> rfl
  | cons res results ih =>
    rw [zrecData]
    split_ifs
    all_goals first | rfl | exact ih _ _ _

theorem le_zrecData_stores (results : List Short) (stores : List Byte) (crc : BitVec width)
    (n : Nat) : stores.length ≤ (zrecData check last results stores crc none n).stores.length := by
  induction results generalizing stores crc n with
  | nil =>
    rw [zrecData]
    split_ifs <;> exact Nat.le_refl _
  | cons res results ih =>
    rw [zrecData]
    split_ifs
    · exact Nat.le_refl _
    · exact Nat.le_of_eq (by rw [zrecData_stores_flag])
    · exact Nat.le_refl _
    · have later := ih (stores ++ [res.setWidth 8]) (check.update res crc) n
      rw [List.length_append] at later
      omega

theorem zrecData_inBounds_iff (len : Nat) (results : List Short) (stores : List Byte)
    (crc : BitVec width) (n : Nat) (inside : stores.length ≤ len) :
    (zrecData check last results stores crc none n).stores.length ≤ len ↔
      stores.length + (plain results).length ≤ len ∨ last < len := by
  induction results generalizing stores crc n with
  | nil =>
    rw [zrecData]
    split_ifs <;> simp [plain, inside]
  | cons res results ih =>
    rw [zrecData]
    rcases Int.lt_or_le last stores.length with full | room
    · rw [if_pos full]
      exact ⟨fun _ => .inr (by omega), fun _ => inside⟩
    rw [if_neg (by omega)]
    cases special : isSpecial res with
    | true =>
      rw [plain_special special]
      simp only [if_true]
      split_ifs
      · rw [zrecData_stores_flag]
        simp [inside]
      · simp [inside]
    | false =>
      rw [plain_char special, List.length_cons]
      simp only [Bool.false_eq_true, if_false]
      have later := le_zrecData_stores check last results (stores ++ [res.setWidth 8])
        (check.update res crc) n
      rw [List.length_append, List.length_singleton] at later
      rcases Nat.lt_or_ge stores.length len with below | full
      · have room : (stores ++ [res.setWidth 8]).length ≤ len := by
          rw [List.length_append, List.length_singleton]
          exact below
        rw [ih _ _ _ room, List.length_append, List.length_singleton]
        omega
      · omega

end

theorem length_countdown (res : Short) : (countdown res).length = res.toNat := by
  simp [countdown]

theorem le_zrecRle_stores (last : Int) (results : List Short) (stores : List Byte)
    (crc : BitVec 32) (c : Short) (n : Nat) :
    stores.length ≤ (zrecRle last results stores crc c false n).stores.length := by
  induction results generalizing stores crc c n with
  | nil =>
    rw [zrecRle]
    split_ifs <;> exact Nat.le_refl _
  | cons res results ih =>
    have store : ∀ (bytes : List Byte) (crc : BitVec 32) (c : Short), stores.length ≤
        (zrecRle last results (stores ++ bytes) crc c false n).stores.length := by
      intro bytes crc c
      have later := ih (stores ++ bytes) crc c n
      rw [List.length_append] at later
      omega
    have flagged : ∀ (crc : BitVec 32) (c : Short), stores.length ≤
        (zrecRle last results stores crc c true n).stores.length := by
      intro crc c
      exact Nat.le_of_eq (by rw [zrecRle_flag, zrecData_stores_flag])
    rw [zrecRle]
    split_ifs
    all_goals first
      | exact Nat.le_refl _
      | exact flagged _ _
      | exact ih _ _ _ _
      | exact store _ _ _

theorem zrecRle_inBounds_iff (len : Nat) (results : List Short) (stores : List Byte)
    (crc : BitVec 32) (c : Short) (n : Nat) (inside : stores.length ≤ len) :
    (zrecRle len results stores crc c false n).stores.length ≤ len ↔
      PiecesFit len stores.length (pieces c (plain results)) := by
  induction results generalizing stores crc c n with
  | nil =>
    rw [zrecRle, if_neg (by omega)]
    simp [plain, pieces, PiecesFit, inside]
  | cons res results ih =>
    have store : ∀ (bytes : List Byte) (crc : BitVec 32),
        (zrecRle len results (stores ++ bytes) crc 0 false n).stores.length ≤ len ↔
          stores.length + bytes.length ≤ len ∧
            PiecesFit len (stores.length + bytes.length) (pieces 0 (plain results)) := by
      intro bytes crc
      have later := le_zrecRle_stores len results (stores ++ bytes) crc 0 n
      rcases Nat.lt_or_ge len (stores ++ bytes).length with beyond | fits
      · rw [List.length_append] at beyond later
        exact ⟨fun bound => by omega, fun bound => by omega⟩
      · rw [ih _ _ _ _ fits, List.length_append]
        rw [List.length_append] at fits
        exact (and_iff_right fits).symm
    rw [zrecRle, if_neg (by omega)]
    cases special : isSpecial res with
    | true =>
      rw [plain_special special]
      simp only [if_true, pieces, PiecesFit, iff_true]
      split_ifs
      · rw [zrecRle_flag, zrecData_stores_flag]
        exact inside
      · exact inside
    | false =>
      rw [plain_char special, pieces]
      simp only [Bool.false_eq_true, if_false]
      split_ifs with idle escape escaped spaces beyond isZresc negative tooLong
      · exact ih _ _ _ _ inside
      · rw [store, PiecesFit]
        exact Iff.rfl
      · rw [PiecesFit]
        exact ⟨fun _ => .inl (by omega), fun _ => inside⟩
      · rw [store, PiecesFit, length_countdown]
        exact ⟨.inr, fun fits => fits.resolve_left (by omega)⟩
      · rw [store, PiecesFit]
        exact Iff.rfl
      · exact ih _ _ _ _ inside
      · simp [PiecesFit, inside]
      · rw [PiecesFit]
        exact ⟨fun _ => .inl (by omega), fun _ => inside⟩
      · rw [store, PiecesFit, length_countdown]
        exact ⟨.inr, fun fits => fits.resolve_left (by omega)⟩

theorem inBounds_iff (mode : CrcMode) (p : Int) (c : Short) (len : BitVec 16) (line : List Byte) :
    (zgetData mode p c len line).InBounds len ↔ LineFits mode p c len line := by
  unfold Received.InBounds
  cases mode with
  | crc16 =>
    have bounds := zrecData_inBounds_iff check16 len.toNat len.toNat (zreadBytes line) []
      check16.init 0 (Nat.zero_le _)
    simpa [LineFits, zgetData, zrecData16] using bounds
  | crc32 =>
    have bounds := zrecData_inBounds_iff check32 (p + len.toInt) len.toNat (zreadBytes line) []
      check32.init 0 (Nat.zero_le _)
    simpa [LineFits, zgetData, zrecData32] using bounds
  | crc32Rle =>
    rcases Int.lt_or_le len.toInt 0 with negative | nonneg
    · have ended : zgetData .crc32Rle p c len line = ⟨some (-rtError), []⟩ := by
        unfold zgetData zrecData32r zrecRle
        rw [if_pos (by simpa using negative)]
      rw [ended]
      exact ⟨fun _ => .inl negative, fun _ => Nat.zero_le _⟩
    · have sameLen : len.toInt = len.toNat := by
        rw [BitVec.toInt_eq_toNat_cond] at nonneg ⊢
        split_ifs at nonneg ⊢ with small
        · rfl
        · omega
      have bounds := zrecRle_inBounds_iff len.toNat (zreadBytes line) [] check32.init c 0
        (Nat.zero_le _)
      rw [← sameLen] at bounds
      refine bounds.trans ⟨.inr, fun fits => fits.resolve_left (by omega)⟩

/-- What the subpackets promise, exactly where they keep it: every transfer is received as it was
sent, with 16 bits; and every line is stored inside of the buffer, if it fits. -/
theorem subpacket_correct_iff (transfer : Transfer) (mode : CrcMode) (behind : Byte) (p : Int)
    (c : Short) (len : BitVec 16) (line : List Byte) :
    (transfer.RoundTrip mode behind p c ↔ mode = .crc16) ∧
      ((zgetData mode p c len line).InBounds len ↔ LineFits mode p c len line) :=
  ⟨roundTrip_iff transfer mode behind p c, inBounds_iff mode p c len line⟩

def oneByte : Transfer where
  payload := [0x41]
  len := 1
  frameend := zcrce
  positive := by decide
  short := by decide
  fits := by decide
  isFrameend := by decide

/-- It is not received with a check sum of 32 bits; and of two bytes, the second is stored behind
a buffer of one. -/
theorem one_byte_lost_and_overrun :
    ¬ (∀ (transfer : Transfer) (mode : CrcMode) (behind : Byte) (p : Int) (c : Short),
      transfer.RoundTrip mode behind p c) ∧
    ¬ ∀ (mode : CrcMode) (p : Int) (c : Short) (len : BitVec 16) (line : List Byte),
      (zgetData mode p c len line).InBounds len := by
  constructor
  · intro claim
    exact absurd (claim oneByte .crc32 0 0 0) (by decide +kernel)
  · intro claim
    have bound := claim .crc16 0 0 1 [0x41, 0x42]
    revert bound
    unfold Received.InBounds
    decide +kernel

end RtThread.Zmodem
