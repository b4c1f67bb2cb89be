import RtThread.At.Client

/-!
# The frames of a byte stream

`at_recv_readline` in its receive buffer.
-/

namespace RtThread.At

structure Receiver where
  recvBuffer : Nat → UInt8
  curRecvLen : Nat

def rtEfull : Int := 3

namespace Receiver

variable (client : Receiver)

def bytes : List UInt8 := (List.range client.curRecvLen).map client.recvBuffer

def clear (cfg : ClientConfig) : Receiver where
  recvBuffer place := if place < cfg.recvBufsz then 0 else client.recvBuffer place
  curRecvLen := 0

/-- The loop of `at_recv_readline` over the bytes that `at_client_getchar` waits for: what is
returned, the client and the bytes behind. -/
def readlineLoop (cfg : ClientConfig) (client : Receiver) (readLen : Nat) (lastCh : UInt8)
    (isFull : Bool) : List UInt8 → Option (Int × Receiver × List UInt8)
  | [] => none
  | ch :: rest =>
    let room := readLen < cfg.recvBufsz
    let client :=
      if room then ⟨Function.update client.recvBuffer readLen ch, readLen + 1⟩ else client
    let readLen := if room then readLen + 1 else readLen
    let isFull := isFull || !room
    if (ch = 10 ∧ lastCh = 13) ∨ (cfg.endSign ≠ 0 ∧ ch = cfg.endSign) ∨
        (getUrcObj cfg client.bytes).isSome then
      some (if isFull then (-rtEfull, client.clear cfg, rest) else (readLen, client, rest))
    else readlineLoop cfg client readLen ch isFull rest

def atRecvReadline (cfg : ClientConfig) (stream : List UInt8) :
    Option (Int × Receiver × List UInt8) :=
  readlineLoop cfg (client.clear cfg) 0 0 false stream

end Receiver

variable (cfg : ClientConfig)

def Ends (frame : List UInt8) : Prop :=
  [13, 10] <:+ frame ∨ (cfg.endSign ≠ 0 ∧ frame.getLast? = some cfg.endSign) ∨
    (frame.length ≤ cfg.recvBufsz ∧ (getUrcObj cfg frame).isSome)

/-- No frame has ended before or here. -/
def Unended (bytes : List UInt8) : Prop :=
  ∀ frame, frame <+: bytes → frame ≠ [] → ¬ Ends cfg frame

structure IsFrame (frame : List UInt8) : Prop where
  nonempty : frame ≠ []
  ends : Ends cfg frame
  first : Unended cfg frame.dropLast

structure Delivers (frame : List UInt8) (before : Receiver) (result : Int) (after : Receiver) :
    Prop where
  isFrame : IsFrame cfg frame
  fits : frame.length ≤ cfg.recvBufsz → result = frame.length ∧ after.bytes = frame
  exceeds : cfg.recvBufsz < frame.length → result = -rtEfull
  outside : ∀ place, cfg.recvBufsz ≤ place → after.recvBuffer place = before.recvBuffer place

variable {cfg} {front frame stream rest : List UInt8} {ch lastCh : UInt8} {isFull : Bool}

theorem unended_nil : Unended cfg [] :=
  fun _ isPrefix nonempty => absurd (List.prefix_nil.mp isPrefix) nonempty

theorem unended_concat (ch : UInt8) : Unended cfg (front ++ [ch]) ↔
    Unended cfg front ∧ ¬ Ends cfg (front ++ [ch]) := by
  constructor
  · exact fun unended => ⟨fun frame isPrefix => unended frame
      (isPrefix.trans (List.prefix_append _ _)), unended _ (List.prefix_refl _) (by simp)⟩
  · rintro ⟨unended, notHere⟩ frame isPrefix nonempty
    rcases List.prefix_concat_iff.mp isPrefix with rfl | earlier
    · exact notHere
    · exact unended frame earlier nonempty

theorem isFrame_concat (unended : Unended cfg front) (ends : Ends cfg (front ++ [ch])) :
    IsFrame cfg (front ++ [ch]) :=
  ⟨by simp, ends, by rwa [List.dropLast_concat]⟩

theorem ends_concat_iff (pos : 0 < cfg.recvBufsz) (unended : Unended cfg front) :
    Ends cfg (front ++ [ch]) ↔
      (ch = 10 ∧ front.getLast?.getD 0 = 13) ∨ (cfg.endSign ≠ 0 ∧ ch = cfg.endSign) ∨
        (getUrcObj cfg ((front ++ [ch]).take cfg.recvBufsz)).isSome := by
  refine or_congr ?_ (or_congr ?_ ?_)
  · rw [← List.reverse_prefix]
    rcases front.eq_nil_or_concat' with rfl | ⟨earlier, last, rfl⟩
    · simp
    · simp [eq_comm]
  · rw [List.getLast?_concat, Option.some.injEq]
  · by_cases fits : (front ++ [ch]).length ≤ cfg.recvBufsz
    · rw [List.take_of_length_le fits, and_iff_right fits]
    · rw [List.length_append, List.length_singleton] at fits
      have within : cfg.recvBufsz ≤ front.length := by omega
      have same : (front ++ [ch]).take cfg.recvBufsz = front.take cfg.recvBufsz :=
        List.take_append_of_le_length within
      rw [same]
      refine iff_of_false (fun both => fits (by simpa using both.1)) fun isUrc => ?_
      refine unended (front.take cfg.recvBufsz) (List.take_prefix _ _) ?_
        (.inr (.inr ⟨?_, isUrc⟩))
      · rw [← List.length_pos_iff, List.length_take]
        omega
      · rw [List.length_take]
        omega

theorem readlineLoop_cons (stream : List UInt8) :
    readlineLoop cfg (front.take cfg.recvBufsz) (front.getLast?.getD 0)
        (decide (cfg.recvBufsz < front.length)) (ch :: stream) =
      if (ch = 10 ∧ front.getLast?.getD 0 = 13) ∨ (cfg.endSign ≠ 0 ∧ ch = cfg.endSign) ∨
          (getUrcObj cfg ((front ++ [ch]).take cfg.recvBufsz)).isSome then
        some (if (front ++ [ch]).length ≤ cfg.recvBufsz then some (front ++ [ch]) else none, stream)
      else readlineLoop cfg ((front ++ [ch]).take cfg.recvBufsz) ((front ++ [ch]).getLast?.getD 0)
          (decide (cfg.recvBufsz < (front ++ [ch]).length)) stream := by
  have length : (front.take cfg.recvBufsz).length = min cfg.recvBufsz front.length :=
    List.length_take
  have more : (front ++ [ch]).length = front.length + 1 := List.length_append
  rw [readlineLoop]
  by_cases room : front.length < cfg.recvBufsz
  · have whole : front.take cfg.recvBufsz = front := List.take_of_length_le (Nat.le_of_lt room)
    have fits : (front ++ [ch]).length ≤ cfg.recvBufsz := by omega
    have notFull : decide (cfg.recvBufsz < front.length) = false := decide_eq_false (by omega)
    have notFull' : decide (cfg.recvBufsz < (front ++ [ch]).length) = false :=
      decide_eq_false (by omega)
    simp only [whole, room, List.take_of_length_le fits, notFull, notFull', fits, if_true,
      decide_true, Bool.not_true, Bool.or_false, Bool.false_eq_true, if_false,
      List.getLast?_concat, Option.getD_some]
  · have same : (front ++ [ch]).take cfg.recvBufsz = front.take cfg.recvBufsz :=
      List.take_append_of_le_length (Nat.le_of_not_lt room)
    have exceeds : ¬ (front ++ [ch]).length ≤ cfg.recvBufsz := by omega
    have full : decide (cfg.recvBufsz < (front ++ [ch]).length) = true := decide_eq_true (by omega)
    have noRoom : ¬ (front.take cfg.recvBufsz).length < cfg.recvBufsz := by omega
    simp only [same, noRoom, full, exceeds, if_false, decide_false, Bool.not_false, Bool.or_true,
      if_true, List.getLast?_concat, Option.getD_some]

theorem readlineLoop_frames (pos : 0 < cfg.recvBufsz) (unended : Unended cfg front) :
    (readlineLoop cfg (front.take cfg.recvBufsz) (front.getLast?.getD 0)
        (decide (cfg.recvBufsz < front.length)) stream = none → Unended cfg (front ++ stream)) ∧
    ∀ r rest, readlineLoop cfg (front.take cfg.recvBufsz) (front.getLast?.getD 0)
        (decide (cfg.recvBufsz < front.length)) stream = some (r, rest) →
      ∃ frame, front ++ stream = frame ++ rest ∧ IsFrame cfg frame ∧
        r = if frame.length ≤ cfg.recvBufsz then some frame else none := by
  induction stream generalizing front with
  | nil => exact ⟨fun _ => by rwa [List.append_nil], fun _ _ impossible => by
      exact absurd impossible.symm (Option.some_ne_none _)⟩
  | cons ch stream ih =>
    rw [readlineLoop_cons, List.append_cons front ch stream]
    have test := @ends_concat_iff cfg front ch pos unended
    by_cases ends : Ends cfg (front ++ [ch])
    · rw [if_pos (test.mp ends)]
      refine ⟨fun impossible => absurd impossible (Option.some_ne_none _), ?_⟩
      rintro _ _ ⟨⟩
      exact ⟨front ++ [ch], rfl, isFrame_concat unended ends, rfl⟩
    · rw [if_neg (fun tested => ends (test.mpr tested))]
      exact ih ((unended_concat ch).mpr ⟨unended, ends⟩)

theorem atRecvReadline_frames (pos : 0 < cfg.recvBufsz) :
    (atRecvReadline cfg stream = none → Unended cfg stream) ∧
    ∀ r rest, atRecvReadline cfg stream = some (r, rest) →
      ∃ frame, stream = frame ++ rest ∧ IsFrame cfg frame ∧
        r = if frame.length ≤ cfg.recvBufsz then some frame else none := by
  have frames := @readlineLoop_frames cfg [] stream pos unended_nil
  simp only [List.take_nil] at frames
  exact frames

namespace Receiver

variable {client : Receiver}

theorem length_bytes : client.bytes.length = client.curRecvLen := by
  rw [bytes, List.length_map, List.length_range]

theorem bytes_push (buffer : Nat → UInt8) (n : Nat) (ch : UInt8) :
    bytes ⟨Function.update buffer n ch, n + 1⟩ = bytes ⟨buffer, n⟩ ++ [ch] := by
  rw [bytes, bytes, List.range_succ, List.map_append, List.map_singleton]
  refine congrArg₂ (· ++ ·) (List.map_congr_left fun p inside => ?_)
    (congrArg ([·]) (Function.update_self ..))
  exact Function.update_of_ne (Nat.ne_of_lt (List.mem_range.mp inside)) _ _

structure Agrees (cfg : ClientConfig) (client : Receiver)
    (line : Option (List UInt8) × List UInt8) (stored : Int × Receiver × List UInt8) : Prop where
  result : stored.1 = line.1.elim (-rtEfull) fun bytes => (bytes.length : Int)
  bytes : ∀ text, line.1 = some text → stored.2.1.bytes = text
  rest : stored.2.2 = line.2
  outside : ∀ place, cfg.recvBufsz ≤ place →
    stored.2.1.recvBuffer place = client.recvBuffer place

theorem agrees_end {before : Receiver}
    (same : ∀ p, cfg.recvBufsz ≤ p → client.recvBuffer p = before.recvBuffer p) :
    Agrees cfg before (if isFull then none else some client.bytes, rest)
      (if isFull then (-rtEfull, client.clear cfg, rest)
        else ((client.curRecvLen : Int), client, rest)) := by
  cases isFull with
  | false =>
    refine ⟨?_, fun text isText => Option.some.inj isText, rfl, same⟩
    exact congrArg _ length_bytes.symm
  | true =>
    refine ⟨rfl, fun _ impossible => absurd impossible.symm (Option.some_ne_none _), rfl, ?_⟩
    intro p outside
    exact (if_neg (Nat.not_lt.mpr outside)).trans (same p outside)

theorem readlineLoop_agrees {before : Receiver} (within : client.curRecvLen ≤ cfg.recvBufsz)
    (same : ∀ p, cfg.recvBufsz ≤ p → client.recvBuffer p = before.recvBuffer p) :
    Option.Rel (Agrees cfg before) (At.readlineLoop cfg client.bytes lastCh isFull stream)
      (client.readlineLoop cfg client.curRecvLen lastCh isFull stream) := by
  induction stream generalizing client lastCh isFull with
  | nil => exact .none
  | cons ch stream ih =>
    rw [At.readlineLoop, Receiver.readlineLoop, length_bytes]
    by_cases room : client.curRecvLen < cfg.recvBufsz
    · let pushed : Receiver :=
        ⟨Function.update client.recvBuffer client.curRecvLen ch, client.curRecvLen + 1⟩
      have same' : ∀ p, cfg.recvBufsz ≤ p →
          pushed.recvBuffer p = before.recvBuffer p := fun p outside =>
        (Function.update_of_ne (by omega) _ _).trans (same p outside)
      have isPushed : client.bytes ++ [ch] = pushed.bytes := (bytes_push _ _ ch).symm
      simp only [room, if_true, isPushed]
      split
      · exact .some (agrees_end same')
      · exact ih room same'
    · simp only [room, if_false, decide_false, Bool.not_false, Bool.or_true]
      split
      · exact .some (@agrees_end _ _ true _ _ same)
      · exact ih within same

theorem atRecvReadline_agrees (client : Receiver) (stream : List UInt8) :
    Option.Rel (Agrees cfg client) (At.atRecvReadline cfg stream)
      (client.atRecvReadline cfg stream) :=
  @readlineLoop_agrees cfg stream 0 false (client.clear cfg) client (Nat.zero_le _)
    fun _ outside => if_neg (Nat.not_lt.mpr outside)

end Receiver

/-- Calls of `at_recv_readline` one after the other, with what each gets and leaves; between them
the parser may write to the buffer.  The first argument is the stream, the last what is left. -/
inductive Calls (cfg : ClientConfig) :
    List UInt8 → List (Receiver × Int × Receiver) → List UInt8 → Prop where
  | done (stream : List UInt8) : Calls cfg stream [] stream
  | call {stream rest remaining : List UInt8} {before after : Receiver} {result : Int}
      {calls : List (Receiver × Int × Receiver)} :
      before.atRecvReadline cfg stream = some (result, after, rest) →
      Calls cfg rest calls remaining →
      Calls cfg stream ((before, result, after) :: calls) remaining

theorem delivers_of_read (pos : 0 < cfg.recvBufsz) {before s' : Receiver} {r : Int}
    (read : before.atRecvReadline cfg stream = some (r, s', rest)) :
    ∃ frame, stream = frame ++ rest ∧ Delivers cfg frame before r s' := by
  have agrees := @Receiver.atRecvReadline_agrees cfg before stream
  rw [read] at agrees
  obtain ⟨⟨line, rest'⟩, isLine⟩ : ∃ line, At.atRecvReadline cfg stream = some line := by
    cases isLine : At.atRecvReadline cfg stream with
    | none =>
      rw [isLine] at agrees
      cases agrees
    | some line => exact ⟨line, rfl⟩
  rw [isLine] at agrees
  obtain ⟨isResult, bytes, rfl, outside⟩ := Option.rel_some_some.mp agrees
  obtain ⟨frame, parts, isFrame, isText⟩ := (atRecvReadline_frames pos).2 line rest isLine
  change r = _ at isResult
  refine ⟨frame, parts, isFrame, fun fits => ?_, fun exceeds => ?_, outside⟩
  · rw [if_pos fits] at isText
    exact ⟨by rw [isResult, isText]; rfl, bytes frame isText⟩
  · rw [if_neg (Nat.not_le.mpr exceeds)] at isText
    rw [isResult, isText]
    rfl

theorem waits_iff (pos : 0 < cfg.recvBufsz) (client : Receiver) (stream : List UInt8) :
    client.atRecvReadline cfg stream = none ↔ Unended cfg stream := by
  constructor
  · intro waits
    have agrees := @Receiver.atRecvReadline_agrees cfg client stream
    rw [waits] at agrees
    refine (atRecvReadline_frames pos).1 ?_
    by_contra reads
    obtain ⟨line, isLine⟩ := Option.ne_none_iff_exists'.mp reads
    rw [isLine] at agrees
    cases agrees
  · intro unended
    rw [Option.eq_none_iff_forall_ne_some]
    rintro ⟨r, s', rest⟩ read
    obtain ⟨frame, rfl, delivers⟩ := delivers_of_read pos read
    exact unended frame (List.prefix_append _ _) delivers.isFrame.nonempty delivers.isFrame.ends

/-- The calls of `at_recv_readline` cut the stream into frames that end as early as they can; a
further call waits just when no frame ends in what is left. -/
theorem calls_cut_frames (pos : 0 < cfg.recvBufsz) {remaining : List UInt8}
    {calls : List (Receiver × Int × Receiver)} (made : Calls cfg stream calls remaining) :
    (∃ frames : List (List UInt8), stream = frames.flatten ++ remaining ∧
      List.Forall₂ (fun frame call => Delivers cfg frame call.1 call.2.1 call.2.2) frames calls) ∧
    ∀ client : Receiver, client.atRecvReadline cfg remaining = none ↔ Unended cfg remaining := by
  refine ⟨?_, fun client => waits_iff pos client remaining⟩
  induction made with
  | done stream => exact ⟨[], rfl, .nil⟩
  | call read _ ih =>
    obtain ⟨frame, rfl, delivers⟩ := delivers_of_read pos read
    obtain ⟨frames, rfl, all⟩ := ih
    exact ⟨frame :: frames, by rw [List.flatten_cons, List.append_assoc], .cons delivers all⟩

theorem exact_fit_and_overflow :
    ∃ calls, Calls ⟨3, 0, []⟩ [0x41, 13, 10, 0x41, 0x42, 13, 10] calls [] ∧
      calls.map (fun call => call.2.1) = [3, -rtEfull] ∧
      ∃ frames : List (List UInt8), [0x41, 13, 10, 0x41, 0x42, 13, 10] = frames.flatten ++ [] ∧
        List.Forall₂ (fun frame call => Delivers ⟨3, 0, []⟩ frame call.1 call.2.1 call.2.2)
          frames calls := by
  let client : Receiver := ⟨fun _ => 0, 0⟩
  have second : ∃ s', client.atRecvReadline ⟨3, 0, []⟩ [0x41, 0x42, 13, 10] =
      some (-rtEfull, s', []) := ⟨_, rfl⟩
  have first : ∃ s', client.atRecvReadline ⟨3, 0, []⟩ [0x41, 13, 10, 0x41, 0x42, 13, 10] =
      some (3, s', [0x41, 0x42, 13, 10]) := ⟨_, rfl⟩
  obtain ⟨_, second⟩ := second
  obtain ⟨_, first⟩ := first
  have made := Calls.call first (.call second (.done []))
  exact ⟨_, made, rfl, (calls_cut_frames (by decide) made).1⟩

end RtThread.At
