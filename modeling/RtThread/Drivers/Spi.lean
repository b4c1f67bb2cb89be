import Mathlib.Algebra.Ring.Nat

/-!
# SPI transfers in polling mode

`spixfer` with the loops that cut a message into transactions of the HAL.
-/

namespace RtThread.Spi

/-- `HAL_SPI_MAXIMUM_POLLING_TRANSACTION_SIZE`; the length of a transaction is a `uint16_t`. -/
structure Hal where
  maximum : Nat
  pos : 0 < maximum
  small : maximum < 2 ^ 16

/-- `struct rt_spi_message`; a buffer is an address, or `none` for `RT_NULL`. -/
structure RtSpiMessage where
  sendBuf : Option Nat
  recvBuf : Option Nat
  length : Nat
  csTake : Bool
  csRelease : Bool

/-- The calls of the HAL, with their addresses and lengths. -/
inductive Call where
  | setOutput (high : Bool)
  | sendPolling (data length : Nat)
  | sendAndReceivePolling (sendData sendLength receiveBuffer receiveLength : Nat)

/-- The addresses of the bytes that a call puts on the wire. -/
def Call.sent : Call → List Nat
  | .setOutput _ => []
  | .sendPolling data length => List.range' data length
  | .sendAndReceivePolling data length _ _ => List.range' data length

/-- The addresses that a call stores to. -/
def Call.stored : Call → List Nat
  | .sendAndReceivePolling _ _ buffer length => List.range' buffer length
  | _ => []

variable (hal : Hal)

/-- The loops of the polling functions: `call` makes a transaction of the bytes behind
`already_send_length`, and one that is not `ok` ends the loop if its status is `checked`. -/
def pollingLoop (length : Nat) (call : Nat → Nat → Call) (checked : Bool) (ok : Call → Bool)
    (messageLength : Nat) : List Call × Bool :=
  if messageLength = 0 then ([], true)
  else
    let chunk := if messageLength > hal.maximum then hal.maximum % 2 ^ 16
      else messageLength % 2 ^ 16
    let rest := if messageLength > hal.maximum then messageLength - hal.maximum else 0
    let transaction := call (length - chunk - rest) chunk
    if checked && !ok transaction then ([transaction], false)
    else
      let (calls, state) := pollingLoop length call checked ok rest
      (transaction :: calls, state)
termination_by messageLength
decreasing_by
  have := hal.pos
  split <;> omega

variable (ok : Call → Bool) (message : RtSpiMessage)

def pollingSend (sendBuf : Nat) : List Call × Bool :=
  if message.length = 0 then ([], false)
  else pollingLoop hal message.length (fun already => .sendPolling (sendBuf + already)) true ok
    message.length

def pollingRecv (recvBuf : Nat) : List Call × Bool :=
  pollingLoop hal message.length (fun already chunk =>
    .sendAndReceivePolling (recvBuf + already) 1 (recvBuf + already) (chunk + 1)) true ok
    message.length

def pollingSendRecv (sendBuf recvBuf : Nat) : List Call × Bool :=
  pollingLoop hal message.length (fun already chunk =>
    .sendAndReceivePolling (sendBuf + already) chunk (recvBuf + already) (chunk + 1)) false ok
    message.length

/-- The switch over `flag`, whose cases are hexadecimal, in polling mode. -/
def transfer : List Call × Bool :=
  let sendBuf := message.sendBuf.getD 0
  let recvBuf := message.recvBuf.getD 0
  let flag := (if message.sendBuf.isSome then 1 <<< 0 else 0) |||
    (if message.recvBuf.isSome then 1 <<< 1 else 0)
  match flag with
  | 0x00 => ([], true)
  | 0x01 => pollingSend hal ok message sendBuf
  | 0x10 => pollingRecv hal ok message recvBuf
  | 0x11 => ((pollingSendRecv hal ok message sendBuf recvBuf).1, true)
  | _ => ([], false)

/-- `spixfer`: the calls of the HAL, and the length returned. -/
def spixfer : List Call × Nat :=
  let (calls, state) := transfer hal ok message
  ((if message.csTake then [.setOutput false] else []) ++ calls ++
      if message.csRelease then [.setOutput true] else [],
    if state then message.length else 0)

/-- The addresses of the bytes of a buffer of the message. -/
def bytes (length : Nat) (buffer : Option Nat) : List Nat :=
  (buffer.map fun address => List.range' address length).getD []

/-- The message is transferred as far as its transactions succeed, and said to be just then. -/
structure Transferred : Prop where
  returned : (spixfer hal ok message).2 =
    if ∀ call ∈ (transfer hal ok message).1, ok call = true then message.length else 0
  sent : (spixfer hal ok message).1.flatMap Call.sent <+: bytes message.length message.sendBuf
  stored : (spixfer hal ok message).1.flatMap Call.stored <+: bytes message.length message.recvBuf
  complete : (spixfer hal ok message).2 ≠ 0 →
    (spixfer hal ok message).1.flatMap Call.sent = bytes message.length message.sendBuf ∧
    (spixfer hal ok message).1.flatMap Call.stored = bytes message.length message.recvBuf

/-- What a transfer that is to send `wanted` has sent of it, and what it says of that. -/
structure Sends (wanted : List Nat) (result : List Call × Bool) : Prop where
  state : result.2 = true ↔ ∀ call ∈ result.1, ok call = true
  sent : result.1.flatMap Call.sent <+: wanted
  complete : result.2 = true → result.1.flatMap Call.sent = wanted
  stored : result.1.flatMap Call.stored = []

variable {hal ok message}

theorem Sends.nil : Sends ok [] ([], true) := ⟨by simp, List.nil_prefix, fun _ => rfl, rfl⟩

theorem Sends.cons {address chunk : Nat} {wanted : List Nat} {result : List Call × Bool}
    (sends : Sends ok wanted result) (succeeds : ok (.sendPolling address chunk) = true) :
    Sends ok (List.range' address chunk ++ wanted)
      (.sendPolling address chunk :: result.1, result.2) where
  state := by simpa [succeeds] using sends.state
  sent := (List.prefix_append_right_inj _).mpr sends.sent
  complete state := congrArg _ (sends.complete state)
  stored := sends.stored

theorem sends_pollingLoop (address length remaining : Nat) (within : remaining ≤ length) :
    Sends ok (List.range' (address + (length - remaining)) remaining) (pollingLoop hal length
      (fun already => .sendPolling (address + already)) true ok remaining) := by
  have pos := hal.pos
  have small := hal.small
  rw [pollingLoop]
  by_cases done : remaining = 0
  · simpa only [done, if_true, List.range'_zero] using Sends.nil
  · simp only [done, if_false, Bool.true_and]
    obtain ⟨chunk, rest, cut, atRest, total, some⟩ : ∃ chunk rest,
        (if remaining > hal.maximum then hal.maximum % 2 ^ 16 else remaining % 2 ^ 16) = chunk ∧
        (if remaining > hal.maximum then remaining - hal.maximum else 0) = rest ∧
        remaining = chunk + rest ∧ 0 < chunk := by
      refine ⟨_, _, rfl, rfl, ?_⟩
      split <;> omega
    have further := sends_pollingLoop address length rest (by omega)
    rw [show address + (length - rest) = address + (length - remaining) + chunk by omega]
      at further
    simp only [cut, atRest, show length - chunk - rest = length - remaining by omega]
    rw [total, ← List.range'_append_1, ← total]
    by_cases succeeds : ok (.sendPolling (address + (length - remaining)) chunk) = true
    · simpa only [succeeds, Bool.not_true, Bool.false_eq_true, if_false]
        using further.cons succeeds
    · simp only [succeeds, Bool.not_false, if_true]
      refine ⟨by simpa using succeeds, ?_, nofun, rfl⟩
      simp only [List.flatMap_cons, List.flatMap_nil, List.append_nil]
      exact List.prefix_append _ _
termination_by remaining

theorem sends_transfer (long : 1 ≤ message.length) (receives : message.recvBuf = none) :
    Sends ok (bytes message.length message.sendBuf) (transfer hal ok message) := by
  cases sends : message.sendBuf with
  | none =>
      have made : transfer hal ok message = ([], true) := by simp [transfer, receives, sends]
      rw [made]
      exact Sends.nil
  | some sendBuf =>
      have made : transfer hal ok message = pollingLoop hal message.length
          (fun already => .sendPolling (sendBuf + already)) true ok message.length := by
        simp [transfer, pollingSend, sends, receives, Nat.ne_of_gt long]
      rw [made]
      simpa only [Nat.sub_self, Nat.add_zero, bytes, Option.map_some, Option.getD_some]
        using sends_pollingLoop sendBuf message.length message.length (Nat.le_refl _)

theorem spixfer_flatMap {bytesOf : Call → List Nat}
    (quiet : ∀ high, bytesOf (.setOutput high) = []) :
    (spixfer hal ok message).1.flatMap bytesOf = (transfer hal ok message).1.flatMap bytesOf := by
  unfold spixfer
  cases message.csTake <;> cases message.csRelease <;> simp [quiet]

theorem transferred_of_not_received (long : 1 ≤ message.length)
    (receives : message.recvBuf = none) : Transferred hal ok message := by
  have sends : Sends ok _ (transfer hal ok message) := sends_transfer long receives
  have stored : (spixfer hal ok message).1.flatMap Call.stored =
      bytes message.length message.recvBuf := by
    rw [spixfer_flatMap fun _ => rfl, sends.stored, receives]
    rfl
  refine ⟨?_, ?_, stored ▸ List.prefix_rfl, fun returned => ⟨?_, stored⟩⟩
  · simp only [spixfer, ← sends.state]
  · rw [spixfer_flatMap fun _ => rfl]
    exact sends.sent
  · rw [spixfer_flatMap fun _ => rfl]
    refine sends.complete ?_
    by_contra failed
    exact returned (by simp [spixfer, failed])

theorem spixfer_received (receives : message.recvBuf ≠ none) : (spixfer hal ok message).2 = 0 := by
  obtain ⟨recvBuf, receives⟩ := Option.ne_none_iff_exists'.mp receives
  cases sends : message.sendBuf <;> simp [spixfer, transfer, receives, sends]

theorem transferred_iff (hal : Hal) (message : RtSpiMessage) (long : 1 ≤ message.length) :
    (∀ ok, Transferred hal ok message) ↔ message.recvBuf = none := by
  refine ⟨fun transferred => ?_, fun receives _ => transferred_of_not_received long receives⟩
  by_contra receives
  have returned := (transferred fun _ => true).returned
  rw [spixfer_received receives] at returned
  simp only [implies_true, if_true] at returned
  omega

theorem forty_bytes_transferred : Transferred ⟨32, by decide, by decide⟩ (fun _ => true)
    ⟨some 4096, none, 40, true, true⟩ :=
  (transferred_iff _ _ (by decide)).mpr rfl _

/-- `rt_spi_recv` of four bytes: its `flag` is 2, and the case is `0x10`. -/
theorem received_not_transferred : ¬ ∀ (hal : Hal) (message : RtSpiMessage),
    1 ≤ message.length → ∀ ok, Transferred hal ok message :=
  fun transferred => absurd
    (transferred ⟨32, by decide, by decide⟩ ⟨none, some 4096, 4, true, true⟩ (by decide)
      fun _ => true).returned (by simp [spixfer, transfer])

end RtThread.Spi
