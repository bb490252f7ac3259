import Mathlib.Algebra.Group.Nat.Basic
import Vex.Networking.Codec
import Vex.Networking.Net.FlatBuffer

/-
  The receive path of `basic_session_impl` (`net/session_impl.hpp`,
  `net/session_impl.inl`, `net/session_config.hpp`): the frame
  header, `do_receive` with `process_message` and
  `dispatch_message`, closing, and pausing and resuming the loop.

  The session runs on one executor, and both threading policies
  run a dispatch made from it inline: a `close` from inside the
  loop takes effect before the loop goes on.  The model records
  the `dispatch_message` calls in order and the reason of the
  close that took effect.  The protocol handler's callbacks return
  normally; the frames the session sends on its own
  (`enquire_link_resp`, `unbind_resp`) belong to the send path.

  `do_receive` returns normally, or ends in a `Fault`: an
  exception that escapes it, or the stack copy of a body writing
  past its 256-byte array.  Its loop runs on fuel: each round
  consumes at least `header_length` bytes, so one round per
  buffered byte and one more suffice.

  Key definitions include:
    * `SessionConfig`, `Header`, `Message`, `SessionImpl`
    * `deserializeHeader`, `serializeHeader`, `Message.frame`
    * `processMessage`, `dispatchMessage`, `receiveRound`, `receiveLoop`, `doReceive`
    * `Event`, `step`, `run`, `admissible`

  Key theorems include:
    * `deserializeHeader_serializeHeader`
    * `processMessage_frame`, `receiveLoop_frame`, `receiveLoop_awaits`
-/

------------------------------------------------------------
-- Configuration
------------------------------------------------------------

namespace Vex

namespace Networking

namespace Net

/- `session_config`, without `unbind_timeout`, which only `do_unbind` reads. -/
structure SessionConfig where
  sendBufCapacity : Nat
  sendBufThreshold : Nat
  receiveBufSize : Nat
  smallBodySize : Nat
  maxCommandLength : Nat
  backpressureLowWatermark : Nat
  backpressureHighWatermark : Nat
  deriving DecidableEq, Repr

namespace SessionConfig

/- The default member initializers. -/
def defaults : SessionConfig :=
  ⟨1024 * 1024, 1024 * 1024, 1024 * 1024, 256, 10 * 1024 * 1024, 512 * 1024, 1024 * 1024⟩

/- `is_valid`. -/
def isValid (c : SessionConfig) : Bool :=
  c.sendBufCapacity > 0 && c.sendBufThreshold ≤ c.sendBufCapacity &&
    c.receiveBufSize > 0 && c.maxCommandLength > 0 &&
    c.backpressureLowWatermark ≤ c.backpressureHighWatermark &&
    c.backpressureHighWatermark ≤ c.sendBufCapacity

end SessionConfig

------------------------------------------------------------
-- Frame Header
------------------------------------------------------------

/- `header_length`. -/
def headerLength : Nat := 10

/- The capacity of `receive_buf_`, a `flat_buffer<uint8_t, 1024 * 1024>`. -/
def receiveBufCapacity : Nat := 1024 * 1024

/- What `do_receive` asks of `receive_buf_.prepare` for each read. -/
def readSize : Nat := 64 * 1024

/- The fields `deserialize_header` returns. -/
structure Header where
  commandLength : Nat
  commandId : UInt8
  commandStatus : UInt8
  sequenceNumber : Nat
  deriving DecidableEq, Repr

/- `read_u32`: the shifts and ors of four bytes, most significant first, as the sum they make. -/
def readU32 (b0 b1 b2 b3 : UInt8) : Nat :=
  b0.toNat * 2 ^ 24 + b1.toNat * 2 ^ 16 + b2.toNat * 2 ^ 8 + b3.toNat

/- `write_u32`: each byte is `(val >> k) & 0xFF`, which `UInt8.ofNat` truncates to. -/
def writeU32 (val : Nat) : List UInt8 :=
  [UInt8.ofNat (val / 2 ^ 24), UInt8.ofNat (val / 2 ^ 16), UInt8.ofNat (val / 2 ^ 8),
    UInt8.ofNat val]

/- `deserialize_header`: its two `std::runtime_error`s are the `error`s. -/
def deserializeHeader : List UInt8 → Except String Header
  | b0 :: b1 :: b2 :: b3 :: cmdId :: cmdStatus :: s0 :: s1 :: s2 :: s3 :: _ =>
      let cmdLen := readU32 b0 b1 b2 b3
      if cmdLen < headerLength then .error "Invalid command_length"
      else .ok ⟨cmdLen, cmdId, cmdStatus, readU32 s0 s1 s2 s3⟩
  | _ => .error "Invalid header size"

/- `serialize_header(cmd_len, cmd_id, seq_num, status)`. -/
def serializeHeader
    (cmdLen : Nat)
    (cmdId : UInt8)
    (seqNum : Nat)
    (status : UInt8) : List UInt8 :=
  writeU32 cmdLen ++ [cmdId, status] ++ writeU32 seqNum

@[simp]
theorem length_serializeHeader
    (cmdLen : Nat)
    (cmdId : UInt8)
    (seqNum : Nat)
    (status : UInt8) :
    (serializeHeader cmdLen cmdId seqNum status).length = headerLength :=
  rfl

private theorem toNat_ofNat_byte (x : Nat) : (UInt8.ofNat x).toNat = x % 256 :=
  rfl

theorem readU32_writeU32
    (val : Nat)
    (hVal : val < 2 ^ 32) :
    readU32 (UInt8.ofNat (val / 2 ^ 24)) (UInt8.ofNat (val / 2 ^ 16))
      (UInt8.ofNat (val / 2 ^ 8)) (UInt8.ofNat val) = val := by
  simp only [readU32, toNat_ofNat_byte]
  omega

/- A header read back from the bytes `serialize_header` wrote. -/
theorem deserializeHeader_serializeHeader
    {cmdLen seqNum : Nat}
    (cmdId status : UInt8)
    (rest : List UInt8)
    (hLen : headerLength ≤ cmdLen)
    (hLen32 : cmdLen < 2 ^ 32)
    (hSeq : seqNum < 2 ^ 32) :
    deserializeHeader (serializeHeader cmdLen cmdId seqNum status ++ rest) =
      .ok ⟨cmdLen, cmdId, status, seqNum⟩ := by
  simp only [serializeHeader, writeU32, List.cons_append, List.singleton_append,
    List.nil_append, deserializeHeader, readU32_writeU32 cmdLen hLen32,
    readU32_writeU32 seqNum hSeq]
  rw [if_neg (by omega)]

/- A header is read from ten bytes at least. -/
theorem headerLength_le_of_deserializeHeader
    {l : List UInt8}
    {h : Header}
    (hOk : deserializeHeader l = .ok h) :
    headerLength ≤ l.length := by
  unfold deserializeHeader at hOk
  split at hOk
  · simp [headerLength]
  · cases hOk

------------------------------------------------------------
-- Messages
------------------------------------------------------------

/- The arguments of a `dispatch_message` call. -/
structure Message where
  commandId : UInt8
  commandStatus : UInt8
  sequenceNumber : Nat
  body : List UInt8
  deriving DecidableEq, Repr

namespace Message

/- The frame that carries `m`: the header for its length, then the body. -/
def frame (m : Message) : List UInt8 :=
  serializeHeader (headerLength + m.body.length) m.commandId m.sequenceNumber
    m.commandStatus ++ m.body

@[simp]
theorem length_frame (m : Message) : m.frame.length = headerLength + m.body.length := by
  simp [frame]

/- The header at the front of a frame reads back, when its fields fit 32 bits. -/
theorem deserializeHeader_frame
    (m : Message)
    (hLen : headerLength + m.body.length < 2 ^ 32)
    (hSeq : m.sequenceNumber < 2 ^ 32) :
    deserializeHeader (m.frame.take headerLength) =
      .ok ⟨headerLength + m.body.length, m.commandId, m.commandStatus, m.sequenceNumber⟩ := by
  rw [frame, List.take_append_of_le_length (by simp), List.take_of_length_le (by simp),
    ← List.append_nil (serializeHeader _ _ _ _)]
  exact deserializeHeader_serializeHeader _ _ _ (Nat.le_add_right _ _) hLen hSeq

end Message

/- `is_response`: bit 7 of the command id. -/
def isResponse (cmdId : UInt8) : Bool :=
  cmdId &&& 0x80 != 0

/- `handle_response`: the reason it closes the session for, if it does. -/
def handleResponse (m : Message) : Option String :=
  if m.commandId = CommandId.enquireLinkResp then none
  else if m.commandId = CommandId.unbindResp then some "unbind_resp received"
  else if m.commandId = CommandId.bindResp then
    match deserializeBindResponse m.body with
    | .ok _ => none
    | .error what => some ("Deserialization error: " ++ what)
  else if m.commandId = CommandId.streamResp then none
  else some "Deserialization error: Unknown response PDU"

/- `handle_request`: the reason it closes the session for, if it does. -/
def handleRequest (m : Message) : Option String :=
  if m.commandId = CommandId.enquireLinkReq then none
  else if m.commandId = CommandId.unbindReq then some "unbind_req received"
  else if m.commandId = CommandId.bindReq then
    match deserializeBindRequest m.body with
    | .ok _ => none
    | .error what => some ("Deserialization error: " ++ what)
  else if m.commandId = CommandId.streamReq then none
  else some "Deserialization error: Unknown request PDU"

/- The close `dispatch_message` leads to, through the handler for the message's kind. -/
def closeReasonOf (m : Message) : Option String :=
  if isResponse m.commandId then handleResponse m else handleRequest m

------------------------------------------------------------
-- Session State
------------------------------------------------------------

/- `receiving_state`. -/
inductive ReceivingState where
  | receiving
  | pendingPause
  | paused
  deriving DecidableEq, Repr

/-
  The receive side of `basic_session_impl`: its configuration,
  `receive_buf_`, `receiving_state_`, `close_initiated_` with the
  reason of the close, whether an `async_receive` is pending, and
  the `dispatch_message` calls made so far.
-/
structure SessionImpl where
  config : SessionConfig
  receiveBuf : FlatBuffer
  receivingState : ReceivingState
  closeReason : Option String
  reading : Bool
  dispatched : List Message
  deriving DecidableEq, Repr

/- What ends `do_receive` other than returning. -/
inductive Fault where
  | exception (what : String)
  | stackOverflow
  deriving DecidableEq, Repr

/- How the `while (true)` loop of `do_receive` is left: `break`, or the `return` after a close. -/
inductive LoopExit where
  | broke
  | returned
  deriving DecidableEq, Repr

namespace SessionImpl

/- A constructed session, before `start`. -/
def init (config : SessionConfig) : SessionImpl :=
  ⟨config, FlatBuffer.empty receiveBufCapacity, .paused, none, false, []⟩

/- `close(reason)` and `do_close`: only the first close takes effect, and pauses receiving. -/
def close
    (s : SessionImpl)
    (reason : String) : SessionImpl :=
  match s.closeReason with
  | some _ => s
  | none => { s with closeReason := some reason, receivingState := .paused }

/- `dispatch_message`. -/
def dispatchMessage
    (s : SessionImpl)
    (m : Message) : SessionImpl :=
  let s1 := { s with dispatched := s.dispatched ++ [m] }
  match closeReasonOf m with
  | some reason => s1.close reason
  | none => s1

/-
  `process_message`: copy the body to the stack (a 256-byte
  array) when it has at most `small_body_size` bytes, to the heap
  when longer, consume the frame, and dispatch.
-/
def processMessage
    (s : SessionImpl)
    (h : Header) : Except Fault SessionImpl :=
  let bodySize := h.commandLength - headerLength
  let consumed := { s with receiveBuf := s.receiveBuf.consume h.commandLength }
  if bodySize ≤ s.config.smallBodySize ∧ bodySize > 0 then
    if bodySize > 256 then .error .stackOverflow
    else
      let body := (s.receiveBuf.bytes.drop headerLength).take bodySize
      .ok (consumed.dispatchMessage ⟨h.commandId, h.commandStatus, h.sequenceNumber, body⟩)
  else if bodySize > 0 then
    let body := (s.receiveBuf.bytes.take h.commandLength).drop headerLength
    .ok (consumed.dispatchMessage ⟨h.commandId, h.commandStatus, h.sequenceNumber, body⟩)
  else .ok (consumed.dispatchMessage ⟨h.commandId, h.commandStatus, h.sequenceNumber, []⟩)

/- The reason `do_receive` closes with for a frame over the limit. -/
def tooLongReason
    (cmdLen maxLen : Nat) : String :=
  "Command length " ++ toString cmdLen ++ " exceeds max " ++ toString maxLen

/- Where a round of the loop leads: out of the loop, or to the next round. -/
inductive Round where
  | exit (how : LoopExit) (s : SessionImpl)
  | next (s : SessionImpl)

/- One round of the `while (true)` loop of `do_receive`. -/
def receiveRound (s : SessionImpl) : Except Fault Round :=
  if s.receivingState ≠ .receiving then .ok (.exit .broke s)
  else if s.receiveBuf.size < headerLength then .ok (.exit .broke s)
  else
    match deserializeHeader (s.receiveBuf.bytes.take headerLength) with
    | .error what => .error (.exception what)
    | .ok h =>
        if h.commandLength > s.config.maxCommandLength then
          .ok (.exit .returned (s.close (tooLongReason h.commandLength s.config.maxCommandLength)))
        else if s.receiveBuf.size < h.commandLength then .ok (.exit .broke s)
        else (s.processMessage h).map .next

/- The `while (true)` loop of `do_receive`, with `fuel` rounds. -/
def receiveLoop : Nat → SessionImpl → Except Fault (LoopExit × SessionImpl)
  | 0, s => .ok (.broke, s)
  | fuel + 1, s =>
      match receiveRound s with
      | .error f => .error f
      | .ok (.exit how s') => .ok (how, s')
      | .ok (.next s') => receiveLoop fuel s'

/-
  `do_receive`: the loop, then settle a pending pause, or prepare
  `64 KiB` and start the next `async_receive`.
-/
def doReceive (s : SessionImpl) : Except Fault SessionImpl :=
  match receiveLoop (s.receiveBuf.size + 1) s with
  | .error f => .error f
  | .ok (.returned, s1) => .ok s1
  | .ok (.broke, s1) =>
      if s1.receivingState = .pendingPause then .ok { s1 with receivingState := .paused }
      else
        match s1.receiveBuf.prepare readSize with
        | .error what => .error (.exception what)
        | .ok buf => .ok { s1 with receiveBuf := buf, reading := true }

------------------------------------------------------------
-- Events
------------------------------------------------------------

/- What happens to a session from outside its receive loop. -/
inductive Event where
  | received (data : List UInt8)
  | failed (message : String)
  | pause
  | resume
  deriving DecidableEq, Repr

/- `pause_receiving`. -/
def pauseReceiving (s : SessionImpl) : SessionImpl :=
  if s.receivingState = .receiving then { s with receivingState := .pendingPause } else s

/- `do_resume_receiving`; `do_start` is the first call. -/
def doResumeReceiving (s : SessionImpl) : Except Fault SessionImpl :=
  let s1 := { s with receivingState := .receiving }
  if s.receivingState = .paused then doReceive s1 else .ok s1

/- One event: a completion of the pending `async_receive`, or a call. -/
def step (s : SessionImpl) : Event → Except Fault SessionImpl
  | .received data =>
      doReceive { s with reading := false, receiveBuf := s.receiveBuf.commit data }
  | .failed message => .ok ({ s with reading := false }.close message)
  | .pause => .ok s.pauseReceiving
  | .resume => s.doResumeReceiving

/- The events one after another, up to the first fault. -/
def run (s : SessionImpl) : List Event → Except Fault SessionImpl
  | [] => .ok s
  | e :: es =>
      match s.step e with
      | .error f => .error f
      | .ok s' => run s' es

/-
  Whether the event can happen now: the socket completes the
  pending read of an open session with between one byte and the
  room offered, and a read that fails must be pending.
-/
def enabled (s : SessionImpl) : Event → Bool
  | .received data =>
      s.reading && s.closeReason.isNone && 0 < data.length &&
        data.length ≤ s.receiveBuf.last - s.receiveBuf.outPos
  | .failed _ => s.reading
  | .pause => true
  | .resume => true

/- Every event is enabled when it happens. -/
def admissible (s : SessionImpl) : List Event → Bool
  | [] => true
  | e :: es =>
      s.enabled e &&
        match s.step e with
        | .error _ => true
        | .ok s' => admissible s' es

theorem admissible_cons_of_step
    {s s' : SessionImpl}
    {e : Event}
    (es : List Event)
    (hStep : s.step e = .ok s') :
    admissible s (e :: es) = (s.enabled e && admissible s' es) := by
  simp [admissible, hStep]

theorem run_cons_of_step
    {s s' : SessionImpl}
    {e : Event}
    (es : List Event)
    (hStep : s.step e = .ok s') :
    run s (e :: es) = run s' es := by
  simp [run, hStep]

/- The bytes an event delivers. -/
@[simp]
def Event.delivered : Event → List UInt8
  | .received data => data
  | _ => []

/- The bytes the events deliver, in order. -/
def receivedBytes (es : List Event) : List UInt8 :=
  (es.map Event.delivered).flatten

------------------------------------------------------------
-- The Receive Loop
------------------------------------------------------------

@[simp]
theorem close_dispatched (s : SessionImpl) (reason : String) :
    (s.close reason).dispatched = s.dispatched := by
  unfold close
  split <;> rfl

@[simp]
theorem close_receiveBuf (s : SessionImpl) (reason : String) :
    (s.close reason).receiveBuf = s.receiveBuf := by
  unfold close
  split <;> rfl

@[simp]
theorem close_config (s : SessionImpl) (reason : String) :
    (s.close reason).config = s.config := by
  unfold close
  split <;> rfl

@[simp]
theorem close_reading (s : SessionImpl) (reason : String) :
    (s.close reason).reading = s.reading := by
  unfold close
  split <;> rfl

/- A message whose handler keeps the session open is only recorded. -/
theorem dispatchMessage_of_keeps
    (s : SessionImpl)
    {m : Message}
    (hKeeps : closeReasonOf m = none) :
    s.dispatchMessage m = { s with dispatched := s.dispatched ++ [m] } := by
  simp [dispatchMessage, hKeeps]

/-
  The loop finds neither a whole frame nor a framing error at the
  front of `bytes`: it waits for more.
-/
def Awaits
    (config : SessionConfig)
    (bytes : List UInt8) : Prop :=
  bytes.length < headerLength ∨
    ∃ h, deserializeHeader (bytes.take headerLength) = .ok h ∧
      h.commandLength ≤ config.maxCommandLength ∧ bytes.length < h.commandLength

variable {s : SessionImpl}

theorem receiveLoop_not_receiving
    (fuel : Nat)
    (hState : s.receivingState ≠ .receiving) :
    receiveLoop (fuel + 1) s = .ok (.broke, s) := by
  unfold receiveLoop receiveRound
  rw [if_pos hState]

/- A loop with nothing whole to process breaks at once. -/
theorem receiveLoop_awaits
    (fuel : Nat)
    (hState : s.receivingState = .receiving)
    (hAwaits : Awaits s.config s.receiveBuf.bytes) :
    receiveLoop (fuel + 1) s = .ok (.broke, s) := by
  rcases hAwaits with hShort | ⟨h, hHeader, hMax, hPartial⟩
  · simp [receiveLoop, receiveRound, hState, FlatBuffer.size, hShort]
  · have hLong : ¬ s.receiveBuf.size < headerLength := by
      have := headerLength_le_of_deserializeHeader hHeader
      simp only [List.length_take] at this
      simp only [FlatBuffer.size]
      omega
    simp [receiveLoop, receiveRound, hState, hLong, hHeader, not_lt.mpr hMax, FlatBuffer.size,
      hPartial]

/-
  `process_message` on a frame at the front of the buffer: each of
  the three copies gives the frame's body, and the frame is
  consumed.
-/
theorem processMessage_frame
    (m : Message)
    (rest : List UInt8)
    (hBytes : s.receiveBuf.bytes = m.frame ++ rest)
    (hSmall : s.config.smallBodySize ≤ 256) :
    s.processMessage ⟨headerLength + m.body.length, m.commandId, m.commandStatus,
        m.sequenceNumber⟩ =
      .ok ({ s with receiveBuf := s.receiveBuf.consume (headerLength + m.body.length) }.dispatchMessage m) := by
  have hDrop : s.receiveBuf.bytes.drop headerLength = m.body ++ rest := by
    simp [hBytes, Message.frame, List.drop_append_of_le_length]
  have hStack : (s.receiveBuf.bytes.drop headerLength).take m.body.length = m.body := by
    simp [hDrop]
  have hHeap : (s.receiveBuf.bytes.take (headerLength + m.body.length)).drop headerLength =
      m.body := by
    rw [List.drop_take, hDrop, Nat.add_sub_cancel_left]
    simp
  simp only [processMessage, Nat.add_sub_cancel_left, hStack, hHeap]
  split_ifs with hStackPath hOver hHeapPath
  · omega
  · rfl
  · rfl
  · have hEmpty : m.body = [] := List.length_eq_zero.mp (by omega)
    rw [← hEmpty]

/- A whole frame that keeps the session open is dispatched and consumed. -/
theorem receiveLoop_frame
    (fuel : Nat)
    (m : Message)
    (rest : List UInt8)
    (hState : s.receivingState = .receiving)
    (hBytes : s.receiveBuf.bytes = m.frame ++ rest)
    (hMax : headerLength + m.body.length ≤ s.config.maxCommandLength)
    (hLen32 : headerLength + m.body.length < 2 ^ 32)
    (hSeq : m.sequenceNumber < 2 ^ 32)
    (hKeeps : closeReasonOf m = none)
    (hSmall : s.config.smallBodySize ≤ 256) :
    receiveLoop (fuel + 1) s =
      receiveLoop fuel { s with
        receiveBuf := s.receiveBuf.consume (headerLength + m.body.length)
        dispatched := s.dispatched ++ [m] } := by
  have hHeader : deserializeHeader (s.receiveBuf.bytes.take headerLength) =
      .ok ⟨headerLength + m.body.length, m.commandId, m.commandStatus, m.sequenceNumber⟩ := by
    rw [hBytes, List.take_append_of_le_length (by simp)]
    exact m.deserializeHeader_frame hLen32 hSeq
  have hSize : s.receiveBuf.size = headerLength + m.body.length + rest.length := by
    simp [FlatBuffer.size, hBytes]
  have hLong : ¬ s.receiveBuf.size < headerLength := by omega
  have hWhole : ¬ s.receiveBuf.size < headerLength + m.body.length := by omega
  simp only [receiveLoop, receiveRound, hState, ne_eq, not_true_eq_false, if_false, hLong,
    hHeader, not_lt.mpr hMax, hWhole, processMessage_frame m rest hBytes hSmall,
    dispatchMessage_of_keeps _ hKeeps, Except.map]

/- Resuming a paused session runs `do_receive`. -/
theorem doResumeReceiving_paused
    (hPaused : s.receivingState = .paused) :
    s.doResumeReceiving = doReceive { s with receivingState := .receiving } := by
  unfold doResumeReceiving
  rw [if_pos hPaused]

/- `do_receive` with nothing whole buffered reads on, when `prepare` finds room. -/
theorem doReceive_reads
    {buf : FlatBuffer}
    (hState : s.receivingState = .receiving)
    (hAwaits : Awaits s.config s.receiveBuf.bytes)
    (hPrepare : s.receiveBuf.prepare readSize = .ok buf) :
    doReceive s = .ok { s with receiveBuf := buf, reading := true } := by
  simp only [doReceive, receiveLoop_awaits _ hState hAwaits, hState, hPrepare]
  rfl

/- `do_receive` with nothing whole buffered throws what `prepare` throws. -/
theorem doReceive_overflows
    {what : String}
    (hState : s.receivingState = .receiving)
    (hAwaits : Awaits s.config s.receiveBuf.bytes)
    (hPrepare : s.receiveBuf.prepare readSize = .error what) :
    doReceive s = .error (.exception what) := by
  simp only [doReceive, receiveLoop_awaits _ hState hAwaits, hState, hPrepare]
  rfl

------------------------------------------------------------
-- Framing Errors
------------------------------------------------------------

/-
  A header declaring a length below `header_length`: the read that
  completes it makes `deserialize_header` throw, outside every
  `try` of the session.
-/
theorem short_length_field_escapes :
    admissible (init SessionConfig.defaults)
        [.resume, .received [0, 0, 0, 0, 4, 0, 0, 0, 0, 1]] = true ∧
      run (init SessionConfig.defaults) [.resume, .received [0, 0, 0, 0, 4, 0, 0, 0, 0, 1]] =
        .error (.exception "Invalid command_length") :=
  ⟨rfl, rfl⟩

/- Reads of `64 KiB` each of `bytes`, the `k`-th to the `k + n - 1`-th. -/
def fullReads
    (bytes : List UInt8)
    (k n : Nat) : List Event :=
  (List.range' k n).map fun i => .received ((bytes.drop (i * readSize)).take readSize)

/- Full reads deliver the bytes from the `k`-th read on, in order. -/
theorem receivedBytes_fullReads
    (bytes : List UInt8)
    (k n : Nat) :
    receivedBytes (fullReads bytes k n) = (bytes.drop (k * readSize)).take (n * readSize) := by
  induction n generalizing k with
  | zero => rfl
  | succ n ih =>
      have hRest := ih (k + 1)
      simp only [fullReads, List.range'_succ, List.map_cons] at hRest ⊢
      simp only [receivedBytes, List.map_cons, List.flatten_cons, Event.delivered] at hRest ⊢
      rw [hRest, Nat.succ_mul n, Nat.add_comm (n * readSize), List.take_add, List.drop_drop,
        Nat.succ_mul k]

section Overflow

variable {bytes : List UInt8}
variable {h : Header}
variable (hHeader : deserializeHeader (bytes.take headerLength) = .ok h)
variable (hMax : h.commandLength ≤ s.config.maxCommandLength)
variable (hBig : receiveBufCapacity < h.commandLength)
variable (hLen : receiveBufCapacity ≤ bytes.length)

/- The buffer after `k` full reads of a frame longer than the buffer. -/
def partialFrame
    (bytes : List UInt8)
    (k : Nat) : FlatBuffer :=
  ⟨receiveBufCapacity, bytes.take (k * readSize), k * readSize, k * readSize + readSize⟩

include hHeader hMax hBig hLen in
/-
  One more full read of a frame longer than the buffer: the loop
  waits for the rest, and `prepare` finds room until the buffer is
  full.
-/
theorem step_fullRead
    (k : Nat)
    (hK : k < 16)
    (hState : s.receivingState = .receiving)
    (hOpen : s.closeReason = none)
    (hReading : s.reading = true)
    (hBuf : s.receiveBuf = partialFrame bytes k) :
    s.enabled (.received ((bytes.drop (k * readSize)).take readSize)) = true ∧
      s.step (.received ((bytes.drop (k * readSize)).take readSize)) =
        if k + 1 < 16 then .ok { s with receiveBuf := partialFrame bytes (k + 1) }
        else .error (.exception "flat_buffer::prepare buffer overflow") := by
  have hRoom : (k + 1) * readSize ≤ bytes.length := by
    simp only [receiveBufCapacity, readSize] at hLen ⊢
    omega
  have hChunk : ((bytes.drop (k * readSize)).take readSize).length = readSize := by
    simp only [List.length_take, List.length_drop, Nat.succ_mul] at hRoom ⊢
    omega
  have hCommit : s.receiveBuf.commit ((bytes.drop (k * readSize)).take readSize) =
      ⟨receiveBufCapacity, bytes.take ((k + 1) * readSize), (k + 1) * readSize,
        (k + 1) * readSize⟩ := by
    simp only [FlatBuffer.commit, hBuf, partialFrame, hChunk, Nat.add_sub_cancel_left,
      min_self, Nat.succ_mul, List.take_add, List.take_take]
  have hAwaits : Awaits s.config (bytes.take ((k + 1) * readSize)) := by
    refine .inr ⟨h, ?_, hMax, ?_⟩
    · rwa [List.take_take, min_eq_left (by simp [headerLength, readSize]; omega)]
    · simp only [List.length_take, receiveBufCapacity, readSize] at hBig ⊢
      omega
  refine ⟨?_, ?_⟩
  · simp only [enabled, hReading, hOpen, hBuf, partialFrame, hChunk, Nat.add_sub_cancel_left]
    decide
  have hWaits : Awaits s.config
      (s.receiveBuf.commit ((bytes.drop (k * readSize)).take readSize)).bytes := by
    rw [hCommit]
    exact hAwaits
  by_cases hMore : k + 1 < 16
  · have hFits : readSize ≤ receiveBufCapacity - (k + 1) * readSize := by
      simp only [receiveBufCapacity, readSize]
      omega
    have hPrepare : (s.receiveBuf.commit ((bytes.drop (k * readSize)).take readSize)).prepare
        readSize = .ok (partialFrame bytes (k + 1)) := by
      rw [hCommit, FlatBuffer.prepare, if_pos hFits]
      rfl
    rw [if_pos hMore, step, doReceive_reads (s := { s with
      reading := false
      receiveBuf := s.receiveBuf.commit ((bytes.drop (k * readSize)).take readSize) })
      hState hWaits hPrepare]
    cases s
    cases hReading
    rfl
  · have hOver : readSize > receiveBufCapacity - (k + 1) * readSize := by
      simp only [receiveBufCapacity, readSize]
      omega
    have hPrepare : (s.receiveBuf.commit ((bytes.drop (k * readSize)).take readSize)).prepare
        readSize = .error "flat_buffer::prepare buffer overflow" := by
      rw [hCommit, FlatBuffer.prepare, if_neg (not_le.mpr hOver), FlatBuffer.size, List.length_take,
        min_eq_left hRoom, if_pos hOver]
    rw [if_neg hMore, step, doReceive_overflows (s := { s with
      reading := false
      receiveBuf := s.receiveBuf.commit ((bytes.drop (k * readSize)).take readSize) })
      hState hWaits hPrepare]

include hHeader hMax hBig hLen in
/- The full reads from the `k`-th on: each is enabled, and the sixteenth throws. -/
theorem run_fullReads
    (j k : Nat)
    (hK : k + j = 15)
    (hState : s.receivingState = .receiving)
    (hOpen : s.closeReason = none)
    (hReading : s.reading = true)
    (hBuf : s.receiveBuf = partialFrame bytes k) :
    admissible s (fullReads bytes k (j + 1)) = true ∧
      run s (fullReads bytes k (j + 1)) =
        .error (.exception "flat_buffer::prepare buffer overflow") := by
  induction j generalizing k s with
  | zero =>
      obtain ⟨hEnabled, hStep⟩ :=
        step_fullRead hHeader hMax hBig hLen k (by omega) hState hOpen hReading hBuf
      rw [if_neg (by omega)] at hStep
      simp [fullReads, admissible, run, hEnabled, hStep]
  | succ j ih =>
      obtain ⟨hEnabled, hStep⟩ :=
        step_fullRead hHeader hMax hBig hLen k (by omega) hState hOpen hReading hBuf
      rw [if_pos (by omega)] at hStep
      have hRest := ih (s := { s with receiveBuf := partialFrame bytes (k + 1) })
        hMax (k + 1) (by omega) hState hOpen hReading rfl
      have hReads : fullReads bytes k (j + 1 + 1) =
          .received ((bytes.drop (k * readSize)).take readSize) :: fullReads bytes (k + 1) (j + 1) := by
        simp [fullReads, List.range'_succ]
      rw [hReads]
      simp only [admissible, run, hEnabled, hStep, Bool.true_and]
      exact hRest

end Overflow

/-
  A frame longer than `receive_buf_` whose length passes the check
  against `max_command_length`, read in full reads of `64 KiB`
  from a started session: the sixteenth read fills the buffer, and
  `prepare` throws out of `do_receive`.
-/
theorem oversized_frame_overflows
    {config : SessionConfig}
    {bytes : List UInt8}
    {h : Header}
    (hHeader : deserializeHeader (bytes.take headerLength) = .ok h)
    (hMax : h.commandLength ≤ config.maxCommandLength)
    (hBig : receiveBufCapacity < h.commandLength)
    (hLen : receiveBufCapacity ≤ bytes.length) :
    admissible (init config) (.resume :: fullReads bytes 0 16) = true ∧
      run (init config) (.resume :: fullReads bytes 0 16) =
        .error (.exception "flat_buffer::prepare buffer overflow") := by
  have hPrepare : (FlatBuffer.empty receiveBufCapacity).prepare readSize =
      .ok (partialFrame bytes 0) := by
    simp [FlatBuffer.prepare, FlatBuffer.empty, partialFrame, receiveBufCapacity, readSize]
  have hStart : (init config).step .resume =
      .ok { init config with
        receivingState := .receiving
        reading := true
        receiveBuf := partialFrame bytes 0 } := by
    rw [step, doResumeReceiving_paused rfl]
    exact doReceive_reads (s := { init config with receivingState := .receiving }) rfl
      (.inl (by simp [init, FlatBuffer.empty, headerLength])) hPrepare
  obtain ⟨hAdmissible, hRun⟩ := run_fullReads hHeader (s := { init config with
      receivingState := .receiving
      reading := true
      receiveBuf := partialFrame bytes 0 })
    hMax hBig hLen 15 0 rfl rfl rfl rfl rfl
  rw [admissible_cons_of_step _ hStart, run_cons_of_step _ hStart]
  exact ⟨hAdmissible, hRun⟩

end SessionImpl

end Net

end Networking

end Vex
