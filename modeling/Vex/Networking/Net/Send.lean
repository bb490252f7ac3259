import Vex.Networking.Net.Chunking

/-
  The send path of `basic_session_impl` as far as
  `pending_send_buf_` (`do_send_impl`, `net/session_state.hpp`),
  and what the peer's receive loop makes of the frame appended.

  `do_send_impl` appends a header and the serialized PDU; the
  header's length is the number of bytes appended, a `size_t`
  passed to the `uint32_t` parameter of `serialize_header`.  The
  backpressure check and `do_send` that follow move bytes from
  `pending_send_buf_` to the socket in order, and are not modelled.

  Key definitions include:
    * `SessionState`, `doSendImpl`

  Key theorems include:
    * `doSendImpl_frame`, `closeReasonOf_sent`
    * `sent_frame_is_dispatched`
-/

------------------------------------------------------------
-- do_send_impl
------------------------------------------------------------

namespace Vex

namespace Networking

namespace Net

/- The `session_state` classes, by what `do_send_impl` asks of them. -/
inductive SessionState where
  | openState
  | unbindingState
  | closedState
  deriving DecidableEq, Repr

/- `session_state::can_send`. -/
def SessionState.canSend : SessionState → Bool
  | .openState => true
  | .unbindingState => false
  | .closedState => false

/-
  `do_send_impl(pdu, seq_num, status)`: the new
  `pending_send_buf_`, or the exception of `serialize_to`, which
  it rethrows after restoring the buffer.  A state that cannot
  send reports to the error handler and leaves the buffer.
-/
def doSendImpl
    (state : SessionState)
    (pending : List UInt8)
    (pdu : Pdu)
    (seqNum : Nat)
    (status : UInt8) : Except String (List UInt8) :=
  if !state.canSend then .ok pending
  else
    match pdu.serializeTo with
    | .error what => .error what
    | .ok body =>
        let cmdLen := headerLength + body.length
        .ok (pending ++ serializeHeader (cmdLen % 2 ^ 32) pdu.commandIdOf seqNum status ++ body)

/-
  In `Open`, an accepted PDU appends exactly one frame, whose
  length field counts the bytes appended while they fit 32 bits.
-/
theorem doSendImpl_frame
    (pending : List UInt8)
    {pdu : Pdu}
    {body : List UInt8}
    (seqNum : Nat)
    (status : UInt8)
    (hBody : pdu.serializeTo = .ok body)
    (hLen : headerLength + body.length < 2 ^ 32) :
    doSendImpl .openState pending pdu seqNum status =
      .ok (pending ++ (⟨pdu.commandIdOf, status, seqNum, body⟩ : Message).frame) := by
  rw [doSendImpl, if_neg (by decide), hBody]
  dsimp only
  rw [Nat.mod_eq_of_lt hLen, Message.frame, List.append_assoc]

------------------------------------------------------------
-- The Peer's Receive Loop
------------------------------------------------------------

/- A `c_octet_str` the sender wrote decodes, whatever follows its NUL. -/
theorem cOctetStrDeserialize_terminated
    {maxLen : Nat}
    (name : String)
    {val : List UInt8}
    (rest : List UInt8)
    (hLen : val.length < maxLen) :
    ∃ r, cOctetStrDeserialize maxLen name (val ++ 0 :: rest) = .ok r := by
  have hStop : ((val ++ 0 :: rest).takeWhile (· ≠ 0)).length ≤ val.length := by
    induction val with
    | nil => simp
    | cons a val ih =>
        by_cases ha : a = 0
        · simp [ha]
        · simp only [List.cons_append, List.takeWhile_cons, ne_eq, ha, not_false_eq_true,
            decide_True, List.length_cons]
          exact Nat.succ_le_succ (ih (by simp at hLen; omega))
  simp only [cOctetStrDeserialize]
  rw [if_neg (by rw [List.length_append, List.length_cons]; omega), if_neg (by omega)]
  exact ⟨_, rfl⟩

/- The peer's handler never closes the session over a PDU `do_send_impl` accepted. -/
theorem closeReasonOf_sent
    {pdu : Pdu}
    {body : List UInt8}
    (status : UInt8)
    (seqNum : Nat)
    (hBody : pdu.serializeTo = .ok body) :
    closeReasonOf ⟨pdu.commandIdOf, status, seqNum, body⟩ = none := by
  cases pdu with
  | bindRequest systemId =>
      simp only [Pdu.serializeTo, cOctetStrSerialize] at hBody
      split_ifs at hBody with hLen
      cases hBody
      obtain ⟨r, hr⟩ := cOctetStrDeserialize_terminated "system_id" [] (not_le.mp hLen)
      simp [closeReasonOf, handleRequest, deserializeBindRequest, hr, Except.map,
        Pdu.commandIdOf, isResponse, CommandId.bindReq, CommandId.enquireLinkReq,
        CommandId.unbindReq, show (1 : UInt8) &&& 128 = 0 by decide]
  | bindResponse systemId =>
      simp only [Pdu.serializeTo, cOctetStrSerialize] at hBody
      split_ifs at hBody with hLen
      cases hBody
      obtain ⟨r, hr⟩ := cOctetStrDeserialize_terminated "system_id" [] (not_le.mp hLen)
      simp [closeReasonOf, handleResponse, deserializeBindResponse, hr, Except.map,
        Pdu.commandIdOf, isResponse, CommandId.bindResp, CommandId.enquireLinkResp,
        CommandId.unbindResp, show (129 : UInt8) &&& 128 ≠ 0 by decide]
  | streamRequest messageBody =>
      simp [closeReasonOf, handleRequest, Pdu.commandIdOf, isResponse, CommandId.streamReq,
        CommandId.enquireLinkReq, CommandId.unbindReq, CommandId.bindReq,
        show (2 : UInt8) &&& 128 = 0 by decide]
  | streamResponse messageBody =>
      simp [closeReasonOf, handleResponse, Pdu.commandIdOf, isResponse, CommandId.streamResp,
        CommandId.enquireLinkResp, CommandId.unbindResp, CommandId.bindResp,
        show (130 : UInt8) &&& 128 ≠ 0 by decide]

/-
  A PDU accepted in `Open` whose frame fits `max_command_length`
  and `1 MiB - 64 KiB + 1`: however the peer's reads split the
  frame and however its receiving is paused and resumed, no fault
  escapes, and once receiving is not paused the peer has
  dispatched the frame once, with the command id, status,
  sequence number and body sent.
-/
theorem sent_frame_is_dispatched
    {config : SessionConfig}
    (hSmall : config.smallBodySize ≤ 256)
    {pdu : Pdu}
    {seqNum : Nat}
    {status : UInt8}
    {frame : List UInt8}
    (hSeq : seqNum < 2 ^ 32)
    (hSent : doSendImpl .openState [] pdu seqNum status = .ok frame)
    (hMax : frame.length ≤ config.maxCommandLength)
    (hRoom : frame.length ≤ receiveBufCapacity - readSize + 1)
    (events : List SessionImpl.Event)
    (hAdmissible : SessionImpl.admissible (SessionImpl.init config) events = true)
    (hBytes : SessionImpl.receivedBytes events = frame) :
    ∃ body s, pdu.serializeTo = .ok body ∧
      SessionImpl.run (SessionImpl.init config) events = .ok s ∧
      (s.receivingState ≠ .paused → s.dispatched = [⟨pdu.commandIdOf, status, seqNum, body⟩]) := by
  cases hBody : pdu.serializeTo with
  | error what => simp [doSendImpl, SessionState.canSend, hBody] at hSent
  | ok body =>
      have hLength : frame.length = headerLength + body.length := by
        simp [doSendImpl, SessionState.canSend, hBody] at hSent
        simp [← hSent]
      have hWell : ∀ m ∈ [(⟨pdu.commandIdOf, status, seqNum, body⟩ : Message)],
          SessionImpl.WellFormed config m := by
        simp only [List.mem_singleton, forall_eq]
        exact ⟨hLength ▸ hMax, hLength ▸ hRoom, hSeq, closeReasonOf_sent status seqNum hBody⟩
      have hFrame : frame = SessionImpl.frameBytes [⟨pdu.commandIdOf, status, seqNum, body⟩] := by
        have := doSendImpl_frame [] seqNum status hBody ((hWell _ (List.mem_singleton_self _)).length_lt)
        rw [hSent, Except.ok.injEq] at this
        simp [this]
      obtain ⟨s, hRun, hTracks⟩ := (SessionImpl.tracks_init config _).run hSmall hWell events
        hAdmissible ⟨[], by rw [List.append_nil, List.nil_append, hBytes, hFrame]⟩
      rw [List.nil_append, hBytes, hFrame] at hTracks
      exact ⟨body, s, rfl, hRun, hTracks.dispatched_eq hWell⟩

/- A `stream_request` carrying "hi", sent as sequence number 3 and read in two pieces. -/
theorem hi_request_is_dispatched :
    ∃ frame, doSendImpl .openState [] (.streamRequest [104, 105]) 3 CommandStatus.rok = .ok frame ∧
      SessionImpl.admissible (SessionImpl.init SessionConfig.defaults)
        [.resume, .received (frame.take 4), .received (frame.drop 4)] = true ∧
      ∃ body s, (Pdu.streamRequest [104, 105]).serializeTo = .ok body ∧
        SessionImpl.run (SessionImpl.init SessionConfig.defaults)
          [.resume, .received (frame.take 4), .received (frame.drop 4)] = .ok s ∧
        (s.receivingState ≠ .paused →
          s.dispatched = [⟨CommandId.streamReq, CommandStatus.rok, 3, body⟩]) :=
  ⟨_, rfl, by decide, @sent_frame_is_dispatched SessionConfig.defaults (by decide)
    (.streamRequest [104, 105]) 3 CommandStatus.rok _ (by decide) rfl (by decide) (by decide)
    _ (by decide) (by decide)⟩

/-
  A `stream_request` whose frame is longer than `receive_buf_` but
  within `max_command_length`: `do_send_impl` appends it whole,
  and the peer's sixteenth full read of it fills `receive_buf_`,
  so `prepare` throws out of `do_receive`.
-/
theorem oversized_request_overflows
    {config : SessionConfig}
    (body : List UInt8)
    (seqNum : Nat)
    (status : UInt8)
    (hSeq : seqNum < 2 ^ 32)
    (hMax : headerLength + body.length ≤ config.maxCommandLength)
    (hBig : receiveBufCapacity < headerLength + body.length)
    (hLen32 : headerLength + body.length < 2 ^ 32) :
    ∃ frame events,
      doSendImpl .openState [] (.streamRequest body) seqNum status = .ok frame ∧
        SessionImpl.admissible (SessionImpl.init config) events = true ∧
        SessionImpl.receivedBytes events <+: frame ∧
        SessionImpl.run (SessionImpl.init config) events =
          .error (.exception "flat_buffer::prepare buffer overflow") := by
  have hSent := doSendImpl_frame [] seqNum status (Pdu.serializeTo_streamRequest body) hLen32
  rw [List.nil_append] at hSent
  obtain ⟨hAdmissible, hRun⟩ := SessionImpl.oversized_frame_overflows
    (Message.deserializeHeader_frame ⟨_, status, seqNum, body⟩ hLen32 hSeq) hMax hBig
    (by rw [Message.length_frame]; exact hBig.le)
  refine ⟨_, _, hSent, hAdmissible, ?_, hRun⟩
  simp only [SessionImpl.receivedBytes_cons, SessionImpl.Event.delivered, List.nil_append,
    SessionImpl.receivedBytes_fullReads, Nat.zero_mul, List.drop_zero]
  exact List.take_prefix _ _

/-
  Under the default configuration, a `stream_request` whose frame
  is exactly `max_command_length` long: `do_send_impl` appends it
  whole and the peer's length check admits it, but the peer's
  sixteenth full read fills `receive_buf_`, and `prepare` throws
  out of `do_receive`.
-/
theorem max_length_frame_overflows :
    ∃ frame events,
      doSendImpl .openState [] (.streamRequest (List.replicate (10 * 1024 * 1024 - 10) 0)) 1
          CommandStatus.rok = .ok frame ∧
        SessionImpl.admissible (SessionImpl.init SessionConfig.defaults) events = true ∧
        SessionImpl.receivedBytes events <+: frame ∧
        SessionImpl.run (SessionImpl.init SessionConfig.defaults) events =
          .error (.exception "flat_buffer::prepare buffer overflow") :=
  oversized_request_overflows _ 1 CommandStatus.rok (by decide)
    (by rw [List.length_replicate]; decide) (by rw [List.length_replicate]; decide)
    (by rw [List.length_replicate]; decide)

end Net

end Networking

end Vex
