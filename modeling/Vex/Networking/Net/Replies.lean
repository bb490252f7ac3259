import Vex.Networking.Net.SendBuffers

/-
  The replies `handle_request` queues itself (`net/session_impl.inl`):
  an `enquire_link_resp` for an `enquire_link_req`, and an
  `unbind_resp` for an `unbind_req`, each through `send_command`
  with the request's sequence number.

  `send_command` takes a sequence number of 0 to mean "allocate
  one": it then draws `next_sequence_number()`, which never gives
  0, and advances the session's counter.  A reply therefore echoes
  the request's sequence number, and leaves the counter alone,
  for every `uint32_t` but 0.

  Main declarations:
    * `requestReplies`
    * `serializeHeader_seq_inj`
    * `request_reply_echoes_sequence_number`
-/

------------------------------------------------------------
-- Replies
------------------------------------------------------------

namespace Vex

namespace Networking

namespace Net

/- The send-path events of `handle_request` for a request it answers itself. -/
def requestReplies (m : Message) : List SendEvent :=
  if m.commandId = CommandId.enquireLinkReq then
    [.sendCommand CommandId.enquireLinkResp m.sequenceNumber CommandStatus.rok]
  else if m.commandId = CommandId.unbindReq then [.unbindRequest m.sequenceNumber]
  else []

namespace SendBuffers

/- `next_sequence_number` gives a nonzero `uint32_t`. -/
theorem nextSequenceNumber_bounds (n : Nat) :
    0 < nextSequenceNumber n ∧ nextSequenceNumber n < 2 ^ 32 := by
  unfold nextSequenceNumber
  split_ifs with hWrap
  · decide
  · exact ⟨Nat.pos_of_ne_zero hWrap, Nat.mod_lt _ (by decide)⟩

@[simp]
theorem doSend_sequenceNumber (b : SendBuffers) : b.doSend.sequenceNumber = b.sequenceNumber := by
  unfold doSend
  split_ifs <;> rfl

@[simp]
theorem close_sequenceNumber (b : SendBuffers) : b.close.sequenceNumber = b.sequenceNumber := by
  unfold close doClose
  split_ifs <;> rfl

/- `send_command` moves the counter exactly when it draws a sequence number. -/
@[simp]
theorem sendCommand_sequenceNumber
    (b : SendBuffers)
    (cmdId : UInt8)
    (seqNum : Nat)
    (status : UInt8) :
    (b.sendCommand cmdId seqNum status).sequenceNumber =
      if seqNum = 0 then nextSequenceNumber b.sequenceNumber else b.sequenceNumber := by
  simp only [sendCommand, doSend_sequenceNumber, chooseSequence]
  split_ifs <;> rfl

@[simp]
theorem unbindRequest_sequenceNumber
    (b : SendBuffers)
    (seqNum : Nat) :
    (b.unbindRequest seqNum).sequenceNumber =
      if seqNum = 0 then nextSequenceNumber b.sequenceNumber else b.sequenceNumber := by
  unfold unbindRequest
  dsimp only
  rw [close_sequenceNumber, sendCommand_sequenceNumber]
  split_ifs <;> rfl

/- A run of one event: its state and the frame it appends. -/
theorem run_singleton
    (b : SendBuffers)
    (e : SendEvent) :
    b.run [e] = (b.step e, b.appended e) := by
  simp [run]

end SendBuffers

/- A header written for one length, id and status tells its sequence number. -/
theorem serializeHeader_seq_inj
    {cmdLen seqNum seqNum' : Nat}
    {cmdId status : UInt8}
    (hLen : headerLength ≤ cmdLen)
    (hLen32 : cmdLen < 2 ^ 32)
    (hSeq : seqNum < 2 ^ 32)
    (hSeq' : seqNum' < 2 ^ 32)
    (hEq : serializeHeader cmdLen cmdId seqNum status =
      serializeHeader cmdLen cmdId seqNum' status) :
    seqNum = seqNum' := by
  have hRead := congrArg (fun l => deserializeHeader (l ++ [])) hEq
  simp only [deserializeHeader_serializeHeader cmdId status [] hLen hLen32 hSeq,
    deserializeHeader_serializeHeader cmdId status [] hLen hLen32 hSeq', Except.ok.injEq,
    Header.mk.injEq] at hRead
  exact hRead.2.2.2

/-
  `send_command(reply, seq_num)` from a request with a `uint32_t`
  sequence number appends exactly the reply's header with that
  number, and keeps the counter, exactly when the number is not 0.
-/
theorem reply_echoes_iff
    (b : SendBuffers)
    (reply : UInt8)
    {seqNum : Nat}
    (hSeq : seqNum < 2 ^ 32)
    {e : SendEvent}
    (hAppended : b.appended e =
      serializeHeader headerLength reply (SendBuffers.chooseSequence b.sequenceNumber seqNum)
        CommandStatus.rok)
    (hCounter : (b.step e).sequenceNumber =
      if seqNum = 0 then SendBuffers.nextSequenceNumber b.sequenceNumber else b.sequenceNumber) :
    ((b.run [e]).2 = serializeHeader headerLength reply seqNum CommandStatus.rok ∧
        (b.run [e]).1.sequenceNumber = b.sequenceNumber) ↔
      seqNum ≠ 0 := by
  rw [SendBuffers.run_singleton, hAppended, hCounter]
  by_cases hZero : seqNum = 0
  · subst hZero
    have hNext := SendBuffers.nextSequenceNumber_bounds b.sequenceNumber
    simp only [SendBuffers.chooseSequence, if_true, ne_eq, not_true_eq_false, iff_false, not_and]
    intro hFrame
    have := serializeHeader_seq_inj (le_refl _) (by decide) hNext.2 (by decide) hFrame
    omega
  · simp [SendBuffers.chooseSequence, hZero]

/-
  For every `enquire_link_req` and every `unbind_req` with a
  `uint32_t` sequence number, `handle_request` queues exactly one
  reply frame carrying that number and leaves the session's counter
  unchanged if and only if the number is not 0.
-/
theorem request_reply_echoes_sequence_number
    (b : SendBuffers)
    (status : UInt8)
    (body : List UInt8)
    {seqNum : Nat}
    (hSeq : seqNum < 2 ^ 32) :
    (((b.run (requestReplies ⟨CommandId.enquireLinkReq, status, seqNum, body⟩)).2 =
            serializeHeader headerLength CommandId.enquireLinkResp seqNum CommandStatus.rok ∧
          (b.run (requestReplies ⟨CommandId.enquireLinkReq, status, seqNum, body⟩)).1.sequenceNumber =
            b.sequenceNumber) ↔
        seqNum ≠ 0) ∧
      (((b.run (requestReplies ⟨CommandId.unbindReq, status, seqNum, body⟩)).2 =
            serializeHeader headerLength CommandId.unbindResp seqNum CommandStatus.rok ∧
          (b.run (requestReplies ⟨CommandId.unbindReq, status, seqNum, body⟩)).1.sequenceNumber =
            b.sequenceNumber) ↔
        seqNum ≠ 0) :=
  ⟨reply_echoes_iff b _ hSeq rfl (SendBuffers.sendCommand_sequenceNumber _ _ _ _),
    reply_echoes_iff b _ hSeq rfl (SendBuffers.unbindRequest_sequenceNumber _ _)⟩

/- An `enquire_link_req` with sequence number 0 to a new session: the reply carries 1. -/
theorem enquire_link_zero_answered_with_one :
    (0 : Nat) < 2 ^ 32 ∧
      ((((SendBuffers.init.run
              (requestReplies ⟨CommandId.enquireLinkReq, CommandStatus.rok, 0, []⟩)).2 =
            serializeHeader headerLength CommandId.enquireLinkResp 0 CommandStatus.rok ∧
          (SendBuffers.init.run
              (requestReplies ⟨CommandId.enquireLinkReq, CommandStatus.rok, 0, []⟩)).1.sequenceNumber =
            SendBuffers.init.sequenceNumber) ↔
          (0 : Nat) ≠ 0) ∧
        (((SendBuffers.init.run
              (requestReplies ⟨CommandId.unbindReq, CommandStatus.rok, 0, []⟩)).2 =
            serializeHeader headerLength CommandId.unbindResp 0 CommandStatus.rok ∧
          (SendBuffers.init.run
              (requestReplies ⟨CommandId.unbindReq, CommandStatus.rok, 0, []⟩)).1.sequenceNumber =
            SendBuffers.init.sequenceNumber) ↔
          (0 : Nat) ≠ 0)) ∧
      (SendBuffers.init.run
          (requestReplies ⟨CommandId.enquireLinkReq, CommandStatus.rok, 0, []⟩)).2 =
        serializeHeader headerLength CommandId.enquireLinkResp 1 CommandStatus.rok :=
  ⟨by decide, request_reply_echoes_sequence_number SendBuffers.init CommandStatus.rok [] (by decide),
    rfl⟩

end Net

end Networking

end Vex
