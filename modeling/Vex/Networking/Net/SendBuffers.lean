import Vex.Networking.Net.Send

/-
  The two send buffers of `basic_session_impl`
  (`net/session_impl.inl`, `net/session_impl.hpp`): calls append
  to `pending_send_buf_`, and `do_send`, when no write is in
  flight, swaps it with `writing_send_buf_` and passes that to
  `async_write`.  `close` and `do_close` shut the socket down.

  The transport is seen through the `async_write` calls in flight
  and the buffers passed to `async_write`, in issue order.
  `do_send_impl` is modelled as the code writes it: grow the
  buffer by a header, serialize after it, truncate back when the
  serializer throws, else copy the header in.  The backpressure
  calls and `send_buf_available_handler_` leave the buffers alone;
  a send the handler makes comes after the swap, and is the next
  call here.  Metrics, timers and handlers are not modelled.

  Key definitions include:
    * `SendBuffers`, `SendBuffers.doSend`
    * `SendBuffers.doSendImplCall`, `SendBuffers.sendCommand`
    * `SendBuffers.close`, `SendBuffers.doClose`
    * `SendEvent`, `SendBuffers.step`, `SendBuffers.run`

  Key theorems include:
    * `SendBuffers.doSendImplCall_pending`
    * `SendBuffers.Flow.step`
    * `send_buffers_keep_byte_order`
    * `queued_reply_is_dropped_at_close`
-/

------------------------------------------------------------
-- State
------------------------------------------------------------

namespace Vex

namespace Networking

namespace Net

/- `session_state::can_unbind`. -/
def SessionState.canUnbind : SessionState → Bool
  | .openState => true
  | .unbindingState => false
  | .closedState => false

/-
  The fields of `basic_session_impl` the send path reads, the
  `async_write` calls in flight, and every buffer passed to
  `async_write`, in issue order.
-/
structure SendBuffers where
  state : SessionState
  sequenceNumber : Nat
  writing : List UInt8
  pending : List UInt8
  inFlight : List (List UInt8)
  issued : List (List UInt8)
  closeInitiated : Bool
  shutDown : Bool

namespace SendBuffers

/- A session as constructed: open, with both buffers empty. -/
def init : SendBuffers :=
  ⟨.openState, 0, [], [], [], [], false, false⟩

/-
  `next_sequence_number`: the next `uint32_t`, skipping 0; the
  counter and the value returned.
-/
def nextSequenceNumber (n : Nat) : Nat :=
  if (n + 1) % 2 ^ 32 = 0 then 1 else (n + 1) % 2 ^ 32

/- The sequence number `send_command` uses: `seq_num`, or the next one for 0. -/
def chooseSequence
    (counter seqNum : Nat) : Nat :=
  if seqNum = 0 then nextSequenceNumber counter else seqNum

------------------------------------------------------------
-- Sending
------------------------------------------------------------

/- A header is never empty. -/
@[simp]
theorem serializeHeader_ne_nil
    (cmdLen : Nat)
    (cmdId : UInt8)
    (seqNum : Nat)
    (status : UInt8) :
    serializeHeader cmdLen cmdId seqNum status ≠ [] := by
  rw [← List.length_pos, length_serializeHeader]
  decide

/-
  `do_send`: nothing while a write is in flight; else swap the
  buffers and pass the new `writing_send_buf_` to `async_write`.
-/
def doSend (b : SendBuffers) : SendBuffers :=
  if !b.writing.isEmpty then b
  else { b with
    writing := b.pending
    pending := []
    inFlight := b.inFlight ++ [b.pending]
    issued := b.issued ++ [b.pending] }

/-
  `do_send_impl(pdu, seq_num, status)`: the state after the call,
  and the exception of `serialize_to` it rethrows.  The buffer is
  grown by `header_length` bytes and the PDU serialized after
  them; a throw truncates it back to `prev_size`, else the header
  is copied over the grown bytes and `do_send` runs.
-/
def doSendImplCall
    (b : SendBuffers)
    (pdu : Pdu)
    (seqNum : Nat)
    (status : UInt8) : SendBuffers × Option String :=
  if !b.state.canSend then (b, none)
  else
    let prevSize := b.pending.length
    let grown := b.pending ++ List.replicate headerLength 0
    match pdu.serializeTo with
    | .error what => ({ b with pending := grown.take prevSize }, some what)
    | .ok body =>
        let buf := grown ++ body
        let header := serializeHeader ((buf.length - prevSize) % 2 ^ 32) pdu.commandIdOf
          seqNum status
        (doSend { b with pending := buf.take prevSize ++ header ++ buf.drop (prevSize + headerLength) },
          none)

/-
  `send_command(cmd_id, seq_num, status)`: append a bare header,
  then `do_send`; it does not look at the session state.
-/
def sendCommand
    (b : SendBuffers)
    (cmdId : UInt8)
    (seqNum : Nat)
    (status : UInt8) : SendBuffers :=
  let seq := chooseSequence b.sequenceNumber seqNum
  doSend { b with
    sequenceNumber := if seqNum = 0 then seq else b.sequenceNumber
    pending := b.pending ++ serializeHeader headerLength cmdId seq status }

------------------------------------------------------------
-- Closing
------------------------------------------------------------

/-
  `do_close`: nothing once closed; else shut the socket down,
  whatever the buffers hold, and move to `Closed`.
-/
def doClose (b : SendBuffers) : SendBuffers :=
  if b.state = .closedState then b
  else { b with shutDown := true, state := .closedState }

/- `close(reason)`: the first call wins `close_initiated_` and runs `do_close`. -/
def close (b : SendBuffers) : SendBuffers :=
  if b.closeInitiated then b else doClose { b with closeInitiated := true }

/-
  `handle_request` on `unbind_req`: move to `Unbinding` if it may,
  queue the `unbind_resp`, then close.
-/
def unbindRequest
    (b : SendBuffers)
    (seqNum : Nat) : SendBuffers :=
  let b1 := if b.state.canUnbind then { b with state := .unbindingState } else b
  close (b1.sendCommand CommandId.unbindResp seqNum CommandStatus.rok)

/-
  The completion of the write in flight: without error it clears
  `writing_send_buf_` and sends what is pending; with an error it
  closes.  The handler does not look at the session state: a write
  whose bytes went out before the socket was shut down completes
  without error after it.
-/
def writeCompleted (b : SendBuffers) : SendBuffers :=
  if b.inFlight = [] then b
  else
    let b1 := { b with inFlight := b.inFlight.drop 1, writing := [] }
    if !b1.pending.isEmpty then b1.doSend else b1

def writeFailed (b : SendBuffers) : SendBuffers :=
  if b.inFlight = [] then b else close { b with inFlight := b.inFlight.drop 1 }

end SendBuffers

------------------------------------------------------------
-- Runs
------------------------------------------------------------

/- What happens to a session's send path. -/
inductive SendEvent where
  | sendPdu (pdu : Pdu) (seqNum : Nat) (status : UInt8)
  | sendCommand (cmdId : UInt8) (seqNum : Nat) (status : UInt8)
  | unbindRequest (seqNum : Nat)
  | writeCompleted
  | writeFailed
  | close

namespace SendBuffers

/- One event. -/
def step (b : SendBuffers) : SendEvent → SendBuffers
  | .sendPdu pdu seqNum status => (b.doSendImplCall pdu seqNum status).1
  | .sendCommand cmdId seqNum status => b.sendCommand cmdId seqNum status
  | .unbindRequest seqNum => b.unbindRequest seqNum
  | .writeCompleted => b.writeCompleted
  | .writeFailed => b.writeFailed
  | .close => b.close

/-
  The frame an event appends to the send buffers, from the frame
  model of `do_send_impl` and the header of `send_command`.
-/
def appended (b : SendBuffers) : SendEvent → List UInt8
  | .sendPdu pdu seqNum status =>
      match doSendImpl b.state [] pdu seqNum status with
      | .ok frame => frame
      | .error _ => []
  | .sendCommand cmdId seqNum status =>
      serializeHeader headerLength cmdId (chooseSequence b.sequenceNumber seqNum) status
  | .unbindRequest seqNum =>
      serializeHeader headerLength CommandId.unbindResp (chooseSequence b.sequenceNumber seqNum)
        CommandStatus.rok
  | _ => []

/- The events in order: the last state, and the frames appended, in call order. -/
def run : SendBuffers → List SendEvent → SendBuffers × List UInt8
  | b, [] => (b, [])
  | b, e :: es =>
      let r := run (b.step e) es
      (r.1, b.appended e ++ r.2)

------------------------------------------------------------
-- do_send_impl Against the Frame Model
------------------------------------------------------------

/-
  `do_send_impl` appends the frame of the frame model and sends,
  or, when `serialize_to` throws, leaves the session as it was.
-/
theorem doSendImplCall_pending
    (b : SendBuffers)
    (pdu : Pdu)
    (seqNum : Nat)
    (status : UInt8) :
    match doSendImpl b.state [] pdu seqNum status with
    | .ok frame =>
        (b.doSendImplCall pdu seqNum status) =
          (if !b.state.canSend then b else doSend { b with pending := b.pending ++ frame }, none)
    | .error what => b.doSendImplCall pdu seqNum status = (b, some what) := by
  unfold doSendImplCall doSendImpl
  cases hSend : b.state.canSend
  · rfl
  · cases hBody : pdu.serializeTo with
    | error what => simp [List.take_left']
    | ok body =>
        have hLen : (b.pending ++ (List.replicate headerLength 0 ++ body)).length -
            b.pending.length = headerLength + body.length := by
          simp only [List.length_append, List.length_replicate]
          omega
        simp only [Bool.not_true, Bool.false_eq_true, if_false, hLen, List.nil_append,
          List.append_assoc, List.take_left, List.drop_append,
          List.drop_left' (List.length_replicate headerLength (0 : UInt8))]

------------------------------------------------------------
-- The Byte Stream
------------------------------------------------------------

/-
  The send path after the frames `appended`: at most one write in
  flight, on `writing_send_buf_`, which is then not empty; no empty
  buffer ever passed to `async_write`; and the buffers passed,
  then `pending_send_buf_`, are the frames appended.
-/
structure Flow (b : SendBuffers) (appended : List UInt8) : Prop where
  flight : b.inFlight = [] ∨ (b.inFlight = [b.writing] ∧ b.writing ≠ [])
  nonempty : [] ∉ b.issued
  bytes : b.issued.flatten ++ b.pending = appended

variable {b : SendBuffers} {appended : List UInt8}

theorem flow_init : Flow init [] :=
  ⟨.inl rfl, List.not_mem_nil _, rfl⟩

/- `do_send` keeps the flow when something is written or pending. -/
theorem Flow.doSend
    (hFlow : Flow b appended)
    (hSome : b.writing ≠ [] ∨ b.pending ≠ []) :
    Flow b.doSend appended := by
  unfold SendBuffers.doSend
  by_cases hWriting : b.writing = []
  · have hIdle : b.inFlight = [] := hFlow.flight.resolve_right fun h => h.2 hWriting
    have hPending := hSome.resolve_left (not_not.mpr hWriting)
    simp only [hWriting, List.isEmpty_nil, Bool.not_true, Bool.false_eq_true, if_false]
    exact ⟨.inr ⟨by rw [hIdle]; rfl, hPending⟩,
      by simpa using ⟨hFlow.nonempty, hPending⟩,
      by simp [← hFlow.bytes]⟩
  · simpa [hWriting] using hFlow

/- Bytes appended to `pending_send_buf_` extend the frames appended. -/
theorem Flow.append
    (hFlow : Flow b appended)
    (frame : List UInt8) :
    Flow { b with pending := b.pending ++ frame } (appended ++ frame) :=
  ⟨hFlow.flight, hFlow.nonempty, by rw [← hFlow.bytes, List.append_assoc]⟩

/- The flow does not look at the state, the counter or the close flags. -/
theorem Flow.congr
    (hFlow : Flow b appended)
    {b' : SendBuffers}
    (hWriting : b'.writing = b.writing)
    (hPending : b'.pending = b.pending)
    (hInFlight : b'.inFlight = b.inFlight)
    (hIssued : b'.issued = b.issued) :
    Flow b' appended := by
  obtain ⟨hF, hN, hB⟩ := hFlow
  exact ⟨by rwa [hInFlight, hWriting], by rwa [hIssued], by rwa [hIssued, hPending]⟩

theorem Flow.close
    (hFlow : Flow b appended) :
    Flow b.close appended := by
  unfold SendBuffers.close SendBuffers.doClose
  split_ifs <;> exact hFlow.congr rfl rfl rfl rfl

theorem Flow.sendCommand
    (hFlow : Flow b appended)
    (cmdId : UInt8)
    (seqNum : Nat)
    (status : UInt8) :
    Flow (b.sendCommand cmdId seqNum status)
      (appended ++ serializeHeader headerLength cmdId (chooseSequence b.sequenceNumber seqNum)
        status) := by
  unfold SendBuffers.sendCommand
  refine Flow.doSend ((hFlow.append _).congr rfl rfl rfl rfl) (.inr ?_)
  simp

/- A completion retires the one write in flight. -/
theorem Flow.retire
    (hFlow : Flow b appended)
    (writing : List UInt8) :
    Flow { b with inFlight := b.inFlight.drop 1, writing := writing } appended := by
  obtain ⟨hF, hN, hB⟩ := hFlow
  refine ⟨.inl ?_, hN, hB⟩
  rcases hF with h | ⟨h, -⟩ <;> simp [h]

/- One event appends its frame, and keeps the flow. -/
theorem Flow.step
    (hFlow : Flow b appended)
    (e : SendEvent) :
    Flow (b.step e) (appended ++ b.appended e) := by
  cases e with
  | sendPdu pdu seqNum status =>
      have hCall := doSendImplCall_pending b pdu seqNum status
      simp only [SendBuffers.step, SendBuffers.appended]
      cases hSend : b.state.canSend
      · -- `Unbinding` and `Closed` append nothing
        simp only [doSendImpl, hSend, Bool.not_false, if_true, List.append_nil] at hCall ⊢
        rw [hCall]
        exact hFlow
      · cases hBody : pdu.serializeTo with
        | error what =>
            simp only [doSendImpl, hSend, hBody, Bool.not_true, Bool.false_eq_true, if_false]
              at hCall ⊢
            rw [hCall, List.append_nil]
            exact hFlow
        | ok body =>
            simp only [doSendImpl, hSend, hBody, Bool.not_true, Bool.false_eq_true, if_false]
              at hCall ⊢
            rw [hCall]
            exact (hFlow.append _).doSend (.inr (by simp))
  | sendCommand cmdId seqNum status => exact hFlow.sendCommand cmdId seqNum status
  | unbindRequest seqNum =>
      have hUnbind : Flow (if b.state.canUnbind then { b with state := .unbindingState } else b)
          appended := by
        split_ifs <;> exact hFlow.congr rfl rfl rfl rfl
      have hSeq : (if b.state.canUnbind then { b with state := .unbindingState } else b).sequenceNumber =
          b.sequenceNumber := by
        split_ifs <;> rfl
      have hAfter := (hUnbind.sendCommand CommandId.unbindResp seqNum CommandStatus.rok).close
      rw [hSeq] at hAfter
      exact hAfter
  | writeCompleted =>
      rw [show b.appended .writeCompleted = [] from rfl, List.append_nil]
      unfold SendBuffers.step SendBuffers.writeCompleted
      by_cases hIdle : b.inFlight = []
      · rw [if_pos hIdle]
        exact hFlow
      · rw [if_neg hIdle]
        dsimp only
        split_ifs with hPending
        · exact (hFlow.retire []).doSend (.inr (by simpa using hPending))
        · exact hFlow.retire []
  | writeFailed =>
      rw [show b.appended .writeFailed = [] from rfl, List.append_nil]
      unfold SendBuffers.step SendBuffers.writeFailed
      split_ifs with hIdle
      · exact hFlow
      · exact (hFlow.retire b.writing).close
  | close =>
      rw [show b.appended .close = [] from rfl, List.append_nil]
      exact hFlow.close

/- Every run keeps the flow over the frames it appends. -/
theorem Flow.run
    (hFlow : Flow b appended)
    (es : List SendEvent) :
    Flow (b.run es).1 (appended ++ (b.run es).2) := by
  induction es generalizing b appended with
  | nil => simpa [SendBuffers.run] using hFlow
  | cons e es ih =>
      simpa [SendBuffers.run, List.append_assoc] using ih (hFlow.step e)

------------------------------------------------------------
-- After the Shutdown
------------------------------------------------------------

/- `do_close` has run: the socket is shut down, and the session closed. -/
structure ShutDown (b : SendBuffers) : Prop where
  shut : b.shutDown = true
  closed : b.state = .closedState
  initiated : b.closeInitiated = true

/- `do_send` only appends to the buffers passed to `async_write`. -/
theorem issued_prefix_doSend {b b' : SendBuffers} (h : b'.issued = b.issued) :
    b'.issued <+: b.doSend.issued := by
  unfold SendBuffers.doSend
  split_ifs
  · exact h ▸ List.prefix_refl _
  · exact h ▸ List.prefix_append _ _

theorem issued_prefix_close {b b' : SendBuffers} (h : b'.issued = b.issued) :
    b'.issued <+: b.close.issued := by
  unfold SendBuffers.close SendBuffers.doClose
  split_ifs <;> exact h ▸ List.prefix_refl _

/- Every event only appends to the buffers passed to `async_write`. -/
theorem issued_prefix_step (b : SendBuffers) (e : SendEvent) : b.issued <+: (b.step e).issued := by
  cases e with
  | sendPdu pdu seqNum status =>
      show b.issued <+: (b.doSendImplCall pdu seqNum status).1.issued
      unfold doSendImplCall
      split_ifs
      · exact List.prefix_refl _
      · split
        · exact List.prefix_refl _
        · exact issued_prefix_doSend rfl
  | sendCommand => exact issued_prefix_doSend rfl
  | unbindRequest seqNum =>
      show b.issued <+: (b.unbindRequest seqNum).issued
      unfold unbindRequest
      refine List.IsPrefix.trans ?_ (issued_prefix_close rfl)
      unfold sendCommand
      split_ifs <;> exact issued_prefix_doSend rfl
  | writeCompleted =>
      show b.issued <+: b.writeCompleted.issued
      unfold writeCompleted
      dsimp only
      split_ifs
      · exact List.prefix_refl _
      · exact issued_prefix_doSend rfl
      · exact List.prefix_refl _
  | writeFailed =>
      show b.issued <+: b.writeFailed.issued
      unfold writeFailed
      split_ifs
      · exact List.prefix_refl _
      · exact issued_prefix_close rfl
  | close => exact issued_prefix_close rfl

/- Once shut down, the socket stays shut down whatever happens. -/
theorem ShutDown.step
    (hShut : ShutDown b)
    (e : SendEvent) :
    ShutDown (b.step e) := by
  have hDoSend : ∀ b' : SendBuffers, ShutDown b' → ShutDown b'.doSend := fun b' h => by
    unfold SendBuffers.doSend
    split_ifs
    · exact h
    · exact ⟨h.shut, h.closed, h.initiated⟩
  have hClose : ∀ b' : SendBuffers, ShutDown b' → ShutDown b'.close := fun b' h => by
    simpa [SendBuffers.close, h.initiated] using h
  cases e with
  | sendPdu pdu seqNum status =>
      have hCall := doSendImplCall_pending b pdu seqNum status
      simp only [doSendImpl, hShut.closed, SessionState.canSend, Bool.not_false, if_true] at hCall
      simp only [SendBuffers.step, hCall]
      exact hShut
  | sendCommand cmdId seqNum status =>
      exact hDoSend _ ⟨hShut.shut, hShut.closed, hShut.initiated⟩
  | unbindRequest seqNum =>
      show ShutDown (b.unbindRequest seqNum)
      unfold unbindRequest
      refine hClose _ (hDoSend _ ?_)
      simp only [hShut.closed, SessionState.canUnbind, Bool.false_eq_true, if_false]
      exact ⟨hShut.shut, rfl, hShut.initiated⟩
  | writeCompleted =>
      show ShutDown b.writeCompleted
      unfold writeCompleted
      dsimp only
      split_ifs
      · exact hShut
      · exact hDoSend _ ⟨hShut.shut, hShut.closed, hShut.initiated⟩
      · exact ⟨hShut.shut, hShut.closed, hShut.initiated⟩
  | writeFailed =>
      show ShutDown b.writeFailed
      unfold writeFailed
      split_ifs
      · exact hShut
      · exact hClose _ ⟨hShut.shut, hShut.closed, hShut.initiated⟩
  | close => exact hClose _ hShut

/-
  Over every run after the shutdown the socket stays shut down, and
  the buffers passed to `async_write` before it stay where they were.
-/
theorem ShutDown.run
    (hShut : ShutDown b)
    (es : List SendEvent) :
    ShutDown (b.run es).1 ∧ b.issued <+: (b.run es).1.issued := by
  induction es generalizing b with
  | nil => exact ⟨hShut, List.prefix_refl _⟩
  | cons e es ih =>
      obtain ⟨hNext, hPrefix⟩ := ih (hShut.step e)
      exact ⟨hNext, (issued_prefix_step b e).trans hPrefix⟩

end SendBuffers

------------------------------------------------------------
-- The Two Properties
------------------------------------------------------------

/-
  Over every sequence of sends, replies, completions and closes
  from a new session: at most one write is in flight, no
  `async_write` is passed an empty buffer, and the buffers passed
  to `async_write` in issue order, then `pending_send_buf_`, are
  the frames appended in call order.  A `do_send_impl` whose
  `serialize_to` throws leaves the session, `pending_send_buf_`
  included, as it was.
-/
theorem send_buffers_keep_byte_order :
    (∀ es : List SendEvent,
      (SendBuffers.init.run es).1.inFlight.length ≤ 1 ∧
        [] ∉ (SendBuffers.init.run es).1.issued ∧
        (SendBuffers.init.run es).1.issued.flatten ++ (SendBuffers.init.run es).1.pending =
          (SendBuffers.init.run es).2) ∧
      ∀ (b : SendBuffers) (pdu : Pdu) (seqNum : Nat) (status : UInt8),
        (b.doSendImplCall pdu seqNum status).2 = none ∨
          (b.doSendImplCall pdu seqNum status).1 = b := by
  refine ⟨fun es => ?_, fun b pdu seqNum status => ?_⟩
  · have hFlow := SendBuffers.flow_init.run es
    rw [List.nil_append] at hFlow
    refine ⟨?_, hFlow.nonempty, hFlow.bytes⟩
    rcases hFlow.flight with h | ⟨h, -⟩ <;> simp [h]
  · have hCall := SendBuffers.doSendImplCall_pending b pdu seqNum status
    split at hCall
    · exact .inl (by rw [hCall])
    · exact .inr (by rw [hCall])

/-
  An `unbind_req` handled while a write is in flight, before any
  close: `send_command` queues the `unbind_resp` behind that write,
  and the `close` that follows shuts the socket down at once.  So
  the buffers passed to `async_write` while the socket was up do
  not hold the reply, and every run after keeps the socket shut.
  A completion of the write in flight without error then passes
  what is pending, the reply included, to `async_write` on the
  shut socket.
-/
theorem queued_reply_is_dropped_at_close
    (b : SendBuffers)
    (seqNum : Nat)
    (hWriting : b.writing ≠ [])
    (hFlight : b.inFlight = [b.writing])
    (hInitiated : b.closeInitiated = false)
    (hOpen : b.state ≠ .closedState) :
    (b.unbindRequest seqNum).shutDown = true ∧
      (b.unbindRequest seqNum).issued = b.issued ∧
      (b.unbindRequest seqNum).pending = b.pending ++
        serializeHeader headerLength CommandId.unbindResp (SendBuffers.chooseSequence b.sequenceNumber seqNum)
          CommandStatus.rok ∧
      (∀ es, ((b.unbindRequest seqNum).run es).1.shutDown = true ∧
        b.issued <+: ((b.unbindRequest seqNum).run es).1.issued) ∧
      (b.unbindRequest seqNum).writeCompleted.issued = b.issued ++
        [b.pending ++ serializeHeader headerLength CommandId.unbindResp
          (SendBuffers.chooseSequence b.sequenceNumber seqNum) CommandStatus.rok] := by
  /-
    The reply waits behind the write in flight and `close` runs
    `do_close`, which moves to `Closed` whether or not `b` could
    move to `Unbinding` first.
  -/
  have hUnbind : b.unbindRequest seqNum =
      { b with
        sequenceNumber := if seqNum = 0 then SendBuffers.chooseSequence b.sequenceNumber seqNum
          else b.sequenceNumber
        pending := b.pending ++ serializeHeader headerLength CommandId.unbindResp
          (SendBuffers.chooseSequence b.sequenceNumber seqNum) CommandStatus.rok
        closeInitiated := true
        shutDown := true
        state := .closedState } := by
    have hHeld : ∀ b' : SendBuffers, b'.writing = b.writing → b'.doSend = b' := fun b' h => by
      rw [SendBuffers.doSend, if_pos (by simpa [h, List.isEmpty_iff] using hWriting)]
    unfold SendBuffers.unbindRequest SendBuffers.sendCommand
    dsimp only
    rw [hHeld _ (by split_ifs <;> rfl)]
    unfold SendBuffers.close SendBuffers.doClose
    split_ifs <;> simp_all
  have hShut : SendBuffers.ShutDown (b.unbindRequest seqNum) := by
    rw [hUnbind]
    exact ⟨rfl, rfl, rfl⟩
  have hIssued : (b.unbindRequest seqNum).issued = b.issued := by rw [hUnbind]
  refine ⟨hShut.shut, hIssued, by rw [hUnbind], fun es => ?_, ?_⟩
  · obtain ⟨hRun, hPrefix⟩ := hShut.run es
    exact ⟨hRun.shut, hIssued ▸ hPrefix⟩
  · rw [hUnbind]
    unfold SendBuffers.writeCompleted SendBuffers.doSend
    simp [hFlight]

/- An `enquire_link_req` answered: its `enquire_link_resp` is in flight. -/
def enquireLinkAnswered : SendBuffers :=
  (SendBuffers.init.run [.sendCommand CommandId.enquireLinkResp 7 CommandStatus.rok]).1

/- An `unbind_req` read with the `enquire_link_req` finds that write in flight. -/
theorem queued_reply_is_dropped_after_enquire_link :
    enquireLinkAnswered.writing ≠ [] ∧
      enquireLinkAnswered.inFlight = [enquireLinkAnswered.writing] ∧
      enquireLinkAnswered.closeInitiated = false ∧
      enquireLinkAnswered.state ≠ .closedState ∧
      (enquireLinkAnswered.unbindRequest 8).shutDown = true ∧
      (enquireLinkAnswered.unbindRequest 8).issued = enquireLinkAnswered.issued ∧
      (enquireLinkAnswered.unbindRequest 8).pending = enquireLinkAnswered.pending ++
        serializeHeader headerLength CommandId.unbindResp
          (SendBuffers.chooseSequence enquireLinkAnswered.sequenceNumber 8) CommandStatus.rok ∧
      (∀ es, ((enquireLinkAnswered.unbindRequest 8).run es).1.shutDown = true ∧
        enquireLinkAnswered.issued <+: ((enquireLinkAnswered.unbindRequest 8).run es).1.issued) ∧
      (enquireLinkAnswered.unbindRequest 8).writeCompleted.issued = enquireLinkAnswered.issued ++
        [enquireLinkAnswered.pending ++ serializeHeader headerLength CommandId.unbindResp
          (SendBuffers.chooseSequence enquireLinkAnswered.sequenceNumber 8) CommandStatus.rok] :=
  ⟨by decide, rfl, rfl, by decide,
    queued_reply_is_dropped_at_close enquireLinkAnswered 8 (by decide) rfl rfl (by decide)⟩

end Net

end Networking

end Vex
