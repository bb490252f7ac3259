import Vex.Networking.Net.SendBuffers

/-
  The whole of `basic_session_impl` (`net/session_impl.hpp`,
  `net/session_impl.inl`) on one executor: its lifecycle, the
  receive loop, the two send buffers with the backpressure
  controller, the unbind timer, and the four handlers.

  `ThreadingPolicy::dispatch` runs a call made on the executor
  inline, so the session's code and the user code it calls back
  nest.  The model keeps that nesting as an explicit call stack:
  a `Frame` is what is left to do when the code above it returns
  or throws.  The do_receive loop, the guard around each callback,
  the rest of `do_send` after `resume_receiving`, and the rest of
  `do_unbind` after `send_command` are frames.

  A run is a list of `Input`s.  While a callback runs, each input
  is the callback's next action: an API call it makes inline, its
  return, or an exception it throws.  With the stack empty, an
  input is what the executor runs next: a completion of the
  pending read, write or unbind wait, or an API call from outside.
  While the session's own code runs, the input is not looked at.
  An exception unwinds the stack to the first frame that catches
  it; user code may catch what an API call throws, and the rest
  escape the executor.  The stack copy of `process_message` past
  its 256-byte array is undefined behaviour, after which the model
  stops.

  Buffers of the send path are their sizes, the handlers whether
  they are set; the `set_*_handler` calls set or clear one, in any
  state.  Sequence numbers, metrics and the bytes sent are not
  modelled.

  Key definitions include:
    * `Handlers`, `Callback`, `Notice`, `Frame`, `Api`, `Input`
    * `BasicSessionImpl`, `BasicSessionImpl.init`
    * `setHandlers`, `setProtocolHandler`, `setCloseHandler`
    * `doClose`, `close`, `doSend`, `doSendImpl`, `doUnbind`
    * `handleRequest`, `handleResponse`, `passOn`, `receiveRound`, `unwind`
    * `step`, `run`, `Reachable`
-/

------------------------------------------------------------
-- Handlers and Callbacks
------------------------------------------------------------

namespace Vex

namespace Networking

namespace Net

/- `session_state::name`. -/
def SessionState.name : SessionState → String
  | .openState => "open"
  | .unbindingState => "unbinding"
  | .closedState => "closed"

/-
  Whether each handler is set: `protocol_handler_`,
  `error_handler_`, `close_handler_` and
  `send_buf_available_handler_`.
-/
structure Handlers where
  protocol : Bool
  error : Bool
  close : Bool
  sendBufAvailable : Bool
  deriving DecidableEq, Repr

/- What `do_close` leaves: every handler reset. -/
def Handlers.cleared : Handlers :=
  ⟨false, false, false, false⟩

/- A call of the session into user code. -/
inductive Callback where
  | onRequest (req : Pdu) (seqNum : Nat)
  | onResponse (resp : Pdu) (seqNum : Nat) (status : UInt8)
  | onProtocolError (what : String)
  | onDeserializationError (what : String) (cmdId : UInt8) (body : List UInt8)
  | closeHandler (err : Option String)
  | sendBufAvailable
  deriving DecidableEq, Repr

/- The handler a callback is a member of is set. -/
def Handlers.holds (h : Handlers) : Callback → Bool
  | .onRequest .. => h.protocol
  | .onResponse .. => h.protocol
  | .onProtocolError _ => h.error
  | .onDeserializationError .. => h.error
  | .closeHandler _ => h.close
  | .sendBufAvailable => h.sendBufAvailable

/-
  What a run shows: the callbacks made, the pauses and resumes of
  the backpressure controller, the swaps of `do_send`, and the
  exceptions that leave the executor.
-/
inductive Notice where
  | invoked (cb : Callback)
  | paused
  | swapped
  | resumed
  | escaped (what : String)
  deriving DecidableEq, Repr

/-
  What is left to do in a function of the session when the code
  it called returns: the do_receive loop; the `try` around
  `on_request` or `on_response`, with the prefix of its close
  reason; the rest of the inner `catch` after the error handler;
  a `close` that follows; the rest of `do_send` after
  `resume_receiving`, and after the send-buf-available handler;
  the `try` around the close handler; the rest of `do_unbind`.
  A callback in progress is a `user` frame.
-/
inductive Frame where
  | receiveLoop
  | user (cb : Callback)
  | handlerGuard (pre : String) (cmdId : UInt8) (body : List UInt8)
  | errorGuard (reason : String) (cmdId : UInt8) (body : List UInt8)
  | closeAfter (reason : String)
  | afterResume
  | afterSendBufAvailable
  | afterCloseHandler
  | armUnbindTimer
  deriving DecidableEq, Repr

/-
  The public calls of `basic_session_impl`; `send_request` and
  `send_response` both `do_send_impl`, and each `set_*_handler`
  installs a handler, or an empty one.
-/
inductive Api where
  | start
  | unbind
  | close (reason : String)
  | send (pdu : Pdu)
  | pauseReceiving
  | resumeReceiving
  | setProtocolHandler (set : Bool)
  | setErrorHandler (set : Bool)
  | setCloseHandler (set : Bool)
  | setSendBufAvailableHandler (set : Bool)
  deriving DecidableEq, Repr

/- The next thing the environment does. -/
inductive Input where
  | call (api : Api)
  | ret
  | raise (what : String)
  | readDone (data : List UInt8)
  | readFailed (message : String)
  | writeDone
  | writeFailed (message : String)
  | unbindTimerFired
  deriving DecidableEq, Repr

/- Whether a call installs or clears a handler. -/
def Api.setsHandler : Api → Bool
  | .setProtocolHandler _ => true
  | .setErrorHandler _ => true
  | .setCloseHandler _ => true
  | .setSendBufAvailableHandler _ => true
  | _ => false

/- Whether an input is a call that installs or clears a handler. -/
def Input.setsHandler : Input → Bool
  | .call api => api.setsHandler
  | _ => false

------------------------------------------------------------
-- State
------------------------------------------------------------

/-
  `basic_session_impl`: the configuration, `state_`,
  `close_initiated_`, `receiving_state_`, `receive_buf_`, the
  `async_receive` calls outstanding, the sizes of
  `writing_send_buf_` and `pending_send_buf_`, the `async_write`
  calls outstanding, `backpressure_.paused_`, whether an unbind
  wait is armed, whether the socket is open, the handlers, the
  call stack, what the run showed, and whether the stack copy
  overran.
-/
structure BasicSessionImpl where
  config : SessionConfig
  state : SessionState
  closeInitiated : Bool
  receivingState : ReceivingState
  receiveBuf : FlatBuffer
  reads : Nat
  writing : Nat
  pending : Nat
  writes : Nat
  backpressurePaused : Bool
  unbindTimer : Bool
  socketOpen : Bool
  handlers : Handlers
  stack : List Frame
  notices : List Notice
  overrun : Bool
  deriving DecidableEq, Repr

namespace BasicSessionImpl

/- A constructed session with its handlers set, before `start`. -/
def init (config : SessionConfig) (handlers : Handlers) : BasicSessionImpl :=
  ⟨config, .openState, false, .paused, FlatBuffer.empty receiveBufCapacity, 0, 0, 0, 0, false,
    false, true, handlers, [], [], false⟩

------------------------------------------------------------
-- Handlers, Calls Back, Receiving and Closing
------------------------------------------------------------

/-
  The `set_*_handler` calls: a plain assignment of one handler,
  which looks neither at the state nor at the other handlers.
-/
def setHandlers (s : BasicSessionImpl) (handlers : Handlers) : BasicSessionImpl :=
  { s with handlers := handlers }

/- `set_protocol_handler`. -/
def setProtocolHandler (s : BasicSessionImpl) (set : Bool) : BasicSessionImpl :=
  s.setHandlers { s.handlers with protocol := set }

/- `set_error_handler`. -/
def setErrorHandler (s : BasicSessionImpl) (set : Bool) : BasicSessionImpl :=
  s.setHandlers { s.handlers with error := set }

/- `set_close_handler`. -/
def setCloseHandler (s : BasicSessionImpl) (set : Bool) : BasicSessionImpl :=
  s.setHandlers { s.handlers with close := set }

/- `set_send_buf_available_handler`. -/
def setSendBufAvailableHandler (s : BasicSessionImpl) (set : Bool) : BasicSessionImpl :=
  s.setHandlers { s.handlers with sendBufAvailable := set }

/-
  Call back into user code if its handler is set: the callback
  runs on top of `guards`; else the session goes on as `otherwise`.
-/
def invoke
    (s : BasicSessionImpl)
    (cb : Callback)
    (guards : List Frame)
    (otherwise : BasicSessionImpl) : BasicSessionImpl :=
  if s.handlers.holds cb then
    { s with stack := .user cb :: guards ++ s.stack, notices := s.notices ++ [.invoked cb] }
  else otherwise

/- `async_write` of `writing_send_buf_`. -/
def asyncWrite (s : BasicSessionImpl) : BasicSessionImpl :=
  { s with writes := s.writes + 1 }

/- `do_receive`: the loop starts. -/
def doReceive (s : BasicSessionImpl) : BasicSessionImpl :=
  { s with stack := .receiveLoop :: s.stack }

/- `do_resume_receiving`; `do_start` is the first call. -/
def doResumeReceiving (s : BasicSessionImpl) : BasicSessionImpl :=
  let s1 := { s with receivingState := .receiving }
  if s.receivingState = .paused then s1.doReceive else s1

/- `pause_receiving`. -/
def pauseReceiving (s : BasicSessionImpl) : BasicSessionImpl :=
  if s.receivingState = .receiving then { s with receivingState := .pendingPause } else s

/-
  `do_close(reason)`: nothing once closed; else pause receiving,
  cancel the unbind wait, keep the reason only in `Open`, shut the
  socket, move to `Closed`, reset every handler, and call the
  close handler it held.
-/
def doClose
    (s : BasicSessionImpl)
    (reason : String) : BasicSessionImpl :=
  if s.state = .closedState then s
  else
    let err := if s.state = .openState then some reason else none
    let s1 := { s with
      receivingState := .paused
      unbindTimer := false
      socketOpen := false
      state := .closedState
      handlers := Handlers.cleared }
    if s.handlers.close then
      { s1 with
        stack := .user (.closeHandler err) :: .afterCloseHandler :: s1.stack
        notices := s1.notices ++ [.invoked (.closeHandler err)] }
    else s1

/- `close(reason)`: the first call wins `close_initiated_` and runs `do_close`. -/
def close
    (s : BasicSessionImpl)
    (reason : String) : BasicSessionImpl :=
  if s.closeInitiated then s else { s with closeInitiated := true }.doClose reason

------------------------------------------------------------
-- Sending
------------------------------------------------------------

/-
  `do_send`: nothing while a write is in flight; else swap the
  buffers, resume receiving and call the send-buf-available
  handler when `should_resume` holds for what is left pending,
  and write.
-/
def doSend (s : BasicSessionImpl) : BasicSessionImpl :=
  if s.writing ≠ 0 then s
  else
    let s1 := { s with writing := s.pending, pending := 0, notices := s.notices ++ [Notice.swapped] }
    if s1.backpressurePaused ∧ s1.pending < s1.config.backpressureLowWatermark then
      { s1 with
        backpressurePaused := false
        stack := .afterResume :: s1.stack
        notices := s1.notices ++ [Notice.resumed] }.doResumeReceiving
    else s1.asyncWrite

/- `send_command`: append a bare header, then `do_send`. -/
def sendCommand (s : BasicSessionImpl) : BasicSessionImpl :=
  { s with pending := s.pending + headerLength }.doSend

/-
  `do_unbind`: in a state that may unbind, move to `Unbinding`,
  send `unbind_req`, then arm the unbind wait.
-/
def doUnbind (s : BasicSessionImpl) : BasicSessionImpl :=
  if !s.state.canUnbind then s
  else { s with state := .unbindingState, stack := .armUnbindTimer :: s.stack }.sendCommand

/-
  The outer `catch` of `handle_request` and `handle_response`: the
  error handler's `on_deserialization_error`, then `close`.
-/
def deserializationFailed
    (s : BasicSessionImpl)
    (what : String)
    (cmdId : UInt8)
    (body : List UInt8) : BasicSessionImpl :=
  let reason := "Deserialization error: " ++ what
  s.invoke (.onDeserializationError what cmdId body) [.closeAfter reason] (s.close reason)

/-
  The inner `catch` around `on_request` or `on_response`: the
  error handler's `on_protocol_error`, then `close`.
-/
def handlerFailed
    (s : BasicSessionImpl)
    (pre what : String)
    (cmdId : UInt8)
    (body : List UInt8) : BasicSessionImpl :=
  let reason := pre ++ what
  s.invoke (.onProtocolError ("Handler exception: " ++ what)) [.errorGuard reason cmdId body]
    (s.close reason)

/-
  An exception `what` thrown on top of `frames`: each frame is
  left until one catches it; user code catches what the calls it
  makes throw.
-/
def unwind (what : String) : BasicSessionImpl → List Frame → BasicSessionImpl
  | s, [] => { s with stack := [], notices := s.notices ++ [.escaped what] }
  | s, .user cb :: rest => { s with stack := .user cb :: rest }
  | s, .handlerGuard pre cmdId body :: rest =>
      { s with stack := rest }.handlerFailed pre what cmdId body
  | s, .errorGuard _ cmdId body :: rest =>
      { s with stack := rest }.deserializationFailed what cmdId body
  | s, .afterSendBufAvailable :: rest => { s with stack := rest }.asyncWrite
  | s, .afterCloseHandler :: rest => { s with stack := rest }
  | s, .receiveLoop :: rest => unwind what s rest
  | s, .closeAfter _ :: rest => unwind what s rest
  | s, .afterResume :: rest => unwind what s rest
  | s, .armUnbindTimer :: rest => unwind what s rest

/- `throw`: the exception unwinds the whole stack. -/
def throw
    (s : BasicSessionImpl)
    (what : String) : BasicSessionImpl :=
  unwind what s s.stack

/-
  `do_send_impl(pdu, …)`: outside `Open`, report to the error
  handler; else append the frame or rethrow what `serialize_to`
  throws, pause receiving when `should_pause` holds, and `do_send`.
-/
def doSendImpl
    (s : BasicSessionImpl)
    (pdu : Pdu) : BasicSessionImpl :=
  if !s.state.canSend then
    s.invoke (.onProtocolError ("Cannot send in state: " ++ s.state.name)) [] s
  else
    match pdu.serializeTo with
    | .error what => s.throw what
    | .ok body =>
        let s1 := { s with pending := s.pending + headerLength + body.length }
        let s2 :=
          if !s1.backpressurePaused ∧ s1.pending > s1.config.backpressureHighWatermark then
            { s1 with backpressurePaused := true, notices := s1.notices ++ [Notice.paused] }.pauseReceiving
          else s1
        s2.doSend

------------------------------------------------------------
-- The Receive Loop
------------------------------------------------------------

/-
  The rest of `handle_request` and `handle_response` for a PDU
  they pass on: the protocol handler inside the `try`, or the
  outer `catch` for what decoding threw.
-/
def passOn
    (s : BasicSessionImpl)
    (m : Message)
    (decoded : Except String Pdu)
    (cb : Pdu → Callback)
    (pre : String) : BasicSessionImpl :=
  match decoded with
  | .error what => s.deserializationFailed what m.commandId m.body
  | .ok p => s.invoke (cb p) [.handlerGuard pre m.commandId m.body] s

/- The `switch` of `handle_request` on the requests it passes on. -/
def decodeRequest (m : Message) : Except String Pdu :=
  if m.commandId = CommandId.bindReq then deserializeBindRequest m.body
  else if m.commandId = CommandId.streamReq then .ok (deserializeStreamRequest m.body)
  else .error "Unknown request PDU"

/- The `switch` of `handle_response` on the responses it passes on. -/
def decodeResponse (m : Message) : Except String Pdu :=
  if m.commandId = CommandId.bindResp then deserializeBindResponse m.body
  else if m.commandId = CommandId.streamResp then .ok (deserializeStreamResponse m.body)
  else .error "Unknown response PDU"

/-
  `handle_request`: answer `enquire_link_req`; on `unbind_req`
  move to `Unbinding` if it may, answer and close; pass the other
  requests on.
-/
def handleRequest
    (s : BasicSessionImpl)
    (m : Message) : BasicSessionImpl :=
  if m.commandId = CommandId.enquireLinkReq then s.sendCommand
  else if m.commandId = CommandId.unbindReq then
    let s1 := if s.state.canUnbind then { s with state := .unbindingState } else s
    { s1 with stack := .closeAfter "unbind_req received" :: s1.stack }.sendCommand
  else
    s.passOn m (decodeRequest m) (fun r => .onRequest r m.sequenceNumber)
      "Exception in request handler: "

/-
  `handle_response`: nothing for `enquire_link_resp`; on
  `unbind_resp` cancel the wait and close; pass the other
  responses on.
-/
def handleResponse
    (s : BasicSessionImpl)
    (m : Message) : BasicSessionImpl :=
  if m.commandId = CommandId.enquireLinkResp then s
  else if m.commandId = CommandId.unbindResp then
    { s with unbindTimer := false }.close "unbind_resp received"
  else
    s.passOn m (decodeResponse m) (fun r => .onResponse r m.sequenceNumber m.commandStatus)
      "Exception in response handler: "

/- `dispatch_message`. -/
def dispatchMessage
    (s : BasicSessionImpl)
    (m : Message) : BasicSessionImpl :=
  if isResponse m.commandId then s.handleResponse m else s.handleRequest m

/-
  `process_message`: copy the body to the 256-byte stack array
  when it has at most `small_body_size` bytes, to the heap when
  longer, consume the frame, and dispatch.
-/
def processMessage
    (s : BasicSessionImpl)
    (h : Header) : BasicSessionImpl :=
  let bodySize := h.commandLength - headerLength
  let consumed := { s with receiveBuf := s.receiveBuf.consume h.commandLength }
  if bodySize ≤ s.config.smallBodySize ∧ bodySize > 0 then
    if bodySize > 256 then { s with overrun := true }
    else
      consumed.dispatchMessage ⟨h.commandId, h.commandStatus, h.sequenceNumber,
        (s.receiveBuf.bytes.drop headerLength).take bodySize⟩
  else if bodySize > 0 then
    consumed.dispatchMessage ⟨h.commandId, h.commandStatus, h.sequenceNumber,
      (s.receiveBuf.bytes.take h.commandLength).drop headerLength⟩
  else consumed.dispatchMessage ⟨h.commandId, h.commandStatus, h.sequenceNumber, []⟩

/-
  The end of `do_receive` after the loop: settle a pending pause,
  or prepare `64 KiB` and start the next `async_receive`.
-/
def loopExit (s : BasicSessionImpl) : BasicSessionImpl :=
  if s.receivingState = .pendingPause then { s with receivingState := .paused }
  else
    match s.receiveBuf.prepare readSize with
    | .error what => s.throw what
    | .ok buf => { s with receiveBuf := buf, reads := s.reads + 1 }

/- One round of the loop of `do_receive`, with the frames below it. -/
def receiveRound
    (s : BasicSessionImpl)
    (rest : List Frame) : BasicSessionImpl :=
  if s.receivingState ≠ .receiving then { s with stack := rest }.loopExit
  else if s.receiveBuf.size < headerLength then { s with stack := rest }.loopExit
  else
    match deserializeHeader (s.receiveBuf.bytes.take headerLength) with
    | .error what => s.throw what
    | .ok h =>
        if h.commandLength > s.config.maxCommandLength then
          { s with stack := rest }.close
            (SessionImpl.tooLongReason h.commandLength s.config.maxCommandLength)
        else if s.receiveBuf.size < h.commandLength then { s with stack := rest }.loopExit
        else s.processMessage h

------------------------------------------------------------
-- Steps
------------------------------------------------------------

/- A public call. -/
def apiCall (s : BasicSessionImpl) : Api → BasicSessionImpl
  | .start => s.doResumeReceiving
  | .unbind => s.doUnbind
  | .close reason => s.close reason
  | .send pdu => s.doSendImpl pdu
  | .pauseReceiving => s.pauseReceiving
  | .resumeReceiving => s.doResumeReceiving
  | .setProtocolHandler set => s.setProtocolHandler set
  | .setErrorHandler set => s.setErrorHandler set
  | .setCloseHandler set => s.setCloseHandler set
  | .setSendBufAvailableHandler set => s.setSendBufAvailableHandler set

/-
  What the executor runs with the stack empty: a completion of the
  pending read, with between one byte and the room offered, or of
  its failure; of the write in flight, which may complete without
  error after the socket is shut (its bytes went out before), and
  whose handler does not look at the state; of the unbind wait; or
  a call from outside.
-/
def external (s : BasicSessionImpl) : Input → BasicSessionImpl
  | .call api => s.apiCall api
  | .readDone data =>
      if s.reads > 0 ∧ s.socketOpen ∧ 0 < data.length ∧
          data.length ≤ s.receiveBuf.last - s.receiveBuf.outPos then
        { s with reads := s.reads - 1, receiveBuf := s.receiveBuf.commit data }.doReceive
      else s
  | .readFailed message =>
      if s.reads > 0 then { s with reads := s.reads - 1 }.close message else s
  | .writeDone =>
      if s.writes > 0 then
        let s1 := { s with writes := s.writes - 1, writing := 0 }
        if s1.pending ≠ 0 then s1.doSend else s1
      else s
  | .writeFailed message =>
      if s.writes > 0 then { s with writes := s.writes - 1 }.close message else s
  | .unbindTimerFired =>
      if s.unbindTimer then
        let s1 := { s with unbindTimer := false }
        if s1.state = .unbindingState then s1.close "unbind timeout" else s1
      else s
  | .ret => s
  | .raise _ => s

/- The callback on top makes a call, returns, or throws. -/
def userStep
    (s : BasicSessionImpl)
    (rest : List Frame) : Input → BasicSessionImpl
  | .call api => s.apiCall api
  | .ret => { s with stack := rest }
  | .raise what => unwind what s rest
  | _ => s

/- The frame on top goes on; a frame reached by a return does what follows the call. -/
def frameStep
    (s : BasicSessionImpl)
    (i : Input) : Frame → List Frame → BasicSessionImpl
  | .receiveLoop, rest => s.receiveRound rest
  | .user _, rest => s.userStep rest i
  | .handlerGuard .., rest => { s with stack := rest }
  | .errorGuard reason .., rest => { s with stack := rest }.close reason
  | .closeAfter reason, rest => { s with stack := rest }.close reason
  | .afterResume, rest =>
      let s1 := { s with stack := rest }
      s1.invoke .sendBufAvailable [.afterSendBufAvailable] s1.asyncWrite
  | .afterSendBufAvailable, rest => { s with stack := rest }.asyncWrite
  | .afterCloseHandler, rest => { s with stack := rest }
  | .armUnbindTimer, rest => { s with stack := rest, unbindTimer := true }

/- One input. -/
def step (s : BasicSessionImpl) (i : Input) : BasicSessionImpl :=
  if s.overrun then s
  else
    match s.stack with
    | [] => s.external i
    | f :: rest => s.frameStep i f rest

/- The inputs one after another. -/
def run (s : BasicSessionImpl) : List Input → BasicSessionImpl
  | [] => s
  | i :: is => (s.step i).run is

/- The states a session constructed with `config` and `handlers` reaches. -/
def Reachable
    (config : SessionConfig)
    (handlers : Handlers)
    (s : BasicSessionImpl) : Prop :=
  ∃ inputs, (init config handlers).run inputs = s

end BasicSessionImpl

end Net

end Networking

end Vex
