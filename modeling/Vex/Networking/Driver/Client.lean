import Vex.Networking.Driver.Basic

/-
  The client side of the façade: `client` (`net/client.hpp`), the
  driver that connects, binds and reconnects, under `p_client`
  (`p_client.hpp`), which takes each bound session over.

  One state holds both objects, the sessions the client built, and
  the bind handovers that `client::on_bind_response` deferred to
  the executor.  An `Input` is what happens next: a call of
  `p_client::start` or `stop`, the completion of an `async_connect`
  or of the reconnect wait, a response a session calls back with,
  a session's read, write or unbind wait ending it, a write
  completing or a new one issued, or the executor running the first
  deferred handover.  A session closes only through what is
  outstanding on it, or through `client::stop`.

  A run shows the calls of `p_client`'s user handlers
  (`session_handler_` with the session it concerns, `bind_handler_`,
  `close_handler_`), the errors the client posts to its error
  handler, and the `async_connect` calls made.  `stop` cancels the
  reconnect wait and closes the socket: the wait and an
  `async_connect` in flight then end in `operation_aborted`, whose
  handlers do nothing once `auto_reconnect_` is false, so `stop`
  folds them in.  `on_bind_response` dereferences
  `binding_session_`, which may be null; that is undefined
  behaviour, after which the model stops.  A session's id is the
  number of sessions built before it.

  Key definitions include:
    * `CloseHandler`, `ProtocolHandler`, `Response`, `UserCall`
    * `Client`, `PClient`, `Stack`, `Stack.Input`
    * `Stack.onResponse`, `Stack.closeSession`, `Stack.stop`, `Stack.onBind`
    * `Stack.step`, `Stack.run`, `Stack.Quiet`

  Key theorems include:
    * `Stack.quiet_step`, `Stack.quiet_run`
    * `Stack.run_failed_bind_resps`
-/

namespace Vex

namespace Networking

namespace Driver

open Net (SessionState)

------------------------------------------------------------
-- Handlers and Calls
------------------------------------------------------------

/- The close handlers: `client::on_binding_session_close` and `p_client::on_session_close`. -/
inductive CloseHandler where
  | clientBinding
  | pClient
  deriving DecidableEq, Repr

/-
  The protocol handlers: `client_protocol_handler`, with whether
  its `bind_callback_` is set, and `p_client_protocol_handler`.
-/
inductive ProtocolHandler where
  | client (bindCallback : Bool)
  | pClient
  deriving DecidableEq, Repr

/- A response a session calls back with: a `bind_response` with its `system_id` and status, or another. -/
inductive Response where
  | bindResp (systemId : String) (status : UInt8)
  | other
  deriving DecidableEq, Repr

/- `session_stat`. -/
inductive SessionStat where
  | bind
  | close
  deriving DecidableEq, Repr

/-
  A call of a user handler of `p_client`: `session_handler_` with
  the session it concerns (which the handler is not given),
  `bind_handler_` and `close_handler_`.
-/
inductive UserCall where
  | sessionHandler (serverId : String) (stat : SessionStat) (sid : Nat)
  | bindHandler (systemId : String)
  | closeHandler (serverId : String)
  deriving DecidableEq, Repr

/- Whether a call reports the close of session `sid` to `session_handler_`. -/
def UserCall.closes (sid : Nat) : UserCall → Bool
  | .sessionHandler _ .close sid' => sid' == sid
  | _ => false

------------------------------------------------------------
-- State
------------------------------------------------------------

/-
  `client`: `auto_reconnect_`, the `async_connect` calls in flight,
  whether the reconnect wait is armed, `binding_session_`, the
  `async_connect` calls made, and the errors posted to
  `error_handler_`.
-/
structure Client where
  autoReconnect : Bool
  connecting : Nat
  retryArmed : Bool
  bindingSession : Option Nat
  connects : Nat
  errors : List String
  deriving DecidableEq, Repr

/- `p_client`: `binded_session_`, `server_id_`, `auto_reconnect_`, and the calls of its user handlers. -/
structure PClient where
  bindedSession : Option Nat
  serverId : String
  autoReconnect : Bool
  calls : List UserCall
  deriving DecidableEq, Repr

/-
  A `p_client` with its `client`: the sessions by id and how many
  were built, the two objects, the deferred handovers (each with
  the `system_id` and the session it captured), and whether a null
  session was dereferenced.
-/
structure Stack where
  sessions : Nat → Session CloseHandler ProtocolHandler
  built : Nat
  client : Client
  pClient : PClient
  deferred : List (String × Nat)
  fault : Bool

namespace Stack

/- A `p_client` as constructed, before `start`: the client's `auto_reconnect_` starts true. -/
def init (autoReconnect : Bool) : Stack :=
  ⟨fun _ => Session.absent, 0, ⟨true, 0, false, none, 0, []⟩, ⟨none, "", autoReconnect, []⟩, [], false⟩

/- Session `sid` becomes `s`. -/
def setSession
    (st : Stack)
    (sid : Nat)
    (s : Session CloseHandler ProtocolHandler) : Stack :=
  { st with sessions := Function.update st.sessions sid s }

------------------------------------------------------------
-- The Client
------------------------------------------------------------

/- `do_connect`: an `async_connect`. -/
def doConnect (st : Stack) : Stack :=
  { st with client := { st.client with
      connecting := st.client.connecting + 1
      connects := st.client.connects + 1 } }

/- `do_set_retry_timer`: arm the reconnect wait while `auto_reconnect_`. -/
def doSetRetryTimer (st : Stack) : Stack :=
  if st.client.autoReconnect then { st with client := { st.client with retryArmed := true } }
  else st

/-
  `on_connect`: build the binding session with its bind callback
  set, hold it, start it, and send the `bind_req`.
-/
def onConnect (st : Stack) : Stack :=
  { st.setSession st.built (Session.built .clientBinding (.client true)).start.send with
    built := st.built + 1
    client := { st.client with bindingSession := some st.built } }

/-
  `on_bind_response`: pause receiving on `binding_session_` (the
  do_receive loop that called back settles to paused and issues no
  read), defer its handover to `bind_handler_`, and release it.
-/
def onBindResponse
    (st : Stack)
    (systemId : String) : Stack :=
  match st.client.bindingSession with
  | none => { st with fault := true }
  | some sid =>
      { st.setSession sid { st.sessions sid with reading := false } with
        deferred := st.deferred ++ [(systemId, sid)]
        client := { st.client with bindingSession := none } }

/-
  `on_response` of session `sid`'s protocol handler.  The client's
  takes a `bind_response` with status `rok` while its bind callback
  is set, and clears the callback; every other response goes to a
  `response_callback_` that the client never sets.  The responses
  `p_client`'s handler takes are the request path's.
-/
def onResponse
    (st : Stack)
    (sid : Nat)
    (resp : Response) : Stack :=
  match (st.sessions sid).protocolHandler, resp with
  | some (.client true), .bindResp systemId status =>
      if status = CommandStatus.rok then
        let st1 := st.onBindResponse systemId
        st1.setSession sid { st1.sessions sid with protocolHandler := some (.client false) }
      else st
  | _, _ => st

/-
  `on_binding_session_close`: post the error, release
  `binding_session_`, and arm the reconnect wait while
  `auto_reconnect_`.
-/
def onBindingSessionClose
    (st : Stack)
    (err : Option String) : Stack :=
  { st with client := { st.client with
      errors := st.client.errors ++ ["Session has been closed during binding, error:" ++ err.getD "none"]
      bindingSession := none } }.doSetRetryTimer

------------------------------------------------------------
-- The P_Client
------------------------------------------------------------

/-
  `p_client::on_session_close` for session `sid`: release
  `binded_session_`, call the close and session handlers, and
  `start()` while its own `auto_reconnect_`.  Its `expire_all` is
  the request path's close.
-/
def onSessionClose
    (st : Stack)
    (sid : Nat) : Stack :=
  let p := st.pClient
  let st1 := { st with pClient := { p with
    bindedSession := none
    calls := p.calls ++ [.closeHandler p.serverId, .sessionHandler p.serverId .close sid] } }
  if p.autoReconnect then st1.doConnect else st1

/- Run the close handler call that the close of session `sid` made. -/
def runCloseHandler
    (st : Stack)
    (sid : Nat) : Option (CloseHandler × Option String) → Stack
  | none => st
  | some (.clientBinding, err) => st.onBindingSessionClose err
  | some (.pClient, _) => st.onSessionClose sid

/- `close(reason)` of session `sid`, then the close handler it calls. -/
def closeSession
    (st : Stack)
    (sid : Nat)
    (reason : String) : Stack :=
  let r := (st.sessions sid).close reason
  (st.setSession sid r.1).runCloseHandler sid r.2

/-
  `client::stop`: clear `auto_reconnect_`, cancel the reconnect
  wait, close the binding session and release it, and close the
  socket.
-/
def clientStop (st : Stack) : Stack :=
  let st1 := { st with client := { st.client with autoReconnect := false, retryArmed := false } }
  let st2 :=
    match st1.client.bindingSession with
    | none => st1
    | some sid => st1.closeSession sid "Client stopped"
  { st2 with client := { st2.client with bindingSession := none, connecting := 0 } }

/- `p_client::stop`: the client's `stop`, then `unbind()` of the bound session, released. -/
def stop (st : Stack) : Stack :=
  let st1 := st.clientStop
  match st1.pClient.bindedSession with
  | none => st1
  | some sid =>
      { st1.setSession sid (st1.sessions sid).unbind with
        pClient := { st1.pClient with bindedSession := none } }

/-
  `p_client::on_bind(resp, session)`, which a deferred handover
  calls: take the server id, install `p_client`'s protocol and
  close handlers on the session, hold it as bound, and call the
  session and bind handlers.
-/
def onBind
    (st : Stack)
    (systemId : String)
    (sid : Nat) : Stack :=
  let p := st.pClient
  { st.setSession sid
      { st.sessions sid with protocolHandler := some .pClient, closeHandler := some .pClient } with
    pClient := { p with
      serverId := systemId
      bindedSession := some sid
      calls := p.calls ++ [.sessionHandler systemId .bind sid, .bindHandler systemId] } }

------------------------------------------------------------
-- Runs
------------------------------------------------------------

/-
  The rest of a deferred handover after `bind_handler_`:
  `resume_receiving` of the session, which issues a read whatever
  its state.
-/
def resumeReceiving
    (st : Stack)
    (sid : Nat) : Stack :=
  st.setSession sid (st.sessions sid).start

/-
  What happens next: `p_client::start` or `stop`; an
  `async_connect` completing or failing; the reconnect wait
  expiring; session `sid` calling back with a response; what its
  read in flight receives closing it (a read error, the peer's
  close, or a frame whose handling closes it: `unbind_req`,
  `unbind_resp`, a bad header or body); its write in flight
  completing or failing; its unbind wait expiring; a new write on
  it (an `enquire_link_resp` it answers while reading, or a frame
  of the request path on the bound session); the executor running
  the first deferred handover.
-/
inductive Input where
  | start
  | stop
  | connectDone
  | connectFailed
  | retryFired
  | response (sid : Nat) (resp : Response)
  | receiveCloses (sid : Nat) (reason : String)
  | writeDone (sid : Nat)
  | writeFails (sid : Nat) (reason : String)
  | unbindTimeout (sid : Nat)
  | sent (sid : Nat)
  | deferredRuns
  deriving DecidableEq, Repr

/-
  The next input; a closed session calls nothing back, an input
  of a session with nothing outstanding for it does nothing, and
  nothing runs after a fault.
-/
def step (st : Stack) (i : Input) : Stack :=
  if st.fault then st
  else
    match i with
    | .start => st.doConnect
    | .stop => st.stop
    | .connectDone =>
        if 0 < st.client.connecting then
          { st with client := { st.client with connecting := st.client.connecting - 1 } }.onConnect
        else st
    | .connectFailed =>
        if 0 < st.client.connecting then
          { st with client := { st.client with connecting := st.client.connecting - 1 } }.doSetRetryTimer
        else st
    | .retryFired =>
        if st.client.retryArmed then
          { st with client := { st.client with retryArmed := false } }.doConnect
        else st
    | .response sid resp =>
        if (st.sessions sid).state = .closedState then st else st.onResponse sid resp
    | .receiveCloses sid reason =>
        if (st.sessions sid).reading then st.closeSession sid reason else st
    | .writeDone sid =>
        if (st.sessions sid).writing then st.setSession sid { st.sessions sid with writing := false }
        else st
    | .writeFails sid reason =>
        if (st.sessions sid).writing then
          (st.setSession sid { st.sessions sid with writing := false }).closeSession sid reason
        else st
    | .unbindTimeout sid =>
        if (st.sessions sid).state = .unbindingState then st.closeSession sid "unbind timeout" else st
    | .sent sid =>
        if (st.sessions sid).state ≠ .closedState ∧
            ((st.sessions sid).reading ∨ st.pClient.bindedSession = some sid) then
          st.setSession sid (st.sessions sid).send
        else st
    | .deferredRuns =>
        match st.deferred with
        | [] => st
        | (systemId, sid) :: rest => ({ st with deferred := rest }.onBind systemId sid).resumeReceiving sid

/- The inputs in order. -/
def run (st : Stack) : List Input → Stack
  | [] => st
  | i :: is => (st.step i).run is

@[simp]
theorem run_nil (st : Stack) : st.run [] = st :=
  rfl

@[simp]
theorem run_cons (st : Stack) (i : Input) (is : List Input) : st.run (i :: is) = (st.step i).run is :=
  rfl

theorem run_append (st : Stack) (is js : List Input) : st.run (is ++ js) = (st.run is).run js := by
  induction is generalizing st with
  | nil => rfl
  | cons i is ih => exact ih (st.step i)

------------------------------------------------------------
-- Failed Binds
------------------------------------------------------------

section Binding

variable {st : Stack} {sid : Nat}

/-
  A response at the binding session that is not a `bind_response`
  with status `rok` changes nothing: it goes to the unset
  `response_callback_`.
-/
theorem step_response_of_not_rok
    (hFault : st.fault = false)
    (hBind : (st.sessions sid).protocolHandler = some (.client true))
    {resp : Response}
    (hResp : ∀ systemId, resp ≠ .bindResp systemId CommandStatus.rok) :
    st.step (.response sid resp) = st := by
  simp only [step, hFault, Bool.false_eq_true, if_false]
  split_ifs
  · rfl
  · unfold onResponse
    rw [hBind]
    cases resp with
    | bindResp systemId status =>
        have hStatus : status ≠ CommandStatus.rok := fun h => hResp systemId (h ▸ rfl)
        exact if_neg hStatus
    | other => rfl

/-
  Every sequence of responses at the binding session without a
  `bind_response` with status `rok` leaves the whole state as it
  was: the session open and held as binding, and no reconnect.
-/
theorem run_failed_bind_resps
    (hFault : st.fault = false)
    (hBind : (st.sessions sid).protocolHandler = some (.client true))
    (frames : List Response)
    (hFrames : ∀ systemId, Response.bindResp systemId CommandStatus.rok ∉ frames) :
    st.run (frames.map (.response sid)) = st := by
  induction frames with
  | nil => rfl
  | cons resp frames ih =>
      have hHead : ∀ systemId, resp ≠ .bindResp systemId CommandStatus.rok :=
        fun systemId h => hFrames systemId (h ▸ List.mem_cons_self _ _)
      rw [List.map_cons, run_cons, step_response_of_not_rok hFault hBind hHead]
      exact ih fun systemId h => hFrames systemId (List.mem_cons_of_mem _ h)

/-
  A `bind_response` with status `rok` at the binding session: the
  handover of the session is deferred, and the client releases it.
-/
theorem step_response_rok
    (hFault : st.fault = false)
    (hBinding : st.client.bindingSession = some sid)
    (hOpen : (st.sessions sid).state ≠ .closedState)
    (hBind : (st.sessions sid).protocolHandler = some (.client true))
    (systemId : String) :
    (st.step (.response sid (.bindResp systemId CommandStatus.rok))).deferred =
        st.deferred ++ [(systemId, sid)] ∧
      (st.step (.response sid (.bindResp systemId CommandStatus.rok))).client.bindingSession = none := by
  simp only [step, hFault, Bool.false_eq_true, if_false, hOpen, onResponse, hBind, if_true,
    onBindResponse, hBinding]
  exact ⟨rfl, rfl⟩

end Binding

/-
  The binding session after a `bind_response`: with status `rok`
  its handover is deferred and the client releases it; any other
  status goes to the unset `response_callback_`, so every sequence
  of responses without a `rok` one leaves the whole state as it was,
  with the session open and held as binding, no close and no
  reconnect wait armed.
-/
theorem failed_bind_resp_keeps_session_binding :
    ∀ (st : Stack) (sid : Nat), st.fault = false → st.client.bindingSession = some sid →
      (st.sessions sid).state ≠ .closedState →
      (st.sessions sid).protocolHandler = some (.client true) →
      (∀ systemId,
        (st.step (.response sid (.bindResp systemId CommandStatus.rok))).deferred =
            st.deferred ++ [(systemId, sid)] ∧
          (st.step (.response sid (.bindResp systemId CommandStatus.rok))).client.bindingSession =
            none) ∧
      ∀ frames : List Response, (∀ systemId, Response.bindResp systemId CommandStatus.rok ∉ frames) →
        st.run (frames.map (.response sid)) = st :=
  fun _ _ hFault hBinding hOpen hBind =>
    ⟨step_response_rok hFault hBinding hOpen hBind, run_failed_bind_resps hFault hBind⟩

/-
  Connected, the client's bind is refused: the session stays open
  and held as binding, and no reconnect wait is armed.
-/
theorem rfail_bind_resp_leaves_client_binding :
    ((Stack.init true).run [.start, .connectDone]).run
        [.response 0 (.bindResp "S" CommandStatus.rfail)] =
        (Stack.init true).run [.start, .connectDone] ∧
      (((Stack.init true).run [.start, .connectDone]).sessions 0).state = .openState ∧
      ((Stack.init true).run [.start, .connectDone]).client.bindingSession = some 0 ∧
      ((Stack.init true).run [.start, .connectDone]).client.retryArmed = false :=
  ⟨(failed_bind_resp_keeps_session_binding _ 0 rfl rfl (by decide) rfl).2
      [.bindResp "S" CommandStatus.rfail] fun systemId h => by
        simp [CommandStatus.rok, CommandStatus.rfail] at h,
    rfl, rfl, rfl⟩

end Stack

end Driver

end Networking

end Vex
