import Vex.Networking.Driver.Basic

/-
  The server driver (`net/server.hpp`): it accepts connections,
  builds a binding session for each, with `server_protocol_handler`
  and `on_binding_session_close` as its handlers, and at the
  session's `bind_request` asks the user's bind handler whether to
  accept it.

  A `Server` holds its sessions by id (an id is the number of
  sessions built before), the keys of `binding_sessions_`, the
  sessions `session_mgr_` holds, and what a run shows: the sessions
  the bind handler was asked about, and the statuses of the
  `bind_response`s sent.  The user's bind handler is a parameter,
  a function of the `bind_request`'s `system_id` and the session; one
  that throws is one that returns false.  Keep-alive options, the
  remote endpoint and the log lines are not modelled.

  Key definitions include:
    * `ServerCloseHandler`, `ServerProtocolHandler`, `Server`
    * `Server.onAccept`, `Server.onRequest`, `Server.onBindRequest`, `Server.stop`
    * `Server.step`, `Server.run`, `Server.Inv`

  Key theorems include:
    * `Server.inv_run`, `Server.run_sessionMgr`
    * `Server.step_request_of_not_bind`, `Server.step_bind_accepted`
-/

namespace Vex

namespace Networking

namespace Driver

open Net (SessionState)

------------------------------------------------------------
-- State
------------------------------------------------------------

/- The server's close handler: `server::on_binding_session_close`. -/
inductive ServerCloseHandler where
  | serverBinding
  deriving DecidableEq, Repr

/- `server_protocol_handler`, with whether its `bind_callback_` is set. -/
inductive ServerProtocolHandler where
  | server (bindCallback : Bool)
  deriving DecidableEq, Repr

/-
  `server`: whether an `async_accept` is pending, the sessions by
  id and how many were built, the keys of `binding_sessions_`, the
  sessions `session_mgr_` holds, the sessions `bind_handler_` was
  called for, and the `bind_response`s sent, with their status.
-/
structure Server where
  accepting : Bool
  sessions : Nat → Session ServerCloseHandler ServerProtocolHandler
  built : Nat
  bindingSessions : List Nat
  sessionMgr : List Nat
  consulted : List Nat
  bindResps : List (Nat × UInt8)

namespace Server

/- A server as constructed: listening, not yet accepting. -/
def init : Server :=
  ⟨false, fun _ => Session.absent, 0, [], [], [], []⟩

/- Session `sid` becomes `s`. -/
def setSession
    (sv : Server)
    (sid : Nat)
    (s : Session ServerCloseHandler ServerProtocolHandler) : Server :=
  { sv with sessions := Function.update sv.sessions sid s }

/- `start`: `do_accept`. -/
def start (sv : Server) : Server :=
  { sv with accepting := true }

/-
  `on_accept`: build a binding session with the bind callback set,
  track it in `binding_sessions_`, and start it; `do_accept` then
  waits for the next connection.
-/
def onAccept (sv : Server) : Server :=
  { sv.setSession sv.built (Session.built .serverBinding (.server true)).start with
    built := sv.built + 1
    bindingSessions := sv.bindingSessions.insert sv.built }

/- `binding_sessions_.erase(session)`. -/
def eraseBinding
    (sv : Server)
    (sid : Nat) : Server :=
  { sv with bindingSessions := sv.bindingSessions.filter (· != sid) }

/- Run the close handler call that the close of session `sid` made: `on_binding_session_close`. -/
def runCloseHandler
    (sv : Server)
    (sid : Nat) : Option (ServerCloseHandler × Option String) → Server
  | none => sv
  | some (.serverBinding, _) => sv.eraseBinding sid

/- `close(reason)` of session `sid`, then the close handler it calls. -/
def closeSession
    (sv : Server)
    (sid : Nat)
    (reason : String) : Server :=
  let r := (sv.sessions sid).close reason
  (sv.setSession sid r.1).runCloseHandler sid r.2

/-
  `on_bind_request(session, req, seq)`: ask `bind_handler_`; on
  accept, send `rok` and erase the session from
  `binding_sessions_` (it is not added to `session_mgr_`); else
  send `rfail`, close the session with "Bind rejected", and erase
  it.
-/
def onBindRequest
    (bindHandler : List UInt8 → Nat → Bool)
    (sv : Server)
    (sid : Nat)
    (systemId : List UInt8) : Server :=
  let sv1 := { sv with consulted := sv.consulted ++ [sid] }
  if bindHandler systemId sid then
    { sv1 with bindResps := sv1.bindResps ++ [(sid, CommandStatus.rok)] }.eraseBinding sid
  else
    ({ sv1 with bindResps := sv1.bindResps ++ [(sid, CommandStatus.rfail)] }.closeSession sid
      "Bind rejected").eraseBinding sid

/-
  `server_protocol_handler::on_request` of session `sid`: a
  `bind_request` while the bind callback is set clears the callback
  and runs `on_bind_request`; every other request goes to a
  `request_callback_` that the server never sets.
-/
def onRequest
    (bindHandler : List UInt8 → Nat → Bool)
    (sv : Server)
    (sid : Nat)
    (req : Pdu) : Server :=
  match (sv.sessions sid).protocolHandler, req with
  | some (.server true), .bindRequest systemId =>
      (sv.setSession sid { sv.sessions sid with protocolHandler := some (.server false) }).onBindRequest
        bindHandler sid systemId
  | _, _ => sv

/- `session_mgr_.close_all()`: `unbind()` of each session it holds. -/
def unbindAll (sv : Server) : List Nat → Server
  | [] => sv
  | sid :: rest => (sv.setSession sid (sv.sessions sid).unbind).unbindAll rest

/- `stop`: close the acceptor, then `session_mgr_.close_all()`. -/
def stop (sv : Server) : Server :=
  { sv with accepting := false }.unbindAll sv.sessionMgr

------------------------------------------------------------
-- Runs
------------------------------------------------------------

/-
  What happens next: `start` or `stop`; a connection accepted;
  session `sid` calling back with a request, or closing.
-/
inductive Input where
  | start
  | stop
  | accept
  | request (sid : Nat) (req : Pdu)
  | closed (sid : Nat) (reason : String)
  deriving DecidableEq, Repr

/- The next input, with the user's bind handler; a closed session calls nothing back. -/
def step
    (bindHandler : List UInt8 → Nat → Bool)
    (sv : Server) : Input → Server
  | .start => sv.start
  | .stop => sv.stop
  | .accept => if sv.accepting then sv.onAccept else sv
  | .request sid req =>
      if (sv.sessions sid).state = .closedState then sv else sv.onRequest bindHandler sid req
  | .closed sid reason => sv.closeSession sid reason

/- The inputs in order. -/
def run
    (bindHandler : List UInt8 → Nat → Bool)
    (sv : Server) : List Input → Server
  | [] => sv
  | i :: is => (sv.step bindHandler i).run bindHandler is

@[simp]
theorem run_nil
    (bindHandler : List UInt8 → Nat → Bool)
    (sv : Server) :
    sv.run bindHandler [] = sv :=
  rfl

@[simp]
theorem run_cons
    (bindHandler : List UInt8 → Nat → Bool)
    (sv : Server)
    (i : Input)
    (is : List Input) :
    sv.run bindHandler (i :: is) = (sv.step bindHandler i).run bindHandler is :=
  rfl

------------------------------------------------------------
-- Field Lemmas
------------------------------------------------------------

section Fields

variable (sv : Server) (sid : Nat)

theorem setSession_sessions (s : Session ServerCloseHandler ServerProtocolHandler) (sid' : Nat) :
    (sv.setSession sid s).sessions sid' = if sid' = sid then s else sv.sessions sid' :=
  Function.update_apply _ _ _ _

@[simp]
theorem setSession_built (s : Session ServerCloseHandler ServerProtocolHandler) :
    (sv.setSession sid s).built = sv.built :=
  rfl

@[simp]
theorem setSession_consulted (s : Session ServerCloseHandler ServerProtocolHandler) :
    (sv.setSession sid s).consulted = sv.consulted :=
  rfl

@[simp]
theorem setSession_sessionMgr (s : Session ServerCloseHandler ServerProtocolHandler) :
    (sv.setSession sid s).sessionMgr = sv.sessionMgr :=
  rfl

@[simp]
theorem setSession_bindingSessions (s : Session ServerCloseHandler ServerProtocolHandler) :
    (sv.setSession sid s).bindingSessions = sv.bindingSessions :=
  rfl

@[simp]
theorem runCloseHandler_sessionMgr (call : Option (ServerCloseHandler × Option String)) :
    (sv.runCloseHandler sid call).sessionMgr = sv.sessionMgr := by
  rcases call with _ | ⟨⟨⟩, _⟩ <;> rfl

@[simp]
theorem closeSession_sessionMgr (reason : String) :
    (sv.closeSession sid reason).sessionMgr = sv.sessionMgr :=
  runCloseHandler_sessionMgr _ _ _

@[simp]
theorem unbindAll_sessionMgr (sids : List Nat) : (sv.unbindAll sids).sessionMgr = sv.sessionMgr := by
  induction sids generalizing sv with
  | nil => rfl
  | cons sid sids ih => exact ih _

/- Nothing the server does adds a session to `session_mgr_`. -/
theorem step_sessionMgr
    (bindHandler : List UInt8 → Nat → Bool)
    (i : Input) :
    (sv.step bindHandler i).sessionMgr = sv.sessionMgr := by
  cases i with
  | start => rfl
  | stop => exact unbindAll_sessionMgr _ _
  | accept =>
      simp only [step]
      split_ifs <;> rfl
  | request sid req =>
      simp only [step, onRequest, onBindRequest, eraseBinding]
      split_ifs
      · rfl
      · split
        · split_ifs <;> simp
        · rfl
  | closed sid reason => exact closeSession_sessionMgr _ _ _

theorem run_sessionMgr
    (bindHandler : List UInt8 → Nat → Bool)
    (sv : Server)
    (is : List Input) :
    (sv.run bindHandler is).sessionMgr = sv.sessionMgr := by
  induction is generalizing sv with
  | nil => rfl
  | cons i is ih => exact (ih _).trans (step_sessionMgr _ _ _)

end Fields

------------------------------------------------------------
-- The Bind Handler Is Asked Once
------------------------------------------------------------

/-
  How often `bind_handler_` was asked about session `sid`, plus one
  while its bind callback is still set.
-/
def callbackCount
    (sv : Server)
    (sid : Nat) : Nat :=
  sv.consulted.count sid +
    if (sv.sessions sid).protocolHandler = some (.server true) then 1 else 0

/- Each session is asked about at most once, counting its callback while set; an id not given out yet has neither. -/
structure Inv (sv : Server) : Prop where
  once : ∀ sid, sv.callbackCount sid ≤ 1
  fresh : ∀ sid, sv.built ≤ sid → sv.callbackCount sid = 0

/- From `sv` to `sv'`: nothing is built, and no session gains a consultation or a callback. -/
def NoNewCallback (sv sv' : Server) : Prop :=
  sv'.built = sv.built ∧ ∀ sid, sv'.callbackCount sid ≤ sv.callbackCount sid

variable {sv sv' sv'' : Server}

theorem NoNewCallback.refl (sv : Server) : NoNewCallback sv sv :=
  ⟨rfl, fun _ => le_rfl⟩

theorem NoNewCallback.trans
    (h₁ : NoNewCallback sv sv')
    (h₂ : NoNewCallback sv' sv'') :
    NoNewCallback sv sv'' :=
  ⟨h₂.1.trans h₁.1, fun sid => (h₂.2 sid).trans (h₁.2 sid)⟩

theorem Inv.of_noNewCallback
    (hInv : Inv sv)
    (h : NoNewCallback sv sv') :
    Inv sv' :=
  ⟨fun sid => (h.2 sid).trans (hInv.once sid),
    fun sid hSid => Nat.eq_zero_of_le_zero ((h.2 sid).trans (hInv.fresh sid (h.1 ▸ hSid)).le)⟩

/- A change of fields the count does not read. -/
theorem noNewCallback_of_eq
    (hBuilt : sv'.built = sv.built)
    (hSessions : sv'.sessions = sv.sessions)
    (hConsulted : sv'.consulted = sv.consulted) :
    NoNewCallback sv sv' :=
  ⟨hBuilt, fun sid => by simp only [callbackCount, hSessions, hConsulted, le_refl]⟩

theorem noNewCallback_runCloseHandler
    (sv : Server)
    (sid : Nat)
    (call : Option (ServerCloseHandler × Option String)) :
    NoNewCallback sv (sv.runCloseHandler sid call) := by
  rcases call with _ | ⟨⟨⟩, _⟩
  · exact .refl sv
  · exact noNewCallback_of_eq rfl rfl rfl

/- Setting a session that gains no bind callback. -/
theorem noNewCallback_setSession
    {sid : Nat}
    {s : Session ServerCloseHandler ServerProtocolHandler}
    (hProto : s.protocolHandler = some (.server true) →
      (sv.sessions sid).protocolHandler = some (.server true)) :
    NoNewCallback sv (sv.setSession sid s) := by
  refine ⟨rfl, fun sid' => ?_⟩
  simp only [callbackCount, setSession_consulted, setSession_sessions]
  split_ifs with hEq <;> simp_all

theorem noNewCallback_closeSession (sv : Server) (sid : Nat) (reason : String) :
    NoNewCallback sv (sv.closeSession sid reason) := by
  have hSet : NoNewCallback sv (sv.setSession sid ((sv.sessions sid).close reason).1) := by
    refine noNewCallback_setSession fun h => ?_
    unfold Session.close Session.doClose at h
    split_ifs at h <;> simp_all
  exact hSet.trans (noNewCallback_runCloseHandler _ _ _)

theorem noNewCallback_unbindAll (sv : Server) (sids : List Nat) :
    NoNewCallback sv (sv.unbindAll sids) := by
  induction sids generalizing sv with
  | nil => exact .refl sv
  | cons sid sids ih =>
      exact (noNewCallback_setSession (by simp)).trans (ih _)

/-
  A `bind_request` at a session with its callback set: the callback
  goes and the consultation comes, for that session only.
-/
theorem noNewCallback_onRequest
    (bindHandler : List UInt8 → Nat → Bool)
    (sv : Server)
    (sid : Nat)
    (req : Pdu) :
    NoNewCallback sv (sv.onRequest bindHandler sid req) := by
  unfold onRequest
  split
  · rename_i hProto
    set sv1 := sv.setSession sid { sv.sessions sid with protocolHandler := some (.server false) }
    /- Asking the bind handler trades the callback for a consultation. -/
    have hAsk : NoNewCallback sv { sv1 with consulted := sv1.consulted ++ [sid] } := by
      refine ⟨rfl, fun sid' => ?_⟩
      simp only [callbackCount, sv1, setSession_consulted, setSession_sessions, List.count_append,
        List.count_singleton]
      by_cases hEq : sid' = sid
      · subst hEq
        simp [hProto]
      · simp [hEq, Ne.symm hEq]
    unfold onBindRequest
    split_ifs
    · exact hAsk.trans (noNewCallback_of_eq rfl rfl rfl)
    · refine hAsk.trans (NoNewCallback.trans ?_
        ((noNewCallback_closeSession _ _ _).trans (noNewCallback_of_eq rfl rfl rfl)))
      exact noNewCallback_of_eq rfl rfl rfl
  · exact .refl sv

theorem inv_onAccept (hInv : Inv sv) : Inv sv.onAccept := by
  have hFresh := hInv.fresh sv.built le_rfl
  have hCount : ∀ sid, sv.onAccept.callbackCount sid =
      if sid = sv.built then 1 else sv.callbackCount sid := by
    intro sid
    by_cases hEq : sid = sv.built
    · subst hEq
      simp only [callbackCount, Nat.add_eq_zero] at hFresh
      simp [onAccept, callbackCount, setSession_sessions, hFresh.1, Session.built, Session.start]
    · simp [onAccept, callbackCount, setSession_sessions, hEq]
  refine ⟨fun sid => ?_, fun sid hSid => ?_⟩
  · rw [hCount]
    split_ifs
    · exact le_rfl
    · exact hInv.once sid
  · have hNe : sid ≠ sv.built := by simp only [onAccept] at hSid; omega
    rw [hCount, if_neg hNe]
    exact hInv.fresh sid (by simp only [onAccept] at hSid; omega)

theorem inv_init : Inv init :=
  ⟨fun _ => by simp [callbackCount, init, Session.absent],
    fun _ _ => by simp [callbackCount, init, Session.absent]⟩

theorem inv_step
    (bindHandler : List UInt8 → Nat → Bool)
    (hInv : Inv sv)
    (i : Input) :
    Inv (sv.step bindHandler i) := by
  cases i with
  | start => exact hInv.of_noNewCallback (noNewCallback_of_eq rfl rfl rfl)
  | stop =>
      refine hInv.of_noNewCallback (NoNewCallback.trans ?_ (noNewCallback_unbindAll _ _))
      exact noNewCallback_of_eq rfl rfl rfl
  | accept =>
      simp only [step]
      split_ifs
      · exact inv_onAccept hInv
      · exact hInv
  | request sid req =>
      simp only [step]
      split_ifs
      · exact hInv
      · exact hInv.of_noNewCallback (noNewCallback_onRequest _ _ _ _)
  | closed sid reason => exact hInv.of_noNewCallback (noNewCallback_closeSession _ _ _)

/- In every run, the bind handler is asked at most once about each session. -/
theorem inv_run
    (bindHandler : List UInt8 → Nat → Bool)
    (hInv : Inv sv)
    (is : List Input) :
    Inv (sv.run bindHandler is) := by
  induction is generalizing sv with
  | nil => exact hInv
  | cons i is ih => exact ih (inv_step bindHandler hInv i)

------------------------------------------------------------
-- The Binding Phase
------------------------------------------------------------

section Binding

variable {bindHandler : List UInt8 → Nat → Bool} {sid : Nat}

/-
  A request other than a `bind_request` changes nothing: it goes to
  the unset `request_callback_`, and the session stays as it was.
-/
theorem step_request_of_not_bind
    {req : Pdu}
    (hReq : ∀ systemId, req ≠ .bindRequest systemId) :
    sv.step bindHandler (.request sid req) = sv := by
  simp only [step]
  split_ifs
  · rfl
  · unfold onRequest
    split
    · exact absurd rfl (hReq _)
    · rfl

/-
  An accepted `bind_request` at a session with its callback set:
  the handler is asked, `rok` is sent, and the session leaves
  `binding_sessions_`, open as it was.
-/
theorem step_bind_accepted
    (hOpen : (sv.sessions sid).state ≠ .closedState)
    (hProto : (sv.sessions sid).protocolHandler = some (.server true))
    {systemId : List UInt8}
    (hAccept : bindHandler systemId sid = true) :
    sv.step bindHandler (.request sid (.bindRequest systemId)) =
      { sv.setSession sid { sv.sessions sid with protocolHandler := some (.server false) } with
        consulted := sv.consulted ++ [sid]
        bindResps := sv.bindResps ++ [(sid, CommandStatus.rok)]
        bindingSessions := sv.bindingSessions.filter (· != sid) } := by
  simp only [step, hOpen, if_false, onRequest, hProto, onBindRequest, hAccept, if_true]
  rfl

end Binding

/-
  The server's binding phase: in every run the bind handler is
  asked at most once per session, but no session ever reaches
  `session_mgr_`, so `stop` reaches none.  A session whose bind is
  accepted leaves `binding_sessions_` open; a `stream_request` in
  the binding phase is dropped, and the session stays open and
  binding.
-/
theorem binding_phase_drops_requests_and_sessions :
    ∀ bindHandler : List UInt8 → Nat → Bool,
      (∀ is, (∀ sid, (init.run bindHandler is).consulted.count sid ≤ 1) ∧
        (init.run bindHandler is).sessionMgr = [] ∧
        ((init.run bindHandler is).step bindHandler .stop).sessions =
          (init.run bindHandler is).sessions) ∧
      ∀ (sv : Server) (sid : Nat), (sv.sessions sid).state ≠ .closedState →
        (sv.sessions sid).protocolHandler = some (.server true) →
        (∀ messageBody, sv.step bindHandler (.request sid (.streamRequest messageBody)) = sv) ∧
        ∀ systemId, bindHandler systemId sid = true →
          let sv' := sv.step bindHandler (.request sid (.bindRequest systemId))
          sv'.consulted = sv.consulted ++ [sid] ∧ sid ∉ sv'.bindingSessions ∧
            sv'.sessionMgr = sv.sessionMgr ∧ (sv'.sessions sid).state = (sv.sessions sid).state := by
  intro bindHandler
  refine ⟨fun is => ?_, fun sv sid hOpen hProto => ⟨fun _ => step_request_of_not_bind nofun,
    fun systemId hAccept => ?_⟩⟩
  · have hInv := inv_run bindHandler inv_init is
    have hMgr : (init.run bindHandler is).sessionMgr = [] := run_sessionMgr _ _ _
    refine ⟨fun sid => (Nat.le_add_right _ _).trans (hInv.once sid), hMgr, ?_⟩
    simp only [step, stop, hMgr]
    rfl
  · simp [step_bind_accepted hOpen hProto hAccept, setSession_sessions]

/- The bind handler that accepts every bind. -/
def acceptAll (_ : List UInt8) (_ : Nat) : Bool :=
  true

/- A server started, with one connection accepted and its binding session waiting. -/
def oneBinding : Server :=
  init.run acceptAll [.start, .accept]

/-
  Session 0's bind is accepted: it leaves `binding_sessions_`, and
  `stop` leaves it open.  A `stream_request` first leaves the
  server as it was.
-/
theorem accepted_session_outlives_stop :
    0 ∉ (oneBinding.step acceptAll (.request 0 (.bindRequest [83]))).bindingSessions ∧
      (init.run acceptAll [.start, .accept, .request 0 (.bindRequest [83])]).sessionMgr = [] ∧
      (((init.run acceptAll [.start, .accept, .request 0 (.bindRequest [83])]).step acceptAll
        .stop).sessions 0).state = .openState ∧
      oneBinding.step acceptAll (.request 0 (.streamRequest [1])) = oneBinding := by
  obtain ⟨hRuns, hBinding⟩ := binding_phase_drops_requests_and_sessions acceptAll
  obtain ⟨-, hMgr, hStop⟩ := hRuns [.start, .accept, .request 0 (.bindRequest [83])]
  obtain ⟨hStream, hBind⟩ := hBinding oneBinding 0 (by decide) rfl
  refine ⟨(hBind [83] rfl).2.1, hMgr, ?_, hStream [1]⟩
  rw [hStop]
  rfl

end Server

end Driver

end Networking

end Vex
