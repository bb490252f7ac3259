import Vex.Networking.Driver.Client

/-
  What the deferred bind handover and `p_client::stop` leave, over
  every run of `Driver.Stack`.

  A session that has closed calls its close handler never again:
  `do_close` returns at once on a closed session, and the handlers
  it held were reset.  So once a session is closed, no later input
  reports its close to `session_handler_` (`Stack.quiet_run`).  A
  handover that runs after its session closed then binds a closed
  session whose close is never reported.

  `p_client::stop` clears the `client`'s `auto_reconnect_`, not its
  own, and unbinds the bound session; the close that ends the
  unbind runs `on_session_close`, which calls `start()`.

  Key definitions include:
    * `Stack.Settled`, `Stack.Quiet`

  Key theorems include:
    * `Stack.quiet_step`, `Stack.quiet_run`
    * `Stack.step_deferredRuns`, `Stack.stop_of_bound`
-/

namespace Vex

namespace Networking

namespace Driver

namespace Stack

------------------------------------------------------------
-- Field Lemmas
------------------------------------------------------------

section Fields

variable (st : Stack)

@[simp]
theorem setSession_sessions_self (sid : Nat) (s : Session CloseHandler ProtocolHandler) :
    (st.setSession sid s).sessions sid = s :=
  Function.update_same _ _ _

theorem setSession_sessions_of_ne
    {sid sid' : Nat}
    (hNe : sid ≠ sid')
    (s : Session CloseHandler ProtocolHandler) :
    (st.setSession sid' s).sessions sid = st.sessions sid :=
  Function.update_noteq hNe _ _

@[simp]
theorem setSession_built (sid : Nat) (s : Session CloseHandler ProtocolHandler) :
    (st.setSession sid s).built = st.built :=
  rfl

@[simp]
theorem setSession_client (sid : Nat) (s : Session CloseHandler ProtocolHandler) :
    (st.setSession sid s).client = st.client :=
  rfl

@[simp]
theorem setSession_pClient (sid : Nat) (s : Session CloseHandler ProtocolHandler) :
    (st.setSession sid s).pClient = st.pClient :=
  rfl

@[simp]
theorem setSession_deferred (sid : Nat) (s : Session CloseHandler ProtocolHandler) :
    (st.setSession sid s).deferred = st.deferred :=
  rfl

@[simp]
theorem setSession_fault (sid : Nat) (s : Session CloseHandler ProtocolHandler) :
    (st.setSession sid s).fault = st.fault :=
  rfl

end Fields

------------------------------------------------------------
-- Closed Sessions Stay Quiet
------------------------------------------------------------

/- Session `sid` was built and has closed. -/
def Settled (sid : Nat) (st : Stack) : Prop :=
  sid < st.built ∧ (st.sessions sid).state = .closedState

/-
  From `st` to `st'`, a settled session `sid` stays settled, and the
  calls are only appended to, with no close of `sid` reported.
-/
def Quiet (sid : Nat) (st st' : Stack) : Prop :=
  Settled sid st → Settled sid st' ∧
    ∃ new, st'.pClient.calls = st.pClient.calls ++ new ∧ ∀ c ∈ new, c.closes sid = false

variable {sid : Nat} {st st' st'' : Stack}

theorem Quiet.refl (sid : Nat) (st : Stack) : Quiet sid st st :=
  fun hS => ⟨hS, [], (List.append_nil _).symm, fun _ h => absurd h (List.not_mem_nil _)⟩

theorem Quiet.trans
    (h₁ : Quiet sid st st')
    (h₂ : Quiet sid st' st'') :
    Quiet sid st st'' := by
  intro hS
  obtain ⟨hS', new₁, hNew₁, hQuiet₁⟩ := h₁ hS
  obtain ⟨hS'', new₂, hNew₂, hQuiet₂⟩ := h₂ hS'
  refine ⟨hS'', new₁ ++ new₂, by rw [hNew₂, hNew₁, List.append_assoc], fun c hc => ?_⟩
  rcases List.mem_append.mp hc with hc | hc
  · exact hQuiet₁ c hc
  · exact hQuiet₂ c hc

/- A change that builds nothing, keeps session `sid`'s state, and appends calls reporting no close of it. -/
theorem Quiet.of_frame
    (new : List UserCall)
    (hBuilt : st'.built = st.built)
    (hState : (st'.sessions sid).state = (st.sessions sid).state)
    (hCalls : st'.pClient.calls = st.pClient.calls ++ new)
    (hNew : ∀ c ∈ new, c.closes sid = false) :
    Quiet sid st st' :=
  fun hS => ⟨⟨hBuilt ▸ hS.1, hState.trans hS.2⟩, new, hCalls, hNew⟩

/- A change of fields that neither sessions nor calls are. -/
theorem Quiet.of_eq
    (hBuilt : st'.built = st.built)
    (hSessions : st'.sessions = st.sessions)
    (hCalls : st'.pClient.calls = st.pClient.calls) :
    Quiet sid st st' :=
  .of_frame [] hBuilt (by rw [hSessions]) (by rw [hCalls, List.append_nil])
    fun _ h => absurd h (List.not_mem_nil _)

/- Setting a session that stays closed once closed: its handlers, or an unbind. -/
theorem quiet_setSession
    (sid' : Nat)
    {s : Session CloseHandler ProtocolHandler}
    (hState : (st.sessions sid').state = .closedState → s.state = .closedState) :
    Quiet sid st (st.setSession sid' s) := fun hS =>
  ⟨⟨hS.1, by
    by_cases hEq : sid = sid'
    · subst hEq
      rw [setSession_sessions_self]
      exact hState hS.2
    · rw [setSession_sessions_of_ne _ hEq]
      exact hS.2⟩, [], (List.append_nil _).symm, fun _ h => absurd h (List.not_mem_nil _)⟩

theorem quiet_doConnect (st : Stack) : Quiet sid st st.doConnect :=
  .of_eq rfl rfl rfl

theorem quiet_doSetRetryTimer (st : Stack) : Quiet sid st st.doSetRetryTimer := by
  unfold doSetRetryTimer
  split_ifs
  · exact .of_eq rfl rfl rfl
  · exact .refl sid st

/- The session `on_connect` builds is a new one. -/
theorem quiet_onConnect (st : Stack) : Quiet sid st st.onConnect := fun hS =>
  ⟨⟨Nat.lt_succ_of_lt hS.1, by
    simp only [onConnect, setSession_sessions_of_ne _ (Nat.ne_of_lt hS.1)]
    exact hS.2⟩, [], (List.append_nil _).symm, fun _ h => absurd h (List.not_mem_nil _)⟩

theorem quiet_onBindResponse (st : Stack) (systemId : String) :
    Quiet sid st (st.onBindResponse systemId) := by
  unfold onBindResponse
  split
  · exact .of_eq rfl rfl rfl
  · rename_i sid' _
    exact (quiet_setSession (s := { st.sessions sid' with reading := false }) sid' id).trans
      (.of_eq rfl rfl rfl)

theorem quiet_onResponse (st : Stack) (sid' : Nat) (resp : Response) :
    Quiet sid st (st.onResponse sid' resp) := by
  unfold onResponse
  split
  · split_ifs
    · exact (quiet_onBindResponse st _).trans (quiet_setSession sid' id)
    · exact .refl sid st
  · exact .refl sid st

theorem quiet_onBindingSessionClose (st : Stack) (err : Option String) :
    Quiet sid st (st.onBindingSessionClose err) := by
  refine Quiet.trans ?_ (quiet_doSetRetryTimer _)
  exact .of_eq rfl rfl rfl

/- `on_session_close` for another session reports no close of `sid`. -/
theorem quiet_onSessionClose
    (st : Stack)
    {sid' : Nat}
    (hNe : sid' ≠ sid) :
    Quiet sid st (st.onSessionClose sid') := by
  have hReport : Quiet sid st { st with pClient := { st.pClient with
      bindedSession := none
      calls := st.pClient.calls ++
        [.closeHandler st.pClient.serverId, .sessionHandler st.pClient.serverId .close sid'] } } :=
    .of_frame _ rfl rfl rfl fun c hc => by
      simp only [List.mem_cons, List.mem_singleton, List.not_mem_nil, or_false] at hc
      rcases hc with rfl | rfl <;> simp [UserCall.closes, hNe]
  unfold onSessionClose
  dsimp only
  split_ifs
  · exact hReport.trans (quiet_doConnect _)
  · exact hReport

theorem quiet_runCloseHandler
    (st : Stack)
    {sid' : Nat}
    (hNe : sid' ≠ sid)
    (call : Option (CloseHandler × Option String)) :
    Quiet sid st (st.runCloseHandler sid' call) := by
  rcases call with _ | ⟨_ | _, err⟩
  · exact .refl sid st
  · exact quiet_onBindingSessionClose st err
  · exact quiet_onSessionClose st hNe

/- A close of `sid` once it is closed calls nothing; a close of another session reports only its own. -/
theorem quiet_closeSession (st : Stack) (sid' : Nat) (reason : String) :
    Quiet sid st (st.closeSession sid' reason) := by
  intro hS
  unfold closeSession
  by_cases hEq : sid' = sid
  · subst hEq
    rw [Session.close_of_closed hS.2]
    refine ⟨⟨hS.1, ?_⟩, [], by simp [runCloseHandler], fun _ h => absurd h (List.not_mem_nil _)⟩
    simpa [runCloseHandler] using hS.2
  · have hSet : Quiet sid st (st.setSession sid' ((st.sessions sid').close reason).1) :=
      .of_frame [] rfl (by rw [setSession_sessions_of_ne _ (Ne.symm hEq)])
        (List.append_nil _).symm fun _ h => absurd h (List.not_mem_nil _)
    exact (hSet.trans (quiet_runCloseHandler _ hEq _)) hS

theorem quiet_clientStop (st : Stack) : Quiet sid st st.clientStop := by
  unfold clientStop
  dsimp only
  split
  · exact .of_eq rfl rfl rfl
  · refine Quiet.trans ?_ ((quiet_closeSession _ _ _).trans (.of_eq rfl rfl rfl))
    exact .of_eq rfl rfl rfl

theorem quiet_stop (st : Stack) : Quiet sid st st.stop := by
  unfold stop
  dsimp only
  split
  · exact quiet_clientStop st
  · refine (quiet_clientStop st).trans ((quiet_setSession _ ?_).trans (.of_eq rfl rfl rfl))
    exact Session.unbind_state_eq_closed.mpr

/- A handover sets handlers and reports a bind, never a close. -/
theorem quiet_onBind (st : Stack) (systemId : String) (sid' : Nat) :
    Quiet sid st (st.onBind systemId sid') := by
  refine (quiet_setSession (s := { st.sessions sid' with
    protocolHandler := some .pClient, closeHandler := some .pClient }) sid' id).trans ?_
  refine .of_frame [.sessionHandler systemId .bind sid', .bindHandler systemId] rfl rfl rfl
    fun c hc => ?_
  simp only [List.mem_cons, List.mem_singleton, List.not_mem_nil, or_false] at hc
  rcases hc with rfl | rfl <;> rfl

theorem quiet_resumeReceiving (st : Stack) (sid' : Nat) : Quiet sid st (st.resumeReceiving sid') :=
  quiet_setSession sid' id

/- One input keeps a closed session quiet. -/
theorem quiet_step (st : Stack) (i : Input) : Quiet sid st (st.step i) := by
  by_cases hFault : st.fault = true
  · unfold step
    rw [if_pos hFault]
    exact .refl sid st
  · unfold step
    rw [if_neg hFault]
    cases i with
    | start => exact quiet_doConnect st
    | stop => exact quiet_stop st
    | connectDone =>
        dsimp only
        split_ifs
        · refine Quiet.trans ?_ (quiet_onConnect _)
          exact .of_eq rfl rfl rfl
        · exact .refl sid st
    | connectFailed =>
        dsimp only
        split_ifs
        · refine Quiet.trans ?_ (quiet_doSetRetryTimer _)
          exact .of_eq rfl rfl rfl
        · exact .refl sid st
    | retryFired =>
        dsimp only
        split_ifs
        · refine Quiet.trans ?_ (quiet_doConnect _)
          exact .of_eq rfl rfl rfl
        · exact .refl sid st
    | response sid' resp =>
        dsimp only
        split_ifs
        · exact .refl sid st
        · exact quiet_onResponse st sid' resp
    | receiveCloses sid' reason =>
        dsimp only
        split_ifs
        · exact quiet_closeSession st sid' reason
        · exact .refl sid st
    | writeDone sid' =>
        dsimp only
        split_ifs
        · exact quiet_setSession sid' id
        · exact .refl sid st
    | writeFails sid' reason =>
        dsimp only
        split_ifs
        · exact (quiet_setSession (s := { st.sessions sid' with writing := false }) sid' id).trans
            (quiet_closeSession _ sid' reason)
        · exact .refl sid st
    | unbindTimeout sid' =>
        dsimp only
        split_ifs
        · exact quiet_closeSession st sid' _
        · exact .refl sid st
    | sent sid' =>
        dsimp only
        split_ifs
        · exact quiet_setSession sid' id
        · exact .refl sid st
    | deferredRuns =>
        dsimp only
        split
        · exact .refl sid st
        · refine Quiet.trans ?_ ((quiet_onBind _ _ _).trans (quiet_resumeReceiving _ _))
          exact .of_eq rfl rfl rfl

/- Once closed, a session stays closed through every run, and no close of it is reported. -/
theorem quiet_run (st : Stack) (is : List Input) : Quiet sid st (st.run is) := by
  induction is generalizing st with
  | nil => exact .refl sid st
  | cons i is ih => exact (quiet_step st i).trans (ih _)

------------------------------------------------------------
-- The Handover Against the Close
------------------------------------------------------------

/- A close handler changes neither the sessions, what was built, the deferred handovers, nor the fault. -/
theorem runCloseHandler_frame
    (st : Stack)
    (sid : Nat)
    (call : Option (CloseHandler × Option String)) :
    (st.runCloseHandler sid call).sessions = st.sessions ∧
      (st.runCloseHandler sid call).built = st.built ∧
      (st.runCloseHandler sid call).deferred = st.deferred ∧
      (st.runCloseHandler sid call).fault = st.fault := by
  rcases call with _ | ⟨_ | _, err⟩
  · exact ⟨rfl, rfl, rfl, rfl⟩
  · simp only [runCloseHandler]
    unfold onBindingSessionClose doSetRetryTimer
    split_ifs <;> exact ⟨rfl, rfl, rfl, rfl⟩
  · simp only [runCloseHandler]
    unfold onSessionClose doConnect
    dsimp only
    split_ifs <;> exact ⟨rfl, rfl, rfl, rfl⟩

/- A close changes, of the sessions, only the closing one, and neither what was built, what is deferred, nor the fault. -/
theorem closeSession_frame (st : Stack) (sid : Nat) (reason : String) :
    (st.closeSession sid reason).sessions sid = ((st.sessions sid).close reason).1 ∧
      (st.closeSession sid reason).built = st.built ∧
      (st.closeSession sid reason).deferred = st.deferred ∧
      (st.closeSession sid reason).fault = st.fault := by
  obtain ⟨hSessions, hBuilt, hDeferred, hFault⟩ :=
    runCloseHandler_frame (st.setSession sid ((st.sessions sid).close reason).1) sid
      ((st.sessions sid).close reason).2
  exact ⟨(congrFun hSessions sid).trans (setSession_sessions_self _ _ _), hBuilt, hDeferred, hFault⟩

/- A handover leaves its session with `p_client`'s handlers, receiving. -/
theorem handover_sessions_self (st : Stack) (systemId : String) (sid : Nat) :
    ((st.onBind systemId sid).resumeReceiving sid).sessions sid =
      { st.sessions sid with
        protocolHandler := some .pClient, closeHandler := some .pClient, reading := true } := by
  simp only [resumeReceiving, setSession_sessions_self, onBind]
  rfl

theorem step_writeFails
    (hFault : st.fault = false)
    (hWriting : (st.sessions sid).writing = true)
    (reason : String) :
    st.step (.writeFails sid reason) =
      (st.setSession sid { st.sessions sid with writing := false }).closeSession sid reason := by
  unfold step
  rw [if_neg (by simp [hFault])]
  dsimp only
  rw [if_pos hWriting]

theorem step_deferredRuns
    {systemId : String}
    {rest : List (String × Nat)}
    (hFault : st.fault = false)
    (hDeferred : st.deferred = (systemId, sid) :: rest) :
    st.step .deferredRuns = ({ st with deferred := rest }.onBind systemId sid).resumeReceiving sid := by
  unfold step
  rw [if_neg (by simp [hFault])]
  dsimp only
  rw [hDeferred]

/-
  The session of the first deferred handover closes before the
  handover runs: a write in flight on it fails (the client paused
  receiving on it, so no read is outstanding), and the close
  consumes the client's binding close handler.  The handover then
  binds the closed session: `p_client` installs its close handler
  on it, holds it as bound, and reports the bind; and no later
  input ever reports its close.
-/
theorem late_handover_binds_closed_session :
    ∀ (st : Stack) (sid : Nat) (systemId reason : String) (rest : List (String × Nat)),
      st.fault = false → sid < st.built → st.deferred = (systemId, sid) :: rest →
      (st.sessions sid).writing = true →
      ((st.sessions sid).closeInitiated = true → (st.sessions sid).state = .closedState) →
      let st' := st.run [.writeFails sid reason, .deferredRuns]
      (st'.sessions sid).state = .closedState ∧ (st'.sessions sid).closeHandler = some .pClient ∧
        st'.pClient.bindedSession = some sid ∧
        (∃ before, st'.pClient.calls =
          before ++ [.sessionHandler systemId .bind sid, .bindHandler systemId]) ∧
        ∀ is, ∃ new, (st'.run is).pClient.calls = st'.pClient.calls ++ new ∧
          ∀ c ∈ new, c.closes sid = false := by
  intro st sid systemId reason rest hFault hBuilt hDeferred hWriting hLife
  let st₁ := st.setSession sid { st.sessions sid with writing := false }
  obtain ⟨hSelf, hBuilt₁, hDeferred₁, hFault₁⟩ := closeSession_frame st₁ sid reason
  /- The failed write closes the session, and leaves the handover where it was. -/
  have hClosed : ((st₁.closeSession sid reason).sessions sid).state = .closedState := by
    rw [hSelf, show st₁.sessions sid = { st.sessions sid with writing := false } from
      setSession_sessions_self _ _ _, Session.close_state]
    split_ifs with hInit
    · exact hLife hInit
    · rfl
  have hRun : st.run [.writeFails sid reason, .deferredRuns] =
      ({ st₁.closeSession sid reason with deferred := rest }.onBind systemId sid).resumeReceiving sid := by
    rw [run_cons, step_writeFails hFault hWriting, run_cons,
      step_deferredRuns (hFault₁.trans hFault) (hDeferred₁.trans hDeferred), run_nil]
  simp only [hRun]
  have hSettled : Settled sid
      (({ st₁.closeSession sid reason with deferred := rest }.onBind systemId sid).resumeReceiving sid) :=
    ⟨hBuilt₁ ▸ hBuilt, by rw [handover_sessions_self]; exact hClosed⟩
  refine ⟨hSettled.2, by rw [handover_sessions_self], rfl, ⟨_, rfl⟩,
    fun is => ((quiet_run _ is) hSettled).2⟩

/-
  A `p_client` started and connected: the `bind_req` write
  completes, the binding session answers an `enquire_link_req` with
  a write, and server `S` accepts the bind before the handover runs.
-/
def handoverPending : Stack :=
  (init true).run [.start, .connectDone, .writeDone 0, .sent 0,
    .response 0 (.bindResp "S" CommandStatus.rok)]

/-
  The `enquire_link_resp` write of session 0 fails while its
  handover is deferred: `p_client` binds it anyway, and its close is
  never reported.
-/
theorem handover_pending_close_never_reported :
    ((handoverPending.run [.writeFails 0 "Connection reset by peer", .deferredRuns]).sessions 0).state =
        .closedState ∧
      (handoverPending.run [.writeFails 0 "Connection reset by peer", .deferredRuns]).pClient.bindedSession =
        some 0 ∧
      ∀ is, ∃ new,
        ((handoverPending.run [.writeFails 0 "Connection reset by peer", .deferredRuns]).run is).pClient.calls =
          (handoverPending.run [.writeFails 0 "Connection reset by peer", .deferredRuns]).pClient.calls ++ new ∧
        ∀ c ∈ new, c.closes 0 = false := by
  obtain ⟨hClosed, -, hBound, -, hQuiet⟩ :=
    late_handover_binds_closed_session handoverPending 0 "S" "Connection reset by peer" [] rfl
      (by decide) rfl rfl (by decide)
  exact ⟨hClosed, hBound, hQuiet⟩

------------------------------------------------------------
-- Stop
------------------------------------------------------------

/-
  `p_client::stop` on a bound `p_client` with its own
  `auto_reconnect_` set: stop clears the client's flag, but the
  close that ends the unbind runs `on_session_close`, which starts
  a new `async_connect`; once it connects and the server accepts
  the bind, the bind is reported again.
-/
theorem stop_leaves_pclient_reconnecting :
    ∀ (st : Stack) (sid : Nat) (reason systemId : String),
      st.fault = false → st.pClient.autoReconnect = true → st.client.bindingSession = none →
      st.deferred = [] → st.pClient.bindedSession = some sid →
      (st.sessions sid).state = .openState → (st.sessions sid).closeInitiated = false →
      (st.sessions sid).closeHandler = some .pClient → (st.sessions sid).reading = true →
      let st' := st.run [.stop, .receiveCloses sid reason, .connectDone,
        .response st.built (.bindResp systemId CommandStatus.rok), .deferredRuns]
      (st.run [.stop]).client.autoReconnect = false ∧
        st'.client.connects = st.client.connects + 1 ∧
        st'.pClient.calls = st.pClient.calls ++
          [.closeHandler st.pClient.serverId, .sessionHandler st.pClient.serverId .close sid,
            .sessionHandler systemId .bind st.built, .bindHandler systemId] := by
  intro st sid reason systemId hFault hAuto hBinding hDeferred hBound hOpen hInit hHandler hReading
  simp [step, hFault, stop, clientStop, hBinding, hBound, closeSession, Session.close,
    Session.doClose, Session.unbind, hOpen, hInit, hHandler, hReading, Net.SessionState.canUnbind,
    runCloseHandler, onSessionClose, hAuto, doConnect, onConnect, onResponse, Session.built,
    Session.start, Session.send, onBindResponse, onBind, resumeReceiving, hDeferred, setSession]

/- A `p_client` started, connected, and bound to session 0 by server `S`. -/
def boundStack : Stack :=
  (init true).run [.start, .connectDone, .response 0 (.bindResp "S" CommandStatus.rok),
    .deferredRuns]

/-
  Stopped, then its session's unbind completes with the server's
  `unbind_resp`: the `p_client` connects again, and reports a new
  bind with session 1.
-/
theorem stopped_pclient_binds_again :
    (boundStack.run [.stop]).client.autoReconnect = false ∧
      (boundStack.run [.stop, .receiveCloses 0 "unbind_resp received", .connectDone,
        .response 1 (.bindResp "S" CommandStatus.rok), .deferredRuns]).client.connects = 2 ∧
      (boundStack.run [.stop, .receiveCloses 0 "unbind_resp received", .connectDone,
        .response 1 (.bindResp "S" CommandStatus.rok), .deferredRuns]).pClient.calls =
        [.sessionHandler "S" .bind 0, .bindHandler "S", .closeHandler "S",
          .sessionHandler "S" .close 0, .sessionHandler "S" .bind 1, .bindHandler "S"] :=
  stop_leaves_pclient_reconnecting boundStack 0 "unbind_resp received" "S" rfl rfl rfl rfl rfl rfl rfl
    rfl rfl

end Stack

end Driver

end Networking

end Vex
