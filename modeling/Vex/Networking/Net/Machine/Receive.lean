import Vex.Networking.Net.Machine.Lifecycle

/-
  The receive flow control of `basic_session_impl` before
  `do_close`, over every run.

  `ReceiveInv` says what holds while the session is not closed: at
  most one `async_receive` is outstanding; none while
  `receiving_state_` is `paused`, and no do_receive loop runs then;
  at most one loop runs, and never while a read is outstanding.
  `Keeps s t` says that the code between `s` and `t` leaves
  `receive_buf_` as it is and the invariant holding on.  Every
  function of the session but the loop and the read's completion
  keeps it, each by one lemma from the lemmas of what it calls.

  So over every run from construction, before `do_close`: no
  second read is started; `receive_buf_` is prepared or consumed
  only by the loop, which runs with no read outstanding, and
  filled only by the read's completion; and a loop that finds
  `pending_pause` settles it to `paused` and issues no read.

  Main declarations:
    * `ReceiveOk`, `ReceiveInv`, `Keeps`
    * `receiveInv_step`, `step_receiveBuf`, `Reachable.receiveInv`
    * `receive_flow_control_before_close`
-/

------------------------------------------------------------
-- The Invariant
------------------------------------------------------------

namespace Vex

namespace Networking

namespace Net

/- Only `Open` may unbind, so a session that may is not closed. -/
theorem SessionState.ne_closed_of_canUnbind
    {st : SessionState}
    (h : st.canUnbind = true) :
    st ≠ .closedState := by
  rintro rfl
  cases h

namespace BasicSessionImpl

/-
  Receiving in a session not closed: at most one read outstanding,
  and none, with no loop, while paused; at most one loop, and none
  while a read is outstanding.
-/
structure ReceiveOk (s : BasicSessionImpl) : Prop where
  reads_le : s.reads ≤ 1
  paused : s.receivingState = .paused → s.reads = 0 ∧ s.stack.count .receiveLoop = 0
  loops_le : s.stack.count .receiveLoop ≤ 1
  looping : 0 < s.stack.count .receiveLoop → s.reads = 0

/- What holds of receiving before `do_close`. -/
def ReceiveInv (s : BasicSessionImpl) : Prop :=
  s.state ≠ .closedState → ReceiveOk s

variable {s t u : BasicSessionImpl} {rest : List Frame}

/- No read outstanding and no loop running. -/
theorem ReceiveOk.of_idle
    (hReads : s.reads = 0)
    (hLoops : s.stack.count .receiveLoop = 0) :
    ReceiveOk s :=
  ⟨by omega, fun _ => ⟨hReads, hLoops⟩, by omega, fun _ => hReads⟩

/- A loop on top finds no read outstanding, no other loop, and receiving not paused. -/
theorem ReceiveOk.idle_of_top
    (h : ReceiveOk s)
    (hTop : s.stack = .receiveLoop :: rest) :
    s.reads = 0 ∧ rest.count .receiveLoop = 0 ∧ s.receivingState ≠ .paused := by
  have hOne := h.loops_le
  rw [hTop, List.count_cons_self] at hOne
  refine ⟨h.looping (by simp [hTop]), by omega, fun hPaused => ?_⟩
  have hNone := (h.paused hPaused).2
  rw [hTop, List.count_cons_self] at hNone
  cases hNone

/-
  No read, loop or pause is added, and the session was not closed
  before.
-/
theorem ReceiveInv.mono
    (h : ReceiveInv s)
    (hState : t.state ≠ .closedState → s.state ≠ .closedState)
    (hReads : t.reads ≤ s.reads)
    (hPaused : t.receivingState = .paused → s.receivingState = .paused)
    (hLoops : t.stack.count .receiveLoop ≤ s.stack.count .receiveLoop) :
    ReceiveInv t := by
  intro hOpen
  obtain ⟨hLe, hIdle, hOne, hLooping⟩ := h (hState hOpen)
  refine ⟨by omega, fun hP => ?_, by omega, fun hPos => ?_⟩
  · have := hIdle (hPaused hP)
    omega
  · have := hLooping (by omega)
    omega

------------------------------------------------------------
-- What the Session's Code Keeps
------------------------------------------------------------

/-
  `t` follows `s` leaving `receive_buf_` as it is, and the
  invariant holds on.
-/
structure Keeps (s t : BasicSessionImpl) : Prop where
  receiveBuf : t.receiveBuf = s.receiveBuf
  inv : ReceiveInv s → ReceiveInv t

theorem Keeps.refl (s : BasicSessionImpl) : Keeps s s :=
  ⟨rfl, id⟩

theorem Keeps.trans
    (h₁ : Keeps s t)
    (h₂ : Keeps t u) :
    Keeps s u :=
  ⟨h₂.receiveBuf.trans h₁.receiveBuf, h₂.inv ∘ h₁.inv⟩

/- A change that adds no read, loop or pause, and leaves `receive_buf_`. -/
theorem Keeps.of_frame
    (hBuf : t.receiveBuf = s.receiveBuf)
    (hState : t.state ≠ .closedState → s.state ≠ .closedState)
    (hReads : t.reads ≤ s.reads)
    (hPaused : t.receivingState = .paused → s.receivingState = .paused)
    (hLoops : t.stack.count .receiveLoop ≤ s.stack.count .receiveLoop) :
    Keeps s t :=
  ⟨hBuf, fun h => h.mono hState hReads hPaused hLoops⟩

/- Such a change, then `h`. -/
theorem Keeps.of_frame_trans
    (h : Keeps t u)
    (hBuf : t.receiveBuf = s.receiveBuf)
    (hState : t.state ≠ .closedState → s.state ≠ .closedState)
    (hReads : t.reads ≤ s.reads)
    (hPaused : t.receivingState = .paused → s.receivingState = .paused)
    (hLoops : t.stack.count .receiveLoop ≤ s.stack.count .receiveLoop) :
    Keeps s u :=
  (Keeps.of_frame hBuf hState hReads hPaused hLoops).trans h

/- Into `Closed`, where the invariant asks nothing. -/
theorem Keeps.of_closed
    (hBuf : t.receiveBuf = s.receiveBuf)
    (hState : t.state = .closedState) :
    Keeps s t :=
  ⟨hBuf, fun _ hOpen => absurd hState hOpen⟩

------------------------------------------------------------
-- Calls Back, Receiving and Closing
------------------------------------------------------------

theorem keeps_invoke
    {cb : Callback}
    (guards : List Frame)
    {otherwise : BasicSessionImpl}
    (hGuards : guards.count .receiveLoop = 0)
    (hOtherwise : Keeps s otherwise) :
    Keeps s (s.invoke cb guards otherwise) := by
  unfold invoke
  split_ifs
  · exact .of_frame rfl id le_rfl id (by simp [hGuards])
  · exact hOtherwise

theorem keeps_asyncWrite (s : BasicSessionImpl) : Keeps s s.asyncWrite :=
  .of_frame rfl id le_rfl id le_rfl

/- Resuming from `paused` starts the one loop, with no read outstanding. -/
theorem keeps_doResumeReceiving (s : BasicSessionImpl) : Keeps s s.doResumeReceiving := by
  unfold doResumeReceiving doReceive
  dsimp only
  split_ifs with hPaused
  · refine ⟨rfl, fun h hOpen => ?_⟩
    obtain ⟨hReads, hLoops⟩ := (h hOpen).paused hPaused
    exact ⟨by simp [hReads], fun hP => (by cases hP), by simp [hLoops], fun _ => hReads⟩
  · exact .of_frame rfl id le_rfl (fun hP => by cases hP) le_rfl

theorem keeps_pauseReceiving (s : BasicSessionImpl) : Keeps s s.pauseReceiving := by
  unfold pauseReceiving
  split_ifs
  · exact .of_frame rfl id le_rfl (fun hP => by cases hP) le_rfl
  · exact .refl s

theorem keeps_doClose
    (s : BasicSessionImpl)
    (reason : String) :
    Keeps s (s.doClose reason) := by
  unfold doClose
  dsimp only
  split_ifs
  · exact .refl s
  all_goals exact .of_closed rfl rfl

theorem keeps_close
    (s : BasicSessionImpl)
    (reason : String) :
    Keeps s (s.close reason) := by
  unfold close
  split_ifs
  · exact .refl s
  · exact (keeps_doClose _ _).of_frame_trans rfl id le_rfl id le_rfl

------------------------------------------------------------
-- Sending
------------------------------------------------------------

theorem keeps_doSend (s : BasicSessionImpl) : Keeps s s.doSend := by
  unfold doSend
  dsimp only
  split_ifs
  · exact .refl s
  · exact (keeps_doResumeReceiving _).of_frame_trans rfl id le_rfl id (by simp)
  · exact (keeps_asyncWrite _).of_frame_trans rfl id le_rfl id le_rfl

theorem keeps_sendCommand (s : BasicSessionImpl) : Keeps s s.sendCommand :=
  (keeps_doSend _).of_frame_trans rfl id le_rfl id le_rfl

theorem keeps_doUnbind (s : BasicSessionImpl) : Keeps s s.doUnbind := by
  unfold doUnbind
  split_ifs with hCan
  · exact .refl s
  · exact (keeps_sendCommand _).of_frame_trans rfl
      (fun _ => SessionState.ne_closed_of_canUnbind (by simpa using hCan)) le_rfl id (by simp)

theorem keeps_deserializationFailed
    (s : BasicSessionImpl)
    (what : String)
    (cmdId : UInt8)
    (body : List UInt8) :
    Keeps s (s.deserializationFailed what cmdId body) :=
  keeps_invoke _ (by simp) (keeps_close s _)

theorem keeps_handlerFailed
    (s : BasicSessionImpl)
    (pre what : String)
    (cmdId : UInt8)
    (body : List UInt8) :
    Keeps s (s.handlerFailed pre what cmdId body) :=
  keeps_invoke _ (by simp) (keeps_close s _)

/- An exception unwinding frames of the stack, which only loses loops. -/
theorem keeps_unwind (what : String) :
    ∀ (s : BasicSessionImpl) (frames : List Frame),
      frames.count .receiveLoop ≤ s.stack.count .receiveLoop → Keeps s (unwind what s frames)
  | _, [], _ => .of_frame rfl id le_rfl id (Nat.zero_le _)
  | _, .user _ :: _, h => .of_frame rfl id le_rfl id h
  | _, .handlerGuard .. :: _, h => (keeps_handlerFailed _ _ _ _ _).of_frame_trans rfl id le_rfl id
      ((List.count_le_count_cons _ _ _).trans h)
  | _, .errorGuard .. :: _, h => (keeps_deserializationFailed _ _ _ _).of_frame_trans rfl id le_rfl id
      ((List.count_le_count_cons _ _ _).trans h)
  | _, .afterSendBufAvailable :: _, h => (keeps_asyncWrite _).of_frame_trans rfl id le_rfl id
      ((List.count_le_count_cons _ _ _).trans h)
  | _, .afterCloseHandler :: _, h => .of_frame rfl id le_rfl id ((List.count_le_count_cons _ _ _).trans h)
  | s, .receiveLoop :: rest, h => keeps_unwind what s rest ((List.count_le_count_cons _ _ _).trans h)
  | s, .closeAfter _ :: rest, h => keeps_unwind what s rest ((List.count_le_count_cons _ _ _).trans h)
  | s, .afterResume :: rest, h => keeps_unwind what s rest ((List.count_le_count_cons _ _ _).trans h)
  | s, .armUnbindTimer :: rest, h => keeps_unwind what s rest ((List.count_le_count_cons _ _ _).trans h)

theorem keeps_throw
    (s : BasicSessionImpl)
    (what : String) :
    Keeps s (s.throw what) :=
  keeps_unwind what s s.stack le_rfl

theorem keeps_doSendImpl
    (s : BasicSessionImpl)
    (pdu : Pdu) :
    Keeps s (s.doSendImpl pdu) := by
  unfold doSendImpl
  split_ifs
  · exact keeps_invoke _ rfl (.refl s)
  · split
    · exact keeps_throw s _
    · dsimp only
      split_ifs
      · refine Keeps.trans ?_ (keeps_doSend _)
        refine Keeps.trans ?_ (keeps_pauseReceiving _)
        exact .of_frame rfl id le_rfl id le_rfl
      · exact (keeps_doSend _).of_frame_trans rfl id le_rfl id le_rfl

------------------------------------------------------------
-- The Receive Loop
------------------------------------------------------------

theorem keeps_passOn
    (s : BasicSessionImpl)
    (m : Message)
    (decoded : Except String Pdu)
    (cb : Pdu → Callback)
    (pre : String) :
    Keeps s (s.passOn m decoded cb pre) := by
  cases decoded with
  | error what => exact keeps_deserializationFailed s what _ _
  | ok p => exact keeps_invoke _ (by simp) (.refl s)

theorem keeps_handleRequest
    (s : BasicSessionImpl)
    (m : Message) :
    Keeps s (s.handleRequest m) := by
  unfold handleRequest
  split_ifs with hEnquire hUnbind hCan
  · exact keeps_sendCommand s
  · dsimp only
    exact (keeps_sendCommand _).of_frame_trans rfl
      (fun _ => SessionState.ne_closed_of_canUnbind hCan) le_rfl id (by simp)
  · exact (keeps_sendCommand _).of_frame_trans rfl id le_rfl id (by simp)
  · exact keeps_passOn s m _ _ _

theorem keeps_handleResponse
    (s : BasicSessionImpl)
    (m : Message) :
    Keeps s (s.handleResponse m) := by
  unfold handleResponse
  split_ifs
  · exact .refl s
  · exact (keeps_close _ _).of_frame_trans rfl id le_rfl id le_rfl
  · exact keeps_passOn s m _ _ _

theorem keeps_dispatchMessage
    (s : BasicSessionImpl)
    (m : Message) :
    Keeps s (s.dispatchMessage m) := by
  unfold dispatchMessage
  split_ifs
  · exact keeps_handleResponse s m
  · exact keeps_handleRequest s m

/- `process_message` consumes the frame and dispatches it. -/
theorem receiveInv_processMessage
    (h : ReceiveInv s)
    (hd : Header) :
    ReceiveInv (s.processMessage hd) := by
  have hConsumed : ReceiveInv { s with receiveBuf := s.receiveBuf.consume hd.commandLength } :=
    h.mono id le_rfl id le_rfl
  unfold processMessage
  dsimp only
  split_ifs
  · exact h.mono id le_rfl id le_rfl
  all_goals exact (keeps_dispatchMessage _ _).inv hConsumed

/-
  The end of `do_receive`, reached with no read outstanding, no
  loop left and receiving not paused: the one read it starts is
  the only one.
-/
theorem receiveInv_loopExit
    (hIdle : s.state ≠ .closedState →
      s.reads = 0 ∧ s.stack.count .receiveLoop = 0 ∧ s.receivingState ≠ .paused) :
    ReceiveInv s.loopExit := by
  unfold loopExit
  split_ifs
  · exact fun hOpen => ReceiveOk.of_idle (hIdle hOpen).1 (hIdle hOpen).2.1
  · split
    · exact (keeps_throw s _).inv fun hOpen => ReceiveOk.of_idle (hIdle hOpen).1 (hIdle hOpen).2.1
    · intro hOpen
      obtain ⟨hReads, hLoops, hNotPaused⟩ := hIdle hOpen
      exact ⟨by simp [hReads], fun hP => absurd hP hNotPaused, by simp [hLoops],
        fun hPos => absurd hLoops (Nat.pos_iff_ne_zero.mp hPos)⟩

/- One round of the loop on top of the stack. -/
theorem receiveInv_receiveRound
    (h : ReceiveInv s)
    (hTop : s.stack = .receiveLoop :: rest) :
    ReceiveInv (s.receiveRound rest) := by
  have hIdle : s.state ≠ .closedState →
      s.reads = 0 ∧ rest.count .receiveLoop = 0 ∧ s.receivingState ≠ .paused :=
    fun hOpen => (h hOpen).idle_of_top hTop
  have hPopped : ReceiveInv { s with stack := rest } :=
    h.mono id le_rfl id (by rw [hTop]; exact List.count_le_count_cons _ _ _)
  unfold receiveRound
  split_ifs
  · exact receiveInv_loopExit hIdle
  · exact receiveInv_loopExit hIdle
  · split
    · exact (keeps_throw s _).inv h
    · split_ifs
      · exact (keeps_close _ _).inv hPopped
      · exact receiveInv_loopExit hIdle
      · exact receiveInv_processMessage h _

------------------------------------------------------------
-- Steps and Runs
------------------------------------------------------------

/- A `set_*_handler` call touches nothing the invariant reads. -/
theorem keeps_setHandlers
    (s : BasicSessionImpl)
    (handlers : Handlers) :
    Keeps s (s.setHandlers handlers) :=
  .of_frame rfl id le_rfl id le_rfl

theorem keeps_apiCall
    (s : BasicSessionImpl)
    (api : Api) :
    Keeps s (s.apiCall api) := by
  cases api with
  | start => exact keeps_doResumeReceiving s
  | unbind => exact keeps_doUnbind s
  | close reason => exact keeps_close s reason
  | send pdu => exact keeps_doSendImpl s pdu
  | pauseReceiving => exact keeps_pauseReceiving s
  | resumeReceiving => exact keeps_doResumeReceiving s
  | setProtocolHandler _ | setErrorHandler _ | setCloseHandler _ | setSendBufAvailableHandler _ =>
      exact keeps_setHandlers s _

/- The completion of the one outstanding read, which starts the next loop. -/
theorem receiveInv_readDone
    (h : ReceiveInv s)
    (data : List UInt8) :
    ReceiveInv (s.external (.readDone data)) := by
  simp only [external]
  split_ifs with hDone
  · intro hOpen
    obtain ⟨hLe, hIdle, -, hLooping⟩ := h hOpen
    obtain ⟨hPos, -⟩ := hDone
    have hNoLoop : s.stack.count .receiveLoop = 0 :=
      Nat.eq_zero_of_not_pos fun hLoop => by
        have := hLooping hLoop
        omega
    refine ⟨by show s.reads - 1 ≤ 1; omega, fun hP => ?_, by simp [doReceive, hNoLoop],
      fun _ => by show s.reads - 1 = 0; omega⟩
    have := (hIdle hP).1
    omega
  · exact h

/- Every input but a read's completion, with the stack empty. -/
theorem keeps_external
    (s : BasicSessionImpl)
    (i : Input)
    (hI : ∀ data, i ≠ .readDone data) :
    Keeps s (s.external i) := by
  cases i with
  | call api => exact keeps_apiCall s api
  | readDone data => exact absurd rfl (hI data)
  | readFailed message =>
      simp only [external]
      split_ifs
      · exact (keeps_close _ _).of_frame_trans rfl id (Nat.sub_le _ _) id le_rfl
      · exact .refl s
  | writeDone =>
      simp only [external]
      split_ifs
      · exact (keeps_doSend _).of_frame_trans rfl id le_rfl id le_rfl
      · exact .of_frame rfl id le_rfl id le_rfl
      · exact .refl s
  | writeFailed message =>
      simp only [external]
      split_ifs
      · exact (keeps_close _ _).of_frame_trans rfl id le_rfl id le_rfl
      · exact .refl s
  | unbindTimerFired =>
      simp only [external]
      split_ifs
      · exact (keeps_close _ _).of_frame_trans rfl id le_rfl id le_rfl
      · exact .of_frame rfl id le_rfl id le_rfl
      · exact .refl s
  | ret => exact .refl s
  | raise _ => exact .refl s

theorem keeps_userStep
    (s : BasicSessionImpl)
    (rest : List Frame)
    (i : Input)
    (hRest : rest.count .receiveLoop ≤ s.stack.count .receiveLoop) :
    Keeps s (s.userStep rest i) := by
  cases i with
  | call api => exact keeps_apiCall s api
  | ret => exact .of_frame rfl id le_rfl id hRest
  | raise what => exact keeps_unwind what s rest hRest
  | _ => exact .refl s

/- Every frame on top but the loop. -/
theorem keeps_frameStep
    (s : BasicSessionImpl)
    (i : Input)
    {f : Frame}
    (hTop : s.stack = f :: rest)
    (hLoop : f ≠ .receiveLoop) :
    Keeps s (s.frameStep i f rest) := by
  have hRest : rest.count .receiveLoop ≤ s.stack.count .receiveLoop := by
    rw [hTop]
    exact List.count_le_count_cons _ _ _
  cases f with
  | receiveLoop => exact absurd rfl hLoop
  | user _ => exact keeps_userStep s rest i hRest
  | handlerGuard _ _ _ => exact .of_frame rfl id le_rfl id hRest
  | errorGuard _ _ _ => exact (keeps_close _ _).of_frame_trans rfl id le_rfl id hRest
  | closeAfter _ => exact (keeps_close _ _).of_frame_trans rfl id le_rfl id hRest
  | afterResume =>
      exact (keeps_invoke _ (by simp) (keeps_asyncWrite _)).of_frame_trans rfl id le_rfl id hRest
  | afterSendBufAvailable => exact (keeps_asyncWrite _).of_frame_trans rfl id le_rfl id hRest
  | afterCloseHandler => exact .of_frame rfl id le_rfl id hRest
  | armUnbindTimer => exact .of_frame rfl id le_rfl id hRest

/- Every step keeps the invariant. -/
theorem receiveInv_step
    (h : ReceiveInv s)
    (i : Input) :
    ReceiveInv (s.step i) := by
  unfold BasicSessionImpl.step
  split_ifs
  · exact h
  · split
    · by_cases hRead : ∃ data, i = .readDone data
      · obtain ⟨data, rfl⟩ := hRead
        exact receiveInv_readDone h data
      · exact (keeps_external s i fun data hEq => hRead ⟨data, hEq⟩).inv h
    · next f rest hTop =>
      by_cases hLoop : f = .receiveLoop
      · subst hLoop
        exact receiveInv_receiveRound h hTop
      · exact (keeps_frameStep s i hTop hLoop).inv h

/-
  A step changes `receive_buf_` only in the loop on top of the
  stack, or as the completion of the read.
-/
theorem step_receiveBuf
    (s : BasicSessionImpl)
    (i : Input)
    (hChanged : (s.step i).receiveBuf ≠ s.receiveBuf) :
    (∃ rest, s.stack = .receiveLoop :: rest) ∨ (s.stack = [] ∧ ∃ data, i = .readDone data) := by
  unfold BasicSessionImpl.step at hChanged
  split_ifs at hChanged
  · exact absurd rfl hChanged
  · split at hChanged
    · next hEmpty =>
      refine .inr ⟨hEmpty, ?_⟩
      by_contra hRead
      exact hChanged (keeps_external s i fun data hEq => hRead ⟨data, hEq⟩).receiveBuf
    · next f rest hTop =>
      by_cases hLoop : f = .receiveLoop
      · exact .inl ⟨rest, hLoop ▸ hTop⟩
      · exact absurd (keeps_frameStep s i hTop hLoop).receiveBuf hChanged

/- A loop that finds `pending_pause` settles it to `paused`, and issues no read. -/
theorem step_settles_pendingPause
    (s : BasicSessionImpl)
    (i : Input)
    (hOverrun : s.overrun = false)
    (hTop : s.stack = .receiveLoop :: rest)
    (hPending : s.receivingState = .pendingPause) :
    s.step i = { s with stack := rest, receivingState := .paused } := by
  simp [BasicSessionImpl.step, hOverrun, hTop, frameStep, receiveRound, loopExit, hPending]

theorem receiveInv_run :
    ∀ (s : BasicSessionImpl) (inputs : List Input), ReceiveInv s → ReceiveInv (s.run inputs)
  | _, [], h => h
  | _, i :: is, h => receiveInv_run _ is (receiveInv_step h i)

theorem Reachable.receiveInv
    {config : SessionConfig}
    {handlers : Handlers}
    (h : Reachable config handlers s) :
    ReceiveInv s := by
  obtain ⟨inputs, rfl⟩ := h
  exact receiveInv_run _ inputs fun _ => ReceiveOk.of_idle rfl rfl

/-
  Before `do_close`, over every run: at most one read outstanding,
  none while paused, and at most one loop; `receive_buf_` changes
  only with no read outstanding, or as that read's completion; a
  loop that finds `pending_pause` settles it to `paused`, with no
  read.
-/
theorem receive_flow_control_before_close :
    ∀ (config : SessionConfig) (handlers : Handlers) (s : BasicSessionImpl),
      Reachable config handlers s → s.state ≠ .closedState →
        s.reads ≤ 1 ∧
          (s.receivingState = .paused → s.reads = 0) ∧
          s.stack.count .receiveLoop ≤ 1 ∧
          (∀ i, (s.step i).receiveBuf ≠ s.receiveBuf →
            s.reads = 0 ∨ (s.stack = [] ∧ ∃ data, i = .readDone data)) ∧
          ∀ rest, s.stack = .receiveLoop :: rest → s.receivingState = .pendingPause →
            s.overrun = false → ∀ i, s.step i = { s with stack := rest, receivingState := .paused } := by
  intro config handlers s hReach hOpen
  have hOk := hReach.receiveInv hOpen
  refine ⟨hOk.reads_le, fun hP => (hOk.paused hP).1, hOk.loops_le, fun i hChanged => ?_,
    fun rest hTop hPending hOverrun i => step_settles_pendingPause s i hOverrun hTop hPending⟩
  rcases step_receiveBuf s i hChanged with ⟨rest, hTop⟩ | hRead
  · exact .inl (hOk.idle_of_top hTop).1
  · exact .inr hRead

/- A session started, asked to pause, and then given its first bytes. -/
def pausedMidRead : BasicSessionImpl :=
  (init SessionConfig.defaults everyHandler).run
    [.call .start, .ret, .call .pauseReceiving, .readDone [1]]

/- Its loop settles the pause with the read completed and none started. -/
theorem paused_mid_read_settles :
    (pausedMidRead.step .ret).receivingState = .paused ∧ (pausedMidRead.step .ret).reads = 0 := by
  rw [(receive_flow_control_before_close _ _ pausedMidRead ⟨_, rfl⟩ (by decide)).2.2.2.2 []
    (by decide) (by decide) (by decide) .ret]
  exact ⟨rfl, by decide⟩

end BasicSessionImpl

end Net

end Networking

end Vex
