import Vex.Networking.Net.Machine

/-
  The lifecycle of `basic_session_impl` over every run.

  `Evolves s t` says what any piece of the session's code can do
  between `s` and `t`: `state_` only moves on from `Open` to
  `Unbinding` to `Closed`; a handler reset stays reset; the run
  only appends to what it showed, and calls back only through
  handlers set in `s`; the close handler is called at most once,
  and then it is reset.  It is a preorder, and one lemma per
  function of the session proves it from the lemmas of the
  functions it calls.

  Over every run from construction: the state never goes back,
  the close handler is called at most once, and once `Closed` no
  handler is called at all.  `do_close` reports the reason it was
  given only in `Open`: a close in `Unbinding` reports none,
  whatever its cause, the unbind timeout included.

  Main declarations:
    * `SessionState.rank`, `LifecycleInv`, `Evolves`
    * `Evolves.step`, `Evolves.run`, `Reachable.lifecycleInv`
    * `session_lifecycle_only_moves_forward`
    * `close_reason_is_none_in_unbinding`
-/

------------------------------------------------------------
-- What the Session's Code Can Do
------------------------------------------------------------

namespace Vex

namespace Networking

namespace Net

/- `Open`, then `Unbinding`, then `Closed`. -/
def SessionState.rank : SessionState → Nat
  | .openState => 0
  | .unbindingState => 1
  | .closedState => 2

/- Every handler set in `h'` is set in `h`. -/
def Handlers.Within (h' h : Handlers) : Prop :=
  ∀ cb, h'.holds cb = true → h.holds cb = true

/- A call of the close handler. -/
def Notice.isCloseHandler : Notice → Bool
  | .invoked (.closeHandler _) => true
  | _ => false

/- A notice that calls the close handler is one. -/
theorem Notice.exists_closeHandler
    {new : List Notice}
    (hPos : 0 < new.countP Notice.isCloseHandler) :
    ∃ err, Notice.invoked (.closeHandler err) ∈ new := by
  obtain ⟨n, hN, hClose⟩ := List.countP_pos_iff.mp hPos
  match n, hClose with
  | .invoked (.closeHandler err), _ => exact ⟨err, hN⟩

namespace BasicSessionImpl

/- What holds in every state: `close_initiated_` is set exactly when the session is closed. -/
structure LifecycleInv (s : BasicSessionImpl) : Prop where
  initiated : s.closeInitiated = true ↔ s.state = .closedState

/-
  `s` evolves into `t`: the state moves on; the notices are
  appended to, with the close handler called at most once, and only
  by the move into `Closed`; the invariant holds on; and the
  configuration stays.  When `quiet` (no `set_*_handler` call in
  between), handlers are only reset, each callback goes through a
  handler set in `s`, and a closed session keeps its handlers reset.
-/
structure Evolves (quiet : Bool) (s t : BasicSessionImpl) : Prop where
  rank_le : s.state.rank ≤ t.state.rank
  notices : ∃ new, t.notices = s.notices ++ new ∧
    new.countP Notice.isCloseHandler ≤ 1 ∧
    (0 < new.countP Notice.isCloseHandler → s.state ≠ .closedState ∧ t.state = .closedState) ∧
    (quiet = true → ∀ cb, Notice.invoked cb ∈ new → s.handlers.holds cb = true)
  within : quiet = true → t.handlers.Within s.handlers
  cleared : quiet = true → (s.state = .closedState → s.handlers = Handlers.cleared) →
    t.state = .closedState → t.handlers = Handlers.cleared
  inv : LifecycleInv s → LifecycleInv t
  config : t.config = s.config

variable {s t u : BasicSessionImpl} {q q₁ q₂ : Bool}

theorem Evolves.refl (q : Bool) (s : BasicSessionImpl) : Evolves q s s :=
  ⟨le_rfl, ⟨[], by simp, by simp, by simp, by simp⟩, fun _ _ h => h, fun _ h => h, id, rfl⟩

/- `Closed` has the highest rank. -/
theorem SessionState.closed_of_rank_le
    {a b : SessionState}
    (hRank : a.rank ≤ b.rank)
    (hClosed : a = .closedState) :
    b = .closedState := by
  subst hClosed
  cases b <;> simp_all [SessionState.rank]

theorem Evolves.trans_and
    (h₁ : Evolves q₁ s t)
    (h₂ : Evolves q₂ t u) :
    Evolves (q₁ && q₂) s u := by
  obtain ⟨hRank₁, ⟨new₁, hNew₁, hOnce₁, hMove₁, hBy₁⟩, hWithin₁, hCleared₁, hInv₁, hConfig₁⟩ := h₁
  obtain ⟨hRank₂, ⟨new₂, hNew₂, hOnce₂, hMove₂, hBy₂⟩, hWithin₂, hCleared₂, hInv₂, hConfig₂⟩ := h₂
  /- The close handler is called by the one move into `Closed`, so in one part at most. -/
  have hOne : new₁.countP Notice.isCloseHandler = 0 ∨ new₂.countP Notice.isCloseHandler = 0 := by
    by_contra hBoth
    push_neg at hBoth
    exact (hMove₂ (Nat.pos_of_ne_zero hBoth.2)).1 (hMove₁ (Nat.pos_of_ne_zero hBoth.1)).2
  refine ⟨hRank₁.trans hRank₂, ⟨new₁ ++ new₂, by rw [hNew₂, hNew₁, List.append_assoc], ?_, ?_, ?_⟩,
    ?_, ?_, hInv₂ ∘ hInv₁, hConfig₂.trans hConfig₁⟩
  · rw [List.countP_append]
    omega
  · intro hPos
    rw [List.countP_append] at hPos
    by_cases hPos₁ : 0 < new₁.countP Notice.isCloseHandler
    · exact ⟨(hMove₁ hPos₁).1,
        SessionState.closed_of_rank_le hRank₂ (hMove₁ hPos₁).2⟩
    · obtain ⟨hOpen, hClosed⟩ := hMove₂ (by omega)
      exact ⟨fun h => hOpen (SessionState.closed_of_rank_le hRank₁ h), hClosed⟩
  · intro hQuiet cb hCb
    rw [Bool.and_eq_true] at hQuiet
    rcases List.mem_append.mp hCb with hCb | hCb
    · exact hBy₁ hQuiet.1 cb hCb
    · exact hWithin₁ hQuiet.1 cb (hBy₂ hQuiet.2 cb hCb)
  · intro hQuiet cb h
    rw [Bool.and_eq_true] at hQuiet
    exact hWithin₁ hQuiet.1 cb (hWithin₂ hQuiet.2 cb h)
  · intro hQuiet hS
    rw [Bool.and_eq_true] at hQuiet
    exact hCleared₂ hQuiet.2 (hCleared₁ hQuiet.1 hS)

theorem Evolves.trans
    (h₁ : Evolves q s t)
    (h₂ : Evolves q t u) :
    Evolves q s u := by
  simpa using h₁.trans_and h₂

/- What holds with no `set_*_handler` call holds with them. -/
theorem Evolves.weaken
    {q : Bool}
    (h : Evolves true s t) :
    Evolves q s t := by
  obtain ⟨hRank, ⟨new, hNew, hOnce, hMove, hBy⟩, hWithin, hCleared, hInv, hConfig⟩ := h
  exact ⟨hRank, ⟨new, hNew, hOnce, hMove, fun _ => hBy rfl⟩, fun _ => hWithin rfl,
    fun _ => hCleared rfl, hInv, hConfig⟩

/-
  A change of fields the lifecycle does not read, with notices
  appended that call nothing back.
-/
theorem Evolves.of_quiet
    (new : List Notice)
    (hState : t.state = s.state)
    (hInitiated : t.closeInitiated = s.closeInitiated)
    (hHandlers : t.handlers = s.handlers)
    (hNotices : t.notices = s.notices ++ new)
    (hQuiet : ∀ cb, Notice.invoked cb ∉ new)
    (hConfig : t.config = s.config) :
    Evolves true s t := by
  have hNoClose : new.countP Notice.isCloseHandler = 0 := Nat.eq_zero_of_not_pos fun hPos =>
    (Notice.exists_closeHandler hPos).elim fun err hErr => hQuiet _ hErr
  refine ⟨by rw [hState], ⟨new, hNotices, by omega, by omega, fun _ cb h => absurd h (hQuiet cb)⟩,
    fun _ cb h => hHandlers ▸ h, fun _ hS hClosed => ?_, fun ⟨hIff⟩ => ⟨?_⟩, hConfig⟩
  · rw [hHandlers]
    exact hS (hState ▸ hClosed)
  · rw [hState, hInitiated]
    exact hIff

/- A change of fields the lifecycle does not read. -/
theorem Evolves.of_frame
    (hState : t.state = s.state)
    (hInitiated : t.closeInitiated = s.closeInitiated)
    (hHandlers : t.handlers = s.handlers)
    (hNotices : t.notices = s.notices)
    (hConfig : t.config = s.config) :
    Evolves true s t :=
  .of_quiet [] hState hInitiated hHandlers (by rw [hNotices, List.append_nil])
    (fun _ h => absurd h (List.not_mem_nil _)) hConfig

/- A change of fields the lifecycle does not read, then `h`. -/
theorem Evolves.of_frame_trans
    (h : Evolves q t u)
    (hState : t.state = s.state)
    (hInitiated : t.closeInitiated = s.closeInitiated)
    (hHandlers : t.handlers = s.handlers)
    (hNotices : t.notices = s.notices)
    (hConfig : t.config = s.config) :
    Evolves q s u :=
  ((Evolves.of_frame hState hInitiated hHandlers hNotices hConfig).weaken).trans h

/- The move from `Open` to `Unbinding`. -/
theorem Evolves.of_unbinding
    (hCan : s.state.canUnbind = true)
    (hState : t.state = .unbindingState)
    (hInitiated : t.closeInitiated = s.closeInitiated)
    (hHandlers : t.handlers = s.handlers)
    (hNotices : t.notices = s.notices)
    (hConfig : t.config = s.config) :
    Evolves true s t := by
  have hOpen : s.state = .openState := by
    cases hS : s.state <;> simp_all [SessionState.canUnbind]
  refine ⟨by rw [hState, hOpen]; decide, ⟨[], by simp [hNotices], by simp, by simp, by simp⟩,
    fun _ cb h => hHandlers ▸ h, fun _ _ h => (by rw [hState] at h; cases h), fun hInv => ⟨?_⟩,
    hConfig⟩
  rw [hState, hInitiated]
  have hNot : s.closeInitiated ≠ true := fun h => by
    have := hInv.initiated.mp h
    rw [hOpen] at this
    cases this
  simp [hNot]

/- A `set_*_handler` call: the handlers change, and nothing else. -/
theorem evolves_setHandlers
    (s : BasicSessionImpl)
    (handlers : Handlers) :
    Evolves false s (s.setHandlers handlers) :=
  ⟨le_rfl, ⟨[], by simp [setHandlers], by simp, by simp, fun h => (by cases h)⟩,
    fun h => (by cases h), fun h => (by cases h), fun ⟨hIff⟩ => ⟨hIff⟩, rfl⟩

------------------------------------------------------------
-- Calls Back, Receiving and Closing
------------------------------------------------------------

/- A callback other than the close handler, through its handler if set. -/
theorem evolves_invoke
    {cb : Callback}
    (guards : List Frame)
    {otherwise : BasicSessionImpl}
    (hCb : Notice.isCloseHandler (.invoked cb) = false)
    (hOtherwise : Evolves true s otherwise) :
    Evolves true s (s.invoke cb guards otherwise) := by
  unfold invoke
  split_ifs with hSet
  · refine ⟨le_rfl, ⟨[.invoked cb], rfl, by simp [hCb], by simp [hCb], fun _ cb' h => ?_⟩,
      fun _ _ h => h, fun _ hS => hS, fun ⟨hIff⟩ => ⟨hIff⟩, rfl⟩
    rw [List.mem_singleton, Notice.invoked.injEq] at h
    exact h ▸ hSet
  · exact hOtherwise

theorem evolves_asyncWrite (s : BasicSessionImpl) : Evolves true s s.asyncWrite :=
  .of_frame rfl rfl rfl rfl rfl

theorem evolves_doReceive (s : BasicSessionImpl) : Evolves true s s.doReceive :=
  .of_frame rfl rfl rfl rfl rfl

theorem evolves_doResumeReceiving (s : BasicSessionImpl) : Evolves true s s.doResumeReceiving := by
  unfold doResumeReceiving
  dsimp only
  split_ifs
  · exact .of_frame rfl rfl rfl rfl rfl
  · exact .of_frame rfl rfl rfl rfl rfl

theorem evolves_pauseReceiving (s : BasicSessionImpl) : Evolves true s s.pauseReceiving := by
  unfold pauseReceiving
  split_ifs
  · exact .of_frame rfl rfl rfl rfl rfl
  · exact .refl true s

/-
  `do_close` on a session not yet closed: `Closed`, every handler
  reset, and the close handler called if it was set, with the
  reason only in `Open`.
-/
theorem doClose_closes
    (s : BasicSessionImpl)
    (reason : String)
    (hOpen : s.state ≠ .closedState) :
    (s.doClose reason).state = .closedState ∧
      (s.doClose reason).handlers = Handlers.cleared ∧
      (s.doClose reason).closeInitiated = s.closeInitiated ∧
      (s.doClose reason).config = s.config ∧
      (s.doClose reason).notices = s.notices ++
        if s.handlers.close then
          [.invoked (.closeHandler (if s.state = .openState then some reason else none))]
        else [] := by
  unfold doClose
  rw [if_neg hOpen]
  dsimp only
  split_ifs <;> simp_all

/-
  A close of a session not yet closed: `Closed`, the handlers reset,
  and the close handler called if it was set.
-/
theorem Evolves.of_close
    (err : Option String)
    (hOpen : s.state ≠ .closedState)
    (hState : t.state = .closedState)
    (hHandlers : t.handlers = Handlers.cleared)
    (hInitiated : t.closeInitiated = true)
    (hConfig : t.config = s.config)
    (hNotices : t.notices = s.notices ++
      if s.handlers.close then [.invoked (.closeHandler err)] else []) :
    Evolves true s t := by
  refine ⟨by rw [hState]; cases s.state <;> decide,
    ⟨_, hNotices, ?_, fun _ => ⟨hOpen, hState⟩, fun _ cb h => ?_⟩,
    fun _ cb h => ?_, fun _ _ _ => hHandlers, fun _ => ⟨by simp [hState, hInitiated]⟩, hConfig⟩
  · split_ifs <;> simp [Notice.isCloseHandler]
  · by_cases hSet : s.handlers.close = true
    · rw [if_pos hSet, List.mem_singleton, Notice.invoked.injEq] at h
      exact h ▸ hSet
    · rw [if_neg hSet] at h
      exact absurd h (List.not_mem_nil _)
  · rw [hHandlers] at h
    cases cb <;> cases h

/- `close`: the first call closes, the others do nothing. -/
theorem evolves_close
    (s : BasicSessionImpl)
    (reason : String) :
    Evolves true s (s.close reason) := by
  unfold close
  split_ifs with hInitiated
  · exact .refl true s
  by_cases hClosed : s.state = .closedState
  · /- A closed session that may still close is outside the invariant. -/
    have hSame : ({ s with closeInitiated := true } : BasicSessionImpl).doClose reason =
        { s with closeInitiated := true } := if_pos hClosed
    rw [hSame]
    exact ⟨le_rfl, ⟨[], by simp, by simp, by simp, by simp⟩, fun _ _ h => h, fun _ hS => hS,
      fun hInv => absurd (hInv.initiated.mpr hClosed) hInitiated, rfl⟩
  obtain ⟨hState, hHandlers, hInit, hConfig, hNotices⟩ :=
    doClose_closes { s with closeInitiated := true } reason hClosed
  exact .of_close _ hClosed hState hHandlers hInit hConfig hNotices

------------------------------------------------------------
-- Sending
------------------------------------------------------------

theorem evolves_doSend (s : BasicSessionImpl) : Evolves true s s.doSend := by
  unfold doSend
  dsimp only
  split_ifs
  · exact .refl true s
  · refine Evolves.trans ?_ (evolves_doResumeReceiving _)
    exact .of_quiet [.swapped, .resumed] rfl rfl rfl (by simp) (by simp) rfl
  · refine Evolves.trans ?_ (evolves_asyncWrite _)
    exact .of_quiet [.swapped] rfl rfl rfl rfl (by simp) rfl

theorem evolves_sendCommand (s : BasicSessionImpl) : Evolves true s s.sendCommand :=
  (evolves_doSend _).of_frame_trans rfl rfl rfl rfl rfl

theorem evolves_doUnbind (s : BasicSessionImpl) : Evolves true s s.doUnbind := by
  unfold doUnbind
  split_ifs with hCan
  · exact .refl true s
  · refine Evolves.trans ?_ (evolves_sendCommand _)
    exact .of_unbinding (by simpa using hCan) rfl rfl rfl rfl rfl

theorem evolves_deserializationFailed
    (s : BasicSessionImpl)
    (what : String)
    (cmdId : UInt8)
    (body : List UInt8) :
    Evolves true s (s.deserializationFailed what cmdId body) :=
  evolves_invoke _ (by rfl) (evolves_close s _)

theorem evolves_handlerFailed
    (s : BasicSessionImpl)
    (pre what : String)
    (cmdId : UInt8)
    (body : List UInt8) :
    Evolves true s (s.handlerFailed pre what cmdId body) :=
  evolves_invoke _ (by rfl) (evolves_close s _)

/- An exception unwinding any frames. -/
theorem evolves_unwind (what : String) :
    ∀ (s : BasicSessionImpl) (frames : List Frame), Evolves true s (unwind what s frames)
  | s, [] => .of_quiet [.escaped what] rfl rfl rfl rfl (by simp) rfl
  | s, .user _ :: _ => .of_frame rfl rfl rfl rfl rfl
  | s, .handlerGuard .. :: _ => (evolves_handlerFailed _ _ _ _ _).of_frame_trans rfl rfl rfl rfl rfl
  | s, .errorGuard .. :: _ =>
      (evolves_deserializationFailed _ _ _ _).of_frame_trans rfl rfl rfl rfl rfl
  | s, .afterSendBufAvailable :: _ => (evolves_asyncWrite _).of_frame_trans rfl rfl rfl rfl rfl
  | s, .afterCloseHandler :: _ => .of_frame rfl rfl rfl rfl rfl
  | s, .receiveLoop :: rest => evolves_unwind what s rest
  | s, .closeAfter _ :: rest => evolves_unwind what s rest
  | s, .afterResume :: rest => evolves_unwind what s rest
  | s, .armUnbindTimer :: rest => evolves_unwind what s rest

theorem evolves_throw
    (s : BasicSessionImpl)
    (what : String) :
    Evolves true s (s.throw what) :=
  evolves_unwind what s s.stack

theorem evolves_doSendImpl
    (s : BasicSessionImpl)
    (pdu : Pdu) :
    Evolves true s (s.doSendImpl pdu) := by
  unfold doSendImpl
  split_ifs
  · exact evolves_invoke _ (by rfl) (.refl true s)
  · split
    · exact evolves_throw s _
    · dsimp only
      split_ifs
      · refine Evolves.trans ?_ (evolves_doSend _)
        refine Evolves.trans ?_ (evolves_pauseReceiving _)
        exact .of_quiet [.paused] rfl rfl rfl rfl (by simp) rfl
      · exact (evolves_doSend _).of_frame_trans rfl rfl rfl rfl rfl

------------------------------------------------------------
-- The Receive Loop
------------------------------------------------------------

theorem evolves_passOn
    (s : BasicSessionImpl)
    (m : Message)
    (decoded : Except String Pdu)
    (cb : Pdu → Callback)
    (hCb : ∀ p, Notice.isCloseHandler (.invoked (cb p)) = false)
    (pre : String) :
    Evolves true s (s.passOn m decoded cb pre) := by
  cases decoded with
  | error what => exact evolves_deserializationFailed s what _ _
  | ok p => exact evolves_invoke _ (hCb p) (.refl true s)

theorem evolves_handleRequest
    (s : BasicSessionImpl)
    (m : Message) :
    Evolves true s (s.handleRequest m) := by
  unfold handleRequest
  split_ifs with hEnquire hUnbind hCan
  · exact evolves_sendCommand s
  · dsimp only
    refine Evolves.trans ?_ (evolves_sendCommand _)
    exact .of_unbinding hCan rfl rfl rfl rfl rfl
  · exact (evolves_sendCommand _).of_frame_trans rfl rfl rfl rfl rfl
  · exact evolves_passOn s m _ _ (fun _ => by rfl) _

theorem evolves_handleResponse
    (s : BasicSessionImpl)
    (m : Message) :
    Evolves true s (s.handleResponse m) := by
  unfold handleResponse
  split_ifs with hEnquire hUnbind
  · exact .refl true s
  · exact (evolves_close _ _).of_frame_trans rfl rfl rfl rfl rfl
  · exact evolves_passOn s m _ _ (fun _ => by rfl) _

theorem evolves_dispatchMessage
    (s : BasicSessionImpl)
    (m : Message) :
    Evolves true s (s.dispatchMessage m) := by
  unfold dispatchMessage
  split_ifs
  · exact evolves_handleResponse s m
  · exact evolves_handleRequest s m

theorem evolves_processMessage
    (s : BasicSessionImpl)
    (h : Header) :
    Evolves true s (s.processMessage h) := by
  unfold processMessage
  dsimp only
  split_ifs
  · exact .of_frame rfl rfl rfl rfl rfl
  all_goals exact (evolves_dispatchMessage _ _).of_frame_trans rfl rfl rfl rfl rfl

theorem evolves_loopExit (s : BasicSessionImpl) : Evolves true s s.loopExit := by
  unfold loopExit
  split_ifs
  · exact .of_frame rfl rfl rfl rfl rfl
  · split
    · exact evolves_throw s _
    · exact .of_frame rfl rfl rfl rfl rfl

theorem evolves_receiveRound
    (s : BasicSessionImpl)
    (rest : List Frame) :
    Evolves true s (s.receiveRound rest) := by
  unfold receiveRound
  split_ifs
  · exact (evolves_loopExit _).of_frame_trans rfl rfl rfl rfl rfl
  · exact (evolves_loopExit _).of_frame_trans rfl rfl rfl rfl rfl
  · split
    · exact evolves_throw s _
    · split_ifs
      · exact (evolves_close _ _).of_frame_trans rfl rfl rfl rfl rfl
      · exact (evolves_loopExit _).of_frame_trans rfl rfl rfl rfl rfl
      · exact evolves_processMessage s _

------------------------------------------------------------
-- Steps and Runs
------------------------------------------------------------

theorem evolves_apiCall
    (s : BasicSessionImpl)
    (api : Api) :
    Evolves (!api.setsHandler) s (s.apiCall api) := by
  cases api with
  | start => exact evolves_doResumeReceiving s
  | unbind => exact evolves_doUnbind s
  | close reason => exact evolves_close s reason
  | send pdu => exact evolves_doSendImpl s pdu
  | pauseReceiving => exact evolves_pauseReceiving s
  | resumeReceiving => exact evolves_doResumeReceiving s
  | setProtocolHandler _ => exact evolves_setHandlers s _
  | setErrorHandler _ => exact evolves_setHandlers s _
  | setCloseHandler _ => exact evolves_setHandlers s _
  | setSendBufAvailableHandler _ => exact evolves_setHandlers s _

theorem evolves_external
    (s : BasicSessionImpl)
    (i : Input) :
    Evolves (!i.setsHandler) s (s.external i) := by
  cases i with
  | call api => exact evolves_apiCall s api
  | readDone data =>
      simp only [external]
      split_ifs
      · exact (evolves_doReceive _).of_frame_trans rfl rfl rfl rfl rfl
      · exact .refl true s
  | readFailed message =>
      simp only [external]
      split_ifs
      · exact (evolves_close _ _).of_frame_trans rfl rfl rfl rfl rfl
      · exact .refl true s
  | writeDone =>
      simp only [external]
      split_ifs
      · exact (evolves_doSend _).of_frame_trans rfl rfl rfl rfl rfl
      · exact .of_frame rfl rfl rfl rfl rfl
      · exact .refl true s
  | writeFailed message =>
      simp only [external]
      split_ifs
      · exact (evolves_close _ _).of_frame_trans rfl rfl rfl rfl rfl
      · exact .refl true s
  | unbindTimerFired =>
      simp only [external]
      split_ifs
      · exact (evolves_close _ _).of_frame_trans rfl rfl rfl rfl rfl
      · exact .of_frame rfl rfl rfl rfl rfl
      · exact .refl true s
  | ret => exact .refl true s
  | raise _ => exact .refl true s

theorem evolves_userStep
    (s : BasicSessionImpl)
    (rest : List Frame)
    (i : Input) :
    Evolves (!i.setsHandler) s (s.userStep rest i) := by
  cases i with
  | call api => exact evolves_apiCall s api
  | ret => exact .of_frame rfl rfl rfl rfl rfl
  | raise what => exact evolves_unwind what s rest
  | _ => exact .refl true s

theorem evolves_frameStep
    (s : BasicSessionImpl)
    (i : Input)
    (f : Frame)
    (rest : List Frame) :
    Evolves (!i.setsHandler) s (s.frameStep i f rest) := by
  cases f with
  | receiveLoop => exact (evolves_receiveRound s rest).weaken
  | user _ => exact evolves_userStep s rest i
  | handlerGuard _ _ _ => exact Evolves.weaken (.of_frame rfl rfl rfl rfl rfl)
  | errorGuard _ _ _ => exact Evolves.weaken ((evolves_close _ _).of_frame_trans rfl rfl rfl rfl rfl)
  | closeAfter _ => exact Evolves.weaken ((evolves_close _ _).of_frame_trans rfl rfl rfl rfl rfl)
  | afterResume =>
      exact Evolves.weaken
        ((evolves_invoke _ (by rfl) (evolves_asyncWrite _)).of_frame_trans rfl rfl rfl rfl rfl)
  | afterSendBufAvailable =>
      exact Evolves.weaken ((evolves_asyncWrite _).of_frame_trans rfl rfl rfl rfl rfl)
  | afterCloseHandler => exact Evolves.weaken (.of_frame rfl rfl rfl rfl rfl)
  | armUnbindTimer => exact Evolves.weaken (.of_frame rfl rfl rfl rfl rfl)

/- Every step evolves the session, quietly unless it sets a handler. -/
theorem Evolves.step
    (s : BasicSessionImpl)
    (i : Input) :
    Evolves (!i.setsHandler) s (s.step i) := by
  unfold BasicSessionImpl.step
  split_ifs
  · exact .refl _ s
  · split
    · exact evolves_external s i
    · exact evolves_frameStep s i _ _

/- Every run evolves the session, quietly unless it sets a handler. -/
theorem Evolves.run :
    ∀ (s : BasicSessionImpl) (inputs : List Input),
      Evolves (inputs.all fun i => !i.setsHandler) s (s.run inputs)
  | s, [] => .refl true s
  | s, i :: is => (Evolves.step s i).trans_and (Evolves.run _ is)

theorem lifecycleInv_init
    (config : SessionConfig)
    (handlers : Handlers) :
    LifecycleInv (init config handlers) :=
  ⟨by simp [init]⟩

theorem Reachable.lifecycleInv
    {config : SessionConfig}
    {handlers : Handlers}
    (hReach : Reachable config handlers s) :
    LifecycleInv s := by
  obtain ⟨inputs, rfl⟩ := hReach
  exact (Evolves.run _ inputs).inv (lifecycleInv_init config handlers)

------------------------------------------------------------
-- The Lifecycle
------------------------------------------------------------

/- A state of no lower rank is the same, or one a session may move on to. -/
theorem SessionState.moves_of_rank_le
    {a b : SessionState}
    (hRank : a.rank ≤ b.rank) :
    b = a ∨ (a = .openState ∧ b ≠ .openState) ∨ (a = .unbindingState ∧ b = .closedState) := by
  cases a <;> cases b <;> simp_all [SessionState.rank]

------------------------------------------------------------
-- Handlers Set After the Close
------------------------------------------------------------

/- A session with every handler set. -/
def everyHandler : Handlers :=
  ⟨true, true, true, true⟩

/- With the stack empty, the executor runs the input. -/
theorem step_of_idle
    (hStack : s.stack = [])
    (hOverrun : s.overrun = false)
    (i : Input) :
    s.step i = s.external i := by
  simp [BasicSessionImpl.step, hStack, hOverrun]

/- With the loop on top of the stack, the executor runs a round of it. -/
theorem step_of_receiveLoop
    (hStack : s.stack = .receiveLoop :: rest)
    (hOverrun : s.overrun = false)
    (i : Input) :
    s.step i = s.receiveRound rest := by
  simp [BasicSessionImpl.step, hStack, hOverrun, frameStep]

/-
  With the stack empty, `resume_receiving` on a paused session
  starts the loop, whose first round the next input runs.
-/
theorem step_resumeReceiving_of_paused
    (hStack : s.stack = [])
    (hOverrun : s.overrun = false)
    (hPaused : s.receivingState = .paused)
    (i : Input) :
    (s.step (.call .resumeReceiving)).step i =
      { s with receivingState := .receiving, stack := [.receiveLoop] }.receiveRound [] := by
  rw [step_of_idle hStack hOverrun]
  simp only [external, apiCall, doResumeReceiving, hPaused, if_true, doReceive, hStack]
  exact step_of_receiveLoop (s := { s with receivingState := .receiving, stack := [.receiveLoop] })
    rfl hOverrun i

/- `dispatch_message` of a `stream_req`: `handle_request` decodes it and calls the protocol handler, if set. -/
theorem dispatchMessage_streamReq
    (t : BasicSessionImpl)
    (status : UInt8)
    (seqNum : Nat)
    (body : List UInt8) :
    (t.dispatchMessage ⟨CommandId.streamReq, status, seqNum, body⟩).notices = t.notices ++
      if t.handlers.protocol then [.invoked (.onRequest (deserializeStreamRequest body) seqNum)]
      else [] := by
  have hResponse : isResponse CommandId.streamReq = false := by decide
  simp only [dispatchMessage, hResponse, handleRequest, decodeRequest, passOn, invoke,
    Handlers.holds, Bool.false_eq_true, if_false,
    show CommandId.streamReq ≠ CommandId.enquireLinkReq by decide,
    show CommandId.streamReq ≠ CommandId.unbindReq by decide,
    show CommandId.streamReq ≠ CommandId.bindReq by decide, if_true]
  split_ifs <;> simp

/-
  A round of the loop, receiving, over a buffer that starts with a
  whole `stream_req` frame within the limits, whose body the stack
  copy does not overrun: it dispatches the request.
-/
theorem receiveRound_streamReq
    (t : BasicSessionImpl)
    (rest : List Frame)
    (m : Message)
    (tail : List UInt8)
    (hReceiving : t.receivingState = .receiving)
    (hBytes : t.receiveBuf.bytes = m.frame ++ tail)
    (hId : m.commandId = CommandId.streamReq)
    (hMax : headerLength + m.body.length ≤ t.config.maxCommandLength)
    (hLen : headerLength + m.body.length < 2 ^ 32)
    (hSeq : m.sequenceNumber < 2 ^ 32)
    (hSmall : m.body.length ≤ t.config.smallBodySize → m.body.length ≤ 256) :
    (t.receiveRound rest).notices = t.notices ++
      if t.handlers.protocol then
        [.invoked (.onRequest (deserializeStreamRequest m.body) m.sequenceNumber)]
      else [] := by
  have hSize : t.receiveBuf.size = headerLength + m.body.length + tail.length := by
    simp [FlatBuffer.size, hBytes]
  have hHeader : deserializeHeader (t.receiveBuf.bytes.take headerLength) =
      .ok ⟨headerLength + m.body.length, m.commandId, m.commandStatus, m.sequenceNumber⟩ := by
    rw [hBytes, List.take_append_of_le_length (by simp)]
    exact m.deserializeHeader_frame hLen hSeq
  have hBody : t.receiveBuf.bytes.drop headerLength = m.body ++ tail := by
    simp [hBytes, Message.frame, List.drop_append_of_le_length]
  have hHeap : (t.receiveBuf.bytes.take (headerLength + m.body.length)).drop headerLength = m.body := by
    rw [hBytes, Message.frame, List.take_append_of_le_length (by simp),
      List.take_of_length_le (by simp), List.drop_left' (by simp)]
  unfold receiveRound
  rw [if_neg (by simp [hReceiving]), if_neg (by rw [hSize]; omega), hHeader]
  dsimp only
  rw [if_neg (by omega), if_neg (by rw [hSize]; omega)]
  unfold processMessage
  simp only [Nat.add_sub_cancel_left, hId]
  by_cases hStack : m.body.length ≤ t.config.smallBodySize ∧ m.body.length > 0
  · rw [if_pos hStack, if_neg (by have := hSmall hStack.1; omega), hBody, List.take_left,
      dispatchMessage_streamReq]
  · rw [if_neg hStack]
    by_cases hNonempty : m.body.length > 0
    · rw [if_pos hNonempty, hHeap, dispatchMessage_streamReq]
    · rw [if_neg hNonempty, List.eq_nil_of_length_eq_zero (by omega : m.body.length = 0),
        dispatchMessage_streamReq]

/-
  Over every run: `state_` moves only from `Open` to `Unbinding`
  to `Closed`, or from `Open` to `Closed`, and never leaves
  `Closed`; the close handler is called at most once; and in a run
  with no `set_*_handler` call, once the session is `Closed` no
  handler is called at all.  But the setters are public and look
  at no state: a closed session, at rest and paused with a
  `stream_req` still in `receive_buf_` (as `do_close` leaves it),
  given a protocol handler and then `resume_receiving`, as the
  client's deferred bind handover does, delivers the request to
  that handler.
-/
theorem closed_session_dispatches_to_a_handler_set_later :
    (∀ (s : BasicSessionImpl) (i : Input),
      (s.step i).state = s.state ∨
        (s.state = .openState ∧ (s.step i).state ≠ .openState) ∨
        (s.state = .unbindingState ∧ (s.step i).state = .closedState)) ∧
      (∀ (config : SessionConfig) (handlers : Handlers) (inputs : List Input),
        ((init config handlers).run inputs).notices.countP Notice.isCloseHandler ≤ 1) ∧
      (∀ (config : SessionConfig) (handlers : Handlers) (inputs rest : List Input),
        (inputs ++ rest).all (fun i => !i.setsHandler) = true →
        ((init config handlers).run inputs).state = .closedState →
        ∃ new, (((init config handlers).run inputs).run rest).notices =
          ((init config handlers).run inputs).notices ++ new ∧ ∀ cb, Notice.invoked cb ∉ new) ∧
      ∀ (config : SessionConfig) (handlers : Handlers) (s : BasicSessionImpl) (m : Message)
        (tail : List UInt8) (i : Input),
        Reachable config handlers s → s.state = .closedState → s.stack = [] →
        s.overrun = false → s.receivingState = .paused → s.receiveBuf.bytes = m.frame ++ tail →
        m.commandId = CommandId.streamReq →
        headerLength + m.body.length ≤ s.config.maxCommandLength →
        headerLength + m.body.length < 2 ^ 32 → m.sequenceNumber < 2 ^ 32 →
        (m.body.length ≤ s.config.smallBodySize → m.body.length ≤ 256) →
        (s.run [.call (.setProtocolHandler true), .call .resumeReceiving, i]).notices =
          s.notices ++ [.invoked (.onRequest (deserializeStreamRequest m.body) m.sequenceNumber)] := by
  refine ⟨fun s i => SessionState.moves_of_rank_le (Evolves.step s i).rank_le,
    fun config handlers inputs => ?_, fun config handlers inputs rest hQuiet hClosed => ?_,
    fun config handlers s m tail i _ _ hStack hOverrun hPaused hBytes hId hMax hLen hSeq hSmall => ?_⟩
  · obtain ⟨new, hNew, hOnce, -, -⟩ := (Evolves.run (init config handlers) inputs).notices
    rw [hNew]
    simpa [init] using hOnce
  · rw [List.all_append, Bool.and_eq_true] at hQuiet
    /- A run with no setter leaves the handlers of a closed session reset. -/
    have hCleared := (Evolves.run (init config handlers) inputs).cleared hQuiet.1
      (fun h => by simp [init] at h) hClosed
    obtain ⟨new, hNew, -, -, hBy⟩ := (Evolves.run _ rest).notices
    refine ⟨new, hNew, fun cb hCb => ?_⟩
    have hSet := hBy hQuiet.2 cb hCb
    rw [hCleared] at hSet
    cases cb <;> cases hSet
  · /- The setter, then `do_resume_receiving`, which starts the loop over the buffer. -/
    simp only [run, step_of_idle hStack hOverrun, external, apiCall]
    rw [step_resumeReceiving_of_paused (s := s.setProtocolHandler true) hStack hOverrun hPaused]
    exact receiveRound_streamReq
      { s.setProtocolHandler true with receivingState := .receiving, stack := [.receiveLoop] }
      [] m tail rfl hBytes hId hMax hLen hSeq hSmall

/- A peer's `unbind_req`, and a `stream_req` with body `hi`. -/
def unbindRequestMessage : Message :=
  ⟨CommandId.unbindReq, CommandStatus.rok, 1, []⟩

def bufferedRequest : Message :=
  ⟨CommandId.streamReq, CommandStatus.rok, 7, [104, 105, 0]⟩

/-
  Started, and both frames read at once: the `unbind_req` closes
  the session, and the `stream_req` stays in `receive_buf_`.
-/
def closedWithRequestBuffered : BasicSessionImpl :=
  (init SessionConfig.defaults everyHandler).run
    [.call .start, .ret, .readDone (unbindRequestMessage.frame ++ bufferedRequest.frame),
      .ret, .ret, .ret, .ret, .ret]

/-
  The closed session, its handlers reset by `do_close`, passes the
  buffered request to a protocol handler set after the close.
-/
theorem handler_set_after_close_gets_buffered_request :
    closedWithRequestBuffered.state = .closedState ∧
      closedWithRequestBuffered.handlers = Handlers.cleared ∧
      (closedWithRequestBuffered.run
          [.call (.setProtocolHandler true), .call .resumeReceiving, .ret]).notices =
        closedWithRequestBuffered.notices ++
          [.invoked (.onRequest (deserializeStreamRequest [104, 105, 0]) 7)] :=
  ⟨by decide, by decide,
    closed_session_dispatches_to_a_handler_set_later.2.2.2 SessionConfig.defaults everyHandler
      closedWithRequestBuffered bufferedRequest [] .ret ⟨_, rfl⟩ (by decide) (by decide) (by decide)
      (by decide) (by decide) rfl (by decide) (by decide) (by decide) (by decide)⟩

------------------------------------------------------------
-- Close Reasons
------------------------------------------------------------

/-
  `close(reason)` on a session not yet closed, with a close
  handler: the handler gets the reason in `Open`, and none in
  `Unbinding`.
-/
theorem close_notices
    (s : BasicSessionImpl)
    (reason : String)
    (hInv : LifecycleInv s)
    (hOpen : s.state ≠ .closedState)
    (hSet : s.handlers.close = true) :
    (s.close reason).notices = s.notices ++
      [.invoked (.closeHandler (if s.state = .openState then some reason else none))] := by
  have hFresh : s.closeInitiated = false := by
    cases h : s.closeInitiated
    · rfl
    · exact absurd (hInv.initiated.mp h) hOpen
  rw [close, if_neg (by simp [hFresh])]
  rw [(doClose_closes { s with closeInitiated := true } reason hOpen).2.2.2.2]
  simp [hSet]

/- The causes of a close the executor runs with the stack empty, in `Unbinding`. -/
theorem unbinding_closes_report_none
    (s : BasicSessionImpl)
    (hInv : LifecycleInv s)
    (hStack : s.stack = [])
    (hOverrun : s.overrun = false)
    (hUnbinding : s.state = .unbindingState)
    (hSet : s.handlers.close = true) :
    (s.unbindTimer = true →
        (s.step .unbindTimerFired).notices = s.notices ++ [.invoked (.closeHandler none)]) ∧
      (0 < s.reads → ∀ message,
        (s.step (.readFailed message)).notices = s.notices ++ [.invoked (.closeHandler none)]) ∧
      (0 < s.writes → ∀ message,
        (s.step (.writeFailed message)).notices = s.notices ++ [.invoked (.closeHandler none)]) ∧
      ∀ reason,
        (s.step (.call (.close reason))).notices = s.notices ++ [.invoked (.closeHandler none)] := by
  have hOpen : s.state ≠ .closedState := by rw [hUnbinding]; decide
  /- Each cause ends in `close` on a session that keeps the lifecycle fields of `s`. -/
  have hClose : ∀ (t : BasicSessionImpl) reason, t.state = s.state →
      t.closeInitiated = s.closeInitiated → t.handlers = s.handlers → t.notices = s.notices →
      (t.close reason).notices = s.notices ++ [.invoked (.closeHandler none)] :=
    fun t reason hState hInit hHandlers hNotices => by
      have hInvT : LifecycleInv t := ⟨by rw [hState, hInit]; exact hInv.initiated⟩
      rw [close_notices t reason hInvT (hState ▸ hOpen) (hHandlers ▸ hSet), hState, hUnbinding,
        hNotices]
      rfl
  simp only [BasicSessionImpl.step, hOverrun, hStack, Bool.false_eq_true, if_false, external]
  refine ⟨fun hTimer => ?_, fun hReads message => ?_, fun hWrites message => ?_,
    fun reason => hClose s reason rfl rfl rfl rfl⟩
  · simp only [hTimer, if_true, hUnbinding]
    exact hClose _ _ hUnbinding.symm rfl rfl rfl
  · rw [if_pos hReads]
    exact hClose _ _ rfl rfl rfl rfl
  · rw [if_pos hWrites]
    exact hClose _ _ rfl rfl rfl rfl

/-
  The close handler gets the reason of a close only in `Open`:
  every close in `Unbinding` reports none.  In every reachable
  state in `Unbinding`, the unbind timeout, a failed read, a
  failed write and an explicit `close(reason)` all call the close
  handler with none, like the close that completes an unbind
  handshake.
-/
theorem close_reason_is_none_in_unbinding :
    (∀ (s : BasicSessionImpl) (reason : String), LifecycleInv s → s.state ≠ .closedState →
        s.handlers.close = true →
        (s.close reason).notices = s.notices ++
          [.invoked (.closeHandler (if s.state = .openState then some reason else none))]) ∧
      ∀ (config : SessionConfig) (handlers : Handlers) (s : BasicSessionImpl),
        Reachable config handlers s → s.stack = [] → s.overrun = false →
          s.state = .unbindingState → s.handlers.close = true →
          (s.unbindTimer = true →
            (s.step .unbindTimerFired).notices = s.notices ++ [.invoked (.closeHandler none)]) ∧
          (0 < s.reads → ∀ message,
            (s.step (.readFailed message)).notices = s.notices ++ [.invoked (.closeHandler none)]) ∧
          (0 < s.writes → ∀ message,
            (s.step (.writeFailed message)).notices = s.notices ++ [.invoked (.closeHandler none)]) ∧
          ∀ reason,
            (s.step (.call (.close reason))).notices = s.notices ++ [.invoked (.closeHandler none)] :=
  ⟨fun s reason hInv hOpen hSet => close_notices s reason hInv hOpen hSet,
    fun _ _ s hReach hStack hOverrun hUnbinding hSet =>
      unbinding_closes_report_none s hReach.lifecycleInv hStack hOverrun hUnbinding hSet⟩

/- Started, then `unbind()`: the session waits in `Unbinding` for `unbind_resp`. -/
def unbindingSession : BasicSessionImpl :=
  (init SessionConfig.defaults everyHandler).run [.call .start, .ret, .call .unbind, .ret]

/-
  The unbind timeout of a started session after `unbind()` calls
  the close handler with none.
-/
theorem unbind_timeout_reports_none :
    (unbindingSession.step .unbindTimerFired).notices =
        unbindingSession.notices ++ [.invoked (.closeHandler none)] ∧
      (unbindingSession.step .unbindTimerFired).notices =
        [.swapped, .invoked (.closeHandler none)] :=
  ⟨(close_reason_is_none_in_unbinding.2 SessionConfig.defaults everyHandler unbindingSession
      ⟨_, rfl⟩ (by decide) (by decide) (by decide) (by decide)).1 (by decide),
    by decide⟩

end BasicSessionImpl

end Net

end Networking

end Vex
