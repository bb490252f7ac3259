import Vex.Networking.Net.Machine.Receive

/-
  The backpressure controller of `basic_session_impl` over runs of
  sends and write completions.

  A swap of `do_send` leaves `pending_send_buf_` empty, so
  `should_resume` of what is left holds just when the controller is
  paused and the low watermark is above zero; then, and only then,
  receiving resumes and the send-buf-available handler is due.
  `session_config::is_valid` admits a zero low watermark, and with
  one a pause never ends.  `StaysStuck s t` says that the code
  between `s` and `t` keeps such a pause, with receiving paused,
  and shows no resume and no call of the handler.  Every function
  a send or a write completion reaches keeps it, each by one lemma
  from the lemmas of what it calls.

  Main declarations:
    * `Input.sendsOrWrites`, `NoResume`, `Stuck`, `StaysStuck`
    * `doSend_swap`, `StaysStuck.step`, `StaysStuck.run`
    * `backpressure_pause_outlives_drain`
-/

------------------------------------------------------------
-- A Pause That Cannot End
------------------------------------------------------------

namespace Vex

namespace Networking

namespace Net

/- A send the user makes, or the completion of a write. -/
def Input.sendsOrWrites : Input → Bool
  | .call (.send _) => true
  | .writeDone => true
  | _ => false

/- Notices that neither resume receiving nor call the send-buf-available handler. -/
def NoResume (new : List Notice) : Prop :=
  Notice.resumed ∉ new ∧ Notice.invoked .sendBufAvailable ∉ new

theorem noResume_nil : NoResume [] :=
  ⟨List.not_mem_nil _, List.not_mem_nil _⟩

theorem NoResume.append
    {new₁ new₂ : List Notice}
    (h₁ : NoResume new₁)
    (h₂ : NoResume new₂) :
    NoResume (new₁ ++ new₂) :=
  ⟨by simp [h₁.1, h₂.1], by simp [h₁.2, h₂.2]⟩

namespace BasicSessionImpl

/-
  A backpressure pause that `should_resume` cannot end: a zero low
  watermark, the controller paused, receiving paused, and no call
  of the send-buf-available handler pending on the stack.
-/
structure Stuck (s : BasicSessionImpl) : Prop where
  low : s.config.backpressureLowWatermark = 0
  paused : s.backpressurePaused = true
  receiving : s.receivingState = .paused
  no_resume : Frame.afterResume ∉ s.stack

/- `t` follows `s`, and a stuck pause stays stuck with nothing resumed. -/
def StaysStuck (s t : BasicSessionImpl) : Prop :=
  Stuck s → Stuck t ∧ ∃ new, t.notices = s.notices ++ new ∧ NoResume new

variable {s t u : BasicSessionImpl} {rest : List Frame}

theorem StaysStuck.refl (s : BasicSessionImpl) : StaysStuck s s :=
  fun h => ⟨h, [], (List.append_nil _).symm, noResume_nil⟩

theorem StaysStuck.trans
    (h₁ : StaysStuck s t)
    (h₂ : StaysStuck t u) :
    StaysStuck s u := fun h => by
  obtain ⟨hT, new₁, hNew₁, hQuiet₁⟩ := h₁ h
  obtain ⟨hU, new₂, hNew₂, hQuiet₂⟩ := h₂ hT
  exact ⟨hU, new₁ ++ new₂, by rw [hNew₂, hNew₁, List.append_assoc], hQuiet₁.append hQuiet₂⟩

/-
  A change that keeps a pause and a paused receiving, adds no
  `afterResume` frame, and shows `new`.
-/
theorem StaysStuck.of_quiet
    (new : List Notice)
    (hConfig : t.config = s.config)
    (hPaused : s.backpressurePaused = true → t.backpressurePaused = true)
    (hReceiving : s.receivingState = .paused → t.receivingState = .paused)
    (hStack : Frame.afterResume ∈ t.stack → Frame.afterResume ∈ s.stack)
    (hNotices : t.notices = s.notices ++ new)
    (hNew : NoResume new) :
    StaysStuck s t := fun h =>
  ⟨⟨by rw [hConfig]; exact h.low, hPaused h.paused, hReceiving h.receiving,
    fun hIn => h.no_resume (hStack hIn)⟩, new, hNotices, hNew⟩

/- Such a change, then `h`. -/
theorem StaysStuck.of_quiet_trans
    (h : StaysStuck t u)
    (new : List Notice)
    (hConfig : t.config = s.config)
    (hPaused : s.backpressurePaused = true → t.backpressurePaused = true)
    (hReceiving : s.receivingState = .paused → t.receivingState = .paused)
    (hStack : Frame.afterResume ∈ t.stack → Frame.afterResume ∈ s.stack)
    (hNotices : t.notices = s.notices ++ new)
    (hNew : NoResume new) :
    StaysStuck s u :=
  (StaysStuck.of_quiet new hConfig hPaused hReceiving hStack hNotices hNew).trans h

/- Such a change that shows nothing. -/
theorem StaysStuck.of_frame
    (hConfig : t.config = s.config)
    (hPaused : s.backpressurePaused = true → t.backpressurePaused = true)
    (hReceiving : s.receivingState = .paused → t.receivingState = .paused)
    (hStack : Frame.afterResume ∈ t.stack → Frame.afterResume ∈ s.stack)
    (hNotices : t.notices = s.notices) :
    StaysStuck s t :=
  .of_quiet [] hConfig hPaused hReceiving hStack (by rw [hNotices, List.append_nil]) noResume_nil

/- Such a change, then `h`. -/
theorem StaysStuck.of_frame_trans
    (h : StaysStuck t u)
    (hConfig : t.config = s.config)
    (hPaused : s.backpressurePaused = true → t.backpressurePaused = true)
    (hReceiving : s.receivingState = .paused → t.receivingState = .paused)
    (hStack : Frame.afterResume ∈ t.stack → Frame.afterResume ∈ s.stack)
    (hNotices : t.notices = s.notices) :
    StaysStuck s u :=
  (StaysStuck.of_frame hConfig hPaused hReceiving hStack hNotices).trans h

------------------------------------------------------------
-- Calls Back, Receiving and Closing
------------------------------------------------------------

theorem staysStuck_invoke
    {cb : Callback}
    (guards : List Frame)
    {otherwise : BasicSessionImpl}
    (hCb : cb ≠ .sendBufAvailable)
    (hGuards : Frame.afterResume ∉ guards)
    (hOtherwise : StaysStuck s otherwise) :
    StaysStuck s (s.invoke cb guards otherwise) := by
  unfold invoke
  split_ifs
  · exact .of_quiet [.invoked cb] rfl id id (by simp [hGuards]) rfl (by simp [NoResume, Ne.symm hCb])
  · exact hOtherwise

theorem staysStuck_asyncWrite (s : BasicSessionImpl) : StaysStuck s s.asyncWrite :=
  .of_frame rfl id id id rfl

theorem staysStuck_pauseReceiving (s : BasicSessionImpl) : StaysStuck s s.pauseReceiving := by
  unfold pauseReceiving
  split_ifs with hReceiving
  · exact .of_frame rfl id (fun hP => absurd (hP.symm.trans hReceiving) (by decide)) id rfl
  · exact .refl s

theorem staysStuck_doClose
    (s : BasicSessionImpl)
    (reason : String) :
    StaysStuck s (s.doClose reason) := by
  unfold doClose
  dsimp only
  split_ifs
  · exact .refl s
  all_goals first
    | exact .of_frame rfl id (fun _ => rfl) id rfl
    | exact .of_quiet [.invoked (.closeHandler _)] rfl id (fun _ => rfl) (by simp) rfl (by simp [NoResume])

theorem staysStuck_close
    (s : BasicSessionImpl)
    (reason : String) :
    StaysStuck s (s.close reason) := by
  unfold close
  split_ifs
  · exact .refl s
  · exact (staysStuck_doClose _ _).of_frame_trans rfl id id id rfl

------------------------------------------------------------
-- Sending
------------------------------------------------------------

/-
  A swap of `do_send`, with no write in flight: `pending_send_buf_`
  is left empty, and `should_resume` of it holds just when the
  controller is paused and the low watermark is above zero; only
  then is receiving resumed and the send-buf-available handler due.
-/
theorem doSend_swap
    (s : BasicSessionImpl)
    (hIdle : s.writing = 0) :
    s.doSend.pending = 0 ∧
      s.doSend.backpressurePaused =
        (s.backpressurePaused && !decide (0 < s.config.backpressureLowWatermark)) ∧
      s.doSend.notices = s.notices ++ Notice.swapped ::
        (if s.backpressurePaused = true ∧ 0 < s.config.backpressureLowWatermark then [.resumed]
          else []) ∧
      (Frame.afterResume ∈ s.doSend.stack ↔ Frame.afterResume ∈ s.stack ∨
        (s.backpressurePaused = true ∧ 0 < s.config.backpressureLowWatermark)) := by
  unfold doSend
  rw [if_neg (not_not.mpr hIdle)]
  dsimp only
  split_ifs with hResume
  · unfold doResumeReceiving doReceive
    split_ifs <;> simp [hResume]
  · simp only [asyncWrite, hResume, if_false, List.append_assoc, List.singleton_append, false_or,
      iff_self, and_true, true_and]
    cases hPaused : s.backpressurePaused <;> simp_all

theorem staysStuck_doSend (s : BasicSessionImpl) : StaysStuck s s.doSend := by
  unfold doSend
  dsimp only
  split_ifs with hWriting hResume
  · exact .refl s
  · exact fun h => absurd hResume.2 (by simp [h.low])
  · exact (staysStuck_asyncWrite _).of_quiet_trans [.swapped] rfl id id id rfl (by simp [NoResume])

theorem staysStuck_sendCommand (s : BasicSessionImpl) : StaysStuck s s.sendCommand :=
  (staysStuck_doSend _).of_frame_trans rfl id id id rfl

theorem staysStuck_deserializationFailed
    (s : BasicSessionImpl)
    (what : String)
    (cmdId : UInt8)
    (body : List UInt8) :
    StaysStuck s (s.deserializationFailed what cmdId body) :=
  staysStuck_invoke _ (by simp) (by simp) (staysStuck_close s _)

theorem staysStuck_handlerFailed
    (s : BasicSessionImpl)
    (pre what : String)
    (cmdId : UInt8)
    (body : List UInt8) :
    StaysStuck s (s.handlerFailed pre what cmdId body) :=
  staysStuck_invoke _ (by simp) (by simp) (staysStuck_close s _)

/- An exception unwinding frames of the stack. -/
theorem staysStuck_unwind (what : String) :
    ∀ (s : BasicSessionImpl) (frames : List Frame),
      (Frame.afterResume ∈ frames → Frame.afterResume ∈ s.stack) →
        StaysStuck s (unwind what s frames)
  | _, [], _ => .of_quiet [.escaped what] rfl id id (fun h => absurd h (List.not_mem_nil _)) rfl
      (by simp [NoResume])
  | _, .user _ :: _, h => .of_frame rfl id id h rfl
  | _, .handlerGuard .. :: _, h => (staysStuck_handlerFailed _ _ _ _ _).of_frame_trans rfl id id
      (fun hIn => h (List.mem_cons_of_mem _ hIn)) rfl
  | _, .errorGuard .. :: _, h => (staysStuck_deserializationFailed _ _ _ _).of_frame_trans rfl id id
      (fun hIn => h (List.mem_cons_of_mem _ hIn)) rfl
  | _, .afterSendBufAvailable :: _, h => (staysStuck_asyncWrite _).of_frame_trans rfl id id
      (fun hIn => h (List.mem_cons_of_mem _ hIn)) rfl
  | _, .afterCloseHandler :: _, h => .of_frame rfl id id (fun hIn => h (List.mem_cons_of_mem _ hIn)) rfl
  | s, .receiveLoop :: rest, h => staysStuck_unwind what s rest fun hIn => h (List.mem_cons_of_mem _ hIn)
  | s, .closeAfter _ :: rest, h => staysStuck_unwind what s rest fun hIn => h (List.mem_cons_of_mem _ hIn)
  | s, .afterResume :: rest, h => staysStuck_unwind what s rest fun hIn => h (List.mem_cons_of_mem _ hIn)
  | s, .armUnbindTimer :: rest, h =>
      staysStuck_unwind what s rest fun hIn => h (List.mem_cons_of_mem _ hIn)

theorem staysStuck_throw
    (s : BasicSessionImpl)
    (what : String) :
    StaysStuck s (s.throw what) :=
  staysStuck_unwind what s s.stack id

theorem staysStuck_doSendImpl
    (s : BasicSessionImpl)
    (pdu : Pdu) :
    StaysStuck s (s.doSendImpl pdu) := by
  unfold doSendImpl
  split_ifs
  · exact staysStuck_invoke _ (by simp) (List.not_mem_nil _) (.refl s)
  · split
    · exact staysStuck_throw s _
    · dsimp only
      split_ifs
      · refine StaysStuck.trans ?_ (staysStuck_doSend _)
        refine StaysStuck.trans ?_ (staysStuck_pauseReceiving _)
        exact .of_quiet [.paused] rfl (fun _ => rfl) id id rfl (by simp [NoResume])
      · exact (staysStuck_doSend _).of_frame_trans rfl id id id rfl

------------------------------------------------------------
-- The Receive Loop
------------------------------------------------------------

theorem staysStuck_passOn
    (s : BasicSessionImpl)
    (m : Message)
    (decoded : Except String Pdu)
    (cb : Pdu → Callback)
    (hCb : ∀ p, cb p ≠ .sendBufAvailable)
    (pre : String) :
    StaysStuck s (s.passOn m decoded cb pre) := by
  cases decoded with
  | error what => exact staysStuck_deserializationFailed s what _ _
  | ok p => exact staysStuck_invoke _ (hCb p) (by simp) (.refl s)

theorem staysStuck_handleRequest
    (s : BasicSessionImpl)
    (m : Message) :
    StaysStuck s (s.handleRequest m) := by
  unfold handleRequest
  split_ifs
  · exact staysStuck_sendCommand s
  · exact (staysStuck_sendCommand _).of_frame_trans rfl id id (by simp) rfl
  · exact (staysStuck_sendCommand _).of_frame_trans rfl id id (by simp) rfl
  · exact staysStuck_passOn s m _ _ (fun _ => by simp) _

theorem staysStuck_handleResponse
    (s : BasicSessionImpl)
    (m : Message) :
    StaysStuck s (s.handleResponse m) := by
  unfold handleResponse
  split_ifs
  · exact .refl s
  · exact (staysStuck_close _ _).of_frame_trans rfl id id id rfl
  · exact staysStuck_passOn s m _ _ (fun _ => by simp) _

theorem staysStuck_dispatchMessage
    (s : BasicSessionImpl)
    (m : Message) :
    StaysStuck s (s.dispatchMessage m) := by
  unfold dispatchMessage
  split_ifs
  · exact staysStuck_handleResponse s m
  · exact staysStuck_handleRequest s m

theorem staysStuck_processMessage
    (s : BasicSessionImpl)
    (h : Header) :
    StaysStuck s (s.processMessage h) := by
  unfold processMessage
  dsimp only
  split_ifs
  · exact .of_frame rfl id id id rfl
  all_goals exact (staysStuck_dispatchMessage _ _).of_frame_trans rfl id id id rfl

theorem staysStuck_loopExit (s : BasicSessionImpl) : StaysStuck s s.loopExit := by
  unfold loopExit
  split_ifs
  · exact .of_frame rfl id (fun _ => rfl) id rfl
  · split
    · exact staysStuck_throw s _
    · exact .of_frame rfl id id id rfl

theorem staysStuck_receiveRound
    (s : BasicSessionImpl)
    (hRest : Frame.afterResume ∈ rest → Frame.afterResume ∈ s.stack) :
    StaysStuck s (s.receiveRound rest) := by
  unfold receiveRound
  split_ifs
  · exact (staysStuck_loopExit _).of_frame_trans rfl id id hRest rfl
  · exact (staysStuck_loopExit _).of_frame_trans rfl id id hRest rfl
  · split
    · exact staysStuck_throw s _
    · split_ifs
      · exact (staysStuck_close _ _).of_frame_trans rfl id id hRest rfl
      · exact (staysStuck_loopExit _).of_frame_trans rfl id id hRest rfl
      · exact staysStuck_processMessage s _

------------------------------------------------------------
-- Steps and Runs
------------------------------------------------------------

theorem staysStuck_external
    (s : BasicSessionImpl)
    (i : Input)
    (hI : i.sendsOrWrites = true) :
    StaysStuck s (s.external i) := by
  cases i with
  | call api =>
      cases api with
      | send pdu => exact staysStuck_doSendImpl s pdu
      | _ => cases hI
  | writeDone =>
      simp only [external]
      split_ifs
      · exact (staysStuck_doSend _).of_frame_trans rfl id id id rfl
      · exact .of_frame rfl id id id rfl
      · exact .refl s
  | _ => cases hI

theorem staysStuck_userStep
    (s : BasicSessionImpl)
    (i : Input)
    (hI : i.sendsOrWrites = true) :
    StaysStuck s (s.userStep rest i) := by
  cases i with
  | call api =>
      cases api with
      | send pdu => exact staysStuck_doSendImpl s pdu
      | _ => cases hI
  | writeDone => exact .refl s
  | _ => cases hI

theorem staysStuck_frameStep
    (s : BasicSessionImpl)
    {i : Input}
    {f : Frame}
    (hI : i.sendsOrWrites = true)
    (hTop : s.stack = f :: rest) :
    StaysStuck s (s.frameStep i f rest) := by
  have hRest : Frame.afterResume ∈ rest → Frame.afterResume ∈ s.stack := fun hIn => by
    rw [hTop]
    exact List.mem_cons_of_mem _ hIn
  cases f with
  | receiveLoop => exact staysStuck_receiveRound s hRest
  | user _ => exact staysStuck_userStep s i hI
  | handlerGuard _ _ _ => exact .of_frame rfl id id hRest rfl
  | errorGuard _ _ _ => exact (staysStuck_close _ _).of_frame_trans rfl id id hRest rfl
  | closeAfter _ => exact (staysStuck_close _ _).of_frame_trans rfl id id hRest rfl
  | afterResume => exact fun h => absurd (hTop ▸ List.mem_cons_self _ _) h.no_resume
  | afterSendBufAvailable => exact (staysStuck_asyncWrite _).of_frame_trans rfl id id hRest rfl
  | afterCloseHandler => exact .of_frame rfl id id hRest rfl
  | armUnbindTimer => exact .of_frame rfl id id hRest rfl

/- A send or a write completion keeps a stuck pause stuck. -/
theorem StaysStuck.step
    (s : BasicSessionImpl)
    {i : Input}
    (hI : i.sendsOrWrites = true) :
    StaysStuck s (s.step i) := by
  unfold BasicSessionImpl.step
  split_ifs
  · exact .refl s
  · split
    · exact staysStuck_external s i hI
    · next hTop => exact staysStuck_frameStep s hI hTop

/- So does every run of them. -/
theorem StaysStuck.run :
    ∀ (s : BasicSessionImpl) (inputs : List Input),
      (∀ i ∈ inputs, i.sendsOrWrites = true) → StaysStuck s (s.run inputs)
  | s, [], _ => .refl s
  | s, i :: is, h =>
      (StaysStuck.step s (h i (List.mem_cons_self _ _))).trans
        (StaysStuck.run _ is fun j hj => h j (List.mem_cons_of_mem _ hj))

/-
  At a swap, receiving resumes and the send-buf-available handler is
  due just when the controller is paused and the low watermark is
  above zero.  With a zero low watermark, which `is_valid` admits, a
  pause with receiving paused outlives every run of sends and write
  completions: nothing resumes and the handler is never called.
-/
theorem backpressure_pause_outlives_drain :
    (∀ s : BasicSessionImpl, s.writing = 0 →
      s.doSend.pending = 0 ∧
        s.doSend.backpressurePaused =
          (s.backpressurePaused && !decide (0 < s.config.backpressureLowWatermark)) ∧
        s.doSend.notices = s.notices ++ Notice.swapped ::
          (if s.backpressurePaused = true ∧ 0 < s.config.backpressureLowWatermark then [.resumed]
            else []) ∧
        (Frame.afterResume ∈ s.doSend.stack ↔ Frame.afterResume ∈ s.stack ∨
          (s.backpressurePaused = true ∧ 0 < s.config.backpressureLowWatermark))) ∧
      ∀ (s : BasicSessionImpl) (inputs : List Input), Stuck s →
        (∀ i ∈ inputs, i.sendsOrWrites = true) →
          Stuck (s.run inputs) ∧
            ∃ new, (s.run inputs).notices = s.notices ++ new ∧ NoResume new :=
  ⟨doSend_swap, fun s inputs hStuck hInputs => StaysStuck.run s inputs hInputs hStuck⟩

/- A valid configuration with a zero low watermark and a small high one. -/
def lowZeroConfig : SessionConfig :=
  { SessionConfig.defaults with backpressureLowWatermark := 0, backpressureHighWatermark := 10 }

/-
  Started, one request sent past the high watermark and written
  out, the first bytes read, and the loop settled: both send
  buffers are empty.
-/
def drainedSession : BasicSessionImpl :=
  (init lowZeroConfig everyHandler).run
    [.call .start, .ret, .call (.send (.streamRequest [0])), .writeDone, .readDone [1], .ret]

/- The drained session stays paused through another send and its write. -/
theorem drained_session_stays_paused :
    lowZeroConfig.isValid = true ∧ drainedSession.pending = 0 ∧ drainedSession.writing = 0 ∧
      Stuck (drainedSession.run [.call (.send (.streamRequest [0])), .writeDone]) :=
  ⟨by decide, by decide, by decide,
    (backpressure_pause_outlives_drain.2 drainedSession _ ⟨by decide, by decide, by decide, by decide⟩
      (by decide)).1⟩

end BasicSessionImpl

end Net

end Networking

end Vex
