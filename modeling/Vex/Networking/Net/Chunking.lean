import Vex.Networking.Net.Session

/-
  The receive loop of `basic_session_impl` over a stream of
  frames, however the transport splits it and however receiving
  is paused and resumed.

  The frames considered are those the loop takes whole: each fits
  `max_command_length` and leaves room in `receive_buf_` for the
  next `64 KiB` read while it is partial, and its handler keeps
  the session open.  A run of events is tracked against the
  stream by `Tracks`: the calls dispatched are the first frames,
  and the bytes delivered are their frames followed by the
  buffered bytes.

  Key definitions include:
    * `frameBytes`, `WellFormed`
    * `Tracks`

  Key theorems include:
    * `prefix_frameBytes`, `awaits_of_incomplete`
    * `receiveLoop_frames`, `doReceive_receiving`
    * `Tracks.step`, `Tracks.run`
-/

------------------------------------------------------------
-- Streams of Frames
------------------------------------------------------------

namespace Vex

namespace Networking

namespace Net

namespace SessionImpl

/- The bytes of the frames, one after another. -/
def frameBytes (frames : List Message) : List UInt8 :=
  (frames.map Message.frame).flatten

@[simp]
theorem frameBytes_nil : frameBytes [] = [] :=
  rfl

@[simp]
theorem frameBytes_cons (m : Message) (frames : List Message) :
    frameBytes (m :: frames) = m.frame ++ frameBytes frames :=
  rfl

@[simp]
theorem frameBytes_append (frames frames' : List Message) :
    frameBytes (frames ++ frames') = frameBytes frames ++ frameBytes frames' := by
  simp [frameBytes]

/- Each frame has at least its header. -/
theorem length_le_length_frameBytes (frames : List Message) :
    frames.length ≤ (frameBytes frames).length := by
  induction frames with
  | nil => simp
  | cons m frames ih =>
      simp only [frameBytes_cons, List.length_append, Message.length_frame, List.length_cons]
      simp only [headerLength] at *
      omega

/-
  A prefix of a stream is whole frames, then a strict prefix of
  the next frame or nothing.
-/
theorem prefix_frameBytes
    {bytes : List UInt8}
    {frames : List Message}
    (hPrefix : bytes <+: frameBytes frames) :
    ∃ front rest p, frames = front ++ rest ∧ bytes = frameBytes front ++ p ∧
      ((rest = [] ∧ p = []) ∨
        ∃ m rest', rest = m :: rest' ∧ p <+: m.frame ∧ p.length < m.frame.length) := by
  induction frames generalizing bytes with
  | nil =>
      exact ⟨[], [], bytes, rfl, rfl, .inl ⟨rfl, List.prefix_nil.mp hPrefix⟩⟩
  | cons m frames ih =>
      by_cases hShort : bytes.length < m.frame.length
      · have hInFrame : bytes <+: m.frame :=
          List.prefix_of_prefix_length_le hPrefix (List.prefix_append _ _) hShort.le
        exact ⟨[], m :: frames, bytes, rfl, rfl, .inr ⟨m, frames, rfl, hInFrame, hShort⟩⟩
      · obtain ⟨tail, hTail⟩ : ∃ tail, bytes = m.frame ++ tail :=
          ⟨bytes.drop m.frame.length, by
            have hFront : m.frame <+: bytes :=
              List.prefix_of_prefix_length_le (List.prefix_append _ _) hPrefix (not_lt.mp hShort)
            exact (List.prefix_iff_eq_append.mp hFront).symm⟩
        subst hTail
        have hTailPrefix : tail <+: frameBytes frames :=
          (List.prefix_append_right_inj _).mp hPrefix
        obtain ⟨front, rest, p, rfl, rfl, hEnd⟩ := ih hTailPrefix
        exact ⟨m :: front, rest, p, rfl, by simp, hEnd⟩

------------------------------------------------------------
-- Frames the Loop Takes Whole
------------------------------------------------------------

/-
  A frame of the stream: its length fits `max_command_length` and
  `1 MiB - 64 KiB + 1`, its sequence number a `uint32_t`, and its
  handler keeps the session open.
-/
structure WellFormed
    (config : SessionConfig)
    (m : Message) : Prop where
  length_le_max : headerLength + m.body.length ≤ config.maxCommandLength
  length_le_room : headerLength + m.body.length ≤ receiveBufCapacity - readSize + 1
  seq_lt : m.sequenceNumber < 2 ^ 32
  keeps_open : closeReasonOf m = none

theorem WellFormed.length_lt
    {config : SessionConfig}
    {m : Message}
    (hWell : WellFormed config m) :
    headerLength + m.body.length < 2 ^ 32 := by
  have := hWell.length_le_room
  simp only [receiveBufCapacity, readSize] at this
  omega

variable {config : SessionConfig}

/- The header of a well-formed frame reads back from any prefix holding it. -/
theorem deserializeHeader_of_front
    {m : Message}
    {p : List UInt8}
    (hWell : WellFormed config m)
    (hPrefix : p <+: m.frame)
    (hLong : headerLength ≤ p.length) :
    deserializeHeader (p.take headerLength) =
      .ok ⟨headerLength + m.body.length, m.commandId, m.commandStatus, m.sequenceNumber⟩ := by
  obtain ⟨q, hq⟩ := hPrefix
  rw [← List.take_append_of_le_length hLong, hq]
  exact m.deserializeHeader_frame hWell.length_lt hWell.seq_lt

/- A strict prefix of a well-formed frame leaves the loop waiting. -/
theorem awaits_of_incomplete
    {m : Message}
    {p : List UInt8}
    (hWell : WellFormed config m)
    (hPrefix : p <+: m.frame)
    (hShort : p.length < m.frame.length) :
    Awaits config p := by
  by_cases hLong : p.length < headerLength
  · exact .inl hLong
  · refine .inr ⟨_, deserializeHeader_of_front hWell hPrefix (not_lt.mp hLong),
      hWell.length_le_max, ?_⟩
    simpa using hShort

/- The loop never waits in front of a whole well-formed frame. -/
theorem not_awaits_frame
    {m : Message}
    (rest : List UInt8)
    (hWell : WellFormed config m) :
    ¬ Awaits config (m.frame ++ rest) := by
  have hPrefix : m.frame <+: m.frame ++ rest := List.prefix_append _ _
  have hLong : headerLength ≤ (m.frame ++ rest).length := by
    simp only [List.length_append, Message.length_frame]
    omega
  rintro (hShort | ⟨h, hHeader, -, hPartial⟩)
  · omega
  · rw [List.take_append_of_le_length (by simp),
      deserializeHeader_of_front hWell (List.prefix_refl _) (by simp)] at hHeader
    cases hHeader
    simp only [List.length_append, Message.length_frame] at hPartial
    omega

variable {s : SessionImpl}

/-
  The loop dispatches the whole frames at the front of the buffer,
  in order, and breaks with the rest buffered.
-/
theorem receiveLoop_frames
    (frames : List Message)
    (p : List UInt8)
    (fuel : Nat)
    (hState : s.receivingState = .receiving)
    (hBytes : s.receiveBuf.bytes = frameBytes frames ++ p)
    (hWell : ∀ m ∈ frames, WellFormed s.config m)
    (hAwaits : Awaits s.config p)
    (hSmall : s.config.smallBodySize ≤ 256)
    (hFuel : frames.length < fuel) :
    ∃ buf, receiveLoop fuel s =
        .ok (.broke, { s with receiveBuf := buf, dispatched := s.dispatched ++ frames }) ∧
      buf.bytes = p ∧ buf.capacity = s.receiveBuf.capacity ∧
      (s.receiveBuf.Valid → buf.Valid) := by
  induction frames generalizing s fuel with
  | nil =>
      obtain _ | fuel := fuel
      · simp at hFuel
      refine ⟨s.receiveBuf, ?_, by simpa using hBytes, rfl, id⟩
      rw [receiveLoop_awaits _ hState (by simpa using hBytes ▸ hAwaits)]
      simp
  | cons m frames ih =>
      obtain _ | fuel := fuel
      · simp at hFuel
      have hM := hWell m (List.mem_cons_self _ _)
      rw [receiveLoop_frame fuel m (frameBytes frames ++ p) hState
        (by rw [hBytes, frameBytes_cons, List.append_assoc])
        hM.length_le_max hM.length_lt hM.seq_lt hM.keeps_open hSmall]
      obtain ⟨buf, hRun, hBuf, hCap, hValid⟩ :=
        ih (s := { s with
            receiveBuf := s.receiveBuf.consume (headerLength + m.body.length)
            dispatched := s.dispatched ++ [m] })
          fuel hState
          (by simp [hBytes, ← Message.length_frame])
          (fun m' hm' => hWell m' (List.mem_cons_of_mem _ hm')) hAwaits hSmall
          (by simp at hFuel; omega)
      refine ⟨buf, by simpa using hRun, hBuf, by simpa using hCap,
        fun hV => hValid (FlatBuffer.consume_valid hV _)⟩

/- `do_receive` settles a pending pause at once. -/
theorem doReceive_pendingPause
    (hState : s.receivingState = .pendingPause) :
    doReceive s = .ok { s with receivingState := .paused } := by
  simp [doReceive, receiveLoop_not_receiving _ (by simp [hState] : s.receivingState ≠ .receiving),
    hState]

/-
  `do_receive` while receiving a prefix of well-formed frames:
  no fault; it dispatches the whole frames and reads on.
-/
theorem doReceive_receiving
    {frames : List Message}
    (hState : s.receivingState = .receiving)
    (hValid : s.receiveBuf.Valid)
    (hCap : s.receiveBuf.capacity = receiveBufCapacity)
    (hPrefix : s.receiveBuf.bytes <+: frameBytes frames)
    (hWell : ∀ m ∈ frames, WellFormed s.config m)
    (hSmall : s.config.smallBodySize ≤ 256) :
    ∃ front rest buf, frames = front ++ rest ∧
      doReceive s =
        .ok { s with receiveBuf := buf, dispatched := s.dispatched ++ front, reading := true } ∧
      s.receiveBuf.bytes = frameBytes front ++ buf.bytes ∧ buf.Valid ∧
      buf.capacity = receiveBufCapacity ∧ Awaits s.config buf.bytes := by
  obtain ⟨front, rest, p, rfl, hBytes, hEnd⟩ := prefix_frameBytes hPrefix
  have hDone : ∀ m ∈ front, WellFormed s.config m :=
    fun m hm => hWell m (List.mem_append_left _ hm)
  -- What is left is empty or a strict prefix of the next frame.
  have hRest : Awaits s.config p ∧ p.length ≤ receiveBufCapacity - readSize := by
    rcases hEnd with ⟨-, rfl⟩ | ⟨m, rest', rfl, hP, hShort⟩
    · exact ⟨.inl (by simp [headerLength]), by simp [receiveBufCapacity, readSize]⟩
    · have hM := hWell m (by simp)
      refine ⟨awaits_of_incomplete hM hP hShort, ?_⟩
      have := hM.length_le_room
      simp only [Message.length_frame] at hShort
      simp only [receiveBufCapacity, readSize] at this ⊢
      omega
  have hFuel : front.length < s.receiveBuf.size + 1 := by
    have := length_le_length_frameBytes front
    simp only [FlatBuffer.size, hBytes, List.length_append]
    omega
  obtain ⟨buf, hLoop, hBuf, hBufCap, hBufValid⟩ :=
    receiveLoop_frames front p _ hState hBytes hDone hRest.1 hSmall hFuel
  have hRoom : readSize ≤ buf.capacity - buf.size := by
    have := hRest.2
    simp only [FlatBuffer.size, hBuf, hBufCap, hCap, receiveBufCapacity, readSize] at this ⊢
    omega
  obtain ⟨buf', hPrep, hCap', hBytes', -, hValid'⟩ := FlatBuffer.prepare_ok (hBufValid hValid) hRoom
  refine ⟨front, rest, buf', rfl, ?_, by rw [hBytes', hBuf, hBytes], hValid',
    by rw [hCap', hBufCap, hCap], by rw [hBytes', hBuf]; exact hRest.1⟩
  simp [doReceive, hLoop, hState, hPrep]

------------------------------------------------------------
-- Runs
------------------------------------------------------------

variable (config)
variable (frames : List Message)

/-
  A state of a run over the stream of `frames` once the bytes
  `delivered` have arrived: the calls dispatched are the first
  `k` frames and the buffer holds the rest of what arrived; unless
  paused, the loop has taken every whole frame; and an open
  session reads whenever it is not paused.
-/
structure Tracks
    (delivered : List UInt8)
    (s : SessionImpl) : Prop where
  config_eq : s.config = config
  valid : s.receiveBuf.Valid
  capacity_eq : s.receiveBuf.capacity = receiveBufCapacity
  split : ∃ k, s.dispatched = frames.take k ∧
    delivered = frameBytes (frames.take k) ++ s.receiveBuf.bytes
  settled : s.receivingState ≠ .paused → Awaits config s.receiveBuf.bytes
  idle : s.closeReason = none → s.receivingState = .paused → s.reading = false

theorem tracks_init : Tracks config frames [] (init config) :=
  ⟨rfl, FlatBuffer.valid_empty _, rfl, ⟨0, rfl, rfl⟩, fun h => absurd rfl h, fun _ _ => rfl⟩

section Steps

variable {config frames}
variable (hSmall : config.smallBodySize ≤ 256)
variable (hWell : ∀ m ∈ frames, WellFormed config m)

include hSmall hWell in
/- `do_receive` while receiving keeps a run on track. -/
theorem tracks_doReceive
    {delivered : List UInt8}
    (hState : s.receivingState = .receiving)
    (hValid : s.receiveBuf.Valid)
    (hCap : s.receiveBuf.capacity = receiveBufCapacity)
    (hConfig : s.config = config)
    (hSplit : ∃ k, s.dispatched = frames.take k ∧
      delivered = frameBytes (frames.take k) ++ s.receiveBuf.bytes)
    (hPrefix : delivered <+: frameBytes frames) :
    ∃ s', doReceive s = .ok s' ∧ Tracks config frames delivered s' := by
  obtain ⟨k, hDispatched, hDelivered⟩ := hSplit
  have hRest : s.receiveBuf.bytes <+: frameBytes (frames.drop k) := by
    rw [← List.take_append_drop k frames, frameBytes_append, hDelivered] at hPrefix
    simpa using hPrefix
  obtain ⟨front, back, buf, hDrop, hRun, hBytes, hBufValid, hBufCap, hAwaits⟩ :=
    doReceive_receiving hState hValid hCap hRest
      (fun m hm => hConfig ▸ hWell m (List.mem_of_mem_drop hm)) (hConfig ▸ hSmall)
  have hTake : frames.take (k + front.length) = frames.take k ++ front := by
    rw [List.take_add, hDrop, List.take_left]
  refine ⟨_, hRun, ⟨hConfig, hBufValid, hBufCap, ⟨k + front.length, ?_, ?_⟩,
    fun _ => hConfig ▸ hAwaits, fun _ hPaused => by simp [hState] at hPaused⟩⟩
  · simp [hDispatched, hTake]
  · simp [hDelivered, hBytes, hTake]

include hSmall hWell in
/- One event keeps a run on track. -/
theorem Tracks.step
    {delivered : List UInt8}
    {e : Event}
    (hTracks : Tracks config frames delivered s)
    (hEnabled : s.enabled e = true)
    (hPrefix : delivered ++ e.delivered <+: frameBytes frames) :
    ∃ s', s.step e = .ok s' ∧ Tracks config frames (delivered ++ e.delivered) s' := by
  obtain ⟨hConfig, hValid, hCap, ⟨k, hDispatched, hDelivered⟩, hSettled, hIdle⟩ := hTracks
  cases e with
  | received data =>
      simp only [enabled, Bool.and_eq_true, Option.isNone_iff_eq_none, decide_eq_true_eq]
        at hEnabled
      obtain ⟨⟨⟨hReading, hOpen⟩, -⟩, hFits⟩ := hEnabled
      have hCommit := FlatBuffer.commit_bytes data hFits
      have hSplit : ∃ k, s.dispatched = frames.take k ∧ delivered ++ data =
          frameBytes (frames.take k) ++ (s.receiveBuf.commit data).bytes :=
        ⟨k, hDispatched, by simp [hDelivered, hCommit]⟩
      cases hState : s.receivingState with
      | receiving =>
          exact tracks_doReceive hSmall hWell (s := { s with
              reading := false, receiveBuf := s.receiveBuf.commit data })
            hState (FlatBuffer.commit_valid hValid data) hCap hConfig hSplit hPrefix
      | pendingPause =>
          refine ⟨_, doReceive_pendingPause hState, ⟨hConfig,
            FlatBuffer.commit_valid hValid data, hCap, hSplit, fun h => absurd rfl h,
            fun _ _ => rfl⟩⟩
      | paused => simp [hIdle hOpen hState] at hReading
  | failed message =>
      refine ⟨_, rfl, ⟨by simpa using hConfig, by simpa using hValid, by simpa using hCap,
        ⟨k, by simpa using hDispatched, by simpa using hDelivered⟩, ?_, fun _ _ => by simp⟩⟩
      unfold close
      split
      · simpa using hSettled
      · simp
  | pause =>
      refine ⟨_, rfl, ?_⟩
      unfold pauseReceiving
      split_ifs with hState
      · exact ⟨hConfig, hValid, hCap, ⟨k, hDispatched, by simpa using hDelivered⟩,
          fun _ => hSettled (by simp [hState]), fun _ h => by simp at h⟩
      · exact ⟨hConfig, hValid, hCap, ⟨k, hDispatched, by simpa using hDelivered⟩,
          hSettled, hIdle⟩
  | resume =>
      unfold SessionImpl.step doResumeReceiving
      split_ifs with hPaused
      · exact tracks_doReceive hSmall hWell (s := { s with receivingState := .receiving })
          rfl hValid hCap hConfig ⟨k, hDispatched, by simpa using hDelivered⟩
          (by simpa using hPrefix)
      · exact ⟨_, rfl, ⟨hConfig, hValid, hCap, ⟨k, hDispatched, by simpa using hDelivered⟩,
          fun _ => hSettled hPaused, fun _ h => by simp at h⟩⟩

@[simp]
theorem receivedBytes_nil : receivedBytes [] = [] :=
  rfl

@[simp]
theorem receivedBytes_cons (e : Event) (es : List Event) :
    receivedBytes (e :: es) = e.delivered ++ receivedBytes es :=
  rfl

include hSmall hWell in
/- A run of admissible events that deliver a prefix of the stream stays on track. -/
theorem Tracks.run
    {delivered : List UInt8}
    (es : List Event)
    (hTracks : Tracks config frames delivered s)
    (hAdmissible : admissible s es = true)
    (hPrefix : delivered ++ receivedBytes es <+: frameBytes frames) :
    ∃ s', s.run es = .ok s' ∧ Tracks config frames (delivered ++ receivedBytes es) s' := by
  induction es generalizing s delivered with
  | nil => exact ⟨s, rfl, by simpa using hTracks⟩
  | cons e es ih =>
      simp only [admissible, Bool.and_eq_true] at hAdmissible
      have hFirst : delivered ++ e.delivered <+: frameBytes frames :=
        List.IsPrefix.trans (by simp) hPrefix
      obtain ⟨s', hStep, hTracks'⟩ := hTracks.step hSmall hWell hAdmissible.1 hFirst
      rw [hStep] at hAdmissible
      obtain ⟨s'', hRun, hTracks''⟩ := ih hTracks' hAdmissible.2 (by simpa using hPrefix)
      exact ⟨s'', by simp [SessionImpl.run, hStep, hRun], by simpa using hTracks''⟩

include hWell in
/-
  Once the whole stream has arrived, a run on track that is not
  paused has dispatched every frame.
-/
theorem Tracks.dispatched_eq
    (hTracks : Tracks config frames (frameBytes frames) s)
    (hNotPaused : s.receivingState ≠ .paused) :
    s.dispatched = frames := by
  obtain ⟨k, hDispatched, hDelivered⟩ := hTracks.split
  have hRest : s.receiveBuf.bytes = frameBytes (frames.drop k) := by
    rw [← List.take_append_drop k frames, frameBytes_append, List.take_append_drop] at hDelivered
    exact (List.append_cancel_left hDelivered).symm
  have hAwaits := hTracks.settled hNotPaused
  rw [hRest] at hAwaits
  cases hDrop : frames.drop k with
  | nil =>
      rw [hDispatched, ← List.take_append_drop k frames, hDrop, List.append_nil,
        List.take_take, min_self]
  | cons m rest =>
      rw [hDrop, frameBytes_cons] at hAwaits
      exact absurd hAwaits
        (not_awaits_frame _ (hWell m (List.mem_of_mem_drop (hDrop ▸ List.mem_cons_self m rest))))

end Steps

/-
  However the stream of well-formed frames is split into reads,
  and however receiving is paused and resumed, no fault escapes,
  the dispatched calls are the first frames in order, and once the
  whole stream has arrived and receiving is not paused, they are
  all the frames, with their header fields and bodies.
-/
theorem dispatch_is_independent_of_chunking
    (hSmall : config.smallBodySize ≤ 256)
    (hWell : ∀ m ∈ frames, WellFormed config m)
    (events : List Event)
    (hAdmissible : admissible (init config) events = true)
    (hBytes : receivedBytes events = frameBytes frames) :
    ∃ s, run (init config) events = .ok s ∧ s.dispatched <+: frames ∧
      (s.receivingState ≠ .paused → s.dispatched = frames) := by
  obtain ⟨s, hRun, hTracks⟩ :=
    (tracks_init config frames).run hSmall hWell events hAdmissible (by simp [hBytes])
  obtain ⟨k, hDispatched, -⟩ := hTracks.split
  rw [List.nil_append, hBytes] at hTracks
  exact ⟨s, hRun, hDispatched ▸ List.take_prefix k frames, hTracks.dispatched_eq hWell⟩

/- An `enquire_link_req` and a `stream_req` carrying "hi". -/
def twoFrames : List Message :=
  [⟨CommandId.enquireLinkReq, CommandStatus.rok, 1, []⟩,
    ⟨CommandId.streamReq, CommandStatus.rok, 2, [104, 105, 0]⟩]

/-
  Their 23 bytes over three reads, each ending inside a header:
  six bytes, ten more after a `pause_receiving`, and the last
  seven after a `resume_receiving`.
-/
def chunkedReads : List Event :=
  [.resume, .received ((frameBytes twoFrames).take 6), .pause,
    .received (((frameBytes twoFrames).drop 6).take 10), .resume,
    .received ((frameBytes twoFrames).drop 16)]

theorem two_frames_dispatched_over_three_reads :
    SessionConfig.defaults.smallBodySize ≤ 256 ∧
      (∀ m ∈ twoFrames, WellFormed SessionConfig.defaults m) ∧
      admissible (init SessionConfig.defaults) chunkedReads = true ∧
      receivedBytes chunkedReads = frameBytes twoFrames ∧
      ∃ s, run (init SessionConfig.defaults) chunkedReads = .ok s ∧ s.dispatched <+: twoFrames ∧
        (s.receivingState ≠ .paused → s.dispatched = twoFrames) := by
  have hSmall : SessionConfig.defaults.smallBodySize ≤ 256 := by decide
  have hWell : ∀ m ∈ twoFrames, WellFormed SessionConfig.defaults m := by
    simp only [twoFrames, List.mem_cons, List.mem_singleton, List.not_mem_nil, or_false,
      forall_eq_or_imp, forall_eq]
    exact ⟨⟨by decide, by decide, by decide, rfl⟩, ⟨by decide, by decide, by decide, rfl⟩⟩
  have hAdmissible : admissible (init SessionConfig.defaults) chunkedReads = true := by
    decide
  have hBytes : receivedBytes chunkedReads = frameBytes twoFrames := by
    decide
  exact ⟨hSmall, hWell, hAdmissible, hBytes,
    dispatch_is_independent_of_chunking SessionConfig.defaults _ hSmall hWell _ hAdmissible hBytes⟩

/-
  An `unbind_req` closes the session, so the `enquire_link_req`
  after it in the same read is not dispatched; a later
  `resume_receiving` restarts the loop of the closed session and
  dispatches it.
-/
theorem unbind_request_cuts_dispatch :
    admissible (init SessionConfig.defaults)
        [.resume, .received ((⟨CommandId.unbindReq, CommandStatus.rok, 1, []⟩ : Message).frame ++
          (⟨CommandId.enquireLinkReq, CommandStatus.rok, 2, []⟩ : Message).frame), .resume] = true ∧
      (run (init SessionConfig.defaults)
          [.resume, .received ((⟨CommandId.unbindReq, CommandStatus.rok, 1, []⟩ : Message).frame ++
            (⟨CommandId.enquireLinkReq, CommandStatus.rok, 2, []⟩ : Message).frame)]).toOption.map
          (·.dispatched) =
        some [⟨CommandId.unbindReq, CommandStatus.rok, 1, []⟩] ∧
      (run (init SessionConfig.defaults)
          [.resume, .received ((⟨CommandId.unbindReq, CommandStatus.rok, 1, []⟩ : Message).frame ++
            (⟨CommandId.enquireLinkReq, CommandStatus.rok, 2, []⟩ : Message).frame),
            .resume]).toOption.map (·.dispatched) =
        some [⟨CommandId.unbindReq, CommandStatus.rok, 1, []⟩,
          ⟨CommandId.enquireLinkReq, CommandStatus.rok, 2, []⟩] := by
  decide

end SessionImpl

end Net

end Networking

end Vex
