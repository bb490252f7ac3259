import Vex.Networking.Net.Session

/-
  `session_builder` (`net/session_builder.hpp`) and the stack copy
  of `process_message` (`net/session_impl.inl`).

  The builder's setters write fields of its `session_config`, and
  `build` throws `std::invalid_argument` for a configuration that
  `session_config::is_valid` rejects.  `is_valid` bounds the
  buffer capacities, the watermarks and `max_command_length`, but
  not `small_body_size`, while the array `process_message` copies
  a small body into has 256 bytes.  The handlers a builder installs
  are not modelled.

  Main declarations:
    * `SessionBuilder`, `SessionBuilder.build`
    * `processMessage_stack`
    * `stack_copy_overruns_past_256`
-/

------------------------------------------------------------
-- The Builder
------------------------------------------------------------

namespace Vex

namespace Networking

namespace Net

/- The `session_config` a `session_builder` holds. -/
structure SessionBuilder where
  config : SessionConfig
  deriving DecidableEq, Repr

namespace SessionBuilder

/- A new builder, with the default configuration. -/
def init : SessionBuilder :=
  ⟨SessionConfig.defaults⟩

/- `with_small_body_size(size)`. -/
def withSmallBodySize
    (b : SessionBuilder)
    (size : Nat) : SessionBuilder :=
  ⟨{ b.config with smallBodySize := size }⟩

/- `with_max_message_size(size)`. -/
def withMaxMessageSize
    (b : SessionBuilder)
    (size : Nat) : SessionBuilder :=
  ⟨{ b.config with maxCommandLength := size }⟩

/- `with_backpressure(low, high)`. -/
def withBackpressure
    (b : SessionBuilder)
    (low high : Nat) : SessionBuilder :=
  ⟨{ b.config with backpressureLowWatermark := low, backpressureHighWatermark := high }⟩

/- `build`: the configuration the session is made with, if `is_valid` accepts it. -/
def build (b : SessionBuilder) : Except String SessionConfig :=
  if b.config.isValid then .ok b.config else .error "Invalid session configuration"

/- A built configuration is valid. -/
theorem isValid_of_build
    {b : SessionBuilder}
    {config : SessionConfig}
    (hBuild : b.build = .ok config) :
    config.isValid = true := by
  unfold build at hBuild
  split_ifs at hBuild with hValid
  cases hBuild
  exact hValid

end SessionBuilder

------------------------------------------------------------
-- The Stack Copy
------------------------------------------------------------

namespace SessionImpl

/-
  `process_message` copies into its 256-byte array exactly on the
  stack path, for a body of one to `small_body_size` bytes, and it
  overruns the array when the body has more than 256.
-/
theorem processMessage_stack
    (s : SessionImpl)
    (h : Header) :
    s.processMessage h = .error .stackOverflow ↔
      256 < h.commandLength - headerLength ∧
        h.commandLength - headerLength ≤ s.config.smallBodySize := by
  unfold processMessage
  dsimp only
  split_ifs with hStack hOver <;> simp <;> omega

end SessionImpl

/-
  Every configuration a builder builds passes `is_valid`, and no
  `process_message` call of a session made with it copies past the
  stack array exactly when `small_body_size` is at most 256.
-/
theorem stack_copy_overruns_past_256
    {b : SessionBuilder}
    {config : SessionConfig}
    (hBuild : b.build = .ok config) :
    config.isValid = true ∧
      ((∀ (s : SessionImpl) (h : Header), s.config = config →
          s.processMessage h ≠ .error .stackOverflow) ↔
        config.smallBodySize ≤ 256) := by
  refine ⟨SessionBuilder.isValid_of_build hBuild, ⟨fun hSafe => ?_, fun hSmall s h hConfig hOver => ?_⟩⟩
  · by_contra hBig
    apply hSafe (SessionImpl.init config) ⟨headerLength + 257, 0, 0, 0⟩ rfl
    rw [SessionImpl.processMessage_stack]
    simp only [SessionImpl.init, Nat.add_sub_cancel_left]
    omega
  · rw [SessionImpl.processMessage_stack, hConfig] at hOver
    omega

/- The default builder with `with_small_body_size(300)`. -/
def smallBody300 : SessionConfig :=
  { SessionConfig.defaults with smallBodySize := 300 }

/- A frame with a body of 257 bytes. -/
def body257Frame : Message :=
  ⟨CommandId.streamReq, CommandStatus.rok, 1, List.replicate 257 0⟩

/-
  `with_small_body_size(300)` builds; a started session made with
  it overruns the stack array on the first frame with a 257-byte
  body it reads.
-/
theorem stack_copy_overruns_at_300 :
    (SessionBuilder.init.withSmallBodySize 300).build = .ok smallBody300 ∧
      (smallBody300.isValid = true ∧
        ((∀ (s : SessionImpl) (h : Header), s.config = smallBody300 →
            s.processMessage h ≠ .error .stackOverflow) ↔
          smallBody300.smallBodySize ≤ 256)) ∧
      ¬ smallBody300.smallBodySize ≤ 256 ∧
      SessionImpl.run (SessionImpl.init smallBody300) [.resume, .received body257Frame.frame] =
        .error .stackOverflow :=
  ⟨rfl, stack_copy_overruns_past_256 (b := SessionBuilder.init.withSmallBodySize 300) rfl,
    by decide, by set_option maxRecDepth 4000 in rfl⟩

end Net

end Networking

end Vex
