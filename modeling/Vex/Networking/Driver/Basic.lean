import Vex.Networking.Net.Machine.Lifecycle

/-
  A session as the drivers of `net/client.hpp`, `net/server.hpp`
  and `p_client.hpp` see it: its lifecycle, and which of the
  driver's close and protocol handlers it holds.  A driver only
  builds sessions, sets their handlers, and calls `close` and
  `unbind`; the session calls back the protocol handler and, from
  `do_close`, the close handler.

  A driver's kinds of handler are parameters.  `do_close` resets
  every handler and calls the close handler it held, so a close
  here returns the call it makes, and the driver runs it.
  `Session.Views` ties this view to the whole session of
  `Net.Machine`: a close, and an unbind, of the one is a close, and
  an unbind, of the other.

  Key definitions include:
    * `Session`, `Session.built`, `Session.absent`
    * `Session.doClose`, `Session.close`, `Session.unbind`
    * `Session.Views`

  Key theorems include:
    * `Session.doClose_refines`, `Session.close_refines`, `Session.unbind_refines`
-/

namespace Vex

namespace Networking

namespace Driver

open Net (SessionState BasicSessionImpl Notice Callback)

------------------------------------------------------------
-- Sessions
------------------------------------------------------------

/-
  A `basic_session_impl` as a driver sees it: `state_`,
  `close_initiated_`, the driver's close handler and protocol
  handler it holds, whether an `async_receive` is outstanding, and
  whether an `async_write` may be in flight.
-/
structure Session (H P : Type) where
  state : SessionState
  closeInitiated : Bool
  closeHandler : Option H
  protocolHandler : Option P
  reading : Bool
  writing : Bool
  deriving DecidableEq, Repr

namespace Session

variable {H P : Type}

/- `session_builder().with_protocol_handler(p).with_close_handler(h).build(...)`: not started. -/
def built (h : H) (p : P) : Session H P :=
  ⟨.openState, false, some h, some p, false, false⟩

/- What a driver holds under an id it has not given out: no session, which nothing reaches. -/
def absent : Session H P :=
  ⟨.closedState, true, none, none, false, false⟩

/- `start()`: `do_start` resumes receiving, and `do_receive` issues an `async_receive`. -/
def start (s : Session H P) : Session H P :=
  { s with reading := true }

/- A frame passed to `async_write` (`send_request`, `send_response`, `send_command`). -/
def send (s : Session H P) : Session H P :=
  { s with writing := true }

/-
  `do_close(reason)`: nothing once closed; else `Closed`, every
  handler reset, and the call of the close handler it held, with
  the reason only in `Open`.
-/
def doClose
    (s : Session H P)
    (reason : String) : Session H P × Option (H × Option String) :=
  if s.state = .closedState then (s, none)
  else
    let err := if s.state = .openState then some reason else none
    ({ s with state := .closedState, closeHandler := none, protocolHandler := none },
      s.closeHandler.map fun h => (h, err))

/- `close(reason)`: the first call wins `close_initiated_` and runs `do_close`. -/
def close
    (s : Session H P)
    (reason : String) : Session H P × Option (H × Option String) :=
  if s.closeInitiated then (s, none) else { s with closeInitiated := true }.doClose reason

/- `unbind()`: `do_unbind` moves a session that may unbind to `Unbinding`. -/
def unbind (s : Session H P) : Session H P :=
  if s.state.canUnbind then { s with state := .unbindingState } else s

variable {s : Session H P}

theorem doClose_of_closed
    (hClosed : s.state = .closedState)
    (reason : String) :
    s.doClose reason = (s, none) :=
  if_pos hClosed

theorem doClose_of_not_closed
    (hOpen : s.state ≠ .closedState)
    (reason : String) :
    s.doClose reason =
      ({ s with state := .closedState, closeHandler := none, protocolHandler := none },
        s.closeHandler.map fun h => (h, if s.state = .openState then some reason else none)) :=
  if_neg hOpen

@[simp]
theorem doClose_state (s : Session H P) (reason : String) :
    (s.doClose reason).1.state = .closedState := by
  by_cases hClosed : s.state = .closedState
  · rw [doClose_of_closed hClosed]
    exact hClosed
  · rw [doClose_of_not_closed hClosed]

/- A closed session stays closed and calls nothing, whoever closes it. -/
theorem close_of_closed
    (hClosed : s.state = .closedState)
    (reason : String) :
    s.close reason = ({ s with closeInitiated := true }, none) := by
  unfold close
  split_ifs with hInit
  · rw [← hInit]
  · exact doClose_of_closed (s := { s with closeInitiated := true }) hClosed reason

@[simp]
theorem close_state (s : Session H P) (reason : String) :
    (s.close reason).1.state = if s.closeInitiated then s.state else .closedState := by
  unfold close
  split_ifs <;> simp

theorem unbind_of_closed (hClosed : s.state = .closedState) : s.unbind = s := by
  simp [unbind, hClosed, SessionState.canUnbind]

@[simp]
theorem unbind_closeHandler (s : Session H P) : s.unbind.closeHandler = s.closeHandler := by
  unfold unbind
  split_ifs <;> rfl

@[simp]
theorem unbind_protocolHandler (s : Session H P) :
    s.unbind.protocolHandler = s.protocolHandler := by
  unfold unbind
  split_ifs <;> rfl

/- `unbind` never closes. -/
theorem unbind_state_eq_closed : s.unbind.state = .closedState ↔ s.state = .closedState := by
  unfold unbind
  split_ifs with hCan
  · cases hS : s.state <;> simp_all [SessionState.canUnbind]
  · rfl

------------------------------------------------------------
-- The Whole Session
------------------------------------------------------------

/-
  The driver's view of a whole session: the same lifecycle, and a
  handler of each kind exactly where the session has one set.
-/
def Views
    (t : Session H P)
    (s : BasicSessionImpl) : Prop :=
  t.state = s.state ∧ t.closeInitiated = s.closeInitiated ∧
    t.closeHandler.isSome = s.handlers.close ∧ t.protocolHandler.isSome = s.handlers.protocol

/- The notice a close handler call of the driver's view shows in the whole session. -/
def closeNotices (call : Option (H × Option String)) : List Notice :=
  (call.map fun c => Notice.invoked (.closeHandler c.2)).toList

variable {t : Session H P} {m : BasicSessionImpl}

/-
  `do_close` on the view and on the whole session: the views
  agree after, and the whole session shows exactly the call of
  the close handler that the view makes.
-/
theorem doClose_refines
    (hV : t.Views m)
    (reason : String) :
    (t.doClose reason).1.Views (m.doClose reason) ∧
      (m.doClose reason).notices = m.notices ++ closeNotices (t.doClose reason).2 := by
  obtain ⟨hState, hInit, hClose, hProto⟩ := hV
  by_cases hClosed : t.state = .closedState
  · have hM : m.doClose reason = m := if_pos (hState ▸ hClosed)
    rw [doClose_of_closed hClosed, hM]
    exact ⟨⟨hState, hInit, hClose, hProto⟩, by simp [closeNotices]⟩
  · obtain ⟨hMState, hMHandlers, hMInit, -, hMNotices⟩ :=
      BasicSessionImpl.doClose_closes m reason (hState ▸ hClosed)
    rw [doClose_of_not_closed hClosed]
    refine ⟨⟨hMState.symm, hMInit ▸ hInit, by rw [hMHandlers]; rfl, by rw [hMHandlers]; rfl⟩, ?_⟩
    rw [hMNotices, ← hClose, hState]
    cases t.closeHandler <;> rfl

/- `close` on the view and on the whole session, as `doClose_refines`. -/
theorem close_refines
    (hV : t.Views m)
    (reason : String) :
    (t.close reason).1.Views (m.close reason) ∧
      (m.close reason).notices = m.notices ++ closeNotices (t.close reason).2 := by
  have hInit : t.closeInitiated = m.closeInitiated := hV.2.1
  unfold close BasicSessionImpl.close
  rw [← hInit]
  split_ifs
  · exact ⟨hV, by simp [closeNotices]⟩
  · exact doClose_refines (t := { t with closeInitiated := true })
      (m := { m with closeInitiated := true }) ⟨hV.1, rfl, hV.2.2.1, hV.2.2.2⟩ reason

/- `send_command` keeps the lifecycle and the handlers. -/
theorem sendCommand_lifecycle (m : BasicSessionImpl) :
    m.sendCommand.state = m.state ∧ m.sendCommand.closeInitiated = m.closeInitiated ∧
      m.sendCommand.handlers = m.handlers := by
  unfold BasicSessionImpl.sendCommand BasicSessionImpl.doSend
  dsimp only
  split_ifs
  · exact ⟨rfl, rfl, rfl⟩
  · unfold BasicSessionImpl.doResumeReceiving
    dsimp only
    split_ifs <;> exact ⟨rfl, rfl, rfl⟩
  · exact ⟨rfl, rfl, rfl⟩

/- `unbind` on the view is `do_unbind` on the whole session. -/
theorem unbind_refines (hV : t.Views m) : t.unbind.Views m.doUnbind := by
  obtain ⟨hState, hInit, hClose, hProto⟩ := hV
  unfold unbind BasicSessionImpl.doUnbind
  rw [hState]
  by_cases hCan : m.state.canUnbind = true
  · rw [if_pos hCan, if_neg (by simp [hCan])]
    obtain ⟨h1, h2, h3⟩ := sendCommand_lifecycle
      { m with state := .unbindingState, stack := .armUnbindTimer :: m.stack }
    exact ⟨h1.symm, hInit.trans h2.symm, hClose.trans (congrArg _ h3.symm),
      hProto.trans (congrArg _ h3.symm)⟩
  · rw [if_neg hCan, if_pos (by simpa using hCan)]
    exact ⟨hState, hInit, hClose, hProto⟩

end Session

end Driver

end Networking

end Vex
