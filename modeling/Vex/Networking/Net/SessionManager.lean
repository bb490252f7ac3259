import Vex.Expirator.Store

/-
  Registration in `session_manager` (`net/session_manager.hpp`)
  raced against the close of the session being registered
  (`close` and `do_close`, `net/session_impl.hpp`).

  `add_session` takes an id from `next_id_`, gives the session a
  close handler that calls `remove_session(id)` (the socket
  overload through the builder, the other through
  `set_close_handler`), and inserts `sessions_[id] = session`.
  The close of the session runs on its executor at any point
  between these steps: `close` wins `close_initiated_`, and the
  `do_close` it dispatches marks the session closed, takes the
  close handler, clears it, and calls it.  A schedule is the
  position of the close among the steps of `add_session`.

  Key definitions include:
    * `Registration`, `RegistrationStep`, `doClose`
    * `addSessionSocket`, `addSessionPrebuilt`, `interleave`

  Key theorems include:
    * `close_before_insert_leaves_session`
-/

------------------------------------------------------------
-- State
------------------------------------------------------------

namespace Vex

namespace Networking

namespace Net

open Vex.Expirator (HashMap)

/-
  The manager's `sessions_` and `next_id_`, and the fields of the
  session being registered that its close reads: whether `close`
  has run, whether `do_close` has, and the id whose
  `remove_session` its close handler calls.
-/
structure Registration (S : Type) where
  sessions : HashMap Nat S
  nextId : Nat
  closeInitiated : Bool
  closed : Bool
  closeHandler : Option Nat

/- The steps of the two `add_session` overloads, and the close. -/
inductive RegistrationStep (S : Type) where
  | takeId
  | build (id : Nat)
  | setCloseHandler (id : Nat)
  | insert (id : Nat) (session : S)
  | close

namespace Registration

variable {S : Type}

/-
  `do_close`: nothing once closed; else mark the session closed,
  take and clear the close handler, and call it.
-/
def doClose (w : Registration S) : Registration S :=
  if w.closed then w
  else
    let w1 := { w with closed := true, closeHandler := none }
    match w.closeHandler with
    | some id => { w1 with sessions := w1.sessions.erase id }
    | none => w1

/- One step. -/
def apply (w : Registration S) : RegistrationStep S → Registration S
  | .takeId => { w with nextId := w.nextId + 1 }
  | .build id => { w with closeHandler := some id }
  | .setCloseHandler id => { w with closeHandler := some id }
  | .insert id session => { w with sessions := w.sessions.insert id session }
  | .close => if w.closeInitiated then w else doClose { w with closeInitiated := true }

/- The steps in order. -/
def run (w : Registration S) (steps : List (RegistrationStep S)) : Registration S :=
  steps.foldl apply w

end Registration

/-
  `add_session(socket, configure)`: the id, the session built with
  the handler of that id, then the insertion.  The new session
  can close only once it is built, after the first two steps.
-/
def addSessionSocket
    {S : Type}
    (id : Nat)
    (session : S) : List (RegistrationStep S) :=
  [.takeId, .build id, .insert id session]

/- `add_session(session)`: the id, the handler, then the insertion. -/
def addSessionPrebuilt
    {S : Type}
    (id : Nat)
    (session : S) : List (RegistrationStep S) :=
  [.takeId, .setCloseHandler id, .insert id session]

/- The close placed after the first `p` steps. -/
def interleave
    {S : Type}
    (steps : List (RegistrationStep S))
    (p : Nat) : List (RegistrationStep S) :=
  steps.take p ++ .close :: steps.drop p

------------------------------------------------------------
-- Close Against Registration
------------------------------------------------------------

/-
  A session closed while `add_session` registers it: once both
  are done the session is closed, but its id stays in `sessions_`
  exactly when the close came before the insertion.  The socket
  overload's close comes after the session is built (`p + 2`),
  the other's at any point.
-/
theorem close_before_insert_leaves_session
    {S : Type}
    (w : Registration S)
    (session : S)
    (hInit : w.closeInitiated = false)
    (hOpen : w.closed = false) :
    (∀ p, (w.run (interleave (addSessionSocket w.nextId session) (p + 2))).closed = true ∧
        (w.nextId ∈ (w.run (interleave (addSessionSocket w.nextId session) (p + 2))).sessions ↔
          p = 0)) ∧
      ∀ p, (w.run (interleave (addSessionPrebuilt w.nextId session) p)).closed = true ∧
        (w.nextId ∈ (w.run (interleave (addSessionPrebuilt w.nextId session) p)).sessions ↔
          p < 3) := by
  -- the last step on the id decides: the insertion, or the close's `remove_session`
  refine ⟨fun p => ?_, fun p => ?_⟩
  · rcases p with _ | p <;>
      simp [interleave, addSessionSocket, Registration.run, Registration.apply,
        Registration.doClose, hInit, hOpen]
  · rcases p with _ | _ | _ | p <;> cases hHandler : w.closeHandler <;>
      simp [interleave, addSessionPrebuilt, Registration.run, Registration.apply,
        Registration.doClose, hInit, hOpen, hHandler]

/- A first registration, in a manager with no session, of a session not yet closing. -/
theorem close_before_insert_leaves_session_first :
    (⟨∅, 1, false, false, none⟩ : Registration Unit).closeInitiated = false ∧
      (⟨∅, 1, false, false, none⟩ : Registration Unit).closed = false ∧
      (∀ p, ((⟨∅, 1, false, false, none⟩ : Registration Unit).run
            (interleave (addSessionSocket 1 ()) (p + 2))).closed = true ∧
          (1 ∈ ((⟨∅, 1, false, false, none⟩ : Registration Unit).run
            (interleave (addSessionSocket 1 ()) (p + 2))).sessions ↔ p = 0)) ∧
        ∀ p, ((⟨∅, 1, false, false, none⟩ : Registration Unit).run
            (interleave (addSessionPrebuilt 1 ()) p)).closed = true ∧
          (1 ∈ ((⟨∅, 1, false, false, none⟩ : Registration Unit).run
            (interleave (addSessionPrebuilt 1 ()) p)).sessions ↔ p < 3) :=
  ⟨rfl, rfl, close_before_insert_leaves_session ⟨∅, 1, false, false, none⟩ () rfl rfl⟩

end Net

end Networking

end Vex
