import Mathlib.Data.Int.Order.Basic
import Mathlib.Order.Lattice

/-
  The round-robin cursor of the façade's peer tables
  (`p_client_list.hpp`, `p_server.hpp`): a `std::map` from peer
  ids to clients or sessions, and the `int last_index_` from which
  the round-robin `send_request(msg)` advances `begin()`.

  A `std::map` is the list of its pairs in key order.  The two
  classes share the map's operations, `on_session_close` and the
  round robin; `on_bind` differs: `p_client_list` assigns,
  `p_server` refuses an id it holds.  `std::advance` out of the
  map's range is undefined behaviour, the `none` of
  `sendRequest`.  The sends themselves, `p_client_list_` and the
  packet expirators of `p_server` are not modelled.

  Key definitions include:
    * `OrderedMap.assign`, `OrderedMap.erase`
    * `PeerTable`, `PeerTable.sendRequest`, `PeerTable.onSessionClose`
    * `PClientList.onBind`, `PServer.onBind`
    * `PeerTable.CursorInRange`, `PeerTable.run`

  Key theorems include:
    * `PeerTable.sendRequest_inRange`, `PeerTable.run_without_close`
    * `PeerTable.sendRequest_after_close_of_last`
    * `PClientList.cursorInRange_onBind`, `PServer.cursorInRange_onBind`
    * `round_robin_cursor_overruns`, `round_robin_defined_without_close`
-/

------------------------------------------------------------
-- Ordered Maps
------------------------------------------------------------

namespace Vex

namespace Networking

namespace OrderedMap

variable {K V : Type} [LinearOrder K]

/- `m[k] = v`: assign in place, or insert at the key's position. -/
def assign : List (K × V) → K → V → List (K × V)
  | [], k, v => [(k, v)]
  | (k', v') :: rest, k, v =>
      if k < k' then (k, v) :: (k', v') :: rest
      else if k = k' then (k, v) :: rest
      else (k', v') :: assign rest k v

/- `m.erase(k)`: whether an element went, and the map without it. -/
def erase
    (m : List (K × V))
    (k : K) : Bool × List (K × V) :=
  (m.any fun p => p.1 = k, m.filter fun p => p.1 ≠ k)

/- `m.contains(k)`. -/
def contains
    (m : List (K × V))
    (k : K) : Bool :=
  m.any fun p => p.1 = k

/- Assigning never shrinks the map. -/
theorem length_le_length_assign
    (m : List (K × V))
    (k : K)
    (v : V) :
    m.length ≤ (assign m k v).length := by
  induction m with
  | nil => exact Nat.zero_le _
  | cons p rest ih =>
      simp only [assign]
      split_ifs <;> simp [ih]

end OrderedMap

------------------------------------------------------------
-- The Round Robin
------------------------------------------------------------

/-
  The fields of `p_client_list` and `p_server` that the round
  robin reads: the bound peers and `last_index_`.
-/
structure PeerTable (K V : Type) where
  binded : List (K × V)
  lastIndex : Int

namespace PeerTable

variable {K V : Type} [LinearOrder K]

/- A table as constructed: no peer bound, the cursor at 0. -/
def init : PeerTable K V :=
  ⟨[], 0⟩

/-
  The round-robin `send_request(msg)`: the id of the peer
  `std::advance(begin, last_index_)` reaches (none when the map
  is empty), and the table after; `none` when the advance leaves
  the map.
-/
def sendRequest (t : PeerTable K V) : Option (Option K × PeerTable K V) :=
  if t.binded.isEmpty then some (none, t)
  else if t.lastIndex < 0 then none
  else t.binded[t.lastIndex.toNat]?.map fun p =>
    (some p.1, { t with lastIndex := (t.lastIndex + 1) % t.binded.length })

/- `on_session_close(id)`: erase the peer. -/
def onSessionClose
    (t : PeerTable K V)
    (id : K) : PeerTable K V :=
  { t with binded := (OrderedMap.erase t.binded id).2 }

/-
  `last_index_` is 0 or names a bound peer, so that it names one
  whenever there is one.
-/
def CursorInRange (t : PeerTable K V) : Prop :=
  0 ≤ t.lastIndex ∧ (t.lastIndex = 0 ∨ t.lastIndex < t.binded.length)

/-
  While the cursor is in range, the round robin reaches a bound
  peer, and leaves the peers as they were and the cursor in range.
-/
theorem sendRequest_inRange
    {t : PeerTable K V}
    (hIn : t.CursorInRange) :
    ∃ r t', t.sendRequest = some (r, t') ∧ t'.binded = t.binded ∧ t'.CursorInRange := by
  by_cases hEmpty : t.binded = []
  · exact ⟨none, t, by simp [sendRequest, hEmpty], rfl, hIn⟩
  have hPos : 0 < t.binded.length := List.length_pos.mpr hEmpty
  have hIdx : t.lastIndex.toNat < t.binded.length := by
    obtain ⟨_, h | h⟩ := hIn <;> omega
  refine ⟨some (t.binded[t.lastIndex.toNat]).1,
    { t with lastIndex := (t.lastIndex + 1) % t.binded.length }, ?_, rfl,
    Int.emod_nonneg _ (by omega), .inr (Int.emod_lt_of_pos _ (by omega))⟩
  simp [sendRequest, hEmpty, not_lt.mpr hIn.1, List.getElem?_eq_getElem hIdx]

omit [LinearOrder K] in
/- Past the end of a nonempty map, the round robin's advance leaves it. -/
theorem sendRequest_eq_none
    {t : PeerTable K V}
    (hNonempty : t.binded ≠ [])
    (hPast : (t.binded.length : Int) ≤ t.lastIndex) :
    t.sendRequest = none := by
  have hPos : 0 < t.binded.length := List.length_pos.mpr hNonempty
  have hIdx : t.binded.length ≤ t.lastIndex.toNat := by omega
  simp [sendRequest, hNonempty, not_lt.mpr (show (0 : Int) ≤ t.lastIndex by omega),
    List.getElem?_eq_none hIdx]

/- `on_session_close` leaves `last_index_` where it was. -/
@[simp]
theorem onSessionClose_lastIndex
    (t : PeerTable K V)
    (id : K) :
    (t.onSessionClose id).lastIndex = t.lastIndex :=
  rfl

/- The close of a bound peer shortens the map. -/
theorem length_onSessionClose_lt
    {t : PeerTable K V}
    {id : K}
    {peer : V}
    (hMem : (id, peer) ∈ t.binded) :
    (t.onSessionClose id).binded.length < t.binded.length :=
  List.length_filter_lt_length_iff_exists.mpr ⟨(id, peer), hMem, by simp⟩

/-
  A close after the round robin reached the last peer: the
  cursor, which `on_session_close` leaves alone, is past the
  peers left, so the next round-robin send advances out of the
  map while one is bound.
-/
theorem sendRequest_after_close_of_last
    {t : PeerTable K V}
    {id : K}
    {peer : V}
    (hLast : t.lastIndex + 1 = t.binded.length)
    (hMem : (id, peer) ∈ t.binded)
    (hLeft : (t.onSessionClose id).binded ≠ []) :
    (t.onSessionClose id).sendRequest = none := by
  have hShorter := length_onSessionClose_lt hMem
  exact sendRequest_eq_none hLeft (by rw [onSessionClose_lastIndex]; omega)

/- The events of a peer table: a peer binds or closes, or a round-robin send. -/
inductive Event (K V : Type) where
  | bind (id : K) (peer : V)
  | close (id : K)
  | send

/-
  One event, with the class's `on_bind`; `none` once a send has
  undefined behaviour.
-/
def step
    (onBind : PeerTable K V → K → V → PeerTable K V)
    (t : PeerTable K V) : Event K V → Option (PeerTable K V)
  | .bind id peer => some (onBind t id peer)
  | .close id => some (t.onSessionClose id)
  | .send => t.sendRequest.map Prod.snd

/- The events in order. -/
def run
    (onBind : PeerTable K V → K → V → PeerTable K V) :
    PeerTable K V → List (Event K V) → Option (PeerTable K V)
  | t, [] => some t
  | t, e :: es => (t.step onBind e).bind fun t' => run onBind t' es

/- A run of two event lists is the run of the first, then of the second. -/
theorem run_append
    (onBind : PeerTable K V → K → V → PeerTable K V)
    (t : PeerTable K V)
    (es es' : List (Event K V)) :
    run onBind t (es ++ es') = (run onBind t es).bind fun t' => run onBind t' es' := by
  induction es generalizing t with
  | nil => rfl
  | cons e es ih => simp [run, ih, Option.bind_assoc]

omit [LinearOrder K] in
theorem cursorInRange_init : (init : PeerTable K V).CursorInRange :=
  ⟨le_refl 0, .inl rfl⟩

/-
  A run with no close, from a table whose cursor is in range, for
  an `on_bind` that keeps it in range: every send is defined, and
  the cursor ends in range.
-/
theorem run_without_close
    {onBind : PeerTable K V → K → V → PeerTable K V}
    (hBind : ∀ t id peer, t.CursorInRange → (onBind t id peer).CursorInRange)
    {t : PeerTable K V}
    (hIn : t.CursorInRange)
    (es : List (Event K V))
    (hNoClose : ∀ id, Event.close id ∉ es) :
    ∃ t', run onBind t es = some t' ∧ t'.CursorInRange := by
  induction es generalizing t with
  | nil => exact ⟨t, rfl, hIn⟩
  | cons e es ih =>
      have hRest : ∀ id, Event.close id ∉ es :=
        fun id hMem => hNoClose id (List.mem_cons_of_mem _ hMem)
      cases e with
      | bind id peer => exact ih (hBind t id peer hIn) hRest
      | close id => exact absurd (List.mem_cons_self _ _) (hNoClose id)
      | send =>
          obtain ⟨r, t', hSend, -, hIn'⟩ := sendRequest_inRange hIn
          simpa [run, step, hSend] using ih hIn' hRest

end PeerTable

------------------------------------------------------------
-- The Two Classes
------------------------------------------------------------

namespace PClientList

variable {K V : Type} [LinearOrder K]

/- `p_client_list::on_bind(id, clnt)`: `binded_clients_[id] = clnt`. -/
def onBind
    (t : PeerTable K V)
    (id : K)
    (clnt : V) : PeerTable K V :=
  { t with binded := OrderedMap.assign t.binded id clnt }

/- The events of a `p_client_list`'s table. -/
def runTable : PeerTable K V → List (PeerTable.Event K V) → Option (PeerTable K V) :=
  PeerTable.run onBind

/- A bind keeps the cursor in range. -/
theorem cursorInRange_onBind
    {t : PeerTable K V}
    (hIn : t.CursorInRange)
    (id : K)
    (clnt : V) :
    (onBind t id clnt).CursorInRange := by
  have hGrow := OrderedMap.length_le_length_assign t.binded id clnt
  obtain ⟨h0, h | h⟩ := hIn
  · exact ⟨h0, .inl h⟩
  · exact ⟨h0, .inr (by simp only [onBind]; omega)⟩

end PClientList

namespace PServer

variable {K V : Type} [LinearOrder K]

/-
  `p_server::on_bind(bind_request, session)`: refuse an id already
  bound, else `binded_sessions_[client_id] = session`.
-/
def onBind
    (t : PeerTable K V)
    (systemId : K)
    (session : V) : Bool × PeerTable K V :=
  if OrderedMap.contains t.binded systemId then (false, t)
  else (true, { t with binded := OrderedMap.assign t.binded systemId session })

/- The events of a `p_server`'s table. -/
def runTable : PeerTable K V → List (PeerTable.Event K V) → Option (PeerTable K V) :=
  PeerTable.run fun t systemId session => (onBind t systemId session).2

/- A bind keeps the cursor in range, refused or not. -/
theorem cursorInRange_onBind
    {t : PeerTable K V}
    (hIn : t.CursorInRange)
    (systemId : K)
    (session : V) :
    (onBind t systemId session).2.CursorInRange := by
  unfold onBind
  split_ifs
  · exact hIn
  · exact PClientList.cursorInRange_onBind hIn systemId session

end PServer

------------------------------------------------------------
-- A Close After a Round Robin
------------------------------------------------------------

/-
  Two peers bind, a round-robin send moves the cursor to the
  second, and the second closes: one peer is left, and the cursor
  is past it, so the next round-robin send advances out of the
  map.  The same holds of `p_client_list` and of `p_server`.
-/
theorem round_robin_cursor_overruns
    {K V : Type}
    [LinearOrder K]
    {a b : K}
    (hab : a ≠ b)
    (p q : V) :
    (∃ t, PClientList.runTable PeerTable.init [.bind a p, .bind b q, .send, .close b] = some t ∧
        t.binded ≠ [] ∧ ¬ t.lastIndex < t.binded.length ∧ t.sendRequest = none) ∧
      ∃ t, PServer.runTable PeerTable.init [.bind a p, .bind b q, .send, .close b] = some t ∧
        t.binded ≠ [] ∧ ¬ t.lastIndex < t.binded.length ∧ t.sendRequest = none := by
  -- whichever id is smaller, both peers are bound and the send moves the cursor to the last
  have hCases : PClientList.runTable PeerTable.init [.bind a p, .bind b q, .send] =
        some ⟨OrderedMap.assign [(a, p)] b q, 1⟩ ∧
      PServer.runTable PeerTable.init [.bind a p, .bind b q, .send] =
        some ⟨OrderedMap.assign [(a, p)] b q, 1⟩ ∧
      (b, q) ∈ OrderedMap.assign [(a, p)] b q ∧ (OrderedMap.assign [(a, p)] b q).length = 2 ∧
      (PeerTable.onSessionClose ⟨OrderedMap.assign [(a, p)] b q, 1⟩ b : PeerTable K V).binded =
        [(a, p)] := by
    rcases lt_or_gt_of_ne hab with hOrd | hOrd <;>
      simp [PClientList.runTable, PServer.runTable, PeerTable.run, PeerTable.step,
        PClientList.onBind, PServer.onBind, OrderedMap.contains, OrderedMap.assign,
        PeerTable.sendRequest, PeerTable.init, PeerTable.onSessionClose, OrderedMap.erase,
        lt_asymm hOrd, hOrd, hab, hab.symm]
  obtain ⟨hClient, hServer, hMem, hLen, hLeft⟩ := hCases
  -- then `b` closes, and the cursor is past the one peer left
  have hOverrun := PeerTable.sendRequest_after_close_of_last (t := ⟨OrderedMap.assign [(a, p)] b q, 1⟩)
    (by rw [hLen]; rfl) hMem (by rw [hLeft]; simp)
  have hSplit : ([.bind a p, .bind b q, .send, .close b] : List (PeerTable.Event K V)) =
      [.bind a p, .bind b q, .send] ++ [.close b] := rfl
  refine ⟨⟨_, ?_, by rw [hLeft]; simp, by rw [hLeft]; simp, hOverrun⟩, _, ?_, by rw [hLeft]; simp,
    by rw [hLeft]; simp, hOverrun⟩
  · rw [PClientList.runTable, hSplit, PeerTable.run_append, ← PClientList.runTable, hClient]
    rfl
  · rw [PServer.runTable, hSplit, PeerTable.run_append, ← PServer.runTable, hServer]
    rfl

/- Peers 1 and 2. -/
theorem round_robin_cursor_overruns_two_peers :
    (1 : Int) ≠ 2 ∧
      (∃ t, PClientList.runTable PeerTable.init [.bind (1 : Int) (), .bind 2 (), .send, .close 2] = some t ∧
          t.binded ≠ [] ∧ ¬ t.lastIndex < t.binded.length ∧ t.sendRequest = none) ∧
        ∃ t, PServer.runTable PeerTable.init [.bind (1 : Int) (), .bind 2 (), .send, .close 2] = some t ∧
          t.binded ≠ [] ∧ ¬ t.lastIndex < t.binded.length ∧ t.sendRequest = none :=
  ⟨by decide, round_robin_cursor_overruns (by decide) () ()⟩

------------------------------------------------------------
-- Without a Close
------------------------------------------------------------

/-
  From a table just built, over every run of binds and
  round-robin sends with no close, for `p_client_list` and for
  `p_server`: no send advances out of the map, and the cursor
  stays in range.
-/
theorem round_robin_defined_without_close
    {K V : Type}
    [LinearOrder K]
    (es : List (PeerTable.Event K V))
    (hNoClose : ∀ id, PeerTable.Event.close id ∉ es) :
    (∃ t, PClientList.runTable PeerTable.init es = some t ∧ t.CursorInRange) ∧
      ∃ t, PServer.runTable PeerTable.init es = some t ∧ t.CursorInRange :=
  ⟨PeerTable.run_without_close (fun _ _ _ h => PClientList.cursorInRange_onBind h _ _)
      PeerTable.cursorInRange_init es hNoClose,
    PeerTable.run_without_close (fun _ _ _ h => PServer.cursorInRange_onBind h _ _)
      PeerTable.cursorInRange_init es hNoClose⟩

/- Peers 1 and 2 bound, then three round-robin sends. -/
theorem three_sends_to_two_peers :
    (∀ id, PeerTable.Event.close id ∉ [.bind (1 : Int) (), .bind 2 (), .send, .send, .send]) ∧
      (∃ t, PClientList.runTable PeerTable.init
          [.bind (1 : Int) (), .bind 2 (), .send, .send, .send] = some t ∧ t.CursorInRange) ∧
        ∃ t, PServer.runTable PeerTable.init
          [.bind (1 : Int) (), .bind 2 (), .send, .send, .send] = some t ∧ t.CursorInRange :=
  ⟨fun _ h => by simp at h, round_robin_defined_without_close _ fun _ h => by simp at h⟩

end Networking

end Vex
