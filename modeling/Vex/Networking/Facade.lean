import Vex.Networking.Io.Timer

/-
  The request path of the protocol façade (`p_client.hpp`,
  `p_server.hpp`): a request sent with sequence number `s` is
  registered in an `io::expirator` under `s` with the request
  body; a `stream_resp` removes the entry and calls the response
  handler; an expired entry, and every entry at session close,
  calls the timeout handler with the stored body.

  `Promise` says what the path is for, over the abstract store of
  outstanding requests.  Both façades keep it: `p_client` for its
  one session, `p_server` for each client id.  The response
  handler runs on every `stream_resp`, whether or not its request
  is still outstanding.

  Key definitions include:
    * `HandlerCall`, `Event`, `Promise.Step`, `Promise.Run`,
      `Promise.TimeoutsOnce`
    * `PClient`, `PClient.step`, `PClient.run`
    * `PServer`, `PServer.step`, `PServer.run`

  Main theorems include:
    * `Promise.Step.timeout_once`, `Promise.Run.timeouts_le`,
      `Promise.Run.timeoutsOnce`
    * `late_response_after_timeout`
    * `facade_keeps_promise`, `facades_time_out_each_request_once`
-/

------------------------------------------------------------
-- Events and the Promise
------------------------------------------------------------

namespace Vex

namespace Networking

open Vex.Expirator (Store Entry HashMap)

/- A call of a user handler, with the peer it concerns. -/
inductive HandlerCall (P V : Type) where
  | response (peer : P) (seqNo : Nat) (body : V)
  | timeout (peer : P) (seqNo : Nat) (body : V)
  deriving DecidableEq, Repr

/- What reaches the request path of one session. -/
inductive Event (V : Type) where
  | bind
  | sendRequest (seqNo : Nat) (body : V)
  | streamResp (seqNo : Nat) (body : V)
  | timer
  | close

/- Whether a call is a timeout call for `seqNo`. -/
def HandlerCall.isTimeoutFor
    {P V : Type}
    (seqNo : Nat) : HandlerCall P V → Bool
  | .timeout _ s _ => s == seqNo
  | .response .. => false

/- Whether an event is a `send_request` under `seqNo`. -/
def Event.isSendFor
    {V : Type}
    (seqNo : Nat) : Event V → Bool
  | .sendRequest s _ => s == seqNo
  | _ => false

/- The timeout calls for the entries a pass hands over. -/
def timeoutCalls
    {P V : Type}
    (peer : P)
    (fired : List (Nat × V)) : List (HandlerCall P V) :=
  fired.map fun x => .timeout peer x.1 x.2

namespace Promise

variable {P V : Type}

/-
  One event on the promised state: whether a session is bound,
  and the store of outstanding requests, each due `timeoutSec`
  after it was sent.
-/
inductive Step (peer : P) (timeoutSec : Int) :
    Bool × Store Nat V → Int → Event V → List (HandlerCall P V) →
      Bool × Store Nat V → Prop where
  | bind (b : Bool) (M : Store Nat V) (now : Int) :
      Step peer timeoutSec (b, M) now .bind [] (true, M)
  | sendRequest (b : Bool) (M : Store Nat V) (now : Int) (seqNo : Nat) (body : V) :
      Step peer timeoutSec (b, M) now (.sendRequest seqNo body) []
        (b, if b then (M.add seqNo (now + timeoutSec) body).2 else M)
  | streamResp (b : Bool) (M : Store Nat V) (now : Int) (seqNo : Nat) (body : V) :
      Step peer timeoutSec (b, M) now (.streamResp seqNo body)
        [.response peer seqNo body] (b, (M.remove seqNo).2)
  | timer (b : Bool) (M : Store Nat V) (now : Int)
      (fired : List (Σ _ : Nat, Entry V))
      (hHands : M.Hands (fun e => e.deadline ≤ now) fired)
      (hSorted : fired.Sorted (fun a b => a.2.deadline ≤ b.2.deadline)) :
      Step peer timeoutSec (b, M) now .timer
        (timeoutCalls peer (Store.calls fired)) (b, M.retain now)
  | close (b : Bool) (M : Store Nat V) (now : Int)
      (fired : List (Σ _ : Nat, Entry V))
      (hHands : M.Hands (fun _ => True) fired) :
      Step peer timeoutSec (b, M) now .close
        (timeoutCalls peer (Store.calls fired)) (false, ∅)

/- A sequence of timed events and the calls each makes. -/
inductive Run (peer : P) (timeoutSec : Int) :
    Bool × Store Nat V → List (Int × Event V) → List (List (HandlerCall P V)) →
      Bool × Store Nat V → Prop where
  | nil (σ : Bool × Store Nat V) : Run peer timeoutSec σ [] [] σ
  | cons {σ σ' σ'' : Bool × Store Nat V} {now : Int} {ev : Event V}
      {calls : List (HandlerCall P V)} {evs : List (Int × Event V)}
      {callss : List (List (HandlerCall P V))} :
      Step peer timeoutSec σ now ev calls σ' →
        Run peer timeoutSec σ' evs callss σ'' →
          Run peer timeoutSec σ ((now, ev) :: evs) (calls :: callss) σ''

/- The timeout calls of a pass for `seqNo` are its entries under `seqNo`. -/
theorem filter_timeoutCalls
    (peer : P)
    (fired : List (Σ _ : Nat, Entry V))
    (seqNo : Nat) :
    ((timeoutCalls peer (Store.calls fired)).filter (·.isTimeoutFor seqNo)).length =
      (fired.map Sigma.fst).count seqNo := by
  induction fired with
  | nil => rfl
  | cons x fired ih =>
      by_cases hX : x.1 = seqNo
      · simp_all [timeoutCalls, Store.calls, HandlerCall.isTimeoutFor, List.count_cons]
      · simp_all [timeoutCalls, Store.calls, HandlerCall.isTimeoutFor, List.count_cons]

theorem mem_timeoutCalls
    {peer : P}
    {fired : List (Σ _ : Nat, Entry V)}
    {seqNo : Nat}
    {body : V}
    (hMem : HandlerCall.timeout peer seqNo body ∈ timeoutCalls peer (Store.calls fired)) :
    ∃ e, ⟨seqNo, e⟩ ∈ fired ∧ e.payload = body := by
  simp only [timeoutCalls, Store.calls, List.map_map, List.mem_map,
    Function.comp_apply, HandlerCall.timeout.injEq] at hMem
  obtain ⟨⟨k, e⟩, hX, -, rfl, rfl⟩ := hMem
  exact ⟨e, hX, rfl⟩

/-
  An event calls the timeout handler for `seqNo` at most once,
  only for a request outstanding before it, with that request's
  body, and the request is gone after it.
-/
theorem Step.timeout_once
    {peer : P}
    {timeoutSec : Int}
    {σ σ' : Bool × Store Nat V}
    {now : Int}
    {ev : Event V}
    {calls : List (HandlerCall P V)}
    (hStep : Step peer timeoutSec σ now ev calls σ')
    (seqNo : Nat) :
    (calls.filter (·.isTimeoutFor seqNo)).length ≤ 1 ∧
      ∀ body, .timeout peer seqNo body ∈ calls →
        (∃ e, σ.2.find seqNo = some e ∧ e.payload = body) ∧
          σ'.2.find seqNo = none := by
  cases hStep with
  | bind => exact ⟨by simp, by simp⟩
  | sendRequest => exact ⟨by simp, by simp⟩
  | streamResp => exact ⟨by simp [HandlerCall.isTimeoutFor], by simp⟩
  | timer b M now fired hHands hSorted =>
      refine ⟨?_, fun body hMem => ?_⟩
      · rw [filter_timeoutCalls]
        exact List.nodup_iff_count_le_one.mp hHands.nodup seqNo
      · obtain ⟨e, hX, rfl⟩ := mem_timeoutCalls hMem
        obtain ⟨hE, hDue⟩ := (hHands.mem_iff seqNo e).mp hX
        refine ⟨⟨e, hE, rfl⟩, ?_⟩
        simp [Store.find_retain, hE, hDue]
  | close b M now fired hHands =>
      refine ⟨?_, fun body hMem => ?_⟩
      · rw [filter_timeoutCalls]
        exact List.nodup_iff_count_le_one.mp hHands.nodup seqNo
      · obtain ⟨e, hX, rfl⟩ := mem_timeoutCalls hMem
        exact ⟨⟨e, ((hHands.mem_iff seqNo e).mp hX).1, rfl⟩, by simp⟩

/- A call that is a timeout call for `seqNo` in an event is the timeout call for the event's peer. -/
theorem Step.timeout_call_eq
    {peer : P}
    {timeoutSec : Int}
    {σ σ' : Bool × Store Nat V}
    {now : Int}
    {ev : Event V}
    {calls : List (HandlerCall P V)}
    (hStep : Step peer timeoutSec σ now ev calls σ')
    {seqNo : Nat}
    {c : HandlerCall P V}
    (hC : c ∈ calls)
    (hFor : c.isTimeoutFor seqNo = true) :
    ∃ body, c = .timeout peer seqNo body := by
  cases hStep with
  | bind | sendRequest => simp at hC
  | streamResp => simp only [List.mem_singleton] at hC; subst hC; simp [HandlerCall.isTimeoutFor] at hFor
  | timer | close =>
      simp only [timeoutCalls, List.mem_map] at hC
      obtain ⟨x, -, rfl⟩ := hC
      simp only [HandlerCall.isTimeoutFor, beq_iff_eq] at hFor
      exact ⟨x.2, by rw [hFor]⟩

/- 1 while `seqNo` is outstanding, 0 otherwise. -/
def outstanding (σ : Bool × Store Nat V) (seqNo : Nat) : Nat :=
  if (σ.2.find seqNo).isSome then 1 else 0

/- A state where `seqNo` is outstanding only if it was in another. -/
theorem outstanding_le_of_find
    {σ σ' : Bool × Store Nat V}
    {seqNo : Nat}
    (h : (σ'.2.find seqNo).isSome → (σ.2.find seqNo).isSome) :
    outstanding σ' seqNo ≤ outstanding σ seqNo := by
  unfold outstanding
  split_ifs <;> simp_all

/-
  An event leaves `seqNo` outstanding only where it was, or where
  it sends a request under it.
-/
theorem Step.outstanding_le
    {peer : P}
    {timeoutSec : Int}
    {σ σ' : Bool × Store Nat V}
    {now : Int}
    {ev : Event V}
    {calls : List (HandlerCall P V)}
    (hStep : Step peer timeoutSec σ now ev calls σ')
    (seqNo : Nat) :
    outstanding σ' seqNo ≤ outstanding σ seqNo + if ev.isSendFor seqNo then 1 else 0 := by
  cases hStep with
  | bind => simp [outstanding]
  | sendRequest b M now s body =>
      by_cases hS : s = seqNo
      · simp only [Event.isSendFor, hS, beq_self_eq_true, if_true, outstanding]
        split_ifs <;> omega
      · have hFind : (if b then (M.add s (now + timeoutSec) body).2 else M).find seqNo = M.find seqNo := by
          split_ifs
          · unfold Store.add
            split_ifs
            · rfl
            · exact HashMap.find_insert_ne _ _ (Ne.symm hS)
          · rfl
        simp [outstanding, Event.isSendFor, hS, hFind]
  | streamResp b M now s body =>
      refine (outstanding_le_of_find fun hSome => ?_).trans (Nat.le_add_right _ _)
      unfold Store.remove at hSome
      split_ifs at hSome
      · by_cases hS : seqNo = s
        · subst hS
          simp at hSome
        · simpa [HashMap.find_erase_ne _ hS] using hSome
      · exact hSome
  | timer b M now fired hHands hSorted =>
      refine (outstanding_le_of_find fun hSome => ?_).trans (Nat.le_add_right _ _)
      cases hFind : M.find seqNo <;> simp_all [Store.find_retain]
  | close => simp [outstanding]

/-
  An event makes timeout calls for `seqNo` and leaves it
  outstanding, together, at most as often as it found it
  outstanding or sends a request under it.
-/
theorem Step.timeouts_le
    {peer : P}
    {timeoutSec : Int}
    {σ σ' : Bool × Store Nat V}
    {now : Int}
    {ev : Event V}
    {calls : List (HandlerCall P V)}
    (hStep : Step peer timeoutSec σ now ev calls σ')
    (seqNo : Nat) :
    (calls.filter (·.isTimeoutFor seqNo)).length + outstanding σ' seqNo ≤
      outstanding σ seqNo + if ev.isSendFor seqNo then 1 else 0 := by
  obtain ⟨hOnce, hMem⟩ := hStep.timeout_once seqNo
  rcases hFilter : calls.filter (·.isTimeoutFor seqNo) with _ | ⟨c, rest⟩
  · rw [hFilter, List.length_nil, Nat.zero_add]
    exact hStep.outstanding_le seqNo
  obtain ⟨hC, hFor⟩ := List.mem_filter.mp (hFilter ▸ List.mem_cons_self c rest)
  obtain ⟨body, rfl⟩ := hStep.timeout_call_eq hC (by simpa using hFor)
  obtain ⟨⟨e, hE, -⟩, hGone⟩ := hMem body hC
  rw [hFilter, List.length_cons] at hOnce ⊢
  simp only [outstanding, hE, hGone, Option.isSome_some, Option.isSome_none,
    if_true, Bool.false_eq_true, if_false]
  omega

/-
  Over a run, the timeout calls for `seqNo` and its being
  outstanding at the end are no more than its being outstanding
  at the start and the requests sent under it.
-/
theorem Run.timeouts_le
    {peer : P}
    {timeoutSec : Int}
    {σ σ' : Bool × Store Nat V}
    {evs : List (Int × Event V)}
    {callss : List (List (HandlerCall P V))}
    (hRun : Run peer timeoutSec σ evs callss σ')
    (seqNo : Nat) :
    (callss.flatten.filter (·.isTimeoutFor seqNo)).length + outstanding σ' seqNo ≤
      outstanding σ seqNo + (evs.filter (·.2.isSendFor seqNo)).length := by
  induction hRun with
  | nil => simp
  | @cons _ _ _ _ ev _ _ _ hStep _ ih =>
      have hOne := hStep.timeouts_le seqNo
      simp only [List.flatten_cons, List.filter_append, List.length_append, List.filter_cons]
      by_cases hSend : ev.isSendFor seqNo = true
      · simp only [hSend, if_true, List.length_cons] at hOne ⊢
        omega
      · simp only [hSend, Bool.false_eq_true, if_false] at hOne ⊢
        omega

/- A run of two event lists is a run of the first and then one of the second. -/
theorem Run.split
    {peer : P}
    {timeoutSec : Int}
    {σ σ'' : Bool × Store Nat V}
    {evs evs' : List (Int × Event V)}
    {callss : List (List (HandlerCall P V))}
    (hRun : Run peer timeoutSec σ (evs ++ evs') callss σ'') :
    ∃ σ' callss₁ callss₂, callss = callss₁ ++ callss₂ ∧ callss₁.length = evs.length ∧
      Run peer timeoutSec σ evs callss₁ σ' ∧ Run peer timeoutSec σ' evs' callss₂ σ'' := by
  induction evs generalizing σ callss with
  | nil => exact ⟨σ, [], callss, rfl, rfl, .nil σ, hRun⟩
  | cons ev evs ih =>
      cases hRun with
      | cons hStep hRest =>
          obtain ⟨σ', callss₁, callss₂, rfl, hLen, hRun₁, hRun₂⟩ := ih hRest
          exact ⟨σ', _ :: callss₁, callss₂, rfl, by simp [hLen], .cons hStep hRun₁, hRun₂⟩

/-
  What a run's handler calls owe a sequence number: no more
  timeout calls than requests sent under it, and none after a
  `stream_resp` for it until it is sent again.
-/
structure TimeoutsOnce
    (seqNo : Nat)
    (evs : List (Int × Event V))
    (callss : List (List (HandlerCall P V))) : Prop where
  at_most_sent :
    (callss.flatten.filter (·.isTimeoutFor seqNo)).length ≤
      (evs.filter (·.2.isSendFor seqNo)).length
  none_after_response :
    ∀ pre now body post, evs = pre ++ (now, .streamResp seqNo body) :: post →
      (∀ x ∈ post, x.2.isSendFor seqNo = false) →
      ∀ c ∈ (callss.drop (pre.length + 1)).flatten, c.isTimeoutFor seqNo = false

/- Every run of the promise from no request owes each sequence number that. -/
theorem Run.timeoutsOnce
    {peer : P}
    {timeoutSec : Int}
    {b : Bool}
    {σ : Bool × Store Nat V}
    {evs : List (Int × Event V)}
    {callss : List (List (HandlerCall P V))}
    (hRun : Run peer timeoutSec (b, ∅) evs callss σ)
    (seqNo : Nat) :
    TimeoutsOnce seqNo evs callss := by
  refine ⟨?_, fun pre now body post hEvs hNoSend c hC => ?_⟩
  · have := hRun.timeouts_le seqNo
    simp only [outstanding, HashMap.find_empty, Option.isSome_none, Bool.false_eq_true, if_false,
      Nat.zero_add] at this
    omega
  rw [hEvs] at hRun
  obtain ⟨σ₁, callss₁, callss₂, rfl, hLen, -, hRest⟩ := hRun.split
  cases hRest with
  | @cons _ _ _ _ _ _ _ callss₃ hStep hPost =>
      cases hStep with
      | streamResp b M =>
          have hAfter := hPost.timeouts_le seqNo
          have hNone : (post.filter (·.2.isSendFor seqNo)).length = 0 := by
            simpa using hNoSend
          have hGone : outstanding (b, (M.remove seqNo).2) seqNo = 0 := by
            unfold Store.remove
            split_ifs with hMem
            · simp [outstanding]
            · simpa [outstanding, HashMap.mem_iff_find] using hMem
          rw [hNone, hGone] at hAfter
          rw [List.drop_append_eq_append_drop, hLen, List.drop_eq_nil_of_le (by omega),
            List.nil_append, show pre.length + 1 - pre.length = 1 by omega, List.drop_one,
            List.tail_cons] at hC
          by_contra hFor
          have hPos : 0 < (callss₃.flatten.filter (·.isTimeoutFor seqNo)).length :=
            List.length_pos_of_mem (List.mem_filter.mpr ⟨hC, by simpa using hFor⟩)
          omega

end Promise

------------------------------------------------------------
-- p_client
------------------------------------------------------------

open Io (Expirator)

/- The fields of `p_client` that its request path reads. -/
structure PClient (P V : Type) where
  serverId : P
  bound : Bool
  timeoutSec : Int
  packetExpirator : Expirator Nat V

namespace PClient

variable {P V : Type}

/- A client configured with `timeoutSec`, before it binds. -/
def init
    (serverId : P)
    (timeoutSec : Int) : PClient P V :=
  ⟨serverId, false, timeoutSec, Expirator.init⟩

/-
  One event at clock `now`: `on_bind`, `send_request`,
  `on_session_response` for a `stream_resp`, a completion of the
  expirator's wait, and `on_session_close`.
-/
def step
    (c : PClient P V)
    (now : Int) : Event V → List (HandlerCall P V) × PClient P V
  | .bind => ([], { c with bound := true })
  | .sendRequest seqNo body =>
      if c.bound then
        ([], { c with
          packetExpirator := (c.packetExpirator.add now seqNo c.timeoutSec body).2 })
      else ([], c)
  | .streamResp seqNo body =>
      ([.response c.serverId seqNo body],
        { c with packetExpirator := (c.packetExpirator.remove seqNo).2 })
  | .timer =>
      let r := c.packetExpirator.deliver now
      (timeoutCalls c.serverId r.1, { c with packetExpirator := r.2 })
  | .close =>
      let r := c.packetExpirator.expireAll
      (timeoutCalls c.serverId r.1, { c with bound := false, packetExpirator := r.2 })

/- A sequence of timed events, and the calls each makes. -/
def run
    (c : PClient P V) :
    List (Int × Event V) → List (List (HandlerCall P V)) × PClient P V
  | [] => ([], c)
  | (now, ev) :: evs =>
      let r := c.step now ev
      let rest := run r.2 evs
      (r.1 :: rest.1, rest.2)

/- The client keeps the promised state `σ`. -/
structure Keeps
    (c : PClient P V)
    (σ : Bool × Store Nat V) : Prop where
  bound : c.bound = σ.1
  represents : c.packetExpirator.Represents σ.2
  armed : c.packetExpirator.TimerArmed

theorem keeps_init
    (serverId : P)
    (timeoutSec : Int) :
    Keeps (init serverId timeoutSec : PClient P V) (false, ∅) :=
  ⟨rfl, Expirator.represents_init, Expirator.timerArmed_init⟩

theorem step_serverId
    (c : PClient P V)
    (now : Int)
    (ev : Event V) :
    (c.step now ev).2.serverId = c.serverId := by
  cases ev <;> simp only [step]
  split_ifs <;> rfl

theorem step_timeoutSec
    (c : PClient P V)
    (now : Int)
    (ev : Event V) :
    (c.step now ev).2.timeoutSec = c.timeoutSec := by
  cases ev <;> simp only [step]
  split_ifs <;> rfl

/- Every event of the client is a step of the promise. -/
theorem step_spec
    {c : PClient P V}
    {σ : Bool × Store Nat V}
    (hKeeps : Keeps c σ)
    (now : Int)
    (ev : Event V) :
    ∃ σ', Promise.Step c.serverId c.timeoutSec σ now ev (c.step now ev).1 σ' ∧
      Keeps (c.step now ev).2 σ' := by
  obtain ⟨b, M⟩ := σ
  obtain ⟨hBound, hRep, hArm⟩ := hKeeps
  simp only at hBound
  subst hBound
  cases ev with
  | bind => exact ⟨_, .bind _ M now, rfl, hRep, hArm⟩
  | sendRequest seqNo body =>
      refine ⟨(c.bound,
        if c.bound then (M.add seqNo (now + c.timeoutSec) body).2 else M), ?_, ?_⟩
      · have hCalls : (c.step now (.sendRequest seqNo body)).1 = [] := by
          unfold step
          split_ifs <;> rfl
        rw [hCalls]
        exact .sendRequest _ M now seqNo body
      · unfold step
        split_ifs with hB
        · simp only [hB, if_true]
          exact ⟨rfl, (Expirator.add_spec hRep now seqNo c.timeoutSec body).2,
            Expirator.add_armed hArm now seqNo c.timeoutSec body⟩
        · simp only [hB, if_false]
          exact ⟨by simpa using hB, hRep, hArm⟩
  | streamResp seqNo body =>
      exact ⟨_, .streamResp _ M now seqNo body, rfl,
        (Expirator.remove_spec hRep seqNo).2,
        Expirator.remove_armed hRep.toLinked hArm seqNo⟩
  | timer =>
      obtain ⟨fired, hHands, hSorted, hCalls, hRep', hArm'⟩ :=
        Expirator.deliver_spec hRep hArm now
      refine ⟨(c.bound, M.retain now), ?_, rfl, hRep', hArm'⟩
      show Promise.Step _ _ _ _ _
        (timeoutCalls c.serverId (c.packetExpirator.deliver now).1) _
      rw [hCalls]
      exact .timer _ M now fired hHands hSorted
  | close =>
      obtain ⟨fired, hHands, hCalls, hRep', -⟩ := Expirator.expireAll_spec hRep
      refine ⟨(false, ∅), ?_, rfl, hRep', Expirator.expireAll_armed _⟩
      show Promise.Step _ _ _ _ _
        (timeoutCalls c.serverId c.packetExpirator.expireAll.1) _
      rw [hCalls]
      exact .close _ M now fired hHands

/- Every run of the client is a run of the promise. -/
theorem run_spec
    {c : PClient P V}
    {σ : Bool × Store Nat V}
    (hKeeps : Keeps c σ)
    (evs : List (Int × Event V)) :
    ∃ σ', Promise.Run c.serverId c.timeoutSec σ evs (c.run evs).1 σ' := by
  induction evs generalizing c σ with
  | nil => exact ⟨σ, .nil σ⟩
  | cons ev evs ih =>
      obtain ⟨now, ev⟩ := ev
      obtain ⟨σ', hStep, hKeeps'⟩ := step_spec hKeeps now ev
      obtain ⟨σ'', hRun⟩ := ih hKeeps'
      rw [step_serverId, step_timeoutSec] at hRun
      exact ⟨σ'', .cons hStep hRun⟩

end PClient

------------------------------------------------------------
-- p_server
------------------------------------------------------------

/-
  The fields of `p_server` that its request paths read: the
  packet expirator of each bound client id.  `binded_sessions_`
  and `packet_expirators_` have the same keys.
-/
structure PServer (P V : Type) where
  timeoutSec : Int
  packetExpirators : HashMap P (Expirator Nat V)

namespace PServer

variable {P V : Type} [DecidableEq P]

/- A server configured with `timeoutSec`, before any client binds. -/
def init (timeoutSec : Int) : PServer P V :=
  ⟨timeoutSec, ∅⟩

/-
  One expirator slot at clock `now`: `on_bind` creates the slot
  unless the id is bound, `send_request` and `on_session_response`
  use it when present, and `on_session_close` expires and drops it.
-/
def slotStep
    (timeoutSec : Int)
    (client : P)
    (slot : Option (Expirator Nat V))
    (now : Int) : Event V → List (HandlerCall P V) × Option (Expirator Nat V)
  | .bind => ([], some (slot.getD Expirator.init))
  | .sendRequest seqNo body =>
      ([], slot.map fun e => (e.add now seqNo timeoutSec body).2)
  | .streamResp seqNo body =>
      ([.response client seqNo body], slot.map fun e => (e.remove seqNo).2)
  | .timer =>
      match slot with
      | some e =>
          let r := e.deliver now
          (timeoutCalls client r.1, some r.2)
      | none => ([], none)
  | .close =>
      match slot with
      | some e => (timeoutCalls client e.expireAll.1, none)
      | none => ([], none)

/- An event for `client` at clock `now`, and the calls it makes. -/
def step
    (s : PServer P V)
    (now : Int)
    (client : P)
    (ev : Event V) : List (HandlerCall P V) × PServer P V :=
  let r := slotStep s.timeoutSec client (s.packetExpirators.find client) now ev
  (r.1, { s with
    packetExpirators :=
      match r.2 with
      | some e => s.packetExpirators.insert client e
      | none => s.packetExpirators.erase client })

/- A sequence of timed events for clients, and the calls each makes. -/
def run
    (s : PServer P V) :
    List (P × Int × Event V) → List (P × List (HandlerCall P V)) × PServer P V
  | [] => ([], s)
  | (client, now, ev) :: ops =>
      let r := s.step now client ev
      let rest := run r.2 ops
      ((client, r.1) :: rest.1, rest.2)

/- The items of `xs` that belong to `client`. -/
def project
    {α : Type}
    (client : P)
    (xs : List (P × α)) : List α :=
  (xs.filter fun x => x.1 = client).map (·.2)

/- A slot keeps the promised state `σ`: an expirator exactly while bound. -/
def SlotKeeps
    (slot : Option (Expirator Nat V))
    (σ : Bool × Store Nat V) : Prop :=
  match slot with
  | some e => σ.1 = true ∧ e.Represents σ.2 ∧ e.TimerArmed
  | none => σ.1 = false ∧ ∀ k, σ.2.find k = none

/- Every event on a slot is a step of the promise. -/
omit [DecidableEq P] in
theorem slotStep_spec
    (timeoutSec : Int)
    (client : P)
    {slot : Option (Expirator Nat V)}
    {σ : Bool × Store Nat V}
    (hKeeps : SlotKeeps slot σ)
    (now : Int)
    (ev : Event V) :
    ∃ σ', Promise.Step client timeoutSec σ now ev
        (slotStep timeoutSec client slot now ev).1 σ' ∧
      SlotKeeps (slotStep timeoutSec client slot now ev).2 σ' := by
  obtain ⟨b, M⟩ := σ
  cases slot with
  | none =>
      obtain ⟨rfl, hEmpty⟩ := hKeeps
      have hNone : ∀ k e, M.find k ≠ some e := fun k e h => by
        rw [hEmpty] at h
        cases h
      have hRetain : ∀ k, (M.retain now).find k = none := fun k => by
        rw [Store.find_retain, hEmpty]
        rfl
      cases ev with
      | bind =>
          exact ⟨_, .bind false M now, rfl,
            Expirator.represents_init.congr (fun _ => rfl) rfl rfl
              (fun k => by rw [hEmpty]; rfl),
            Expirator.timerArmed_init⟩
      | sendRequest seqNo body =>
          exact ⟨_, .sendRequest false M now seqNo body, rfl, hEmpty⟩
      | streamResp seqNo body =>
          refine ⟨_, .streamResp false M now seqNo body, rfl, fun k => ?_⟩
          unfold Store.remove
          split_ifs
          · by_cases hK : k = seqNo
            · subst hK
              simp
            · rw [HashMap.find_erase_ne _ hK, hEmpty]
          · exact hEmpty k
      | timer =>
          exact ⟨_, .timer false M now [] ⟨List.nodup_nil, fun k e => by simp [hNone k e]⟩
            List.sorted_nil, rfl, hRetain⟩
      | close =>
          exact ⟨_, .close false M now [] ⟨List.nodup_nil, fun k e => by simp [hNone k e]⟩,
            rfl, fun k => by simp⟩
  | some e =>
      obtain ⟨rfl, hRep, hArm⟩ := hKeeps
      cases ev with
      | bind => exact ⟨_, .bind true M now, rfl, hRep, hArm⟩
      | sendRequest seqNo body =>
          exact ⟨_, .sendRequest true M now seqNo body, rfl,
            (Expirator.add_spec hRep now seqNo timeoutSec body).2,
            Expirator.add_armed hArm now seqNo timeoutSec body⟩
      | streamResp seqNo body =>
          exact ⟨_, .streamResp true M now seqNo body, rfl,
            (Expirator.remove_spec hRep seqNo).2,
            Expirator.remove_armed hRep.toLinked hArm seqNo⟩
      | timer =>
          obtain ⟨fired, hHands, hSorted, hCalls, hRep', hArm'⟩ :=
            Expirator.deliver_spec hRep hArm now
          refine ⟨(true, M.retain now), ?_, rfl, hRep', hArm'⟩
          show Promise.Step _ _ _ _ _ (timeoutCalls client (e.deliver now).1) _
          rw [hCalls]
          exact .timer true M now fired hHands hSorted
      | close =>
          obtain ⟨fired, hHands, hCalls, -, -⟩ := Expirator.expireAll_spec hRep
          refine ⟨(false, ∅), ?_, rfl, fun k => by simp⟩
          show Promise.Step _ _ _ _ _ (timeoutCalls client e.expireAll.1) _
          rw [hCalls]
          exact .close true M now fired hHands

theorem step_find_self
    (s : PServer P V)
    (now : Int)
    (client : P)
    (ev : Event V) :
    (s.step now client ev).2.packetExpirators.find client =
      (slotStep s.timeoutSec client (s.packetExpirators.find client) now ev).2 := by
  simp only [step]
  split <;> simp_all

theorem step_find_other
    (s : PServer P V)
    (now : Int)
    {client other : P}
    (hNe : other ≠ client)
    (ev : Event V) :
    (s.step now other ev).2.packetExpirators.find client =
      s.packetExpirators.find client := by
  simp only [step]
  split
  · exact HashMap.find_insert_ne _ _ (Ne.symm hNe)
  · exact HashMap.find_erase_ne _ (Ne.symm hNe)

theorem project_cons
    {α : Type}
    (client other : P)
    (a : α)
    (xs : List (P × α)) :
    project client ((other, a) :: xs) =
      if other = client then a :: project client xs else project client xs := by
  by_cases hC : other = client <;> simp [project, hC]

/- For each client id, every run of the server is a run of the promise. -/
theorem run_spec
    (s : PServer P V)
    (client : P)
    {σ : Bool × Store Nat V}
    (hKeeps : SlotKeeps (s.packetExpirators.find client) σ)
    (ops : List (P × Int × Event V)) :
    ∃ σ', Promise.Run client s.timeoutSec σ (project client ops)
      (project client (s.run ops).1) σ' := by
  induction ops generalizing s σ with
  | nil => exact ⟨σ, .nil σ⟩
  | cons op ops ih =>
      obtain ⟨other, now, ev⟩ := op
      simp only [run, project_cons]
      by_cases hC : other = client
      · subst hC
        rw [if_pos rfl, if_pos rfl]
        obtain ⟨σ', hStep, hKeeps'⟩ := slotStep_spec s.timeoutSec other hKeeps now ev
        rw [← step_find_self] at hKeeps'
        obtain ⟨σ'', hRun⟩ := ih _ hKeeps'
        exact ⟨σ'', .cons hStep hRun⟩
      · rw [if_neg hC, if_neg hC]
        exact ih (s.step now other ev).2 (by rw [step_find_other s now hC]; exact hKeeps)

end PServer

------------------------------------------------------------
-- The Façades Keep the Promise
------------------------------------------------------------

/-
  A response arriving after its request timed out still reaches
  the response handler: sequence number 1 gets a timeout call
  and then a response call.
-/
theorem late_response_after_timeout :
    ((PClient.init () 100 : PClient Unit Nat).run
        [(0, .bind), (0, .sendRequest 1 7), (100, .timer), (100, .streamResp 1 8)]).1 =
      [[], [], [.timeout () 1 7], [.response () 1 8]] := by
  decide

/-
  Both façades keep the promise: every run of `p_client`, and for
  each client id every run of `p_server`, makes the handler calls
  of a run of the promise from no session and no request.
-/
theorem facade_keeps_promise
    {P V : Type}
    [DecidableEq P]
    (serverId : P)
    (timeoutSec : Int)
    (evs : List (Int × Event V))
    (ops : List (P × Int × Event V))
    (client : P) :
    (∃ σ, Promise.Run serverId timeoutSec (false, ∅) evs
        ((PClient.init serverId timeoutSec : PClient P V).run evs).1 σ) ∧
      ∃ σ, Promise.Run client timeoutSec (false, ∅) (PServer.project client ops)
        (PServer.project client ((PServer.init timeoutSec : PServer P V).run ops).1) σ :=
  ⟨PClient.run_spec (PClient.keeps_init serverId timeoutSec) evs,
    PServer.run_spec (PServer.init timeoutSec) client (σ := (false, ∅))
      ⟨rfl, fun k => HashMap.find_empty k⟩ ops⟩

/-
  What the promise gives every run of the façades, for each
  sequence number: `p_client`, and `p_server` for each client id,
  call the timeout handler no more often than a request was sent
  under it, and never after a `stream_resp` for it until it is
  sent again.
-/
theorem facades_time_out_each_request_once
    {P V : Type}
    [DecidableEq P]
    (serverId : P)
    (timeoutSec : Int)
    (evs : List (Int × Event V))
    (ops : List (P × Int × Event V))
    (client : P)
    (seqNo : Nat) :
    Promise.TimeoutsOnce seqNo evs ((PClient.init serverId timeoutSec : PClient P V).run evs).1 ∧
      Promise.TimeoutsOnce seqNo (PServer.project client ops)
        (PServer.project client ((PServer.init timeoutSec : PServer P V).run ops).1) := by
  obtain ⟨σ, hClient⟩ := PClient.run_spec (PClient.keeps_init serverId timeoutSec) evs
  obtain ⟨σ', hServer⟩ := PServer.run_spec (PServer.init timeoutSec) client (σ := (false, ∅))
    ⟨rfl, fun k => HashMap.find_empty k⟩ ops
  exact ⟨hClient.timeoutsOnce seqNo, hServer.timeoutsOnce seqNo⟩

end Networking

end Vex
