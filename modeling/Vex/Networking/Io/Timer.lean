import Vex.Networking.Io.Refinement

/-
  The timer of `io::expirator` is never late: whenever the queue
  has a first node, the expirator runs and its timer is armed at
  or before that node's expiry.  `add`, `update_expiry` and
  `refresh` re-arm when the node they place comes first, `add`
  starts a stopped expirator, and a completed wait re-arms at the
  new first node.

  A completion that is not yet due then finds nothing due, so
  every completion at clock `now` is the store's firing pass at
  `now`.

  Main declarations:
    * `TimerArmed`
    * `add_armed`, `requeue_armed`, `remove_armed`, `expireAll_armed`
    * `onTimer_armed`
    * `Represents.nothing_due`, `onTimer_spec`
-/

------------------------------------------------------------
-- The First Node
------------------------------------------------------------

namespace Vex

namespace Networking

namespace Io

open Vex.Expirator (Store Entry HashMap Action Output)

namespace Expirator

variable {K V : Type} [DecidableEq K]

/- The first node after `emplace` is the placed node or the old first node. -/
omit [DecidableEq K] in
theorem head?_emplace
    (q : List (QueueNode K))
    (n : QueueNode K) :
    (emplace q n).head? = some n ∨ (emplace q n).head? = q.head? := by
  cases q with
  | nil => exact .inl rfl
  | cons m q =>
      by_cases hLt : n.expiry < m.expiry
      · exact .inl (by simp [emplace, List.orderedInsert, hLt])
      · exact .inr (by simp [emplace, List.orderedInsert, hLt])

/- In an ordered queue the first node is due no later than any node. -/
omit [DecidableEq K] in
theorem head_le
    {q : List (QueueNode K)}
    (hSorted : q.Sorted (fun a b => a.expiry ≤ b.expiry))
    {h x : QueueNode K}
    (hHead : h ∈ q.head?)
    (hX : x ∈ q) :
    h.expiry ≤ x.expiry := by
  cases q with
  | nil => cases hHead
  | cons m q =>
      cases hHead
      rcases List.mem_cons.mp hX with rfl | hX
      · exact le_rfl
      · exact List.rel_of_sorted_cons hSorted x hX

------------------------------------------------------------
-- The Timer Invariant
------------------------------------------------------------

/-
  A queue with a first node belongs to a running expirator whose
  timer is armed no later than that node.
-/
def TimerArmed (s : Expirator K V) : Prop :=
  ∀ h ∈ s.expiryQueue.head?,
    s.running = true ∧ ∃ t, s.timer = some t ∧ t ≤ h.expiry

omit [DecidableEq K] in
theorem timerArmed_init : TimerArmed (init : Expirator K V) :=
  fun _ h => by cases h

omit [DecidableEq K] in
theorem scheduleNext_armed
    (s : Expirator K V)
    (hRunning : s.running = true) :
    TimerArmed s.scheduleNext := by
  unfold scheduleNext
  split
  · intro h hH
    simp_all
  · intro h hH
    simp_all

/- A first node no earlier than before keeps the timer good. -/
omit [DecidableEq K] in
theorem TimerArmed.of_later
    {s t : Expirator K V}
    (hArm : TimerArmed s)
    (hRunning : t.running = s.running)
    (hTimer : t.timer = s.timer)
    (hLater : ∀ h ∈ t.expiryQueue.head?,
      ∃ h₀ ∈ s.expiryQueue.head?, h₀.expiry ≤ h.expiry) :
    TimerArmed t := by
  intro h hH
  obtain ⟨h₀, hH₀, hLe⟩ := hLater h hH
  obtain ⟨hRun, u, hU, hUle⟩ := hArm h₀ hH₀
  exact ⟨hRunning ▸ hRun, u, hTimer ▸ hU, le_trans hUle hLe⟩

omit [DecidableEq K] in
theorem start_armed
    (s : Expirator K V)
    (hStopped : s.running = false) :
    TimerArmed s.start := by
  unfold start
  split_ifs with hGo
  · exact scheduleNext_armed _ rfl
  · intro h hH
    cases hQ : s.expiryQueue with
    | nil => simp [hQ] at hH
    | cons m q => simp [hStopped, hQ] at hGo

theorem add_armed
    {s : Expirator K V}
    (hArm : TimerArmed s)
    (now : Int)
    (key : K)
    (ttl : Int)
    (info : V) :
    TimerArmed (s.add now key ttl info).2 := by
  by_cases hK : key ∈ s.entries
  · simpa [add, hK] using hArm
  simp only [add, hK, if_false]
  split_ifs with hFirst hStopped
  · exact scheduleNext_armed _ hFirst.1
  · exact start_armed _ (by simpa using hStopped)
  · have hRunning : s.running = true := by simpa using hStopped
    refine hArm.of_later rfl rfl fun h hH => ?_
    rcases head?_emplace s.expiryQueue ⟨s.nextNode, now + ttl, key⟩ with hNew | hOld
    · simp only [hNew] at hH hFirst
      simp [hRunning] at hFirst
    · exact ⟨h, hOld ▸ hH, le_rfl⟩

/- A node of an ordered queue is due no earlier than its first node. -/
omit [DecidableEq K] in
theorem exists_head_le
    {q : List (QueueNode K)}
    (hSorted : q.Sorted (fun a b => a.expiry ≤ b.expiry))
    {x : QueueNode K}
    (hX : x ∈ q) :
    ∃ h ∈ q.head?, h.expiry ≤ x.expiry := by
  cases q with
  | nil => cases hX
  | cons m q => exact ⟨m, rfl, head_le hSorted rfl hX⟩

/- Dropping nodes leaves a first node no earlier than before. -/
omit [DecidableEq K] in
theorem later_of_eraseNode
    {q : List (QueueNode K)}
    (hSorted : q.Sorted (fun a b => a.expiry ≤ b.expiry))
    (id : Nat)
    {h : QueueNode K}
    (hH : h ∈ (eraseNode q id).head?) :
    ∃ h₀ ∈ q.head?, h₀.expiry ≤ h.expiry :=
  exists_head_le hSorted ((mem_eraseNode _ _ _).mp (List.mem_of_mem_head? hH)).1

theorem requeue_armed
    {s : Expirator K V}
    (hLink : Linked s)
    (hArm : TimerArmed s)
    (key : K)
    (newExpiry : Int → Int) :
    TimerArmed (s.requeue key newExpiry).2 := by
  unfold requeue
  cases hE : s.entries.find key with
  | none => exact hArm
  | some e =>
      have hRunning : s.running = true := by
        obtain ⟨h₀, hH₀, -⟩ := exists_head_le hLink.sorted (hLink.node_mem hE)
        exact (hArm h₀ hH₀).1
      simp only [rearmIfFirst]
      split_ifs with hFirst
      · exact scheduleNext_armed _ hFirst.1
      · refine hArm.of_later rfl rfl fun h hH => ?_
        rcases head?_emplace (eraseNode s.expiryQueue e.queueIter)
            ⟨s.nextNode, newExpiry e.expiry, key⟩ with hNew | hOld
        · simp only [hNew] at hH hFirst
          simp [hRunning] at hFirst
        · exact later_of_eraseNode hLink.sorted _ (hOld ▸ hH)

theorem remove_armed
    {s : Expirator K V}
    (hLink : Linked s)
    (hArm : TimerArmed s)
    (key : K) :
    TimerArmed (s.remove key).2 := by
  unfold remove
  cases s.entries.find key with
  | none => exact hArm
  | some e =>
      exact hArm.of_later rfl rfl fun h hH => later_of_eraseNode hLink.sorted _ hH

omit [DecidableEq K] in
theorem expireAll_armed (s : Expirator K V) :
    TimerArmed s.expireAll.2 := by
  simp only [expireAll, clear]
  split <;> exact fun _ hH => by cases hH

theorem processKeys_running
    (keys : List K)
    (s : Expirator K V) :
    (processKeys keys s).2.running = s.running := by
  induction keys generalizing s with
  | nil => rfl
  | cons key keys ih =>
      unfold processKeys
      split <;> exact ih _

theorem onTimer_armed
    {s : Expirator K V}
    (hArm : TimerArmed s)
    (now : Int) :
    TimerArmed (s.onTimer now).2 := by
  simp only [onTimer]
  split_ifs with hRun hRun'
  · exact scheduleNext_armed _ hRun'
  · simp [processExpired, processKeys_running] at hRun'
    simp_all
  · exact fun h hH => absurd (hArm h hH).1 hRun

------------------------------------------------------------
-- Completions
------------------------------------------------------------

/- A key of `M` has a node, so the expirator runs with its timer armed. -/
theorem Represents.armed_le
    {s : Expirator K V}
    {M : Store K V}
    (hRep : Represents s M)
    (hArm : TimerArmed s)
    {k : K}
    {e : Entry V}
    (hE : M.find k = some e) :
    s.running = true ∧ ∃ t, s.timer = some t ∧ t ≤ e.deadline := by
  rw [hRep.view] at hE
  obtain ⟨ed, hEd, rfl⟩ := Option.map_eq_some'.mp hE
  obtain ⟨h, hH, hLe⟩ := exists_head_le hRep.sorted (hRep.node_mem hEd)
  obtain ⟨hRun, t, hT, hTle⟩ := hArm h hH
  exact ⟨hRun, t, hT, le_trans hTle hLe⟩

/- A pass that finds nothing due hands nothing over and keeps `M`. -/
theorem Represents.idle_pass
    {s : Expirator K V}
    {M : Store K V}
    (hRep : Represents s M)
    {now : Int}
    (hNone : ∀ k e, M.find k = some e → now < e.deadline) :
    M.Hands (fun e => e.deadline ≤ now) [] ∧ Represents s (M.retain now) := by
  refine ⟨⟨List.nodup_nil, fun k e => ?_⟩, hRep.congr (fun _ => rfl) rfl rfl fun k => ?_⟩
  · simp only [List.not_mem_nil, false_iff, not_and, not_le]
    exact hNone k e
  · rw [Store.find_retain]
    cases hE : M.find k with
    | none => rfl
    | some e => simp [hNone k e hE]

/-
  A delivery at clock `now` is the store's firing pass at `now`:
  before the timer's deadline nothing is due.
-/
theorem deliver_spec
    {s : Expirator K V}
    {M : Store K V}
    (hRep : Represents s M)
    (hArm : TimerArmed s)
    (now : Int) :
    ∃ fired, M.Hands (fun e => e.deadline ≤ now) fired ∧
      fired.Sorted (fun a b => a.2.deadline ≤ b.2.deadline) ∧
      (s.deliver now).1 = Store.calls fired ∧
      Represents (s.deliver now).2 (M.retain now) ∧
      TimerArmed (s.deliver now).2 := by
  have hIdle : (∀ t, s.timer = some t → now < t) →
      ∃ fired, M.Hands (fun e => e.deadline ≤ now) fired ∧
        fired.Sorted (fun a b => a.2.deadline ≤ b.2.deadline) ∧
        ([] : List (K × V)) = Store.calls fired ∧
        Represents s (M.retain now) ∧ TimerArmed s := fun hLate =>
    have hNone : ∀ k e, M.find k = some e → now < e.deadline := fun k e hE => by
      obtain ⟨-, t, hT, hTle⟩ := hRep.armed_le hArm hE
      exact lt_of_lt_of_le (hLate t hT) hTle
    ⟨[], (hRep.idle_pass hNone).1, List.sorted_nil, rfl,
      (hRep.idle_pass hNone).2, hArm⟩
  unfold deliver
  cases hT : s.timer with
  | none => exact hIdle fun t h => absurd (hT.symm.trans h) (by simp)
  | some t =>
      simp only
      split_ifs with hLe
      · have hArm' := onTimer_armed hArm now
        have hRep1 : Represents { s with timer := none } M :=
          hRep.of_sameTable ⟨rfl, rfl, rfl⟩
        simp only [onTimer] at hArm' ⊢
        split_ifs at hArm' ⊢ with hRun hRun'
        · obtain ⟨fired, hHands, hSorted, hCalls, hRep'⟩ :=
            processExpired_spec hRep1 now
          exact ⟨fired, hHands, hSorted, hCalls,
            hRep'.of_sameTable (sameTable_scheduleNext _), hArm'⟩
        · obtain ⟨fired, hHands, hSorted, hCalls, hRep'⟩ :=
            processExpired_spec hRep1 now
          exact ⟨fired, hHands, hSorted, hCalls, hRep', hArm'⟩
        · have hNone : ∀ k e, M.find k = some e → now < e.deadline :=
            fun k e hE => absurd (hRep.armed_le hArm hE).1 hRun
          exact ⟨[], (hRep1.idle_pass hNone).1, List.sorted_nil, rfl,
            (hRep1.idle_pass hNone).2, hArm'⟩
      · exact hIdle fun t' hT' => by
          rw [hT, Option.some.injEq] at hT'
          omega

end Expirator

end Io

end Networking

end Vex
