import Vex.Networking.Io.Handler

/-
  The timer of `io::expirator` over whole runs: public calls,
  `start`, `stop`, and completions of the pending wait with the
  expiry handler running inside them.

  `ArmedWhileRunning` says that a running expirator with a first
  node has its wait armed no later than that node.  Every call
  keeps it: `add`, `update_expiry` and `refresh` re-arm when they
  place the first node, `add` starts a stopped expirator, `stop`,
  `clear` and `expire_all` stop it.  A completion whose handler
  returns ends in `schedule_next`, which arms the wait at the new
  first node whatever the handler's calls did.  A completion
  whose handler throws leaves before `schedule_next`: the
  expirator still runs with nodes and no wait, and no completion
  comes again.

  Main declarations:
    * `ArmedWhileRunning`, `Scheduled`
    * `Event`, `Event.apply`, `runEvents`
    * `Scheduled.step`, `Scheduled.runEvents`
    * `io_timer_armed_unless_handler_throws`
-/

------------------------------------------------------------
-- Completions
------------------------------------------------------------

namespace Vex

namespace Networking

namespace Io

open Vex.Expirator (Store HashMap)

namespace Expirator

variable {K V : Type} [DecidableEq K]

/- The reactor's side of the timer with the handler inside: the wait completes once due. -/
def deliverWith
    (handler : K → V → Reaction K V)
    (s : Expirator K V)
    (now : Int) : Pass K V :=
  match s.timer with
  | some t => if t ≤ now then s.onTimerWith handler now else ⟨[], s, false⟩
  | none => ⟨[], s, false⟩

omit [DecidableEq K] in
/-
  The wait completing with an error other than `operation_aborted`:
  a running expirator stops.  The error handler's own calls are
  not modelled.
-/
def onTimerError (s : Expirator K V) : Expirator K V :=
  let s1 := { s with timer := none }
  if s1.running then { s1 with running := false } else s1

/- What can happen to an `io::expirator`. -/
inductive Event (K V : Type) where
  | call (op : Op K V)
  | start
  | stop
  | complete (handler : K → V → Reaction K V)
  | fail

/- One event at clock reading `now`; the state stays as an escaping exception leaves it. -/
def Event.apply
    (now : Int)
    (s : Expirator K V) : Event K V → Expirator K V
  | .call op => (s.step now op).2
  | .start => s.start
  | .stop => s.stop
  | .complete handler => (s.deliverWith handler now).state
  | .fail => if s.timer.isSome then s.onTimerError else s

/- A sequence of timed events from `s`. -/
def runEvents (s : Expirator K V) : List (Int × Event K V) → Expirator K V
  | [] => s
  | (now, ev) :: evs => runEvents (ev.apply now s) evs

omit [DecidableEq K] in
/- The event does not run a handler that throws. -/
def Event.Returns : Event K V → Prop
  | .complete handler => ∀ k v, (handler k v).throws = false
  | _ => True

------------------------------------------------------------
-- The Invariant
------------------------------------------------------------

omit [DecidableEq K] in
/- A running expirator with a first node has its wait armed no later than that node. -/
def ArmedWhileRunning (s : Expirator K V) : Prop :=
  s.running = true → ∀ h ∈ s.expiryQueue.head?, ∃ t, s.timer = some t ∧ t ≤ h.expiry

/- The invariant of a run: the map and the queue linked to a store, and the wait armed. -/
structure Scheduled (s : Expirator K V) : Prop where
  represents : ∃ M : Store K V, Represents s M
  armed : ArmedWhileRunning s

omit [DecidableEq K] in
theorem armedWhileRunning_of_stopped
    {s : Expirator K V}
    (hStopped : s.running = false) :
    ArmedWhileRunning s :=
  fun hRun => absurd (hStopped.symm.trans hRun) Bool.false_ne_true

omit [DecidableEq K] in
theorem TimerArmed.armedWhileRunning
    {s : Expirator K V}
    (hArm : TimerArmed s) :
    ArmedWhileRunning s :=
  fun _ h hH => (hArm h hH).2

omit [DecidableEq K] in
theorem ArmedWhileRunning.timerArmed
    {s : Expirator K V}
    (hArm : ArmedWhileRunning s)
    (hRun : s.running = true) :
    TimerArmed s :=
  fun h hH => ⟨hRun, hArm hRun h hH⟩

omit [DecidableEq K] in
/-
  A step keeps the invariant when it keeps `TimerArmed` from a
  running state and the invariant from a stopped one.
-/
theorem ArmedWhileRunning.of_cases
    {s t : Expirator K V}
    (hArm : ArmedWhileRunning s)
    (hRunning : TimerArmed s → TimerArmed t)
    (hStopped : s.running = false → ArmedWhileRunning t) :
    ArmedWhileRunning t := by
  cases hRun : s.running
  · exact hStopped hRun
  · exact (hRunning (hArm.timerArmed hRun)).armedWhileRunning

omit [DecidableEq K] in
/- `schedule_next` arms the wait at the first node, or stops. -/
theorem armedWhileRunning_scheduleNext (s : Expirator K V) :
    ArmedWhileRunning s.scheduleNext := by
  unfold scheduleNext
  split
  · exact armedWhileRunning_of_stopped rfl
  · rename_i n q hQ
    intro _ h hH
    simp only [hQ, List.head?_cons, Option.mem_def, Option.some.injEq] at hH
    exact ⟨n.expiry, rfl, hH ▸ le_rfl⟩

------------------------------------------------------------
-- Calls
------------------------------------------------------------

/- `add` keeps the wait armed; from a stopped expirator it starts it. -/
theorem armedWhileRunning_add
    {s : Expirator K V}
    (hArm : ArmedWhileRunning s)
    (now : Int)
    (key : K)
    (ttl : Int)
    (info : V) :
    ArmedWhileRunning (s.add now key ttl info).2 := by
  refine hArm.of_cases (fun hT => add_armed hT now key ttl info) fun hStopped => ?_
  unfold add
  dsimp only
  split_ifs with hK hFirst hStart
  · exact armedWhileRunning_of_stopped hStopped
  · exact armedWhileRunning_scheduleNext _
  · refine TimerArmed.armedWhileRunning (start_armed _ ?_)
    exact hStopped
  · simp [hStopped] at hStart

/- `update_expiry` and `refresh` leave a stopped expirator stopped. -/
theorem requeue_running_of_stopped
    {s : Expirator K V}
    (hStopped : s.running = false)
    (key : K)
    (newExpiry : Int → Int) :
    (s.requeue key newExpiry).2.running = false := by
  unfold requeue
  split
  · exact hStopped
  · simp only [rearmIfFirst]
    split_ifs with hFirst
    · simp [hStopped] at hFirst
    · exact hStopped

/- `process_expired` drops nodes only. -/
theorem processKeys_queue_sublist
    (keys : List K)
    (s : Expirator K V) :
    (processKeys keys s).2.expiryQueue.Sublist s.expiryQueue := by
  induction keys generalizing s with
  | nil => exact List.Sublist.refl _
  | cons key keys ih =>
      unfold processKeys
      split
      · exact (ih _).trans (List.filter_sublist _)
      · exact ih s

theorem processExpired_armed
    {s : Expirator K V}
    (hLink : Linked s)
    (hArm : TimerArmed s)
    (now : Int) :
    TimerArmed (s.processExpired now).2 :=
  hArm.of_later (processKeys_running _ s) (processKeys_timer _ s) fun _ hH =>
    exists_head_le hLink.sorted
      ((processKeys_queue_sublist _ s).subset (List.mem_of_mem_head? hH))

/- Every public call keeps the wait armed. -/
theorem armedWhileRunning_step
    {s : Expirator K V}
    (hLink : Linked s)
    (hArm : ArmedWhileRunning s)
    (now : Int)
    (op : Op K V) :
    ArmedWhileRunning (s.step now op).2 := by
  cases op with
  | add key ttl info => exact armedWhileRunning_add hArm now key ttl info
  | remove key =>
      refine hArm.of_cases (fun hT => remove_armed hLink hT key) fun hStopped => ?_
      apply armedWhileRunning_of_stopped
      unfold step remove
      dsimp only
      split <;> exact hStopped
  | updateExpiry key ttl =>
      exact hArm.of_cases (fun hT => requeue_armed hLink hT key _)
        fun hStopped => armedWhileRunning_of_stopped (requeue_running_of_stopped hStopped key _)
  | refresh key extension =>
      exact hArm.of_cases (fun hT => requeue_armed hLink hT key _)
        fun hStopped => armedWhileRunning_of_stopped (requeue_running_of_stopped hStopped key _)
  | clear => exact armedWhileRunning_of_stopped (clear_running s)
  | expireAll => exact armedWhileRunning_of_stopped (clear_running s)
  | processExpired =>
      exact hArm.of_cases (fun hT => processExpired_armed hLink hT now)
        fun hStopped => armedWhileRunning_of_stopped ((processKeys_running _ s).trans hStopped)

omit [DecidableEq K] in
theorem armedWhileRunning_start
    {s : Expirator K V}
    (hArm : ArmedWhileRunning s) :
    ArmedWhileRunning s.start := by
  unfold start
  split_ifs
  · exact armedWhileRunning_scheduleNext _
  · exact hArm

omit [DecidableEq K] in
theorem armedWhileRunning_stop (s : Expirator K V) :
    ArmedWhileRunning s.stop := by
  unfold stop
  split_ifs with hRun
  · exact armedWhileRunning_of_stopped rfl
  · exact armedWhileRunning_of_stopped (by simpa using hRun)

------------------------------------------------------------
-- The Handler Inside
------------------------------------------------------------

/- The firing loop keeps the map and the queue linked, whatever the handler calls. -/
theorem processKeysWith_represents
    (handler : K → V → Reaction K V)
    (keys : List K)
    {s : Expirator K V}
    {M : Store K V}
    (hRep : Represents s M) :
    ∃ M', Represents (processKeysWith handler keys s).state M' := by
  induction keys generalizing s M with
  | nil => exact ⟨M, hRep⟩
  | cons key keys ih =>
      cases hFind : s.entries.find key with
      | none =>
          simp only [processKeysWith, hFind]
          exact ih hRep
      | some e =>
          obtain ⟨M1, -, hRep1⟩ := run_spec (hRep.dropKey hFind)
            ((handler key e.info).calls.map fun c => (c.1, c.2.op))
          simp only [processKeysWith, hFind]
          split
          · exact ⟨M1, hRep1⟩
          · exact ih hRep1

/- A completion keeps the map and the queue linked, whether or not the handler throws. -/
theorem onTimerWith_represents
    (handler : K → V → Reaction K V)
    {s : Expirator K V}
    {M : Store K V}
    (hRep : Represents s M)
    (now : Int) :
    ∃ M', Represents (s.onTimerWith handler now).state M' := by
  have hRep1 : Represents { s with timer := none } M := hRep.of_sameTable ⟨rfl, rfl, rfl⟩
  obtain ⟨M', hRep'⟩ := processKeysWith_represents handler
    (({ s with timer := none } : Expirator K V).expiryQueue.takeWhile (·.expiry ≤ now)
      |>.map (·.key)) hRep1
  unfold onTimerWith processExpiredWith
  dsimp only
  split_ifs
  · exact ⟨M', hRep'⟩
  · exact ⟨M', hRep'.of_sameTable (sameTable_scheduleNext _)⟩
  · exact ⟨M', hRep'⟩
  · exact ⟨M, hRep1⟩

/- A completion whose pass returns ends armed: `schedule_next` arms it, or it stopped. -/
theorem onTimerWith_armed
    (handler : K → V → Reaction K V)
    (s : Expirator K V)
    (now : Int)
    (hReturns : (s.onTimerWith handler now).threw = false) :
    ArmedWhileRunning (s.onTimerWith handler now).state := by
  unfold onTimerWith at hReturns ⊢
  dsimp only at hReturns ⊢
  split_ifs at hReturns ⊢ with hRun hThrew hStill
  · simp [hThrew] at hReturns
  · exact armedWhileRunning_scheduleNext _
  · exact armedWhileRunning_of_stopped (by simpa using hStill)
  · exact armedWhileRunning_of_stopped (by simpa using hRun)

/- A pass with a handler that never throws does not throw. -/
theorem processKeysWith_returns
    (handler : K → V → Reaction K V)
    (hReturns : ∀ k v, (handler k v).throws = false)
    (keys : List K)
    (s : Expirator K V) :
    (processKeysWith handler keys s).threw = false := by
  induction keys generalizing s with
  | nil => rfl
  | cons key keys ih =>
      unfold processKeysWith
      split
      · simp only [hReturns, Bool.false_eq_true, if_false]
        exact ih _
      · exact ih s

theorem onTimerWith_returns
    (handler : K → V → Reaction K V)
    (hReturns : ∀ k v, (handler k v).throws = false)
    (s : Expirator K V)
    (now : Int) :
    (s.onTimerWith handler now).threw = false := by
  unfold onTimerWith
  dsimp only
  split_ifs with hRun hThrew
  · simp [processExpiredWith, processKeysWith_returns handler hReturns] at hThrew
  all_goals rfl

------------------------------------------------------------
-- Every Run
------------------------------------------------------------

theorem scheduled_init : Scheduled (init : Expirator K V) :=
  ⟨⟨∅, represents_init⟩, armedWhileRunning_of_stopped rfl⟩

/- Every event that does not run a throwing handler keeps the invariant. -/
theorem Scheduled.step
    {s : Expirator K V}
    (hSched : Scheduled s)
    (now : Int)
    (ev : Event K V)
    (hReturns : ev.Returns) :
    Scheduled (ev.apply now s) := by
  obtain ⟨⟨M, hRep⟩, hArm⟩ := hSched
  cases ev with
  | call op =>
      obtain ⟨M', -, hRep'⟩ := step_spec hRep now op
      exact ⟨⟨M', hRep'⟩, armedWhileRunning_step hRep.toLinked hArm now op⟩
  | start => exact ⟨⟨M, hRep.of_sameTable (sameTable_start s)⟩, armedWhileRunning_start hArm⟩
  | stop =>
      refine ⟨⟨M, hRep.of_sameTable ?_⟩, armedWhileRunning_stop s⟩
      show SameTable s s.stop
      unfold stop
      split_ifs <;> exact ⟨rfl, rfl, rfl⟩
  | complete handler =>
      simp only [Event.apply, deliverWith]
      split
      · split_ifs
        · exact ⟨onTimerWith_represents handler hRep now,
            onTimerWith_armed handler s now (onTimerWith_returns handler hReturns s now)⟩
        · exact ⟨⟨M, hRep⟩, hArm⟩
      · exact ⟨⟨M, hRep⟩, hArm⟩
  | fail =>
      simp only [Event.apply, onTimerError]
      split_ifs with hSome hRun
      · exact ⟨⟨M, hRep.of_sameTable ⟨rfl, rfl, rfl⟩⟩, armedWhileRunning_of_stopped rfl⟩
      · exact ⟨⟨M, hRep.of_sameTable ⟨rfl, rfl, rfl⟩⟩,
          armedWhileRunning_of_stopped (by simpa using hRun)⟩
      · exact ⟨⟨M, hRep⟩, hArm⟩

theorem Scheduled.runEvents
    {s : Expirator K V}
    (hSched : Scheduled s)
    (evs : List (Int × Event K V))
    (hReturns : ∀ x ∈ evs, x.2.Returns) :
    Scheduled (s.runEvents evs) := by
  induction evs generalizing s with
  | nil => exact hSched
  | cons x evs ih =>
      obtain ⟨now, ev⟩ := x
      exact ih (hSched.step now ev (hReturns _ (List.mem_cons_self _ _)))
        fun y hY => hReturns y (List.mem_cons_of_mem _ hY)

/- Every sequence of calls keeps the invariant. -/
theorem Scheduled.run
    {s : Expirator K V}
    (hSched : Scheduled s)
    (ops : List (Int × Op K V)) :
    Scheduled (s.run ops).2 := by
  induction ops generalizing s with
  | nil => exact hSched
  | cons x ops ih => exact ih (hSched.step x.1 (.call x.2) trivial)

/- An armed running expirator with a due entry has its wait completed by now. -/
theorem Scheduled.deliverWith_of_due
    {s : Expirator K V}
    (hSched : Scheduled s)
    (hRun : s.running = true)
    {k : K}
    {e : EntryData V}
    (hE : s.entries.find k = some e)
    {now : Int}
    (hDue : e.expiry ≤ now)
    (handler : K → V → Reaction K V) :
    s.deliverWith handler now = s.onTimerWith handler now := by
  obtain ⟨⟨M, hRep⟩, hArm⟩ := hSched
  obtain ⟨h, hH, hLe⟩ := exists_head_le hRep.sorted (hRep.node_mem hE)
  obtain ⟨t, hT, hTle⟩ := hArm hRun h hH
  simp only [deliverWith, hT]
  exact if_pos (le_trans hTle (le_trans hLe hDue))

/- A key in a linked map gives the queue a first node. -/
theorem Linked.head?_isSome
    {s : Expirator K V}
    (hLink : Linked s)
    {k : K}
    (hK : k ∈ s.entries) :
    s.expiryQueue.head?.isSome := by
  obtain ⟨e, hE⟩ := Option.isSome_iff_exists.mp ((HashMap.mem_iff_find _ _).mp hK)
  cases hQ : s.expiryQueue with
  | nil => simpa [hQ] using hLink.node_mem hE
  | cons n q => rfl

/-
  From the new expirator, over every sequence of calls (`add`,
  `remove`, `update_expiry`, `refresh` with either sign, `clear`,
  `expire_all`), `start`, `stop`, failed waits and completions
  whose handler, with its own calls, returns: a running expirator
  with a first node has its wait armed no later than that node,
  so a due entry's wait has completed by its deadline.  A
  completion whose handler throws at a due entry, with a node
  behind it, leaves the expirator running with nodes and no wait.
-/
theorem io_timer_armed_unless_handler_throws :
    (∀ evs : List (Int × Event K V), (∀ x ∈ evs, x.2.Returns) →
        ArmedWhileRunning ((init : Expirator K V).runEvents evs)) ∧
      (∀ (s : Expirator K V) (evs : List (Int × Event K V)),
        Scheduled s → (∀ x ∈ evs, x.2.Returns) → Scheduled (s.runEvents evs)) ∧
      (∀ (s : Expirator K V) (handler : K → V → Reaction K V) (k : K) (e : EntryData V)
          (now : Int),
        Scheduled s → s.running = true → s.entries.find k = some e → e.expiry ≤ now →
          s.deliverWith handler now = s.onTimerWith handler now) ∧
      ∀ (s : Expirator K V) (now : Int) (handler : K → V → Reaction K V)
        (pre rest : List (QueueNode K)) (n : QueueNode K),
        Scheduled s → s.running = true → s.expiryQueue = pre ++ n :: rest →
          n.expiry ≤ now → (∀ m ∈ pre, ∀ v, handler m.key v = .silent) →
          (∀ v, handler n.key v = ⟨[], true⟩) → rest ≠ [] →
          (s.deliverWith handler now).threw = true ∧
            (s.deliverWith handler now).state.running = true ∧
            (s.deliverWith handler now).state.timer = none ∧
            ¬ ArmedWhileRunning (s.deliverWith handler now).state := by
  refine ⟨fun evs hReturns => (scheduled_init.runEvents evs hReturns).armed,
    fun _ _ hSched hReturns => hSched.runEvents _ hReturns,
    fun _ handler _ _ _ hSched hRun hE hDue => hSched.deliverWith_of_due hRun hE hDue handler,
    fun s now handler pre rest n hSched hRun hQueue hDue hSilent hThrow hRest => ?_⟩
  obtain ⟨M, hRep⟩ := hSched.represents
  obtain ⟨info, hE⟩ :=
    (hRep.mem_queue n).mp (hQueue ▸ List.mem_append_right _ (List.mem_cons_self _ _))
  have hDeliver := hSched.deliverWith_of_due hRun hE hDue handler
  obtain ⟨hThrew, hRunning, hTimer, -, hKeep⟩ := onTimerWith_silent_then_throw s now
    handler hRep.toLinked hRun hQueue hDue hSilent hThrow
  obtain ⟨m, rest', rfl⟩ := List.exists_cons_of_ne_nil hRest
  obtain ⟨hPre, hNe⟩ := hRep.toLinked.keys_after hQueue (List.mem_cons_self m rest')
  obtain ⟨M', hRep'⟩ := onTimerWith_represents handler hRep now
  obtain ⟨h, hH⟩ := Option.isSome_iff_exists.mp (hRep'.toLinked.head?_isSome ((hKeep m.key hPre hNe).mpr
    (hRep.toLinked.key_mem
      (hQueue ▸ List.mem_append_right _ (List.mem_cons_of_mem _ (List.mem_cons_self _ _))))))
  rw [hDeliver]
  refine ⟨hThrew, hRunning, hTimer, fun hArm => ?_⟩
  obtain ⟨t, hT, -⟩ := hArm hRunning h hH
  rw [hTimer] at hT
  cases hT

/-
  Keys 1 and 2 added at clock 0, both due at 5, and a handler
  that throws at key 1: the completion at 5 leaves the expirator
  running with key 2's node and no wait, so key 2 never fires.
-/
theorem throw_at_one_leaves_no_wait :
    ((twoDueEntries.deliverWith throwAtOne 5).threw = true ∧
        (twoDueEntries.deliverWith throwAtOne 5).state.running = true ∧
        (twoDueEntries.deliverWith throwAtOne 5).state.timer = none ∧
        ¬ ArmedWhileRunning (twoDueEntries.deliverWith throwAtOne 5).state) ∧
      (init.runEvents [(0, .call (.add 1 5 ())), (0, .call (.add 2 5 ())),
          (5, .complete throwAtOne)] : Expirator Nat Unit) =
        (twoDueEntries.deliverWith throwAtOne 5).state :=
  ⟨io_timer_armed_unless_handler_throws.2.2.2 twoDueEntries 5 throwAtOne [] [⟨1, 5, 2⟩]
      ⟨0, 5, 1⟩ (scheduled_init.run _) (by decide) (by decide) (by decide)
      (fun _ h => absurd h (List.not_mem_nil _)) (fun _ => rfl) (by decide),
    rfl⟩

end Expirator

end Io

end Networking

end Vex
