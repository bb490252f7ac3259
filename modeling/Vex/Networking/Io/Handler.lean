import Vex.Networking.Io.Timer

/-
  The expiry handler of `io::expirator` running inside the
  firing pass.

  `process_expired` first collects the keys of the queue's due
  prefix.  For each collected key it still finds in `entries_`,
  it drops the node and the entry, then calls the handler.  The
  handler may call `add`, `remove`, `update_expiry` or `refresh`
  on the same expirator before the next key is looked up, and it
  may throw.  No frame of the timer completion catches: an
  exception leaves `process_expired` and the completion before
  `schedule_next` runs.

  A handler is given by what one invocation does for a key and
  its payload: its calls, each at the clock reading it makes it
  at, and whether it then throws.  A handler that returns at once
  gives back `processKeys` of the plain model.

  Key definitions include:
    * `HandlerCall`, `Reaction`, `Pass`
    * `processKeysWith`, `processExpiredWith`, `onTimerWith`

  Key theorems include:
    * `processKeysWith_append`, `processKeysWith_of_silent`
    * `Linked.keys_after`, `onTimerWith_silent_then_throw`
    * `throwing_handler_escapes_completion`
    * `rescheduled_entry_still_fires`
-/

------------------------------------------------------------
-- Handlers
------------------------------------------------------------

namespace Vex

namespace Networking

namespace Io

open Vex.Expirator (HashMap)

namespace Expirator

variable {K V : Type}

/- A call the expiry handler makes back on its own expirator. -/
inductive HandlerCall (K V : Type) where
  | add (key : K) (ttl : Int) (info : V)
  | remove (key : K)
  | updateExpiry (key : K) (ttl : Int)
  | refresh (key : K) (extension : Int)

/- The call as an operation of `step`. -/
def HandlerCall.op : HandlerCall K V → Op K V
  | .add key ttl info => .add key ttl info
  | .remove key => .remove key
  | .updateExpiry key ttl => .updateExpiry key ttl
  | .refresh key extension => .refresh key extension

/-
  One handler invocation: its calls, each with the clock reading
  it is made at, and whether the handler then throws.
-/
structure Reaction (K V : Type) where
  calls : List (Int × HandlerCall K V)
  throws : Bool

/- A handler that returns at once. -/
def Reaction.silent : Reaction K V :=
  ⟨[], false⟩

/-
  What a firing pass leaves: each key handed to the handler, with
  the entry `entries_.find` returned for it, the state, and
  whether an exception escaped.
-/
structure Pass (K V : Type) where
  handed : List (K × EntryData V)
  state : Expirator K V
  threw : Bool

/- The pass goes on with `next` unless an exception escaped. -/
def Pass.andThen
    (r : Pass K V)
    (next : Expirator K V → Pass K V) : Pass K V :=
  if r.threw then r
  else
    let r' := next r.state
    ⟨r.handed ++ r'.handed, r'.state, r'.threw⟩

variable [DecidableEq K]

/- The handler's calls on the expirator, in order. -/
def applyCalls
    (s : Expirator K V)
    (calls : List (Int × HandlerCall K V)) : Expirator K V :=
  (s.run (calls.map fun c => (c.1, c.2.op))).2

/- `expiry_queue_.erase(queue_iter)` and `entries_.erase(entry_it)`. -/
def dropEntry
    (s : Expirator K V)
    (key : K)
    (e : EntryData V) : Expirator K V :=
  { s with
    expiryQueue := eraseNode s.expiryQueue e.queueIter
    entries := s.entries.erase key }

/-
  The second loop of `process_expired` with the handler running
  inside it: each collected key still present is dropped, then
  handed over; the handler's calls act before the next lookup,
  and a throw ends the loop.
-/
def processKeysWith
    (handler : K → V → Reaction K V) :
    List K → Expirator K V → Pass K V
  | [], s => ⟨[], s, false⟩
  | key :: keys, s =>
      match s.entries.find key with
      | some e =>
          let r := handler key e.info
          let s1 := (s.dropEntry key e).applyCalls r.calls
          if r.throws then ⟨[(key, e)], s1, true⟩
          else
            let rest := processKeysWith handler keys s1
            ⟨(key, e) :: rest.handed, rest.state, rest.threw⟩
      | none => processKeysWith handler keys s

/- `process_expired` at `now`, with the handler inside. -/
def processExpiredWith
    (handler : K → V → Reaction K V)
    (s : Expirator K V)
    (now : Int) : Pass K V :=
  processKeysWith handler ((s.expiryQueue.takeWhile (·.expiry ≤ now)).map (·.key)) s

/-
  The completion of the timer wait at `now`: an exception from
  the handler leaves it before `schedule_next`.
-/
def onTimerWith
    (handler : K → V → Reaction K V)
    (s : Expirator K V)
    (now : Int) : Pass K V :=
  let s1 := { s with timer := none }
  if s1.running then
    let r := processExpiredWith handler s1 now
    if r.threw then r
    else ⟨r.handed, if r.state.running then scheduleNext r.state else r.state, false⟩
  else ⟨[], s1, false⟩

------------------------------------------------------------
-- The Firing Loop
------------------------------------------------------------

omit [DecidableEq K] in
@[simp] theorem andThen_of_threw
    (r : Pass K V)
    (next : Expirator K V → Pass K V)
    (hThrew : r.threw = true) :
    r.andThen next = r := by
  simp [Pass.andThen, hThrew]

omit [DecidableEq K] in
theorem andThen_cons
    (x : K × EntryData V)
    (r : Pass K V)
    (next : Expirator K V → Pass K V) :
    Pass.andThen ⟨x :: r.handed, r.state, r.threw⟩ next =
      ⟨x :: (r.andThen next).handed, (r.andThen next).state, (r.andThen next).threw⟩ := by
  by_cases hThrew : r.threw = true <;> simp [Pass.andThen, hThrew]

/- Running the loop over `pre ++ keys` runs it over `pre`, then over `keys`. -/
theorem processKeysWith_append
    (handler : K → V → Reaction K V)
    (pre keys : List K)
    (s : Expirator K V) :
    processKeysWith handler (pre ++ keys) s =
      (processKeysWith handler pre s).andThen (processKeysWith handler keys) := by
  induction pre generalizing s with
  | nil => simp [processKeysWith, Pass.andThen]
  | cons key pre ih =>
      rw [List.cons_append]
      cases hFind : s.entries.find key with
      | none =>
          simp only [processKeysWith, hFind]
          exact ih s
      | some e =>
          simp only [processKeysWith, hFind]
          by_cases hThrow : (handler key e.info).throws = true
          · simp [hThrow, Pass.andThen]
          · simp only [hThrow, Bool.false_eq_true, if_false, ih, andThen_cons]

/- A handler that throws at a present key ends the loop there. -/
theorem processKeysWith_throws
    (handler : K → V → Reaction K V)
    {key : K}
    (keys : List K)
    {s : Expirator K V}
    {e : EntryData V}
    (hFind : s.entries.find key = some e)
    (hThrow : (handler key e.info).throws = true) :
    processKeysWith handler (key :: keys) s =
      ⟨[(key, e)], (s.dropEntry key e).applyCalls (handler key e.info).calls, true⟩ := by
  simp [processKeysWith, hFind, hThrow]

/- Only collected keys are handed over, each at most once per collection. -/
theorem handed_keys_sublist
    (handler : K → V → Reaction K V)
    (keys : List K)
    (s : Expirator K V) :
    ((processKeysWith handler keys s).handed.map (·.1)).Sublist keys := by
  induction keys generalizing s with
  | nil => simp [processKeysWith]
  | cons key keys ih =>
      cases hFind : s.entries.find key with
      | none =>
          simp only [processKeysWith, hFind]
          exact (ih s).cons key
      | some e =>
          simp only [processKeysWith, hFind]
          split
          · simp
          · exact (ih _).cons₂ key

/-
  Over keys at which the handler returns at once, the loop is the
  plain model's `processKeys`.
-/
theorem processKeysWith_of_silent
    (handler : K → V → Reaction K V)
    (keys : List K)
    (hSilent : ∀ key ∈ keys, ∀ v, handler key v = .silent)
    (s : Expirator K V) :
    (processKeysWith handler keys s).handed.map (fun x => (x.1, x.2.info)) =
        (processKeys keys s).1 ∧
      (processKeysWith handler keys s).state = (processKeys keys s).2 ∧
      (processKeysWith handler keys s).threw = false := by
  induction keys generalizing s with
  | nil => exact ⟨rfl, rfl, rfl⟩
  | cons key keys ih =>
      have hRest := ih fun k hK => hSilent k (List.mem_cons_of_mem _ hK)
      cases hFind : s.entries.find key with
      | none =>
          simp only [processKeysWith, processKeys, hFind]
          exact hRest s
      | some e =>
          obtain ⟨hHanded, hState, hThrew⟩ := hRest (s.dropEntry key e)
          simp only [processKeysWith, processKeys, hFind, hSilent key (List.mem_cons_self _ _),
            Reaction.silent, Bool.false_eq_true, if_false, applyCalls, List.map_nil, run]
          exact ⟨by rw [List.map_cons, hHanded]; rfl, hState, hThrew⟩

/- `processKeys` changes only the map and the queue. -/
theorem processKeys_timer
    (keys : List K)
    (s : Expirator K V) :
    (processKeys keys s).2.timer = s.timer := by
  induction keys generalizing s with
  | nil => rfl
  | cons key keys ih =>
      unfold processKeys
      split <;> exact ih _

/- `processKeys` drops only collected keys. -/
theorem mem_processKeys
    {keys : List K}
    {k : K}
    (hK : k ∉ keys)
    (s : Expirator K V) :
    k ∈ (processKeys keys s).2.entries ↔ k ∈ s.entries := by
  induction keys generalizing s with
  | nil => rfl
  | cons key keys ih =>
      have hNe : k ≠ key := fun h => hK (h ▸ List.mem_cons_self _ _)
      unfold processKeys
      split
      · rw [ih (fun h => hK (List.mem_cons_of_mem _ h)), HashMap.mem_erase]
        exact ⟨fun h => h.2, fun h => ⟨hNe, h⟩⟩
      · exact ih (fun h => hK (List.mem_cons_of_mem _ h)) s

/- A node of a linked queue has its key in the map. -/
theorem Linked.key_mem
    {s : Expirator K V}
    (hLink : Linked s)
    {n : QueueNode K}
    (hN : n ∈ s.expiryQueue) :
    n.key ∈ s.entries := by
  obtain ⟨info, hI⟩ := (hLink.mem_queue n).mp hN
  rw [HashMap.mem_iff_find, hI]
  rfl

------------------------------------------------------------
-- A Throwing Handler
------------------------------------------------------------

/-
  The loop over keys at which the handler returns at once, then a
  present key at which it throws: the exception ends the loop
  with only those keys handed over and dropped.
-/
theorem processKeysWith_silent_throw
    (handler : K → V → Reaction K V)
    (pre keys : List K)
    {key : K}
    (s : Expirator K V)
    (hSilent : ∀ k ∈ pre, ∀ v, handler k v = .silent)
    (hFresh : key ∉ pre)
    (hPresent : key ∈ s.entries)
    (hThrow : ∀ v, handler key v = ⟨[], true⟩) :
    (processKeysWith handler (pre ++ key :: keys) s).threw = true ∧
      (processKeysWith handler (pre ++ key :: keys) s).state.running = s.running ∧
      (processKeysWith handler (pre ++ key :: keys) s).state.timer = s.timer ∧
      ((processKeysWith handler (pre ++ key :: keys) s).handed.map (·.1)).Sublist
        (pre ++ [key]) ∧
      ∀ k ∉ pre, k ≠ key →
        (k ∈ (processKeysWith handler (pre ++ key :: keys) s).state.entries ↔ k ∈ s.entries) := by
  obtain ⟨-, hState, hThrew⟩ := processKeysWith_of_silent handler pre hSilent s
  obtain ⟨e, hE⟩ := Option.isSome_iff_exists.mp
    ((HashMap.mem_iff_find _ _).mp ((mem_processKeys hFresh s).mpr hPresent))
  have hPass : processKeysWith handler (pre ++ key :: keys) s =
      ⟨(processKeysWith handler pre s).handed ++ [(key, e)],
        (processKeys pre s).2.dropEntry key e, true⟩ := by
    rw [processKeysWith_append, Pass.andThen, if_neg (by simp [hThrew]), hState,
      processKeysWith_throws handler keys hE (by rw [hThrow]), hThrow]
    rfl
  rw [hPass]
  refine ⟨rfl, processKeys_running pre s, processKeys_timer pre s, ?_, fun k hK hNe => ?_⟩
  · rw [List.map_append]
    exact (handed_keys_sublist handler pre s).append (List.Sublist.refl _)
  · simp only [dropEntry, HashMap.mem_erase, ne_eq, hNe, not_false_eq_true, true_and]
    exact mem_processKeys hK s

/- The keys of the nodes after `n` in a linked queue are neither `n`'s nor any before it. -/
theorem Linked.keys_after
    {s : Expirator K V}
    (hLink : Linked s)
    {pre rest : List (QueueNode K)}
    {n m : QueueNode K}
    (hQueue : s.expiryQueue = pre ++ n :: rest)
    (hM : m ∈ rest) :
    m.key ∉ pre.map (·.key) ∧ m.key ≠ n.key := by
  have hNodup := hLink.nodup_keys
  rw [hQueue] at hNodup
  simp only [List.map_append, List.map_cons, List.nodup_append, List.nodup_cons,
    List.disjoint_cons_right] at hNodup
  obtain ⟨-, ⟨hNRest, -⟩, -, hDisjoint⟩ := hNodup
  exact ⟨fun h => hDisjoint h (List.mem_map_of_mem _ hM),
    fun h => hNRest (h ▸ List.mem_map_of_mem _ hM)⟩

/-
  The completion whose handler returns at once at every node of
  `pre` and throws at the due node `n`: it throws, the expirator
  still running with no wait, having handed over only keys of
  `pre` and `n`; every other key is in the map after it exactly
  when it was before.
-/
theorem onTimerWith_silent_then_throw
    (s : Expirator K V)
    (now : Int)
    (handler : K → V → Reaction K V)
    {pre rest : List (QueueNode K)}
    {n : QueueNode K}
    (hLink : Linked s)
    (hRunning : s.running = true)
    (hQueue : s.expiryQueue = pre ++ n :: rest)
    (hDue : n.expiry ≤ now)
    (hSilent : ∀ m ∈ pre, ∀ v, handler m.key v = .silent)
    (hThrow : ∀ v, handler n.key v = ⟨[], true⟩) :
    (s.onTimerWith handler now).threw = true ∧
      (s.onTimerWith handler now).state.running = true ∧
      (s.onTimerWith handler now).state.timer = none ∧
      ((s.onTimerWith handler now).handed.map (·.1)).Sublist (pre.map (·.key) ++ [n.key]) ∧
      ∀ k ∉ pre.map (·.key), k ≠ n.key →
        (k ∈ (s.onTimerWith handler now).state.entries ↔ k ∈ s.entries) := by
  have hSorted := hLink.sorted
  have hNodup := hLink.nodup_keys
  rw [hQueue] at hSorted hNodup
  have hPreDue : ∀ m ∈ pre, decide (m.expiry ≤ now) = true := fun m hM =>
    decide_eq_true (le_trans
      ((List.pairwise_append.mp hSorted).2.2 m hM n (List.mem_cons_self _ _)) hDue)
  simp only [List.map_append, List.map_cons, List.nodup_append, List.nodup_cons] at hNodup
  obtain ⟨hThrew, hRun, hTimer, hSub, hKeep⟩ := processKeysWith_silent_throw handler
    (pre.map (·.key)) ((rest.takeWhile (·.expiry ≤ now)).map (·.key))
    { s with timer := none } (by simpa using hSilent) (fun h => hNodup.2.2 h (List.mem_cons_self _ _))
    (hLink.key_mem (hQueue ▸ List.mem_append_right _ (List.mem_cons_self _ _))) hThrow
  have hKeys : (s.expiryQueue.takeWhile (·.expiry ≤ now)).map (·.key) =
      pre.map (·.key) ++ n.key :: (rest.takeWhile (·.expiry ≤ now)).map (·.key) := by
    simp only [hQueue, List.takeWhile_append_of_pos hPreDue, List.takeWhile_cons, hDue,
      decide_True, if_true, List.map_append, List.map_cons]
  have hPass : s.onTimerWith handler now =
      processKeysWith handler (pre.map (·.key) ++
        n.key :: (rest.takeWhile (·.expiry ≤ now)).map (·.key)) { s with timer := none } := by
    unfold onTimerWith processExpiredWith
    dsimp only
    rw [if_pos hRunning, hKeys, if_pos hThrew]
  rw [hPass]
  exact ⟨hThrew, hRun.trans hRunning, hTimer, hSub, hKeep⟩

/-
  A handler that throws at a due entry, after returning at once
  at every earlier one: the exception leaves the timer
  completion, the expirator still reports itself running with no
  wait pending, and no later node of the queue, due or not, is
  handed over or dropped.
-/
theorem throwing_handler_escapes_completion
    (s : Expirator K V)
    (now : Int)
    (handler : K → V → Reaction K V)
    {pre rest : List (QueueNode K)}
    {n : QueueNode K}
    (hLink : Linked s)
    (hRunning : s.running = true)
    (hQueue : s.expiryQueue = pre ++ n :: rest)
    (hDue : n.expiry ≤ now)
    (hSilent : ∀ m ∈ pre, ∀ v, handler m.key v = .silent)
    (hThrow : ∀ v, handler n.key v = ⟨[], true⟩) :
    (s.onTimerWith handler now).threw = true ∧
      (s.onTimerWith handler now).state.running = true ∧
      (s.onTimerWith handler now).state.timer = none ∧
      ∀ m ∈ rest, m.key ∈ (s.onTimerWith handler now).state.entries ∧
        m.key ∉ (s.onTimerWith handler now).handed.map (·.1) := by
  obtain ⟨hThrew, hRun, hTimer, hSub, hKeep⟩ :=
    onTimerWith_silent_then_throw s now handler hLink hRunning hQueue hDue hSilent hThrow
  refine ⟨hThrew, hRun, hTimer, fun m hM => ?_⟩
  obtain ⟨hPre, hNe⟩ := hLink.keys_after hQueue hM
  refine ⟨(hKeep m.key hPre hNe).mpr
    (hLink.key_mem (hQueue ▸ List.mem_append_right _ (List.mem_cons_of_mem _ hM))), fun hIn => ?_⟩
  rcases List.mem_append.mp (hSub.subset hIn) with hIn | hIn
  · exact hPre hIn
  · exact hNe (List.mem_singleton.mp hIn)

/- Keys 1 and 2 added at clock 0, both due at 5. -/
def twoDueEntries : Expirator Nat Unit :=
  (init.run [(0, .add 1 5 ()), (0, .add 2 5 ())]).2

/- A handler that throws for key 1 and returns at once otherwise. -/
def throwAtOne : Nat → Unit → Reaction Nat Unit :=
  fun k _ => if k = 1 then ⟨[], true⟩ else .silent

/- The completion at 5 with `throwAtOne`: key 2 is never handed over. -/
theorem throwing_handler_escapes_at_first_key :
    Linked twoDueEntries ∧ twoDueEntries.running = true ∧
      twoDueEntries.expiryQueue = [] ++ ⟨0, 5, 1⟩ :: [⟨1, 5, 2⟩] ∧
      (twoDueEntries.onTimerWith throwAtOne 5).threw = true ∧
      (twoDueEntries.onTimerWith throwAtOne 5).state.running = true ∧
      (twoDueEntries.onTimerWith throwAtOne 5).state.timer = none ∧
      ∀ m ∈ [(⟨1, 5, 2⟩ : QueueNode Nat)],
        m.key ∈ (twoDueEntries.onTimerWith throwAtOne 5).state.entries ∧
          m.key ∉ (twoDueEntries.onTimerWith throwAtOne 5).handed.map (·.1) := by
  have hLink : Linked twoDueEntries :=
    (run_spec represents_init _).elim fun _ h => h.2.toLinked
  have hQueue : twoDueEntries.expiryQueue = [] ++ ⟨0, 5, 1⟩ :: [⟨1, 5, 2⟩] := by decide
  exact ⟨hLink, by decide, hQueue, throwing_handler_escapes_completion twoDueEntries 5
    throwAtOne hLink (by decide) hQueue (by decide)
    (fun _ h => absurd h (List.not_mem_nil _)) (fun _ => rfl)⟩

------------------------------------------------------------
-- A Handler That Moves Another Entry
------------------------------------------------------------

/- `requeue` gives a present key its new expiry and a fresh iterator. -/
theorem find_requeue_self
    (s : Expirator K V)
    (key : K)
    (newExpiry : Int → Int)
    {e : EntryData V}
    (hE : s.entries.find key = some e) :
    (s.requeue key newExpiry).2.entries.find key =
      some { e with expiry := newExpiry e.expiry, queueIter := s.nextNode } := by
  simp only [requeue, hE]
  rw [(sameTable_rearmIfFirst _ _).1]
  exact HashMap.find_insert _ _ _

/- `add` of an absent key stores its deadline, payload and iterator. -/
theorem find_add_self
    (s : Expirator K V)
    (now : Int)
    {key : K}
    (ttl : Int)
    (info : V)
    (hAbsent : key ∉ s.entries) :
    (s.add now key ttl info).2.entries.find key = some ⟨now + ttl, info, s.nextNode⟩ := by
  simp only [add, hAbsent, if_false]
  split_ifs
  · rw [(sameTable_scheduleNext _).1]
    exact HashMap.find_insert _ _ _
  · rw [(sameTable_start _).1]
    exact HashMap.find_insert _ _ _
  · exact HashMap.find_insert _ _ _

/-
  The second collected key is handed over with whatever entry the
  first handler's calls left it: its deadline is not read again.
-/
theorem processKeysWith_hands_second
    (handler : K → V → Reaction K V)
    {j k : K}
    (keys : List K)
    {s : Expirator K V}
    {ej e : EntryData V}
    (hJ : s.entries.find j = some ej)
    (hReturns : (handler j ej.info).throws = false)
    (hK : ((s.dropEntry j ej).applyCalls (handler j ej.info).calls).entries.find k = some e) :
    (k, e) ∈ (processKeysWith handler (j :: k :: keys) s).handed := by
  simp only [processKeysWith, hJ, hReturns, Bool.false_eq_true, if_false, hK]
  split <;> simp

/-
  Two due entries at the front of the queue, the first one's
  handler moving the second past `now`, by `update_expiry` or by
  `remove` and `add`: the pass still hands the second over, with
  a deadline after `now`.
-/
theorem rescheduled_entry_still_fires
    (s : Expirator K V)
    (now t ttl : Int)
    (info : V)
    {nj nk : QueueNode K}
    {rest : List (QueueNode K)}
    (hLink : Linked s)
    (hQueue : s.expiryQueue = nj :: nk :: rest)
    (hDue : nk.expiry ≤ now)
    (hLate : now < t + ttl) :
    (∀ handler : K → V → Reaction K V,
        (∀ v, handler nj.key v = ⟨[(t, .updateExpiry nk.key ttl)], false⟩) →
        ∃ e, (nk.key, e) ∈ (s.processExpiredWith handler now).handed ∧ now < e.expiry) ∧
      ∀ handler : K → V → Reaction K V,
        (∀ v, handler nj.key v = ⟨[(t, .remove nk.key), (t, .add nk.key ttl info)], false⟩) →
        ∃ e, (nk.key, e) ∈ (s.processExpiredWith handler now).handed ∧ now < e.expiry := by
  have hSorted := hLink.sorted
  have hNodup := hLink.nodup_keys
  rw [hQueue] at hSorted hNodup
  have hJDue : nj.expiry ≤ now :=
    le_trans ((List.sorted_cons.mp hSorted).1 nk (List.mem_cons_self _ _)) hDue
  have hNe : nk.key ≠ nj.key := fun h =>
    (List.nodup_cons.mp hNodup).1 (List.mem_map.mpr ⟨nk, List.mem_cons_self _ _, h⟩)
  have hKeys : (s.expiryQueue.takeWhile (·.expiry ≤ now)).map (·.key) =
      nj.key :: nk.key :: (rest.takeWhile (·.expiry ≤ now)).map (·.key) := by
    simp only [hQueue, List.takeWhile_cons, hJDue, hDue, decide_True, if_true, List.map_cons]
  obtain ⟨ij, hJ⟩ := (hLink.mem_queue nj).mp (hQueue ▸ List.mem_cons_self _ _)
  obtain ⟨ik, hK⟩ := (hLink.mem_queue nk).mp
    (hQueue ▸ List.mem_cons_of_mem _ (List.mem_cons_self _ _))
  have hKDrop : (s.dropEntry nj.key ⟨nj.expiry, ij, nj.id⟩).entries.find nk.key =
      some ⟨nk.expiry, ik, nk.id⟩ := by
    rw [dropEntry, HashMap.find_erase_ne _ hNe, hK]
  /- Whatever entry the first handler's calls leave for `nk` is handed over. -/
  have hHands : ∀ (handler : K → V → Reaction K V) calls,
      (∀ v, handler nj.key v = ⟨calls, false⟩) → ∀ e,
        ((s.dropEntry nj.key ⟨nj.expiry, ij, nj.id⟩).applyCalls calls).entries.find nk.key =
          some e → e.expiry = t + ttl →
        ∃ e, (nk.key, e) ∈ (s.processExpiredWith handler now).handed ∧ now < e.expiry :=
    fun handler _ hMove e hE hExpiry => ⟨e, by
      rw [processExpiredWith, hKeys]
      exact processKeysWith_hands_second handler _ hJ (by rw [hMove]) (by rw [hMove]; exact hE),
      hExpiry ▸ hLate⟩
  have hRemoved : nk.key ∉ ((s.dropEntry nj.key ⟨nj.expiry, ij, nj.id⟩).remove
      nk.key).2.entries := by
    simp [remove, hKDrop]
  exact ⟨fun handler hMove => hHands handler _ hMove _ (find_requeue_self _ _ _ hKDrop) rfl,
    fun handler hMove => hHands handler _ hMove _ (find_add_self _ t ttl info hRemoved) rfl⟩

/- The handler of key 1 moves key 2 to 15 by `update_expiry`. -/
def moveTwo : Nat → Unit → Reaction Nat Unit :=
  fun k _ => if k = 1 then ⟨[(5, .updateExpiry 2 10)], false⟩ else .silent

/- The handler of key 1 removes key 2 and adds it again, due at 15. -/
def readdTwo : Nat → Unit → Reaction Nat Unit :=
  fun k _ => if k = 1 then ⟨[(5, .remove 2), (5, .add 2 10 ())], false⟩ else .silent

/- The pass at 5 hands key 2 over with a deadline of 15, either way. -/
theorem rescheduled_entry_fires_at_five :
    Linked twoDueEntries ∧ twoDueEntries.expiryQueue = [⟨0, 5, 1⟩, ⟨1, 5, 2⟩] ∧
      (∃ e, (2, e) ∈ (twoDueEntries.processExpiredWith moveTwo 5).handed ∧ 5 < e.expiry) ∧
      ∃ e, (2, e) ∈ (twoDueEntries.processExpiredWith readdTwo 5).handed ∧ 5 < e.expiry := by
  have hLink : Linked twoDueEntries :=
    (run_spec represents_init _).elim fun _ h => h.2.toLinked
  have hQueue : twoDueEntries.expiryQueue = [⟨0, 5, 1⟩, ⟨1, 5, 2⟩] := by decide
  have hFires := rescheduled_entry_still_fires twoDueEntries 5 5 10 () hLink hQueue
    (by decide) (by decide)
  exact ⟨hLink, hQueue, hFires.1 moveTwo fun _ => rfl, hFires.2 readdTwo fun _ => rfl⟩

end Expirator

end Io

end Networking

end Vex
