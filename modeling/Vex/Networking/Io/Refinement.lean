import Vex.Networking.Io.Expirator

/-
  `io::expirator` refines the abstract store.

  `Linked s` is the one-to-one correspondence between `entries_`
  and `expiry_queue_`: a node is in the queue exactly when the
  map holds its key with its expiry and its iterator; the queue
  is ordered by expiry, and node numbers are distinct and below
  the next one.  `Represents s M` adds that `entries_` holds
  exactly the entries of `M`.

  Main declarations:
    * `Linked`, `Represents`
    * `Represents.push`, `Represents.dropKey`
    * `add_spec`, `requeue_spec`, `remove_spec`
    * `expireAll_spec`, `processExpired_spec`
    * `io_expirator_refines_store`
-/

------------------------------------------------------------
-- Representation
------------------------------------------------------------

namespace Vex

namespace Networking

namespace Io

open Vex.Expirator (Store Entry HashMap Action Output)

namespace Expirator

variable {K V : Type} [DecidableEq K]

/- `entries_` and `expiry_queue_` in one-to-one correspondence. -/
structure Linked (s : Expirator K V) : Prop where
  sorted : s.expiryQueue.Sorted (fun a b => a.expiry ≤ b.expiry)
  nodup : (s.expiryQueue.map (·.id)).Nodup
  fresh : ∀ n ∈ s.expiryQueue, n.id < s.nextNode
  mem_queue :
    ∀ n, n ∈ s.expiryQueue ↔
      ∃ info, s.entries.find n.key = some ⟨n.expiry, info, n.id⟩

/- A linked expirator holding exactly the entries of `M`. -/
structure Represents
    (s : Expirator K V)
    (M : Store K V) extends Linked s : Prop where
  view : ∀ k, M.find k = (s.entries.find k).map EntryData.view

/- An entry's iterator points at its own `(expiry, key)` node. -/
theorem Linked.node_mem
    {s : Expirator K V}
    (hLink : Linked s)
    {k : K}
    {e : EntryData V}
    (hE : s.entries.find k = some e) :
    ⟨e.queueIter, e.expiry, k⟩ ∈ s.expiryQueue :=
  (hLink.mem_queue _).mpr ⟨e.info, hE⟩

/- Two nodes with the same number are the same node. -/
theorem Linked.eq_of_id
    {s : Expirator K V}
    (hLink : Linked s)
    {x y : QueueNode K}
    (hX : x ∈ s.expiryQueue)
    (hY : y ∈ s.expiryQueue)
    (hId : x.id = y.id) :
    x = y :=
  List.inj_on_of_nodup_map hLink.nodup hX hY hId

/- No key has two nodes. -/
theorem Linked.nodup_keys
    {s : Expirator K V}
    (hLink : Linked s) :
    (s.expiryQueue.map (·.key)).Nodup := by
  refine List.Nodup.map_on (fun x hX y hY hKey => ?_)
    (List.Nodup.of_map _ hLink.nodup)
  obtain ⟨i, hI⟩ := (hLink.mem_queue x).mp hX
  obtain ⟨j, hJ⟩ := (hLink.mem_queue y).mp hY
  rw [hKey, hJ, Option.some.injEq, EntryData.mk.injEq] at hI
  cases x; cases y
  simp_all

theorem Represents.mem_iff
    {s : Expirator K V}
    {M : Store K V}
    (hRep : Represents s M)
    (k : K) :
    k ∈ M ↔ k ∈ s.entries := by
  rw [HashMap.mem_iff_find, HashMap.mem_iff_find, hRep.view]
  cases s.entries.find k <;> simp

/- `Represents` reads the map only through `find`. -/
theorem Represents.congr
    {s t : Expirator K V}
    {M M' : Store K V}
    (hRep : Represents s M)
    (hEntries : ∀ k, t.entries.find k = s.entries.find k)
    (hQueue : t.expiryQueue = s.expiryQueue)
    (hNext : t.nextNode = s.nextNode)
    (hStore : ∀ k, M'.find k = M.find k) :
    Represents t M' where
  sorted := hQueue ▸ hRep.sorted
  nodup := hQueue ▸ hRep.nodup
  fresh := hQueue ▸ hNext ▸ hRep.fresh
  mem_queue n := by rw [hQueue, hEntries]; exact hRep.mem_queue n
  view k := by rw [hStore, hEntries]; exact hRep.view k

/- `t` keeps the map, the queue and the numbering of `s`. -/
def SameTable (s t : Expirator K V) : Prop :=
  t.entries = s.entries ∧ t.expiryQueue = s.expiryQueue ∧
    t.nextNode = s.nextNode

theorem Represents.of_sameTable
    {s t : Expirator K V}
    {M : Store K V}
    (hRep : Represents s M)
    (hSame : SameTable s t) :
    Represents t M :=
  hRep.congr (fun k => by rw [hSame.1]) hSame.2.1 hSame.2.2 fun _ => rfl

------------------------------------------------------------
-- Timer Operations
------------------------------------------------------------

omit [DecidableEq K] in
theorem sameTable_scheduleNext (s : Expirator K V) :
    SameTable s s.scheduleNext := by
  unfold scheduleNext
  split <;> exact ⟨rfl, rfl, rfl⟩

omit [DecidableEq K] in
theorem sameTable_start (s : Expirator K V) :
    SameTable s s.start := by
  unfold start
  split
  · exact sameTable_scheduleNext _
  · exact ⟨rfl, rfl, rfl⟩

omit [DecidableEq K] in
theorem sameTable_rearmIfFirst
    (s : Expirator K V)
    (id : Nat) :
    SameTable s (s.rearmIfFirst id) := by
  unfold rearmIfFirst
  split
  · exact sameTable_scheduleNext (cancel s)
  · exact ⟨rfl, rfl, rfl⟩

------------------------------------------------------------
-- Placing and Dropping Nodes
------------------------------------------------------------

/- Placing a fresh node for an absent key adds its entry to `M`. -/
theorem Represents.push
    {s : Expirator K V}
    {M : Store K V}
    (hRep : Represents s M)
    {key : K}
    (hAbsent : key ∉ s.entries)
    (expiry : Int)
    (info : V) :
    Represents { s with
        expiryQueue := emplace s.expiryQueue ⟨s.nextNode, expiry, key⟩
        nextNode := s.nextNode + 1
        entries := s.entries.insert key ⟨expiry, info, s.nextNode⟩ }
      (M.insert key ⟨expiry, info⟩) where
  sorted := emplace_sorted _ _ hRep.sorted
  nodup := by
    rw [emplace, ((List.perm_orderedInsert _ _ _).map _).nodup_iff,
      List.map_cons, List.nodup_cons]
    exact ⟨fun hIn => by
      obtain ⟨n, hN, hId⟩ := List.mem_map.mp hIn
      exact absurd (hRep.fresh n hN) (by simp [hId]), hRep.nodup⟩
  fresh n hN := by
    rcases (mem_emplace _ _ n).mp hN with rfl | hN
    · exact Nat.lt_succ_self _
    · exact Nat.lt_succ_of_lt (hRep.fresh n hN)
  mem_queue n := by
    rw [mem_emplace]
    by_cases hKey : n.key = key
    · rw [hKey, HashMap.find_insert]
      have hOld : n ∉ s.expiryQueue := fun hN => hAbsent <| by
        obtain ⟨i, hI⟩ := (hRep.mem_queue n).mp hN
        rw [HashMap.mem_iff_find, ← hKey, hI]
        rfl
      cases n
      simp only at hKey
      subst hKey
      simp [hOld, and_comm, eq_comm]
    · rw [HashMap.find_insert_ne _ _ hKey, ← hRep.mem_queue]
      constructor
      · rintro (rfl | hN)
        · exact absurd rfl hKey
        · exact hN
      · exact .inr
  view k := by
    by_cases hKey : k = key
    · subst hKey
      simp [EntryData.view]
    · rw [HashMap.find_insert_ne _ _ hKey, HashMap.find_insert_ne _ _ hKey]
      exact hRep.view k

/- Dropping a present key and its node removes it from `M`. -/
theorem Represents.dropKey
    {s : Expirator K V}
    {M : Store K V}
    (hRep : Represents s M)
    {key : K}
    {e : EntryData V}
    (hE : s.entries.find key = some e) :
    Represents { s with
        expiryQueue := eraseNode s.expiryQueue e.queueIter
        entries := s.entries.erase key }
      (M.erase key) where
  sorted := hRep.sorted.filter _
  nodup := hRep.nodup.sublist ((List.filter_sublist _).map _)
  fresh n hN := hRep.fresh n ((mem_eraseNode _ _ n).mp hN).1
  mem_queue n := by
    rw [mem_eraseNode]
    by_cases hKey : n.key = key
    · rw [hKey, HashMap.find_erase]
      simp only [reduceCtorEq, exists_false, iff_false, not_and]
      intro hN hId
      obtain ⟨i, hI⟩ := (hRep.mem_queue n).mp hN
      rw [hKey, hE, Option.some.injEq] at hI
      exact hId (congrArg EntryData.queueIter hI).symm
    · rw [HashMap.find_erase_ne _ hKey, ← hRep.mem_queue]
      refine ⟨fun h => h.1, fun hN => ⟨hN, fun hId => hKey ?_⟩⟩
      have hSame := hRep.eq_of_id hN (hRep.node_mem hE) hId
      rw [hSame]
  view k := by
    by_cases hKey : k = key
    · subst hKey
      simp
    · rw [HashMap.find_erase_ne _ hKey, HashMap.find_erase_ne _ hKey]
      exact hRep.view k

------------------------------------------------------------
-- Operations
------------------------------------------------------------

/- `add` inserts exactly when the key is absent, and says so. -/
theorem add_spec
    {s : Expirator K V}
    {M : Store K V}
    (hRep : Represents s M)
    (now : Int)
    (key : K)
    (ttl : Int)
    (info : V) :
    (s.add now key ttl info).1 = (M.add key (now + ttl) info).1 ∧
      Represents (s.add now key ttl info).2 (M.add key (now + ttl) info).2 := by
  by_cases hK : key ∈ s.entries
  · have hM : key ∈ M := (hRep.mem_iff key).mpr hK
    simp only [add, Store.add, hK, hM, if_true]
    exact ⟨trivial, hRep⟩
  · have hM : key ∉ M := fun h => hK ((hRep.mem_iff key).mp h)
    simp only [add, Store.add, hK, hM, if_false, true_and]
    have hPush := hRep.push hK (now + ttl) info
    split_ifs
    · exact hPush.of_sameTable (sameTable_scheduleNext _)
    · exact hPush.of_sameTable (sameTable_start _)
    · exact hPush

/-
  `requeue` moves a present key to the new expiry and keeps its
  payload, and leaves an absent key alone.
-/
theorem requeue_spec
    {s : Expirator K V}
    {M : Store K V}
    (hRep : Represents s M)
    (key : K)
    (newExpiry : Int → Int) :
    (s.requeue key newExpiry).1 =
        (M.reschedule key fun e => newExpiry e.deadline).1 ∧
      Represents (s.requeue key newExpiry).2
        (M.reschedule key fun e => newExpiry e.deadline).2 := by
  unfold requeue Store.reschedule
  rw [hRep.view key]
  cases hE : s.entries.find key with
  | none => exact ⟨rfl, hRep⟩
  | some e =>
      refine ⟨rfl, ?_⟩
      have hDrop := hRep.dropKey hE
      have hPush := hDrop.push (show key ∉ s.entries.erase key by simp)
        (newExpiry e.expiry) e.info
      refine Represents.of_sameTable ?_ (sameTable_rearmIfFirst _ _)
      refine hPush.congr (fun k => ?_) rfl rfl fun k => ?_
      · by_cases hKey : k = key
        · subst hKey
          simp
        · simp [HashMap.find_insert_ne _ _ hKey, HashMap.find_erase_ne _ hKey]
      · by_cases hKey : k = key
        · subst hKey
          simp [EntryData.view]
        · simp [HashMap.find_insert_ne _ _ hKey, HashMap.find_erase_ne _ hKey]

/- `update_expiry` moves a present key's deadline to `now + ttl`. -/
theorem updateExpiry_spec
    {s : Expirator K V}
    {M : Store K V}
    (hRep : Represents s M)
    (now : Int)
    (key : K)
    (ttl : Int) :
    (s.updateExpiry now key ttl).1 =
        (M.reschedule key fun _ => now + ttl).1 ∧
      Represents (s.updateExpiry now key ttl).2
        (M.reschedule key fun _ => now + ttl).2 :=
  requeue_spec hRep key _

/- `refresh` moves a present key's deadline `extension` later. -/
theorem refresh_spec
    {s : Expirator K V}
    {M : Store K V}
    (hRep : Represents s M)
    (key : K)
    (extension : Int) :
    (s.refresh key extension).1 =
        (M.reschedule key fun e => e.deadline + extension).1 ∧
      Represents (s.refresh key extension).2
        (M.reschedule key fun e => e.deadline + extension).2 :=
  requeue_spec hRep key _

/- `remove` drops a present key, and says whether there was one. -/
theorem remove_spec
    {s : Expirator K V}
    {M : Store K V}
    (hRep : Represents s M)
    (key : K) :
    (s.remove key).1 = (M.remove key).1 ∧
      Represents (s.remove key).2 (M.remove key).2 := by
  unfold remove Store.remove
  cases hE : s.entries.find key with
  | none =>
      have hM : key ∉ M := by
        rw [hRep.mem_iff, HashMap.mem_iff_find, hE]
        simp
      simp only [hM, if_false]
      exact ⟨trivial, hRep⟩
  | some e =>
      have hM : key ∈ M := by
        rw [hRep.mem_iff, HashMap.mem_iff_find, hE]
        rfl
      simp only [hM, if_true]
      exact ⟨trivial, hRep.dropKey hE⟩

omit [DecidableEq K] in
theorem clear_running (s : Expirator K V) : s.clear.running = false := by
  simp only [clear]
  split <;> simp_all

theorem represents_clear (s : Expirator K V) :
    Represents s.clear (∅ : Store K V) := by
  have hEmpty : Represents { s with entries := ∅, expiryQueue := [] }
      (∅ : Store K V) :=
    ⟨⟨List.sorted_nil, List.nodup_nil, fun _ h => absurd h (List.not_mem_nil _),
      fun n => by simp⟩, fun k => by simp⟩
  simp only [clear]
  split
  · exact hEmpty.of_sameTable ⟨rfl, rfl, rfl⟩
  · exact hEmpty

/-
  `expire_all` hands every entry over once, with its payload,
  empties the store and stops.
-/
theorem expireAll_spec
    {s : Expirator K V}
    {M : Store K V}
    (hRep : Represents s M) :
    ∃ fired, M.Hands (fun _ => True) fired ∧
      s.expireAll.1 = Store.calls fired ∧
      Represents s.expireAll.2 ∅ ∧ s.expireAll.2.running = false := by
  refine ⟨s.entries.entries.map fun x => ⟨x.1, x.2.view⟩,
    ⟨?_, fun k e => ?_⟩, ?_, represents_clear s, clear_running s⟩
  · rw [List.map_map]
    exact s.entries.nodupKeys
  · rw [hRep.view, and_true, Option.map_eq_some']
    simp only [List.mem_map, HashMap.find_eq_some_iff]
    constructor
    · rintro ⟨⟨k', ed⟩, hMem, hEq⟩
      obtain ⟨rfl, hView⟩ := Sigma.mk.inj_iff.mp hEq
      exact ⟨ed, hMem, eq_of_heq hView⟩
    · rintro ⟨ed, hMem, rfl⟩
      exact ⟨⟨k, ed⟩, hMem, rfl⟩
  · simp [expireAll, Store.calls, EntryData.view]

------------------------------------------------------------
-- Firing Passes
------------------------------------------------------------

/- In a queue ordered by expiry, every due node is in the due prefix. -/
omit [DecidableEq K] in
theorem mem_takeWhile_of_due
    {q : List (QueueNode K)}
    (hSorted : q.Sorted (fun a b => a.expiry ≤ b.expiry))
    {now : Int}
    {n : QueueNode K}
    (hN : n ∈ q)
    (hDue : n.expiry ≤ now) :
    n ∈ q.takeWhile (·.expiry ≤ now) := by
  induction q with
  | nil => exact absurd hN (List.not_mem_nil _)
  | cons m q ih =>
      have hM := List.sorted_cons.mp hSorted
      rcases List.mem_cons.mp hN with rfl | hN
      · simp [List.takeWhile_cons, hDue]
      · have hMDue : m.expiry ≤ now := le_trans (hM.1 n hN) hDue
        simp only [List.takeWhile_cons, hMDue, decide_True, if_true]
        exact List.mem_cons_of_mem _ (ih hM.2 hN)

/- Erasing the keys of `ns` one after another. -/
theorem find_foldl_erase
    (ns : List (QueueNode K))
    (M : Store K V)
    (k : K) :
    (ns.foldl (fun M n => M.erase n.key) M).find k =
      if k ∈ ns.map (·.key) then none else M.find k := by
  induction ns generalizing M with
  | nil => simp
  | cons n ns ih =>
      rw [List.foldl_cons, ih]
      by_cases hKey : k = n.key
      · simp [hKey]
      · simp [hKey, HashMap.find_erase_ne _ hKey]

/-
  The second loop of `process_expired`, over the keys of queue
  nodes `ns`: each is handed over with its stored payload and
  dropped.
-/
theorem processKeys_spec
    (ns : List (QueueNode K))
    {s : Expirator K V}
    {M : Store K V}
    (hRep : Represents s M)
    (hIn : ∀ n ∈ ns, n ∈ s.expiryQueue)
    (hNodup : (ns.map (·.id)).Nodup) :
    ∃ fired : List (Σ _ : K, Entry V),
      fired.map (fun x => (x.1, x.2.deadline)) =
          ns.map (fun n => (n.key, n.expiry)) ∧
        (∀ x ∈ fired, M.find x.1 = some x.2) ∧
        (processKeys (ns.map (·.key)) s).1 = Store.calls fired ∧
        Represents (processKeys (ns.map (·.key)) s).2
          (ns.foldl (fun M n => M.erase n.key) M) := by
  induction ns generalizing s M with
  | nil => exact ⟨[], rfl, fun _ h => absurd h (List.not_mem_nil _), rfl, hRep⟩
  | cons n ns ih =>
      obtain ⟨info, hE⟩ := (hRep.mem_queue n).mp (hIn n (List.mem_cons_self _ _))
      obtain ⟨hFresh, hNodup'⟩ := List.nodup_cons.mp hNodup
      have hRest : ∀ m ∈ ns, m ∈ eraseNode s.expiryQueue n.id := fun m hM =>
        (mem_eraseNode _ _ m).mpr ⟨hIn m (List.mem_cons_of_mem _ hM),
          fun hId => hFresh (List.mem_map.mpr ⟨m, hM, hId⟩)⟩
      obtain ⟨fired, hMap, hFind, hCalls, hRep'⟩ :=
        ih (hRep.dropKey hE) hRest hNodup'
      have hRun : processKeys ((n :: ns).map (·.key)) s =
          ((n.key, info) :: (processKeys (ns.map (·.key)) { s with
              expiryQueue := eraseNode s.expiryQueue n.id
              entries := s.entries.erase n.key }).1,
            (processKeys (ns.map (·.key)) { s with
              expiryQueue := eraseNode s.expiryQueue n.id
              entries := s.entries.erase n.key }).2) := by
        simp only [List.map_cons, processKeys, hE]
      refine ⟨⟨n.key, ⟨n.expiry, info⟩⟩ :: fired, by simp [hMap], fun x hX => ?_,
        by rw [hRun, hCalls]; rfl, by rw [hRun]; exact hRep'⟩
      rcases List.mem_cons.mp hX with rfl | hX
      · rw [hRep.view, hE]
        rfl
      · have hOld := hFind x hX
        by_cases hKey : x.1 = n.key
        · rw [hKey, HashMap.find_erase] at hOld
          cases hOld
        · rwa [HashMap.find_erase_ne _ hKey] at hOld

/-
  `process_expired` at `now` hands every due entry to the handler
  once, with its stored payload, in non-decreasing deadline
  order, and keeps exactly the entries due later.
-/
theorem processExpired_spec
    {s : Expirator K V}
    {M : Store K V}
    (hRep : Represents s M)
    (now : Int) :
    ∃ fired, M.Hands (fun e => e.deadline ≤ now) fired ∧
      fired.Sorted (fun a b => a.2.deadline ≤ b.2.deadline) ∧
      (s.processExpired now).1 = Store.calls fired ∧
      Represents (s.processExpired now).2 (M.retain now) := by
  have hSub : (s.expiryQueue.takeWhile (·.expiry ≤ now)).Sublist s.expiryQueue :=
    List.takeWhile_sublist _
  set due := s.expiryQueue.takeWhile (·.expiry ≤ now)
  obtain ⟨fired, hMap, hFind, hCalls, hRep'⟩ := processKeys_spec due hRep
    (fun n hN => hSub.subset hN) (hRep.nodup.sublist (hSub.map _))
  have hKeys : fired.map Sigma.fst = due.map (·.key) := by
    simpa [List.map_map, Function.comp_def] using congrArg (List.map Prod.fst) hMap
  /- A key of `M` is collected exactly when its entry is due. -/
  have hDueKey : ∀ k e, M.find k = some e →
      (k ∈ due.map (·.key) ↔ e.deadline ≤ now) := by
    intro k e hE
    rw [hRep.view] at hE
    obtain ⟨ed, hEd, rfl⟩ := Option.map_eq_some'.mp hE
    constructor
    · rintro hK
      obtain ⟨n, hN, rfl⟩ := List.mem_map.mp hK
      obtain ⟨i, hI⟩ := (hRep.mem_queue n).mp (hSub.subset hN)
      rw [hEd, Option.some.injEq] at hI
      rw [show ed.view.deadline = n.expiry from congrArg EntryData.expiry hI]
      simpa using List.mem_takeWhile_imp hN
    · intro hLe
      exact List.mem_map_of_mem _
        (mem_takeWhile_of_due hRep.sorted (hRep.node_mem hEd) hLe)
  refine ⟨fired, ⟨?_, fun k e => ⟨fun hX => ?_, fun ⟨hE, hLe⟩ => ?_⟩⟩, ?_, hCalls, ?_⟩
  · rw [hKeys]
    exact hRep.nodup_keys.sublist (hSub.map _)
  · have hE := hFind _ hX
    exact ⟨hE, (hDueKey k e hE).mp
      (hKeys ▸ List.mem_map_of_mem Sigma.fst hX)⟩
  · obtain ⟨x, hX, hK⟩ := List.mem_map.mp (hKeys ▸ (hDueKey k e hE).mpr hLe)
    have hX' := hFind x hX
    rw [hK, hE, Option.some.injEq] at hX'
    obtain ⟨k', e'⟩ := x
    cases hK
    cases hX'
    exact hX
  · have hSorted : (fired.map fun x => (x.1, x.2.deadline)).Pairwise
        (fun p q => p.2 ≤ q.2) := by
      rw [hMap, List.pairwise_map]
      exact hRep.sorted.sublist hSub
    have hFired := List.pairwise_map.mp hSorted
    exact hFired
  · refine hRep'.congr (fun _ => rfl) rfl rfl fun k => ?_
    rw [Store.find_retain, find_foldl_erase]
    cases hE : M.find k with
    | none => simp
    | some e =>
        by_cases hLe : e.deadline ≤ now
        · simp [(hDueKey k e hE).mpr hLe, hLe]
        · simp [mt (hDueKey k e hE).mp hLe, lt_of_not_le hLe]

------------------------------------------------------------
-- Queries
------------------------------------------------------------

theorem Represents.contains_eq
    {s : Expirator K V}
    {M : Store K V}
    (hRep : Represents s M)
    (k : K) :
    s.contains k = decide (k ∈ M) := by
  simp [contains, hRep.mem_iff k]

theorem Represents.size_eq
    {s : Expirator K V}
    {M : Store K V}
    (hRep : Represents s M) :
    s.size = M.entries.length :=
  HashMap.length_eq_of_mem_iff _ _ fun k => (hRep.mem_iff k).symm

theorem Represents.getInfo_eq
    {s : Expirator K V}
    {M : Store K V}
    (hRep : Represents s M)
    (k : K) :
    s.getInfo k = (M.find k).map Entry.payload := by
  simp [getInfo, hRep.view k, Option.map_map]
  rfl

theorem Represents.getRemainingTime_eq
    {s : Expirator K V}
    {M : Store K V}
    (hRep : Represents s M)
    (now : Int)
    (k : K) :
    s.getRemainingTime now k =
      (M.find k).map fun e =>
        if e.deadline - now > 0 then e.deadline - now else 0 := by
  simp [getRemainingTime, hRep.view k, Option.map_map]
  rfl

------------------------------------------------------------
-- Runs
------------------------------------------------------------

theorem represents_init :
    Represents (init : Expirator K V) ∅ :=
  ⟨⟨List.sorted_nil, List.nodup_nil, fun _ h => absurd h (List.not_mem_nil _),
    fun n => by simp [init]⟩, fun k => by simp [init]⟩

/- Every call is a step of the abstract store. -/
theorem step_spec
    {s : Expirator K V}
    {M : Store K V}
    (hRep : Represents s M)
    (now : Int)
    (op : Op K V) :
    ∃ M', Store.Step M (op.action now) (s.step now op).1 M' ∧
      Represents (s.step now op).2 M' := by
  cases op with
  | add key ttl info =>
      obtain ⟨hAck, hRep'⟩ := add_spec hRep now key ttl info
      refine ⟨_, ?_, hRep'⟩
      simp only [step, hAck]
      exact .add M key (now + ttl) info
  | remove key =>
      obtain ⟨hAck, hRep'⟩ := remove_spec hRep key
      refine ⟨_, ?_, hRep'⟩
      simp only [step, hAck]
      exact .remove M key
  | updateExpiry key ttl =>
      obtain ⟨hAck, hRep'⟩ := updateExpiry_spec hRep now key ttl
      refine ⟨_, ?_, hRep'⟩
      simp only [step, hAck]
      exact .reschedule M key _
  | refresh key extension =>
      obtain ⟨hAck, hRep'⟩ := refresh_spec hRep key extension
      refine ⟨_, ?_, hRep'⟩
      simp only [step, hAck]
      exact .reschedule M key _
  | clear => exact ⟨∅, .clear M, represents_clear s⟩
  | expireAll =>
      obtain ⟨fired, hHands, hCalls, hRep', -⟩ := expireAll_spec hRep
      refine ⟨_, ?_, hRep'⟩
      simp only [step, hCalls]
      exact .expireAll M fired hHands
  | processExpired =>
      obtain ⟨fired, hHands, hSorted, hCalls, hRep'⟩ :=
        processExpired_spec hRep now
      refine ⟨_, ?_, hRep'⟩
      simp only [step, hCalls]
      exact .expire M now fired hHands hSorted

/- Every sequence of calls is a run of the abstract store. -/
theorem run_spec
    {s : Expirator K V}
    {M : Store K V}
    (hRep : Represents s M)
    (ops : List (Int × Op K V)) :
    ∃ M', Store.Run M (ops.map fun x => x.2.action x.1) (s.run ops).1 M' ∧
      Represents (s.run ops).2 M' := by
  induction ops generalizing s M with
  | nil => exact ⟨M, .nil M, hRep⟩
  | cons call ops ih =>
      obtain ⟨now, op⟩ := call
      obtain ⟨M', hStep, hRep'⟩ := step_spec hRep now op
      obtain ⟨M'', hRun, hRep''⟩ := ih hRep'
      exact ⟨M'', .cons hStep hRun, hRep''⟩

/-
  `io::expirator` refines the abstract store: every sequence of
  calls, at any clock readings, answers as the store's run does;
  `entries_` and `expiry_queue_` stay linked one to one, the
  queries agree with the store, and `expire_all` stops the timer.
-/
theorem io_expirator_refines_store
    (ops : List (Int × Op K V)) :
    (∃ M, Store.Run ∅ (ops.map fun x => x.2.action x.1)
        ((init : Expirator K V).run ops).1 M ∧
      Linked ((init : Expirator K V).run ops).2 ∧
      ∀ key now,
        ((init : Expirator K V).run ops).2.contains key = decide (key ∈ M) ∧
          ((init : Expirator K V).run ops).2.size = M.entries.length ∧
          ((init : Expirator K V).run ops).2.getInfo key =
            (M.find key).map Entry.payload ∧
          ((init : Expirator K V).run ops).2.getRemainingTime now key =
            (M.find key).map fun e =>
              if e.deadline - now > 0 then e.deadline - now else 0) ∧
      ∀ s : Expirator K V, s.expireAll.2.running = false := by
  obtain ⟨M, hRun, hRep⟩ := run_spec represents_init ops
  exact ⟨⟨M, hRun, hRep.toLinked, fun key now =>
    ⟨hRep.contains_eq key, hRep.size_eq, hRep.getInfo_eq key,
      hRep.getRemainingTime_eq now key⟩⟩, fun s => clear_running s⟩

end Expirator

end Io

end Networking

end Vex
