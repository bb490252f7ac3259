import Vex.Expirator.Lockfree.Timer

/-
  The consumer's two structures of `lockfree_expirator` agree on
  every run.

  `entries_` maps each live key to its expiry and payload, and
  `expiry_queue_` holds one `(expiry, key)` node per live key, in
  expiry order (`Consistent`).  `process_operations` keeps this
  record by record: an `ADD` of an absent key places both, a
  `REMOVE` of a present key finds its node among the nodes of its
  expiry and erases both, and the other records change nothing.
  `process_expired` pops exactly the due prefix of the queue and
  hands over each of its entries once; `clear` empties both.

  Main declarations:
    * `Consistent`
    * `Consistent.applyOperation`, `Consistent.processExpired`, `consistent_clear`
    * `processExpiredLoop_spec`
    * `Reachable.consistent`, `Consistent.consumerRun`
    * `lockfree_entries_match_queue`
-/

------------------------------------------------------------
-- The Multimap
------------------------------------------------------------

namespace Vex

namespace Expirator

namespace LockfreeExpirator

variable {K V : Type}

/- `emplace` keeps the multimap in expiry order. -/
theorem emplace_sorted
    (q : List (Int × K))
    (n : Int × K)
    (hSorted : q.Sorted (fun a b => a.1 ≤ b.1)) :
    (emplace q n).Sorted (fun a b => a.1 ≤ b.1) := by
  induction q with
  | nil => simp [emplace]
  | cons m q ih =>
      have hM := List.sorted_cons.mp hSorted
      by_cases hLt : n.1 < m.1
      · simp only [emplace, List.orderedInsert, hLt, if_true]
        refine List.sorted_cons.mpr ⟨fun b hB => ?_, hSorted⟩
        rcases List.mem_cons.mp hB with rfl | hB
        · exact le_of_lt hLt
        · exact le_trans (le_of_lt hLt) (hM.1 b hB)
      · simp only [emplace, List.orderedInsert, hLt, if_false]
        refine List.sorted_cons.mpr ⟨fun b hB => ?_, ih hM.2⟩
        rcases (List.mem_orderedInsert _).mp hB with rfl | hB
        · exact le_of_not_lt hLt
        · exact hM.1 b hB

theorem mem_emplace
    {q : List (Int × K)}
    {n x : Int × K} :
    x ∈ emplace q n ↔ x = n ∨ x ∈ q :=
  List.mem_orderedInsert _

/- The keys of the multimap after `emplace`: the new key and the old ones. -/
theorem keys_emplace_perm
    (q : List (Int × K))
    (n : Int × K) :
    ((emplace q n).map (·.2)).Perm (n.2 :: q.map (·.2)) :=
  (List.perm_orderedInsert _ n q).map _

/-
  In a multimap with each key once, erasing the first node of a
  key and an expiry that it holds takes out exactly that key.
-/
theorem mem_eraseP_node
    [DecidableEq K]
    {q : List (Int × K)}
    {t : Int}
    {k : K}
    (hKeys : (q.map (·.2)).Nodup)
    (hMem : (t, k) ∈ q)
    (x : Int × K) :
    x ∈ q.eraseP (fun n => n.1 = t ∧ n.2 = k) ↔ x ∈ q ∧ x.2 ≠ k := by
  /- The predicate picks out the node `(t, k)` itself. -/
  have hErase : q.eraseP (fun n => n.1 = t ∧ n.2 = k) = q.erase (t, k) := by
    rw [List.erase_eq_eraseP]
    congr 1
    funext n
    rw [Bool.eq_iff_iff]
    simp [Prod.ext_iff, @eq_comm _ t, @eq_comm _ k]
  rw [hErase, (List.Nodup.of_map _ hKeys).mem_erase_iff]
  constructor
  · rintro ⟨hNe, hX⟩
    exact ⟨hX, fun hXk => hNe (List.inj_on_of_nodup_map hKeys hX hMem hXk)⟩
  · rintro ⟨hX, hXk⟩
    exact ⟨fun h => hXk (by rw [h]), hX⟩

/- In an ordered multimap, a due node lies in the due prefix. -/
theorem mem_takeWhile_of_le
    {q : List (Int × K)}
    (hSorted : q.Sorted (fun a b => a.1 ≤ b.1))
    {now : Int}
    {n : Int × K}
    (hN : n ∈ q)
    (hDue : n.1 ≤ now) :
    n ∈ q.takeWhile (fun m => decide (m.1 ≤ now)) := by
  induction q with
  | nil => exact absurd hN (List.not_mem_nil _)
  | cons m q ih =>
      have hM := List.sorted_cons.mp hSorted
      rcases List.mem_cons.mp hN with rfl | hN
      · simp [hDue]
      · have hMDue : m.1 ≤ now := le_trans (hM.1 n hN) hDue
        rw [List.takeWhile_cons_of_pos (by simpa using hMDue)]
        exact List.mem_cons_of_mem _ (ih hM.2 hN)

/- In an ordered multimap, the nodes after the due prefix are the nodes not due. -/
theorem mem_dropWhile_iff
    {q : List (Int × K)}
    (hSorted : q.Sorted (fun a b => a.1 ≤ b.1))
    (now : Int)
    (n : Int × K) :
    n ∈ q.dropWhile (fun m => decide (m.1 ≤ now)) ↔ n ∈ q ∧ now < n.1 := by
  induction q with
  | nil => simp
  | cons m q ih =>
      have hM := List.sorted_cons.mp hSorted
      by_cases hMDue : m.1 ≤ now
      · rw [List.dropWhile_cons_of_pos (by simpa using hMDue), ih hM.2, List.mem_cons]
        constructor
        · exact fun ⟨hN, hLate⟩ => ⟨.inr hN, hLate⟩
        · rintro ⟨rfl | hN, hLate⟩
          · exact absurd hMDue (not_le.mpr hLate)
          · exact ⟨hN, hLate⟩
      · rw [List.dropWhile_cons_of_neg (by simpa using hMDue)]
        constructor
        · intro hN
          refine ⟨hN, ?_⟩
          rcases List.mem_cons.mp hN with rfl | hN
          · exact not_le.mp hMDue
          · exact lt_of_lt_of_le (not_le.mp hMDue) (hM.1 n hN)
        · exact fun h => h.1

------------------------------------------------------------
-- The Invariant
------------------------------------------------------------

variable [DecidableEq K]

/-
  `entries_` and `expiry_queue_` agree: the queue is in expiry
  order and holds each key once, every node's key has an entry
  with the node's expiry, and every entry has its node.
-/
structure Consistent (s : LockfreeExpirator K V) : Prop where
  sorted : s.expiryQueue.Sorted (fun a b => a.1 ≤ b.1)
  keys_once : (s.expiryQueue.map (·.2)).Nodup
  node_entry : ∀ n ∈ s.expiryQueue, ∃ e, s.entries.find n.2 = some e ∧ e.expiry = n.1
  entry_node : ∀ k e, s.entries.find k = some e → (e.expiry, k) ∈ s.expiryQueue

/- The invariant reads only the two structures. -/
theorem Consistent.congr
    {s t : LockfreeExpirator K V}
    (hCons : Consistent s)
    (hEntries : t.entries = s.entries)
    (hQueue : t.expiryQueue = s.expiryQueue) :
    Consistent t := by
  obtain ⟨h1, h2, h3, h4⟩ := hCons
  exact ⟨hQueue ▸ h1, hQueue ▸ h2, hQueue ▸ hEntries ▸ h3, hQueue ▸ hEntries ▸ h4⟩

theorem consistent_empty
    (s : LockfreeExpirator K V)
    (hEntries : s.entries = ∅)
    (hQueue : s.expiryQueue = []) :
    Consistent s :=
  ⟨by simp [hQueue], by simp [hQueue], by simp [hQueue],
    fun k e h => by simp [hEntries] at h⟩

/- An `ADD` of a key with no entry places its entry and its node. -/
theorem Consistent.emplace_fresh
    {s : LockfreeExpirator K V}
    (hCons : Consistent s)
    {key : K}
    (info : V)
    (expiry : Int)
    (hAbsent : s.entries.find key = none) :
    Consistent { s with
      entries := s.entries.insert key ⟨expiry, info⟩
      expiryQueue := emplace s.expiryQueue (expiry, key) } := by
  /- No node holds the new key. -/
  have hFresh : key ∉ s.expiryQueue.map (·.2) := fun hIn => by
    obtain ⟨n, hN, rfl⟩ := List.mem_map.mp hIn
    obtain ⟨e, hE, -⟩ := hCons.node_entry n hN
    rw [hAbsent] at hE
    cases hE
  refine ⟨emplace_sorted _ _ hCons.sorted,
    (keys_emplace_perm _ _).nodup_iff.mpr (List.nodup_cons.mpr ⟨hFresh, hCons.keys_once⟩),
    fun n hN => ?_, fun k e hE => ?_⟩
  · rcases mem_emplace.mp hN with rfl | hN
    · exact ⟨_, HashMap.find_insert _ _ _, rfl⟩
    · have hNe : n.2 ≠ key := fun h => hFresh (h ▸ List.mem_map_of_mem _ hN)
      rw [HashMap.find_insert_ne _ _ hNe]
      exact hCons.node_entry n hN
  · by_cases hK : k = key
    · subst hK
      rw [HashMap.find_insert, Option.some.injEq] at hE
      subst hE
      exact mem_emplace.mpr (.inl rfl)
    · rw [HashMap.find_insert_ne _ _ hK] at hE
      exact mem_emplace.mpr (.inr (hCons.entry_node k e hE))

/- A `REMOVE` of a key with an entry erases its entry and its node. -/
theorem Consistent.erase_present
    {s : LockfreeExpirator K V}
    (hCons : Consistent s)
    {key : K}
    {e : EntryData V}
    (hFind : s.entries.find key = some e) :
    Consistent { s with
      expiryQueue := s.expiryQueue.eraseP fun n => n.1 = e.expiry ∧ n.2 = key
      entries := s.entries.erase key } := by
  have hMem := mem_eraseP_node hCons.keys_once (hCons.entry_node key e hFind)
  have hSub : List.Sublist
      (s.expiryQueue.eraseP fun n => decide (n.1 = e.expiry ∧ n.2 = key)) s.expiryQueue :=
    List.eraseP_sublist _
  refine ⟨hCons.sorted.sublist hSub, hCons.keys_once.sublist (hSub.map _),
    fun n hN => ?_, fun k e' hE' => ?_⟩
  · obtain ⟨hN, hNk⟩ := (hMem n).mp hN
    rw [HashMap.find_erase_ne _ hNk]
    exact hCons.node_entry n hN
  · have hK : k ≠ key := fun h => by
      subst h
      simp at hE'
    rw [HashMap.find_erase_ne _ hK] at hE'
    exact (hMem _).mpr ⟨hCons.entry_node k e' hE', hK⟩

/- A record applied by `process_operations` keeps the structures agreeing. -/
theorem Consistent.applyOperation
    {s : LockfreeExpirator K V}
    (hCons : Consistent s)
    (op : Option (Operation K V)) :
    Consistent (s.applyOperation op) := by
  rcases op with _ | ⟨_ | _ | _, key, info, expiry⟩
  case none => exact hCons
  case some.mk.stop => exact hCons
  case some.mk.add =>
      simp only [LockfreeExpirator.applyOperation]
      split_ifs with hPresent
      · exact hCons
      · rw [HashMap.mem_iff_find] at hPresent
        exact hCons.emplace_fresh info expiry (by simpa using hPresent)
  case some.mk.remove =>
      simp only [LockfreeExpirator.applyOperation]
      cases hFind : s.entries.find key with
      | none => exact hCons
      | some e => exact hCons.erase_present hFind

/- The loop of `process_operations` keeps the structures agreeing. -/
theorem Consistent.processOperationsLoop
    {s : LockfreeExpirator K V}
    (hCons : Consistent s)
    (n r : Nat) :
    Consistent (LockfreeExpirator.processOperationsLoop n r s).2 := by
  induction n generalizing r s with
  | zero => exact hCons
  | succ n ih => exact ih (hCons.applyOperation _) _

theorem Consistent.processOperations
    {s : LockfreeExpirator K V}
    (hCons : Consistent s) :
    Consistent s.processOperations :=
  (hCons.processOperationsLoop _ _).congr rfl rfl

theorem Consistent.scheduleNext
    {s : LockfreeExpirator K V}
    (hCons : Consistent s) :
    Consistent s.scheduleNext := by
  have hOps := hCons.processOperations
  unfold LockfreeExpirator.scheduleNext
  dsimp only
  split
  · exact hOps.congr rfl rfl
  · exact hOps.congr rfl rfl

------------------------------------------------------------
-- Expiry
------------------------------------------------------------

/-
  The loop of `process_expired`, on a multimap with each key once
  whose every key has an entry: it hands over the entries of the
  due prefix's keys, leaves the rest of the multimap, and erases
  exactly those keys.
-/
theorem processExpiredLoop_spec
    (now : Int)
    (q : List (Int × K))
    (m : HashMap K (EntryData V))
    (hKeys : (q.map (·.2)).Nodup)
    (hLive : ∀ n ∈ q, (m.find n.2).isSome) :
    ((processExpiredLoop now q m).1.map Prod.fst =
        (q.takeWhile fun n => decide (n.1 ≤ now)).map (·.2)) ∧
      (processExpiredLoop now q m).2.1 = q.dropWhile (fun n => decide (n.1 ≤ now)) ∧
      (∀ k, (processExpiredLoop now q m).2.2.find k =
        if k ∈ (q.takeWhile fun n => decide (n.1 ≤ now)).map (·.2) then none else m.find k) ∧
      ∀ k v, (k, v) ∈ (processExpiredLoop now q m).1 → ∃ e, m.find k = some e ∧ e.info = v := by
  induction q generalizing m with
  | nil => simp [processExpiredLoop]
  | cons n q ih =>
      obtain ⟨t, key⟩ := n
      obtain ⟨hKey, hQ⟩ := List.nodup_cons.mp hKeys
      by_cases hDue : t ≤ now
      · obtain ⟨e, hE⟩ := Option.isSome_iff_exists.mp (hLive (t, key) (List.mem_cons_self _ _))
        have hLive' : ∀ n ∈ q, ((m.erase key).find n.2).isSome := fun n hN => by
          have hNe : n.2 ≠ key := by
            rintro rfl
            exact hKey (List.mem_map_of_mem (·.2) hN)
          rw [HashMap.find_erase_ne _ hNe]
          exact hLive n (List.mem_cons_of_mem _ hN)
        obtain ⟨h1, h2, h3, h4⟩ := ih (m.erase key) hQ hLive'
        simp only [processExpiredLoop, hDue, if_true, hE, List.takeWhile_cons, decide_True,
          List.dropWhile_cons, List.map_cons, List.mem_cons]
        refine ⟨by rw [h1], h2, fun k => ?_, fun k v hIn => ?_⟩
        · rw [h3]
          by_cases hK : k = key
          · subst hK
            simp only [true_or, if_true, HashMap.find_erase, ite_self]
          · simp only [hK, false_or, HashMap.find_erase_ne _ hK]
        · rcases hIn with hEq | hIn
          · cases hEq
            exact ⟨e, hE, rfl⟩
          · obtain ⟨e', hE', hInfo⟩ := h4 k v hIn
            have hK : k ≠ key := fun h => by
              subst h
              simp at hE'
            rw [HashMap.find_erase_ne _ hK] at hE'
            exact ⟨e', hE', hInfo⟩
      · simp [processExpiredLoop, hDue, List.takeWhile_cons, List.dropWhile_cons]

/- Every node's key has an entry. -/
theorem Consistent.live
    {s : LockfreeExpirator K V}
    (hCons : Consistent s) :
    ∀ n ∈ s.expiryQueue, (s.entries.find n.2).isSome := fun n hN => by
  obtain ⟨e, hE, -⟩ := hCons.node_entry n hN
  simp [hE]

/- The keys of the due prefix of the queue are the keys whose entry is due. -/
theorem Consistent.mem_dueKeys
    {s : LockfreeExpirator K V}
    (hCons : Consistent s)
    (now : Int)
    (k : K) :
    k ∈ (s.expiryQueue.takeWhile fun n => decide (n.1 ≤ now)).map (·.2) ↔
      ∃ e, s.entries.find k = some e ∧ e.expiry ≤ now := by
  constructor
  · intro hIn
    obtain ⟨n, hN, rfl⟩ := List.mem_map.mp hIn
    have hDue : n.1 ≤ now := by simpa using List.mem_takeWhile_imp hN
    obtain ⟨e, hE, hExp⟩ := hCons.node_entry n ((List.takeWhile_sublist _).subset hN)
    exact ⟨e, hE, hExp ▸ hDue⟩
  · rintro ⟨e, hE, hDue⟩
    exact List.mem_map_of_mem (·.2) (mem_takeWhile_of_le hCons.sorted
      (hCons.entry_node k e hE) hDue)

/- `process_expired(now)` keeps exactly the entries not due by `now`. -/
theorem Consistent.find_processExpired
    {s : LockfreeExpirator K V}
    (hCons : Consistent s)
    (now : Int)
    (k : K) :
    (s.processExpired now).2.entries.find k = (s.entries.find k).filter fun e => now < e.expiry := by
  show (processExpiredLoop now s.expiryQueue s.entries).2.2.find k = _
  rw [(processExpiredLoop_spec now _ _ hCons.keys_once hCons.live).2.2.1]
  simp only [hCons.mem_dueKeys now k]
  cases hE : s.entries.find k with
  | none => simp
  | some e =>
      by_cases hDue : e.expiry ≤ now
      · simp [Option.filter_some, hDue, not_lt.mpr hDue]
      · simp [Option.filter_some, hDue, not_le.mp hDue]

/- `process_expired(now)` keeps exactly the nodes not due by `now`. -/
theorem Consistent.mem_processExpired_queue
    {s : LockfreeExpirator K V}
    (hCons : Consistent s)
    (now : Int)
    (n : Int × K) :
    n ∈ (s.processExpired now).2.expiryQueue ↔ n ∈ s.expiryQueue ∧ now < n.1 := by
  show n ∈ (processExpiredLoop now s.expiryQueue s.entries).2.1 ↔ _
  rw [(processExpiredLoop_spec now _ _ hCons.keys_once hCons.live).2.1,
    mem_dropWhile_iff hCons.sorted]

/- `process_expired(now)` hands over exactly the entries due by `now`. -/
theorem Consistent.mem_processExpired_handed
    {s : LockfreeExpirator K V}
    (hCons : Consistent s)
    (now : Int)
    (k : K)
    (v : V) :
    (k, v) ∈ (s.processExpired now).1 ↔
      ∃ e, s.entries.find k = some e ∧ e.expiry ≤ now ∧ e.info = v := by
  obtain ⟨hHanded, -, -, hInfo⟩ :=
    processExpiredLoop_spec now s.expiryQueue s.entries hCons.keys_once hCons.live
  show (k, v) ∈ (processExpiredLoop now s.expiryQueue s.entries).1 ↔ _
  constructor
  · intro hIn
    obtain ⟨e, hE, hV⟩ := hInfo k v hIn
    have hK : k ∈ (processExpiredLoop now s.expiryQueue s.entries).1.map Prod.fst :=
      List.mem_map_of_mem Prod.fst hIn
    rw [hHanded, hCons.mem_dueKeys] at hK
    obtain ⟨e', hE', hDue⟩ := hK
    rw [hE] at hE'
    cases hE'
    exact ⟨e, hE, hDue, hV⟩
  · rintro ⟨e, hE, hDue, rfl⟩
    have hK := (hCons.mem_dueKeys now k).mpr ⟨e, hE, hDue⟩
    rw [← hHanded] at hK
    obtain ⟨⟨k', v'⟩, hIn, hKey⟩ := List.mem_map.mp hK
    simp only at hKey
    subst hKey
    obtain ⟨e', hE', rfl⟩ := hInfo k' v' hIn
    rw [hE] at hE'
    cases hE'
    exact hIn

/-
  `process_expired(now)` on agreeing structures: every entry due by
  `now` is handed over once and leaves both structures, and the
  structures still agree.
-/
theorem Consistent.processExpired
    {s : LockfreeExpirator K V}
    (hCons : Consistent s)
    (now : Int) :
    Consistent (s.processExpired now).2 ∧
      ((s.processExpired now).1.map Prod.fst).Nodup ∧
      (∀ k v, (k, v) ∈ (s.processExpired now).1 ↔
        ∃ e, s.entries.find k = some e ∧ e.expiry ≤ now ∧ e.info = v) ∧
      (∀ k, (s.processExpired now).2.entries.find k =
        (s.entries.find k).filter fun e => now < e.expiry) ∧
      ∀ n, n ∈ (s.processExpired now).2.expiryQueue ↔ n ∈ s.expiryQueue ∧ now < n.1 := by
  obtain ⟨hHanded, hQueue, -, -⟩ :=
    processExpiredLoop_spec now s.expiryQueue s.entries hCons.keys_once hCons.live
  have hSuffix : List.Sublist (s.expiryQueue.dropWhile fun n => decide (n.1 ≤ now))
      s.expiryQueue :=
    (List.dropWhile_suffix _).sublist
  refine ⟨⟨?_, ?_, fun n hN => ?_, fun k e hE => ?_⟩, ?_, hCons.mem_processExpired_handed now,
    hCons.find_processExpired now, hCons.mem_processExpired_queue now⟩
  · show (processExpiredLoop now s.expiryQueue s.entries).2.1.Sorted _
    rw [hQueue]
    exact hCons.sorted.sublist hSuffix
  · show ((processExpiredLoop now s.expiryQueue s.entries).2.1.map _).Nodup
    rw [hQueue]
    exact hCons.keys_once.sublist (hSuffix.map _)
  · obtain ⟨hN, hLate⟩ := (hCons.mem_processExpired_queue now n).mp hN
    obtain ⟨e, hE, hExp⟩ := hCons.node_entry n hN
    rw [hCons.find_processExpired]
    exact ⟨e, Option.filter_eq_some.mpr ⟨hE, by simpa [hExp] using hLate⟩, hExp⟩
  · obtain ⟨hE', hLate⟩ := Option.filter_eq_some.mp ((hCons.find_processExpired now k).symm.trans hE)
    exact (hCons.mem_processExpired_queue now _).mpr ⟨hCons.entry_node k e hE', by simpa using hLate⟩
  · show ((processExpiredLoop now s.expiryQueue s.entries).1.map Prod.fst).Nodup
    rw [hHanded]
    exact hCons.keys_once.sublist ((List.takeWhile_sublist _).map _)

------------------------------------------------------------
-- Every Run
------------------------------------------------------------

theorem Consistent.start
    {s : LockfreeExpirator K V}
    (hCons : Consistent s) :
    Consistent s.start := by
  unfold LockfreeExpirator.start
  split_ifs
  · exact (hCons.congr rfl rfl : Consistent { s with running := true }).scheduleNext
  · exact hCons

theorem Consistent.stop
    {s : LockfreeExpirator K V}
    (hCons : Consistent s) :
    Consistent s.stop := by
  unfold LockfreeExpirator.stop
  split_ifs
  · exact hCons.congr rfl rfl
  · exact hCons

/- `clear` leaves both structures empty, whatever they held. -/
theorem consistent_clear (s : LockfreeExpirator K V) :
    Consistent s.clear := by
  unfold LockfreeExpirator.clear
  dsimp only
  split_ifs
  · exact (consistent_empty _ rfl rfl).stop
  · exact consistent_empty _ rfl rfl

/- Publishing a record leaves the consumer's structures alone. -/
theorem Consistent.publish
    {s : LockfreeExpirator K V}
    (hCons : Consistent s)
    (op : Operation K V) :
    Consistent (s.publish op).2 := by
  unfold LockfreeExpirator.publish
  dsimp only
  split_ifs
  · exact hCons
  · exact hCons.congr rfl rfl

theorem Consistent.add
    {s : LockfreeExpirator K V}
    (hCons : Consistent s)
    (now : Int)
    (key : K)
    (ttl : Int)
    (info : V) :
    Consistent (s.add now key ttl info).2 := by
  have hPub := hCons.publish ⟨.add, key, info, now + ttl⟩
  unfold LockfreeExpirator.add
  dsimp only
  split_ifs
  · exact hPub.start
  · exact hPub
  · exact hPub

theorem Consistent.onTimer
    {s : LockfreeExpirator K V}
    (hCons : Consistent s)
    (now : Int) :
    Consistent (s.onTimer now).2 := by
  unfold LockfreeExpirator.onTimer
  dsimp only
  split_ifs
  · exact ((hCons.congr rfl rfl : Consistent { s with timer := none }).processExpired now).1.scheduleNext
  · exact hCons.congr rfl rfl

/- Every state reached by calls and timer completions keeps the structures agreeing. -/
theorem Reachable.consistent
    [Inhabited V]
    {now : Int}
    {s : LockfreeExpirator K V}
    (hReach : Reachable now s) :
    Consistent s := by
  induction hReach with
  | init => exact consistent_empty _ rfl rfl
  | wait _ _ ih => exact ih
  | call ev _ ih =>
      cases ev with
      | add key ttl info => exact ih.add _ key ttl info
      | remove key => exact ih.publish _
      | clear => exact consistent_clear _
      | start => exact ih.start
      | stop => exact ih.stop
  | complete _ _ _ ih => exact ih.onTimer _

/-
  What the consumer does to its two structures: apply a record in
  `process_operations`, run `process_expired` at a clock reading,
  or `clear`.
-/
inductive ConsumerOp (K V : Type) where
  | apply (op : Option (Operation K V))
  | expire (now : Int)
  | clear

def consumerStep (s : LockfreeExpirator K V) : ConsumerOp K V → LockfreeExpirator K V
  | .apply op => s.applyOperation op
  | .expire now => (s.processExpired now).2
  | .clear => s.clear

theorem Consistent.consumerRun
    {s : LockfreeExpirator K V}
    (hCons : Consistent s)
    (ops : List (ConsumerOp K V)) :
    Consistent (ops.foldl consumerStep s) := by
  induction ops generalizing s with
  | nil => exact hCons
  | cons op ops ih =>
      apply ih
      cases op with
      | apply op => exact hCons.applyOperation op
      | expire now => exact (hCons.processExpired now).1
      | clear => exact consistent_clear s

/-
  From the empty expirator, after any sequence of records applied
  by `process_operations`, `process_expired` at any clock readings
  and `clear`, and in every state reached by calls and timer
  completions: `entries_` and `expiry_queue_` hold the same keys,
  each key once in the queue with its entry's expiry, in expiry
  order.  An `ADD` record for a present key and a `REMOVE` record
  for an absent key change nothing.  `process_expired(now)` hands
  over each entry due by `now` exactly once and erases it from
  both structures, and only those.
-/
theorem lockfree_entries_match_queue
    [Inhabited V] :
    (∀ ops : List (ConsumerOp K V), Consistent (ops.foldl consumerStep init)) ∧
      (∀ (now : Int) (s : LockfreeExpirator K V), Reachable now s → Consistent s) ∧
      (∀ (s : LockfreeExpirator K V) (key : K) (info : V) (expiry : Int),
        key ∈ s.entries → s.applyOperation (some ⟨.add, key, info, expiry⟩) = s) ∧
      (∀ (s : LockfreeExpirator K V) (key : K) (info : V) (expiry : Int),
        key ∉ s.entries → s.applyOperation (some ⟨.remove, key, info, expiry⟩) = s) ∧
      ∀ (s : LockfreeExpirator K V), Consistent s → ∀ now,
        Consistent (s.processExpired now).2 ∧
          ((s.processExpired now).1.map Prod.fst).Nodup ∧
          (∀ k v, (k, v) ∈ (s.processExpired now).1 ↔
            ∃ e, s.entries.find k = some e ∧ e.expiry ≤ now ∧ e.info = v) ∧
          (∀ k, (s.processExpired now).2.entries.find k =
            (s.entries.find k).filter fun e => now < e.expiry) ∧
          ∀ n, n ∈ (s.processExpired now).2.expiryQueue ↔ n ∈ s.expiryQueue ∧ now < n.1 := by
  refine ⟨(consistent_empty _ rfl rfl).consumerRun, fun _ _ hReach => hReach.consistent,
    fun s key info expiry hPresent => ?_, fun s key info expiry hAbsent => ?_,
    fun _ hCons now => hCons.processExpired now⟩
  · simp [LockfreeExpirator.applyOperation, hPresent]
  · have hNone : s.entries.find key = none := by
      rw [HashMap.mem_iff_find] at hAbsent
      simpa using hAbsent
    simp [LockfreeExpirator.applyOperation, hNone]

end LockfreeExpirator

end Expirator

end Vex
