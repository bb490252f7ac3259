import Vex.Expirator.Heap.Sift

/-
  The heap expirator refines the abstract store.

  `Represents s M` says that the heap and its index are valid
  and that `entries_` holds exactly the entries of `M`.  Every
  operation maps a state representing `M` to one representing
  the store the abstract action yields, with the same answer.

  Main declarations:
    * `Represents`
    * `add_spec`, `updateExpiry_spec`, `remove_spec`, `represents_clear`
    * `processExpired_spec`
-/

------------------------------------------------------------
-- Representation
------------------------------------------------------------

namespace Vex

namespace Expirator

namespace HeapExpirator

variable {K V : Type} [DecidableEq K] [Inhabited V]

/- A valid heap expirator holding exactly the entries of `M`. -/
structure Represents
    (s : HeapExpirator K V)
    (M : Store K V) : Prop where
  indexed : Indexed s
  ordered : HeapOrdered s
  view :
    ∀ k, M.find k = (s.entries.find k).map EntryData.view

omit [Inhabited V] in
theorem Represents.mem_iff
    {s : HeapExpirator K V}
    {M : Store K V}
    (hRep : Represents s M)
    (k : K) :
    k ∈ M ↔ k ∈ s.entries := by
  rw [HashMap.mem_iff_find, HashMap.mem_iff_find, hRep.view]
  cases s.entries.find k <;> simp

omit [Inhabited V] in
theorem Represents.congr_store
    {s : HeapExpirator K V}
    {M M' : Store K V}
    (hRep : Represents s M)
    (hSame : ∀ k, M'.find k = M.find k) :
    Represents s M' :=
  ⟨hRep.indexed, hRep.ordered, fun k => (hSame k).trans (hRep.view k)⟩

omit [Inhabited V] in
theorem Represents.congr_state
    {s t : HeapExpirator K V}
    {M : Store K V}
    (hRep : Represents s M)
    (hEntries : t.entries = s.entries)
    (hHeap : t.heap = s.heap)
    (hSize : t.heapSize = s.heapSize) :
    Represents t M := by
  cases s; cases t
  simp only at hEntries hHeap hSize
  subst hEntries hHeap hSize
  exact ⟨⟨hRep.indexed.at_node, hRep.indexed.at_entry⟩, hRep.ordered,
    hRep.view⟩

/- An entry of `M` sits at a heap position. -/
omit [Inhabited V] in
theorem Represents.find_some
    {s : HeapExpirator K V}
    {M : Store K V}
    (hRep : Represents s M)
    {k : K}
    {e : Entry V}
    (hE : M.find k = some e) :
    ∃ ed, s.entries.find k = some ed ∧ ed.view = e ∧
      ed.heapIndex < s.heapSize ∧ (s.heap ed.heapIndex).key = k ∧
      (s.heap ed.heapIndex).expiry = e.deadline := by
  rw [hRep.view] at hE
  obtain ⟨ed, hEd, rfl⟩ := Option.map_eq_some'.mp hE
  obtain ⟨hLt, hKey⟩ := hRep.indexed.at_entry k ed not_false hEd
  obtain ⟨-, ed', hEd', hIdx', hExp'⟩ := hRep.indexed.at_node _ hLt
  rw [hKey, hEd] at hEd'
  cases hEd'
  exact ⟨ed, hEd, rfl, hLt, hKey, hExp'.symm⟩

/- A node other than the one an entry points at holds another key. -/
omit [Inhabited V] in
theorem Represents.key_ne
    {s : HeapExpirator K V}
    {M : Store K V}
    (hRep : Represents s M)
    {key : K}
    {e : EntryData V}
    (hE : s.entries.find key = some e)
    {i : Nat}
    (hI : i < s.heapSize)
    (hNe : i ≠ e.heapIndex) :
    (s.heap i).key ≠ key := fun h => by
  obtain ⟨hLt, hKey⟩ := hRep.indexed.at_entry key e not_false hE
  exact hNe (hRep.indexed.key_inj hI hLt (h.trans hKey.symm))

/- The root of an ordered heap is at or before every node. -/
omit [DecidableEq K] [Inhabited V] in
theorem HeapOrdered.root_le
    {s : HeapExpirator K V}
    (hOrd : HeapOrdered s)
    (i : Nat)
    (hI : i < s.heapSize) :
    (s.heap 0).expiry ≤ (s.heap i).expiry := by
  induction i using Nat.strong_induction_on with
  | _ i ih =>
      rcases Nat.eq_zero_or_pos i with rfl | hPos
      · exact le_rfl
      · have hP := parent_lt hPos
        exact le_trans (ih _ hP (by omega)) (hOrd i hPos hI)

/- The root's deadline is the earliest deadline of the store. -/
omit [Inhabited V] in
theorem Represents.root_le
    {s : HeapExpirator K V}
    {M : Store K V}
    (hRep : Represents s M)
    {k : K}
    {e : Entry V}
    (hE : M.find k = some e) :
    s.heapSize ≠ 0 ∧ (s.heap 0).expiry ≤ e.deadline := by
  obtain ⟨ed, -, -, hLt, -, hExp⟩ := hRep.find_some hE
  exact ⟨by omega, hExp ▸ hRep.ordered.root_le _ hLt⟩

------------------------------------------------------------
-- Timer Operations
------------------------------------------------------------

omit [Inhabited V] in
theorem Represents.scheduleNext
    {s : HeapExpirator K V}
    {M : Store K V}
    (hRep : Represents s M) :
    Represents s.scheduleNext M := by
  unfold HeapExpirator.scheduleNext
  split <;> exact hRep.congr_state rfl rfl rfl

omit [Inhabited V] in
theorem Represents.cancel
    {s : HeapExpirator K V}
    {M : Store K V}
    (hRep : Represents s M) :
    Represents s.cancel M :=
  hRep.congr_state rfl rfl rfl

omit [Inhabited V] in
theorem Represents.start
    {s : HeapExpirator K V}
    {M : Store K V}
    (hRep : Represents s M) :
    Represents s.start M := by
  unfold HeapExpirator.start
  split
  · exact (hRep.congr_state (t := { s with running := true }) rfl rfl
      rfl).scheduleNext
  · exact hRep

------------------------------------------------------------
-- Queries
------------------------------------------------------------

omit [Inhabited V] in
theorem Represents.contains_eq
    {s : HeapExpirator K V}
    {M : Store K V}
    (hRep : Represents s M)
    (k : K) :
    s.contains k = decide (k ∈ M) := by
  simp [contains, hRep.mem_iff k]

omit [Inhabited V] in
theorem Represents.size_eq
    {s : HeapExpirator K V}
    {M : Store K V}
    (hRep : Represents s M) :
    s.size = M.entries.length :=
  HashMap.length_eq_of_mem_iff _ _ fun k => (hRep.mem_iff k).symm

omit [Inhabited V] in
theorem Represents.getInfo_eq
    {s : HeapExpirator K V}
    {M : Store K V}
    (hRep : Represents s M)
    (k : K) :
    s.getInfo k = (M.find k).map Entry.payload := by
  simp [getInfo, hRep.view k, Option.map_map]
  rfl

omit [Inhabited V] in
theorem Represents.getRemainingTime_eq
    {s : HeapExpirator K V}
    {M : Store K V}
    (hRep : Represents s M)
    (now : Int)
    (k : K) :
    s.getRemainingTime now k =
      (M.find k).map fun e =>
        if e.deadline - now > 0 then e.deadline - now else 0 := by
  simp [getRemainingTime, hRep.view k, Option.map_map]
  rfl

------------------------------------------------------------
-- Replacing One Node
------------------------------------------------------------

/-
  The heaps below agree with an ordered heap off one index `idx`,
  in a prefix of it; the order then holds around `idx`'s children
  through the old node at `idx`.
-/
omit [DecidableEq K] [Inhabited V] in
theorem grand_of_replace
    {s t : HeapExpirator K V}
    {idx : Nat}
    (hOrd : HeapOrdered s)
    (hAgree : ∀ j, j ≠ idx → t.heap j = s.heap j)
    (hSize : t.heapSize ≤ s.heapSize)
    (hPos : 0 < idx)
    (c : Nat)
    (hC0 : 0 < c)
    (hC : c < t.heapSize)
    (hCP : parent c = idx) :
    (t.heap (parent idx)).expiry ≤ (t.heap c).expiry := by
  have hP := parent_lt hPos
  have hIC : idx < c := hCP ▸ parent_lt hC0
  have hChild := hOrd c hC0 (by omega)
  rw [hCP] at hChild
  rw [hAgree _ (Nat.ne_of_lt hP), hAgree c (Nat.ne_of_gt hIC)]
  exact le_trans (hOrd idx hPos (by omega)) hChild

omit [DecidableEq K] [Inhabited V] in
theorem upOrdered_of_replace
    {s t : HeapExpirator K V}
    {idx : Nat}
    (hOrd : HeapOrdered s)
    (hAgree : ∀ j, j ≠ idx → t.heap j = s.heap j)
    (hSize : t.heapSize ≤ s.heapSize)
    (hLe : (t.heap idx).expiry ≤ (s.heap idx).expiry) :
    UpOrdered t idx where
  except i hI0 hI hII := by
    rw [hAgree i hII]
    by_cases hPI : parent i = idx
    · have hChild := hOrd i hI0 (by omega)
      rw [hPI] at hChild ⊢
      exact le_trans hLe hChild
    · rw [hAgree _ hPI]
      exact hOrd i hI0 (by omega)
  grand := grand_of_replace hOrd hAgree hSize

omit [DecidableEq K] [Inhabited V] in
theorem downOrdered_of_replace
    {s t : HeapExpirator K V}
    {idx : Nat}
    (hOrd : HeapOrdered s)
    (hAgree : ∀ j, j ≠ idx → t.heap j = s.heap j)
    (hSize : t.heapSize ≤ s.heapSize)
    (hAbove :
      0 < idx → (t.heap (parent idx)).expiry ≤ (t.heap idx).expiry) :
    DownOrdered t idx where
  except i hI0 hI hPI := by
    by_cases hII : i = idx
    · subst hII
      exact hAbove hI0
    · rw [hAgree i hII, hAgree _ hPI]
      exact hOrd i hI0 (by omega)
  grand := grand_of_replace hOrd hAgree hSize

------------------------------------------------------------
-- add
------------------------------------------------------------

/- The state `add` sifts up from: the new node ends the heap. -/
omit [Inhabited V] in
theorem Represents.push
    {s : HeapExpirator K V}
    {M : Store K V}
    (hRep : Represents s M)
    {key : K}
    (hNew : key ∉ s.entries)
    (expiry : Int)
    (info : V) :
    Indexed (pushNode s key expiry info) ∧
      UpOrdered (pushNode s key expiry info) s.heapSize ∧
      ∀ k, (M.insert key ⟨expiry, info⟩).find k =
        ((pushNode s key expiry info).entries.find k).map
          EntryData.view := by
  have hOld : ∀ i, i < s.heapSize → (s.heap i).key ≠ key := by
    intro i hI hKey
    obtain ⟨-, e, hE, -⟩ := hRep.indexed.at_node i hI
    exact hNew ((HashMap.mem_iff_find _ _).mpr (by rw [← hKey, hE]; rfl))
  refine ⟨⟨?_, ?_⟩, ⟨?_, ?_⟩, ?_⟩
  · intro i hI
    refine ⟨not_false, ?_⟩
    by_cases hIN : i = s.heapSize
    · subst hIN
      simp [HashMap.find_insert]
    · have hLt : i < s.heapSize := by simp at hI; omega
      obtain ⟨-, e, hE, hEi, hEx⟩ := hRep.indexed.at_node i hLt
      simp [Function.update_noteq hIN, HashMap.find_insert_ne _ _ (hOld i hLt),
        hE, hEi, hEx]
  · intro k e _ hE
    rw [pushNode_entries] at hE
    by_cases hK : k = key
    · subst hK
      simp only [HashMap.find_insert, Option.some.injEq] at hE
      subst hE
      simp
    · rw [HashMap.find_insert_ne _ _ hK] at hE
      obtain ⟨hLt, hKey⟩ := hRep.indexed.at_entry k e not_false hE
      simp only [pushNode_heapSize, pushNode_heap,
        Function.update_noteq (Nat.ne_of_lt hLt), hKey]
      exact ⟨by omega, trivial⟩
  · intro i hI0 hI hIN
    have hLt : i < s.heapSize := by simp at hI; omega
    have hP := parent_lt hI0
    simp only [pushNode_heap, Function.update_noteq (Nat.ne_of_lt hLt),
      Function.update_noteq (show parent i ≠ s.heapSize by omega)]
    exact hRep.ordered i hI0 hLt
  · intro _ c hC0 hC hCP
    have := parent_lt hC0
    simp at hC
    omega
  · intro k
    by_cases hK : k = key
    · subst hK
      simp [HashMap.find_insert, EntryData.view]
    · simp [HashMap.find_insert_ne _ _ hK, hRep.view k]

/- `add` is the store's `add`. -/
theorem add_spec
    {s : HeapExpirator K V}
    {M : Store K V}
    (hRep : Represents s M)
    (now : Int)
    (key : K)
    (ttl : Int)
    (info : V) :
    (s.add now key ttl info).1 = (M.add key (now + ttl) info).1 ∧
      Represents (s.add now key ttl info).2
        (M.add key (now + ttl) info).2 := by
  by_cases hMem : key ∈ s.entries
  · have hMemM := (hRep.mem_iff key).mpr hMem
    simp only [add, hMem, Store.add, hMemM, if_true]
    exact ⟨trivial, hRep⟩
  · have hNotM : key ∉ M := fun h => hMem ((hRep.mem_iff key).mp h)
    obtain ⟨hIdx, hUp, hView⟩ := hRep.push hMem (now + ttl) info
    obtain ⟨hIdx', hOrd', hSame'⟩ :=
      heapBubbleUp_spec (by simp) hIdx hUp
    have hRep' : Represents _ (M.insert key ⟨now + ttl, info⟩) :=
      ⟨hIdx', hOrd', fun k => (hView k).trans (hSame'.view k).symm⟩
    simp only [add, hMem, Store.add, hNotM, if_false]
    split_ifs
    · exact ⟨rfl, hRep'.cancel.scheduleNext⟩
    · exact ⟨rfl, hRep'.start⟩
    · exact ⟨rfl, hRep'⟩

------------------------------------------------------------
-- update_expiry
------------------------------------------------------------

/- The state `update_expiry` sifts from: the new expiry is written. -/
omit [Inhabited V] in
theorem Represents.retime
    {s : HeapExpirator K V}
    {M : Store K V}
    (hRep : Represents s M)
    {key : K}
    {e : EntryData V}
    (hE : s.entries.find key = some e)
    (expiry : Int) :
    Indexed (retimeNode s key e expiry) ∧
      ∀ k, (M.insert key { e.view with deadline := expiry }).find k =
        ((retimeNode s key e expiry).entries.find k).map
          EntryData.view := by
  obtain ⟨hLt, hKey⟩ := hRep.indexed.at_entry key e not_false hE
  refine ⟨⟨?_, ?_⟩, ?_⟩
  · intro i hI
    rw [retimeNode_heapSize] at hI
    refine ⟨not_false, ?_⟩
    by_cases hII : i = e.heapIndex
    · subst hII
      simp [hKey]
    · have hNe : (s.heap i).key ≠ key := hRep.key_ne hE hI hII
      obtain ⟨-, e', hE', hEi, hEx⟩ := hRep.indexed.at_node i hI
      simp [Function.update_noteq hII, HashMap.find_insert_ne _ _ hNe, hE',
        hEi, hEx]
  · intro k e' _ hE'
    rw [retimeNode_entries] at hE'
    by_cases hK : k = key
    · subst hK
      simp only [HashMap.find_insert, Option.some.injEq] at hE'
      subst hE'
      simpa using ⟨hLt, hKey⟩
    · rw [HashMap.find_insert_ne _ _ hK] at hE'
      obtain ⟨hLt', hKey'⟩ := hRep.indexed.at_entry k e' not_false hE'
      have hNe : e'.heapIndex ≠ e.heapIndex :=
        fun h => hK (by rw [← hKey', h, hKey])
      simp [Function.update_noteq hNe, hLt', hKey']
  · intro k
    by_cases hK : k = key
    · subst hK
      simp [EntryData.view]
    · simp [HashMap.find_insert_ne _ _ hK, hRep.view k]

/- `update_expiry` is the store's `reschedule` to `now + ttl`. -/
theorem updateExpiry_spec
    {s : HeapExpirator K V}
    {M : Store K V}
    (hRep : Represents s M)
    (now : Int)
    (key : K)
    (ttl : Int) :
    (s.updateExpiry now key ttl).1 =
        (M.reschedule key fun _ => now + ttl).1 ∧
      Represents (s.updateExpiry now key ttl).2
        (M.reschedule key fun _ => now + ttl).2 := by
  cases hE : s.entries.find key with
  | none =>
      have hM : M.find key = none := by rw [hRep.view, hE]; rfl
      simp only [updateExpiry, hE, Store.reschedule, hM]
      exact ⟨trivial, hRep⟩
  | some e =>
      have hM : M.find key = some e.view := by rw [hRep.view, hE]; rfl
      obtain ⟨hLt, hKey⟩ := hRep.indexed.at_entry key e not_false hE
      obtain ⟨-, e', hE', -, hOld⟩ := hRep.indexed.at_node _ hLt
      rw [hKey, hE] at hE'
      cases hE'
      obtain ⟨hIdx, hView⟩ := hRep.retime hE (now + ttl)
      have hAgree :
          ∀ j, j ≠ e.heapIndex →
            (retimeNode s key e (now + ttl)).heap j = s.heap j :=
        fun j hJ => by simp [Function.update_noteq hJ]
      have hUp :
          now + ttl < e.expiry →
            Represents (heapBubbleUp (retimeNode s key e (now + ttl))
              e.heapIndex) (M.insert key { e.view with deadline := now + ttl }) := by
        intro hDir
        obtain ⟨h1, h2, h3⟩ := heapBubbleUp_spec (by simpa using hLt) hIdx
          (upOrdered_of_replace hRep.ordered hAgree le_rfl
            (by simp; omega))
        exact ⟨h1, h2, fun k => (hView k).trans (h3.view k).symm⟩
      have hDown :
          ¬ now + ttl < e.expiry →
            Represents (heapBubbleDown (retimeNode s key e (now + ttl))
              e.heapIndex) (M.insert key { e.view with deadline := now + ttl }) := by
        intro hDir
        obtain ⟨h1, h2, h3⟩ := heapBubbleDown_spec hIdx
          (downOrdered_of_replace hRep.ordered hAgree le_rfl fun hPos => by
            have hParent := hRep.ordered _ hPos hLt
            rw [hAgree _ (Nat.ne_of_lt (parent_lt hPos))]
            simp
            omega)
        exact ⟨h1, h2, fun k => (hView k).trans (h3.view k).symm⟩
      simp only [updateExpiry, hE, Store.reschedule, hM]
      split_ifs with hDir hTimer hTimer
      · exact ⟨rfl, (hUp hDir).cancel.scheduleNext⟩
      · exact ⟨rfl, hUp hDir⟩
      · exact ⟨rfl, (hDown hDir).cancel.scheduleNext⟩
      · exact ⟨rfl, hDown hDir⟩

------------------------------------------------------------
-- remove
------------------------------------------------------------

/- `remove` of the last node: the entry goes and the heap shrinks. -/
omit [Inhabited V] in
theorem Represents.popLast
    {s : HeapExpirator K V}
    {M : Store K V}
    (hRep : Represents s M)
    {key : K}
    {e : EntryData V}
    (hE : s.entries.find key = some e)
    (hLast : e.heapIndex = s.heapSize - 1) :
    Represents (popBack (eraseEntry s key)) (M.erase key) := by
  obtain ⟨hLt, hKey⟩ := hRep.indexed.at_entry key e not_false hE
  refine ⟨⟨?_, ?_⟩, ?_, ?_⟩
  · intro i hI
    simp only [popBack_heapSize, eraseEntry_heapSize] at hI
    have hNe : (s.heap i).key ≠ key := hRep.key_ne hE (by omega) (by omega)
    obtain ⟨-, e', hE', hEi, hEx⟩ := hRep.indexed.at_node i (by omega)
    simp [HashMap.find_erase_ne _ hNe, hE', hEi, hEx]
  · intro k e' _ hE'
    simp only [popBack_entries, eraseEntry_entries] at hE'
    by_cases hK : k = key
    · subst hK
      simp at hE'
    · rw [HashMap.find_erase_ne _ hK] at hE'
      obtain ⟨hLt', hKey'⟩ := hRep.indexed.at_entry k e' not_false hE'
      have hNe : e'.heapIndex ≠ e.heapIndex :=
        fun h => hK (by rw [← hKey', h, hKey])
      simp only [popBack_heapSize, eraseEntry_heapSize, popBack_heap,
        eraseEntry_heap]
      exact ⟨by omega, hKey'⟩
  · intro i hI0 hI
    simp only [popBack_heapSize, eraseEntry_heapSize] at hI
    exact hRep.ordered i hI0 (by omega)
  · intro k
    by_cases hK : k = key
    · subst hK
      simp
    · simp [HashMap.find_erase_ne _ hK, hRep.view k]

/-
  `remove` of an inner node: the last node fills the hole and its
  entry is re-indexed.
-/
omit [Inhabited V] in
theorem Represents.fill
    {s : HeapExpirator K V}
    {M : Store K V}
    (hRep : Represents s M)
    {key : K}
    {e e2 : EntryData V}
    (hE : s.entries.find key = some e)
    (hInner : e.heapIndex < s.heapSize - 1)
    (hE2 : s.entries.find (s.heap (s.heapSize - 1)).key = some e2) :
    Indexed (reindex (fillHole (eraseEntry s key) e.heapIndex) e.heapIndex e2) ∧
      ∀ k, (M.erase key).find k =
        ((reindex (fillHole (eraseEntry s key) e.heapIndex) e.heapIndex
          e2).entries.find k).map EntryData.view := by
  obtain ⟨hLt, hKey⟩ := hRep.indexed.at_entry key e not_false hE
  obtain ⟨-, e2', hE2', hE2i, hE2x⟩ :=
    hRep.indexed.at_node (s.heapSize - 1) (by omega)
  rw [hE2] at hE2'
  cases hE2'
  have hK2 : (s.heap (s.heapSize - 1)).key ≠ key := hRep.key_ne hE (by omega) (by omega)
  refine ⟨⟨?_, ?_⟩, ?_⟩
  · intro i hI
    simp only [reindex_heapSize, fillHole_heapSize, eraseEntry_heapSize] at hI
    refine ⟨not_false, ?_⟩
    by_cases hII : i = e.heapIndex
    · subst hII
      simp [HashMap.find_insert, hE2x]
    · have hNeKey : (s.heap i).key ≠ key := hRep.key_ne hE (by omega) hII
      have hNeK2 : (s.heap i).key ≠ (s.heap (s.heapSize - 1)).key := fun h => by
        have := hRep.indexed.key_inj (by omega) (by omega) h
        omega
      obtain ⟨-, e', hE', hEi, hEx⟩ := hRep.indexed.at_node i (by omega)
      simp [Function.update_noteq hII, HashMap.find_insert_ne _ _ hNeK2,
        HashMap.find_erase_ne _ hNeKey, hE', hEi, hEx]
  · intro k e' _ hE'
    simp only [reindex_entries, fillHole_entries, eraseEntry_entries,
      fillHole_heap, eraseEntry_heap, eraseEntry_heapSize,
      Function.update_same] at hE'
    simp only [reindex_heapSize, fillHole_heapSize, eraseEntry_heapSize,
      reindex_heap, fillHole_heap, eraseEntry_heap]
    by_cases hK : k = (s.heap (s.heapSize - 1)).key
    · subst hK
      simp only [HashMap.find_insert, Option.some.injEq] at hE'
      subst hE'
      simp [hInner]
    · rw [HashMap.find_insert_ne _ _ hK] at hE'
      by_cases hKK : k = key
      · subst hKK
        simp at hE'
      · rw [HashMap.find_erase_ne _ hKK] at hE'
        obtain ⟨hLt', hKey'⟩ := hRep.indexed.at_entry k e' not_false hE'
        have hNe : e'.heapIndex ≠ e.heapIndex :=
          fun h => hKK (by rw [← hKey', h, hKey])
        have hNeLast : e'.heapIndex ≠ s.heapSize - 1 :=
          fun h => hK (by rw [← hKey', h])
        simp only [Function.update_noteq hNe]
        exact ⟨by omega, hKey'⟩
  · intro k
    simp only [reindex_entries, fillHole_entries, eraseEntry_entries,
      fillHole_heap, eraseEntry_heap, eraseEntry_heapSize,
      Function.update_same]
    by_cases hK : k = (s.heap (s.heapSize - 1)).key
    · subst hK
      simp [HashMap.find_erase_ne _ hK2, hRep.view, hE2, EntryData.view]
    · by_cases hKK : k = key
      · subst hKK
        simp [HashMap.find_insert_ne _ _ hK]
      · simp [HashMap.find_insert_ne _ _ hK, HashMap.find_erase_ne _ hKK,
          hRep.view k]

/- `remove` is the store's `remove`. -/
theorem remove_spec
    {s : HeapExpirator K V}
    {M : Store K V}
    (hRep : Represents s M)
    (key : K) :
    (s.remove key).1 = (M.remove key).1 ∧
      Represents (s.remove key).2 (M.remove key).2 := by
  cases hE : s.entries.find key with
  | none =>
      have hNotM : key ∉ M := by
        rw [hRep.mem_iff, HashMap.mem_iff_find, hE]
        simp
      simp only [remove, hE, Store.remove, hNotM, if_false]
      exact ⟨trivial, hRep⟩
  | some e =>
      have hMemM : key ∈ M := by
        rw [hRep.mem_iff, HashMap.mem_iff_find, hE]
        rfl
      obtain ⟨hLt, hKey⟩ := hRep.indexed.at_entry key e not_false hE
      simp only [remove, hE, Store.remove, hMemM, if_true,
        eraseEntry_heapSize]
      by_cases hLast : e.heapIndex = s.heapSize - 1
      · rw [if_pos hLast]
        exact ⟨rfl, hRep.popLast hE hLast⟩
      · have hInner : e.heapIndex < s.heapSize - 1 := by omega
        obtain ⟨-, e2, hE2, -, -⟩ :=
          hRep.indexed.at_node (s.heapSize - 1) (by omega)
        have hK2 : (s.heap (s.heapSize - 1)).key ≠ key :=
          hRep.key_ne hE (by omega) (by omega)
        have hFind :
            (fillHole (eraseEntry s key) e.heapIndex).entries.find
                ((fillHole (eraseEntry s key) e.heapIndex).heap
                  e.heapIndex).key = some e2 := by
          simp [HashMap.find_erase_ne _ hK2, hE2]
        rw [if_neg hLast, if_pos (by simpa using hInner)]
        simp only [hFind]
        obtain ⟨hIdx, hView⟩ := hRep.fill hE hInner hE2
        have hAgree :
            ∀ j, j ≠ e.heapIndex →
              (reindex (fillHole (eraseEntry s key) e.heapIndex) e.heapIndex
                e2).heap j = s.heap j :=
          fun j hJ => by simp [Function.update_noteq hJ]
        have hSize :
            (reindex (fillHole (eraseEntry s key) e.heapIndex) e.heapIndex
              e2).heapSize ≤ s.heapSize := by simp
        split_ifs with hDir
        · have hParent := hRep.ordered _ hDir.1 hLt
          rw [hAgree _ (Nat.ne_of_lt (parent_lt hDir.1))] at hDir
          obtain ⟨h1, h2, h3⟩ := heapBubbleUp_spec (by simpa using hInner) hIdx
            (upOrdered_of_replace hRep.ordered hAgree hSize
              (le_of_lt (lt_of_lt_of_le hDir.2 hParent)))
          exact ⟨rfl, h1, h2, fun k => (hView k).trans (h3.view k).symm⟩
        · obtain ⟨h1, h2, h3⟩ := heapBubbleDown_spec hIdx
            (downOrdered_of_replace hRep.ordered hAgree hSize
              fun hPos => le_of_not_lt fun hLt' => hDir ⟨hPos, hLt'⟩)
          exact ⟨rfl, h1, h2, fun k => (hView k).trans (h3.view k).symm⟩

------------------------------------------------------------
-- clear
------------------------------------------------------------

/- `clear` leaves the empty store. -/
omit [Inhabited V] in
theorem represents_clear
    (s : HeapExpirator K V) :
    Represents s.clear ∅ := by
  have hBase :
      Represents { s with entries := ∅, heapSize := 0 } (∅ : Store K V) :=
    ⟨⟨fun i hI => absurd hI (Nat.not_lt_zero i),
        fun k e _ hE => by simp at hE⟩,
      fun i _ hI => absurd hI (Nat.not_lt_zero i), fun k => by simp⟩
  simp only [clear]
  split
  · exact hBase.cancel.congr_state rfl rfl rfl
  · exact hBase

------------------------------------------------------------
-- process_expired
------------------------------------------------------------

/- Re-indexing a present key changes no entry's view. -/
theorem view_setHeapIndex
    {entries : HashMap K (EntryData V)}
    {key : K}
    {e : EntryData V}
    (hE : entries.find key = some e)
    (i : Nat)
    (k : K) :
    ((setHeapIndex entries key i).find k).map EntryData.view =
      (entries.find k).map EntryData.view := by
  by_cases hK : k = key
  · subst hK
    simp [find_setHeapIndex, hE, EntryData.view]
  · simp [find_setHeapIndex, hK]

/- Erasing the stale key's entry leaves an indexed heap. -/
omit [Inhabited V] in
theorem IndexedOff.eraseStale
    {u : HeapExpirator K V}
    {key : K}
    (hIdx : IndexedOff u (· = key)) :
    Indexed (eraseEntry u key) := by
  constructor
  · intro i hI
    obtain ⟨hFresh, e, hE, hEi, hEx⟩ := hIdx.at_node i hI
    exact ⟨not_false, e, by simpa [HashMap.find_erase_ne _ hFresh] using hE,
      hEi, hEx⟩
  · intro k e _ hE
    simp only [eraseEntry_entries] at hE
    by_cases hK : k = key
    · subst hK
      simp at hE
    · rw [HashMap.find_erase_ne _ hK] at hE
      exact hIdx.at_entry k e hK hE

/-
  The state the root's sift starts from: the last node is at the
  root and its entry re-indexed; the root's own entry is stale.
-/
theorem Represents.dropRoot
    {s : HeapExpirator K V}
    {M : Store K V}
    (hRep : Represents s M)
    (hMany : s.heapSize - 1 ≠ 0) :
    IndexedOff (setRootIndex (fillHole s 0)) (· = (s.heap 0).key) ∧
      DownOrdered (setRootIndex (fillHole s 0)) 0 := by
  have hLast : s.heapSize - 1 < s.heapSize := by omega
  obtain ⟨-, e2, hE2, hE2i, hE2x⟩ := hRep.indexed.at_node _ hLast
  have hKeyNe : ∀ i, i < s.heapSize → i ≠ 0 → (s.heap i).key ≠ (s.heap 0).key :=
    fun i hI hI0 h => hI0 (hRep.indexed.key_inj hI (by omega) h)
  refine ⟨⟨?_, ?_⟩, downOrdered_of_replace hRep.ordered ?_ ?_ ?_⟩
  · intro i hI
    simp only [setRootIndex_heapSize, fillHole_heapSize] at hI
    by_cases hI0 : i = 0
    · subst hI0
      refine ⟨by simpa using hKeyNe _ hLast (by omega), ?_⟩
      simp [find_setHeapIndex, hE2, hE2x]
    · have hNe : (s.heap i).key ≠ (s.heap (s.heapSize - 1)).key := fun h => by
        have := hRep.indexed.key_inj (by omega) hLast h
        omega
      obtain ⟨-, e', hE', hEi, hEx⟩ := hRep.indexed.at_node i (by omega)
      refine ⟨by simpa [Function.update_noteq hI0] using hKeyNe i (by omega) hI0,
        ?_⟩
      simp [Function.update_noteq hI0, find_setHeapIndex, hNe, hE', hEi, hEx]
  · intro k e hK hE
    simp only [setRootIndex_heapSize, setRootIndex_heap, fillHole_heapSize,
      fillHole_heap]
    simp only [setRootIndex_entries, fillHole_entries, fillHole_heap,
      Function.update_same, find_setHeapIndex] at hE
    split_ifs at hE with hK2
    · subst hK2
      simp only [hE2, Option.getD_some, Option.some.injEq] at hE
      subst hE
      simp
      omega
    · obtain ⟨hLt, hKey⟩ := hRep.indexed.at_entry k e not_false hE
      have hNe0 : e.heapIndex ≠ 0 := fun h => hK (by rw [← hKey, h])
      have hNeLast : e.heapIndex ≠ s.heapSize - 1 :=
        fun h => hK2 (by rw [← hKey, h])
      simp only [Function.update_noteq hNe0]
      exact ⟨by omega, hKey⟩
  · intro j hJ
    simp [Function.update_noteq hJ]
  · simp
  · intro hPos
    exact absurd hPos (Nat.lt_irrefl 0)

/-
  One iteration of `process_expired` on a non-empty heap hands
  the root's entry to the handler and leaves the store without it.
-/
theorem expireRoot_spec
    {s : HeapExpirator K V}
    {M : Store K V}
    (hRep : Represents s M)
    (hSize : s.heapSize ≠ 0) :
    ∃ e, M.find (s.heap 0).key = some e ∧
      e.deadline = (s.heap 0).expiry ∧
      (expireRoot s).1 = some ((s.heap 0).key, e.payload) ∧
      Represents (expireRoot s).2 (M.erase (s.heap 0).key) ∧
      (expireRoot s).2.heapSize = s.heapSize - 1 := by
  obtain ⟨-, e0, hE0, hE0i, hE0x⟩ := hRep.indexed.at_node 0 (by omega)
  refine ⟨e0.view, by rw [hRep.view, hE0]; rfl, hE0x, ?_⟩
  simp only [expireRoot, hE0, fillHole_heapSize]
  refine ⟨rfl, ?_⟩
  split_ifs with hOne
  · have hRoot : Function.update s.heap 0 (s.heap (s.heapSize - 1)) = s.heap := by
      rw [hOne]
      exact Function.update_eq_self 0 s.heap
    refine ⟨(hRep.popLast hE0 (by omega)).congr_state rfl ?_ rfl, by simp⟩
    simp [hRoot]
  · obtain ⟨hIdx, hDown⟩ := hRep.dropRoot hOne
    obtain ⟨hIdx', hOrd', hSame'⟩ := heapBubbleDown_spec hIdx hDown
    refine ⟨⟨hIdx'.eraseStale, hOrd', fun k => ?_⟩, by simp [hSame'.heapSize]⟩
    obtain ⟨-, e2, hE2, -, -⟩ := hRep.indexed.at_node (s.heapSize - 1) (by omega)
    by_cases hK : k = (s.heap 0).key
    · subst hK
      simp
    · rw [HashMap.find_erase_ne _ hK, hRep.view k, eraseEntry_entries,
        HashMap.find_erase_ne _ hK, hSame'.view k]
      exact (view_setHeapIndex hE2 0 k).symm

/- No entry is due once the loop stops. -/
omit [Inhabited V] in
theorem Represents.none_due
    {s : HeapExpirator K V}
    {M : Store K V}
    (hRep : Represents s M)
    {now : Int}
    (hStop : ¬ (s.heapSize ≠ 0 ∧ (s.heap 0).expiry ≤ now))
    {k : K}
    {e : Entry V}
    (hE : M.find k = some e) :
    now < e.deadline := by
  obtain ⟨hSize, hRoot⟩ := hRep.root_le hE
  have : now < (s.heap 0).expiry := lt_of_not_le fun h => hStop ⟨hSize, h⟩
  omega

/- When the loop stops nothing is handed over, and `M` is already retained. -/
omit [Inhabited V] in
theorem Represents.stop
    {s : HeapExpirator K V}
    {M : Store K V}
    (hRep : Represents s M)
    {now : Int}
    (hStop : ¬ (s.heapSize ≠ 0 ∧ (s.heap 0).expiry ≤ now)) :
    M.Hands (fun e => e.deadline ≤ now) [] ∧ Represents s (M.retain now) :=
  ⟨⟨List.nodup_nil, fun k e => by
      simp only [List.not_mem_nil, false_iff, not_and, not_le]
      exact hRep.none_due hStop⟩,
    hRep.congr_store fun k => by
      rw [Store.find_retain]
      cases hE : M.find k with
      | none => rfl
      | some e => simp [hRep.none_due hStop hE]⟩

/- The `process_expired` loop, with fuel for every node. -/
theorem processExpiredLoop_spec
    (now : Int)
    (fuel : Nat)
    {s : HeapExpirator K V}
    {M : Store K V}
    (hRep : Represents s M)
    (hFuel : s.heapSize ≤ fuel) :
    ∃ fired, M.Hands (fun e => e.deadline ≤ now) fired ∧
      fired.Sorted (fun a b => a.2.deadline ≤ b.2.deadline) ∧
      (processExpiredLoop now fuel s).1 = Store.calls fired ∧
      Represents (processExpiredLoop now fuel s).2 (M.retain now) := by
  induction fuel generalizing s M with
  | zero =>
      have hStop : ¬ (s.heapSize ≠ 0 ∧ (s.heap 0).expiry ≤ now) :=
        fun h => h.1 (by omega)
      exact ⟨[], (hRep.stop hStop).1, List.sorted_nil, rfl, (hRep.stop hStop).2⟩
  | succ fuel ih =>
      rw [processExpiredLoop]
      split_ifs with hDue
      · obtain ⟨e, hM, hDl, hCall, hRep', hSize'⟩ := expireRoot_spec hRep hDue.1
        obtain ⟨fired, ⟨hNodup, hMem⟩, hSorted, hCalls, hRep''⟩ :=
          ih hRep' (by omega)
        have hOld :
            ∀ x ∈ fired, M.find x.1 = some x.2 ∧ x.1 ≠ (s.heap 0).key := by
          intro x hX
          have hFind := ((hMem x.1 x.2).mp hX).1
          by_cases hK : x.1 = (s.heap 0).key
          · rw [hK] at hFind
            simp at hFind
          · exact ⟨by rwa [HashMap.find_erase_ne _ hK] at hFind, hK⟩
        refine ⟨⟨(s.heap 0).key, e⟩ :: fired, ⟨?_, ?_⟩, ?_, ?_, ?_⟩
        · refine List.nodup_cons.mpr ⟨fun hIn => ?_, hNodup⟩
          obtain ⟨x, hX, hKey⟩ := List.mem_map.mp hIn
          exact (hOld x hX).2 hKey
        · intro k e'
          rw [List.mem_cons, Sigma.mk.inj_iff]
          by_cases hK : k = (s.heap 0).key
          · subst hK
            rw [hMem, HashMap.find_erase]
            simp only [heq_eq_eq, true_and, hM, Option.some.injEq]
            constructor
            · rintro (rfl | ⟨hNone, -⟩)
              · exact ⟨rfl, hDl ▸ hDue.2⟩
              · exact absurd hNone (by simp)
            · rintro ⟨rfl, -⟩
              exact .inl rfl
          · rw [hMem, HashMap.find_erase_ne _ hK]
            simp [hK]
        · refine List.sorted_cons.mpr ⟨fun x hX => ?_, hSorted⟩
          rw [hDl]
          exact (hRep.root_le (hOld x hX).1).2
        · simp [hCall, hCalls, Store.calls]
        · refine hRep''.congr_store fun k => ?_
          rw [Store.find_retain, Store.find_retain]
          by_cases hK : k = (s.heap 0).key
          · subst hK
            simp [hM, hDl, hDue.2]
          · rw [HashMap.find_erase_ne _ hK]
      · exact ⟨[], (hRep.stop hDue).1, List.sorted_nil, rfl, (hRep.stop hDue).2⟩

/-
  `process_expired` at `now` hands every due entry to the handler
  once, in non-decreasing deadline order, and keeps exactly the
  entries due later.
-/
theorem processExpired_spec
    {s : HeapExpirator K V}
    {M : Store K V}
    (hRep : Represents s M)
    (now : Int) :
    ∃ fired, M.Hands (fun e => e.deadline ≤ now) fired ∧
      fired.Sorted (fun a b => a.2.deadline ≤ b.2.deadline) ∧
      (s.processExpired now).1 = Store.calls fired ∧
      Represents (s.processExpired now).2 (M.retain now) :=
  processExpiredLoop_spec now s.heapSize hRep le_rfl

------------------------------------------------------------
-- Runs
------------------------------------------------------------

omit [Inhabited V] in
theorem represents_init
    [Inhabited K] :
    Represents (init : HeapExpirator K V) ∅ :=
  ⟨⟨fun i hI => absurd hI (Nat.not_lt_zero i),
      fun k e _ hE => by simp [init] at hE⟩,
    fun i _ hI => absurd hI (Nat.not_lt_zero i), fun k => by simp [init]⟩

/- Every call is a step of the abstract store. -/
theorem step_spec
    {s : HeapExpirator K V}
    {M : Store K V}
    (hRep : Represents s M)
    (now : Int)
    (op : Op K V) :
    ∃ M', Store.Step M (op.action now) (s.step now op).1 M' ∧
      Represents (s.step now op).2 M' := by
  cases op with
  | add key ttl info =>
      obtain ⟨hAck, hRep'⟩ := add_spec hRep now key ttl info
      refine ⟨_, ?_, hRep'⟩
      simp only [step, hAck]
      exact .add M key (now + ttl) info
  | remove key =>
      obtain ⟨hAck, hRep'⟩ := remove_spec hRep key
      refine ⟨_, ?_, hRep'⟩
      simp only [step, hAck]
      exact .remove M key
  | updateExpiry key ttl =>
      obtain ⟨hAck, hRep'⟩ := updateExpiry_spec hRep now key ttl
      refine ⟨_, ?_, hRep'⟩
      simp only [step, hAck]
      exact .reschedule M key _
  | clear => exact ⟨∅, .clear M, represents_clear s⟩
  | processExpired =>
      obtain ⟨fired, hHands, hSorted, hCalls, hRep'⟩ :=
        processExpired_spec hRep now
      refine ⟨_, ?_, hRep'⟩
      simp only [step, hCalls]
      exact .expire M now fired hHands hSorted

/- Every sequence of calls is a run of the abstract store. -/
theorem run_spec
    {s : HeapExpirator K V}
    {M : Store K V}
    (hRep : Represents s M)
    (ops : List (Int × Op K V)) :
    ∃ M', Store.Run M (ops.map fun x => x.2.action x.1) (s.run ops).1 M' ∧
      Represents (s.run ops).2 M' := by
  induction ops generalizing s M with
  | nil => exact ⟨M, .nil M, hRep⟩
  | cons call ops ih =>
      obtain ⟨now, op⟩ := call
      obtain ⟨M', hStep, hRep'⟩ := step_spec hRep now op
      obtain ⟨M'', hRun, hRep''⟩ := ih hRep'
      exact ⟨M'', .cons hStep hRun, hRep''⟩

/-
  `heap_expirator` refines the abstract store: every sequence of
  `add`, `remove`, `update_expiry`, `clear` and `process_expired`
  calls, at any clock readings, answers as the store's run does,
  and the queries then agree with the store.
-/
theorem heap_expirator_refines_store
    [Inhabited K]
    (ops : List (Int × Op K V)) :
    ∃ M, Store.Run ∅ (ops.map fun x => x.2.action x.1)
        ((init : HeapExpirator K V).run ops).1 M ∧
      ∀ key now,
        ((init : HeapExpirator K V).run ops).2.contains key =
            decide (key ∈ M) ∧
          ((init : HeapExpirator K V).run ops).2.size = M.entries.length ∧
          ((init : HeapExpirator K V).run ops).2.getInfo key =
            (M.find key).map Entry.payload ∧
          ((init : HeapExpirator K V).run ops).2.getRemainingTime now key =
            (M.find key).map fun e =>
              if e.deadline - now > 0 then e.deadline - now else 0 := by
  obtain ⟨M, hRun, hRep⟩ := run_spec represents_init ops
  exact ⟨M, hRun, fun key now =>
    ⟨hRep.contains_eq key, hRep.size_eq, hRep.getInfo_eq key,
      hRep.getRemainingTime_eq now key⟩⟩

end HeapExpirator

end Expirator

end Vex
