import Vex.Expirator.Heap.Basic
import Mathlib.Logic.Equiv.Basic

/-
  The two sift loops keep the heap.

  `Indexed` says that `entries_` and `heap_` index each other;
  every swap keeps it, and changes no entry but its position.
  `HeapOrdered` is the min-heap order.  A sift starts from a
  heap that is ordered but for one index: `UpOrdered` for
  `heap_bubble_up` (the node may be before its parent) and
  `DownOrdered` for `heap_bubble_down` (the node may be after
  its children).  Each swap moves the exception one level.

  Main declarations:
    * `IndexedOff`, `Indexed`, `HeapOrdered`, `SameStore`
    * `heapBubbleUp_spec`
    * `heapBubbleDown_spec`
-/

------------------------------------------------------------
-- Invariants
------------------------------------------------------------

namespace Vex

namespace Expirator

namespace HeapExpirator

variable {K V : Type} [DecidableEq K] [Inhabited V]

/-
  `entries_` and `heap_` index each other, but for the entries of
  the `stale` keys, which no node holds.  `process_expired` erases
  the root's entry only after re-sifting, so its sift runs with
  the root's key stale.
-/
structure IndexedOff
    (s : HeapExpirator K V)
    (stale : K → Prop) : Prop where
  at_node :
    ∀ i, i < s.heapSize →
      ¬ stale (s.heap i).key ∧
        ∃ e, s.entries.find (s.heap i).key = some e ∧
          e.heapIndex = i ∧ e.expiry = (s.heap i).expiry
  at_entry :
    ∀ k e, ¬ stale k → s.entries.find k = some e →
      e.heapIndex < s.heapSize ∧ (s.heap e.heapIndex).key = k

/- `entries_` and `heap_` index each other. -/
abbrev Indexed (s : HeapExpirator K V) : Prop :=
  IndexedOff s (fun _ => False)

/- The min-heap order on the first `heapSize` nodes. -/
def HeapOrdered (s : HeapExpirator K V) : Prop :=
  ∀ i, 0 < i → i < s.heapSize →
    (s.heap (parent i)).expiry ≤ (s.heap i).expiry

/- Ordered but for the pair of `idx` and its parent. -/
structure UpOrdered (s : HeapExpirator K V) (idx : Nat) : Prop where
  except :
    ∀ i, 0 < i → i < s.heapSize → i ≠ idx →
      (s.heap (parent i)).expiry ≤ (s.heap i).expiry
  grand :
    0 < idx → ∀ c, 0 < c → c < s.heapSize → parent c = idx →
      (s.heap (parent idx)).expiry ≤ (s.heap c).expiry

/- Ordered but for the pairs of `idx` and its children. -/
structure DownOrdered (s : HeapExpirator K V) (idx : Nat) : Prop where
  except :
    ∀ i, 0 < i → i < s.heapSize → parent i ≠ idx →
      (s.heap (parent i)).expiry ≤ (s.heap i).expiry
  grand :
    0 < idx → ∀ c, 0 < c → c < s.heapSize → parent c = idx →
      (s.heap (parent idx)).expiry ≤ (s.heap c).expiry

/- Two states that differ at most in the heap positions. -/
structure SameStore (s t : HeapExpirator K V) : Prop where
  heapSize : t.heapSize = s.heapSize
  running : t.running = s.running
  timer : t.timer = s.timer
  view :
    ∀ k, (t.entries.find k).map EntryData.view =
      (s.entries.find k).map EntryData.view

omit [Inhabited V] in
theorem SameStore.refl (s : HeapExpirator K V) : SameStore s s :=
  ⟨rfl, rfl, rfl, fun _ => rfl⟩

omit [Inhabited V] in
theorem SameStore.trans
    {s t u : HeapExpirator K V}
    (hST : SameStore s t)
    (hTU : SameStore t u) :
    SameStore s u :=
  ⟨hTU.heapSize.trans hST.heapSize, hTU.running.trans hST.running,
    hTU.timer.trans hST.timer, fun k => (hTU.view k).trans (hST.view k)⟩

omit [Inhabited V] in
theorem parent_lt {i : Nat} (hI : 0 < i) : parent i < i := by
  unfold parent; omega

------------------------------------------------------------
-- Swaps
------------------------------------------------------------

theorem find_setHeapIndex
    (entries : HashMap K (EntryData V))
    (key k : K)
    (i : Nat) :
    (setHeapIndex entries key i).find k =
      if k = key then
        some { (entries.find key).getD ⟨0, default, 0⟩ with heapIndex := i }
      else entries.find k := by
  by_cases hK : k = key
  · subst hK; simp [setHeapIndex, HashMap.find_insert]
  · simp [setHeapIndex, HashMap.find_insert_ne _ _ hK, hK]

/- The node a swap puts at `n` comes from `Equiv.swap i j n`. -/
@[simp] theorem swapNodes_heap
    (s : HeapExpirator K V)
    (i j n : Nat) :
    (swapNodes s i j).heap n = s.heap (Equiv.swap i j n) := by
  simp only [swapNodes, Equiv.swap_apply_def]
  split_ifs <;> simp_all

@[simp] theorem swapNodes_heapSize
    (s : HeapExpirator K V)
    (i j : Nat) :
    (swapNodes s i j).heapSize = s.heapSize :=
  rfl

@[simp] theorem swapNodes_running
    (s : HeapExpirator K V)
    (i j : Nat) :
    (swapNodes s i j).running = s.running :=
  rfl

@[simp] theorem swapNodes_timer
    (s : HeapExpirator K V)
    (i j : Nat) :
    (swapNodes s i j).timer = s.timer :=
  rfl

/- Two positions of an indexed heap hold different keys. -/
omit [Inhabited V] in
theorem IndexedOff.key_inj
    {s : HeapExpirator K V}
    {stale : K → Prop}
    (hIdx : IndexedOff s stale)
    {i j : Nat}
    (hI : i < s.heapSize)
    (hJ : j < s.heapSize)
    (hKey : (s.heap i).key = (s.heap j).key) :
    i = j := by
  obtain ⟨-, e, hE, hEi, -⟩ := hIdx.at_node i hI
  obtain ⟨-, e', hE', hEj, -⟩ := hIdx.at_node j hJ
  rw [hKey, hE'] at hE
  cases hE
  omega

theorem swapNodes_entries
    (s : HeapExpirator K V)
    (i j : Nat) :
    (swapNodes s i j).entries =
      setHeapIndex (setHeapIndex s.entries (s.heap j).key i)
        (s.heap i).key j := by
  by_cases hIJ : i = j
  · subst hIJ; simp [swapNodes]
  · simp [swapNodes, hIJ, Ne.symm hIJ]

/- After a swap every live entry's position is swapped the same way. -/
theorem IndexedOff.find_swapNodes
    {s : HeapExpirator K V}
    {stale : K → Prop}
    (hIdx : IndexedOff s stale)
    {i j : Nat}
    (hI : i < s.heapSize)
    (hJ : j < s.heapSize)
    {k : K}
    (hK : ¬ stale k) :
    (swapNodes s i j).entries.find k =
      (s.entries.find k).map fun e =>
        { e with heapIndex := Equiv.swap i j e.heapIndex } := by
  obtain ⟨-, ei, hEi, hEiI, -⟩ := hIdx.at_node i hI
  obtain ⟨-, ej, hEj, hEjJ, -⟩ := hIdx.at_node j hJ
  rw [swapNodes_entries]
  by_cases hKi : k = (s.heap i).key
  · subst hKi
    by_cases hIJ : i = j
    · subst hIJ
      simp [find_setHeapIndex, hEi, hEiI]
    · have hNe : (s.heap i).key ≠ (s.heap j).key :=
        fun h => hIJ (hIdx.key_inj hI hJ h)
      simp [find_setHeapIndex, hEi, hEiI, hNe, Equiv.swap_apply_left]
  · by_cases hKj : k = (s.heap j).key
    · subst hKj
      simp [find_setHeapIndex, hKi, hEj, hEjJ, Equiv.swap_apply_right]
    · cases hE : s.entries.find k with
      | none => simp [find_setHeapIndex, hKi, hKj, hE]
      | some e =>
          obtain ⟨-, hKey⟩ := hIdx.at_entry k e hK hE
          have hNI : e.heapIndex ≠ i := fun h => hKi (by rw [← hKey, h])
          have hNJ : e.heapIndex ≠ j := fun h => hKj (by rw [← hKey, h])
          simp [find_setHeapIndex, hKi, hKj, hE,
            Equiv.swap_apply_of_ne_of_ne hNI hNJ]

/- A swap leaves the entries of stale keys alone. -/
theorem IndexedOff.find_swapNodes_stale
    {s : HeapExpirator K V}
    {stale : K → Prop}
    (hIdx : IndexedOff s stale)
    {i j : Nat}
    (hI : i < s.heapSize)
    (hJ : j < s.heapSize)
    {k : K}
    (hK : stale k) :
    (swapNodes s i j).entries.find k = s.entries.find k := by
  have hKi : k ≠ (s.heap i).key := fun h => (hIdx.at_node i hI).1 (h ▸ hK)
  have hKj : k ≠ (s.heap j).key := fun h => (hIdx.at_node j hJ).1 (h ▸ hK)
  rw [swapNodes_entries]
  simp [find_setHeapIndex, hKi, hKj]

/- Swapping two nodes in the heap keeps the index. -/
theorem IndexedOff.swap
    {s : HeapExpirator K V}
    {stale : K → Prop}
    (hIdx : IndexedOff s stale)
    {i j : Nat}
    (hI : i < s.heapSize)
    (hJ : j < s.heapSize) :
    IndexedOff (swapNodes s i j) stale := by
  have hSwapLt : ∀ n, n < s.heapSize → Equiv.swap i j n < s.heapSize := by
    intro n hN
    rw [Equiv.swap_apply_def]
    split_ifs <;> assumption
  constructor
  · intro n hN
    rw [swapNodes_heapSize] at hN
    obtain ⟨hFresh, e, hE, hEn, hEx⟩ := hIdx.at_node _ (hSwapLt n hN)
    refine ⟨by simpa using hFresh, { e with heapIndex := n }, ?_, rfl,
      by simp [hEx]⟩
    rw [hIdx.find_swapNodes hI hJ (by simpa using hFresh),
      swapNodes_heap, hE]
    simp [hEn, Equiv.swap_apply_self]
  · intro k e hK hE
    rw [hIdx.find_swapNodes hI hJ hK] at hE
    obtain ⟨e', hE', rfl⟩ := Option.map_eq_some'.mp hE
    obtain ⟨hLt, hKey⟩ := hIdx.at_entry k e' hK hE'
    exact ⟨hSwapLt _ hLt, by simp [Equiv.swap_apply_self, hKey]⟩

/- A swap changes no entry but its position. -/
theorem IndexedOff.sameStore_swapNodes
    {s : HeapExpirator K V}
    {stale : K → Prop}
    (hIdx : IndexedOff s stale)
    {i j : Nat}
    (hI : i < s.heapSize)
    (hJ : j < s.heapSize) :
    SameStore s (swapNodes s i j) := by
  refine ⟨rfl, rfl, rfl, fun k => ?_⟩
  by_cases hK : stale k
  · rw [hIdx.find_swapNodes_stale hI hJ hK]
  · rw [hIdx.find_swapNodes hI hJ hK, Option.map_map]
    rfl

------------------------------------------------------------
-- heap_bubble_up
------------------------------------------------------------

theorem swapNodes_heap_eq
    (s : HeapExpirator K V)
    (i j n : Nat) :
    (swapNodes s i j).heap n =
      if n = i then s.heap j else if n = j then s.heap i else s.heap n :=
  rfl

/- Swapping a node with its later parent moves the exception up. -/
theorem UpOrdered.swap
    {s : HeapExpirator K V}
    {idx : Nat}
    (hUp : UpOrdered s idx)
    (hPos : 0 < idx)
    (hBefore : (s.heap idx).expiry < (s.heap (parent idx)).expiry) :
    UpOrdered (swapNodes s idx (parent idx)) (parent idx) := by
  have hP : parent idx < idx := parent_lt hPos
  constructor
  · intro i hI0 hI hIP
    rw [swapNodes_heapSize] at hI
    rw [swapNodes_heap_eq, swapNodes_heap_eq]
    by_cases hII : i = idx
    · subst hII
      rw [if_neg (Nat.ne_of_lt hP), if_pos rfl, if_pos rfl]
      exact le_of_lt hBefore
    · rw [if_neg hII, if_neg hIP]
      by_cases hPI : parent i = parent idx
      · have hOrd := hUp.except i hI0 hI hII
        rw [hPI] at hOrd ⊢
        rw [if_neg (Nat.ne_of_lt hP), if_pos rfl]
        exact le_trans (le_of_lt hBefore) hOrd
      · by_cases hPC : parent i = idx
        · rw [if_pos hPC]
          exact hUp.grand hPos i hI0 hI hPC
        · rw [if_neg hPC, if_neg hPI]
          exact hUp.except i hI0 hI hII
  · intro hP0 c hC0 hC hCP
    rw [swapNodes_heapSize] at hC
    have hPP : parent (parent idx) < parent idx := parent_lt hP0
    have hCP' : parent idx < c := hCP ▸ parent_lt hC0
    rw [swapNodes_heap_eq, swapNodes_heap_eq, if_neg (by omega),
      if_neg (by omega)]
    have hParent :=
      hUp.except (parent idx) hP0 (by omega) (Nat.ne_of_lt hP)
    by_cases hCI : c = idx
    · rw [if_pos hCI]
      exact hParent
    · rw [if_neg hCI, if_neg (Nat.ne_of_gt hCP')]
      have hOrd := hUp.except c hC0 hC hCI
      rw [hCP] at hOrd
      exact le_trans hParent hOrd

/- The loop stops on an ordered pair, or at the root. -/
omit [DecidableEq K] [Inhabited V] in
theorem UpOrdered.finish
    {s : HeapExpirator K V}
    {idx : Nat}
    (hUp : UpOrdered s idx)
    (hStop :
      idx = 0 ∨ (s.heap (parent idx)).expiry ≤ (s.heap idx).expiry) :
    HeapOrdered s := by
  intro i hI0 hI
  by_cases hII : i = idx
  · subst hII
    rcases hStop with hZero | hOrd
    · omega
    · exact hOrd
  · exact hUp.except i hI0 hI hII

theorem bubbleUpLoop_spec
    {stale : K → Prop}
    (fuel : Nat)
    (s : HeapExpirator K V)
    (idx : Nat)
    (hFuel : idx ≤ fuel)
    (hLt : idx < s.heapSize)
    (hIdx : IndexedOff s stale)
    (hUp : UpOrdered s idx) :
    IndexedOff (bubbleUpLoop fuel s idx) stale ∧
      HeapOrdered (bubbleUpLoop fuel s idx) ∧
      SameStore s (bubbleUpLoop fuel s idx) := by
  induction fuel generalizing s idx with
  | zero =>
      exact ⟨hIdx, hUp.finish (.inl (by omega)), .refl s⟩
  | succ fuel ih =>
      rw [bubbleUpLoop]
      split_ifs with hZero hStop
      · exact ⟨hIdx, hUp.finish (.inl hZero), .refl s⟩
      · exact ⟨hIdx, hUp.finish (.inr hStop), .refl s⟩
      · have hPos : 0 < idx := Nat.pos_of_ne_zero hZero
        have hP : parent idx < idx := parent_lt hPos
        obtain ⟨hIdx', hOrd', hSame'⟩ :=
          ih (swapNodes s idx (parent idx)) (parent idx) (by omega)
            (by simp only [swapNodes_heapSize]; omega)
            (hIdx.swap hLt (by omega))
            (hUp.swap hPos (lt_of_not_le hStop))
        exact ⟨hIdx', hOrd',
          (hIdx.sameStore_swapNodes hLt (by omega)).trans hSame'⟩

/- `heap_bubble_up` restores the heap from an upward exception. -/
theorem heapBubbleUp_spec
    {s : HeapExpirator K V}
    {stale : K → Prop}
    {idx : Nat}
    (hLt : idx < s.heapSize)
    (hIdx : IndexedOff s stale)
    (hUp : UpOrdered s idx) :
    IndexedOff (heapBubbleUp s idx) stale ∧
      HeapOrdered (heapBubbleUp s idx) ∧
      SameStore s (heapBubbleUp s idx) :=
  bubbleUpLoop_spec idx s idx le_rfl hLt hIdx hUp

------------------------------------------------------------
-- heap_bubble_down
------------------------------------------------------------

omit [Inhabited V] in
theorem isChild_iff
    {c idx : Nat} :
    0 < c ∧ parent c = idx ↔ c = leftChild idx ∨ c = rightChild idx := by
  unfold parent leftChild rightChild
  omega

/-
  `smallestChild` either keeps `idx`, which is then at or before
  its children, or picks the earliest child, which is before it.
-/
omit [DecidableEq K] [Inhabited V] in
theorem smallestChild_spec
    (s : HeapExpirator K V)
    (idx : Nat) :
    (smallestChild s idx = idx ∧
      ∀ c, 0 < c → c < s.heapSize → parent c = idx →
        (s.heap idx).expiry ≤ (s.heap c).expiry) ∨
    (idx < smallestChild s idx ∧ smallestChild s idx < s.heapSize ∧
      parent (smallestChild s idx) = idx ∧
      (s.heap (smallestChild s idx)).expiry < (s.heap idx).expiry ∧
      ∀ c, 0 < c → c < s.heapSize → parent c = idx →
        (s.heap (smallestChild s idx)).expiry ≤ (s.heap c).expiry) := by
  have hChild : ∀ c, 0 < c → parent c = idx →
      c = leftChild idx ∨ c = rightChild idx :=
    fun c hC0 hCP => isChild_iff.mp ⟨hC0, hCP⟩
  have hLeft : parent (leftChild idx) = idx := by
    unfold parent leftChild; omega
  have hRight : parent (rightChild idx) = idx := by
    unfold parent rightChild; omega
  have hOrder : idx < leftChild idx ∧ idx < rightChild idx := by
    unfold leftChild rightChild; omega
  dsimp only [smallestChild]
  split_ifs with hL hR hR
  · refine .inr ⟨hOrder.2, hR.1, hRight, by omega, fun c hC0 hC hCP => ?_⟩
    rcases hChild c hC0 hCP with rfl | rfl <;> omega
  · refine .inr ⟨hOrder.1, hL.1, hLeft, hL.2, fun c hC0 hC hCP => ?_⟩
    rcases hChild c hC0 hCP with rfl | rfl <;> omega
  · refine .inr ⟨hOrder.2, hR.1, hRight, hR.2, fun c hC0 hC hCP => ?_⟩
    rcases hChild c hC0 hCP with rfl | rfl <;> omega
  · refine .inl ⟨rfl, fun c hC0 hC hCP => ?_⟩
    rcases hChild c hC0 hCP with rfl | rfl <;> omega

/- Swapping a node with its earliest, earlier child moves the exception down. -/
theorem DownOrdered.swap
    {s : HeapExpirator K V}
    {idx m : Nat}
    (hDown : DownOrdered s idx)
    (hIdxM : idx < m)
    (hM : m < s.heapSize)
    (hParent : parent m = idx)
    (hBefore : (s.heap m).expiry < (s.heap idx).expiry)
    (hMin :
      ∀ c, 0 < c → c < s.heapSize → parent c = idx →
        (s.heap m).expiry ≤ (s.heap c).expiry) :
    DownOrdered (swapNodes s idx m) m := by
  have hM0 : 0 < m := by omega
  constructor
  · intro i hI0 hI hIP
    rw [swapNodes_heapSize] at hI
    rw [swapNodes_heap_eq, swapNodes_heap_eq]
    by_cases hIM : i = m
    · subst hIM
      rw [hParent, if_pos rfl, if_neg (Nat.ne_of_gt hIdxM), if_pos rfl]
      exact le_of_lt hBefore
    · by_cases hII : i = idx
      · subst hII
        have hPI : parent i < i := parent_lt hI0
        rw [if_neg (Nat.ne_of_lt hPI), if_neg (by omega), if_pos rfl]
        exact hDown.grand hI0 m hM0 hM hParent
      · rw [if_neg hII, if_neg hIM]
        by_cases hPI : parent i = idx
        · rw [if_pos hPI]
          exact hMin i hI0 hI hPI
        · rw [if_neg hPI, if_neg hIP]
          exact hDown.except i hI0 hI hPI
  · intro _ c hC0 hC hCP
    rw [swapNodes_heapSize] at hC
    have hMC : m < c := hCP ▸ parent_lt hC0
    rw [swapNodes_heap_eq, swapNodes_heap_eq, hParent, if_pos rfl,
      if_neg (by omega), if_neg (by omega)]
    have hOrd := hDown.except c hC0 hC (by omega)
    rw [hCP] at hOrd
    exact hOrd

/- The loop stops where the node is at or before its children. -/
omit [DecidableEq K] [Inhabited V] in
theorem DownOrdered.finish
    {s : HeapExpirator K V}
    {idx : Nat}
    (hDown : DownOrdered s idx)
    (hStop :
      ∀ c, 0 < c → c < s.heapSize → parent c = idx →
        (s.heap idx).expiry ≤ (s.heap c).expiry) :
    HeapOrdered s := by
  intro i hI0 hI
  by_cases hPI : parent i = idx
  · rw [hPI]
    exact hStop i hI0 hI hPI
  · exact hDown.except i hI0 hI hPI

theorem bubbleDownLoop_spec
    {stale : K → Prop}
    (fuel : Nat)
    (s : HeapExpirator K V)
    (idx : Nat)
    (hFuel : s.heapSize - idx ≤ fuel)
    (hIdx : IndexedOff s stale)
    (hDown : DownOrdered s idx) :
    IndexedOff (bubbleDownLoop fuel s idx) stale ∧
      HeapOrdered (bubbleDownLoop fuel s idx) ∧
      SameStore s (bubbleDownLoop fuel s idx) := by
  induction fuel generalizing s idx with
  | zero =>
      refine ⟨hIdx, hDown.finish ?_, .refl s⟩
      intro c hC0 hC hCP
      have := parent_lt hC0
      omega
  | succ fuel ih =>
      rw [bubbleDownLoop]
      rcases smallestChild_spec s idx with
        ⟨hKeep, hStop⟩ | ⟨hIdxM, hM, hParent, hBefore, hMin⟩
      · rw [if_pos hKeep]
        exact ⟨hIdx, hDown.finish hStop, .refl s⟩
      · rw [if_neg (Nat.ne_of_gt hIdxM)]
        obtain ⟨hIdx', hOrd', hSame'⟩ :=
          ih (swapNodes s idx (smallestChild s idx)) (smallestChild s idx)
            (by simp only [swapNodes_heapSize]; omega)
            (hIdx.swap (by omega) hM)
            (hDown.swap hIdxM hM hParent hBefore hMin)
        exact ⟨hIdx', hOrd',
          (hIdx.sameStore_swapNodes (by omega) hM).trans hSame'⟩

/- `heap_bubble_down` restores the heap from a downward exception. -/
theorem heapBubbleDown_spec
    {s : HeapExpirator K V}
    {stale : K → Prop}
    {idx : Nat}
    (hIdx : IndexedOff s stale)
    (hDown : DownOrdered s idx) :
    IndexedOff (heapBubbleDown s idx) stale ∧
      HeapOrdered (heapBubbleDown s idx) ∧
      SameStore s (heapBubbleDown s idx) :=
  bubbleDownLoop_spec s.heapSize s idx (Nat.sub_le _ _) hIdx hDown

end HeapExpirator

end Expirator

end Vex
