import Vex.Expirator.Heap.Refinement

/-
  The heap invariant of `heap_expirator` over every run, and the
  termination of its two sift loops.

  `HeapValid` states the invariant in the source's terms:
  `heap_` and `entries_` hold the same keys, each once in
  `heap_`; `entries_[k].heap_index` is the position of `k`;
  `heap_[i].expiry` is the expiry of `heap_[i].key`'s entry; and
  the min-heap order.  It follows from `Indexed` and
  `HeapOrdered`, which every call keeps.

  The sift loops are written with a bound as fuel.  Any fuel past
  the bound gives the same state, so each loop stops by its own
  test within the bound.

  Main declarations:
    * `HeapValid`, `Indexed.heapValid`
    * `bubbleUpLoop_enough_fuel`, `bubbleDownLoop_enough_fuel`
    * `heap_invariant_on_every_run`
-/

------------------------------------------------------------
-- Termination of the Sifts
------------------------------------------------------------

namespace Vex

namespace Expirator

namespace HeapExpirator

variable {K V : Type} [DecidableEq K] [Inhabited V]

/- `heap_bubble_up` stops by its own test within `idx` iterations. -/
theorem bubbleUpLoop_enough_fuel
    (fuel fuel' : Nat)
    (s : HeapExpirator K V)
    (idx : Nat)
    (hFuel : idx ≤ fuel)
    (hFuel' : idx ≤ fuel') :
    bubbleUpLoop fuel s idx = bubbleUpLoop fuel' s idx := by
  induction fuel generalizing fuel' s idx with
  | zero =>
      obtain rfl : idx = 0 := by omega
      cases fuel' <;> simp [bubbleUpLoop]
  | succ fuel ih =>
      cases fuel' with
      | zero =>
          obtain rfl : idx = 0 := by omega
          simp [bubbleUpLoop]
      | succ fuel' =>
          simp only [bubbleUpLoop]
          split_ifs with hZero
          · rfl
          · rfl
          · have hP := parent_lt (Nat.pos_of_ne_zero hZero)
            exact ih fuel' _ _ (by omega) (by omega)

/- Past the last node, `heap_bubble_down` has no child to swap with. -/
omit [DecidableEq K] [Inhabited V] in
theorem smallestChild_of_size_le
    (s : HeapExpirator K V)
    {idx : Nat}
    (hEnd : s.heapSize ≤ idx) :
    smallestChild s idx = idx := by
  rcases smallestChild_spec s idx with ⟨hKeep, -⟩ | ⟨hIdxM, hM, -⟩
  · exact hKeep
  · omega

/- `heap_bubble_down` stops by its own test within `heap_.size() - idx` iterations. -/
theorem bubbleDownLoop_enough_fuel
    (fuel fuel' : Nat)
    (s : HeapExpirator K V)
    (idx : Nat)
    (hFuel : s.heapSize - idx ≤ fuel)
    (hFuel' : s.heapSize - idx ≤ fuel') :
    bubbleDownLoop fuel s idx = bubbleDownLoop fuel' s idx := by
  induction fuel generalizing fuel' s idx with
  | zero =>
      cases fuel' with
      | zero => rfl
      | succ fuel' =>
          simp [bubbleDownLoop, smallestChild_of_size_le s (by omega : s.heapSize ≤ idx)]
  | succ fuel ih =>
      cases fuel' with
      | zero =>
          simp [bubbleDownLoop, smallestChild_of_size_le s (by omega : s.heapSize ≤ idx)]
      | succ fuel' =>
          simp only [bubbleDownLoop]
          rcases smallestChild_spec s idx with ⟨hKeep, -⟩ | ⟨hIdxM, hM, -⟩
          · rw [if_pos hKeep, if_pos hKeep]
          · rw [if_neg (Nat.ne_of_gt hIdxM), if_neg (Nat.ne_of_gt hIdxM)]
            exact ih fuel' _ _ (by simp only [swapNodes_heapSize]; omega)
              (by simp only [swapNodes_heapSize]; omega)

------------------------------------------------------------
-- The Invariant
------------------------------------------------------------

/- The invariant of `heap_` and `entries_`, in the source's terms. -/
omit [Inhabited V] in
structure HeapValid (s : HeapExpirator K V) : Prop where
  same_keys : ∀ k, k ∈ s.entries ↔ ∃ i, i < s.heapSize ∧ (s.heap i).key = k
  key_once :
    ∀ i j, i < s.heapSize → j < s.heapSize → (s.heap i).key = (s.heap j).key → i = j
  heap_index :
    ∀ k e, s.entries.find k = some e → e.heapIndex < s.heapSize ∧ (s.heap e.heapIndex).key = k
  expiry_agrees :
    ∀ i, i < s.heapSize →
      ∃ e, s.entries.find (s.heap i).key = some e ∧ e.expiry = (s.heap i).expiry
  ordered :
    ∀ i, 0 < i → i < s.heapSize → (s.heap (parent i)).expiry ≤ (s.heap i).expiry

/- The index and the order give the invariant. -/
omit [Inhabited V] in
theorem Indexed.heapValid
    {s : HeapExpirator K V}
    (hIdx : Indexed s)
    (hOrd : HeapOrdered s) :
    HeapValid s where
  same_keys k := by
    rw [HashMap.mem_iff_find, Option.isSome_iff_exists]
    constructor
    · rintro ⟨e, hE⟩
      exact ⟨e.heapIndex, hIdx.at_entry k e not_false hE⟩
    · rintro ⟨i, hI, rfl⟩
      obtain ⟨-, e, hE, -⟩ := hIdx.at_node i hI
      exact ⟨e, hE⟩
  key_once _ _ hI hJ hKey := hIdx.key_inj hI hJ hKey
  heap_index k e hE := hIdx.at_entry k e not_false hE
  expiry_agrees i hI := by
    obtain ⟨-, e, hE, -, hExp⟩ := hIdx.at_node i hI
    exact ⟨e, hE, hExp⟩
  ordered := hOrd

/-
  Every state reachable by `add`, `remove`, `update_expiry`,
  `clear` and `process_expired` calls, at any clock readings,
  keeps the invariant.  Each sift, started from an index that
  holds in `entries_` and `heap_` (a `stale` key aside, as in
  `process_expired`) and an order broken at one position only,
  stops within its bound and restores the index and the order
  without changing any entry but its position.
-/
theorem heap_invariant_on_every_run
    [Inhabited K] :
    (∀ ops : List (Int × Op K V), HeapValid ((init : HeapExpirator K V).run ops).2) ∧
      (∀ (s : HeapExpirator K V) (stale : K → Prop) (idx : Nat),
        idx < s.heapSize → IndexedOff s stale → UpOrdered s idx →
          (∀ fuel, idx ≤ fuel → bubbleUpLoop fuel s idx = heapBubbleUp s idx) ∧
            IndexedOff (heapBubbleUp s idx) stale ∧ HeapOrdered (heapBubbleUp s idx) ∧
            SameStore s (heapBubbleUp s idx)) ∧
      ∀ (s : HeapExpirator K V) (stale : K → Prop) (idx : Nat),
        IndexedOff s stale → DownOrdered s idx →
          (∀ fuel, s.heapSize - idx ≤ fuel → bubbleDownLoop fuel s idx = heapBubbleDown s idx) ∧
            IndexedOff (heapBubbleDown s idx) stale ∧ HeapOrdered (heapBubbleDown s idx) ∧
            SameStore s (heapBubbleDown s idx) := by
  refine ⟨fun ops => ?_, fun s stale idx hLt hIdx hUp => ?_, fun s stale idx hIdx hDown => ?_⟩
  · obtain ⟨M, -, hRep⟩ := run_spec represents_init ops
    exact hRep.indexed.heapValid hRep.ordered
  · exact ⟨fun fuel hFuel => bubbleUpLoop_enough_fuel fuel idx s idx hFuel le_rfl,
      heapBubbleUp_spec hLt hIdx hUp⟩
  · exact ⟨fun fuel hFuel => bubbleDownLoop_enough_fuel fuel s.heapSize s idx hFuel
        (Nat.sub_le _ _),
      heapBubbleDown_spec hIdx hDown⟩

/- Keys 1, 2 and 3 added at clock 0, due at 5, 7 and 9: a root and its two children. -/
def threeEntries : HeapExpirator Nat Unit :=
  ((init : HeapExpirator Nat Unit).run [(0, .add 1 5 ()), (0, .add 2 7 ()), (0, .add 3 9 ())]).2

/- Key 3, the last node, due at 1, as `update_expiry` writes it before its sift up. -/
def loweredLeaf : HeapExpirator Nat Unit :=
  retimeNode threeEntries 3 ⟨9, (), 2⟩ 1

/- Key 1, the root, due at 10, as `update_expiry` writes it before its sift down. -/
def raisedRoot : HeapExpirator Nat Unit :=
  retimeNode threeEntries 1 ⟨5, (), 0⟩ 10

/-
  Both sifts of `update_expiry` on `threeEntries`, each with a
  swap: the sift up takes key 3 from the last position to the
  root, the sift down takes key 1 below key 2.
-/
theorem heap_sifts_swap_retimed_keys :
    (2 < loweredLeaf.heapSize ∧ IndexedOff loweredLeaf (fun _ => False) ∧ UpOrdered loweredLeaf 2 ∧
        ((∀ fuel, 2 ≤ fuel → bubbleUpLoop fuel loweredLeaf 2 = heapBubbleUp loweredLeaf 2) ∧
          IndexedOff (heapBubbleUp loweredLeaf 2) (fun _ => False) ∧
          HeapOrdered (heapBubbleUp loweredLeaf 2) ∧ SameStore loweredLeaf (heapBubbleUp loweredLeaf 2)) ∧
        ((heapBubbleUp loweredLeaf 2).heap 0).key = 3) ∧
      IndexedOff raisedRoot (fun _ => False) ∧ DownOrdered raisedRoot 0 ∧
        ((∀ fuel, raisedRoot.heapSize - 0 ≤ fuel → bubbleDownLoop fuel raisedRoot 0 = heapBubbleDown raisedRoot 0) ∧
          IndexedOff (heapBubbleDown raisedRoot 0) (fun _ => False) ∧
          HeapOrdered (heapBubbleDown raisedRoot 0) ∧ SameStore raisedRoot (heapBubbleDown raisedRoot 0)) ∧
        ((heapBubbleDown raisedRoot 0).heap 0).key = 2 := by
  obtain ⟨M, -, hRep⟩ := run_spec represents_init [(0, Op.add 1 5 ()), (0, Op.add 2 7 ()), (0, Op.add 3 9 ())]
  have hRep : Represents threeEntries M := hRep
  have hAgree : ∀ (key : Nat) (e : EntryData Unit) (expiry : Int) (j : Nat), j ≠ e.heapIndex →
      (retimeNode threeEntries key e expiry).heap j = threeEntries.heap j :=
    fun _ _ _ j hJ => by simp [Function.update_noteq hJ]
  have hLeaf : Indexed loweredLeaf := (hRep.retime (by decide) 1).1
  have hRoot : Indexed raisedRoot := (hRep.retime (by decide) 10).1
  have hUp : UpOrdered loweredLeaf 2 :=
    upOrdered_of_replace hRep.ordered (hAgree 3 ⟨9, (), 2⟩ 1) le_rfl (by decide)
  have hDown : DownOrdered raisedRoot 0 :=
    downOrdered_of_replace hRep.ordered (hAgree 1 ⟨5, (), 0⟩ 10) le_rfl fun h => absurd h (lt_irrefl 0)
  have hInv := heap_invariant_on_every_run (K := Nat) (V := Unit)
  exact ⟨⟨by decide, hLeaf, hUp, hInv.2.1 loweredLeaf (fun _ => False) 2 (by decide) hLeaf hUp, by decide⟩,
    hRoot, hDown, hInv.2.2 raisedRoot (fun _ => False) 0 hRoot hDown, by decide⟩

end HeapExpirator

end Expirator

end Vex
