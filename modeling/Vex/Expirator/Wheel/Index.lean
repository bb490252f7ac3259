import Vex.Expirator.Wheel

/-
  The key index of the timing wheel expirator and the entries its
  wheels hold, over every run.

  `key_to_entry_` maps a key to the iterator of its node.  The
  model keeps the slot the iterator points into, and the node is
  the one of that key in the slot.  `Placed s pending` says that
  every node lies in the slot it records, within its wheel, with
  the map pointing its key there; that the map points every key
  at a node of that key; and that no slot holds a key twice.
  `pending` are the nodes a cascade has taken out of their slot
  and not yet put back.  `Holds s pending M` says that the nodes,
  with the pending ones, are the entries of the abstract store
  `M`.

  Every call changes `M` as `Changes` says: `add` puts one entry
  in, `remove` takes one out, `clear` takes all out, `start` and
  `stop` keep it, and a tick takes out one entry per handler
  call.  A cascade keeps it.  The (key, payload, expiry) of the
  nodes of `allNodes`, over the four wheels, are then the entries
  of `M`, each once.

  Key definitions include:
    * `wheelSize`, `Placed`, `Holds`, `Represents`, `allNodes`
    * `Op`, `step`, `run`, `Changes`

  Key theorems include:
    * `Represents.insertEntry`, `Represents.cascadeWheel`
    * `Represents.processSlot`, `Represents.remove`
    * `step_spec`, `run_spec`, `Represents.allNodes_perm`
    * `timing_wheel_index_is_consistent`
-/

------------------------------------------------------------
-- The Index
------------------------------------------------------------

namespace Vex

namespace Expirator

/- The entry a node stands for. -/
def EntryNode.entry
    {K V : Type}
    (n : EntryNode K V) : Entry V :=
  ⟨n.expiry, n.info⟩

namespace TimingWheel

variable {K V : Type}

/- The number of slots of wheel `level`, as `get_wheel` reads it. -/
def wheelSize : Nat → Nat
  | 0 => wheel0Size
  | 1 => wheel1Size
  | 2 => wheel2Size
  | _ => wheel3Size

variable [DecidableEq K]

/-
  The wheels and `key_to_entry_` agree, but for the nodes of
  `pending`, which a cascade holds out of the wheels.
-/
structure Placed
    (s : TimingWheel K V)
    (pending : List (EntryNode K V)) : Prop where
  at_node :
    ∀ l i n, n ∈ s.wheels l i →
      n.wheelLevel = l ∧ n.slotIndex = i ∧ l ≤ 3 ∧ i < wheelSize l ∧
        s.keyToEntry.find n.key = some (l, i)
  at_key :
    ∀ k l i, s.keyToEntry.find k = some (l, i) → k ∉ pending.map (·.key) →
      ∃ n ∈ s.wheels l i, n.key = k
  nodup : ∀ l i, ((s.wheels l i).map (·.key)).Nodup
  pending_nodup : (pending.map (·.key)).Nodup
  pending_out : ∀ l i n, n ∈ s.wheels l i → n.key ∉ pending.map (·.key)

/- The nodes of the wheels and of `pending` are the entries of `M`. -/
def Holds
    (s : TimingWheel K V)
    (pending : List (EntryNode K V))
    (M : Store K V) : Prop :=
  ∀ k e, M.find k = some e ↔
    ∃ n, (n ∈ pending ∨ ∃ l i, n ∈ s.wheels l i) ∧ n.key = k ∧ n.entry = e

/- A consistent wheel whose nodes are the entries of `M`. -/
structure Represents
    (s : TimingWheel K V)
    (M : Store K V) : Prop where
  placed : Placed s []
  holds : Holds s [] M

/- Two nodes of one key are one node, in one slot. -/
theorem Placed.node_unique
    {s : TimingWheel K V}
    {pending : List (EntryNode K V)}
    (hPl : Placed s pending)
    {l i l' i' : Nat}
    {n n' : EntryNode K V}
    (hN : n ∈ s.wheels l i)
    (hN' : n' ∈ s.wheels l' i')
    (hKey : n.key = n'.key) :
    l = l' ∧ i = i' ∧ n = n' := by
  have hAt := (hPl.at_node l i n hN).2.2.2.2
  rw [hKey, (hPl.at_node l' i' n' hN').2.2.2.2, Option.some.injEq, Prod.mk.injEq] at hAt
  obtain ⟨rfl, rfl⟩ := hAt
  exact ⟨rfl, rfl, List.inj_on_of_nodup_map (hPl.nodup _ _) hN hN' hKey⟩

/- A key of the map has an entry in `M`, and the other way round. -/
theorem Represents.mem_iff
    {s : TimingWheel K V}
    {M : Store K V}
    (hRep : Represents s M)
    (k : K) :
    k ∈ M ↔ k ∈ s.keyToEntry := by
  rw [HashMap.mem_iff_find, HashMap.mem_iff_find, Option.isSome_iff_exists,
    Option.isSome_iff_exists]
  constructor
  · rintro ⟨e, hE⟩
    obtain ⟨n, hIn | ⟨l, i, hN⟩, rfl, -⟩ := (hRep.holds k e).mp hE
    · exact absurd hIn (List.not_mem_nil _)
    · exact ⟨_, (hRep.placed.at_node l i n hN).2.2.2.2⟩
  · rintro ⟨⟨l, i⟩, hP⟩
    obtain ⟨n, hN, rfl⟩ := hRep.placed.at_key _ l i hP (List.not_mem_nil _)
    exact ⟨n.entry, (hRep.holds _ _).mpr ⟨n, .inr ⟨l, i, hN⟩, rfl, rfl⟩⟩

/- `Represents` reads the map and `M` only through `find`. -/
theorem Represents.congr_find
    {s t : TimingWheel K V}
    {M M' : Store K V}
    (hRep : Represents s M)
    (hWheels : t.wheels = s.wheels)
    (hMap : ∀ k, t.keyToEntry.find k = s.keyToEntry.find k)
    (hStore : ∀ k, M'.find k = M.find k) :
    Represents t M' := by
  obtain ⟨⟨hNode, hKey, hNodup, hPend, hOut⟩, hHolds⟩ := hRep
  refine ⟨⟨fun l i n hN => ?_, fun k l i hFind hK => ?_, ?_, hPend, ?_⟩, fun k e => ?_⟩
  · rw [hMap]
    rw [hWheels] at hN
    exact hNode l i n hN
  · rw [hMap] at hFind
    rw [hWheels]
    exact hKey k l i hFind hK
  · rw [hWheels]
    exact hNodup
  · rw [hWheels]
    exact hOut
  · rw [hStore, hWheels]
    exact hHolds k e

/- `Represents` reads only the wheels and the map. -/
theorem Represents.congr
    {s t : TimingWheel K V}
    {M : Store K V}
    (hRep : Represents s M)
    (hWheels : t.wheels = s.wheels)
    (hMap : t.keyToEntry = s.keyToEntry) :
    Represents t M :=
  hRep.congr_find hWheels (fun k => by rw [hMap]) fun _ => rfl

------------------------------------------------------------
-- Placing a Node
------------------------------------------------------------

omit [DecidableEq K] in
/- `insert_entry` picks a wheel and a slot within it. -/
theorem placement_valid
    (currentTick ticksFromNow : Nat) :
    (placement currentTick ticksFromNow).1 ≤ 3 ∧
      (placement currentTick ticksFromNow).2 < wheelSize (placement currentTick ticksFromNow).1 := by
  unfold placement
  dsimp only
  split_ifs <;> simp only [wheelSize] <;> exact ⟨by omega, Nat.mod_lt _ (by decide)⟩

/- The slots after `insert_entry`: the node joins the slot it records. -/
theorem mem_insertEntry
    {s : TimingWheel K V}
    {now : Int}
    {key : K}
    {info : V}
    {expiry : Int}
    {l i : Nat}
    {m : EntryNode K V} :
    m ∈ (s.insertEntry now key info expiry).wheels l i ↔
      m ∈ s.wheels l i ∨
        (m = ⟨key, info, expiry, l, i⟩ ∧
          (l, i) = placement s.currentTick (expiry - now).toNat) := by
  obtain ⟨hLevel, -⟩ := placement_valid s.currentTick (expiry - now).toNat
  simp only [insertEntry, setWheel, getWheel, Nat.min_eq_left hLevel]
  split_ifs with hAt
  · obtain ⟨rfl, rfl⟩ := hAt
    simp [or_comm]
  · refine ⟨.inl, fun h => h.resolve_right fun hM => hAt ?_⟩
    rw [← hM.2]
    exact ⟨rfl, rfl⟩

@[simp] theorem keyToEntry_insertEntry
    (s : TimingWheel K V)
    (now : Int)
    (key : K)
    (info : V)
    (expiry : Int) :
    (s.insertEntry now key info expiry).keyToEntry =
      s.keyToEntry.insert key (placement s.currentTick (expiry - now).toNat) :=
  rfl

/-
  Placing a node for a key in no slot keeps the index; a pending
  node of that key, if any, is no longer held out.
-/
theorem Placed.insertEntry
    {s : TimingWheel K V}
    {pending pending' : List (EntryNode K V)}
    (hPl : Placed s pending)
    (now : Int)
    (key : K)
    (info : V)
    (expiry : Int)
    (hSub : pending'.Sublist pending)
    (hCover : ∀ m ∈ pending, m.key = key ∨ m ∈ pending')
    (hOut : key ∉ pending'.map (·.key))
    (hFresh : ∀ l i m, m ∈ s.wheels l i → m.key ≠ key) :
    Placed (s.insertEntry now key info expiry) pending' := by
  obtain ⟨hLevel, hSlot⟩ := placement_valid s.currentTick (expiry - now).toNat
  have hSubKeys := hSub.map (·.key)
  refine ⟨fun l i m hM => ?_, fun k l i hFind hK => ?_, fun l i => ?_,
    hPl.pending_nodup.sublist hSubKeys, fun l i m hM => ?_⟩
  · rcases mem_insertEntry.mp hM with hM | ⟨rfl, hP⟩
    · obtain ⟨h1, h2, h3, h4, h5⟩ := hPl.at_node l i m hM
      refine ⟨h1, h2, h3, h4, ?_⟩
      rw [keyToEntry_insertEntry, HashMap.find_insert_ne _ _ (hFresh l i m hM)]
      exact h5
    · have hL : l = (placement s.currentTick (expiry - now).toNat).1 := congrArg Prod.fst hP
      have hI : i = (placement s.currentTick (expiry - now).toNat).2 := congrArg Prod.snd hP
      refine ⟨rfl, rfl, by rw [hL]; exact hLevel, by rw [hL, hI]; exact hSlot, ?_⟩
      rw [keyToEntry_insertEntry, HashMap.find_insert, hP]
  · by_cases hKey : k = key
    · subst hKey
      rw [keyToEntry_insertEntry, HashMap.find_insert, Option.some.injEq] at hFind
      exact ⟨_, mem_insertEntry.mpr (.inr ⟨rfl, hFind.symm⟩), rfl⟩
    · rw [keyToEntry_insertEntry, HashMap.find_insert_ne _ _ hKey] at hFind
      have hOld : k ∉ pending.map (·.key) := fun hIn => by
        obtain ⟨m, hM, rfl⟩ := List.mem_map.mp hIn
        rcases hCover m hM with hEq | hM'
        · exact hKey hEq
        · exact hK (List.mem_map_of_mem _ hM')
      obtain ⟨n, hN, hNk⟩ := hPl.at_key k l i hFind hOld
      exact ⟨n, mem_insertEntry.mpr (.inl hN), hNk⟩
  · simp only [TimingWheel.insertEntry, setWheel, getWheel, Nat.min_eq_left hLevel]
    split_ifs with hAt
    · obtain ⟨rfl, rfl⟩ := hAt
      rw [List.map_append, List.nodup_append]
      refine ⟨hPl.nodup _ _, List.nodup_singleton _, ?_⟩
      simp only [List.map_cons, List.map_nil, List.disjoint_singleton, List.mem_map, not_exists,
        not_and]
      exact fun m hM hKey => hFresh _ _ m hM hKey
    · exact hPl.nodup l i
  · rcases mem_insertEntry.mp hM with hM | ⟨rfl, -⟩
    · exact fun hIn => hPl.pending_out l i m hM (hSubKeys.subset hIn)
    · exact hOut

/- The nodes after `insert_entry`: the old ones and the placed one. -/
theorem inWheels_insertEntry
    {s : TimingWheel K V}
    {now : Int}
    {key : K}
    {info : V}
    {expiry : Int}
    {m : EntryNode K V} :
    (∃ l i, m ∈ (s.insertEntry now key info expiry).wheels l i) ↔
      (∃ l i, m ∈ s.wheels l i) ∨
        ∃ l i, m = ⟨key, info, expiry, l, i⟩ ∧
          (l, i) = placement s.currentTick (expiry - now).toNat := by
  simp only [mem_insertEntry, exists_or]

/- `add`'s `insert_entry` of an absent key puts its entry into `M`. -/
theorem Represents.insertEntry
    {s : TimingWheel K V}
    {M : Store K V}
    (hRep : Represents s M)
    (now : Int)
    (key : K)
    (info : V)
    (expiry : Int)
    (hAbsent : key ∉ s.keyToEntry) :
    Represents (s.insertEntry now key info expiry) (M.insert key ⟨expiry, info⟩) := by
  have hFresh : ∀ l i m, m ∈ s.wheels l i → m.key ≠ key := fun l i m hM hKey => hAbsent <| by
    rw [HashMap.mem_iff_find, ← hKey, (hRep.placed.at_node l i m hM).2.2.2.2]
    rfl
  refine ⟨hRep.placed.insertEntry now key info expiry (List.Sublist.refl [])
    (fun _ h => absurd h (List.not_mem_nil _)) (List.not_mem_nil _) hFresh, fun k e => ?_⟩
  simp only [List.not_mem_nil, false_or, inWheels_insertEntry]
  by_cases hKey : k = key
  · subst hKey
    rw [HashMap.find_insert, Option.some.injEq]
    constructor
    · rintro rfl
      exact ⟨_, .inr ⟨(placement s.currentTick (expiry - now).toNat).1,
        (placement s.currentTick (expiry - now).toNat).2, rfl, rfl⟩, rfl, rfl⟩
    · rintro ⟨n, ⟨l, i, hN⟩ | ⟨l, i, rfl, -⟩, hNk, rfl⟩
      · exact absurd hNk (hFresh l i n hN)
      · rfl
  · rw [HashMap.find_insert_ne _ _ hKey, hRep.holds]
    simp only [List.not_mem_nil, false_or]
    constructor
    · rintro ⟨n, hN, hNk, hE⟩
      exact ⟨n, .inl hN, hNk, hE⟩
    · rintro ⟨n, hN | ⟨l, i, rfl, -⟩, hNk, hE⟩
      · exact ⟨n, hN, hNk, hE⟩
      · exact absurd hNk.symm hKey

------------------------------------------------------------
-- Cascades
------------------------------------------------------------

/- Forgetting the slot of a pending key keeps the index. -/
theorem Placed.erasePending
    {s : TimingWheel K V}
    {pending : List (EntryNode K V)}
    (hPl : Placed s pending)
    {key : K}
    (hPending : key ∈ pending.map (·.key)) :
    Placed { s with keyToEntry := s.keyToEntry.erase key } pending := by
  refine ⟨fun l i n hN => ?_, fun k l i hFind hK => ?_, hPl.nodup, hPl.pending_nodup,
    hPl.pending_out⟩
  · have hNe : n.key ≠ key := fun h => hPl.pending_out l i n hN (h ▸ hPending)
    simpa only [HashMap.find_erase_ne _ hNe] using hPl.at_node l i n hN
  · have hNe : k ≠ key := fun h => by
      subst h
      simp at hFind
    rw [HashMap.find_erase_ne _ hNe] at hFind
    exact hPl.at_key k l i hFind hK

/- An emptied slot holds no node, every other slot is unchanged. -/
omit [DecidableEq K] in
theorem mem_setWheel_nil
    {s : TimingWheel K V}
    {l i l' i' : Nat}
    {n : EntryNode K V} :
    n ∈ (s.setWheel l i []).wheels l' i' ↔ n ∈ s.wheels l' i' ∧ ¬ (l' = min l 3 ∧ i' = i) := by
  simp only [setWheel]
  split_ifs with hAt <;> simp [hAt]

/- Emptying the slot a cascade reads puts its nodes out of the wheels. -/
theorem Represents.takeSlot
    {s : TimingWheel K V}
    {M : Store K V}
    (hRep : Represents s M)
    (l i : Nat) :
    Placed (s.setWheel l i []) (s.getWheel l i) ∧
      Holds (s.setWheel l i []) (s.getWheel l i) M := by
  have hPl := hRep.placed
  refine ⟨⟨fun l' i' n hN => ?_, fun k l' i' hFind hK => ?_, fun l' i' => ?_,
    hPl.nodup _ _, fun l' i' n hN hIn => ?_⟩, fun k e => ?_⟩
  · exact hPl.at_node l' i' n (mem_setWheel_nil.mp hN).1
  · obtain ⟨n, hN, rfl⟩ := hPl.at_key k l' i' hFind (List.not_mem_nil _)
    refine ⟨n, mem_setWheel_nil.mpr ⟨hN, ?_⟩, rfl⟩
    rintro ⟨rfl, rfl⟩
    exact hK (List.mem_map_of_mem _ hN)
  · simp only [setWheel]
    split_ifs
    · exact List.nodup_nil
    · exact hPl.nodup l' i'
  · -- a node of another slot holds none of the slot's keys
    obtain ⟨hN, hAt⟩ := mem_setWheel_nil.mp hN
    obtain ⟨n', hN', hKey⟩ := List.mem_map.mp hIn
    obtain ⟨rfl, rfl, -⟩ := hPl.node_unique hN' hN hKey
    exact hAt ⟨rfl, rfl⟩
  · rw [hRep.holds]
    simp only [List.not_mem_nil, false_or, mem_setWheel_nil]
    constructor
    · rintro ⟨n, ⟨l', i', hN⟩, hNk, hE⟩
      by_cases hAt : l' = min l 3 ∧ i' = i
      · obtain ⟨rfl, rfl⟩ := hAt
        exact ⟨n, .inl hN, hNk, hE⟩
      · exact ⟨n, .inr ⟨l', i', hN, hAt⟩, hNk, hE⟩
    · rintro ⟨n, hN | ⟨l', i', hN, -⟩, hNk, hE⟩
      · exact ⟨n, ⟨min l 3, i, hN⟩, hNk, hE⟩
      · exact ⟨n, ⟨l', i', hN⟩, hNk, hE⟩

/- One node of a cascade goes back into the wheels. -/
theorem Placed.cascadeStep
    {t : TimingWheel K V}
    {n : EntryNode K V}
    {rest : List (EntryNode K V)}
    {M : Store K V}
    (hPl : Placed t (n :: rest))
    (hHolds : Holds t (n :: rest) M)
    (now : Int) :
    Placed (TimingWheel.insertEntry { t with keyToEntry := t.keyToEntry.erase n.key }
        now n.key n.info n.expiry) rest ∧
      Holds (TimingWheel.insertEntry { t with keyToEntry := t.keyToEntry.erase n.key }
        now n.key n.info n.expiry) rest M := by
  have hNodup := List.nodup_cons.mp (List.map_cons _ n rest ▸ hPl.pending_nodup)
  refine ⟨(hPl.erasePending (List.mem_map_of_mem _ (List.mem_cons_self _ _))).insertEntry
      now n.key n.info n.expiry (List.sublist_cons_self _ _)
      (fun m hM => (List.mem_cons.mp hM).imp (congrArg _) id) hNodup.1
      (fun l i m hM hKey => hPl.pending_out l i m hM
        (hKey ▸ List.mem_map_of_mem _ (List.mem_cons_self _ _))), fun k e => ?_⟩
  rw [hHolds]
  simp only [inWheels_insertEntry]
  constructor
  · rintro ⟨m, hM | hM, hMk, hE⟩
    · rcases List.mem_cons.mp hM with rfl | hM
      · exact ⟨_, .inr (.inr ⟨_, _, rfl, rfl⟩), hMk, hE⟩
      · exact ⟨m, .inl hM, hMk, hE⟩
    · exact ⟨m, .inr (.inl hM), hMk, hE⟩
  · rintro ⟨m, hM | hM | ⟨l, i, rfl, -⟩, hMk, hE⟩
    · exact ⟨m, .inl (List.mem_cons_of_mem _ hM), hMk, hE⟩
    · exact ⟨m, .inr hM, hMk, hE⟩
    · exact ⟨n, .inl (List.mem_cons_self _ _), hMk, hE⟩

/- The loop of `cascade_wheel` puts every held-out node back. -/
theorem Placed.cascadeLoop
    (now : Int)
    (pending : List (EntryNode K V))
    {t : TimingWheel K V}
    {M : Store K V}
    (hPl : Placed t pending)
    (hHolds : Holds t pending M) :
    Represents (pending.foldl
        (fun t n =>
          TimingWheel.insertEntry { t with keyToEntry := t.keyToEntry.erase n.key }
            now n.key n.info n.expiry) t) M := by
  induction pending generalizing t with
  | nil => exact ⟨hPl, hHolds⟩
  | cons n rest ih =>
      obtain ⟨hPl', hHolds'⟩ := hPl.cascadeStep hHolds now
      exact ih hPl' hHolds'

/- `cascade_wheel` neither loses nor duplicates an entry. -/
theorem Represents.cascadeWheel
    {s : TimingWheel K V}
    {M : Store K V}
    (hRep : Represents s M)
    (now : Int)
    (l i : Nat) :
    Represents (s.cascadeWheel now l i) M :=
  (hRep.takeSlot l i).1.cascadeLoop now _ (hRep.takeSlot l i).2

------------------------------------------------------------
-- Dropping Nodes of a Slot
------------------------------------------------------------

/- Erasing the keys of `ns` one after another. -/
omit [DecidableEq K] in
theorem find_foldl_erase_keys
    [DecidableEq K]
    {W : Type}
    (ns : List (EntryNode K V))
    (m : HashMap K W)
    (k : K) :
    (ns.foldl (fun m n => m.erase n.key) m).find k =
      if k ∈ ns.map (·.key) then none else m.find k := by
  induction ns generalizing m with
  | nil => simp
  | cons n ns ih =>
      rw [List.foldl_cons, ih]
      by_cases hKey : k = n.key
      · simp [hKey]
      · simp [hKey, HashMap.find_erase_ne _ hKey]

/- A slot filtered by `q`: its nodes that `q` keeps stay, every other slot is unchanged. -/
omit [DecidableEq K] in
theorem mem_setWheel_filter
    {s : TimingWheel K V}
    {l i l' i' : Nat}
    {q : EntryNode K V → Bool}
    {n : EntryNode K V} :
    n ∈ (s.setWheel l i ((s.getWheel l i).filter q)).wheels l' i' ↔
      n ∈ s.wheels l' i' ∧ (l' = min l 3 ∧ i' = i → q n = true) := by
  simp only [setWheel, getWheel]
  split_ifs with hAt
  · obtain ⟨rfl, rfl⟩ := hAt
    simp only [List.mem_filter, and_self, forall_const]
  · simp only [hAt, false_implies, and_true]

/- Erasing the keys of nodes that all hold `key`, at least one of them, erases `key`. -/
omit [DecidableEq K] in
theorem find_foldl_erase_of_keys
    [DecidableEq K]
    {W : Type}
    {ns : List (EntryNode K V)}
    (m : HashMap K W)
    {key : K}
    (hKeys : ∀ k, k ∈ ns.map (·.key) ↔ k = key)
    (k : K) :
    (ns.foldl (fun m n => m.erase n.key) m).find k = (m.erase key).find k := by
  rw [find_foldl_erase_keys]
  by_cases hK : k = key
  · rw [if_pos ((hKeys k).mpr hK), hK, HashMap.find_erase]
  · rw [if_neg (mt (hKeys k).mp hK), HashMap.find_erase_ne _ hK]

/-
  The nodes of slot `(l, i)` that `p` picks leave the slot, and
  their keys leave the map and `M`: `process_slot` drops the due
  nodes, `remove` the node of its key.
-/
theorem Represents.dropFromSlot
    {s : TimingWheel K V}
    {M : Store K V}
    (hRep : Represents s M)
    (l i : Nat)
    (p : EntryNode K V → Bool) :
    Represents
      { s.setWheel l i ((s.getWheel l i).filter fun n => !p n) with
        keyToEntry := ((s.getWheel l i).filter p).foldl (fun m n => m.erase n.key) s.keyToEntry }
      (((s.getWheel l i).filter p).foldl (fun M n => M.erase n.key) M) := by
  have hPl := hRep.placed
  set drop := (s.getWheel l i).filter p
  /- The nodes left in the wheels are the old ones whose key is not dropped. -/
  have hMem : ∀ l' i' n, n ∈ (s.setWheel l i ((s.getWheel l i).filter fun n => !p n)).wheels l' i' ↔
      n ∈ s.wheels l' i' ∧ n.key ∉ drop.map (·.key) := by
    intro l' i' n
    rw [mem_setWheel_filter]
    refine and_congr_right fun hN => ⟨fun hKeep hIn => ?_, fun hOut => ?_⟩
    · obtain ⟨d, hD, hKey⟩ := List.mem_map.mp hIn
      obtain ⟨hDSlot, hPD⟩ := List.mem_filter.mp hD
      obtain ⟨hL, hI, rfl⟩ := hPl.node_unique hDSlot hN hKey
      exact absurd (hKeep ⟨hL.symm, hI.symm⟩) (by simp [hPD])
    · rintro ⟨rfl, rfl⟩
      cases hP : p n
      · rfl
      · exact absurd (List.mem_map_of_mem _ (List.mem_filter.mpr ⟨hN, hP⟩)) hOut
  refine ⟨⟨fun l' i' n hN => ?_, fun k l' i' hFind _ => ?_, fun l' i' => ?_,
    List.nodup_nil, fun _ _ _ _ h => absurd h (List.not_mem_nil _)⟩, fun k e => ?_⟩
  · obtain ⟨hIn, hOut⟩ := (hMem l' i' n).mp hN
    dsimp only
    rw [find_foldl_erase_keys, if_neg hOut]
    exact hPl.at_node l' i' n hIn
  · dsimp only at hFind
    rw [find_foldl_erase_keys] at hFind
    split_ifs at hFind with hDrop
    obtain ⟨n, hN, rfl⟩ := hPl.at_key k l' i' hFind (List.not_mem_nil _)
    exact ⟨n, (hMem l' i' n).mpr ⟨hN, hDrop⟩, rfl⟩
  · simp only [setWheel]
    split_ifs
    · exact (hPl.nodup _ _).sublist ((List.filter_sublist _).map _)
    · exact hPl.nodup l' i'
  · rw [find_foldl_erase_keys]
    simp only [List.not_mem_nil, false_or, hMem]
    split_ifs with hDrop
    · exact ⟨False.elim, fun ⟨n, ⟨_, _, _, hOut⟩, hNk, _⟩ => hOut (hNk ▸ hDrop)⟩
    · rw [hRep.holds]
      simp only [List.not_mem_nil, false_or]
      constructor
      · rintro ⟨n, ⟨l', i', hN⟩, rfl, hE⟩
        exact ⟨n, ⟨l', i', hN, hDrop⟩, rfl, hE⟩
      · rintro ⟨n, ⟨l', i', hN, -⟩, hNk, hE⟩
        exact ⟨n, ⟨l', i', hN⟩, hNk, hE⟩

/- `process_slot` hands over the slot's due nodes and drops them. -/
theorem Represents.processSlot
    {s : TimingWheel K V}
    {M : Store K V}
    (hRep : Represents s M)
    (now : Int)
    (l i : Nat) :
    (s.processSlot now l i).1 =
        ((s.getWheel l i).filter (·.expiry ≤ now)).map (fun n => (n.key, n.info)) ∧
      Represents (s.processSlot now l i).2
        (((s.getWheel l i).filter (·.expiry ≤ now)).foldl (fun M n => M.erase n.key) M) := by
  obtain ⟨hCalls, hKept, hMap⟩ := processSlotLoop_spec now (s.getWheel l i) s.keyToEntry
  have hSame : (s.getWheel l i).filter (now < ·.expiry) =
      (s.getWheel l i).filter fun n => !decide (n.expiry ≤ now) :=
    List.filter_congr fun n _ => by
      rw [Bool.eq_iff_iff]
      simp only [decide_eq_true_eq, Bool.not_eq_true', decide_eq_false_iff_not, Int.not_le]
  refine ⟨hCalls, ?_⟩
  simp only [TimingWheel.processSlot, hKept, hMap, hSame]
  exact hRep.dropFromSlot l i fun n => decide (n.expiry ≤ now)

/- With distinct keys, erasing the first node of a key drops every node of it. -/
omit [DecidableEq K] in
theorem eraseP_key_eq_filter
    [DecidableEq K]
    {slot : List (EntryNode K V)}
    (hNodup : (slot.map (·.key)).Nodup)
    (key : K) :
    slot.eraseP (fun n => decide (n.key = key)) = slot.filter fun n => !decide (n.key = key) := by
  induction slot with
  | nil => rfl
  | cons n slot ih =>
      obtain ⟨hFresh, hRest⟩ := List.nodup_cons.mp hNodup
      by_cases hKey : n.key = key
      · subst hKey
        rw [List.eraseP_cons_of_pos (by simp), List.filter_cons_of_neg (by simp),
          List.filter_eq_self.mpr]
        intro m hM
        simpa using fun h : m.key = n.key => hFresh (List.mem_map.mpr ⟨m, hM, h⟩)
      · rw [List.eraseP_cons_of_neg (by simpa using hKey),
          List.filter_cons_of_pos (by simpa using hKey), ih hRest]

/- `remove` of a present key takes its node and its entry out. -/
theorem Represents.remove
    {s : TimingWheel K V}
    {M : Store K V}
    (hRep : Represents s M)
    (key : K) :
    (s.remove key).1 = (M.remove key).1 ∧ Represents (s.remove key).2 (M.remove key).2 := by
  have hMem := hRep.mem_iff key
  cases hFind : s.keyToEntry.find key with
  | none =>
      have hAbsent : key ∉ M := by
        rw [hMem, HashMap.mem_iff_find, hFind]
        exact Bool.false_ne_true
      simp only [TimingWheel.remove, hFind, Store.remove, hAbsent, if_false]
      exact ⟨trivial, hRep⟩
  | some p =>
      obtain ⟨l, i⟩ := p
      have hPresent : key ∈ M := by
        rw [hMem, HashMap.mem_iff_find, hFind]
        rfl
      obtain ⟨n, hN, hNk⟩ := hRep.placed.at_key key l i hFind (List.not_mem_nil _)
      have hLevel := (hRep.placed.at_node l i n hN).2.2.1
      have hSlot : s.getWheel l i = s.wheels l i := by
        rw [getWheel, Nat.min_eq_left hLevel]
      /- The slot's nodes of `key` are the node the map points at. -/
      have hKeys : ∀ k, k ∈ ((s.getWheel l i).filter fun m => decide (m.key = key)).map (·.key) ↔
          k = key := fun k => by
        simp only [List.mem_map, List.mem_filter, decide_eq_true_eq]
        constructor
        · rintro ⟨m, ⟨-, hM⟩, rfl⟩
          exact hM
        · rintro rfl
          exact ⟨n, ⟨hSlot ▸ hN, hNk⟩, hNk⟩
      have hDrop := hRep.dropFromSlot l i fun m => decide (m.key = key)
      simp only [TimingWheel.remove, hFind, Store.remove, hPresent, if_true]
      refine ⟨trivial, hDrop.congr_find ?_ (fun k => ?_) fun k => ?_⟩
      · simp only [setWheel, eraseP_key_eq_filter (hSlot ▸ hRep.placed.nodup l i) key]
      · exact (find_foldl_erase_of_keys _ hKeys k).symm
      · exact (find_foldl_erase_of_keys _ hKeys k).symm

/- `clear` empties the wheels and the map. -/
theorem represents_clear (s : TimingWheel K V) :
    Represents s.clear ∅ := by
  have hEmpty : Represents { s with wheels := fun _ _ => [], keyToEntry := ∅ } (∅ : Store K V) :=
    ⟨⟨fun _ _ _ h => absurd h (List.not_mem_nil _), fun k _ _ h => by simp at h,
      fun _ _ => List.nodup_nil, List.nodup_nil, fun _ _ _ h => absurd h (List.not_mem_nil _)⟩,
      fun k e => by simp⟩
  unfold TimingWheel.clear
  dsimp only
  split_ifs
  · exact hEmpty.congr rfl rfl
  · exact hEmpty

/- `start` and `stop` leave the wheels and the map alone. -/
theorem Represents.start
    {s : TimingWheel K V}
    {M : Store K V}
    (hRep : Represents s M)
    (now : Int) :
    Represents (s.start now) M := by
  unfold TimingWheel.start
  split
  · exact hRep.congr rfl rfl
  · exact hRep

theorem Represents.stop
    {s : TimingWheel K V}
    {M : Store K V}
    (hRep : Represents s M) :
    Represents s.stop M := by
  unfold TimingWheel.stop
  split
  · exact hRep.congr rfl rfl
  · exact hRep

/- `add` inserts exactly when the key is absent, and says so. -/
theorem Represents.add
    {s : TimingWheel K V}
    {M : Store K V}
    (hRep : Represents s M)
    (now : Int)
    (key : K)
    (ttl : Int)
    (info : V) :
    (s.add now key ttl info).1 = (M.add key (now + ttl) info).1 ∧
      Represents (s.add now key ttl info).2 (M.add key (now + ttl) info).2 := by
  by_cases hK : key ∈ s.keyToEntry
  · have hM : key ∈ M := (hRep.mem_iff key).mpr hK
    simp only [TimingWheel.add, Store.add, hK, hM, if_true]
    exact ⟨trivial, hRep⟩
  · have hM : key ∉ M := fun h => hK ((hRep.mem_iff key).mp h)
    have hIns := hRep.insertEntry now key info (now + ttl) hK
    simp only [TimingWheel.add, Store.add, hK, hM, if_false]
    refine ⟨trivial, ?_⟩
    split
    · exact hIns.start now
    · exact hIns

------------------------------------------------------------
-- Ticks
------------------------------------------------------------

/-
  The handler calls of a firing pass: entries of `M`, one per
  key, and `M` loses exactly them.
-/
def Fires
    (M : Store K V)
    (fired : List (Σ _ : K, Entry V)) : Prop :=
  (fired.map Sigma.fst).Nodup ∧ ∀ x ∈ fired, M.find x.1 = some x.2

/- `process_slot` fires the slot's due nodes. -/
theorem Represents.fireSlot
    {s : TimingWheel K V}
    {M : Store K V}
    (hRep : Represents s M)
    (now : Int)
    (l i : Nat) :
    ∃ fired, Fires M fired ∧ (s.processSlot now l i).1 = Store.calls fired ∧
      Represents (s.processSlot now l i).2 (fired.foldl (fun M x => M.erase x.1) M) := by
  obtain ⟨hCalls, hRep'⟩ := hRep.processSlot now l i
  have hSub := List.filter_sublist (p := fun n : EntryNode K V => decide (n.expiry ≤ now))
    (s.getWheel l i)
  refine ⟨((s.getWheel l i).filter (·.expiry ≤ now)).map fun n => ⟨n.key, n.entry⟩,
    ⟨?_, fun x hX => ?_⟩, ?_, ?_⟩
  · rw [List.map_map]
    exact (hRep.placed.nodup _ _).sublist (hSub.map _)
  · obtain ⟨n, hN, rfl⟩ := List.mem_map.mp hX
    exact (hRep.holds _ _).mpr ⟨n, .inr ⟨_, _, hSub.subset hN⟩, rfl, rfl⟩
  · rw [hCalls, Store.calls, List.map_map]
    rfl
  · rw [List.foldl_map]
    exact hRep'

/- `process_tick`: the slot of the new tick fires, then the cascades keep `M`. -/
theorem Represents.processTick
    {s : TimingWheel K V}
    {M : Store K V}
    (hRep : Represents s M)
    (now : Int) :
    ∃ fired, Fires M fired ∧ (s.processTick now).1 = Store.calls fired ∧
      Represents (s.processTick now).2 (fired.foldl (fun M x => M.erase x.1) M) := by
  obtain ⟨fired, hFires, hCalls, hRep'⟩ :=
    (hRep.congr rfl rfl : Represents { s with currentTick := s.currentTick + 1 } M).fireSlot
      now 0 ((s.currentTick + 1) % wheel0Size)
  refine ⟨fired, hFires, ?_⟩
  unfold TimingWheel.processTick
  dsimp only
  split_ifs
  · exact ⟨hCalls, ((hRep'.cascadeWheel now 1 _).cascadeWheel now 2 _).cascadeWheel now 3 _⟩
  · exact ⟨hCalls, (hRep'.cascadeWheel now 1 _).cascadeWheel now 2 _⟩
  · exact ⟨hCalls, hRep'.cascadeWheel now 1 _⟩
  · exact ⟨hCalls, hRep'⟩

/- The completion of the tick wait. -/
theorem Represents.onTimer
    {s : TimingWheel K V}
    {M : Store K V}
    (hRep : Represents s M)
    (now : Int) :
    ∃ fired, Fires M fired ∧ (s.onTimer now).1 = Store.calls fired ∧
      Represents (s.onTimer now).2 (fired.foldl (fun M x => M.erase x.1) M) := by
  obtain ⟨fired, hFires, hCalls, hRep'⟩ :=
    (hRep.congr rfl rfl : Represents { s with timer := none } M).processTick now
  unfold TimingWheel.onTimer
  dsimp only
  split_ifs
  · exact ⟨fired, hFires, hCalls, hRep'.congr rfl rfl⟩
  · exact ⟨fired, hFires, hCalls, hRep'⟩
  · exact ⟨[], ⟨List.nodup_nil, fun _ h => absurd h (List.not_mem_nil _)⟩, rfl,
      hRep.congr rfl rfl⟩

------------------------------------------------------------
-- Runs
------------------------------------------------------------

omit [DecidableEq K] in
/- The calls of `timing_wheel_expirator` and the completion of its tick wait. -/
inductive Op (K V : Type) where
  | add (key : K) (ttl : Int) (info : V)
  | remove (key : K)
  | clear
  | start
  | stop
  | tick

/- One call, or the tick completion, at clock reading `now`, and its answer. -/
def step
    (s : TimingWheel K V)
    (now : Int) : Op K V → Output K V × TimingWheel K V
  | .add key ttl info =>
      let r := s.add now key ttl info
      (.ack r.1, r.2)
  | .remove key =>
      let r := s.remove key
      (.ack r.1, r.2)
  | .clear => (.done, s.clear)
  | .start => (.done, s.start now)
  | .stop => (.done, s.stop)
  | .tick =>
      let r := s.onTimer now
      (.fired r.1, r.2)

/- A sequence of timed calls and completions from `s`, and their answers. -/
def run
    (s : TimingWheel K V) :
    List (Int × Op K V) → List (Output K V) × TimingWheel K V
  | [] => ([], s)
  | (now, op) :: ops =>
      let r := s.step now op
      let rest := run r.2 ops
      (r.1 :: rest.1, rest.2)

/-
  What a call does to the entries the wheels hold: `add` puts one
  in, `remove` takes one out, `clear` takes all out, `start` and
  `stop` keep them, and a tick takes out the entries it hands
  over, one per handler call.
-/
inductive Changes :
    Store K V → Int → Op K V → Output K V → Store K V → Prop where
  | add (M : Store K V) (now : Int) (key : K) (ttl : Int) (info : V) :
      Changes M now (.add key ttl info)
        (.ack (M.add key (now + ttl) info).1) (M.add key (now + ttl) info).2
  | remove (M : Store K V) (now : Int) (key : K) :
      Changes M now (.remove key) (.ack (M.remove key).1) (M.remove key).2
  | clear (M : Store K V) (now : Int) :
      Changes M now .clear .done ∅
  | start (M : Store K V) (now : Int) :
      Changes M now .start .done M
  | stop (M : Store K V) (now : Int) :
      Changes M now .stop .done M
  | tick (M : Store K V) (now : Int) (fired : List (Σ _ : K, Entry V))
      (hFires : Fires M fired) :
      Changes M now .tick (.fired (Store.calls fired))
        (fired.foldl (fun M x => M.erase x.1) M)

/- A sequence of calls and the answers it gives, on the entries. -/
inductive ChangesRun :
    Store K V → List (Int × Op K V) → List (Output K V) → Store K V → Prop where
  | nil (M : Store K V) : ChangesRun M [] [] M
  | cons {M M' M'' : Store K V} {now : Int} {op : Op K V} {out : Output K V}
      {ops : List (Int × Op K V)} {outs : List (Output K V)} :
      Changes M now op out M' → ChangesRun M' ops outs M'' →
        ChangesRun M ((now, op) :: ops) (out :: outs) M''

/- Every call changes the entries as `Changes` says, and keeps the index. -/
theorem step_spec
    {s : TimingWheel K V}
    {M : Store K V}
    (hRep : Represents s M)
    (now : Int)
    (op : Op K V) :
    ∃ M', Changes M now op (s.step now op).1 M' ∧ Represents (s.step now op).2 M' := by
  cases op with
  | add key ttl info =>
      obtain ⟨hAck, hRep'⟩ := hRep.add now key ttl info
      refine ⟨_, ?_, hRep'⟩
      simp only [step, hAck]
      exact .add M now key ttl info
  | remove key =>
      obtain ⟨hAck, hRep'⟩ := hRep.remove key
      refine ⟨_, ?_, hRep'⟩
      simp only [step, hAck]
      exact .remove M now key
  | clear => exact ⟨∅, .clear M now, represents_clear s⟩
  | start => exact ⟨M, .start M now, hRep.start now⟩
  | stop => exact ⟨M, .stop M now, hRep.stop⟩
  | tick =>
      obtain ⟨fired, hFires, hCalls, hRep'⟩ := hRep.onTimer now
      refine ⟨_, ?_, hRep'⟩
      simp only [step, hCalls]
      exact .tick M now fired hFires

/- Every run changes the entries as `ChangesRun` says, and keeps the index. -/
theorem run_spec
    {s : TimingWheel K V}
    {M : Store K V}
    (hRep : Represents s M)
    (ops : List (Int × Op K V)) :
    ∃ M', ChangesRun M ops (s.run ops).1 M' ∧ Represents (s.run ops).2 M' := by
  induction ops generalizing s M with
  | nil => exact ⟨M, .nil M, hRep⟩
  | cons call ops ih =>
      obtain ⟨now, op⟩ := call
      obtain ⟨M', hStep, hRep'⟩ := step_spec hRep now op
      obtain ⟨M'', hRun, hRep''⟩ := ih hRep'
      exact ⟨M'', .cons hStep hRun, hRep''⟩

omit [DecidableEq K] in
theorem represents_init
    [DecidableEq K]
    (startTime : Int) :
    Represents (init startTime : TimingWheel K V) ∅ :=
  ⟨⟨fun _ _ _ h => absurd h (List.not_mem_nil _), fun k _ _ h => by simp [init] at h,
    fun _ _ => List.nodup_nil, List.nodup_nil, fun _ _ _ h => absurd h (List.not_mem_nil _)⟩,
    fun k e => by simp [init]⟩

------------------------------------------------------------
-- The Whole Wheel
------------------------------------------------------------

/- Every node of the four wheels, wheel by wheel and slot by slot. -/
def allNodes (s : TimingWheel K V) : List (EntryNode K V) :=
  (List.range 4).flatMap fun l => (List.range (wheelSize l)).flatMap fun i => s.wheels l i

/- No node lies outside the four wheels. -/
theorem Placed.mem_allNodes
    {s : TimingWheel K V}
    {pending : List (EntryNode K V)}
    (hPl : Placed s pending)
    (n : EntryNode K V) :
    n ∈ s.allNodes ↔ ∃ l i, n ∈ s.wheels l i := by
  simp only [allNodes, List.mem_flatMap, List.mem_range]
  constructor
  · rintro ⟨l, -, i, -, hN⟩
    exact ⟨l, i, hN⟩
  · rintro ⟨l, i, hN⟩
    obtain ⟨-, -, hL, hI, -⟩ := hPl.at_node l i n hN
    exact ⟨l, by omega, i, hI, hN⟩

/- No key is in two nodes of the wheels. -/
theorem Placed.allNodes_keys_nodup
    {s : TimingWheel K V}
    {pending : List (EntryNode K V)}
    (hPl : Placed s pending) :
    (s.allNodes.map (·.key)).Nodup := by
  simp only [allNodes, List.map_flatMap]
  refine List.nodup_flatMap.mpr ⟨fun l _ => List.nodup_flatMap.mpr
    ⟨fun i _ => hPl.nodup l i, ?_⟩, ?_⟩
  · refine (List.nodup_range _).pairwise_of_forall_ne fun i _ i' _ hNe => ?_
    intro k hK hK'
    obtain ⟨n, hN, rfl⟩ := List.mem_map.mp hK
    obtain ⟨n', hN', hKey⟩ := List.mem_map.mp hK'
    exact hNe (hPl.node_unique hN hN' hKey.symm).2.1
  · refine (List.nodup_range _).pairwise_of_forall_ne fun l _ l' _ hNe => ?_
    intro k hK hK'
    simp only [List.mem_flatMap, List.mem_map] at hK hK'
    obtain ⟨i, -, n, hN, rfl⟩ := hK
    obtain ⟨i', -, n', hN', hKey⟩ := hK'
    exact hNe (hPl.node_unique hN hN' hKey.symm).1

/- The (key, payload, expiry) of the nodes are the entries of `M`, each once. -/
theorem Represents.allNodes_perm
    {s : TimingWheel K V}
    {M : Store K V}
    (hRep : Represents s M) :
    (s.allNodes.map fun n => (n.key, n.info, n.expiry)).Perm
      (M.entries.map fun x => (x.1, x.2.payload, x.2.deadline)) := by
  refine (List.perm_ext_iff_of_nodup ?_ ?_).mpr fun ⟨k, v, d⟩ => ?_
  · exact List.Nodup.of_map Prod.fst (by rw [List.map_map]; exact hRep.placed.allNodes_keys_nodup)
  · exact List.Nodup.of_map Prod.fst (by rw [List.map_map]; exact M.nodupKeys)
  have hEntry : (∃ x ∈ M.entries, (x.1, x.2.payload, x.2.deadline) = (k, v, d)) ↔
      M.find k = some ⟨d, v⟩ := by
    rw [HashMap.find_eq_some_iff]
    constructor
    · rintro ⟨⟨k', d', v'⟩, hX, hEq⟩
      simp only [Prod.mk.injEq] at hEq
      obtain ⟨rfl, rfl, rfl⟩ := hEq
      exact hX
    · exact fun hX => ⟨_, hX, rfl⟩
  rw [List.mem_map, List.mem_map, hEntry, hRep.holds]
  simp only [List.not_mem_nil, false_or, hRep.placed.mem_allNodes, EntryNode.entry,
    Prod.mk.injEq, Entry.mk.injEq]
  constructor
  · rintro ⟨n, hN, h1, h2, h3⟩
    exact ⟨n, hN, h1, h3, h2⟩
  · rintro ⟨n, hN, h1, h3, h2⟩
    exact ⟨n, hN, h1, h2, h3⟩

/-
  Every state reachable from a new wheel by `add`, `remove`,
  `clear`, `start`, `stop` and completions of the tick wait, at
  any clock readings, with a handler that does not call back: the
  index is consistent (`Represents`), no key is in two nodes, and
  the (key, payload, expiry) of all nodes are the entries of the
  abstract store, which the run changed only as `ChangesRun`
  says.  A cascade of any slot keeps them.
-/
theorem timing_wheel_index_is_consistent
    (startTime : Int)
    (ops : List (Int × Op K V)) :
    ∃ M, ChangesRun ∅ ops ((init startTime : TimingWheel K V).run ops).1 M ∧
      Represents ((init startTime : TimingWheel K V).run ops).2 M ∧
      (((init startTime : TimingWheel K V).run ops).2.allNodes.map (·.key)).Nodup ∧
      (((init startTime : TimingWheel K V).run ops).2.allNodes.map
          fun n => (n.key, n.info, n.expiry)).Perm
        (M.entries.map fun x => (x.1, x.2.payload, x.2.deadline)) ∧
      ∀ now l i,
        Represents (((init startTime : TimingWheel K V).run ops).2.cascadeWheel now l i) M := by
  obtain ⟨M, hRun, hRep⟩ := run_spec (represents_init startTime) ops
  exact ⟨M, hRun, hRep, hRep.placed.allNodes_keys_nodup, hRep.allNodes_perm,
    fun now l i => hRep.cascadeWheel now l i⟩

end TimingWheel

end Expirator

end Vex
