import Mathlib.Algebra.Group.Nat.Basic
import Mathlib.Algebra.Order.BigOperators.Group.List
import Mathlib.Algebra.Order.Group.Nat
import Mathlib.Data.List.Basic

/-
  The record queue of the segmented logger: `detail::MPSCQueue`
  and its `Shard` (`segmented_logger.hpp`).

  A shard is a ring of `capacity_` cells with a write and a read
  index; a push that would make the indices meet fails, so a
  shard of `capacity_` cells holds at most `capacity_ - 1`
  records.  The queue splits its capacity over `num_shards_`
  shards.  A push tries the calling thread's own shard first and
  then the others in circular order; a pop probes the shards
  round robin from `pop_shard_idx_`, which every probe advances.

  Here each call is one step, as the logger makes them one at a
  time; `Queue.Threads` splits them into the atomic steps of
  interleaving threads.  A shard is read
  through `Shard.contents`, the records between its indices in
  the order a pop returns them; `Shard.Valid` carries the bounds
  the indices keep.

  `ShardedFifo.Step` says what a queue is for: a list of FIFOs,
  each bounded, a push appending to one with room and a pop
  taking the head of one that is not empty.

  Key definitions include:
    * `Shard`, `Shard.tryPush`, `Shard.tryPop`, `Shard.contents`
    * `ShardedFifo.Step`, `ShardedFifo.Run`
    * `MPSCQueue`, `MPSCQueue.make`, `MPSCQueue.tryPush`,
      `MPSCQueue.tryPop`

  Key theorems include:
    * `Shard.Valid.tryPush_contents`, `Shard.Valid.tryPop_contents`
    * `MPSCQueue.Valid.tryPush_spec`, `MPSCQueue.Valid.tryPop_spec`,
      `MPSCQueue.Valid.tryPop_none`
-/

------------------------------------------------------------
-- Shards
------------------------------------------------------------

namespace Vex

namespace SegmentedLogging

/-
  `Shard`: the cells of `buffer_` by index, `capacity_`, and the
  two indices.
-/
structure Shard (α : Type) where
  buffer : Nat → α
  capacity : Nat
  writeIdx : Nat
  readIdx : Nat

namespace Shard

variable {α : Type}

/- The constructor: `capacity` default-constructed cells. -/
def init [Inhabited α] (capacity : Nat) : Shard α :=
  ⟨fun _ => default, capacity, 0, 0⟩

/- The shard once `try_push` has stored `item` and published the next index. -/
def pushed (s : Shard α) (item : α) : Shard α :=
  { s with
    buffer := Function.update s.buffer s.writeIdx item
    writeIdx := (s.writeIdx + 1) % s.capacity }

/-
  `try_push`.  With no cells, `% capacity_` divides by zero:
  `none`.
-/
def tryPush (s : Shard α) (item : α) : Option (Bool × Shard α) :=
  if s.capacity = 0 then none
  else if (s.writeIdx + 1) % s.capacity = s.readIdx then some (false, s)
  else some (true, s.pushed item)

/-
  `try_pop`.  The `% capacity_` of a shard with no cells is
  never reached: its indices stay equal.
-/
def tryPop (s : Shard α) : Option α × Shard α :=
  if s.readIdx = s.writeIdx then (none, s)
  else (some (s.buffer s.readIdx), { s with readIdx := (s.readIdx + 1) % s.capacity })

/- `size`. -/
def size (s : Shard α) : Nat :=
  if s.writeIdx ≥ s.readIdx then s.writeIdx - s.readIdx
  else s.capacity - s.readIdx + s.writeIdx

/- `empty`. -/
def empty (s : Shard α) : Bool :=
  s.readIdx == s.writeIdx

/- The records of the shard, oldest first. -/
def contents (s : Shard α) : List α :=
  (List.range s.size).map fun i => s.buffer ((s.readIdx + i) % s.capacity)

/- The bounds both indices keep. -/
structure Valid (s : Shard α) : Prop where
  capacity_pos : 0 < s.capacity
  read_lt : s.readIdx < s.capacity
  write_lt : s.writeIdx < s.capacity

/- An index a little past the ring, brought back into it. -/
theorem add_mod_of_lt {r i c : Nat} (hr : r < c) (hi : i ≤ c) :
    (r + i) % c = if r + i < c then r + i else r + i - c := by
  split_ifs with h
  · exact Nat.mod_eq_of_lt h
  · rw [Nat.mod_eq_sub_mod (by omega), Nat.mod_eq_of_lt (by omega)]

@[simp]
theorem length_contents (s : Shard α) : s.contents.length = s.size := by
  simp [contents]

theorem init_valid [Inhabited α] {capacity : Nat} (h : 0 < capacity) :
    (init capacity : Shard α).Valid :=
  ⟨h, h, h⟩

@[simp]
theorem contents_init [Inhabited α] (capacity : Nat) :
    (init capacity : Shard α).contents = [] := by
  simp [contents, size, init]

namespace Valid

variable {s : Shard α}

theorem size_lt (h : s.Valid) : s.size < s.capacity := by
  have := h.read_lt
  have := h.write_lt
  unfold size
  split_ifs <;> omega

/- The write index sits `size` cells past the read index. -/
theorem write_eq (h : s.Valid) : s.writeIdx = (s.readIdx + s.size) % s.capacity := by
  have := h.read_lt
  have := h.write_lt
  rw [add_mod_of_lt h.read_lt (Nat.le_of_lt h.size_lt)]
  unfold size
  split_ifs <;> omega

/- Two cells of the live region are different cells. -/
theorem index_ne (h : s.Valid) {i : Nat} (hi : i < s.size) :
    (s.readIdx + i) % s.capacity ≠ s.writeIdx := by
  have := h.size_lt
  rw [h.write_eq, add_mod_of_lt h.read_lt (by omega),
    add_mod_of_lt h.read_lt (Nat.le_of_lt h.size_lt)]
  split_ifs <;> omega

/- A push that finds room advances the write index by one cell. -/
theorem size_pushed (h : s.Valid) (hRoom : s.size + 1 < s.capacity) (item : α) :
    (s.pushed item).size = s.size + 1 := by
  have := h.read_lt
  have := h.write_lt
  have hNext := add_mod_of_lt (i := 1) h.write_lt h.capacity_pos
  simp only [size, pushed] at hNext hRoom ⊢
  split_ifs at hNext hRoom ⊢ <;> omega

/- The indices meet after a push exactly when the shard is one short of its cells. -/
theorem next_eq_read_iff (h : s.Valid) :
    (s.writeIdx + 1) % s.capacity = s.readIdx ↔ ¬ s.size + 1 < s.capacity := by
  have := h.read_lt
  have := h.write_lt
  have hNext := add_mod_of_lt (i := 1) h.write_lt h.capacity_pos
  simp only [size] at hNext ⊢
  split_ifs at hNext ⊢ <;> omega

/- A push into a shard with room appends the record, and keeps the bounds. -/
theorem pushed_contents (h : s.Valid) (hRoom : s.size + 1 < s.capacity) (item : α) :
    (s.pushed item).Valid ∧ (s.pushed item).capacity = s.capacity ∧
      (s.pushed item).contents = s.contents ++ [item] := by
  refine ⟨⟨h.capacity_pos, h.read_lt, Nat.mod_lt _ h.capacity_pos⟩, rfl, ?_⟩
  simp only [contents, h.size_pushed hRoom, List.range_succ, List.map_append, List.map_singleton]
  congr 1
  · exact List.map_congr_left fun i hi =>
      Function.update_noteq (h.index_ne (List.mem_range.mp hi)) _ _
  · simp only [pushed]
    rw [← h.write_eq, Function.update_same]

/-
  `try_push` appends the record exactly when the shard has room
  for it, and keeps the bounds.
-/
theorem tryPush_contents (h : s.Valid) (item : α) :
    ∃ s', s.tryPush item = some (decide (s.size + 1 < s.capacity), s') ∧ s'.Valid ∧
      s'.capacity = s.capacity ∧
      s'.contents = if s.size + 1 < s.capacity then s.contents ++ [item] else s.contents := by
  unfold tryPush
  rw [if_neg (Nat.pos_iff_ne_zero.mp h.capacity_pos)]
  by_cases hRoom : s.size + 1 < s.capacity
  · obtain ⟨hValid, hCap, hContents⟩ := h.pushed_contents hRoom item
    refine ⟨s.pushed item, by rw [if_neg (mt h.next_eq_read_iff.mp (not_not.mpr hRoom)),
      decide_eq_true hRoom], hValid, hCap, by rw [if_pos hRoom, hContents]⟩
  · exact ⟨s, by rw [if_pos (h.next_eq_read_iff.mpr hRoom), decide_eq_false hRoom], h, rfl,
      by rw [if_neg hRoom]⟩

/- A pop that finds a record advances the read index by one cell. -/
theorem size_popped (h : s.Valid) (hNonempty : s.readIdx ≠ s.writeIdx) :
    ({ s with readIdx := (s.readIdx + 1) % s.capacity } : Shard α).size + 1 = s.size := by
  have := h.read_lt
  have := h.write_lt
  have hNext := add_mod_of_lt (i := 1) h.read_lt h.capacity_pos
  simp only [size] at hNext ⊢
  split_ifs at hNext ⊢ <;> omega

/- `try_pop` returns the oldest record and drops it, and keeps the bounds. -/
theorem tryPop_contents (h : s.Valid) :
    s.tryPop.1 = s.contents.head? ∧ s.tryPop.2.contents = s.contents.tail ∧
      s.tryPop.2.Valid ∧ s.tryPop.2.capacity = s.capacity := by
  unfold tryPop
  by_cases hEmpty : s.readIdx = s.writeIdx
  · have hSize : s.size = 0 := by simp [size, hEmpty]
    simp [hEmpty, contents, hSize, h]
  · obtain ⟨n, hn⟩ : ∃ n, s.size = n + 1 :=
      Nat.exists_eq_succ_of_ne_zero (by have := h.size_popped hEmpty; omega)
    have hPopped := h.size_popped hEmpty
    rw [hn] at hPopped
    rw [if_neg hEmpty]
    refine ⟨?_, ?_, ⟨h.capacity_pos, Nat.mod_lt _ h.capacity_pos, h.write_lt⟩, rfl⟩
    · simp [contents, hn, List.range_succ_eq_map, Nat.mod_eq_of_lt h.read_lt]
    · simp only [contents, Nat.add_right_cancel hPopped, hn, List.range_succ_eq_map,
        List.map_cons, List.tail_cons, List.map_map]
      refine List.map_congr_left fun i _ => ?_
      simp only [Function.comp, Nat.mod_add_mod, Nat.succ_eq_add_one, Nat.add_assoc,
        Nat.add_comm 1 i]

/- `size` counts the records, and `empty` tells whether there are none. -/
theorem empty_eq (h : s.Valid) : s.empty = s.contents.isEmpty := by
  have := h.size_lt
  have := h.read_lt
  have hMod := add_mod_of_lt h.read_lt (Nat.le_of_lt h.size_lt)
  rw [← h.write_eq] at hMod
  cases hc : s.contents with
  | nil =>
    have : s.size = 0 := by simpa using congrArg List.length hc
    simp only [empty, List.isEmpty_nil, beq_iff_eq]
    split_ifs at hMod <;> omega
  | cons a rest =>
    have : s.size = rest.length + 1 := by simpa using congrArg List.length hc
    simp only [empty, List.isEmpty_cons, beq_eq_false_iff_ne]
    split_ifs at hMod <;> omega

end Valid

end Shard

------------------------------------------------------------
-- The Sharded Queue
------------------------------------------------------------

/-
  `MPSCQueue`: its shards (`num_shards_` is their number),
  `shard_capacity_`, and the consumer's `pop_shard_idx_`.
-/
structure MPSCQueue (α : Type) where
  shards : List (Shard α)
  shardCapacity : Nat
  popShardIdx : Nat

/-
  A call on the queue: a push by a thread whose cached shard
  (`get_thread_shard`) is `home`, or a pop by the consumer.
-/
inductive Op (α : Type) where
  | push (home : Nat) (item : α)
  | pop

/- What a call returns. -/
inductive Out (α : Type) where
  | pushed (ok : Bool)
  | popped (item : Option α)
deriving DecidableEq

namespace MPSCQueue

variable {α : Type}

/- `num_shards_`. -/
def numShards (q : MPSCQueue α) : Nat :=
  q.shards.length

/-
  The constructor: `num_shards` shards of `capacity / num_shards`
  cells each.  With no shards the division is by zero: `none`.
-/
def make [Inhabited α] (capacity numShards : Nat) : Option (MPSCQueue α) :=
  if numShards = 0 then none
  else some ⟨List.replicate numShards (Shard.init (capacity / numShards)),
    capacity / numShards, 0⟩

/- `capacity`. -/
def capacity (q : MPSCQueue α) : Nat :=
  q.shardCapacity * q.numShards

/- `size`. -/
def size (q : MPSCQueue α) : Nat :=
  q.shards.foldl (fun total shard => total + shard.size) 0

/- `empty`. -/
def empty (q : MPSCQueue α) : Bool :=
  q.shards.all Shard.empty

/-
  One shard's `try_push`, the others untouched; `none` past the
  last shard (`shards_[idx]`) or where the push divides by zero.
-/
def pushAt (shards : List (Shard α)) (idx : Nat) (item : α) :
    Option (Bool × List (Shard α)) :=
  match shards[idx]? with
  | none => none
  | some s => (s.tryPush item).map fun r => (r.1, shards.set idx r.2)

/- The pushes of `try_push` at the listed shards, up to the first that stores. -/
def pushProbe (item : α) : List Nat → List (Shard α) → Option (Bool × List (Shard α))
  | [], shards => some (false, shards)
  | idx :: order, shards =>
    match pushAt shards idx item with
    | none => none
    | some (true, shards') => some (true, shards')
    | some (false, shards') => pushProbe item order shards'

/-
  The shards `try_push` tries: the thread's own, then
  `(home + i) % num_shards_` for each `i` from 1.
-/
def probeOrder (numShards home : Nat) : List Nat :=
  home :: (List.range' 1 (numShards - 1)).map fun i => (home + i) % numShards

/- `try_push`. -/
def tryPush (q : MPSCQueue α) (home : Nat) (item : α) : Option (Bool × MPSCQueue α) :=
  (pushProbe item (probeOrder q.numShards home) q.shards).map fun r =>
    (r.1, { q with shards := r.2 })

/-
  The probes of `try_pop`, `fuel` of them left: shard
  `pop_shard_idx_ % num_shards_`, with `pop_shard_idx_` a
  `size_t` advanced by every probe.  Its index is in range (the
  loop runs only with shards), so the `none` branch is never
  taken.
-/
def popProbe : Nat → MPSCQueue α → Option α × MPSCQueue α
  | 0, q => (none, q)
  | fuel + 1, q =>
    let idx := q.popShardIdx % q.numShards
    let q1 := { q with popShardIdx := (q.popShardIdx + 1) % 2 ^ 64 }
    match q.shards[idx]? with
    | none => (none, q1)
    | some s =>
      match s.tryPop with
      | (some a, s') => (some a, { q1 with shards := q.shards.set idx s' })
      | (none, _) => popProbe fuel q1

/- `try_pop`: one probe per shard. -/
def tryPop (q : MPSCQueue α) : Option α × MPSCQueue α :=
  popProbe q.numShards q

/- The records of each shard, oldest first. -/
def view (q : MPSCQueue α) : List (List α) :=
  q.shards.map Shard.contents

/- Every shard keeps its bounds and has `shard_capacity_` cells. -/
def ShardsValid (capacity : Nat) (shards : List (Shard α)) : Prop :=
  ∀ s ∈ shards, s.Valid ∧ s.capacity = capacity

/- The queue's invariant. -/
structure Valid (q : MPSCQueue α) : Prop where
  shards_pos : 0 < q.numShards
  shards : ShardsValid q.shardCapacity q.shards
  pop_lt : q.popShardIdx < 2 ^ 64

end MPSCQueue

------------------------------------------------------------
-- What the Queue Is For
------------------------------------------------------------

/-
  A sharded FIFO: one list per shard, each of at most `bound`
  records.  A push stores its record at the end of some shard
  with room and fails only when no shard has room; a pop returns
  the oldest record of some shard and fails only when all are
  empty.  Which shard is left open.
-/
inductive ShardedFifo.Step {α : Type} (bound : Nat) :
    List (List α) → Op α → Out α → List (List α) → Prop
  | push {xss : List (List α)} {j : Nat} {xs : List α} (home : Nat) (item : α) :
      xss[j]? = some xs → xs.length < bound →
      ShardedFifo.Step bound xss (.push home item) (.pushed true) (xss.set j (xs ++ [item]))
  | full {xss : List (List α)} (home : Nat) (item : α) :
      (∀ xs ∈ xss, bound ≤ xs.length) →
      ShardedFifo.Step bound xss (.push home item) (.pushed false) xss
  | pop {xss : List (List α)} {j : Nat} {a : α} {xs : List α} :
      xss[j]? = some (a :: xs) →
      ShardedFifo.Step bound xss .pop (.popped (some a)) (xss.set j xs)
  | empty {xss : List (List α)} :
      (∀ xs ∈ xss, xs = []) → ShardedFifo.Step bound xss .pop (.popped none) xss

/- Runs of the sharded FIFO. -/
inductive ShardedFifo.Run {α : Type} (bound : Nat) :
    List (List α) → List (Op α) → List (Out α) → List (List α) → Prop
  | nil {xss : List (List α)} : ShardedFifo.Run bound xss [] [] xss
  | cons {xss xss' xss'' : List (List α)} {op : Op α} {out : Out α} {ops : List (Op α)}
      {outs : List (Out α)} :
      ShardedFifo.Step bound xss op out xss' → ShardedFifo.Run bound xss' ops outs xss'' →
      ShardedFifo.Run bound xss (op :: ops) (out :: outs) xss''

namespace ShardedFifo

variable {α : Type} {bound : Nat}

/- The records a run's successful pushes stored, in call order. -/
def accepted : List (Op α) → List (Out α) → List α
  | .push _ item :: ops, .pushed true :: outs => item :: accepted ops outs
  | _ :: ops, _ :: outs => accepted ops outs
  | _, _ => []

/- The records a run's pops returned, in call order. -/
def popped : List (Out α) → List α
  | .popped (some a) :: outs => a :: popped outs
  | _ :: outs => popped outs
  | [] => []

theorem accepted_cons (op : Op α) (out : Out α) (ops : List (Op α)) (outs : List (Out α)) :
    accepted (op :: ops) (out :: outs) = accepted [op] [out] ++ accepted ops outs := by
  rcases op with _ | _ <;> rcases out with (_ | _) | _ <;> rfl

theorem popped_cons (out : Out α) (outs : List (Out α)) :
    popped (out :: outs) = popped [out] ++ popped outs := by
  rcases out with _ | (_ | _) <;> rfl

/- Replacing one shard's records replaces them in the whole. -/
theorem flatten_set_perm {xss : List (List α)} {j : Nat} {xs : List α}
    (h : xss[j]? = some xs) (ys : List α) :
    List.Perm ((xss.set j ys).flatten ++ xs) (xss.flatten ++ ys) := by
  induction xss generalizing j with
  | nil => simp at h
  | cons zs xss ih =>
    cases j with
    | zero =>
      simp only [List.getElem?_cons_zero, Option.some.injEq] at h
      subst h
      classical
      simp only [List.set_cons_zero, List.flatten_cons]
      exact List.perm_iff_count.mpr fun a => by simp only [List.count_append]; omega
    | succ j =>
      simp only [List.getElem?_cons_succ] at h
      simpa only [List.set_cons_succ, List.flatten_cons, List.append_assoc] using
        (ih h).append_left zs

/- A step stores what a push accepted and gives out what a pop returned, nothing else. -/
theorem Step.perm {xss xss' : List (List α)} {op : Op α} {out : Out α}
    (h : Step bound xss op out xss') :
    List.Perm (xss'.flatten ++ popped [out]) (xss.flatten ++ accepted [op] [out]) := by
  classical
  cases h with
  | @push _ xs home item hxs _ =>
    have hPerm := (flatten_set_perm hxs (xs ++ [item])).count_eq
    refine List.perm_iff_count.mpr fun a => ?_
    have := hPerm a
    simp only [List.count_append] at this ⊢
    simp only [popped, accepted, List.count_nil, List.count_singleton'] at this ⊢
    omega
  | full => simp [popped, accepted]
  | @pop _ _ xs hxs =>
    have hPerm := (flatten_set_perm hxs xs).count_eq
    refine List.perm_iff_count.mpr fun a => ?_
    have := hPerm a
    simp only [List.count_append, List.count_cons, beq_iff_eq] at this ⊢
    simp only [popped, accepted, List.count_nil, List.count_singleton'] at this ⊢
    omega
  | empty => simp [popped, accepted]

/- Over a run: the records stored at the end and those given out are those accepted. -/
theorem Run.perm {xss xss' : List (List α)} {ops : List (Op α)} {outs : List (Out α)}
    (h : Run bound xss ops outs xss') :
    List.Perm (xss'.flatten ++ popped outs) (xss.flatten ++ accepted ops outs) := by
  classical
  induction h with
  | nil => simp [popped, accepted]
  | cons hStep _ ih =>
    rw [popped_cons, accepted_cons]
    have h₁ := hStep.perm.count_eq
    have h₂ := ih.count_eq
    refine List.perm_iff_count.mpr fun a => ?_
    have := h₁ a
    have := h₂ a
    simp only [List.count_append] at *
    omega

/- Steps keep the number of shards. -/
theorem Step.length_eq {xss xss' : List (List α)} {op : Op α} {out : Out α}
    (h : Step bound xss op out xss') : xss'.length = xss.length := by
  cases h <;> simp

theorem Run.length_eq {xss xss' : List (List α)} {ops : List (Op α)} {outs : List (Out α)}
    (h : Run bound xss ops outs xss') : xss'.length = xss.length := by
  induction h with
  | nil => rfl
  | cons hStep _ ih => exact ih.trans hStep.length_eq

end ShardedFifo

------------------------------------------------------------
-- One Call
------------------------------------------------------------

/- Setting an entry to the value it holds changes nothing. -/
theorem List.set_self_of_getElem? {β : Type} {l : List β} {i : Nat} {a : β}
    (h : l[i]? = some a) : l.set i a = l := by
  induction l generalizing i with
  | nil => simp at h
  | cons b l ih =>
    cases i with
    | zero => simp_all
    | succ i => simp_all

namespace MPSCQueue

variable {α : Type} {cap : Nat} {shards : List (Shard α)}

theorem ShardsValid.set (h : ShardsValid cap shards) {s : Shard α}
    (hs : s.Valid ∧ s.capacity = cap) (idx : Nat) : ShardsValid cap (shards.set idx s) :=
  fun t ht => (List.mem_or_eq_of_mem_set ht).elim (h t) fun e => e ▸ hs

/- A shard has room exactly when it holds fewer than `capacity_ - 1` records. -/
theorem room_iff {s : Shard α} (h : s.Valid) :
    s.size + 1 < s.capacity ↔ s.contents.length < s.capacity - 1 := by
  have := h.capacity_pos
  rw [Shard.length_contents]
  omega

/-
  The push at one shard: it stores the record exactly when that
  shard has room, and leaves every other shard as it was.
-/
theorem pushAt_spec (hv : ShardsValid cap shards) {idx : Nat} {s : Shard α}
    (hs : shards[idx]? = some s) (item : α) :
    ∃ shards', pushAt shards idx item = some (decide (s.contents.length < cap - 1), shards') ∧
      ShardsValid cap shards' ∧ shards'.length = shards.length ∧
      shards'.map Shard.contents =
        if s.contents.length < cap - 1
        then (shards.map Shard.contents).set idx (s.contents ++ [item])
        else shards.map Shard.contents := by
  obtain ⟨hValid, hCap⟩ := hv s (List.getElem?_mem hs)
  obtain ⟨s', hPush, hValid', hCap', hContents⟩ := hValid.tryPush_contents item
  have hRoom := room_iff hValid
  rw [hCap] at hRoom hPush hContents
  refine ⟨shards.set idx s', by simp only [pushAt, hs, hPush, decide_eq_decide.mpr hRoom,
    Option.map_some'], hv.set ⟨hValid', hCap'.trans hCap⟩ idx, List.length_set .., ?_⟩
  rw [List.map_set, hContents]
  by_cases h : s.contents.length < cap - 1
  · simp only [if_pos (hRoom.mpr h), if_pos h]
  · simp only [if_neg (mt hRoom.mp h), if_neg h]
    exact List.set_self_of_getElem? (by simp [hs])

/-
  The pushes at the listed shards: either one of them stores the
  record, or none had room and nothing changed.
-/
theorem pushProbe_spec (item : α) {order : List Nat} (hv : ShardsValid cap shards)
    (hOrder : ∀ idx ∈ order, idx < shards.length) :
    ∃ b shards', pushProbe item order shards = some (b, shards') ∧ ShardsValid cap shards' ∧
      shards'.length = shards.length ∧
      ((b = true ∧ ∃ j xs, (shards.map Shard.contents)[j]? = some xs ∧ xs.length < cap - 1 ∧
          shards'.map Shard.contents = (shards.map Shard.contents).set j (xs ++ [item])) ∨
        (b = false ∧ shards'.map Shard.contents = shards.map Shard.contents ∧
          ∀ j ∈ order, ∀ xs, (shards.map Shard.contents)[j]? = some xs → cap - 1 ≤ xs.length)) := by
  induction order generalizing shards with
  | nil => exact ⟨false, shards, rfl, hv, rfl, .inr ⟨rfl, rfl, fun _ h => absurd h (List.not_mem_nil _)⟩⟩
  | cons idx order ih =>
    obtain ⟨s, hs⟩ : ∃ s, shards[idx]? = some s :=
      ⟨_, List.getElem?_eq_getElem (hOrder idx (List.mem_cons_self _ _))⟩
    have hView : (shards.map Shard.contents)[idx]? = some s.contents := by simp [hs]
    obtain ⟨shards', hPush, hv', hLen, hContents⟩ := pushAt_spec hv hs item
    by_cases hRoom : s.contents.length < cap - 1
    · refine ⟨true, shards', by rw [pushProbe, hPush, decide_eq_true hRoom], hv', hLen,
        .inl ⟨rfl, idx, s.contents, hView, hRoom, by rw [hContents, if_pos hRoom]⟩⟩
    · rw [if_neg hRoom] at hContents
      obtain ⟨b, shards'', hProbe, hv'', hLen', hCases⟩ :=
        ih hv' fun j hj => hLen ▸ hOrder j (List.mem_cons_of_mem _ hj)
      refine ⟨b, shards'', by rw [pushProbe, hPush, decide_eq_false hRoom]; exact hProbe, hv'',
        hLen'.trans hLen, ?_⟩
      rw [hContents] at hCases
      refine hCases.imp id fun ⟨hb, hSame, hFull⟩ => ⟨hb, hSame, fun j hj xs hxs => ?_⟩
      rcases List.mem_cons.mp hj with rfl | hj
      · rw [hView] at hxs
        cases hxs
        omega
      · exact hFull j hj xs hxs

/- Every shard a push may try is a shard of the queue. -/
theorem lt_of_mem_probeOrder {n home j : Nat} (hHome : home < n) (hj : j ∈ probeOrder n home) :
    j < n := by
  rcases List.mem_cons.mp hj with rfl | hj
  · exact hHome
  · obtain ⟨i, -, rfl⟩ := List.mem_map.mp hj
    exact Nat.mod_lt _ (by omega)

/- A push tries every shard of the queue. -/
theorem mem_probeOrder {n home j : Nat} (hHome : home < n) (hj : j < n) :
    j ∈ probeOrder n home := by
  by_cases hEq : j = home
  · exact hEq ▸ List.mem_cons_self _ _
  refine List.mem_cons_of_mem _ (List.mem_map.mpr ?_)
  by_cases hLt : home < j
  · exact ⟨j - home, List.mem_range'_1.mpr ⟨by omega, by omega⟩, by
      rw [Nat.add_sub_cancel' (by omega), Nat.mod_eq_of_lt hj]⟩
  · refine ⟨j + n - home, List.mem_range'_1.mpr ⟨by omega, by omega⟩, ?_⟩
    rw [show home + (j + n - home) = j + n by omega, Nat.add_mod_right, Nat.mod_eq_of_lt hj]

/-
  The probes of a pop, `fuel` of them: either one finds a record
  and takes the oldest record of that shard, or every probed
  shard was empty and only the index moved.
-/
theorem popProbe_spec {q : MPSCQueue α} (hv : ShardsValid q.shardCapacity q.shards)
    (hPos : 0 < q.numShards) (hp : q.popShardIdx < 2 ^ 64) (fuel : Nat) :
    ShardsValid q.shardCapacity (popProbe fuel q).2.shards ∧
      (popProbe fuel q).2.shards.length = q.shards.length ∧
      (popProbe fuel q).2.shardCapacity = q.shardCapacity ∧
      (popProbe fuel q).2.popShardIdx < 2 ^ 64 ∧
      ((∃ a j xs, (popProbe fuel q).1 = some a ∧ q.view[j]? = some (a :: xs) ∧
          (popProbe fuel q).2.view = q.view.set j xs) ∨
        ((popProbe fuel q).1 = none ∧ (popProbe fuel q).2.view = q.view ∧
          ∀ t < fuel, ∀ xs, q.view[(q.popShardIdx + t) % 2 ^ 64 % q.numShards]? = some xs →
            xs = [])) := by
  induction fuel generalizing q with
  | zero => exact ⟨hv, rfl, rfl, hp, .inr ⟨rfl, rfl, fun t ht => absurd ht (Nat.not_lt_zero t)⟩⟩
  | succ fuel ih =>
    obtain ⟨s, hs⟩ : ∃ s, q.shards[q.popShardIdx % q.numShards]? = some s :=
      ⟨_, List.getElem?_eq_getElem (Nat.mod_lt _ hPos)⟩
    have hView : q.view[q.popShardIdx % q.numShards]? = some s.contents := by simp [view, hs]
    obtain ⟨hValid, hCap⟩ := hv s (List.getElem?_mem hs)
    obtain ⟨hHead, hTail, hValid', hCap'⟩ := hValid.tryPop_contents
    have hNext : (q.popShardIdx + 1) % 2 ^ 64 < 2 ^ 64 := Nat.mod_lt _ (Nat.two_pow_pos 64)
    rcases hPop : s.tryPop with ⟨_ | a, s'⟩
    · /- An empty shard: the next probe, one index on. -/
      rw [hPop] at hHead
      have hEmpty : s.contents = [] := List.head?_eq_none_iff.mp hHead.symm
      obtain ⟨hv₁, hLen₁, hCap₁, hp₁, hCases⟩ :=
        ih (q := { q with popShardIdx := (q.popShardIdx + 1) % 2 ^ 64 }) hv hPos hNext
      have hRun : popProbe (fuel + 1) q =
          popProbe fuel { q with popShardIdx := (q.popShardIdx + 1) % 2 ^ 64 } := by
        simp only [popProbe, hs, hPop]
      rw [hRun]
      refine ⟨hv₁, hLen₁, hCap₁, hp₁, hCases.imp id fun ⟨hNone, hSame, hProbed⟩ =>
        ⟨hNone, hSame, fun t ht xs hxs => ?_⟩⟩
      cases t with
      | zero =>
        rw [Nat.add_zero, Nat.mod_eq_of_lt hp, hView] at hxs
        exact (Option.some.inj hxs) ▸ hEmpty
      | succ t =>
        refine hProbed t (by omega) xs ?_
        rwa [Nat.mod_add_mod, Nat.add_assoc, Nat.add_comm 1 t]
    · /- A shard with records: its oldest is the result. -/
      rw [hPop] at hHead hTail hValid' hCap'
      have hContents : s.contents = a :: s'.contents := by
        obtain ⟨ys, hys⟩ := List.head?_eq_some_iff.mp hHead.symm
        rw [hys, show s'.contents = s.contents.tail from hTail, hys]
        rfl
      have hRun : popProbe (fuel + 1) q = (some a, { q with
          popShardIdx := (q.popShardIdx + 1) % 2 ^ 64,
          shards := q.shards.set (q.popShardIdx % q.numShards) s' }) := by
        simp only [popProbe, hs, hPop]
      rw [hRun]
      exact ⟨hv.set ⟨hValid', hCap'.trans hCap⟩ _, List.length_set .., rfl, hNext,
        .inl ⟨a, _, s'.contents, rfl, hContents ▸ hView, by simp only [view, List.map_set]⟩⟩

/- Consecutive probes from any index reach every shard. -/
theorem exists_probe_eq {n p j : Nat} (hj : j < n) : ∃ t < n, (p + t) % n = j := by
  have hr := Nat.mod_lt p (by omega : 0 < n)
  refine ⟨(j + n - p % n) % n, Nat.mod_lt _ (by omega), ?_⟩
  rw [← Nat.mod_add_mod, Nat.add_mod_mod, Nat.add_sub_cancel' (by omega), Nat.add_mod_right,
    Nat.mod_eq_of_lt hj]

/-
  A push on a valid queue, from a thread whose cached shard is
  one of the queue's, stores the record in a shard with room, or
  finds every shard full and leaves the records as they were.
-/
theorem Valid.tryPush_spec {q : MPSCQueue α} (hq : q.Valid) {home : Nat}
    (hHome : home < q.numShards) (item : α) :
    ∃ b q', q.tryPush home item = some (b, q') ∧ q'.Valid ∧ q'.numShards = q.numShards ∧
      q'.shardCapacity = q.shardCapacity ∧
      List.Perm q'.view.flatten (q.view.flatten ++ if b then [item] else []) ∧
      (b = false → q'.view = q.view ∧ ∀ xs ∈ q.view, q.shardCapacity - 1 ≤ xs.length) := by
  obtain ⟨b, shards', hProbe, hv', hLen, hCases⟩ :=
    pushProbe_spec item hq.shards fun j hj => lt_of_mem_probeOrder hHome hj
  refine ⟨b, { q with shards := shards' }, by simp [tryPush, numShards, hProbe],
    ⟨Nat.lt_of_lt_of_eq hq.shards_pos hLen.symm, hv', hq.pop_lt⟩, hLen, rfl, ?_⟩
  show List.Perm (shards'.map Shard.contents).flatten _ ∧
    (b = false → shards'.map Shard.contents = q.view ∧ _)
  rcases hCases with ⟨rfl, j, xs, hxs, hRoom, hView⟩ | ⟨rfl, hSame, hFull⟩
  · refine ⟨?_, fun h => absurd h Bool.noConfusion⟩
    rw [hView]
    simpa [ShardedFifo.popped, ShardedFifo.accepted] using
      (ShardedFifo.Step.push home item hxs hRoom).perm
  · refine ⟨by rw [hSame]; simp [view], fun _ => ⟨hSame, fun xs hMem => ?_⟩⟩
    obtain ⟨j, hj⟩ := List.mem_iff_getElem?.mp hMem
    have hjn : j < q.numShards := by
      simpa [view, numShards] using (List.getElem?_eq_some_iff.mp hj).1
    exact hFull j (mem_probeOrder hHome hjn) xs hj

/-
  A pop on a valid queue takes the oldest record of some shard,
  or finds none and leaves the records as they were.
-/
theorem Valid.tryPop_spec {q : MPSCQueue α} (hq : q.Valid) :
    q.tryPop.2.Valid ∧ q.tryPop.2.numShards = q.numShards ∧
      q.tryPop.2.shardCapacity = q.shardCapacity ∧
      (∀ a, q.tryPop.1 = some a → List.Perm q.view.flatten (a :: q.tryPop.2.view.flatten)) ∧
      (q.tryPop.1 = none → q.tryPop.2.view = q.view) := by
  obtain ⟨hv', hLen, hCap, hp', hCases⟩ :=
    popProbe_spec hq.shards hq.shards_pos hq.pop_lt q.numShards
  refine ⟨⟨Nat.lt_of_lt_of_eq hq.shards_pos hLen.symm, hCap ▸ hv', hp'⟩, hLen, hCap,
    fun a ha => ?_, fun ha => ?_⟩ <;> unfold tryPop at ha ⊢
  · rcases hCases with ⟨a', j, xs, hSome, hxs, hView⟩ | ⟨hNone, -, -⟩
    · rw [hSome, Option.some.injEq] at ha
      subst ha
      rw [hView]
      simpa [ShardedFifo.popped, ShardedFifo.accepted] using
        (@ShardedFifo.Step.pop _ 0 _ _ _ _ hxs).perm.symm.trans List.perm_middle
    · rw [hNone] at ha
      cases ha
  · rcases hCases with ⟨a', -, -, hSome, -, -⟩ | ⟨-, hSame, -⟩
    · rw [hSome] at ha
      cases ha
    · exact hSame

/-
  When the number of shards divides `2 ^ 64`, so that
  `pop_shard_idx_` wrapping keeps its residue, the probes of a
  pop reach every shard: one that finds no record found every
  shard empty.
-/
theorem Valid.tryPop_none {q : MPSCQueue α} (hq : q.Valid) (hDvd : q.numShards ∣ 2 ^ 64)
    (hNone : q.tryPop.1 = none) : q.view.flatten = [] := by
  obtain ⟨-, -, -, -, hCases⟩ := popProbe_spec hq.shards hq.shards_pos hq.pop_lt q.numShards
  unfold tryPop at hNone
  rcases hCases with ⟨a, -, -, hSome, -, -⟩ | ⟨-, -, hProbed⟩
  · rw [hSome] at hNone
    cases hNone
  · refine List.flatten_eq_nil_iff.mpr fun xs hMem => ?_
    obtain ⟨j, hj⟩ := List.mem_iff_getElem?.mp hMem
    have hjn : j < q.numShards := by
      simpa [view, numShards] using (List.getElem?_eq_some_iff.mp hj).1
    obtain ⟨t, ht, hEq⟩ := exists_probe_eq (p := q.popShardIdx) hjn
    exact hProbed t ht xs (by rwa [Nat.mod_mod_of_dvd _ hDvd, hEq])

/- A new queue with at least one cell per shard is valid, and empty. -/
theorem make_valid [Inhabited α] {capacity numShards : Nat} {q : MPSCQueue α}
    (hMake : make capacity numShards = some q) (hCells : 0 < capacity / numShards) :
    q.Valid ∧ q.view = List.replicate numShards [] ∧ q.numShards = numShards ∧
      q.shardCapacity = capacity / numShards := by
  unfold make at hMake
  split_ifs at hMake with hZero
  simp only [Option.some.injEq] at hMake
  subst hMake
  refine ⟨⟨by simpa [MPSCQueue.numShards] using Nat.pos_of_ne_zero hZero, fun s hs => ?_,
    Nat.two_pow_pos 64⟩, by simp [view], by simp [MPSCQueue.numShards], rfl⟩
  rw [List.eq_of_mem_replicate hs]
  exact ⟨Shard.init_valid hCells, rfl⟩

/- `size` counts the records of the shards. -/
theorem size_eq_view (q : MPSCQueue α) : q.size = q.view.flatten.length := by
  suffices ∀ total (shards : List (Shard α)),
      shards.foldl (fun total shard => total + shard.size) total =
        total + (shards.map Shard.contents).flatten.length from
    (this 0 q.shards).trans (Nat.zero_add _)
  intro total shards
  induction shards generalizing total with
  | nil => rfl
  | cons shard shards ih => simp [ih, Nat.add_assoc]

end MPSCQueue

end SegmentedLogging

end Vex
