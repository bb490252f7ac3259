import Vex.Expirator.Store

/-
  The heap expirator (`heap_expirator.hpp`): a binary min-heap
  of `(expiry, key)` nodes paired with a hash map from each key
  to its expiry, payload and heap position, and a steady timer
  armed at the root's deadline.

  The vector `heap_` is its contents as a function of the index
  together with its size.  The timer is the
  deadline of its one pending `async_wait`, if any: `cancel` and
  a completed wait leave it `none`.

  The two sift loops run at most `idx` and `heap_.size()` times,
  and are written with that bound as fuel.

  Key definitions include:
    * `HeapExpirator`
    * `heapBubbleUp`, `heapBubbleDown`
    * `add`, `updateExpiry`, `remove`, `clear`
    * `expireRoot`, `processExpired`
    * `start`, `stop`, `scheduleNext`, `onTimer`
-/

------------------------------------------------------------
-- State
------------------------------------------------------------

namespace Vex

namespace Expirator

/- `heap_expirator::entry_data`. -/
structure EntryData (V : Type) where
  expiry : Int
  info : V
  heapIndex : Nat
  deriving DecidableEq

/- The store entry an entry of `entries_` stands for. -/
def EntryData.view
    {V : Type}
    (e : EntryData V) : Entry V :=
  ⟨e.expiry, e.info⟩

/- `heap_expirator::heap_node`. -/
structure HeapNode (K : Type) where
  expiry : Int
  key : K

/- The fields of `heap_expirator` that its operations read. -/
structure HeapExpirator (K V : Type) where
  timer : Option Int
  entries : HashMap K (EntryData V)
  heap : Nat → HeapNode K
  heapSize : Nat
  running : Bool

namespace HeapExpirator

variable {K V : Type} [DecidableEq K]

/- A freshly constructed expirator. -/
def init [Inhabited K] : HeapExpirator K V :=
  ⟨none, ∅, fun _ => ⟨0, default⟩, 0, false⟩

def parent (i : Nat) : Nat := (i - 1) / 2

def leftChild (i : Nat) : Nat := 2 * i + 1

def rightChild (i : Nat) : Nat := 2 * i + 2

------------------------------------------------------------
-- Timer
------------------------------------------------------------

/- `timer_.cancel(ec)`. -/
def cancel (s : HeapExpirator K V) : HeapExpirator K V :=
  { s with timer := none }

/- `schedule_next`: arm the timer at the root's deadline. -/
def scheduleNext (s : HeapExpirator K V) : HeapExpirator K V :=
  if s.heapSize = 0 then { s with running := false }
  else { s with timer := some (s.heap 0).expiry }

/- `start`. -/
def start (s : HeapExpirator K V) : HeapExpirator K V :=
  if !s.running && s.heapSize != 0 then
    scheduleNext { s with running := true }
  else s

/- `stop`. -/
def stop (s : HeapExpirator K V) : HeapExpirator K V :=
  if s.running then cancel { s with running := false } else s

------------------------------------------------------------
-- Writes
------------------------------------------------------------

/-
  `heap_.push_back({expiry, key})` and
  `entries_[key] = {expiry, info, heap_index}`.
-/
def pushNode
    (s : HeapExpirator K V)
    (key : K)
    (expiry : Int)
    (info : V) : HeapExpirator K V :=
  { s with
    heap := Function.update s.heap s.heapSize ⟨expiry, key⟩
    heapSize := s.heapSize + 1
    entries := s.entries.insert key ⟨expiry, info, s.heapSize⟩ }

@[simp] theorem pushNode_heap
    (s : HeapExpirator K V)
    (key : K)
    (expiry : Int)
    (info : V) :
    (pushNode s key expiry info).heap =
      Function.update s.heap s.heapSize ⟨expiry, key⟩ :=
  rfl

@[simp] theorem pushNode_heapSize
    (s : HeapExpirator K V)
    (key : K)
    (expiry : Int)
    (info : V) :
    (pushNode s key expiry info).heapSize = s.heapSize + 1 :=
  rfl

@[simp] theorem pushNode_entries
    (s : HeapExpirator K V)
    (key : K)
    (expiry : Int)
    (info : V) :
    (pushNode s key expiry info).entries =
      s.entries.insert key ⟨expiry, info, s.heapSize⟩ :=
  rfl

/- The writes of a new expiry to `key`'s entry `e` and to its node. -/
def retimeNode
    (s : HeapExpirator K V)
    (key : K)
    (e : EntryData V)
    (expiry : Int) : HeapExpirator K V :=
  { s with
    entries := s.entries.insert key { e with expiry := expiry }
    heap :=
      Function.update s.heap e.heapIndex
        { s.heap e.heapIndex with expiry := expiry } }

@[simp] theorem retimeNode_heap
    (s : HeapExpirator K V)
    (key : K)
    (e : EntryData V)
    (expiry : Int) :
    (retimeNode s key e expiry).heap =
      Function.update s.heap e.heapIndex
        { s.heap e.heapIndex with expiry := expiry } :=
  rfl

@[simp] theorem retimeNode_heapSize
    (s : HeapExpirator K V)
    (key : K)
    (e : EntryData V)
    (expiry : Int) :
    (retimeNode s key e expiry).heapSize = s.heapSize :=
  rfl

@[simp] theorem retimeNode_entries
    (s : HeapExpirator K V)
    (key : K)
    (e : EntryData V)
    (expiry : Int) :
    (retimeNode s key e expiry).entries =
      s.entries.insert key { e with expiry := expiry } :=
  rfl

/- `entries_.erase(key)`. -/
def eraseEntry
    (s : HeapExpirator K V)
    (key : K) : HeapExpirator K V :=
  { s with entries := s.entries.erase key }

@[simp] theorem eraseEntry_heap
    (s : HeapExpirator K V)
    (key : K) :
    (eraseEntry s key).heap = s.heap :=
  rfl

@[simp] theorem eraseEntry_heapSize
    (s : HeapExpirator K V)
    (key : K) :
    (eraseEntry s key).heapSize = s.heapSize :=
  rfl

@[simp] theorem eraseEntry_entries
    (s : HeapExpirator K V)
    (key : K) :
    (eraseEntry s key).entries = s.entries.erase key :=
  rfl

/- `heap_.pop_back()`. -/
def popBack (s : HeapExpirator K V) : HeapExpirator K V :=
  { s with heapSize := s.heapSize - 1 }

omit [DecidableEq K] in
@[simp] theorem popBack_heap (s : HeapExpirator K V) :
    (popBack s).heap = s.heap :=
  rfl

omit [DecidableEq K] in
@[simp] theorem popBack_heapSize (s : HeapExpirator K V) :
    (popBack s).heapSize = s.heapSize - 1 :=
  rfl

omit [DecidableEq K] in
@[simp] theorem popBack_entries (s : HeapExpirator K V) :
    (popBack s).entries = s.entries :=
  rfl

/- `heap_[idx] = heap_.back(); heap_.pop_back();` -/
def fillHole
    (s : HeapExpirator K V)
    (idx : Nat) : HeapExpirator K V :=
  popBack { s with heap := Function.update s.heap idx (s.heap (s.heapSize - 1)) }

omit [DecidableEq K] in
@[simp] theorem fillHole_heap
    (s : HeapExpirator K V)
    (idx : Nat) :
    (fillHole s idx).heap =
      Function.update s.heap idx (s.heap (s.heapSize - 1)) :=
  rfl

omit [DecidableEq K] in
@[simp] theorem fillHole_heapSize
    (s : HeapExpirator K V)
    (idx : Nat) :
    (fillHole s idx).heapSize = s.heapSize - 1 :=
  rfl

omit [DecidableEq K] in
@[simp] theorem fillHole_entries
    (s : HeapExpirator K V)
    (idx : Nat) :
    (fillHole s idx).entries = s.entries :=
  rfl

/-
  `entries_[heap_[idx].key].heap_index = idx` through the entry
  `se` found for the node's key.
-/
def reindex
    (s : HeapExpirator K V)
    (idx : Nat)
    (se : EntryData V) : HeapExpirator K V :=
  { s with entries := s.entries.insert (s.heap idx).key { se with heapIndex := idx } }

@[simp] theorem reindex_heap
    (s : HeapExpirator K V)
    (idx : Nat)
    (se : EntryData V) :
    (reindex s idx se).heap = s.heap :=
  rfl

@[simp] theorem reindex_heapSize
    (s : HeapExpirator K V)
    (idx : Nat)
    (se : EntryData V) :
    (reindex s idx se).heapSize = s.heapSize :=
  rfl

@[simp] theorem reindex_entries
    (s : HeapExpirator K V)
    (idx : Nat)
    (se : EntryData V) :
    (reindex s idx se).entries =
      s.entries.insert (s.heap idx).key { se with heapIndex := idx } :=
  rfl

------------------------------------------------------------
-- Sifting
------------------------------------------------------------

variable [Inhabited V]

/-
  `entries_[key].heap_index = i`: `operator[]` default-constructs
  an entry for a missing key before the write.
-/
def setHeapIndex
    (entries : HashMap K (EntryData V))
    (key : K)
    (i : Nat) : HashMap K (EntryData V) :=
  entries.insert key
    { (entries.find key).getD ⟨0, default, 0⟩ with heapIndex := i }

/-
  `std::swap(heap_[i], heap_[j])` followed by the writes of both
  nodes' `heap_index`.
-/
def swapNodes
    (s : HeapExpirator K V)
    (i j : Nat) : HeapExpirator K V :=
  let heap := fun n =>
    if n = i then s.heap j else if n = j then s.heap i else s.heap n
  { s with
    heap := heap
    entries :=
      setHeapIndex (setHeapIndex s.entries (heap i).key i)
        (heap j).key j }

/- The loop of `heap_bubble_up`, with `fuel` iterations left. -/
def bubbleUpLoop :
    Nat → HeapExpirator K V → Nat → HeapExpirator K V
  | 0, s, _ => s
  | fuel + 1, s, idx =>
      if idx = 0 then s
      else if (s.heap (parent idx)).expiry ≤ (s.heap idx).expiry then s
      else bubbleUpLoop fuel (swapNodes s idx (parent idx)) (parent idx)

/- `heap_bubble_up`: `idx` falls at every iteration. -/
def heapBubbleUp
    (s : HeapExpirator K V)
    (idx : Nat) : HeapExpirator K V :=
  bubbleUpLoop idx s idx

/- The index `heap_bubble_down` swaps `idx` with, or `idx`. -/
def smallestChild
    (s : HeapExpirator K V)
    (idx : Nat) : Nat :=
  let left := leftChild idx
  let right := rightChild idx
  let smallest :=
    if left < s.heapSize ∧ (s.heap left).expiry < (s.heap idx).expiry
    then left else idx
  if right < s.heapSize ∧
      (s.heap right).expiry < (s.heap smallest).expiry
  then right else smallest

/- The loop of `heap_bubble_down`, with `fuel` iterations left. -/
def bubbleDownLoop :
    Nat → HeapExpirator K V → Nat → HeapExpirator K V
  | 0, s, _ => s
  | fuel + 1, s, idx =>
      if smallestChild s idx = idx then s
      else
        bubbleDownLoop fuel (swapNodes s idx (smallestChild s idx))
          (smallestChild s idx)

/- `heap_bubble_down`: `idx` rises at every iteration. -/
def heapBubbleDown
    (s : HeapExpirator K V)
    (idx : Nat) : HeapExpirator K V :=
  bubbleDownLoop s.heapSize s idx

/- `entries_[heap_[0].key].heap_index = 0`. -/
def setRootIndex (s : HeapExpirator K V) : HeapExpirator K V :=
  { s with entries := setHeapIndex s.entries (s.heap 0).key 0 }

@[simp] theorem setRootIndex_heap (s : HeapExpirator K V) :
    (setRootIndex s).heap = s.heap :=
  rfl

@[simp] theorem setRootIndex_heapSize (s : HeapExpirator K V) :
    (setRootIndex s).heapSize = s.heapSize :=
  rfl

@[simp] theorem setRootIndex_entries (s : HeapExpirator K V) :
    (setRootIndex s).entries = setHeapIndex s.entries (s.heap 0).key 0 :=
  rfl

------------------------------------------------------------
-- Operations
------------------------------------------------------------

/- `add(key, ttl, info)` at clock reading `now`. -/
def add
    (s : HeapExpirator K V)
    (now : Int)
    (key : K)
    (ttl : Int)
    (info : V) : Bool × HeapExpirator K V :=
  if key ∈ s.entries then (false, s)
  else
    let heapIndex := s.heapSize
    let s1 := heapBubbleUp (pushNode s key (now + ttl) info) heapIndex
    if heapIndex = 0 ∨ (s1.heap 0).key = key then
      if s1.running then (true, scheduleNext (cancel s1))
      else (true, start s1)
    else (true, s1)

/- `update_expiry(key, ttl)` at clock reading `now`. -/
def updateExpiry
    (s : HeapExpirator K V)
    (now : Int)
    (key : K)
    (ttl : Int) : Bool × HeapExpirator K V :=
  match s.entries.find key with
  | none => (false, s)
  | some e =>
      let newExpiry := now + ttl
      let idx := e.heapIndex
      let s1 := retimeNode s key e newExpiry
      let s2 :=
        if newExpiry < e.expiry then heapBubbleUp s1 idx
        else heapBubbleDown s1 idx
      if s2.running ∧ idx = 0 then (true, scheduleNext (cancel s2))
      else (true, s2)

/-
  `remove(key)`: the last node fills the hole, then sifts in the
  direction its parent dictates.
-/
def remove
    (s : HeapExpirator K V)
    (key : K) : Bool × HeapExpirator K V :=
  match s.entries.find key with
  | none => (false, s)
  | some e =>
      let idx := e.heapIndex
      let s1 := eraseEntry s key
      if idx = s1.heapSize - 1 then (true, popBack s1)
      else
        let s2 := fillHole s1 idx
        if idx < s2.heapSize then
          match s2.entries.find (s2.heap idx).key with
          | none => (true, s2)
          | some se =>
              let s3 := reindex s2 idx se
              if 0 < idx ∧
                  (s3.heap idx).expiry < (s3.heap (parent idx)).expiry
              then (true, heapBubbleUp s3 idx)
              else (true, heapBubbleDown s3 idx)
        else (true, s2)

/- `clear`. -/
def clear (s : HeapExpirator K V) : HeapExpirator K V :=
  let s1 := { s with entries := ∅, heapSize := 0 }
  if s1.running then { cancel s1 with running := false } else s1

/-
  One iteration of the `process_expired` loop: the root leaves
  the heap and its entry is erased; the handler call it makes,
  if the root's key has an entry, comes after both.
-/
def expireRoot
    (s : HeapExpirator K V) : Option (K × V) × HeapExpirator K V :=
  let key := (s.heap 0).key
  let s1 := fillHole s 0
  let s2 :=
    if s1.heapSize = 0 then s1 else heapBubbleDown (setRootIndex s1) 0
  match s.entries.find key with
  | some e => (some (key, e.info), eraseEntry s2 key)
  | none => (none, s2)

/- The `process_expired` loop, with `fuel` iterations left. -/
def processExpiredLoop
    (now : Int) :
    Nat → HeapExpirator K V → List (K × V) × HeapExpirator K V
  | 0, s => ([], s)
  | fuel + 1, s =>
      if s.heapSize ≠ 0 ∧ (s.heap 0).expiry ≤ now then
        let r := expireRoot s
        let rest := processExpiredLoop now fuel r.2
        (r.1.toList ++ rest.1, rest.2)
      else ([], s)

/-
  `process_expired` at clock reading `now`: every iteration
  takes one node off the heap.
-/
def processExpired
    (s : HeapExpirator K V)
    (now : Int) : List (K × V) × HeapExpirator K V :=
  processExpiredLoop now s.heapSize s

/-
  The completion handler of the timer's wait, at clock reading
  `now`, when the wait was not cancelled.
-/
def onTimer
    (s : HeapExpirator K V)
    (now : Int) : HeapExpirator K V :=
  let s1 := { s with timer := none }
  if s1.running then
    let s2 := (processExpired s1 now).2
    if s2.running then scheduleNext s2 else s2
  else s1

------------------------------------------------------------
-- Runs
------------------------------------------------------------

/- The calls of `heap_expirator` that change its entries. -/
inductive Op (K V : Type) where
  | add (key : K) (ttl : Int) (info : V)
  | remove (key : K)
  | updateExpiry (key : K) (ttl : Int)
  | clear
  | processExpired

/- The store action a call makes at clock reading `now`. -/
def Op.action (now : Int) : Op K V → Action K V
  | .add key ttl info => .add key (now + ttl) info
  | .remove key => .remove key
  | .updateExpiry key ttl => .reschedule key fun _ => now + ttl
  | .clear => .clear
  | .processExpired => .expire now

/- One call at clock reading `now`, and its answer. -/
def step
    (s : HeapExpirator K V)
    (now : Int) : Op K V → Output K V × HeapExpirator K V
  | .add key ttl info =>
      let r := s.add now key ttl info
      (.ack r.1, r.2)
  | .remove key =>
      let r := s.remove key
      (.ack r.1, r.2)
  | .updateExpiry key ttl =>
      let r := s.updateExpiry now key ttl
      (.ack r.1, r.2)
  | .clear => (.done, s.clear)
  | .processExpired =>
      let r := s.processExpired now
      (.fired r.1, r.2)

/- A sequence of timed calls from `s`, and their answers. -/
def run
    (s : HeapExpirator K V) :
    List (Int × Op K V) → List (Output K V) × HeapExpirator K V
  | [] => ([], s)
  | (now, op) :: ops =>
      let r := s.step now op
      let rest := run r.2 ops
      (r.1 :: rest.1, rest.2)

------------------------------------------------------------
-- Queries
------------------------------------------------------------

/- `contains(key)`. -/
def contains (s : HeapExpirator K V) (key : K) : Bool :=
  decide (key ∈ s.entries)

/- `size()`. -/
def size (s : HeapExpirator K V) : Nat :=
  s.entries.entries.length

/- `get_info(key)`. -/
def getInfo (s : HeapExpirator K V) (key : K) : Option V :=
  (s.entries.find key).map EntryData.info

/- `get_remaining_time(key)` at clock reading `now`. -/
def getRemainingTime
    (s : HeapExpirator K V)
    (now : Int)
    (key : K) : Option Int :=
  (s.entries.find key).map fun e =>
    if e.expiry - now > 0 then e.expiry - now else 0

end HeapExpirator

end Expirator

end Vex
