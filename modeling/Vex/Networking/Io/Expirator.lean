import Vex.Expirator.Store

/-
  The outstanding-request table of the networking façade
  (`io/expirator.hpp`): a hash map from each key to its expiry,
  payload and the iterator of its node in a multimap ordered by
  expiry, and a steady timer armed at the first node's expiry.

  The multimap is the list of its nodes in iteration order.  An
  iterator is the number of the node it points at: each node
  gets the next number when it is placed, and `erase(it)` drops
  the node with that number.  `emplace` places a node after the
  nodes of equal expiry, as `std::multimap` does.

  Key definitions include:
    * `QueueNode`, `Expirator`
    * `emplace`, `eraseNode`
    * `add`, `requeue`, `updateExpiry`, `refresh`, `remove`
    * `expireAll`, `clear`, `processExpired`
    * `Op`, `step`, `run`
-/

------------------------------------------------------------
-- State
------------------------------------------------------------

namespace Vex

namespace Networking

namespace Io

open Vex.Expirator (Store Entry HashMap Action Output)

/- A node `(expiry, key)` of `expiry_queue_`, numbered by its iterator. -/
structure QueueNode (K : Type) where
  id : Nat
  expiry : Int
  key : K
  deriving DecidableEq, Repr

/- `expirator::entry_data`. -/
structure EntryData (V : Type) where
  expiry : Int
  info : V
  queueIter : Nat
  deriving DecidableEq, Repr

/- The store entry an entry of `entries_` stands for. -/
def EntryData.view
    {V : Type}
    (e : EntryData V) : Entry V :=
  ⟨e.expiry, e.info⟩

/- The fields of `io::expirator` that its operations read. -/
structure Expirator (K V : Type) where
  timer : Option Int
  entries : HashMap K (EntryData V)
  expiryQueue : List (QueueNode K)
  nextNode : Nat
  running : Bool

namespace Expirator

variable {K V : Type}

/- A freshly constructed expirator. -/
def init : Expirator K V :=
  ⟨none, ∅, [], 0, false⟩

------------------------------------------------------------
-- The Expiry Queue
------------------------------------------------------------

/- `expiry_queue_.emplace(expiry, key)`: after every node due no later. -/
def emplace
    (q : List (QueueNode K))
    (n : QueueNode K) : List (QueueNode K) :=
  q.orderedInsert (fun a b => a.expiry < b.expiry) n

/- `expiry_queue_.erase(it)`. -/
def eraseNode
    (q : List (QueueNode K))
    (id : Nat) : List (QueueNode K) :=
  q.filter (·.id ≠ id)

theorem mem_emplace
    (q : List (QueueNode K))
    (n x : QueueNode K) :
    x ∈ emplace q n ↔ x = n ∨ x ∈ q := by
  rw [emplace, (List.perm_orderedInsert _ n q).mem_iff, List.mem_cons]

theorem mem_eraseNode
    (q : List (QueueNode K))
    (id : Nat)
    (x : QueueNode K) :
    x ∈ eraseNode q id ↔ x ∈ q ∧ x.id ≠ id := by
  simp [eraseNode]

/- The queue stays ordered by expiry. -/
theorem emplace_sorted
    (q : List (QueueNode K))
    (n : QueueNode K)
    (hSorted : q.Sorted (fun a b => a.expiry ≤ b.expiry)) :
    (emplace q n).Sorted (fun a b => a.expiry ≤ b.expiry) := by
  induction q with
  | nil => simp [emplace]
  | cons m q ih =>
      have hM := List.sorted_cons.mp hSorted
      by_cases hLt : n.expiry < m.expiry
      · simp only [emplace, List.orderedInsert, hLt, if_true]
        refine List.sorted_cons.mpr ⟨fun b hB => ?_, hSorted⟩
        rcases List.mem_cons.mp hB with rfl | hB
        · exact le_of_lt hLt
        · exact le_trans (le_of_lt hLt) (hM.1 b hB)
      · simp only [emplace, List.orderedInsert, hLt, if_false]
        refine List.sorted_cons.mpr ⟨fun b hB => ?_, ih hM.2⟩
        rcases (mem_emplace q n b).mp hB with rfl | hB
        · exact le_of_not_lt hLt
        · exact hM.1 b hB

------------------------------------------------------------
-- Timer
------------------------------------------------------------

/- `timer_.cancel(ec)`. -/
def cancel (s : Expirator K V) : Expirator K V :=
  { s with timer := none }

/- `schedule_next`: arm the timer at the first node's expiry. -/
def scheduleNext (s : Expirator K V) : Expirator K V :=
  match s.expiryQueue with
  | [] => { s with running := false }
  | n :: _ => { s with timer := some n.expiry }

/- `start`. -/
def start (s : Expirator K V) : Expirator K V :=
  if !s.running && !s.expiryQueue.isEmpty then
    scheduleNext { s with running := true }
  else s

/- `stop`. -/
def stop (s : Expirator K V) : Expirator K V :=
  if s.running then cancel { s with running := false } else s

/-
  Re-arm after placing node `id`: when it is the first node of a
  running expirator, cancel and schedule again.
-/
def rearmIfFirst
    (s : Expirator K V)
    (id : Nat) : Expirator K V :=
  if s.running ∧ (s.expiryQueue.head?.map (·.id)) = some id then
    scheduleNext (cancel s)
  else s

------------------------------------------------------------
-- Operations
------------------------------------------------------------

variable [DecidableEq K]

/- `add`, with the clock at `now`. -/
def add
    (s : Expirator K V)
    (now : Int)
    (key : K)
    (ttl : Int)
    (info : V) : Bool × Expirator K V :=
  if key ∈ s.entries then (false, s)
  else
    let expiry := now + ttl
    let s1 := { s with
      expiryQueue := emplace s.expiryQueue ⟨s.nextNode, expiry, key⟩
      nextNode := s.nextNode + 1
      entries := s.entries.insert key ⟨expiry, info, s.nextNode⟩ }
    (true,
      if s1.running ∧ (s1.expiryQueue.head?.map (·.id)) = some s.nextNode then
        scheduleNext (cancel s1)
      else if !s1.running then start s1
      else s1)

/-
  Move a present key's node to the expiry `newExpiry` computes
  from the old one; `update_expiry` and `refresh` differ only in
  that function.
-/
def requeue
    (s : Expirator K V)
    (key : K)
    (newExpiry : Int → Int) : Bool × Expirator K V :=
  match s.entries.find key with
  | none => (false, s)
  | some e =>
      let expiry := newExpiry e.expiry
      let s1 := { s with
        expiryQueue :=
          emplace (eraseNode s.expiryQueue e.queueIter) ⟨s.nextNode, expiry, key⟩
        nextNode := s.nextNode + 1
        entries := s.entries.insert key
          { e with expiry := expiry, queueIter := s.nextNode } }
      (true, rearmIfFirst s1 s.nextNode)

/- `update_expiry`, with the clock at `now`. -/
def updateExpiry
    (s : Expirator K V)
    (now : Int)
    (key : K)
    (ttl : Int) : Bool × Expirator K V :=
  s.requeue key fun _ => now + ttl

/- `refresh`: extend the current expiry. -/
def refresh
    (s : Expirator K V)
    (key : K)
    (extension : Int) : Bool × Expirator K V :=
  s.requeue key fun old => old + extension

/- `remove`. -/
def remove
    (s : Expirator K V)
    (key : K) : Bool × Expirator K V :=
  match s.entries.find key with
  | none => (false, s)
  | some e =>
      (true, { s with
        expiryQueue := eraseNode s.expiryQueue e.queueIter
        entries := s.entries.erase key })

/- `clear`. -/
def clear (s : Expirator K V) : Expirator K V :=
  let s1 := { s with entries := ∅, expiryQueue := [] }
  if s1.running then { cancel s1 with running := false } else s1

/- `expire_all`: hand every entry over in the map's order, then `clear`. -/
def expireAll (s : Expirator K V) : List (K × V) × Expirator K V :=
  (s.entries.entries.map (fun x => (x.1, x.2.info)), s.clear)

/-
  The second loop of `process_expired`: each collected key still
  present is dropped from the queue and the map, then handed over.
-/
def processKeys : List K → Expirator K V → List (K × V) × Expirator K V
  | [], s => ([], s)
  | key :: keys, s =>
      match s.entries.find key with
      | some e =>
          let r := processKeys keys { s with
            expiryQueue := eraseNode s.expiryQueue e.queueIter
            entries := s.entries.erase key }
          ((key, e.info) :: r.1, r.2)
      | none => processKeys keys s

/-
  `process_expired` with the clock at `now`: collect the keys of
  the queue's due prefix, then process them.
-/
def processExpired
    (s : Expirator K V)
    (now : Int) : List (K × V) × Expirator K V :=
  processKeys ((s.expiryQueue.takeWhile (·.expiry ≤ now)).map (·.key)) s

/- The completion of the timer wait, with the clock at `now`. -/
def onTimer
    (s : Expirator K V)
    (now : Int) : List (K × V) × Expirator K V :=
  let s1 := { s with timer := none }
  if s1.running then
    let r := processExpired s1 now
    (r.1, if r.2.running then scheduleNext r.2 else r.2)
  else ([], s1)

/-
  The reactor's side of the timer at clock `now`: the pending
  wait completes once its deadline has passed.
-/
def deliver
    (s : Expirator K V)
    (now : Int) : List (K × V) × Expirator K V :=
  match s.timer with
  | some t => if t ≤ now then s.onTimer now else ([], s)
  | none => ([], s)

------------------------------------------------------------
-- Runs
------------------------------------------------------------

/- The calls of `io::expirator` that change its entries. -/
inductive Op (K V : Type) where
  | add (key : K) (ttl : Int) (info : V)
  | remove (key : K)
  | updateExpiry (key : K) (ttl : Int)
  | refresh (key : K) (extension : Int)
  | clear
  | expireAll
  | processExpired

/- The store action a call makes at clock reading `now`. -/
def Op.action (now : Int) : Op K V → Action K V
  | .add key ttl info => .add key (now + ttl) info
  | .remove key => .remove key
  | .updateExpiry key ttl => .reschedule key fun _ => now + ttl
  | .refresh key extension => .reschedule key fun e => e.deadline + extension
  | .clear => .clear
  | .expireAll => .expireAll
  | .processExpired => .expire now

/- One call at clock reading `now`, and its answer. -/
def step
    (s : Expirator K V)
    (now : Int) : Op K V → Output K V × Expirator K V
  | .add key ttl info =>
      let r := s.add now key ttl info
      (.ack r.1, r.2)
  | .remove key =>
      let r := s.remove key
      (.ack r.1, r.2)
  | .updateExpiry key ttl =>
      let r := s.updateExpiry now key ttl
      (.ack r.1, r.2)
  | .refresh key extension =>
      let r := s.refresh key extension
      (.ack r.1, r.2)
  | .clear => (.done, s.clear)
  | .expireAll =>
      let r := s.expireAll
      (.fired r.1, r.2)
  | .processExpired =>
      let r := s.processExpired now
      (.fired r.1, r.2)

/- A sequence of timed calls from `s`, and their answers. -/
def run
    (s : Expirator K V) :
    List (Int × Op K V) → List (Output K V) × Expirator K V
  | [] => ([], s)
  | (now, op) :: ops =>
      let r := s.step now op
      let rest := run r.2 ops
      (r.1 :: rest.1, rest.2)

------------------------------------------------------------
-- Queries
------------------------------------------------------------

/- `contains`. -/
def contains
    (s : Expirator K V)
    (key : K) : Bool :=
  decide (key ∈ s.entries)

/- `size`. -/
def size (s : Expirator K V) : Nat :=
  s.entries.entries.length

/- `get_info`. -/
def getInfo
    (s : Expirator K V)
    (key : K) : Option V :=
  (s.entries.find key).map (·.info)

/- `get_remaining_time`, with the clock at `now`. -/
def getRemainingTime
    (s : Expirator K V)
    (now : Int)
    (key : K) : Option Int :=
  (s.entries.find key).map fun e =>
    if e.expiry - now > 0 then e.expiry - now else 0

end Expirator

end Io

end Networking

end Vex
