import Vex.Expirator.Store

/-
  The lock-free expirator (`lockfree_expirator.hpp`), as seen by
  one thread at a time: a ring of 4096 operation records with a
  write and a read index, and the consumer's private map and
  multimap, drained by `process_operations` inside
  `schedule_next`.

  The ring is a function of the slot; an unwritten slot holds
  the default record, whose type is `STOP`.  The multimap is the
  list of its `(expiry, key)` nodes in iteration order.  Clock
  readings are integers.

  Key definitions include:
    * `Operation`, `LockfreeExpirator`
    * `applyOperation`, `processOperations`
    * `processExpired`, `scheduleNext`, `onTimer`
    * `add`, `remove`, `clear`, `start`, `stop`
    * `published`
-/

------------------------------------------------------------
-- State
------------------------------------------------------------

namespace Vex

namespace Expirator

/- `operation::op_type`. -/
inductive OpType where
  | add
  | remove
  | stop
  deriving DecidableEq, Repr

/- `lockfree_expirator::operation`. -/
structure Operation (K V : Type) where
  type : OpType
  key : K
  info : V
  expiry : Int
  deriving DecidableEq, Repr

/- `lockfree_expirator::entry_data`. -/
structure LockfreeExpirator.EntryData (V : Type) where
  expiry : Int
  info : V
  deriving DecidableEq, Repr

/- The fields of `lockfree_expirator` that its operations read. -/
structure LockfreeExpirator (K V : Type) where
  opQueue : Nat → Option (Operation K V)
  writeIndex : Nat
  readIndex : Nat
  timer : Option Int
  entries : HashMap K (LockfreeExpirator.EntryData V)
  expiryQueue : List (Int × K)
  running : Bool

namespace LockfreeExpirator

/- `QUEUE_SIZE`. -/
def queueSize : Nat := 4096

variable {K V : Type}

/- A freshly constructed expirator. -/
def init : LockfreeExpirator K V :=
  ⟨fun _ => none, 0, 0, none, ∅, [], false⟩

/- `expiry_queue_.emplace(expiry, key)`: after every node due no later. -/
def emplace
    (q : List (Int × K))
    (node : Int × K) : List (Int × K) :=
  q.orderedInsert (fun a b => a.1 < b.1) node

/-
  The records published and not yet consumed: slots
  `read_index_` up to `write_index_`, round the ring.
-/
def published (s : LockfreeExpirator K V) : List (Option (Operation K V)) :=
  (List.range ((s.writeIndex + queueSize - s.readIndex) % queueSize)).map
    fun j => s.opQueue ((s.readIndex + j) % queueSize)

------------------------------------------------------------
-- The Consumer
------------------------------------------------------------

variable [DecidableEq K]

/- One iteration of `process_operations`: apply the record `op`. -/
def applyOperation
    (s : LockfreeExpirator K V) :
    Option (Operation K V) → LockfreeExpirator K V
  | some ⟨.add, key, info, expiry⟩ =>
      if key ∈ s.entries then s
      else { s with
        entries := s.entries.insert key ⟨expiry, info⟩
        expiryQueue := emplace s.expiryQueue (expiry, key) }
  | some ⟨.remove, key, _, _⟩ =>
      match s.entries.find key with
      | some e => { s with
          expiryQueue := s.expiryQueue.eraseP fun n => n.1 = e.expiry ∧ n.2 = key
          entries := s.entries.erase key }
      | none => s
  | _ => s

/- The loop of `process_operations`, from slot `currentRead`, `n` times. -/
def processOperationsLoop :
    Nat → Nat → LockfreeExpirator K V → Nat × LockfreeExpirator K V
  | 0, currentRead, s => (currentRead, s)
  | n + 1, currentRead, s =>
      processOperationsLoop n ((currentRead + 1) % queueSize)
        (s.applyOperation (s.opQueue currentRead))

/-
  `process_operations`: apply every published record in ring
  order, then store the read index.
-/
def processOperations (s : LockfreeExpirator K V) : LockfreeExpirator K V :=
  let r := processOperationsLoop
    ((s.writeIndex + queueSize - s.readIndex) % queueSize) s.readIndex s
  { r.2 with readIndex := r.1 }

/-
  The loop of `process_expired` over the multimap: pop each due
  node and hand its entry over, if the key is still present.
-/
def processExpiredLoop
    (now : Int) :
    List (Int × K) → HashMap K (EntryData V) →
      List (K × V) × List (Int × K) × HashMap K (EntryData V)
  | [], m => ([], [], m)
  | (t, key) :: rest, m =>
      if t ≤ now then
        match m.find key with
        | some e =>
            let r := processExpiredLoop now rest (m.erase key)
            ((key, e.info) :: r.1, r.2)
        | none => processExpiredLoop now rest m
      else ([], (t, key) :: rest, m)

/- `process_expired`, with the clock at `now`. -/
def processExpired
    (s : LockfreeExpirator K V)
    (now : Int) : List (K × V) × LockfreeExpirator K V :=
  let r := processExpiredLoop now s.expiryQueue s.entries
  (r.1, { s with expiryQueue := r.2.1, entries := r.2.2 })

/-
  `schedule_next`: drain the ring, then arm the timer at the
  first node's expiry, or stop when there is none.
-/
def scheduleNext (s : LockfreeExpirator K V) : LockfreeExpirator K V :=
  let s1 := s.processOperations
  match s1.expiryQueue with
  | [] => { s1 with running := false }
  | n :: _ => { s1 with timer := some n.1 }

/- `start`: the exchange from not running to running. -/
def start (s : LockfreeExpirator K V) : LockfreeExpirator K V :=
  if !s.running then scheduleNext { s with running := true } else s

/- `stop`: the exchange from running to not running. -/
def stop (s : LockfreeExpirator K V) : LockfreeExpirator K V :=
  if s.running then { s with running := false, timer := none } else s

/- The completion of the timer wait, with the clock at `now`. -/
def onTimer
    (s : LockfreeExpirator K V)
    (now : Int) : List (K × V) × LockfreeExpirator K V :=
  let s1 := { s with timer := none }
  if s1.running then
    let r := s1.processExpired now
    (r.1, scheduleNext r.2)
  else ([], s1)

------------------------------------------------------------
-- The Producer
------------------------------------------------------------

/-
  Publish `op` in slot `write_index_`, unless the ring is full;
  `add` and `remove` differ in the record.
-/
def publish
    (s : LockfreeExpirator K V)
    (op : Operation K V) : Bool × LockfreeExpirator K V :=
  let currentWrite := s.writeIndex
  let nextWrite := (currentWrite + 1) % queueSize
  if nextWrite = s.readIndex then (false, s)
  else
    (true, { s with
      opQueue := fun i => if i = currentWrite then some op else s.opQueue i
      writeIndex := nextWrite })

/- `add`, with the clock at `now`: publish, then start if stopped. -/
def add
    (s : LockfreeExpirator K V)
    (now : Int)
    (key : K)
    (ttl : Int)
    (info : V) : Bool × LockfreeExpirator K V :=
  let r := s.publish ⟨.add, key, info, now + ttl⟩
  if r.1 then (true, if !r.2.running then r.2.start else r.2) else r

/- `remove`: publish a record with a default payload and time. -/
def remove
    [Inhabited V]
    (s : LockfreeExpirator K V)
    (key : K) : Bool × LockfreeExpirator K V :=
  s.publish ⟨.remove, key, default, 0⟩

/- `clear`. -/
def clear (s : LockfreeExpirator K V) : LockfreeExpirator K V :=
  let s1 := { s with entries := ∅, expiryQueue := [] }
  if s1.running then s1.stop else s1

/- `contains`. -/
def contains
    (s : LockfreeExpirator K V)
    (key : K) : Bool :=
  decide (key ∈ s.entries)

end LockfreeExpirator

end Expirator

end Vex
