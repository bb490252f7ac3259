import Vex.Expirator.Lockfree.Basic

/-
  Producers and the consumer of `lockfree_expirator` as threads
  whose atomic steps interleave.  A producer's call of `add` or
  `remove` is four steps: load `write_index_`, load `read_index_`
  and compare, write the slot, store `write_index_`.  A run of
  `process_operations` is a load of both indices, one step per
  record applied, and the store of `read_index_`.

  Each producer runs a program of records to publish and keeps
  the answers of its calls; the consumer keeps the records it
  applied, in order.

  Key definitions include:
    * `ProducerPc`, `Producer`, `ConsumerPc`, `System`
    * `Label`, `System.step`, `System.runTrace`
    * `System.Quiescent`
-/

------------------------------------------------------------
-- Threads
------------------------------------------------------------

namespace Vex

namespace Expirator

namespace LockfreeExpirator

/- Where a producer is inside its current call. -/
inductive ProducerPc where
  | idle
  | loaded (currentWrite : Nat)
  | checked (currentWrite : Nat)
  | written (currentWrite : Nat)
  deriving DecidableEq, Repr

/- A producer thread: the records still to publish and the calls made. -/
structure Producer (K V : Type) where
  program : List (Operation K V)
  pc : ProducerPc
  answered : List (Operation K V × Bool)
  deriving DecidableEq, Repr

/- Where the consumer is inside `process_operations`. -/
inductive ConsumerPc where
  | idle
  | draining (currentRead currentWrite : Nat)
  deriving DecidableEq, Repr

/- The shared expirator, every producer, and the consumer. -/
structure System (K V : Type) where
  shared : LockfreeExpirator K V
  producers : List (Producer K V)
  consumer : ConsumerPc
  applied : List (Option (Operation K V))

/- An atomic step: of producer `i`, or of the consumer. -/
inductive Label where
  | producer (i : Nat)
  | consumer
  deriving DecidableEq, Repr

namespace System

variable {K V : Type} [DecidableEq K]

/- Producers with the given programs, before any step. -/
def init (programs : List (List (Operation K V))) : System K V :=
  ⟨LockfreeExpirator.init, programs.map fun p => ⟨p, .idle, []⟩, .idle, []⟩

/- One atomic step of producer `p`, on the shared state `e`. -/
def producerStep
    (e : LockfreeExpirator K V)
    (p : Producer K V) : Option (LockfreeExpirator K V × Producer K V) :=
  match p.program, p.pc with
  | [], _ => none
  | _ :: _, .idle => some (e, { p with pc := .loaded e.writeIndex })
  | op :: rest, .loaded currentWrite =>
      if (currentWrite + 1) % queueSize = e.readIndex then
        some (e, ⟨rest, .idle, p.answered ++ [(op, false)]⟩)
      else some (e, { p with pc := .checked currentWrite })
  | op :: _, .checked currentWrite =>
      some ({ e with
          opQueue := fun i => if i = currentWrite then some op else e.opQueue i },
        { p with pc := .written currentWrite })
  | op :: rest, .written currentWrite =>
      some ({ e with writeIndex := (currentWrite + 1) % queueSize },
        ⟨rest, .idle, p.answered ++ [(op, true)]⟩)

/- One atomic step of the system, if the thread can take one. -/
def step (s : System K V) : Label → Option (System K V)
  | .producer i =>
      match s.producers[i]? with
      | none => none
      | some p =>
          (producerStep s.shared p).map fun r =>
            { s with shared := r.1, producers := s.producers.set i r.2 }
  | .consumer =>
      match s.consumer with
      | .idle =>
          some { s with
            consumer := .draining s.shared.readIndex s.shared.writeIndex }
      | .draining currentRead currentWrite =>
          if currentRead = currentWrite then
            some { s with
              shared := { s.shared with readIndex := currentRead }
              consumer := .idle }
          else
            let op := s.shared.opQueue currentRead
            some { s with
              shared := s.shared.applyOperation op
              consumer := .draining ((currentRead + 1) % queueSize) currentWrite
              applied := s.applied ++ [op] }

/- The steps of a trace, one after another. -/
def runTrace (s : System K V) : List Label → Option (System K V)
  | [] => some s
  | l :: ls => (s.step l).bind fun s' => runTrace s' ls

/- Every program has run to its end, and the consumer is idle with an empty ring. -/
def Quiescent (s : System K V) : Prop :=
  (∀ p ∈ s.producers, p.program = []) ∧ s.consumer = .idle ∧
    s.shared.readIndex = s.shared.writeIndex

instance [DecidableEq V] (s : System K V) : Decidable s.Quiescent :=
  inferInstanceAs (Decidable (_ ∧ _ ∧ _))

/-
  Two producers load the same `write_index_`, write the same
  slot and store the same next index.  Both calls answer true;
  the consumer then applies only the second record.
-/
theorem racing_producers_lose_a_record :
    ∃ s : System Nat Unit,
      runTrace (init [[⟨.add, 1, (), 10⟩], [⟨.add, 2, (), 20⟩]])
          [.producer 0, .producer 1, .producer 0, .producer 1,
            .producer 0, .producer 1, .producer 0, .producer 1,
            .consumer, .consumer, .consumer] = some s ∧
        Quiescent s ∧
        s.producers.map (·.answered) =
          [[(⟨.add, 1, (), 10⟩, true)], [(⟨.add, 2, (), 20⟩, true)]] ∧
        s.applied = [some ⟨.add, 2, (), 20⟩] := by
  exact ⟨_, rfl, by decide, rfl, rfl⟩

end System

end LockfreeExpirator

end Expirator

end Vex
