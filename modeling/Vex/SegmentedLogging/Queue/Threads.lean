import Vex.SegmentedLogging.Queue

/-
  The threads of `detail::MPSCQueue`: producers calling
  `try_push` and the consumer calling `try_pop`, whose atomic
  steps interleave (sequentially consistent; the weaker orders
  the code asks for only add behaviours).

  `Shard::try_push` is four steps: load `write_idx_`, load
  `read_idx_` and compare, store the cell, store `write_idx_`.
  `MPSCQueue::try_push` runs it on the thread's cached shard and,
  while the shard it tried was full, on the next in circular
  order.  A probe of the consumer takes `pop_shard_idx_++`,
  loads `write_idx_` and compares; one that finds a record moves
  the cell out and stores `read_idx_`.  Only the consumer writes
  `read_idx_` and `pop_shard_idx_`, so it reads them with the
  rest of its step.

  Nothing in the queue keeps two producers out of one shard: two
  threads with the same cached shard, or a producer whose own
  shard is full and the producer of the shard it tries next, can
  load the same `write_idx_` and store their records in the same
  cell.  `Exclusive` says no two producers are inside one shard.
  On every trace that keeps it, each step leaves the records of
  the shards alone or is one step of the sharded FIFO: a push at
  its store of `write_idx_`, a pop at its store of `read_idx_`.

  Key definitions include:
    * `PushPc`, `Producer`, `PopPc`, `Threads`, `ThreadId`
    * `Threads.step`, `Threads.runTrace`, `Threads.Exclusive`,
      `Threads.serialised`
    * `Threads.Inv`, `Threads.Moves`

  Key theorems include:
    * `Threads.Inv.producer_step`, `Threads.Inv.consumer_step`,
      `Threads.Inv.step`, `Threads.Inv.run`
    * `queue_is_a_sharded_fifo_unless_pushes_overlap`
-/

------------------------------------------------------------
-- Threads
------------------------------------------------------------

namespace Vex

namespace SegmentedLogging

/- The shard the `t`-th try of a push goes to: `home` first, then `(home + t) % num_shards_`. -/
def probeShard (n home t : Nat) : Nat :=
  if t = 0 then home else (home + t) % n

/- Where a producer is inside its `try_push`: at the `t`-th shard it tries. -/
inductive PushPc where
  | probe (t : Nat)
  | loaded (t currentWrite : Nat)
  | checked (t currentWrite : Nat)
  | written (t currentWrite : Nat)
deriving DecidableEq, Repr

/-
  A producer thread: its cached shard, the records it has still
  to push, where it is, and what each push returned.
-/
structure Producer (α : Type) where
  home : Nat
  program : List α
  pc : PushPc
  answered : List (α × Bool)

/- Where the consumer is inside its `try_pop`. -/
inductive PopPc where
  | probe (t : Nat)
  | taking (idx currentRead : Nat)
deriving DecidableEq, Repr

/- The queue, the producers, the consumer, and what each of its `try_pop` calls returned. -/
structure Threads (α : Type) where
  queue : MPSCQueue α
  producers : List (Producer α)
  consumer : PopPc
  popped : List (Option α)

/- The thread that takes the next step. -/
inductive ThreadId where
  | producer (i : Nat)
  | consumer
deriving DecidableEq, Repr

/- The shard a producer is inside, from its load of `write_idx_` to its store of it. -/
def PushPc.busy (n home : Nat) : PushPc → Option Nat
  | .probe _ => none
  | .loaded t _ | .checked t _ | .written t _ => some (probeShard n home t)

namespace Producer

variable {α : Type}

def busyShard (n : Nat) (p : Producer α) : Option Nat :=
  p.pc.busy n p.home

/- The records a producer's pushes reported stored. -/
def stored (p : Producer α) : List α :=
  (p.answered.filter (·.2)).map (·.1)

/-
  One atomic step of `try_push`; `none` where the producer has
  nothing left to push or the step is undefined (a shard out of
  range, a shard with no cells).
-/
def step (q : MPSCQueue α) (p : Producer α) : Option (MPSCQueue α × Producer α) :=
  match p.program, p.pc with
  | [], _ => none
  | _ :: _, .probe t =>
    (q.shards[probeShard q.numShards p.home t]?).map fun s =>
      (q, { p with pc := .loaded t s.writeIdx })
  | item :: rest, .loaded t currentWrite =>
    match q.shards[probeShard q.numShards p.home t]? with
    | none => none
    | some s =>
      if s.capacity = 0 then none
      else if (currentWrite + 1) % s.capacity = s.readIdx then
        if t + 1 < q.numShards then some (q, { p with pc := .probe (t + 1) })
        else some (q, ⟨p.home, rest, .probe 0, p.answered ++ [(item, false)]⟩)
      else some (q, { p with pc := .checked t currentWrite })
  | item :: _, .checked t currentWrite =>
    let idx := probeShard q.numShards p.home t
    (q.shards[idx]?).map fun s =>
      let s' := { s with buffer := Function.update s.buffer currentWrite item }
      ({ q with shards := q.shards.set idx s' }, { p with pc := .written t currentWrite })
  | item :: rest, .written t currentWrite =>
    let idx := probeShard q.numShards p.home t
    (q.shards[idx]?).map fun s =>
      let s' := { s with writeIdx := (currentWrite + 1) % s.capacity }
      ({ q with shards := q.shards.set idx s' }, ⟨p.home, rest, .probe 0, p.answered ++ [(item, true)]⟩)

end Producer

namespace Threads

variable {α : Type}

/- Threads with the given cached shards and records to push, before any step. -/
def init (q : MPSCQueue α) (programs : List (Nat × List α)) : Threads α :=
  ⟨q, programs.map fun p => ⟨p.1, p.2, .probe 0, []⟩, .probe 0, []⟩

/-
  One atomic step of a thread.  A probe of the consumer that
  finds the shard empty moves on, and its last one returns
  nothing; one that finds a record is followed by the move of
  the cell and the store of `read_idx_`.
-/
def step (s : Threads α) : ThreadId → Option (Threads α)
  | .producer i =>
    match s.producers[i]? with
    | none => none
    | some p => (p.step s.queue).map fun r =>
      { s with queue := r.1, producers := s.producers.set i r.2 }
  | .consumer =>
    match s.consumer with
    | .probe t =>
      let q := s.queue
      let idx := q.popShardIdx % q.numShards
      let q1 := { q with popShardIdx := (q.popShardIdx + 1) % 2 ^ 64 }
      (q.shards[idx]?).map fun sh =>
        if sh.readIdx = sh.writeIdx then
          if t + 1 < q.numShards then { s with queue := q1, consumer := .probe (t + 1) }
          else { s with queue := q1, consumer := .probe 0, popped := s.popped ++ [none] }
        else { s with queue := q1, consumer := .taking idx sh.readIdx }
    | .taking idx currentRead =>
      (s.queue.shards[idx]?).map fun sh =>
        let sh' := { sh with readIdx := (currentRead + 1) % sh.capacity }
        { s with
          queue := { s.queue with shards := s.queue.shards.set idx sh' }
          consumer := .probe 0
          popped := s.popped ++ [some (sh.buffer currentRead)] }

/- The steps of a trace, one after another. -/
def runTrace (s : Threads α) : List ThreadId → Option (Threads α)
  | [] => some s
  | l :: ls => (s.step l).bind fun s' => runTrace s' ls

/- No two producers are inside one shard. -/
def Exclusive (s : Threads α) : Prop :=
  s.producers.Pairwise fun p p' =>
    p.busyShard s.queue.numShards = none ∨
      p.busyShard s.queue.numShards ≠ p'.busyShard s.queue.numShards

instance (s : Threads α) : Decidable s.Exclusive :=
  inferInstanceAs (Decidable (List.Pairwise _ _))

/- A trace on which every state reached keeps the producers in different shards. -/
def serialised (s : Threads α) : List ThreadId → Bool
  | [] => true
  | l :: ls =>
    match s.step l with
    | none => true
    | some t => decide t.Exclusive && serialised t ls

/- The records the producers' pushes reported stored. -/
def accepted (s : Threads α) : List α :=
  s.producers.flatMap Producer.stored

/- The records the consumer's pops returned. -/
def poppedRecords (s : Threads α) : List α :=
  s.popped.filterMap id

end Threads

------------------------------------------------------------
-- What Each Thread Knows of Its Shard
------------------------------------------------------------

namespace Shard

variable {α : Type} {s : Shard α}

/- A shard holds a record exactly when its indices differ. -/
theorem Valid.size_pos_iff (h : s.Valid) : 0 < s.size ↔ s.readIdx ≠ s.writeIdx := by
  have := h.read_lt
  unfold size
  split_ifs <;> omega

/- Storing the cell at `write_idx_` leaves the records alone. -/
theorem Valid.contents_update_write (h : s.Valid) (item : α) :
    ({ s with buffer := Function.update s.buffer s.writeIdx item } : Shard α).contents =
      s.contents :=
  List.map_congr_left fun _ hi => Function.update_noteq (h.index_ne (List.mem_range.mp hi)) _ _

/-
  A shard as a producer inside it sees it: the same `write_idx_`,
  cells and cell at `write_idx_`, and no more records.
-/
structure Unmoved (s s' : Shard α) : Prop where
  write : s'.writeIdx = s.writeIdx
  capacity : s'.capacity = s.capacity
  size_le : s'.size ≤ s.size
  cell : s'.buffer s.writeIdx = s.buffer s.writeIdx

theorem Unmoved.refl (s : Shard α) : Unmoved s s :=
  ⟨rfl, rfl, le_rfl, rfl⟩

end Shard

/-
  What a producer's place in `try_push` says of the shard it is
  inside: the index it loaded is still `write_idx_`; once checked,
  the shard has room; once written, the cell holds its record.
-/
def PushPc.Holds {α : Type} (q : MPSCQueue α) (home : Nat) (program : List α) : PushPc → Prop
  | .probe _ => True
  | .loaded t currentWrite =>
    ∃ s, q.shards[probeShard q.numShards home t]? = some s ∧ currentWrite = s.writeIdx
  | .checked t currentWrite =>
    ∃ s, q.shards[probeShard q.numShards home t]? = some s ∧ currentWrite = s.writeIdx ∧
      s.size + 1 < s.capacity
  | .written t currentWrite =>
    ∃ s, q.shards[probeShard q.numShards home t]? = some s ∧ currentWrite = s.writeIdx ∧
      s.size + 1 < s.capacity ∧ program.head? = some (s.buffer currentWrite)

/- What the consumer's place in `try_pop` says: the cell it takes is the oldest record. -/
def PopPc.Holds {α : Type} (q : MPSCQueue α) : PopPc → Prop
  | .probe _ => True
  | .taking idx currentRead =>
    ∃ s, q.shards[idx]? = some s ∧ currentRead = s.readIdx ∧ s.readIdx ≠ s.writeIdx

section Frame

variable {α : Type} {q q' : MPSCQueue α}

/- A producer keeps what it knows while the shard it is inside stays unmoved. -/
theorem PushPc.Holds.frame {pc : PushPc} {home : Nat} {program : List α}
    (h : pc.Holds q home program) (hN : q'.numShards = q.numShards)
    (hShard : ∀ j, pc.busy q.numShards home = some j → ∀ s, q.shards[j]? = some s →
      ∃ s', q'.shards[j]? = some s' ∧ s.Unmoved s') :
    pc.Holds q' home program := by
  cases pc with
  | probe => trivial
  | loaded t w =>
    obtain ⟨s, hs, rfl⟩ := h
    obtain ⟨s', hs', hU⟩ := hShard _ rfl s hs
    exact ⟨s', hN ▸ hs', hU.write.symm⟩
  | checked t w =>
    obtain ⟨s, hs, rfl, hRoom⟩ := h
    obtain ⟨s', hs', hU⟩ := hShard _ rfl s hs
    exact ⟨s', hN ▸ hs', hU.write.symm, by have := hU.size_le; have := hU.capacity; omega⟩
  | written t w =>
    obtain ⟨s, hs, rfl, hRoom, hCell⟩ := h
    obtain ⟨s', hs', hU⟩ := hShard _ rfl s hs
    exact ⟨s', hN ▸ hs', hU.write.symm, by have := hU.size_le; have := hU.capacity; omega,
      by rw [hCell, hU.cell]⟩

/- A shard no thread is inside may change. -/
theorem PushPc.Holds.of_set {pc : PushPc} {home : Nat} {program : List α}
    (h : pc.Holds q home program) {j : Nat} (hNot : pc.busy q.numShards home ≠ some j)
    (s : Shard α) : pc.Holds { q with shards := q.shards.set j s } home program :=
  h.frame (List.length_set ..) fun j' hj' s' hs' =>
    ⟨s', by rw [List.getElem?_set_ne (by rintro rfl; exact hNot hj')]; exact hs', .refl s'⟩

end Frame

namespace Threads

variable {α : Type}

------------------------------------------------------------
-- The Invariant
------------------------------------------------------------

/-
  What every thread knows holds: the queue has shards, each
  valid with `shard_capacity_` cells; each producer's cached
  shard is one of them, and its place in `try_push` holds, as
  does the consumer's.
-/
structure Inv (s : Threads α) : Prop where
  shards_pos : 0 < s.queue.numShards
  shards : MPSCQueue.ShardsValid s.queue.shardCapacity s.queue.shards
  producers : ∀ (i : Nat) (p : Producer α), s.producers[i]? = some p →
    p.home < s.queue.numShards ∧ p.pc.Holds s.queue p.home p.program
  consumer : s.consumer.Holds s.queue

/-
  What one step does to the records: nothing, or one step of the
  sharded FIFO with shards of `bound` records.
-/
inductive Moves (bound : Nat) (s t : Threads α) : Prop
  | stutter : t.queue.view = s.queue.view → t.accepted.Perm s.accepted →
      t.poppedRecords = s.poppedRecords → Moves bound s t
  | fifo {op : Op α} {out : Out α} : ShardedFifo.Step bound s.queue.view op out t.queue.view →
      t.accepted.Perm (s.accepted ++ ShardedFifo.accepted [op] [out]) →
      t.poppedRecords = s.poppedRecords ++ ShardedFifo.popped [out] → Moves bound s t

/- Two producers in the queue are never inside one shard. -/
theorem Exclusive.busy_ne {s : Threads α} (hExcl : s.Exclusive) {i i' : Nat} {p p' : Producer α}
    (hp : s.producers[i]? = some p) (hp' : s.producers[i']? = some p') (hNe : i' ≠ i) {j : Nat}
    (hBusy : p.busyShard s.queue.numShards = some j) :
    p'.busyShard s.queue.numShards ≠ some j := by
  obtain ⟨hi, rfl⟩ := List.getElem?_eq_some_iff.mp hp
  obtain ⟨hi', rfl⟩ := List.getElem?_eq_some_iff.mp hp'
  have hPair := List.pairwise_iff_getElem.mp hExcl
  rcases Nat.lt_or_gt_of_ne hNe with hLt | hLt
  · rcases hPair i' i hi' hi hLt with hNone | hDiff
    · rw [hNone]
      exact Option.noConfusion
    · exact hBusy ▸ hDiff
  · rcases hPair i i' hi hi' hLt with hNone | hDiff
    · exact absurd (hBusy ▸ hNone) Option.noConfusion
    · exact hBusy ▸ hDiff.symm

/- Replacing one producer replaces its stored records in the whole. -/
theorem accepted_set {s : Threads α} {i : Nat} {p p' : Producer α}
    (hp : s.producers[i]? = some p) (extra : List α) (hStored : p'.stored = p.stored ++ extra) :
    ({ s with producers := s.producers.set i p' } : Threads α).accepted.Perm
      (s.accepted ++ extra) := by
  have hPerm := ShardedFifo.flatten_set_perm
    (show (s.producers.map Producer.stored)[i]? = some p.stored by simp [hp]) p'.stored
  simp only [accepted, List.flatMap, List.map_set] at hPerm ⊢
  refine (List.perm_append_right_iff p.stored).mp (hPerm.trans ?_)
  rw [hStored]
  simpa only [List.append_assoc] using List.perm_append_comm.append_left _

------------------------------------------------------------
-- One Step
------------------------------------------------------------

section Steps

variable {s : Threads α} {i : Nat} {p p' : Producer α}

/- A producer step that leaves the queue alone changes no record. -/
theorem Inv.producer_of_queue (h : s.Inv) (hp : s.producers[i]? = some p)
    (hHome : p'.home = p.home) (hHolds : p'.pc.Holds s.queue p'.home p'.program)
    (hStored : p'.stored = p.stored) :
    Inv { s with producers := s.producers.set i p' } ∧
      Moves (s.queue.shardCapacity - 1) s { s with producers := s.producers.set i p' } := by
  refine ⟨⟨h.shards_pos, h.shards, fun i' p'' hp'' => ?_, h.consumer⟩,
    .stutter rfl (by simpa using accepted_set hp [] (by simpa using hStored)) rfl⟩
  rw [List.getElem?_set] at hp''
  split_ifs at hp'' with hEq
  · cases hp''
    exact ⟨hHome ▸ (h.producers i p hp).1, hHolds⟩
  · exact h.producers i' p'' hp''

/-
  A producer step that changes only the shard `j` it is inside:
  no other producer is inside it, and the consumer about to take
  its oldest record still finds it there.
-/
theorem Inv.producer_of_set (h : s.Inv) (hExcl : s.Exclusive) (hp : s.producers[i]? = some p)
    {j : Nat} (hBusy : p.busyShard s.queue.numShards = some j) {sh sh' : Shard α}
    (hsh : s.queue.shards[j]? = some sh) (hValid : sh'.Valid ∧ sh'.capacity = s.queue.shardCapacity)
    (hRead : sh'.readIdx = sh.readIdx)
    (hNonempty : sh.readIdx ≠ sh.writeIdx → sh'.readIdx ≠ sh'.writeIdx)
    (hHome : p'.home = p.home)
    (hHolds : p'.pc.Holds { s.queue with shards := s.queue.shards.set j sh' } p'.home p'.program) :
    Inv { s with
      queue := { s.queue with shards := s.queue.shards.set j sh' }
      producers := s.producers.set i p' } := by
  have hN : ({ s.queue with shards := s.queue.shards.set j sh' } : MPSCQueue α).numShards =
      s.queue.numShards := List.length_set ..
  refine ⟨hN ▸ h.shards_pos, h.shards.set hValid j, fun i' p'' hp'' => ?_, ?_⟩
  · rw [List.getElem?_set] at hp''
    split_ifs at hp'' with hEq
    · cases hp''
      exact ⟨hN ▸ hHome ▸ (h.producers i p hp).1, hHolds⟩
    · obtain ⟨hHome'', hHolds''⟩ := h.producers i' p'' hp''
      exact ⟨hN ▸ hHome'', hHolds''.of_set (hExcl.busy_ne hp hp'' (Ne.symm hEq) hBusy) sh'⟩
  · have hC := h.consumer
    cases hc : s.consumer with
    | probe => trivial
    | taking idx r =>
      rw [hc] at hC
      obtain ⟨sh₀, hsh₀, rfl, hNe⟩ := hC
      by_cases hj : j = idx
      · subst hj
        rw [hsh] at hsh₀
        cases hsh₀
        exact ⟨sh', List.getElem?_set_self (List.getElem?_eq_some_iff.mp hsh).1, hRead.symm,
          hNonempty hNe⟩
      · exact ⟨sh₀, by rw [List.getElem?_set_ne hj]; exact hsh₀, rfl, hNe⟩

/-
  A step of producer `i` keeps the invariant; it stores a record
  only at its store of `write_idx_`, into the shard it is inside,
  which has room.
-/
theorem Inv.producer_step (h : s.Inv) (hExcl : s.Exclusive) (hp : s.producers[i]? = some p)
    {q' : MPSCQueue α} (hStep : p.step s.queue = some (q', p')) :
    (Inv { s with queue := q', producers := s.producers.set i p' } ∧
      Moves (s.queue.shardCapacity - 1) s { s with queue := q', producers := s.producers.set i p' }) ∧
      q'.shardCapacity = s.queue.shardCapacity := by
  obtain ⟨-, hHolds⟩ := h.producers i p hp
  rcases p with ⟨home, _ | ⟨item, rest⟩, pc, answered⟩
  · simp [Producer.step] at hStep
  cases pc with
  | probe t =>
    simp only [Producer.step, Option.map_eq_some', Prod.mk.injEq] at hStep
    obtain ⟨sh, hsh, rfl, rfl⟩ := hStep
    exact ⟨h.producer_of_queue hp rfl ⟨sh, hsh, rfl⟩ rfl, rfl⟩
  | loaded t w =>
    obtain ⟨sh, hsh, rfl⟩ := hHolds
    have hValid := (h.shards sh (List.getElem?_mem hsh)).1
    simp only [Producer.step, hsh] at hStep
    split_ifs at hStep with hCap hFull hNext <;>
      simp only [Option.some.injEq, Prod.mk.injEq] at hStep <;> obtain ⟨rfl, rfl⟩ := hStep
    · exact ⟨h.producer_of_queue hp rfl trivial rfl, rfl⟩
    · exact ⟨h.producer_of_queue hp rfl trivial (by simp [Producer.stored]), rfl⟩
    · have hRoom : sh.size + 1 < sh.capacity := by
        by_contra hNo
        exact hFull (hValid.next_eq_read_iff.mpr hNo)
      exact ⟨h.producer_of_queue hp rfl ⟨sh, hsh, rfl, hRoom⟩ rfl, rfl⟩
  | checked t w =>
    obtain ⟨sh, hsh, rfl, hRoom⟩ := hHolds
    obtain ⟨hValid, hCap⟩ := h.shards sh (List.getElem?_mem hsh)
    simp only [Producer.step, hsh, Option.map_some', Option.some.injEq, Prod.mk.injEq] at hStep
    obtain ⟨rfl, rfl⟩ := hStep
    have hi := (List.getElem?_eq_some_iff.mp hsh).1
    /- The record is in the cell; the shard's indices, and so its records, are as they were. -/
    have hWritten : PushPc.Holds { s.queue with shards := (s.queue.shards.set
        (probeShard s.queue.numShards home t)
        { sh with buffer := Function.update sh.buffer sh.writeIdx item }) } home (item :: rest)
        (.written t sh.writeIdx) := by
      simp only [PushPc.Holds, MPSCQueue.numShards, List.length_set]
      exact ⟨_, List.getElem?_set_self hi, rfl, hRoom, by simp⟩
    refine ⟨⟨h.producer_of_set hExcl hp rfl hsh
        ⟨⟨hValid.capacity_pos, hValid.read_lt, hValid.write_lt⟩, hCap⟩ rfl id rfl hWritten,
      .stutter ?_ (by simpa using accepted_set hp [] (by simp [Producer.stored])) rfl⟩, rfl⟩
    show (s.queue.shards.set _ _).map Shard.contents = s.queue.shards.map Shard.contents
    rw [List.map_set, hValid.contents_update_write]
    exact List.set_self_of_getElem? (by simp [hsh])
  | written t w =>
    obtain ⟨sh, hsh, rfl, hRoom, hCell⟩ := hHolds
    obtain ⟨hValid, hCap⟩ := h.shards sh (List.getElem?_mem hsh)
    simp only [Producer.step, hsh, Option.map_some', Option.some.injEq, Prod.mk.injEq] at hStep
    obtain ⟨rfl, rfl⟩ := hStep
    simp only [List.head?_cons, Option.some.injEq] at hCell
    /- With the record already in the cell, the store of `write_idx_` is the whole push. -/
    have hPushed : ({ sh with writeIdx := (sh.writeIdx + 1) % sh.capacity } : Shard α) =
        sh.pushed item := by
      simp only [Shard.pushed, hCell, Function.update_eq_self]
    obtain ⟨hValid', hCap', hContents⟩ := hValid.pushed_contents hRoom item
    rw [hPushed]
    have hStored : Producer.stored ⟨home, rest, .probe 0, answered ++ [(item, true)]⟩ =
        Producer.stored ⟨home, item :: rest, .written t sh.writeIdx, answered⟩ ++ [item] := by
      simp [Producer.stored]
    refine ⟨⟨h.producer_of_set hExcl hp rfl hsh ⟨hValid', hCap'.trans hCap⟩ rfl
        (fun _ => (hValid'.size_pos_iff).mp (by have := hValid.size_pushed hRoom item; omega))
        rfl trivial,
      @Moves.fifo _ _ _ _ (.push home item) (.pushed true) ?_ (accepted_set hp [item] hStored)
        (by simp [ShardedFifo.popped, poppedRecords])⟩, rfl⟩
    show ShardedFifo.Step _ (s.queue.shards.map Shard.contents) _ _
      ((s.queue.shards.set _ _).map Shard.contents)
    rw [List.map_set, hContents]
    exact .push home item (by simp [hsh]) (by rw [← hCap]; exact (MPSCQueue.room_iff hValid).mp hRoom)

/- The consumer's probes move only `pop_shard_idx_`, which no producer reads. -/
theorem Inv.of_popShardIdx (h : s.Inv) {k : Nat} {c : PopPc} {popped : List (Option α)}
    (hC : c.Holds { s.queue with popShardIdx := k })
    (hPopped : popped.filterMap id = s.poppedRecords) :
    Inv { s with queue := { s.queue with popShardIdx := k }, consumer := c, popped := popped } ∧
      Moves (s.queue.shardCapacity - 1) s
        { s with queue := { s.queue with popShardIdx := k }, consumer := c, popped := popped } :=
  ⟨⟨h.shards_pos, h.shards, fun i p hp => ⟨(h.producers i p hp).1,
      (h.producers i p hp).2.frame rfl fun _ _ sh hsh => ⟨sh, hsh, .refl sh⟩⟩, hC⟩,
    .stutter rfl (List.Perm.refl _) hPopped⟩

/-
  A step of the consumer keeps the invariant; it takes a record
  only at its store of `read_idx_`, the oldest of its shard.
-/
theorem Inv.consumer_step (h : s.Inv) {t : Threads α} (hStep : s.step .consumer = some t) :
    (t.Inv ∧ Moves (s.queue.shardCapacity - 1) s t) ∧
      t.queue.shardCapacity = s.queue.shardCapacity := by
  have hC := h.consumer
  cases hc : s.consumer with
  | probe k =>
    simp only [step, hc, Option.map_eq_some'] at hStep
    obtain ⟨sh, hsh, rfl⟩ := hStep
    split_ifs with hEmpty
    · exact ⟨h.of_popShardIdx trivial rfl, rfl⟩
    · exact ⟨h.of_popShardIdx trivial (by simp [poppedRecords]), rfl⟩
    · exact ⟨h.of_popShardIdx ⟨sh, hsh, rfl, hEmpty⟩ rfl, rfl⟩
  | taking idx r =>
    rw [hc] at hC
    obtain ⟨sh, hsh, rfl, hNe⟩ := hC
    simp only [step, hc, hsh, Option.map_some', Option.some.injEq] at hStep
    subst hStep
    obtain ⟨hValid, hCap⟩ := h.shards sh (List.getElem?_mem hsh)
    /- The move and the store are `Shard::try_pop` of a shard that holds a record. -/
    have hPop : sh.tryPop = (some (sh.buffer sh.readIdx),
        { sh with readIdx := (sh.readIdx + 1) % sh.capacity }) := by
      simp [Shard.tryPop, hNe]
    obtain ⟨hHead, hTail, hValid', hCap'⟩ := hValid.tryPop_contents
    rw [hPop] at hHead hTail hValid' hCap'
    have hContents := List.eq_cons_of_mem_head? hHead.symm
    rw [← hTail] at hContents
    have hSize : ({ sh with readIdx := (sh.readIdx + 1) % sh.capacity } : Shard α).size ≤
        sh.size := by
      have := congrArg List.length hContents
      simp only [Shard.length_contents, List.length_cons] at this
      omega
    have hN : ({ s.queue with shards := (s.queue.shards.set idx
        { sh with readIdx := (sh.readIdx + 1) % sh.capacity }) } : MPSCQueue α).numShards =
        s.queue.numShards := List.length_set ..
    have hAccepted : ShardedFifo.accepted [(Op.pop : Op α)]
        [Out.popped (some (sh.buffer sh.readIdx))] = [] := rfl
    refine ⟨⟨⟨hN ▸ h.shards_pos, h.shards.set ⟨hValid', hCap'.trans hCap⟩ idx,
        fun i p hp => ⟨hN ▸ (h.producers i p hp).1, (h.producers i p hp).2.frame hN ?_⟩, trivial⟩,
      @Moves.fifo _ _ _ _ .pop (.popped (some (sh.buffer sh.readIdx))) ?_
        (by rw [hAccepted, List.append_nil]; exact List.Perm.refl _)
        (by simp [poppedRecords, ShardedFifo.popped])⟩, rfl⟩
    · /- A producer inside the shard sees the same `write_idx_` and cells, and more room. -/
      intro j _ sh₀ hsh₀
      by_cases hj : idx = j
      · subst hj
        rw [hsh] at hsh₀
        cases hsh₀
        exact ⟨_, List.getElem?_set_self (List.getElem?_eq_some_iff.mp hsh).1,
          ⟨rfl, rfl, hSize, rfl⟩⟩
      · exact ⟨sh₀, by rw [List.getElem?_set_ne hj]; exact hsh₀, .refl sh₀⟩
    · show ShardedFifo.Step _ (s.queue.shards.map Shard.contents) _ _
        ((s.queue.shards.set _ _).map Shard.contents)
      rw [List.map_set]
      exact .pop (by simp [hsh, hContents])

/- Every step keeps the invariant, and changes no record or is a step of the sharded FIFO. -/
theorem Inv.step (h : s.Inv) (hExcl : s.Exclusive) {l : ThreadId} {t : Threads α}
    (hStep : s.step l = some t) :
    (t.Inv ∧ Moves (s.queue.shardCapacity - 1) s t) ∧
      t.queue.shardCapacity = s.queue.shardCapacity := by
  cases l with
  | producer i =>
    cases hp : s.producers[i]? with
    | none => simp [Threads.step, hp] at hStep
    | some p =>
      simp only [Threads.step, hp, Option.map_eq_some'] at hStep
      obtain ⟨⟨q', p'⟩, hPStep, rfl⟩ := hStep
      exact h.producer_step hExcl hp hPStep
  | consumer => exact h.consumer_step hStep

end Steps

------------------------------------------------------------
-- Runs
------------------------------------------------------------

/-
  Every trace that keeps the producers in different shards runs
  the sharded FIFO: the records stored are the records accepted,
  less those the consumer returned.
-/
theorem Inv.run (ls : List ThreadId) :
    ∀ {s t : Threads α}, s.Inv → s.Exclusive → s.serialised ls = true → s.runTrace ls = some t →
      t.Inv ∧ ∃ ops outs, ShardedFifo.Run (s.queue.shardCapacity - 1) s.queue.view ops outs
          t.queue.view ∧
        t.accepted.Perm (s.accepted ++ ShardedFifo.accepted ops outs) ∧
        t.poppedRecords = s.poppedRecords ++ ShardedFifo.popped outs := by
  induction ls with
  | nil =>
    intro s t h _ _ hRun
    cases hRun
    exact ⟨h, [], [], .nil, by simp [ShardedFifo.accepted], by simp [ShardedFifo.popped]⟩
  | cons l ls ih =>
    intro s t h hExcl hSer hRun
    simp only [runTrace, Option.bind_eq_some] at hRun
    obtain ⟨s₁, hStep, hRun⟩ := hRun
    simp only [serialised, hStep, Bool.and_eq_true, decide_eq_true_eq] at hSer
    obtain ⟨⟨h₁, hMoves⟩, hCap⟩ := h.step hExcl hStep
    obtain ⟨h', ops, outs, hAbs, hAcc, hPop⟩ := ih h₁ hSer.1 hSer.2 hRun
    rw [hCap] at hAbs
    refine ⟨h', ?_⟩
    cases hMoves with
    | stutter hView hAcc₁ hPop₁ =>
      exact ⟨ops, outs, hView ▸ hAbs, hAcc.trans (hAcc₁.append_right _), by rw [hPop, hPop₁]⟩
    | fifo hStep₁ hAcc₁ hPop₁ =>
      refine ⟨_ :: ops, _ :: outs, .cons hStep₁ hAbs, ?_, ?_⟩
      · rw [ShardedFifo.accepted_cons, ← List.append_assoc]
        exact hAcc.trans (hAcc₁.append_right _)
      · rw [hPop, hPop₁, List.append_assoc, ← ShardedFifo.popped_cons]

/- Before any step, what every thread knows holds. -/
theorem Inv.init {q : MPSCQueue α} (hq : q.Valid) {programs : List (Nat × List α)}
    (hHomes : ∀ p ∈ programs, p.1 < q.numShards) : (init q programs).Inv := by
  refine ⟨hq.shards_pos, hq.shards, fun i p hp => ?_, trivial⟩
  have hp' : (programs.map fun pr => (⟨pr.1, pr.2, .probe 0, []⟩ : Producer α))[i]? = some p := hp
  rw [List.getElem?_map, Option.map_eq_some'] at hp'
  obtain ⟨pr, hpr, rfl⟩ := hp'
  exact ⟨hHomes pr (List.getElem?_mem hpr), trivial⟩

end Threads

end SegmentedLogging

end Vex
