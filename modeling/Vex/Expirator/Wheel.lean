import Vex.Expirator.Store

/-
  The timing wheel expirator (`timing_wheel_expirator.hpp`):
  four wheels of 256, 64, 64 and 64 slots, each slot a list of
  entry nodes, and a hash map from each key to the wheel and
  slot its node sits in.  A tick of one millisecond processes
  one slot of the first wheel and, at multiples of 256, cascades
  a slot of each coarser wheel back into the finer ones.

  Clock readings and durations are whole milliseconds, so the
  `duration_cast` of `insert_entry` is the identity; the tick
  counter is a `Nat`.  The wheels are one function of the level
  and the slot index.

  Key definitions include:
    * `EntryNode`, `TimingWheel`
    * `insertEntry`, `processSlot`, `cascadeWheel`, `processTick`
    * `add`, `remove`, `clear`, `start`, `stop`, `onTimer`

  Key theorems include:
    * `processSlotLoop_spec`
    * `processTick_idle`, `runTicks_idle`
    * `ttl_zero_waits_a_revolution`
-/

------------------------------------------------------------
-- State
------------------------------------------------------------

namespace Vex

namespace Expirator

/- `timing_wheel_expirator::entry_node`. -/
structure EntryNode (K V : Type) where
  key : K
  info : V
  expiry : Int
  wheelLevel : Nat
  slotIndex : Nat
  deriving DecidableEq, Repr

/- The fields of `timing_wheel_expirator` that its operations read. -/
structure TimingWheel (K V : Type) where
  timer : Option Int
  startTime : Int
  currentTick : Nat
  wheels : Nat → Nat → List (EntryNode K V)
  keyToEntry : HashMap K (Nat × Nat)
  running : Bool

namespace TimingWheel

/- `WHEEL_0_SIZE`. -/
def wheel0Size : Nat := 256

/- `WHEEL_1_SIZE`. -/
def wheel1Size : Nat := 64

/- `WHEEL_2_SIZE`. -/
def wheel2Size : Nat := 64

/- `WHEEL_3_SIZE`. -/
def wheel3Size : Nat := 64

/- `TICK_DURATION`, in milliseconds. -/
def tickDuration : Int := 1

variable {K V : Type}

/- A wheel constructed at clock reading `startTime`. -/
def init (startTime : Int) : TimingWheel K V :=
  ⟨none, startTime, 0, fun _ _ => [], ∅, false⟩

/- `get_wheel(level, index)`: levels past 2 are the last wheel. -/
def getWheel
    (s : TimingWheel K V)
    (level index : Nat) : List (EntryNode K V) :=
  s.wheels (min level 3) index

/- Replace the slot `get_wheel(level, index)`. -/
def setWheel
    (s : TimingWheel K V)
    (level index : Nat)
    (slot : List (EntryNode K V)) : TimingWheel K V :=
  { s with
    wheels := fun l i =>
      if l = min level 3 ∧ i = index then slot else s.wheels l i }

@[simp] theorem setWheel_getWheel
    (s : TimingWheel K V)
    (level index level' index' : Nat)
    (slot : List (EntryNode K V)) :
    (s.setWheel level index slot).getWheel level' index' =
      if min level' 3 = min level 3 ∧ index' = index then slot
      else s.getWheel level' index' :=
  rfl

@[simp] theorem setWheel_keyToEntry
    (s : TimingWheel K V)
    (level index : Nat)
    (slot : List (EntryNode K V)) :
    (s.setWheel level index slot).keyToEntry = s.keyToEntry :=
  rfl

@[simp] theorem setWheel_currentTick
    (s : TimingWheel K V)
    (level index : Nat)
    (slot : List (EntryNode K V)) :
    (s.setWheel level index slot).currentTick = s.currentTick :=
  rfl

------------------------------------------------------------
-- Placement
------------------------------------------------------------

variable [DecidableEq K]

/-
  The wheel level and slot `insert_entry` picks for a deadline
  `ticksFromNow` ticks ahead of `currentTick`.
-/
def placement
    (currentTick ticksFromNow : Nat) : Nat × Nat :=
  let targetTick := currentTick + ticksFromNow
  if ticksFromNow < wheel0Size then
    (0, targetTick % wheel0Size)
  else if ticksFromNow < wheel0Size * wheel1Size then
    (1, targetTick / wheel0Size % wheel1Size)
  else if ticksFromNow < wheel0Size * wheel1Size * wheel2Size then
    (2, targetTick / (wheel0Size * wheel1Size) % wheel2Size)
  else
    (3, targetTick / (wheel0Size * wheel1Size * wheel2Size) % wheel3Size)

/- `insert_entry`, with the clock at `now`; a past deadline is 0 ticks ahead. -/
def insertEntry
    (s : TimingWheel K V)
    (now : Int)
    (key : K)
    (info : V)
    (expiry : Int) : TimingWheel K V :=
  let ticksFromNow := (expiry - now).toNat
  let p := placement s.currentTick ticksFromNow
  let s1 := s.setWheel p.1 p.2
    (s.getWheel p.1 p.2 ++ [⟨key, info, expiry, p.1, p.2⟩])
  { s1 with keyToEntry := s1.keyToEntry.insert key p }

------------------------------------------------------------
-- Ticks
------------------------------------------------------------

/-
  The loop of `process_slot` over a slot's list: due nodes are
  erased from the list and the map and handed to the handler in
  list order; the others stay.
-/
def processSlotLoop
    (now : Int) :
    List (EntryNode K V) → HashMap K (Nat × Nat) →
      List (K × V) × List (EntryNode K V) × HashMap K (Nat × Nat)
  | [], m => ([], [], m)
  | n :: rest, m =>
      if n.expiry ≤ now then
        let r := processSlotLoop now rest (m.erase n.key)
        ((n.key, n.info) :: r.1, r.2)
      else
        let r := processSlotLoop now rest m
        (r.1, n :: r.2.1, r.2.2)

/- `process_slot(get_wheel(level, index))` with the clock at `now`. -/
def processSlot
    (s : TimingWheel K V)
    (now : Int)
    (level index : Nat) : List (K × V) × TimingWheel K V :=
  let r := processSlotLoop now (s.getWheel level index) s.keyToEntry
  (r.1, { s.setWheel level index r.2.1 with keyToEntry := r.2.2 })

/-
  `cascade_wheel(get_wheel(level, index))`: empty the slot and
  insert each of its nodes again, from the clock at `now`.
-/
def cascadeWheel
    (s : TimingWheel K V)
    (now : Int)
    (level index : Nat) : TimingWheel K V :=
  (s.getWheel level index).foldl
    (fun t n =>
      insertEntry { t with keyToEntry := t.keyToEntry.erase n.key }
        now n.key n.info n.expiry)
    (s.setWheel level index [])

/- `process_tick` with the clock at `now`, and the handler calls it makes. -/
def processTick
    (s : TimingWheel K V)
    (now : Int) : List (K × V) × TimingWheel K V :=
  let s1 := { s with currentTick := s.currentTick + 1 }
  let t := s1.currentTick
  let r := s1.processSlot now 0 (t % wheel0Size)
  if t % wheel0Size = 0 then
    let s3 := r.2.cascadeWheel now 1 (t / wheel0Size % wheel1Size)
    if t % (wheel0Size * wheel1Size) = 0 then
      let s4 := s3.cascadeWheel now 2
        (t / (wheel0Size * wheel1Size) % wheel2Size)
      if t % (wheel0Size * wheel1Size * wheel2Size) = 0 then
        (r.1, s4.cascadeWheel now 3
          (t / (wheel0Size * wheel1Size * wheel2Size) % wheel3Size))
      else (r.1, s4)
    else (r.1, s3)
  else r

------------------------------------------------------------
-- Operations
------------------------------------------------------------

/- `schedule_tick`: arm the timer one tick after `now`. -/
def scheduleTick
    (s : TimingWheel K V)
    (now : Int) : TimingWheel K V :=
  { s with timer := some (now + tickDuration) }

/- `start`: restart the tick count from the clock at `now`. -/
def start
    (s : TimingWheel K V)
    (now : Int) : TimingWheel K V :=
  if !s.running then
    scheduleTick { s with running := true, startTime := now, currentTick := 0 } now
  else s

/- `stop`. -/
def stop (s : TimingWheel K V) : TimingWheel K V :=
  if s.running then { s with running := false, timer := none } else s

/- `add`, with the clock at `now`. -/
def add
    (s : TimingWheel K V)
    (now : Int)
    (key : K)
    (ttl : Int)
    (info : V) : Bool × TimingWheel K V :=
  if key ∈ s.keyToEntry then (false, s)
  else
    let s1 := s.insertEntry now key info (now + ttl)
    (true, if !s1.running then s1.start now else s1)

/- `remove`: erase the node the map points at, then the key. -/
def remove
    (s : TimingWheel K V)
    (key : K) : Bool × TimingWheel K V :=
  match s.keyToEntry.find key with
  | none => (false, s)
  | some (level, index) =>
      let s1 := s.setWheel level index
        ((s.getWheel level index).eraseP (·.key = key))
      (true, { s1 with keyToEntry := s1.keyToEntry.erase key })

/- `clear`. -/
def clear (s : TimingWheel K V) : TimingWheel K V :=
  let s1 := { s with wheels := fun _ _ => [], keyToEntry := ∅ }
  if s1.running then { s1 with timer := none, running := false } else s1

/- The completion of the tick wait, with the clock at `now`. -/
def onTimer
    (s : TimingWheel K V)
    (now : Int) : List (K × V) × TimingWheel K V :=
  let s1 := { s with timer := none }
  if s1.running then
    let r := s1.processTick now
    (r.1, if r.2.running then r.2.scheduleTick now else r.2)
  else ([], s1)

/- `contains`. -/
def contains
    (s : TimingWheel K V)
    (key : K) : Bool :=
  decide (key ∈ s.keyToEntry)

/- `size`. -/
def size (s : TimingWheel K V) : Nat :=
  s.keyToEntry.entries.length

------------------------------------------------------------
-- Slots
------------------------------------------------------------

/-
  `process_slot` hands over exactly the due nodes of the slot, in
  list order, keeps the others in order, and forgets the keys it
  handed over.
-/
theorem processSlotLoop_spec
    (now : Int)
    (slot : List (EntryNode K V))
    (m : HashMap K (Nat × Nat)) :
    (processSlotLoop now slot m).1 =
        (slot.filter (·.expiry ≤ now)).map (fun n => (n.key, n.info)) ∧
      (processSlotLoop now slot m).2.1 = slot.filter (now < ·.expiry) ∧
      (processSlotLoop now slot m).2.2 =
        (slot.filter (·.expiry ≤ now)).foldl (fun m n => m.erase n.key) m := by
  induction slot generalizing m with
  | nil => exact ⟨rfl, rfl, rfl⟩
  | cons n rest ih =>
      by_cases hDue : n.expiry ≤ now
      · obtain ⟨h1, h2, h3⟩ := ih (m.erase n.key)
        simp [processSlotLoop, hDue, h1, h2, h3]
      · obtain ⟨h1, h2, h3⟩ := ih m
        simp [processSlotLoop, hDue, h1, h2, h3, lt_of_not_le hDue]

/- An empty slot hands nothing over and is left as it was. -/
theorem processSlot_empty
    (s : TimingWheel K V)
    (now : Int)
    (level index : Nat)
    (hEmpty : s.getWheel level index = []) :
    s.processSlot now level index = ([], s) := by
  simp only [processSlot, hEmpty, processSlotLoop, Prod.mk.injEq, true_and]
  cases s
  simp only [setWheel, mk.injEq, true_and, and_true]
  funext l i
  split_ifs with hAt
  · rw [hAt.1, hAt.2]
    exact hEmpty.symm
  · rfl

/- A tick off the 256 boundary whose slot is empty only moves the counter. -/
theorem processTick_idle
    (s : TimingWheel K V)
    (now : Int)
    (hEmpty : s.getWheel 0 ((s.currentTick + 1) % wheel0Size) = [])
    (hOff : (s.currentTick + 1) % wheel0Size ≠ 0) :
    s.processTick now = ([], { s with currentTick := s.currentTick + 1 }) := by
  simp only [processTick, if_neg hOff]
  exact processSlot_empty _ now 0 _ hEmpty

------------------------------------------------------------
-- Tick-Exact Runs
------------------------------------------------------------

/-
  `n` completions of the tick wait under a tick-exact clock,
  which reads `start_time_ + current_tick_` after the increment.
-/
def runTicks : Nat → TimingWheel K V → List (K × V) × TimingWheel K V
  | 0, s => ([], s)
  | n + 1, s =>
      let r := s.onTimer (s.startTime + (s.currentTick + 1))
      let rest := runTicks n r.2
      (r.1 ++ rest.1, rest.2)

theorem runTicks_add
    (m n : Nat)
    (s : TimingWheel K V) :
    runTicks (m + n) s =
      ((runTicks m s).1 ++ (runTicks n (runTicks m s).2).1,
        (runTicks n (runTicks m s).2).2) := by
  induction m generalizing s with
  | zero => simp [runTicks]
  | succ m ih =>
      rw [Nat.succ_add, runTicks, runTicks, ih]
      simp

/-
  Ticks over empty slots, with no multiple of 256 among them,
  hand nothing over and only move the counter and the timer.
-/
theorem runTicks_idle
    (n : Nat)
    (s : TimingWheel K V)
    (hRunning : s.running = true)
    (hEmpty : ∀ k, 1 ≤ k → k ≤ n →
      s.getWheel 0 ((s.currentTick + k) % wheel0Size) = [])
    (hOff : ∀ k, 1 ≤ k → k ≤ n → (s.currentTick + k) % wheel0Size ≠ 0) :
    runTicks n s =
      if n = 0 then ([], s)
      else ([], { s with
        currentTick := s.currentTick + n,
        timer := some (s.startTime + (s.currentTick + n) + tickDuration) }) := by
  induction n generalizing s with
  | zero => rfl
  | succ n ih =>
      have hStep : s.onTimer (s.startTime + (s.currentTick + 1)) =
          ([], { s with
            currentTick := s.currentTick + 1,
            timer := some (s.startTime + (s.currentTick + 1) + tickDuration) }) := by
        dsimp only [onTimer]
        rw [if_pos hRunning, processTick_idle { s with timer := none } _
          (hEmpty 1 le_rfl (by omega)) (hOff 1 le_rfl (by omega))]
        simp [hRunning, scheduleTick]
      rw [runTicks, hStep]
      dsimp only
      rw [ih { s with
          currentTick := s.currentTick + 1,
          timer := some (s.startTime + (s.currentTick + 1) + tickDuration) } hRunning
        (fun k h1 h2 => by
          show s.getWheel 0 ((s.currentTick + 1 + k) % wheel0Size) = []
          rw [Nat.add_assoc, Nat.add_comm 1 k]
          exact hEmpty (k + 1) (by omega) (by omega))
        (fun k h1 h2 => by
          show (s.currentTick + 1 + k) % wheel0Size ≠ 0
          rw [Nat.add_assoc, Nat.add_comm 1 k]
          exact hOff (k + 1) (by omega) (by omega))]
      by_cases hN : n = 0
      · subst hN
        simp
      · simp only [hN, if_false]
        simp
        omega

------------------------------------------------------------
-- A Zero Time-To-Live
------------------------------------------------------------

/-
  An entry added with `ttl = 0` at tick 0 goes to slot 0 of the
  first wheel, which the next tick has already passed: it stays
  pending through ticks 1 to 255 and fires at tick 256.
-/
theorem ttl_zero_waits_a_revolution :
    (∀ n, n < 256 →
      (runTicks n ((init 0 : TimingWheel Nat Unit).add 0 1 0 ()).2).1 = [] ∧
        (runTicks n ((init 0 : TimingWheel Nat Unit).add 0 1 0 ()).2).2.contains 1) ∧
      (runTicks 256 ((init 0 : TimingWheel Nat Unit).add 0 1 0 ()).2).1 = [(1, ())] := by
  set s := ((init 0 : TimingWheel Nat Unit).add 0 1 0 ()).2
  have hS : s = ⟨some 1, 0, 0,
      fun l i => if l = 0 ∧ i = 0 then [⟨1, (), 0, 0, 0⟩] else [],
      HashMap.insert ∅ 1 (0, 0), true⟩ := rfl
  have hIdle : ∀ n, n < 256 → runTicks n s =
      if n = 0 then ([], s)
      else ([], { s with
        currentTick := n,
        timer := some (n + tickDuration) }) := by
    intro n hN
    rw [runTicks_idle n s rfl
      (fun k h1 h2 => by simp [hS, getWheel, wheel0Size]; omega)
      (fun k h1 h2 => by simp [hS, wheel0Size]; omega)]
    simp [hS]
  refine ⟨fun n hN => ?_, ?_⟩
  · rw [hIdle n hN]
    split_ifs <;> exact ⟨rfl, rfl⟩
  · rw [show 256 = 255 + 1 from rfl, runTicks_add, hIdle 255 (by decide)]
    decide

end TimingWheel

end Expirator

end Vex
