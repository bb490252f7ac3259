import Vex.Expirator.Lockfree.Timer

/-
  `clear` of the lock-free expirator against the abstract store.

  `clear` empties `entries_` and `expiry_queue_` and stops the
  expirator, but leaves the ring as it is.  The next
  `process_operations` applies the records published before the
  `clear`, so an entry the abstract store dropped at the `clear`
  comes back.

  Key theorems include:
    * `add_before_clear_survives`
-/

namespace Vex

namespace Expirator

namespace LockfreeExpirator

variable {K V : Type} [DecidableEq K]

@[simp]
theorem entries_scheduleNext (s : LockfreeExpirator K V) :
    s.scheduleNext.entries = s.processOperations.entries := by
  unfold scheduleNext
  dsimp only
  split <;> rfl

/-
  From a running expirator whose ring holds no pending record:
  `add k`, `clear`, then `add k'` for another key.  The `add k'`
  finds the expirator stopped and starts it, and the
  `process_operations` of that start applies the record of `k`
  published before the `clear`: `k` is in `entries_`, although the
  abstract store that makes the same calls lost it at the `clear`,
  which leaves it empty whatever came before.
-/
theorem add_before_clear_survives
    (s : LockfreeExpirator K V)
    (now : Int)
    {k k' : K}
    (ttl ttl' : Int)
    (v v' : V)
    (hRunning : s.running = true)
    (hIdle : s.readIndex = s.writeIndex)
    (hIdx : s.writeIndex < queueSize)
    (hNe : k ≠ k') :
    (((s.add now k ttl v).2.clear.add now k' ttl' v').2).contains k = true ∧
      k ∉ ((∅ : Store K V).add k' (now + ttl') v').2 := by
  -- the slots of the two records, and the two records between the indices
  have hSlot : (s.writeIndex + 1) % queueSize ≠ s.writeIndex := by
    simp only [queueSize] at hIdx ⊢
    omega
  have hFree1 : (s.writeIndex + 1) % queueSize ≠ s.readIndex := hIdle ▸ hSlot
  have hFree2 : ((s.writeIndex + 1) % queueSize + 1) % queueSize ≠ s.readIndex := by
    simp only [queueSize] at hIdx ⊢
    omega
  have hCount : (((s.writeIndex + 1) % queueSize + 1) % queueSize + queueSize -
      s.readIndex) % queueSize = 2 := by
    simp only [queueSize] at hIdx ⊢
    omega
  -- `add k` only publishes, and `clear` keeps the ring
  have hAdd : (s.add now k ttl v).2.clear =
      { s with
        opQueue := fun i => if i = s.writeIndex then some ⟨.add, k, v, now + ttl⟩ else s.opQueue i
        writeIndex := (s.writeIndex + 1) % queueSize
        entries := ∅
        expiryQueue := []
        running := false
        timer := none } := by
    simp [add, publish, clear, stop, hFree1, hRunning]
  -- `add k'` publishes, starts, and `process_operations` applies both records
  have hEntries : (((s.add now k ttl v).2.clear.add now k' ttl' v').2).entries =
      ((∅ : HashMap K (EntryData V)).insert k ⟨now + ttl, v⟩).insert k' ⟨now + ttl', v'⟩ := by
    rw [hAdd]
    simp only [add, publish, hFree2, if_false, start, Bool.not_false, if_true,
      entries_scheduleNext, processOperations, hCount, processOperationsLoop]
    simp [applyOperation, hIdle, Ne.symm hSlot, hNe.symm]
  exact ⟨by simp [contains, hEntries], by simp [Store.add, hNe]⟩

/- After the `add` of key 1 that starts a fresh expirator, keys 2 and 3. -/
theorem add_before_clear_survives_after_start :
    (init.add 0 1 1000 () : Bool × LockfreeExpirator Nat Unit).2.running = true ∧
      (init.add 0 1 1000 () : Bool × LockfreeExpirator Nat Unit).2.readIndex =
        (init.add 0 1 1000 () : Bool × LockfreeExpirator Nat Unit).2.writeIndex ∧
      (init.add 0 1 1000 () : Bool × LockfreeExpirator Nat Unit).2.writeIndex < queueSize ∧
      (2 : Nat) ≠ 3 ∧
      (((init.add 0 1 1000 () : Bool × LockfreeExpirator Nat Unit).2.add 0 2 1000 ()).2.clear.add
          0 3 1000 ()).2.contains 2 = true ∧
        2 ∉ ((∅ : Store Nat Unit).add 3 (0 + 1000) ()).2 :=
  ⟨by decide, by decide, by decide, by decide,
    add_before_clear_survives _ 0 1000 1000 () () (by decide) (by decide) (by decide) (by decide)⟩

end LockfreeExpirator

end Expirator

end Vex
