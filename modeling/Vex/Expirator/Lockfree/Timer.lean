import Vex.Expirator.Lockfree.Basic

/-
  The reactor side of `lockfree_expirator` with a single
  producer: the public calls and the completion of the pending
  `async_wait`, under a clock that never goes back.

  The consumer drains the ring only inside `schedule_next`, and
  `add` starts the expirator only when it is stopped.  A record
  published while the timer waits for a later deadline is seen
  only after that wait completes.

  Key definitions include:
    * `Event`, `Event.apply`
    * `Reachable`
    * `TimerCovers`
-/

------------------------------------------------------------
-- Events
------------------------------------------------------------

namespace Vex

namespace Expirator

namespace LockfreeExpirator

variable {K V : Type} [DecidableEq K] [Inhabited V]

/- The public calls of `lockfree_expirator`. -/
inductive Event (K V : Type) where
  | add (key : K) (ttl : Int) (info : V)
  | remove (key : K)
  | clear
  | start
  | stop

/- A public call at clock reading `now`. -/
def Event.apply
    (now : Int)
    (s : LockfreeExpirator K V) : Event K V → LockfreeExpirator K V
  | .add key ttl info => (s.add now key ttl info).2
  | .remove key => (s.remove key).2
  | .clear => s.clear
  | .start => s.start
  | .stop => s.stop

/-
  The states reached with the clock at `now`: calls, the clock
  moving on, and the completion of a wait whose deadline passed.
-/
inductive Reachable : Int → LockfreeExpirator K V → Prop where
  | init (now : Int) : Reachable now init
  | wait {now now' : Int} {s : LockfreeExpirator K V} :
      Reachable now s → now ≤ now' → Reachable now' s
  | call {now : Int} {s : LockfreeExpirator K V} (ev : Event K V) :
      Reachable now s → Reachable now (ev.apply now s)
  | complete {now t : Int} {s : LockfreeExpirator K V} :
      Reachable now s → s.timer = some t → t ≤ now →
        Reachable now (s.onTimer now).2

/-
  A running expirator has its timer armed no later than every
  live entry and every published, unconsumed `ADD` record.
-/
def TimerCovers (s : LockfreeExpirator K V) : Prop :=
  s.running = true →
    ∃ t, s.timer = some t ∧
      (∀ k e, s.entries.find k = some e → t ≤ e.expiry) ∧
      ∀ op ∈ s.published, ∀ o, op = some o → o.type = .add → t ≤ o.expiry

------------------------------------------------------------
-- A Late Timer
------------------------------------------------------------

/-
  Key 1 due at 1000 starts the expirator and arms the timer; key
  2 due at 10 is published while it runs.  The timer stays at
  1000, and the completion there hands over key 1 only.
-/
theorem add_while_running_keeps_timer_late :
    (¬ ∀ (now : Int) (s : LockfreeExpirator Nat Unit),
        Reachable now s → TimerCovers s) ∧
      (((init.add 0 1 1000 ()).2.add 0 2 10 ()).2.onTimer 1000).1 =
        [(1, ())] := by
  refine ⟨fun hAll => ?_, by decide⟩
  have hReach : Reachable 0 ((Event.add 2 10 ()).apply 0
      ((Event.add 1 1000 ()).apply 0 (init : LockfreeExpirator Nat Unit))) :=
    .call _ (.call _ (.init 0))
  obtain ⟨t, hT, -, hPub⟩ := hAll 0 _ hReach (by decide)
  have hT1000 : some t = some 1000 := hT.symm.trans (by decide)
  have hLate : t ≤ 10 :=
    hPub _ (by decide) ⟨.add, 2, (), 10⟩ rfl rfl
  simp only [Option.some.injEq] at hT1000
  omega

end LockfreeExpirator

end Expirator

end Vex
