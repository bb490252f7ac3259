import Vex.Expirator.Heap.Basic

/-
  The reactor side of `heap_expirator`: the public calls, among
  them `start` and `stop`, and the completion of the pending
  `async_wait`, under a clock that never goes back.

  `schedule_next` is meant to keep the timer at or before the
  earliest deadline.  `update_expiry` decides whether to re-arm
  from the entry's index before sifting, so an entry moved in
  front of the root leaves the timer at the old root's deadline.

  Key definitions include:
    * `Event`, `Event.apply`
    * `Reachable`
    * `TimerCovers`
-/

------------------------------------------------------------
-- Events
------------------------------------------------------------

namespace Vex

namespace Expirator

namespace HeapExpirator

variable {K V : Type} [DecidableEq K]

/- The public calls of `heap_expirator`. -/
inductive Event (K V : Type) where
  | add (key : K) (ttl : Int) (info : V)
  | remove (key : K)
  | updateExpiry (key : K) (ttl : Int)
  | clear
  | start
  | stop

/- A public call at clock reading `now`. -/
def Event.apply
    [Inhabited V]
    (now : Int)
    (s : HeapExpirator K V) : Event K V → HeapExpirator K V
  | .add key ttl info => (s.add now key ttl info).2
  | .remove key => (s.remove key).2
  | .updateExpiry key ttl => (s.updateExpiry now key ttl).2
  | .clear => s.clear
  | .start => s.start
  | .stop => s.stop

/-
  The states reached with the clock at `now`: calls, the clock
  moving on, and the completion of a wait whose deadline passed.
-/
inductive Reachable [Inhabited K] [Inhabited V] :
    Int → HeapExpirator K V → Prop where
  | init (now : Int) : Reachable now init
  | wait {now now' : Int} {s : HeapExpirator K V} :
      Reachable now s → now ≤ now' → Reachable now' s
  | call {now : Int} {s : HeapExpirator K V} (ev : Event K V) :
      Reachable now s → Reachable now (ev.apply now s)
  | complete {now t : Int} {s : HeapExpirator K V} :
      Reachable now s → s.timer = some t → t ≤ now →
        Reachable now (s.onTimer now)

/-
  A running expirator with entries has its timer armed no later
  than every live entry's deadline.
-/
def TimerCovers (s : HeapExpirator K V) : Prop :=
  s.running = true → s.heapSize ≠ 0 →
    ∃ t, s.timer = some t ∧ ∀ k e, s.entries.find k = some e → t ≤ e.expiry

------------------------------------------------------------
-- A Late Timer
------------------------------------------------------------

/-
  Key 1 due at 10 arms the timer; key 2 due at 20 goes below it
  and is then moved to 5.  It becomes the root, and the timer
  stays at 10.
-/
theorem update_expiry_leaves_timer_late :
    ¬ ∀ (now : Int) (s : HeapExpirator Nat Unit),
      Reachable now s → TimerCovers s := by
  intro hAll
  have hReach : Reachable 0 ((Event.updateExpiry 2 5).apply 0
      ((Event.add 2 20 ()).apply 0 ((Event.add 1 10 ()).apply 0 init))) :=
    .call _ (.call _ (.call _ (.init 0)))
  obtain ⟨t, hT, hLe⟩ := hAll 0 _ hReach (by decide) (by decide)
  have hT10 : some t = some 10 := hT.symm.trans (by decide)
  have hLate : t ≤ 5 := hLe 2 ⟨5, (), 0⟩ (by decide)
  simp only [Option.some.injEq] at hT10
  omega

end HeapExpirator

end Expirator

end Vex
