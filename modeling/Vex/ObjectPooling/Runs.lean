import Vex.ObjectPooling.Ownership

/-
  What every run of a program using a pool does, from a new pool.

  Every object is held once, and nothing leaks; the lifetime map
  tracks exactly the objects handed out.  The pool returns to
  `create` the object released last, so dropping an object and
  asking for its type again gives the same object back.  In any
  state with an object pooled, a constructor that throws makes the
  pool destroy that object twice, and that is the only undefined
  behaviour a run meets.  A subpool never holds more than the
  largest limit the pool has had.

  Main declarations:
    * `pool_owns_every_object`, `allocated_objects_are_held_or_available`
    * `create_reuses_the_last_object_released`
    * `throwing_constructor_destroys_reused_object_twice`
    * `returning_constructors_meet_no_undefined_behaviour`
    * `ObjectPool.Capped`, `subpools_stay_within_the_largest_limit`
-/

namespace Vex

namespace ObjectPooling

open Expirator (HashMap)
open ObjectPool (pooled)

------------------------------------------------------------
-- Ownership Over a Run
------------------------------------------------------------

/-
  Over every run from a new pool: each allocated cell is held once,
  by one of the program's objects or by the subpool of its type;
  the lifetime map tracks exactly the objects handed out; and the
  only undefined behaviour met is an object destroyed twice.
-/
theorem pool_owns_every_object {inputs : List Input} {outs : List (Option Nat)} {w : World}
    (hRun : World.init.run inputs = some (outs, w)) :
    w.owned.Nodup ∧ (∀ a, (w.heap.cells.find a).isSome ↔ a ∈ w.owned) ∧
      (∀ f ∈ w.heap.faults, ∃ a, f = .destroyedTwice a) ∧
      ∀ p, w.pool = some p → (∀ a, a ∈ p.lifetimeMap ↔ a ∈ w.handles) ∧
        ∀ t sub, p.findSubPool t = some sub → ∀ a ∈ sub.pool,
          ∃ c, w.heap.cells.find a = some c ∧ c.type = t := by
  have hw := owned_init.run hRun
  refine ⟨hw.nodup, hw.allocated, hw.faults, fun p hPool => ⟨fun a => ⟨(hw.pool p hPool).lifetime a,
    fun ha => ?_⟩, (hw.pool p hPool).typed⟩⟩
  obtain ⟨c, -, hl, -⟩ := (hw.pool p hPool).tracked a ha
  exact (HashMap.mem_iff_find _ _).mpr (by rw [hl]; rfl)

theorem reuse_run_owns_its_objects :
    ∃ outs w, World.init.run [.create 0 true, .create 1 true, .drop 0, .create 0 false,
        .setGlobalMaxPoolSize 1, .drop 0, .dropPool] = some (outs, w) ∧
      w.owned.Nodup ∧ (∀ a, (w.heap.cells.find a).isSome ↔ a ∈ w.owned) ∧
      (∀ f ∈ w.heap.faults, ∃ a, f = .destroyedTwice a) ∧
      ∀ p, w.pool = some p → (∀ a, a ∈ p.lifetimeMap ↔ a ∈ w.handles) ∧
        ∀ t sub, p.findSubPool t = some sub → ∀ a ∈ sub.pool,
          ∃ c, w.heap.cells.find a = some c ∧ c.type = t :=
  ⟨_, _, rfl, @pool_owns_every_object [.create 0 true, .create 1 true, .drop 0, .create 0 false,
    .setGlobalMaxPoolSize 1, .drop 0, .dropPool] _ _ rfl⟩

/- `available()` sums the sizes of the subpools: it counts the objects pooled. -/
theorem ObjectPool.available_eq (p : ObjectPool) : p.available = (pooled p).length := by
  suffices h : ∀ n (l : List (TypeId × SubPool)),
      l.foldl (fun total e => total + e.2.inPoolSize) n = n + (l.flatMap fun e => e.2.pool).length from
    (h 0 p.pools).trans (Nat.zero_add _)
  intro n l
  induction l generalizing n with
  | nil => rfl
  | cons e l ih =>
    rw [List.foldl_cons, ih, List.flatMap_cons, List.length_append, SubPool.inPoolSize]
    omega

/-
  Every allocated object is handed out or available: in every
  reachable state with the pool alive, the free store holds as many
  objects as the program holds plus `available()`.
-/
theorem allocated_objects_are_held_or_available {inputs : List Input} {outs : List (Option Nat)}
    {w : World} {p : ObjectPool} (hRun : World.init.run inputs = some (outs, w))
    (hPool : w.pool = some p) : w.heap.cells.keys.length = w.handles.length + p.available := by
  have hw := owned_init.run hRun
  obtain ⟨_ | p', h, hs⟩ := w
  · cases hPool
  cases hPool
  have hPerm : h.cells.keys.Perm (hs ++ pooled p) :=
    (List.perm_ext_iff_of_nodup (AList.keys_nodup _) hw.nodup).mpr fun a => by
      rw [← AList.mem_keys, HashMap.mem_iff_find]
      exact hw.allocated a
  rw [hPerm.length_eq, List.length_append, ObjectPool.available_eq]

theorem two_objects_one_available :
    ∃ outs w, World.init.run [.create 0 true, .create 0 true, .drop 0] = some (outs, w) ∧
      ∃ p, w.pool = some p ∧ w.heap.cells.keys.length = w.handles.length + p.available :=
  ⟨_, _, rfl, _, rfl, @allocated_objects_are_held_or_available [.create 0 true, .create 0 true,
    .drop 0] _ _ _ rfl rfl⟩

------------------------------------------------------------
-- Reuse
------------------------------------------------------------

section Reuse

variable {inputs : List Input} {outs : List (Option Nat)} {p : ObjectPool} {h : Heap}
  {hs : List Nat}

/- The subpool found for a type is the one `create` takes from. -/
theorem ObjectPool.getOrCreateSubPool_found {t : TypeId} {sub : SubPool}
    (hSub : p.findSubPool t = some sub) : p.getOrCreateSubPool t = (p, sub) := by
  simp only [ObjectPool.getOrCreateSubPool, hSub]

/-
  `release` puts an object at the back of its subpool and
  `create` takes from the back: dropping an object whose subpool
  has room, then asking for its type again, gives the same object
  back, in place of the handle dropped.
-/
theorem create_reuses_the_last_object_released {w : World} {i obj : Nat} {c : Cell}
    {sub : SubPool} (hRun : World.init.run inputs = some (outs, w)) (hPool : w.pool = some p)
    (hObj : w.handles[i]? = some obj) (hc : w.heap.cells.find obj = some c)
    (hSub : p.findSubPool c.type = some sub) (hRoom : sub.pool.length < sub.maxPoolSize) :
    ∃ w₁ w₂, w.step (.drop i) = some (none, w₁) ∧
      w₁.step (.create c.type true) = some (some obj, w₂) ∧
      w₂.handles = w.handles.eraseIdx i ++ [obj] ∧ w₂.heap.cells.find obj = some c := by
  have hw := owned_init.run hRun
  obtain ⟨_ | p', h, hs⟩ := w
  · cases hPool
  cases hPool
  obtain ⟨c', hc', hl, -⟩ := (hw.pool p rfl).tracked obj (List.getElem?_mem hObj)
  obtain rfl : c = c' := Option.some.inj (hc.symm.trans hc')
  have hLive : c.live = true := hw.live obj c hc
  set p₁ : ObjectPool := { p with lifetimeMap := p.lifetimeMap.erase obj }
  set sub₁ : SubPool := { sub with pool := sub.pool ++ [obj] }
  have hRelease : p.release h obj = (p₁.setSubPool c.type sub₁, h) := by
    rw [ObjectPool.release_tracked hl hSub]
    simp only [SubPool.release, if_pos hRoom, sub₁, p₁]
  have hSub₁ : (p₁.setSubPool c.type sub₁).findSubPool c.type = some sub₁ := by
    rw [ObjectPool.findSubPool_setSubPool p₁ (by rw [show p₁.findSubPool c.type = _ from hSub]; rfl),
      if_pos rfl]
  have hCreate := @ObjectPool.create_reuse _ _ h _ true _ _
    (ObjectPool.getOrCreateSubPool_found hSub₁) (List.getLast?_concat sub.pool)
  have hDrop : World.step ⟨some p, h, hs⟩ (.drop i) =
      some (none, ⟨some (p₁.setSubPool c.type sub₁), h, hs.eraseIdx i⟩) := by
    simp only [World.step, hObj, Option.map_some', World.deleter, hRelease]
  have hAgain : World.step ⟨some (p₁.setSubPool c.type sub₁), h, hs.eraseIdx i⟩
      (.create c.type true) = some (some obj, ⟨some (((p₁.setSubPool c.type sub₁).setSubPool
        c.type { sub₁ with pool := sub₁.pool.dropLast }).track obj c.type),
          (h.destroy obj).construct obj, hs.eraseIdx i ++ [obj]⟩) := by
    simp only [World.step, Option.map_some', hCreate, if_true, Option.toList_some]
  refine ⟨_, _, hDrop, hAgain, rfl, ?_⟩
  obtain ⟨t, live⟩ := c
  cases hLive
  have hDead : (h.destroy obj).cells.find obj = some ⟨t, false⟩ := by
    rw [Heap.destroy_live hc]
    exact HashMap.find_insert _ _ _
  show ((h.destroy obj).construct obj).cells.find obj = _
  rw [Heap.construct_of_find hDead]
  exact HashMap.find_insert _ _ _

theorem dropped_object_comes_back :
    ∃ outs w, World.init.run [.create 0 true, .create 0 true] = some (outs, w) ∧
      ∃ w₁ w₂, w.step (.drop 0) = some (none, w₁) ∧
        w₁.step (.create 0 true) = some (some 0, w₂) ∧
        w₂.handles = w.handles.eraseIdx 0 ++ [0] ∧ w₂.heap.cells.find 0 = some ⟨0, true⟩ :=
  ⟨_, _, rfl, @create_reuses_the_last_object_released [.create 0 true, .create 0 true] _ _ _ 0 0
    ⟨0, true⟩ ⟨[], 1000⟩ rfl rfl rfl rfl rfl (by decide)⟩

/-
  A reused object whose new constructor throws: `create` has run
  `~T` on it before constructing it again, and the deleter of its
  `unique_ptr` runs `~T` a second time, which is undefined.  Any
  reachable state with an object pooled for the type meets it; the
  object is freed, and not handed out.
-/
theorem throwing_constructor_destroys_reused_object_twice {w : World} {t : TypeId}
    {sub : SubPool} {raw : Nat} (hRun : World.init.run inputs = some (outs, w))
    (hPool : w.pool = some p) (hSub : p.findSubPool t = some sub)
    (hLast : sub.pool.getLast? = some raw) :
    ∃ w', w.step (.create t false) = some (none, w') ∧
      w'.heap.faults = w.heap.faults ++ [.destroyedTwice raw] ∧
      w'.heap.cells.find raw = none ∧ w'.handles = w.handles := by
  have hw := owned_init.run hRun
  obtain ⟨_ | p', h, hs⟩ := w
  · cases hPool
  cases hPool
  obtain ⟨-, -, hFaults, hFreed⟩ := hw.reuse hSub hLast
  have hCreate := @ObjectPool.create_reuse _ _ h _ false _ _
    (ObjectPool.getOrCreateSubPool_found hSub) hLast
  have hStep : World.step ⟨some p, h, hs⟩ (.create t false) = some (none,
      ⟨some (p.setSubPool t { sub with pool := sub.pool.dropLast }), (h.destroy raw).delete raw, hs⟩) := by
    simp only [World.step, Option.map_some', hCreate, Bool.false_eq_true, if_false,
      Option.toList_none, List.append_nil]
  exact ⟨_, hStep, hFaults, hFreed, rfl⟩

theorem pooled_object_destroyed_twice :
    ∃ outs w, World.init.run [.create 0 true, .drop 0] = some (outs, w) ∧
      ∃ w', w.step (.create 0 false) = some (none, w') ∧
        w'.heap.faults = w.heap.faults ++ [.destroyedTwice 0] ∧
        w'.heap.cells.find 0 = none ∧ w'.handles = w.handles :=
  ⟨_, _, rfl, @throwing_constructor_destroys_reused_object_twice [.create 0 true, .drop 0] _ _ _ 0 _ 0
    rfl rfl rfl rfl⟩

end Reuse

------------------------------------------------------------
-- Undefined Behaviour
------------------------------------------------------------

section Faults

variable {inputs : List Input} {outs : List (Option Nat)} {p : ObjectPool} {h : Heap}
  {hs : List Nat}

@[simp]
theorem Heap.faults_construct (h : Heap) (a : Nat) : (h.construct a).faults = h.faults := by
  unfold Heap.construct
  split <;> rfl

/-
  A `create` whose constructor returns meets no fault: a reused
  object is alive when `create` runs `~T` on it.
-/
theorem Owned.faults_create (hw : Owned ⟨some p, h, hs⟩) (t : TypeId) :
    (p.create h t true).2.2.faults = h.faults := by
  obtain ⟨hp₁, hSub, -, -⟩ := (hw.pool p rfl).getOrCreateSubPool t
  rcases hG : p.getOrCreateSubPool t with ⟨p₁, sub⟩
  rw [hG] at hp₁ hSub
  cases hLast : sub.pool.getLast? with
  | some raw =>
    obtain ⟨⟨t', live⟩, hc, -⟩ := hp₁.typed t sub hSub raw (List.mem_of_getLast?_eq_some hLast)
    cases hw.live raw _ hc
    rw [ObjectPool.create_reuse hG hLast, if_pos rfl, Heap.faults_construct, Heap.destroy_live hc]
  | none =>
    rw [ObjectPool.create_alloc hG hLast, if_pos rfl]
    rfl

/-
  A deleter meets no fault: the lifetime map tracks the object, with
  the subpool of its type, and a deleted object is alive.
-/
theorem Owned.faults_drop {w : World} {i obj : Nat} (hw : Owned w) (hObj : w.handles[i]? = some obj) :
    (w.deleter obj (w.handles.eraseIdx i)).heap.faults = w.heap.faults := by
  obtain ⟨_ | p, h, hs⟩ := w
  · obtain ⟨t, hc⟩ := hw.find_live (by rw [World.owned_orphan]; exact List.getElem?_mem hObj)
    exact Heap.faults_delete_live hc
  · obtain ⟨⟨t, live⟩, hc, hl, hFound⟩ := (hw.pool p rfl).tracked obj (List.getElem?_mem hObj)
    cases hw.live obj _ hc
    obtain ⟨sub, hSub⟩ := Option.isSome_iff_exists.mp hFound
    show (p.release h obj).2.faults = h.faults
    rw [ObjectPool.release_tracked hl hSub]
    unfold SubPool.release
    split_ifs
    · rfl
    · exact Heap.faults_delete_live hc

/- Every step but a throwing constructor leaves the faults of an owned world as they were. -/
theorem Owned.faults_step {w w' : World} {input : Input} {out : Option Nat} (hw : Owned w)
    (hOk : ∀ t, input ≠ .create t false) (hStep : w.step input = some (out, w')) :
    w'.heap.faults = w.heap.faults := by
  obtain ⟨pool, h, hs⟩ := w
  cases input with
  | drop i =>
    cases hObj : hs[i]? with
    | none => simp [World.step, hObj] at hStep
    | some obj =>
      simp only [World.step, hObj, Option.map_some', Option.some.injEq, Prod.mk.injEq] at hStep
      obtain ⟨-, rfl⟩ := hStep
      exact hw.faults_drop hObj
  | create t ctorOk =>
    cases pool with
    | none => cases hStep
    | some p =>
      obtain rfl : ctorOk = true := by
        cases ctorOk
        · exact absurd rfl (hOk t)
        · rfl
      obtain ⟨-, rfl⟩ := Prod.mk.inj (Option.some.inj hStep)
      exact hw.faults_create t
  | setGlobalMaxPoolSize ms =>
    cases pool with
    | none => cases hStep
    | some p =>
      obtain ⟨-, rfl⟩ := Prod.mk.inj (Option.some.inj hStep)
      rfl
  | dropPool =>
    cases pool with
    | none => cases hStep
    | some p =>
      obtain ⟨-, rfl⟩ := Prod.mk.inj (Option.some.inj hStep)
      exact (hw.destroy_spec 0).2.1

/-
  The only undefined behaviour the pool meets comes from a throwing
  constructor: over a run in which every constructor returns, no
  object is destroyed twice, and `release` never meets an
  unknown pointer or a lost subpool.
-/
theorem returning_constructors_meet_no_undefined_behaviour {w : World}
    (hRun : World.init.run inputs = some (outs, w)) (hOk : ∀ t, Input.create t false ∉ inputs) :
    w.heap.faults = [] :=
  (World.run_induction (fun w => Owned w ∧ w.heap.faults = [])
    (fun input => ∀ t, input ≠ .create t false)
    (fun _ _ _ _ hw hAllowed hStep => ⟨hw.1.step hStep, (hw.1.faults_step hAllowed hStep).trans hw.2⟩)
    ⟨owned_init, rfl⟩ (fun _ hi t he => hOk t (he ▸ hi)) hRun).2

theorem reuse_and_teardown_meet_no_fault :
    ∃ outs w, World.init.run [.create 0 true, .create 1 true, .drop 0, .create 0 true,
        .setGlobalMaxPoolSize 0, .drop 1, .dropPool, .drop 0] = some (outs, w) ∧
      w.heap.faults = [] :=
  ⟨_, _, rfl, @returning_constructors_meet_no_undefined_behaviour [.create 0 true, .create 1 true,
    .drop 0, .create 0 true, .setGlobalMaxPoolSize 0, .drop 1, .dropPool, .drop 0] _ _ rfl
    (fun t ht => by simp at ht)⟩

end Faults

------------------------------------------------------------
-- Limits
------------------------------------------------------------

section Limits

variable {inputs : List Input} {outs : List (Option Nat)} {b : Nat}

/- Every limit of a pool, and the size of every subpool, at most `b`. -/
def ObjectPool.Capped (b : Nat) (p : ObjectPool) : Prop :=
  p.globalMaxPoolSize ≤ b ∧ ∀ e ∈ p.pools, e.2.pool.length ≤ b ∧ e.2.maxPoolSize ≤ b

theorem ObjectPool.mem_of_findSubPool {p : ObjectPool} {t : TypeId} {sub : SubPool}
    (hSub : p.findSubPool t = some sub) : (t, sub) ∈ p.pools := by
  obtain ⟨l₁, l₂, hl, -⟩ := List.lookup_eq_some_iff.mp hSub
  exact hl ▸ List.mem_append_right _ (List.mem_cons_self _ _)

theorem ObjectPool.Capped.setSubPool {p : ObjectPool} (hc : p.Capped b) (t : TypeId) (sub : SubPool)
    (hLen : sub.pool.length ≤ b) (hMax : sub.maxPoolSize ≤ b) : (p.setSubPool t sub).Capped b := by
  refine ⟨hc.1, fun e he => ?_⟩
  obtain ⟨e₀, he₀, rfl⟩ := List.mem_map.mp he
  split_ifs
  · exact ⟨hLen, hMax⟩
  · exact hc.2 e₀ he₀

theorem ObjectPool.Capped.getOrCreateSubPool {p : ObjectPool} (hc : p.Capped b) (t : TypeId) :
    (p.getOrCreateSubPool t).1.Capped b ∧
      (p.getOrCreateSubPool t).2.pool.length ≤ b ∧ (p.getOrCreateSubPool t).2.maxPoolSize ≤ b := by
  unfold ObjectPool.getOrCreateSubPool
  cases hSub : p.findSubPool t with
  | some sub => exact ⟨hc, hc.2 _ (ObjectPool.mem_of_findSubPool hSub)⟩
  | none =>
    refine ⟨⟨hc.1, fun e he => ?_⟩, Nat.zero_le b, hc.1⟩
    rcases List.mem_append.mp he with he | he
    · exact hc.2 e he
    · rw [List.mem_singleton.mp he]
      exact ⟨Nat.zero_le b, hc.1⟩

/- `create` only takes objects out of a subpool, or adds an empty one. -/
theorem ObjectPool.Capped.create {p : ObjectPool} (hc : p.Capped b) (h : Heap) (t : TypeId)
    (ctorOk : Bool) : (p.create h t ctorOk).2.1.Capped b := by
  obtain ⟨hc₁, hLen, hMax⟩ := hc.getOrCreateSubPool t
  rcases hG : p.getOrCreateSubPool t with ⟨p₁, sub⟩
  rw [hG] at hc₁ hLen hMax
  have hSet := hc₁.setSubPool t { sub with pool := sub.pool.dropLast }
    ((List.length_dropLast _).trans_le (Nat.sub_le_of_le_add (Nat.le_add_right_of_le hLen))) hMax
  cases hLast : sub.pool.getLast? with
  | some raw =>
    rw [ObjectPool.create_reuse hG hLast]
    cases ctorOk
    · exact hSet
    · exact hSet
  | none =>
    rw [ObjectPool.create_alloc hG hLast]
    cases ctorOk
    · exact hc₁
    · exact hc₁

/- `release` keeps an object only in a subpool below its limit. -/
theorem ObjectPool.Capped.release {p : ObjectPool} (hc : p.Capped b) (h : Heap) (obj : Nat) :
    (p.release h obj).1.Capped b := by
  have hc' : ({ p with lifetimeMap := p.lifetimeMap.erase obj } : ObjectPool).Capped b := hc
  cases hl : p.lifetimeMap.find obj with
  | none => simpa only [ObjectPool.release, hl] using hc
  | some e =>
    cases e with
    | none => simpa only [ObjectPool.release, hl] using hc'
    | some t =>
      cases hSub : p.findSubPool t with
      | none =>
        have hSub' : ({ p with lifetimeMap := p.lifetimeMap.erase obj } : ObjectPool).findSubPool t =
          none := hSub
        simpa only [ObjectPool.release, hl, hSub'] using hc'
      | some sub =>
        obtain ⟨hLen, hMax⟩ : sub.pool.length ≤ b ∧ sub.maxPoolSize ≤ b :=
          hc.2 _ (ObjectPool.mem_of_findSubPool hSub)
        rw [ObjectPool.release_tracked hl hSub]
        unfold SubPool.release
        split_ifs with hRoom
        · exact hc'.setSubPool t _ (by simp only [List.length_append, List.length_singleton]; omega)
            hMax
        · exact hc'.setSubPool t _ hLen hMax

/- No step but a new limit above `b` takes a pool beyond `b`. -/
theorem capped_step {w w' : World} {input : Input} {out : Option Nat}
    (hc : ∀ p, w.pool = some p → p.Capped b) (hLimit : ∀ ms, input = .setGlobalMaxPoolSize ms → ms ≤ b)
    (hStep : w.step input = some (out, w')) : ∀ p, w'.pool = some p → p.Capped b := by
  obtain ⟨pool, h, hs⟩ := w
  cases input with
  | drop i =>
    cases hObj : hs[i]? with
    | none => simp [World.step, hObj] at hStep
    | some obj =>
      simp only [World.step, hObj, Option.map_some', Option.some.injEq, Prod.mk.injEq] at hStep
      obtain ⟨-, rfl⟩ := hStep
      cases pool with
      | none => exact fun _ he => by cases he
      | some p => exact fun _ he => Option.some.inj he ▸ (hc p rfl).release h obj
  | create t ctorOk =>
    cases pool with
    | none => cases hStep
    | some p =>
      obtain ⟨-, rfl⟩ := Prod.mk.inj (Option.some.inj hStep)
      exact fun _ he => Option.some.inj he ▸ (hc p rfl).create h t ctorOk
  | setGlobalMaxPoolSize ms =>
    cases pool with
    | none => cases hStep
    | some p =>
      obtain ⟨-, rfl⟩ := Prod.mk.inj (Option.some.inj hStep)
      refine fun _ he => Option.some.inj he ▸ ⟨hLimit ms rfl, fun e he => ?_⟩
      obtain ⟨e₀, he₀, rfl⟩ := List.mem_map.mp he
      exact ⟨((hc p rfl).2 e₀ he₀).1, hLimit ms rfl⟩
  | dropPool =>
    cases pool with
    | none => cases hStep
    | some p =>
      obtain ⟨-, rfl⟩ := Prod.mk.inj (Option.some.inj hStep)
      exact fun _ he => by cases he

/-
  A subpool never holds more objects than the largest limit the pool
  has had: `release` keeps an object only below its subpool's
  limit, and a new global limit sets every subpool's limit without
  trimming what the subpool holds.
-/
theorem subpools_stay_within_the_largest_limit {w : World}
    (hRun : World.init.run inputs = some (outs, w)) (hInit : 1000 ≤ b)
    (hLimits : ∀ ms, Input.setGlobalMaxPoolSize ms ∈ inputs → ms ≤ b) :
    ∀ p, w.pool = some p → ∀ t sub, p.findSubPool t = some sub → sub.pool.length ≤ b :=
  fun p hPool t _ hSub =>
    ((World.run_induction (fun w => ∀ p, w.pool = some p → p.Capped b)
      (fun input => ∀ ms, input = .setGlobalMaxPoolSize ms → ms ≤ b)
      (fun _ _ _ _ hc hLimit hStep => capped_step hc hLimit hStep)
      (fun p hp => by cases hp; exact ⟨hInit, fun e he => by simp [ObjectPool.init] at he⟩)
      (fun _ hi ms he => hLimits ms (he ▸ hi)) hRun p hPool).2 _
      (ObjectPool.mem_of_findSubPool hSub)).1

theorem lowered_limit_run_stays_within_default :
    ∃ outs w, World.init.run [.create 0 true, .create 0 true, .drop 0, .drop 0,
        .setGlobalMaxPoolSize 1, .create 1 true, .drop 0] = some (outs, w) ∧
      ∀ p, w.pool = some p → ∀ t sub, p.findSubPool t = some sub → sub.pool.length ≤ 1000 :=
  ⟨_, _, rfl, @subpools_stay_within_the_largest_limit [.create 0 true, .create 0 true, .drop 0,
    .drop 0, .setGlobalMaxPoolSize 1, .create 1 true, .drop 0] _ _ _ rfl (le_refl 1000)
    (fun ms hms => by simp at hms; omega)⟩

end Limits

end ObjectPooling

end Vex
