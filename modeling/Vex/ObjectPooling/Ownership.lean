import Mathlib.Data.List.Basic
import Mathlib.Data.List.Perm.Basic
import Vex.ObjectPooling.Basic

/-
  Who owns each object of a pool, over every run of a program
  using it.

  Every allocated cell is held in exactly one place: by one
  `shared_ptr` the program holds, or once in the subpool of its
  own type.  The lifetime map tracks exactly the objects handed
  out, each with the subpool it returns to, so `release` never
  meets an unknown pointer or a lost subpool.  Once the pool is
  gone, the cells left are exactly the objects the program still
  holds.  The one undefined behaviour a run can meet is a reused
  object destroyed twice, when its new constructor throws.

  Key definitions include:
    * `pooled`, `World.owned`
    * `PoolOwns`, `Owned`

  Key theorems include:
    * `pooled_setSubPool`, `Heap.find_delete`
    * `Owned.handOut`, `Owned.forget`, one lemma per way an object
      changes hands
    * `Owned.create`, `Owned.drop`, `Owned.dropPool`, `Owned.step`,
      `Owned.run`
-/

------------------------------------------------------------
-- Subpools by Type
------------------------------------------------------------

namespace Vex

namespace ObjectPooling

open Expirator (HashMap)

namespace ObjectPool

/- The objects the subpools hold. -/
def pooled (p : ObjectPool) : List Nat :=
  p.pools.flatMap fun e => e.2.pool

section Pools

variable {t t' : TypeId} {sub sub₀ : SubPool}

theorem lookup_pair_cons (k : TypeId) (s : SubPool) (l : List (TypeId × SubPool)) (t : TypeId) :
    ((k, s) :: l).lookup t = if t = k then some s else l.lookup t := by
  by_cases h : t = k
  · subst h
    simp
  · simp only [List.lookup_cons, beq_false_of_ne h, if_neg h]

theorem lookup_map_set_ne (l : List (TypeId × SubPool)) (hNe : t' ≠ t) :
    (l.map fun e => if e.1 = t then (t, sub) else e).lookup t' = l.lookup t' := by
  induction l with
  | nil => rfl
  | cons e l ih =>
    obtain ⟨k, s⟩ := e
    by_cases hk : k = t
    · subst hk
      rw [List.map_cons, if_pos rfl, lookup_pair_cons, lookup_pair_cons, if_neg hNe, if_neg hNe, ih]
    · rw [List.map_cons, if_neg hk, lookup_pair_cons, lookup_pair_cons, ih]

theorem lookup_map_set_self (l : List (TypeId × SubPool)) (hFound : (l.lookup t).isSome) :
    (l.map fun e => if e.1 = t then (t, sub) else e).lookup t = some sub := by
  induction l with
  | nil => simp at hFound
  | cons e l ih =>
    obtain ⟨k, s⟩ := e
    by_cases hk : k = t
    · subst hk
      rw [List.map_cons, if_pos rfl, lookup_pair_cons, if_pos rfl]
    · rw [lookup_pair_cons, if_neg (Ne.symm hk)] at hFound
      rw [List.map_cons, if_neg hk, lookup_pair_cons, if_neg (Ne.symm hk), ih hFound]

/- A subpool stored through its pointer is the one found for its type; the others are as they were. -/
theorem findSubPool_setSubPool (p : ObjectPool) (hFound : (p.findSubPool t).isSome)
    (sub : SubPool) (t' : TypeId) :
    (p.setSubPool t sub).findSubPool t' = if t' = t then some sub else p.findSubPool t' := by
  split_ifs with h
  · subst h
    exact lookup_map_set_self p.pools hFound
  · exact lookup_map_set_ne p.pools h

theorem keys_setSubPool (p : ObjectPool) (t : TypeId) (sub : SubPool) :
    (p.setSubPool t sub).pools.map Prod.fst = p.pools.map Prod.fst := by
  simp only [setSubPool, List.map_map]
  exact List.map_congr_left fun e _ => by by_cases h : e.1 = t <;> simp [h]

/-
  With the types of `pools_` all different, storing a subpool
  takes the objects of the old one out and puts those of the new
  one in.
-/
theorem pooled_setSubPool (p : ObjectPool) (hKeys : (p.pools.map Prod.fst).Nodup)
    (hFound : p.findSubPool t = some sub₀) (sub : SubPool) :
    List.Perm (pooled (p.setSubPool t sub) ++ sub₀.pool) (pooled p ++ sub.pool) := by
  classical
  obtain ⟨g, l, u⟩ := p
  simp only [pooled, setSubPool, findSubPool] at hKeys hFound ⊢
  clear g u
  induction l with
  | nil => simp at hFound
  | cons e l ih =>
    obtain ⟨k, s⟩ := e
    simp only [List.map_cons, List.nodup_cons] at hKeys
    by_cases hk : k = t
    · subst hk
      rw [lookup_pair_cons, if_pos rfl, Option.some.injEq] at hFound
      subst hFound
      have hRest : (l.map fun e => if e.1 = k then (k, sub) else e) = l :=
        (List.map_congr_left (g := id) fun e he =>
          if_neg fun (h : e.1 = k) => hKeys.1 (h ▸ List.mem_map_of_mem Prod.fst he)).trans
          (List.map_id l)
      refine List.perm_iff_count.mpr fun a => ?_
      simp [hRest, List.count_append]
      omega
    · rw [lookup_pair_cons, if_neg (Ne.symm hk)] at hFound
      simpa [hk, List.append_assoc] using (ih hKeys.2 hFound).append_left s.pool

theorem mem_pooled (p : ObjectPool) (hFound : p.findSubPool t = some sub) {a : Nat}
    (ha : a ∈ sub.pool) : a ∈ pooled p := by
  obtain ⟨l₁, l₂, hl, -⟩ := List.lookup_eq_some_iff.mp hFound
  exact List.mem_flatMap.mpr ⟨(t, sub), by simp [hl], ha⟩

/- Taking the last object out of a subpool. -/
theorem pooled_pop (p : ObjectPool) (hKeys : (p.pools.map Prod.fst).Nodup)
    (hFound : p.findSubPool t = some sub) {raw : Nat} (hLast : sub.pool.getLast? = some raw) :
    List.Perm (pooled (p.setSubPool t { sub with pool := sub.pool.dropLast }) ++ [raw])
      (pooled p) := by
  classical
  obtain ⟨rest, hRest⟩ := List.getLast?_eq_some_iff.mp hLast
  have hSet := pooled_setSubPool p hKeys hFound { sub with pool := sub.pool.dropLast }
  rw [hRest, List.dropLast_concat] at hSet ⊢
  refine List.perm_iff_count.mpr fun a => ?_
  have := List.perm_iff_count.mp hSet a
  simp only [List.count_append] at this ⊢
  omega

/- `getOrCreateSubPool` on a type without a subpool adds one at the end. -/
theorem findSubPool_append (p : ObjectPool) (hNone : p.findSubPool t = none) (sub : SubPool)
    (t' : TypeId) : ({ p with pools := p.pools ++ [(t, sub)] } : ObjectPool).findSubPool t' =
      if t' = t then some sub else p.findSubPool t' := by
  simp only [findSubPool, List.lookup_append] at hNone ⊢
  split_ifs with h
  · subst h
    simp [hNone]
  · simp [lookup_pair_cons, h]

theorem findSubPool_setGlobalMaxPoolSize (p : ObjectPool) (ms : Nat) (t : TypeId) :
    (p.setGlobalMaxPoolSize ms).findSubPool t = (p.findSubPool t).map (·.setMaxSize ms) := by
  obtain ⟨g, l, u⟩ := p
  simp only [findSubPool, setGlobalMaxPoolSize]
  induction l with
  | nil => rfl
  | cons e l ih =>
    obtain ⟨k, s⟩ := e
    rw [List.map_cons, lookup_pair_cons, lookup_pair_cons]
    split_ifs
    · rfl
    · exact ih

theorem pooled_setGlobalMaxPoolSize (p : ObjectPool) (ms : Nat) :
    pooled (p.setGlobalMaxPoolSize ms) = pooled p := by
  obtain ⟨g, l, u⟩ := p
  simp only [pooled, setGlobalMaxPoolSize, SubPool.setMaxSize]
  induction l with
  | nil => rfl
  | cons e l ih => simp [ih]

end Pools

end ObjectPool

------------------------------------------------------------
-- The Free Store
------------------------------------------------------------

namespace Heap

variable {h : Heap} {a b : Nat}

theorem destroy_live {t : TypeId} (hc : h.cells.find a = some ⟨t, true⟩) :
    h.destroy a = { h with cells := h.cells.insert a ⟨t, false⟩ } := by
  simp [destroy, hc]

theorem destroy_dead {t : TypeId} (hc : h.cells.find a = some ⟨t, false⟩) :
    h.destroy a = h.fault (.destroyedTwice a) := by
  simp [destroy, hc]

theorem construct_of_find {c : Cell} (hc : h.cells.find a = some c) :
    h.construct a = { h with cells := h.cells.insert a { c with live := true } } := by
  simp [construct, hc]

/- Deleting a live object frees its cell and leaves every other one. -/
theorem find_delete {t : TypeId} (hc : h.cells.find a = some ⟨t, true⟩) (b : Nat) :
    (h.delete a).cells.find b = if b = a then none else h.cells.find b := by
  split_ifs with hb
  · subst hb
    simp [delete, free, destroy_live hc]
  · simp [delete, free, destroy_live hc, hb]

@[simp]
theorem faults_delete_live {t : TypeId} (hc : h.cells.find a = some ⟨t, true⟩) :
    (h.delete a).faults = h.faults := by
  simp [delete, free, destroy_live hc]

@[simp]
theorem next_delete (h : Heap) (a : Nat) : (h.delete a).next = h.next := by
  unfold delete destroy
  split <;> rfl

/- Deleting live objects, each once, frees their cells and leaves every other one. -/
theorem find_foldl_delete (L : List Nat) (hL : L.Nodup) (h : Heap)
    (hLive : ∀ a ∈ L, ∃ t, h.cells.find a = some ⟨t, true⟩) (b : Nat) :
    (L.foldl Heap.delete h).cells.find b = (if b ∈ L then none else h.cells.find b) ∧
      (L.foldl Heap.delete h).faults = h.faults ∧ (L.foldl Heap.delete h).next = h.next := by
  induction L generalizing h with
  | nil => simp
  | cons a L ih =>
    obtain ⟨t, ht⟩ := hLive a (List.mem_cons_self _ _)
    rw [List.nodup_cons] at hL
    have hLive' : ∀ a' ∈ L, ∃ t, (h.delete a).cells.find a' = some ⟨t, true⟩ := fun a' ha' => by
      rw [find_delete ht, if_neg (fun (he : a' = a) => hL.1 (he ▸ ha'))]
      exact hLive a' (List.mem_cons_of_mem _ ha')
    obtain ⟨hFind, hFaults, hNext⟩ := ih hL.2 (h.delete a) hLive'
    refine ⟨?_, hFaults.trans (faults_delete_live ht), hNext.trans (next_delete h a)⟩
    rw [List.foldl_cons, hFind, find_delete ht]
    by_cases hb : b = a <;> simp [hb]

end Heap

------------------------------------------------------------
-- Who Holds What
------------------------------------------------------------

open ObjectPool (pooled)

theorem ObjectPool.destroy_eq (p : ObjectPool) (h : Heap) :
    p.destroy h = (pooled p).foldl Heap.delete h := by
  obtain ⟨g, l, u⟩ := p
  simp only [destroy, pooled]
  induction l generalizing h with
  | nil => rfl
  | cons e l ih => simp [List.foldl_append, ih]

/- What `create` does with the subpool it found holding `raw` last. -/
theorem ObjectPool.create_reuse {p p₁ : ObjectPool} {h : Heap} {t : TypeId} {ctorOk : Bool}
    {sub : SubPool} {raw : Nat} (hG : p.getOrCreateSubPool t = (p₁, sub))
    (hLast : sub.pool.getLast? = some raw) :
    p.create h t ctorOk =
      if ctorOk then
        (some raw, (p₁.setSubPool t { sub with pool := sub.pool.dropLast }).track raw t,
          (h.destroy raw).construct raw)
      else (none, p₁.setSubPool t { sub with pool := sub.pool.dropLast }, (h.destroy raw).delete raw) := by
  simp only [ObjectPool.create, hG, hLast]

/- What `create` does with the subpool it found empty. -/
theorem ObjectPool.create_alloc {p p₁ : ObjectPool} {h : Heap} {t : TypeId} {ctorOk : Bool}
    {sub : SubPool} (hG : p.getOrCreateSubPool t = (p₁, sub)) (hLast : sub.pool.getLast? = none) :
    p.create h t ctorOk =
      if ctorOk then (some h.next, p₁.track h.next t, h.alloc t) else (none, p₁, h) := by
  simp only [ObjectPool.create, hG, hLast]

/- What `release` does with an object the lifetime map tracks. -/
theorem ObjectPool.release_tracked {p : ObjectPool} {h : Heap} {obj : Nat} {t : TypeId}
    {sub : SubPool} (hl : p.lifetimeMap.find obj = some (some t)) (hSub : p.findSubPool t = some sub) :
    p.release h obj =
      (({ p with lifetimeMap := p.lifetimeMap.erase obj } : ObjectPool).setSubPool t
        (sub.release h obj).1, (sub.release h obj).2) := by
  have hSub' : ({ p with lifetimeMap := p.lifetimeMap.erase obj } : ObjectPool).findSubPool t = some sub :=
    hSub
  simp only [ObjectPool.release, hl, hSub']

/- Where each object is held: by the program, or by a subpool of the pool while it lives. -/
def World.owned (w : World) : List Nat :=
  w.handles ++ (w.pool.map pooled).getD []

/-
  What a live pool keeps: the types of `pools_` all different;
  each handed-out object in the lifetime map, with the subpool of
  its own type, and nothing else there; and every object of a
  subpool of the subpool's type.
-/
structure PoolOwns (p : ObjectPool) (h : Heap) (handles : List Nat) : Prop where
  keys_nodup : (p.pools.map Prod.fst).Nodup
  tracked : ∀ a ∈ handles, ∃ c, h.cells.find a = some c ∧
    p.lifetimeMap.find a = some (some c.type) ∧ (p.findSubPool c.type).isSome
  lifetime : ∀ a ∈ p.lifetimeMap, a ∈ handles
  typed : ∀ t sub, p.findSubPool t = some sub → ∀ a ∈ sub.pool,
    ∃ c, h.cells.find a = some c ∧ c.type = t

/-
  Every allocated cell is held in exactly one place, holds a live
  object, and lies below the first address never used; the only
  undefined behaviour met so far is an object destroyed twice.
-/
structure Owned (w : World) : Prop where
  nodup : w.owned.Nodup
  allocated : ∀ a, (w.heap.cells.find a).isSome ↔ a ∈ w.owned
  fresh : ∀ a, (w.heap.cells.find a).isSome → a < w.heap.next
  live : ∀ a c, w.heap.cells.find a = some c → c.live = true
  faults : ∀ f ∈ w.heap.faults, ∃ a, f = .destroyedTwice a
  pool : ∀ p, w.pool = some p → PoolOwns p w.heap w.handles

theorem owned_init : Owned World.init :=
  ⟨List.nodup_nil, fun a => by simp [World.init, World.owned, ObjectPool.init, pooled],
    fun a ha => by simp [World.init] at ha,
    fun a c h => by simp [World.init] at h, fun f h => by simp [World.init] at h,
    fun p hp => by
      cases hp
      exact ⟨List.nodup_nil, fun a h => by simp [World.init] at h,
        fun a h => by simp [ObjectPool.init] at h,
        fun t sub h => by simp [ObjectPool.init, ObjectPool.findSubPool] at h⟩⟩

/- Whatever a world owns is allocated, and holds a live object. -/
theorem Owned.find_live {w : World} (hw : Owned w) {a : Nat} (ha : a ∈ w.owned) :
    ∃ t, w.heap.cells.find a = some ⟨t, true⟩ := by
  obtain ⟨⟨t, live⟩, hc⟩ := Option.isSome_iff_exists.mp ((hw.allocated a).mpr ha)
  exact ⟨t, hw.live a _ hc ▸ hc⟩

section Operations

variable {p : ObjectPool} {h : Heap} {hs : List Nat}

/- The subpool `create` takes from: found, or added empty, and nothing else changed. -/
theorem PoolOwns.getOrCreateSubPool (hp : PoolOwns p h hs) (t : TypeId) :
    PoolOwns (p.getOrCreateSubPool t).1 h hs ∧
      (p.getOrCreateSubPool t).1.findSubPool t = some (p.getOrCreateSubPool t).2 ∧
      pooled (p.getOrCreateSubPool t).1 = pooled p ∧
      (p.getOrCreateSubPool t).1.lifetimeMap = p.lifetimeMap := by
  unfold ObjectPool.getOrCreateSubPool
  cases hFind : p.findSubPool t with
  | some sub => exact ⟨hp, hFind, rfl, rfl⟩
  | none =>
    have hNew := ObjectPool.findSubPool_append p hFind ⟨[], p.globalMaxPoolSize⟩
    have hFresh : t ∉ p.pools.map Prod.fst := fun hMem => by
      obtain ⟨e, he, rfl⟩ := List.mem_map.mp hMem
      simp only [ObjectPool.findSubPool, List.lookup_eq_none_iff] at hFind
      simpa using hFind e he
    refine ⟨⟨?_, fun a ha => ?_, hp.lifetime, fun t' sub h' a ha => ?_⟩, by simp [hNew],
      by simp [pooled], rfl⟩
    · rw [List.map_append, List.map_singleton, List.nodup_append_comm]
      exact List.Nodup.cons hFresh hp.keys_nodup
    · obtain ⟨c, hc, hl, hs⟩ := hp.tracked a ha
      refine ⟨c, hc, hl, ?_⟩
      rw [hNew, if_neg fun he => by simp [he, hFind] at hs]
      exact hs
    · rw [hNew] at h'
      split_ifs at h' with he
      · cases h'
        simp at ha
      · exact hp.typed t' sub h' a ha

/- A world with a live pool is owned when its parts are. -/
theorem owned_of_pool (hNodup : (hs ++ pooled p).Nodup)
    (hAlloc : ∀ a, (h.cells.find a).isSome ↔ a ∈ hs ++ pooled p)
    (hFresh : ∀ a, (h.cells.find a).isSome → a < h.next)
    (hLive : ∀ a c, h.cells.find a = some c → c.live = true)
    (hFaults : ∀ f ∈ h.faults, ∃ a, f = .destroyedTwice a) (hp : PoolOwns p h hs) :
    Owned ⟨some p, h, hs⟩ :=
  ⟨hNodup, hAlloc, hFresh, hLive, hFaults, fun _ hp' => by cases hp'; exact hp⟩

/- An object a subpool holds is a live object of the subpool's type. -/
theorem Owned.pooled_live {t : TypeId} {sub : SubPool} {a : Nat} (hw : Owned ⟨some p, h, hs⟩)
    (hSub : p.findSubPool t = some sub) (ha : a ∈ sub.pool) : h.cells.find a = some ⟨t, true⟩ := by
  obtain ⟨⟨t', live⟩, hc, rfl⟩ := (hw.pool p rfl).typed t sub hSub a ha
  cases hw.live a _ hc
  exact hc

/- A free store with the same cells, first unused address and faults keeps a world owned. -/
theorem Owned.congr_heap {pool : Option ObjectPool} {h' : Heap} (hw : Owned ⟨pool, h, hs⟩)
    (hFind : ∀ a, h'.cells.find a = h.cells.find a) (hNext : h'.next = h.next)
    (hFaults : h'.faults = h.faults) : Owned ⟨pool, h', hs⟩ := by
  refine ⟨hw.nodup, fun a => by rw [hFind]; exact hw.allocated a,
    fun a ha => by rw [hNext]; exact hw.fresh a (by rw [← hFind]; exact ha),
    fun a c hc => hw.live a c (by rw [← hFind]; exact hc), by rw [hFaults]; exact hw.faults,
    fun p hp => ?_⟩
  obtain ⟨hKeys, hTracked, hLifetime, hTyped⟩ := hw.pool p hp
  refine ⟨hKeys, fun a ha => ?_, hLifetime, fun t sub hSub a ha => ?_⟩
  · obtain ⟨c, hc, hl⟩ := hTracked a ha
    exact ⟨c, (hFind a).trans hc, hl⟩
  · obtain ⟨c, hc, ht⟩ := hTyped t sub hSub a ha
    exact ⟨c, (hFind a).trans hc, ht⟩

/- The last object of a subpool taken out and handed to the program, tracked. -/
theorem Owned.handOut {t : TypeId} {sub : SubPool} {raw : Nat} (hw : Owned ⟨some p, h, hs⟩)
    (hSub : p.findSubPool t = some sub) (hLast : sub.pool.getLast? = some raw) :
    Owned ⟨some ((p.setSubPool t { sub with pool := sub.pool.dropLast }).track raw t), h,
      hs ++ [raw]⟩ := by
  have hp : PoolOwns p h hs := hw.pool p rfl
  set p₁ := p.setSubPool t { sub with pool := sub.pool.dropLast }
  have hFind₁ := ObjectPool.findSubPool_setSubPool p (by rw [hSub]; rfl)
    { sub with pool := sub.pool.dropLast }
  have hOwned : (hs ++ [raw] ++ pooled p₁).Perm (hs ++ pooled p) := by
    rw [List.append_assoc]
    exact (List.perm_append_comm.trans (ObjectPool.pooled_pop p hp.keys_nodup hSub hLast)).append_left hs
  have hNodup := hOwned.nodup_iff.mpr hw.nodup
  have hRawNot : raw ∉ hs := fun hr =>
    (List.nodup_append.mp (hNodup.sublist (List.sublist_append_left _ _))).2.2 hr
      (List.mem_singleton_self raw)
  have hFound : ∀ u, (p.findSubPool u).isSome → (p₁.findSubPool u).isSome := fun u hu => by
    rw [hFind₁]
    split_ifs
    · rfl
    · exact hu
  refine owned_of_pool hNodup (fun b => (hw.allocated b).trans hOwned.mem_iff.symm) hw.fresh hw.live
    hw.faults ⟨(ObjectPool.keys_setSubPool p t _).symm ▸ hp.keys_nodup, fun a ha => ?_,
      fun a ha => ?_, fun u sub' hu a ha => ?_⟩
  · rcases List.mem_append.mp ha with ha | ha
    · have hne : a ≠ raw := fun he => hRawNot (he ▸ ha)
      obtain ⟨c, hc, hl, hs'⟩ := hp.tracked a ha
      exact ⟨c, hc, by simp [ObjectPool.track, p₁, ObjectPool.setSubPool, hne, hl], hFound _ hs'⟩
    · rw [List.mem_singleton.mp ha]
      exact ⟨⟨t, true⟩, hw.pooled_live hSub (List.mem_of_getLast?_eq_some hLast),
        by simp [ObjectPool.track], hFound t (by rw [hSub]; rfl)⟩
  · rcases (HashMap.mem_insert _ _ _ _).mp ha with har | ha
    · rw [har]
      exact List.mem_append_right _ (List.mem_singleton_self _)
    · exact List.mem_append_left _ (hp.lifetime a ha)
  · change p₁.findSubPool u = some sub' at hu
    rw [hFind₁] at hu
    split_ifs at hu with hut
    · cases hu
      exact hut ▸ hp.typed t sub hSub a (List.dropLast_subset _ ha)
    · exact hp.typed u sub' hu a ha

/-
  Deleting an object the program holds, its lifetime entry gone and
  the subpools as they were: every other object stays where it was,
  and the delete meets at most the fault of destroying it twice.
-/
theorem Owned.forget {p' : ObjectPool} {h' : Heap} {hs' : List Nat} {a : Nat}
    (hw : Owned ⟨some p, h, hs⟩) (hHs : hs.Perm (a :: hs')) (hKeys : (p'.pools.map Prod.fst).Nodup)
    (hSubs : ∀ u, p'.findSubPool u = p.findSubPool u) (hPooled : (pooled p').Perm (pooled p))
    (hLifetime : ∀ b, b ≠ a → p'.lifetimeMap.find b = p.lifetimeMap.find b)
    (hLifetimeMem : ∀ b ∈ p'.lifetimeMap, b ∈ hs')
    (hFind : ∀ b, h'.cells.find b = if b = a then none else h.cells.find b)
    (hNext : h'.next = h.next) (hFaults : ∀ f ∈ h'.faults, f ∈ h.faults ∨ f = .destroyedTwice a) :
    Owned ⟨some p', h', hs'⟩ := by
  have hp : PoolOwns p h hs := hw.pool p rfl
  have hOwned : (hs ++ pooled p).Perm (a :: (hs' ++ pooled p)) := hHs.append_right _
  obtain ⟨haNot, hNodup⟩ := List.nodup_cons.mp (hOwned.nodup_iff.mp hw.nodup)
  have hne : ∀ b ∈ hs' ++ pooled p, b ≠ a := fun b hb he => haNot (he ▸ hb)
  have hSame : ∀ b ∈ hs' ++ pooled p, h'.cells.find b = h.cells.find b := fun b hb => by
    rw [hFind, if_neg (hne b hb)]
  refine owned_of_pool ((hPooled.append_left _).nodup_iff.mpr hNodup) (fun b => ?_) (fun b hb => ?_)
    (fun b c hb => ?_) (fun f hf => ?_) ⟨hKeys, fun b hb => ?_, hLifetimeMem, fun u sub hu b hb => ?_⟩
  · rw [hFind, (hPooled.append_left _).mem_iff]
    split_ifs with hb
    · subst hb
      simpa using haNot
    · exact (hw.allocated b).trans (hOwned.mem_iff.trans (by simp [hb]))
  · rw [hFind] at hb
    split_ifs at hb
    · simp at hb
    · exact hNext ▸ hw.fresh b hb
  · rw [hFind] at hb
    split_ifs at hb
    exact hw.live b c hb
  · rcases hFaults f hf with hf | rfl
    · exact hw.faults f hf
    · exact ⟨a, rfl⟩
  · have hb' := List.mem_append_left (pooled p) hb
    obtain ⟨c, hc, hl, hFound⟩ := hp.tracked b (hHs.mem_iff.mpr (List.mem_cons_of_mem _ hb))
    exact ⟨c, (hSame b hb').trans hc, (hLifetime b (hne b hb')).trans hl, (hSubs _).symm ▸ hFound⟩
  · rw [hSubs] at hu
    have hb' := List.mem_append_right hs' (ObjectPool.mem_pooled p hu hb)
    obtain ⟨c, hc, hcu⟩ := hp.typed u sub hu b hb
    exact ⟨c, (hSame b hb').trans hc, hcu⟩

/-
  `create` reusing `raw`, the last object of the subpool of `t`:
  with a constructor that returns, the object is handed out; with
  one that throws, it is deleted, and its second destruction is
  undefined.
-/
theorem Owned.reuse {t : TypeId} {sub : SubPool} {raw : Nat} (hw : Owned ⟨some p, h, hs⟩)
    (hSub : p.findSubPool t = some sub) (hLast : sub.pool.getLast? = some raw) :
    Owned ⟨some ((p.setSubPool t { sub with pool := sub.pool.dropLast }).track raw t),
        (h.destroy raw).construct raw, hs ++ [raw]⟩ ∧
      Owned ⟨some (p.setSubPool t { sub with pool := sub.pool.dropLast }),
        (h.destroy raw).delete raw, hs⟩ ∧
      ((h.destroy raw).delete raw).faults = h.faults ++ [.destroyedTwice raw] ∧
      ((h.destroy raw).delete raw).cells.find raw = none := by
  have hc := hw.pooled_live hSub (List.mem_of_getLast?_eq_some hLast)
  have hw₁ := hw.handOut hSub hLast
  have hDestroy := Heap.destroy_live hc
  have hDead : (h.destroy raw).cells.find raw = some ⟨t, false⟩ := by
    rw [hDestroy]
    exact HashMap.find_insert _ _ _
  have hFindThrow : ∀ b, ((h.destroy raw).delete raw).cells.find b =
      if b = raw then none else h.cells.find b := fun b => by
    simp only [Heap.delete, Heap.destroy_dead hDead, Heap.free, Heap.fault]
    split_ifs with hb
    · subst hb
      simp
    · simp [hDestroy, hb]
  have hFaultsThrow : ((h.destroy raw).delete raw).faults = h.faults ++ [.destroyedTwice raw] := by
    rw [Heap.delete, Heap.destroy_dead hDead]
    simp [Heap.free, Heap.fault, hDestroy]
  refine ⟨hw₁.congr_heap (fun b => ?_) (by rw [Heap.construct_of_find hDead, hDestroy])
      (by rw [Heap.construct_of_find hDead, hDestroy]),
    hw₁.forget (List.perm_append_singleton raw hs)
      ((ObjectPool.keys_setSubPool p t _).symm ▸ (hw.pool p rfl).keys_nodup) (fun _ => rfl)
      (List.Perm.refl _) (fun b hb => (HashMap.find_insert_ne _ _ hb).symm)
      (hw.pool p rfl).lifetime hFindThrow (by rw [Heap.next_delete, hDestroy])
      (fun f hf => by simpa [hFaultsThrow] using hf),
    hFaultsThrow, by rw [hFindThrow, if_pos rfl]⟩
  rw [Heap.construct_of_find hDead]
  by_cases hb : b = raw
  · subst hb
    simp [hc]
  · simp [hDestroy, hb]

/- `create` with an empty subpool of `t`: a new object, at the first address never used. -/
theorem Owned.alloc {t : TypeId} {sub : SubPool} (hw : Owned ⟨some p, h, hs⟩)
    (hSub : p.findSubPool t = some sub) :
    Owned ⟨some (p.track h.next t), h.alloc t, hs ++ [h.next]⟩ := by
  have hp : PoolOwns p h hs := hw.pool p rfl
  have hNodup : (hs ++ pooled p).Nodup := hw.nodup
  have hOld : ∀ b, b ∈ hs ++ pooled p → b ≠ h.next := fun b hb he => by
    have : b < h.next := hw.fresh b ((hw.allocated b).mpr hb)
    omega
  have hFind : ∀ b, (h.alloc t).cells.find b = if b = h.next then some ⟨t, true⟩ else h.cells.find b :=
    fun b => by
      split_ifs with hb
      · simp [Heap.alloc, hb]
      · simp [Heap.alloc, hb]
  have hOwned : (hs ++ [h.next] ++ pooled p).Perm (h.next :: (hs ++ pooled p)) := by
    rw [List.append_assoc, List.singleton_append]
    exact List.perm_middle
  refine owned_of_pool (hOwned.nodup_iff.mpr (List.nodup_cons.mpr ⟨fun hIn => hOld _ hIn rfl, hNodup⟩))
    (fun b => ?_) (fun b hb => ?_) (fun b c hb => ?_) hw.faults
    ⟨hp.keys_nodup, fun a ha => ?_, fun a ha => ?_, fun u sub' hu a ha => ?_⟩
  · show _ ↔ b ∈ hs ++ [h.next] ++ pooled p
    rw [hFind, hOwned.mem_iff]
    split_ifs with hb
    · simp [hb]
    · exact (hw.allocated b).trans (by simp [World.owned, hb])
  · show b < h.next + 1
    rw [hFind] at hb
    split_ifs at hb with hbn
    · omega
    · exact Nat.lt_succ_of_lt (hw.fresh b hb)
  · rw [hFind] at hb
    split_ifs at hb
    · cases hb
      rfl
    · exact hw.live b c hb
  · rcases List.mem_append.mp ha with ha | ha
    · obtain ⟨c, hc, hl, hs'⟩ := hp.tracked a ha
      have hne := hOld a (List.mem_append_left _ ha)
      exact ⟨c, by rw [hFind, if_neg hne]; exact hc, by simp [ObjectPool.track, hne, hl], hs'⟩
    · rw [List.mem_singleton.mp ha]
      exact ⟨⟨t, true⟩, by rw [hFind, if_pos rfl], by simp [ObjectPool.track],
        show (p.findSubPool t).isSome by rw [hSub]; rfl⟩
  · rcases (HashMap.mem_insert _ _ _ _).mp ha with han | ha
    · rw [han]
      exact List.mem_append_right _ (List.mem_singleton_self _)
    · exact List.mem_append_left _ (hp.lifetime a ha)
  · obtain ⟨c, hc, hcu⟩ := hp.typed u sub' hu a ha
    have hne := hOld a (List.mem_append_right _ (ObjectPool.mem_pooled p hu ha))
    exact ⟨c, by rw [hFind, if_neg hne]; exact hc, hcu⟩

/- `create` keeps every object owned once. -/
theorem Owned.create (hw : Owned ⟨some p, h, hs⟩) (t : TypeId) (ctorOk : Bool) :
    Owned ⟨some (p.create h t ctorOk).2.1, (p.create h t ctorOk).2.2,
      hs ++ (p.create h t ctorOk).1.toList⟩ := by
  obtain ⟨hp₁, hSub, hPooled, -⟩ := (hw.pool p rfl).getOrCreateSubPool t
  have hw₁ : Owned ⟨some (p.getOrCreateSubPool t).1, h, hs⟩ :=
    owned_of_pool (hPooled ▸ hw.nodup) (hPooled ▸ hw.allocated) hw.fresh hw.live hw.faults hp₁
  rcases hG : p.getOrCreateSubPool t with ⟨p₁, sub⟩
  rw [hG] at hw₁ hSub
  cases hLast : sub.pool.getLast? with
  | some raw =>
    obtain ⟨hOk, hThrow, -, -⟩ := hw₁.reuse hSub hLast
    rw [ObjectPool.create_reuse hG hLast]
    cases ctorOk
    · simpa using hThrow
    · exact hOk
  | none =>
    rw [ObjectPool.create_alloc hG hLast]
    cases ctorOk
    · simpa using hw₁
    · exact hw₁.alloc hSub

/- A handle in the program's list, and the list without it. -/
theorem perm_eraseIdx {hs : List Nat} {i obj : Nat} (hObj : hs[i]? = some obj) :
    hs.Perm (obj :: hs.eraseIdx i) := by
  obtain ⟨hi, rfl⟩ := List.getElem?_eq_some_iff.mp hObj
  exact (List.perm_cons_erase (List.getElem_mem hi)).trans ((List.erase_getElem hi).cons _)

/-
  The deleter of a handle while the pool lives: the object goes
  back to its subpool if that has room, and is deleted otherwise.
-/
theorem Owned.release {i obj : Nat} (hw : Owned ⟨some p, h, hs⟩) (hObj : hs[i]? = some obj) :
    Owned ⟨some (p.release h obj).1, (p.release h obj).2, hs.eraseIdx i⟩ := by
  have hp : PoolOwns p h hs := hw.pool p rfl
  have hNodup : (hs ++ pooled p).Nodup := hw.nodup
  have hHs := perm_eraseIdx hObj
  have hOwned : (hs ++ pooled p).Perm (obj :: (hs.eraseIdx i ++ pooled p)) := hHs.append_right _
  obtain ⟨hObjNot, -⟩ := List.nodup_cons.mp (hOwned.nodup_iff.mp hNodup)
  have hRest : ∀ a ∈ hs.eraseIdx i, a ∈ hs ∧ a ≠ obj := fun a ha =>
    ⟨hHs.mem_iff.mpr (List.mem_cons_of_mem _ ha), fun he => hObjNot (List.mem_append_left _ (he ▸ ha))⟩
  obtain ⟨⟨t, live⟩, hc, hl, hFound⟩ := hp.tracked obj (List.getElem?_mem hObj)
  have hLive : live = true := hw.live obj _ hc
  subst hLive
  obtain ⟨sub, hSub⟩ := Option.isSome_iff_exists.mp hFound
  rw [ObjectPool.release_tracked hl hSub]
  set p₁ : ObjectPool := { p with lifetimeMap := p.lifetimeMap.erase obj }
  have hSub₁ : p₁.findSubPool t = some sub := hSub
  have hFind₂ := ObjectPool.findSubPool_setSubPool p₁ (by rw [hSub₁]; rfl)
  have hKeys₂ := fun sub' => (ObjectPool.keys_setSubPool p₁ t sub').symm ▸ hp.keys_nodup
  have hTracked : ∀ sub' : SubPool, ∀ a ∈ hs.eraseIdx i, ∃ c, h.cells.find a = some c ∧
      (p₁.setSubPool t sub').lifetimeMap.find a = some (some c.type) ∧
      ((p₁.setSubPool t sub').findSubPool c.type).isSome := fun sub' a ha => by
    obtain ⟨haHs, hne⟩ := hRest a ha
    obtain ⟨c, hc', hl', hs'⟩ := hp.tracked a haHs
    refine ⟨c, hc', by simpa [ObjectPool.setSubPool, p₁, hne] using hl', ?_⟩
    rw [hFind₂]
    split_ifs
    · rfl
    · exact hs'
  have hLifetime : ∀ a ∈ p₁.lifetimeMap, a ∈ hs.eraseIdx i := fun a ha => by
    obtain ⟨hne, ha⟩ := (HashMap.mem_erase _ _ _).mp ha
    exact (List.mem_cons.mp (hHs.mem_iff.mp (hp.lifetime a ha))).resolve_left hne
  unfold SubPool.release
  split_ifs with hRoom
  · -- kept: the object joins its subpool
    have hPooled : (pooled (p₁.setSubPool t { sub with pool := sub.pool ++ [obj] })).Perm
        (pooled p ++ [obj]) := by
      have hSet := ObjectPool.pooled_setSubPool p₁ hp.keys_nodup hSub₁
        { sub with pool := sub.pool ++ [obj] }
      refine List.perm_iff_count.mpr fun a => ?_
      have := List.perm_iff_count.mp hSet a
      simp only [List.count_append] at this ⊢
      exact Nat.add_right_cancel (this.trans (by simp only [p₁, pooled]; omega))
    have hOwned' : (hs.eraseIdx i ++ pooled (p₁.setSubPool t { sub with pool := sub.pool ++ [obj] })).Perm
        (hs ++ pooled p) :=
      ((hPooled.append_left _).trans (by
        rw [← List.append_assoc]; exact List.perm_append_singleton _ _)).trans hOwned.symm
    refine owned_of_pool (hOwned'.nodup_iff.mpr hNodup) (fun b => (hw.allocated b).trans
        hOwned'.mem_iff.symm) hw.fresh hw.live hw.faults
      ⟨hKeys₂ _, hTracked _, hLifetime, fun u sub' hu a ha => ?_⟩
    rw [hFind₂] at hu
    split_ifs at hu with hut
    · cases hu
      rcases List.mem_append.mp ha with ha | ha
      · exact hut ▸ hp.typed t sub hSub a ha
      · rw [List.mem_singleton.mp ha, hut]
        exact ⟨_, hc, rfl⟩
    · exact hp.typed u sub' hu a ha
  · -- full: the object deleted
    exact hw.forget hHs (hKeys₂ sub) (fun u => by
        rw [hFind₂]
        split_ifs with hut
        · rw [hut, hSub]
        · rfl)
      ((List.perm_append_right_iff _).mp (ObjectPool.pooled_setSubPool p₁ hp.keys_nodup hSub₁ sub))
      (fun b hb => HashMap.find_erase_ne _ hb) hLifetime (Heap.find_delete hc) (Heap.next_delete h obj)
      (fun f hf => Or.inl (by rwa [Heap.faults_delete_live hc] at hf))

/- Once the pool is gone, the program holds every object. -/
@[simp]
theorem World.owned_orphan : World.owned ⟨none, h, hs⟩ = hs :=
  List.append_nil hs

/- A world whose pool is gone is owned when its parts are. -/
theorem owned_of_orphan (hNodup : hs.Nodup) (hAlloc : ∀ a, (h.cells.find a).isSome ↔ a ∈ hs)
    (hFresh : ∀ a, (h.cells.find a).isSome → a < h.next)
    (hLive : ∀ a c, h.cells.find a = some c → c.live = true)
    (hFaults : ∀ f ∈ h.faults, ∃ a, f = .destroyedTwice a) : Owned ⟨none, h, hs⟩ :=
  ⟨by rw [World.owned_orphan]; exact hNodup, fun a => by rw [World.owned_orphan]; exact hAlloc a,
    hFresh, hLive, hFaults, fun _ hp => nomatch hp⟩

/- The deleter of a handle once the pool is gone: a plain delete. -/
theorem Owned.deleteOrphan {i obj : Nat} (hw : Owned ⟨none, h, hs⟩) (hObj : hs[i]? = some obj) :
    Owned ⟨none, h.delete obj, hs.eraseIdx i⟩ := by
  have hHs := perm_eraseIdx hObj
  have hOwned : World.owned ⟨none, h, hs⟩ = hs := World.owned_orphan
  have hAlloc : ∀ a, (h.cells.find a).isSome ↔ a ∈ hs := hOwned ▸ hw.allocated
  obtain ⟨hObjNot, hNodupRest⟩ := List.nodup_cons.mp (hHs.nodup_iff.mp (hOwned ▸ hw.nodup))
  obtain ⟨t, hc⟩ := hw.find_live (by rw [hOwned]; exact List.getElem?_mem hObj)
  have hFind := Heap.find_delete hc
  refine owned_of_orphan hNodupRest (fun b => ?_) (fun b hb => ?_) (fun b c hb => ?_)
    (by rw [Heap.faults_delete_live hc]; exact hw.faults)
  · rw [hFind]
    split_ifs with hb
    · subst hb
      simpa using hObjNot
    · rw [hAlloc, hHs.mem_iff, List.mem_cons, or_iff_right hb]
  · rw [hFind] at hb
    split_ifs at hb
    · simp at hb
    · exact Heap.next_delete h obj ▸ hw.fresh b hb
  · rw [hFind] at hb
    split_ifs at hb
    exact hw.live b c hb

/- The deleter of a handle the program drops, with the pool alive or gone. -/
theorem Owned.drop {w : World} {i obj : Nat} (hw : Owned w) (hObj : w.handles[i]? = some obj) :
    Owned (w.deleter obj (w.handles.eraseIdx i)) := by
  obtain ⟨_ | p, h, hs⟩ := w
  · exact hw.deleteOrphan hObj
  · exact hw.release hObj

/- A new limit moves no object: only the subpools' limits change. -/
theorem PoolOwns.setGlobalMaxPoolSize (hp : PoolOwns p h hs) (ms : Nat) :
    PoolOwns (p.setGlobalMaxPoolSize ms) h hs := by
  have hFind := ObjectPool.findSubPool_setGlobalMaxPoolSize p ms
  refine ⟨by simpa [ObjectPool.setGlobalMaxPoolSize, Function.comp_def] using hp.keys_nodup,
    fun a ha => ?_, hp.lifetime, fun t sub hSub a ha => ?_⟩
  · obtain ⟨c, hc, hl, hFound⟩ := hp.tracked a ha
    exact ⟨c, hc, hl, by simpa [hFind] using hFound⟩
  · rw [hFind] at hSub
    obtain ⟨sub₀, hSub₀, rfl⟩ := Option.map_eq_some'.mp hSub
    exact hp.typed t sub₀ hSub₀ a ha

theorem Owned.setGlobalMaxPoolSize (hw : Owned ⟨some p, h, hs⟩) (ms : Nat) :
    Owned ⟨some (p.setGlobalMaxPoolSize ms), h, hs⟩ := by
  have hPooled := ObjectPool.pooled_setGlobalMaxPoolSize p ms
  exact owned_of_pool (hPooled ▸ hw.nodup) (hPooled ▸ hw.allocated) hw.fresh hw.live hw.faults
    ((hw.pool p rfl).setGlobalMaxPoolSize ms)

/-
  ~ObjectPool deletes exactly what the subpools hold, each object
  once and alive, so the cells left are the program's objects.
-/
theorem Owned.destroy_spec (hw : Owned ⟨some p, h, hs⟩) (b : Nat) :
    (p.destroy h).cells.find b = (if b ∈ pooled p then none else h.cells.find b) ∧
      (p.destroy h).faults = h.faults ∧ (p.destroy h).next = h.next := by
  rw [ObjectPool.destroy_eq]
  exact Heap.find_foldl_delete _ ((hw.nodup : (hs ++ pooled p).Nodup).sublist
    (List.sublist_append_right _ _)) h (fun a ha => hw.find_live (List.mem_append_right _ ha)) b

theorem Owned.dropPool (hw : Owned ⟨some p, h, hs⟩) : Owned ⟨none, p.destroy h, hs⟩ := by
  have hNodup : (hs ++ pooled p).Nodup := hw.nodup
  have hFind := hw.destroy_spec
  refine owned_of_orphan (hNodup.sublist (List.sublist_append_left _ _)) (fun b => ?_)
    (fun b hb => ?_) (fun b c hb => ?_) (by rw [(hFind 0).2.1]; exact hw.faults)
  · rw [(hFind b).1]
    split_ifs with hb
    · exact ⟨by simp, fun hbs => (List.disjoint_of_nodup_append hNodup hbs hb).elim⟩
    · exact (hw.allocated b).trans (by simp [World.owned, hb])
  · rw [(hFind b).1] at hb
    rw [(hFind b).2.2]
    split_ifs at hb
    · simp at hb
    · exact hw.fresh b hb
  · rw [(hFind b).1] at hb
    split_ifs at hb
    exact hw.live b c hb

/- Every step of the program keeps the invariant. -/
theorem Owned.step {w w' : World} {input : Input} {out : Option Nat} (hw : Owned w)
    (hStep : w.step input = some (out, w')) : Owned w' := by
  obtain ⟨pool, h, hs⟩ := w
  cases input with
  | drop i =>
    cases hObj : hs[i]? with
    | none => simp [World.step, hObj] at hStep
    | some obj =>
      simp only [World.step, hObj, Option.map_some', Option.some.injEq, Prod.mk.injEq] at hStep
      obtain ⟨-, rfl⟩ := hStep
      exact hw.drop hObj
  | _ =>
    cases pool with
    | none => cases hStep
    | some p =>
      obtain ⟨-, rfl⟩ := Prod.mk.inj (Option.some.inj hStep)
      first
      | exact hw.create _ _
      | exact hw.setGlobalMaxPoolSize _
      | exact hw.dropPool

/- What every allowed step keeps, every run of allowed steps keeps. -/
theorem World.run_induction (P : World → Prop) (allowed : Input → Prop)
    (hStep : ∀ w w' input out, P w → allowed input → w.step input = some (out, w') → P w')
    {w w' : World} {inputs : List Input} {outs : List (Option Nat)} (hP : P w)
    (hAllowed : ∀ input ∈ inputs, allowed input) (hRun : w.run inputs = some (outs, w')) : P w' := by
  induction inputs generalizing w outs with
  | nil =>
    cases hRun
    exact hP
  | cons input inputs ih =>
    cases hStep₁ : w.step input with
    | none => simp [World.run, hStep₁] at hRun
    | some r =>
      obtain ⟨out, w₁⟩ := r
      simp only [World.run, hStep₁, Option.map_eq_some'] at hRun
      obtain ⟨⟨outs₁, w₂⟩, hRun₁, he⟩ := hRun
      cases he
      exact ih (hStep w w₁ input out hP (hAllowed input (List.mem_cons_self _ _)) hStep₁)
        (fun i hi => hAllowed i (List.mem_cons_of_mem _ hi)) hRun₁

/- And so every run keeps the invariant. -/
theorem Owned.run {w w' : World} {inputs : List Input} {outs : List (Option Nat)} (hw : Owned w)
    (hRun : w.run inputs = some (outs, w')) : Owned w' :=
  World.run_induction Owned (fun _ => True) (fun _ _ _ _ hw _ hStep => hw.step hStep) hw
    (fun _ _ => trivial) hRun

end Operations

end ObjectPooling

end Vex
