import Vex.Expirator.Store

/-
  The object pool (`object_pool/object_pool.h`).

  `ObjectPool` keeps, per type, a `SubPool` of constructed objects
  to hand out again, and a lifetime map from each object it handed
  out to the subpool the object returns to.  `create<T>` reuses
  the last object of `T`'s subpool, destroying it and constructing
  anew in its storage, or allocates a new one.  The `shared_ptr`
  it returns carries a deleter: while the pool lives, the deleter
  gives the object to `release`, which keeps it if its subpool
  holds fewer than `max_pool_size_` objects and deletes it
  otherwise.  Once the pool is gone the deleter deletes the object
  itself.

  The model runs one call at a time: every member takes its mutex.
  The storage the objects live in is part of the state: a `Heap`
  maps each allocated address to the type it was allocated for and
  whether an object lives there, and records the undefined
  behaviour met.  `new` allocates at the first address never used.
  Types are numbered (`std::type_index`), a handle is the address
  its `shared_ptr` holds, and a constructor either succeeds or
  throws.  The metrics the pool increments and the clock reading
  `LifetimeInfo` stores are left out: the pool never reads them.

  Key definitions include:
    * `Heap`, `SubPool`, `ObjectPool`
    * `ObjectPool.create`, `ObjectPool.release`,
      `ObjectPool.setGlobalMaxPoolSize`, `ObjectPool.available`
    * `World`, `World.step`, `World.run`
-/

------------------------------------------------------------
-- The Free Store
------------------------------------------------------------

namespace Vex

namespace ObjectPooling

open Expirator (HashMap)

/- `std::type_index`: the types, numbered. -/
abbrev TypeId := Nat

/- The storage at an address: the type it was allocated for, and whether an object lives in it. -/
structure Cell where
  type : TypeId
  live : Bool
deriving DecidableEq, Repr

/- Undefined behaviour a call of the pool meets. -/
inductive Fault where
  /- `~T` on storage whose object is already destroyed. -/
  | destroyedTwice (addr : Nat)
  /- `release` of an object the lifetime map does not hold. -/
  | unknownPointer (addr : Nat)
  /- `release` of an object whose `LifetimeInfo` has no subpool. -/
  | subpoolLost (addr : Nat)
deriving DecidableEq, Repr

/- The free store: the allocated cells, the first address never used, and the faults met. -/
structure Heap where
  cells : HashMap Nat Cell
  next : Nat
  faults : List Fault

namespace Heap

/- A fault met. -/
def fault (h : Heap) (f : Fault) : Heap :=
  { h with faults := h.faults ++ [f] }

/- `new T(...)` whose constructor returns: a new cell holding an object of type `t`. -/
def alloc (h : Heap) (t : TypeId) : Heap :=
  { h with cells := h.cells.insert h.next ⟨t, true⟩, next := h.next + 1 }

/- `p->~T()`: undefined where no object lives at `p`. -/
def destroy (h : Heap) (a : Nat) : Heap :=
  match h.cells.find a with
  | some ⟨t, true⟩ => { h with cells := h.cells.insert a ⟨t, false⟩ }
  | _ => h.fault (.destroyedTwice a)

/- `::new (p) T(...)` whose constructor returns. -/
def construct (h : Heap) (a : Nat) : Heap :=
  match h.cells.find a with
  | some c => { h with cells := h.cells.insert a { c with live := true } }
  | none => h

/- `::operator delete(p)`: the storage freed, no destructor run. -/
def free (h : Heap) (a : Nat) : Heap :=
  { h with cells := h.cells.erase a }

/- `delete p`. -/
def delete (h : Heap) (a : Nat) : Heap :=
  (h.destroy a).free a

end Heap

------------------------------------------------------------
-- Subpools
------------------------------------------------------------

/- `SubPool<T>`: the objects of `pool`, `pool.back()` last, and `max_pool_size_`. -/
structure SubPool where
  pool : List Nat
  maxPoolSize : Nat
deriving DecidableEq, Repr

namespace SubPool

/- `SubPool<T>::release`: the object kept if the subpool has room, deleted otherwise. -/
def release (sub : SubPool) (h : Heap) (obj : Nat) : SubPool × Heap :=
  if sub.pool.length < sub.maxPoolSize then ({ sub with pool := sub.pool ++ [obj] }, h)
  else (sub, h.delete obj)

/- `in_pool_size`. -/
def inPoolSize (sub : SubPool) : Nat :=
  sub.pool.length

/- `set_max_size`. -/
def setMaxSize (sub : SubPool) (s : Nat) : SubPool :=
  { sub with maxPoolSize := s }

end SubPool

------------------------------------------------------------
-- The Pool
------------------------------------------------------------

/-
  `ObjectPool`'s members: `global_max_pool_size_`, `pools_` (one
  entry per type), and of each `LifetimeInfo` of `lifetime_map_`
  the subpool it points to, named by its type (`none` for
  `nullptr`).
-/
structure ObjectPool where
  globalMaxPoolSize : Nat
  pools : List (TypeId × SubPool)
  lifetimeMap : HashMap Nat (Option TypeId)

namespace ObjectPool

/- `ObjectPool()`. -/
def init : ObjectPool :=
  ⟨1000, [], ∅⟩

/- `pools_.find(idx)`. -/
def findSubPool (p : ObjectPool) (t : TypeId) : Option SubPool :=
  p.pools.lookup t

/- A subpool updated through the pointer `pools_` holds to it. -/
def setSubPool (p : ObjectPool) (t : TypeId) (sub : SubPool) : ObjectPool :=
  { p with pools := p.pools.map fun e => if e.1 = t then (t, sub) else e }

/- `getOrCreateSubPool<T>`: a new subpool takes `global_max_pool_size_`. -/
def getOrCreateSubPool (p : ObjectPool) (t : TypeId) : ObjectPool × SubPool :=
  match p.findSubPool t with
  | some sub => (p, sub)
  | none => ({ p with pools := p.pools ++ [(t, ⟨[], p.globalMaxPoolSize⟩)] }, ⟨[], p.globalMaxPoolSize⟩)

/- `set_global_max_pool_size`: every subpool's limit too. -/
def setGlobalMaxPoolSize (p : ObjectPool) (ms : Nat) : ObjectPool :=
  { p with globalMaxPoolSize := ms, pools := p.pools.map fun e => (e.1, e.2.setMaxSize ms) }

/- `available`. -/
def available (p : ObjectPool) : Nat :=
  p.pools.foldl (fun total e => total + e.2.inPoolSize) 0

/- `lifetime_map_[raw] = info`, its subpool the one of type `t`. -/
def track (p : ObjectPool) (raw : Nat) (t : TypeId) : ObjectPool :=
  { p with lifetimeMap := p.lifetimeMap.insert raw (some t) }

/-
  `create<T>` for the type `t`: the address of the object the
  returned `shared_ptr` holds, or `none` where the constructor
  threw.  A reused object is destroyed before it is constructed
  again, and deleted if that constructor throws.
-/
def create (p : ObjectPool) (h : Heap) (t : TypeId) (ctorOk : Bool) :
    Option Nat × ObjectPool × Heap :=
  let (p, sub) := p.getOrCreateSubPool t
  match sub.pool.getLast? with
  | some raw =>
    let p := p.setSubPool t { sub with pool := sub.pool.dropLast }
    let h := h.destroy raw
    if ctorOk then (some raw, p.track raw t, h.construct raw) else (none, p, h.delete raw)
  | none => if ctorOk then (some h.next, p.track h.next t, h.alloc t) else (none, p, h)

/-
  `release`, called from a deleter: the object's lifetime entry
  erased, and the object handed to its subpool.  A subpool is
  never erased while the pool lives, so the one an entry names is
  always found.
-/
def release (p : ObjectPool) (h : Heap) (obj : Nat) : ObjectPool × Heap :=
  match p.lifetimeMap.find obj with
  | none => (p, (h.fault (.unknownPointer obj)).free obj)
  | some none => ({ p with lifetimeMap := p.lifetimeMap.erase obj }, (h.fault (.subpoolLost obj)).free obj)
  | some (some t) =>
    let p := { p with lifetimeMap := p.lifetimeMap.erase obj }
    match p.findSubPool t with
    | some sub =>
      let (sub, h) := sub.release h obj
      (p.setSubPool t sub, h)
    | none => (p, h)

/- `~ObjectPool`: the `unique_ptr`s of every subpool delete the objects it holds. -/
def destroy (p : ObjectPool) (h : Heap) : Heap :=
  p.pools.foldl (fun h e => e.2.pool.foldl Heap.delete h) h

end ObjectPool

------------------------------------------------------------
-- A Program Using a Pool
------------------------------------------------------------

/-
  A program with one pool made by `std::make_shared<ObjectPool>()`:
  the pool while a `shared_ptr` to it lives, the free store, and
  the objects the program holds, one per `shared_ptr` `create`
  returned (its copies count once).
-/
structure World where
  pool : Option ObjectPool
  heap : Heap
  handles : List Nat

/- What the program does next. -/
inductive Input where
  | create (type : TypeId) (ctorOk : Bool)
  /- The last copy of the `handle`-th `shared_ptr` goes, and its deleter runs. -/
  | drop (handle : Nat)
  | setGlobalMaxPoolSize (size : Nat)
  /- The last `shared_ptr` to the pool goes. -/
  | dropPool
deriving DecidableEq, Repr

namespace World

/- A new pool, and nothing allocated. -/
def init : World :=
  ⟨some ObjectPool.init, ⟨∅, 0, []⟩, []⟩

/- The deleter `create` gives each `shared_ptr`: `weak_pool.lock()`, then `release` or `delete`. -/
def deleter (w : World) (obj : Nat) (handles : List Nat) : World :=
  match w.pool with
  | some p =>
    let (p, h) := p.release w.heap obj
    ⟨some p, h, handles⟩
  | none => ⟨none, w.heap.delete obj, handles⟩

/-
  One step of the program; a `create` returns what it returned.
  `none` where the program cannot make the call: no pool left, or
  no such `shared_ptr`.
-/
def step (w : World) : Input → Option (Option Nat × World)
  | .create t ctorOk => w.pool.map fun p =>
    let (r, p, h) := p.create w.heap t ctorOk
    (r, ⟨some p, h, w.handles ++ r.toList⟩)
  | .drop i => w.handles[i]?.map fun obj => (none, w.deleter obj (w.handles.eraseIdx i))
  | .setGlobalMaxPoolSize ms => w.pool.map fun p =>
    (none, { w with pool := some (p.setGlobalMaxPoolSize ms) })
  | .dropPool => w.pool.map fun p => (none, ⟨none, p.destroy w.heap, w.handles⟩)

/- A run of steps, with what each returned. -/
def run (w : World) : List Input → Option (List (Option Nat) × World)
  | [] => some ([], w)
  | input :: inputs =>
    match w.step input with
    | none => none
    | some (out, w') => (w'.run inputs).map fun r => (out :: r.1, r.2)

end World

end ObjectPooling

end Vex
