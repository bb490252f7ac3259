import Mathlib.Data.List.AList
import Mathlib.Data.List.Sort

/-
  The abstract store that every expirator implements: a finite
  map from keys to a deadline and a payload, together with the
  operations of the common expirator contract.

  Clock readings (`time_point`) and durations are integers
  counted in the steady clock's ticks; a deadline is the clock
  reading at `add` plus the requested duration.

  Key definitions include:
    * `HashMap`, `HashMap.find`
    * `Entry`, `Store`
    * `Store.add`, `Store.remove`, `Store.reschedule`
    * `Store.retain`
    * `Store.Hands`
    * `Action`, `Output`, `Store.Step`, `Store.Run`
-/

------------------------------------------------------------
-- Hash Maps
------------------------------------------------------------

namespace Vex

namespace Expirator

/-
  An `unordered_map`: an association list without repeated keys,
  whose order carries no meaning.
-/
abbrev HashMap (K W : Type) :=
  AList (fun _ : K => W)

namespace HashMap

variable {K W : Type} [DecidableEq K]

/- `find(k)`, as an optional value. -/
def find (m : HashMap K W) (k : K) : Option W :=
  m.lookup k

/- `m[k] = w`. -/
def insert (m : HashMap K W) (k : K) (w : W) : HashMap K W :=
  AList.insert k w m

/- `erase(k)`. -/
def erase (m : HashMap K W) (k : K) : HashMap K W :=
  AList.erase k m

@[simp] theorem find_empty (k : K) : (∅ : HashMap K W).find k = none :=
  AList.lookup_empty k

@[simp] theorem find_insert
    (m : HashMap K W)
    (k : K)
    (w : W) :
    (m.insert k w).find k = some w :=
  AList.lookup_insert m

@[simp] theorem find_insert_ne
    (m : HashMap K W)
    {k k' : K}
    (w : W)
    (hNe : k' ≠ k) :
    (m.insert k w).find k' = m.find k' :=
  AList.lookup_insert_ne hNe

@[simp] theorem find_erase
    (m : HashMap K W)
    (k : K) :
    (m.erase k).find k = none :=
  AList.lookup_erase k m

@[simp] theorem find_erase_ne
    (m : HashMap K W)
    {k k' : K}
    (hNe : k' ≠ k) :
    (m.erase k).find k' = m.find k' :=
  AList.lookup_erase_ne hNe

@[simp] theorem mem_insert
    (m : HashMap K W)
    (k k' : K)
    (w : W) :
    k' ∈ m.insert k w ↔ k' = k ∨ k' ∈ m :=
  AList.mem_insert m

@[simp] theorem mem_erase
    (m : HashMap K W)
    (k k' : K) :
    k' ∈ m.erase k ↔ k' ≠ k ∧ k' ∈ m :=
  AList.mem_erase

theorem mem_iff_find
    (m : HashMap K W)
    (k : K) :
    k ∈ m ↔ (m.find k).isSome :=
  AList.lookup_isSome.symm

theorem find_eq_some_iff
    (m : HashMap K W)
    (k : K)
    (w : W) :
    m.find k = some w ↔ ⟨k, w⟩ ∈ m.entries :=
  AList.mem_lookup_iff

/- Maps with the same keys have the same size. -/
omit [DecidableEq K] in
theorem length_eq_of_mem_iff
    {W' : Type}
    (m : HashMap K W)
    (m' : HashMap K W')
    (hKeys : ∀ k, k ∈ m ↔ k ∈ m') :
    m.entries.length = m'.entries.length := by
  have hPerm : m.keys.Perm m'.keys :=
    (List.perm_ext_iff_of_nodup m.keys_nodup m'.keys_nodup).mpr
      fun k => by rw [← AList.mem_keys, ← AList.mem_keys, hKeys]
  simpa [AList.keys, List.keys] using hPerm.length_eq

end HashMap

------------------------------------------------------------
-- Entries and Stores
------------------------------------------------------------

/- A live entry of the abstract store. -/
structure Entry (V : Type) where
  deadline : Int
  payload : V
  deriving DecidableEq, Repr

/- The abstract store; stores are compared through `find`. -/
abbrev Store (K V : Type) :=
  HashMap K (Entry V)

namespace Store

variable {K V : Type} [DecidableEq K]

/- `add(k, ttl, v)`: insert when absent, and say whether it did. -/
def add
    (M : Store K V)
    (key : K)
    (deadline : Int)
    (payload : V) : Bool × Store K V :=
  if key ∈ M then (false, M)
  else (true, M.insert key ⟨deadline, payload⟩)

/- `remove(k)`: cancel an entry, and say whether there was one. -/
def remove
    (M : Store K V)
    (key : K) : Bool × Store K V :=
  if key ∈ M then (true, M.erase key) else (false, M)

/-
  Move a present key to a new deadline, keeping its payload;
  `update_expiry` and `refresh` differ only in the deadline.
-/
def reschedule
    (M : Store K V)
    (key : K)
    (deadline : Entry V → Int) : Bool × Store K V :=
  match M.find key with
  | some e => (true, M.insert key { e with deadline := deadline e })
  | none => (false, M)

/- The entries still pending after a firing pass at `now`. -/
def retain
    (M : Store K V)
    (now : Int) : Store K V :=
  ⟨M.entries.filter (fun x => now < x.2.deadline),
    M.nodupKeys.sublist (List.filter_sublist _)⟩

theorem find_retain
    (M : Store K V)
    (now : Int)
    (key : K) :
    (M.retain now).find key =
      (M.find key).filter (fun e => now < e.deadline) := by
  apply Option.ext
  intro e
  rw [Option.mem_filter_iff, Option.mem_def, Option.mem_def,
    HashMap.find_eq_some_iff, HashMap.find_eq_some_iff]
  simp [retain]

/-
  A firing pass hands over `fired`: every entry of `M` that is
  `due`, each exactly once.
-/
structure Hands
    (M : Store K V)
    (due : Entry V → Prop)
    (fired : List (Σ _ : K, Entry V)) : Prop where
  nodup : (fired.map Sigma.fst).Nodup
  mem_iff :
    ∀ key e, ⟨key, e⟩ ∈ fired ↔ M.find key = some e ∧ due e

end Store

------------------------------------------------------------
-- Actions and Runs
------------------------------------------------------------

/-
  What a call of the expirator contract does to the store,
  once the clock has been read.
-/
inductive Action (K V : Type) where
  | add (key : K) (deadline : Int) (payload : V)
  | remove (key : K)
  | reschedule (key : K) (deadline : Entry V → Int)
  | clear
  | expire (now : Int)
  | expireAll

/- What a call answers; a firing pass answers its handler calls. -/
inductive Output (K V : Type) where
  | ack (accepted : Bool)
  | done
  | fired (calls : List (K × V))
  deriving DecidableEq, Repr

namespace Store

variable {K V : Type} [DecidableEq K]

/- The handler calls of a firing pass. -/
def calls
    (fired : List (Σ _ : K, Entry V)) : List (K × V) :=
  fired.map (fun x => (x.1, x.2.payload))

/-
  One action on the abstract store.  A pass at `now` fires the
  due entries in non-decreasing deadline order and keeps the
  rest; `expire_all` fires every entry in any order.
-/
inductive Step :
    Store K V → Action K V → Output K V → Store K V → Prop where
  | add (M : Store K V) (key : K) (deadline : Int) (v : V) :
      Step M (.add key deadline v)
        (.ack (M.add key deadline v).1) (M.add key deadline v).2
  | remove (M : Store K V) (key : K) :
      Step M (.remove key) (.ack (M.remove key).1) (M.remove key).2
  | reschedule (M : Store K V) (key : K) (deadline : Entry V → Int) :
      Step M (.reschedule key deadline)
        (.ack (M.reschedule key deadline).1)
        (M.reschedule key deadline).2
  | clear (M : Store K V) :
      Step M .clear .done ∅
  | expire (M : Store K V) (now : Int)
      (fired : List (Σ _ : K, Entry V))
      (hHands : Hands M (fun e => e.deadline ≤ now) fired)
      (hSorted :
        fired.Sorted (fun a b => a.2.deadline ≤ b.2.deadline)) :
      Step M (.expire now) (.fired (calls fired)) (M.retain now)
  | expireAll (M : Store K V)
      (fired : List (Σ _ : K, Entry V))
      (hHands : Hands M (fun _ => True) fired) :
      Step M .expireAll (.fired (calls fired)) ∅

/- A sequence of actions and the answers it gives. -/
inductive Run :
    Store K V → List (Action K V) → List (Output K V) →
      Store K V → Prop where
  | nil (M : Store K V) : Run M [] [] M
  | cons {M M' M'' : Store K V} {a : Action K V}
      {out : Output K V} {as : List (Action K V)}
      {outs : List (Output K V)} :
      Step M a out M' → Run M' as outs M'' →
        Run M (a :: as) (out :: outs) M''

end Store

end Expirator

end Vex
