import Vex.Networking.Net.FlatBuffer

/-
  `detail::flat_buffer<T, N>` (`net/detail/flat_buffer.hpp`) as the
  code stores it: the array `buf_` and the three pointers `in_`,
  `out_` and `last_`, as offsets into the array.

  The array is a function of the cell index; only the cells below
  `N` are ever read.  `prepare(n)` either moves `last_`, or
  compacts (`memmove` of `[in_, out_)` to the front) and then moves
  it, or throws before touching anything.  The caller fills the
  region `prepare` returns, and `commit(k)` takes at most the
  region.

  `data()` is then an abstract first-in first-out queue of capacity
  `N`, and, over bytes, the buffer `FlatBuffer` of the receive model.

  Main declarations:
    * `FlatArray`, `FlatArray.isValid`, `FlatArray.data`
    * `FlatArray.prepare`, `FlatArray.fill`, `FlatArray.commit`, `FlatArray.consume`
    * `BufferOp`, `FlatArray.run`, `fifoRun`
    * `flat_buffer_is_a_fifo`, `FlatArray.toFlatBuffer_step`
-/

------------------------------------------------------------
-- State
------------------------------------------------------------

namespace Vex

namespace Networking

namespace Net

/- `flat_buffer<T, N>`: the cells of `buf_`, and the offsets of `in_`, `out_` and `last_`. -/
structure FlatArray (T : Type) (N : Nat) where
  buf : Nat → T
  inPos : Nat
  outPos : Nat
  last : Nat

namespace FlatArray

variable {T : Type} {N : Nat}

/- A default-constructed buffer: value-initialized cells, every pointer at the start. -/
def init [Inhabited T] : FlatArray T N :=
  ⟨fun _ => default, 0, 0, 0⟩

/- `is_valid`: every pointer within the array, and `in_ ≤ out_ ≤ last_`. -/
def isValid (a : FlatArray T N) : Bool :=
  a.inPos ≤ N && a.outPos ≤ N && a.last ≤ N && a.inPos ≤ a.outPos && a.outPos ≤ a.last

/- `size()`: the distance from `in_` to `out_`. -/
def size (a : FlatArray T N) : Nat :=
  a.outPos - a.inPos

/- `len` cells of `buf` from index `start` on. -/
def slice
    (buf : Nat → T)
    (start len : Nat) : List T :=
  (List.range len).map fun j => buf (start + j)

/- `data()`: the cells from `in_` to `out_`. -/
def data (a : FlatArray T N) : List T :=
  slice a.buf a.inPos a.size

/- `clear()`. -/
def clear (a : FlatArray T N) : FlatArray T N :=
  { a with inPos := 0, outPos := 0, last := 0 }

/-
  `prepare(n)`: room for `n` cells at `out_` when the end of the
  array has it; else, when the free space as a whole has it, the
  readable cells are moved to the front first; else
  `std::length_error`.
-/
def prepare
    (a : FlatArray T N)
    (n : Nat) : Except String (FlatArray T N) :=
  if n ≤ N - a.outPos then .ok { a with last := a.outPos + n }
  else
    let len := a.size
    if n > N - len then .error "flat_buffer::prepare buffer overflow"
    else
      .ok ⟨fun i => if i < len then a.buf (a.inPos + i) else a.buf i, 0, len, len + n⟩

/- The caller fills the region at `out_` with `w`. -/
def fill
    (a : FlatArray T N)
    (w : List T) : FlatArray T N :=
  { a with
    buf := fun i =>
      if h : a.outPos ≤ i ∧ i - a.outPos < w.length then w.get ⟨i - a.outPos, h.2⟩
      else a.buf i }

/- `commit(k)`: `out_` moves on by at most `last_ - out_`. -/
def commit
    (a : FlatArray T N)
    (k : Nat) : FlatArray T N :=
  { a with outPos := a.outPos + min k (a.last - a.outPos) }

/- `consume(m)`: drop `m` readable cells, resetting `in_` and `out_` when none is left. -/
def consume
    (a : FlatArray T N)
    (m : Nat) : FlatArray T N :=
  if m ≥ a.size then { a with inPos := 0, outPos := 0 }
  else { a with inPos := a.inPos + m }

end FlatArray

------------------------------------------------------------
-- Runs
------------------------------------------------------------

/-
  What a user of the buffer does: a lone `prepare(n)`; a
  `prepare(w.size())` whose region is filled with `w`, then
  `commit(k)`; `consume(m)`; `clear()`.
-/
inductive BufferOp (T : Type) where
  | prepare (n : Nat)
  | write (w : List T) (k : Nat)
  | consume (m : Nat)
  | clear

namespace FlatArray

variable {T : Type} {N : Nat}

/- One operation; a `prepare` that throws leaves the buffer as it was. -/
def step (a : FlatArray T N) : BufferOp T → FlatArray T N
  | .prepare n =>
      match a.prepare n with
      | .ok a' => a'
      | .error _ => a
  | .write w k =>
      match a.prepare w.length with
      | .ok a' => (a'.fill w).commit k
      | .error _ => a
  | .consume m => a.consume m
  | .clear => a.clear

/- The operations in order. -/
def run (a : FlatArray T N) (ops : List (BufferOp T)) : FlatArray T N :=
  ops.foldl step a

end FlatArray

/-
  The queue `data()` should be: a write appends the first `k` of
  its elements when they fit the free space, and a `consume(m)`
  drops the first `m`.
-/
def fifoStep
    {T : Type}
    (N : Nat)
    (q : List T) : BufferOp T → List T
  | .prepare _ => q
  | .write w k => if w.length ≤ N - q.length then q ++ w.take k else q
  | .consume m => q.drop m
  | .clear => []

/- The queue after the operations in order. -/
def fifoRun
    {T : Type}
    (N : Nat)
    (q : List T)
    (ops : List (BufferOp T)) : List T :=
  ops.foldl (fifoStep N) q

------------------------------------------------------------
-- Cells
------------------------------------------------------------

namespace FlatArray

variable {T : Type} {N : Nat}

@[simp]
theorem length_slice
    (buf : Nat → T)
    (start len : Nat) :
    (slice buf start len).length = len := by
  simp [slice]

@[simp]
theorem getElem_slice
    (buf : Nat → T)
    {start len j : Nat}
    (hj : j < (slice buf start len).length) :
    (slice buf start len)[j] = buf (start + j) := by
  simp [slice]

/- Dropping cells from the front of a slice starts it later. -/
theorem slice_drop
    (buf : Nat → T)
    (start len m : Nat) :
    (slice buf start len).drop m = slice buf (start + m) (len - m) := by
  refine List.ext_getElem (by simp) fun j h1 h2 => ?_
  simp only [List.getElem_drop, getElem_slice]
  rw [Nat.add_assoc]

/- Two arrays that agree cell by cell on two slices give the same slice. -/
theorem slice_congr
    {buf buf' : Nat → T}
    {start start' len : Nat}
    (hAgree : ∀ j, j < len → buf' (start' + j) = buf (start + j)) :
    slice buf' start' len = slice buf start len :=
  List.ext_getElem (by simp) fun j h1 _ => by
    simp only [getElem_slice]
    exact hAgree j (by simpa using h1)

/- A slice one longer run of cells is the slice and then the cells after it. -/
theorem slice_append
    (buf : Nat → T)
    (start len len' : Nat) :
    slice buf start (len + len') = slice buf start len ++ slice buf (start + len) len' := by
  refine List.ext_getElem (by simp) fun j h1 _ => ?_
  simp only [length_slice] at h1
  by_cases hj : j < len
  · rw [List.getElem_append_left (by simpa using hj)]
    simp
  · rw [List.getElem_append_right (by simpa using hj)]
    simp only [getElem_slice, length_slice]
    congr 1
    omega

/- The cells a write of `w` fills read as `w`. -/
theorem slice_fill
    (a : FlatArray T N)
    (w : List T)
    {k : Nat}
    (hk : k ≤ w.length) :
    slice (a.fill w).buf a.outPos k = w.take k := by
  refine List.ext_getElem (by simp; omega) fun j h1 h2 => ?_
  simp only [length_slice] at h1
  have hIn : a.outPos ≤ a.outPos + j ∧ a.outPos + j - a.outPos < w.length := ⟨by omega, by omega⟩
  simp only [getElem_slice, fill, dif_pos hIn, List.getElem_take, List.get_eq_getElem]
  congr 1
  omega

------------------------------------------------------------
-- Operations
------------------------------------------------------------

/- `prepare` succeeds exactly when the free space as a whole has room. -/
theorem prepare_error_iff
    {a : FlatArray T N}
    (hValid : a.isValid = true)
    (n : Nat) :
    (∃ what, a.prepare n = .error what) ↔ N - a.size < n := by
  simp only [isValid, Bool.and_eq_true, decide_eq_true_eq] at hValid
  unfold prepare size
  dsimp only
  split_ifs with hEnd hShort
  · exact ⟨fun ⟨_, h⟩ => (nomatch h), fun _ => by omega⟩
  · exact ⟨fun _ => hShort, fun _ => ⟨_, rfl⟩⟩
  · exact ⟨fun ⟨_, h⟩ => (nomatch h), fun h => absurd h hShort⟩

/- The `memmove` of `prepare` puts the readable cells at the front, unchanged. -/
theorem data_compacted
    (a : FlatArray T N)
    (last : Nat) :
    (⟨fun i => if i < a.size then a.buf (a.inPos + i) else a.buf i, 0, a.size, last⟩ :
        FlatArray T N).data = a.data := by
  simp only [data, size, Nat.sub_zero]
  exact slice_congr fun j hj => by simp only [Nat.zero_add, if_pos hj]

/-
  A `prepare` that succeeds keeps the readable cells, offers
  exactly `n` cells from `out_`, and keeps the pointers valid.
-/
theorem prepare_ok
    {a a' : FlatArray T N}
    {n : Nat}
    (hValid : a.isValid = true)
    (hPrepare : a.prepare n = .ok a') :
    a'.data = a.data ∧ a'.last = a'.outPos + n ∧ a'.isValid = true := by
  simp only [isValid, Bool.and_eq_true, decide_eq_true_eq] at hValid
  unfold prepare at hPrepare
  dsimp only at hPrepare
  split_ifs at hPrepare with hEnd hShort <;> cases hPrepare
  · refine ⟨rfl, rfl, ?_⟩
    simp only [isValid, Bool.and_eq_true, decide_eq_true_eq]
    omega
  · refine ⟨data_compacted a _, rfl, ?_⟩
    simp only [size] at hShort
    simp only [isValid, size, Bool.and_eq_true, decide_eq_true_eq]
    omega

/- A write into the offered region and its commit append the committed cells. -/
theorem fill_commit
    {a : FlatArray T N}
    (hValid : a.isValid = true)
    (w : List T)
    {k : Nat}
    (hRegion : a.last = a.outPos + w.length) :
    ((a.fill w).commit k).data = a.data ++ w.take k ∧ ((a.fill w).commit k).isValid = true := by
  simp only [isValid, Bool.and_eq_true, decide_eq_true_eq] at hValid
  have hMin : min k ((a.fill w).last - (a.fill w).outPos) = min k w.length := by
    simp only [fill, hRegion, Nat.add_sub_cancel_left]
  have hTake : w.take (min k w.length) = w.take k := by
    rcases le_total k w.length with h | h
    · rw [Nat.min_eq_left h]
    · rw [Nat.min_eq_right h, List.take_length, List.take_of_length_le h]
  have hSize : ((a.fill w).commit k).size = a.size + min k w.length := by
    simp only [size, commit, hMin, fill]
    omega
  /- The write lies past `out_`, so the readable cells stay. -/
  have hKeep : slice (a.fill w).buf a.inPos a.size = a.data :=
    slice_congr fun j hj => by
      have hOut : ¬ (a.outPos ≤ a.inPos + j ∧ a.inPos + j - a.outPos < w.length) := by
        simp only [size] at hj
        omega
      simp only [fill, dif_neg hOut]
  have hStart : a.inPos + a.size = a.outPos := by
    simp only [size]
    omega
  refine ⟨?_, ?_⟩
  · unfold data
    rw [hSize]
    show slice (a.fill w).buf a.inPos (a.size + min k w.length) = _
    rw [slice_append, hKeep, hStart, slice_fill a w (Nat.min_le_right k w.length), hTake]
    rfl
  · simp only [isValid, commit, fill, hMin, Bool.and_eq_true, decide_eq_true_eq]
    omega

/- `consume(m)` drops the first `m` readable cells, and keeps the pointers valid. -/
theorem consume_data
    {a : FlatArray T N}
    (hValid : a.isValid = true)
    (m : Nat) :
    (a.consume m).data = a.data.drop m ∧ (a.consume m).isValid = true := by
  simp only [isValid, Bool.and_eq_true, decide_eq_true_eq] at hValid
  have hLen : a.data.length = a.size := length_slice _ _ _
  unfold consume
  split_ifs with hAll
  · refine ⟨?_, ?_⟩
    · rw [List.drop_eq_nil_of_le (by omega)]
      simp [data, size, slice]
    · simp only [isValid, Bool.and_eq_true, decide_eq_true_eq]
      omega
  · simp only [size] at hAll
    refine ⟨?_, ?_⟩
    · simp only [data, slice_drop, size]
      congr 1
      omega
    · simp only [isValid, Bool.and_eq_true, decide_eq_true_eq]
      omega

theorem clear_data (a : FlatArray T N) :
    a.clear.data = [] ∧ a.clear.isValid = true := by
  simp [clear, data, size, slice, isValid]

/-
  Each operation keeps the pointers valid and moves `data()` as the
  queue moves.
-/
theorem step_spec
    {a : FlatArray T N}
    (hValid : a.isValid = true)
    (op : BufferOp T) :
    (a.step op).isValid = true ∧ (a.step op).data = fifoStep N a.data op := by
  cases op with
  | prepare n =>
      simp only [step, fifoStep]
      cases hPrepare : a.prepare n with
      | error _ => exact ⟨hValid, rfl⟩
      | ok a' =>
          obtain ⟨hData, -, hValid'⟩ := prepare_ok hValid hPrepare
          exact ⟨hValid', hData⟩
  | write w k =>
      have hLen : a.data.length = a.size := length_slice _ _ _
      simp only [step, fifoStep, hLen]
      cases hPrepare : a.prepare w.length with
      | error what =>
          have hShort := (prepare_error_iff hValid w.length).mp ⟨what, hPrepare⟩
          exact ⟨hValid, by rw [if_neg (by omega)]⟩
      | ok a' =>
          have hFits : w.length ≤ N - a.size :=
            not_lt.mp fun h => by
              obtain ⟨_, hErr⟩ := (prepare_error_iff hValid w.length).mpr h
              rw [hPrepare] at hErr
              cases hErr
          obtain ⟨hData, hRegion, hValid'⟩ := prepare_ok hValid hPrepare
          obtain ⟨hData', hValid''⟩ := fill_commit hValid' w (k := k) hRegion
          exact ⟨hValid'', by rw [hData', hData, if_pos hFits]⟩
  | consume m => exact ⟨(consume_data hValid m).2, (consume_data hValid m).1⟩
  | clear => exact ⟨(clear_data a).2, (clear_data a).1⟩

/- Every run keeps the pointers valid and `data()` equal to the queue. -/
theorem run_spec
    {a : FlatArray T N}
    (hValid : a.isValid = true)
    (ops : List (BufferOp T)) :
    (a.run ops).isValid = true ∧ (a.run ops).data = fifoRun N a.data ops := by
  induction ops generalizing a with
  | nil => exact ⟨hValid, rfl⟩
  | cons op ops ih =>
      obtain ⟨hValid', hData⟩ := step_spec hValid op
      simpa only [run, fifoRun, List.foldl_cons, hData] using ih hValid'

end FlatArray

/-
  Over every sequence of `prepare`, filled-and-committed writes,
  `consume` and `clear` from a new buffer: the pointers stay valid,
  `prepare(n)` throws exactly when `n` exceeds the free space (and
  then changes nothing), and `data()` is the first-in first-out
  queue of the writes' committed elements less the consumed ones.
-/
theorem flat_buffer_is_a_fifo
    {T : Type}
    [Inhabited T]
    (N : Nat)
    (ops : List (BufferOp T)) :
    ((FlatArray.init : FlatArray T N).run ops).isValid = true ∧
      ((FlatArray.init : FlatArray T N).run ops).data = fifoRun N [] ops ∧
      ∀ n, ((∃ what, ((FlatArray.init : FlatArray T N).run ops).prepare n = .error what) ↔
          N - ((FlatArray.init : FlatArray T N).run ops).size < n) ∧
        (N - ((FlatArray.init : FlatArray T N).run ops).size < n →
          ((FlatArray.init : FlatArray T N).run ops).step (.prepare n) =
            (FlatArray.init : FlatArray T N).run ops) := by
  have hInit : (FlatArray.init : FlatArray T N).isValid = true := by
    simp [FlatArray.init, FlatArray.isValid]
  obtain ⟨hValid, hData⟩ := FlatArray.run_spec hInit ops
  refine ⟨hValid, hData, fun n => ⟨FlatArray.prepare_error_iff hValid n, fun hShort => ?_⟩⟩
  obtain ⟨_, hErr⟩ := (FlatArray.prepare_error_iff hValid n).mpr hShort
  simp only [FlatArray.step, hErr]

------------------------------------------------------------
-- The Receive Model's Buffer
------------------------------------------------------------

namespace FlatArray

variable {N : Nat}

/- The byte buffer of the receive model that an array of bytes stands for. -/
def toFlatBuffer (a : FlatArray UInt8 N) : FlatBuffer :=
  ⟨N, a.data, a.outPos, a.last⟩

/-
  Over bytes, each operation of the array is the receive model's
  operation on the buffer it stands for: `prepare`, the socket's
  write of a read into the region and its `commit`, and `consume`.
-/
theorem toFlatBuffer_step
    {a : FlatArray UInt8 N}
    (hValid : a.isValid = true) :
    (∀ n, (a.prepare n).map toFlatBuffer = a.toFlatBuffer.prepare n) ∧
      (∀ w k, (a.step (.write w k)).toFlatBuffer =
        match a.toFlatBuffer.prepare w.length with
        | .ok b => b.commit (w.take k)
        | .error _ => a.toFlatBuffer) ∧
      ∀ m, (a.consume m).toFlatBuffer = a.toFlatBuffer.consume m := by
  have hLen : a.toFlatBuffer.size = a.size := length_slice _ _ _
  have hPrepare : ∀ n, (a.prepare n).map toFlatBuffer = a.toFlatBuffer.prepare n := by
    intro n
    unfold prepare FlatBuffer.prepare
    rw [hLen]
    dsimp only [toFlatBuffer]
    split_ifs with hEnd hShort
    · rfl
    · rfl
    · simp only [Except.map, toFlatBuffer, data_compacted]
  refine ⟨hPrepare, fun w k => ?_, fun m => ?_⟩
  · have hP := hPrepare w.length
    simp only [step]
    cases hA : a.prepare w.length with
    | error _ =>
        rw [hA] at hP
        rw [← hP]
        rfl
    | ok a' =>
        rw [hA] at hP
        rw [← hP]
        obtain ⟨-, hRegion, hValid'⟩ := prepare_ok hValid hA
        obtain ⟨hData, -⟩ := fill_commit hValid' w (k := k) hRegion
        have hRoom : (w.take k).length ≤ a'.last - a'.outPos := by
          simp only [List.length_take, hRegion]
          omega
        simp only [Except.map, toFlatBuffer, FlatBuffer.commit, FlatBuffer.mk.injEq, hData,
          Nat.min_eq_left hRoom, List.take_length, true_and]
        simp only [commit, fill, List.length_take, hRegion, Nat.add_sub_cancel_left, and_true]
  · have hData := (consume_data hValid m).1
    unfold FlatBuffer.consume
    rw [hLen]
    dsimp only [toFlatBuffer]
    split_ifs with hAll
    · unfold consume
      rw [if_pos hAll]
      rfl
    · rw [← hData]
      unfold consume
      rw [if_neg hAll]

end FlatArray

end Net

end Networking

end Vex
