import Mathlib.Data.List.Basic

/-
  The compacting receive buffer `detail::flat_buffer<T, N>`
  (`net/detail/flat_buffer.hpp`) over bytes.

  The buffer is a fixed array of `N` bytes with three pointers
  `in_ ≤ out_ ≤ last_`.  The model keeps the readable bytes
  `[in_, out_)` as a list, and `out_` and `last_` as offsets into
  the array; `in_` is `out_` less the readable bytes.  Compaction
  moves the readable bytes to the front, so it changes the offsets
  and keeps the list.

  Key definitions include:
    * `FlatBuffer`, `FlatBuffer.Valid`
    * `FlatBuffer.prepare`, `FlatBuffer.commit`, `FlatBuffer.consume`

  Key theorems include:
    * `FlatBuffer.prepare_ok`, `FlatBuffer.prepare_error`
    * `FlatBuffer.commit_bytes`, `FlatBuffer.consume_bytes`
-/

------------------------------------------------------------
-- State
------------------------------------------------------------

namespace Vex

namespace Networking

namespace Net

/- `flat_buffer`: its capacity `N`, the readable bytes, and the offsets of `out_` and `last_`. -/
structure FlatBuffer where
  capacity : Nat
  bytes : List UInt8
  outPos : Nat
  last : Nat
  deriving DecidableEq, Repr

namespace FlatBuffer

/- A default-constructed buffer: every pointer at the start of the array. -/
def empty (capacity : Nat) : FlatBuffer :=
  ⟨capacity, [], 0, 0⟩

/- `size()`: the distance from `in_` to `out_`. -/
def size (b : FlatBuffer) : Nat :=
  b.bytes.length

/-
  `prepare(n)`: room for `n` bytes at `out_`, after compacting
  when the end of the array is too short; `std::length_error`
  when the free space as a whole is too short.
-/
def prepare
    (b : FlatBuffer)
    (n : Nat) : Except String FlatBuffer :=
  if n ≤ b.capacity - b.outPos then .ok { b with last := b.outPos + n }
  else if n > b.capacity - b.size then .error "flat_buffer::prepare buffer overflow"
  else .ok { b with outPos := b.size, last := b.size + n }

/-
  The socket's write of `data` at `out_`, then `commit` of the
  bytes written: `out_` moves on by at most `last_ - out_`.
-/
def commit
    (b : FlatBuffer)
    (data : List UInt8) : FlatBuffer :=
  let n := min data.length (b.last - b.outPos)
  { b with bytes := b.bytes ++ data.take n, outPos := b.outPos + n }

/- `consume(n)`: drop `n` readable bytes, resetting the pointers when none is left. -/
def consume
    (b : FlatBuffer)
    (n : Nat) : FlatBuffer :=
  if n ≥ b.size then { b with bytes := [], outPos := 0 }
  else { b with bytes := b.bytes.drop n }

/- The pointers stay inside the array and in order, `in_ ≤ out_ ≤ last_ ≤ N`. -/
structure Valid (b : FlatBuffer) : Prop where
  in_le : b.size ≤ b.outPos
  out_le : b.outPos ≤ b.last
  last_le : b.last ≤ b.capacity

theorem valid_empty (capacity : Nat) : (empty capacity).Valid :=
  ⟨Nat.le_refl 0, Nat.le_refl 0, Nat.zero_le _⟩

------------------------------------------------------------
-- Operations
------------------------------------------------------------

variable {b : FlatBuffer}

/-
  `prepare` succeeds exactly when the free space suffices; the
  readable bytes stay, and exactly `n` bytes are offered.
-/
theorem prepare_ok
    (hValid : b.Valid)
    {n : Nat}
    (hRoom : n ≤ b.capacity - b.size) :
    ∃ b', b.prepare n = .ok b' ∧ b'.capacity = b.capacity ∧ b'.bytes = b.bytes ∧
      b'.last - b'.outPos = n ∧ b'.Valid := by
  obtain ⟨hIn, hOut, hLast⟩ := hValid
  unfold prepare
  split_ifs with hEnd hShort
  · exact ⟨_, rfl, rfl, rfl, by simp, ⟨hIn, by simp, by simp; omega⟩⟩
  · omega
  · exact ⟨_, rfl, rfl, rfl, by simp, ⟨le_refl _, by simp, by simp; omega⟩⟩

/- `prepare` throws once the readable bytes leave less than `n` free. -/
theorem prepare_error
    (hValid : b.Valid)
    {n : Nat}
    (hFull : b.capacity - b.size < n) :
    b.prepare n = .error "flat_buffer::prepare buffer overflow" := by
  have hEnd : ¬ n ≤ b.capacity - b.outPos := by
    have := hValid.in_le
    omega
  simp only [prepare, hEnd, if_false, hFull, if_true]

/- A write that fits the offered room is appended whole. -/
theorem commit_bytes
    (data : List UInt8)
    (hFits : data.length ≤ b.last - b.outPos) :
    (b.commit data).bytes = b.bytes ++ data := by
  simp [commit, Nat.min_eq_left hFits]

theorem commit_valid
    (hValid : b.Valid)
    (data : List UInt8) :
    (b.commit data).Valid := by
  have := hValid.in_le
  have := hValid.out_le
  have := hValid.last_le
  refine ⟨?_, ?_, ?_⟩ <;> simp [commit, size] at * <;> omega

@[simp]
theorem commit_capacity (data : List UInt8) : (b.commit data).capacity = b.capacity :=
  rfl

@[simp]
theorem commit_last (data : List UInt8) : (b.commit data).last = b.last :=
  rfl

/- `consume` drops the bytes read, in both of its branches. -/
@[simp]
theorem consume_bytes (n : Nat) : (b.consume n).bytes = b.bytes.drop n := by
  unfold consume
  split_ifs with hAll
  · exact (List.drop_eq_nil_of_le hAll).symm
  · rfl

@[simp]
theorem consume_capacity (n : Nat) : (b.consume n).capacity = b.capacity := by
  unfold consume
  split_ifs <;> rfl

theorem consume_valid
    (hValid : b.Valid)
    (n : Nat) :
    (b.consume n).Valid := by
  have hIn := hValid.in_le
  unfold consume
  split_ifs
  · exact ⟨by simp [size], Nat.zero_le _, hValid.last_le⟩
  · exact ⟨by simp only [size, List.length_drop] at hIn ⊢; omega, hValid.out_le, hValid.last_le⟩

end FlatBuffer

end Net

end Networking

end Vex
