import Mathlib.Algebra.Group.Nat.Basic
import Mathlib.Data.List.GetD

/-
  The length-prefixed string codecs of `common/serialization.hpp`:
  `detail::u8_octet_str<MAXLEN>` and `detail::u16_octet_str`.  No
  PDU uses them.

  Their decoders read a `std::span<const uint8_t>` in place, and
  `u16_octet_str` reads bytes past its end.  So a span here is its
  bytes together with the memory that follows them.  The leftover
  count is `size_t` arithmetic, which wraps modulo `2 ^ 64`, and
  `span::last(count)` with `count > size()` breaks its precondition:
  undefined behaviour, after which nothing is known.  A decoder
  returns `none` there, and else the string with the span that is
  left, or the text of its `std::length_error`.

  Key definitions include:
    * `Span`, `Span.get`, `Span.slice`, `Span.last`, `sizeSub`
    * `u8OctetStrSerialize`, `u8OctetStrDeserialize`
    * `u16OctetStrSerialize`, `u16OctetStrDeserialize`

  Key theorems include:
    * `u8OctetStrDeserialize_cons`
    * `u16OctetStrDeserialize_of_le`
    * `u16OctetStrDeserialize_of_length_eq_succ`
    * `octet_str_lengths_wrap_and_u16_reads_past_span`
-/

namespace Vex

namespace Networking

------------------------------------------------------------
-- Spans
------------------------------------------------------------

/- `a - b` on `size_t`, which wraps modulo `2 ^ 64`. -/
def sizeSub (a b : Nat) : Nat :=
  (a + 2 ^ 64 - b) % 2 ^ 64

/- A subtraction that does not wrap. -/
theorem sizeSub_of_le {a b : Nat} (hLe : b ≤ a) (hLt : a < 2 ^ 64) : sizeSub a b = a - b := by
  rw [sizeSub, show a + 2 ^ 64 - b = a - b + 2 ^ 64 by omega, Nat.add_mod_right,
    Nat.mod_eq_of_lt (by omega)]

/- A subtraction one past zero wraps to the largest `size_t`. -/
theorem sizeSub_succ (a : Nat) : sizeSub a (a + 1) = 2 ^ 64 - 1 := by
  rw [sizeSub, show a + 2 ^ 64 - (a + 1) = 2 ^ 64 - 1 by omega, Nat.mod_eq_of_lt (by omega)]

/- A `std::span<const uint8_t>`: its bytes, and the memory right after its end. -/
structure Span where
  bytes : List UInt8
  past : Nat → UInt8

namespace Span

/- `(*buf)[i]`, which is the memory after the end once `i` passes it. -/
def get (b : Span) (i : Nat) : UInt8 :=
  b.bytes.getD i (b.past (i - b.bytes.length))

/- `std::string{buf->begin() + i, buf->begin() + j}`. -/
def slice (b : Span) (i j : Nat) : List UInt8 :=
  (List.range' i (j - i)).map b.get

/-
  `buf->last(count)`: its last `count` bytes, a span that ends where
  `b` does; a `count` past the size is undefined behaviour.
-/
def last (b : Span) (count : Nat) : Option Span :=
  if count ≤ b.bytes.length then some ⟨b.bytes.drop (b.bytes.length - count), b.past⟩ else none

theorem get_of_lt {b : Span} {i : Nat} (h : i < b.bytes.length) :
    b.get i = b.bytes[i] :=
  List.getD_eq_getElem _ _ h

theorem get_length (b : Span) : b.get b.bytes.length = b.past 0 := by
  rw [get, List.getD_eq_default _ _ (Nat.le_refl _), Nat.sub_self]

/- A slice inside the span is a piece of its bytes. -/
theorem slice_of_le {b : Span} {i j : Nat} (h : j ≤ b.bytes.length) :
    b.slice i j = (b.bytes.drop i).take (j - i) := by
  apply List.ext_getElem
  · simp [slice]
    omega
  · intro k hk _
    simp only [slice, List.length_map, List.length_range'] at hk
    simp only [slice, List.getElem_map, List.getElem_range', Nat.one_mul, List.getElem_take,
      List.getElem_drop]
    exact get_of_lt (by omega)

/- A slice one byte longer than the span ends with the first byte past it. -/
theorem slice_length_succ {b : Span} {i : Nat} (h : i ≤ b.bytes.length) :
    b.slice i (b.bytes.length + 1) = b.bytes.drop i ++ [b.past 0] := by
  have hSplit : b.bytes.length + 1 - i = (b.bytes.length - i) + 1 := by omega
  rw [slice, hSplit, List.range'_concat, List.map_append, ← slice, slice_of_le (Nat.le_refl _),
    List.take_of_length_le (by simp)]
  simp [Nat.add_sub_cancel' h, get_length]

/- The last `count` bytes of a span that has them. -/
theorem last_of_le {b : Span} {count : Nat} (h : count ≤ b.bytes.length) :
    b.last count = some ⟨b.bytes.drop (b.bytes.length - count), b.past⟩ :=
  if_pos h

/- `last` with the largest `size_t` on a span that fits in memory. -/
theorem last_max {b : Span} (h : b.bytes.length < 2 ^ 64 - 1) : b.last (2 ^ 64 - 1) = none :=
  if_neg (by omega)

end Span

/- A decoder's result, with the span it leaves seen as its bytes. -/
def readBack (r : Option (Except String (List UInt8 × Span))) :
    Option (Except String (List UInt8 × List UInt8)) :=
  r.map (Except.map fun x => (x.1, x.2.bytes))

private theorem toNat_ofNat_u8 (x : Nat) : (UInt8.ofNat x).toNat = x % 2 ^ 8 :=
  rfl

------------------------------------------------------------
-- The u8 Codec
------------------------------------------------------------

/- `u8_octet_str<MAXLEN>::serialize_to`: `static_cast<uint8_t>(val.size())`, then the bytes. -/
def u8OctetStrSerialize
    (maxLen : Nat)
    (name : String)
    (val : List UInt8) : Except String (List UInt8) :=
  if val.length > maxLen then
    .error ("octet_str exceed its limit, field_name:" ++ name)
  else .ok (UInt8.ofNat val.length :: val)

/- `u8_octet_str<MAXLEN>::deserialize`; `none` is undefined behaviour. -/
def u8OctetStrDeserialize
    (maxLen : Nat)
    (name : String)
    (buf : Span) : Option (Except String (List UInt8 × Span)) :=
  if buf.bytes.isEmpty then
    some (.error ("buf size should be at least 1, field_name:" ++ name))
  else
    let length := (buf.get 0).toNat
    if buf.bytes.length ≤ length then
      some (.error ("octet_str buf is smaller than its length field, field_name:" ++ name))
    else
      let str := buf.slice 1 (length + 1)
      if str.length > maxLen then
        some (.error ("octet_str exceed its limit, field_name:" ++ name))
      else (buf.last (sizeSub (sizeSub buf.bytes.length str.length) 1)).map fun rest => .ok (str, rest)

/-
  The decoder on a span that holds a length byte: it reads no byte
  past the span, and its leftover count never wraps.
-/
theorem u8OctetStrDeserialize_cons
    (maxLen : Nat)
    (name : String)
    (b : UInt8)
    (rest : List UInt8)
    (past : Nat → UInt8)
    (hFits : rest.length + 1 < 2 ^ 64) :
    u8OctetStrDeserialize maxLen name ⟨b :: rest, past⟩ =
      if rest.length < b.toNat then
        some (.error ("octet_str buf is smaller than its length field, field_name:" ++ name))
      else if maxLen < b.toNat then
        some (.error ("octet_str exceed its limit, field_name:" ++ name))
      else some (.ok (rest.take b.toNat, ⟨rest.drop b.toNat, past⟩)) := by
  have hHead : (Span.get ⟨b :: rest, past⟩ 0) = b := rfl
  simp only [u8OctetStrDeserialize, List.isEmpty_cons, hHead, List.length_cons,
    Bool.false_eq_true, if_false]
  by_cases hShort : rest.length < b.toNat
  · simp [hShort, Nat.succ_le_of_lt hShort]
  · have hSlice : Span.slice ⟨b :: rest, past⟩ 1 (b.toNat + 1) = rest.take b.toNat := by
      rw [Span.slice_of_le (by simp; omega)]
      simp
    have hCount : sizeSub (sizeSub (rest.length + 1) b.toNat) 1 = rest.length - b.toNat := by
      rw [sizeSub_of_le (a := rest.length + 1) (b := b.toNat) (by omega) hFits,
        sizeSub_of_le (a := rest.length + 1 - b.toNat) (b := 1) (by omega) (by omega)]
      omega
    simp only [hShort, hSlice, List.length_take, Nat.min_eq_left (Nat.not_lt.mp hShort),
      show ¬rest.length + 1 ≤ b.toNat by omega, if_false, hCount]
    split_ifs
    · rfl
    · rw [Span.last_of_le (by simp; omega)]
      simp [show rest.length + 1 - (rest.length - b.toNat) = b.toNat + 1 by omega]

/- What decoding reads back of an accepted string: its length byte keeps the size modulo `2 ^ 8`. -/
theorem u8OctetStrDeserialize_serialize_mod
    {maxLen : Nat}
    {name : String}
    {s w : List UInt8}
    (r : List UInt8)
    (past : Nat → UInt8)
    (hSer : u8OctetStrSerialize maxLen name s = .ok w)
    (hFits : (w ++ r).length < 2 ^ 64) :
    readBack (u8OctetStrDeserialize maxLen name ⟨w ++ r, past⟩) =
      some (.ok (s.take (s.length % 2 ^ 8), s.drop (s.length % 2 ^ 8) ++ r)) := by
  simp only [u8OctetStrSerialize] at hSer
  split_ifs at hSer with hLen
  cases hSer
  have hMod : s.length % 2 ^ 8 ≤ s.length := Nat.mod_le _ _
  rw [List.cons_append, u8OctetStrDeserialize_cons _ _ _ _ _ (by simpa using hFits), toNat_ofNat_u8,
    if_neg (by simp; omega), if_neg (by omega)]
  simp only [readBack, Option.map_some', Except.map, List.take_append_of_le_length hMod,
    List.drop_append_of_le_length hMod]

------------------------------------------------------------
-- The u16 Codec
------------------------------------------------------------

/- `deserialize_u16`: `b[0] << 8 | b[1]`. -/
def readU16 (b0 b1 : UInt8) : Nat :=
  b0.toNat * 2 ^ 8 + b1.toNat

/-
  `u16_octet_str::serialize_to`: `static_cast<uint16_t>(val.size())`
  as two bytes, then the bytes.  Each byte is `(v >> k) & 0xFF`, which
  `UInt8.ofNat` truncates to.  It never throws, and it does not read
  its `[[maybe_unused]]` name.
-/
def u16OctetStrSerialize (val : List UInt8) : List UInt8 :=
  let v := val.length % 2 ^ 16
  UInt8.ofNat (v / 2 ^ 8) :: UInt8.ofNat v :: val

/-
  `u16_octet_str::deserialize`; `none` is undefined behaviour.
  `buf->subspan<0, 2>()` reads the two first bytes whatever the
  size, the string is read before any check that it fits, and the
  leftover count wraps when it does not.
-/
def u16OctetStrDeserialize
    (name : String)
    (buf : Span) : Option (Except String (List UInt8 × Span)) :=
  if buf.bytes.isEmpty then
    some (.error ("buf size should be at least 1, field_name:" ++ name))
  else
    let length := readU16 (buf.get 0) (buf.get 1)
    if buf.bytes.length ≤ length then
      some (.error ("u16_octet_str buf " ++ toString buf.bytes.length ++
        " is smaller than it\x27s length field " ++ toString length ++ " , field_name: " ++ name))
    else
      let str := buf.slice 2 (length + 2)
      (buf.last (sizeSub (sizeSub buf.bytes.length str.length) 2)).map fun rest => .ok (str, rest)

/- With the declared length inside the span, the decoder reads a piece of it. -/
theorem u16OctetStrDeserialize_of_le
    (name : String)
    {b0 b1 : UInt8}
    {rest : List UInt8}
    (past : Nat → UInt8)
    (hLen : readU16 b0 b1 ≤ rest.length)
    (hFits : rest.length + 2 < 2 ^ 64) :
    u16OctetStrDeserialize name ⟨b0 :: b1 :: rest, past⟩ =
      some (.ok (rest.take (readU16 b0 b1), ⟨rest.drop (readU16 b0 b1), past⟩)) := by
  have hSlice : Span.slice ⟨b0 :: b1 :: rest, past⟩ 2 (readU16 b0 b1 + 2) =
      rest.take (readU16 b0 b1) := by
    rw [Span.slice_of_le (by simp; omega)]
    simp
  have hCount : sizeSub (sizeSub (rest.length + 1 + 1) (readU16 b0 b1)) 2 =
      rest.length - readU16 b0 b1 := by
    rw [sizeSub_of_le (a := rest.length + 1 + 1) (b := readU16 b0 b1) (by omega) (by omega),
      sizeSub_of_le (a := rest.length + 1 + 1 - readU16 b0 b1) (b := 2) (by omega) (by omega)]
    omega
  simp only [u16OctetStrDeserialize, List.isEmpty_cons, Bool.false_eq_true, if_false,
    show Span.get ⟨b0 :: b1 :: rest, past⟩ 0 = b0 from rfl,
    show Span.get ⟨b0 :: b1 :: rest, past⟩ 1 = b1 from rfl, hSlice, List.length_cons,
    List.length_take, Nat.min_eq_left hLen, if_neg (show ¬rest.length + 1 + 1 ≤ readU16 b0 b1 by omega),
    hCount]
  rw [Span.last_of_le (by simp; omega)]
  simp [show rest.length + 1 + 1 - (rest.length - readU16 b0 b1) = readU16 b0 b1 + 2 by omega]

/-
  A span one byte shorter than its prefix and declared length: the
  decoder does not throw; it reads the first byte past the span into
  the string, and the leftover count wraps to the largest `size_t`,
  which `last` may not take.
-/
theorem u16OctetStrDeserialize_of_length_eq_succ
    (name : String)
    {b0 b1 : UInt8}
    {rest : List UInt8}
    (past : Nat → UInt8)
    (hLen : rest.length + 1 = readU16 b0 b1)
    (hFits : rest.length + 2 < 2 ^ 64 - 1) :
    Span.slice ⟨b0 :: b1 :: rest, past⟩ 2 (readU16 b0 b1 + 2) = rest ++ [past 0] ∧
      u16OctetStrDeserialize name ⟨b0 :: b1 :: rest, past⟩ = none := by
  have hSlice : Span.slice ⟨b0 :: b1 :: rest, past⟩ 2 (readU16 b0 b1 + 2) = rest ++ [past 0] := by
    have h := Span.slice_length_succ (b := ⟨b0 :: b1 :: rest, past⟩) (i := 2) (by simp)
    simp only [List.length_cons] at h
    rw [← hLen, show rest.length + 1 + 2 = rest.length + 1 + 1 + 1 by omega, h]
    rfl
  have hCount : sizeSub (sizeSub (b0 :: b1 :: rest).length (rest ++ [past 0]).length) 2 =
      2 ^ 64 - 1 := by
    simp only [List.length_cons, List.length_append, List.length_nil, Nat.zero_add]
    rw [sizeSub_of_le (a := rest.length + 1 + 1) (b := rest.length + 1) (by omega) (by omega),
      show rest.length + 1 + 1 - (rest.length + 1) = 1 by omega]
    exact sizeSub_succ 1
  refine ⟨hSlice, ?_⟩
  simp only [u16OctetStrDeserialize, List.isEmpty_cons, Bool.false_eq_true, if_false,
    show Span.get ⟨b0 :: b1 :: rest, past⟩ 0 = b0 from rfl,
    show Span.get ⟨b0 :: b1 :: rest, past⟩ 1 = b1 from rfl, hSlice]
  rw [if_neg (show ¬(b0 :: b1 :: rest).length ≤ readU16 b0 b1 by simp; omega), hCount,
    Span.last_max (by simp; omega)]
  rfl

/-
  A one-byte span never decodes: `subspan<0, 2>` takes the byte past
  it as the low length byte; a non-zero length throws, and a zero one
  leaves a count that wraps.
-/
theorem u16OctetStrDeserialize_singleton
    (name : String)
    (b : UInt8)
    (past : Nat → UInt8) :
    (∀ x, u16OctetStrDeserialize name ⟨[b], past⟩ ≠ some (.ok x)) ∧
      ((u16OctetStrDeserialize name ⟨[b], past⟩).isNone = (b == 0 && past 0 == 0)) := by
  have hZero : readU16 b (past 0) = 0 ↔ b = 0 ∧ past 0 = 0 := by
    constructor
    · intro h
      simp only [readU16] at h
      exact ⟨UInt8.toNat.inj (by simp; omega), UInt8.toNat.inj (by simp; omega)⟩
    · rintro ⟨rfl, h⟩
      simp [readU16, h]
  simp only [u16OctetStrDeserialize, List.isEmpty_cons, Bool.false_eq_true, if_false,
    show Span.get ⟨[b], past⟩ 0 = b from rfl, show Span.get ⟨[b], past⟩ 1 = past 0 from rfl,
    List.length_singleton]
  split_ifs with hShort
  · have hNot : ¬(b = 0 ∧ past 0 = 0) := fun h => by rw [← hZero] at h; omega
    refine ⟨fun x h => (by cases h), ?_⟩
    simpa using hNot
  · have hBoth := hZero.mp (by omega)
    have hSlice : Span.slice ⟨[b], past⟩ 2 (readU16 b (past 0) + 2) = [] := by
      rw [hZero.mpr hBoth]
      rfl
    have hCount : sizeSub (sizeSub 1 0) 2 = 2 ^ 64 - 1 := by
      rw [sizeSub_of_le (a := 1) (b := 0) (by omega) (by omega)]
      exact sizeSub_succ 1
    have hNone : Span.last ⟨[b], past⟩ (sizeSub (sizeSub 1 0) 2) = none := by
      rw [hCount]
      exact Span.last_max (by simp)
    simp only [hSlice, List.length_nil, hNone, Option.map_none']
    simp [hBoth]

/- What decoding reads back of any string: its prefix keeps the size modulo `2 ^ 16`. -/
theorem u16OctetStrDeserialize_serialize_mod
    (name : String)
    (s r : List UInt8)
    (past : Nat → UInt8)
    (hFits : (u16OctetStrSerialize s ++ r).length < 2 ^ 64) :
    readBack (u16OctetStrDeserialize name ⟨u16OctetStrSerialize s ++ r, past⟩) =
      some (.ok (s.take (s.length % 2 ^ 16), s.drop (s.length % 2 ^ 16) ++ r)) := by
  have hPrefix : readU16 (UInt8.ofNat (s.length % 2 ^ 16 / 2 ^ 8)) (UInt8.ofNat (s.length % 2 ^ 16)) =
      s.length % 2 ^ 16 := by
    simp only [readU16, toNat_ofNat_u8]
    omega
  have hMod : s.length % 2 ^ 16 ≤ s.length := Nat.mod_le _ _
  simp only [u16OctetStrSerialize, List.cons_append, List.length_cons, List.length_append]
    at hFits ⊢
  rw [u16OctetStrDeserialize_of_le name past (by rw [hPrefix]; simp; omega) (by simp; omega),
    hPrefix]
  simp only [readBack, Option.map_some', Except.map, List.take_append_of_le_length hMod,
    List.drop_append_of_le_length hMod]

------------------------------------------------------------
-- Against the Round-Trip Law
------------------------------------------------------------

/-
  `u8_octet_str` reads only its span and throws exactly when the span
  is shorter than its length byte and declared length, but both codecs
  keep a string's size only modulo the width of their prefix.
  `u16_octet_str` on a span one byte short of its declared length
  reads the byte past it and then calls `last` with a wrapped count,
  and a one-byte span never decodes.
-/
theorem octet_str_lengths_wrap_and_u16_reads_past_span :
    (∀ maxLen name past, u8OctetStrDeserialize maxLen name ⟨[], past⟩ =
      some (.error ("buf size should be at least 1, field_name:" ++ name))) ∧
    (∀ maxLen name (b : UInt8) (rest : List UInt8) past, rest.length + 1 < 2 ^ 64 →
      u8OctetStrDeserialize maxLen name ⟨b :: rest, past⟩ =
        if rest.length < b.toNat then
          some (.error ("octet_str buf is smaller than its length field, field_name:" ++ name))
        else if maxLen < b.toNat then
          some (.error ("octet_str exceed its limit, field_name:" ++ name))
        else some (.ok (rest.take b.toNat, ⟨rest.drop b.toNat, past⟩))) ∧
    (∀ maxLen name (s w r : List UInt8) past, u8OctetStrSerialize maxLen name s = .ok w →
      (w ++ r).length < 2 ^ 64 →
      readBack (u8OctetStrDeserialize maxLen name ⟨w ++ r, past⟩) =
        some (.ok (s.take (s.length % 2 ^ 8), s.drop (s.length % 2 ^ 8) ++ r))) ∧
    (∀ name (s r : List UInt8) past, (u16OctetStrSerialize s ++ r).length < 2 ^ 64 →
      readBack (u16OctetStrDeserialize name ⟨u16OctetStrSerialize s ++ r, past⟩) =
        some (.ok (s.take (s.length % 2 ^ 16), s.drop (s.length % 2 ^ 16) ++ r))) ∧
    (∀ name (b0 b1 : UInt8) (rest : List UInt8) past, rest.length + 1 = readU16 b0 b1 →
      rest.length + 2 < 2 ^ 64 - 1 →
      Span.slice ⟨b0 :: b1 :: rest, past⟩ 2 (readU16 b0 b1 + 2) = rest ++ [past 0] ∧
        u16OctetStrDeserialize name ⟨b0 :: b1 :: rest, past⟩ = none) ∧
    (∀ name b past,
      (∀ x, u16OctetStrDeserialize name ⟨[b], past⟩ ≠ some (.ok x)) ∧
        ((u16OctetStrDeserialize name ⟨[b], past⟩).isNone = (b == 0 && past 0 == 0))) :=
  ⟨fun _ _ _ => rfl,
    fun maxLen name b rest past hFits => u8OctetStrDeserialize_cons maxLen name b rest past hFits,
    fun _ _ _ _ r past hSer hFits => u8OctetStrDeserialize_serialize_mod r past hSer hFits,
    u16OctetStrDeserialize_serialize_mod,
    fun name _ _ _ past hLen hFits => u16OctetStrDeserialize_of_length_eq_succ name past hLen hFits,
    u16OctetStrDeserialize_singleton⟩

/-
  A 256-byte string that `u8_octet_str<256>` accepts reads back empty,
  and on the two bytes `0, 1` the u16 decoder reads the byte past them
  and reaches undefined behaviour.
-/
theorem octet_str_round_trip_failures :
    readBack (u8OctetStrDeserialize 256 "text"
        ⟨UInt8.ofNat 256 :: List.replicate 256 7, fun _ => 0⟩) =
      some (.ok ([], List.replicate 256 7)) ∧
    Span.slice ⟨[0, 1], fun _ => 7⟩ 2 (readU16 0 1 + 2) = [7] ∧
    u16OctetStrDeserialize "text" ⟨[0, 1], fun _ => 7⟩ = none := by
  obtain ⟨-, -, hU8, -, hU16, -⟩ := octet_str_lengths_wrap_and_u16_reads_past_span
  have hWrap := hU8 256 "text" (List.replicate 256 7) (UInt8.ofNat 256 :: List.replicate 256 7)
    [] (fun _ => 0) (by rw [u8OctetStrSerialize, List.length_replicate, if_neg (by decide)])
    (by rw [List.append_nil, List.length_cons, List.length_replicate]; omega)
  rw [List.append_nil, List.length_replicate, List.append_nil, show 256 % 2 ^ 8 = 0 from rfl,
    List.take_zero, List.drop_zero] at hWrap
  exact ⟨hWrap, hU16 "text" 0 1 [] (fun _ => 7) rfl (by decide)⟩

end Networking

end Vex
