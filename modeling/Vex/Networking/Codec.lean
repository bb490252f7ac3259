import Mathlib.Data.List.Basic

/-
  The wire codec of the networking layer (`common/command_id.hpp`,
  `common/command_status.hpp`, `common/serialization.hpp` and
  `pdu/*.hpp`): command ids, the field codecs the PDUs use, and
  the bodies of the four PDUs.

  A byte buffer is a list of `UInt8`, and a `std::string` is the
  list of its bytes.  A codec that throws returns the text of its
  `std::length_error`.  The `bind_type` member of the bind PDUs is
  not on the wire (their members list only `system_id`), so it is
  left out.

  Key definitions include:
    * `CommandId`, `CommandStatus`
    * `cOctetStrSerialize`, `cOctetStrDeserialize`
    * `Pdu`, `Pdu.serializeTo`, `Pdu.commandIdOf`
    * `deserializeBindRequest`, `deserializeBindResponse`
    * `deserializeStreamRequest`, `deserializeStreamResponse`, `Pdu.deserializeAs`

  Key theorems include:
    * `cOctetStrDeserialize_serialize`
    * `deserializeAs_serializeTo`
    * `system_id_nul_breaks_round_trip`
-/

------------------------------------------------------------
-- Command Ids
------------------------------------------------------------

namespace Vex

namespace Networking

/- The values of `enum class command_id : uint8_t`. -/
namespace CommandId

def bindReq : UInt8 := 0x01
def bindResp : UInt8 := 0x81
def streamReq : UInt8 := 0x02
def streamResp : UInt8 := 0x82
def unbindReq : UInt8 := 0x03
def unbindResp : UInt8 := 0x83
def enquireLinkReq : UInt8 := 0x04
def enquireLinkResp : UInt8 := 0x84

end CommandId

/- The values of `enum class command_status : uint8_t`. -/
namespace CommandStatus

def rok : UInt8 := 0x00
def rfail : UInt8 := 0xFF

end CommandStatus

------------------------------------------------------------
-- Field Codecs
------------------------------------------------------------

/- `c_octet_str<MAXLEN>::serialize_to`: the bytes, then a NUL. -/
def cOctetStrSerialize
    (maxLen : Nat)
    (name : String)
    (val : List UInt8) : Except String (List UInt8) :=
  if val.length ≥ maxLen then
    .error ("c_octet_str exceed its limit, field_name:" ++ name)
  else .ok (val ++ [0])

/-
  `c_octet_str<MAXLEN>::deserialize`: the bytes before the first
  NUL, and what follows the NUL.
-/
def cOctetStrDeserialize
    (maxLen : Nat)
    (name : String)
    (buf : List UInt8) : Except String (List UInt8 × List UInt8) :=
  let str := buf.takeWhile (· ≠ 0)
  if str.length = buf.length then
    .error ("c_octet_str can't find null character, field_name:" ++ name)
  else if str.length ≥ maxLen then
    .error ("c_octet_str exceed its limit, field_name:" ++ name)
  else .ok (str, buf.drop (str.length + 1))

/- A string without a NUL reads back from its serialization. -/
theorem cOctetStrDeserialize_serialize
    (maxLen : Nat)
    (name : String)
    (val rest : List UInt8)
    (hNul : 0 ∉ val)
    (hLen : val.length < maxLen) :
    cOctetStrDeserialize maxLen name (val ++ 0 :: rest) = .ok (val, rest) := by
  have hTake : (val ++ 0 :: rest).takeWhile (· ≠ 0) = val := by
    rw [List.takeWhile_append_of_pos (fun a ha => by simpa using ne_of_mem_of_not_mem ha hNul)]
    simp
  simp only [cOctetStrDeserialize, hTake, List.length_append, List.length_cons]
  rw [if_neg (by omega), if_neg (by omega)]
  simp

------------------------------------------------------------
-- PDUs
------------------------------------------------------------

/- The PDUs of `pdu/`, by the members they put on the wire. -/
inductive Pdu where
  | bindRequest (systemId : List UInt8)
  | bindResponse (systemId : List UInt8)
  | streamRequest (messageBody : List UInt8)
  | streamResponse (messageBody : List UInt8)
  deriving DecidableEq, Repr

namespace Pdu

/- `detail::command_id_of`. -/
def commandIdOf : Pdu → UInt8
  | .bindRequest _ => CommandId.bindReq
  | .bindResponse _ => CommandId.bindResp
  | .streamRequest _ => CommandId.streamReq
  | .streamResponse _ => CommandId.streamResp

/-
  `serialize_to(&vec, pdu)`: the bytes appended for the members,
  `system_id` as a `c_octet_str<20>` and `message_body` as an
  `octet_str`.
-/
def serializeTo : Pdu → Except String (List UInt8)
  | .bindRequest systemId => cOctetStrSerialize 20 "system_id" systemId
  | .bindResponse systemId => cOctetStrSerialize 20 "system_id" systemId
  | .streamRequest messageBody => .ok messageBody
  | .streamResponse messageBody => .ok messageBody

/- A stream PDU is never refused, whatever the length of its body. -/
@[simp]
theorem serializeTo_streamRequest (messageBody : List UInt8) :
    (streamRequest messageBody).serializeTo = .ok messageBody :=
  rfl

end Pdu

/-
  `deserialize<bind_request>(body, bind_type::bi_direction)`: not
  omittable, so the body must hold a `c_octet_str<20>`.
-/
def deserializeBindRequest (body : List UInt8) : Except String Pdu :=
  (cOctetStrDeserialize 20 "system_id" body).map fun r => .bindRequest r.1

/-
  `deserialize<bind_response>(body, bind_type::bi_direction)`: an
  empty body is the default response.
-/
def deserializeBindResponse (body : List UInt8) : Except String Pdu :=
  if body.isEmpty then .ok (.bindResponse [])
  else (cOctetStrDeserialize 20 "system_id" body).map fun r => .bindResponse r.1

/- A bind PDU the sender accepted decodes on the other side. -/
theorem deserializeBindRequest_serialize
    (systemId body : List UInt8)
    (hNul : 0 ∉ systemId)
    (hBody : (Pdu.bindRequest systemId).serializeTo = .ok body) :
    deserializeBindRequest body = .ok (.bindRequest systemId) := by
  simp only [Pdu.serializeTo, cOctetStrSerialize] at hBody
  split_ifs at hBody with hLen
  cases hBody
  simp [deserializeBindRequest,
    cOctetStrDeserialize_serialize 20 _ systemId [] hNul (by omega), Except.map]

------------------------------------------------------------
-- Decoders of the Stream PDUs
------------------------------------------------------------

/- `octet_str::deserialize`: the whole buffer, which it leaves empty. -/
def octetStrDeserialize (buf : List UInt8) : List UInt8 × List UInt8 :=
  if buf.isEmpty then ([], buf) else (buf, [])

/- `deserialize<stream_request>(body)`: not omittable. -/
def deserializeStreamRequest (body : List UInt8) : Pdu :=
  .streamRequest (octetStrDeserialize body).1

/- `deserialize<stream_response>(body)`: an empty body is the default response. -/
def deserializeStreamResponse (body : List UInt8) : Pdu :=
  if body.isEmpty then .streamResponse []
  else .streamResponse (octetStrDeserialize body).1

/-
  `deserialize<P>(body)` for `P` the type of `p`, with
  `bind_type::bi_direction` leading for the bind PDUs, as
  `session_impl` calls it.
-/
def Pdu.deserializeAs : Pdu → List UInt8 → Except String Pdu
  | .bindRequest _, body => deserializeBindRequest body
  | .bindResponse _, body => deserializeBindResponse body
  | .streamRequest _, body => .ok (deserializeStreamRequest body)
  | .streamResponse _, body => .ok (deserializeStreamResponse body)

------------------------------------------------------------
-- Round Trips
------------------------------------------------------------

/- A PDU reads back from its serialization when its `system_id`, if any, holds no NUL. -/
theorem deserializeAs_serializeTo
    {p : Pdu}
    {body : List UInt8}
    (hBody : p.serializeTo = .ok body)
    (hNul : ∀ systemId, p = .bindRequest systemId ∨ p = .bindResponse systemId →
      0 ∉ systemId) :
    p.deserializeAs body = .ok p := by
  cases p with
  | bindRequest systemId =>
      exact deserializeBindRequest_serialize systemId body (hNul _ (.inl rfl)) hBody
  | bindResponse systemId =>
      simp only [Pdu.serializeTo, cOctetStrSerialize] at hBody
      split_ifs at hBody with hLen
      cases hBody
      simp [Pdu.deserializeAs, deserializeBindResponse,
        cOctetStrDeserialize_serialize 20 _ systemId [] (hNul _ (.inr rfl)) (by omega),
        Except.map]
  | streamRequest messageBody =>
      cases hBody
      cases body <;> rfl
  | streamResponse messageBody =>
      cases hBody
      cases body <;> rfl

/- `system_id` "ab" serializes with its NUL and reads back. -/
theorem system_id_ab_round_trips :
    (Pdu.bindRequest [97, 98]).serializeTo = .ok [97, 98, 0] ∧
      (Pdu.bindRequest [97, 98]).deserializeAs [97, 98, 0] = .ok (.bindRequest [97, 98]) :=
  ⟨rfl, deserializeAs_serializeTo rfl fun _ h => by rcases h with h | h <;> cases h; decide⟩

/- A string holding a NUL is longer than its part before the first NUL. -/
theorem length_takeWhile_lt_of_nul
    {val : List UInt8}
    (hNul : 0 ∈ val) :
    (val.takeWhile (· ≠ 0)).length < val.length := by
  refine lt_of_le_of_ne (List.takeWhile_prefix _).length_le fun hEq => ?_
  have hAll := List.takeWhile_eq_self_iff.mp ((List.takeWhile_prefix _).eq_of_length hEq)
  simpa using hAll 0 hNul

/-
  A `system_id` shorter than 20 bytes that holds a NUL: the bind
  PDU serializes, but its decoder stops at the first NUL, returns
  a shorter `system_id` and leaves bytes of the body unread.
-/
theorem system_id_nul_breaks_round_trip
    {systemId : List UInt8}
    (p : Pdu)
    (hBind : p = .bindRequest systemId ∨ p = .bindResponse systemId)
    (hNul : 0 ∈ systemId)
    (hLen : systemId.length < 20) :
    ∃ body, p.serializeTo = .ok body ∧ p.deserializeAs body ≠ .ok p ∧
      ∃ rest, cOctetStrDeserialize 20 "system_id" body =
          .ok (systemId.takeWhile (· ≠ 0), rest) ∧ rest ≠ [] := by
  have hShort := length_takeWhile_lt_of_nul hNul
  have hTake : (systemId ++ [0]).takeWhile (· ≠ 0) = systemId.takeWhile (· ≠ 0) := by
    rw [List.takeWhile_append, if_neg (Nat.ne_of_lt hShort)]
  have hDecode : cOctetStrDeserialize 20 "system_id" (systemId ++ [0]) =
      .ok (systemId.takeWhile (· ≠ 0),
        (systemId ++ [0]).drop ((systemId.takeWhile (· ≠ 0)).length + 1)) := by
    simp only [cOctetStrDeserialize, hTake, List.length_append, List.length_singleton]
    rw [if_neg (by omega), if_neg (by omega)]
  have hSerialize : p.serializeTo = .ok (systemId ++ [0]) := by
    rcases hBind with rfl | rfl <;> simp [Pdu.serializeTo, cOctetStrSerialize, not_le.mpr hLen]
  refine ⟨_, hSerialize, ?_, _, hDecode, ?_⟩
  · rcases hBind with rfl | rfl <;>
      simp [Pdu.deserializeAs, deserializeBindRequest, deserializeBindResponse, hDecode,
        Except.map, hNul]
  · rw [← List.length_pos, List.length_drop, List.length_append, List.length_singleton]
    omega

/- `system_id` "a\0b": it serializes, and reads back as "a". -/
theorem system_id_nul_example :
    (Pdu.bindRequest [97, 0, 98] = .bindRequest [97, 0, 98] ∨
        Pdu.bindRequest [97, 0, 98] = .bindResponse [97, 0, 98]) ∧
      (0 : UInt8) ∈ [97, 0, 98] ∧ [97, 0, 98].length < 20 ∧
      ∃ body, (Pdu.bindRequest [97, 0, 98]).serializeTo = .ok body ∧
        (Pdu.bindRequest [97, 0, 98]).deserializeAs body ≠ .ok (.bindRequest [97, 0, 98]) ∧
        ∃ rest, cOctetStrDeserialize 20 "system_id" body =
            .ok (([97, 0, 98] : List UInt8).takeWhile (· ≠ 0), rest) ∧ rest ≠ [] :=
  ⟨.inl rfl, by decide, by decide,
    system_id_nul_breaks_round_trip _ (.inl rfl) (by decide) (by decide)⟩

end Networking

end Vex
