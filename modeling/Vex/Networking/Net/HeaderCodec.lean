import Vex.Networking.Net.Session

/-
  The frame header codec of `basic_session_impl` both ways
  (`serialize_header`, `deserialize_header`,
  `net/session_impl.inl`).

  `serialize_header` writes the length and the sequence number as
  big-endian `uint32_t`s around the command id and the status, and
  `deserialize_header` reads them back for every length from
  `header_length` on.  Every ten bytes either make
  `deserialize_header` throw, exactly when their length field is
  below `header_length`, or read as a header that
  `serialize_header` writes back byte for byte.

  Main declarations:
    * `writeU32_readU32`, `deserializeHeader_ten`
    * `header_codec_round_trips`
-/

------------------------------------------------------------
-- Four Bytes
------------------------------------------------------------

namespace Vex

namespace Networking

namespace Net

/- A byte is the number it is built from, modulo 256. -/
theorem ofNat_eq_of_mod
    {x : Nat}
    {b : UInt8}
    (h : x % 256 = b.toNat) :
    UInt8.ofNat x = b :=
  UInt8.eq_of_val_eq (Fin.ext h)

/- `write_u32` gives back the four bytes `read_u32` read. -/
theorem writeU32_readU32 (b0 b1 b2 b3 : UInt8) :
    writeU32 (readU32 b0 b1 b2 b3) = [b0, b1, b2, b3] := by
  have h0 := UInt8.toNat_lt_size b0
  have h1 := UInt8.toNat_lt_size b1
  have h2 := UInt8.toNat_lt_size b2
  have h3 := UInt8.toNat_lt_size b3
  simp only [UInt8.size] at h0 h1 h2 h3
  simp only [writeU32, readU32, List.cons.injEq, and_true]
  refine ⟨ofNat_eq_of_mod ?_, ofNat_eq_of_mod ?_, ofNat_eq_of_mod ?_, ofNat_eq_of_mod ?_⟩ <;>
    omega

------------------------------------------------------------
-- Both Directions
------------------------------------------------------------

/- `deserialize_header` on ten bytes: only the check of the length field can throw. -/
theorem deserializeHeader_ten (b0 b1 b2 b3 cmdId status s0 s1 s2 s3 : UInt8) :
    deserializeHeader [b0, b1, b2, b3, cmdId, status, s0, s1, s2, s3] =
      if readU32 b0 b1 b2 b3 < headerLength then .error "Invalid command_length"
      else .ok ⟨readU32 b0 b1 b2 b3, cmdId, status, readU32 s0 s1 s2 s3⟩ :=
  rfl

/-
  Every `uint32_t` length from `header_length` on, with any command
  id, sequence number and status, is read back from the header
  written for it.  Ten bytes make `deserialize_header` throw
  exactly when their length field is below `header_length`, and
  otherwise the header read is written back as the same ten bytes.
-/
theorem header_codec_round_trips :
    (∀ (cmdLen : Nat) (cmdId : UInt8) (seqNum : Nat) (status : UInt8),
        headerLength ≤ cmdLen → cmdLen < 2 ^ 32 → seqNum < 2 ^ 32 →
          deserializeHeader (serializeHeader cmdLen cmdId seqNum status) =
            .ok ⟨cmdLen, cmdId, status, seqNum⟩) ∧
      ∀ b0 b1 b2 b3 cmdId status s0 s1 s2 s3 : UInt8,
        ((∃ what, deserializeHeader [b0, b1, b2, b3, cmdId, status, s0, s1, s2, s3] =
              .error what) ↔
            readU32 b0 b1 b2 b3 < headerLength) ∧
          ∀ h, deserializeHeader [b0, b1, b2, b3, cmdId, status, s0, s1, s2, s3] = .ok h →
            serializeHeader h.commandLength h.commandId h.sequenceNumber h.commandStatus =
              [b0, b1, b2, b3, cmdId, status, s0, s1, s2, s3] := by
  refine ⟨fun cmdLen cmdId seqNum status hLen hLen32 hSeq => ?_,
    fun b0 b1 b2 b3 cmdId status s0 s1 s2 s3 => ?_⟩
  · simpa using deserializeHeader_serializeHeader cmdId status [] hLen hLen32 hSeq
  rw [deserializeHeader_ten]
  split_ifs with hShort
  · exact ⟨⟨fun _ => hShort, fun _ => ⟨_, rfl⟩⟩, fun _ hOk => nomatch hOk⟩
  · refine ⟨⟨fun ⟨_, hError⟩ => (nomatch hError), fun h => absurd h hShort⟩, fun h hOk => ?_⟩
    cases hOk
    simp [serializeHeader, writeU32_readU32]

end Net

end Networking

end Vex
