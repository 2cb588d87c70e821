import ImageCartridge.Block.Codec
import ImageCartridge.Proofs.Fallible

/-! Framing of one block. The decoder undoes the encoder on every block whose
kind is read back from its own type byte, and the encoder undoes the decoder on
every span that is accepted. -/
namespace ImageCartridge

open Fallible

/-- A flag byte that is accepted has no reserved bit, so it is written back as it was. -/
theorem BlockFlags.bits_of_ofBits {bits : UInt8} {flags : BlockFlags}
    (h : ofBits bits = .ok flags) : flags.bits = bits := by
  have hAll : ∀ n : Fin 256, UInt8.ofFin n &&& 0xFC = 0 →
      BlockFlags.bits ⟨UInt8.ofFin n &&& 1 ≠ 0, UInt8.ofFin n &&& 2 ≠ 0⟩ = UInt8.ofFin n := by
    decide +kernel
  unfold ofBits at h
  split at h
  · next hReserved =>
      cases h
      exact hAll bits.toFin hReserved
  · cases h

namespace Block

theorem body_length (b : Block) : b.body.length = headLength + b.payload.length := by
  simp only [body, magic, headLength, List.length_append, List.length_cons, List.length_nil,
    BigEndian.encode_length]

/-- A body whose length field is right, with a trailer of the size the flags
ask for, is read back as it was, provided that the trailer is accepted. -/
theorem decode_body_append {b : Block} (hKind : b.kind.IsCanonical)
    (hLength : b.payload.length < UInt32.size) {trailer : Bytes}
    (hTrailer : trailer.length = trailerLength b.flags) :
    decode (b.body ++ trailer) =
      (if b.flags.crc then verify b.body trailer else .ok ()).map fun _ => b := by
  obtain ⟨l₀, l₁, l₂, l₃, hField⟩ :
      ∃ l₀ l₁ l₂ l₃, BigEndian.encode 4 b.payload.length = [l₀, l₁, l₂, l₃] := ⟨_, _, _, _, rfl⟩
  have hValue : BigEndian.value [l₀, l₁, l₂, l₃] = b.payload.length := by
    rw [← hField]
    exact BigEndian.value_encode hLength
  have hBytes : b.body ++ trailer =
      0x4A :: 0x43 :: 0x52 :: 0x54 :: b.version :: b.kind.toByte :: b.flags.bits
        :: l₀ :: l₁ :: l₂ :: l₃ :: (b.payload ++ trailer) := by
    simp only [body, hField, magic, List.cons_append, List.nil_append]
  have hSize : (b.body ++ trailer).length
      = headLength + b.payload.length + trailerLength b.flags := by
    rw [List.length_append, body_length, hTrailer]
  have hTake : (b.body ++ trailer).take (headLength + b.payload.length) = b.body := by
    rw [← body_length, List.take_left]
  have hMagic : ([0x4A, 0x43, 0x52, 0x54] : Bytes) = magic := rfl
  have hKind : BlockKind.ofByte b.kind.toByte = b.kind := hKind
  rw [hBytes] at hSize hTake ⊢
  simp only [decode, BlockFlags.ofBits_bits, hValue, hSize, hTake, hMagic, hKind, ne_eq,
    not_true_eq_false, if_false, bind, Except.bind, List.splitAt_eq, List.take_left,
    List.drop_left]
  cases b.flags.crc with
  | false => rfl
  | true => cases verify b.body trailer <;> rfl

/-- A stored checksum passes if it is the computed one, and is reported beside it otherwise. -/
theorem verify_encode (body : Bytes) (stored : UInt32) :
    verify body (BigEndian.encode crcLength stored.toNat) =
      if stored = Crc32.checksum body then .ok ()
      else .error (.crcMismatch stored (Crc32.checksum body)) := by
  have hValue : BigEndian.value (BigEndian.encode crcLength stored.toNat) = stored.toNat :=
    BigEndian.value_encode (UInt32.toNat_lt _)
  simp only [verify, hValue, UInt32.ofNat_toNat]

/-- The trailer the encoder writes is the one the decoder computes. -/
theorem verify_checksum (body : Bytes) :
    verify body (BigEndian.encode crcLength (Crc32.checksum body).toNat) = .ok () := by
  rw [verify_encode, if_pos rfl]

/-- What the encoder appends to the body. -/
def trailer (b : Block) : Bytes :=
  if b.flags.crc then BigEndian.encode crcLength (Crc32.checksum b.body).toNat else []

theorem trailer_length (b : Block) : b.trailer.length = trailerLength b.flags := by
  unfold trailer trailerLength
  split
  · exact BigEndian.encode_length _ _
  · rfl

/-- Encoding succeeds exactly on payloads whose length fits the length field,
and gives the body with its trailer. -/
theorem encode_eq_ok_iff {b : Block} {bytes : Bytes} :
    b.encode = .ok bytes ↔ b.payload.length < UInt32.size ∧ bytes = b.body ++ b.trailer := by
  unfold encode trailer
  constructor
  · intro h
    split at h
    · next hLength =>
        refine ⟨hLength, ?_⟩
        cases h
        split
        · rfl
        · exact (List.append_nil _).symm
    · cases h
  · rintro ⟨hLength, rfl⟩
    rw [if_pos hLength]
    split
    · rfl
    · rw [List.append_nil]

/-- The size that is announced for a block is the size of its encoding. -/
theorem length_of_encode {b : Block} {bytes : Bytes} (h : b.encode = .ok bytes) :
    bytes.length = b.encodedLength := by
  obtain ⟨_, rfl⟩ := encode_eq_ok_iff.mp h
  rw [List.length_append, body_length, trailer_length, encodedLength]

/-- Every encoded block is known by its first bytes. -/
theorem magic_isPrefixOf_of_encode {b : Block} {bytes : Bytes} (h : b.encode = .ok bytes) :
    magic.isPrefixOf bytes = true := by
  obtain ⟨_, rfl⟩ := encode_eq_ok_iff.mp h
  simp only [body, List.append_assoc]
  exact List.isPrefixOf_iff_prefix.mpr (List.prefix_append _ _)

/-- Decoding undoes encoding. -/
theorem decode_of_encode {b : Block} {bytes : Bytes} (hKind : b.kind.IsCanonical)
    (h : b.encode = .ok bytes) : decode bytes = .ok b := by
  obtain ⟨hLength, rfl⟩ := encode_eq_ok_iff.mp h
  rw [decode_body_append hKind hLength b.trailer_length]
  unfold trailer
  split
  · rw [verify_checksum]
    rfl
  · rfl

/-- A trailer that passes is the one the encoder would have written. -/
theorem eq_encode_of_verify {body trailer : Bytes} (h : verify body trailer = .ok ())
    (hLength : trailer.length = crcLength) :
    trailer = BigEndian.encode crcLength (Crc32.checksum body).toNat := by
  have hLess := BigEndian.value_lt trailer
  have hField := BigEndian.encode_value trailer
  unfold verify at h
  dsimp only at h
  split at h
  · next hEq =>
      rw [hLength] at hLess hField
      rw [← hEq, UInt32.toNat_ofNat_of_lt' hLess, hField]
  · cases h

/-- A span is accepted only as the body of the block it gives, with a trailer that
was verified if there is one. -/
theorem eq_append_of_decode {span : Bytes} {b : Block} (h : decode span = .ok b) :
    ∃ trailer, span = b.body ++ trailer ∧ trailer.length = trailerLength b.flags ∧
      b.payload.length < UInt32.size ∧ b.kind.IsCanonical ∧
      (b.flags.crc = true → verify b.body trailer = .ok ()) := by
  unfold decode at h
  split at h
  · next m₀ m₁ m₂ m₃ version kind bits l₀ l₁ l₂ l₃ rest =>
      simp only [List.splitAt_eq] at h
      split at h
      · cases h
      · next hMagic =>
          obtain ⟨flags, hFlags, h⟩ := bind_eq_ok_iff.mp h
          split at h
          · cases h
          · next hSize =>
              have hField := BigEndian.encode_value [l₀, l₁, l₂, l₃]
              have hLess := BigEndian.value_lt [l₀, l₁, l₂, l₃]
              rw [Decidable.not_not] at hMagic hSize
              simp only [List.length_cons, headLength] at hSize
              generalize BigEndian.value [l₀, l₁, l₂, l₃] = length at *
              have hTake : (rest.take length).length = length := by
                rw [List.length_take]
                omega
              have hWord : BigEndian.encode 4 length = [l₀, l₁, l₂, l₃] := hField
              have hSpan : m₀ :: m₁ :: m₂ :: m₃ :: version :: kind :: bits :: l₀ :: l₁ :: l₂ :: l₃
                  :: rest = body ⟨version, .ofByte kind, flags, rest.take length⟩
                    ++ rest.drop length := by
                rw [body, hTake, ← hMagic, hWord, BlockKind.toByte_ofByte,
                  BlockFlags.bits_of_ofBits hFlags]
                simp only [List.cons_append, List.nil_append, List.take_append_drop]
              have hBody : (m₀ :: m₁ :: m₂ :: m₃ :: version :: kind :: bits :: l₀ :: l₁ :: l₂
                  :: l₃ :: rest).take (headLength + length)
                    = body ⟨version, .ofByte kind, flags, rest.take length⟩ := by
                rw [hSpan, List.take_left']
                rw [body_length, hTake]
              rw [hBody] at h
              have hBlock : b = ⟨version, .ofByte kind, flags, rest.take length⟩ ∧
                  (flags.crc = true → verify (body ⟨version, .ofByte kind, flags,
                    rest.take length⟩) (rest.drop length) = .ok ()) := by
                split at h
                · obtain ⟨_, hVerify, h⟩ := bind_eq_ok_iff.mp h
                  cases h
                  exact ⟨rfl, fun _ => hVerify⟩
                · next hCrc =>
                    cases h
                    exact ⟨rfl, fun hSet => absurd hSet hCrc⟩
              obtain ⟨rfl, hVerify⟩ := hBlock
              refine ⟨rest.drop length, hSpan, ?_, ?_, BlockKind.ofByte_isCanonical kind, hVerify⟩
              · change (rest.drop length).length = trailerLength flags
                rw [List.length_drop]
                omega
              · change (rest.take length).length < UInt32.size
                have hCapacity : BigEndian.capacity 4 = UInt32.size := rfl
                rw [hTake, ← hCapacity]
                exact hLess
  · cases h

/-- Encoding undoes decoding, so a block has one encoding and a span one block. -/
theorem encode_of_decode {span : Bytes} {b : Block} (h : decode span = .ok b) :
    b.encode = .ok span ∧ b.kind.IsCanonical := by
  obtain ⟨trailer, rfl, hLength, hPayload, hKind, hVerify⟩ := eq_append_of_decode h
  refine ⟨encode_eq_ok_iff.mpr ⟨hPayload, ?_⟩, hKind⟩
  rw [Block.trailer]
  unfold trailerLength at hLength
  split at hLength
  · next hCrc => rw [if_pos hCrc, ← eq_encode_of_verify (hVerify hCrc) hLength]
  · next hCrc => rw [if_neg hCrc, List.eq_nil_of_length_eq_zero hLength]

/-- The blocks that a span can hold. There is no more to ask of their flags, whose type
has no room for a reserved bit. -/
structure Writable (b : Block) : Prop where
  kind_isCanonical : b.kind.IsCanonical
  length_lt : b.payload.length < UInt32.size

/-- Encoding and decoding are inverse to each other. The blocks that a span can hold are
encoded, to what is decoded to them. All that is accepted is the encoding of such a
block, so no byte of it goes unread and no other span stands for the same block. -/
theorem decode_inverse_encode :
    (∀ b : Block, b.Writable → ∃ span, b.encode = .ok span ∧ decode span = .ok b) ∧
      (∀ span b, decode span = .ok b → b.Writable ∧ b.encode = .ok span) ∧
      (∀ span, (∃ b, decode span = .ok b) ↔ ∃ b : Block, b.Writable ∧ b.encode = .ok span) ∧
      ∀ span other b, decode span = .ok b → decode other = .ok b → span = other := by
  have hEncode : ∀ span b, decode span = .ok b → b.Writable ∧ b.encode = .ok span := by
    intro span b h
    obtain ⟨hSpan, hKind⟩ := encode_of_decode h
    exact ⟨⟨hKind, (encode_eq_ok_iff.mp hSpan).1⟩, hSpan⟩
  refine ⟨?_, hEncode, fun span => ⟨?_, ?_⟩, ?_⟩
  · rintro b ⟨hKind, hLength⟩
    have hSpan : b.encode = .ok (b.body ++ b.trailer) := encode_eq_ok_iff.mpr ⟨hLength, rfl⟩
    exact ⟨_, hSpan, decode_of_encode hKind hSpan⟩
  · rintro ⟨b, h⟩
    exact ⟨b, hEncode span b h⟩
  · rintro ⟨b, hWritable, hSpan⟩
    exact ⟨b, decode_of_encode hWritable.kind_isCanonical hSpan⟩
  · intro span other b hSpan hOther
    have hSame := (hEncode span b hSpan).2.symm.trans (hEncode other b hOther).2
    exact Except.ok.inj hSame

/-- A block of a kind that is not assigned, compressed and with a checksum. -/
def strangeBlock : Block := ⟨9, .unknown 42, ⟨true, true⟩, [1, 2, 3]⟩

/-- Neither an unassigned kind nor the compressed flag stands in the way. -/
theorem decode_inverse_encode_strangeBlock :
    strangeBlock.Writable ∧
      ∃ span, strangeBlock.encode = .ok span ∧ decode span = .ok strangeBlock := by
  have hWritable : strangeBlock.Writable := ⟨rfl, by decide⟩
  exact ⟨hWritable, decode_inverse_encode.1 strangeBlock hWritable⟩

end Block

end ImageCartridge
