import ImageCartridge.Proofs.Block.Codec
import ImageCartridge.Proofs.Crc32
import Mathlib.Data.List.Basic

/-! What a checksum is good for. A damaged block that was still accepted would be the
encoding of another block, so it is enough to compare two encodings of one size. -/
namespace ImageCartridge

def flipBit (bytes : Bytes) (place : Nat) (bit : Fin 8) : Bytes :=
  bytes.modify place (· ^^^ (1 <<< UInt8.ofNat bit))

/-- A flipped bit makes another byte of the one it is in, and leaves the others. -/
theorem flipBit_eq_set {bytes : Bytes} {place : Nat} (h : place < bytes.length) (bit : Fin 8) :
    ∃ byte, byte ≠ bytes[place] ∧ flipBit bytes place bit = bytes.set place byte := by
  have hMask : ∀ bit : Fin 8, (1 : UInt8) <<< UInt8.ofNat bit ≠ 0 := by decide
  refine ⟨bytes[place] ^^^ (1 <<< UInt8.ofNat bit), ?_, List.modify_eq_set_get _ h⟩
  intro hSame
  exact hMask bit ((UInt8.xor_right_inj _).mp (hSame.trans UInt8.xor_zero.symm))

@[simp] theorem length_flipBit (bytes : Bytes) (place : Nat) (bit : Fin 8) :
    (flipBit bytes place bit).length = bytes.length :=
  List.length_modify _ _ _

/-- Damage stays where it is when bytes are put before it, as long as its place is counted from
there. -/
theorem flipBit_append_right (front back : Bytes) (place : Nat) (bit : Fin 8) :
    flipBit (front ++ back) (front.length + place) bit = front ++ flipBit back place bit := by
  induction front with
  | nil => simp
  | cons b front ih =>
      rw [flipBit] at ih
      rw [List.cons_append, flipBit, List.length_cons, Nat.add_right_comm, List.modify_succ_cons,
        ih]
      rfl

/-- Bytes behind the damage are left alone. -/
theorem flipBit_append_left {front : Bytes} (back : Bytes) {place : Nat}
    (h : place < front.length) (bit : Fin 8) :
    flipBit (front ++ back) place bit = flipBit front place bit ++ back := by
  have hBoth : place < (front ++ back).length := by
    rw [List.length_append]
    omega
  unfold flipBit
  rw [List.modify_eq_set_get _ h, List.modify_eq_set_get _ hBoth, List.set_append_left _ _ h]
  simp [h]

def overwrite (bytes : Bytes) (place : Nat) (window : Bytes) : Bytes :=
  bytes.take place ++ window ++ bytes.drop (place + window.length)

section Overwrite

variable {bytes window : Bytes} {place : Nat}

theorem length_overwrite (h : place + window.length ≤ bytes.length) :
    (overwrite bytes place window).length = bytes.length := by
  simp only [overwrite, List.length_append, List.length_take, List.length_drop]
  omega

theorem overwrite_append_right (front back : Bytes) (place : Nat) (window : Bytes) :
    overwrite (front ++ back) (front.length + place) window =
      front ++ overwrite back place window := by
  simp only [overwrite, Nat.add_assoc, List.take_length_add_append, List.drop_length_add_append,
    List.append_assoc]

theorem overwrite_append_left (back : Bytes) (h : place + window.length ≤ bytes.length) :
    overwrite (bytes ++ back) place window = overwrite bytes place window ++ back := by
  rw [overwrite, List.take_append_of_le_length (Nat.le_of_add_right_le h),
    List.drop_append_of_le_length h, ← List.append_assoc, overwrite]

/-- A window that ends before a join sees nothing of what comes behind. -/
theorem take_drop_append_left (back : Bytes) (h : place + window.length ≤ bytes.length) :
    ((bytes ++ back).drop place).take window.length =
      (bytes.drop place).take window.length := by
  rw [List.drop_append_of_le_length (Nat.le_of_add_right_le h), List.take_append_of_le_length]
  rw [List.length_drop]
  omega

/-- A window of up to four bytes cannot be changed behind the back of the checksum. -/
theorem checksum_overwrite_eq_iff (h : place + window.length ≤ bytes.length)
    (hWindow : window.length ≤ 4) :
    Crc32.checksum (overwrite bytes place window) = Crc32.checksum bytes ↔
      window = (bytes.drop place).take window.length := by
  have hSplit : bytes.take place ++ (bytes.drop place).take window.length
      ++ bytes.drop (place + window.length) = bytes := by
    rw [List.append_assoc, ← List.drop_drop, List.take_append_drop, List.take_append_drop]
  have hLength : window.length = ((bytes.drop place).take window.length).length := by
    rw [List.length_take, List.length_drop]
    omega
  calc Crc32.checksum (overwrite bytes place window) = Crc32.checksum bytes
    _ ↔ Crc32.checksum (bytes.take place ++ window ++ bytes.drop (place + window.length)) =
          Crc32.checksum (bytes.take place ++ (bytes.drop place).take window.length
            ++ bytes.drop (place + window.length)) := by
        rw [hSplit, overwrite]
    _ ↔ window = (bytes.drop place).take window.length :=
        Crc32.checksum_append_append_inj hLength hWindow

end Overwrite

/-- A flag byte says everything about its flags, so damage to it that reads as flags reads as
other ones. -/
theorem BlockFlags.bits_injective : Function.Injective bits := by
  intro a b h
  have hRead := ofBits_bits a
  rw [h, ofBits_bits] at hRead
  exact (Except.ok.inj hRead).symm

namespace Block

theorem getElem?_of_encode {b : Block} {bytes : Bytes} (h : b.encode = .ok bytes) :
    bytes[6]? = some b.flags.bits := by
  obtain ⟨-, rfl⟩ := encode_eq_ok_iff.mp h
  rfl

theorem take_drop_of_encode {b : Block} {bytes : Bytes} (h : b.encode = .ok bytes) :
    (bytes.drop 7).take 4 = BigEndian.encode 4 b.payload.length := by
  obtain ⟨-, rfl⟩ := encode_eq_ok_iff.mp h
  rfl

theorem trailer_of_crc {b : Block} (h : b.flags.crc = true) :
    b.trailer = BigEndian.encode crcLength (Crc32.checksum b.body).toNat := by
  rw [trailer, if_pos h]

/-- Losing the checksum flag and making up for the four bytes of the checksum in the
length field would take two changes. -/
theorem crc_of_encode_set {b other : Block} {bytes : Bytes} (h : b.encode = .ok bytes)
    (hCrc : b.flags.crc = true) {place : Nat} {byte : UInt8}
    (hOther : other.encode = .ok (bytes.set place byte)) : other.flags.crc = true := by
  by_contra hLost
  have hFlags : some other.flags.bits ≠ some b.flags.bits := by
    intro hSame
    rw [BlockFlags.bits_injective (Option.some.inj hSame)] at hLost
    exact hLost hCrc
  have hPlace : place = 6 := by
    by_contra hNe
    rw [← getElem?_of_encode hOther, ← getElem?_of_encode h, List.getElem?_set_ne hNe] at hFlags
    exact hFlags rfl
  have hField : BigEndian.encode 4 other.payload.length = BigEndian.encode 4 b.payload.length := by
    rw [← take_drop_of_encode hOther, ← take_drop_of_encode h, hPlace,
      List.drop_set_of_lt (by decide)]
  have hLength : other.payload.length = b.payload.length :=
    (BigEndian.encode_inj (encode_eq_ok_iff.mp hOther).1 (encode_eq_ok_iff.mp h).1).mp hField
  have hSize : other.encodedLength = b.encodedLength := by
    rw [← length_of_encode hOther, ← length_of_encode h, List.length_set]
  rw [encodedLength, encodedLength, hLength, trailerLength, trailerLength, if_neg hLost,
    if_pos hCrc] at hSize
  simp [crcLength] at hSize

/-- No block with a checksum is one byte away from another block. -/
theorem eq_of_encode_set {b other : Block} {bytes : Bytes} (h : b.encode = .ok bytes)
    (hCrc : b.flags.crc = true) {place : Nat} (hPlace : place < bytes.length) {byte : UInt8}
    (hOther : other.encode = .ok (bytes.set place byte)) : byte = bytes[place] := by
  have hCrcOther := crc_of_encode_set h hCrc hOther
  have hSize : other.encodedLength = b.encodedLength := by
    rw [← length_of_encode hOther, ← length_of_encode h, List.length_set]
  have hBody : other.body.length = b.body.length := by
    simp only [encodedLength, trailerLength, hCrc, hCrcOther] at hSize
    rw [body_length, body_length]
    omega
  obtain ⟨-, rfl⟩ := encode_eq_ok_iff.mp h
  obtain ⟨-, hBytes⟩ := encode_eq_ok_iff.mp hOther
  rcases Nat.lt_or_ge place b.body.length with hFront | hBack
  -- The trailer is the old one, so the checksums of the bodies are equal.
  · rw [List.set_append_left _ _ hFront] at hBytes
    obtain ⟨hBodies, hTrailers⟩ := List.append_inj hBytes (by rw [List.length_set, hBody])
    rw [trailer_of_crc hCrc, trailer_of_crc hCrcOther,
      BigEndian.encode_inj (UInt32.toNat_lt _) (UInt32.toNat_lt _), UInt32.toNat_inj,
      ← hBodies, eq_comm, Crc32.checksum_set_eq_iff hFront] at hTrailers
    rw [hTrailers, List.getElem_append_left hFront]
  -- The body is the old one, and so is its checksum.
  · rw [List.set_append_right _ _ hBack] at hBytes
    obtain ⟨hBodies, hTrailers⟩ := List.append_inj hBytes hBody.symm
    have hSame : b.trailer.set (place - b.body.length) byte = b.trailer := by
      rw [hTrailers, trailer_of_crc hCrcOther, ← hBodies, trailer_of_crc hCrc]
    have hIndex : place - b.body.length < b.trailer.length := by
      rw [List.length_append] at hPlace
      omega
    have hByte : (b.trailer.set (place - b.body.length) byte)[place - b.body.length]?
        = some byte := List.getElem?_set_self hIndex
    rw [hSame, List.getElem?_eq_getElem hIndex] at hByte
    rw [List.getElem_append_right hBack]
    exact (Option.some.inj hByte).symm

/-- A block with a checksum does not survive the change of a byte, wherever it is. -/
theorem exists_decode_set_eq_error {b : Block} {bytes : Bytes} (h : b.encode = .ok bytes)
    (hCrc : b.flags.crc = true) {place : Nat} (hPlace : place < bytes.length) {byte : UInt8}
    (hByte : byte ≠ bytes[place]) : ∃ cause, decode (bytes.set place byte) = .error cause := by
  cases hDecode : decode (bytes.set place byte) with
  | error cause => exact ⟨cause, rfl⟩
  | ok other =>
      exact absurd (eq_of_encode_set h hCrc hPlace (encode_of_decode hDecode).1) hByte

/-- Where the payload of a block is damaged, the body is that of the block with the damaged
payload. -/
theorem overwrite_body (b : Block) {place : Nat} {window : Bytes}
    (h : place + window.length ≤ b.payload.length) :
    overwrite b.body (headLength + place) window =
      body { b with
        kind := .ofByte b.kind.toByte
        payload := overwrite b.payload place window } := by
  have hHead : (magic ++ [b.version, b.kind.toByte, b.flags.bits]
      ++ BigEndian.encode 4 b.payload.length).length = headLength := by
    simp only [List.length_append, BigEndian.encode_length]
    rfl
  rw [body, body, ← hHead, overwrite_append_right, length_overwrite h, BlockKind.toByte_ofByte]

/-- A block with a checksum shows damage. It is refused with any of its bits flipped. With
up to four bytes on end of the payload replaced by others, the cause is the checksum. -/
theorem encode_showsDamage {b : Block} (hCrc : b.flags.crc = true)
    (hLength : b.payload.length < UInt32.size) :
    ∃ bytes, b.encode = .ok bytes ∧
      (∀ place bit, place < bytes.length →
        ∃ cause, decode (flipBit bytes place bit) = .error cause) ∧
      ∀ place window, headLength ≤ place →
        place + window.length ≤ headLength + b.payload.length → window.length ≤ 4 →
        window ≠ (bytes.drop place).take window.length →
        decode (overwrite bytes place window) =
          .error (.crcMismatch (Crc32.checksum b.body)
            (Crc32.checksum (overwrite b.body place window))) := by
  have hEncode : b.encode = .ok (b.body ++ b.trailer) := encode_eq_ok_iff.mpr ⟨hLength, rfl⟩
  refine ⟨_, hEncode, ?_, ?_⟩
  · intro place bit hPlace
    obtain ⟨byte, hByte, hFlip⟩ := flipBit_eq_set hPlace bit
    rw [hFlip]
    exact exists_decode_set_eq_error hEncode hCrc hPlace hByte
  · intro place window hFront hBack hWindow hOther
    obtain ⟨place, rfl⟩ := Nat.exists_eq_add_of_le hFront
    have hPayload : place + window.length ≤ b.payload.length := by omega
    have hInside : headLength + place + window.length ≤ b.body.length := by
      rwa [body_length]
    have hChecksum : Crc32.checksum b.body ≠
        Crc32.checksum (overwrite b.body (headLength + place) window) := by
      rw [ne_comm, ne_eq, checksum_overwrite_eq_iff hInside hWindow]
      rwa [take_drop_append_left _ hInside] at hOther
    rw [overwrite_append_left _ hInside]
    rw [overwrite_body b hPayload] at hChecksum ⊢
    rw [decode_body_append, trailer_of_crc hCrc, verify_encode, if_neg hChecksum, if_pos hCrc]
    · rfl
    · exact BlockKind.ofByte_isCanonical _
    · rwa [length_overwrite hPayload]
    · exact b.trailer_length

/-- A bit of the length field is flipped, and two payload bytes are replaced. The second comes up
as a wrong checksum. -/
theorem encode_showsDamage_strangeBlock :
    strangeBlock.flags.crc = true ∧ strangeBlock.payload.length < UInt32.size ∧
      ∃ bytes, strangeBlock.encode = .ok bytes ∧
        (∃ cause, decode (flipBit bytes 10 2) = .error cause) ∧
        decode (overwrite bytes 12 [7, 7]) =
          .error (.crcMismatch (Crc32.checksum strangeBlock.body)
            (Crc32.checksum (overwrite strangeBlock.body 12 [7, 7]))) := by
  have hLength : strangeBlock.payload.length < UInt32.size := by decide
  obtain ⟨bytes, hEncode, hFlip, hWindow⟩ := encode_showsDamage (b := strangeBlock) rfl hLength
  refine ⟨rfl, hLength, bytes, hEncode, hFlip 10 2 ?_, hWindow 12 [7, 7] ?_ ?_ ?_ ?_⟩
  · rw [length_of_encode hEncode]
    decide
  · decide
  · decide
  · decide
  · obtain ⟨-, rfl⟩ := encode_eq_ok_iff.mp hEncode
    decide

end Block

end ImageCartridge
