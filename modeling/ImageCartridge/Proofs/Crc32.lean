import ImageCartridge.Crc32
import Mathlib.Logic.Function.Iterate

/-! How the checksum tells byte strings apart. A shift can be undone, because the
generator has its highest bit set and so shows which bit fell out. Registers that
differ therefore differ for ever, whatever bytes they both take in afterwards. And a
shift is linear, so that as many bytes as the register is wide are taken in as one
word, and two such words that differ leave registers that differ. -/
namespace ImageCartridge.Crc32

theorem and_one_eq_one_iff (register : UInt32) :
    register &&& 1 = 1 ↔ register.toBitVec[0] = true := by
  have hBit : register.toBitVec &&& 1#32 = _ := BitVec.and_one_eq_setWidth_ofBool_getLsbD
  rw [← UInt32.toBitVec_inj, UInt32.toBitVec_and, UInt32.toBitVec_one, hBit,
    BitVec.getLsbD_eq_getElem (by decide)]
  cases register.toBitVec[0] <;> decide

/-- The bit that falls out of the register comes back as its highest bit. -/
theorem getElem_shift (register : UInt32) :
    (shift register).toBitVec[31] = register.toBitVec[0] := by
  have hGenerator : generator.toBitVec[31] = true := by decide
  unfold shift
  split
  · next h => simp [hGenerator, (and_one_eq_one_iff register).mp h]
  · next h =>
      rw [and_one_eq_one_iff, Bool.not_eq_true] at h
      simp [h]

/-- No step of the register loses anything, so the step can be undone. -/
theorem shift_injective : Function.Injective shift := by
  intro a b h
  have hLow : a.toBitVec[0] = b.toBitVec[0] := by
    rw [← getElem_shift, ← getElem_shift, h]
  have hRest : a >>> 1 = b >>> 1 := by
    simp only [shift, and_one_eq_one_iff, hLow] at h
    split at h
    · exact (UInt32.xor_left_inj _).mp h
    · exact h
  apply UInt32.toBitVec_inj.mp
  apply BitVec.eq_of_getLsbD_eq
  intro i hi
  cases i with
  | zero => exact hLow
  | succ i =>
      have hBit := congrArg (fun word => word.toBitVec.getLsbD i) hRest
      simpa [Nat.add_comm 1 i] using hBit

theorem feed_eq_iterate (register : UInt32) (byte : UInt8) :
    feed register byte = shift^[8] (register ^^^ byte.toUInt32) := rfl

/-- Registers that differ go on differing, whatever byte comes. -/
theorem feed_inj_left {byte : UInt8} {a b : UInt32} : feed a byte = feed b byte ↔ a = b := by
  rw [feed_eq_iterate, feed_eq_iterate, (shift_injective.iterate 8).eq_iff, UInt32.xor_left_inj]

/-- Two bytes never have the same effect. -/
theorem feed_inj_right {register : UInt32} {a b : UInt8} :
    feed register a = feed register b ↔ a = b := by
  rw [feed_eq_iterate, feed_eq_iterate, (shift_injective.iterate 8).eq_iff, UInt32.xor_right_inj]
  exact ⟨fun h => by simpa using congrArg UInt32.toUInt8 h, fun h => h ▸ rfl⟩

/-- A difference in the register outlives any number of bytes. -/
theorem foldl_feed_inj {bytes : Bytes} {a b : UInt32} :
    bytes.foldl feed a = bytes.foldl feed b ↔ a = b := by
  induction bytes generalizing a b with
  | nil => rfl
  | cons byte bytes ih => rw [List.foldl_cons, List.foldl_cons, ih, feed_inj_left]

/-- Byte strings that differ in one byte have different checksums. -/
theorem checksum_append_cons_inj {front back : Bytes} {a b : UInt8} :
    checksum (front ++ a :: back) = checksum (front ++ b :: back) ↔ a = b := by
  simp only [checksum, UInt32.xor_left_inj, List.foldl_append, List.foldl_cons, foldl_feed_inj,
    feed_inj_right]

/-- To replace one byte by another always shows. -/
theorem checksum_set_eq_iff {bytes : Bytes} {place : Nat} (h : place < bytes.length)
    {byte : UInt8} : checksum (bytes.set place byte) = checksum bytes ↔ byte = bytes[place] := by
  have hSplit : bytes.take place ++ bytes[place] :: bytes.drop (place + 1) = bytes := by simp
  calc checksum (bytes.set place byte) = checksum bytes
    _ ↔ checksum (bytes.take place ++ byte :: bytes.drop (place + 1))
          = checksum (bytes.take place ++ bytes[place] :: bytes.drop (place + 1)) := by
        rw [hSplit, List.set_eq_take_append_cons_drop, if_pos h]
    _ ↔ byte = bytes[place] := checksum_append_cons_inj

/-- A shift respects exclusive or: where both registers drop a one, the generator cancels. -/
theorem shift_xor (a b : UInt32) : shift (a ^^^ b) = shift a ^^^ shift b := by
  simp only [shift, and_one_eq_one_iff, UInt32.toBitVec_xor, BitVec.getElem_xor,
    UInt32.shiftRight_xor]
  cases a.toBitVec[0] <;> cases b.toBitVec[0]
  · rfl
  · exact UInt32.xor_assoc _ _ _
  · change a >>> 1 ^^^ b >>> 1 ^^^ generator = a >>> 1 ^^^ generator ^^^ b >>> 1
    rw [UInt32.xor_assoc, UInt32.xor_comm (b >>> 1), UInt32.xor_assoc]
  · change a >>> 1 ^^^ b >>> 1 = a >>> 1 ^^^ generator ^^^ (b >>> 1 ^^^ generator)
    rw [UInt32.xor_assoc, UInt32.xor_comm (b >>> 1), ← UInt32.xor_assoc generator,
      UInt32.xor_self, UInt32.zero_xor]

theorem iterate_shift_xor (n : Nat) (a b : UInt32) :
    shift^[n] (a ^^^ b) = shift^[n] a ^^^ shift^[n] b := by
  induction n generalizing a b with
  | zero => rfl
  | succ n ih => simp only [Function.iterate_succ_apply, shift_xor, ih]

/-- No one falls out while there are zeros below. -/
theorem shift_ofNat {n : Nat} (h : 2 * n < UInt32.size) : shift (.ofNat (2 * n)) = .ofNat n := by
  have hLow : ¬ UInt32.ofNat (2 * n) &&& 1 = 1 := by
    rw [← UInt32.toNat_inj, UInt32.toNat_and, UInt32.toNat_ofNat_of_lt' h, UInt32.toNat_one,
      Nat.and_one_is_mod, Nat.mul_mod_right]
    decide
  rw [shift, if_neg hLow, ← UInt32.toNat_inj, UInt32.toNat_shiftRight,
    UInt32.toNat_ofNat_of_lt' h, UInt32.toNat_ofNat_of_lt' (by omega)]
  exact Nat.mul_div_cancel_left n Nat.two_pos

theorem iterate_shift_ofNat {k n : Nat} (h : n <<< k < UInt32.size) :
    shift^[k] (.ofNat (n <<< k)) = .ofNat n := by
  induction k with
  | zero => rfl
  | succ k ih =>
      rw [Nat.shiftLeft_succ] at h ⊢
      rw [Function.iterate_succ_apply, shift_ofNat h, ih (by omega)]

/-- The register that up to four bytes fill, the first of them lowest. -/
def word (bytes : Bytes) : UInt32 :=
  .ofNat (BigEndian.value bytes.reverse)

theorem value_reverse_lt {bytes : Bytes} (h : bytes.length ≤ 4) :
    BigEndian.value bytes.reverse < UInt32.size := by
  calc BigEndian.value bytes.reverse
    _ < BigEndian.capacity bytes.reverse.length := BigEndian.value_lt _
    _ ≤ BigEndian.capacity 4 := BigEndian.capacity_le (by rwa [List.length_reverse])
    _ = UInt32.size := rfl

/-- Up to four bytes can be told from the register they fill. -/
theorem word_inj {a b : Bytes} (h : a.length = b.length) (hLength : a.length ≤ 4) :
    word a = word b ↔ a = b := by
  rw [word, word, ← UInt32.toNat_inj, UInt32.toNat_ofNat_of_lt' (value_reverse_lt hLength),
    UInt32.toNat_ofNat_of_lt' (value_reverse_lt (h ▸ hLength)),
    BigEndian.value_inj (by simpa using h), List.reverse_inj]

/-- To put a byte below a number is to combine bits that do not meet. -/
theorem mul_add_eq_xor (n : Nat) (byte : UInt8) :
    n * 256 + byte.toNat = byte.toNat ^^^ n <<< 8 := by
  have hByte := byte.toNat_lt
  have hLow : (byte.toNat ^^^ n <<< 8) % 256 = byte.toNat := by
    rw [Nat.xor_mod_two_pow (n := 8), Nat.shiftLeft_eq, Nat.mul_mod_left, Nat.xor_zero,
      Nat.mod_eq_of_lt hByte]
  have hHigh : (byte.toNat ^^^ n <<< 8) / 256 = n := by
    rw [Nat.xor_div_two_pow (n := 8), Nat.shiftLeft_eq, Nat.mul_div_cancel _ (by decide),
      Nat.div_eq_of_lt hByte, Nat.zero_xor]
  omega

/-- A further byte in front moves the others up by one place. -/
theorem word_cons (byte : UInt8) (bytes : Bytes) :
    word (byte :: bytes) = byte.toUInt32 ^^^ .ofNat (BigEndian.value bytes.reverse <<< 8) := by
  rw [word, List.reverse_cons, BigEndian.value_concat, ← UInt32.ofNat_uInt8ToNat,
    ← UInt32.ofNat_xor, mul_add_eq_xor]

/-- Up to four bytes can be taken into the register at once, before it is shifted. -/
theorem foldl_feed_eq_iterate {bytes : Bytes} (h : bytes.length ≤ 4) (register : UInt32) :
    bytes.foldl feed register = shift^[8 * bytes.length] (register ^^^ word bytes) := by
  induction bytes generalizing register with
  | nil => exact (UInt32.xor_zero).symm
  | cons byte bytes ih =>
      have hRoom : BigEndian.value bytes.reverse <<< 8 < UInt32.size := by
        calc BigEndian.value bytes.reverse <<< 8
          _ = BigEndian.value bytes.reverse * 256 := Nat.shiftLeft_eq _ _
          _ ≤ BigEndian.value bytes.reverse * 256 + byte.toNat := Nat.le_add_right _ _
          _ = BigEndian.value (byte :: bytes).reverse := by
              rw [List.reverse_cons, BigEndian.value_concat]
          _ < UInt32.size := value_reverse_lt h
      have hShorter : bytes.length ≤ 4 := Nat.le_of_succ_le h
      calc (byte :: bytes).foldl feed register
        _ = shift^[8 * bytes.length] (feed register byte ^^^ word bytes) := ih hShorter _
        _ = shift^[8 * bytes.length] (shift^[8] (register ^^^ byte.toUInt32)
              ^^^ shift^[8] (.ofNat (BigEndian.value bytes.reverse <<< 8))) := by
            rw [iterate_shift_ofNat hRoom, feed_eq_iterate, word]
        _ = shift^[8 * bytes.length] (shift^[8] (register ^^^ word (byte :: bytes))) := by
            rw [← iterate_shift_xor, UInt32.xor_assoc, word_cons]
        _ = shift^[8 * (byte :: bytes).length] (register ^^^ word (byte :: bytes)) := by
            rw [← Function.iterate_add_apply, List.length_cons, Nat.mul_succ]

/-- Byte strings that differ in at most four bytes on end have different checksums. -/
theorem checksum_append_append_inj {front back a b : Bytes} (h : a.length = b.length)
    (hLength : a.length ≤ 4) :
    checksum (front ++ a ++ back) = checksum (front ++ b ++ back) ↔ a = b := by
  simp only [checksum, UInt32.xor_left_inj, List.foldl_append, foldl_feed_inj,
    foldl_feed_eq_iterate hLength, foldl_feed_eq_iterate (h ▸ hLength), h,
    (shift_injective.iterate _).eq_iff, UInt32.xor_right_inj, word_inj h hLength]

end ImageCartridge.Crc32
