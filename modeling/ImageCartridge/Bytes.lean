namespace ImageCartridge

abbrev Bytes := List UInt8

namespace BigEndian

/-- The number a byte string spells with its most significant byte first. -/
def value (bytes : Bytes) : Nat :=
  bytes.foldl (fun total byte => total * 256 + byte.toNat) 0

/-- Fixed-width spelling of a number, most significant byte first. Values
outside the width lose their high part. -/
def encode : Nat → Nat → Bytes
  | 0, _ => []
  | width + 1, n => encode width (n / 256) ++ [UInt8.ofNat n]

@[simp] theorem encode_length (width n : Nat) : (encode width n).length = width := by
  induction width generalizing n with
  | zero => rfl
  | succ width ih => simp [encode, ih]

@[simp] theorem value_nil : value [] = 0 := rfl

theorem value_concat (bytes : Bytes) (byte : UInt8) :
    value (bytes ++ [byte]) = value bytes * 256 + byte.toNat := by
  simp [value]

/-- How many numbers can be spelled at a width. -/
def capacity : Nat → Nat
  | 0 => 1
  | width + 1 => capacity width * 256

/-- A number that fits its field is read as it was written. -/
theorem value_encode {width n : Nat} (h : n < capacity width) : value (encode width n) = n := by
  induction width generalizing n with
  | zero =>
      rw [capacity] at h
      have hZero : n = 0 := by omega
      subst hZero
      rfl
  | succ width ih =>
      rw [capacity] at h
      have hDiv : n / 256 < capacity width := by omega
      rw [encode, value_concat, ih hDiv, UInt8.toNat_ofNat']
      omega

/-- Two numbers that fit a field are written differently. -/
theorem encode_inj {width n m : Nat} (hn : n < capacity width) (hm : m < capacity width) :
    encode width n = encode width m ↔ n = m := by
  constructor
  · intro h
    rw [← value_encode hn, h, value_encode hm]
  · rintro rfl
    rfl

/-- Bytes spell a number below the capacity of their width. -/
theorem value_lt (bytes : Bytes) : value bytes < capacity bytes.length := by
  rw [← List.reverse_reverse bytes]
  induction bytes.reverse with
  | nil => exact Nat.zero_lt_one
  | cons byte rest ih =>
      have hByte := byte.toNat_lt
      rw [List.reverse_cons, value_concat]
      simp only [List.length_append, List.length_cons, List.length_nil, Nat.zero_add, capacity]
      omega

/-- A byte string is the spelling of its value at its own width, so a word has
one spelling only. -/
theorem encode_value (bytes : Bytes) : encode bytes.length (value bytes) = bytes := by
  rw [← List.reverse_reverse bytes]
  induction bytes.reverse with
  | nil => rfl
  | cons byte rest ih =>
      have hByte := byte.toNat_lt
      have hDiv : (value rest.reverse * 256 + byte.toNat) / 256 = value rest.reverse := by omega
      have hLow : UInt8.ofNat (value rest.reverse * 256 + byte.toNat) = byte := by
        apply UInt8.toNat_inj.mp
        simp only [UInt8.toNat_ofNat', Nat.reducePow]
        omega
      simp only [List.reverse_cons, value_concat, List.length_append, List.length_cons,
        List.length_nil, Nat.zero_add, encode, hDiv, hLow, ih]

/-- Byte strings of one length are told apart by their values. -/
theorem value_inj {a b : Bytes} (h : a.length = b.length) : value a = value b ↔ a = b := by
  constructor
  · intro hValue
    rw [← encode_value a, h, hValue, encode_value]
  · rintro rfl
    rfl

/-- A byte string spells a number exactly if the number fits its width and is spelled
there as that byte string. -/
theorem value_eq_iff {bytes : Bytes} {n : Nat} :
    value bytes = n ↔ n < capacity bytes.length ∧ encode bytes.length n = bytes := by
  constructor
  · rintro rfl
    exact ⟨value_lt bytes, encode_value bytes⟩
  · rintro ⟨hLess, hBytes⟩
    rw [← hBytes, value_encode hLess]

/-- A wider field holds all that a narrower one does. -/
theorem capacity_le {width larger : Nat} (h : width ≤ larger) :
    capacity width ≤ capacity larger := by
  induction h with
  | refl => exact Nat.le_refl _
  | step h ih => exact Nat.le_trans ih (Nat.le_mul_of_pos_right _ (by decide))

end BigEndian

end ImageCartridge
