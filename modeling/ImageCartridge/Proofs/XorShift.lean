import ImageCartridge.XorShift

/-! The generator never reaches zero, where it would stay for ever. Each of its
three steps adds a shifted copy of the word to the word, and only zero is its
own shifted copy. -/
namespace ImageCartridge.XorShift

/-- A word that is its own copy shifted up is its own copy shifted up by any
multiple, so all of its bits have fallen out. -/
theorem eq_zero_of_eq_shiftLeft {w n : Nat} (hn : 0 < n) {word : BitVec w}
    (h : word = word <<< n) : word = 0#w := by
  have hMultiple : ∀ count : Nat, word = word <<< (n * count) := by
    intro count
    induction count with
    | zero => rw [Nat.mul_zero, BitVec.shiftLeft_zero]
    | succ count ih =>
        rw [Nat.mul_succ, BitVec.shiftLeft_add, ← ih]
        exact h
  rw [hMultiple w]
  exact BitVec.shiftLeft_eq_zero (Nat.le_mul_of_pos_left w hn)

theorem eq_zero_of_eq_shiftRight {w n : Nat} (hn : 0 < n) {word : BitVec w}
    (h : word = word >>> n) : word = 0#w := by
  have hMultiple : ∀ count : Nat, word = word >>> (n * count) := by
    intro count
    induction count with
    | zero => rw [Nat.mul_zero, BitVec.ushiftRight_zero]
    | succ count ih =>
        rw [Nat.mul_succ, BitVec.shiftRight_add, ← ih]
        exact h
  rw [hMultiple w]
  exact BitVec.ushiftRight_eq_zero (Nat.le_mul_of_pos_left w hn)

theorem eq_zero_of_xor_shiftLeft {word n : UInt32} (hn : 0 < n.toNat % 32)
    (h : word ^^^ (word <<< n) = 0) : word = 0 := by
  have hCopy : word.toBitVec = word.toBitVec <<< (n.toNat % 32) := by
    have hBits := congrArg UInt32.toBitVec h
    rw [UInt32.toBitVec_xor, UInt32.toBitVec_shiftLeft, UInt32.toBitVec_zero,
      BitVec.xor_eq_zero_iff, BitVec.shiftLeft_eq'] at hBits
    exact hBits
  exact UInt32.toBitVec_inj.mp (eq_zero_of_eq_shiftLeft hn hCopy)

theorem eq_zero_of_xor_shiftRight {word n : UInt32} (hn : 0 < n.toNat % 32)
    (h : word ^^^ (word >>> n) = 0) : word = 0 := by
  have hCopy : word.toBitVec = word.toBitVec >>> (n.toNat % 32) := by
    have hBits := congrArg UInt32.toBitVec h
    rw [UInt32.toBitVec_xor, UInt32.toBitVec_shiftRight, UInt32.toBitVec_zero,
      BitVec.xor_eq_zero_iff, BitVec.ushiftRight_eq'] at hBits
    exact hBits
  exact UInt32.toBitVec_inj.mp (eq_zero_of_eq_shiftRight hn hCopy)

/-- No word but zero leads to zero. -/
theorem next_ne_zero {word : UInt32} (h : word ≠ 0) : next word ≠ 0 := by
  intro hNext
  have hThird := eq_zero_of_xor_shiftLeft (by decide) hNext
  have hSecond := eq_zero_of_xor_shiftRight (by decide) hThird
  exact h (eq_zero_of_xor_shiftLeft (by decide) hSecond)

/-- Zero is never where a generator starts, not even from the seed zero. -/
theorem ofSeed_state_ne_zero (seed : UInt32) : (ofSeed seed).state ≠ 0 := by
  unfold ofSeed
  split
  · decide
  · assumption

theorem advance_state_ne_zero {rng : XorShift} (h : rng.state ≠ 0) : rng.advance.2.state ≠ 0 :=
  next_ne_zero h

/-- Words can be skipped in stages. -/
theorem skip_add (rng : XorShift) (first second : Nat) :
    rng.skip (first + second) = (rng.skip first).skip second := by
  induction first generalizing rng with
  | zero => rw [Nat.zero_add]; rfl
  | succ first ih => rw [Nat.succ_add, skip, ih, skip]

/-- However far the generator has run, it can run on. -/
theorem state_skip_ne_zero {rng : XorShift} (h : rng.state ≠ 0) (count : Nat) :
    (rng.skip count).state ≠ 0 := by
  induction count generalizing rng with
  | zero => exact h
  | succ count ih => exact ih (advance_state_ne_zero h)

end ImageCartridge.XorShift
