import ImageCartridge.Payload.Reader
import ImageCartridge.Proofs.Fallible

/-! Which bytes a reading action takes, and what it makes of them. The bytes
behind them are left open, so that actions can be put in sequence. -/
namespace ImageCartridge.Payload.Reader

open Fallible

variable {α β : Type}

def skip (r : Reader) (count : Nat) (h : count ≤ r.rest.length) : Reader where
  kind := r.kind
  size := r.size
  offset := r.offset + count
  rest := r.rest.drop count
  offset_add_rest := by
    have hTotal := r.offset_add_rest
    rw [List.length_drop]
    omega

@[simp] theorem offset_skip (r : Reader) (count : Nat) (h : count ≤ r.rest.length) :
    (r.skip count h).offset = r.offset + count := rfl

@[simp] theorem rest_skip (r : Reader) (count : Nat) (h : count ≤ r.rest.length) :
    (r.skip count h).rest = r.rest.drop count := rfl

@[simp] theorem apply_pure (r : Reader) (value : α) : r.apply (pure value) = (.ok value, r) := rfl

/-- What follows runs on the reader that is left, or not at all. -/
theorem apply_bind (r : Reader) (action : Read α) (next : α → Read β) :
    r.apply (action >>= next) =
      match r.apply action with
      | (.ok a, r') => r'.apply (next a)
      | (.error cause, r') => (.error cause, r') := by
  simp only [apply, ExceptT.run_bind, StateT.run_bind, Id.run_bind]
  cases (action.run.run r).run with
  | mk outcome r' => cases outcome <;> rfl

theorem apply_bind_of_ok {r r' : Reader} {action : Read α} {a : α}
    (h : r.apply action = (.ok a, r')) (next : α → Read β) :
    r.apply (action >>= next) = r'.apply (next a) := by
  rw [apply_bind, h]

/-- Behind a failure nothing more is read. -/
theorem apply_bind_of_error {r r' : Reader} {action : Read α} {cause : SchemaError}
    (h : r.apply action = (.error cause, r')) (next : α → Read β) :
    r.apply (action >>= next) = (.error cause, r') := by
  rw [apply_bind, h]

/-- A sequence succeeds only if its first action does. -/
theorem exists_of_apply_bind_eq_ok {r r' : Reader} {action : Read α} {next : α → Read β} {b : β}
    (h : r.apply (action >>= next) = (.ok b, r')) :
    ∃ a middle, r.apply action = (.ok a, middle) ∧ middle.apply (next a) = (.ok b, r') := by
  rw [apply_bind] at h
  split at h
  · next a middle hFirst => exact ⟨a, middle, hFirst, h⟩
  · cases h

/-- Bytes can be taken as long as so many are left, and only then. -/
theorem apply_take_of_le {r : Reader} {count : Nat} (h : count ≤ r.rest.length) :
    r.apply (take count) = (.ok (r.rest.take count), r.skip count h) := by
  have hStop : r.offset + count ≤ r.size := by
    rw [← r.offset_add_rest]
    exact Nat.add_le_add_left h _
  change (if h : r.offset + count ≤ r.size then _ else _) = _
  rw [dif_pos hStop]
  rfl

/-- Bytes that are not all there are not taken: the reader stays where it is. -/
theorem apply_take_of_lt {r : Reader} {count : Nat} (h : r.rest.length < count) :
    r.apply (take count) = (.error (.truncated r.kind r.offset count r.size), r) := by
  have hStop : ¬ r.offset + count ≤ r.size := by
    rw [← r.offset_add_rest]
    exact Nat.not_le.mpr (Nat.add_lt_add_left h _)
  change (if h : r.offset + count ≤ r.size then _ else _) = _
  rw [dif_neg hStop]

/-- On a payload that goes on with the given bytes, the action takes exactly
these and gives the value. -/
def Reads (action : Read α) (bytes : Bytes) (value : α) : Prop :=
  ∀ (r : Reader) (rest : Bytes), r.rest = bytes ++ rest →
    ∃ r', r.apply action = (.ok value, r') ∧ r'.rest = rest

theorem Reads.pure (value : α) : Reads (pure value) [] value :=
  fun r _ hRest => ⟨r, rfl, hRest⟩

/-- Actions in sequence take their bytes in sequence. -/
theorem Reads.bind {action : Read α} {next : α → Read β} {front back : Bytes} {a : α} {b : β}
    (hFirst : Reads action front a) (hThen : Reads (next a) back b) :
    Reads (action >>= next) (front ++ back) b := by
  intro r rest hRest
  rw [List.append_assoc] at hRest
  obtain ⟨middle, hRun, hMiddle⟩ := hFirst r _ hRest
  obtain ⟨last, hLast, hEnd⟩ := hThen middle rest hMiddle
  exact ⟨last, (apply_bind_of_ok hRun next).trans hLast, hEnd⟩

/-- What follows the last bytes may still fail or compute. -/
theorem Reads.last {action : Read α} {next : α → Read β} {bytes : Bytes} {a : α} {b : β}
    (hFirst : Reads action bytes a) (hThen : Reads (next a) [] b) :
    Reads (action >>= next) bytes b := by
  rw [← List.append_nil bytes]
  exact hFirst.bind hThen

theorem Reads.map {action : Read α} {bytes : Bytes} {a : α} (h : Reads action bytes a)
    (f : α → β) : Reads (action >>= fun x => Pure.pure (f x)) bytes (f a) :=
  h.last (.pure (f a))

/-- Bytes at the front of a payload can be taken, however many there are. -/
theorem reads_take (bytes : Bytes) : Reads (take bytes.length) bytes bytes := by
  intro r rest hRest
  have hFits : bytes.length ≤ r.rest.length := by
    rw [hRest, List.length_append]
    exact Nat.le_add_right _ _
  refine ⟨r.skip bytes.length hFits, ?_, ?_⟩
  · have hTake : r.rest.take bytes.length = bytes := by rw [hRest, List.take_left]
    rw [apply_take_of_le hFits, hTake]
  · rw [rest_skip, hRest, List.drop_left]

theorem reads_take_encode (width n : Nat) :
    Reads (take width) (BigEndian.encode width n) (BigEndian.encode width n) := by
  have h := reads_take (BigEndian.encode width n)
  rw [BigEndian.encode_length] at h
  exact h

theorem reads_byte (b : UInt8) : Reads byte [b] b := by
  have h := (reads_take [b]).map fun bytes => UInt8.ofNat (BigEndian.value bytes)
  have hValue : UInt8.ofNat (BigEndian.value [b]) = b := by
    simp [BigEndian.value]
  rw [hValue] at h
  exact h

theorem reads_word16 (word : UInt16) : Reads word16 (BigEndian.encode 2 word.toNat) word := by
  have h := (reads_take_encode 2 word.toNat).map fun bytes =>
    UInt16.ofNat (BigEndian.value bytes)
  rw [BigEndian.value_encode word.toNat_lt, UInt16.ofNat_toNat] at h
  exact h

theorem reads_word32 (word : UInt32) : Reads word32 (BigEndian.encode 4 word.toNat) word := by
  have h := (reads_take_encode 4 word.toNat).map fun bytes =>
    UInt32.ofNat (BigEndian.value bytes)
  rw [BigEndian.value_encode word.toNat_lt, UInt32.ofNat_toNat] at h
  exact h

/-- A number written in a field it fits is read as a word of that value. -/
theorem exists_reads_word16 {n : Nat} (h : n < UInt16.size) :
    ∃ word : UInt16, word.toNat = n ∧ Reads word16 (BigEndian.encode 2 n) word := by
  have hWord : (UInt16.ofNat n).toNat = n := UInt16.toNat_ofNat_of_lt' h
  refine ⟨.ofNat n, hWord, ?_⟩
  have hReads := reads_word16 (.ofNat n)
  rw [hWord] at hReads
  exact hReads

theorem exists_reads_word32 {n : Nat} (h : n < UInt32.size) :
    ∃ word : UInt32, word.toNat = n ∧ Reads word32 (BigEndian.encode 4 n) word := by
  have hWord : (UInt32.ofNat n).toNat = n := UInt32.toNat_ofNat_of_lt' h
  refine ⟨.ofNat n, hWord, ?_⟩
  have hReads := reads_word32 (.ofNat n)
  rw [hWord] at hReads
  exact hReads

/-- A payload that is just the bytes an action takes decodes. -/
theorem Reads.decode_eq_ok {action : Read α} {bytes : Bytes} {value : α}
    (h : Reads action bytes value) (kind : String) : decode kind action bytes = .ok value := by
  obtain ⟨r, hRun, hRest⟩ := h (ofBytes kind bytes) [] (List.append_nil bytes).symm
  have hFinish : r.finish = .ok () := by
    simp only [finish, hRest, List.isEmpty_nil, if_true]
  unfold decode
  rw [hRun]
  exact bind_eq_ok_iff.mpr ⟨value, rfl, bind_eq_ok_iff.mpr ⟨(), hFinish, rfl⟩⟩

/-- A payload that decodes was read by the action with nothing left over. -/
theorem exists_of_decode_eq_ok {kind : String} {action : Read α} {bytes : Bytes} {value : α}
    (h : decode kind action bytes = .ok value) :
    ∃ r, (ofBytes kind bytes).apply action = (.ok value, r) ∧ r.rest = [] := by
  unfold decode at h
  obtain ⟨a, hOutcome, h⟩ := bind_eq_ok_iff.mp h
  obtain ⟨_, hFinish, h⟩ := bind_eq_ok_iff.mp h
  cases h
  refine ⟨_, Prod.ext hOutcome rfl, ?_⟩
  unfold finish at hFinish
  split at hFinish
  · next hNone => exact List.isEmpty_iff.mp hNone
  · cases hFinish

end ImageCartridge.Payload.Reader
