import ImageCartridge.Proofs.Marker.Extract

/-! What an extraction answers. Cartridge segments are judged in file order, and the first
that fails is the answer, whatever follows it. Blocks that were extracted once are so again
under every ceiling that they do not exceed together, and under no other. -/
namespace ImageCartridge.Marker

open Fallible

def payloadSize (segments : List Segment) : Nat :=
  (segments.map fun s => s.payload.length).sum

/-- A segment fails behind others. The payloads up to it, its own among them, count against
the limit first. Its contents are looked at second. -/
inductive FailsAfter (limit : Nat) (front : List Segment) (s : Segment) :
    CartridgeError → Prop where
  | overLimit (hSize : limit < payloadSize (front ++ [s])) :
      FailsAfter limit front s (.capacity (.cartridgeTooLarge limit))
  | undecodable {cause : BlockError} (hSize : payloadSize (front ++ [s]) ≤ limit)
      (hDecode : Block.decode s.payload = .error cause) : FailsAfter limit front s (.block cause)

/-- No segment fails behind those in front of it. -/
def Sound (limit : Nat) (segments : List Segment) : Prop :=
  ∀ front s later, segments = front ++ s :: later → ∀ cause, ¬ FailsAfter limit front s cause

/-- The failure of the first segment that fails. -/
def FailsFirst (limit : Nat) (segments : List Segment) (cause : CartridgeError) : Prop :=
  ∃ front s later, segments = front ++ s :: later ∧ Sound limit front ∧
    FailsAfter limit front s cause

section Collect

variable {limit : Nat} {front segments : List Segment} {s : Segment} {blocks : List Block}
  {cause : CartridgeError}

@[simp] theorem payloadSize_nil : payloadSize [] = 0 := rfl

@[simp] theorem payloadSize_cons (s : Segment) (later : List Segment) :
    payloadSize (s :: later) = s.payload.length + payloadSize later := by
  simp [payloadSize]

@[simp] theorem payloadSize_append (front later : List Segment) :
    payloadSize (front ++ later) = payloadSize front + payloadSize later := by
  simp [payloadSize]

/-- The payloads of segments are as long as the encodings of their blocks. -/
theorem payloadSize_eq_sum
    (h : List.Forall₂ (fun s b => Block.decode s.payload = .ok b) segments blocks) :
    payloadSize segments = (blocks.map Block.encodedLength).sum := by
  induction h with
  | nil => rfl
  | @cons s b segments blocks hHead hRest ih =>
      have hLength := Block.length_of_encode (Block.encode_of_decode hHead).1
      rw [payloadSize_cons, ih, hLength, List.map_cons, List.sum_cons]

/-- A segment does not fail as soon as it fits and decodes. -/
theorem not_failsAfter_iff :
    (∀ cause, ¬ FailsAfter limit front s cause) ↔
      payloadSize (front ++ [s]) ≤ limit ∧ ∃ b, Block.decode s.payload = .ok b := by
  constructor
  · intro h
    have hSize : payloadSize (front ++ [s]) ≤ limit :=
      Nat.le_of_not_lt fun hOver => h _ (.overLimit hOver)
    refine ⟨hSize, ?_⟩
    cases hDecode : Block.decode s.payload with
    | error cause => exact absurd (.undecodable hSize hDecode) (h (.block cause))
    | ok b => exact ⟨b, rfl⟩
  · rintro ⟨hSize, b, hBlock⟩ cause (hOver | ⟨-, hDecode⟩)
    · exact absurd hOver (Nat.not_lt.mpr hSize)
    · cases hDecode.symm.trans hBlock

/-- Segments are sound if each of them decodes and all of them fit together. -/
theorem sound_iff :
    Sound limit segments ↔
      payloadSize segments ≤ limit ∧ ∀ s ∈ segments, ∃ b, Block.decode s.payload = .ok b := by
  constructor
  · intro h
    constructor
    · rcases List.eq_nil_or_concat' segments with rfl | ⟨front, s, rfl⟩
      · exact Nat.zero_le limit
      · exact (not_failsAfter_iff.mp (h front s [] rfl)).1
    · intro s hMem
      obtain ⟨front, later, hSplit⟩ := List.append_of_mem hMem
      exact (not_failsAfter_iff.mp (h front s later hSplit)).2
  · rintro ⟨hSize, hDecode⟩ front s later rfl
    refine not_failsAfter_iff.mpr ⟨?_, hDecode s (by simp)⟩
    simp only [payloadSize_append, payloadSize_cons, payloadSize_nil] at hSize ⊢
    omega

theorem sound_nil : Sound limit [] :=
  sound_iff.mpr ⟨Nat.zero_le limit, List.forall_mem_nil _⟩

/-- Behind sound segments, another one that does not fail is sound with them. -/
theorem Sound.concat (h : Sound limit front) (hLast : ∀ cause, ¬ FailsAfter limit front s cause) :
    Sound limit (front ++ [s]) := by
  obtain ⟨hSize, hDecode⟩ := not_failsAfter_iff.mp hLast
  exact sound_iff.mpr ⟨hSize, List.forall_mem_append.mpr
    ⟨(sound_iff.mp h).2, List.forall_mem_singleton.mpr hDecode⟩⟩

/-- One segment decides by its size, then by its contents, and then leaves it to the rest. -/
theorem collect_cons (limit total : Nat) (s : Segment) (later : List Segment) :
    collect limit total (s :: later) =
      if limit < total + s.payload.length then .error (.capacity (.cartridgeTooLarge limit))
      else (Block.decode s.payload).mapError .block >>= fun b =>
        collect limit (total + s.payload.length) later >>= fun rest => .ok (b :: rest) := by
  rw [collect]
  split <;> rfl

/-- Collecting can be cut anywhere. What was read in front is carried over. -/
theorem collect_append (limit total : Nat) (front later : List Segment) :
    collect limit total (front ++ later) =
      collect limit total front >>= fun first =>
        collect limit (total + payloadSize front) later >>= fun rest => .ok (first ++ rest) := by
  induction front generalizing total with
  | nil =>
      rw [List.nil_append, payloadSize_nil, Nat.add_zero, collect, ok_bind]
      cases collect limit total later <;> rfl
  | cons s front ih =>
      rw [List.cons_append, collect_cons, collect_cons, ih, payloadSize_cons, Nat.add_assoc]
      split
      · rfl
      · simp only [bind_assoc, ok_bind, List.cons_append]

/-- Segments are collected if they fit behind what was read and each of them decodes. -/
theorem collect_eq_ok_iff {total : Nat} (hTotal : total ≤ limit) :
    collect limit total segments = .ok blocks ↔ total + payloadSize segments ≤ limit ∧
      List.Forall₂ (fun s b => Block.decode s.payload = .ok b) segments blocks := by
  constructor
  · intro h
    refine ⟨?_, decode_of_collect h⟩
    induction segments generalizing total blocks with
    | nil => exact hTotal
    | cons s segments ih =>
        rw [collect_cons] at h
        split at h
        · cases h
        · next hFits =>
            obtain ⟨_, -, h⟩ := bind_eq_ok_iff.mp h
            obtain ⟨rest, hRest, -⟩ := bind_eq_ok_iff.mp h
            rw [payloadSize_cons, ← Nat.add_assoc]
            exact ih (Nat.le_of_not_lt hFits) hRest
  · rintro ⟨hSize, hDecode⟩
    exact collect_eq_ok (List.forall₂_map_left_iff.mpr hDecode) hSize

/-- Collecting succeeds just when no segment fails behind those in front of it. -/
theorem exists_collect_eq_ok_iff :
    (∃ blocks, collect limit 0 segments = .ok blocks) ↔ Sound limit segments := by
  simp only [collect_eq_ok_iff (Nat.zero_le limit), Nat.zero_add, exists_and_left, sound_iff,
    ← mapM_eq_ok_iff]
  refine and_congr_right fun _ => ⟨?_, exists_mapM_eq_ok⟩
  rintro ⟨blocks, hBlocks⟩ s hMem
  obtain ⟨b, -, hBlock⟩ := exists_mem_of_forall₂ (mapM_eq_ok_iff.mp hBlocks).flip hMem
  exact ⟨b, hBlock⟩

/-- A segment that fails behind a running total ends the collection there. -/
theorem FailsAfter.collect_cons_eq_error (h : FailsAfter limit front s cause)
    (later : List Segment) : collect limit (payloadSize front) (s :: later) = .error cause := by
  rw [collect_cons]
  cases h with
  | overLimit hSize => exact if_pos (by simpa using hSize)
  | undecodable hSize hDecode =>
      have hFits : ¬ limit < payloadSize front + s.payload.length := by simpa using hSize
      rw [if_neg hFits, hDecode, mapError_error, error_bind]

/-- Segments that do not fail are passed over, up to the first one that does. -/
theorem FailsFirst.collect_eq_error (h : FailsFirst limit segments cause) :
    collect limit 0 segments = .error cause := by
  obtain ⟨front, s, later, rfl, hFront, hFails⟩ := h
  obtain ⟨first, hFirst⟩ := exists_collect_eq_ok_iff.mpr hFront
  rw [collect_append, hFirst, ok_bind, Nat.zero_add, hFails.collect_cons_eq_error, error_bind]

/-- A collection that fails has come to a segment that does. -/
theorem failsFirst_of_collect (hFront : Sound limit front)
    (h : collect limit (payloadSize front) segments = .error cause) :
    FailsFirst limit (front ++ segments) cause := by
  induction segments generalizing front with
  | nil => cases h
  | cons s later ih =>
      by_cases hLast : ∃ found, FailsAfter limit front s found
      · obtain ⟨found, hFails⟩ := hLast
        rw [hFails.collect_cons_eq_error] at h
        cases h
        exact ⟨front, s, later, rfl, hFront, hFails⟩
      -- The segment is sound as well, so the failure comes from behind it.
      · rw [not_exists] at hLast
        obtain ⟨hSize, b, hBlock⟩ := not_failsAfter_iff.mp hLast
        have hFits : payloadSize front + s.payload.length ≤ limit := by simpa using hSize
        rw [collect_cons, if_neg (Nat.not_lt.mpr hFits), hBlock, mapError_ok, ok_bind] at h
        rcases bind_eq_error_iff.mp h with hLater | ⟨_, _, h⟩
        · have hAll := ih (hFront.concat hLast) (by simpa using hLater)
          rwa [List.append_assoc] at hAll
        · cases h

theorem collect_eq_error_iff :
    collect limit 0 segments = .error cause ↔ FailsFirst limit segments cause :=
  ⟨failsFirst_of_collect sound_nil, FailsFirst.collect_eq_error⟩

end Collect

section Extract

variable {jpeg : Bytes} {limit : Nat} {blocks : List Block} {cause : CartridgeError}

/-- A file can be read if no cartridge segment fails and the walk ends well. Its blocks are what
the segments decode to. -/
theorem extract_eq_ok_iff :
    extract jpeg limit = .ok blocks ↔ Sound limit (cartridges jpeg) ∧
      (∃ point, (walk jpeg).outcome = .ok point) ∧
      List.Forall₂ (fun s b => Block.decode s.payload = .ok b) (cartridges jpeg) blocks := by
  change (collect limit 0 (cartridges jpeg) >>= _) = _ ↔ _
  simp only [bind_eq_ok_iff, mapError_eq_ok_iff]
  constructor
  · rintro ⟨_, hCollect, point, hPoint, h⟩
    cases h
    exact ⟨exists_collect_eq_ok_iff.mp ⟨_, hCollect⟩, ⟨point, hPoint⟩, decode_of_collect hCollect⟩
  · rintro ⟨hSound, ⟨point, hPoint⟩, hDecode⟩
    refine ⟨blocks, (collect_eq_ok_iff (Nat.zero_le limit)).mpr ⟨?_, hDecode⟩, point, hPoint, rfl⟩
    rw [Nat.zero_add]
    exact (sound_iff.mp hSound).1

/-- An error of the marker stream is reported only if no segment fails. -/
theorem extract_eq_error_iff :
    extract jpeg limit = .error cause ↔ FailsFirst limit (cartridges jpeg) cause ∨
      (Sound limit (cartridges jpeg) ∧
        ∃ found, (walk jpeg).outcome = .error found ∧ cause = .structural found) := by
  change (collect limit 0 (cartridges jpeg) >>= _) = _ ↔ _
  rw [bind_eq_error_iff, collect_eq_error_iff, ← exists_collect_eq_ok_iff]
  refine or_congr_right ?_
  simp only [bind_eq_error_iff, mapError_eq_error_iff]
  constructor
  · rintro ⟨first, hCollect, ⟨found, hFound, rfl⟩ | ⟨_, _, h⟩⟩
    · exact ⟨⟨first, hCollect⟩, found, hFound, rfl⟩
    · cases h
  · rintro ⟨⟨first, hCollect⟩, found, hFound, rfl⟩
    exact ⟨first, hCollect, Or.inl ⟨found, hFound, rfl⟩⟩

/-- Blocks of a file together exceed a ceiling, or they are extracted under it. -/
theorem extract_of_extract (h : extract jpeg limit = .ok blocks) (other : Nat) :
    ((blocks.map Block.encodedLength).sum ≤ other → extract jpeg other = .ok blocks) ∧
      (other < (blocks.map Block.encodedLength).sum →
        extract jpeg other = .error (.capacity (.cartridgeTooLarge other))) := by
  obtain ⟨hSound, hScan, hDecode⟩ := extract_eq_ok_iff.mp h
  have hEach := (sound_iff.mp hSound).2
  rw [← payloadSize_eq_sum hDecode]
  refine ⟨fun hFits => extract_eq_ok_iff.mpr ⟨sound_iff.mpr ⟨hFits, hEach⟩, hScan, hDecode⟩, ?_⟩
  intro hOver
  cases hOther : extract jpeg other with
  | ok found =>
      have hFits := (sound_iff.mp (extract_eq_ok_iff.mp hOther).1).1
      exact absurd hOver (Nat.not_lt.mpr hFits)
  | error cause =>
      rcases extract_eq_error_iff.mp hOther
        with ⟨front, s, later, hSplit, -, hFails⟩ | ⟨-, _, hEnd, -⟩
      · cases hFails with
        | overLimit => rfl
        | undecodable _ hCause =>
            obtain ⟨b, hBlock⟩ := hEach s (by simp [hSplit])
            cases hCause.symm.trans hBlock
      · obtain ⟨point, hPoint⟩ := hScan
        cases hEnd.symm.trans hPoint

end Extract

/-- An extraction answers with the first cartridge segment that fails, be it by the size of
the payloads up to it or by its contents. Only where none fails does it matter how the
stream ends. So of one file the same blocks are extracted under every ceiling, as long as
the ceiling is not less than the blocks together. -/
theorem extract_reports_first (jpeg : Bytes) :
    (∀ limit cause, extract jpeg limit = .error cause ↔
      FailsFirst limit (cartridges jpeg) cause ∨
        (Sound limit (cartridges jpeg) ∧
          ∃ found, (walk jpeg).outcome = .error found ∧ cause = .structural found)) ∧
    (∀ limit blocks, extract jpeg limit = .ok blocks ↔
      Sound limit (cartridges jpeg) ∧ (∃ point, (walk jpeg).outcome = .ok point) ∧
        List.Forall₂ (fun s b => Block.decode s.payload = .ok b) (cartridges jpeg) blocks) ∧
    ∀ limit blocks, extract jpeg limit = .ok blocks → ∀ other,
      ((blocks.map Block.encodedLength).sum ≤ other → extract jpeg other = .ok blocks) ∧
        (other < (blocks.map Block.encodedLength).sum →
          extract jpeg other = .error (.capacity (.cartridgeTooLarge other))) :=
  ⟨fun _ _ => extract_eq_error_iff, fun _ _ => extract_eq_ok_iff,
    fun _ _ h other => extract_of_extract h other⟩

def twoBlockJpeg : Bytes :=
  [0xFF, 0xD8, 0xFF, 0xEB, 0x00, 0x0E, 0x4A, 0x43, 0x52, 0x54, 0x01, 0x02, 0x00, 0x00, 0x00, 0x00,
    0x01, 0x01, 0xFF, 0xEB, 0x00, 0x0D, 0x4A, 0x43, 0x52, 0x54, 0x01, 0x30, 0x00, 0x00, 0x00, 0x00,
    0x00, 0xFF, 0xDA]

/-- Under a ceiling one byte short the second block is reported, also where the stream is
broken off behind it. -/
theorem extract_reports_first_twoBlockJpeg :
    ∃ blocks : List Block,
      blocks = [⟨1, .bytecode, ⟨false, false⟩, [1]⟩, ⟨1, .unknown 0x30, ⟨false, false⟩, []⟩] ∧
      extract twoBlockJpeg 100 = .ok blocks ∧
      extract twoBlockJpeg 23 = .ok blocks ∧
      extract twoBlockJpeg 22 = .error (.capacity (.cartridgeTooLarge 22)) ∧
      (walk (twoBlockJpeg.take 33)).outcome = .error (.truncated 33) ∧
      extract (twoBlockJpeg.take 33) 22 = .error (.capacity (.cartridgeTooLarge 22)) := by
  have hWhole : extract twoBlockJpeg 100 =
      .ok [⟨1, .bytecode, ⟨false, false⟩, [1]⟩, ⟨1, .unknown 0x30, ⟨false, false⟩, []⟩] := by cbv
  have hCut : walk (twoBlockJpeg.take 33) =
      ⟨[⟨0xEB, 2, [0x4A, 0x43, 0x52, 0x54, 1, 2, 0, 0, 0, 0, 1, 1]⟩,
        ⟨0xEB, 18, [0x4A, 0x43, 0x52, 0x54, 1, 0x30, 0, 0, 0, 0, 0]⟩], .error (.truncated 33)⟩ := by
    cbv
  have hFirst : Sound 22 [⟨0xEB, 2, [0x4A, 0x43, 0x52, 0x54, 1, 2, 0, 0, 0, 0, 1, 1]⟩] :=
    sound_iff.mpr ⟨by decide, List.forall_mem_singleton.mpr
      ⟨⟨1, .bytecode, ⟨false, false⟩, [1]⟩, by cbv⟩⟩
  have hFails : FailsFirst 22 (cartridges (twoBlockJpeg.take 33))
      (.capacity (.cartridgeTooLarge 22)) := by
    rw [cartridges, hCut]
    exact ⟨_, _, [], List.singleton_append.symm, hFirst, .overLimit (by decide)⟩
  obtain ⟨-, -, hCeiling⟩ := extract_reports_first twoBlockJpeg
  obtain ⟨hError, -, -⟩ := extract_reports_first (twoBlockJpeg.take 33)
  exact ⟨_, rfl, hWhole, (hCeiling 100 _ hWhole 23).1 (by decide),
    (hCeiling 100 _ hWhole 22).2 (by decide), congrArg Walk.outcome hCut,
    (hError 22 _).mpr (Or.inl hFails)⟩

end ImageCartridge.Marker
