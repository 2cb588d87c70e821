import ImageCartridge.Proofs.Marker.Splice

/-! What a file gives that blocks can be extracted from: it has a scan marker, and
its blocks are those that its cartridge segments encode. -/
namespace ImageCartridge.Marker

open Fallible

/-- Collecting adds nothing to the decoding of the single payloads but the limit. -/
theorem decode_of_collect {limit total : Nat} {segments : List Segment} {blocks : List Block}
    (h : collect limit total segments = .ok blocks) :
    List.Forall₂ (fun s b => Block.decode s.payload = .ok b) segments blocks := by
  induction segments generalizing total blocks with
  | nil =>
      cases h
      exact .nil
  | cons s segments ih =>
      unfold collect at h
      dsimp only at h
      split at h
      · cases h
      · obtain ⟨b, hHead, h⟩ := bind_eq_ok_iff.mp h
        obtain ⟨rest, hRest, h⟩ := bind_eq_ok_iff.mp h
        cases h
        exact .cons (mapError_eq_ok_iff.mp hHead) (ih hRest)

/-- A file that gives blocks is a marker stream, and the blocks are those of its cartridge
segments. -/
theorem exists_stream_of_extract {jpeg : Bytes} {limit : Nat} {blocks : List Block}
    (h : extract jpeg limit = .ok blocks) :
    ∃ s : Stream, s.toBytes = jpeg ∧ List.Forall₂
      (fun t b => Block.decode t.payload = .ok b) (s.segments.filter Segment.isCartridge) blocks := by
  have hLocate : ∃ point, locate jpeg = .ok point := by
    obtain ⟨_, _, h⟩ := bind_eq_ok_iff.mp h
    obtain ⟨point, hPoint, _⟩ := bind_eq_ok_iff.mp h
    exact ⟨point, mapError_eq_ok_iff.mp hPoint⟩
  obtain ⟨point, hPoint⟩ := hLocate
  obtain ⟨s, rfl, -⟩ := exists_stream_of_locate hPoint
  rw [extract_toBytes] at h
  exact ⟨s, rfl, decode_of_collect h⟩

/-- One cartridge segment that does not decode spoils the file. -/
theorem exists_extract_eq_error {s : Stream} {t : Segment} (hMem : t ∈ s.segments)
    (hCartridge : t.isCartridge = true) {cause : BlockError}
    (hDecode : Block.decode t.payload = .error cause) (limit : Nat) :
    ∃ cause, extract s.toBytes limit = .error cause := by
  cases hExtract : extract s.toBytes limit with
  | error cause => exact ⟨cause, rfl⟩
  | ok blocks =>
      rw [extract_toBytes] at hExtract
      obtain ⟨b, -, hBlock⟩ := exists_mem_of_forall₂ (decode_of_collect hExtract).flip
        (List.mem_filter.mpr ⟨hMem, hCartridge⟩)
      cases hDecode.symm.trans hBlock

/-- Blocks that were extracted fit the segments they came in. -/
theorem of_mem_of_extract {jpeg : Bytes} {limit : Nat} {blocks : List Block}
    (h : extract jpeg limit = .ok blocks) :
    ∀ b ∈ blocks, b.kind.IsCanonical ∧ b.encodedLength ≤ payloadLimit := by
  obtain ⟨s, -, hDecode⟩ := exists_stream_of_extract h
  intro b hMem
  obtain ⟨t, hSegment, hBlock⟩ := exists_mem_of_forall₂ hDecode hMem
  obtain ⟨hEncode, hKind⟩ := Block.encode_of_decode hBlock
  refine ⟨hKind, ?_⟩
  rw [← Block.length_of_encode hEncode]
  exact payload_length_le_of_mem_segmentsFrom s.valid (List.mem_filter.mp hSegment).1

end ImageCartridge.Marker
