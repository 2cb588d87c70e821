import ImageCartridge.Proofs.Cartridge.Loaded
import ImageCartridge.Proofs.Marker.Extract

/-! Saving a cartridge into the file it was read from. Every block is written with
a checksum for which its segment may lack the room. -/
namespace ImageCartridge.Cartridge

open Fallible

/-- The first block that is too large for a segment is the one reported. -/
theorem writeInto_eq_error {c : Cartridge} {jpeg : Bytes} {own : List Block} {b : Block}
    (hOwn : c.toBlocks = .ok own)
    (hFirst : own.find? (fun b => Marker.payloadLimit < b.encodedLength) = some b)
    (hLength : b.payload.length < UInt32.size) :
    c.writeInto jpeg
      = .error (.capacity (.segmentTooLarge b.encodedLength Marker.payloadLimit)) := by
  rw [writeInto, hOwn, mapError_ok, ok_bind, Marker.splice_eq_error jpeg hFirst hLength]

/-- A cartridge that was read from a file can be written back and is then read
again, provided that its own blocks fit their segments. If they do not, the first
that is too large is refused. It is then the bytecode or the string table, and the
file has it without a checksum. -/
theorem writeInto_of_readFrom {jpeg : Bytes} {limit : Nat} {c : Cartridge}
    (h : readFrom jpeg limit = .ok c) :
    ∃ loaded own, Marker.extract jpeg limit = .ok loaded ∧ c.toBlocks = .ok own ∧
      ((∀ b ∈ own, b.encodedLength ≤ Marker.payloadLimit) →
        ∃ out, c.writeInto jpeg = .ok out ∧
          ∀ ceiling, (own.map Block.encodedLength).sum ≤ ceiling →
            Marker.extract out ceiling = .ok own ∧ readFrom out ceiling = .ok c) ∧
      ∀ b, own.find? (fun b => Marker.payloadLimit < b.encodedLength) = some b →
        c.writeInto jpeg
            = .error (.capacity (.segmentTooLarge b.encodedLength Marker.payloadLimit)) ∧
          (b.kind = .bytecode ∨ b.kind = .stringTable) ∧ ∃ old ∈ loaded, old.kind = b.kind ∧
            old.flags.crc = false ∧ b.encodedLength ≤ old.encodedLength + Block.crcLength := by
  obtain ⟨loaded, hLoaded, hBlocks⟩ := bind_eq_ok_iff.mp h
  obtain ⟨grid, hParts⟩ := exists_assembledFrom_of_ofBlocks hBlocks
  obtain ⟨own, hOwn, hBack⟩ := hParts.exists_toBlocks
  have hFacts := Marker.of_mem_of_extract hLoaded
  refine ⟨loaded, own, hLoaded, hOwn, fun hSize => ?_, fun b hFirst => ?_⟩
  · obtain ⟨s, rfl, -⟩ := Marker.exists_stream_of_extract hLoaded
    obtain ⟨out, hSplice⟩ := Marker.exists_splice_eq_ok (Marker.locate_toBytes s) hSize
    have hKind := isCanonical_of_toBlocks hOwn fun b hMem =>
      (hFacts b (hParts.mem_extra_iff.mp hMem).1).1
    refine ⟨out, writeInto_eq_ok_iff.mpr ⟨own, hOwn, hSplice⟩, fun ceiling hTotal => ⟨?_, ?_⟩⟩
    · exact Marker.extract_of_splice hSplice hKind hTotal
    · rw [readFrom_of_splice hSplice hKind hTotal, hBack]
  · have hLarge : Marker.payloadLimit < b.encodedLength := by simpa using List.find?_some hFirst
    obtain ⟨hKind, old, hOld, hSame, hCrc, hGrown⟩ := hParts.grown_of_mem_toBlocks hOwn
      (fun b hMem => (hFacts b hMem).2) (List.mem_of_find?_eq_some hFirst) hLarge
    refine ⟨writeInto_eq_error hOwn hFirst ?_, hKind, old, hOld, hSame, hCrc, hGrown⟩
    have hFits := (hFacts old hOld).2
    unfold Block.encodedLength Block.crcLength Marker.payloadLimit UInt32.size at *
    omega

theorem writeInto_of_readFrom_plainFile :
    readFrom (plainFile [0x40, 0x01, 0x01]) 55
        = .ok { header := plainHeader, bytecode := [0x40, 0x01, 0x01] } ∧
      ∃ out, writeInto { header := plainHeader, bytecode := [0x40, 0x01, 0x01] }
          (plainFile [0x40, 0x01, 0x01]) = .ok out ∧
        readFrom out 63 = .ok { header := plainHeader, bytecode := [0x40, 0x01, 0x01] } := by
  have hLoad : readFrom (plainFile [0x40, 0x01, 0x01]) 55
      = .ok { header := plainHeader, bytecode := [0x40, 0x01, 0x01] } :=
    readFrom_plainFile (by decide) (by decide)
  obtain ⟨_, own, _, hOwn, hSave, _⟩ := writeInto_of_readFrom hLoad
  cases hOwn
  obtain ⟨out, hWrite, hRead⟩ := hSave (by decide)
  exact ⟨hLoad, out, hWrite, (hRead 63 (by decide)).2⟩

/-- Bytecode that fills its segment leaves no room for the checksum it is saved with. -/
theorem readFrom_writeInto_plainFile {code : Bytes} (hCode : code.length = 65522) :
    readFrom (plainFile code) defaultCeiling = .ok { header := plainHeader, bytecode := code } ∧
      ∀ jpeg, writeInto { header := plainHeader, bytecode := code } jpeg
        = .error (.capacity (.segmentTooLarge 65537 65533)) := by
  refine ⟨readFrom_plainFile (Nat.le_of_eq hCode) (by rw [hCode]; decide), fun jpeg => ?_⟩
  have hSize : (Block.new .bytecode code).encodedLength = 65537 := by
    rw [Block.encodedLength, Block.new, hCode]
    rfl
  have hFirst : [Block.new .header (plainHeader.toBytes), .new .bytecode code].find?
      (fun b => Marker.payloadLimit < b.encodedLength) = some (.new .bytecode code) := by
    rw [List.find?_cons_of_neg (by decide), List.find?_cons_of_pos]
    rw [hSize]
    decide
  rw [writeInto_eq_error rfl hFirst (by rw [Block.new, hCode]; decide), hSize]
  rfl

/-- Bytecode without a checksum may fill its segment. The checksum that saving adds does not fit
then. -/
theorem writeInto_plainFile_full :
    ∃ c, readFrom (plainFile (List.replicate 65522 1)) defaultCeiling = .ok c ∧
      c.writeInto (plainFile (List.replicate 65522 1))
        = .error (.capacity (.segmentTooLarge 65537 65533)) := by
  have hCode : (List.replicate 65522 (1 : UInt8)).length = 65522 := List.length_replicate
  obtain ⟨hLoad, hSave⟩ := readFrom_writeInto_plainFile hCode
  exact ⟨_, hLoad, hSave _⟩

end ImageCartridge.Cartridge
