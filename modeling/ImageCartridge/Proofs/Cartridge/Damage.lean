import ImageCartridge.Player.Basic
import ImageCartridge.Proofs.Block.Damage
import ImageCartridge.Proofs.Cartridge.File
import ImageCartridge.Proofs.Marker.Extract
import ImageCartridge.Proofs.Marker.Layout

/-! Damage to the blocks of a file. Behind the magic no bit of a block can be flipped
without the file being refused: the markers are found where they were, and the block
is no longer one. -/
namespace ImageCartridge

open Fallible

namespace Marker

/-- Behind the magic a payload can change without ceasing to be one of a cartridge. -/
theorem Segment.isCartridge_flipBit {t : Segment} (h : t.isCartridge = true) {place : Nat}
    (hMagic : Block.magic.length ≤ place) (bit : Fin 8) :
    isCartridge { t with payload := flipBit t.payload place bit } = true := by
  simp only [isCartridge, Bool.and_eq_true, List.isPrefixOf_iff_prefix] at h ⊢
  obtain ⟨hMarker, rest, hPayload⟩ := h
  obtain ⟨behind, rfl⟩ := Nat.exists_eq_add_of_le hMagic
  refine ⟨hMarker, flipBit rest behind bit, ?_⟩
  rw [← hPayload, flipBit_append_right]

/-- A file is refused once a bit has flipped in a block that it carries. -/
theorem exists_extract_flipBit_eq_error {jpeg out : Bytes} {blocks : List Block}
    (h : splice jpeg blocks = .ok out) (hCrc : ∀ b ∈ blocks, b.flags.crc = true) {t : Segment}
    (hMem : t ∈ cartridges out) {place : Nat} (hMagic : Block.magic.length ≤ place)
    (hPlace : place < t.payload.length) (bit : Fin 8) (limit : Nat) :
    ∃ cause, extract (flipBit out (t.start + 4 + place) bit) limit = .error cause := by
  obtain ⟨b, hBlock, hEncode⟩ := exists_mem_of_forall₂ (forall₂_encode_cartridges h) hMem
  obtain ⟨s, payloads, hLimit, -, -, rfl⟩ := exists_withCartridge_of_splice h
  rw [cartridges_toBytes, List.mem_filter] at hMem
  obtain ⟨hSegment, hCartridge⟩ := hMem
  obtain ⟨byte, hByte, hFlip⟩ := flipBit_eq_set hPlace bit
  obtain ⟨cause, hDecode⟩ := Block.exists_decode_set_eq_error hEncode (hCrc b hBlock) hPlace hByte
  rw [← hFlip] at hDecode
  obtain ⟨head, tail, hHead, hBytes, hChange⟩ := Stream.exists_around_payload hSegment
  obtain ⟨damaged, hDamaged, hSeen⟩ := hChange _ (length_flipBit _ place bit)
  have hOut : flipBit (s.withCartridge payloads hLimit).toBytes (t.start + 4 + place) bit
      = damaged.toBytes := by
    rw [hBytes, ← hHead, flipBit_append_right, flipBit_append_left _ hPlace, hDamaged]
  rw [hOut]
  have hStill := Segment.isCartridge_flipBit hCartridge hMagic bit
  exact exists_extract_eq_error hSeen hStill hDecode limit

end Marker

namespace Cartridge

/-- With a checksum in each extra block, each block of a cartridge has one. -/
theorem crc_of_mem_toBlocks {c : Cartridge} {blocks : List Block}
    (hBlocks : c.toBlocks = .ok blocks)
    (hExtra : ∀ b ∈ c.extra, b.flags.crc = true) : ∀ b ∈ blocks, b.flags.crc = true := by
  intro b hMem
  rcases new_or_extra_of_mem_toBlocks hBlocks hMem with ⟨hNew, -⟩ | hOld
  · rw [hNew]
    rfl
  · exact hExtra b hOld

/-- A storable cartridge whose blocks have checksums can be written into any file with
a scan marker. The flip of one bit in one of the written blocks, behind the magic, then
makes the file a plain image. -/
theorem readFrom_flipBit {c : Cartridge} {jpeg : Bytes} {point : Nat} (hStorable : c.Storable)
    (hCrc : ∀ b ∈ c.extra, b.flags.crc = true) (hPoint : Marker.locate jpeg = .ok point)
    (hSize : ∀ blocks, c.toBlocks = .ok blocks →
      ∀ b ∈ blocks, b.encodedLength ≤ Marker.payloadLimit) :
    ∃ out, c.writeInto jpeg = .ok out ∧
      ∀ t ∈ Marker.cartridges out, ∀ place, 4 ≤ place → place < t.payload.length →
        ∀ (bit : Fin 8) (ceiling : Nat), ∃ cause,
          readFrom (flipBit out (t.start + 4 + place) bit) ceiling = .error cause ∧
            ∀ limits observer, limits.maxCartridgeBytes = ceiling →
              Player.openFile (flipBit out (t.start + 4 + place) bit) limits observer
                = ({ limits, mode := .inert cause, view := .identity, tick := 0, queued := none },
                  observer) := by
  obtain ⟨blocks, hBlocks⟩ := hStorable.exists_toBlocks
  obtain ⟨out, hSplice⟩ := Marker.exists_splice_eq_ok hPoint (hSize blocks hBlocks)
  refine ⟨out, writeInto_eq_ok_iff.mpr ⟨blocks, hBlocks, hSplice⟩, ?_⟩
  intro t hMem place hMagic hPlace bit ceiling
  obtain ⟨cause, hExtract⟩ := Marker.exists_extract_flipBit_eq_error hSplice
    (crc_of_mem_toBlocks hBlocks hCrc) hMem hMagic hPlace bit ceiling
  have hRead : readFrom (flipBit out (t.start + 4 + place) bit) ceiling = .error cause := by
    rw [readFrom, hExtract, error_bind]
  refine ⟨cause, hRead, ?_⟩
  rintro limits observer rfl
  simp only [Player.openFile, hRead]

/-- A cartridge with both tables and a palette, which has a checksum as well. -/
def sealedCartridge : Cartridge :=
  { fullCartridge with extra := [.new .lutPalette [9, 9]] }

theorem sealedCartridge_storable : sealedCartridge.Storable :=
  { fullCartridge_storable with
    extra_unread := by decide
    extra_canonical := by decide }

/-- Five segments, and not one bit behind their magic can be flipped unseen. -/
theorem readFrom_flipBit_sealedCartridge :
    sealedCartridge.Storable ∧ (∀ b ∈ sealedCartridge.extra, b.flags.crc = true) ∧
      Marker.locate Marker.busyJpeg = .ok 20 ∧
      ∃ out, sealedCartridge.writeInto Marker.busyJpeg = .ok out ∧
        (Marker.cartridges out).length = 5 ∧
        ∀ t ∈ Marker.cartridges out, ∀ place, 4 ≤ place → place < t.payload.length →
          ∀ bit, ∃ cause, readFrom (flipBit out (t.start + 4 + place) bit) 200 = .error cause := by
  obtain ⟨blocks, hBlocks, hSize, hCount⟩ : ∃ blocks, sealedCartridge.toBlocks = .ok blocks ∧
      (∀ b ∈ blocks, b.encodedLength ≤ Marker.payloadLimit) ∧ blocks.length = 5 :=
    ⟨_, rfl, by decide, rfl⟩
  have hSealed : ∀ b ∈ sealedCartridge.extra, b.flags.crc = true := by decide
  refine ⟨sealedCartridge_storable, hSealed, Marker.locate_busyJpeg, ?_⟩
  obtain ⟨out, hWrite, hDamage⟩ := readFrom_flipBit sealedCartridge_storable hSealed
    Marker.locate_busyJpeg fun blocks' hBlocks' => by
      cases hBlocks.symm.trans hBlocks'
      exact hSize
  obtain ⟨blocks', hBlocks', hSplice⟩ := writeInto_eq_ok_iff.mp hWrite
  cases hBlocks.symm.trans hBlocks'
  refine ⟨out, hWrite, ?_, fun t hMem place hMagic hPlace bit => ?_⟩
  · rw [← (Marker.forall₂_encode_cartridges hSplice).length_eq, hCount]
  · obtain ⟨cause, hRead, -⟩ := hDamage t hMem place hMagic hPlace bit 200
    exact ⟨cause, hRead⟩

end Cartridge

end ImageCartridge
