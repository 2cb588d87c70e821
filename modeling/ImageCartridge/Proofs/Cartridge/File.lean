import ImageCartridge.Cartridge.File
import ImageCartridge.Proofs.Cartridge.Assembly
import ImageCartridge.Proofs.Marker.Splice

/-! Cartridges written into files and read out of them again. -/
namespace ImageCartridge.Cartridge

open Fallible

/-- Writing fails in one of two ways: the parts do not become blocks, or the blocks find no place
in the file. -/
theorem writeInto_eq_ok_iff {c : Cartridge} {jpeg out : Bytes} :
    c.writeInto jpeg = .ok out ↔
      ∃ blocks, c.toBlocks = .ok blocks ∧ Marker.splice jpeg blocks = .ok out := by
  unfold writeInto
  simp only [bind_eq_ok_iff, mapError_eq_ok_iff]

/-- A cartridge makes each of its blocks anew, with a checksum, unless it is an extra
block. -/
theorem new_or_extra_of_mem_toBlocks {c : Cartridge} {blocks : List Block}
    (hBlocks : c.toBlocks = .ok blocks) {b : Block} (hMem : b ∈ blocks) :
    (b = .new b.kind b.payload ∧ b.kind.hasSchema = true) ∨ b ∈ c.extra := by
  obtain ⟨texts, -, rfl⟩ := toBlocks_eq_ok_iff.mp hBlocks
  simp only [List.mem_cons, List.mem_append, tableBlocks, Option.mem_toList,
    Option.map_eq_some_iff] at hMem
  rcases hMem with rfl | rfl | (⟨_, _, rfl⟩ | ⟨_, _, rfl⟩) | hMem
  · exact Or.inl ⟨rfl, rfl⟩
  · exact Or.inl ⟨rfl, rfl⟩
  · exact Or.inl ⟨rfl, rfl⟩
  · exact Or.inl ⟨rfl, rfl⟩
  · exact Or.inr hMem

/-- The blocks of a cartridge are of canonical kinds if its extra blocks are. -/
theorem isCanonical_of_toBlocks {c : Cartridge} {blocks : List Block}
    (hBlocks : c.toBlocks = .ok blocks) (hExtra : ∀ b ∈ c.extra, b.kind.IsCanonical) :
    ∀ b ∈ blocks, b.kind.IsCanonical := by
  intro b hMem
  rcases new_or_extra_of_mem_toBlocks hBlocks hMem with ⟨-, hSchema⟩ | hOld
  · exact BlockKind.isCanonical_of_hasSchema hSchema
  · exact hExtra b hOld

/-- Reading a file that blocks were spliced into comes down to the blocks. -/
theorem readFrom_of_splice {jpeg out : Bytes} {blocks : List Block} {limit : Nat}
    (hSplice : Marker.splice jpeg blocks = .ok out) (hKind : ∀ b ∈ blocks, b.kind.IsCanonical)
    (hTotal : (blocks.map Block.encodedLength).sum ≤ limit) :
    readFrom out limit = ofBlocks blocks := by
  rw [readFrom, Marker.extract_of_splice hSplice hKind hTotal, ok_bind]

/-- A header that leaves room for a prologue of three bytes. -/
def plainHeader : Header := { entryPoint := 3 }

def plainBlocks (code : Bytes) : List Block :=
  [⟨1, .header, .empty, plainHeader.toBytes⟩, ⟨1, .bytecode, .empty, code⟩]

/-- A file with nothing but these two blocks before its scan marker. -/
def plainFile (code : Bytes) : Bytes :=
  [0xFF, 0xD8] ++ (plainBlocks code).flatMap (fun b => Marker.frame b.body) ++ [0xFF, 0xDA]

/-- The plain file is what comes of writing its two blocks into an empty image. -/
theorem splice_plainBlocks {code : Bytes} (hCode : code.length ≤ 65522) :
    Marker.splice [0xFF, 0xD8, 0xFF, 0xDA] (plainBlocks code) = .ok (plainFile code) := by
  have hPayloads : (plainBlocks code).mapM Marker.segmentPayload
      = .ok ((plainBlocks code).map Block.body) := by
    refine mapM_eq_ok_iff.mpr (.cons rfl (.cons ?_ .nil))
    have hEncode : Block.encode ⟨1, .bytecode, .empty, code⟩
        = .ok (Block.body ⟨1, .bytecode, .empty, code⟩) :=
      Block.encode_eq_ok_iff.mpr ⟨Nat.lt_of_le_of_lt hCode (by decide), (List.append_nil _).symm⟩
    refine Marker.segmentPayload_eq_ok_iff.mpr ⟨hEncode, ?_⟩
    rw [Block.body_length]
    exact Nat.add_le_add_left hCode Block.headLength
  have hWalk : Marker.walk [0xFF, 0xD8, 0xFF, 0xDA] = ⟨[], .ok 2⟩ := by cbv
  rw [Marker.splice, hPayloads, ok_bind, hWalk, plainFile, ← List.flatMap_map]
  rfl

/-- The plain file can be read with any bytecode that fits a segment. -/
theorem readFrom_plainFile {code : Bytes} (hCode : code.length ≤ 65522) {limit : Nat}
    (hLimit : 52 + code.length ≤ limit) :
    readFrom (plainFile code) limit = .ok { header := plainHeader, bytecode := code } := by
  have hTotal : ((plainBlocks code).map Block.encodedLength).sum = 52 + code.length := by
    simp only [plainBlocks, List.map_cons, List.map_nil, List.sum_cons, List.sum_nil,
      Block.encodedLength, Header.length_toBytes]
    exact (Nat.add_assoc 41 11 code.length).symm
  have hKind : ∀ b ∈ plainBlocks code, b.kind.IsCanonical := by
    simp [plainBlocks, BlockKind.IsCanonical]
    decide
  rw [readFrom_of_splice (splice_plainBlocks hCode) hKind (hTotal.trans_le hLimit)]
  rfl

/-- A cartridge that survives being written: the grid of its header is accepted
and its table has that grid, numbers and texts fit their length fields, and its
extra blocks are of canonical kinds that are carried along unread. -/
structure Storable (c : Cartridge) : Prop where
  tableFits : ∃ grid, c.inputGrid = .ok grid ∧ c.TableFits grid
  stringsFit : ∀ table, c.stringTable = some table → table.size ≤ StringTable.fieldLimit
  textsFit : ∀ table, c.stringTable = some table → ∀ entry ∈ table.toList,
    (Text.Utf8.encode entry.1).length ≤ StringTable.fieldLimit ∧
      (Text.Utf8.encode entry.2).length ≤ StringTable.fieldLimit
  extra_unread : ∀ b ∈ c.extra, b.kind.hasSchema = false
  extra_canonical : ∀ b ∈ c.extra, b.kind.IsCanonical

/-- The lengths that a storable cartridge must keep to are all that its blocks ask for. -/
theorem Storable.exists_toBlocks {c : Cartridge} (h : c.Storable) :
    ∃ blocks, c.toBlocks = .ok blocks := by
  have hTexts : ∃ texts, c.stringTable.mapM StringTable.toBytes = .ok texts := by
    cases hTable : c.stringTable with
    | none => exact ⟨none, rfl⟩
    | some table =>
        obtain ⟨bytes, hBytes⟩ :=
          StringTable.exists_toBytes (h.stringsFit table hTable) (h.textsFit table hTable)
        exact ⟨some bytes, optionMapM_eq_ok_iff.mpr (Or.inr ⟨table, bytes, rfl, hBytes, rfl⟩)⟩
  obtain ⟨texts, hTexts⟩ := hTexts
  exact ⟨_, toBlocks_eq_ok_iff.mpr ⟨texts, hTexts, rfl⟩⟩

/-- A storable cartridge whose blocks fit their segments can be written into any
file with a scan marker, and is read back the same. Equal maps have their
entries in the same order. -/
theorem writeInto_roundTrip {c : Cartridge} {jpeg : Bytes} {point limit : Nat}
    (hStorable : c.Storable) (hPoint : Marker.locate jpeg = .ok point)
    (hSize : ∀ blocks, c.toBlocks = .ok blocks →
      ∀ b ∈ blocks, b.encodedLength ≤ Marker.payloadLimit)
    (hTotal : ∀ blocks, c.toBlocks = .ok blocks →
      (blocks.map Block.encodedLength).sum ≤ limit) :
    ∃ out, c.writeInto jpeg = .ok out ∧ readFrom out limit = .ok c := by
  obtain ⟨blocks, hBlocks⟩ := hStorable.exists_toBlocks
  obtain ⟨grid, hGrid, hTable⟩ := hStorable.tableFits
  obtain ⟨out, hSplice⟩ := Marker.exists_splice_eq_ok hPoint (hSize blocks hBlocks)
  refine ⟨out, writeInto_eq_ok_iff.mpr ⟨blocks, hBlocks, hSplice⟩, ?_⟩
  rw [readFrom_of_splice hSplice (isCanonical_of_toBlocks hBlocks hStorable.extra_canonical)
    (hTotal blocks hBlocks)]
  exact ofBlocks_of_toBlocks hBlocks hStorable.extra_unread hGrid hTable

def fullCartridge : Cartridge where
  header := { gridColumns := 20, gridRows := 24 }
  bytecode := [0x40, 0x01, 0x01]
  truthTable := some ⟨⟨20, 24, by decide, by decide, by decide⟩,
    ⟨#[(.ofRegion 479, 3), (.ofRegion 7, 1)], _, by decide, rfl⟩⟩
  stringTable := some ⟨⟨#[("title", "Snake"), ("\u00fc", "")], _, by decide, rfl⟩⟩
  extra := [.new .lutPalette [9, 9], ⟨2, .unknown 0x30, ⟨false, true⟩, []⟩]

theorem fullCartridge_storable : fullCartridge.Storable where
  tableFits := ⟨⟨20, 24, by decide, by decide, by decide⟩, rfl, by
    intro table hTable
    cases hTable
    exact ⟨rfl, by decide⟩⟩
  stringsFit := by
    intro table hTable
    cases hTable
    decide
  textsFit := by
    intro table hTable
    cases hTable
    decide
  extra_unread := by decide
  extra_canonical := by decide

/-- The file it is written into has a cartridge already, and an application segment of another
program. -/
theorem writeInto_roundTrip_fullCartridge :
    fullCartridge.Storable ∧ Marker.locate Marker.busyJpeg = .ok 20 ∧
      ∃ out, fullCartridge.writeInto Marker.busyJpeg = .ok out ∧
        readFrom out 200 = .ok fullCartridge := by
  obtain ⟨blocks, hBlocks, hSize, hTotal⟩ : ∃ blocks, fullCartridge.toBlocks = .ok blocks ∧
      (∀ b ∈ blocks, b.encodedLength ≤ Marker.payloadLimit) ∧
      (blocks.map Block.encodedLength).sum ≤ 200 := ⟨_, rfl, by decide, by decide⟩
  refine ⟨fullCartridge_storable, Marker.locate_busyJpeg, ?_⟩
  refine writeInto_roundTrip fullCartridge_storable Marker.locate_busyJpeg ?_ ?_
  · intro blocks' hBlocks'
    cases hBlocks.symm.trans hBlocks'
    exact hSize
  · intro blocks' hBlocks'
    cases hBlocks.symm.trans hBlocks'
    exact hTotal

end ImageCartridge.Cartridge
