import ImageCartridge.Proofs.Cartridge.File
import ImageCartridge.Proofs.Cartridge.Parts
import ImageCartridge.Proofs.Payload.Decoded

/-! What is known of a cartridge that was put together from blocks. It has blocks
of its own, which give it back, and these are hardly larger than the others. -/
namespace ImageCartridge

open Fallible

namespace Cartridge

/-- A table that is there now was there before or is read from one of some blocks. -/
def CameFrom {α : Type} (kind : BlockKind) (read : Bytes → Except SchemaError α)
    (blocks : List Block) (before after : Option α) : Prop :=
  ∀ table, after = some table →
    before = some table ∨ ∃ b ∈ blocks, b.kind = kind ∧ read b.payload = .ok table

section CameFrom

variable {α : Type} {kind : BlockKind} {read : Bytes → Except SchemaError α}
  {blocks : List Block} {after : Option α}

theorem cameFrom_ofKind
    (h : List.Forall₂ (fun b table => read b.payload = .ok table) (ofKind kind blocks)
      after.toList) : CameFrom kind read blocks none after := by
  intro table hTable
  obtain ⟨b, hMem, hRead⟩ := exists_mem_of_forall₂ h (Option.mem_toList.mpr hTable)
  obtain ⟨hBlock, hKind⟩ := mem_ofKind.mp hMem
  exact Or.inr ⟨b, hBlock, hKind, hRead⟩

/-- A table of a cartridge can be traced to the block it was read from. -/
theorem CameFrom.exists_mem {table : α} (h : CameFrom kind read blocks none (some table)) :
    ∃ b ∈ blocks, b.kind = kind ∧ read b.payload = .ok table :=
  (h table rfl).resolve_left nofun

end CameFrom

/-- Where the parts of a cartridge come from that was put together from blocks. -/
structure AssembledFrom (blocks : List Block) (grid : InputGrid) (c : Cartridge) : Prop where
  inputGrid_eq : c.inputGrid = .ok grid
  extra_eq : c.extra = blocks.filter fun b => !b.kind.hasSchema
  bytecode : ∃ b ∈ blocks, b.kind = .bytecode ∧ b.payload = c.bytecode
  truthTable : CameFrom .truthTable (TruthTable.ofBytes · grid) blocks none c.truthTable
  stringTable : CameFrom .stringTable StringTable.ofBytes blocks none c.stringTable

/-- Every part of an accepted cartridge comes from some block of the list. -/
theorem exists_assembledFrom_of_ofBlocks {blocks : List Block} {c : Cartridge}
    (h : ofBlocks blocks = .ok c) : ∃ grid, AssembledFrom blocks grid c := by
  obtain ⟨-, -, ⟨code, hCode, hPayload⟩, ⟨grid, hGrid, hTruth⟩, hTexts, hExtra⟩ :=
    ofBlocks_eq_ok_iff.mp h
  have hMem : code ∈ ofKind .bytecode blocks := hCode ▸ List.mem_singleton_self code
  obtain ⟨hBlock, hKind⟩ := mem_ofKind.mp hMem
  exact ⟨grid, hGrid, hExtra, ⟨code, hBlock, hKind, hPayload⟩, cameFrom_ofKind hTruth,
    cameFrom_ofKind hTexts⟩

namespace AssembledFrom

variable {blocks : List Block} {grid : InputGrid} {c : Cartridge}

/-- No block of unknown layout is lost, and none is made up. -/
theorem mem_extra_iff (h : AssembledFrom blocks grid c) {b : Block} :
    b ∈ c.extra ↔ b ∈ blocks ∧ b.kind.hasSchema = false := by
  rw [h.extra_eq, List.mem_filter, Bool.not_eq_true']

/-- A cartridge that was put together can be taken apart, and its own blocks give
it back. -/
theorem exists_toBlocks (h : AssembledFrom blocks grid c) :
    ∃ own, c.toBlocks = .ok own ∧ ofBlocks own = .ok c := by
  have hTexts : ∃ texts, c.stringTable.mapM StringTable.toBytes = .ok texts := by
    cases hTable : c.stringTable with
    | none => exact ⟨none, rfl⟩
    | some table =>
        obtain ⟨b, _, _, hRead⟩ := (hTable ▸ h.stringTable).exists_mem
        obtain ⟨bytes, hBytes, _⟩ := StringTable.exists_toBytes_of_ofBytes hRead
        exact ⟨some bytes, optionMapM_eq_ok_iff.mpr (Or.inr ⟨table, bytes, rfl, hBytes, rfl⟩)⟩
  have hTable : c.TableFits grid := by
    intro table hTable
    obtain ⟨b, _, _, hRead⟩ := (hTable ▸ h.truthTable).exists_mem
    exact (TruthTable.toBytes_of_ofBytes hRead).2
  obtain ⟨texts, hTexts⟩ := hTexts
  have hOwn := toBlocks_eq_ok_iff.mpr ⟨texts, hTexts, rfl⟩
  exact ⟨_, hOwn, ofBlocks_of_toBlocks hOwn (fun b hMem => (h.mem_extra_iff.mp hMem).2)
    h.inputGrid_eq hTable⟩

/-- What one of its own blocks is to the blocks a cartridge was put together from:
the header, which has a size of its own, an extra block, which is one of them, or a
block with a checksum for one whose payload was no shorter. -/
theorem cases_of_mem_toBlocks (h : AssembledFrom blocks grid c) {own : List Block}
    (hOwn : c.toBlocks = .ok own) {b : Block} (hMem : b ∈ own) :
    b = .new .header c.header.toBytes ∨ b ∈ blocks ∨ ∃ old ∈ blocks, old.kind = b.kind ∧
      b.encodedLength ≤ Block.headLength + old.payload.length + Block.crcLength ∧
      (b.kind = .bytecode ∨ b.kind = .stringTable ∨
        b.kind = .truthTable ∧ ∃ n, old.payload.length = 4 + 9 * n) := by
  obtain ⟨texts, hTexts, rfl⟩ := toBlocks_eq_ok_iff.mp hOwn
  simp only [List.mem_cons, List.mem_append, tableBlocks, Option.mem_toList,
    Option.map_eq_some_iff] at hMem
  rcases hMem with rfl | rfl | (⟨table, hTable, rfl⟩ | ⟨bytes, rfl, rfl⟩) | hExtra
  · exact Or.inl rfl
  · obtain ⟨old, hOld, hKind, hPayload⟩ := h.bytecode
    exact Or.inr (Or.inr ⟨old, hOld, hKind, by rw [hPayload]; exact Nat.le_refl _, Or.inl rfl⟩)
  · obtain ⟨old, hOld, hKind, hRead⟩ := (hTable ▸ h.truthTable).exists_mem
    obtain ⟨hBytes, -⟩ := TruthTable.toBytes_of_ofBytes hRead
    refine Or.inr (Or.inr ⟨old, hOld, hKind, ?_, Or.inr (Or.inr ⟨rfl, table.size, ?_⟩)⟩)
    · rw [← hBytes]
      exact Nat.le_refl _
    · rw [← hBytes, table.length_toBytes]
  · rcases optionMapM_eq_ok_iff.mp hTexts with ⟨_, hNone⟩ | ⟨table, _, hTable, hBytes, hSome⟩
    · cases hNone
    · cases hSome
      obtain ⟨old, hOld, hKind, hRead⟩ := (hTable ▸ h.stringTable).exists_mem
      obtain ⟨written, hWritten, hLength⟩ := StringTable.exists_toBytes_of_ofBytes hRead
      cases hBytes.symm.trans hWritten
      refine Or.inr (Or.inr ⟨old, hOld, hKind, ?_, Or.inr (Or.inl rfl)⟩)
      exact Nat.add_le_add_right (Nat.add_le_add_left hLength _) _
  · exact Or.inr (Or.inl (h.mem_extra_iff.mp hExtra).1)

/-- If the blocks fit their segments, nothing but the bytecode and the string table
of the cartridge can have outgrown its own, by a checksum that was not there before. -/
theorem grown_of_mem_toBlocks (h : AssembledFrom blocks grid c) {own : List Block}
    (hOwn : c.toBlocks = .ok own) (hSize : ∀ b ∈ blocks, b.encodedLength ≤ Marker.payloadLimit)
    {b : Block} (hMem : b ∈ own) (hLarge : Marker.payloadLimit < b.encodedLength) :
    (b.kind = .bytecode ∨ b.kind = .stringTable) ∧ ∃ old ∈ blocks, old.kind = b.kind ∧
      old.flags.crc = false ∧ b.encodedLength ≤ old.encodedLength + Block.crcLength := by
  rcases h.cases_of_mem_toBlocks hOwn hMem with rfl | hOld | ⟨old, hOld, hKind, hLength, hCases⟩
  · have hHeader : (Block.new .header c.header.toBytes).encodedLength = 45 := by
      rw [Block.encodedLength, Block.new, c.header.length_toBytes]
      rfl
    rw [hHeader] at hLarge
    exact absurd hLarge (by decide)
  · exact absurd (hSize b hOld) (Nat.not_le_of_lt hLarge)
  · have hFits := hSize old hOld
    unfold Block.encodedLength at hFits
    have hCrc : old.flags.crc = false := by
      cases hFlag : old.flags.crc with
      | false => rfl
      | true =>
          rw [Block.trailerLength, hFlag, if_pos rfl] at hFits
          omega
    refine ⟨?_, old, hOld, hKind, hCrc, ?_⟩
    · rcases hCases with hCode | hTexts | ⟨_, n, hRecords⟩
      · exact Or.inl hCode
      · exact Or.inr hTexts
      -- Records of nine bytes never end within four bytes of the limit.
      · unfold Marker.payloadLimit Block.headLength Block.crcLength at *
        omega
    · unfold Block.encodedLength
      exact Nat.le_trans hLength (by omega)

end AssembledFrom

end Cartridge

end ImageCartridge
