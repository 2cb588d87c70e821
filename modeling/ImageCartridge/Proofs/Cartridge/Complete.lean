import ImageCartridge.Proofs.Cartridge.Loaded
import Mathlib.Data.List.Rotate

/-! Which lists of blocks make up a whole cartridge. Their order matters to the extra
blocks only. -/
namespace ImageCartridge.Cartridge

open Fallible

/-- A list of blocks with all that a cartridge needs. The payloads whose layout is known
are plain and can be read, those of truth tables under the grid of the header. -/
structure Complete (blocks : List Block) : Prop where
  one_header : (blocks.map Block.kind).count .header = 1
  one_bytecode : (blocks.map Block.kind).count .bytecode = 1
  truthTables_le : (blocks.map Block.kind).count .truthTable ≤ 1
  stringTables_le : (blocks.map Block.kind).count .stringTable ≤ 1
  plain : ∀ b ∈ blocks, Plain b
  header : ∀ head ∈ blocks, head.kind = .header →
    ∃ header, Header.ofBytes head.payload = .ok header ∧
      ∃ grid, InputGrid.ofSize header.gridColumns header.gridRows = .ok grid ∧
        ∀ b ∈ blocks, b.kind = .truthTable → ∃ table, TruthTable.ofBytes b.payload grid = .ok table
  stringTable : ∀ b ∈ blocks, b.kind = .stringTable →
    ∃ table, StringTable.ofBytes b.payload = .ok table

theorem length_ofKind (kind : BlockKind) (blocks : List Block) :
    (ofKind kind blocks).length = (blocks.map Block.kind).count kind := by
  rw [List.count_eq_countP, List.countP_map, List.countP_eq_length_filter]
  simp [ofKind, Function.comp_def, beq_eq_decide]

/-- Tables that can be read all find room exactly if there is at most one. -/
theorem exists_forall₂_toList_iff {α : Type} {R : Block → α → Prop} {blocks : List Block} :
    (∃ place : Option α, List.Forall₂ R blocks place.toList) ↔
      blocks.length ≤ 1 ∧ ∀ b ∈ blocks, ∃ table, R b table := by
  match blocks with
  | [] => exact ⟨fun _ => by simp, fun _ => ⟨none, .nil⟩⟩
  | [b] =>
      constructor
      · rintro ⟨_ | table, hRead⟩
        · cases hRead
        · cases hRead with
          | cons hHead _ => simpa using ⟨table, hHead⟩
      · rintro ⟨-, hRead⟩
        obtain ⟨table, hHead⟩ := hRead b (by simp)
        exact ⟨some table, .cons hHead .nil⟩
  | _ :: _ :: _ =>
      constructor
      · rintro ⟨place, hRead⟩
        cases place <;> simpa using hRead.length_eq
      · rintro ⟨hLength, -⟩
        simp at hLength

/-- A list of blocks makes up a cartridge exactly if it is complete. -/
theorem exists_madeOf_iff {blocks : List Block} : (∃ c, MadeOf blocks c) ↔ Complete blocks := by
  constructor
  · rintro ⟨c, hPlain, ⟨head, hHead, hHeader⟩, ⟨code, hCode, -⟩, ⟨grid, hGrid, hTruth⟩, hTexts, -⟩
    obtain ⟨hTruthCount, hTruth⟩ := exists_forall₂_toList_iff.mp ⟨_, hTruth⟩
    obtain ⟨hTextsCount, hTexts⟩ := exists_forall₂_toList_iff.mp ⟨_, hTexts⟩
    simp only [mem_ofKind, and_imp] at hTruth hTexts
    simp only [length_ofKind] at hTruthCount hTextsCount
    refine ⟨?_, ?_, hTruthCount, hTextsCount, hPlain, ?_, hTexts⟩
    · rw [← length_ofKind, hHead, List.length_singleton]
    · rw [← length_ofKind, hCode, List.length_singleton]
    -- There is one header only, so its grid is the one under which the tables were read.
    · intro b hMem hKind
      have hOnly : b ∈ ofKind .header blocks := mem_ofKind.mpr ⟨hMem, hKind⟩
      rw [hHead, List.mem_singleton] at hOnly
      exact ⟨c.header, hOnly ▸ hHeader, grid, hGrid, hTruth⟩
  · rintro ⟨hHead, hCode, hTruthCount, hTextsCount, hPlain, hHeader, hTexts⟩
    simp only [← length_ofKind] at hHead hCode hTruthCount hTextsCount
    obtain ⟨head, hHead⟩ := List.length_eq_one_iff.mp hHead
    obtain ⟨code, hCode⟩ := List.length_eq_one_iff.mp hCode
    obtain ⟨hMem, hKind⟩ := mem_ofKind.mp (hHead ▸ List.mem_singleton_self head)
    obtain ⟨header, hHeader, grid, hGrid, hTruth⟩ := hHeader head hMem hKind
    obtain ⟨truthTable, hTruth⟩ :=
      exists_forall₂_toList_iff.mpr ⟨hTruthCount, by simpa using hTruth⟩
    obtain ⟨stringTable, hTexts⟩ :=
      exists_forall₂_toList_iff.mpr ⟨hTextsCount, by simpa using hTexts⟩
    exact ⟨⟨header, code.payload, truthTable, stringTable, unread blocks⟩, hPlain,
      ⟨head, hHead, hHeader⟩, ⟨code, hCode, rfl⟩, ⟨grid, hGrid, hTruth⟩, hTexts, rfl⟩

section Perm

variable {blocks other : List Block} (hPerm : other.Perm blocks)
include hPerm

/-- What a cartridge needs does not depend on the order of its blocks. -/
theorem Complete.perm (h : Complete blocks) : Complete other := by
  have hCount := (hPerm.map Block.kind).count_eq
  constructor
  · exact (hCount .header).trans h.one_header
  · exact (hCount .bytecode).trans h.one_bytecode
  · exact (hCount .truthTable).trans_le h.truthTables_le
  · exact (hCount .stringTable).trans_le h.stringTables_le
  · simpa only [hPerm.mem_iff] using h.plain
  · simpa only [hPerm.mem_iff] using h.header
  · simpa only [hPerm.mem_iff] using h.stringTable

/-- There is only one order for the blocks of a kind that comes once. -/
theorem ofKind_eq_of_perm {kind : BlockKind} (hOnce : (ofKind kind blocks).length ≤ 1) :
    ofKind kind other = ofKind kind blocks := by
  have hSame : (ofKind kind other).Perm (ofKind kind blocks) := hPerm.filter _
  cases hBlocks : ofKind kind blocks with
  | nil => exact List.perm_nil.mp (hBlocks ▸ hSame)
  | cons b rest =>
      obtain rfl : rest = [] := by simpa [hBlocks] using hOnce
      exact List.perm_singleton.mp (hBlocks ▸ hSame)

/-- Other orders of the blocks make up the same cartridge, provided that the extra ones keep
theirs. -/
theorem MadeOf.perm (hUnread : unread other = unread blocks) {c : Cartridge}
    (h : MadeOf blocks c) : MadeOf other c := by
  obtain ⟨hHead, hCode, hTruth, hTexts, -⟩ := exists_madeOf_iff.mp ⟨c, h⟩
  simp only [← length_ofKind] at hHead hCode hTruth hTexts
  obtain ⟨hPlain, hHeader, hBytecode, hTruthTable, hStringTable, hExtra⟩ := h
  rw [← ofKind_eq_of_perm hPerm hHead.le] at hHeader
  rw [← ofKind_eq_of_perm hPerm hCode.le] at hBytecode
  rw [← ofKind_eq_of_perm hPerm hTruth] at hTruthTable
  rw [← ofKind_eq_of_perm hPerm hTexts] at hStringTable
  exact ⟨fun b hMem => hPlain b (hPerm.mem_iff.mp hMem), hHeader, hBytecode, hTruthTable,
    hStringTable, hExtra.trans hUnread.symm⟩

end Perm

/-- Exactly the complete lists of blocks are put together. The cartridge keeps the blocks
that are not read as they are, and its own blocks give it back. Other orders are accepted
as well, and those that leave the unread blocks in order give the same cartridge. -/
theorem ofBlocks_normalForm (blocks : List Block) :
    ((∃ c, ofBlocks blocks = .ok c) ↔ Complete blocks) ∧
      (∀ c, ofBlocks blocks = .ok c → c.extra = unread blocks ∧
        ∃ own, c.toBlocks = .ok own ∧ ofBlocks own = .ok c) ∧
      ∀ other : List Block, other.Perm blocks →
        ((∃ c, ofBlocks other = .ok c) ↔ ∃ c, ofBlocks blocks = .ok c) ∧
        (unread other = unread blocks → ∀ c, ofBlocks blocks = .ok c → ofBlocks other = .ok c) := by
  refine ⟨?_, ?_, ?_⟩
  · simp only [ofBlocks_eq_ok_iff, exists_madeOf_iff]
  · intro c hBlocks
    obtain ⟨grid, hParts⟩ := exists_assembledFrom_of_ofBlocks hBlocks
    exact ⟨hParts.extra_eq, hParts.exists_toBlocks⟩
  · intro other hPerm
    simp only [ofBlocks_eq_ok_iff, exists_madeOf_iff]
    exact ⟨⟨Complete.perm hPerm.symm, Complete.perm hPerm⟩,
      fun hUnread c hParts => hParts.perm hPerm hUnread⟩

/-- The header may come after the tables. -/
theorem ofBlocks_normalForm_fullCartridge :
    ∃ own, fullCartridge.toBlocks = .ok own ∧ (own.rotate 2).Perm own ∧
      unread (own.rotate 2) = unread own ∧ ofBlocks own = .ok fullCartridge ∧
        ofBlocks (own.rotate 2) = .ok fullCartridge := by
  obtain ⟨own, hOwn, hUnread⟩ : ∃ own, fullCartridge.toBlocks = .ok own ∧
      unread (own.rotate 2) = unread own := ⟨_, rfl, by decide⟩
  obtain ⟨grid, hGrid, hTable⟩ := fullCartridge_storable.tableFits
  have hBlocks := ofBlocks_of_toBlocks hOwn fullCartridge_storable.extra_unread hGrid hTable
  have hPerm : (own.rotate 2).Perm own := own.rotate_perm 2
  have hOther := ((ofBlocks_normalForm own).2.2 _ hPerm).2 hUnread _ hBlocks
  exact ⟨own, hOwn, hPerm, hUnread, hBlocks, hOther⟩

end ImageCartridge.Cartridge
