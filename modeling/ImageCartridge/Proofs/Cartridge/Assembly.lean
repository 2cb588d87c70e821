import ImageCartridge.Cartridge.Assembly
import ImageCartridge.Proofs.Payload.Codec

/-! Putting a cartridge together from its own blocks gives the cartridge. -/
namespace ImageCartridge.Cartridge

open Fallible

def tableBlocks (c : Cartridge) (texts : Option Bytes) : List Block :=
  (c.truthTable.map fun table => Block.new .truthTable table.toBytes).toList
    ++ (texts.map (Block.new .stringTable)).toList

/-- A cartridge can fail to become blocks only for its texts. -/
theorem toBlocks_eq_ok_iff {c : Cartridge} {blocks : List Block} :
    c.toBlocks = .ok blocks ↔ ∃ texts, c.stringTable.mapM StringTable.toBytes = .ok texts ∧
      blocks = .new .header c.header.toBytes :: .new .bytecode c.bytecode
        :: (c.tableBlocks texts ++ c.extra) := by
  unfold toBlocks tableBlocks
  rw [bind_eq_ok_iff]
  refine exists_congr fun texts => and_congr_right fun _ => ?_
  simp only [List.cons_append, List.nil_append, List.append_assoc]
  exact ⟨fun h => (Except.ok.inj h).symm, fun h => h ▸ rfl⟩

/-- Neither a table nor an extra block is taken for a header or for bytecode. -/
theorem filter_tableBlocks_append_extra {c : Cartridge} (texts : Option Bytes)
    (hExtra : ∀ b ∈ c.extra, b.kind.hasSchema = false) (kind : BlockKind)
    (hKind : kind = .header ∨ kind = .bytecode) :
    (c.tableBlocks texts ++ c.extra).filter (fun b => b.kind = kind) = [] := by
  rw [List.filter_eq_nil_iff]
  intro b hMem hEq
  rw [decide_eq_true_eq] at hEq
  have hOther : b.kind = .truthTable ∨ b.kind = .stringTable ∨ b.kind.hasSchema = false := by
    simp only [tableBlocks, List.mem_append, Option.mem_toList,
      Option.map_eq_some_iff] at hMem
    rcases hMem with (⟨_, _, rfl⟩ | ⟨_, _, rfl⟩) | hMem
    · exact Or.inl rfl
    · exact Or.inr (Or.inl rfl)
    · exact Or.inr (Or.inr (hExtra b hMem))
  rw [hEq] at hOther
  rcases hKind with rfl | rfl <;> simp [BlockKind.hasSchema] at hOther

/-- Tables are never taken for extra blocks. -/
theorem filter_tableBlocks_unread (c : Cartridge) (texts : Option Bytes) :
    (c.tableBlocks texts).filter (fun b => !b.kind.hasSchema) = [] := by
  rw [List.filter_eq_nil_iff]
  intro b hMem
  simp only [tableBlocks, List.mem_append, Option.mem_toList,
    Option.map_eq_some_iff] at hMem
  rcases hMem with ⟨_, _, rfl⟩ | ⟨_, _, rfl⟩ <;> simp [Block.new, BlockKind.hasSchema]

/-- One step of the assembly: read a block and take its table in. -/
def absorb (grid : InputGrid) (c : Cartridge) (b : Block) : Except CartridgeError Cartridge := do
  let content ← (Content.ofBlock b grid).mapError .schema
  (c.add content).mapError .incomplete

/-- Taking a block in is reading it and then finding room for what it holds. -/
theorem absorb_eq {grid : InputGrid} {c : Cartridge} {b : Block} {content : Content}
    (h : Content.ofBlock b grid = .ok content) :
    absorb grid c b = (c.add content).mapError .incomplete := by
  rw [absorb, h, mapError_ok, ok_bind]

/-- The header was read before, so meeting its block again changes nothing. -/
theorem absorb_header (grid : InputGrid) (c : Cartridge) (h : Header) :
    absorb grid c (.new .header h.toBytes) = .ok c := by
  have hContent : Content.ofBlock (.new .header h.toBytes) grid = .ok (.header h) := by
    simp [Content.ofBlock, Block.new, BlockFlags.withCrc, Header.ofBytes_toBytes, Except.map]
  rw [absorb_eq hContent]
  rfl

theorem absorb_truthTable {c : Cartridge} {table : TruthTable} (hNone : c.truthTable = none)
    (hSize : table.size < UInt32.size) :
    absorb table.grid c (.new .truthTable table.toBytes)
      = .ok { c with truthTable := some table } := by
  have hContent : Content.ofBlock (.new .truthTable table.toBytes) table.grid
      = .ok (.truthTable table) := by
    simp [Content.ofBlock, Block.new, BlockFlags.withCrc, TruthTable.ofBytes_toBytes hSize,
      Except.map]
  have hAdd : c.add (.truthTable table) = .ok { c with truthTable := some table } := by
    simp [add, hNone]
  rw [absorb_eq hContent, hAdd, mapError_ok]

theorem absorb_stringTable (grid : InputGrid) {c : Cartridge} {table : StringTable} {bytes : Bytes}
    (hNone : c.stringTable = none) (hBytes : table.toBytes = .ok bytes) :
    absorb grid c (.new .stringTable bytes) = .ok { c with stringTable := some table } := by
  have hContent : Content.ofBlock (.new .stringTable bytes) grid = .ok (.stringTable table) := by
    simp [Content.ofBlock, Block.new, BlockFlags.withCrc, StringTable.ofBytes_of_toBytes hBytes,
      Except.map]
  have hAdd : c.add (.stringTable table) = .ok { c with stringTable := some table } := by
    simp [add, hNone]
  rw [absorb_eq hContent, hAdd, mapError_ok]

theorem absorb_unread (grid : InputGrid) (c : Cartridge) {b : Block}
    (h : b.kind.hasSchema = false) : absorb grid c b = .ok c := by
  have hContent : Content.ofBlock b grid = .ok (.unread b) := by
    unfold Content.ofBlock
    rw [h, Bool.false_and, if_neg Bool.false_ne_true]
    cases hKind : b.kind <;> simp [hKind, BlockKind.hasSchema] at h ⊢
  rw [absorb_eq hContent]
  rfl

theorem foldlM_absorb_unread (grid : InputGrid) (c : Cartridge) {blocks : List Block}
    (h : ∀ b ∈ blocks, b.kind.hasSchema = false) : blocks.foldlM (absorb grid) c = .ok c := by
  induction blocks with
  | nil => rfl
  | cons b blocks ih =>
      rw [List.foldlM_cons, absorb_unread grid c (h b List.mem_cons_self)]
      exact ih fun other hMem => h other (List.mem_cons_of_mem _ hMem)

/-- On the blocks of a cartridge, header, bytecode and extra blocks are found
again. What is left to do is to check the grid and to take in the tables. -/
theorem ofBlocks_eq {c : Cartridge} {blocks : List Block} (hBlocks : c.toBlocks = .ok blocks)
    (hExtra : ∀ b ∈ c.extra, b.kind.hasSchema = false) :
    ofBlocks blocks = c.inputGrid.mapError .schema >>= fun grid =>
      blocks.foldlM (absorb grid)
        { header := c.header, bytecode := c.bytecode, extra := c.extra } := by
  obtain ⟨texts, -, rfl⟩ := toBlocks_eq_ok_iff.mp hBlocks
  have hOther := filter_tableBlocks_append_extra texts hExtra
  have hHead : sole .header (.new .header c.header.toBytes :: .new .bytecode c.bytecode
      :: (c.tableBlocks texts ++ c.extra)) = .ok (.new .header c.header.toBytes) := by
    simp only [sole, List.filter_cons, hOther .header (Or.inl rfl)]
    rfl
  have hCode : sole .bytecode (.new .header c.header.toBytes :: .new .bytecode c.bytecode
      :: (c.tableBlocks texts ++ c.extra)) = .ok (.new .bytecode c.bytecode) := by
    simp only [sole, List.filter_cons, hOther .bytecode (Or.inr rfl)]
    rfl
  have hUnread : (.new .header c.header.toBytes :: .new .bytecode c.bytecode
      :: (c.tableBlocks texts ++ c.extra)).filter (fun b => !b.kind.hasSchema) = c.extra := by
    have hAll : c.extra.filter (fun b => !b.kind.hasSchema) = c.extra :=
      List.filter_eq_self.mpr fun b hMem => by rw [hExtra b hMem]; rfl
    rw [List.filter_cons_of_neg (by simp [Block.new, BlockKind.hasSchema]),
      List.filter_cons_of_neg (by simp [Block.new, BlockKind.hasSchema]),
      List.filter_append, filter_tableBlocks_unread, List.nil_append, hAll]
  have hPlain : ¬ (Block.new .header c.header.toBytes).flags.compressed = true :=
    Bool.false_ne_true
  have hRead : Header.ofBytes (Block.new .header c.header.toBytes).payload = .ok c.header :=
    Header.ofBytes_toBytes c.header
  unfold ofBlocks
  rw [hHead, hCode, hUnread]
  simp only [mapError_ok, ok_bind, if_neg hPlain, hRead]
  rfl

/-- What a table needs to be read back under the grid of the header. -/
def TableFits (c : Cartridge) (grid : InputGrid) : Prop :=
  ∀ table, c.truthTable = some table → table.grid = grid ∧ table.size < UInt32.size

/-- The blocks of a cartridge, taken in one after the other, give its tables back. -/
theorem foldlM_absorb_blocks {c : Cartridge} {blocks : List Block} {grid : InputGrid}
    (hBlocks : c.toBlocks = .ok blocks) (hExtra : ∀ b ∈ c.extra, b.kind.hasSchema = false)
    (hTable : c.TableFits grid) :
    blocks.foldlM (absorb grid)
      { header := c.header, bytecode := c.bytecode, extra := c.extra } = .ok c := by
  obtain ⟨texts, hTexts, rfl⟩ := toBlocks_eq_ok_iff.mp hBlocks
  have hCode : ∀ c' : Cartridge, absorb grid c' (.new .bytecode c.bytecode) = .ok c' :=
    fun _ => rfl
  obtain ⟨header, bytecode, truthTable, stringTable, extra⟩ := c
  -- Either table finds its place empty, so neither counts as a duplicate.
  have hFirst : List.foldlM (absorb grid) { header, bytecode, extra }
      (truthTable.map fun table => Block.new .truthTable table.toBytes).toList
        = .ok { header, bytecode, truthTable, extra } := by
    cases truthTable with
    | none => rfl
    | some table =>
        obtain ⟨rfl, hSize⟩ := hTable table rfl
        rw [Option.map_some, Option.toList_some, List.foldlM_cons, absorb_truthTable rfl hSize]
        rfl
  have hSecond : List.foldlM (absorb grid) { header, bytecode, truthTable, extra }
      (texts.map (Block.new .stringTable)).toList
        = .ok { header, bytecode, truthTable, stringTable, extra } := by
    rcases optionMapM_eq_ok_iff.mp hTexts with ⟨hNone, rfl⟩ | ⟨table, bytes, hSome, hBytes, rfl⟩
    · change stringTable = none at hNone
      subst hNone
      rfl
    · change stringTable = some table at hSome
      subst hSome
      rw [Option.map_some, Option.toList_some, List.foldlM_cons,
        absorb_stringTable grid rfl hBytes]
      rfl
  rw [List.foldlM_cons, absorb_header, ok_bind, List.foldlM_cons, hCode, ok_bind,
    List.foldlM_append, tableBlocks, List.foldlM_append, hFirst, ok_bind, hSecond, ok_bind]
  exact foldlM_absorb_unread grid _ hExtra

/-- A cartridge whose grid is accepted comes back whole. -/
theorem ofBlocks_of_toBlocks {c : Cartridge} {blocks : List Block} {grid : InputGrid}
    (hBlocks : c.toBlocks = .ok blocks) (hExtra : ∀ b ∈ c.extra, b.kind.hasSchema = false)
    (hGrid : c.inputGrid = .ok grid) (hTable : c.TableFits grid) : ofBlocks blocks = .ok c := by
  rw [ofBlocks_eq hBlocks hExtra, hGrid]
  exact foldlM_absorb_blocks hBlocks hExtra hTable

/-- A cartridge whose grid is refused does not come back, even without a table
that would need the grid. -/
theorem ofBlocks_badGrid {c : Cartridge} {blocks : List Block} {cause : SchemaError}
    (hBlocks : c.toBlocks = .ok blocks) (hExtra : ∀ b ∈ c.extra, b.kind.hasSchema = false)
    (hGrid : c.inputGrid = .error cause) : ofBlocks blocks = .error (.schema cause) := by
  rw [ofBlocks_eq hBlocks hExtra, hGrid]
  rfl

end ImageCartridge.Cartridge
