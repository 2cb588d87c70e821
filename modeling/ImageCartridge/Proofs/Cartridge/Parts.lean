import ImageCartridge.Proofs.Cartridge.Assembly

/-! Which cartridge a list of blocks makes up: each of its parts is the content of the
blocks of one kind. -/
namespace ImageCartridge.Cartridge

open Fallible

def ofKind (kind : BlockKind) (blocks : List Block) : List Block :=
  blocks.filter fun b => b.kind = kind

def unread (blocks : List Block) : List Block :=
  blocks.filter fun b => !b.kind.hasSchema

@[simp] theorem mem_ofKind {kind : BlockKind} {blocks : List Block} {b : Block} :
    b ∈ ofKind kind blocks ↔ b ∈ blocks ∧ b.kind = kind := by
  simp [ofKind]

/-- A payload whose layout is known cannot be read if it is compressed. -/
def Plain (b : Block) : Prop :=
  b.kind.hasSchema = true → b.flags.compressed = false

/-- A kind occurs once if its blocks are a list of one. -/
theorem sole_eq_ok_iff {kind : BlockKind} {blocks : List Block} {b : Block} :
    sole kind blocks = .ok b ↔ ofKind kind blocks = [b] := by
  unfold sole ofKind
  cases blocks.filter fun b => b.kind = kind with
  | nil => simp
  | cons first others => cases others <;> simp

/-- The tables that are read from blocks all find room in a place for one. -/
def Fills {α : Type} (read : Bytes → Except SchemaError α) (blocks : List Block)
    (before after : Option α) : Prop :=
  ∃ tables, List.Forall₂ (fun b table => read b.payload = .ok table) blocks tables ∧
    before.toList ++ tables = after.toList

section Fills

variable {α : Type} {read : Bytes → Except SchemaError α} {b : Block} {blocks : List Block}
  {before after : Option α}

theorem fills_nil_iff : Fills read [] before after ↔ before = after := by
  cases before <;> cases after <;> simp [Fills]

/-- In an empty place there is room for one table, and nothing else is asked. -/
theorem fills_none_iff : Fills read blocks none after ↔
    List.Forall₂ (fun b table => read b.payload = .ok table) blocks after.toList := by
  simp [Fills]

/-- There is room for a table only as long as the place is free. -/
theorem fills_cons_iff : Fills read (b :: blocks) before after ↔
    before = none ∧ ∃ table, read b.payload = .ok table ∧ Fills read blocks (some table) after := by
  constructor
  · rintro ⟨_, hRead, hPlace⟩
    obtain ⟨table, tables, hHead, hLater, rfl⟩ := List.forall₂_cons_left_iff.mp hRead
    -- A place that is taken leaves no room for the table in front.
    have hFree : before = none := by
      cases before with
      | none => rfl
      | some other => cases after <;> simp at hPlace
    subst hFree
    exact ⟨rfl, table, hHead, tables, hLater, hPlace⟩
  · rintro ⟨rfl, table, hHead, tables, hLater, hPlace⟩
    exact ⟨table :: tables, .cons hHead hLater, hPlace⟩

end Fills

/-- What taking in blocks comes to: all of them can be read, the tables among them find
room, and nothing else changes. -/
@[mk_iff]
structure Gathers (grid : InputGrid) (start : Cartridge) (blocks : List Block)
    (c : Cartridge) : Prop where
  plain : ∀ b ∈ blocks, Plain b
  header : ∀ b ∈ blocks, b.kind = .header → ∃ h, Header.ofBytes b.payload = .ok h
  truthTable : Fills (TruthTable.ofBytes · grid) (ofKind .truthTable blocks)
    start.truthTable c.truthTable
  stringTable : Fills StringTable.ofBytes (ofKind .stringTable blocks)
    start.stringTable c.stringTable
  rest_eq : start.header = c.header ∧ start.bytecode = c.bytecode ∧ start.extra = c.extra

section Gathers

variable {grid : InputGrid} {start c c' : Cartridge} {b : Block} {blocks : List Block}

theorem gathers_nil_iff : Gathers grid start [] c ↔ start = c := by
  cases start
  cases c
  simp [gathers_iff, ofKind, fills_nil_iff, and_left_comm]

theorem absorb_eq_ok_iff : absorb grid c b = .ok c' ↔
    ∃ content, Content.ofBlock b grid = .ok content ∧ c.add content = .ok c' := by
  simp only [absorb, bind_eq_ok_iff, mapError_eq_ok_iff]

section

variable (hKind : b.kind = .truthTable)
include hKind

/-- A truth table is taken in only if there is none yet. -/
theorem absorb_eq_ok_iff_of_truthTable :
    absorb grid c b = .ok c' ↔ Plain b ∧ c.truthTable = none ∧
      ∃ table, TruthTable.ofBytes b.payload grid = .ok table ∧
        { c with truthTable := some table } = c' := by
  cases hFlag : b.flags.compressed with
  | true => simp [absorb_eq_ok_iff, Content.ofBlock, Plain, hKind, BlockKind.hasSchema, hFlag]
  | false =>
      cases hPlace : c.truthTable <;>
        simp [absorb_eq_ok_iff, Content.ofBlock, Plain, hKind, hFlag, map_eq_ok_iff, add, hPlace]

theorem gathers_cons_iff_of_truthTable :
    Gathers grid start (b :: blocks) c ↔ Plain b ∧ start.truthTable = none ∧
      ∃ table, TruthTable.ofBytes b.payload grid = .ok table ∧
        Gathers grid { start with truthTable := some table } blocks c := by
  simp [gathers_iff, ofKind, hKind, fills_cons_iff, ← exists_and_left, ← exists_and_right,
    and_assoc, and_left_comm]

end

section

variable (hKind : b.kind = .stringTable)
include hKind

/-- A string table is taken in only if there is none yet. -/
theorem absorb_eq_ok_iff_of_stringTable :
    absorb grid c b = .ok c' ↔ Plain b ∧ c.stringTable = none ∧
      ∃ table, StringTable.ofBytes b.payload = .ok table ∧
        { c with stringTable := some table } = c' := by
  cases hFlag : b.flags.compressed with
  | true => simp [absorb_eq_ok_iff, Content.ofBlock, Plain, hKind, BlockKind.hasSchema, hFlag]
  | false =>
      cases hPlace : c.stringTable <;>
        simp [absorb_eq_ok_iff, Content.ofBlock, Plain, hKind, hFlag, map_eq_ok_iff, add, hPlace]

theorem gathers_cons_iff_of_stringTable :
    Gathers grid start (b :: blocks) c ↔ Plain b ∧ start.stringTable = none ∧
      ∃ table, StringTable.ofBytes b.payload = .ok table ∧
        Gathers grid { start with stringTable := some table } blocks c := by
  simp [gathers_iff, ofKind, hKind, fills_cons_iff, ← exists_and_left, ← exists_and_right,
    and_assoc, and_left_comm]

end

section

variable (hTruth : b.kind ≠ .truthTable) (hTexts : b.kind ≠ .stringTable)
include hTruth hTexts

/-- Of the other blocks, only a header is looked into. -/
theorem absorb_eq_ok_iff_of_ne :
    absorb grid c b = .ok c' ↔
      Plain b ∧ (b.kind = .header → ∃ h, Header.ofBytes b.payload = .ok h) ∧ c = c' := by
  cases hKind : b.kind with
  | truthTable => exact absurd hKind hTruth
  | stringTable => exact absurd hKind hTexts
  | header | bytecode =>
      cases hFlag : b.flags.compressed <;>
        simp [absorb_eq_ok_iff, Content.ofBlock, Plain, hKind, BlockKind.hasSchema, hFlag,
          map_eq_ok_iff, add]
  | lutPalette | signature | fs | unknown byte =>
      simp [absorb_eq_ok_iff, Content.ofBlock, Plain, hKind, BlockKind.hasSchema, add]

/-- A block that carries no table only has to be readable. -/
theorem gathers_cons_iff_of_ne :
    Gathers grid start (b :: blocks) c ↔
      Plain b ∧ (b.kind = .header → ∃ h, Header.ofBytes b.payload = .ok h) ∧
        Gathers grid start blocks c := by
  simp [gathers_iff, ofKind, hTruth, hTexts, and_assoc, and_left_comm]

end

/-- Blocks can be taken in one after the other exactly if they can be taken in together. -/
theorem foldlM_absorb_eq_ok_iff :
    blocks.foldlM (absorb grid) start = .ok c ↔ Gathers grid start blocks c := by
  induction blocks generalizing start with
  | nil =>
      rw [gathers_nil_iff]
      exact ⟨Except.ok.inj, fun h => h ▸ rfl⟩
  | cons b blocks ih =>
      rw [List.foldlM_cons, bind_eq_ok_iff]
      by_cases hTruth : b.kind = .truthTable
      · simp [ih, absorb_eq_ok_iff_of_truthTable hTruth, gathers_cons_iff_of_truthTable hTruth,
          and_assoc]
      · by_cases hTexts : b.kind = .stringTable
        · simp [ih, absorb_eq_ok_iff_of_stringTable hTexts,
            gathers_cons_iff_of_stringTable hTexts, and_assoc]
        · simp [ih, absorb_eq_ok_iff_of_ne hTruth hTexts, gathers_cons_iff_of_ne hTruth hTexts,
            and_assoc]

end Gathers

/-- The cartridge that blocks make up: each of its parts is read from the one block of
its kind, the truth table under the grid of the header, and the extra blocks are left. -/
structure MadeOf (blocks : List Block) (c : Cartridge) : Prop where
  plain : ∀ b ∈ blocks, Plain b
  header : ∃ b, ofKind .header blocks = [b] ∧ Header.ofBytes b.payload = .ok c.header
  bytecode : ∃ b, ofKind .bytecode blocks = [b] ∧ b.payload = c.bytecode
  truthTable : ∃ grid, c.inputGrid = .ok grid ∧
    List.Forall₂ (fun b table => TruthTable.ofBytes b.payload grid = .ok table)
      (ofKind .truthTable blocks) c.truthTable.toList
  stringTable : List.Forall₂ (fun b table => StringTable.ofBytes b.payload = .ok table)
    (ofKind .stringTable blocks) c.stringTable.toList
  extra_eq : c.extra = unread blocks

/-- The assembly accepts just those lists that make up a cartridge, and gives that one. -/
theorem ofBlocks_eq_ok_iff {blocks : List Block} {c : Cartridge} :
    ofBlocks blocks = .ok c ↔ MadeOf blocks c := by
  constructor
  · intro h
    obtain ⟨head, hHead, h⟩ := bind_eq_ok_iff.mp h
    obtain ⟨code, hCode, h⟩ := bind_eq_ok_iff.mp h
    rw [mapError_eq_ok_iff, sole_eq_ok_iff] at hHead hCode
    split at h
    · cases h
    · obtain ⟨header, hHeader, h⟩ := bind_eq_ok_iff.mp h
      obtain ⟨grid, hGrid, h⟩ := bind_eq_ok_iff.mp h
      rw [mapError_eq_ok_iff] at hHeader hGrid
      obtain ⟨hPlain, -, hTruth, hTexts, rfl, hPayload, hExtra⟩ := foldlM_absorb_eq_ok_iff.mp h
      exact ⟨hPlain, ⟨head, hHead, hHeader⟩, ⟨code, hCode, hPayload⟩,
        ⟨grid, hGrid, fills_none_iff.mp hTruth⟩, fills_none_iff.mp hTexts, hExtra.symm⟩
  · rintro ⟨hPlain, ⟨head, hHead, hHeader⟩, ⟨code, hCode, hPayload⟩, ⟨grid, hGrid, hTruth⟩,
      hTexts, hExtra⟩
    have hOnly : ∀ b, b ∈ blocks ∧ b.kind = .header ↔ b = head := by
      simp [← mem_ofKind, hHead]
    obtain ⟨hMem, hKind⟩ := (hOnly head).mpr rfl
    have hFlag : ¬ head.flags.compressed = true := by
      simp [hPlain head hMem (by rw [hKind]; rfl)]
    have hRead : ∀ b ∈ blocks, b.kind = .header → ∃ h, Header.ofBytes b.payload = .ok h :=
      fun b hBlock hKind => ⟨c.header, (hOnly b).mp ⟨hBlock, hKind⟩ ▸ hHeader⟩
    have hGather := foldlM_absorb_eq_ok_iff.mpr
      (show Gathers grid ⟨c.header, code.payload, none, none, unread blocks⟩ blocks c from
        ⟨hPlain, hRead, fills_none_iff.mpr hTruth, fills_none_iff.mpr hTexts, rfl, hPayload,
          hExtra.symm⟩)
    rw [inputGrid] at hGrid
    rw [ofBlocks, sole_eq_ok_iff.mpr hHead, sole_eq_ok_iff.mpr hCode]
    simp only [mapError_ok, ok_bind, if_neg hFlag, hHeader, hGrid]
    exact hGather

end ImageCartridge.Cartridge
