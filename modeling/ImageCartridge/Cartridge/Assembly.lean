import ImageCartridge.Header
import ImageCartridge.Input.TruthTable
import ImageCartridge.StringTable
import ImageCartridge.Block.Codec

/-! A cartridge is the set of blocks one file carries: a header and bytecode,
perhaps a truth table and a string table, and blocks that are carried along
unread. -/
namespace ImageCartridge

/-- The payload of a block, read according to its kind. -/
inductive Content where
  | header (header : Header)
  | bytecode (code : Bytes)
  | truthTable (table : TruthTable)
  | stringTable (table : StringTable)
  | unread (block : Block)

/-- Read the payload of a block. The grid quantizes touch keys and comes from
the header of the cartridge. Compressed payloads are refused where the layout
is known; blocks of other kinds are taken as they are. -/
def Content.ofBlock (b : Block) (grid : InputGrid) : Except SchemaError Content :=
  if b.kind.hasSchema && b.flags.compressed then .error (.compressed b.kind)
  else
    match b.kind with
    | .header => (Header.ofBytes b.payload).map header
    | .bytecode => .ok (bytecode b.payload)
    | .truthTable => (TruthTable.ofBytes b.payload grid).map truthTable
    | .stringTable => (StringTable.ofBytes b.payload).map stringTable
    | .lutPalette | .signature | .fs | .unknown _ => .ok (unread b)

/-- A program with its tables. The extra blocks keep their order in the file. -/
structure Cartridge where
  header : Header
  bytecode : Bytes
  truthTable : Option TruthTable := none
  stringTable : Option StringTable := none
  extra : List Block := []
  deriving DecidableEq

namespace Cartridge

def inputGrid (c : Cartridge) : Except SchemaError InputGrid :=
  InputGrid.ofSize c.header.gridColumns c.header.gridRows

/-- The blocks of a cartridge: header, bytecode, truth table, string table, and
the extra blocks. -/
def toBlocks (c : Cartridge) : Except SchemaError (List Block) := do
  let texts ← c.stringTable.mapM StringTable.toBytes
  return [.new .header c.header.toBytes, .new .bytecode c.bytecode]
    ++ (c.truthTable.map fun table => Block.new .truthTable table.toBytes).toList
    ++ (texts.map (Block.new .stringTable)).toList
    ++ c.extra

/-- Checks that a kind occurs exactly once, and gives the block. -/
def sole (kind : BlockKind) (blocks : List Block) : Except CompletenessError Block :=
  match blocks.filter fun b => b.kind = kind with
  | [] => .error (.missing kind)
  | [b] => .ok b
  | several => .error (.repeated several.length kind)

/-- Take the table of one block into a cartridge. Each of the two tables may
come only once; all other content has its place already. -/
def add (c : Cartridge) : Content → Except CompletenessError Cartridge
  | .header _ | .bytecode _ | .unread _ => .ok c
  | .truthTable table =>
      if c.truthTable.isSome then .error (.duplicate .truthTable)
      else .ok { c with truthTable := some table }
  | .stringTable table =>
      if c.stringTable.isSome then .error (.duplicate .stringTable)
      else .ok { c with stringTable := some table }

/-- Put a cartridge together from blocks in any order. Header and bytecode must
be there once each, which is checked first; the header is read before all other
payloads, and those in order. Blocks of the other kinds cannot fail. -/
def ofBlocks (blocks : List Block) : Except CartridgeError Cartridge := do
  let head ← (sole .header blocks).mapError .incomplete
  let code ← (sole .bytecode blocks).mapError .incomplete
  if head.flags.compressed then
    throw (.schema (.compressed .header))
  let header ← (Header.ofBytes head.payload).mapError .schema
  let grid ← (InputGrid.ofSize header.gridColumns header.gridRows).mapError .schema
  let extra := blocks.filter fun b => !b.kind.hasSchema
  blocks.foldlM (fun c b => do
    let content ← (Content.ofBlock b grid).mapError .schema
    (c.add content).mapError .incomplete) { header, bytecode := code.payload, extra }

end Cartridge

end ImageCartridge
