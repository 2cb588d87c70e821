import ImageCartridge.Input.Grid
import ImageCartridge.Input.TouchKey
import ImageCartridge.OrderedMap
import ImageCartridge.Payload.Reader
import ImageCartridge.View

/-! The truth table maps quantized touches to command codes. Its payload is the
number of records in four bytes, and for each record the key length, the key
and the command. -/
namespace ImageCartridge

open Payload

/-- Commands by touch key, and the grid that quantizes touches. -/
structure TruthTable where
  grid : InputGrid
  commands : OrderedMap TouchKey UInt16
  deriving DecidableEq

namespace TruthTable

def empty (grid : InputGrid) : TruthTable :=
  ⟨grid, .empty⟩

def toList (table : TruthTable) : List (TouchKey × UInt16) :=
  table.commands.toList

def size (table : TruthTable) : Nat :=
  table.commands.size

def insert (table : TruthTable) (key : TouchKey) (command : UInt16) : TruthTable :=
  let ⟨grid, commands⟩ := table
  ⟨grid, commands.insert key command⟩

def lookup (table : TruthTable) (key : TouchKey) : Option UInt16 :=
  table.commands.get? key

/-- The command of a tap at a canvas point. Off the canvas there is none. -/
def resolveCanvas (table : TruthTable) (vx vy : Scalar) : Option UInt16 :=
  if vx.onCanvas && vy.onCanvas then table.lookup (.ofRegion (table.grid.regionAt vx vy))
  else none

/-- The command of a tap at a screen point. -/
def resolve (table : TruthTable) (view : View) (x y : Scalar) : Option UInt16 := do
  let (vx, vy) ← view.toCanvas? x y
  table.resolveCanvas vx vy

def recordBytes (entry : TouchKey × UInt16) : Bytes :=
  UInt8.ofNat TouchKey.byteLength :: entry.1.toBytes ++ BigEndian.encode 2 entry.2.toNat

def toBytes (table : TruthTable) : Bytes :=
  BigEndian.encode 4 table.size ++ table.toList.flatMap recordBytes

/-- Read one record into a table. A key must have six bytes and be new. -/
def readRecord (table : TruthTable) : Read TruthTable := do
  let keyLength ← Reader.byte
  if keyLength.toNat ≠ TouchKey.byteLength then
    throw (.keyLength keyLength)
  let key := TouchKey.ofBytes (← Reader.take TouchKey.byteLength)
  let command ← Reader.word16
  if table.commands.contains key then
    throw (.duplicateKey key.region)
  return table.insert key command

def readRecords : Nat → TruthTable → Read TruthTable
  | 0, table => return table
  | count + 1, table => do readRecords count (← readRecord table)

def ofBytes (bytes : Bytes) (grid : InputGrid) : Except SchemaError TruthTable :=
  Reader.decode "truth table" (do readRecords (← Reader.word32).toNat (empty grid)) bytes

end TruthTable

end ImageCartridge
