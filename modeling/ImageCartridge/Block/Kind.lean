namespace ImageCartridge

/-- What a block carries. Type bytes without an assigned kind are kept, so that
a block of a kind unknown here can be written back. -/
inductive BlockKind where
  | header
  | bytecode
  | truthTable
  | lutPalette
  | stringTable
  | signature
  | fs
  | unknown (byte : UInt8)
  deriving DecidableEq, Repr

namespace BlockKind

def ofByte (byte : UInt8) : BlockKind :=
  if byte = 1 then header
  else if byte = 2 then bytecode
  else if byte = 3 then truthTable
  else if byte = 4 then lutPalette
  else if byte = 5 then stringTable
  else if byte = 6 then signature
  else if byte = 7 then fs
  else unknown byte

def toByte : BlockKind → UInt8
  | header => 1
  | bytecode => 2
  | truthTable => 3
  | lutPalette => 4
  | stringTable => 5
  | signature => 6
  | fs => 7
  | unknown byte => byte

/-- A kind that is read back from its own type byte. Only `unknown` can fail
this, when its byte belongs to an assigned kind. -/
def IsCanonical (kind : BlockKind) : Prop :=
  ofByte kind.toByte = kind

instance (kind : BlockKind) : Decidable kind.IsCanonical :=
  inferInstanceAs (Decidable (ofByte kind.toByte = kind))

/-- Every type byte is written back as it was read. -/
@[simp] theorem toByte_ofByte (byte : UInt8) : (ofByte byte).toByte = byte := by
  unfold ofByte
  repeat' split
  all_goals simp_all [toByte]

/-- Only a kind that was never read from a byte can fail to be canonical. -/
theorem ofByte_isCanonical (byte : UInt8) : (ofByte byte).IsCanonical := by
  simp [IsCanonical]

def name : BlockKind → String
  | header => "header"
  | bytecode => "bytecode"
  | truthTable => "truth table"
  | lutPalette => "lut palette"
  | stringTable => "string table"
  | signature => "signature"
  | fs => "fs"
  | unknown _ => "unknown"

/-- Kinds whose payload has a layout known here. The payload of every other
kind is carried along unread. -/
def hasSchema : BlockKind → Bool
  | header | bytecode | truthTable | stringTable => true
  | lutPalette | signature | fs | unknown _ => false

/-- Only unknown kinds can fail to be canonical, and they have no layout. -/
theorem isCanonical_of_hasSchema {kind : BlockKind} (h : kind.hasSchema = true) :
    kind.IsCanonical := by
  cases kind with
  | unknown byte => cases h
  | _ => rfl

end BlockKind

end ImageCartridge
