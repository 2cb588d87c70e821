import ImageCartridge.Block.Kind
import ImageCartridge.Text.Hex

/-! Everything that can go wrong between a file and a cartridge. Each failure
is a cause with its data; its wording is one function of the cause. -/
namespace ImageCartridge

open Text

/-- A malformed marker stream. Offsets count from the start of the file. -/
inductive StructuralError where
  | notJpeg
  | truncated (offset : Nat)
  | expectedMarker (offset : Nat) (found : UInt8)
  | segmentLength (offset : Nat) (length : UInt16)
  | endBeforeScan (offset : Nat)
  deriving DecidableEq, Repr

/-- A byte string that is not the encoding of a block. -/
inductive BlockError where
  | badMagic (found : Bytes)
  | lengthMismatch (expected actual : Nat)
  | crcMismatch (stored computed : UInt32)
  | unsupportedFlags (bits : UInt8)
  deriving DecidableEq, Repr

/-- A block framed correctly whose payload does not fit its kind. -/
inductive SchemaError where
  | truncated (kind : String) (offset needed size : Nat)
  | trailingBytes (kind : String) (extra : Nat)
  | keyLength (found : UInt8)
  | duplicateKey (region : UInt16)
  | badGrid (columns rows : UInt16)
  | invalidUtf8
  | compressed (kind : BlockKind)
  | tooLong (what : String)
  deriving DecidableEq, Repr

/-- A set of blocks that does not make up one cartridge. -/
inductive CompletenessError where
  | missing (kind : BlockKind)
  | repeated (count : Nat) (kind : BlockKind)
  | duplicate (kind : BlockKind)
  deriving DecidableEq, Repr

/-- A size limit exceeded while writing or reading. -/
inductive CapacityError where
  | segmentTooLarge (size limit : Nat)
  | cartridgeTooLarge (limit : Nat)
  | payloadTooLarge (size : Nat)
  deriving DecidableEq, Repr

inductive CartridgeError where
  | structural (cause : StructuralError)
  | block (cause : BlockError)
  | schema (cause : SchemaError)
  | incomplete (cause : CompletenessError)
  | capacity (cause : CapacityError)
  deriving DecidableEq, Repr

/-- Coarse classes of failure, for reports. -/
inductive ErrorClass where
  | structural
  | integrity
  | schema
  | completeness
  | capacity
  deriving DecidableEq, Repr

def ErrorClass.name : ErrorClass → String
  | structural => "Structural"
  | integrity => "Integrity"
  | schema => "Schema"
  | completeness => "Completeness"
  | capacity => "Capacity"

/-- A block that cannot be framed counts as structural damage. A wrong checksum
or flag is a matter of integrity. -/
def CartridgeError.errorClass : CartridgeError → ErrorClass
  | structural _ => .structural
  | block (.badMagic _) | block (.lengthMismatch _ _) => .structural
  | block (.crcMismatch _ _) | block (.unsupportedFlags _) => .integrity
  | schema _ => .schema
  | incomplete _ => .completeness
  | capacity _ => .capacity

def StructuralError.message : StructuralError → String
  | notJpeg => "not a JPEG stream (missing start-of-image marker)"
  | truncated offset => "marker stream truncated at offset " ++ Hex.number 1 offset
  | expectedMarker offset found =>
      "expected marker prefix 0xFF at offset " ++ Hex.number 1 offset ++ ", found "
        ++ Hex.number 2 found.toNat
  | segmentLength offset length =>
      "segment at offset " ++ Hex.number 1 offset ++ " declares invalid length "
        ++ toString length.toNat
  | endBeforeScan offset =>
      "end-of-image at offset " ++ Hex.number 1 offset ++ " before start-of-scan"

def BlockError.message : BlockError → String
  | badMagic found => "bad block magic " ++ Hex.byteList found
  | lengthMismatch expected actual =>
      s!"block length mismatch: framing needs {expected} bytes, span has {actual}"
  | crcMismatch stored computed =>
      "block checksum mismatch: stored " ++ Hex.number 8 stored.toNat ++ ", computed "
        ++ Hex.number 8 computed.toNat
  | unsupportedFlags bits => "unsupported block flags " ++ Hex.number 2 bits.toNat

def SchemaError.message : SchemaError → String
  | truncated kind offset needed size =>
      s!"{kind} payload truncated: needed {needed} bytes at offset {offset}, have {size}"
  | trailingBytes kind extra => s!"{kind} payload has {extra} trailing bytes"
  | keyLength found => s!"truth table key length {found.toNat} (expected 6)"
  | duplicateKey region =>
      s!"truth table has more than one entry for key with region {region.toNat}"
  | badGrid columns rows =>
      s!"input grid {columns.toNat}x{rows.toNat} cannot be addressed by 16-bit region ids"
  | invalidUtf8 => "string table entry is not valid UTF-8"
  | compressed kind => s!"{kind.name} payload is marked compressed but no codec is defined"
  | tooLong what => s!"{what} does not fit its length field"

def CompletenessError.message : CompletenessError → String
  | missing kind => s!"missing {kind.name} block"
  | repeated count kind => s!"{count} {kind.name} blocks, expected one"
  | duplicate kind => s!"duplicate {kind.name} block"

def CapacityError.message : CapacityError → String
  | segmentTooLarge size limit =>
      s!"block of {size} bytes exceeds the segment limit of {limit}"
  | cartridgeTooLarge limit => s!"cartridge payloads exceed the ceiling of {limit} bytes"
  | payloadTooLarge size => s!"payload of {size} bytes does not fit a u32 length"

/-- The wording of a failure, opened by the layer it arose in. -/
def CartridgeError.message : CartridgeError → String
  | structural cause => "structural error: " ++ cause.message
  | block cause => "block error: " ++ cause.message
  | schema cause => "schema error: " ++ cause.message
  | incomplete cause => "incomplete cartridge: " ++ cause.message
  | capacity cause => "capacity error: " ++ cause.message

end ImageCartridge
