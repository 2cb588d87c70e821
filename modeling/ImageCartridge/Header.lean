import ImageCartridge.Payload.Reader
import ImageCartridge.Text.Utf8

namespace ImageCartridge

open Payload Text

/-- The header of a cartridge. The two capability hints and the four tag bytes
are kept as words, first byte highest. -/
structure Header where
  entryPoint : UInt32 := 0
  framebufferWidth : UInt16 := 512
  framebufferHeight : UInt16 := 512
  frameRate : UInt16 := 8
  gridColumns : UInt16 := 64
  gridRows : UInt16 := 64
  features : UInt32 := 0
  capabilityHints : UInt16 := 0
  osTag : UInt32 := 0x534E414B
  deriving DecidableEq, Repr

namespace Header

/-- The header payload, thirty bytes. Four bytes before the hints and two
behind them are reserved and written as zero. -/
def toBytes (h : Header) : Bytes :=
  BigEndian.encode 4 h.entryPoint.toNat
    ++ BigEndian.encode 2 h.framebufferWidth.toNat
    ++ BigEndian.encode 2 h.framebufferHeight.toNat
    ++ BigEndian.encode 2 h.frameRate.toNat
    ++ BigEndian.encode 2 h.gridColumns.toNat
    ++ BigEndian.encode 2 h.gridRows.toNat
    ++ BigEndian.encode 4 h.features.toNat
    ++ BigEndian.encode 4 0
    ++ BigEndian.encode 2 h.capabilityHints.toNat
    ++ BigEndian.encode 2 0
    ++ BigEndian.encode 4 h.osTag.toNat

/-- Read the fields in the order they are written. The reserved bytes may hold
anything. -/
def read : Read Header := do
  let entryPoint ← Reader.word32
  let framebufferWidth ← Reader.word16
  let framebufferHeight ← Reader.word16
  let frameRate ← Reader.word16
  let gridColumns ← Reader.word16
  let gridRows ← Reader.word16
  let features ← Reader.word32
  let _reserved ← Reader.word32
  let capabilityHints ← Reader.word16
  let _reserved ← Reader.word16
  let osTag ← Reader.word32
  return { entryPoint, framebufferWidth, framebufferHeight, frameRate, gridColumns, gridRows,
           features, capabilityHints, osTag }

def ofBytes (bytes : Bytes) : Except SchemaError Header :=
  Reader.decode "header" read bytes

/-- The tag as text. Bytes that are no text show as replacement characters. -/
def tagText (h : Header) : String :=
  String.ofList (Utf8.lossy (BigEndian.encode 4 h.osTag.toNat))

/-- The report of a header, one field a line between two line breaks. -/
def display (h : Header) : String :=
  "\nEntry point:              " ++ Hex.number 4 h.entryPoint.toNat
    ++ s!"\nFramebuffer:              {h.framebufferWidth.toNat}x{h.framebufferHeight.toNat}"
    ++ s!"\nFrame rate:               {h.frameRate.toNat}"
    ++ s!"\nInput grid:               {h.gridColumns.toNat}x{h.gridRows.toNat}"
    ++ "\nFeature flags:            " ++ Hex.number 8 h.features.toNat
    ++ "\nCapability hints:         "
    ++ Hex.byteList (BigEndian.encode 2 h.capabilityHints.toNat)
    ++ "\nSubsystem tag:            " ++ h.tagText
    ++ " (" ++ Hex.number 8 h.osTag.toNat ++ ")\n"

end Header

end ImageCartridge
