import ImageCartridge.Cartridge.Assembly
import ImageCartridge.Marker.Splice

namespace ImageCartridge

namespace Cartridge

/-- Write a cartridge into a file, in place of the one it carries. -/
def writeInto (c : Cartridge) (jpeg : Bytes) : Except CartridgeError Bytes := do
  Marker.splice jpeg (← c.toBlocks.mapError .schema)

/-- Read the cartridge of a file. Its segments may hold no more bytes than the
ceiling. -/
def readFrom (jpeg : Bytes) (ceiling : Nat) : Except CartridgeError Cartridge := do
  ofBlocks (← Marker.extract jpeg ceiling)

def defaultCeiling : Nat := 1048576

end Cartridge

end ImageCartridge
