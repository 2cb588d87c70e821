import ImageCartridge.Bytes

/-! The reflected CRC-32 with generator `0xEDB88320`, register and result
complemented. The register is shifted one bit at a time, so that each shift is
linear in exclusive or. -/
namespace ImageCartridge.Crc32

/-- The generator polynomial, lowest power in the highest bit. -/
def generator : UInt32 := 0xEDB88320

/-- Move the register down one bit. The generator is added when a one falls out. -/
@[inline] def shift (register : UInt32) : UInt32 :=
  if register &&& 1 = 1 then (register >>> 1) ^^^ generator else register >>> 1

/-- Take one byte into the register: eight shifts, its lowest bit first. -/
def feed (register : UInt32) (byte : UInt8) : UInt32 :=
  shift (shift (shift (shift (shift (shift (shift (shift (register ^^^ byte.toUInt32))))))))

def checksum (bytes : Bytes) : UInt32 :=
  bytes.foldl feed 0xFFFFFFFF ^^^ 0xFFFFFFFF

end ImageCartridge.Crc32
