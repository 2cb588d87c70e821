import ImageCartridge.Error

namespace ImageCartridge

/-- The two properties a block can be flagged with. All other bits of the flag
byte are reserved, so a value of this type can always be written. -/
structure BlockFlags where
  crc : Bool
  compressed : Bool
  deriving DecidableEq, Repr

namespace BlockFlags

def empty : BlockFlags := ⟨false, false⟩

def withCrc : BlockFlags := ⟨true, false⟩

/-- The flag byte: checksum in the lowest bit, compression in the next. -/
def bits (flags : BlockFlags) : UInt8 :=
  (if flags.crc then 1 else 0) ||| (if flags.compressed then 2 else 0)

/-- Read a flag byte. A reserved bit makes it unsupported as a whole. -/
def ofBits (bits : UInt8) : Except BlockError BlockFlags :=
  if bits &&& 0xFC = 0 then .ok ⟨bits &&& 1 ≠ 0, bits &&& 2 ≠ 0⟩
  else .error (.unsupportedFlags bits)

/-- Flags that were written can be read: no value of the type sets a reserved bit. -/
@[simp] theorem ofBits_bits (flags : BlockFlags) : ofBits flags.bits = .ok flags := by
  rcases flags with ⟨_ | _, _ | _⟩ <;> rfl

end BlockFlags

end ImageCartridge
