import ImageCartridge.Bytes

namespace ImageCartridge

/-- What a touch is looked up by: the mode, the kind of touch, the region, the
gesture and the time bucket. -/
structure TouchKey where
  modeBits : UInt8 := 0
  touchType : UInt8 := 0
  region : UInt16 := 0
  gesture : UInt8 := 0
  timeBucket : UInt8 := 0
  deriving DecidableEq, Hashable, Repr

namespace TouchKey

def byteLength : Nat := 6

def ofRegion (region : UInt16) : TouchKey :=
  { region }

/-- The six bytes of a key, region with its high byte first. -/
def toBytes (key : TouchKey) : Bytes :=
  [key.modeBits, key.touchType] ++ BigEndian.encode 2 key.region.toNat
    ++ [key.gesture, key.timeBucket]

/-- The key spelled by six bytes. Bytes that are missing count as zero. -/
def ofBytes (bytes : Bytes) : TouchKey where
  modeBits := bytes.getD 0 0
  touchType := bytes.getD 1 0
  region := UInt16.ofNat (BigEndian.value [bytes.getD 2 0, bytes.getD 3 0])
  gesture := bytes.getD 4 0
  timeBucket := bytes.getD 5 0

end TouchKey

end ImageCartridge
