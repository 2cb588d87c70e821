import ImageCartridge.Block.Flags
import ImageCartridge.Crc32

/-! A block is the self-describing unit a cartridge is made of: the magic
`JCRT`, a version, a type byte, a flag byte, the payload length in four bytes,
the payload, and the CRC-32 of all of these if the flags ask for it. Numbers
are written most significant byte first. The codec never looks into the
payload. -/
namespace ImageCartridge

/-- One block. Its checksum is not kept, being a function of the other fields. -/
structure Block where
  version : UInt8
  kind : BlockKind
  flags : BlockFlags
  payload : Bytes
  deriving DecidableEq, Repr

namespace Block

/-- The bytes every block opens with, `JCRT`. -/
def magic : Bytes := [0x4A, 0x43, 0x52, 0x54]

def headLength : Nat := 11

def crcLength : Nat := 4

/-- A block of the current version, with a checksum. -/
def new (kind : BlockKind) (payload : Bytes) : Block :=
  { version := 1, kind, flags := .withCrc, payload }

/-- The bytes the flags add after the payload. -/
def trailerLength (flags : BlockFlags) : Nat :=
  if flags.crc then crcLength else 0

def encodedLength (b : Block) : Nat :=
  headLength + b.payload.length + trailerLength b.flags

/-- Everything the checksum covers. -/
def body (b : Block) : Bytes :=
  magic ++ [b.version, b.kind.toByte, b.flags.bits]
    ++ BigEndian.encode 4 b.payload.length ++ b.payload

/-- The encoding of a block. It fails only for a payload whose length does not
fit four bytes. -/
def encode (b : Block) : Except CapacityError Bytes :=
  if b.payload.length < UInt32.size then
    .ok (if b.flags.crc then
        b.body ++ BigEndian.encode crcLength (Crc32.checksum b.body).toNat
      else b.body)
  else .error (.payloadTooLarge b.payload.length)

/-- Read the checksum behind a body and compare it with the computed one. -/
def verify (body trailer : Bytes) : Except BlockError Unit :=
  let stored := UInt32.ofNat (BigEndian.value trailer)
  let computed := Crc32.checksum body
  if stored = computed then .ok () else .error (.crcMismatch stored computed)

/-- Read exactly one block. The magic is checked first, then the flags, then
the length, and the checksum last. -/
def decode (span : Bytes) : Except BlockError Block :=
  match span with
  | m₀ :: m₁ :: m₂ :: m₃ :: version :: kind :: bits :: l₀ :: l₁ :: l₂ :: l₃ :: rest => do
      if [m₀, m₁, m₂, m₃] ≠ magic then
        throw (.badMagic [m₀, m₁, m₂, m₃])
      let flags ← BlockFlags.ofBits bits
      let length := BigEndian.value [l₀, l₁, l₂, l₃]
      let expected := headLength + length + trailerLength flags
      if expected ≠ span.length then
        throw (.lengthMismatch expected span.length)
      let (payload, trailer) := rest.splitAt length
      if flags.crc then
        verify (span.take (headLength + length)) trailer
      return { version, kind := .ofByte kind, flags, payload }
  | _ => throw (.lengthMismatch headLength span.length)

end Block

end ImageCartridge
