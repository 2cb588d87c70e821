import ImageCartridge.Bytes

/-! The xorshift generator on 32-bit words with the shifts 13, 17 and 5. The
same seed gives the same words everywhere, so a game can be replayed. -/
namespace ImageCartridge

/-- A generator is the last word it gave, or its seed. -/
structure XorShift where
  state : UInt32
  deriving DecidableEq, Repr

namespace XorShift

/-- Mixed into a subsystem tag to form a seed. -/
def salt : UInt32 := 0xA5A5A5A5

/-- Start from a seed. Zero would be followed by zeros for ever, so the salt
stands in for it. -/
def ofSeed (seed : UInt32) : XorShift :=
  ⟨if seed = 0 then salt else seed⟩

def ofOsId (osId : UInt32) : XorShift :=
  ofSeed (salt ^^^ osId)

/-- Start from the bytes of a seed, most significant byte first. -/
def ofBytes (seed : Bytes) : XorShift :=
  ofSeed (UInt32.ofNat (BigEndian.value seed))

def next (word : UInt32) : UInt32 :=
  let word := word ^^^ (word <<< 13)
  let word := word ^^^ (word >>> 17)
  word ^^^ (word <<< 5)

def advance (rng : XorShift) : UInt32 × XorShift :=
  let word := next rng.state
  (word, ⟨word⟩)

/-- Draw a double word, its low half first. -/
def next64 (rng : XorShift) : UInt64 × XorShift :=
  let (low, rng) := rng.advance
  let (high, rng) := rng.advance
  ((high.toUInt64 <<< 32) ||| low.toUInt64, rng)

/-- The bytes of a word, least significant byte first. -/
def littleEndian (word : UInt32) : Bytes :=
  (BigEndian.encode 4 word.toNat).reverse

/-- Draw bytes, each word giving four of them. What the last word gives too
much is lost. -/
def fill (count : Nat) (rng : XorShift) : Bytes × XorShift :=
  if count = 0 then ([], rng)
  else
    let (word, rng) := rng.advance
    let (rest, rng) := fill (count - 4) rng
    ((littleEndian word).take count ++ rest, rng)
termination_by count

def skip : Nat → XorShift → XorShift
  | 0, rng => rng
  | count + 1, rng => skip count ⟨next rng.state⟩

end XorShift

end ImageCartridge
