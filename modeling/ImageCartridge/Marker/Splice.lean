import ImageCartridge.Marker.Walk

/-! Writing blocks into the marker stream and reading them back. A file carries
one cartridge: writing drops the cartridge segments already there and leaves
every other byte as it is. -/
namespace ImageCartridge.Marker

/-- The largest payload of a segment. Its length field holds two more. -/
def payloadLimit : Nat := 65533

/-- The encoding of a block, provided that it fits one segment. -/
def segmentPayload (b : Block) : Except CartridgeError Bytes := do
  let bytes ← b.encode.mapError .capacity
  if payloadLimit < bytes.length then
    throw (.capacity (.segmentTooLarge bytes.length payloadLimit))
  return bytes

def frame (payload : Bytes) : Bytes :=
  [lead, app11] ++ BigEndian.encode 2 (payload.length + 2) ++ payload

/-- Cut segments out of the bytes that begin at an offset. The segments are in
file order and do not overlap. -/
def cut (offset : Nat) : List Segment → Bytes → Bytes
  | [], bytes => bytes
  | s :: later, bytes =>
      bytes.take (s.start - offset) ++ cut s.stop later (bytes.drop (s.stop - offset))

/-- Write blocks right before the scan marker, in place of the cartridge
segments already there. A block too large is refused before the file is looked
at. -/
def splice (jpeg : Bytes) (blocks : List Block) : Except CartridgeError Bytes := do
  let payloads ← blocks.mapM segmentPayload
  let seen := walk jpeg
  let point ← seen.outcome.mapError .structural
  let stale := seen.segments.filter Segment.isCartridge
  return cut 0 stale (jpeg.take point) ++ payloads.flatMap frame ++ jpeg.drop point

/-- Decode segment payloads in order, as long as their sizes add up to no more
than a limit. The first failure is the answer; at one segment the limit counts
before the contents. -/
def collect (limit : Nat) : Nat → List Segment → Except CartridgeError (List Block)
  | _, [] => .ok []
  | total, s :: later => do
      let total := total + s.payload.length
      if limit < total then
        throw (.capacity (.cartridgeTooLarge limit))
      let b ← (Block.decode s.payload).mapError .block
      let rest ← collect limit total later
      return b :: rest

/-- All blocks of a file in file order. A failure in a segment comes before a
failure of the marker stream behind it. -/
def extract (jpeg : Bytes) (limit : Nat) : Except CartridgeError (List Block) := do
  let seen := walk jpeg
  let blocks ← collect limit 0 (seen.segments.filter Segment.isCartridge)
  let _ ← seen.outcome.mapError CartridgeError.structural
  return blocks

end ImageCartridge.Marker
