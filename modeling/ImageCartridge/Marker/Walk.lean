import ImageCartridge.Block.Codec

/-! The marker stream of a JPEG file, from the start of the image to the start
of the scan. What follows the scan marker is compressed image data and is never
looked at. -/
namespace ImageCartridge.Marker

/-- Introduces every marker. A run of these bytes before a marker is fill. -/
def lead : UInt8 := 0xFF

def soi : UInt8 := 0xD8

def eoi : UInt8 := 0xD9

def sos : UInt8 := 0xDA

/-- The application segment cartridge blocks travel in. -/
def app11 : UInt8 := 0xEB

/-- Markers that stand alone: the temporary marker and the eight restart
markers. Every other marker between start and scan has a length and a payload. -/
def standsAlone (marker : UInt8) : Bool :=
  marker = 0x01 || (0xD0 ≤ marker && marker ≤ 0xD7)

/-- A marker with a length and a payload. It starts at the byte that introduces
its marker, not at the fill before it, and ends behind its payload. -/
structure Segment where
  marker : UInt8
  start : Nat
  payload : Bytes
  deriving DecidableEq, Repr

namespace Segment

/-- Offset behind the last payload byte: introducer, marker and length take
four bytes. -/
def stop (s : Segment) : Nat :=
  s.start + 4 + s.payload.length

/-- A cartridge segment is an application segment whose payload opens with the
block magic. Application segments of other programs are left alone. -/
def isCartridge (s : Segment) : Bool :=
  s.marker = app11 && Block.magic.isPrefixOf s.payload

end Segment

/-- Skip a run of fill bytes, keeping count of the offset. -/
def skipFill (offset : Nat) : Bytes → Nat × Bytes
  | [] => (offset, [])
  | b :: rest => if b = lead then skipFill (offset + 1) rest else (offset, b :: rest)

/-- One item of the stream: the end of the walk, or an item to pass over with
the offset and the bytes behind it. -/
inductive Step where
  | stop (outcome : Except StructuralError Nat)
  | standalone (offset : Nat) (rest : Bytes)
  | segment (segment : Segment) (rest : Bytes)

/-- Read the length and the payload of a segment. The length counts its own two
bytes. A file that ends inside the payload is truncated at its end. -/
def readSegment (marker : UInt8) (start : Nat) :
    Bytes → Except StructuralError (Segment × Bytes)
  | hi :: lo :: rest =>
      let length := BigEndian.value [hi, lo]
      if length < 2 then .error (.segmentLength start (UInt16.ofNat length))
      else
        let (payload, behind) := rest.splitAt (length - 2)
        if payload.length < length - 2 then
          .error (.truncated (start + 4 + payload.length))
        else .ok ({ marker, start, payload }, behind)
  | _ => .error (.truncated (start + 2))

/-- Read one item at an offset. -/
def step (offset : Nat) : Bytes → Step
  | [] => .stop (.error (.truncated offset))
  | b :: rest =>
      if b ≠ lead then .stop (.error (.expectedMarker offset b))
      else
        match skipFill (offset + 1) rest with
        | (past, []) => .stop (.error (.truncated past))
        | (past, marker :: rest) =>
            if marker = sos then .stop (.ok (past - 1))
            else if marker = eoi then .stop (.error (.endBeforeScan (past - 1)))
            else if standsAlone marker then .standalone (past + 1) rest
            else
              match readSegment marker (past - 1) rest with
              | .error cause => .stop (.error cause)
              | .ok (s, rest) => .segment s rest

/-- Fill only ever shortens what is left. The walk ends because of this and the laws that follow. -/
theorem skipFill_length_le (offset : Nat) (bytes : Bytes) :
    (skipFill offset bytes).2.length ≤ bytes.length := by
  induction bytes generalizing offset with
  | nil => simp [skipFill]
  | cons b rest ih =>
      have hRest := ih (offset + 1)
      unfold skipFill
      split
      · simp only [List.length_cons]; omega
      · simp

theorem readSegment_length_lt {marker : UInt8} {start : Nat} {bytes rest : Bytes} {s : Segment}
    (h : readSegment marker start bytes = .ok (s, rest)) : rest.length < bytes.length := by
  unfold readSegment at h
  split at h
  · simp only [List.splitAt_eq] at h
    repeat' split at h
    · cases h
    · cases h
    · cases h
      simp only [List.length_drop, List.length_cons]
      omega
  · cases h

/-- An item passed over leaves fewer bytes than it was read from. -/
theorem step_standalone_length_lt {offset next : Nat} {bytes rest : Bytes}
    (h : step offset bytes = .standalone next rest) : rest.length < bytes.length := by
  unfold step at h
  split at h
  · cases h
  · next b tail =>
      have hSkip := skipFill_length_le (offset + 1) tail
      split at h
      · cases h
      · split at h
        · cases h
        · next hEq =>
            rw [hEq] at hSkip
            repeat' split at h
            all_goals cases h
            simp only [List.length_cons] at hSkip ⊢
            omega

theorem step_segment_length_lt {offset : Nat} {bytes rest : Bytes} {s : Segment}
    (h : step offset bytes = .segment s rest) : rest.length < bytes.length := by
  unfold step at h
  split at h
  · cases h
  · next b tail =>
      have hSkip := skipFill_length_le (offset + 1) tail
      split at h
      · cases h
      · split at h
        · cases h
        · next hEq =>
            rw [hEq] at hSkip
            repeat' split at h
            all_goals cases h
            next hRead =>
              have hLess := readSegment_length_lt hRead
              simp only [List.length_cons] at hSkip ⊢
              omega

/-- What a walk saw: the segments in file order up to its end, and how it
ended. A good end is the offset of the scan marker. -/
structure Walk where
  segments : List Segment
  outcome : Except StructuralError Nat

/-- Walk on from an offset, with the segments seen so far in reverse. -/
def walkFrom (seen : List Segment) (offset : Nat) (bytes : Bytes) : Walk :=
  match _hStep : step offset bytes with
  | .stop outcome => ⟨seen.reverse, outcome⟩
  | .standalone next rest => walkFrom seen next rest
  | .segment s rest => walkFrom (s :: seen) s.stop rest
termination_by bytes.length
decreasing_by
  · exact step_standalone_length_lt _hStep
  · exact step_segment_length_lt _hStep

def walk : Bytes → Walk
  | b :: c :: rest =>
      if b = lead ∧ c = soi then walkFrom [] 2 rest else ⟨[], .error .notJpeg⟩
  | _ => ⟨[], .error .notJpeg⟩

/-- Where cartridge segments go: right before the scan marker. -/
def locate (jpeg : Bytes) : Except StructuralError Nat :=
  (walk jpeg).outcome

end ImageCartridge.Marker
