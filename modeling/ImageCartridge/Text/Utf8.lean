import ImageCartridge.Bytes

/-! Texts as byte strings. Strict decoding accepts exactly the well-formed
byte strings; lossy decoding accepts all and marks what it cannot read. -/
namespace ImageCartridge.Text.Utf8

def encode (s : String) : Bytes :=
  s.toByteArray.data.toList

def decode? (bytes : Bytes) : Option String :=
  String.fromUTF8? ⟨bytes.toArray⟩

/-- Stands for bytes that spell no character. -/
def replacement : Char := '\ufffd'

/-- The length of the character a lead byte announces, and the range its second
byte must lie in. Overlong forms, surrogates and values past the last code
point are excluded here; a byte that leads nothing gives `none`. -/
def lead? (b : UInt8) : Option (Nat × UInt8 × UInt8) :=
  if b < 0x80 then some (1, 0, 0)
  else if b < 0xC2 then none
  else if b < 0xE0 then some (2, 0x80, 0xBF)
  else if b = 0xE0 then some (3, 0xA0, 0xBF)
  else if b = 0xED then some (3, 0x80, 0x9F)
  else if b < 0xF0 then some (3, 0x80, 0xBF)
  else if b = 0xF0 then some (4, 0x90, 0xBF)
  else if b < 0xF4 then some (4, 0x80, 0xBF)
  else if b = 0xF4 then some (4, 0x80, 0x8F)
  else none

/-- How many of the bytes after a lead continue its character. Only the first
of them has a range of its own. -/
def continuing (low high : UInt8) : Nat → Bytes → Nat
  | 0, _ => 0
  | _, [] => 0
  | wanted + 1, b :: rest =>
      if low ≤ b ∧ b ≤ high then 1 + continuing 0x80 0xBF wanted rest else 0

/-- Read a text without ever failing. A character cut short by a byte that
cannot continue it is marked once, and reading resumes at that byte. -/
def lossy : Bytes → List Char
  | [] => []
  | b :: rest =>
      match lead? b with
      | none => replacement :: lossy rest
      | some (size, low, high) =>
          let taken := continuing low high (size - 1) rest
          let chars :=
            if taken + 1 = size then
              match decode? (b :: rest.take taken) with
              | some s => s.toList
              | none => [replacement]
            else [replacement]
          chars ++ lossy (rest.drop taken)
termination_by bytes => bytes.length
decreasing_by
  · simp
  · simp only [List.length_drop, List.length_cons]; omega

end ImageCartridge.Text.Utf8
