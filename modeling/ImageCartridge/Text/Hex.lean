import ImageCartridge.Bytes

/-! Hexadecimal texts, always in lower case. -/
namespace ImageCartridge.Text.Hex

/-- The digits of a number, filled up with leading zeros to a least width.
A number that is wider keeps all its digits. -/
def digits (width n : Nat) : String :=
  let shortest := Nat.toDigits 16 n
  String.ofList (List.replicate (width - shortest.length) '0' ++ shortest)

/-- A number marked as hexadecimal. The width counts the digits only. -/
def number (width n : Nat) : String :=
  "0x" ++ digits width n

def byte (b : UInt8) : String :=
  digits 2 b.toNat

/-- A bracketed list of bytes, `[4a, 43]`. -/
def byteList (bytes : Bytes) : String :=
  "[" ++ ", ".intercalate (bytes.map byte) ++ "]"

end ImageCartridge.Text.Hex
