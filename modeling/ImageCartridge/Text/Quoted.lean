import ImageCartridge.Text.Hex
import ImageCartridge.Text.Unprintable

/-! Quoted texts, safe to print on one line. -/
namespace ImageCartridge.Text.Quoted

/-- How one character is written between the quotes. Quotes and backslashes are
escaped, and so are unprintable characters, by a letter or else by their code
point. Every other character stands for itself. -/
def escape (c : Char) : List Char :=
  if c = '"' then ['\\', '"']
  else if c = '\\' then ['\\', '\\']
  else if c = '\n' then ['\\', 'n']
  else if c = '\r' then ['\\', 'r']
  else if c = '\t' then ['\\', 't']
  else if c = '\x00' then ['\\', '0']
  else if Unprintable.holds c then
    ['\\', 'u', '\x7b'] ++ (Hex.digits 1 c.toNat).toList ++ ['\x7d']
  else [c]

def encode (s : String) : String :=
  String.ofList ('"' :: s.toList.flatMap escape ++ ['"'])

end ImageCartridge.Text.Quoted
