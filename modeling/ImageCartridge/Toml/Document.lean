import ImageCartridge.Toml.Datetime
import ImageCartridge.Toml.Lexical
import ImageCartridge.Toml.Number
import ImageCartridge.Toml.Tree

/-! Reading a whole TOML document. Readers that call each other are bounded by
a fuel, which the number of characters of the document always covers: each call
passes over at least one of them. -/
namespace ImageCartridge.Toml

def isWordChar (c : Char) : Bool :=
  c.isAlphanum || c = '_' || c = '+' || c = '-' || c = '.' || c = ':'

def wordValue? (word : List Char) : Option Value :=
  if word = "true".toList then some (.boolean true)
  else if word = "false".toList then some (.boolean false)
  else
    (integer? word).map Value.integer
      <|> (float? word).map Value.float
      <|> (Datetime.parse? word).map Value.datetime

/-- A word and what follows it. A date may be followed by a blank and a time. -/
def splitWord (chars : List Char) : List Char × List Char :=
  let word := chars.takeWhile isWordChar
  match chars.dropWhile isWordChar with
  | ' ' :: rest =>
      if (Date.read? word).any (·.2.isEmpty) && rest.head?.any Char.isDigit then
        (word ++ ' ' :: rest.takeWhile isWordChar, rest.dropWhile isWordChar)
      else (word, ' ' :: rest)
  | rest => (word, rest)

mutual

/-- A value of any kind. The depth counts the arrays and inline tables around
it. -/
def readValue (depth : Nat) : Nat → List Char → Option (Value × List Char)
  | 0, _ => none
  | fuel + 1, chars =>
      match chars with
      | '[' :: rest =>
          if depthLimit ≤ depth + 1 then none else readElements (depth + 1) fuel [] rest
      | '{' :: rest =>
          if depthLimit ≤ depth + 1 then none
          else
            match skipBlanks rest with
            | '}' :: rest => some (.table [], rest)
            | _ => readPairs (depth + 1) fuel [] rest
      | '"' :: _ | '\x27' :: _ => do
          let (text, rest) ← stringLiteral chars
          return (.string text, rest)
      | _ => do
          let (word, rest) := splitWord chars
          return (← wordValue? word, rest)

/-- The rest of an array. A comma may follow the last element, and lines may end
anywhere between elements. -/
def readElements (depth : Nat) : Nat → List Value → List Char → Option (Value × List Char)
  | 0, _, _ => none
  | fuel + 1, seen, chars =>
      match skipLines chars with
      | ']' :: rest => some (.array seen.reverse, rest)
      | chars => do
          let (v, rest) ← readValue depth fuel chars
          match skipLines rest with
          | ',' :: rest => readElements depth fuel (v :: seen) rest
          | ']' :: rest => return (.array (v :: seen).reverse, rest)
          | _ => none

/-- The rest of an inline table, which stands on one line. -/
def readPairs (depth : Nat) : Nat → Children → List Char → Option (Value × List Char)
  | 0, _, _ => none
  | fuel + 1, children, chars => do
      let (key, rest) ← dottedKey chars
      let rest ← after? '=' rest
      let (v, rest) ← readValue depth fuel (skipBlanks rest)
      let children ← putValue v key children
      match skipBlanks rest with
      | ',' :: rest => readPairs depth fuel children rest
      | '}' :: rest => return (.table (closeChildren children), rest)
      | _ => none

end

/-- A document being read: its top table, and the path of the last header. -/
structure Draft where
  root : Children
  path : List String

/-- The header of a table or of an element of an array of tables, behind its
opening brackets. -/
def readHeader (declare : String → Children → Option Children) (closing : List Char)
    (draft : Draft) (chars : List Char) : Option (Draft × List Char) := do
  let (key, rest) ← dottedKey chars
  let rest ← if closing.isPrefixOf rest then some (rest.drop closing.length) else none
  let last ← key.getLast?
  let root ← alterTable (declare last) key.dropLast draft.root
  return ({ root, path := key }, ← finishLine? rest)

def readEntry (fuel : Nat) (draft : Draft) (chars : List Char) :
    Option (Draft × List Char) := do
  let (key, rest) ← dottedKey chars
  let rest ← after? '=' rest
  let (v, rest) ← readValue 0 fuel (skipBlanks rest)
  let root ← alterTable (putValue v key) draft.path draft.root
  return ({ draft with root }, ← finishLine? rest)

def readLines : Nat → Draft → List Char → Option Draft
  | 0, _, _ => none
  | fuel + 1, draft, chars =>
      match skipLines chars with
      | [] => some draft
      | '[' :: '[' :: rest => do
          let (draft, rest) ← readHeader declareElement "]]".toList draft rest
          readLines fuel draft rest
      | '[' :: rest => do
          let (draft, rest) ← readHeader declareTable "]".toList draft rest
          readLines fuel draft rest
      | '#' :: rest => if (rest.dropWhile isText).isEmpty then some draft else none
      | chars => do
          let (draft, rest) ← readEntry fuel draft chars
          readLines fuel draft rest

def skipMark : List Char → List Char
  | '\ufeff' :: rest => rest
  | chars => chars

/-- The table a document describes. A document that breaks any rule has none. -/
def parse? (text : String) : Option Value := do
  let chars := skipMark text.toList
  let draft ← readLines (chars.length + 1) { root := [], path := [] } chars
  return .table (closeChildren draft.root)

end ImageCartridge.Toml
