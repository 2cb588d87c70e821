import ImageCartridge.OrderedMap
import ImageCartridge.Payload.Reader
import ImageCartridge.Text.Utf8

/-! The string table is a list of named texts. Its payload is the number of
entries in two bytes, and for each entry the key and the value, both with their
length in two bytes before them. -/
namespace ImageCartridge

open Payload Text

/-- Texts by key, in insertion order. -/
structure StringTable where
  texts : OrderedMap String String
  deriving DecidableEq

namespace StringTable

def empty : StringTable := ⟨.empty⟩

def toList (table : StringTable) : List (String × String) :=
  table.texts.toList

def size (table : StringTable) : Nat :=
  table.texts.size

def insert (table : StringTable) (key value : String) : StringTable :=
  let ⟨texts⟩ := table
  ⟨texts.insert key value⟩

def get? (table : StringTable) (key : String) : Option String :=
  table.texts.get? key

/-- The table of a list of entries. A repeated key keeps its first place and its
last text. -/
def ofList (entries : List (String × String)) : StringTable :=
  ⟨.ofList entries⟩

/-- The largest number a length field of two bytes can hold. -/
def fieldLimit : Nat := 65535

def textBytes (s : String) : Except SchemaError Bytes :=
  let bytes := Utf8.encode s
  if bytes.length ≤ fieldLimit then .ok (BigEndian.encode 2 bytes.length ++ bytes)
  else .error (.tooLong "string table entry")

def entryBytes (entry : String × String) : Except SchemaError Bytes := do
  let key ← textBytes entry.1
  let value ← textBytes entry.2
  return key ++ value

/-- The payload of a table. The number of entries is checked before any text. -/
def toBytes (table : StringTable) : Except SchemaError Bytes :=
  if table.size ≤ fieldLimit then do
    let records ← table.toList.mapM entryBytes
    return BigEndian.encode 2 table.size ++ records.flatten
  else .error (.tooLong "string table")

def readText : Read String := do
  let length ← Reader.word16
  match Utf8.decode? (← Reader.take length.toNat) with
  | some s => return s
  | none => throw .invalidUtf8

def readEntries : Nat → StringTable → Read StringTable
  | 0, table => return table
  | count + 1, table => do
      let key ← readText
      let value ← readText
      readEntries count (table.insert key value)

def ofBytes (bytes : Bytes) : Except SchemaError StringTable :=
  Reader.decode "string table" (do readEntries (← Reader.word16).toNat empty) bytes

end StringTable

end ImageCartridge
