import ImageCartridge.Toml.Datetime

/-! The data a TOML document describes, and how it is read as fields, options
and records. -/
namespace ImageCartridge.Toml

/-- A value of a document. Tables keep the order of their keys. The elements of
an array of tables are the tables of an array. -/
inductive Value where
  | string (text : String)
  | integer (n : Int)
  | float (x : Float)
  | boolean (b : Bool)
  | datetime (moment : Datetime)
  | array (elements : List Value)
  | table (entries : List (String × Value))

namespace Value

def string? : Value → Option String
  | string text => some text
  | _ => none

/-- The number of an integer, if it is at most a limit and not negative. -/
def natural? (limit : Nat) : Value → Option Nat
  | integer (.ofNat n) => if n ≤ limit then some n else none
  | _ => none

/-- A coordinate, rounded to single precision. Integers are rounded at once, not
by way of double precision. -/
def scalar? : Value → Option Float32
  | integer n => some (Int64.ofInt n).toFloat32
  | float x => some x.toFloat32
  | _ => none

def array? : Value → Option (List Value)
  | array elements => some elements
  | _ => none

/-- The key of the only entry of a date that stands for a table. -/
def datetimeKey : String := "$__toml_private_datetime"

/-- The entries of a table. A date or time stands for a table with one entry,
its written form. -/
def table? : Value → Option (List (String × Value))
  | table entries => some entries
  | datetime moment => some [(datetimeKey, string moment.text)]
  | _ => none

/-- The fields of a record with the given names, in their order. A record may
be written as a table, or as an array of its first fields; whatever has no name
is passed over. -/
def record? (names : List String) : Value → Option (List (Option Value))
  | array elements => some (names.mapIdx fun place _ => elements[place]?)
  | value => value.table?.map fun entries => names.map fun name => entries.lookup name

/-- One of several named options. An option is written as its name, or as the
only key of a table with nothing in it. -/
def option? {α : Type} (options : List (String × α)) : Value → Option α
  | string text => options.lookup text
  | table [(key, table [])] | table [(key, array [])] => options.lookup key
  | _ => none

end Value

/-- A field that may be left out. It must fit its type where it is given. -/
def optionalField {α : Type} (read : Value → Option α) (default : α) :
    Option Value → Option α
  | none => some default
  | some value => read value

def requiredField {α : Type} (read : Value → Option α) (field : Option Value) : Option α :=
  field.bind read

end ImageCartridge.Toml
